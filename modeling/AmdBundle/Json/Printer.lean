import AmdBundle.Json.Basic
import AmdBundle.Number.Shortest
import AmdBundle.Text.Quoted

/-!
# Printing JSON

* `compact` : without blanks;
* `pretty` : one item or member on a line, two spaces further to the right than its bracket.
-/

set_option autoImplicit false

namespace AmdBundle.Json

def wholeText (value : Int) : Text :=
  if value < 0 then '-' :: Text.ofNat value.natAbs else Text.ofNat value.natAbs

def Number.text : Json.Number → Text
  | .whole value => wholeText value
  | .binary value => value.jsonText

/-- The text of a value that is not a list or an object. -/
def boolText (value : Bool) : Text :=
  if value then "true".toList else "false".toList

mutual

def compact : Json → Text
  | .null => "null".toList
  | .bool value => boolText value
  | .number value => value.text
  | .string value => Text.quote value
  | .array items => '[' :: (compactItems items ++ [']'])
  | .object fields => '{' :: (compactFields fields ++ ['}'])

def compactItems : List Json → Text
  | [] => []
  | [item] => compact item
  | item :: more => compact item ++ ',' :: compactItems more

def compactFields : List (Text × Json) → Text
  | [] => []
  | [(key, value)] => Text.quote key ++ ':' :: compact value
  | (key, value) :: more => Text.quote key ++ ':' :: (compact value ++ ',' :: compactFields more)

end

def inner (margin : Text) : Text :=
  ' ' :: ' ' :: margin

mutual

/-- A value whose later lines start behind a margin. -/
def prettyAt (margin : Text) : Json → Text
  | .null => "null".toList
  | .bool value => boolText value
  | .number value => value.text
  | .string value => Text.quote value
  | .array [] => "[]".toList
  | .array (item :: more) =>
    '[' :: (prettyItems (inner margin) (item :: more) ++ '\n' :: (margin ++ [']']))
  | .object [] => "\x7b\x7d".toList
  | .object (field :: more) =>
    '{' :: (prettyFields (inner margin) (field :: more) ++ '\n' :: (margin ++ ['}']))

/-- Items, each on lines of its own. -/
def prettyItems (margin : Text) : List Json → Text
  | [] => []
  | [item] => '\n' :: (margin ++ prettyAt margin item)
  | item :: more => '\n' :: (margin ++ prettyAt margin item ++ ',' :: prettyItems margin more)

/-- Members, each on lines of its own. -/
def prettyFields (margin : Text) : List (Text × Json) → Text
  | [] => []
  | [(key, value)] => '\n' :: (margin ++ Text.quote key ++ ':' :: ' ' :: prettyAt margin value)
  | (key, value) :: more =>
    '\n' :: (margin ++ Text.quote key ++ ':' :: ' ' :: (prettyAt margin value ++
      ',' :: prettyFields margin more))

end

def pretty (v : Json) : Text :=
  prettyAt [] v

end AmdBundle.Json
