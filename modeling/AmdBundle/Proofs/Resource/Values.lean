import AmdBundle.Proofs.Base64
import AmdBundle.Proofs.Json.RoundTrip
import AmdBundle.Proofs.Script.Literal
import AmdBundle.Resource.Fragment

/-!
# What the values of files denote

The value of a text, a stylesheet or of bytes is made of literals, each of which stands on one line.
So the lines of a value may be moved to the right, and its literals stay as they are.

* `IsLiteral` : a text that is one literal on one line, and what it denotes;
* `literalLines` : literals on lines of their own, between brackets; they move as a whole;
* `Carries` : a value, before and behind a move, from which the file is got back;
* `carries_value` : every value of a file that can be read does.
-/

set_option autoImplicit false

namespace AmdBundle

open Text (newLine)

/-! ## Literals -/

/-- The literal stands on one line. Whatever stands behind it, it is read as the text, by a reader of
JSON and by a reader of scripts. -/
structure IsLiteral (text literal : Text) : Prop where
  line : ∀ c ∈ literal, Script.isLineEnd c = false
  value (depth : Nat) (rest : Text) :
    Json.value depth (literal ++ rest) = .ok (.string text, rest)
  denotes (rest : Text) : Script.readLiteral (literal ++ rest) = some (Script.units text, rest)

theorem isLiteral_scriptQuote (text : Text) : IsLiteral text (Text.scriptQuote text) where
  line _ hc := Script.isLineEnd_of_mem_scriptQuote hc
  value depth rest := Json.value_scriptQuote text depth rest
  denotes rest := Script.readLiteral_scriptQuote text rest

theorem shift_scriptQuote (k : Nat) (text : Text) :
    Text.shift k (Text.scriptQuote text) = Text.scriptQuote text :=
  Text.shift_of_not_mem (Text.feed_not_mem_scriptQuote text) k

/-! ## Literals on lines of their own -/

/-- Literals between brackets, each on a line of its own. -/
def literalLines (n : Nat) (literals : List Text) : Text :=
  '[' :: (newLine (n + 4) ++ (',' :: newLine (n + 4)).intercalate literals ++ newLine n ++ [']'])

theorem shift_literalLines (k n : Nat) (texts : List Text) :
    Text.shift k (literalLines n (texts.map Text.scriptQuote)) =
      literalLines (n + k) (texts.map Text.scriptQuote) := by
  have hliterals : (texts.map Text.scriptQuote).map (Text.shift k) = texts.map Text.scriptQuote := by
    rw [List.map_map]
    exact List.map_congr_left fun text _ => shift_scriptQuote k text
  have hsep : Text.shift k (',' :: newLine (n + 4)) = ',' :: newLine (n + k + 4) := by
    rw [Text.shift_cons (by decide), Text.shift_newLine, Nat.add_right_comm]
  have hclose : Text.shift k [']'] = [']'] := Text.shift_of_not_mem (by decide) k
  rw [literalLines, Text.shift_cons (by decide), Text.shift_append, Text.shift_append,
    Text.shift_append, Text.shift_intercalate, Text.shift_newLine, Text.shift_newLine, hsep,
    hliterals, hclose, Nat.add_right_comm]
  rfl

/-- The literals are read as a list of strings. -/
theorem value_literalLines (n depth : Nat) (texts : List Text) (rest : Text) :
    Json.value (depth + 1) (literalLines n (texts.map Text.scriptQuote) ++ rest) =
      .ok (.array (texts.map .string), rest) := by
  have hparts : List.Forall₂ (Json.ReadsPart (Json.value depth)) (texts.map .string)
      (texts.map Text.scriptQuote) := by
    refine List.forall₂_map_left_iff.mpr (List.forall₂_map_right_iff.mpr ?_)
    exact List.forall₂_same.mpr fun text _ =>
      ⟨⟨'"', _, rfl, rfl, by decide⟩, fun rest _ => Json.value_scriptQuote text depth rest⟩
  have hitems := Json.items_parts (Json.isBlank_newLine (n + 4)) (Json.isBlank_newLine (n + 4))
    (Json.isBlank_newLine n) hparts rest
  rw [literalLines, List.cons_append, Json.value_list, List.append_assoc, List.singleton_append,
    hitems]
  rfl

namespace Fragment

/-! ## Stylesheets -/

/-- The lines of a stylesheet without carriage returns. -/
def styleTexts (content : Text) : List Text :=
  (content.splitOn '\n').map fun line => line.filter fun c => c != '\r'

def joinCall : Text :=
  ".join('\\n')".toList

/-- Lines with a margin between brackets. The words are variables, since they are slow to compare. -/
theorem lines_between {head sep margin tail gap call : Text} {parts : List Text} (hne : parts ≠ [])
    (hhead : head ++ margin = '[' :: gap) (hsep : sep ++ margin = ',' :: gap) {close : Text}
    (htail : tail = close ++ ']' :: call) :
    head ++ sep.intercalate (parts.map (margin ++ ·)) ++ tail =
      '[' :: (gap ++ (',' :: gap).intercalate parts ++ close ++ [']']) ++ call := by
  rw [Lists.intercalate_map_append sep margin hne, hsep, ← List.append_assoc, hhead, htail]
  simp

theorem styleArray_eq (content : Text) :
    styleArray content =
      literalLines 4 ((styleTexts content).map Text.scriptQuote) ++ joinCall := by
  have hlines : (content.splitOn '\n').map styleLine =
      ((styleTexts content).map Text.scriptQuote).map ("        ".toList ++ ·) := by
    rw [styleTexts, List.map_map, List.map_map]
    rfl
  have hne : (styleTexts content).map Text.scriptQuote ≠ [] := by
    simp [styleTexts, List.splitOn_ne_nil]
  rw [styleArray, hlines]
  exact lines_between hne (by decide +kernel) (by decide +kernel) (by decide +kernel)

theorem intercalate_styleTexts (content : Text) :
    ['\n'].intercalate (styleTexts content) = content.filter fun c => c != '\r' := by
  have hjoin : ['\n'].intercalate (content.splitOn '\n') = content := List.intercalate_splitOn '\n'
  have hfilter := Lists.apply_intercalate (f := List.filter fun c => c != '\r') rfl
    (fun a b => List.filter_append a b) ['\n'] (content.splitOn '\n')
  rw [hjoin] at hfilter
  exact hfilter.symm

/-! ## Bytes -/

/-- A call that makes an array of bytes from a list. -/
def bytesCall (list : Text) : Text :=
  "new Uint8Array(".toList ++ list ++ ")".toList

def byteList (bytes : Bytes) : Text :=
  '[' :: ([','].intercalate (bytes.map fun b => Text.ofNat b.toNat) ++ [']'])

theorem list_between {head tail call close : Text} (hhead : head = call ++ ['['])
    (htail : tail = ']' :: close) (items : Text) :
    head ++ items ++ tail = call ++ '[' :: (items ++ [']']) ++ close := by
  simp [hhead, htail]

theorem byteArray_eq (bytes : Bytes) : byteArray bytes = bytesCall (byteList bytes) :=
  list_between (by decide +kernel) (by decide +kernel) _

def byteValues (bytes : Bytes) : List Json :=
  bytes.map fun b => .number (.whole b.toNat)

/-- The digits of a byte. -/
theorem readsPart_byte (depth : Nat) (b : UInt8) :
    Json.ReadsPart (Json.value depth) (.number (.whole b.toNat)) (Text.ofNat b.toNat) where
  starts := by
    obtain ⟨c, digits, heq, hdigit⟩ := Json.exists_ofNat_eq b.toNat
    exact ⟨c, digits, heq, Json.isSpace_digit hdigit, Json.ne_of_isDigit hdigit rfl⟩
  reads rest hrest := by
    have hb := b.toNat_lt
    have hlow : -Int.pow 2 63 ≤ (b.toNat : Int) := Int.le_trans (by decide) (Int.natCast_nonneg _)
    have hhigh : (b.toNat : Int) < Int.pow 2 64 := Int.lt_trans (Int.ofNat_lt.mpr hb) (by decide)
    exact Json.value_wholeText hlow hhigh hrest depth

/-- The list is read as the bytes in order. -/
theorem value_byteList (bytes : Bytes) (depth : Nat) (rest : Text) :
    Json.value (depth + 1) (byteList bytes ++ rest) =
      .ok (.array (byteValues bytes), rest) := by
  have hparts : List.Forall₂ (Json.ReadsPart (Json.value depth))
      (byteValues bytes) (bytes.map fun b => Text.ofNat b.toNat) :=
    List.forall₂_map_left_iff.mpr (List.forall₂_map_right_iff.mpr
      (List.forall₂_same.mpr fun b _ => readsPart_byte depth b))
  have hitems := Json.items_parts Json.isBlank_nil Json.isBlank_nil Json.isBlank_nil hparts rest
  rw [List.nil_append, List.append_nil] at hitems
  rw [byteList, List.cons_append, Json.value_list, List.append_assoc, List.singleton_append, hitems]
  rfl

theorem feed_not_mem_byteList (bytes : Bytes) : '\n' ∉ byteList bytes := by
  have hdigits : ∀ part ∈ bytes.map (fun b => Text.ofNat b.toNat), ∀ c ∈ part, c ≠ '\n' := by
    intro part hpart c hc
    obtain ⟨b, -, rfl⟩ := List.mem_map.mp hpart
    exact Json.ne_of_isDigit (Json.isDigit_of_mem_ofNat hc) rfl
  have hitems : ∀ c ∈ [','].intercalate (bytes.map fun b => Text.ofNat b.toNat), c ≠ '\n' :=
    Lists.forall_mem_intercalate (List.forall_mem_singleton.mpr (by decide)) hdigits
  simpa [byteList] using fun h => hitems _ h rfl

theorem feed_not_mem_bytesCall (bytes : Bytes) : '\n' ∉ bytesCall (byteList bytes) := by
  have hhead : '\n' ∉ "new Uint8Array(".toList := by decide +kernel
  have hclose : '\n' ∉ ")".toList := by decide +kernel
  exact List.not_mem_append (List.not_mem_append hhead (feed_not_mem_byteList bytes)) hclose

/-! ## Values that are moved to the right -/

/-- The file can be read as a text, as a stylesheet or as bytes, where the directive asks for that. -/
def IsReadable (fs : FileTree) (path : Path) : Directive → Prop
  | .text => ∃ text, fs.readText path = .ok text
  | .css => ∃ content, Stylesheet.inline fs path = .ok content
  | .base64 => ∃ bytes, fs.readBytes path = .ok bytes
  | .buffer => ∃ bytes, fs.readBytes path = .ok bytes
  | .json => False
  | .directory => False

/-- What the value of a file looks like before it is moved to the right by four blanks and behind the
move, and how the file is got back from its literals, which are the same ones. -/
inductive Carries (fs : FileTree) (path : Path) : Directive → Text → Text → Prop where
  /-- A literal that denotes the text of the file. -/
  | text {text literal : Text} (hfile : fs.readText path = .ok text)
      (hliteral : IsLiteral text literal) : Carries fs path .text literal literal
  /-- Literals that denote the lines of the stylesheet without carriage returns. -/
  | css {content : Text} {lines literals : List Text}
      (hfile : Stylesheet.inline fs path = .ok content)
      (hliterals : List.Forall₂ IsLiteral lines literals)
      (hvalue : ∀ n depth rest, Json.value (depth + 1) (literalLines n literals ++ rest) =
        .ok (.array (lines.map .string), rest))
      (hlines : ['\n'].intercalate lines = content.filter fun c => c != '\r') :
      Carries fs path .css (literalLines 4 literals ++ joinCall) (literalLines 8 literals ++ joinCall)
  /-- A literal that denotes the bytes of the file in base64. -/
  | base64 {bytes : Bytes} {written literal : Text} (hfile : fs.readBytes path = .ok bytes)
      (hliteral : IsLiteral written literal) (hdecode : Base64.decode written = some bytes) :
      Carries fs path .base64 literal literal
  /-- The list of the bytes of the file. -/
  | buffer {bytes : Bytes} {list : Text} (hfile : fs.readBytes path = .ok bytes)
      (hvalue : ∀ depth rest, Json.value (depth + 1) (list ++ rest) =
        .ok (.array (byteValues bytes), rest)) :
      Carries fs path .buffer (bytesCall list) (bytesCall list)

section
variable {fs : FileTree} {path : Path}

theorem carries_text {text : Text} (hfile : fs.readText path = .ok text) :
    Carries fs path .text (textValue fs path) (Text.shift 4 (textValue fs path)) := by
  have hvalue : textValue fs path = Text.scriptQuote text := by simp [textValue, hfile]
  rw [hvalue, shift_scriptQuote]
  exact .text hfile (isLiteral_scriptQuote text)

theorem carries_css {content : Text} (hfile : Stylesheet.inline fs path = .ok content) :
    Carries fs path .css (styleValue fs path) (Text.shift 4 (styleValue fs path)) := by
  have hvalue : styleValue fs path = styleArray content := by simp [styleValue, hfile]
  have hjoin : Text.shift 4 joinCall = joinCall := Text.shift_of_not_mem (by decide +kernel) 4
  rw [hvalue, styleArray_eq, Text.shift_append, shift_literalLines, hjoin]
  refine .css hfile ?_ (fun n depth rest => value_literalLines n depth _ rest)
    (intercalate_styleTexts content)
  exact List.forall₂_map_right_iff.mpr (List.forall₂_same.mpr fun line _ => isLiteral_scriptQuote line)

theorem carries_base64 {bytes : Bytes} (hfile : fs.readBytes path = .ok bytes) :
    Carries fs path .base64 (base64Value fs path) (Text.shift 4 (base64Value fs path)) := by
  have hvalue : base64Value fs path = Text.scriptQuote (Base64.encode bytes) := by
    simp [base64Value, hfile]
  rw [hvalue, shift_scriptQuote]
  exact .base64 hfile (isLiteral_scriptQuote _) (Base64.decode_encode bytes)

theorem carries_buffer {bytes : Bytes} (hfile : fs.readBytes path = .ok bytes) :
    Carries fs path .buffer (bufferValue fs path) (Text.shift 4 (bufferValue fs path)) := by
  have hvalue : bufferValue fs path = bytesCall (byteList bytes) := by
    simp [bufferValue, hfile, byteArray_eq]
  rw [hvalue, Text.shift_of_not_mem (feed_not_mem_bytesCall bytes)]
  exact .buffer hfile (value_byteList bytes)

/-- **A value carries its file**, wherever its lines are moved. -/
theorem carries_value {directive : Directive} (h : IsReadable fs path directive) :
    Carries fs path directive (value fs path directive)
      (Text.shift 4 (value fs path directive)) := by
  cases directive with
  | text =>
    obtain ⟨text, hfile⟩ := h
    exact carries_text hfile
  | css =>
    obtain ⟨content, hfile⟩ := h
    exact carries_css hfile
  | base64 =>
    obtain ⟨bytes, hfile⟩ := h
    exact carries_base64 hfile
  | buffer =>
    obtain ⟨bytes, hfile⟩ := h
    exact carries_buffer hfile
  | json => exact h.elim
  | directory => exact h.elim

end

end Fragment

end AmdBundle
