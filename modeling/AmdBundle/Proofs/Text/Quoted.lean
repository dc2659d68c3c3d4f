import AmdBundle.Text.Quoted

/-!
# Quoted text stays on one line

Every character of a quoted text is printed as some characters, none of which is a line feed.

* `jsonEscape_ne_nil`, `feed_not_mem_quote` : JSON strings;
* `scriptEscape_ne_nil`, `feed_not_mem_scriptQuote` : script strings.
-/

set_option autoImplicit false

namespace AmdBundle.Text

theorem jsonEscape_ne_nil (c : Char) : jsonEscape c ≠ [] := by
  unfold jsonEscape controlEscape
  repeat' split
  all_goals simp

theorem scriptEscape_ne_nil (c : Char) : scriptEscape c ≠ [] := by
  unfold scriptEscape
  repeat' split
  · decide
  · decide
  · exact jsonEscape_ne_nil c

theorem hexDigit_ne_feed : ∀ n < 16, hexDigit n ≠ '\n' := by decide

theorem feed_not_mem_controlEscape {c : Char} (hc : c.toNat < 32) : '\n' ∉ controlEscape c := by
  have hhigh := hexDigit_ne_feed (c.toNat / 16) (by omega)
  have hlow := hexDigit_ne_feed (c.toNat % 16) (by omega)
  simp [controlEscape, hhigh.symm, hlow.symm]

theorem feed_not_mem_jsonEscape (c : Char) : '\n' ∉ jsonEscape c := by
  by_cases hc : c = '\n'
  · subst hc
    decide
  · unfold jsonEscape
    repeat' split
    all_goals first | exact feed_not_mem_controlEscape ‹_› | simp [Ne.symm hc]

theorem feed_not_mem_scriptEscape (c : Char) : '\n' ∉ scriptEscape c := by
  unfold scriptEscape
  repeat' split
  · decide
  · decide
  · exact feed_not_mem_jsonEscape c

theorem feed_not_mem_quote (text : Text) : '\n' ∉ quote text := by
  simp [quote, feed_not_mem_jsonEscape]

theorem feed_not_mem_scriptQuote (text : Text) : '\n' ∉ scriptQuote text := by
  simp [scriptQuote, feed_not_mem_scriptEscape]

end AmdBundle.Text
