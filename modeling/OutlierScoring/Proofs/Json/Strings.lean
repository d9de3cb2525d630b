import OutlierScoring.Json.Parser
import OutlierScoring.Json.Printer

/-!
# Strings of documents are read back

Every character is escaped or written as it is in such a way that the reader of a string takes it
for one character (`textBody?_writeChar`). Texts that were written are therefore read back as they
are, whatever follows them (`text?_foldr`).
-/

namespace OutlierScoring.Json

theorem hexValue4?_hexDigit :
    ∀ n < 32, hexValue4? '0' '0' (hexDigit (n / 16)) (hexDigit n) = some n := by
  decide

/-- A character that was written is read as one character. -/
theorem textBody?_writeChar (c : Char) (read rest : List Char) :
    textBody? none true read (writeChar c rest) = textBody? none true (c :: read) rest := by
  unfold writeChar
  split
  · rw [textBody?] <;> simp [escaped?]
  · rw [textBody?] <;> simp [escaped?]
  · rw [textBody?] <;> simp [escaped?]
  · rw [textBody?] <;> simp [escaped?]
  · rw [textBody?] <;> simp [escaped?]
  · rw [textBody?] <;> simp [escaped?]
  · rw [textBody?] <;> simp [escaped?]
  · rename_i hquote hbackslash _ _ _ _ _
    split
    · rename_i hcontrol
      rw [textBody?, hexValue4?_hexDigit _ hcontrol]
      -- A control character is no half of a pair, so that one escape is all of it.
      simp only [show ¬(0xD800 ≤ c.toNat ∧ c.toNat ≤ 0xDBFF) by omega,
        show ¬(0xDC00 ≤ c.toNat ∧ c.toNat ≤ 0xDFFF) by omega, if_false, Char.ofNat_toNat]
      rfl
    · rename_i hcontrol
      rw [textBody?]
      · rw [if_neg (not_or.mpr ⟨hbackslash, hcontrol⟩)]
        rfl
      · exact hquote
      · exact fun _ _ _ _ _ heq _ ↦ hbackslash heq
      · exact fun _ _ heq _ ↦ hbackslash heq

/-- The characters of a text that was written are read one after the other. -/
theorem textBody?_foldr (s read rest : List Char) :
    textBody? none true read (s.foldr writeChar ('"' :: rest)) =
      some (true, read.reverse ++ s, rest) := by
  induction s generalizing read with
  | nil =>
    rw [List.foldr_nil, textBody?, List.append_nil]
    rfl
  | cons c s ih =>
    rw [List.foldr_cons, textBody?_writeChar, ih]
    simp

theorem text?_foldr (s : String) (rest : List Char) :
    text? (s.toList.foldr writeChar ('"' :: rest)) = some (some s, rest) := by
  rw [text?, textBody?_foldr]
  simp

end OutlierScoring.Json
