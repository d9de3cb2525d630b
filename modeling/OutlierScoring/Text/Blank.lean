/-!
# Blank characters

The characters with the Unicode property `White_Space`, and the trimming of texts by them.
-/

namespace OutlierScoring.Text

/-- A character with the Unicode property `White_Space`. -/
def isBlank (c : Char) : Bool :=
  let code := c.toNat
  (9 ≤ code && code ≤ 13) || code == 0x20 || code == 0x85 || code == 0xA0 || code == 0x1680 ||
    (0x2000 ≤ code && code ≤ 0x200A) || code == 0x2028 || code == 0x2029 || code == 0x202F ||
    code == 0x205F || code == 0x3000

/-- Everything after the leading blanks. -/
def dropBlanks (s : List Char) : List Char := s.dropWhile isBlank

/-- The text without the blanks at both of its ends. -/
def trim (text : String) : String :=
  String.ofList (dropBlanks (dropBlanks text.toList).reverse).reverse

/-- The visible characters of ASCII are not blank. -/
theorem isBlank_of_visible {c : Char} (hlow : 33 ≤ c.toNat) (hhigh : c.toNat ≤ 126) :
    isBlank c = false := by
  simp only [isBlank, Bool.or_eq_false_iff, Bool.and_eq_false_iff, decide_eq_false_iff_not,
    beq_eq_false_iff_ne]
  omega

end OutlierScoring.Text
