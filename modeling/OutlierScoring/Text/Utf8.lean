/-!
# UTF-8

How many bytes at the front of a byte sequence are well-formed UTF-8. A well-formed sequence has
the shortest form of each character and no surrogates, so that the second byte of a character is
sometimes confined to a part of the continuation bytes.
-/

namespace OutlierScoring.Utf8

/-- A byte that continues a character. -/
def isTail (b : UInt8) : Bool := 0x80 ≤ b && b ≤ 0xBF

/-- The length of the character at the front, if there is a well-formed one. -/
def charLength? : List UInt8 → Option Nat
  | [] => none
  | a :: rest =>
    if a ≤ 0x7F then some 1
    else if 0xC2 ≤ a && a ≤ 0xDF then
      match rest with
      | b :: _ => if isTail b then some 2 else none
      | _ => none
    else if 0xE0 ≤ a && a ≤ 0xEF then
      match rest with
      | b :: c :: _ =>
        let second :=
          if a == 0xE0 then 0xA0 ≤ b && b ≤ 0xBF
          else if a == 0xED then 0x80 ≤ b && b ≤ 0x9F
          else isTail b
        if second && isTail c then some 3 else none
      | _ => none
    else if 0xF0 ≤ a && a ≤ 0xF4 then
      match rest with
      | b :: c :: d :: _ =>
        let second :=
          if a == 0xF0 then 0x90 ≤ b && b ≤ 0xBF
          else if a == 0xF4 then 0x80 ≤ b && b ≤ 0x8F
          else isTail b
        if second && isTail c && isTail d then some 4 else none
      | _ => none
    else none

/-- The number of bytes before the first ill-formed place; `fuel` bounds the characters. -/
def validPrefixAux (count : Nat) (bytes : List UInt8) : Nat → Nat
  | 0 => count
  | fuel + 1 =>
    match charLength? bytes with
    | none => count
    | some n => validPrefixAux (count + n) (bytes.drop n) fuel

/-- The number of bytes before the first ill-formed place, all of them if there is none. -/
def validPrefix (bytes : List UInt8) : Nat := validPrefixAux 0 bytes bytes.length

/-- The text of a byte sequence, if it is well-formed. -/
def decode? (bytes : List UInt8) : Option String := String.fromUTF8? ⟨bytes.toArray⟩

end OutlierScoring.Utf8
