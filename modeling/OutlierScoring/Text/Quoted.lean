import OutlierScoring.Text.Printable

/-!
# Quoted texts in messages

A message shows a text that it complains about between double quotes, with every character that
could not be seen there written as an escape.
-/

namespace OutlierScoring.Text

/-- The code point of a character in lower-case hexadecimal. -/
def hexCode (c : Char) : String := String.ofList (Nat.toDigits 16 c.toNat)

/-- One character of a quoted text. -/
def quoteChar (c : Char) : String :=
  match c with
  | '\x00' => "\\0"
  | '\t' => "\\t"
  | '\r' => "\\r"
  | '\n' => "\\n"
  | '\\' => "\\\\"
  | '"' => "\\\""
  | c => if isPrintable c then c.toString else "\\u\x7b" ++ hexCode c ++ "\x7d"

/-- The text between double quotes. -/
def quoted (text : String) : String :=
  "\"" ++ text.foldl (fun out c ↦ out ++ quoteChar c) "" ++ "\""

end OutlierScoring.Text
