import OutlierScoring.Number.Numeral

/-!
# JSON documents

A document is kept as it was written: members of a record in their order and with repetitions, and
numbers as exact decimals. Decisions that depend on what a document is read *as* (the range of a
number, an unknown or a repeated member, how deep it may nest) belong to `Json.Form`, so that parts
that nobody reads can hold anything that is a document at all.
-/

namespace OutlierScoring

/-- A number of a document. Digits without point and exponent are an integer, except for `-0`,
which is a real because integers have no negative zero. -/
inductive Json.Number where
  | integer (n : Int)
  | real (d : Decimal)
deriving DecidableEq, Repr

/-- A document. A string whose escapes do not denote Unicode text is `garbled`: it can be skipped,
but it has no value. -/
inductive Json where
  | null
  | bool (b : Bool)
  | number (n : Json.Number)
  | text (s : String)
  | garbled
  | list (items : List Json)
  | record (members : List (String × Json))
deriving Repr, Inhabited

namespace Json

/-- The decimal that a number stands for. -/
def Number.toDecimal : Number → Decimal
  | .integer n => ⟨n < 0, n.natAbs, 0⟩
  | .real d => d

/-- A natural number as a document. -/
def nat (n : Nat) : Json := .number (.integer n)

/-- A number as a document: its decimal, or `null` where there is none. -/
def scalar {α : Type} [Numeral α] (x : α) : Json :=
  match Numeral.view x with
  | .finite d => .number (.real d)
  | _ => .null

/-- A value that may be absent, as a document. -/
def optional {β : Type} (write : β → Json) : Option β → Json
  | none => .null
  | some b => write b

/-- A list of numbers as a document. -/
def scalars {α : Type} [Numeral α] (xs : List α) : Json := .list (xs.map scalar)

end Json

end OutlierScoring
