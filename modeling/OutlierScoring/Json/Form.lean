import OutlierScoring.Json.Parser
import OutlierScoring.Json.Printer

/-!
# Values kept in documents

`Json.Form β` says how values of `β` are written as documents and which documents stand for one.
Reading is where all limits are:

* lists and records that are read may nest up to `depthLimit` levels, which is what `depth` counts
  down; parts that are skipped are free of it;
* numbers of documents become naturals below `2 ^ 64` or finite scalars, or are refused;
* a record read by its fields may hold other members too, but none of its fields twice. It may also
  be written as the list of its fields in their order.
-/

namespace OutlierScoring.Json

/-- Levels of lists and records that a reader goes down at most. -/
def depthLimit : Nat := 127

/-- Values that are kept in documents. -/
class Form (β : Type) where
  /-- The document for a value. -/
  toJson : β → Json
  /-- The value that a document stands for, going down at most `depth` levels. -/
  ofJson? (depth : Nat) : Json → Option β

/-- The value that the text of a document stands for. -/
def Form.read? {β : Type} [Form β] (text : String) : Option β :=
  (parse? text.toList).bind (Form.ofJson? depthLimit)

/-! ### Reading single values -/

/-- A natural number below `2 ^ 64`. -/
def nat? : Json → Option Nat
  | .number (.integer n) => if 0 ≤ n ∧ n < UInt64.size then some n.toNat else none
  | _ => none

/-- A finite number. -/
def scalar? {α : Type} [Scalar α] [Numeral α] : Json → Option α
  | .number n =>
    let x : α := Numeral.ofDecimal n.toDecimal
    if Scalar.isFinite x then some x else none
  | _ => none

/-- A string that denotes a text. -/
def string? : Json → Option String
  | .text s => some s
  | _ => none

/-- A truth value. -/
def bool? : Json → Option Bool
  | .bool b => some b
  | _ => none

/-- A value that may be absent. -/
def optional? {β : Type} (read : Json → Option β) : Json → Option (Option β)
  | .null => some none
  | j => (read j).map some

/-- A list, its items read one level further down. -/
def list? {β : Type} (depth : Nat) (read : Nat → Json → Option β) : Json → Option (List β)
  | .list items =>
    match depth with
    | 0 => none
    | depth + 1 => items.mapM (read depth)
  | _ => none

/-! ### Reading records -/

/-- The value of a member, if there is one; nothing at all if it is there twice. -/
def member? (members : List (String × Json)) (name : String) : Option (Option Json) :=
  match members.filter (·.1 == name) with
  | [] => some none
  | [(_, value)] => some (some value)
  | _ => none

/-- The fields of the given names, present or not, with the depth that is left for each of them. -/
def fields? (names : List String) (depth : Nat) (j : Json) : Option (Nat × List (Option Json)) :=
  match depth, j with
  | depth + 1, .record members => (names.mapM (member? members)).map (depth, ·)
  | depth + 1, .list items =>
    if items.length = names.length then some (depth, items.map some) else none
  | _, _ => none

/-! ### Documents as values

Read as a value of its own, a document keeps integers that fit into 64 bits and rounds every other
number to a float. Of repeated members the last one counts, and members are sorted by name. -/

/-- A number as such a value. -/
def Number.settle? : Number → Option Number
  | .integer n =>
    if Int64.minValue.toInt ≤ n ∧ n < UInt64.size then some (.integer n)
    else settleReal? ⟨n < 0, n.natAbs, 0⟩
  | .real d => settleReal? d
where
  /-- The float nearest to a decimal, if it is finite. -/
  settleReal? (d : Decimal) : Option Number :=
    let x := Binary64.ofDecimal d
    if x.isFinite then some (.real (Shortest.decimal x)) else none

/-- A member put in front, unless a later one of its name is there. -/
def keepLast (members : List (String × Json)) : List (String × Json) :=
  members.foldr (fun m kept ↦ if kept.any (·.1 == m.1) then kept else m :: kept) []

mutual

/-- A document as a value, going down at most `depth` levels. -/
def settle? (depth : Nat) : Json → Option Json
  | .null => some .null
  | .bool b => some (.bool b)
  | .number n => n.settle?.map .number
  | .text s => some (.text s)
  | .garbled => none
  | .list items =>
    match depth with
    | 0 => none
    | depth + 1 => (settleItems? depth items).map .list
  | .record members =>
    match depth with
    | 0 => none
    | depth + 1 =>
      (settleMembers? depth members).map fun members ↦
        .record ((keepLast members).mergeSort fun a b ↦ a.1 ≤ b.1)

/-- The items of a list as values. -/
def settleItems? (depth : Nat) : List Json → Option (List Json)
  | [] => some []
  | item :: items => do
    let item ← settle? depth item
    let items ← settleItems? depth items
    return item :: items

/-- The members of a record as values. -/
def settleMembers? (depth : Nat) : List (String × Json) → Option (List (String × Json))
  | [] => some []
  | (name, value) :: members => do
    let value ← settle? depth value
    let members ← settleMembers? depth members
    return (name, value) :: members

end

instance : Form Json where
  toJson j := j
  ofJson? := settle?

instance : Form String where
  toJson := .text
  ofJson? _ := string?

instance : Form Nat where
  toJson := .nat
  ofJson? _ := nat?

instance {β : Type} [Form β] : Form (List β) where
  toJson xs := .list (xs.map Form.toJson)
  ofJson? depth := list? depth Form.ofJson?

end OutlierScoring.Json
