import OutlierScoring.Number.Numeral

/-!
# TOML documents

A TOML text is a sequence of statements (`Toml.Statement`): entries, and the headers of the tables
that they go into. `Toml.assemble?` puts the statements together and refuses those that define
something twice. How a table came about decides what may still be added to it:

* a table with a header of its own takes entries below that header only, and the header once;
* a table that exists only because a header below it names it can still get a header of its own;
* a table that exists only because of dotted keys takes further dotted keys, but no header;
* a table in braces is finished.
-/

namespace OutlierScoring

/-- How a table came about. -/
inductive Toml.Origin where
  /-- By a header of its own, or as an item of an array of tables. -/
  | header
  /-- By the header of a table inside of it. -/
  | implied
  /-- By a dotted key. -/
  | dotted
  /-- By braces. -/
  | braces
deriving DecidableEq, Repr

/-- A value of a document. Dates and times are kept without their content. -/
inductive Toml where
  | text (s : String)
  | integer (n : Int)
  | real (x : NumberView)
  | bool (b : Bool)
  | moment
  | list (items : List Toml)
  | table (origin : Toml.Origin) (entries : List (String × Toml))
  /-- The tables with double-bracket headers of one name. -/
  | tables (items : List Toml)
deriving Repr, Inhabited

namespace Toml

/-- The integers of a document are those of 64 bits with a sign. -/
def isBounded (n : Int) : Bool := Int64.minValue.toInt ≤ n ∧ n ≤ Int64.maxValue.toInt

/-- The entries of a table, in their order. -/
abbrev Entries := List (String × Toml)

/-- A line of a document: the keys on the way to a place, and what is said about the last key. -/
inductive Statement where
  | entry (path : List String) (key : String) (value : Toml)
  | header (path : List String) (key : String)
  | arrayHeader (path : List String) (key : String)
deriving Repr

namespace Entries

/-- The entries with the value of a key replaced, or added at the end. -/
def put (key : String) (value : Toml) : Entries → Entries
  | [] => [(key, value)]
  | (k, v) :: entries => if k = key then (k, value) :: entries else (k, v) :: put key value entries

/-- The entries without those of a key. -/
def drop (key : String) (entries : Entries) : Entries := entries.filter (·.1 != key)

/-- One more entry, unless there is one of its key. -/
def add? (key : String) (value : Toml) (entries : Entries) : Option Entries :=
  match entries.lookup key with
  | none => some (entries ++ [(key, value)])
  | some _ => none

/-- Adds an entry below a dotted key, in a table of the given origin. Tables on the way are made
where they are missing. The last of them must have been made by a dotted key, and none of them may
be finished or have a header, the last table of an array of tables aside. -/
def addDotted? (key : String) (value : Toml) (origin : Origin) :
    (path : List String) → Entries → Option Entries
  | [], entries => if origin = .dotted then entries.add? key value else none
  | name :: path, entries =>
    match entries.lookup name with
    | none => do
      let inner ← addDotted? key value .dotted path []
      return entries.put name (.table .dotted inner)
    | some (.table origin inner) =>
      match origin with
      | .implied | .dotted => do
        let inner ← addDotted? key value origin path inner
        return entries.put name (.table origin inner)
      | _ => none
    | some (.tables items) =>
      match items.getLast? with
      | some (.table origin inner) => do
        let inner ← addDotted? key value origin path inner
        return entries.put name (.tables (items.dropLast ++ [.table origin inner]))
      | _ => none
    | some _ => none

/-- Adds an entry, whose key may be dotted. -/
def insert? (path : List String) (key : String) (value : Toml) (entries : Entries) :
    Option Entries :=
  if path.isEmpty then entries.add? key value else addDotted? key value .header path entries

/-- Changes the table that a path of header keys leads to. Tables on the way are made where they are
missing; of an array of tables the last one is meant. -/
def descend? {β : Type} (f : Entries → Option (β × Entries)) :
    (path : List String) → Entries → Option (β × Entries)
  | [], entries => f entries
  | name :: path, entries =>
    match entries.lookup name with
    | none => do
      let (b, inner) ← descend? f path []
      return (b, entries.put name (.table .implied inner))
    | some (.table origin inner) =>
      if origin = .braces then none
      else do
        let (b, inner) ← descend? f path inner
        return (b, entries.put name (.table origin inner))
    | some (.tables items) =>
      match items.getLast? with
      | some (.table origin inner) => do
        let (b, inner) ← descend? f path inner
        return (b, entries.put name (.tables (items.dropLast ++ [.table origin inner])))
      | _ => none
    | some _ => none

end Entries

/-- A document that is being put together: the tables that are finished, and the one that entries go
into, with the header that it will be put under. -/
structure Draft where
  root : Entries
  header : Option Statement
  current : Entries

namespace Draft

/-- Before the first statement. -/
def empty : Draft := ⟨[], none, []⟩

/-- Puts the table at hand under its header. -/
def finish? (d : Draft) : Option Entries :=
  match d.header with
  | some (.header path key) =>
    (Entries.descend? (fun entries ↦
      (entries.add? key (.table .header d.current)).map ((), ·)) path d.root).map (·.2)
  | some (.arrayHeader path key) =>
    (Entries.descend? (fun entries ↦
      match entries.lookup key with
      | none => some ((), entries.put key (.tables [.table .header d.current]))
      | some (.tables items) =>
        some ((), entries.put key (.tables (items ++ [.table .header d.current])))
      | some _ => none) path d.root).map (·.2)
  | _ => some d.current

/-- The draft after one more statement. A header for a table that is only implied so far goes on
with what that table holds. -/
def step? (d : Draft) : Statement → Option Draft
  | .entry path key value => do
    return { d with current := ← d.current.insert? path key value }
  | .header path key => do
    let root ← d.finish?
    let (current, root) ← Entries.descend? (fun entries ↦
      match entries.lookup key with
      | none => some ([], entries)
      | some (.table .implied inner) => some (inner, entries.drop key)
      | some _ => none) path root
    return ⟨root, some (.header path key), current⟩
  | .arrayHeader path key => do
    let root ← d.finish?
    let ((), root) ← Entries.descend? (fun entries ↦
      match entries.lookup key with
      | none => some ((), entries)
      | some (.tables _) => some ((), entries)
      | some _ => none) path root
    return ⟨root, some (.arrayHeader path key), []⟩

end Draft

/-- The entries of the document that consists of the given statements. -/
def assemble? (statements : List Statement) : Option Entries := do
  let draft ← statements.foldlM Draft.step? Draft.empty
  draft.finish?

/-- The table in braces that consists of the given entries. -/
def braces? (entries : List (List String × String × Toml)) : Option Toml := do
  let entries ← entries.foldlM (fun (entries : Entries) (path, key, value) ↦
    entries.insert? path key value) []
  return .table .braces entries

end Toml

end OutlierScoring
