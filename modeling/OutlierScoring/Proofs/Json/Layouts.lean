import OutlierScoring.Json.Printer
import OutlierScoring.Json.Parser

/-!
# Layouts of documents

The two layouts of documents differ only in the blanks between the parts. `spell` writes documents
with any such blanks, `writeCompact` being the case without blanks (`writeCompact_eq_spell`) and
`writePretty` the one with lines (`writePretty_eq_spell`), so that what is read back from a document
is proved once for both.
-/

namespace OutlierScoring.Json

/-- The blanks between the parts of a document. -/
structure Blanks where
  /-- Before an item or a member of a list or record at a level, and before its end. -/
  newLine : Nat → List Char
  /-- Before the value of a member. -/
  afterColon : List Char
  isSpace_newLine : ∀ level, ∀ c ∈ newLine level, isSpace c = true
  isSpace_afterColon : ∀ c ∈ afterColon, isSpace c = true

variable (blanks : Blanks)

mutual

/-- A document at a level of indentation. -/
def spell (level : Nat) (rest : List Char) : Json → List Char
  | .null => put "null" rest
  | .bool b => put (if b then "true" else "false") rest
  | .number n => put n.write rest
  | .text s => writeText s rest
  | .garbled => put "null" rest
  | .list [] => '[' :: ']' :: rest
  | .list (item :: items) =>
    '[' :: (blanks.newLine (level + 1) ++ spell (level + 1) (spellItems level rest items) item)
  | .record [] => '\x7b' :: '\x7d' :: rest
  | .record ((name, value) :: members) =>
    '\x7b' :: (blanks.newLine (level + 1) ++ writeText name (':' :: (blanks.afterColon ++
      spell (level + 1) (spellMembers level rest members) value)))

/-- The further items of a list and its end. -/
def spellItems (level : Nat) (rest : List Char) : List Json → List Char
  | [] => blanks.newLine level ++ ']' :: rest
  | item :: items =>
    ',' :: (blanks.newLine (level + 1) ++ spell (level + 1) (spellItems level rest items) item)

/-- The further members of a record and its end. -/
def spellMembers (level : Nat) (rest : List Char) : List (String × Json) → List Char
  | [] => blanks.newLine level ++ '\x7d' :: rest
  | (name, value) :: members =>
    ',' :: (blanks.newLine (level + 1) ++ writeText name (':' :: (blanks.afterColon ++
      spell (level + 1) (spellMembers level rest members) value)))

end

/-! ### The two layouts -/

/-- No blanks at all. -/
def Blanks.none : Blanks := ⟨fun _ ↦ [], [], nofun, nofun⟩

/-- A line for each item and each member. -/
def Blanks.lines : Blanks where
  newLine level := '\n' :: List.replicate (2 * level) ' '
  afterColon := [' ']
  isSpace_newLine level c hc := by
    rcases List.mem_cons.mp hc with rfl | hc
    · rfl
    · rw [List.eq_of_mem_replicate hc]
      rfl
  isSpace_afterColon c hc := (List.mem_singleton.mp hc) ▸ rfl

mutual

theorem writeCompact_eq_spell (level : Nat) (rest : List Char) :
    ∀ j, writeCompact rest j = spell .none level rest j
  | .null | .bool _ | .number _ | .text _ | .garbled | .list [] | .record [] => by
    simp only [writeCompact, spell]
  | .list (item :: items) => by
    simp only [writeCompact, spell]
    rw [writeCompactItems_eq_spellItems level rest items,
      writeCompact_eq_spell (level + 1) _ item]
    rfl
  | .record ((name, value) :: members) => by
    simp only [writeCompact, spell]
    rw [writeCompactMembers_eq_spellMembers level rest members,
      writeCompact_eq_spell (level + 1) _ value]
    rfl

theorem writeCompactItems_eq_spellItems (level : Nat) (rest : List Char) :
    ∀ items, writeCompactItems rest items = spellItems .none level rest items
  | [] => by
    simp only [writeCompactItems, spellItems]
    rfl
  | item :: items => by
    simp only [writeCompactItems, spellItems]
    rw [writeCompactItems_eq_spellItems level rest items,
      writeCompact_eq_spell (level + 1) _ item]
    rfl

theorem writeCompactMembers_eq_spellMembers (level : Nat) (rest : List Char) :
    ∀ members, writeCompactMembers rest members = spellMembers .none level rest members
  | [] => by
    simp only [writeCompactMembers, spellMembers]
    rfl
  | (name, value) :: members => by
    simp only [writeCompactMembers, spellMembers]
    rw [writeCompactMembers_eq_spellMembers level rest members,
      writeCompact_eq_spell (level + 1) _ value]
    rfl

end

mutual

theorem writePretty_eq_spell (level : Nat) (rest : List Char) :
    ∀ j, writePretty level rest j = spell .lines level rest j
  | .null | .bool _ | .number _ | .text _ | .garbled | .list [] | .record [] => by
    simp only [writePretty, spell]
  | .list (item :: items) => by
    simp only [writePretty, spell]
    rw [writePrettyItems_eq_spellItems level rest items, writePretty_eq_spell (level + 1) _ item]
    rfl
  | .record ((name, value) :: members) => by
    simp only [writePretty, spell]
    rw [writePrettyMembers_eq_spellMembers level rest members,
      writePretty_eq_spell (level + 1) _ value]
    rfl

theorem writePrettyItems_eq_spellItems (level : Nat) (rest : List Char) :
    ∀ items, writePrettyItems level rest items = spellItems .lines level rest items
  | [] => by
    simp only [writePrettyItems, spellItems]
    rfl
  | item :: items => by
    simp only [writePrettyItems, spellItems]
    rw [writePrettyItems_eq_spellItems level rest items, writePretty_eq_spell (level + 1) _ item]
    rfl

theorem writePrettyMembers_eq_spellMembers (level : Nat) (rest : List Char) :
    ∀ members, writePrettyMembers level rest members = spellMembers .lines level rest members
  | [] => by
    simp only [writePrettyMembers, spellMembers]
    rfl
  | (name, value) :: members => by
    simp only [writePrettyMembers, spellMembers]
    rw [writePrettyMembers_eq_spellMembers level rest members,
      writePretty_eq_spell (level + 1) _ value]
    rfl

end

end OutlierScoring.Json
