import OutlierScoring.Proofs.Number.FreeForms
import OutlierScoring.Settings.Environment

/-!
# What values say

The value of a variable is a text of some form with blanks around it, and says what the text stands
for (`Text.Means`). No text of a number or of a truth value has blanks of its own. So there is one
way at most to take the blanks off a value, which is to trim it, and a value that is trimmed and
read gives exactly what it says (`Text.means_iff`).
-/

namespace OutlierScoring

namespace Text

variable {β : Type} {before text after : List Char}

/-- The value is a text of the given form with any blanks around it. -/
def Means (form : List Char → β → Prop) (value : String) (b : β) : Prop :=
  ∃ before text after, value.toList = before ++ (text ++ after) ∧
    (∀ c ∈ before, isBlank c = true) ∧ (∀ c ∈ after, isBlank c = true) ∧ form text b

/-! ### Trimming -/

theorem dropBlanks_append (hbefore : ∀ c ∈ before, isBlank c = true) (rest : List Char) :
    dropBlanks (before ++ rest) = dropBlanks rest :=
  List.dropWhile_append_of_pos hbefore

theorem dropBlanks_eq_nil (h : ∀ c ∈ before, isBlank c = true) : dropBlanks before = [] :=
  List.dropWhile_eq_nil_iff.mpr h

/-- A text with something visible at its front has no blanks to drop. -/
theorem dropBlanks_of_isVisible (hne : text ≠ []) (h : IsVisible text) (rest : List Char) :
    dropBlanks (text ++ rest) = text ++ rest := by
  obtain ⟨c, text, rfl⟩ := List.exists_cons_of_ne_nil hne
  exact List.dropWhile_cons_of_neg (Bool.eq_false_iff.mp (h c List.mem_cons_self))

/-- Trimming takes off all blanks around a text, and nothing of the text. -/
theorem trim_eq {value : String} (hvalue : value.toList = before ++ (text ++ after))
    (hbefore : ∀ c ∈ before, isBlank c = true) (hafter : ∀ c ∈ after, isBlank c = true)
    (h : IsVisible text) : trim value = String.ofList text := by
  rw [trim, hvalue, dropBlanks_append hbefore]
  rcases eq_or_ne text [] with rfl | hne
  · rw [List.nil_append, dropBlanks_eq_nil hafter]
    rfl
  · have hreverse : ∀ c ∈ after.reverse, isBlank c = true := by simpa using hafter
    have hvisible : IsVisible text.reverse := by simpa [IsVisible] using h
    have hback := dropBlanks_of_isVisible (by simpa using hne) hvisible []
    rw [List.append_nil] at hback
    rw [dropBlanks_of_isVisible hne h, List.reverse_append, dropBlanks_append hreverse, hback,
      List.reverse_reverse]

/-- What is trimmed off are blanks. -/
theorem exists_eq_trim (value : String) : ∃ before after,
    value.toList = before ++ ((trim value).toList ++ after) ∧
      (∀ c ∈ before, isBlank c = true) ∧ ∀ c ∈ after, isBlank c = true := by
  let rest := dropBlanks value.toList
  refine ⟨value.toList.takeWhile isBlank, (rest.reverse.takeWhile isBlank).reverse, ?_,
    fun c hc ↦ List.mem_takeWhile_imp hc,
    fun c hc ↦ List.mem_takeWhile_imp (List.mem_reverse.mp hc)⟩
  have hback : rest = (trim value).toList ++ (rest.reverse.takeWhile isBlank).reverse := by
    rw [trim, String.toList_ofList, ← List.reverse_append, dropBlanks,
      List.takeWhile_append_dropWhile, List.reverse_reverse]
  rw [← hback]
  exact List.takeWhile_append_dropWhile.symm

/-- A value says what is read from it once it is trimmed. -/
theorem means_iff {form : List Char → β → Prop} {read : String → Option β}
    (hread : ∀ (text : String) (b : β), read text = some b ↔ form text.toList b)
    (hvisible : ∀ (text : List Char) (b : β), form text b → IsVisible text) {value : String}
    {b : β} : Means form value b ↔ read (trim value) = some b := by
  constructor
  · rintro ⟨before, text, after, hvalue, hbefore, hafter, hform⟩
    rw [trim_eq hvalue hbefore hafter (hvisible text b hform), hread, String.toList_ofList]
    exact hform
  · intro h
    obtain ⟨before, after, hvalue, hbefore, hafter⟩ := exists_eq_trim value
    exact ⟨before, _, after, hvalue, hbefore, hafter, (hread _ b).mp h⟩

end Text

/-! ### Variables -/

/-- A truth value. -/
inductive IsTruthValue : List Char → Bool → Prop
  | yes : IsTruthValue "true".toList true
  | no : IsTruthValue "false".toList false

namespace Override

theorem readBool?_eq_some_iff {text : String} {b : Bool} :
    readBool? text = some b ↔ IsTruthValue text.toList b := by
  constructor
  · intro h
    rw [readBool?.eq_def] at h
    split at h
    · obtain rfl := Option.some.inj h
      exact .yes
    · obtain rfl := Option.some.inj h
      exact .no
    · cases h
  · intro h
    generalize htext : text.toList = s at h
    cases h with
    | yes =>
      obtain rfl := String.toList_inj.mp htext
      rfl
    | no =>
      obtain rfl := String.toList_inj.mp htext
      rfl

theorem means_truthValue_iff {value : String} {b : Bool} :
    Text.Means IsTruthValue value b ↔ readBool? (Text.trim value) = some b := by
  refine Text.means_iff (fun _ _ ↦ readBool?_eq_some_iff) fun text b h ↦ ?_
  rw [isVisible_iff_all]
  cases h with
  | yes => decide
  | no => decide

theorem means_count_iff {value : String} {n : Nat} :
    Text.Means IsCount value n ↔ readBounded? (Text.trim value) = some n :=
  Text.means_iff (fun _ _ ↦ readBounded?_eq_some_iff) fun _ _ h ↦ h.isVisible

theorem means_number_iff {α : Type} [Numeral α] {value : String} {x : α} :
    Text.Means Numeral.IsText value x ↔ Numeral.read? (Text.trim value) = some x := by
  refine Text.means_iff (fun _ _ ↦ Numeral.read?_eq_some_iff) ?_
  rintro text x ⟨view, h, -⟩
  exact h.isVisible

end Override

end OutlierScoring
