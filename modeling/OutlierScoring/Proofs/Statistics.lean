import OutlierScoring.Proofs.Json.Arrays
import OutlierScoring.Scaler

/-!
# Statistics in documents

Statistics are read back from their document exactly if all of their numbers are finite and there
are no more of them than memory can hold (`reads_statistics`).
-/

namespace OutlierScoring

variable {α : Type} [Scalar α]

/-- The numbers are finite, and there are no more of them than memory can hold. -/
def IsStorableArray (xs : Array α) : Prop :=
  xs.size < UInt64.size / 2 ∧ ∀ x ∈ xs, Scalar.isFinite x = true

/-- The statistics are read back from their document. -/
structure Statistics.IsStorable (s : Statistics α) : Prop where
  mean : IsStorableArray s.mean
  scale : IsStorableArray s.scale

namespace Json.Shaped

/-- A list of numbers in an array of one dimension. -/
theorem isStorable_singleton_iff (xs : Array α) :
    (⟨[xs.size], xs.toList⟩ : Shaped α).IsStorable ↔ IsStorableArray xs := by
  have hsize : max xs.size 1 < UInt64.size / 2 ↔ xs.size < UInt64.size / 2 :=
    Nat.max_lt.trans (and_iff_left (by decide))
  constructor
  · rintro ⟨hextents, -, hfinite⟩
    exact ⟨hsize.mp (by simpa using hextents), by simpa using hfinite⟩
  · rintro ⟨hlt, hfinite⟩
    exact ⟨by simpa using hsize.mpr hlt, by simp, by simpa using hfinite⟩

variable [Numeral α] [LawfulNumeral α]

theorem reads_vector (depth : Nat) (xs : Array α) :
    Reads (ofJson? 1 (depth + 2) (toJson ⟨[xs.size], xs.toList⟩).canonical)
      ⟨[xs.size], xs.toList⟩ (IsStorableArray xs) :=
  (reads_array depth _).congr (isStorable_singleton_iff xs)

end Json.Shaped

namespace Statistics

variable [Numeral α]

theorem nesting_toJson_le (s : Statistics α) : (Json.Form.toJson s).nesting ≤ 3 := by
  refine Json.nesting_record_le ?_
  intro member hmember
  simp only [List.mem_cons, List.not_mem_nil, or_false] at hmember
  rcases hmember with rfl | rfl
  · exact Json.Shaped.nesting_toJson_le _
  · exact Json.Shaped.nesting_toJson_le _

variable [LawfulNumeral α]

/-- Statistics are read back from their document exactly if they can be stored. -/
theorem reads_statistics (depth : Nat) (s : Statistics α) :
    Json.Reads (Json.Form.ofJson? (depth + 3) (Json.Form.toJson s).canonical) s s.IsStorable := by
  have hread : (Json.Form.ofJson? (depth + 3) (Json.Form.toJson s).canonical :
      Option (Statistics α)) =
        (do
          let mean ← Json.Shaped.ofJson? 1 (depth + 2)
            (Json.Shaped.toJson ⟨[s.mean.size], s.mean.toList⟩).canonical
          let scale ← Json.Shaped.ofJson? 1 (depth + 2)
            (Json.Shaped.toJson ⟨[s.scale.size], s.scale.toList⟩).canonical
          return ⟨mean.cells.toArray, scale.cells.toArray⟩) := by
    simp only [Json.Form.ofJson?, Json.Form.toJson]
    rw [Json.fields?_record ["mean", "scale"] rfl (by decide) (depth + 2), Option.bind_eq_bind,
      Option.bind_some]
    rfl
  rw [hread]
  refine Json.Reads.congr ((Json.Shaped.reads_vector depth s.mean).bind
    ((Json.Shaped.reads_vector depth s.scale).bind (Json.reads_some _))) ?_
  exact ⟨fun ⟨hmean, hscale, _⟩ ↦ ⟨hmean, hscale⟩, fun ⟨hmean, hscale⟩ ↦ ⟨hmean, hscale, trivial⟩⟩

end Statistics

end OutlierScoring
