import OutlierScoring.Proofs.Json.Numbers

/-!
# Documents in one line

The compact text of a document is a single line: it holds no control characters, because strings
escape them and nothing else needs them (`isLine_compact`).
-/

namespace OutlierScoring.Json

/-- There are no control characters in the text. -/
def IsLine (text : List Char) : Prop := ∀ c ∈ text, 32 ≤ c.toNat

variable {text rest : List Char} {c : Char}

theorem isLine_nil : IsLine [] := fun _ hc ↦ absurd hc List.not_mem_nil

theorem isLine_cons (hc : 32 ≤ c.toNat) (h : IsLine rest) : IsLine (c :: rest) := by
  intro d hd
  rcases List.mem_cons.mp hd with rfl | hd
  · exact hc
  · exact h d hd

theorem IsLine.append (h : IsLine text) (hrest : IsLine rest) : IsLine (text ++ rest) := by
  intro c hc
  rcases List.mem_append.mp hc with hc | hc
  · exact h c hc
  · exact hrest c hc

theorem isLine_of_all (h : text.all (32 ≤ ·.toNat) = true) : IsLine text :=
  fun c hc ↦ of_decide_eq_true (List.all_eq_true.mp h c hc)

theorem isLine_toDigits (n : Nat) : IsLine (Nat.toDigits 10 n) := by
  intro c hc
  have hcode := toNat_of_isDigit (isDigit_of_mem_toDigits c hc)
  omega

theorem isLine_replicate (n : Nat) (hc : 32 ≤ c.toNat) : IsLine (List.replicate n c) :=
  fun _ hd ↦ (List.eq_of_mem_replicate hd) ▸ hc

theorem isLine_writeChar (c : Char) (h : IsLine rest) : IsLine (writeChar c rest) := by
  have hhex : ∀ n, 32 ≤ (hexDigit n).toNat := by
    have hdigit : ∀ m < 16, 32 ≤ ((Nat.toDigits 16 m).headD '0').toNat := by decide
    exact fun n ↦ hdigit (n % 16) (Nat.mod_lt _ (by decide))
  unfold writeChar
  split
  case h_8 =>
    split
    · exact isLine_cons (by decide) (isLine_cons (by decide) (isLine_cons (by decide)
        (isLine_cons (by decide) (isLine_cons (hhex _) (isLine_cons (hhex _) h)))))
    · exact isLine_cons (by omega) h
  all_goals exact isLine_cons (by decide) (isLine_cons (by decide) h)

theorem isLine_writeText (s : String) (h : IsLine rest) : IsLine (writeText s rest) := by
  have hchars : ∀ cs : List Char, IsLine (cs.foldr writeChar ('"' :: rest)) := by
    intro cs
    induction cs with
    | nil => exact isLine_cons (by decide) h
    | cons c cs ih => exact isLine_writeChar c ih
  exact isLine_cons (by decide) (hchars s.toList)

theorem isLine_writePositional (d : Decimal) : IsLine (d.writePositional ".0").toList := by
  have hdigits := isLine_toDigits d.digits
  rw [Decimal.writePositional]
  simp only
  split
  · rw [String.toList_append, String.toList_ofList]
    exact (hdigits.append (isLine_replicate _ (by decide))).append (isLine_of_all (by decide))
  · rw [String.toList_ofList]
    have hpadded : IsLine
        (List.replicate (d.exponent.natAbs + 1 - (Nat.toDigits 10 d.digits).length) '0' ++
          Nat.toDigits 10 d.digits) := (isLine_replicate _ (by decide)).append hdigits
    exact IsLine.append (fun c hc ↦ hpadded c (List.mem_of_mem_take hc))
      (isLine_cons (by decide) fun c hc ↦ hpadded c (List.mem_of_mem_drop hc))

theorem isLine_writeScientific (d : Decimal) : IsLine d.writeScientific.toList := by
  have hdigits := isLine_toDigits d.digits
  have hfraction : IsLine (if (Nat.toDigits 10 d.digits).length ≤ 1 then []
      else '.' :: (Nat.toDigits 10 d.digits).drop 1) := by
    split
    · exact isLine_nil
    · exact isLine_cons (by decide) fun c hc ↦ hdigits c (List.mem_of_mem_drop hc)
  have hsign : IsLine (if d.magnitude < 0 then "e-" else "e+").toList := by
    split <;> exact isLine_of_all (by decide)
  rw [Decimal.writeScientific]
  simp only [String.toList_append, String.toList_ofList]
  refine ((IsLine.append (fun c hc ↦ hdigits c (List.mem_of_mem_take hc)) hfraction).append
    hsign).append ?_
  show IsLine (Nat.repr d.magnitude.natAbs).toList
  rw [Nat.toList_repr]
  exact isLine_toDigits _

theorem isLine_decimal (d : Decimal) : IsLine (d.write .document).toList := by
  have hbody : IsLine (if d.trim.digits = 0 ∨ (-5 ≤ d.trim.magnitude ∧ d.trim.magnitude ≤ 15) then
      d.trim.writePositional ".0" else d.trim.writeScientific).toList := by
    split
    · exact isLine_writePositional d.trim
    · exact isLine_writeScientific d.trim
  rw [toList_write]
  refine IsLine.append ?_ hbody
  split
  · exact isLine_cons (by decide) isLine_nil
  · exact isLine_nil

theorem isLine_number (n : Number) : IsLine n.write.toList := by
  rcases n with n | d
  · rw [Number.write, toList_toString_int]
    refine IsLine.append ?_ (isLine_toDigits _)
    split
    · exact isLine_cons (by decide) isLine_nil
    · exact isLine_nil
  · exact isLine_decimal d

mutual

theorem isLine_writeCompact {rest : List Char} (h : IsLine rest) :
    ∀ j, IsLine (writeCompact rest j)
  | .null | .garbled => by
    rw [writeCompact]
    exact IsLine.append (isLine_of_all (by decide)) h
  | .bool b => by
    rw [writeCompact]
    refine IsLine.append ?_ h
    cases b <;> exact isLine_of_all (by decide)
  | .number n => by
    rw [writeCompact]
    exact (isLine_number n).append h
  | .text s => by
    rw [writeCompact]
    exact isLine_writeText s h
  | .list [] | .record [] => by
    rw [writeCompact]
    exact isLine_cons (by decide) (isLine_cons (by decide) h)
  | .list (item :: items) => by
    rw [writeCompact]
    exact isLine_cons (by decide) (isLine_writeCompact (isLine_writeCompactItems h items) item)
  | .record ((name, value) :: members) => by
    rw [writeCompact]
    exact isLine_cons (by decide) (isLine_writeText name (isLine_cons (by decide)
      (isLine_writeCompact (isLine_writeCompactMembers h members) value)))

theorem isLine_writeCompactItems {rest : List Char} (h : IsLine rest) :
    ∀ items, IsLine (writeCompactItems rest items)
  | [] => by
    rw [writeCompactItems]
    exact isLine_cons (by decide) h
  | item :: items => by
    rw [writeCompactItems]
    exact isLine_cons (by decide) (isLine_writeCompact (isLine_writeCompactItems h items) item)

theorem isLine_writeCompactMembers {rest : List Char} (h : IsLine rest) :
    ∀ members, IsLine (writeCompactMembers rest members)
  | [] => by
    rw [writeCompactMembers]
    exact isLine_cons (by decide) h
  | (name, value) :: members => by
    rw [writeCompactMembers]
    exact isLine_cons (by decide) (isLine_writeText name (isLine_cons (by decide)
      (isLine_writeCompact (isLine_writeCompactMembers h members) value)))

end

/-- The compact text of a document is a line. -/
theorem isLine_compact (j : Json) : IsLine j.compact.toList := by
  rw [compact, String.toList_ofList]
  exact isLine_writeCompact isLine_nil j

end OutlierScoring.Json
