import OutlierScoring.Proofs.Number.Positional
import OutlierScoring.Proofs.Toml.Quoted
import OutlierScoring.Settings.Text

/-!
# Values are read back

A value that was written is read back up to the end of its line (`value?_writeScalar`). What is read
for a real has a zero after the point where the real is whole (`Toml.reread`); everything else is
read as it was written.
-/

namespace OutlierScoring.Toml

variable {rest : List Char}

theorem ne_of_isDigit {c x : Char} (hc : c.isDigit = true) (hx : x.isDigit = false) : c ≠ x := by
  rintro rfl
  exact absurd hc (Bool.eq_false_iff.mp hx)

/-! ### Numbers are no dates -/

theorem exists_of_field? {width low high n : Nat} {s : List Char}
    (h : field? width low high s = some (n, rest)) :
    ∃ digits, s = digits ++ rest ∧ digits.length = width ∧ ∀ c ∈ digits, c.isDigit = true := by
  rw [field?] at h
  split at h
  · rename_i hfield
    obtain ⟨hlength, hdigits, -⟩ := hfield
    obtain ⟨-, rfl⟩ := Prod.mk.inj (Option.some.inj h)
    exact ⟨s.take width, (List.take_append_drop width s).symm, hlength,
      List.all_eq_true.mp hdigits⟩
  · cases h

theorem eq_cons_of_dropChar? {c : Char} {s : List Char} (h : dropChar? c s = some rest) :
    s = c :: rest := by
  rcases s with _ | ⟨x, s⟩
  · cases h
  · rw [dropChar?] at h
    split at h
    · rename_i hx
      rw [hx, Option.some.inj h]
    · cases h

/-- Dates and times start with some digits and a separator. -/
theorem exists_of_moment? {s : List Char} (h : (moment? s).isSome = true) :
    ∃ digits separator tail, s = digits ++ separator :: tail ∧ digits ≠ [] ∧
      (∀ c ∈ digits, c.isDigit = true) ∧ (separator = '-' ∨ separator = ':') := by
  have hstart {width low high n : Nat} {s₁ s₂ : List Char} {separator : Char} (hwidth : width ≠ 0)
      (hfield : field? width low high s = some (n, s₁)) (hdrop : dropChar? separator s₁ = some s₂) :
      ∃ digits, s = digits ++ separator :: s₂ ∧ digits ≠ [] ∧ ∀ c ∈ digits, c.isDigit = true := by
    obtain ⟨digits, heq, hlength, hdigits⟩ := exists_of_field? hfield
    refine ⟨digits, eq_cons_of_dropChar? hdrop ▸ heq, ?_, hdigits⟩
    rintro rfl
    exact hwidth hlength.symm
  rw [moment?] at h
  split at h
  · obtain ⟨rest, htime⟩ := Option.isSome_iff_exists.mp h
    simp only [time?, bind, Option.bind_eq_some_iff] at htime
    obtain ⟨⟨hour, s₁⟩, hfield, s₂, hdrop, -⟩ := htime
    obtain ⟨digits, heq, hne, hdigits⟩ := hstart (by decide) hfield hdrop
    exact ⟨digits, ':', s₂, heq, hne, hdigits, .inr rfl⟩
  · rename_i hdate
    simp only [date?, bind, Option.bind_eq_some_iff] at hdate
    obtain ⟨⟨year, s₁⟩, hfield, s₂, hdrop, -⟩ := hdate
    obtain ⟨digits, heq, hne, hdigits⟩ := hstart (by decide) hfield hdrop
    exact ⟨digits, '-', s₂, heq, hne, hdigits, .inl rfl⟩

theorem moment?_eq_none {digits : List Char} (hdigits : ∀ c ∈ digits, c.isDigit = true)
    (hrest : NoDigit rest) (hdash : digits ≠ [] → rest.head? ≠ some '-')
    (hcolon : rest.head? ≠ some ':') : moment? (digits ++ rest) = none := by
  rw [← Option.not_isSome_iff_eq_none]
  intro hsome
  obtain ⟨digits', separator, tail, heq, hne, hdigits', hseparator⟩ := exists_of_moment? hsome
  have hstop : NoDigit (separator :: tail) :=
    noDigit_cons (by rcases hseparator with rfl | rfl <;> rfl)
  have hspan := spanDigits_append hdigits hrest
  rw [heq, spanDigits_append hdigits' hstop] at hspan
  obtain ⟨rfl, rfl⟩ := Prod.mk.inj hspan
  rcases hseparator with rfl | rfl
  · exact hdash hne rfl
  · exact hcolon rfl

/-! ### Decimal numbers -/

/-- The text goes on with a point, or its line ends. -/
def EndsWhole (rest : List Char) : Prop := rest.head? = some '.' ∨ rest.head? = some '\n'

theorem EndsWhole.exists_cons (h : EndsWhole rest) :
    ∃ c tail, rest = c :: tail ∧ (c = '.' ∨ c = '\n') := by
  rcases rest with _ | ⟨c, tail⟩
  · rcases h with h | h <;> cases h
  · exact ⟨c, tail, rfl, h.imp Option.some.inj Option.some.inj⟩

theorem EndsWhole.noDigit (h : EndsWhole rest) : NoDigit rest := by
  obtain ⟨c, tail, rfl, rfl | rfl⟩ := h.exists_cons
  · exact noDigit_cons rfl
  · exact noDigit_cons rfl

theorem moreDigits?_append {digits : List Char} (hdigits : ∀ c ∈ digits, c.isDigit = true)
    (h : EndsWhole rest) (read : List Char) :
    moreDigits? Char.isDigit read (digits ++ rest) = some (read.reverse ++ digits, rest) := by
  induction digits generalizing read with
  | nil =>
    obtain ⟨c, tail, rfl, rfl | rfl⟩ := h.exists_cons <;> simp [moreDigits?]
  | cons c digits ih =>
    have hc := hdigits c List.mem_cons_self
    have hbar : c ≠ '_' := ne_of_isDigit hc rfl
    rw [List.cons_append, moreDigits?, if_pos hc,
      ih fun a ha ↦ hdigits a (List.mem_cons_of_mem c ha)]
    · simp
    · exact fun _ _ heq _ ↦ hbar heq
    · exact fun heq _ ↦ hbar heq

theorem digitRun?_append {digits : List Char} (hdigits : ∀ c ∈ digits, c.isDigit = true)
    (hne : digits ≠ []) (h : EndsWhole rest) :
    digitRun? Char.isDigit (digits ++ rest) = some (digits, rest) := by
  obtain ⟨c, digits, rfl⟩ := List.exists_cons_of_ne_nil hne
  rw [List.cons_append, digitRun?, if_pos (hdigits c List.mem_cons_self),
    moreDigits?_append (fun a ha ↦ hdigits a (List.mem_cons_of_mem c ha)) h]
  rfl

/-- Digits of a number, behind its sign. -/
structure IsWhole (whole : List Char) : Prop where
  isDigit : ∀ c ∈ whole, c.isDigit = true
  ne_nil : whole ≠ []
  head? : whole.head? ≠ some '0' ∨ whole.length = 1

theorem isWhole_toDigits (n : Nat) : IsWhole (Nat.toDigits 10 n) :=
  ⟨isDigit_of_mem_toDigits, Nat.toDigits_ne_nil, head?_toDigits n⟩

variable {whole : List Char}

theorem IsWhole.exists_cons (hwhole : IsWhole whole) :
    ∃ c digits, whole = c :: digits ∧ c.isDigit = true ∧ (c = '0' → digits = []) := by
  obtain ⟨c, digits, rfl⟩ := List.exists_cons_of_ne_nil hwhole.ne_nil
  refine ⟨c, digits, rfl, hwhole.isDigit c List.mem_cons_self, ?_⟩
  rintro rfl
  rcases hwhole.head? with hhead | hlength
  · exact absurd rfl hhead
  · exact List.length_eq_zero_iff.mp (Nat.succ.inj hlength)

theorem wholeDigits?_append (hwhole : IsWhole whole) (h : EndsWhole rest) :
    wholeDigits? (whole ++ rest) = some (whole, rest) := by
  obtain ⟨c, digits, rfl, -, hzero⟩ := hwhole.exists_cons
  by_cases hc : c = '0'
  · rw [hzero hc, hc]
    rfl
  · rw [wholeDigits?]
    · exact digitRun?_append hwhole.isDigit hwhole.ne_nil h
    · exact fun _ heq ↦ hc (List.cons.inj heq).1

/-- The sign of a number, which a positive one does not have. -/
theorem takeSign_append (negative : Bool) (hwhole : IsWhole whole) (rest : List Char) :
    takeSign ((if negative then ['-'] else []) ++ (whole ++ rest)) = (negative, whole ++ rest) := by
  obtain ⟨c, digits, rfl, hdigit, -⟩ := hwhole.exists_cons
  cases negative
  · show takeSign (c :: (digits ++ rest)) = _
    rw [takeSign]
    · rfl
    · exact fun _ heq ↦ ne_of_isDigit hdigit rfl (List.cons.inj heq).1
    · exact fun _ heq ↦ ne_of_isDigit hdigit rfl (List.cons.inj heq).1
  · rfl

theorem special?_eq_none (negative : Bool) (hwhole : IsWhole whole) (rest : List Char) :
    special? ((if negative then ['-'] else []) ++ (whole ++ rest)) = none := by
  obtain ⟨c, digits, rfl, hdigit, -⟩ := hwhole.exists_cons
  have hi : c ≠ 'i' := ne_of_isDigit hdigit rfl
  have hn : c ≠ 'n' := ne_of_isDigit hdigit rfl
  rw [special?, takeSign_append negative hwhole rest]
  simp [dropWord?, hi.symm, hn.symm]

/-- A number that starts with a sign or digits is a decimal one, unless a mark of another base
follows. -/
theorem number?_eq_decimal? (negative : Bool) (hwhole : IsWhole whole) (h : EndsWhole rest) :
    number? ((if negative then ['-'] else []) ++ (whole ++ rest)) =
      decimal? ((if negative then ['-'] else []) ++ (whole ++ rest)) := by
  have hmoment : moment? ((if negative then ['-'] else []) ++ (whole ++ rest)) = none := by
    cases negative
    · refine @moment?_eq_none rest whole hwhole.isDigit h.noDigit (fun _ ↦ ?_) ?_
      · rcases h with h | h <;> simp [h]
      · rcases h with h | h <;> simp [h]
    · exact @moment?_eq_none ('-' :: (whole ++ rest)) [] (by simp) (noDigit_cons rfl)
        (fun hne ↦ absurd rfl hne) (by simp)
  have hbase {mark : Char} (hmark : mark ≠ '.' ∧ mark ≠ '\n') (tail : List Char) :
      (if negative then ['-'] else []) ++ (whole ++ rest) ≠ '0' :: mark :: tail := by
    obtain ⟨c, digits, rfl, -, hzero⟩ := hwhole.exists_cons
    obtain ⟨c', tail', rfl, hc'⟩ := h.exists_cons
    cases negative
    · intro heq
      obtain ⟨hc, heq⟩ := List.cons.inj heq
      rw [hzero hc] at heq
      have hsame := (List.cons.inj heq).1
      exact hc'.elim (fun hpoint ↦ hmark.1 (hsame ▸ hpoint)) fun hline ↦ hmark.2 (hsame ▸ hline)
    · exact fun heq ↦ absurd (List.cons.inj heq).1 (by decide)
  rw [number?, hmoment, special?_eq_none negative hwhole rest]
  all_goals exact hbase (by decide)

theorem fraction?_append {fraction : List Char} (hdigits : ∀ c ∈ fraction, c.isDigit = true)
    (hne : fraction ≠ []) (h : EndsWhole rest) :
    fraction? ('.' :: (fraction ++ rest)) = some (some fraction, rest) := by
  rw [fraction?, digitRun?_append hdigits hne h]
  rfl

theorem exponent?_lineEnd (rest : List Char) :
    exponent? ('\n' :: rest) = some (none, '\n' :: rest) := rfl

/-- An integer up to the end of its line. -/
theorem number?_integer {n : Int} (h : isBounded n = true) (rest : List Char) :
    number? ((toString n).toList ++ '\n' :: rest) = some (.integer n, '\n' :: rest) := by
  have hwhole := isWhole_toDigits n.natAbs
  have hends : EndsWhole ('\n' :: rest) := .inr rfl
  have hnumber := number?_eq_decimal? (decide (n < 0)) hwhole hends
  have hsign := takeSign_append (decide (n < 0)) hwhole ('\n' :: rest)
  simp only [decide_eq_true_eq] at hnumber hsign
  rw [toList_toString_int, List.append_assoc, hnumber, decimal?, hsign]
  simp only [wholeDigits?_append hwhole hends, fraction?, bind, Option.bind, pure,
    digitsValue_toDigits, decide_eq_true_eq, signed_natAbs, boundedInteger?, h, if_true]
  rfl

/-- A decimal in positional form, up to the end of its line. -/
theorem number?_positional {d : Decimal} {fraction : List Char}
    (hparts : PositionalParts d whole fraction) (rest : List Char) :
    number? ((if d.negative then ['-'] else []) ++ (whole ++ '.' :: (fraction ++ '\n' :: rest))) =
      (boundedReal? d.pointed).map (·, '\n' :: rest) := by
  have hwhole : IsWhole whole := ⟨hparts.isDigit_whole, hparts.whole_ne_nil, hparts.head?_whole⟩
  have hends : EndsWhole ('.' :: (fraction ++ '\n' :: rest)) := .inl rfl
  have hfraction := fraction?_append hparts.isDigit_fraction hparts.fraction_ne_nil
    (.inr rfl : EndsWhole ('\n' :: rest))
  rw [number?_eq_decimal? d.negative hwhole hends, decimal?, takeSign_append d.negative hwhole,
    ← hparts.decimal_eq]
  simp only [wholeDigits?_append hwhole hends, hfraction, exponent?_lineEnd, bind, Option.bind,
    pure, Option.getD_some, Option.getD_none, Int.zero_sub]
  rcases boundedReal? _ <;> rfl

/-! ### All values -/

/-- The value that is read for a value that was written: a whole number has a zero after its
point. -/
def reread : Toml → Toml
  | .real (.finite d) => .real (.finite d.trim.pointed)
  | v => v

/-- The values that stand on one line and that a reader has room for. -/
def IsScalar : Toml → Prop
  | .text _ | .bool _ | .real .nan | .real (.infinite _) => True
  | .integer n => isBounded n = true
  | .real (.finite d) => boundedReal? d.trim.pointed = some (.real (.finite d.trim.pointed))
  | _ => False

@[simp]
theorem isScalar_text (s : String) : (text s).IsScalar := trivial

@[simp]
theorem isScalar_bool (b : Bool) : (bool b).IsScalar := trivial

/-- A value that is no string, array, table or truth value is a number. -/
theorem value?_of_head {c : Char} (fuel nesting : Nat) (rest : List Char)
    (h : c ∉ ['"', '\'', '[', '\x7b', 't', 'f']) :
    value? (fuel + 1) nesting (c :: rest) = number? (c :: rest) := by
  simp only [List.mem_cons, List.not_mem_nil, or_false, not_or] at h
  rw [value?]
  all_goals grind

/-- Only strings start with a quote. -/
theorem value?_of_readString? {s : List Char} {text : String}
    (h : readString? s = some (text, rest)) (fuel nesting : Nat) :
    value? (fuel + 1) nesting s = some (.text text, rest) := by
  have hvalue (quote : Char) (tail : List Char) (hs : s = quote :: tail)
      (hquote : quote = '"' ∨ quote = '\'') :
      value? (fuel + 1) nesting s = some (.text text, rest) := by
    rcases hquote with rfl | rfl <;> rw [hs, value?, ← hs, h] <;> rfl
  rw [readString?.eq_def] at h
  split at h
  · exact hvalue _ _ rfl (.inl rfl)
  · exact hvalue _ _ rfl (.inl rfl)
  · exact hvalue _ _ rfl (.inr rfl)
  · exact hvalue _ _ rfl (.inr rfl)
  · cases h

theorem value?_number (negative : Bool) (hwhole : IsWhole whole) (fuel nesting : Nat)
    (rest : List Char) :
    value? (fuel + 1) nesting ((if negative then ['-'] else []) ++ (whole ++ rest)) =
      number? ((if negative then ['-'] else []) ++ (whole ++ rest)) := by
  obtain ⟨c, digits, rfl, hdigit, -⟩ := hwhole.exists_cons
  cases negative
  · refine value?_of_head fuel nesting _ fun hmem ↦ ?_
    simp only [List.mem_cons, List.not_mem_nil, or_false] at hmem
    rcases hmem with rfl | rfl | rfl | rfl | rfl | rfl <;> exact absurd hdigit (by decide)
  · exact value?_of_head fuel nesting _ (by decide)

theorem value?_integer {n : Int} (h : isBounded n = true) (fuel nesting : Nat)
    (rest : List Char) :
    value? (fuel + 1) nesting ((toString n).toList ++ '\n' :: rest) =
      some (.integer n, '\n' :: rest) := by
  have hvalue := value?_number (decide (n < 0)) (isWhole_toDigits n.natAbs) fuel nesting
    ('\n' :: rest)
  have hnumber := number?_integer h rest
  rw [toList_toString_int, List.append_assoc] at hnumber ⊢
  simp only [decide_eq_true_eq] at hvalue
  rw [hvalue, hnumber]

/-- The text of a decimal in a configuration: a sign, and digits around a point. -/
theorem exists_parts_writeSettings (d : Decimal) :
    ∃ whole fraction, (d.write .settings).toList =
        (if d.trim.negative then ['-'] else []) ++ (whole ++ '.' :: fraction) ∧
      IsWhole whole ∧ PositionalParts d.trim whole fraction := by
  obtain ⟨whole, fraction, htext, hparts⟩ :=
    exists_parts_writePositional d.trim (trim_digits_pos_or d)
  refine ⟨whole, fraction, ?_, ?_, hparts⟩
  · rw [← htext]
    exact toList_signed d.trim.negative _
  · exact ⟨hparts.isDigit_whole, hparts.whole_ne_nil, hparts.head?_whole⟩

theorem value?_finite (d : Decimal) (fuel nesting : Nat) (rest : List Char) :
    value? (fuel + 1) nesting ((d.write .settings).toList ++ '\n' :: rest) =
      (boundedReal? d.trim.pointed).map (·, '\n' :: rest) := by
  obtain ⟨whole, fraction, htext, hwhole, hparts⟩ := exists_parts_writeSettings d
  rw [htext, List.append_assoc, List.append_assoc, List.cons_append,
    value?_number d.trim.negative hwhole, number?_positional hparts]

/-- A value that was written is read back, up to the end of its line. -/
theorem value?_writeScalar {v : Toml} (h : v.IsScalar) (fuel nesting : Nat) (rest : List Char) :
    value? (fuel + 1) nesting ((writeScalar v).toList ++ '\n' :: rest) =
      some (v.reread, '\n' :: rest) := by
  match v, h with
  | .text s, _ =>
    have hquote : NoQuote ('\n' :: rest) := fun c hc ↦ by
      cases hc
      decide
    exact value?_of_readString? (readString?_writeString s hquote) fuel nesting
  | .bool b, _ => cases b <;> rfl
  | .integer n, h => exact value?_integer h fuel nesting rest
  | .real .nan, _ => rfl
  | .real (.infinite negative), _ => cases negative <;> rfl
  | .real (.finite d), h =>
    show value? (fuel + 1) nesting ((d.write .settings).toList ++ '\n' :: rest) = _
    rw [value?_finite, show boundedReal? d.trim.pointed = _ from h]
    rfl

/-- What is written for a value does not start with a blank. -/
theorem skipSpace_writeScalar {v : Toml} (h : v.IsScalar) (rest : List Char) :
    skipSpace ((writeScalar v).toList ++ rest) = (writeScalar v).toList ++ rest := by
  have hcons (text : List Char) (htext : ∃ c tail, text = c :: tail ∧ isSpace c = false) :
      skipSpace (text ++ rest) = text ++ rest := by
    obtain ⟨c, tail, rfl, hc⟩ := htext
    rw [List.cons_append, skipSpace, List.dropWhile_cons_of_neg (Bool.eq_false_iff.mp hc)]
  have hsigned (negative : Bool) {whole : List Char} (hwhole : IsWhole whole) (tail : List Char) :
      ∃ c tail', (if negative then ['-'] else []) ++ (whole ++ tail) = c :: tail' ∧
        isSpace c = false := by
    obtain ⟨c, digits, rfl, hdigit, -⟩ := hwhole.exists_cons
    cases negative
    · refine ⟨c, digits ++ tail, rfl, ?_⟩
      simp [isSpace, ne_of_isDigit hdigit (x := ' ') rfl, ne_of_isDigit hdigit (x := '\t') rfl]
    · exact ⟨'-', c :: digits ++ tail, rfl, rfl⟩
  refine hcons _ ?_
  match v, h with
  | .text s, _ =>
    rw [writeScalar, writeString, String.toList_ofList]
    cases StringForm.of s.toList <;> exact ⟨_, _, rfl, rfl⟩
  | .bool b, _ => cases b <;> exact ⟨_, _, rfl, rfl⟩
  | .integer n, _ =>
    have h := hsigned (decide (n < 0)) (isWhole_toDigits n.natAbs) []
    simp only [decide_eq_true_eq, List.append_nil] at h
    rw [writeScalar, toList_toString_int]
    exact h
  | .real .nan, _ => exact ⟨_, _, rfl, rfl⟩
  | .real (.infinite negative), _ => cases negative <;> exact ⟨_, _, rfl, rfl⟩
  | .real (.finite d), _ =>
    obtain ⟨whole, fraction, htext, hwhole, -⟩ := exists_parts_writeSettings d
    rw [writeScalar, NumberView.settings, htext]
    exact hsigned _ hwhole _

end OutlierScoring.Toml
