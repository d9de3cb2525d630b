import Mathlib.Data.List.Basic
import OutlierScoring.Toml.Quoted

/-!
# Strings are read back

Whichever of the four forms a text is written in, the reader takes it for the same text, provided
that no further quote follows (`readString?_writeString`). Between double quotes every character is
written in such a way that it is read as one character (`basicBody?_write`). Between triple quotes a
quote may also stand for itself; whether it does is only known once the next character comes that is
no quote. The two inductions over such texts therefore carry the run of quotes that has been written
but not read yet.
-/

namespace OutlierScoring.Toml

/-- The text does not go on with a quote. -/
def NoQuote (rest : List Char) : Prop := ∀ c ∈ rest.head?, c ≠ '"' ∧ c ≠ '\''

variable {rest : List Char}

/-! ### Single characters -/

theorem escapedCode?_digits : ∀ n < 0x80,
    ∃ digits, writeCode (Char.ofNat n) = '\\' :: 'u' :: digits ∧ digits.length = 4 ∧
      escapedCode? digits = some (Char.ofNat n) := by
  have hall : ∀ n < 0x80, ((writeCode (Char.ofNat n)).take 2 = ['\\', 'u'] ∧
      ((writeCode (Char.ofNat n)).drop 2).length = 4) ∧
      escapedCode? ((writeCode (Char.ofNat n)).drop 2) = some (Char.ofNat n) := by
    decide +kernel
  intro n hn
  obtain ⟨⟨htake, hlength⟩, hread⟩ := hall n hn
  refine ⟨_, ?_, hlength, hread⟩
  rw [← List.take_append_drop 2 (writeCode (Char.ofNat n)), htake]
  rfl

/-- An escape by digits is read as the character that it was written for. -/
theorem exists_writeCode_eq {c : Char} (h : needsEscape c = true) :
    ∃ x y z w, writeCode c = ['\\', 'u', x, y, z, w] ∧ escapedCode? [x, y, z, w] = some c := by
  have hlow : c.toNat < 0x80 := by
    simp only [needsEscape, Bool.or_eq_true, Bool.and_eq_true, decide_eq_true_eq,
      beq_iff_eq] at h
    omega
  obtain ⟨digits, hwrite, hlength, hread⟩ := escapedCode?_digits c.toNat hlow
  rw [Char.ofNat_toNat] at hwrite hread
  match digits, hlength with
  | [x, y, z, w], _ => exact ⟨x, y, z, w, hwrite, hread⟩

/-- What only an escape can stand for is not plain, and all else is, line ends aside. -/
theorem isPlain_of_not_needsEscape {c : Char} (h : needsEscape c = false) (hline : c ≠ '\n') :
    isPlain c = true := by
  simp only [needsEscape, Bool.or_eq_false_iff, Bool.and_eq_false_iff, decide_eq_false_iff_not,
    bne_eq_false_iff_eq, beq_eq_false_iff_ne] at h
  simp only [isPlain, Bool.or_eq_true, Bool.and_eq_true, decide_eq_true_eq, bne_iff_ne, ne_eq,
    beq_iff_eq]
  obtain ⟨(hlow | rfl) | rfl, hdelete⟩ := h
  · exact .inr ⟨by omega, hdelete⟩
  · exact .inl rfl
  · exact absurd rfl hline

/-- The characters that stand for a character between double quotes, a quote not among those that
stand for themselves. -/
def writeBasicChar (multi : Bool) (c : Char) : List Char :=
  match c with
  | '"' => ['\\', '"']
  | '\\' => ['\\', '\\']
  | '\n' => if multi then ['\n'] else ['\\', 'n']
  | '\t' => ['\\', 't']
  | '\r' => ['\\', 'r']
  | '\x08' => ['\\', 'b']
  | '\x0c' => ['\\', 'f']
  | c => if needsEscape c then writeCode c else [c]

theorem writeBasicBody_cons (multi : Bool) {run : Nat} {c : Char} (s : List Char)
    (h : c = '"' → (if multi then 2 else 0) ≤ run) :
    writeBasicBody multi run (c :: s) = writeBasicChar multi c ++ writeBasicBody multi 0 s := by
  rw [writeBasicBody.eq_def]
  simp only
  split
  · rw [if_neg (Nat.not_lt.mpr (h rfl))]
    rfl
  all_goals try rfl
  · split <;> simp [writeBasicChar, *]
  · rw [writeBasicChar]
    · split <;> rfl
    all_goals assumption

/-- A quote that may stand for itself. -/
theorem writeBasicBody_quote {run : Nat} (s : List Char) (h : run < 2) :
    writeBasicBody true run ('"' :: s) = '"' :: writeBasicBody true (run + 1) s := by
  rw [writeBasicBody]
  exact if_pos h

/-- A character that was written between double quotes is read as one character. -/
theorem basicBody?_write (c : Char) (read rest : List Char) :
    basicBody? read (writeBasicChar false c ++ rest) = basicBody? (c :: read) rest := by
  rw [writeBasicChar.eq_def]
  split
  all_goals try rfl
  rename_i hquote hbackslash hline _ _ _ _
  split
  · rename_i hescape
    obtain ⟨x, y, z, w, hwrite, hread⟩ := exists_writeCode_eq hescape
    rw [hwrite]
    simp only [List.cons_append, List.nil_append]
    rw [basicBody?, hread]
  · rename_i hescape
    have hplain := isPlain_of_not_needsEscape (Bool.eq_false_iff.mpr hescape) hline
    rw [List.singleton_append, basicBody?]
    · exact if_pos ⟨hplain, hbackslash⟩
    all_goals grind

theorem multiBasicBody?_write (c : Char) (read rest : List Char) :
    multiBasicBody? .none read (writeBasicChar true c ++ rest) =
      multiBasicBody? .none (c :: read) rest := by
  rw [writeBasicChar.eq_def]
  split
  all_goals try rfl
  rename_i hquote hbackslash hline _ _ _ _
  split
  · rename_i hescape
    obtain ⟨x, y, z, w, hwrite, hread⟩ := exists_writeCode_eq hescape
    rw [hwrite]
    simp only [List.cons_append, List.nil_append]
    rw [multiBasicBody?, hread]
  · rename_i hescape
    have hplain := isPlain_of_not_needsEscape (Bool.eq_false_iff.mpr hescape) hline
    by_cases hspace : c = ' '
    · subst hspace
      rfl
    rw [List.singleton_append, multiBasicBody?]
    · exact if_pos ⟨hplain, hbackslash⟩
    all_goals grind

/-! ### Runs of quotes -/

/-- How the reader of a string between triple quotes treats quotes: up to two of them belong to the
string, also right before the closing ones. -/
structure ReadsRuns (quote : Char) (body : List Char → List Char → Option (String × List Char)) :
    Prop where
  stays (read rest : List Char) (h : ∀ tail, rest ≠ quote :: quote :: tail) :
    body read (quote :: rest) = body (quote :: read) rest
  close_three (read rest : List Char) (h : rest.head? ≠ some quote) :
    body read (quote :: quote :: quote :: rest) = some (String.ofList read.reverse, rest)
  close_four (read rest : List Char) (h : rest.head? ≠ some quote) :
    body read (quote :: quote :: quote :: quote :: rest) =
      some (String.ofList (quote :: read).reverse, rest)
  close_five (read rest : List Char) :
    body read (quote :: quote :: quote :: quote :: quote :: rest) =
      some (String.ofList (quote :: quote :: read).reverse, rest)

namespace ReadsRuns

variable {quote : Char} {body : List Char → List Char → Option (String × List Char)} {run : Nat}

/-- A run of quotes that is too short to close a string stands for itself. -/
theorem append (hbody : ReadsRuns quote body) (h : run ≤ 2) (read : List Char)
    (hrest : rest.head? ≠ some quote) :
    body read (List.replicate run quote ++ rest) =
      body (List.replicate run quote ++ read) rest := by
  have hone : ∀ tail, rest ≠ quote :: quote :: tail := fun _ heq ↦ hrest (heq ▸ rfl)
  match run, h with
  | 0, _ => rfl
  | 1, _ => exact hbody.stays read rest hone
  | 2, _ =>
    have htwo : ∀ tail, quote :: rest ≠ quote :: quote :: tail := fun _ heq ↦
      hrest ((List.cons.inj heq).2 ▸ rfl)
    exact (hbody.stays read (quote :: rest) htwo).trans (hbody.stays (quote :: read) rest hone)

theorem append_close (hbody : ReadsRuns quote body) (h : run ≤ 2) (read : List Char)
    (hrest : rest.head? ≠ some quote) :
    body read (List.replicate run quote ++ quote :: quote :: quote :: rest) =
      some (String.ofList (read.reverse ++ List.replicate run quote), rest) := by
  match run, h with
  | 0, _ => simpa using hbody.close_three read rest hrest
  | 1, _ => simpa using hbody.close_four read rest hrest
  | 2, _ => simpa using hbody.close_five read rest

end ReadsRuns

theorem replicate_append_cons (run : Nat) (quote : Char) (rest : List Char) :
    List.replicate run quote ++ quote :: rest = List.replicate (run + 1) quote ++ rest := by
  rw [List.replicate_succ', List.append_assoc, List.singleton_append]

/-! ### Double quotes -/

theorem basicBody?_body (s read rest : List Char) :
    basicBody? read (writeBasicBody false 0 s ++ '"' :: rest) =
      some (String.ofList (read.reverse ++ s), rest) := by
  induction s generalizing read with
  | nil =>
    rw [writeBasicBody, List.nil_append, basicBody?, List.append_nil]
  | cons c s ih =>
    rw [writeBasicBody_cons false s fun _ ↦ Nat.zero_le _, List.append_assoc, basicBody?_write, ih]
    simp

theorem readsRuns_multiBasicBody? : ReadsRuns '"' (multiBasicBody? .none) where
  stays read rest h := by
    rw [multiBasicBody?]
    all_goals grind
  close_three read rest h := by
    rw [multiBasicBody?]
    all_goals grind
  close_four read rest h := by
    rw [multiBasicBody?]
    grind
  close_five _ _ := rfl

/-- What a character other than a quote is written with does not start with a quote. -/
theorem head?_writeBasicChar (multi : Bool) (c : Char) (rest : List Char) :
    ∃ x tail, writeBasicChar multi c ++ rest = x :: tail ∧ x ≠ '"' ∧ (x = '\n' → c = '\n') ∧
      x ≠ '\r' := by
  rw [writeBasicChar.eq_def]
  split
  all_goals try exact ⟨_, _, rfl, by decide, nofun, by decide⟩
  · split <;> exact ⟨_, _, rfl, by decide, fun _ ↦ rfl, by decide⟩
  · rename_i hquote _ _ _ hreturn _ _
    split
    · exact ⟨_, _, rfl, by decide, nofun, by decide⟩
    · exact ⟨_, _, rfl, hquote, id, hreturn⟩

/-- The induction is on what is still to be read; before it there may be quotes that stand for
themselves and that the reader has not come to yet. -/
theorem multiBasicBody?_body (s : List Char) {run : Nat} (h : run ≤ 2) (read : List Char)
    (hrest : rest.head? ≠ some '"') :
    multiBasicBody? .none read (List.replicate run '"' ++
        (writeBasicBody true run s ++ '"' :: '"' :: '"' :: rest)) =
      some (String.ofList (read.reverse ++ (List.replicate run '"' ++ s)), rest) := by
  induction s generalizing run read with
  | nil =>
    rw [writeBasicBody, List.nil_append, readsRuns_multiBasicBody?.append_close h read hrest,
      List.append_nil]
  | cons c s ih =>
    by_cases hquote : c = '"' ∧ run < 2
    · obtain ⟨rfl, hrun⟩ := hquote
      rw [writeBasicBody_quote s hrun, List.cons_append, replicate_append_cons,
        replicate_append_cons]
      exact ih hrun read
    · have hwrite : c = '"' → (if true then 2 else 0) ≤ run := fun hc ↦
        Nat.not_lt.mp fun hrun ↦ hquote ⟨hc, hrun⟩
      obtain ⟨x, tail, hhead, hx, -⟩ := head?_writeBasicChar true c
        (writeBasicBody true 0 s ++ '"' :: '"' :: '"' :: rest)
      have hnext := ih (Nat.zero_le 2) (c :: (List.replicate run '"' ++ read))
      rw [List.replicate_zero, List.nil_append, List.nil_append] at hnext
      rw [writeBasicBody_cons true s hwrite, List.append_assoc,
        readsRuns_multiBasicBody?.append h read, multiBasicBody?_write, hnext]
      · simp
      · rw [hhead]
        simpa using hx

/-! ### Single quotes -/

theorem literalBody?_body {s : List Char} (h : ∀ c ∈ s, isPlain c = true ∧ c ≠ '\'')
    (read rest : List Char) :
    literalBody? read (s ++ '\'' :: rest) = some (String.ofList (read.reverse ++ s), rest) := by
  induction s generalizing read with
  | nil => rw [List.nil_append, literalBody?, List.append_nil]
  | cons c s ih =>
    obtain ⟨hplain, hquote⟩ := h c List.mem_cons_self
    rw [List.cons_append, literalBody?, if_pos hplain,
      ih fun a ha ↦ h a (List.mem_cons_of_mem c ha)]
    · simp
    · exact hquote

theorem readsRuns_multiLiteralBody? : ReadsRuns '\'' multiLiteralBody? where
  stays read rest h := by
    rw [multiLiteralBody?, if_pos (.inl rfl)]
    all_goals grind
  close_three read rest h := by
    rw [multiLiteralBody?]
    all_goals grind
  close_four read rest h := by
    rw [multiLiteralBody?]
    grind
  close_five _ _ := rfl

theorem le_longestRun (c : Char) (current longest : Nat) (s : List Char) :
    longest ≤ longestRun c current longest s := by
  fun_induction longestRun c current longest s with
  | case1 => exact Nat.le_refl _
  | case2 current longest rest ih => exact Nat.le_trans (Nat.le_max_left _ _) ih
  | case3 current longest x rest hx ih => exact ih

theorem not_mem_of_longestRun_eq_zero {c : Char} {current : Nat} {s : List Char}
    (h : longestRun c current 0 s = 0) : c ∉ s := by
  induction s generalizing current with
  | nil => exact List.not_mem_nil
  | cons x s ih =>
    rw [longestRun] at h
    split at h
    · have hle := le_longestRun c (current + 1) (max 0 (current + 1)) s
      omega
    · rename_i hx
      exact List.not_mem_cons_of_ne_of_not_mem (Ne.symm hx) (ih h)

/-- The induction is on what is still to be read, behind a run of quotes that the reader has not
come to yet. -/
theorem multiLiteralBody?_body (s : List Char) {run longest : Nat} (h : run ≤ 2)
    (hplain : ∀ c ∈ s, needsEscape c = false) (hruns : longestRun '\'' run longest s ≤ 2)
    (read : List Char) (hrest : rest.head? ≠ some '\'') :
    multiLiteralBody? read (List.replicate run '\'' ++ (s ++ '\'' :: '\'' :: '\'' :: rest)) =
      some (String.ofList (read.reverse ++ (List.replicate run '\'' ++ s)), rest) := by
  induction s generalizing run longest read with
  | nil =>
    rw [List.nil_append, readsRuns_multiLiteralBody?.append_close h read hrest, List.append_nil]
  | cons c s ih =>
    have hplain' : ∀ a ∈ s, needsEscape a = false := fun a ha ↦ hplain a (List.mem_cons_of_mem c ha)
    rw [longestRun] at hruns
    split at hruns
    · rename_i hquote
      have hlonger := le_longestRun '\'' (run + 1) (max longest (run + 1)) s
      rw [hquote, List.cons_append, replicate_append_cons, replicate_append_cons]
      exact ih (by omega) hplain' hruns read
    · rename_i hquote
      have hescape := hplain c List.mem_cons_self
      have hreturn : c ≠ '\r' := by
        rintro rfl
        exact absurd hescape (by decide)
      have hnext := ih (Nat.zero_le 2) hplain' hruns (c :: (List.replicate run '\'' ++ read))
      rw [List.replicate_zero, List.nil_append, List.nil_append] at hnext
      rw [List.cons_append, readsRuns_multiLiteralBody?.append h read (by simpa using hquote),
        multiLiteralBody?, if_pos, hnext]
      · simp
      · by_cases hline : c = '\n'
        · exact .inr hline
        · exact .inl (isPlain_of_not_needsEscape hescape hline)
      all_goals grind

/-! ### All forms -/

theorem dropLineEnd_of_head? (h : rest.head? ≠ some '\n') (h' : rest.head? ≠ some '\r') :
    dropLineEnd rest = rest := by
  rw [dropLineEnd.eq_def]
  split
  · exact absurd rfl h
  · exact absurd rfl h'
  · rfl

/-- A text is put between single quotes only if it can stand there as it is. -/
theorem StringForm.of_eq (s : List Char) :
    StringForm.of s = .basic ∨ StringForm.of s = .multiBasic ∨
      (StringForm.of s = .literal ∧ s ≠ [] ∧ ∀ c ∈ s, isPlain c = true ∧ c ≠ '\'') ∨
      (StringForm.of s = .multiLiteral ∧ longestRun '\'' 0 0 s ≤ 2 ∧
        ∀ c ∈ s, needsEscape c = false) := by
  rw [StringForm.of]
  split
  · split <;> simp
  rename_i hany
  have hescape : ∀ c ∈ s, needsEscape c = false := fun c hc ↦
    Bool.eq_false_iff.mpr fun hneeds ↦ hany (List.any_eq_true.mpr ⟨c, hc, hneeds⟩)
  split
  · exact .inl rfl
  rename_i hbasic
  split
  · rename_i hliteral
    simp only [Bool.and_eq_true, decide_eq_true_eq, Bool.not_eq_true', List.contains_eq_mem,
      decide_eq_false_iff_not] at hliteral
    obtain ⟨hsingle, hlines⟩ := hliteral
    have hquote := not_mem_of_longestRun_eq_zero hsingle
    refine .inr (.inr (.inl ⟨rfl, ?_, fun c hc ↦ ⟨?_, ?_⟩⟩))
    · rintro rfl
      exact hbasic rfl
    · exact isPlain_of_not_needsEscape (hescape c hc) fun heq ↦ hlines (heq ▸ hc)
    · exact fun heq ↦ hquote (heq ▸ hc)
  split
  · exact .inr (.inl rfl)
  split
  · rename_i hsingle
    exact .inr (.inr (.inr ⟨rfl, hsingle, hescape⟩))
  · split <;> simp

/-- Between double quotes a text does not start with two more quotes. -/
theorem writeBasicBody_ne_quotes (s : List Char) (hrest : rest.head? ≠ some '"')
    (tail : List Char) : writeBasicBody false 0 s ++ '"' :: rest ≠ '"' :: '"' :: tail := by
  rcases s with _ | ⟨c, s⟩
  · rintro heq
    rw [(List.cons.inj heq).2] at hrest
    exact hrest rfl
  · obtain ⟨x, tail', hhead, hx, -⟩ :=
      head?_writeBasicChar false c (writeBasicBody false 0 s ++ '"' :: rest)
    rw [writeBasicBody_cons false s fun _ ↦ Nat.zero_le _, List.append_assoc, hhead]
    exact fun heq ↦ hx (List.cons.inj heq).1

/-- A text without line ends does not start with one between triple double quotes. -/
theorem dropLineEnd_writeBasicBody {s : List Char} (hlines : '\n' ∉ s) (rest : List Char) :
    dropLineEnd (writeBasicBody true 0 s ++ '"' :: rest) =
      writeBasicBody true 0 s ++ '"' :: rest := by
  rcases s with _ | ⟨c, s⟩
  · rfl
  · by_cases hquote : c = '"'
    · rw [hquote, writeBasicBody_quote s (Nat.zero_lt_two)]
      rfl
    · obtain ⟨x, tail, hhead, -, hline, hreturn⟩ :=
        head?_writeBasicChar true c (writeBasicBody true 0 s ++ '"' :: rest)
      rw [writeBasicBody_cons true s fun heq ↦ absurd heq hquote, List.append_assoc, hhead]
      refine dropLineEnd_of_head? (fun heq ↦ ?_) fun heq ↦ hreturn (Option.some.inj heq)
      exact hlines (hline (Option.some.inj heq) ▸ List.mem_cons_self)

theorem dropLineEnd_plain {s : List Char} (hplain : ∀ c ∈ s, needsEscape c = false)
    (hlines : '\n' ∉ s) (rest : List Char) :
    dropLineEnd (s ++ '\'' :: rest) = s ++ '\'' :: rest := by
  rcases s with _ | ⟨c, s⟩
  · rfl
  · refine dropLineEnd_of_head? (fun heq ↦ ?_) fun heq ↦ ?_
    · exact hlines (Option.some.inj heq ▸ List.mem_cons_self)
    · have hreturn := hplain c List.mem_cons_self
      rw [show c = '\r' from Option.some.inj heq] at hreturn
      exact absurd hreturn (by decide)

/-- A text in quotes is read back, unless a further quote follows. -/
theorem StringForm.readString?_write (s : List Char) (hrest : NoQuote rest) :
    readString? ((StringForm.of s).write s ++ rest) = some (String.ofList s, rest) := by
  have hdouble : rest.head? ≠ some '"' := fun heq ↦ (hrest _ heq).1 rfl
  have hsingle : rest.head? ≠ some '\'' := fun heq ↦ (hrest _ heq).2 rfl
  rcases StringForm.of_eq s with hform | hform | ⟨hform, hne, hplain⟩ | ⟨hform, hruns, hplain⟩
  all_goals rw [hform, write]
  · simp only [List.cons_append, List.append_assoc, List.nil_append]
    rw [readString?, basicBody?_body]
    · rfl
    · exact writeBasicBody_ne_quotes s hdouble
  · have hbody := multiBasicBody?_body s (Nat.zero_le 2) [] hdouble
    rw [List.replicate_zero, List.nil_append, List.reverse_nil, List.nil_append,
      List.nil_append] at hbody
    simp only [List.cons_append, List.append_assoc, List.nil_append]
    rw [readString?]
    split
    · exact hbody
    · rename_i hlines
      rw [List.nil_append, dropLineEnd_writeBasicBody (by simpa using hlines)]
      exact hbody
  · simp only [List.cons_append, List.append_assoc, List.nil_append]
    obtain ⟨c, s, rfl⟩ := List.exists_cons_of_ne_nil hne
    have hfirst := (hplain c List.mem_cons_self).2
    rw [readString?, literalBody?_body hplain]
    · rfl
    · exact fun _ heq ↦ hfirst (List.cons.inj heq).1
  · have hbody := multiLiteralBody?_body s (Nat.zero_le 2) hplain hruns [] hsingle
    rw [List.replicate_zero, List.nil_append, List.reverse_nil, List.nil_append,
      List.nil_append] at hbody
    simp only [List.cons_append, List.append_assoc, List.nil_append]
    rw [readString?]
    split
    · exact hbody
    · rename_i hlines
      rw [List.nil_append, dropLineEnd_plain hplain (by simpa using hlines)]
      exact hbody

theorem readString?_writeString (text : String) (hrest : NoQuote rest) :
    readString? ((writeString text).toList ++ rest) = some (text, rest) := by
  rw [writeString, String.toList_ofList, StringForm.readString?_write _ hrest, String.ofList_toList]

end OutlierScoring.Toml
