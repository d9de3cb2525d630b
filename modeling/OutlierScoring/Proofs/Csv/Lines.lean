import OutlierScoring.Csv.Table
import OutlierScoring.Proofs.Outcome

/-!
# Tables of one line

The bytes of one line of text are a table with a header and no rows, whatever is in the line
(`exists_ofBytes_eq`).

Fields are cut out of the bytes of a file, and they are texts because it is only cut at commas and
quotes, which are no part of any other character. The invariant of the reader is `Draft.IsText`.
-/

namespace OutlierScoring.Csv

/-- The bytes of a text. -/
def encode (text : List Char) : List UInt8 := text.flatMap String.utf8EncodeChar

/-- The bytes are those of some text. -/
def IsText (bytes : List UInt8) : Prop := ∃ text, bytes = encode text

theorem encode_append (text text' : List Char) :
    encode (text ++ text') = encode text ++ encode text' := List.flatMap_append

/-- A byte that is no character by itself, and that is neither a comma, a quote nor a line end. -/
def IsPart (b : UInt8) : Prop := 128 ≤ b.toNat

theorem IsPart.beq_eq_false {b a : UInt8} (h : IsPart b) (ha : a.toNat < 128) :
    (b == a) = false := by
  refine beq_eq_false_iff_ne.mpr ?_
  rintro rfl
  exact absurd h (Nat.not_le.mpr ha)

theorem encode_singleton (c : Char) : encode [c] = String.utf8EncodeChar c := List.append_nil _

theorem encode_of_ascii {c : Char} (h : c.toNat < 128) : encode [c] = [UInt8.ofNat c.toNat] := by
  rw [encode_singleton, String.utf8EncodeChar]
  exact if_pos (show c.toNat ≤ 0x7f by omega)

/-- The bytes of any other character are parts of it. -/
theorem isPart_of_mem_encode {c : Char} (h : 128 ≤ c.toNat) : ∀ b ∈ encode [c], IsPart b := by
  have hlt : c.toNat < 0x110000 := by
    have hvalid := c.valid
    simp only [UInt32.isValidChar, Nat.isValidChar] at hvalid
    show c.val.toNat < _
    omega
  intro b hb
  rw [encode_singleton, String.utf8EncodeChar] at hb
  change b ∈ (if c.toNat ≤ 0x7f then _ else _ : List UInt8) at hb
  rw [if_neg (by omega)] at hb
  rw [IsPart]
  split at hb
  · simp only [List.mem_cons, List.not_mem_nil, or_false] at hb
    rcases hb with rfl | rfl <;> simp only [UInt8.toNat_ofNat'] <;> omega
  · split at hb
    · simp only [List.mem_cons, List.not_mem_nil, or_false] at hb
      rcases hb with rfl | rfl | rfl <;> simp only [UInt8.toNat_ofNat'] <;> omega
    · simp only [List.mem_cons, List.not_mem_nil, or_false] at hb
      rcases hb with rfl | rfl | rfl | rfl <;> simp only [UInt8.toNat_ofNat'] <;> omega

theorem isText_of_decode {field : List UInt8} (h : IsText field) :
    ∃ text, Utf8.decode? field = some text := by
  obtain ⟨text, rfl⟩ := h
  have hvalid : ByteArray.IsValidUTF8 ⟨(encode text).toArray⟩ := by
    refine ⟨text, ByteArray.ext ?_⟩
    simp [List.utf8Encode, encode]
  exact ⟨_, dif_pos hvalid⟩

/-! ### Reading a line -/

/-- Everything that is open is text. -/
structure Draft.IsText (d : Draft) : Prop where
  fields : ∀ field ∈ d.fields, Csv.IsText field
  field : Csv.IsText d.field.reverse

theorem Draft.IsText.nextField {d : Draft} (h : d.IsText) : d.nextField.IsText where
  fields := by
    intro field hfield
    rcases List.mem_cons.mp hfield with rfl | hfield
    · exact h.field
    · exact h.fields field hfield
  field := ⟨[], rfl⟩

/-- Bytes that are parts of characters come into the field at hand, one after the other. -/
theorem recordsFrom_parts {bytes : List UInt8} (h : ∀ b ∈ bytes, IsPart b) (state : State)
    (draft : Draft) (next : Position) (rest : List UInt8) :
    ∃ state' next', recordsFrom state draft next (bytes ++ rest) =
      recordsFrom state' { draft with field := bytes.reverse ++ draft.field } next' rest := by
  induction bytes generalizing state draft next with
  | nil => exact ⟨state, next, rfl⟩
  | cons b bytes ih =>
    have hb : IsPart b := h b List.mem_cons_self
    have hquote : (b == quote) = false := hb.beq_eq_false (by decide)
    have hcomma : (b == comma) = false := hb.beq_eq_false (by decide)
    have hend : isLineEnd b = false :=
      Bool.or_eq_false_iff.mpr ⟨hb.beq_eq_false (by decide), hb.beq_eq_false (by decide)⟩
    have hstep : ∃ state' next', recordsFrom state draft next (b :: (bytes ++ rest)) =
        recordsFrom state' (draft.push b) next' (bytes ++ rest) := by
      cases state <;> simp only [recordsFrom, hquote, hcomma, hend] <;> exact ⟨_, _, rfl⟩
    obtain ⟨state', next', hstep⟩ := hstep
    obtain ⟨state'', next'', hrest⟩ :=
      ih (fun b hb ↦ h b (List.mem_cons_of_mem _ hb)) state' (draft.push b) next'
    refine ⟨state'', next'', ?_⟩
    rw [List.cons_append, hstep, hrest, List.reverse_cons, List.append_assoc]
    rfl

theorem Draft.IsText.append {d : Draft} (h : d.IsText) (c : Char) :
    Draft.IsText { d with field := (encode [c]).reverse ++ d.field } where
  fields := h.fields
  field := by
    obtain ⟨text, htext⟩ := h.field
    exact ⟨text ++ [c], by rw [encode_append, List.reverse_append, List.reverse_reverse, htext]⟩

/-- One character goes into the field at hand, or it opens, closes or ends a field. -/
theorem recordsFrom_char {c : Char} (hc : 32 ≤ c.toNat) (state : State) {draft : Draft}
    (h : draft.IsText) (next : Position) (rest : List UInt8) :
    ∃ state' draft' next', recordsFrom state draft next (encode [c] ++ rest) =
      recordsFrom state' draft' next' rest ∧ draft'.IsText := by
  rcases Nat.lt_or_ge c.toNat 128 with hascii | hother
  · have hbytes := encode_of_ascii hascii
    have hpush : (draft.push (UInt8.ofNat c.toNat)).IsText := by
      have happend := h.append c
      rw [hbytes] at happend
      exact happend
    have hend : isLineEnd (UInt8.ofNat c.toNat) = false := by
      have hcode : (UInt8.ofNat c.toNat).toNat = c.toNat := by
        rw [UInt8.toNat_ofNat']
        omega
      refine Bool.or_eq_false_iff.mpr ⟨beq_eq_false_iff_ne.mpr ?_, beq_eq_false_iff_ne.mpr ?_⟩
      · intro heq
        rw [heq] at hcode
        exact absurd (hcode ▸ hc) (by decide)
      · intro heq
        rw [heq] at hcode
        exact absurd (hcode ▸ hc) (by decide)
    rw [hbytes, List.singleton_append]
    -- What a byte does depends on the state, but it is one of three things.
    rcases hquote : UInt8.ofNat c.toNat == quote <;>
      rcases hcomma : UInt8.ofNat c.toNat == comma <;>
      cases state <;> simp only [recordsFrom, hend, hquote, hcomma] <;>
        first
        | exact ⟨_, _, _, rfl, h⟩
        | exact ⟨_, _, _, rfl, h.nextField⟩
        | exact ⟨_, _, _, rfl, hpush⟩
  · obtain ⟨state', next', hrun⟩ :=
      recordsFrom_parts (isPart_of_mem_encode hother) state draft next rest
    exact ⟨state', _, next', hrun, h.append c⟩

/-- A line holds at most one record, and its fields are texts. -/
theorem recordsFrom_line {text : List Char} (htext : ∀ c ∈ text, 32 ≤ c.toNat) (state : State)
    {draft : Draft} (h : draft.IsText) (next : Position) :
    ∀ records, recordsFrom state draft next (encode text) = records →
      records = [] ∨ ∃ record, records = [record] ∧ ∀ field ∈ record.fields, IsText field := by
  rintro _ rfl
  -- The induction is on the characters, not on the bytes, since a draft is text only between two
  -- characters.
  induction text generalizing state draft next with
  | nil =>
    show (if state = .between then [] else [draft.finish]) = [] ∨ _
    by_cases hbetween : state = .between
    · exact .inl (if_pos hbetween)
    · refine .inr ⟨draft.finish, if_neg hbetween, fun field hfield ↦ ?_⟩
      exact h.nextField.fields field (List.mem_reverse.mp hfield)
  | cons c text ih =>
    obtain ⟨state', draft', next', hrun, hdraft⟩ :=
      recordsFrom_char (htext c List.mem_cons_self) state h next (encode text)
    rw [← List.singleton_append, encode_append, hrun]
    exact ih (fun c hc ↦ htext c (List.mem_cons_of_mem _ hc)) state' hdraft next'

theorem isText_begin (position : Position) : (Draft.begin position).IsText where
  fields := nofun
  field := ⟨[], rfl⟩

theorem exists_texts_eq {record : Record} (h : ∀ field ∈ record.fields, IsText field)
    (index : Nat) :
    ∃ names, record.texts index = .ok names := by
  refine Outcome.exists_mapM_eq_ok ?_
  rintro ⟨field, j⟩ hfield
  obtain ⟨text, htext⟩ := isText_of_decode (h field (List.fst_mem_of_mem_zipIdx hfield))
  exact ⟨Text.trim text, by simp only [htext]⟩

/-- A line of text, one that does not begin with a byte order mark, is a table without rows. -/
theorem exists_ofBytes_eq {c : Char} {text : List Char} (hc : c.toNat < 128)
    (h : ∀ d ∈ c :: text, 32 ≤ d.toNat) :
    ∃ header, Table.ofBytes (encode (c :: text)) = .ok ⟨header, []⟩ := by
  have hrecords : records (encode (c :: text)) =
      recordsFrom .between (.begin ⟨1, 0⟩) ⟨1, 0⟩ (encode (c :: text)) := by
    rw [← List.singleton_append, encode_append, encode_of_ascii hc, List.singleton_append]
    unfold records
    -- The line does not begin with a byte order mark, whose first byte is no character.
    split
    · rename_i heq
      have hcode := congrArg UInt8.toNat (List.cons.inj heq).1
      rw [UInt8.toNat_ofNat'] at hcode
      have hmark : (0xEF : UInt8).toNat = 239 := rfl
      omega
    · rfl
  rcases recordsFrom_line h .between (isText_begin ⟨1, 0⟩) ⟨1, 0⟩ _ rfl with
    hnone | ⟨record, hone, hfields⟩
  · exact ⟨[], by rw [Table.ofBytes, hrecords, hnone]⟩
  · obtain ⟨names, hnames⟩ := exists_texts_eq hfields 0
    refine ⟨names, ?_⟩
    rw [Table.ofBytes, hrecords, hone]
    simp only [hnames]
    rfl

end OutlierScoring.Csv
