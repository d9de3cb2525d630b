import Mathlib.Data.List.Nodup
import OutlierScoring.CommandLine.Run
import OutlierScoring.Proofs.Outcome

/-!
# Predictions for batches

A batch is predicted sequence by sequence. It succeeds exactly if each of its sequences does, with
the predictions that they have on their own (`TrainedState.predictBatch_eq_ok`), and otherwise it
fails as the first of them that fails (`TrainedState.predictBatch_eq_error`). A printed batch has
one member for each of its sequences, because no two sequences have the same key
(`exists_batchToJson_eq`).

What breaks off in a sequence breaks off in the batch: only a failure is put under an index.
-/

namespace OutlierScoring

variable {α : Type}

/-! ### Keys -/

theorem SequencePrediction.keyOf_injective : Function.Injective keyOf := by
  intro i j h
  have hdigits : i.repr.toList = j.repr.toList :=
    congrArg String.toList ((String.append_right_inj "sequence_").mp h)
  rw [Nat.toList_repr, Nat.toList_repr] at hdigits
  rw [← digitsValue_toDigits i, ← digitsValue_toDigits j, hdigits]

namespace Json

/-- Members of different names are all kept. -/
theorem keepLast_of_nodup {members : List (String × Json)} (h : (members.map (·.1)).Nodup) :
    keepLast members = members := by
  induction members with
  | nil => rfl
  | cons m members ih =>
    rw [List.map_cons, List.nodup_cons] at h
    have hkept : keepLast (m :: members) =
        if (keepLast members).any (·.1 == m.1) then keepLast members
        else m :: keepLast members := rfl
    have hother : members.any (·.1 == m.1) = false := by
      rw [List.any_eq_false]
      intro other hmem heq
      exact h.1 (List.mem_map.mpr ⟨other, hmem, eq_of_beq heq⟩)
    rw [hkept, ih h.2, hother]
    rfl

end Json

/-- The predictions stand under their places in the batch. -/
def IsNumbered (batch : List (SequencePrediction α)) : Prop :=
  batch.map (·.index) = List.range batch.length

theorem IsNumbered.nodup_keys {batch : List (SequencePrediction α)} (h : IsNumbered batch) :
    (batch.map (·.key)).Nodup := by
  have hkeys : batch.map (·.key) = (List.range batch.length).map SequencePrediction.keyOf := by
    rw [← h, List.map_map]
    rfl
  rw [hkeys]
  exact List.nodup_range.map SequencePrediction.keyOf_injective

/-- A numbered batch is printed with one member for each of its predictions, all of them under
different keys. -/
theorem exists_batchToJson_eq [Scalar α] [Numeral α] {batch : List (SequencePrediction α)}
    (h : IsNumbered batch) :
    ∃ members, batchToJson batch = .record members ∧
      members.Perm (batch.map fun p ↦ (p.key, p.toJson)) ∧ (members.map (·.1)).Nodup := by
  have hkeys : ((batch.map fun p ↦ (p.key, p.toJson)).map (·.1)).Nodup := by
    rw [List.map_map]
    exact h.nodup_keys
  have hperm := List.mergeSort_perm (Json.keepLast (batch.map fun p ↦ (p.key, p.toJson)))
    fun a b ↦ a.1 ≤ b.1
  rw [Json.keepLast_of_nodup hkeys] at hperm
  refine ⟨_, rfl, ?_, ?_⟩
  · rw [Json.keepLast_of_nodup hkeys]
    exact hperm
  · rw [Json.keepLast_of_nodup hkeys]
    exact (hperm.map _).nodup_iff.mpr hkeys

/-- The document for a sequence counts the points that are labelled as anomalous, and says whether
there are any. -/
theorem SequencePrediction.toJson_eq [Numeral α] (p : SequencePrediction α) :
    p.toJson = .record
      [("anomaly_count", .nat (p.prediction.labels.count 1)),
        ("is_anomalous", .bool (decide (0 < p.prediction.labels.count 1))),
        ("labels", Json.Form.toJson p.prediction.labels),
        ("scores", .scalars p.prediction.scores)] := by
  have hanomalous : p.prediction.isAnomalous = decide (0 < p.prediction.labels.count 1) := by
    rw [Bool.eq_iff_iff, decide_eq_true_iff, p.prediction.isAnomalous_iff]
    rfl
  rw [toJson, hanomalous]
  rfl

/-! ### Batches of a state -/

variable [Scalar α] {M : Type} [OutlierModel M α]

namespace TrainedState

variable {state : TrainedState α M}

theorem predictItem_eq_ok {sequence : List α} {i : Nat} {item : SequencePrediction α}
    (h : state.predictItem (sequence, i) = .ok item) :
    item.index = i ∧ state.predict sequence = .ok item.prediction := by
  rw [predictItem] at h
  rcases hpredict : state.predict sequence with failure | prediction
  · rw [hpredict] at h
    exact absurd h nofun
  · rw [hpredict] at h
    obtain rfl := Except.ok.inj h
    exact ⟨rfl, rfl⟩

theorem predictItem_eq_error {sequence : List α} {i : Nat} {failure : Failure α}
    (h : state.predictItem (sequence, i) = .error failure) :
    ∃ cause, state.predict sequence = .error cause ∧ failure = inSequence i cause := by
  rw [predictItem] at h
  rcases hpredict : state.predict sequence with cause | prediction
  · rw [hpredict] at h
    exact ⟨cause, rfl, (Except.error.inj h).symm⟩
  · rw [hpredict] at h
    exact absurd h nofun

omit [Scalar α] in
theorem inSequence_of_ne {cause : Failure α} (h : ∀ breach, cause ≠ .breach breach) (i : Nat) :
    inSequence i cause = .batchItem i cause := by
  cases cause with
  | breach breach => exact absurd rfl (h breach)
  | _ => rfl

omit [Scalar α] in
theorem getElem_zipIdx (sequences : List (List α)) {i : Nat} (hi : i < sequences.length)
    (hi' : i < sequences.zipIdx.length) : sequences.zipIdx[i] = (sequences[i], i) := by
  rw [List.getElem_zipIdx, Nat.zero_add]

variable {sequences : List (List α)}

/-- A batch that succeeds has the prediction of each sequence at its place. -/
theorem predictBatch_eq_ok {batch : List (SequencePrediction α)}
    (h : state.predictBatch sequences = .ok batch) :
    batch.length = sequences.length ∧
    ∀ (i : Nat) (hs : i < sequences.length) (hb : i < batch.length),
      batch[i].index = i ∧ state.predict sequences[i] = .ok batch[i].prediction := by
  refine ⟨(Outcome.length_of_mapM h).trans List.length_zipIdx, fun i hs hb ↦ ?_⟩
  have hitem := Outcome.getElem_of_mapM h i (by rwa [List.length_zipIdx]) hb
  rw [getElem_zipIdx sequences hs] at hitem
  exact predictItem_eq_ok hitem

/-- A batch that fails does so at its first sequence that fails. -/
theorem predictBatch_eq_error {failure : Failure α}
    (h : state.predictBatch sequences = .error failure) :
    ∃ (i : Nat) (hi : i < sequences.length) (cause : Failure α),
      state.predict sequences[i] = .error cause ∧
      (∀ (j : Nat) (hj : j < i), ∃ prediction, state.predict sequences[j] = .ok prediction) ∧
      failure = inSequence i cause := by
  obtain ⟨i, hi, hfail, hbefore⟩ := Outcome.exists_first_of_mapM_eq_error h
  have hs : i < sequences.length := by rwa [List.length_zipIdx] at hi
  rw [getElem_zipIdx sequences hs] at hfail
  obtain ⟨cause, hcause, rfl⟩ := predictItem_eq_error hfail
  refine ⟨i, hs, cause, hcause, fun j hj ↦ ?_, rfl⟩
  obtain ⟨item, hitem⟩ := hbefore j hj
  rw [getElem_zipIdx sequences (Nat.lt_trans hj hs)] at hitem
  exact ⟨item.prediction, (predictItem_eq_ok hitem).2⟩

theorem exists_predictBatch_eq_ok_iff : (∃ batch, state.predictBatch sequences = .ok batch) ↔
    ∀ sequence ∈ sequences, ∃ prediction, state.predict sequence = .ok prediction := by
  constructor
  · rintro ⟨batch, hbatch⟩ sequence hmem
    obtain ⟨hlength, hitems⟩ := predictBatch_eq_ok hbatch
    obtain ⟨i, hi, rfl⟩ := List.getElem_of_mem hmem
    exact ⟨_, (hitems i hi (hlength ▸ hi)).2⟩
  · intro h
    rcases hbatch : state.predictBatch sequences with failure | batch
    · obtain ⟨i, hi, cause, hcause, -, -⟩ := predictBatch_eq_error hbatch
      obtain ⟨prediction, hok⟩ := h _ (List.getElem_mem hi)
      exact absurd (hcause.symm.trans hok) nofun
    · exact ⟨batch, rfl⟩

theorem isNumbered_of_predictBatch {batch : List (SequencePrediction α)}
    (h : state.predictBatch sequences = .ok batch) : IsNumbered batch := by
  obtain ⟨hlength, hitems⟩ := predictBatch_eq_ok h
  refine List.ext_getElem (by simp) fun i hi hi' ↦ ?_
  have hb : i < batch.length := by simpa using hi'
  rw [List.getElem_map, List.getElem_range]
  exact (hitems i (hlength ▸ hb) hb).1

end TrainedState

/-! ### Batches of a session -/

namespace Session

/-- What a batch comes to, said by its sequences one by one. -/
structure AnswersSingly [Numeral α] (session : Session α M) (sequences : List (List α)) : Prop where
  succeeds_iff : (∃ batch, session.predictBatch sequences = .ok batch) ↔
    ∀ sequence ∈ sequences, ∃ prediction, session.predict sequence = .ok prediction
  /-- The predictions are those of the sequences, in their order. -/
  items (batch : List (SequencePrediction α)) : session.predictBatch sequences = .ok batch →
    batch.length = sequences.length ∧
    ∀ (i : Nat) (hs : i < sequences.length) (hb : i < batch.length),
      batch[i].index = i ∧ session.predict sequences[i] = .ok batch[i].prediction
  /-- Only a failure is put under the index of its sequence. -/
  failure (failure : Failure α) : session.predictBatch sequences = .error failure →
    ∃ (i : Nat) (hi : i < sequences.length) (cause : Failure α),
      session.predict sequences[i] = .error cause ∧
      (∀ (j : Nat) (hj : j < i), ∃ prediction, session.predict sequences[j] = .ok prediction) ∧
      ((∀ breach, cause ≠ .breach breach) → failure = .batchItem i cause) ∧
      ∀ breach, cause = .breach breach → failure = .breach breach
  /-- What is printed has a member for each sequence and no others. -/
  printed (batch : List (SequencePrediction α)) : session.predictBatch sequences = .ok batch →
    ∃ members, batchToJson batch = .record members ∧
      members.length = sequences.length ∧ (members.map (·.1)).Nodup ∧
      ∀ (i : Nat) (hb : i < batch.length), (SequencePrediction.keyOf i, .record
        [("anomaly_count", .nat (batch[i].prediction.labels.count 1)),
          ("is_anomalous", .bool (decide (0 < batch[i].prediction.labels.count 1))),
          ("labels", Json.Form.toJson batch[i].prediction.labels),
          ("scores", .scalars batch[i].prediction.scores)]) ∈ members

theorem answersSingly [Numeral α] {session : Session α M} {state : TrainedState α M}
    (h : session.published = some state) (sequences : List (List α)) :
    session.AnswersSingly sequences := by
  have hpredict : session.predict = state.predict := by
    funext series
    rw [predict, h]
  have hbatch : session.predictBatch sequences = state.predictBatch sequences := by
    rw [predictBatch, h]
  refine ⟨?_, fun batch ↦ ?_, fun failure hfail ↦ ?_, fun batch hok ↦ ?_⟩
  · rw [hbatch, hpredict]
    exact TrainedState.exists_predictBatch_eq_ok_iff
  · rw [hbatch, hpredict]
    exact TrainedState.predictBatch_eq_ok
  · rw [hbatch] at hfail
    rw [hpredict]
    obtain ⟨i, hi, cause, hcause, hbefore, rfl⟩ := TrainedState.predictBatch_eq_error hfail
    refine ⟨i, hi, cause, hcause, hbefore, fun hne ↦ TrainedState.inSequence_of_ne hne i, ?_⟩
    rintro breach rfl
    rfl
  · rw [hbatch] at hok
    have hnumbered := TrainedState.isNumbered_of_predictBatch hok
    obtain ⟨hlength, hitems⟩ := TrainedState.predictBatch_eq_ok hok
    obtain ⟨members, hmembers, hperm, hnodup⟩ := exists_batchToJson_eq hnumbered
    refine ⟨members, hmembers, ?_, hnodup, fun i hb ↦ ?_⟩
    · rw [hperm.length_eq, List.length_map, hlength]
    · have hkey : SequencePrediction.keyOf i = batch[i].key :=
        congrArg _ (hitems i (hlength ▸ hb) hb).1.symm
      rw [← SequencePrediction.toJson_eq, hkey]
      exact hperm.mem_iff.mpr (List.mem_map_of_mem (List.getElem_mem hb))

end Session

namespace CommandLine

open Files

omit [Scalar α] in
theorem RunM.run_get_bind {β : Type} (next : Progress α → RunM α β) (progress : Progress α) :
    (get >>= next).run progress = (next progress).run progress := rfl

variable [Numeral α]

/-- The command for a batch does what the session does with the sequences in the file, and prints
the batch. -/
theorem run_predictBatch (engine : Engine α (Forest α)) (now : Time.Instant) (contamination : α)
    {file text : String} {progress : Progress α} {sequences : List (List α)}
    (hfile : progress.session.disk.tree.readText (.ofText file) = .ok text)
    (htext : sequences? text = some sequences) :
    (runCommand engine now contamination (.predictBatch file)).run progress =
      match progress.session.predictBatch sequences with
      | .ok batch => (.ok (), { progress with printed := batchToJson batch :: progress.printed })
      | .error failure => (.error (.refused failure), progress) := by
  rw [runCommand, RunM.run_get_bind, hfile]
  simp only [htext]
  rw [RunM.run_get_bind]
  rcases progress.session.predictBatch sequences with failure | batch
  · rfl
  · rfl

end CommandLine

/-- A batch is predicted as its sequences are one by one, and the command for a batch prints an
object with one entry for each of them. Before there is a state, even the empty batch is refused. -/
theorem batches_answer_singly [Numeral α] :
    (∀ (M : Type) [OutlierModel M α] (session : Session α M) (sequences : List (List α)),
      match session.published with
      | none => session.predictBatch sequences = .error .modelNotTrained
      | some _ => session.AnswersSingly sequences) ∧
    Function.Injective SequencePrediction.keyOf ∧
    ∀ (engine : Engine α (Forest α)) (now : Time.Instant) (contamination : α) (file text : String)
      (progress : CommandLine.Progress α) (sequences : List (List α)),
      progress.session.disk.tree.readText (.ofText file) = .ok text →
      CommandLine.sequences? text = some sequences →
      (CommandLine.runCommand engine now contamination (.predictBatch file)).run progress =
        match progress.session.predictBatch sequences with
        | .ok batch => (.ok (), { progress with printed := batchToJson batch :: progress.printed })
        | .error failure => (.error (.refused failure), progress) := by
  refine ⟨fun M _ session sequences ↦ ?_, SequencePrediction.keyOf_injective, ?_⟩
  · rcases hpublished : session.published with _ | state
    · simp only [Session.predictBatch, hpublished]
    · exact Session.answersSingly hpublished sequences
  · intro engine now contamination file text progress sequences
    exact CommandLine.run_predictBatch engine now contamination

end OutlierScoring
