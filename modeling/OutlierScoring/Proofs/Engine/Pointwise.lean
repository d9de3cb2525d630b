import OutlierScoring.Proofs.Engine.Predictions
import OutlierScoring.Proofs.Forest.Splits

/-!
# Predictions point by point

A series is predicted as a whole: it is made a matrix, checked, standardized, checked once more and
scored. Every one of these steps treats each row by itself. The checks only ask something of each
cell (`Matrix.ensureFinite_eq_ok_iff`), standardizing makes of every number a row of its own
(`Scaler.transform_ofSeries_cases`), and a forest scores row after row (`Forest.scores_eq_ok_iff`).
So a relation between single points and scores settles all predictions of a state
(`TrainedState.exists_settlesPredictions`), and a series is predicted as its points are
(`Session.isPointwise_predict`).
-/

namespace OutlierScoring

variable {α : Type} [Scalar α]

/-- The scores of a matrix are those of its rows, one by one. -/
theorem Forest.scores_eq_ok_iff {forest : Forest α} {m : Matrix α} {scores : List α} :
    forest.scores m = .ok scores ↔ m.width = forest.features ∧ List.Forall₂
      (fun row score ↦ (∀ x ∈ row.toList, Scalar.isFinite x = true) ∧
        forest.scoreRow row.toList = .ok score) m.rows.toList scores := by
  rw [scores_eq, List.forall₂_and_left]
  by_cases hwidth : m.width = forest.features
  · rw [if_neg (not_not_intro hwidth), ← Outcome.mapM_eq_ok_iff]
    rcases hfinite : m.ensureFinite with failure | _
    · have hnot : ¬m.IsFinite := fun h ↦
        absurd (hfinite.symm.trans (Matrix.ensureFinite_eq_ok_iff.mpr h)) nofun
      exact ⟨nofun, fun h ↦ absurd h.2.1 hnot⟩
    · exact ⟨fun h ↦ ⟨hwidth, Matrix.ensureFinite_eq_ok_iff.mp hfinite, h⟩, fun h ↦ h.2.2⟩
  · rw [if_pos hwidth]
    exact ⟨nofun, fun h ↦ absurd h.1 hwidth⟩

namespace TrainedState

/-- A prediction goes through all of its steps. -/
theorem predict_eq_ok_iff {M : Type} [OutlierModel M α] {state : TrainedState α M}
    {series : List α} {p : Prediction α} :
    state.predict series = .ok p ↔ series ≠ [] ∧ (∀ x ∈ series, Scalar.isFinite x = true) ∧
      ∃ scaled scores, state.scaler.transform (.ofSeries series) = .ok scaled ∧
        OutlierModel.scores state.model scaled = .ok scores ∧
          p = .ofScores (OutlierModel.offset state.model) scores := by
  by_cases hne : series = []
  · subst hne
    exact ⟨nofun, fun h ↦ absurd rfl h.1⟩
  rcases hrow : series.findIdx? (!Scalar.isFinite ·) with _ | row
  · have hfinite : ∀ x ∈ series, Scalar.isFinite x = true := by
      simpa using List.findIdx?_eq_none_iff.mp hrow
    rw [predict_of_finite hne hfinite, score_eq]
    constructor
    · intro h
      obtain ⟨scaled, hscaled, h⟩ := Outcome.exists_of_bind_eq_ok h
      obtain ⟨scores, hscores, h⟩ := Outcome.exists_of_bind_eq_ok h
      exact ⟨hne, hfinite, scaled, scores, hscaled, hscores, (Except.ok.inj h).symm⟩
    · rintro ⟨-, -, scaled, scores, hscaled, hscores, rfl⟩
      rw [hscaled]
      show OutlierModel.scores state.model scaled >>= _ = _
      rw [hscores]
      rfl
  · rw [predict_of_nonFinite hrow]
    refine ⟨nofun, fun h ↦ ?_⟩
    rw [findIdx?_eq_none_of_finite h.2.1] at hrow
    cases hrow

end TrainedState

/-! ### Points and their scores -/

/-- The relation tells which points have which scores, and nothing else has a say in the
predictions: exactly the series all of whose points have a score are predicted. -/
def SettlesPredictions (predict : List α → Outcome α (Prediction α)) (offset : α)
    (scoresPoint : α → α → Prop) : Prop :=
  ∀ (series : List α) (p : Prediction α), predict series = .ok p ↔ series ≠ [] ∧
    ∃ scores, List.Forall₂ scoresPoint series scores ∧ p = .ofScores offset scores

/-- Where nothing is ever predicted, no point has a score. -/
theorem settlesPredictions_of_forall_ne {predict : List α → Outcome α (Prediction α)}
    (h : ∀ series p, predict series ≠ .ok p) (offset : α) :
    SettlesPredictions predict offset fun _ _ ↦ False := by
  intro series p
  refine ⟨fun hp ↦ absurd hp (h series p), ?_⟩
  rintro ⟨hne, scores, hscores, -⟩
  obtain ⟨x, series, rfl⟩ := List.exists_cons_of_ne_nil hne
  obtain ⟨_, _, hx, -⟩ := List.forall₂_cons_left_iff.mp hscores
  exact hx.elim

/-- The predictions of a state are settled point by point. -/
theorem TrainedState.exists_settlesPredictions (state : TrainedState α (Forest α)) :
    ∃ scoresPoint, SettlesPredictions state.predict state.model.offset scoresPoint := by
  rcases state.scaler.transform_ofSeries_cases with ⟨failure, htransform⟩ | ⟨width, row, htransform⟩
  · refine ⟨_, settlesPredictions_of_forall_ne (fun series p hp ↦ ?_) _⟩
    obtain ⟨-, -, scaled, _, hscaled, -⟩ := predict_eq_ok_iff.mp hp
    exact absurd ((htransform series).symm.trans hscaled) nofun
  · refine ⟨fun x score ↦ Scalar.isFinite x = true ∧ width = state.model.features ∧
      (∀ y ∈ (row x).toList, Scalar.isFinite y = true) ∧
        state.model.scoreRow (row x).toList = .ok score, fun series p ↦ ?_⟩
    rw [predict_eq_ok_iff, htransform]
    refine and_congr_right fun hne ↦ ?_
    have hscores (scores : List α) : state.model.scores ⟨width, (series.map row).toArray⟩ =
        .ok scores ↔ width = state.model.features ∧ List.Forall₂
          (fun x score ↦ (∀ y ∈ (row x).toList, Scalar.isFinite y = true) ∧
            state.model.scoreRow (row x).toList = .ok score) series scores := by
      rw [Forest.scores_eq_ok_iff, List.toList_toArray, List.forall₂_map_left_iff]
    constructor
    · rintro ⟨hfinite, scaled, scores, hscaled, h, rfl⟩
      obtain rfl := Except.ok.inj hscaled
      obtain ⟨hwidth, hrows⟩ := (hscores scores).mp h
      exact ⟨scores, (List.forall₂_and_left _ _).mpr ⟨hfinite, (List.forall₂_and_left _ _).mpr
        ⟨fun _ _ ↦ hwidth, hrows⟩⟩, rfl⟩
    · rintro ⟨scores, h, rfl⟩
      obtain ⟨hfinite, h⟩ := (List.forall₂_and_left _ _).mp h
      obtain ⟨hwidth, hrows⟩ := (List.forall₂_and_left _ _).mp h
      have hwidth : width = state.model.features := hwidth _ (List.head_mem hne)
      exact ⟨hfinite, _, scores, rfl, (hscores scores).mpr ⟨hwidth, hrows⟩, rfl⟩

/-! ### Series -/

/-- Predictions look at each point by itself. -/
structure IsPointwise (predict : List α → Outcome α (Prediction α)) : Prop where
  /-- Two series one after the other are predicted exactly if both of them are. -/
  append_succeeds_iff (s t : List α) : s ≠ [] → t ≠ [] →
    ((∃ p, predict (s ++ t) = .ok p) ↔ (∃ p, predict s = .ok p) ∧ ∃ q, predict t = .ok q)
  /-- Scores and labels are then those of the two predictions one after the other. -/
  append (s t : List α) (p q : Prediction α) : predict s = .ok p → predict t = .ok q →
    predict (s ++ t) = .ok ⟨p.scores ++ q.scores, p.labels ++ q.labels⟩
  /-- Each point is predicted as it is alone, whatever stands before it and after it. -/
  point (series : List α) (p : Prediction α) : predict series = .ok p →
    ∃ (hs : p.scores.length = series.length) (hl : p.labels.length = series.length),
      ∀ (i : Nat) (hi : i < series.length),
        predict [series[i]] = .ok ⟨[p.scores[i]], [p.labels[i]]⟩

section

variable {predict : List α → Outcome α (Prediction α)} {offset : α} {scoresPoint : α → α → Prop}
  (h : SettlesPredictions predict offset scoresPoint)

include h

theorem SettlesPredictions.append {s t : List α} {p q : Prediction α} (hs : predict s = .ok p)
    (ht : predict t = .ok q) :
    predict (s ++ t) = .ok ⟨p.scores ++ q.scores, p.labels ++ q.labels⟩ := by
  obtain ⟨hne, sScores, hsScores, rfl⟩ := (h s p).mp hs
  obtain ⟨-, tScores, htScores, rfl⟩ := (h t q).mp ht
  refine (h (s ++ t) _).mpr ⟨List.append_ne_nil_of_left_ne_nil hne t, sScores ++ tScores,
    List.rel_append hsScores htScores, ?_⟩
  simp only [Prediction.ofScores, List.map_append]

theorem SettlesPredictions.append_succeeds_iff {s t : List α} (hs : s ≠ []) (ht : t ≠ []) :
    (∃ p, predict (s ++ t) = .ok p) ↔ (∃ p, predict s = .ok p) ∧ ∃ q, predict t = .ok q := by
  refine ⟨?_, fun ⟨⟨p, hp⟩, q, hq⟩ ↦ ⟨_, h.append hp hq⟩⟩
  rintro ⟨p, hp⟩
  obtain ⟨-, scores, hscores, -⟩ := (h _ p).mp hp
  -- The scores are cut where the first series ends.
  have hfirst := List.forall₂_take s.length hscores
  have hsecond := List.forall₂_drop s.length hscores
  rw [List.take_left] at hfirst
  rw [List.drop_left] at hsecond
  exact ⟨⟨_, (h s _).mpr ⟨hs, _, hfirst, rfl⟩⟩, _, (h t _).mpr ⟨ht, _, hsecond, rfl⟩⟩

theorem SettlesPredictions.isPointwise : IsPointwise predict where
  append_succeeds_iff s t := h.append_succeeds_iff
  append s t p q := h.append
  point series p hp := by
    obtain ⟨-, scores, hscores, rfl⟩ := (h series p).mp hp
    have hlength := hscores.length_eq
    refine ⟨(List.length_map _).trans hlength.symm, (List.length_map _).trans hlength.symm,
      fun i hi ↦ ?_⟩
    refine (h [series[i]] _).mpr ⟨List.cons_ne_nil _ _, [scores[i]],
      .cons (hscores.get hi (hlength ▸ hi)) .nil, ?_⟩
    simp only [Prediction.ofScores, List.getElem_map, List.map_cons, List.map_nil]

end

/-- Predictions look at each point by itself, whatever was published. -/
theorem Session.isPointwise_predict (session : Session α (Forest α)) :
    IsPointwise session.predict := by
  rcases hpublished : session.published with _ | state
  · have hnot (series : List α) (p : Prediction α) : session.predict series ≠ .ok p := by
      rw [predict, hpublished]
      exact nofun
    exact (settlesPredictions_of_forall_ne hnot 0).isPointwise
  · have hpredict : session.predict = state.predict := by
      funext series
      rw [predict, hpublished]
    obtain ⟨scoresPoint, hsettles⟩ := state.exists_settlesPredictions
    exact hpredict ▸ hsettles.isPointwise

end OutlierScoring
