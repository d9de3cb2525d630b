import OutlierScoring.Proofs.Engine.Stored
import OutlierScoring.Proofs.Engine.Summaries
import OutlierScoring.Proofs.Forest.Persistence
import OutlierScoring.Proofs.Matrix.Names

/-!
# Trainings under any names

A training takes the names of its matrix as they are. What is fitted does not depend on them
(`Engine.fit_renamed`): the statistics and the forest have the columns of the matrix, while the
summary and the stored state have its names (`TrainedState.IsFitTo`). The two numbers are compared
when the state is restored, and at no time before. So a state that was trained under too many names
or too few of them is published and stored like any other, and lost when the engine is started again
(`Engine.restores_only_named`).
-/

namespace OutlierScoring

open Files
open ForestParams (TabledFloat)

variable {α σ : Type}

/-- What a restoring says of a state that was trained on a matrix with another number of names than
of columns. -/
def FeatureMatrix.disagreement (m : FeatureMatrix α) (store : Store) : Failure α :=
  .persistence store.modelPath
    (.disagreement m.values.width m.values.width m.names.length)

namespace Engine

variable [Scalar α]

/-! ### Fits -/

/-- What can be fitted under some names can be fitted under any others, in the same way. -/
theorem fit_renamed {M : Type} {engine : Engine α M} {now : Time.Instant} {contamination : α}
    {names : List String} {values : Matrix α} {state : TrainedState α M}
    (h : engine.fit now ⟨names, values⟩ contamination = .ok state) (names' : List String) :
    engine.fit now ⟨names', values⟩ contamination = .ok { state with featureNames := names' } := by
  obtain ⟨⟨⟩, hfinite, h⟩ := Outcome.exists_of_bind_eq_ok h
  obtain ⟨scaled, hscaled, h⟩ := Outcome.exists_of_bind_eq_ok h
  obtain ⟨model, hmodel, h⟩ := Outcome.exists_of_bind_eq_ok h
  obtain rfl := Except.ok.inj h
  -- The names are only for the message about a column that is refused.
  have hrenamed : (Scaler.new engine.zeroVariance).fitTransform values names' =
      (Scaler.new engine.zeroVariance).fitTransform values names := by
    have hlearnable := Scaler.isLearnable_of_fitTransform hscaled
    exact (Scaler.fitTransform_of_isLearnable hlearnable).trans
      (Scaler.fitTransform_of_isLearnable hlearnable).symm
  have hscaled' : ((Scaler.new engine.zeroVariance).fitTransform values names).1 = .ok scaled :=
    hscaled
  rw [fit]
  simp only [bind, Except.bind, hfinite, hrenamed, hscaled', hmodel]
  rfl

variable {engine : Engine α (Forest α)} {matrix : FeatureMatrix α}
  {state : TrainedState α (Forest α)} {statistics : Statistics α} {chance : Chance σ α}
  {p : ForestParams α}

/-! ### Restoring -/

/-- The number of names decides whether a trained state is accepted. -/
theorem coherent_of_isFitTo (h : state.IsFitTo matrix statistics) (store : Store) :
    coherent store state.blob statistics =
      if matrix.IsNamed then .ok state.reread else .error (matrix.disagreement store) := by
  have hfeatures : OutlierModel.features (α := α) state.blob.model = matrix.values.width :=
    h.features_eq
  have hnames : state.blob.featureNames.length = matrix.names.length :=
    congrArg List.length h.featureNames_eq
  rw [coherent]
  simp only [hfeatures, hnames, h.size_mean]
  by_cases hnamed : matrix.IsNamed
  · have hequal : matrix.names.length = matrix.values.width := hnamed
    rw [if_pos hnamed, if_neg (by simp [hequal]), TrainedState.reread, h.statistics_eq]
    rfl
  · rw [if_neg hnamed, if_pos (.inr hnamed)]
    rfl

variable [Numeral α] [LawfulNumeral α]

/-- A trained state that was stored is restored by the next engine, unless its matrix had another
number of names than of columns. -/
theorem restore_start_of_isFitTo {store : Store} (hstore : engine.store = some store)
    (hvalid : state.trainedAt.IsValid) (hstorable : state.IsStorable)
    (h : state.IsFitTo matrix statistics) {tree : Tree}
    (hholds : store.Holds tree state.blob statistics) :
    engine.restore (.start (.ofTree tree)) =
      if matrix.IsNamed then (.ok true, ⟨some state.reread, .ofTree tree⟩)
      else (.error (matrix.disagreement store), .start (.ofTree tree)) := by
  have hstorable : state.model.IsStorable ∧ statistics.IsStorable :=
    ⟨hstorable.1, hstorable.2 statistics h.statistics_eq⟩
  rw [restore_start_of_holds hstore hvalid hholds hstorable, coherent_of_isFitTo h]
  split
  · rfl
  · rfl

/-! ### Trainings -/

/-- The matrices that can be obtained have one name per column, or come from a document and have
any names at all; a training does not look at them. What a training has published and stored has as
many means, scales and columns of a forest as its matrix has columns, and as many names as that has
names. A restoring accepts it exactly if these numbers are the same. -/
theorem restores_only_named (hdetector : engine.detector = p.detector chance)
    (hfallback : engine.fallback.IsSupply) :
    (∀ m : FeatureMatrix α, m.Obtained ↔ m.IsNamed ∨ m.values.IsStorable) ∧
    (∀ now contamination names names' values state,
      engine.fit now ⟨names, values⟩ contamination = .ok state →
        engine.fit now ⟨names', values⟩ contamination = .ok { state with featureNames := names' }) ∧
    ∀ now data contamination (session session' : Session α (Forest α)) summary,
      engine.train now data contamination session = (.ok summary, session') →
      ∃ (matrix : FeatureMatrix α) (state : TrainedState α (Forest α)) (statistics : Statistics α),
        engine.trainingMatrix session.disk.tree data = .ok (matrix, summary.source) ∧
        matrix.Obtained ∧
        (¬matrix.IsNamed → ∃ name, engine.fallback = .ofMatrix name matrix) ∧
        session'.published = some state ∧ state.IsFitTo matrix statistics ∧
        summary.featureNames = matrix.names ∧
        (∀ store, coherent store state.blob statistics =
          if matrix.IsNamed then .ok state.reread else .error (matrix.disagreement store)) ∧
        ∀ store, engine.store = some store → store.scaler.place ≠ store.model.place →
          store.Holds session'.disk.tree state.blob statistics ∧
          (now.IsValid → state.IsStorable →
            engine.restore (.start (.ofTree session'.disk.tree)) =
              if matrix.IsNamed then (.ok true, ⟨some state.reread, .ofTree session'.disk.tree⟩)
              else (.error (matrix.disagreement store), .start (.ofTree session'.disk.tree))) := by
  refine ⟨fun m ↦ FeatureMatrix.obtained_iff, ?_, ?_⟩
  · intro now contamination names names' values state h
    exact fit_renamed h names'
  intro now data contamination session session' summary h
  obtain ⟨state, hprepare, hpersist, hpublished⟩ := exists_persist_of_train h
  obtain ⟨matrix, source, hmatrix, hfit, hsummary⟩ := exists_of_prepare_eq_ok hprepare
  obtain ⟨-, -, -, hnames, -, -, -, rfl⟩ := exists_of_summarize_eq_ok hsummary
  obtain ⟨statistics, hfitTo⟩ := exists_isFitTo_of_fit hdetector hfit
  have htime := trainedAt_of_fit hfit
  refine ⟨matrix, state, statistics, hmatrix, ?_, ?_, hpublished, hfitTo,
    hnames.trans hfitTo.featureNames_eq, coherent_of_isFitTo hfitTo, ?_⟩
  · rcases exists_of_trainingMatrix_eq_ok hmatrix with ⟨series, -, -, rfl⟩ | hload
    · exact .ofSeries series
    · exact hfallback.obtained hload
  · intro hnamed
    rcases exists_of_trainingMatrix_eq_ok hmatrix with ⟨series, -, -, rfl⟩ | hload
    · exact absurd rfl hnamed
    · exact hfallback.exists_eq_ofMatrix hload hnamed
  · intro store hstore hplaces
    rw [persist_eq hstore hfitTo.statistics_eq] at hpersist
    have hholds := Store.holds_of_run_save hplaces hpersist
    exact ⟨hholds, fun hvalid hstorable ↦
      restore_start_of_isFitTo hstore (htime ▸ hvalid) hstorable hfitTo hholds⟩

/-- A fallback matrix of one column under two names, as it would come from a document. -/
def twoNames : FeatureMatrix TabledFloat := ⟨["a", "b"], .ofSeries [1]⟩

/-- The engine that trains on it and stores its states. -/
def twoNamesEngine : Engine TabledFloat (Forest TabledFloat) :=
  { oneTreeEngine TabledFloat with
    fallback := .ofMatrix "reference" twoNames
    store := some ⟨"m.json", "s.json"⟩ }

/-- All numbers of a state that is trained on it are finite. -/
theorem isStorable_of_fit_twoNames {state : TrainedState TabledFloat (Forest TabledFloat)}
    (h : twoNamesEngine.fit default twoNames (1 / Scalar.two) = .ok state) : state.IsStorable :=
  (isStorable_iff_of_fit rfl Keystream.samplesDistinct h (by decide) (by decide) (by decide)).mpr
    (by decide +kernel)

/-- A training on it succeeds. -/
theorem exists_train_twoNames (hfinite : twoNames.values.ensureFinite = .ok ()) :
    ∃ state summary disk, twoNamesEngine.fit default twoNames (1 / Scalar.two) = .ok state ∧
      twoNamesEngine.train default none (1 / Scalar.two) (.start (.ofTree .empty)) =
        (.ok summary, ⟨some state, disk⟩) := by
  have hc : IsContamination (1 / Scalar.two : TabledFloat) := by decide +kernel
  obtain ⟨_, hlearned⟩ := Outcome.exists_of_isOk
    (show (((Scaler.new .unitScale).fitTransform twoNames.values twoNames.names).1 >>=
      Matrix.ensureFinite).isOk = true by decide +kernel)
  obtain ⟨scaled, hscaled, hscaledFinite⟩ := Outcome.exists_of_bind_eq_ok hlearned
  have hmatrix : twoNamesEngine.trainingMatrix .empty none =
      .ok (twoNames, .fallback "reference") := rfl
  obtain ⟨state, summary, hprepare⟩ : ∃ state summary,
      twoNamesEngine.prepare .empty default none (1 / Scalar.two) = .ok (state, summary) :=
    exists_prepare_of_scaled rfl default hc rfl hmatrix hfinite hscaled hscaledFinite
  obtain ⟨matrix, source, hmatrix', hfit, -⟩ := exists_of_prepare_eq_ok hprepare
  obtain ⟨rfl, rfl⟩ := Prod.mk.injEq .. ▸ Except.ok.inj (hmatrix.symm.trans hmatrix')
  -- A save does not look into what it stores.
  have hreplace (model scaler : ByteArray) : ∃ disk,
      (Store.replace ⟨"m.json", "s.json"⟩ model scaler : Store.Step TabledFloat Unit).run
        (.ofTree .empty) = (.ok (), disk) := ⟨_, Prod.ext rfl rfl⟩
  obtain ⟨disk, htrain⟩ :=
    exists_train_of_prepare rfl rfl (.start (.ofTree .empty)) hreplace hprepare
  exact ⟨state, summary, disk, hfit, htrain⟩

/-- The training succeeds, and what it has stored is refused. -/
theorem restores_only_named_twoNames : ∃ summary session',
    twoNamesEngine.train default none (1 / Scalar.two) (.start (.ofTree .empty)) =
      (.ok summary, session') ∧
    summary.featureNames.length = 2 ∧
    (twoNamesEngine.restore (.start (.ofTree session'.disk.tree))).1 =
      .error (.persistence "m.json" (.disagreement 1 1 2)) := by
  obtain ⟨_, hfinite⟩ := Outcome.exists_of_isOk
    (show twoNames.values.ensureFinite.isOk = true by decide +kernel)
  have hobtained : twoNames.Obtained :=
    FeatureMatrix.obtained_iff.mpr (.inr ⟨by decide, Matrix.ensureFinite_eq_ok_iff.mp hfinite⟩)
  have hdetector : twoNamesEngine.detector = (oneTree TabledFloat).detector Keystream.chance := rfl
  obtain ⟨-, -, htrained⟩ := restores_only_named hdetector (.ofMatrix "reference" hobtained)
  obtain ⟨state, summary, disk, hfit, htrain⟩ := exists_train_twoNames hfinite
  obtain ⟨matrix, _, _, hmatrix, -, -, hpublished, -, hnames, -, hrestore⟩ :=
    htrained _ _ _ _ _ _ htrain
  obtain ⟨rfl, -⟩ := Prod.mk.injEq .. ▸ Except.ok.inj hmatrix
  obtain rfl := Option.some.inj hpublished
  have hvalid : (default : Time.Instant).IsValid := ⟨by decide, by decide, by decide, by decide⟩
  obtain ⟨-, hrestored⟩ := hrestore _ rfl (by decide)
  refine ⟨summary, _, htrain, congrArg List.length hnames, ?_⟩
  rw [hrestored hvalid (isStorable_of_fit_twoNames hfit)]
  rfl

end Engine

end OutlierScoring
