import OutlierScoring.Proofs.Engine.Training
import OutlierScoring.Proofs.Store.Loading

/-!
# Restored states

A restoring compares the number of means and the number of names to the number of columns of the
forest. It does not look at the scales, nor into the trees, so that what it publishes need not be a
state that a training could have published (`Engine.restore_compares_means_and_names`).

Scales of another number make every prediction fail. A tree that divides a column which is not there
makes a prediction break off, but only if a row comes to that division (`TrainedState.StraysOn`).
-/

namespace OutlierScoring

variable {α : Type} [Scalar α]

/-! ### Predictions that break off -/

/-- Scoring numbers one by one breaks off exactly if one of them strays. -/
theorem Forest.mapM_scoreRow_breach_iff (forest : Forest α) (series : List α) :
    (∃ breach, series.mapM (fun x ↦ forest.scoreRow [x]) = .error (.breach breach)) ↔
      ∃ x ∈ series, ∃ tree ∈ forest.trees, tree.Strays [x] := by
  have hstrays (x : α) : (∃ tree ∈ forest.trees, tree.Strays [x]) ↔
      ¬∃ score, forest.scoreRow [x] = .ok score := by
    rw [forest.exists_scoreRow_eq_ok_iff, not_not]
  simp only [hstrays]
  constructor
  · rintro ⟨breach, hbreach⟩
    obtain ⟨x, hx, herror⟩ := Outcome.exists_of_mapM_eq_error hbreach
    refine ⟨x, hx, ?_⟩
    rintro ⟨score, hok⟩
    exact absurd (herror.symm.trans hok) nofun
  · rintro ⟨x, hx, hnone⟩
    rcases hscores : series.mapM (fun x ↦ forest.scoreRow [x]) with failure | scores
    · obtain ⟨x', -, herror⟩ := Outcome.exists_of_mapM_eq_error hscores
      exact ⟨.featureOutOfRange, congrArg Except.error (scoreRow_eq_error herror)⟩
    · exact absurd (Outcome.forall_of_mapM_eq_ok hscores x hx) hnone

namespace TrainedState

variable {state : TrainedState α (Forest α)} {statistics : Statistics α}

/-- The state is one for series, and an entry of the series strays when it has been standardized.
There is nothing else in the series that it would be refused for. -/
def StraysOn (state : TrainedState α (Forest α)) (series : List α) : Prop :=
  state.model.features = 1 ∧ ∃ mean scale : α,
    state.scaler.statistics = some ⟨#[mean], #[scale]⟩ ∧
    (∀ x ∈ series, Scalar.isFinite x = true ∧ Scalar.isFinite ((x - mean) / scale) = true) ∧
    ∃ x ∈ series, ∃ tree ∈ state.model.trees, tree.Strays [(x - mean) / scale]

/-- A series that can be scored but for the rows that stray. -/
theorem score_breach_iff {mean scale : α} {series : List α}
    (hstatistics : state.scaler.statistics = some ⟨#[mean], #[scale]⟩)
    (hfeatures : state.model.features = 1)
    (hscaled : ∀ x ∈ series.map fun x ↦ (x - mean) / scale, Scalar.isFinite x = true) :
    (∃ breach, state.score (.ofSeries series) = .error (.breach breach)) ↔
      ∃ x ∈ series, ∃ tree ∈ state.model.trees, tree.Strays [(x - mean) / scale] := by
  rw [score_of_one hstatistics hfeatures, findIdx?_eq_none_of_finite hscaled]
  have hmap : (∃ x ∈ series, ∃ tree ∈ state.model.trees, tree.Strays [(x - mean) / scale]) ↔
      ∃ x ∈ series.map fun x ↦ (x - mean) / scale, ∃ tree ∈ state.model.trees, tree.Strays [x] := by
    simp only [List.mem_map, exists_exists_and_eq_and]
  rw [hmap, ← Forest.mapM_scoreRow_breach_iff]
  rcases (series.map fun x ↦ (x - mean) / scale).mapM (fun x ↦ state.model.scoreRow [x])
    with failure | scores
  · exact exists_congr fun breach ↦ ⟨fun h ↦ congrArg _ (Except.error.inj h),
      fun h ↦ congrArg _ (Except.error.inj h)⟩
  · exact exists_congr fun breach ↦ ⟨nofun, nofun⟩

theorem exists_breach_of_straysOn {series : List α} (h : state.StraysOn series) :
    ∃ breach, state.predict series = .error (.breach breach) := by
  obtain ⟨hfeatures, mean, scale, hstatistics, hfinite, x, hx, hstrays⟩ := h
  rw [predict_of_finite (List.ne_nil_of_mem hx) fun x hx ↦ (hfinite x hx).1]
  refine (score_breach_iff hstatistics hfeatures ?_).mpr ⟨x, hx, hstrays⟩
  exact List.forall_mem_map.mpr fun x hx ↦ (hfinite x hx).2

/-- A prediction breaks off exactly if the state strays on the series. -/
theorem predict_breach_iff (hstatistics : state.scaler.statistics = some statistics)
    (hmean : statistics.mean.size = state.model.features) (series : List α) :
    (∃ breach, state.predict series = .error (.breach breach)) ↔ state.StraysOn series := by
  refine ⟨?_, exists_breach_of_straysOn⟩
  rintro ⟨breach, hbreach⟩
  -- Every other failure is found before a row goes down a tree.
  have hne : series ≠ [] := by
    rintro rfl
    exact absurd hbreach nofun
  have hfinite : ∀ x ∈ series, Scalar.isFinite x = true := by
    rcases hrow : series.findIdx? (!Scalar.isFinite ·) with _ | row
    · simpa using List.findIdx?_eq_none_iff.mp hrow
    · exact absurd ((predict_of_nonFinite hrow).symm.trans hbreach) nofun
  rw [predict_of_finite hne hfinite] at hbreach
  have hfeatures : state.model.features = 1 := by
    by_contra hfeatures
    exact absurd ((score_of_features_ne hstatistics hmean hfeatures).symm.trans hbreach) nofun
  obtain ⟨means, scales⟩ := statistics
  obtain ⟨mean, rfl⟩ := Array.size_eq_one_iff.mp (hmean.trans hfeatures)
  have hscale : scales.size = 1 := by
    by_contra hscale
    exact absurd ((score_of_scale_ne hstatistics hfeatures hscale).symm.trans hbreach) nofun
  obtain ⟨scale, rfl⟩ := Array.size_eq_one_iff.mp hscale
  have hscaled : ∀ x ∈ series.map fun x ↦ (x - mean) / scale, Scalar.isFinite x = true := by
    rcases hrow : (series.map fun x ↦ (x - mean) / scale).findIdx? (!Scalar.isFinite ·)
      with _ | row
    · simpa using List.findIdx?_eq_none_iff.mp hrow
    · rw [score_of_one hstatistics hfeatures, hrow] at hbreach
      exact absurd hbreach nofun
  refine ⟨hfeatures, mean, scale, hstatistics, fun x hx ↦ ⟨hfinite x hx, ?_⟩, ?_⟩
  · exact hscaled _ (List.mem_map_of_mem hx)
  · exact (score_breach_iff hstatistics hfeatures hscaled).mp ⟨breach, hbreach⟩

/-- A state that divides existing columns only never breaks off. -/
theorem not_straysOn_of_splitsInside (h : state.model.SplitsInside) (series : List α) :
    ¬state.StraysOn series := by
  rintro ⟨hfeatures, mean, scale, -, -, x, -, hstrays⟩
  exact h.not_strays hfeatures _ hstrays

end TrainedState

/-! ### Restoring -/

namespace Engine

section Coherent

variable {M : Type} [OutlierModel M α]

/-- The state that stored parts are put together to. -/
def assembled (blob : Blob M) (statistics : Statistics α) : TrainedState α M where
  scaler := .ofStatistics statistics
  model := blob.model
  featureNames := blob.featureNames
  trainedAt := blob.trainedAt

/-- The numbers that are compared before a stored state is published are those of the means, of the
names and of the columns of the model. -/
def SizesAgree (blob : Blob M) (statistics : Statistics α) : Prop :=
  statistics.mean.size = OutlierModel.features blob.model ∧
    blob.featureNames.length = OutlierModel.features blob.model

omit [Scalar α] in
theorem coherent_eq_ok_iff (store : Store) (blob : Blob M) (statistics : Statistics α)
    (state : TrainedState α M) :
    coherent store blob statistics = .ok state ↔
      SizesAgree blob statistics ∧ state = assembled blob statistics := by
  rw [coherent, SizesAgree]
  split
  · rename_i hdisagree
    refine ⟨nofun, ?_⟩
    rintro ⟨⟨hmean, hnames⟩, -⟩
    exact absurd hdisagree (not_or.mpr ⟨not_not_intro hmean, not_not_intro hnames⟩)
  · rename_i hagree
    obtain ⟨hmean, hnames⟩ := not_or.mp hagree
    refine ⟨fun h ↦ ⟨⟨not_not.mp hmean, not_not.mp hnames⟩, (Except.ok.inj h).symm⟩, ?_⟩
    rintro ⟨-, rfl⟩
    rfl

end Coherent

variable {M : Type} [OutlierModel M α] [Json.Form M] [Numeral α] {engine : Engine α M}
  {session : Session α M}

/-- What a restoring that succeeded has published. -/
theorem exists_of_restore_eq_ok (h : (engine.restore session).1 = .ok true) :
    ∃ store blob statistics, engine.store = some store ∧
      (store.load.run session.disk).1 = .ok (some (blob, statistics)) ∧
      SizesAgree blob statistics ∧
      (engine.restore session).2.published = some (assembled blob statistics) := by
  obtain ⟨store, blob, statistics, state, hstore, hload, hstate, hpublished⟩ :=
    exists_stored_of_restore h
  obtain ⟨hsizes, rfl⟩ := (coherent_eq_ok_iff store blob statistics state).mp hstate
  exact ⟨store, blob, statistics, hstore, hload, hsizes, hpublished⟩

/-- Whatever the scales and the trees are, stored parts of which the sizes agree are published. -/
theorem restore_of_load {store : Store} (hstore : engine.store = some store) {blob : Blob M}
    {statistics : Statistics α}
    (hload : (store.load.run session.disk).1 = .ok (some (blob, statistics)))
    (hsizes : SizesAgree blob statistics) : (engine.restore session).1 = .ok true := by
  have hcoherent := (coherent_eq_ok_iff store blob statistics _).mpr ⟨hsizes, rfl⟩
  obtain ⟨disk, hrun⟩ : ∃ disk,
      store.load.run session.disk = (.ok (some (blob, statistics)), disk) :=
    ⟨_, Prod.ext hload rfl⟩
  have hstored :
      engine.stored.run session.disk = (.ok (some (assembled blob statistics)), disk) := by
    rw [stored, hstore, Files.run_bind, hrun]
    show (Store.ofOutcome (coherent store blob statistics) >>= fun state ↦
      pure (some state)).run disk = _
    rw [Files.run_bind, Store.run_ofOutcome, hcoherent]
    rfl
  rw [restore, hstored]

/-- A restoring succeeds exactly if both files are read and have as many means and as many names as
the forest has columns. A prediction with the state that it publishes then breaks off exactly if a
row strays in a tree, and it never does so if all trees divide columns that are there. -/
theorem restore_compares_means_and_names (engine : Engine α (Forest α))
    (session : Session α (Forest α)) :
    ((engine.restore session).1 = .ok true ↔
      ∃ (store : Store) (blob : Blob (Forest α)) (statistics : Statistics α),
        engine.store = some store ∧
        (store.load.run session.disk).1 = .ok (some (blob, statistics)) ∧
        SizesAgree blob statistics) ∧
    ((engine.restore session).1 = .ok true →
      ∃ (store : Store) (blob : Blob (Forest α)) (statistics : Statistics α),
      engine.store = some store ∧
      (store.load.run session.disk).1 = .ok (some (blob, statistics)) ∧
      (engine.restore session).2.published = some (assembled blob statistics) ∧
      (∀ series, (∃ breach, (engine.restore session).2.predict series = .error (.breach breach)) ↔
        (assembled blob statistics).StraysOn series) ∧
      (blob.model.SplitsInside → ∀ series breach,
        (engine.restore session).2.predict series ≠ .error (.breach breach))) := by
  refine ⟨⟨fun h ↦ ?_, ?_⟩, fun h ↦ ?_⟩
  · obtain ⟨store, blob, statistics, hstore, hload, hsizes, -⟩ := exists_of_restore_eq_ok h
    exact ⟨store, blob, statistics, hstore, hload, hsizes⟩
  · rintro ⟨store, blob, statistics, hstore, hload, hsizes⟩
    exact restore_of_load hstore hload hsizes
  · obtain ⟨store, blob, statistics, hstore, hload, hsizes, hpublished⟩ := exists_of_restore_eq_ok h
    have hbreach (series : List α) :
        (∃ breach, (engine.restore session).2.predict series = .error (.breach breach)) ↔
          (assembled blob statistics).StraysOn series := by
      rw [Session.predict, hpublished]
      exact TrainedState.predict_breach_iff rfl hsizes.1 series
    refine ⟨store, blob, statistics, hstore, hload, hpublished, hbreach, ?_⟩
    intro hinside series breach hpredict
    exact TrainedState.not_straysOn_of_splitsInside hinside series
      ((hbreach series).mp ⟨breach, hpredict⟩)

/-- A forest for one column with a tree that divides the eighth one. -/
def strayBlob : Blob (Forest Float) :=
  ⟨⟨[.node (some 7) 0 2 (.leaf 1) (.leaf 1)], 2, 1, 0.1, -0.5⟩, ["value"], default⟩

theorem isStorable_strayBlob : strayBlob.model.IsStorable where
  trees tree htree := by
    obtain rfl := List.mem_singleton.mp htree
    have hleaf : (IsolationTree.leaf 1 : IsolationTree Float).HasNumbers :=
      ⟨nofun, by decide +kernel, by decide, trivial, trivial⟩
    exact ⟨rfl, by decide, by decide, by decide +kernel, by decide, hleaf, hleaf⟩
  sampleSize_lt := by decide
  features_lt := by decide
  contamination_finite := by decide +kernel
  offset_finite := by decide +kernel

/-- The files of a stored state with that forest. -/
def strayFiles : Files.Tree :=
  ⟨[(["m.json"], .file (Json.Form.toJson strayBlob).compact.toUTF8),
    (["s.json"], .file (Json.Form.toJson Store.plainStatistics).pretty.toUTF8)]⟩

/-- The engine that stores its states in these files. -/
def twoFilesEngine : Engine Float (Forest Float) :=
  { oneTreeEngine Float with store := some ⟨"m.json", "s.json"⟩ }

theorem load_strayFiles : (Store.load ⟨"m.json", "s.json"⟩).run (.ofTree strayFiles) =
    (.ok (some (strayBlob, Store.plainStatistics)), .ofTree strayFiles) := by
  have hvalid : strayBlob.trainedAt.IsValid := ⟨by decide, by decide, by decide, by decide⟩
  have hholds : Store.Holds ⟨"m.json", "s.json"⟩ strayFiles strayBlob Store.plainStatistics :=
    ⟨rfl, rfl⟩
  exact (Store.Holds.load hvalid hholds).1 ⟨isStorable_strayBlob, Store.isStorable_plainStatistics⟩

/-- The forest with the stray division is published, and a prediction with it breaks off. -/
theorem restore_compares_means_and_names_strayFiles :
    (twoFilesEngine.restore (.start (.ofTree strayFiles))).1 = .ok true ∧
    ∃ breach, (twoFilesEngine.restore (.start (.ofTree strayFiles))).2.predict [1] =
      .error (.breach breach) := by
  have hload := congrArg Prod.fst load_strayFiles
  obtain ⟨hrestore, hpublish⟩ :=
    restore_compares_means_and_names twoFilesEngine (.start (.ofTree strayFiles))
  have hok := hrestore.mpr ⟨_, strayBlob, Store.plainStatistics, rfl, hload, rfl, rfl⟩
  refine ⟨hok, ?_⟩
  obtain ⟨store, blob, statistics, hstore, hload', -, hbreach, -⟩ := hpublish hok
  obtain rfl := Option.some.inj hstore
  obtain ⟨rfl, rfl⟩ : strayBlob = blob ∧ Store.plainStatistics = statistics := by
    simpa using hload.symm.trans hload'
  -- The only entry has no eighth cell, so that it strays at the first division.
  refine (hbreach [1]).mpr ⟨rfl, 0, 1, rfl, ?_, 1, List.mem_singleton_self 1, _,
    List.mem_singleton_self _, .here rfl rfl rfl⟩
  decide +kernel

end Engine

end OutlierScoring
