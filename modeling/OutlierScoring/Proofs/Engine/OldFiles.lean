import OutlierScoring.Proofs.Engine.Stored
import OutlierScoring.Proofs.Engine.Summaries
import OutlierScoring.Proofs.Store.Overwriting

/-!
# Starting over old files

A host that starts restores what it finds, whatever comes of that, and trains. What it finds in the
two files of the store is none of the training's business: on two trees that differ in these files
only, trainings on the same series both come to the same summary, the same published state and the
same files, or both of them fail (`Engine.old_files_have_no_say`). They also fail for the same
cause, unless one of the two files is named as a folder on the way to the other one or to itself,
where a save is bound to fail and it depends on the file which of its steps does.
-/

namespace OutlierScoring

open Files Tree

variable {α : Type} [Scalar α] [Numeral α]

/-- The state is published, and the two files of the store hold its two documents. -/
structure Session.Keeps (session : Session α (Forest α)) (store : Store)
    (state : TrainedState α (Forest α)) : Prop where
  published : session.published = some state
  stored : ∃ statistics, state.scaler.statistics = some statistics ∧
    store.Replaced (Json.Form.toJson state.blob).compact.toUTF8
      (Json.Form.toJson statistics).pretty.toUTF8 session.disk.tree

namespace Engine

variable {engine : Engine α (Forest α)} {store : Store} {tree twin : Tree}

/-- Whatever is restored or not, the disk is left as it is. -/
theorem exists_restore_start (hstore : engine.store = some store) (tree : Tree) :
    ∃ published, (engine.restore (.start (.ofTree tree))).2 = ⟨published, .ofTree tree⟩ := by
  obtain ⟨outcome, hload⟩ : ∃ outcome,
      (store.load : Store.Step α (Option (Blob (Forest α) × Statistics α))).run (.ofTree tree) =
        (outcome, .ofTree tree) := by
    by_cases hpresent : store.isPresent tree = true
    · obtain ⟨hmodel, hscaler⟩ := (Bool.and_eq_true _ _).mp hpresent
      obtain ⟨model, hmodel⟩ := isFile_iff_exists_read.mp hmodel
      obtain ⟨scaler, hscaler⟩ := isFile_iff_exists_read.mp hscaler
      exact ⟨_, Store.load_of_read store hmodel hscaler⟩
    · refine ⟨.ok none, ?_⟩
      show (if store.isPresent tree then _ else _ : Store.Step α _).run (.ofTree tree) = _
      rw [if_neg hpresent]
      rfl
  exact ⟨_, congrArg Prod.snd (restore_start hstore hload)⟩

omit [Numeral α] in
theorem exists_statistics_of_prepare {now : Time.Instant} {data : Option (List α)}
    {contamination : α} {state : TrainedState α (Forest α)} {summary : TrainingSummary α}
    (h : engine.prepare tree now data contamination = .ok (state, summary)) :
    ∃ statistics, state.scaler.statistics = some statistics := by
  obtain ⟨matrix, source, -, hfit, -⟩ := exists_of_prepare_eq_ok h
  obtain ⟨-, -, -, scaled, -, -, htransform⟩ := exists_of_fit_eq_ok hfit
  rcases hstatistics : state.scaler.statistics with _ | statistics
  · rw [Scaler.transform, hstatistics] at htransform
    cases htransform
  · exact ⟨statistics, rfl⟩

/-- A training that has prepared a state comes to what comes of replacing the two files. -/
theorem train_of_store (hstore : engine.store = some store) {now : Time.Instant}
    {data : Option (List α)} {contamination : α} {state : TrainedState α (Forest α)}
    {summary : TrainingSummary α}
    (h : engine.prepare tree now data contamination = .ok (state, summary))
    {statistics : Statistics α} (hstatistics : state.scaler.statistics = some statistics)
    (published : Option (TrainedState α (Forest α))) :
    engine.train now data contamination ⟨published, .ofTree tree⟩ =
      match (store.replace (Json.Form.toJson state.blob).compact.toUTF8
          (Json.Form.toJson statistics).pretty.toUTF8 : Store.Step α Unit).run (.ofTree tree) with
      | (.error failure, disk) => (.error failure, ⟨published, disk⟩)
      | (.ok (), disk) => (.ok summary, ⟨some state, disk⟩) := by
  have hpersist : engine.persist state = store.replace (Json.Form.toJson state.blob).compact.toUTF8
      (Json.Form.toJson statistics).pretty.toUTF8 := by
    rw [persist, hstore, hstatistics]
    rfl
  have htrain := train_eq_of_prepare (show engine.prepare
    (⟨published, .ofTree tree⟩ : Session α (Forest α)).disk.tree now data contamination =
      .ok (state, summary) from h)
  rwa [hpersist] at htrain

/-- Two trainings on one series over files that differ in what the two files of the store held. -/
theorem train_cases_of_sameAround (hstore : engine.store = some store)
    (hsame : store.SameAround tree twin) {series : List α}
    (hlong : engine.minTrainingSamples ≤ series.length) (now now' : Time.Instant)
    (contamination : α) (published published' : Option (TrainedState α (Forest α))) :
    (∃ state summary session session',
      engine.train now (some series) contamination ⟨published, .ofTree tree⟩ =
        (.ok summary, session) ∧
      engine.train now' (some series) contamination ⟨published', .ofTree twin⟩ =
        (.ok (summary.dated now'), session') ∧
      session.Keeps store state ∧ session'.Keeps store (state.dated now')) ∨
    ∃ failure failure' session session', (store.IsClear → failure = failure') ∧
      engine.train now (some series) contamination ⟨published, .ofTree tree⟩ =
        (.error failure, session) ∧
      engine.train now' (some series) contamination ⟨published', .ofTree twin⟩ =
        (.error failure', session') := by
  have hmatrix : engine.trainingMatrix tree (some series) =
      engine.trainingMatrix twin (some series) := by
    rw [trainingMatrix_of_le hlong, trainingMatrix_of_le hlong]
  have hprepare' := prepare_dated_of_trainingMatrix hmatrix now now' contamination
  rcases hprepare : engine.prepare tree now (some series) contamination
    with failure | ⟨state, summary⟩
  · have hrefused {t : Tree} {time : Time.Instant}
        (h : engine.prepare t time (some series) contamination = .error failure)
        (session : Option (TrainedState α (Forest α))) :
        engine.train time (some series) contamination ⟨session, .ofTree t⟩ =
          (.error failure, ⟨session, .ofTree t⟩) := (refuses_iff.mpr h).1
    rw [hprepare] at hprepare'
    exact .inr ⟨failure, failure, _, _, fun _ ↦ rfl, hrefused hprepare published,
      hrefused hprepare' published'⟩
  rw [hprepare] at hprepare'
  obtain ⟨statistics, hstatistics⟩ := exists_statistics_of_prepare hprepare
  have hstatistics' : (state.dated now').scaler.statistics = some statistics := hstatistics
  rw [train_of_store hstore hprepare hstatistics, train_of_store hstore hprepare' hstatistics']
  rcases Store.replace_cases hsame (Json.Form.toJson state.blob).compact.toUTF8
      (Json.Form.toJson (state.dated now').blob).compact.toUTF8
      (Json.Form.toJson statistics).pretty.toUTF8 (Json.Form.toJson statistics).pretty.toUTF8 with
    ⟨after, after', -, hrun, hrun'⟩ | ⟨failure, failure', after, after', hcause, hrun, hrun'⟩
  · have hreplaced := (Store.ends_replace store _ _ tree).of_run_eq_ok hrun
    have hreplaced' := (Store.ends_replace store _ _ twin).of_run_eq_ok hrun'
    left
    rw [hrun, hrun']
    exact ⟨state, summary, _, _, rfl, rfl, ⟨rfl, statistics, hstatistics, hreplaced⟩,
      ⟨rfl, statistics, hstatistics, hreplaced'⟩⟩
  · right
    rw [hrun, hrun']
    exact ⟨failure, failure', _, _, hcause, rfl, rfl⟩

/-- Two starts of a host over files that differ in what the two files of the store held, each
followed by a training on the same series. Either both trainings come to the same summary, publish
the same state and leave the same files, but for the times, or both of them fail. They fail for the
same cause unless one of the two files stands where a folder has to be. -/
theorem old_files_have_no_say {s : Settings α} (hnew : new s = .ok engine)
    (hpersist : s.storage.persist = true)
    (hsame : Store.SameAround ⟨s.storage.modelPath, s.storage.scalerPath⟩ tree twin)
    {series : List α} (hlong : s.training.minTrainingSamples ≤ series.length)
    (now now' : Time.Instant) (contamination : α) :
    (∃ state summary session session',
      engine.train now (some series) contamination (engine.restore (.start (.ofTree tree))).2 =
        (.ok summary, session) ∧
      engine.train now' (some series) contamination (engine.restore (.start (.ofTree twin))).2 =
        (.ok (summary.dated now'), session') ∧
      session.Keeps ⟨s.storage.modelPath, s.storage.scalerPath⟩ state ∧
      session'.Keeps ⟨s.storage.modelPath, s.storage.scalerPath⟩ (state.dated now')) ∨
    ∃ failure failure' session session',
      (Store.IsClear ⟨s.storage.modelPath, s.storage.scalerPath⟩ → failure = failure') ∧
      engine.train now (some series) contamination (engine.restore (.start (.ofTree tree))).2 =
        (.error failure, session) ∧
      engine.train now' (some series) contamination (engine.restore (.start (.ofTree twin))).2 =
        (.error failure', session') := by
  obtain ⟨hstore, hlong⟩ :
      engine.store = some ⟨s.storage.modelPath, s.storage.scalerPath⟩ ∧
        engine.minTrainingSamples ≤ series.length := by
    rw [new] at hnew
    rcases hvalid : s.validate with fault | _
    · rw [hvalid] at hnew
      cases hnew
    · rw [hvalid] at hnew
      obtain rfl := Except.ok.inj hnew
      exact ⟨if_pos hpersist, hlong⟩
  obtain ⟨published, hrestore⟩ := exists_restore_start hstore tree
  obtain ⟨published', hrestore'⟩ := exists_restore_start hstore twin
  rw [hrestore, hrestore']
  exact train_cases_of_sameAround hstore hsame hlong now now' contamination published published'

end Engine

/-! ### Two paths -/

/-- Settings for one tree that is trained on any series and stored at the given paths. -/
def singleSettings (modelPath scalerPath : String) : Settings Float where
  model := { estimators := 1, sampleLimit := 4 }
  training := { contamination := defaultContamination, minTrainingSamples := 1 }
  storage := { modelPath, scalerPath }
  logging := {}

/-- A tree with a file that is no document at the given place. -/
def strayFile (place : Location) : Tree := ⟨[(place, .file ⟨#[0]⟩)]⟩

namespace Engine

theorem exists_new_singleSettings (modelPath scalerPath : String) : ∃ engine,
    new (singleSettings modelPath scalerPath) = .ok engine ∧
    engine.store = some ⟨modelPath, scalerPath⟩ ∧
    ∀ (tree : Tree) (now : Time.Instant), ∃ state summary,
      engine.prepare tree now (some [1]) 0.5 = .ok (state, summary) := by
  have hisOk : (singleSettings "" "").validate.isOk = true := by decide +kernel
  rw [new, show (singleSettings modelPath scalerPath).validate = (singleSettings "" "").validate
    from rfl]
  rcases hvalid : (singleSettings "" "").validate with fault | _
  · rw [hvalid] at hisOk
    cases hisOk
  · exact ⟨_, rfl, rfl, fun tree now ↦ exists_prepare_single rfl rfl le_rfl rfl tree now⟩

/-- What the engine for a single float makes of files, whatever it has restored from them. -/
theorem exists_train_singleSettings {modelPath scalerPath : String}
    {engine : Engine Float (Forest Float)}
    (hnew : new (singleSettings modelPath scalerPath) = .ok engine)
    (tree : Tree) (now : Time.Instant) : ∃ summary model scaler,
    (engine.train now (some [1]) 0.5 (engine.restore (.start (.ofTree tree))).2).1 =
      ((Store.replace ⟨modelPath, scalerPath⟩ model scaler : Store.Step Float Unit).run
        (.ofTree tree)).1.map fun _ ↦ summary := by
  obtain ⟨_, hnew', hstore, hprepare⟩ := exists_new_singleSettings modelPath scalerPath
  obtain rfl := Except.ok.inj (hnew.symm.trans hnew')
  obtain ⟨state, summary, hprepare⟩ := hprepare tree now
  obtain ⟨statistics, hstatistics⟩ := exists_statistics_of_prepare hprepare
  obtain ⟨published, hrestore⟩ := exists_restore_start hstore tree
  refine ⟨summary, (Json.Form.toJson state.blob).compact.toUTF8,
    (Json.Form.toJson statistics).pretty.toUTF8, ?_⟩
  rw [hrestore, train_of_store hstore hprepare hstatistics]
  rcases (Store.replace ⟨modelPath, scalerPath⟩ _ _ : Store.Step Float Unit).run (.ofTree tree) with
    ⟨failure | ⟨⟩, after⟩
  · rfl
  · rfl

/-- A file may stand where the model goes, or nothing. -/
theorem sameAround_strayFile (store : Store) :
    store.SameAround .empty (strayFile store.model.place) where
  differ place := by
    rcases hplace : place.isGiven
    · by_cases hmodel : place = store.model.place
      · refine .inr (.inl ⟨.inl ⟨hplace, .inl hmodel⟩, ?_, ?_⟩)
        · simp [empty, find?, hplace]
        · rw [hmodel] at hplace ⊢
          simp [strayFile, find?, hplace]
      · have hother : (place == store.model.place) = false := by simpa using hmodel
        exact .inl (by simp [empty, strayFile, find?, hplace, List.lookup_cons, hother])
    · exact .inl (by simp [find?, hplace])
  staged _ h := by cases h

/-- A stray file in the place of the model is replaced, as if there had been none. -/
theorem old_files_have_no_say_strayFile : ∃ engine state summary session session',
    new (singleSettings "m.json" "s.json") = .ok engine ∧
    engine.train default (some [1]) 0.5 (engine.restore (.start (.ofTree .empty))).2 =
      (.ok summary, session) ∧
    engine.train ⟨1, 0, 0⟩ (some [1]) 0.5
        (engine.restore (.start (.ofTree (strayFile ["m.json"])))).2 =
      (.ok (summary.dated ⟨1, 0, 0⟩), session') ∧
    session.Keeps ⟨"m.json", "s.json"⟩ state ∧
    session'.Keeps ⟨"m.json", "s.json"⟩ (state.dated ⟨1, 0, 0⟩) := by
  obtain ⟨engine, hnew, -⟩ := exists_new_singleSettings "m.json" "s.json"
  have hsame : Store.SameAround ⟨"m.json", "s.json"⟩ .empty (strayFile ["m.json"]) :=
    sameAround_strayFile _
  rcases old_files_have_no_say hnew rfl hsame (show 1 ≤ [(1 : Float)].length from le_rfl) default
      ⟨1, 0, 0⟩ 0.5 with
    ⟨state, summary, session, session', htrain, htrain', hkeeps, hkeeps'⟩ |
    ⟨failure, failure', session, session', -, htrain, -⟩
  · exact ⟨engine, state, summary, session, session', hnew, htrain, htrain', hkeeps, hkeeps'⟩
  · obtain ⟨summary, model, scaler, htrain'⟩ := exists_train_singleSettings hnew .empty default
    have hok : ((Store.replace ⟨"m.json", "s.json"⟩ model scaler : Store.Step Float Unit).run
        (.ofTree .empty)).1 = .ok () := rfl
    rw [htrain, hok] at htrain'
    cases htrain'

/-- Where the path of the statistics leads through the place of the model, no training succeeds, but
a file that stands there is what the second one of them fails for. -/
theorem old_files_name_the_cause : ∃ engine, new (singleSettings "a" "a/b") = .ok engine ∧
    Store.SameAround ⟨"a", "a/b"⟩ .empty (strayFile ["a"]) ∧
    (engine.train default (some [1]) 0.5 (engine.restore (.start (.ofTree .empty))).2).1 =
      .error (.persistence "a" (.file .isFolder)) ∧
    (engine.train default (some [1]) 0.5
        (engine.restore (.start (.ofTree (strayFile ["a"])))).2).1 =
      .error (.persistence "a/b" (.file .occupied)) := by
  obtain ⟨engine, hnew, -⟩ := exists_new_singleSettings "a" "a/b"
  refine ⟨engine, hnew, sameAround_strayFile _, ?_, ?_⟩
  · obtain ⟨summary, model, scaler, htrain⟩ := exists_train_singleSettings hnew .empty default
    rw [htrain]
    rfl
  · obtain ⟨summary, model, scaler, htrain⟩ :=
      exists_train_singleSettings hnew (strayFile ["a"]) default
    rw [htrain]
    rfl

end Engine

end OutlierScoring
