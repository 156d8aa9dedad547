import Highp.Metrics.Reported

/-! A writer that is started again, beside a new one. -/

namespace Highp.Metrics
open Highp.Lib

/-! ## What every writer keeps -/

section
variable {I S T B : Type} {platform : Platform} {code : WriterCode I S T B} {initial : Text}

/-- The name is the one that the writer was constructed with, or has been filled in by `Start`. -/
def Named (code : WriterCode I S T B) (initial : Text) (w : Writer S T B) : Prop :=
  w.manifest.serverName = initial ∨
    code.config.enabled = true ∧ initial = [] ∧
      w.manifest.serverName = code.defaultName.toList

/-- A property of the sampler and of the baseline that captures and resets keep. -/
structure Kept (code : WriterCode I S T B) (P : T → B → Prop) : Prop where
  keeping : code.Keeping
  capture : ∀ (w : Writer S T B) final i, P w.sampler w.baseline →
    P (code.capture w final i).2.1.sampler (code.capture w final i).2.1.baseline
  reset : ∀ w : Writer S T B, P w.sampler w.baseline →
    P (code.reset w).sampler (code.reset w).baseline

/-- The property and the name. -/
def Holds (code : WriterCode I S T B) (initial : Text) (P : T → B → Prop) (w : Writer S T B) :
    Prop := Named code initial w ∧ P w.sampler w.baseline

variable {P : T → B → Prop}

theorem holds_capture (hkept : Kept code P) {w w' : Writer S T B} {final ok : Bool} {i : I}
    {effects : List Effect} (h : Holds code initial P w)
    (hc : code.capture w final i = (ok, w', effects)) : Holds code initial P w' := by
  have hp := hkept.capture w final i h.2
  have hm := (hkept.keeping.capture w final i).manifest
  rw [hc] at hp hm
  have hname : w'.manifest = w.manifest := hm
  exact ⟨by simpa only [Named, hname] using h.1, hp⟩

theorem holds_initializeArtifacts {w w' : Writer S T B} {ok : Bool} {error : Option Text}
    (h : Holds code initial P w) (hi : code.initializeArtifacts w error = (ok, w')) :
    Holds code initial P w' := by
  unfold WriterCode.initializeArtifacts at hi
  cases error with
  | some message =>
    cases hi
    exact h
  | none =>
    cases hi
    exact h

theorem holds_writeManifest {w w' : Writer S T B} {ok : Bool} {file : ManifestFile}
    (h : Holds code initial P w) (hm : WriterCode.writeManifest w file = (ok, w')) :
    Holds code initial P w' := by
  cases file <;> cases hm <;> exact h

theorem holds_clear (hkept : Kept code P) {w : Writer S T B} (h : Holds code initial P w) :
    Holds code initial P (code.clear w) := by
  have hp := hkept.reset { w with lastError := [] } h.2
  have hm := (hkept.keeping.reset { w with lastError := [] }).manifest
  refine ⟨?_, hp⟩
  show (code.reset { w with lastError := [] }).manifest.serverName = initial ∨ _ ∧ _ ∧
    (code.reset { w with lastError := [] }).manifest.serverName = code.defaultName.toList
  rw [hm]
  exact h.1

theorem holds_begin (hkept : Kept code P) {w : Writer S T B} (h : Holds code initial P w)
    (i : StartInput I) : Holds code initial P (code.begin w i).2.1 := by
  unfold WriterCode.begin
  split
  · exact holds_initializeArtifacts h ‹_›
  · rename_i w₁ hi
    have h₁ := holds_initializeArtifacts h hi
    split
    · exact holds_writeManifest h₁ ‹_›
    · rename_i w₂ hm
      have h₂ := holds_writeManifest h₁ hm
      split
      · exact holds_capture hkept h₂ ‹_›
      · rename_i w₃ effects hc
        have h₃ := holds_capture hkept h₂ hc
        cases i.thread with
        | started => exact h₃
        | exception what => exact h₃
        | unknown => exact h₃

theorem holds_start (hkept : Kept code P) {w : Writer S T B} (h : Holds code initial P w)
    (i : StartInput I) : Holds code initial P (code.start platform w i).2.1 := by
  unfold WriterCode.start
  split
  · exact h
  · have hclear := holds_clear hkept h
    split
    · exact hclear
    · rename_i henabled
      refine holds_begin (w := code.prepare platform (code.clear w) i) hkept ⟨?_, hclear.2⟩ i
      by_cases hempty : (code.clear w).manifest.serverName = []
      · rcases hclear.1 with hname | ⟨he, hinitial, -⟩
        · exact .inr ⟨by simpa using henabled, hname.symm.trans hempty, if_pos hempty⟩
        · exact .inr ⟨he, hinitial, if_pos hempty⟩
      · rcases hclear.1 with hname | ⟨he, hinitial, hname⟩
        · exact .inl ((if_neg hempty).trans hname)
        · exact .inr ⟨he, hinitial, (if_neg hempty).trans hname⟩

theorem holds_turn (hkept : Kept code P) {w : Writer S T B} (h : Holds code initial P w) {i : I}
    {p : Writer S T B × List Effect} (ht : code.turn w i = some p) :
    Holds code initial P p.1 := by
  unfold WriterCode.turn at ht
  split at ht
  · split at ht
    · cases ht
      exact holds_capture hkept h ‹_›
    · rename_i w' effects hc
      cases ht
      have h' : Holds code initial P w' := holds_capture hkept h hc
      exact h'
  · cases ht

theorem holds_finish (hkept : Kept code P) {w : Writer S T B} (h : Holds code initial P w)
    (i : StopInput I) : Holds code initial P (code.finish w i).1 := by
  have hw : Holds code initial P
      (WriterCode.writeManifest (code.capture w true i.capture).2.1 i.manifest).2 :=
    holds_writeManifest (holds_capture hkept h rfl) rfl
  unfold WriterCode.finish
  simp only
  split
  · exact hw
  · exact hw

theorem holds_stop (hkept : Kept code P) {w : Writer S T B} (h : Holds code initial P w)
    (i : StopInput I) : Holds code initial P (code.stop w i).1 := by
  unfold WriterCode.stop
  split
  · exact h
  · simp only
    split
    · refine holds_finish hkept ?_ i
      exact h
    · exact h

/-- Every step but `SetLogicThreadId` keeps such a property. -/
theorem holds_step (hkept : Kept code P) {w : Writer S T B} (h : Holds code initial P w)
    {l : WriterLabel I} (hl : ∀ threadId, l ≠ .setLogicThreadId threadId)
    {p : Writer S T B × List Effect} (hs : code.step platform w l = some p) :
    Holds code initial P p.1 := by
  cases l with
  | setLogicThreadId threadId => exact absurd rfl (hl threadId)
  | start i =>
    cases hs
    exact holds_start hkept h i
  | turn i => exact holds_turn hkept h hs
  | stop i =>
    cases hs
    exact holds_stop hkept h i

/-- The logic thread that was set last. -/
def logicThread {I : Type} (threadId : Nat) (ls : List (WriterLabel I)) : Nat :=
  ls.foldl (fun current l => match l with
    | .setLogicThreadId threadId => threadId
    | _ => current) threadId

/-- A property that says which the logic thread is, over a whole run. -/
theorem holds_run (P : Nat → T → B → Prop) (threadId : Nat)
    (hkept : ∀ threadId, Kept code (P threadId))
    (hset : ∀ set, code.setLogicThreadId = some set →
      ∀ threadId threadId' s b, P threadId s b → P threadId' (set threadId' s) b)
    {w w' : Writer S T B} {ls : List (WriterLabel I)} {effects : List Effect}
    (h : Holds code initial (P threadId) w)
    (hr : code.run platform w ls = some (w', effects)) :
    Holds code initial (P (logicThread threadId ls)) w' := by
  induction ls generalizing w threadId effects with
  | nil =>
    cases hr
    exact h
  | cons l ls ih =>
    obtain ⟨q, hq, hr⟩ := Option.bind_eq_some_iff.mp hr
    obtain ⟨q', hq', heq⟩ := Option.map_eq_some_iff.mp hr
    cases heq
    cases l with
    | setLogicThreadId threadId' =>
      obtain ⟨set, hs, rfl⟩ := Option.map_eq_some_iff.mp hq
      have h' : Holds code initial (P threadId') { w with sampler := set threadId' w.sampler } :=
        ⟨h.1, hset set hs threadId threadId' _ _ h.2⟩
      exact ih threadId' h' hq'
    | start i => exact ih threadId (holds_step (hkept threadId) h (by simp) hq) hq'
    | turn i => exact ih threadId (holds_step (hkept threadId) h (by simp) hq) hq'
    | stop i => exact ih threadId (holds_step (hkept threadId) h (by simp) hq) hq'

theorem run_append (w : Writer S T B) (ls ms : List (WriterLabel I)) :
    code.run platform w (ls ++ ms) = (code.run platform w ls).bind fun p =>
      (code.run platform p.1 ms).map fun q => (q.1, p.2 ++ q.2) := by
  induction ls generalizing w with
  | nil => simp [WriterCode.run]
  | cons l ls ih =>
    simp only [List.cons_append, WriterCode.run]
    cases code.step platform w l with
    | none => rfl
    | some p =>
      simp only [Option.bind_some, ih p.1, Option.map_bind, Option.bind_map]
      cases code.run platform p.1 ls with
      | none => rfl
      | some q =>
        simp only [Option.bind_some, Function.comp_apply, Option.map_map]
        cases code.run platform q.1 ms with
        | none => rfl
        | some q' => simp

/-! ## Two writers that are started -/

structure Stopped (w : Writer S T B) : Prop where
  running : w.running = false
  joinable : w.joinable = false

theorem finish_stopped (hkeeping : code.Keeping) {w : Writer S T B} (hw : Stopped w)
    (i : StopInput I) : Stopped (code.finish w i).1 := by
  have hkeeps := hkeeping.capture w true i.capture
  have hstopped : Stopped
      (WriterCode.writeManifest (code.capture w true i.capture).2.1 i.manifest).2 := by
    cases i.manifest <;>
      exact ⟨hkeeps.running.trans hw.running, hkeeps.joinable.trans hw.joinable⟩
  unfold WriterCode.finish
  simp only
  split
  · exact hstopped
  · exact hstopped

theorem stop_stopped (hkeeping : code.Keeping) (w : Writer S T B) (i : StopInput I) :
    Stopped (code.stop w i).1 := by
  unfold WriterCode.stop
  split
  · rename_i hidle
    simp only [Bool.and_eq_true, Bool.not_eq_true'] at hidle
    exact ⟨hidle.1, hidle.2⟩
  · simp only
    split
    · exact finish_stopped hkeeping ⟨rfl, rfl⟩ i
    · exact ⟨rfl, rfl⟩

/-- Writers that `Start` clears to the same, but for the manifest, do the same from there on. -/
theorem start_eq (hkeeping : code.Keeping) {w₁ w₂ : Writer S T B} (hs₁ : Stopped w₁)
    (hs₂ : Stopped w₂) (hn₁ : Named code initial w₁) (hn₂ : Named code initial w₂)
    (hclear : ∀ manifest, { code.clear w₁ with manifest } = { code.clear w₂ with manifest })
    (i : StartInput I) : code.start platform w₁ i = code.start platform w₂ i := by
  have hmanifest : ∀ w : Writer S T B, (code.clear w).manifest =
      { w.manifest with startedAt := none, finishedAt := none } := by
    intro w
    show { (code.reset { w with lastError := [] }).manifest with
      startedAt := none, finishedAt := none } = _
    rw [(hkeeping.reset _).manifest]
  have hgo : ∀ w : Writer S T B, Stopped w → ¬ w.running = true := by
    intro w hw hrunning
    exact absurd (hw.running.symm.trans hrunning) (by decide)
  rw [WriterCode.start.eq_def platform code w₁, WriterCode.start.eq_def platform code w₂,
    if_neg (hgo w₁ hs₁), if_neg (hgo w₂ hs₂)]
  cases henabled : code.config.enabled with
  | false =>
    -- Nobody has filled in a name.
    have hname : ∀ w : Writer S T B, Named code initial w → w.manifest.serverName = initial := by
      rintro w (h | ⟨h, -, -⟩)
      · exact h
      · exact absurd (henabled.symm.trans h) (by decide)
    have hsame := hclear { w₁.manifest with
      outputRoot := code.config.outputRoot
      runId := code.config.resolveRunId platform i.runIdAt
      startedAt := none
      finishedAt := none }
    have hboth := congrArg (fun w : Writer S T B => { w with
      outputDirectory := code.config.resolveOutputDirectory platform i.resolvedAt }) hsame
    simp only [Bool.not_false, if_true, hmanifest, hname w₁ hn₁, hname w₂ hn₂] at hboth ⊢
    rw [hboth]
  | true =>
    have hname : ∀ w : Writer S T B, Named code initial w →
        (if w.manifest.serverName = [] then code.defaultName.toList else w.manifest.serverName) =
          if initial = [] then code.defaultName.toList else initial := by
      rintro w (h | ⟨-, hinitial, h⟩)
      · rw [h]
      · rw [h, if_pos hinitial]
        split <;> rfl
    have hprepare : code.prepare platform (code.clear w₁) i =
        code.prepare platform (code.clear w₂) i := by
      unfold WriterCode.prepare
      simp only [hmanifest, hname w₁ hn₁, hname w₂ hn₂]
      exact hclear _
    simp only [Bool.not_true, Bool.false_eq_true, if_false, hprepare]

theorem run_start_eq {w₁ w₂ : Writer S T B} {i : StartInput I} (future : List (WriterLabel I))
    (h : code.start platform w₁ i = code.start platform w₂ i) :
    code.run platform w₁ (.start i :: future) = code.run platform w₂ (.start i :: future) := by
  simp only [WriterCode.run, WriterCode.step, h]

/-! ## The baseline of a writer whose snapshots are not written -/

def Writer.withBaseline (w : Writer S T B) (baseline : B) : Writer S T B := { w with baseline }

/-- The captures that go on in the same way whatever the baseline is, and leave it. -/
structure Blind (code : WriterCode I S T B) (unwritten : I → Prop) : Prop where
  capture : ∀ (w : Writer S T B) final i baseline, unwritten i →
    code.capture (w.withBaseline baseline) final i =
      ((code.capture w final i).1, (code.capture w final i).2.1.withBaseline baseline,
        (code.capture w final i).2.2)
  reset : ∀ (w : Writer S T B) baseline,
    code.reset (w.withBaseline baseline) = (code.reset w).withBaseline baseline

variable {unwritten : I → Prop}

theorem begin_withBaseline (hblind : Blind code unwritten) (w : Writer S T B) (baseline : B)
    {i : StartInput I} (hi : unwritten i.capture) :
    code.begin (w.withBaseline baseline) i =
      ((code.begin w i).1, (code.begin w i).2.1.withBaseline baseline, (code.begin w i).2.2) := by
  have hinit : code.initializeArtifacts (w.withBaseline baseline) i.directoriesError =
      ((code.initializeArtifacts w i.directoriesError).1,
        (code.initializeArtifacts w i.directoriesError).2.withBaseline baseline) := by
    cases i.directoriesError <;> rfl
  have hmanifest : ∀ w : Writer S T B,
      WriterCode.writeManifest (w.withBaseline baseline) i.manifest =
        ((WriterCode.writeManifest w i.manifest).1,
          (WriterCode.writeManifest w i.manifest).2.withBaseline baseline) := by
    intro w
    cases i.manifest <;> rfl
  unfold WriterCode.begin
  rw [hinit]
  cases code.initializeArtifacts w i.directoriesError with
  | mk ok w =>
    cases ok with
    | false => rfl
    | true =>
      simp only [hmanifest]
      cases WriterCode.writeManifest w i.manifest with
      | mk ok w =>
        cases ok with
        | false => rfl
        | true =>
          simp only [hblind.capture _ _ _ _ hi]
          rcases code.capture w false i.capture with ⟨ok, w, effects⟩
          cases ok with
          | false => rfl
          | true => cases i.thread <;> rfl

theorem finish_withBaseline (hblind : Blind code unwritten) (w : Writer S T B) (baseline : B)
    {i : StopInput I} (hi : unwritten i.capture) :
    code.finish (w.withBaseline baseline) i =
      ((code.finish w i).1.withBaseline baseline, (code.finish w i).2) := by
  unfold WriterCode.finish
  rw [hblind.capture _ _ _ _ hi]
  rcases code.capture w true i.capture with ⟨ok, w, effects⟩
  cases i.manifest <;> cases i.summaryOpen <;> rfl

theorem step_withBaseline (hblind : Blind code unwritten) (w : Writer S T B) (baseline : B)
    {l : WriterLabel I} (hl : ∀ i, l.capture? = some i → unwritten i) :
    code.step platform (w.withBaseline baseline) l =
      (code.step platform w l).map fun p => (p.1.withBaseline baseline, p.2) := by
  cases l with
  | setLogicThreadId threadId =>
    simp only [WriterCode.step]
    cases code.setLogicThreadId <;> rfl
  | start i =>
    have hclear : code.clear (w.withBaseline baseline) =
        (code.clear w).withBaseline baseline := by
      have hreset := hblind.reset { w with lastError := [] } baseline
      simp only [Writer.withBaseline] at hreset
      simp only [WriterCode.clear, Writer.withBaseline, hreset]
    show some (code.start platform (w.withBaseline baseline) i).2 = _
    simp only [WriterCode.step, Option.map_some, Option.some.injEq]
    unfold WriterCode.start
    by_cases hrunning : w.running = true
    · rw [if_pos hrunning, if_pos (show (w.withBaseline baseline).running = true from hrunning)]
      rfl
    · rw [if_neg hrunning,
        if_neg (show ¬ (w.withBaseline baseline).running = true from hrunning), hclear]
      split
      · rfl
      · have hbegin := begin_withBaseline hblind (code.prepare platform (code.clear w) i) baseline
          (hl i.capture rfl)
        exact congrArg Prod.snd hbegin
  | turn i =>
    show code.turn (w.withBaseline baseline) i = (code.turn w i).map _
    unfold WriterCode.turn
    by_cases hrunning : w.running = true
    · rw [if_pos hrunning, if_pos (show (w.withBaseline baseline).running = true from hrunning),
        hblind.capture _ _ _ _ (hl i rfl)]
      rcases code.capture w false i with ⟨ok, w', effects⟩
      cases ok <;> rfl
    · rw [if_neg hrunning, if_neg (show ¬ (w.withBaseline baseline).running = true from hrunning)]
      rfl
  | stop i =>
    show some (code.stop (w.withBaseline baseline) i) = some _
    unfold WriterCode.stop
    by_cases hidle : (!w.running && !w.joinable) = true
    · rw [if_pos hidle,
        if_pos (show (!(w.withBaseline baseline).running &&
          !(w.withBaseline baseline).joinable) = true from hidle)]
    · rw [if_neg hidle,
        if_neg (show ¬ (!(w.withBaseline baseline).running &&
          !(w.withBaseline baseline).joinable) = true from hidle)]
      split
      · have hfinish := finish_withBaseline hblind { w with
          running := false
          joinable := false
          manifest := { w.manifest with
            finishedAt := some (w.manifest.finishedAt.getD i.finishedAt) } } baseline
          (hl i.capture rfl)
        exact congrArg some hfinish
      · rfl

theorem run_withBaseline (hblind : Blind code unwritten) (w : Writer S T B) (baseline : B)
    {ls : List (WriterLabel I)} (hl : ∀ l ∈ ls, ∀ i, l.capture? = some i → unwritten i) :
    code.run platform (w.withBaseline baseline) ls =
      (code.run platform w ls).map fun p => (p.1.withBaseline baseline, p.2) := by
  induction ls generalizing w with
  | nil => rfl
  | cons l ls ih =>
    simp only [WriterCode.run]
    rw [step_withBaseline hblind w baseline (hl l (List.mem_cons_self ..))]
    cases code.step platform w l with
    | none => rfl
    | some p =>
      simp only [Option.map_some, Option.bind_some,
        ih p.1 fun l' hl' => hl l' (List.mem_cons_of_mem _ hl'), Option.map_map]
      rfl

end

/-! ## The server -/

section
variable {F : Type} [Double F]

theorem sample_logicThreadId (s : RuntimeSampler) (reading : ProcessReading) :
    (s.sample (F := F) reading).2.logicThreadId = s.logicThreadId := by
  have hlogic : ∀ times (elapsed : F),
      (s.sampleLogicThread times elapsed).2.logicThreadId = s.logicThreadId := by
    intro times elapsed
    unfold RuntimeSampler.sampleLogicThread
    cases times with
    | none => rfl
    | some times =>
      simp only
      split <;> rfl
  unfold RuntimeSampler.sample
  cases reading.processTimes with
  | none => rfl
  | some times =>
    simp only
    generalize (if s.logicThreadId ≠ 0 then reading.threadTimes s.logicThreadId else none) = logic
    split
    · rfl
    · split
      · cases logic with
        | none => exact hlogic none (Double.ofInt 0)
        | some times => exact hlogic (some times) _
      · cases logic <;> rfl

variable (platform : Platform) (config : MetricsConfig)

theorem server_kept (threadId : Nat) : Kept (ServerMetricsWriter.code (F := F) platform config)
    fun s _ => s.logicThreadId = threadId := by
  constructor
  case keeping => exact serverWriter_keeping platform config
  case capture =>
    intro w final i h
    show (ServerMetricsWriter.captureAndWriteSnapshot
      platform w i).2.1.sampler.logicThreadId = threadId
    unfold ServerMetricsWriter.captureAndWriteSnapshot
    have hsample := (sample_logicThreadId (F := F) w.sampler i.reading).trans h
    cases i.file <;> exact hsample
  case reset => exact fun w h => h

theorem server_blind : Blind (ServerMetricsWriter.code (F := F) platform config)
    fun i => i.file = .openFailed ∨ i.file = .writeFailed := by
  constructor
  case capture =>
    intro w final i baseline hi
    show ServerMetricsWriter.captureAndWriteSnapshot platform (w.withBaseline baseline) i = (
      (ServerMetricsWriter.captureAndWriteSnapshot platform w i).1,
      (ServerMetricsWriter.captureAndWriteSnapshot platform w i).2.1.withBaseline baseline,
      (ServerMetricsWriter.captureAndWriteSnapshot platform w i).2.2)
    unfold ServerMetricsWriter.captureAndWriteSnapshot
    rcases hi with hfile | hfile
    · rw [hfile]
      rfl
    · rw [hfile]
      rfl
  case reset => exact fun w baseline => rfl

theorem client_kept : Kept (ClientMetricsWriter.code (F := F) platform config)
    fun _ _ => True := by
  constructor
  case keeping => exact clientWriter_keeping platform config
  case capture => exact fun _ _ _ _ => trivial
  case reset => exact fun _ _ => trivial

end

section
variable {I S T B : Type} {platform : Platform} {code : WriterCode I S T B}

/-- After a run that `Stop` ends the writer is stopped. -/
theorem stopped_of_run (hkeeping : code.Keeping) {w w' : Writer S T B}
    {history : List (WriterLabel I)} {j : StopInput I} {effects : List Effect}
    (hr : code.run platform w (history ++ [.stop j]) = some (w', effects)) : Stopped w' := by
  rw [run_append] at hr
  obtain ⟨p, -, hr⟩ := Option.bind_eq_some_iff.mp hr
  simp only [WriterCode.run, WriterCode.step, Option.bind_some, Option.map_some,
    Option.some.injEq, Prod.mk.injEq] at hr
  exact hr.1 ▸ stop_stopped hkeeping p.1 j

end

/-! ## Starting a stopped writer -/

section
variable {F : Type} [Double F] (platform : Platform) (config : MetricsConfig)
  (manifest : RunManifest)

/-- A new writer that has been told the logic thread. -/
def ServerMetricsWriter.told (threadId : Nat) : ServerWriter F :=
  { ServerMetricsWriter.new manifest with
    sampler := RuntimeSampler.new.setLogicThreadId threadId }

/-- Being told the logic thread has no effect. -/
theorem server_told (threadId : Nat) (future : List (WriterLabel ServerCapture)) :
    ((ServerMetricsWriter.code (F := F) platform config).run platform
      (ServerMetricsWriter.new manifest) (.setLogicThreadId threadId :: future)).map Prod.snd =
    ((ServerMetricsWriter.code platform config).run platform
      (ServerMetricsWriter.told (F := F) manifest threadId) future).map Prod.snd := by
  show (((ServerMetricsWriter.code platform config).run platform
    (ServerMetricsWriter.told (F := F) manifest threadId) future).map _).map _ = _
  rw [Option.map_map]
  exact congrArg (fun f => Option.map f _) (funext fun p => List.nil_append p.2)

/-- A stopped server writer without a baseline runs on as a new one. -/
theorem server_settled {w : ServerWriter F} (hstopped : Stopped w)
    (hnamed : Named (ServerMetricsWriter.code (F := F) platform config) manifest.serverName w)
    (hbaseline : w.baseline = SnapshotRecord.zero) (i : StartInput ServerCapture)
    (future : List (WriterLabel ServerCapture)) :
    (ServerMetricsWriter.code platform config).run platform w (.start i :: future) =
      (ServerMetricsWriter.code platform config).run platform
        (ServerMetricsWriter.told manifest w.sampler.logicThreadId) (.start i :: future) := by
  let code := ServerMetricsWriter.code (F := F) platform config
  have hclear : ∀ manifest', { code.clear w with manifest := manifest' } =
      { code.clear (ServerMetricsWriter.told manifest w.sampler.logicThreadId) with
        manifest := manifest' } := by
    intro manifest'
    show Writer.mk _ _ _ _ _ _ _ w.baseline w.running w.joinable _ = _
    rw [hbaseline, hstopped.running, hstopped.joinable]
    rfl
  exact run_start_eq future (start_eq (serverWriter_keeping platform config) hstopped ⟨rfl, rfl⟩
    hnamed (.inl rfl) hclear i)

/-- A stopped client writer runs on as a new one. -/
theorem client_settled {w : ClientWriter F} (hstopped : Stopped w)
    (hnamed : Named (ClientMetricsWriter.code (F := F) platform config) manifest.serverName w)
    (i : StartInput (ClientCapture F)) (future : List (WriterLabel (ClientCapture F))) :
    (ClientMetricsWriter.code platform config).run platform w (.start i :: future) =
      (ClientMetricsWriter.code platform config).run platform
        (ClientMetricsWriter.new manifest) (.start i :: future) := by
  let code := ClientMetricsWriter.code (F := F) platform config
  have hclear : ∀ manifest', { code.clear w with manifest := manifest' } =
      { code.clear (ClientMetricsWriter.new (F := F) manifest) with manifest := manifest' } := by
    intro manifest'
    show Writer.mk _ _ _ _ _ _ _ _ w.running w.joinable _ = _
    rw [hstopped.running, hstopped.joinable]
    rfl
  exact run_start_eq future (start_eq (clientWriter_keeping platform config) hstopped ⟨rfl, rfl⟩
    hnamed (.inl rfl) hclear i)

end

/-- **A restarted writer beside a new one.** The server's does the same as long as its baseline is
the one it was constructed with, or no snapshot is written from the restart on; the logic thread
that was set is part of the configuration. The client's always does. -/
theorem restart_is_fresh {F : Type} [Double F] (platform : Platform) (config : MetricsConfig)
    (manifest : RunManifest) :
    (∀ (history : List (WriterLabel ServerCapture)) (j : StopInput ServerCapture)
        (w : ServerWriter F) (effects : List Effect),
      (ServerMetricsWriter.code platform config).run platform
        (ServerMetricsWriter.new manifest) (history ++ [.stop j]) = some (w, effects) →
      ∀ (i : StartInput ServerCapture) (future : List (WriterLabel ServerCapture)),
        (w.baseline = SnapshotRecord.zero ∨
          ∀ l ∈ WriterLabel.start i :: future, ∀ c, l.capture? = some c →
            c.file = .openFailed ∨ c.file = .writeFailed) →
        ((ServerMetricsWriter.code platform config).run platform w
            (.start i :: future)).map Prod.snd =
          ((ServerMetricsWriter.code (F := F) platform config).run platform
            (ServerMetricsWriter.new manifest)
            (.setLogicThreadId (logicThread 0 history) :: .start i :: future)).map Prod.snd) ∧
    ∀ (history : List (WriterLabel (ClientCapture F))) (j : StopInput (ClientCapture F))
        (w : ClientWriter F) (effects : List Effect),
      (ClientMetricsWriter.code platform config).run platform
        (ClientMetricsWriter.new manifest) (history ++ [.stop j]) = some (w, effects) →
      ∀ (i : StartInput (ClientCapture F)) (future : List (WriterLabel (ClientCapture F))),
        ((ClientMetricsWriter.code platform config).run platform w
            (.start i :: future)).map Prod.snd =
          ((ClientMetricsWriter.code platform config).run platform
            (ClientMetricsWriter.new manifest) (.start i :: future)).map Prod.snd := by
  constructor
  · intro history j w effects hr i future hcase
    have hstopped : Stopped w := stopped_of_run (serverWriter_keeping platform config) hr
    have hholds : Holds (ServerMetricsWriter.code (F := F) platform config) manifest.serverName
        (fun s _ => s.logicThreadId = logicThread 0 (history ++ [.stop j])) w :=
      holds_run (fun threadId (s : RuntimeSampler) _ => s.logicThreadId = threadId) 0
        (server_kept platform config) (fun set hs _ _ _ _ _ => by cases hs; rfl) ⟨.inl rfl, rfl⟩ hr
    have hthread : w.sampler.logicThreadId = logicThread 0 history := by
      rw [hholds.2]
      simp [logicThread]
    -- without its baseline the stopped writer is a new one
    have hstopped₀ : Stopped (w.withBaseline SnapshotRecord.zero) :=
      ⟨hstopped.running, hstopped.joinable⟩
    have hsettled := server_settled platform config manifest hstopped₀ hholds.1 rfl i future
    have hthread₀ : (w.withBaseline SnapshotRecord.zero).sampler.logicThreadId =
        logicThread 0 history := hthread
    rw [server_told, ← hthread₀, ← hsettled]
    rcases hcase with hbaseline | hunwritten
    · have hsame : w.withBaseline SnapshotRecord.zero = w := by rw [← hbaseline]; rfl
      rw [hsame]
    · rw [run_withBaseline (server_blind platform config) w SnapshotRecord.zero hunwritten,
        Option.map_map]
      rfl
  · intro history j w effects hr i future
    have hstopped : Stopped w := stopped_of_run (clientWriter_keeping platform config) hr
    have hholds : Holds (ClientMetricsWriter.code platform config) manifest.serverName
        (fun _ _ => True) w :=
      holds_run (fun _ _ _ => True) 0 (fun _ => client_kept platform config)
        (fun set hs => by cases hs) ⟨.inl rfl, trivial⟩ hr
    rw [client_settled platform config manifest hstopped hholds.1]

/-! ### A server that is restarted -/

/-- Ten connections have been accepted when the steady clock is at `steadyNow`. -/
def tenAccepted (steadyNow : Int) (file : SnapshotFile) : ServerCapture :=
  let capture := someServerCapture file
  { capture with snapshot := { capture.snapshot with acceptTotal := 10 }, steadyNow }

def someStop (capture : ServerCapture) : StopInput ServerCapture := ⟨0, capture, .written, true⟩

def someServerCode :
    WriterCode ServerCapture (SummaryAccumulator Rat) RuntimeSampler (SnapshotRecord Rat) :=
  ServerMetricsWriter.code somePlatform someConfig

/-- The first run could not open its file. -/
theorem restart_is_fresh_unwritten :
    let w := (someServerCode.stop (someServerCode.start somePlatform
      (ServerMetricsWriter.new someManifest) (someStart (tenAccepted 0 .openFailed))).2.1
      (someStop (tenAccepted 0 .written))).1
    (someServerCode.run somePlatform w [.start (someStart (tenAccepted 2000000000 .written))]).map
        Prod.snd =
      (someServerCode.run somePlatform (ServerMetricsWriter.new someManifest) [.setLogicThreadId 0,
        .start (someStart (tenAccepted 2000000000 .written))]).map Prod.snd :=
  (restart_is_fresh somePlatform someConfig someManifest).1
    [.start (someStart (tenAccepted 0 .openFailed))] (someStop (tenAccepted 0 .written)) _ _ rfl
    (someStart (tenAccepted 2000000000 .written)) [] (.inl rfl)

/-- A new writer reports five connections a second; a restarted one reports none. -/
theorem restarted_rates_differ :
    ∃ w effects, someServerCode.run somePlatform (ServerMetricsWriter.new someManifest)
        [.start (someStart (tenAccepted 0 .written)), .stop (someStop (tenAccepted 0 .written))] =
          some (w, effects) ∧
      (someServerCode.run somePlatform w
        [.start (someStart (tenAccepted 2000000000 .written))]).map Prod.snd ≠
      (someServerCode.run somePlatform (ServerMetricsWriter.new someManifest)
        [.start (someStart (tenAccepted 2000000000 .written))]).map Prod.snd := by
  refine ⟨_, _, rfl, ?_⟩
  decide +kernel

end Highp.Metrics
