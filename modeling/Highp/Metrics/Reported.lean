import Highp.Lib.Transition
import Highp.Metrics.ClientWriter
import Mathlib.Data.List.Nodup
import Mathlib.Data.List.Perm.Basic

/-! Which timing observations come to the report. `TakeSnapshot` removes them from the metrics
before anything is known about the file. -/

namespace Highp.Metrics
open Highp.Lib

/-- An observation of one of the timing windows. -/
structure Timed (K : Type) where
  id : Nat
  timing : K
  nanoseconds : Nat

/-- `DrainWindow` of one of the windows. -/
def drainWindow {K : Type} [DecidableEq K] (timing : K) (pending : List (Timed K)) : TimingWindow :=
  .ofDurations ((pending.filter fun o => o.timing = timing).map Timed.nanoseconds)

inductive ServerTiming
  | queueWait
  | dispatchProcess
  | tickDuration
  | tickLag
  deriving DecidableEq

inductive ClientTiming
  | connectLatency
  | requestRtt
  deriving DecidableEq

/-- The snapshot has the windows of what is pending. -/
def ServerCapture.drain (pending : List (Timed ServerTiming)) (i : ServerCapture) : ServerCapture :=
  { i with snapshot := { i.snapshot with
    queueWait := drainWindow .queueWait pending
    dispatchProcess := drainWindow .dispatchProcess pending
    tickDuration := drainWindow .tickDuration pending
    tickLag := drainWindow .tickLag pending
    drained := pending.map Timed.id } }

def ClientCapture.drain {F : Type} (pending : List (Timed ClientTiming)) (i : ClientCapture F) :
    ClientCapture F :=
  { i with snapshot := { i.snapshot with
    connectLatency := drainWindow .connectLatency pending
    requestRtt := drainWindow .requestRtt pending
    drained := pending.map Timed.id } }

def takenOf (effects : List Effect) : List (List Nat) :=
  effects.filterMap fun
    | .taken drained => some drained
    | _ => none

def linesOf (effects : List Effect) : List (List Nat) :=
  effects.filterMap fun
    | .line _ _ drained => some drained
    | _ => none

def observedOf (effects : List Effect) : List (List Nat) :=
  effects.filterMap fun
    | .observed drained => some drained
    | _ => none

@[simp] theorem takenOf_append (es fs : List Effect) :
    takenOf (es ++ fs) = takenOf es ++ takenOf fs := List.filterMap_append

@[simp] theorem linesOf_append (es fs : List Effect) :
    linesOf (es ++ fs) = linesOf es ++ linesOf fs := List.filterMap_append

@[simp] theorem observedOf_append (es fs : List Effect) :
    observedOf (es ++ fs) = observedOf es ++ observedOf fs := List.filterMap_append

/-- How many records of a list have an observation. -/
def timesIn (o : Nat) (records : List (List Nat)) : Nat := records.countP fun drained => o ∈ drained

/-- A call of `CaptureAndWriteSnapshot`: whether `Start` made it, how it went with the file, and
the observations that it removed. -/
structure Capture where
  byStart : Bool
  file : SnapshotFile
  drained : List Nat

/-- A writer with metrics that have the timing windows `K`. `skips` tells from the baseline, and
from whether the snapshot is the last one, that the snapshot is not written. -/
structure Reporter (I S T B K : Type) where
  code : WriterCode I S T B
  start : Writer S T B
  drain : List (Timed K) → I → I
  file : I → SnapshotFile
  drained : I → List Nat
  skips : B → Bool → Bool
  /-- The snapshot that `Start` takes is skipped. -/
  skipsFirst : Bool

structure Reporting (S T B K : Type) where
  writer : Writer S T B
  pending : List (Timed K)
  next : Nat
  captures : List Capture
  effects : List Effect

inductive ReportLabel (I K : Type)
  | observe (timing : K) (nanoseconds : Nat)
  | writer (l : WriterLabel I)

namespace WriterLabel
variable {I : Type}

/-- What the snapshot meets, if one is taken. -/
def capture? : WriterLabel I → Option I
  | .setLogicThreadId _ => none
  | .start i => some i.capture
  | .turn i => some i
  | .stop i => some i.capture

def mapCapture (f : I → I) : WriterLabel I → WriterLabel I
  | .setLogicThreadId threadId => .setLogicThreadId threadId
  | .start i => .start { i with capture := f i.capture }
  | .turn i => .turn (f i)
  | .stop i => .stop { i with capture := f i.capture }

def isStart : WriterLabel I → Bool
  | .start _ => true
  | _ => false

end WriterLabel

namespace Reporter
variable {I S T B K : Type} (platform : Platform) (r : Reporter I S T B K)

def note (s : Reporting S T B K) (l : WriterLabel I) (w : Writer S T B) (effects : List Effect) :
    Reporting S T B K :=
  let s' := { s with writer := w, effects := s.effects ++ effects }
  match takenOf effects, l.capture? with
  | _ :: _, some i => { s' with
    pending := []
    captures := s.captures ++ [⟨l.isStart, r.file i, s.pending.map Timed.id⟩] }
  | _, _ => s'

def step (s : Reporting S T B K) : ReportLabel I K → Option (Reporting S T B K)
  | .observe timing nanoseconds => some { s with
    pending := s.pending ++ [⟨s.next, timing, nanoseconds⟩]
    next := s.next + 1 }
  | .writer l => (r.code.step platform s.writer (l.mapCapture (r.drain s.pending))).map
    fun p => r.note s l p.1 p.2

def system : System (Reporting S T B K) (ReportLabel I K) where
  start := ⟨r.start, [], 0, [], []⟩
  step := r.step platform

/-- The line of a capture is in the file. -/
def inFile (c : Capture) : Bool := c.file = .written && !(c.byStart && r.skipsFirst)

/-- The summary has observed the record of a capture. -/
def inSummary (c : Capture) : Bool :=
  (c.file = .written || c.file = .closeFailed) && !(c.byStart && r.skipsFirst)

end Reporter

section
variable {F : Type} [Double F] (platform : Platform) (config : MetricsConfig)
  (manifest : RunManifest)

def serverReporter :
    Reporter ServerCapture (SummaryAccumulator F) RuntimeSampler (SnapshotRecord F)
      ServerTiming where
  code := ServerMetricsWriter.code platform config
  start := ServerMetricsWriter.new manifest
  drain := ServerCapture.drain
  file := ServerCapture.file
  drained i := i.snapshot.drained
  skips _ _ := false
  skipsFirst := false

def clientReporter :
    Reporter (ClientCapture F) (SummaryStats F) RuntimeBaseline (PreviousRecord F)
      ClientTiming where
  code := ClientMetricsWriter.code platform config
  start := ClientMetricsWriter.new manifest
  drain := ClientCapture.drain
  file := ClientCapture.file
  drained i := i.snapshot.drained
  skips baseline finalSnapshot := !baseline.hasPreviousRecord && !finalSnapshot
  skipsFirst := true

end

/-! ## What both writers do with a snapshot -/

structure Reporter.Lawful {I S T B K : Type} (r : Reporter I S T B K) : Prop where
  keeping : r.code.Keeping
  taken : ∀ w final i, takenOf (r.code.capture w final i).2.2 = [r.drained i]
  lines : ∀ w final i, linesOf (r.code.capture w final i).2.2 =
    if r.file i = .written ∧ r.skips w.baseline final = false then [r.drained i] else []
  observed : ∀ w final i, observedOf (r.code.capture w final i).2.2 =
    if (r.file i = .written ∨ r.file i = .closeFailed) ∧ r.skips w.baseline final = false then
      [r.drained i]
    else []
  /-- A capture that succeeds leaves a baseline. -/
  settled : ∀ w final i, (r.code.capture w final i).1 = true →
    r.skips (r.code.capture w final i).2.1.baseline false = false
  first : ∀ w, r.skips (r.code.clear w).baseline false = r.skipsFirst
  last : ∀ baseline, r.skips baseline true = false
  drained_drain : ∀ pending i, r.drained (r.drain pending i) = pending.map Timed.id
  file_drain : ∀ pending i, r.file (r.drain pending i) = r.file i
  start : r.start.running = false

theorem serverWriter_keeping {F : Type} [Double F] (platform : Platform) (config : MetricsConfig) :
    (ServerMetricsWriter.code (F := F) platform config).Keeping := by
  constructor
  case capture =>
    intro w final i
    show w.Keeps (ServerMetricsWriter.captureAndWriteSnapshot platform w i).2.1
    unfold ServerMetricsWriter.captureAndWriteSnapshot
    cases i.file <;> exact ⟨rfl, rfl, rfl, rfl⟩
  case reset => exact fun w => ⟨rfl, rfl, rfl, rfl⟩

theorem serverReporter_lawful {F : Type} [Double F] (platform : Platform) (config : MetricsConfig)
    (manifest : RunManifest) : (serverReporter (F := F) platform config manifest).Lawful := by
  constructor
  case keeping => exact serverWriter_keeping platform config
  case taken =>
    intro w final i
    show takenOf (ServerMetricsWriter.captureAndWriteSnapshot platform w i).2.2 = _
    unfold ServerMetricsWriter.captureAndWriteSnapshot
    cases hfile : i.file <;> rfl
  case lines =>
    intro w final i
    show linesOf (ServerMetricsWriter.captureAndWriteSnapshot platform w i).2.2 =
      if i.file = .written ∧ false = false then _ else _
    unfold ServerMetricsWriter.captureAndWriteSnapshot
    cases hfile : i.file <;> rfl
  case observed =>
    intro w final i
    show observedOf (ServerMetricsWriter.captureAndWriteSnapshot platform w i).2.2 =
      if (i.file = .written ∨ i.file = .closeFailed) ∧ false = false then _ else _
    unfold ServerMetricsWriter.captureAndWriteSnapshot
    cases hfile : i.file <;> rfl
  case settled => exact fun _ _ _ _ => rfl
  case first => exact fun _ => rfl
  case last => exact fun _ => rfl
  case drained_drain => exact fun _ _ => rfl
  case file_drain => exact fun _ _ => rfl
  case start => rfl

section
variable {F : Type} [Double F] {platform : Platform} {w : ClientWriter F} {record : ClientRecord F}
  {file : SnapshotFile}

theorem writeSnapshot_keeps :
    w.Keeps (ClientMetricsWriter.writeSnapshot platform w record file).2.1 := by
  unfold ClientMetricsWriter.writeSnapshot
  cases file <;> exact ⟨rfl, rfl, rfl, rfl⟩

theorem taken_writeSnapshot :
    takenOf (ClientMetricsWriter.writeSnapshot platform w record file).2.2 = [] := by
  unfold ClientMetricsWriter.writeSnapshot
  cases file <;> rfl

theorem lines_writeSnapshot :
    linesOf (ClientMetricsWriter.writeSnapshot platform w record file).2.2 =
      if file = .written then [record.drained] else [] := by
  unfold ClientMetricsWriter.writeSnapshot
  cases file <;> rfl

theorem observed_writeSnapshot :
    observedOf (ClientMetricsWriter.writeSnapshot platform w record file).2.2 =
      if file = .written ∨ file = .closeFailed then [record.drained] else [] := by
  unfold ClientMetricsWriter.writeSnapshot
  cases file <;> rfl

theorem writeSnapshot_settled
    (h : (ClientMetricsWriter.writeSnapshot platform w record file).1 = true) :
    (ClientMetricsWriter.writeSnapshot
      platform w record file).2.1.baseline.hasPreviousRecord = true := by
  unfold ClientMetricsWriter.writeSnapshot at h ⊢
  cases file with
  | openFailed => cases h
  | writeFailed => cases h
  | closeFailed => rfl
  | written => rfl

/-- The first snapshot is a baseline, unless it is the last one; every other one is written, and
the fields that are not about records are those of `w`. -/
theorem client_capture_cases (platform : Platform) (w : ClientWriter F) (finalSnapshot : Bool)
    (i : ClientCapture F) :
    ∃ w' record, w.Keeps w' ∧
      (∃ processCpuPercent threadCount,
        record = .of i.snapshot processCpuPercent threadCount) ∧
      if (!w.baseline.hasPreviousRecord && !finalSnapshot) = true then
        ClientMetricsWriter.captureAndWriteSnapshot platform w finalSnapshot i =
          (true, { w' with baseline := ⟨record, true⟩ }, [.taken i.snapshot.drained])
      else
        ClientMetricsWriter.captureAndWriteSnapshot platform w finalSnapshot i =
          ((ClientMetricsWriter.writeSnapshot platform w' record i.file).1,
            (ClientMetricsWriter.writeSnapshot platform w' record i.file).2.1,
            [.taken i.snapshot.drained] ++
              (ClientMetricsWriter.writeSnapshot platform w' record i.file).2.2) := by
  let sample : F × Nat × RuntimeBaseline := w.sampler.sampleRuntime i.reading
  let record := ClientRecord.of i.snapshot sample.1 sample.2.1
  let w₁ : ClientWriter F := { w with sampler := sample.2.2 }
  by_cases hskip : (!w.baseline.hasPreviousRecord && !finalSnapshot) = true
  · refine ⟨w₁, record, ⟨rfl, rfl, rfl, rfl⟩, ⟨_, _, rfl⟩, ?_⟩
    rw [if_pos hskip]
    exact if_pos hskip
  · let w₂ := if w₁.baseline.hasPreviousRecord then w₁ else { w₁ with baseline := ⟨record, true⟩ }
    have hkeeps : w.Keeps w₂ := by
      show w.Keeps (if w₁.baseline.hasPreviousRecord then w₁ else _)
      split
      · exact ⟨rfl, rfl, rfl, rfl⟩
      · exact ⟨rfl, rfl, rfl, rfl⟩
    refine ⟨w₂, record, hkeeps, ⟨_, _, rfl⟩, ?_⟩
    rw [if_neg hskip]
    exact if_neg hskip

end

theorem clientWriter_keeping {F : Type} [Double F] (platform : Platform) (config : MetricsConfig) :
    (ClientMetricsWriter.code (F := F) platform config).Keeping := by
  constructor
  case capture =>
    intro w final i
    obtain ⟨w', record, hkeeps, -, hcapture⟩ := client_capture_cases platform w final i
    show w.Keeps (ClientMetricsWriter.captureAndWriteSnapshot platform w final i).2.1
    split at hcapture
    · rw [hcapture]
      exact ⟨hkeeps.manifest, hkeeps.snapshotPath, hkeeps.running, hkeeps.joinable⟩
    · rw [hcapture]
      have hwrite : w'.Keeps (ClientMetricsWriter.writeSnapshot platform w' record i.file).2.1 :=
        writeSnapshot_keeps
      exact ⟨hwrite.manifest.trans hkeeps.manifest,
        hwrite.snapshotPath.trans hkeeps.snapshotPath, hwrite.running.trans hkeeps.running,
        hwrite.joinable.trans hkeeps.joinable⟩
  case reset => exact fun w => ⟨rfl, rfl, rfl, rfl⟩

theorem clientReporter_lawful {F : Type} [Double F] (platform : Platform) (config : MetricsConfig)
    (manifest : RunManifest) : (clientReporter (F := F) platform config manifest).Lawful := by
  constructor
  case keeping => exact clientWriter_keeping platform config
  case taken =>
    intro w final i
    obtain ⟨w', record, -, -, hcapture⟩ := client_capture_cases platform w final i
    show takenOf (ClientMetricsWriter.captureAndWriteSnapshot platform w final i).2.2 = _
    split at hcapture
    · rw [hcapture]
      rfl
    · rw [hcapture, takenOf_append, taken_writeSnapshot]
      rfl
  case lines =>
    intro w final i
    obtain ⟨w', record, -, ⟨processCpuPercent, threadCount, rfl⟩, hcapture⟩ :=
      client_capture_cases platform w final i
    show linesOf (ClientMetricsWriter.captureAndWriteSnapshot platform w final i).2.2 =
      if i.file = .written ∧ (!w.baseline.hasPreviousRecord && !final) = false then
        [i.snapshot.drained] else []
    split at hcapture
    · rename_i hskip
      rw [hcapture, if_neg (by simp [hskip])]
      rfl
    · rename_i hskip
      rw [hcapture, linesOf_append, lines_writeSnapshot]
      simp [hskip, linesOf, ClientRecord.of]
  case observed =>
    intro w final i
    obtain ⟨w', record, -, ⟨processCpuPercent, threadCount, rfl⟩, hcapture⟩ :=
      client_capture_cases platform w final i
    show observedOf (ClientMetricsWriter.captureAndWriteSnapshot platform w final i).2.2 =
      if (i.file = .written ∨ i.file = .closeFailed) ∧
        (!w.baseline.hasPreviousRecord && !final) = false then [i.snapshot.drained] else []
    split at hcapture
    · rename_i hskip
      rw [hcapture, if_neg (by simp [hskip])]
      rfl
    · rename_i hskip
      rw [hcapture, observedOf_append, observed_writeSnapshot]
      simp [hskip, observedOf, ClientRecord.of]
  case settled =>
    intro w final i hok
    obtain ⟨w', record, -, -, hcapture⟩ := client_capture_cases platform w final i
    replace hok : (ClientMetricsWriter.captureAndWriteSnapshot platform w final i).1 = true := hok
    show (!(ClientMetricsWriter.captureAndWriteSnapshot
      platform w final i).2.1.baseline.hasPreviousRecord && !false) = false
    split at hcapture
    · rw [hcapture]
      rfl
    · rw [hcapture] at hok ⊢
      simp only [writeSnapshot_settled hok]
      rfl
  case first => exact fun _ => rfl
  case last => exact fun baseline => by simp [clientReporter]
  case drained_drain => exact fun _ _ => rfl
  case file_drain => exact fun _ _ => rfl
  case start => rfl

/-! ## One step -/

section
variable {I S T B K : Type} {platform : Platform} {r : Reporter I S T B K}

/-- No effect is about an observation. -/
structure Silent (effects : List Effect) : Prop where
  taken : takenOf effects = []
  lines : linesOf effects = []
  observed : observedOf effects = []

theorem silent_nil : Silent [] := ⟨rfl, rfl, rfl⟩

theorem capture_keeps (h : r.Lawful) {w w' : Writer S T B} {final ok : Bool} {i : I}
    {effects : List Effect} (hc : r.code.capture w final i = (ok, w', effects)) :
    w.Keeps w' := by
  have hkeeps := h.keeping.capture w final i
  rwa [hc] at hkeeps

theorem capture_settled (h : r.Lawful) {w w' : Writer S T B} {final : Bool} {i : I}
    {effects : List Effect} (hc : r.code.capture w final i = (true, w', effects)) :
    r.skips w'.baseline false = false := by
  have hsettled := h.settled w final i (congrArg Prod.fst hc)
  rwa [hc] at hsettled

theorem initializeArtifacts_same {w w' : Writer S T B} {ok : Bool} {error : Option Text}
    (hi : r.code.initializeArtifacts w error = (ok, w')) :
    w'.baseline = w.baseline ∧ w'.running = w.running := by
  unfold WriterCode.initializeArtifacts at hi
  cases error with
  | some message =>
    cases hi
    exact ⟨rfl, rfl⟩
  | none =>
    cases hi
    exact ⟨rfl, rfl⟩

theorem writeManifest_same {w w' : Writer S T B} {ok : Bool} {file : ManifestFile}
    (hm : WriterCode.writeManifest w file = (ok, w')) :
    w'.baseline = w.baseline ∧ w'.running = w.running ∧ w'.snapshotPath = w.snapshotPath := by
  cases file <;> cases hm <;> exact ⟨rfl, rfl, rfl⟩

theorem begin_cases (h : r.Lawful) {w : Writer S T B} (hw : w.running = false)
    (i : StartInput I) :
    ((r.code.begin w i).2.2 = [] ∧ (r.code.begin w i).2.1.running = false) ∨
    ∃ w₁ : Writer S T B, w₁.baseline = w.baseline ∧
      (r.code.begin w i).2.2 = (r.code.capture w₁ false i.capture).2.2 ∧
      (r.code.begin w i).2.1.snapshotPath = w₁.snapshotPath ∧
      ((r.code.begin w i).2.1.running = true →
        r.skips (r.code.begin w i).2.1.baseline false = false) := by
  unfold WriterCode.begin
  split
  · rename_i w₁ hi
    exact .inl ⟨rfl, (initializeArtifacts_same hi).2.trans hw⟩
  · rename_i w₁ hi
    obtain ⟨hbaseline₁, hrunning₁⟩ := initializeArtifacts_same hi
    split
    · rename_i w₂ hm
      exact .inl ⟨rfl, (writeManifest_same hm).2.1.trans (hrunning₁.trans hw)⟩
    · rename_i w₂ hm
      obtain ⟨hbaseline₂, hrunning₂, -⟩ := writeManifest_same hm
      refine .inr ⟨w₂, hbaseline₂.trans hbaseline₁, ?_⟩
      split
      · rename_i w₃ effects hc
        refine ⟨by rw [hc], (capture_keeps h hc).snapshotPath, fun hr => ?_⟩
        have hstopped :=
          (capture_keeps h hc).running.trans (hrunning₂.trans (hrunning₁.trans hw))
        exact absurd (hstopped.symm.trans hr) (by decide)
      · rename_i w₃ effects hc
        have hsettled := capture_settled h hc
        have hpath := (capture_keeps h hc).snapshotPath
        rw [hc]
        cases i.thread with
        | started => exact ⟨rfl, hpath, fun _ => hsettled⟩
        | exception what => exact ⟨rfl, hpath, fun _ => hsettled⟩
        | unknown => exact ⟨rfl, hpath, fun _ => hsettled⟩

theorem start_cases (platform : Platform) (h : r.Lawful) (w : Writer S T B) (i : StartInput I) :
    ((r.code.start platform w i).2.2 = [] ∧
      ((r.code.start platform w i).2.1.running = true →
        w.running = true ∧ (r.code.start platform w i).2.1.baseline = w.baseline)) ∨
    ∃ w₁ : Writer S T B, r.skips w₁.baseline false = r.skipsFirst ∧
      (r.code.start platform w i).2.2 = (r.code.capture w₁ false i.capture).2.2 ∧
      (r.code.start platform w i).2.1.snapshotPath = w₁.snapshotPath ∧
      ((r.code.start platform w i).2.1.running = true →
        r.skips (r.code.start platform w i).2.1.baseline false = false) := by
  unfold WriterCode.start
  split
  · rename_i hrunning
    exact .inl ⟨rfl, fun _ => ⟨hrunning, rfl⟩⟩
  · rename_i hrunning
    have hclear : (r.code.clear w).running = false :=
      (h.keeping.reset _).running.trans (Bool.not_eq_true _ ▸ hrunning)
    split
    · exact .inl ⟨rfl, fun hr => absurd (hclear.symm.trans hr) (by decide)⟩
    · rcases begin_cases h (w := r.code.prepare platform (r.code.clear w) i) hclear i with
        ⟨he, hr⟩ | ⟨w₁, hbaseline, he, hpath, hr⟩
      · exact .inl ⟨he, fun h' => absurd (hr.symm.trans h') (by decide)⟩
      · have hfirst : r.skips w₁.baseline false = r.skipsFirst := hbaseline ▸ h.first w
        exact .inr ⟨w₁, hfirst, he, hpath, hr⟩

theorem turn_cases (h : r.Lawful) {w : Writer S T B} {i : I} {p : Writer S T B × List Effect}
    (ht : r.code.turn w i = some p) : w.running = true ∧
      p.2 = (r.code.capture w false i).2.2 ∧ p.1.snapshotPath = w.snapshotPath ∧
      (p.1.running = true → r.skips p.1.baseline false = false) := by
  unfold WriterCode.turn at ht
  split at ht
  · rename_i hrunning
    split at ht
    · rename_i w₂ effects hc
      cases ht
      exact ⟨hrunning, (congrArg (fun p => p.2.2) hc).symm, (capture_keeps h hc).snapshotPath,
        fun _ => capture_settled h hc⟩
    · rename_i w₂ effects hc
      cases ht
      exact ⟨hrunning, (congrArg (fun p => p.2.2) hc).symm, (capture_keeps h hc).snapshotPath,
        fun hr => by cases hr⟩
  · cases ht

theorem finish_cases (h : r.Lawful) {w : Writer S T B} (hw : w.running = false)
    (i : StopInput I) : (r.code.finish w i).1.running = false ∧
      (r.code.finish w i).1.snapshotPath = w.snapshotPath ∧
      ∃ effects : List Effect, Silent effects ∧
        (r.code.finish w i).2 = (r.code.capture w true i.capture).2.2 ++ effects := by
  have hrunning : (WriterCode.writeManifest (r.code.capture w true i.capture).2.1
      i.manifest).2.running = false :=
    (writeManifest_same rfl).2.1.trans ((h.keeping.capture w true i.capture).running.trans hw)
  have hpath : (WriterCode.writeManifest (r.code.capture w true i.capture).2.1
      i.manifest).2.snapshotPath = w.snapshotPath :=
    (writeManifest_same rfl).2.2.trans (h.keeping.capture w true i.capture).snapshotPath
  unfold WriterCode.finish
  simp only
  split
  · exact ⟨hrunning, hpath, _, ⟨rfl, rfl, rfl⟩, rfl⟩
  · exact ⟨hrunning, hpath, [], silent_nil, (List.append_nil _).symm⟩

theorem stop_cases (h : r.Lawful) (w : Writer S T B) (i : StopInput I) :
    (r.code.stop w i).1.running = false ∧
      ((r.code.stop w i).2 = [] ∨ ∃ (w₁ : Writer S T B) (effects : List Effect), Silent effects ∧
        (r.code.stop w i).2 = (r.code.capture w₁ true i.capture).2.2 ++ effects ∧
          (r.code.stop w i).1.snapshotPath = w₁.snapshotPath) := by
  unfold WriterCode.stop
  split
  · rename_i hidle
    simp only [Bool.and_eq_true, Bool.not_eq_true'] at hidle
    exact ⟨hidle.1, .inl rfl⟩
  · simp only
    split
    · obtain ⟨hrunning, hpath, effects, hsilent, he⟩ := finish_cases h (w := { w with
        running := false
        joinable := false
        manifest := { w.manifest with
          finishedAt := some (w.manifest.finishedAt.getD i.finishedAt) } }) rfl i
      exact ⟨hrunning, .inr ⟨_, effects, hsilent, he, hpath⟩⟩
    · exact ⟨rfl, .inl rfl⟩

/-- The effects of a snapshot that has removed the observations `ids`, of the writer `w`. -/
structure Captured (r : Reporter I S T B K) (c : Capture) (effects : List Effect) : Prop where
  taken : takenOf effects = [c.drained]
  lines : linesOf effects = if r.inFile c then [c.drained] else []
  observed : observedOf effects = if r.inSummary c then [c.drained] else []

theorem captured_of (h : r.Lawful) {w : Writer S T B} {final : Bool} (byStart : Bool) (i : I)
    (pending : List (Timed K)) {effects : List Effect} (hsilent : Silent effects)
    (hskips : r.skips w.baseline final = (byStart && r.skipsFirst)) :
    Captured r ⟨byStart, r.file i, pending.map Timed.id⟩
      ((r.code.capture w final (r.drain pending i)).2.2 ++ effects) := by
  have hdrained := h.drained_drain pending i
  have hfile := h.file_drain pending i
  constructor
  · rw [takenOf_append, h.taken, hsilent.taken, hdrained, List.append_nil]
  · rw [linesOf_append, h.lines, hsilent.lines, hdrained, hfile, hskips, List.append_nil]
    cases byStart <;> simp [Reporter.inFile]
  · rw [observedOf_append, h.observed, hsilent.observed, hdrained, hfile, hskips, List.append_nil]
    cases byStart <;> simp [Reporter.inSummary]

/-- What a step of the writer does: no snapshot is taken, or one is. -/
theorem writer_step_cases (h : r.Lawful) {w w' : Writer S T B} {l : WriterLabel I}
    {pending : List (Timed K)} {effects : List Effect}
    (hsettled : w.running = true → r.skips w.baseline false = false)
    (hs : r.code.step platform w (l.mapCapture (r.drain pending)) = some (w', effects)) :
    (w'.running = true → r.skips w'.baseline false = false) ∧
      (Silent effects ∨ ∃ i, l.capture? = some i ∧
        Captured r ⟨l.isStart, r.file i, pending.map Timed.id⟩ effects) := by
  cases l with
  | setLogicThreadId threadId =>
    obtain ⟨set, -, heq⟩ := Option.map_eq_some_iff.mp hs
    cases heq
    exact ⟨hsettled, .inl silent_nil⟩
  | start i =>
    have heq := Option.some.inj hs
    rcases start_cases platform h w
      { i with capture := r.drain pending i.capture } with ⟨he, hr⟩ | ⟨w₁, hfirst, he, -, hr⟩
    · rw [heq] at he hr
      simp only at he hr
      subst he
      refine ⟨fun hrunning => ?_, .inl silent_nil⟩
      obtain ⟨hold, hbaseline⟩ := hr hrunning
      rw [hbaseline]
      exact hsettled hold
    · rw [heq] at he hr
      refine ⟨hr, .inr ⟨i.capture, rfl, ?_⟩⟩
      have hcaptured := captured_of h true i.capture pending silent_nil
        (hfirst.trans (Bool.true_and _).symm)
      rw [List.append_nil] at hcaptured
      exact (show effects = _ from he) ▸ hcaptured
  | turn i =>
    obtain ⟨hrunning, he, -, hr⟩ := turn_cases h hs
    refine ⟨hr, .inr ⟨i, rfl, ?_⟩⟩
    have hcaptured := captured_of h false i pending silent_nil (hsettled hrunning)
    rw [List.append_nil] at hcaptured
    exact (show effects = _ from he) ▸ hcaptured
  | stop i =>
    have heq := Option.some.inj hs
    obtain ⟨hr, hcase⟩ := stop_cases h w { i with capture := r.drain pending i.capture }
    rw [heq] at hr hcase
    refine ⟨fun hrunning => absurd (hr.symm.trans hrunning) (by decide), ?_⟩
    rcases hcase with he | ⟨w₁, rest, hsilent, he, -⟩
    · simp only at he
      exact .inl (he ▸ silent_nil)
    · refine .inr ⟨i.capture, rfl, ?_⟩
      have hcaptured := captured_of h false i.capture pending hsilent
        (h.last w₁.baseline)
      exact (show effects = _ from he) ▸ hcaptured

/-! ## Whole runs -/

structure ReportInv (r : Reporter I S T B K) (s : Reporting S T B K) : Prop where
  settled : s.writer.running = true → r.skips s.writer.baseline false = false
  taken : takenOf s.effects = s.captures.map Capture.drained
  lines : linesOf s.effects = (s.captures.filter r.inFile).map Capture.drained
  observed : observedOf s.effects = (s.captures.filter r.inSummary).map Capture.drained
  /-- Every observation is pending or has been removed by one capture. -/
  ids : (s.captures.flatMap Capture.drained ++ s.pending.map Timed.id).Perm (List.range s.next)

theorem reportInv_note (h : r.Lawful) {s : Reporting S T B K} (hinv : ReportInv r s)
    {l : WriterLabel I} {w : Writer S T B} {effects : List Effect}
    (hs : r.code.step platform s.writer (l.mapCapture (r.drain s.pending)) = some (w, effects)) :
    ReportInv r (r.note s l w effects) := by
  obtain ⟨hsettled, htaken, hlines, hobserved, hids⟩ := hinv
  obtain ⟨hsettled', hcase⟩ := writer_step_cases h hsettled hs
  rcases hcase with hsilent | ⟨i, hi, hcaptured⟩
  · have hnote : r.note s l w effects =
        { s with writer := w, effects := s.effects ++ effects } := by
      unfold Reporter.note
      rw [hsilent.taken]
    rw [hnote]
    exact ⟨hsettled', by simp [hsilent.taken, htaken], by simp [hsilent.lines, hlines],
      by simp [hsilent.observed, hobserved], hids⟩
  · have hnote : r.note s l w effects = { s with
        writer := w
        effects := s.effects ++ effects
        pending := []
        captures := s.captures ++ [⟨l.isStart, r.file i, s.pending.map Timed.id⟩] } := by
      unfold Reporter.note
      rw [hcaptured.taken, hi]
    rw [hnote]
    refine ⟨hsettled', ?_, ?_, ?_, ?_⟩
    · simp [hcaptured.taken, htaken]
    · simp only [linesOf_append, hcaptured.lines, hlines, List.filter_append, List.map_append]
      split <;> simp_all
    · simp only [observedOf_append, hcaptured.observed, hobserved, List.filter_append,
        List.map_append]
      split <;> simp_all
    · simpa using hids

theorem reportInv (h : r.Lawful) {s : Reporting S T B K}
    (hr : (r.system platform).Reach System.always s) : ReportInv r s := by
  refine hr.invariant ?_ fun {s t l} _ hinv _ hs => ?_
  · exact ⟨fun hrunning => absurd (h.start.symm.trans hrunning) (by decide), rfl, rfl, rfl, .refl _⟩
  · cases l with
    | observe timing nanoseconds =>
      cases hs
      obtain ⟨hsettled, htaken, hlines, hobserved, hids⟩ := hinv
      refine ⟨hsettled, htaken, hlines, hobserved, ?_⟩
      rw [List.range_succ]
      simpa [← List.append_assoc] using hids.append_right [s.next]
    | writer l =>
      obtain ⟨⟨w, effects⟩, hw, rfl⟩ := Option.map_eq_some_iff.mp hs
      exact reportInv_note h hinv hw

/-- An observation of one of some disjoint captures is among the records of the captures that pass
a test once if its capture does, and never otherwise. -/
theorem timesIn_filter {captures : List Capture} {c : Capture} {o : Nat} (p : Capture → Bool)
    (hnodup : (captures.flatMap Capture.drained).Nodup) (hc : c ∈ captures) (ho : o ∈ c.drained) :
    timesIn o ((captures.filter p).map Capture.drained) = (p c).toNat := by
  induction captures with
  | nil => cases hc
  | cons first rest ih =>
    rw [List.flatMap_cons, List.nodup_append] at hnodup
    obtain ⟨-, hrest, hdisjoint⟩ := hnodup
    have hsplit : timesIn o (((first :: rest).filter p).map Capture.drained) =
        (p first && decide (o ∈ first.drained)).toNat +
          timesIn o ((rest.filter p).map Capture.drained) := by
      rw [List.filter_cons]
      cases hp : p first with
      | true =>
        by_cases hfirst : o ∈ first.drained
        · simp [timesIn, hfirst, Nat.add_comm]
        · simp [timesIn, hfirst]
      | false => simp
    rw [hsplit]
    rcases List.mem_cons.mp hc with rfl | hc
    · have hnone : timesIn o ((rest.filter p).map Capture.drained) = 0 := by
        refine List.countP_eq_zero.mpr fun drained hd => ?_
        obtain ⟨c', hc', rfl⟩ := List.mem_map.mp hd
        have hmem : o ∈ c'.drained → o ∈ rest.flatMap Capture.drained := fun hin =>
          List.mem_flatMap.mpr ⟨c', (List.mem_filter.mp hc').1, hin⟩
        simpa using fun hin => hdisjoint o ho o (hmem hin) rfl
      simp [hnone, ho]
    · have hnot : o ∉ first.drained := fun hin =>
        hdisjoint o hin o (List.mem_flatMap.mpr ⟨c, hc, ho⟩) rfl
      simp [hnot, ih hrest hc]

/-- No observation is removed by two captures. -/
theorem capture_unique {captures : List Capture} {c c' : Capture} {o m n : Nat}
    (hnodup : (captures.flatMap Capture.drained).Nodup) (hc : captures[n]? = some c)
    (hc' : captures[m]? = some c') (ho : o ∈ c.drained) (ho' : o ∈ c'.drained) : m = n := by
  have hpair := (List.nodup_flatMap.mp hnodup).2
  obtain ⟨hn, rfl⟩ := List.getElem?_eq_some_iff.mp hc
  obtain ⟨hm, rfl⟩ := List.getElem?_eq_some_iff.mp hc'
  rw [List.pairwise_iff_getElem] at hpair
  rcases Nat.lt_trichotomy m n with hlt | rfl | hgt
  · exact absurd ho (hpair m n hm hn hlt ho')
  · rfl
  · exact absurd ho' (hpair n m hn hm hgt ho)

/-- The captures of a state have removed what `TakeSnapshot` has. -/
theorem captures_of_reach (h : r.Lawful) {s : Reporting S T B K}
    (hr : (r.system platform).Reach System.always s) :
    takenOf s.effects = s.captures.map Capture.drained ∧
      ∀ (n : Nat) (c : Capture) (o : Nat), s.captures[n]? = some c → o ∈ c.drained →
        (∀ (m : Nat) (c' : Capture), s.captures[m]? = some c' → o ∈ c'.drained → m = n) ∧
          timesIn o (linesOf s.effects) = (r.inFile c).toNat ∧
          timesIn o (observedOf s.effects) = (r.inSummary c).toNat := by
  obtain ⟨-, htaken, hlines, hobserved, hids⟩ := reportInv h hr
  have hnodup : (s.captures.flatMap Capture.drained).Nodup :=
    (List.nodup_append.mp (hids.nodup_iff.mpr List.nodup_range)).1
  refine ⟨htaken, fun n c o hc ho => ⟨fun m c' hc' ho' => ?_, ?_, ?_⟩⟩
  · exact capture_unique hnodup hc hc' ho ho'
  · rw [hlines]
    exact timesIn_filter r.inFile hnodup (List.mem_of_getElem? hc) ho
  · rw [hobserved]
    exact timesIn_filter r.inSummary hnodup (List.mem_of_getElem? hc) ho

end

/-- **What becomes of an observation that `TakeSnapshot` removes.** One capture removes it. It is
in one record that is written and observed when that capture writes its line, unless it is the
client's first since `Start`; otherwise its record is not in the file. -/
theorem drained_in_report {F : Type} [Double F] (platform : Platform) (config : MetricsConfig)
    (manifest : RunManifest) :
    (∀ s, ((serverReporter (F := F) platform config manifest).system platform).Reach
        System.always s →
      takenOf s.effects = s.captures.map Capture.drained ∧
      ∀ (n : Nat) (c : Capture) (o : Nat), s.captures[n]? = some c → o ∈ c.drained →
        (∀ (m : Nat) (c' : Capture), s.captures[m]? = some c' → o ∈ c'.drained → m = n) ∧
          timesIn o (linesOf s.effects) = (if c.file = .written then 1 else 0) ∧
          timesIn o (observedOf s.effects) =
            if c.file = .written ∨ c.file = .closeFailed then 1 else 0) ∧
    ∀ s, ((clientReporter (F := F) platform config manifest).system platform).Reach
        System.always s →
      takenOf s.effects = s.captures.map Capture.drained ∧
      ∀ (n : Nat) (c : Capture) (o : Nat), s.captures[n]? = some c → o ∈ c.drained →
        (∀ (m : Nat) (c' : Capture), s.captures[m]? = some c' → o ∈ c'.drained → m = n) ∧
          timesIn o (linesOf s.effects) =
            (if c.file = .written ∧ c.byStart = false then 1 else 0) ∧
          timesIn o (observedOf s.effects) =
            if (c.file = .written ∨ c.file = .closeFailed) ∧ c.byStart = false then 1 else 0 := by
  constructor
  · intro s hr
    obtain ⟨htaken, hall⟩ := captures_of_reach (serverReporter_lawful platform config manifest) hr
    refine ⟨htaken, fun n c o hc ho => ?_⟩
    obtain ⟨hunique, hlines, hobserved⟩ := hall n c o hc ho
    refine ⟨hunique, hlines.trans ?_, hobserved.trans ?_⟩
    · obtain ⟨byStart, file, drained⟩ := c
      cases file <;> simp [Reporter.inFile, serverReporter]
    · obtain ⟨byStart, file, drained⟩ := c
      cases file <;> simp [Reporter.inSummary, serverReporter]
  · intro s hr
    obtain ⟨htaken, hall⟩ := captures_of_reach (clientReporter_lawful platform config manifest) hr
    refine ⟨htaken, fun n c o hc ho => ?_⟩
    obtain ⟨hunique, hlines, hobserved⟩ := hall n c o hc ho
    refine ⟨hunique, hlines.trans ?_, hobserved.trans ?_⟩
    · obtain ⟨byStart, file, drained⟩ := c
      cases file <;> cases byStart <;> simp [Reporter.inFile, clientReporter]
    · obtain ⟨byStart, file, drained⟩ := c
      cases file <;> cases byStart <;> simp [Reporter.inSummary, clientReporter]

/-! ### A run of each writer -/

/-- It has a clock that stands still. -/
def somePlatform : Platform := ⟨fun _ _ => "1970-01-01T00:00:00".toList, 7⟩

def someConfig : MetricsConfig := ⟨true, "out".toList, "run".toList⟩

def someManifest : RunManifest := ⟨[], [], [], none, none⟩

def someServerCapture (file : SnapshotFile) : ServerCapture :=
  ⟨⟨0, 0, 0, 0, 0, 0, 0, 0, 0, 0, 0, 0, 0, 0, 0, 0, ⟨0, 0, 0⟩, ⟨0, 0, 0⟩, ⟨0, 0, 0⟩, ⟨0, 0, 0⟩, []⟩,
    0, ⟨0, none, fun _ => none, 1, 1⟩, file⟩

def someClientCapture (file : SnapshotFile) : ClientCapture Rat :=
  ⟨⟨0, 0, 0, 0, 0, 0, 0, 0, 0, 0, 0, 0, 0, 0, 0, 0, 0, 0, ⟨0, 0, 0⟩, ⟨0, 0, 0⟩, Rat.ofInt 0, 0, 0,
    0, 0, .none, []⟩, ⟨0, none, fun _ => none, 1, 1⟩, file⟩

def someStart {I : Type} (capture : I) : StartInput I :=
  ⟨0, 0, 0, none, .written, capture, .started⟩

/-- The tick that was measured comes into the line of the next turn. -/
theorem drained_in_report_turn : ∃ s,
    ((serverReporter (F := Rat) somePlatform someConfig someManifest).system somePlatform).Reach
      System.always s ∧
    timesIn 0 (linesOf s.effects) = 1 ∧ timesIn 0 (observedOf s.effects) = 1 := by
  obtain ⟨s, hr, hs⟩ := System.reach_of_exec
    ((serverReporter (F := Rat) somePlatform someConfig someManifest).system somePlatform)
    System.always [.writer (.start (someStart (someServerCapture .written))),
      .observe .tickDuration 5, .writer (.turn (someServerCapture .written))]
    (fun s => (s.captures[1]?).any fun (c : Capture) =>
      decide (0 ∈ c.drained ∧ c.file = SnapshotFile.written)) (by decide)
  obtain ⟨c, hc, hp⟩ := (Option.any_eq_true ..).mp hs
  obtain ⟨hin, hfile⟩ := of_decide_eq_true hp
  obtain ⟨-, hlines, hobserved⟩ :=
    ((drained_in_report somePlatform someConfig someManifest).1 s hr).2 1 c 0 hc hin
  exact ⟨s, hr, by rw [hlines, if_pos hfile], by rw [hobserved, if_pos (.inl hfile)]⟩

/-- A tick that is drained when the file cannot be opened, and a connect latency that the client's
first snapshot drains, are in no record. -/
theorem drained_and_lost :
    (∃ s, ((serverReporter (F := Rat) somePlatform someConfig someManifest).system
        somePlatform).Reach System.always s ∧
      [0] ∈ takenOf s.effects ∧ timesIn 0 (linesOf s.effects) = 0 ∧
        timesIn 0 (observedOf s.effects) = 0) ∧
    ∃ s, ((clientReporter (F := Rat) somePlatform someConfig someManifest).system
        somePlatform).Reach System.always s ∧
      [0] ∈ takenOf s.effects ∧ timesIn 0 (linesOf s.effects) = 0 ∧
        timesIn 0 (observedOf s.effects) = 0 := by
  constructor
  · obtain ⟨s, hr, hs⟩ := System.reach_of_exec
      ((serverReporter (F := Rat) somePlatform someConfig someManifest).system somePlatform)
      System.always [.writer (.start (someStart (someServerCapture .written))),
        .observe .tickDuration 5, .writer (.turn (someServerCapture .openFailed))]
      (fun s => decide ([0] ∈ takenOf s.effects ∧ timesIn 0 (linesOf s.effects) = 0 ∧
        timesIn 0 (observedOf s.effects) = 0)) (by decide)
    exact ⟨s, hr, of_decide_eq_true hs⟩
  · obtain ⟨s, hr, hs⟩ := System.reach_of_exec
      ((clientReporter (F := Rat) somePlatform someConfig someManifest).system somePlatform)
      System.always [.observe .connectLatency 5,
        .writer (.start (someStart (someClientCapture .written)))]
      (fun s => decide ([0] ∈ takenOf s.effects ∧ timesIn 0 (linesOf s.effects) = 0 ∧
        timesIn 0 (observedOf s.effects) = 0)) (by decide)
    exact ⟨s, hr, of_decide_eq_true hs⟩

end Highp.Metrics
