import Highp.Lib.Transition
import Highp.Network.Segmentation

/-! `MPSCCommandQueue` between the workers, which push in `Receive`, and the logic thread, which
drains it in `Tick`, up to the end of `Server::Stop`. -/

namespace Highp.Network
open Highp.Lib

/-- A worker thread, as far as `GameLoop::Receive` is concerned. -/
inductive ProducerPc
  | idle
  /-- In front of the test of `_hasStopped`. -/
  | enter (conn : Conn) (data : List UInt8)
  /-- In front of `frameBuf.Append(data)`. -/
  | append (conn : Conn) (data : List UInt8)
  /-- At the head of the assembly loop. -/
  | assemble (conn : Conn)
  | left
  deriving DecidableEq

/-- The slot that the worker is in `Receive` for. -/
def ProducerPc.slot : ProducerPc → Option Slot
  | .enter conn _ | .append conn _ | .assemble conn => some conn.client
  | .idle | .left => none

/-- The logic thread in `GameLoop::Update`; `final` marks the `Tick` of the deferred exit. -/
inductive TickPc
  | check
  /-- In front of `out.clear()`. -/
  | clear (final : Bool)
  /-- In front of the locked `std::swap`. -/
  | swap (final : Bool)
  /-- In the loop over `_tickBatch`, in front of the command with this index. -/
  | dispatch (final : Bool) (next : Nat)
  | exited
  deriving DecidableEq

/-- The main thread in `Server::Stop`. -/
inductive StopPc
  | running
  | joinWorkers
  | storeHasStopped
  | requestStop
  | joinLogic
  | stopped
  deriving DecidableEq

/-- The shared state. The last four fields are ghosts: the commands in the order in which `Push`
took the lock, the batches that `DrainTo` gave out, the commands `Tick` has processed, and the
calls of `Receive` for each slot. -/
structure CommandFlow where
  clients : Slot → Client
  producers : Nat → ProducerPc
  logic : TickPc
  main : StopPc
  writeQueue : List PacketCommand
  tickBatch : List PacketCommand
  hasStopped : Bool
  stopRequested : Bool
  pushes : List PacketCommand
  batches : List (List PacketCommand)
  dispatched : List PacketCommand
  calls : Slot → List (Conn × List UInt8)

inductive FlowLabel
  /-- Worker `w` calls `GameLoop::Receive`. -/
  | receive (w : Nat) (conn : Conn) (data : List UInt8)
  | producer (w : Nat)
  /-- Worker `w` leaves its loop. -/
  | leave (w : Nat)
  | logic
  | stop
  /-- Some thread closes the client, or `SetupClient` gives it a new socket. -/
  | close (slot : Slot)
  | assign (slot : Slot) (socket : SocketHandle)

namespace CommandFlow

def setProducer (s : CommandFlow) (w : Nat) (pc : ProducerPc) : CommandFlow :=
  { s with producers := Function.update s.producers w pc }

def setClient (s : CommandFlow) (slot : Slot) (client : Client) : CommandFlow :=
  { s with clients := Function.update s.clients slot client }

/-- One step of `GameLoop::Receive` and of the `PacketDispatcher::Receive` it calls. -/
def producerStep (fb : FlatBuffers) (s : CommandFlow) (w : Nat) : Option CommandFlow :=
  match s.producers w with
  | .enter conn data =>
    some (s.setProducer w (if s.hasStopped then .idle else .append conn data))
  | .append conn data =>
    let client := s.clients conn.client
    let calls := Function.update s.calls conn.client (s.calls conn.client ++ [(conn, data)])
    let s := { s with calls }
    match client.frameBuf.append data with
    | (false, _) => some ((s.setClient conn.client client.close).setProducer w .idle)
    | (true, frameBuf) =>
      some ((s.setClient conn.client (client.setFrameBuf frameBuf)).setProducer w (.assemble conn))
  | .assemble conn =>
    let x : Inbox := ⟨s.clients conn.client, s.writeQueue⟩
    let r := x.round fb conn
    some ({ s with
      writeQueue := r.2.queue
      pushes := s.pushes ++ r.2.queue.drop s.writeQueue.length
      clients := Function.update s.clients conn.client r.2.client }.setProducer w
        (if r.1 then .assemble conn else .idle))
  | .idle | .left => none

/-- One step of `GameLoop::Update`, with `Tick` and `DrainTo` inside. -/
def logicStep (s : CommandFlow) : Option CommandFlow :=
  match s.logic with
  | .check => some { s with logic := .clear s.stopRequested }
  | .clear final => some { s with tickBatch := [], logic := .swap final }
  | .swap final =>
    some { s with
      writeQueue := s.tickBatch
      tickBatch := s.writeQueue
      batches := s.batches ++ [s.writeQueue]
      logic := .dispatch final 0 }
  | .dispatch final next =>
    match s.tickBatch[next]? with
    | some cmd =>
      some { s with dispatched := s.dispatched ++ [cmd], logic := .dispatch final (next + 1) }
    | none => some { s with logic := if final then .exited else .check }
  | .exited => none

/-- One step of `Server::Stop` with `workerCount` workers to join. -/
def stopStep (workerCount : Nat) (s : CommandFlow) : Option CommandFlow :=
  match s.main with
  | .running => some { s with main := .joinWorkers }
  | .joinWorkers =>
    if ∀ w, w < workerCount → s.producers w = .left then some { s with main := .storeHasStopped }
    else none
  | .storeHasStopped => some { s with hasStopped := true, main := .requestStop }
  | .requestStop => some { s with stopRequested := true, main := .joinLogic }
  | .joinLogic => if s.logic = .exited then some { s with main := .stopped } else none
  | .stopped => none

def step (fb : FlatBuffers) (workerCount : Nat) (s : CommandFlow) :
    FlowLabel → Option CommandFlow
  | .receive w conn data =>
    if w < workerCount ∧ s.producers w = .idle then some (s.setProducer w (.enter conn data))
    else none
  | .producer w => s.producerStep fb w
  | .leave w => if s.producers w = .idle then some (s.setProducer w .left) else none
  | .logic => s.logicStep
  | .stop => s.stopStep workerCount
  | .close slot => some (s.setClient slot (s.clients slot).close)
  | .assign slot socket => some (s.setClient slot { s.clients slot with socket := some socket })

end CommandFlow

/-- `workerCount` workers over the clients that they find. -/
def commandSystem (fb : FlatBuffers) (workerCount : Nat) (clients : Slot → Client) :
    System CommandFlow FlowLabel where
  start := ⟨clients, fun _ => .idle, .check, .running, [], [], false, false, [], [], [],
    fun _ => []⟩
  step := CommandFlow.step fb workerCount

/-! ## Every push is in exactly one place -/

/-- The logic thread has seen the stop request. -/
def TickPc.final : TickPc → Bool
  | .check => false
  | .clear final | .swap final | .dispatch final _ => final
  | .exited => true

/-- The last swap is behind the logic thread. -/
def TickPc.drained : TickPc → Bool
  | .dispatch final _ => final
  | .exited => true
  | .check | .clear _ | .swap _ => false

theorem TickPc.final_of_drained {pc : TickPc} (h : pc.drained = true) : pc.final = true := by
  cases pc with
  | check => simp [drained] at h
  | clear final => simp [drained] at h
  | swap final => simp [drained] at h
  | dispatch final next => exact h
  | exited => rfl

/-- The part of the current batch that `Tick` has not processed yet. -/
def CommandFlow.remaining (s : CommandFlow) : List PacketCommand :=
  match s.logic with
  | .dispatch _ next => s.tickBatch.drop next
  | .check | .clear _ | .swap _ | .exited => []

/-- The bookkeeping of the queue, and what each phase of `Server::Stop` has achieved. -/
structure Accounted (workerCount : Nat) (s : CommandFlow) : Prop where
  taken : s.batches.flatten ++ s.writeQueue = s.pushes
  processed : s.dispatched ++ s.remaining = s.batches.flatten
  cleared : ∀ final, s.logic = .swap final → s.tickBatch = []
  outside : ∀ w, workerCount ≤ w → (s.producers w).slot = none
  joined : s.main ≠ .running → s.main ≠ .joinWorkers → ∀ w, w < workerCount → s.producers w = .left
  requested : s.stopRequested = true → s.main = .joinLogic ∨ s.main = .stopped
  final : s.logic.final = true → s.stopRequested = true
  drained : s.logic.drained = true → s.writeQueue = []
  ended : s.main = .stopped → s.logic = .exited

section
variable {fb : FlatBuffers} {workerCount w : Nat} {s t : CommandFlow}

theorem round_appends (fb : FlatBuffers) (conn : Conn) (x : Inbox) :
    ∃ new, (x.round fb conn).2.queue = x.queue ++ new ∧ ∀ cmd ∈ new, cmd.client = conn.client := by
  have hr := round_spec fb conn x
  cases hn : nextFrame (parses fb) x.client.frameBuf.data with
  | more =>
    simp only [hn] at hr
    exact ⟨[], by rw [hr, List.append_nil], by simp⟩
  | fail r =>
    simp only [hn] at hr
    obtain ⟨y, hy, hq, -⟩ := hr
    exact ⟨[], by rw [hy, List.append_nil]; exact hq, by simp⟩
  | emit p r =>
    simp only [hn] at hr
    obtain ⟨type, y, hy, hq, -⟩ := hr
    exact ⟨_, by rw [hy]; exact hq, by simp⟩

/-- Nobody is in `Receive` any more once the workers are joined. -/
theorem Accounted.quiet (h : Accounted workerCount s) (hr : s.stopRequested = true) (w : Nat) :
    (s.producers w).slot = none := by
  rcases Nat.lt_or_ge w workerCount with hw | hw
  · have hl : s.producers w = .left := by
      rcases h.requested hr with hm | hm
      · exact h.joined (by rw [hm]; decide) (by rw [hm]; decide) w hw
      · exact h.joined (by rw [hm]; decide) (by rw [hm]; decide) w hw
    rw [hl]
    rfl
  · exact h.outside w hw

/-- A worker that takes a step inside `Receive` is one of the workers and has not left. -/
theorem Accounted.producing (h : Accounted workerCount s) (hs : s.producerStep fb w = some t) :
    w < workerCount ∧ s.producers w ≠ .left ∧ s.stopRequested = false := by
  have hslot : (s.producers w).slot ≠ none := by
    intro hn
    cases hp : s.producers w with
    | idle => simp [CommandFlow.producerStep, hp] at hs
    | enter conn data => simp [hp, ProducerPc.slot] at hn
    | append conn data => simp [hp, ProducerPc.slot] at hn
    | assemble conn => simp [hp, ProducerPc.slot] at hn
    | left => simp [CommandFlow.producerStep, hp] at hs
  refine ⟨?_, ?_, ?_⟩
  · by_contra hw
    exact hslot (h.outside w (by omega))
  · intro hl
    exact hslot (by rw [hl]; rfl)
  · by_contra hr
    exact hslot (h.quiet (by simpa using hr) w)

/-- What every step of a worker leaves alone, and the commands that it adds. -/
theorem producerStep_frame (hs : s.producerStep fb w = some t) :
    (∃ pc, t.producers = Function.update s.producers w pc) ∧ t.logic = s.logic ∧ t.main = s.main ∧
    t.tickBatch = s.tickBatch ∧ t.stopRequested = s.stopRequested ∧ t.batches = s.batches ∧
    t.dispatched = s.dispatched ∧
    ∃ new, t.writeQueue = s.writeQueue ++ new ∧ t.pushes = s.pushes ++ new := by
  cases hp : s.producers w with
  | idle => simp [CommandFlow.producerStep, hp] at hs
  | left => simp [CommandFlow.producerStep, hp] at hs
  | enter conn data =>
    simp only [CommandFlow.producerStep, hp, Option.some.injEq] at hs
    subst hs
    exact ⟨⟨_, rfl⟩, rfl, rfl, rfl, rfl, rfl, rfl, [], by simp [CommandFlow.setProducer]⟩
  | append conn data =>
    simp only [CommandFlow.producerStep, hp] at hs
    split at hs
    · cases hs
      exact ⟨⟨_, rfl⟩, rfl, rfl, rfl, rfl, rfl, rfl, [],
        by simp [CommandFlow.setProducer, CommandFlow.setClient]⟩
    · cases hs
      exact ⟨⟨_, rfl⟩, rfl, rfl, rfl, rfl, rfl, rfl, [],
        by simp [CommandFlow.setProducer, CommandFlow.setClient]⟩
  | assemble conn =>
    simp only [CommandFlow.producerStep, hp, Option.some.injEq] at hs
    obtain ⟨new, hnew, -⟩ := round_appends fb conn ⟨s.clients conn.client, s.writeQueue⟩
    subst hs
    refine ⟨⟨_, rfl⟩, rfl, rfl, rfl, rfl, rfl, rfl, new, hnew, ?_⟩
    simp only [CommandFlow.setProducer, hnew, List.drop_left]

/-- A push lands behind everything else; after the stop request there is none. -/
theorem Accounted.producer (h : Accounted workerCount s) (hs : s.producerStep fb w = some t) :
    Accounted workerCount t := by
  obtain ⟨hw, hleft, hstop⟩ := h.producing hs
  obtain ⟨⟨pc, hpc⟩, hlogic, hmain, hbatch, hreq, hbatches, hdisp, new, hq, hpush⟩ :=
    producerStep_frame hs
  have hrun : s.main = .running ∨ s.main = .joinWorkers := by
    by_contra hn
    rw [not_or] at hn
    exact hleft (h.joined hn.1 hn.2 w hw)
  have hfinal : s.logic.final = false := by
    cases hf : s.logic.final with
    | false => rfl
    | true => simp [h.final hf] at hstop
  refine ⟨?_, ?_, ?_, ?_, ?_, ?_, ?_, ?_, ?_⟩
  · rw [hbatches, hq, hpush, ← h.taken, List.append_assoc]
  · rw [hdisp, hbatches, ← h.processed]
    simp only [CommandFlow.remaining, hlogic, hbatch]
  · rw [hlogic, hbatch]
    exact h.cleared
  · intro v hv
    rw [hpc, Function.update_of_ne (by omega)]
    exact h.outside v hv
  · intro h1 h2
    rw [hmain] at h1 h2
    rcases hrun with hr | hr
    · exact absurd hr h1
    · exact absurd hr h2
  · rw [hreq, hmain]
    exact h.requested
  · rw [hlogic, hreq]
    exact h.final
  · rw [hlogic]
    intro hd
    simp [TickPc.final_of_drained hd] at hfinal
  · rw [hmain, hlogic]
    exact h.ended

/-- The swap hands out what was pushed and leaves the cleared vector behind. -/
theorem Accounted.logic (h : Accounted workerCount s) (hs : s.logicStep = some t) :
    Accounted workerCount t := by
  have hmain : s.main ≠ .stopped ∨ s.logic = .exited := by
    by_cases hm : s.main = .stopped
    · exact Or.inr (h.ended hm)
    · exact Or.inl hm
  have hproc := h.processed
  cases hl : s.logic with
  | exited => simp [CommandFlow.logicStep, hl] at hs
  | check =>
    simp only [CommandFlow.logicStep, hl, Option.some.injEq] at hs
    simp only [CommandFlow.remaining, hl] at hproc
    simp only [hl, reduceCtorEq, or_false] at hmain
    subst hs
    exact ⟨h.taken, hproc, by simp, h.outside, h.joined, h.requested, id, by simp [TickPc.drained],
      fun hm => absurd hm hmain⟩
  | clear final =>
    simp only [CommandFlow.logicStep, hl, Option.some.injEq] at hs
    simp only [CommandFlow.remaining, hl] at hproc
    simp only [hl, reduceCtorEq, or_false] at hmain
    have hf := h.final
    rw [hl] at hf
    subst hs
    exact ⟨h.taken, hproc, fun _ _ => rfl, h.outside, h.joined, h.requested, hf,
      by simp [TickPc.drained], fun hm => absurd hm hmain⟩
  | swap final =>
    simp only [CommandFlow.logicStep, hl, Option.some.injEq] at hs
    simp only [CommandFlow.remaining, hl, List.append_nil] at hproc
    simp only [hl, reduceCtorEq, or_false] at hmain
    have hf := h.final
    rw [hl] at hf
    have hempty : s.tickBatch = [] := h.cleared final hl
    subst hs
    refine ⟨?_, ?_, by simp, h.outside, h.joined, h.requested, hf, fun _ => hempty,
      fun hm => absurd hm hmain⟩
    · simp [hempty, ← h.taken]
    · simp [CommandFlow.remaining, hproc]
  | dispatch final next =>
    simp only [CommandFlow.logicStep, hl] at hs
    simp only [CommandFlow.remaining, hl] at hproc
    simp only [hl, reduceCtorEq, or_false] at hmain
    have hf := h.final
    have hd := h.drained
    rw [hl] at hf hd
    split at hs
    · rename_i cmd hcmd
      cases hs
      refine ⟨h.taken, ?_, by simp, h.outside, h.joined, h.requested, hf, hd,
        fun hm => absurd hm hmain⟩
      rw [List.drop_eq_getElem?_toList_append, hcmd] at hproc
      simpa [CommandFlow.remaining] using hproc
    · rename_i hnone
      cases hs
      rw [List.drop_eq_nil_of_le (List.getElem?_eq_none_iff.mp hnone)] at hproc
      cases final with
      | true =>
        exact ⟨h.taken, hproc, by simp, h.outside, h.joined, h.requested, hf, hd, fun _ => rfl⟩
      | false =>
        exact ⟨h.taken, hproc, by simp, h.outside, h.joined, h.requested, by simp [TickPc.final],
          by simp [TickPc.drained], fun hm => absurd hm hmain⟩

/-- Each phase of the shutdown starts when the one before it is over. -/
theorem Accounted.stop (h : Accounted workerCount s) (hs : s.stopStep workerCount = some t) :
    Accounted workerCount t := by
  have hreq := h.requested
  cases hm : s.main with
  | running =>
    simp only [CommandFlow.stopStep, hm, Option.some.injEq] at hs
    rw [hm] at hreq
    subst hs
    exact ⟨h.taken, h.processed, h.cleared, h.outside, by simp, by simpa using hreq, h.final,
      h.drained, by simp⟩
  | joinWorkers =>
    simp only [CommandFlow.stopStep, hm] at hs
    rw [hm] at hreq
    split at hs
    · rename_i hleft
      cases hs
      exact ⟨h.taken, h.processed, h.cleared, h.outside, fun _ _ => hleft, by simpa using hreq,
        h.final, h.drained, by simp⟩
    · simp at hs
  | storeHasStopped =>
    simp only [CommandFlow.stopStep, hm, Option.some.injEq] at hs
    have hj := h.joined (by rw [hm]; decide) (by rw [hm]; decide)
    rw [hm] at hreq
    subst hs
    exact ⟨h.taken, h.processed, h.cleared, h.outside, fun _ _ => hj, by simpa using hreq,
      h.final, h.drained, by simp⟩
  | requestStop =>
    simp only [CommandFlow.stopStep, hm, Option.some.injEq] at hs
    have hj := h.joined (by rw [hm]; decide) (by rw [hm]; decide)
    subst hs
    exact ⟨h.taken, h.processed, h.cleared, h.outside, fun _ _ => hj, fun _ => Or.inl rfl,
      fun _ => rfl, h.drained, by simp⟩
  | joinLogic =>
    simp only [CommandFlow.stopStep, hm] at hs
    have hj := h.joined (by rw [hm]; decide) (by rw [hm]; decide)
    split at hs
    · rename_i hexit
      cases hs
      exact ⟨h.taken, h.processed, h.cleared, h.outside, fun _ _ => hj, fun _ => Or.inr rfl,
        h.final, h.drained, fun _ => hexit⟩
    · simp at hs
  | stopped => simp [CommandFlow.stopStep, hm] at hs

/-- A worker outside `Receive` that enters it or leaves its loop. -/
theorem Accounted.setProducer (h : Accounted workerCount s) (hidle : s.producers w = .idle)
    {pc : ProducerPc} (hpc : workerCount ≤ w → pc.slot = none) :
    Accounted workerCount (s.setProducer w pc) := by
  refine ⟨h.taken, h.processed, h.cleared, ?_, ?_, h.requested, h.final, h.drained, h.ended⟩
  · intro v hv
    by_cases hvw : v = w
    · subst hvw
      simpa [CommandFlow.setProducer] using hpc hv
    · simpa [CommandFlow.setProducer, Function.update_of_ne hvw] using h.outside v hv
  · intro h1 h2 v hv
    have hl := h.joined h1 h2 v hv
    have hvw : v ≠ w := by
      intro he
      rw [he, hidle] at hl
      simp at hl
    simpa [CommandFlow.setProducer, Function.update_of_ne hvw] using hl

theorem accounted_step (h : Accounted workerCount s) {l : FlowLabel}
    (hs : s.step fb workerCount l = some t) : Accounted workerCount t := by
  cases l with
  | receive w conn data =>
    simp only [CommandFlow.step] at hs
    split at hs
    · rename_i hc
      cases hs
      exact h.setProducer hc.2 fun hw => absurd hc.1 (by omega)
    · simp at hs
  | producer w => exact h.producer hs
  | leave w =>
    simp only [CommandFlow.step] at hs
    split at hs
    · rename_i hidle
      cases hs
      exact h.setProducer hidle fun _ => rfl
    · simp at hs
  | logic => exact h.logic hs
  | stop => exact h.stop hs
  | close slot =>
    cases hs
    exact ⟨h.taken, h.processed, h.cleared, h.outside, h.joined, h.requested, h.final, h.drained,
      h.ended⟩
  | assign slot socket =>
    cases hs
    exact ⟨h.taken, h.processed, h.cleared, h.outside, h.joined, h.requested, h.final, h.drained,
      h.ended⟩

theorem accounted_of_reach {clients : Slot → Client} {ok : CommandFlow → FlowLabel → Prop}
    (h : (commandSystem fb workerCount clients).Reach ok s) : Accounted workerCount s := by
  refine h.invariant ?_ fun _ hi _ hs => accounted_step hi hs
  exact ⟨rfl, rfl, by simp [commandSystem], fun _ _ => rfl, by simp [commandSystem],
    by simp [commandSystem], by simp [commandSystem, TickPc.final], fun _ => rfl,
    by simp [commandSystem]⟩

end

end Highp.Network
