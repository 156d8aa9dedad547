import Highp.Lib.Tally
import Highp.Lib.Transition
import Highp.Network.WorkerLoop

/-! `IocpIoMultiplexer::Shutdown` against the workers it joins. The null packets it posts are
addressed to nobody: a worker may take the packet of another, or leave on a flag without any. -/

namespace Highp.Network
open Highp.Lib

inductive WorkerPc
  /-- About to read `st.stop_requested()`. -/
  | testStop
  /-- About to read `_isRunning`. -/
  | testRunning
  /-- In `GetQueuedCompletionStatus`. -/
  | waiting
  | handling (event : CompletionEvent)
  /-- Sleeping before it breaks out of the loop on an aborted operation. -/
  | sleeping
  | left
  deriving DecidableEq

/-- The thread that calls `Shutdown`. The number is the worker whose turn it is. -/
inductive ShutdownPc
  | idle
  | requestStop (worker : Nat)
  | post (worker : Nat)
  | join (worker : Nat)
  | returned
  deriving DecidableEq

structure Multiplexer where
  isRunning : Bool
  stopRequested : Nat → Bool
  /-- The completion port. -/
  queue : List Dequeued
  workers : Nat → WorkerPc
  shutdown : ShutdownPc

inductive MultiplexerLabel
  /-- A completion arrives at the port. -/
  | complete (r : Dequeued)
  /-- A worker goes on; a waiting one gets the packet at a place of the queue. -/
  | worker (w place : Nat)
  /-- Somebody calls `Shutdown`. -/
  | callShutdown
  /-- The thread in `Shutdown` goes on. -/
  | shutdown

/-- `PostQueuedCompletionStatus(_handle, 0, 0, nullptr)` as a worker sees it. -/
def nullPacket : Dequeued := ⟨true, 0, none, 0, 0⟩

/-- Where a worker is after `GetQueuedCompletionStatus` has returned. -/
def WorkerPc.afterDequeue (r : Dequeued) : WorkerPc :=
  match onDequeued r with
  | some event => .handling event
  | none => if r.isShutdown then .left else .sleeping

namespace Multiplexer

/-- One step of worker `w`. -/
def workerStep (s : Multiplexer) (w place : Nat) : Option Multiplexer :=
  match s.workers w with
  | .testStop =>
    some { s with workers :=
      Function.update s.workers w (if s.stopRequested w then .left else .testRunning) }
  | .testRunning =>
    some { s with workers :=
      Function.update s.workers w (if s.isRunning then .waiting else .left) }
  | .waiting =>
    s.queue[place]?.map fun r =>
      { s with
        queue := s.queue.eraseIdx place
        workers := Function.update s.workers w (.afterDequeue r) }
  | .handling _ => some { s with workers := Function.update s.workers w .testStop }
  | .sleeping => some { s with workers := Function.update s.workers w .left }
  | .left => none

/-- One step of the thread in `Shutdown`: the loop over the workers, then the destructors of the
threads, each of which joins. -/
def shutdownStep (workerCount : Nat) (s : Multiplexer) : Option Multiplexer :=
  match s.shutdown with
  | .idle => none
  | .requestStop w =>
    if w < workerCount then
      some { s with stopRequested := Function.update s.stopRequested w true, shutdown := .post w }
    else some { s with shutdown := .join 0 }
  | .post w => some { s with queue := s.queue ++ [nullPacket], shutdown := .requestStop (w + 1) }
  | .join w =>
    if w < workerCount then
      if s.workers w = .left then some { s with shutdown := .join (w + 1) } else none
    else some { s with shutdown := .returned }
  | .returned => none

def step (workerCount : Nat) (s : Multiplexer) : MultiplexerLabel → Option Multiplexer
  | .complete r => some { s with queue := s.queue ++ [r] }
  | .worker w place => if w < workerCount then s.workerStep w place else none
  -- `_isRunning.exchange(false)`: only the first caller goes on
  | .callShutdown =>
    some (if s.isRunning then { s with isRunning := false, shutdown := .requestStop 0 } else s)
  | .shutdown => s.shutdownStep workerCount

end Multiplexer

/-- The workers as `Initialize` has started them, with any completions at the port. -/
def multiplexer (workerCount : Nat) (queue : List Dequeued) :
    System Multiplexer MultiplexerLabel where
  start := ⟨true, fun _ => false, queue, fun _ => .testStop, .idle⟩
  step := Multiplexer.step workerCount

/-- Steps a worker can still take once `_isRunning` is cleared. -/
def WorkerPc.rank : WorkerPc → Nat
  | .waiting => 4
  | .handling _ => 3
  | .testStop => 2
  | .testRunning => 1
  | .sleeping => 1
  | .left => 0

def MultiplexerLabel.isOf (w : Nat) : MultiplexerLabel → Bool
  | .worker v _ => v == w
  | _ => false

namespace Multiplexer

/-- Workers that have not left the loop. -/
def inLoop (workerCount : Nat) (s : Multiplexer) : Nat := tally workerCount s.workers (· != .left)

def nullsQueued (s : Multiplexer) : Nat := s.queue.countP Dequeued.isShutdown

/-- Null packets that `Shutdown` has still to post. -/
def toPost (workerCount : Nat) (s : Multiplexer) : Nat :=
  match s.shutdown with
  | .idle => workerCount
  | .requestStop w => workerCount - w
  | .post w => workerCount - w
  | .join _ => 0
  | .returned => 0

/-- `Shutdown` has left its loop over the workers. -/
def HasPosted (s : Multiplexer) : Prop := ∃ w, s.shutdown = .join w ∨ s.shutdown = .returned

variable {workerCount w place : Nat} {s t : Multiplexer} {l : MultiplexerLabel}

/-! ## What a worker's step does -/

/-- A worker takes a packet from the port only when it waits, and leaves the loop for good. -/
theorem workerStep_cases (h : s.workerStep w place = some t) :
    s.workers w ≠ .left ∧ ∃ pc,
      (s.workers w ≠ .waiting ∧ t = { s with workers := Function.update s.workers w pc }) ∨
      (s.workers w = .waiting ∧ ∃ r, s.queue[place]? = some r ∧ pc = .afterDequeue r ∧
        t = { s with
          queue := s.queue.eraseIdx place
          workers := Function.update s.workers w pc }) := by
  unfold workerStep at h
  cases hw : s.workers w with
  | testStop =>
    simp only [hw, Option.some.injEq] at h
    exact ⟨nofun, _, .inl ⟨nofun, h.symm⟩⟩
  | testRunning =>
    simp only [hw, Option.some.injEq] at h
    exact ⟨nofun, _, .inl ⟨nofun, h.symm⟩⟩
  | waiting =>
    simp only [hw] at h
    obtain ⟨r, hr, rfl⟩ := Option.map_eq_some_iff.mp h
    exact ⟨nofun, _, .inr ⟨rfl, r, hr, rfl, rfl⟩⟩
  | handling event =>
    simp only [hw, Option.some.injEq] at h
    exact ⟨nofun, _, .inl ⟨nofun, h.symm⟩⟩
  | sleeping =>
    simp only [hw, Option.some.injEq] at h
    exact ⟨nofun, _, .inl ⟨nofun, h.symm⟩⟩
  | left => simp [hw] at h

theorem afterDequeue_of_isShutdown {r : Dequeued} (h : r.isShutdown = true) :
    WorkerPc.afterDequeue r = .left := by
  simp [WorkerPc.afterDequeue, onDequeued, h]

/-- **Packets against workers.** Taking a null packet costs one packet and one worker. -/
theorem inLoop_workerStep (hw : w < workerCount) (h : s.workerStep w place = some t) :
    t.inLoop workerCount + s.nullsQueued ≤ s.inLoop workerCount + t.nullsQueued := by
  obtain ⟨hin, pc, ⟨-, rfl⟩ | ⟨-, r, hr, rfl, rfl⟩⟩ := workerStep_cases h
  · have hu := tally_update hw s.workers pc (· != .left)
    have hone : (s.workers w != WorkerPc.left).toNat = 1 := by simp [hin]
    have hle : (pc != WorkerPc.left).toNat ≤ 1 := Bool.toNat_le _
    simp only [inLoop, nullsQueued]
    omega
  · have hu := tally_update hw s.workers (.afterDequeue r) (· != .left)
    have hone : (s.workers w != WorkerPc.left).toNat = 1 := by simp [hin]
    have hcount := countP_eraseIdx Dequeued.isShutdown hr
    simp only [inLoop, nullsQueued]
    cases hs : r.isShutdown with
    | true =>
      have hl : (WorkerPc.afterDequeue r != WorkerPc.left).toNat = 0 := by
        simp [afterDequeue_of_isShutdown hs]
      simp only [hs, Bool.toNat_true] at hcount
      omega
    | false =>
      have hle : (WorkerPc.afterDequeue r != WorkerPc.left).toNat ≤ 1 := Bool.toNat_le _
      simp only [hs, Bool.toNat_false] at hcount
      omega

theorem toPost_le (workerCount : Nat) (s : Multiplexer) : s.toPost workerCount ≤ workerCount := by
  unfold toPost
  cases s.shutdown with
  | idle => exact Nat.le_refl _
  | requestStop w => exact Nat.sub_le _ _
  | post w => exact Nat.sub_le _ _
  | join w => exact Nat.zero_le _
  | returned => exact Nat.zero_le _

/-- A packet that is posted is no longer to be posted. -/
theorem toPost_shutdownStep (h : s.shutdownStep workerCount = some t) :
    t.workers = s.workers ∧ t.isRunning = s.isRunning ∧ s.shutdown ≠ .idle ∧
      s.nullsQueued + s.toPost workerCount ≤ t.nullsQueued + t.toPost workerCount := by
  unfold shutdownStep at h
  cases hs : s.shutdown with
  | idle => simp [hs] at h
  | requestStop w =>
    simp only [hs] at h
    split at h
    · cases h
      exact ⟨rfl, rfl, nofun, by simp [toPost, nullsQueued, hs]⟩
    · cases h
      refine ⟨rfl, rfl, nofun, ?_⟩
      simp only [toPost, nullsQueued, hs]
      omega
  | post w =>
    simp only [hs, Option.some.injEq] at h
    subst h
    have hnull : nullPacket.isShutdown = true := rfl
    refine ⟨rfl, rfl, nofun, ?_⟩
    simp only [toPost, nullsQueued, hs, List.countP_append, List.countP_singleton, hnull, if_true]
    omega
  | join w =>
    simp only [hs] at h
    split at h
    · split at h
      · cases h
        exact ⟨rfl, rfl, nofun, by simp [toPost, nullsQueued, hs]⟩
      · simp at h
    · cases h
      exact ⟨rfl, rfl, nofun, by simp [toPost, nullsQueued, hs]⟩
  | returned => simp [hs] at h

/-! ## The invariant -/

structure Covered (workerCount : Nat) (s : Multiplexer) : Prop where
  packets : s.inLoop workerCount ≤ s.nullsQueued + s.toPost workerCount
  stopped : s.shutdown ≠ .idle → s.isRunning = false

theorem covered_start (queue : List Dequeued) :
    Covered workerCount (multiplexer workerCount queue).start := by
  constructor
  · have hle : tally workerCount (fun _ => WorkerPc.testStop) (· != .left) ≤ workerCount :=
      tally_le _ _ _
    simp only [multiplexer, inLoop, toPost]
    omega
  · intro h
    exact absurd rfl h

theorem Covered.step (h : Covered workerCount s) (hs : s.step workerCount l = some t) :
    Covered workerCount t := by
  cases l with
  | complete r =>
    simp only [Multiplexer.step, Option.some.injEq] at hs
    subst hs
    have hp := h.packets
    constructor
    · simp only [inLoop, nullsQueued, toPost, List.countP_append] at hp ⊢
      omega
    · exact h.stopped
  | worker w place =>
    simp only [Multiplexer.step] at hs
    split at hs
    · have hp := h.packets
      have hd := inLoop_workerStep ‹_› hs
      obtain ⟨-, pc, ⟨-, rfl⟩ | ⟨-, r, -, -, rfl⟩⟩ := workerStep_cases hs
      · exact ⟨by simp only [toPost] at hp ⊢; omega, h.stopped⟩
      · exact ⟨by simp only [toPost] at hp ⊢; omega, h.stopped⟩
    · simp at hs
  | callShutdown =>
    simp only [Multiplexer.step, Option.some.injEq] at hs
    subst hs
    have hp := h.packets
    have hle := s.toPost_le workerCount
    split
    · constructor
      · simp only [inLoop, nullsQueued] at hp ⊢
        simp only [toPost] at hp hle ⊢
        omega
      · intro _
        rfl
    · exact h
  | shutdown =>
    obtain ⟨hworkers, hrun, hidle, hle⟩ := toPost_shutdownStep hs
    have hp := h.packets
    constructor
    · simp only [inLoop, hworkers] at hp ⊢
      omega
    · intro _
      rw [hrun]
      exact h.stopped hidle

/-! ## The join comes to an end -/

/-- After `Shutdown` has posted, a worker that waits has a null packet to take. -/
theorem Covered.packet_waits (h : Covered workerCount s) (hp : s.HasPosted) (hw : w < workerCount)
    (hin : s.workers w ≠ .left) :
    ∃ (place : Nat) (r : Dequeued), s.queue[place]? = some r ∧ r.isShutdown = true := by
  have hpos : 0 < s.inLoop workerCount := tally_pos hw (by simp [hin])
  have hzero : s.toPost workerCount = 0 := by
    obtain ⟨v, hv | hv⟩ := hp
    · simp [toPost, hv]
    · simp [toPost, hv]
  have hle := h.packets
  have hnulls : 0 < s.queue.countP Dequeued.isShutdown := by
    simp only [nullsQueued] at hle
    omega
  obtain ⟨r, hr, hs⟩ := List.countP_pos_iff.mp hnulls
  obtain ⟨place, hplace⟩ := List.getElem?_of_mem hr
  exact ⟨place, r, hplace, hs⟩

theorem Covered.can_step (h : Covered workerCount s) (hp : s.HasPosted) (hw : w < workerCount)
    (hin : s.workers w ≠ .left) : ∃ place t, s.step workerCount (.worker w place) = some t := by
  obtain ⟨place, r, hr, -⟩ := h.packet_waits hp hw hin
  refine ⟨place, ?_⟩
  simp only [Multiplexer.step, hw, if_true, workerStep]
  cases hpc : s.workers w with
  | testStop => exact ⟨_, rfl⟩
  | testRunning => exact ⟨_, rfl⟩
  | waiting => simp [hr]
  | handling event => exact ⟨_, rfl⟩
  | sleeping => exact ⟨_, rfl⟩
  | left => exact absurd hpc hin

theorem rank_afterDequeue_le (r : Dequeued) : (WorkerPc.afterDequeue r).rank ≤ 3 := by
  unfold WorkerPc.afterDequeue
  cases onDequeued r with
  | none => cases r.isShutdown <;> decide
  | some event => exact Nat.le_refl 3

/-- With `_isRunning` cleared every step of a worker brings it nearer to the end of its loop. -/
theorem rank_workerStep (hrun : s.isRunning = false) (h : s.workerStep w place = some t) :
    (t.workers w).rank < (s.workers w).rank := by
  unfold workerStep at h
  cases hpc : s.workers w with
  | testStop =>
    simp only [hpc, Option.some.injEq] at h
    subst h
    simp only [Function.update_self]
    split <;> decide
  | testRunning =>
    simp only [hpc, Option.some.injEq, hrun] at h
    subst h
    simp only [Function.update_self]
    decide
  | waiting =>
    simp only [hpc] at h
    obtain ⟨r, -, rfl⟩ := Option.map_eq_some_iff.mp h
    have hle := rank_afterDequeue_le r
    simp only [Function.update_self]
    exact Nat.lt_succ_of_le hle
  | handling event =>
    simp only [hpc, Option.some.injEq] at h
    subst h
    simp only [Function.update_self]
    exact Nat.lt_succ_self 2
  | sleeping =>
    simp only [hpc, Option.some.injEq] at h
    subst h
    simp only [Function.update_self]
    exact Nat.zero_lt_one
  | left => simp [hpc] at h

/-- A step of anybody, with `_isRunning` cleared, counted against the rank of worker `w`. -/
theorem rank_step (hrun : s.isRunning = false) (h : s.step workerCount l = some t) :
    t.isRunning = false ∧ (l.isOf w).toNat + (t.workers w).rank ≤ (s.workers w).rank := by
  cases l with
  | complete r =>
    simp only [Multiplexer.step, Option.some.injEq] at h
    subst h
    exact ⟨hrun, by simp [MultiplexerLabel.isOf]⟩
  | worker v place =>
    simp only [Multiplexer.step] at h
    split at h
    · have hframe : t.isRunning = s.isRunning ∧ (w ≠ v → t.workers w = s.workers w) := by
        obtain ⟨-, pc, ⟨-, rfl⟩ | ⟨-, r, -, -, rfl⟩⟩ := workerStep_cases h
        · exact ⟨rfl, fun hne => Function.update_of_ne hne _ _⟩
        · exact ⟨rfl, fun hne => Function.update_of_ne hne _ _⟩
      refine ⟨hframe.1.trans hrun, ?_⟩
      by_cases hvw : w = v
      · subst hvw
        have hlt := rank_workerStep hrun h
        have hone : (MultiplexerLabel.isOf w (.worker w place)).toNat = 1 := by
          simp [MultiplexerLabel.isOf]
        omega
      · have hzero : (MultiplexerLabel.isOf w (.worker v place)).toNat = 0 := by
          simp [MultiplexerLabel.isOf, Ne.symm hvw]
        have hsame := hframe.2 hvw
        rw [hsame]
        omega
    · simp at h
  | callShutdown =>
    simp only [Multiplexer.step, hrun, Option.some.injEq] at h
    subst h
    exact ⟨hrun, by simp [MultiplexerLabel.isOf]⟩
  | shutdown =>
    obtain ⟨hworkers, hr, -, -⟩ := toPost_shutdownStep h
    exact ⟨hr.trans hrun, by simp [MultiplexerLabel.isOf, hworkers]⟩

/-- The same for a whole run. -/
theorem rank_exec {labels : List MultiplexerLabel} (queue : List Dequeued)
    (hrun : s.isRunning = false)
    (h : (multiplexer workerCount queue).exec System.always s labels = some t) :
    labels.countP (·.isOf w) + (t.workers w).rank ≤ (s.workers w).rank := by
  induction labels generalizing s with
  | nil =>
    simp only [System.exec, Option.some.injEq] at h
    subst h
    simp
  | cons l labels ih =>
    simp only [System.exec, System.always] at h
    obtain ⟨u, hu, h⟩ := Option.bind_eq_some_iff.mp h
    obtain ⟨hrun', hone⟩ := rank_step (w := w) hrun hu
    have hrest := ih hrun' h
    rw [List.countP_cons]
    cases hl : l.isOf w with
    | true =>
      simp only [hl, Bool.toNat_true] at hone
      simp only [if_true]
      omega
    | false =>
      simp only [hl, Bool.toNat_false] at hone
      simp only [Bool.false_eq_true, if_false]
      omega

end Multiplexer

/-- **Shutdown strands no worker.** There are always enough null packets, queued or still to be
posted, for the workers in the loop; so after the posts nobody waits at an empty port, and every
worker that is still in the loop can go on and does so at most four more times, whatever else
happens meanwhile. -/
theorem shutdown_strands_no_worker (workerCount : Nat) (queue : List Dequeued) {s : Multiplexer}
    (h : (multiplexer workerCount queue).Reach System.always s) :
    s.inLoop workerCount ≤ s.nullsQueued + s.toPost workerCount ∧
    (s.HasPosted → ∀ w, w < workerCount → s.workers w = .waiting → s.queue ≠ []) ∧
    (s.HasPosted → ∀ w, w < workerCount →
      (s.workers w ≠ .left → ∃ place t, s.step workerCount (.worker w place) = some t) ∧
      ∀ labels t, (multiplexer workerCount queue).exec System.always s labels = some t →
        labels.countP (·.isOf w) ≤ 4) := by
  have hc := h.invariant (Multiplexer.covered_start queue) fun _ hi _ hs => hi.step hs
  refine ⟨hc.packets, fun hp w hw hwait hq => ?_, fun hp w hw => ⟨hc.can_step hp hw, ?_⟩⟩
  · obtain ⟨place, r, hr, -⟩ := hc.packet_waits hp hw (by rw [hwait]; nofun)
    simp [hq] at hr
  · intro labels t he
    have hrun : s.isRunning = false := by
      apply hc.stopped
      obtain ⟨v, hv | hv⟩ := hp
      · rw [hv]; nofun
      · rw [hv]; nofun
    have hle := Multiplexer.rank_exec (w := w) queue hrun he
    have hfour : (s.workers w).rank ≤ 4 := by
      cases s.workers w <;> simp [WorkerPc.rank]
    omega

/-- Two workers: one takes both a completion and, later, leaves on the flag; the other one takes
the null packet that was posted for the first. -/
theorem shutdown_strands_no_worker_busy : ∃ s,
    (multiplexer 2 [⟨true, 4096, some ⟨4104, .recv⟩, 60, 0⟩]).Reach System.always s ∧
      s.HasPosted ∧ s.workers 0 = .waiting ∧ s.queue ≠ [] := by
  obtain ⟨s, hr, hp⟩ := System.reach_of_exec
    (multiplexer 2 [⟨true, 4096, some ⟨4104, .recv⟩, 60, 0⟩]) System.always
    [.worker 0 0, .worker 0 0, .worker 1 0, .worker 1 0, .worker 1 0, .callShutdown, .shutdown,
      .shutdown, .shutdown, .shutdown, .shutdown, .worker 1 0, .worker 1 0]
    (fun s => s.shutdown == .join 0 && s.workers 0 == .waiting && s.workers 1 == .left)
    (by decide +kernel)
  simp only [Bool.and_eq_true, beq_iff_eq] at hp
  obtain ⟨⟨hjoin, hwait⟩, -⟩ := hp
  have hposted : s.HasPosted := ⟨0, .inl hjoin⟩
  exact ⟨s, hr, hposted, hwait, (shutdown_strands_no_worker 2 _ hr).2.1 hposted 0 (by decide) hwait⟩

end Highp.Network
