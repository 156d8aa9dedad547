import Mathlib.Data.List.Basic

/-! `IocpIoMultiplexer::WorkerLoop`: one worker thread between
`GetQueuedCompletionStatus` and the completion handler. -/

namespace Highp.Network

inductive EIoType
  | accept
  | recv
  | send
  | disconnect
  deriving DecidableEq

/-- An `OverlappedBase` behind the returned pointer. -/
structure Overlapped where
  address : Nat
  ioType : EIoType
  deriving DecidableEq

/-- What one call of `GetQueuedCompletionStatus` returns, with the error that `GetLastError`
reports after it. -/
structure Dequeued where
  ok : Bool
  completionKey : Nat
  overlapped : Option Overlapped
  bytesTransferred : Nat
  lastError : Nat
  deriving DecidableEq

structure CompletionEvent where
  ioType : EIoType
  target : Option Nat
  overlapped : Option Overlapped
  bytesTransferred : Nat
  success : Bool
  errorCode : Nat
  deriving DecidableEq

def ERROR_OPERATION_ABORTED : Nat := 995

/-- The packet that `Shutdown` posts for every worker. -/
def Dequeued.isShutdown (r : Dequeued) : Bool :=
  r.completionKey == 0 && r.overlapped.isNone

/-- `isIoPendingCanceled`. -/
def Dequeued.isAborted (r : Dequeued) : Bool :=
  !r.ok && r.lastError == ERROR_OPERATION_ABORTED

/-- The event built from a result. Without an overlapped structure `ioType` keeps its zero
value. -/
def Dequeued.toEvent (r : Dequeued) : CompletionEvent where
  ioType := (r.overlapped.map Overlapped.ioType).getD .accept
  target := if r.completionKey = 0 then none else some r.completionKey
  overlapped := r.overlapped
  bytesTransferred := r.bytesTransferred
  success := r.ok
  errorCode := if r.ok then 0 else r.lastError

/-- What a worker does with a result: `none` breaks out of the loop. -/
def onDequeued (r : Dequeued) : Option CompletionEvent :=
  if r.isShutdown then none
  else if r.isAborted then none
  else some r.toEvent

/-- One round of the loop: the flags as the loop condition reads them, and the result. -/
structure LoopRound where
  stopRequested : Bool
  isRunning : Bool
  result : Dequeued

/-- Whether the worker has left the loop, and the events it passed to the handler. -/
structure LoopRun where
  left : Bool
  handled : List CompletionEvent
  deriving DecidableEq

/-- `WorkerLoop` over the rounds it gets. -/
def workerLoop (hasCompletionHandler : Bool) : List LoopRound → LoopRun
  | [] => ⟨false, []⟩
  | round :: rounds =>
    if round.stopRequested || !round.isRunning then ⟨true, []⟩
    else
      match onDequeued round.result with
      | none => ⟨true, []⟩
      | some event =>
        let run := workerLoop hasCompletionHandler rounds
        if hasCompletionHandler then { run with handled := event :: run.handled } else run

/-- The server runs: nobody asked the worker to stop, and the result is no shutdown packet. -/
def LoopRound.Ordinary (round : LoopRound) : Prop :=
  round.stopRequested = false ∧ round.isRunning = true ∧ round.result.isShutdown = false

instance (round : LoopRound) : Decidable round.Ordinary :=
  inferInstanceAs (Decidable (round.stopRequested = false ∧ round.isRunning = true ∧
    round.result.isShutdown = false))

/-- The worker is still in its loop and has handled every result once, in order. -/
def Survives (rounds : List LoopRound) : Prop :=
  workerLoop true rounds = ⟨false, rounds.map fun round => round.result.toEvent⟩

theorem onDequeued_eq_some {r : Dequeued} {e : CompletionEvent} :
    onDequeued r = some e ↔ r.isShutdown = false ∧ r.isAborted = false ∧ r.toEvent = e := by
  unfold onDequeued
  cases r.isShutdown with
  | true => simp
  | false =>
    cases r.isAborted with
    | true => simp
    | false => simp

/-- One ordinary round: an abort ends the loop, anything else is handled. -/
theorem survives_cons {round : LoopRound} {rounds : List LoopRound} (h : round.Ordinary) :
    Survives (round :: rounds) ↔ round.result.isAborted = false ∧ Survives rounds := by
  obtain ⟨hstop, hrun, hshut⟩ := h
  cases ha : round.result.isAborted with
  | true =>
    have hn : onDequeued round.result = none := by simp [onDequeued, hshut, ha]
    simp [Survives, workerLoop, hstop, hrun, hn]
  | false =>
    have he := onDequeued_eq_some.mpr ⟨hshut, ha, rfl⟩
    simp only [Survives, workerLoop, hstop, hrun, he]
    cases workerLoop true rounds with
    | mk left handled => simp

/-- **Which failures a worker survives.** While the server runs, a worker stays in its loop and
handles every completion once, exactly when none of them failed with the abort code. -/
theorem worker_survives_iff (rounds : List LoopRound) (h : ∀ round ∈ rounds, round.Ordinary) :
    Survives rounds ↔ ∀ round ∈ rounds, round.result.isAborted = false := by
  induction rounds with
  | nil => simp [Survives, workerLoop]
  | cons round rounds ih =>
    rw [survives_cons (h round (List.mem_cons_self ..)),
      ih fun r hr => h r (List.mem_cons_of_mem _ hr)]
    simp

/-- A receive, then one that failed because the peer is gone, then another receive. -/
def resetRounds : List LoopRound :=
  [⟨false, true, ⟨true, 4096, some ⟨4104, .recv⟩, 60, 0⟩⟩,
   ⟨false, true, ⟨false, 8192, some ⟨8200, .recv⟩, 0, 64⟩⟩,
   ⟨false, true, ⟨true, 4096, some ⟨4104, .recv⟩, 48, 0⟩⟩]

theorem worker_survives_reset : Survives resetRounds :=
  (worker_survives_iff resetRounds (by decide)).mpr (by decide)

/-- The receive that was pending when `Close` closed its socket, then a receive of another
client: the worker is gone, and neither is handled. -/
theorem worker_lost_on_abort :
    let rounds : List LoopRound :=
      [⟨false, true, ⟨false, 4096, some ⟨4104, .recv⟩, 0, ERROR_OPERATION_ABORTED⟩⟩,
       ⟨false, true, ⟨true, 8192, some ⟨8200, .recv⟩, 60, 0⟩⟩]
    (∀ round ∈ rounds, round.Ordinary) ∧
    workerLoop true rounds = ⟨true, []⟩ ∧ ¬ Survives rounds := by
  refine ⟨by decide, by decide, ?_⟩
  intro h
  cases h

end Highp.Network
