import Highp.Lib.Account
import Highp.Lib.Transition
import Highp.Network.WorkerLoop

/-! The gauges of `AtomicServerMetrics`. `PostAccept`, `PostRecv`, `PostSend` and `PushCommand` call
the metrics behind the operation; workers and the logic thread call them when they have taken a
completion or the commands. The kernel may report an operation, and the logic thread may drain a
command, before the thread that issued it has come to its callback. -/

namespace Highp.Metrics
open Highp.Lib Highp.Network

/-! ## `AtomicServerMetrics` -/

/-- `_pendingAcceptCount`, `_pendingRecvCount`, `_pendingSendCount` and `_dispatcherQueueLength`. -/
inductive Gauge
  | pendingAcceptCount
  | pendingRecvCount
  | pendingSendCount
  | dispatcherQueueLength
  deriving DecidableEq

/-- The totals that the same callbacks count. -/
inductive Counter
  | acceptTotal
  | recvPacketsTotal
  | recvBytesTotal
  | sendPacketsTotal
  | sendBytesTotal
  | sendFailTotal
  deriving DecidableEq

/-- A gauge is an `int64_t`, a total a `uint64_t`. -/
structure AtomicServerMetrics where
  gauge : Gauge → Int
  total : Counter → Nat

namespace AtomicServerMetrics

def new : AtomicServerMetrics := ⟨fun _ => 0, fun _ => 0⟩

/-- `Increment`. -/
def increment (m : AtomicServerMetrics) (value : Gauge) (delta : Int) : AtomicServerMetrics :=
  { m with gauge := Function.update m.gauge value (int64 (m.gauge value + delta)) }

/-- `Decrement`. -/
def decrement (m : AtomicServerMetrics) (value : Gauge) (delta : Int) : AtomicServerMetrics :=
  { m with gauge := Function.update m.gauge value (int64 (m.gauge value - delta)) }

/-- `fetch_add` on a total. -/
def fetchAdd (m : AtomicServerMetrics) (value : Counter) (delta : Nat) : AtomicServerMetrics :=
  { m with total := Function.update m.total value ((m.total value + delta) % 2 ^ 64) }

@[simp] theorem increment_gauge (m : AtomicServerMetrics) (value g : Gauge) (delta : Int) :
    (m.increment value delta).gauge g =
      if g = value then int64 (m.gauge g + delta) else m.gauge g := by
  by_cases hg : g = value
  · subst hg
    simp [increment]
  · simp [increment, hg]

@[simp] theorem decrement_gauge (m : AtomicServerMetrics) (value g : Gauge) (delta : Int) :
    (m.decrement value delta).gauge g =
      if g = value then int64 (m.gauge g - delta) else m.gauge g := by
  by_cases hg : g = value
  · subst hg
    simp [decrement]
  · simp [decrement, hg]

@[simp] theorem fetchAdd_gauge (m : AtomicServerMetrics) (value : Counter) (delta : Nat) :
    (m.fetchAdd value delta).gauge = m.gauge := rfl

def onAcceptPosted (m : AtomicServerMetrics) : AtomicServerMetrics :=
  m.increment .pendingAcceptCount 1

def onAcceptPostFailed (m : AtomicServerMetrics) : AtomicServerMetrics := m

def onAcceptCompleted (m : AtomicServerMetrics) : AtomicServerMetrics :=
  (m.decrement .pendingAcceptCount 1).fetchAdd .acceptTotal 1

def onAcceptCompletionFailed (m : AtomicServerMetrics) : AtomicServerMetrics :=
  m.decrement .pendingAcceptCount 1

def onRecvPosted (m : AtomicServerMetrics) : AtomicServerMetrics := m.increment .pendingRecvCount 1

def onRecvPostFailed (m : AtomicServerMetrics) : AtomicServerMetrics := m

def onRecvCompleted (m : AtomicServerMetrics) (bytesTransferred : Nat) (countPayload : Bool) :
    AtomicServerMetrics :=
  let m := m.decrement .pendingRecvCount 1
  if !countPayload then m
  else (m.fetchAdd .recvPacketsTotal 1).fetchAdd .recvBytesTotal bytesTransferred

def onSendPosted (m : AtomicServerMetrics) : AtomicServerMetrics := m.increment .pendingSendCount 1

def onSendPostFailed (m : AtomicServerMetrics) : AtomicServerMetrics := m.fetchAdd .sendFailTotal 1

def onSendCompleted (m : AtomicServerMetrics) (bytesTransferred : Nat) (countPayload : Bool) :
    AtomicServerMetrics :=
  let m := m.decrement .pendingSendCount 1
  if !countPayload then m
  else (m.fetchAdd .sendPacketsTotal 1).fetchAdd .sendBytesTotal bytesTransferred

/-- The `size_t` is cast to `int64_t`. -/
def onQueuePushed (m : AtomicServerMetrics) (count : Nat) : AtomicServerMetrics :=
  m.increment .dispatcherQueueLength (int64 count)

def onQueueDrained (m : AtomicServerMetrics) (count : Nat) : AtomicServerMetrics :=
  m.decrement .dispatcherQueueLength (int64 count)

end AtomicServerMetrics

/-! ## `TakeSnapshot` -/

inductive Field
  | total (value : Counter)
  | gauge (value : Gauge)
  deriving DecidableEq

structure ServerMetricsSnapshot where
  gauge : Gauge → Int
  total : Counter → Nat

/-- `snapshot{}`. -/
def ServerMetricsSnapshot.empty : ServerMetricsSnapshot := ⟨fun _ => 0, fun _ => 0⟩

/-- One `load` of `TakeSnapshot`. -/
def ServerMetricsSnapshot.load (snapshot : ServerMetricsSnapshot) (m : AtomicServerMetrics) :
    Field → ServerMetricsSnapshot
  | .total value => { snapshot with total := Function.update snapshot.total value (m.total value) }
  | .gauge value => { snapshot with gauge := Function.update snapshot.gauge value (m.gauge value) }

/-- The fields in the order of the source. -/
def snapshotFields : List Field :=
  [.total .acceptTotal, .total .recvPacketsTotal, .total .sendPacketsTotal, .total .recvBytesTotal,
   .total .sendBytesTotal, .total .sendFailTotal, .gauge .pendingAcceptCount,
   .gauge .pendingRecvCount, .gauge .pendingSendCount, .gauge .dispatcherQueueLength]

/-! ## What the threads do -/

/-- What a thread has to do next: a call of a function, or a callback into the metrics. -/
inductive Act
  /-- `PostAccept`; `PostAccepts` has so many more to make. -/
  | postAccept (more : Nat)
  | onAcceptPosted
  | onAcceptPostFailed
  | onAcceptComplete
  | onAcceptCompleted
  | onAcceptCompletionFailed
  | setupClient
  /-- `PostRecv`; behind the one of `SetupClient` comes `OnAccept`. -/
  | postRecv (setup : Bool)
  | onRecvPosted
  | onRecvPostFailed
  | onRecvCompleted (bytesTransferred : Nat) (countPayload : Bool)
  | postSend
  | onSendPosted
  | onSendPostFailed
  | onSendCompleted (bytesTransferred : Nat) (countPayload : Bool)
  /-- `OnAccept`, `OnRecv`, `OnSend` or `OnDisconnect`, or a handler that `Tick` calls. -/
  | application
  | pushCommand
  | onQueuePushed (count : Nat)
  | drainTo
  | onQueueDrained (count : Nat)
  /-- Out of `WorkerLoop`. -/
  | left
  deriving DecidableEq

/-- What the application calls: the echo server posts, `Receive` pushes, handlers send. -/
inductive AppCall
  | postRecv
  | postSend
  | pushCommand
  deriving DecidableEq

def AppCall.act : AppCall → Act
  | .postRecv => .postRecv false
  | .postSend => .postSend
  | .pushCommand => .pushCommand

/-- How the calls of a step end. `ready`: `PostAccept` has got its socket, `OnAcceptComplete` has
released the overlapped object and updated the context, `SetupClient` has got a slot and associated
the socket. `posted`: `AcceptEx`, `WSARecv` or `WSASend` has taken the operation. -/
structure Answers where
  ready : Bool
  posted : Bool
  calls : List AppCall

/-- `pending` counts the operations that the kernel has not reported, `queue` the commands.
Thread 0 starts and stops the server, thread 1 is the logic thread, the others are workers; another
thread takes snapshots, and has the fields `toLoad` before it. -/
structure Metered where
  metrics : AtomicServerMetrics
  pending : EIoType → Nat
  queue : Nat
  /-- `_acceptor` has not been reset. -/
  acceptor : Bool
  threads : List (List Act)
  snapshot : ServerMetricsSnapshot
  toLoad : List Field
  snapshots : List ServerMetricsSnapshot

namespace Metered

def issue (s : Metered) (ioType : EIoType) : Metered :=
  { s with pending := Function.update s.pending ioType (s.pending ioType + 1) }

/-- One act of a thread, with what it has to do before the rest. -/
def perform (s : Metered) (ans : Answers) : Act → Metered × List Act
  | .postAccept more =>
    if ans.ready && ans.posted then
      (s.issue .accept, .onAcceptPosted :: match more with
        | 0 => []
        | more + 1 => [.postAccept more])
    else (s, [.onAcceptPostFailed])
  | .onAcceptPosted => ({ s with metrics := s.metrics.onAcceptPosted }, [])
  | .onAcceptPostFailed => ({ s with metrics := s.metrics.onAcceptPostFailed }, [])
  | .onAcceptComplete =>
    (s, if ans.ready then [.setupClient, .onAcceptCompleted, .postAccept 0]
      else [.onAcceptCompletionFailed])
  | .onAcceptCompleted => ({ s with metrics := s.metrics.onAcceptCompleted }, [])
  | .onAcceptCompletionFailed => ({ s with metrics := s.metrics.onAcceptCompletionFailed }, [])
  | .setupClient => (s, if ans.ready then [.postRecv true] else [])
  | .postRecv setup =>
    if ans.posted then (s.issue .recv, .onRecvPosted :: if setup then [.application] else [])
    else (s, [.onRecvPostFailed])
  | .onRecvPosted => ({ s with metrics := s.metrics.onRecvPosted }, [])
  | .onRecvPostFailed => ({ s with metrics := s.metrics.onRecvPostFailed }, [])
  | .onRecvCompleted bytesTransferred countPayload =>
    ({ s with metrics := s.metrics.onRecvCompleted bytesTransferred countPayload }, [])
  | .postSend =>
    if ans.posted then (s.issue .send, [.onSendPosted]) else (s, [.onSendPostFailed])
  | .onSendPosted => ({ s with metrics := s.metrics.onSendPosted }, [])
  | .onSendPostFailed => ({ s with metrics := s.metrics.onSendPostFailed }, [])
  | .onSendCompleted bytesTransferred countPayload =>
    ({ s with metrics := s.metrics.onSendCompleted bytesTransferred countPayload }, [])
  | .application => (s, ans.calls.map AppCall.act)
  | .pushCommand => ({ s with queue := s.queue + 1 }, [.onQueuePushed 1])
  | .onQueuePushed count => ({ s with metrics := s.metrics.onQueuePushed count }, [])
  | .drainTo =>
    ({ s with queue := 0 }, .onQueueDrained s.queue :: List.replicate s.queue .application)
  | .onQueueDrained count => ({ s with metrics := s.metrics.onQueueDrained count }, [])
  | .left => (s, [.left])

end Metered

/-! ## Completions -/

/-- `HandleRecv`. -/
def handleRecv (event : CompletionEvent) : List Act :=
  if event.target.isNone then []
  else
    .onRecvCompleted event.bytesTransferred (event.success && event.bytesTransferred > 0) ::
      if !event.success || event.bytesTransferred == 0 then [.application]
      else [.application, .postRecv false]

/-- `HandleSend`. -/
def handleSend (event : CompletionEvent) : List Act :=
  if event.target.isNone then []
  else
    [.onSendCompleted event.bytesTransferred (event.success && event.bytesTransferred > 0),
     .application]

/-- `OnCompletion`. -/
def onCompletion (acceptor : Bool) (event : CompletionEvent) : List Act :=
  match event.ioType with
  | .accept => if acceptor then [.onAcceptComplete] else []
  | .recv => handleRecv event
  | .send => handleSend event
  | .disconnect => []

/-- A worker with a result in its hands. -/
def onResult (acceptor : Bool) (r : Dequeued) : List Act :=
  match onDequeued r with
  | none => [.left]
  | some event => onCompletion acceptor event

/-- The result of an operation: the completion key of the listen socket is 0, and that of a client
the address of its `Client`. -/
def Dequeued.reports (r : Dequeued) (ioType : EIoType) : Bool :=
  (r.overlapped.map Overlapped.ioType == some ioType) &&
    ((r.completionKey == 0) == (ioType == .accept))

/-! ## The system -/

inductive MeterLabel
  /-- `Start` calls `PostAccepts`. -/
  | start (backlog : Nat)
  /-- `Stop` resets the acceptor. -/
  | stop
  /-- The logic thread calls `Tick`. -/
  | tick
  /-- A worker dequeues the result of an operation. -/
  | dequeue (th : Nat) (ioType : EIoType) (result : Dequeued)
  /-- A worker gets a shutdown packet or sees that it shall stop. -/
  | leave (th : Nat)
  /-- A thread goes on. -/
  | act (th : Nat) (ans : Answers)
  /-- `TakeSnapshot` is called, and loads one field after the other. -/
  | takeSnapshot
  | load

namespace Metered

def new (workerCount : Nat) : Metered where
  metrics := .new
  pending _ := 0
  queue := 0
  acceptor := true
  threads := List.replicate (2 + workerCount) []
  snapshot := .empty
  toLoad := []
  snapshots := []

def isIdle (s : Metered) (th : Nat) : Bool := s.threads[th]? == some []

def setThread (s : Metered) (th : Nat) (acts : List Act) : Metered :=
  { s with threads := s.threads.set th acts }

def step (s : Metered) : MeterLabel → Option Metered
  | .start backlog =>
    if s.isIdle 0 then
      some (s.setThread 0 (match backlog with
        | 0 => []
        | more + 1 => [.postAccept more]))
    else none
  | .stop => if s.isIdle 0 then some { s with acceptor := false } else none
  | .tick => if s.isIdle 1 then some (s.setThread 1 [.drainTo]) else none
  | .dequeue th ioType result =>
    if 2 ≤ th && s.isIdle th && 0 < s.pending ioType && Dequeued.reports result ioType then
      some ({ s with pending := Function.update s.pending ioType (s.pending ioType - 1) }.setThread
        th (onResult s.acceptor result))
    else none
  | .leave th => if 2 ≤ th && s.isIdle th then some (s.setThread th [.left]) else none
  | .act th ans =>
    match s.threads[th]? with
    | some (act :: acts) =>
      some ((s.perform ans act).1.setThread th ((s.perform ans act).2 ++ acts))
    | _ => none
  | .takeSnapshot =>
    if s.toLoad.isEmpty then some { s with snapshot := .empty, toLoad := snapshotFields } else none
  | .load =>
    match s.toLoad with
    | [] => none
    | [field] =>
      some { s with toLoad := [], snapshots := s.snapshots ++ [s.snapshot.load s.metrics field] }
    | field :: rest => some { s with snapshot := s.snapshot.load s.metrics field, toLoad := rest }

end Metered

def meteredServer (workerCount : Nat) : System Metered MeterLabel where
  start := .new workerCount
  step := Metered.step

/-! ## What is open, and what the metrics have not been told -/

/-- The operations that were issued and not completed, or the commands queued. -/
def Metered.outstanding (s : Metered) : Gauge → Nat
  | .pendingAcceptCount => s.pending .accept
  | .pendingRecvCount => s.pending .recv
  | .pendingSendCount => s.pending .send
  | .dispatcherQueueLength => s.queue

/-- No thread is inside a handler. -/
def Metered.Quiet (s : Metered) : Prop := ∀ acts ∈ s.threads, acts = [] ∨ acts = [.left]

instance (s : Metered) : Decidable s.Quiet :=
  inferInstanceAs (Decidable (∀ acts ∈ s.threads, acts = [] ∨ acts = [.left]))

/-- What a callback is going to add to a gauge. -/
def Act.posts (gauge : Gauge) : Act → Nat
  | .onAcceptPosted => if gauge = .pendingAcceptCount then 1 else 0
  | .onRecvPosted => if gauge = .pendingRecvCount then 1 else 0
  | .onSendPosted => if gauge = .pendingSendCount then 1 else 0
  | .onQueuePushed count => if gauge = .dispatcherQueueLength then count else 0
  | _ => 0

/-- What an act is going to take from a gauge in the end. -/
def Act.clears (gauge : Gauge) : Act → Nat
  | .onAcceptComplete => if gauge = .pendingAcceptCount then 1 else 0
  | .onAcceptCompleted => if gauge = .pendingAcceptCount then 1 else 0
  | .onAcceptCompletionFailed => if gauge = .pendingAcceptCount then 1 else 0
  | .onRecvCompleted _ _ => if gauge = .pendingRecvCount then 1 else 0
  | .onSendCompleted _ _ => if gauge = .pendingSendCount then 1 else 0
  | .onQueueDrained count => if gauge = .dispatcherQueueLength then count else 0
  | _ => 0

/-- The operation that an act may issue. -/
def Act.issues : Act → Option Gauge
  | .postAccept _ => some .pendingAcceptCount
  | .postRecv _ => some .pendingRecvCount
  | .postSend => some .pendingSendCount
  | .pushCommand => some .dispatcherQueueLength
  | _ => none

def EIoType.gauge : EIoType → Option Gauge
  | .accept => some .pendingAcceptCount
  | .recv => some .pendingRecvCount
  | .send => some .pendingSendCount
  | .disconnect => none

/-- Callbacks behind operations that were issued, and callbacks behind completions. -/
def Metered.unposted (s : Metered) (gauge : Gauge) : Nat := owed (Act.posts gauge) s.threads
def Metered.uncleared (s : Metered) (gauge : Gauge) : Nat := owed (Act.clears gauge) s.threads

def Metered.account (s : Metered) (gauge : Gauge) : Account :=
  ⟨s.metrics.gauge gauge, s.outstanding gauge, s.unposted gauge, s.uncleared gauge⟩

/-- A completion is taken only when a pending operation of its kind has been told to the metrics,
and commands are drained when all have been. No completion is dropped: none carries the abort code,
and accepts are dequeued only while there is an acceptor. There are fewer than `2 ^ 63` operations
of a kind. -/
def CountsInTurn (s : Metered) : MeterLabel → Bool
  | .dequeue _ ioType result =>
    !result.isAborted && (ioType != .accept || s.acceptor) &&
      match EIoType.gauge ioType with
      | some gauge => decide (s.unposted gauge < s.outstanding gauge)
      | none => true
  | .act th _ =>
    match s.threads[th]? with
    | some (.drainTo :: _) => s.unposted .dispatcherQueueLength == 0
    | some (act :: _) =>
      match act.issues with
      | some gauge => decide (s.outstanding gauge + s.uncleared gauge + 1 < 2 ^ 63)
      | none => true
    | _ => true
  | _ => true

/-! ## Inversion -/

/-- The steps, one constructor for each way a step can go. -/
inductive MeterStep (s : Metered) : MeterLabel → Metered → Prop
  | startNone : s.isIdle 0 = true → MeterStep s (.start 0) (s.setThread 0 [])
  | start {more} : s.isIdle 0 = true →
      MeterStep s (.start (more + 1)) (s.setThread 0 [.postAccept more])
  | stop : MeterStep s .stop { s with acceptor := false }
  | tick : s.isIdle 1 = true → MeterStep s .tick (s.setThread 1 [.drainTo])
  | dequeue {th ioType result} : s.isIdle th = true → 0 < s.pending ioType →
      Dequeued.reports result ioType = true →
      MeterStep s (.dequeue th ioType result)
        ({ s with pending := Function.update s.pending ioType (s.pending ioType - 1) }.setThread
          th (onResult s.acceptor result))
  | leave {th} : s.isIdle th = true → MeterStep s (.leave th) (s.setThread th [.left])
  | act {th ans act rest} : s.threads[th]? = some (act :: rest) →
      MeterStep s (.act th ans)
        ((s.perform ans act).1.setThread th ((s.perform ans act).2 ++ rest))
  | takeSnapshot :
      MeterStep s .takeSnapshot { s with snapshot := .empty, toLoad := snapshotFields }
  | loadLast {field} : s.toLoad = [field] →
      MeterStep s .load { s with
        toLoad := [], snapshots := s.snapshots ++ [s.snapshot.load s.metrics field] }
  | load {field rest} : s.toLoad = field :: rest →
      MeterStep s .load { s with snapshot := s.snapshot.load s.metrics field, toLoad := rest }

theorem meterStep_inv {s t : Metered} {l : MeterLabel} (hs : s.step l = some t) :
    MeterStep s l t := by
  cases l with
  | start backlog =>
    simp only [Metered.step, Option.ite_none_right_eq_some, Option.some.injEq] at hs
    obtain ⟨hidle, rfl⟩ := hs
    cases backlog with
    | zero => exact .startNone hidle
    | succ more => exact .start hidle
  | stop =>
    simp only [Metered.step, Option.ite_none_right_eq_some, Option.some.injEq] at hs
    obtain ⟨-, rfl⟩ := hs
    exact .stop
  | tick =>
    simp only [Metered.step, Option.ite_none_right_eq_some, Option.some.injEq] at hs
    obtain ⟨hidle, rfl⟩ := hs
    exact .tick hidle
  | dequeue th ioType result =>
    simp only [Metered.step, Option.ite_none_right_eq_some, Option.some.injEq, Bool.and_eq_true,
      decide_eq_true_eq] at hs
    obtain ⟨⟨⟨⟨-, hidle⟩, hpos⟩, hreports⟩, rfl⟩ := hs
    exact .dequeue hidle hpos hreports
  | leave th =>
    simp only [Metered.step, Option.ite_none_right_eq_some, Option.some.injEq,
      Bool.and_eq_true] at hs
    obtain ⟨⟨-, hidle⟩, rfl⟩ := hs
    exact .leave hidle
  | act th ans =>
    simp only [Metered.step] at hs
    split at hs
    · rename_i act rest hth
      cases hs
      exact .act hth
    · simp at hs
  | takeSnapshot =>
    simp only [Metered.step, Option.ite_none_right_eq_some, Option.some.injEq] at hs
    obtain ⟨-, rfl⟩ := hs
    exact .takeSnapshot
  | load =>
    simp only [Metered.step] at hs
    split at hs
    · simp at hs
    · rename_i field hload
      cases hs
      exact .loadLast hload
    · rename_i field rest _ hload
      cases hs
      exact .load hload

/-! ## One act -/

section
variable {s t : Metered} {th : Nat} {act : Act} {new rest : List Act} {g : Gauge}

/-- What is owed after one act. -/
theorem owed_act (f : Act → Nat) (new : List Act) (hth : s.threads[th]? = some (act :: rest))
    (ht : t.threads = s.threads) :
    owed f (t.setThread th (new ++ rest)).threads + f act = owed f s.threads + (new.map f).sum := by
  have h := owed_set f hth (new ++ rest)
  simp only [List.map_cons, List.sum_cons, List.map_append, List.sum_append] at h
  simp only [Metered.setThread, ht]
  omega

theorem unposted_act (new : List Act) (hth : s.threads[th]? = some (act :: rest))
    (ht : t.threads = s.threads) (g : Gauge) :
    (t.setThread th (new ++ rest)).unposted g + act.posts g =
      s.unposted g + (new.map (Act.posts g)).sum :=
  owed_act (Act.posts g) new hth ht

theorem uncleared_act (new : List Act) (hth : s.threads[th]? = some (act :: rest))
    (ht : t.threads = s.threads) (g : Gauge) :
    (t.setThread th (new ++ rest)).uncleared g + act.clears g =
      s.uncleared g + (new.map (Act.clears g)).sum :=
  owed_act (Act.clears g) new hth ht

/-- An act that neither issues nor reports anything. -/
theorem account_keep (hth : s.threads[th]? = some (act :: rest)) (ht : t.threads = s.threads)
    (hgauge : t.metrics.gauge = s.metrics.gauge) (hout : t.outstanding g = s.outstanding g)
    (hposts : (new.map (Act.posts g)).sum = act.posts g)
    (hclears : (new.map (Act.clears g)).sum = act.clears g) :
    (s.account g).Move ((t.setThread th (new ++ rest)).account g) := by
  have hu := unposted_act new hth ht g
  have hc := uncleared_act new hth ht g
  have hunposted : (t.setThread th (new ++ rest)).unposted g = s.unposted g := by omega
  have huncleared : (t.setThread th (new ++ rest)).uncleared g = s.uncleared g := by omega
  exact .stay (congrFun hgauge g) hout hunposted huncleared

/-- An act that issues one operation of a kind. -/
theorem account_open (kind : Gauge) (hth : s.threads[th]? = some (act :: rest))
    (ht : t.threads = s.threads) (hgauge : t.metrics.gauge = s.metrics.gauge)
    (hout : t.outstanding g = s.outstanding g + if g = kind then 1 else 0)
    (hposts : (new.map (Act.posts g)).sum = act.posts g + if g = kind then 1 else 0)
    (hclears : (new.map (Act.clears g)).sum = act.clears g)
    (hroom : s.outstanding kind + s.uncleared kind + 1 < 2 ^ 63) :
    (s.account g).Move ((t.setThread th (new ++ rest)).account g) := by
  have hu := unposted_act new hth ht g
  have hc := uncleared_act new hth ht g
  have huncleared : (t.setThread th (new ++ rest)).uncleared g = s.uncleared g := by omega
  by_cases hg : g = kind
  · subst hg
    rw [if_pos rfl] at hout hposts
    have hunposted : (t.setThread th (new ++ rest)).unposted g = s.unposted g + 1 := by omega
    exact .opening 1 (congrFun hgauge g) hout hunposted huncleared hroom
  · rw [if_neg hg] at hout hposts
    have hunposted : (t.setThread th (new ++ rest)).unposted g = s.unposted g := by omega
    exact .stay (congrFun hgauge g) hout hunposted huncleared

/-- A callback behind an operation. -/
theorem account_post (kind : Gauge) (n : Nat) (hth : s.threads[th]? = some (act :: rest))
    (ht : t.threads = s.threads)
    (hgauge : t.metrics.gauge g = if g = kind then int64 (s.metrics.gauge g + n)
      else s.metrics.gauge g)
    (hout : t.outstanding g = s.outstanding g) (hposts : act.posts g = if g = kind then n else 0)
    (hclears : act.clears g = 0) :
    (s.account g).Move ((t.setThread th ([] ++ rest)).account g) := by
  have hu := unposted_act [] hth ht g
  have hc := uncleared_act [] hth ht g
  rw [List.map_nil, List.sum_nil] at hu hc
  have huncleared : (t.setThread th ([] ++ rest)).uncleared g = s.uncleared g := by omega
  by_cases hg : g = kind
  · rw [if_pos hg] at hgauge hposts
    have hunposted : (t.setThread th ([] ++ rest)).unposted g + n = s.unposted g := by omega
    exact .post n hgauge hout hunposted huncleared
  · rw [if_neg hg] at hgauge hposts
    have hunposted : (t.setThread th ([] ++ rest)).unposted g = s.unposted g := by omega
    exact .stay hgauge hout hunposted huncleared

/-- A callback behind a completion. -/
theorem account_clear (kind : Gauge) (n : Nat) (hth : s.threads[th]? = some (act :: rest))
    (ht : t.threads = s.threads)
    (hgauge : t.metrics.gauge g = if g = kind then int64 (s.metrics.gauge g - n)
      else s.metrics.gauge g)
    (hout : t.outstanding g = s.outstanding g) (hposts : act.posts g = 0)
    (hclears : act.clears g = if g = kind then n else 0) :
    (s.account g).Move ((t.setThread th ([] ++ rest)).account g) := by
  have hu := unposted_act [] hth ht g
  have hc := uncleared_act [] hth ht g
  rw [List.map_nil, List.sum_nil] at hu hc
  have hunposted : (t.setThread th ([] ++ rest)).unposted g = s.unposted g := by omega
  by_cases hg : g = kind
  · rw [if_pos hg] at hgauge hclears
    have huncleared : (t.setThread th ([] ++ rest)).uncleared g + n = s.uncleared g := by omega
    exact .clear n hgauge hout hunposted huncleared
  · rw [if_neg hg] at hgauge hclears
    have huncleared : (t.setThread th ([] ++ rest)).uncleared g = s.uncleared g := by omega
    exact .stay hgauge hout hunposted huncleared

/-- `DrainTo`. -/
theorem account_drain (hth : s.threads[th]? = some (.drainTo :: rest)) (ans : Answers)
    (hposted : s.unposted .dispatcherQueueLength = 0) :
    (s.account g).Move (((s.perform ans .drainTo).1.setThread th
      ((s.perform ans .drainTo).2 ++ rest)).account g) := by
  have hu := unposted_act (s.perform ans .drainTo).2 hth (t := (s.perform ans .drainTo).1) rfl g
  have hc := uncleared_act (s.perform ans .drainTo).2 hth (t := (s.perform ans .drainTo).1) rfl g
  simp only [Metered.perform, List.map_cons, List.map_replicate, List.sum_cons,
    List.sum_replicate, Act.posts, Act.clears, nsmul_zero] at hu hc
  by_cases hg : g = .dispatcherQueueLength
  · subst hg
    rw [if_pos rfl] at hc
    refine .closing s.queue rfl ?_ hu hc ?_
    · simp [Metered.account, Metered.perform, Metered.outstanding, Metered.setThread]
    · simp [Metered.account, Metered.outstanding, hposted]
  · rw [if_neg hg] at hc
    refine .stay rfl ?_ hu hc
    cases g with
    | dispatcherQueueLength => exact absurd rfl hg
    | pendingAcceptCount => rfl
    | pendingRecvCount => rfl
    | pendingSendCount => rfl

theorem outstanding_issue (s : Metered) {ioType : EIoType} {kind : Gauge}
    (hkind : EIoType.gauge ioType = some kind) (g : Gauge) :
    (s.issue ioType).outstanding g = s.outstanding g + if g = kind then 1 else 0 := by
  cases ioType with
  | disconnect => simp [EIoType.gauge] at hkind
  | accept =>
    cases hkind
    cases g <;> simp [Metered.issue, Metered.outstanding]
  | recv =>
    cases hkind
    cases g <;> simp [Metered.issue, Metered.outstanding]
  | send =>
    cases hkind
    cases g <;> simp [Metered.issue, Metered.outstanding]

theorem sum_application {f : Act → Nat} (hf : ∀ call : AppCall, f call.act = 0)
    (calls : List AppCall) : ((calls.map AppCall.act).map f).sum = 0 := by
  induction calls with
  | nil => rfl
  | cons call calls ih => rw [List.map_cons, List.map_cons, List.sum_cons, hf, ih]

/-- **One act.** It moves every account, each in one of the five ways. -/
theorem perform_move (ans : Answers) (hth : s.threads[th]? = some (act :: rest))
    (hok : CountsInTurn s (.act th ans) = true) (g : Gauge) :
    (s.account g).Move
      (((s.perform ans act).1.setThread th ((s.perform ans act).2 ++ rest)).account g) := by
  cases act with
  | postAccept more =>
    simp only [CountsInTurn, hth, Act.issues, decide_eq_true_eq] at hok
    simp only [Metered.perform]
    split
    · refine account_open .pendingAcceptCount hth rfl rfl (outstanding_issue s rfl g) ?_ ?_ hok
      · cases more <;> simp [Act.posts]
      · cases more <;> simp [Act.clears]
    · exact account_keep hth rfl rfl rfl rfl rfl
  | postRecv setup =>
    simp only [CountsInTurn, hth, Act.issues, decide_eq_true_eq] at hok
    simp only [Metered.perform]
    split
    · refine account_open .pendingRecvCount hth rfl rfl (outstanding_issue s rfl g) ?_ ?_ hok
      · cases setup <;> simp [Act.posts]
      · cases setup <;> simp [Act.clears]
    · exact account_keep hth rfl rfl rfl rfl rfl
  | postSend =>
    simp only [CountsInTurn, hth, Act.issues, decide_eq_true_eq] at hok
    simp only [Metered.perform]
    split
    · exact account_open .pendingSendCount hth rfl rfl (outstanding_issue s rfl g)
        (by simp [Act.posts]) (by simp [Act.clears]) hok
    · exact account_keep hth rfl rfl rfl rfl rfl
  | pushCommand =>
    simp only [CountsInTurn, hth, Act.issues, decide_eq_true_eq] at hok
    refine account_open .dispatcherQueueLength hth rfl rfl ?_ (by simp [Metered.perform, Act.posts])
      (by simp [Metered.perform, Act.clears]) hok
    cases g <;> rfl
  | onAcceptPosted =>
    exact account_post .pendingAcceptCount 1 hth rfl
      (AtomicServerMetrics.increment_gauge _ _ _ _) rfl rfl rfl
  | onRecvPosted =>
    exact account_post .pendingRecvCount 1 hth rfl
      (AtomicServerMetrics.increment_gauge _ _ _ _) rfl rfl rfl
  | onSendPosted =>
    exact account_post .pendingSendCount 1 hth rfl
      (AtomicServerMetrics.increment_gauge _ _ _ _) rfl rfl rfl
  | onQueuePushed count =>
    refine account_post .dispatcherQueueLength count hth rfl ?_ rfl rfl rfl
    simp [Metered.perform, AtomicServerMetrics.onQueuePushed, int64]
  | onAcceptCompleted =>
    refine account_clear .pendingAcceptCount 1 hth rfl ?_ rfl rfl rfl
    simp [Metered.perform, AtomicServerMetrics.onAcceptCompleted]
  | onAcceptCompletionFailed =>
    exact account_clear .pendingAcceptCount 1 hth rfl
      (AtomicServerMetrics.decrement_gauge _ _ _ _) rfl rfl rfl
  | onRecvCompleted bytesTransferred countPayload =>
    refine account_clear .pendingRecvCount 1 hth rfl ?_ rfl rfl rfl
    cases countPayload <;> simp [Metered.perform, AtomicServerMetrics.onRecvCompleted]
  | onSendCompleted bytesTransferred countPayload =>
    refine account_clear .pendingSendCount 1 hth rfl ?_ rfl rfl rfl
    cases countPayload <;> simp [Metered.perform, AtomicServerMetrics.onSendCompleted]
  | onQueueDrained count =>
    refine account_clear .dispatcherQueueLength count hth rfl ?_ rfl rfl rfl
    simp [Metered.perform, AtomicServerMetrics.onQueueDrained, int64]
  | drainTo =>
    simp only [CountsInTurn, hth, beq_iff_eq] at hok
    exact account_drain hth ans hok
  | onAcceptComplete =>
    simp only [Metered.perform]
    split
    · exact account_keep hth rfl rfl rfl (by simp [Act.posts]) (by simp [Act.clears])
    · exact account_keep hth rfl rfl rfl (by simp [Act.posts]) (by simp [Act.clears])
  | setupClient =>
    simp only [Metered.perform]
    split
    · exact account_keep hth rfl rfl rfl rfl rfl
    · exact account_keep hth rfl rfl rfl rfl rfl
  | application =>
    refine account_keep hth rfl rfl rfl (sum_application (fun call => ?_) ans.calls)
      (sum_application (fun call => ?_) ans.calls)
    · cases call <;> rfl
    · cases call <;> rfl
  | onAcceptPostFailed => exact account_keep hth rfl rfl rfl rfl rfl
  | onRecvPostFailed => exact account_keep hth rfl rfl rfl rfl rfl
  | onSendPostFailed => exact account_keep hth rfl rfl rfl rfl rfl
  | left => exact account_keep hth rfl rfl rfl rfl rfl

/-! ## One step -/

/-- A thread that was idle gets something to do. -/
theorem owed_begin (f : Act → Nat) (hidle : s.isIdle th = true) (acts : List Act) :
    owed f (s.threads.set th acts) = owed f s.threads + (acts.map f).sum := by
  have h := owed_set f (beq_iff_eq.mp hidle) acts
  rwa [List.map_nil, List.sum_nil, Nat.add_zero] at h

theorem account_begin (hidle : s.isIdle th = true) {acts : List Act}
    (hposts : (acts.map (Act.posts g)).sum = 0) (hclears : (acts.map (Act.clears g)).sum = 0) :
    (s.account g).Move ((s.setThread th acts).account g) := by
  have hu := owed_begin (Act.posts g) hidle acts
  have hc := owed_begin (Act.clears g) hidle acts
  rw [hposts, Nat.add_zero] at hu
  rw [hclears, Nat.add_zero] at hc
  exact .stay rfl rfl hu hc

/-- What a worker does with the result of an operation that it does not drop. -/
theorem onResult_weights {acceptor : Bool} {r : Dequeued} {ioType : EIoType}
    (hreports : Dequeued.reports r ioType = true) (habort : r.isAborted = false)
    (hacceptor : ioType = .accept → acceptor = true) (g : Gauge) :
    ((onResult acceptor r).map (Act.posts g)).sum = 0 ∧
      ((onResult acceptor r).map (Act.clears g)).sum =
        if EIoType.gauge ioType = some g then 1 else 0 := by
  simp only [Dequeued.reports, Bool.and_eq_true, beq_iff_eq, Option.map_eq_some_iff] at hreports
  obtain ⟨⟨o, ho, hio⟩, hkey⟩ := hreports
  have hevent : onDequeued r = some r.toEvent :=
    onDequeued_eq_some.mpr ⟨by simp [Dequeued.isShutdown, ho], habort, rfl⟩
  have hioType : r.toEvent.ioType = ioType := by simp [Dequeued.toEvent, ho, hio]
  simp only [onResult, hevent, onCompletion, hioType]
  have htarget : ioType ≠ .accept → r.toEvent.target.isNone = false := by
    intro hne
    have hz : r.completionKey ≠ 0 := by simpa [hne] using hkey
    simp [Dequeued.toEvent, hz]
  cases ioType with
  | accept =>
    rw [if_pos (hacceptor rfl)]
    cases g <;> simp [Act.posts, Act.clears, EIoType.gauge]
  | recv =>
    simp only [handleRecv, htarget (by simp), Bool.false_eq_true, if_false]
    split
    · cases g <;> simp [Act.posts, Act.clears, EIoType.gauge]
    · cases g <;> simp [Act.posts, Act.clears, EIoType.gauge]
  | send =>
    simp only [handleSend, htarget (by simp), Bool.false_eq_true, if_false]
    cases g <;> simp [Act.posts, Act.clears, EIoType.gauge]
  | disconnect => simp [EIoType.gauge]

theorem outstanding_dequeue (s : Metered) (ioType : EIoType) (hpos : 0 < s.pending ioType)
    (g : Gauge) :
    Metered.outstanding { s with
        pending := Function.update s.pending ioType (s.pending ioType - 1) } g +
      (if EIoType.gauge ioType = some g then 1 else 0) = s.outstanding g := by
  cases ioType <;> cases g <;> simp [Metered.outstanding, EIoType.gauge] <;> omega

theorem account_dequeue {ioType : EIoType} {result : Dequeued} (hidle : s.isIdle th = true)
    (hpos : 0 < s.pending ioType) (hreports : Dequeued.reports result ioType = true)
    (hok : CountsInTurn s (.dequeue th ioType result) = true) :
    (s.account g).Move
      (({ s with pending := Function.update s.pending ioType (s.pending ioType - 1) }.setThread th
        (onResult s.acceptor result)).account g) := by
  simp only [CountsInTurn, Bool.and_eq_true, Bool.not_eq_true', Bool.or_eq_true, bne_iff_ne] at hok
  obtain ⟨⟨habort, hacceptor⟩, hbehind⟩ := hok
  obtain ⟨hposts, hclears⟩ := onResult_weights hreports habort
    (fun he => hacceptor.resolve_left (not_not_intro he)) g
  have hu := owed_begin (Act.posts g) hidle (onResult s.acceptor result)
  have hc := owed_begin (Act.clears g) hidle (onResult s.acceptor result)
  have hout := outstanding_dequeue s ioType hpos g
  rw [hposts, Nat.add_zero] at hu
  rw [hclears] at hc
  by_cases hg : EIoType.gauge ioType = some g
  · rw [if_pos hg] at hc hout
    rw [hg] at hbehind
    exact .closing 1 rfl hout hu hc (of_decide_eq_true hbehind)
  · rw [if_neg hg, Nat.add_zero] at hc hout
    exact .stay rfl hout hu hc

theorem step_move {l : MeterLabel} (hok : CountsInTurn s l = true) (hs : MeterStep s l t)
    (g : Gauge) : (s.account g).Move (t.account g) := by
  cases hs with
  | startNone hidle => exact account_begin hidle rfl rfl
  | start hidle => exact account_begin hidle rfl rfl
  | tick hidle => exact account_begin hidle rfl rfl
  | leave hidle => exact account_begin hidle rfl rfl
  | dequeue hidle hpos hreports => exact account_dequeue hidle hpos hreports hok
  | act hth => exact perform_move _ hth hok g
  | stop | takeSnapshot | loadLast | load => exact .stay rfl rfl rfl rfl

/-! ## Snapshots -/

/-- No snapshot that was taken, nor the one being taken, shows a negative gauge. -/
def Shown (s : Metered) : Prop :=
  (∀ g, 0 ≤ s.snapshot.gauge g) ∧ ∀ snapshot ∈ s.snapshots, ∀ g, 0 ≤ snapshot.gauge g

theorem perform_snapshots (s : Metered) (ans : Answers) (act : Act) :
    (s.perform ans act).1.snapshot = s.snapshot ∧
      (s.perform ans act).1.snapshots = s.snapshots := by
  cases act with
  | postAccept more =>
    simp only [Metered.perform]
    split <;> exact ⟨rfl, rfl⟩
  | postRecv setup =>
    simp only [Metered.perform]
    split <;> exact ⟨rfl, rfl⟩
  | postSend =>
    simp only [Metered.perform]
    split <;> exact ⟨rfl, rfl⟩
  | _ => exact ⟨rfl, rfl⟩

theorem load_nonneg {snapshot : ServerMetricsSnapshot} {m : AtomicServerMetrics}
    (hsnap : ∀ g, 0 ≤ snapshot.gauge g) (hgauge : ∀ g, 0 ≤ m.gauge g) (field : Field) (g : Gauge) :
    0 ≤ (snapshot.load m field).gauge g := by
  cases field with
  | total value => exact hsnap g
  | gauge value =>
    by_cases hg : g = value
    · subst hg
      simpa [ServerMetricsSnapshot.load] using hgauge g
    · simpa [ServerMetricsSnapshot.load, hg] using hsnap g

theorem Shown.step {l : MeterLabel} (h : Shown s) (hgauge : ∀ g, 0 ≤ s.metrics.gauge g)
    (hs : MeterStep s l t) : Shown t := by
  have hsame : t.snapshot = s.snapshot → t.snapshots = s.snapshots → Shown t := by
    intro h₁ h₂
    rw [Shown, h₁, h₂]
    exact h
  cases hs with
  | startNone | start | stop | tick | dequeue | leave => exact hsame rfl rfl
  | @act th ans act rest _ =>
    exact hsame (perform_snapshots s ans act).1 (perform_snapshots s ans act).2
  | takeSnapshot => exact ⟨fun g => Int.le_refl 0, h.2⟩
  | @loadLast field _ =>
    refine ⟨h.1, fun snapshot hm => ?_⟩
    rcases List.mem_append.mp hm with hm | hm
    · exact h.2 snapshot hm
    · rw [List.mem_singleton.mp hm]
      exact load_nonneg h.1 hgauge field
  | @load field rest _ => exact ⟨load_nonneg h.1 hgauge field, h.2⟩

end

/-- Between handlers no callback is to come. -/
theorem Metered.Quiet.owed_eq_zero {s : Metered} (h : s.Quiet) {f : Act → Nat}
    (hleft : f .left = 0) : owed f s.threads = 0 := by
  apply Lib.owed_eq_zero
  intro acts hm
  rcases h acts hm with rfl | rfl
  · rfl
  · simp [hleft]

theorem balanced_new (workerCount : Nat) (g : Gauge) :
    ((Metered.new workerCount).account g).Balanced := by
  have hquiet : (Metered.new workerCount).Quiet :=
    fun acts hm => Or.inl (List.eq_of_mem_replicate hm)
  have hposts : (Metered.new workerCount).unposted g = 0 := hquiet.owed_eq_zero rfl
  have hclears : (Metered.new workerCount).uncleared g = 0 := hquiet.owed_eq_zero rfl
  have hout : (Metered.new workerCount).outstanding g = 0 := by
    cases g <;> rfl
  have haccount : (Metered.new workerCount).account g = ⟨0, 0, 0, 0⟩ := by
    rw [Metered.account, hposts, hclears, hout]
    rfl
  rw [haccount]
  exact ⟨rfl, Nat.le_refl 0, by decide⟩

/-- **Gauges.** No snapshot shows a negative gauge, and when no thread is inside a handler every
gauge is the number of operations that are pending. -/
theorem gauges_tell_the_truth (workerCount : Nat) {s : Metered}
    (h : (meteredServer workerCount).Reach (fun s l => CountsInTurn s l = true) s) :
    (∀ snapshot ∈ s.snapshots, ∀ g, 0 ≤ snapshot.gauge g) ∧
      (s.Quiet → ∀ g, s.metrics.gauge g = s.outstanding g) := by
  have hinv : (∀ g, (s.account g).Balanced) ∧ Shown s := by
    refine h.invariant (I := fun s => (∀ g, (s.account g).Balanced) ∧ Shown s)
      ⟨balanced_new workerCount, fun g => Int.le_refl 0, nofun⟩ ?_
    intro s t l _ hi hok hs
    have hm := meterStep_inv hs
    exact ⟨fun g => (hi.1 g).move (step_move hok hm g),
      hi.2.step (fun g => (hi.1 g).nonneg) hm⟩
  exact ⟨hinv.2.2, fun hquiet g =>
    (hinv.1 g).settled (hquiet.owed_eq_zero rfl) (hquiet.owed_eq_zero rfl)⟩

/-! ## Runs -/

/-- Everything succeeds, and the application calls `calls`. -/
def Answers.allOk (calls : List AppCall) : Answers := ⟨true, true, calls⟩

def goesOn (th steps : Nat) : List MeterLabel := List.replicate steps (.act th (.allOk []))

/-- The result of an accept, and of a receive of 8 bytes. -/
def acceptResult : Dequeued := ⟨true, 0, some ⟨1, .accept⟩, 0, 0⟩
def recvResult : Dequeued := ⟨true, 4096, some ⟨4104, .recv⟩, 8, 0⟩

/-- One accept is posted and completed, and `WSARecv` has returned to the worker. -/
def firstRecv : List MeterLabel :=
  (.start 1 :: goesOn 0 2) ++ (.dequeue 2 .accept acceptResult :: goesOn 2 3)

def takesSnapshot : List MeterLabel := .takeSnapshot :: List.replicate 10 .load

/-- The worker goes on to its callback, the receive is completed by another worker that pushes a
command, and the logic thread drains it and answers. -/
def orderly : List MeterLabel :=
  firstRecv ++ goesOn 2 5 ++
    (.dequeue 3 .recv recvResult :: goesOn 3 1 ++ .act 3 (.allOk [.pushCommand]) :: goesOn 3 4) ++
    (.tick :: goesOn 1 2 ++ .act 1 (.allOk [.postSend]) :: goesOn 1 2) ++ takesSnapshot

theorem gauges_tell_the_truth_orderly : ∃ s,
    (meteredServer 2).Reach (fun s l => CountsInTurn s l = true) s ∧ s.snapshots.length = 1 ∧
      (∀ snapshot ∈ s.snapshots, ∀ g, 0 ≤ snapshot.gauge g) ∧ s.Quiet ∧
      s.metrics.gauge .pendingSendCount = 1 ∧ ∀ g, s.metrics.gauge g = s.outstanding g := by
  obtain ⟨s, hr, hp⟩ := System.reach_of_exec (meteredServer 2)
    (fun s l => CountsInTurn s l = true) orderly
    (fun s => decide (s.Quiet) && s.snapshots.length == 1 &&
      s.metrics.gauge .pendingSendCount == 1) (by decide +kernel)
  simp only [Bool.and_eq_true, decide_eq_true_eq, beq_iff_eq] at hp
  obtain ⟨⟨hquiet, hone⟩, hsends⟩ := hp
  have h := gauges_tell_the_truth 2 hr
  exact ⟨s, hr, hone, h.1, hquiet, hsends, h.2 hquiet⟩

/-- Another worker completes the receive before the first has come to its callback, and a snapshot
is taken. And: the receive is aborted, and once nobody is in a handler the gauge still counts it. -/
theorem gauges_lie :
    (∃ s, (meteredServer 2).Reach System.always s ∧
      ∃ snapshot ∈ s.snapshots, snapshot.gauge .pendingRecvCount = -1) ∧
    ∃ s, (meteredServer 2).Reach System.always s ∧ s.Quiet ∧
      s.metrics.gauge .pendingRecvCount = 1 ∧ s.outstanding .pendingRecvCount = 0 := by
  constructor
  · obtain ⟨s, hr, hp⟩ := System.reach_of_exec (meteredServer 2) System.always
      (firstRecv ++ (.dequeue 3 .recv recvResult :: goesOn 3 1) ++ takesSnapshot)
      (fun s => s.snapshots.any fun snapshot => snapshot.gauge .pendingRecvCount == -1)
      (by decide +kernel)
    obtain ⟨snapshot, hm, hg⟩ := List.any_eq_true.mp hp
    exact ⟨s, hr, snapshot, hm, beq_iff_eq.mp hg⟩
  · obtain ⟨s, hr, hp⟩ := System.reach_of_exec (meteredServer 2) System.always
      (firstRecv ++ goesOn 2 5 ++
        [.dequeue 3 .recv ⟨false, 4096, some ⟨4104, .recv⟩, 0, ERROR_OPERATION_ABORTED⟩])
      (fun s => decide (s.Quiet) && s.metrics.gauge .pendingRecvCount == 1 &&
        s.outstanding .pendingRecvCount == 0) (by decide +kernel)
    simp only [Bool.and_eq_true, decide_eq_true_eq, beq_iff_eq] at hp
    exact ⟨s, hr, hp.1.1, hp.1.2, hp.2⟩

end Highp.Metrics
