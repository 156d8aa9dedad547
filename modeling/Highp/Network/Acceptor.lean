import Highp.Lib.Tally
import Highp.Lib.Transition
import Highp.Network.Client
import Highp.Network.WorkerLoop

/-! `IocpAcceptor`: the overlapped objects it takes from their pool, the holder that keeps them
while `AcceptEx` is pending, and the accept sockets on their way to a `Client`. The pieces are the
statements of the source that touch shared state; `postAccept` and `onAcceptComplete` put them
together for a thread that nobody interrupts. -/

namespace Highp.Network
open Highp.Lib

structure AcceptOverlapped where
  ioType : EIoType
  /-- `none` is `InvalidSocket`. -/
  clientSocket : Option SocketHandle
  deriving DecidableEq

/-- `HybridObjectPool<AcceptOverlapped>`: the objects in the storage of some thread or in the
global pool, and how many have been made. An object is named by its number. -/
structure OverlappedPool where
  free : List Nat
  made : Nat

/-- `Get`. Which free object it is, or that it is a new one, depends on the storage of the calling
thread. -/
def OverlappedPool.get (p : OverlappedPool) (choice : Nat) : Nat × OverlappedPool :=
  match p.free[choice]? with
  | some item => (item, { p with free := p.free.erase item })
  | none => (p.made, { p with made := p.made + 1 })

/-- `Return`. -/
def OverlappedPool.put (p : OverlappedPool) (item : Nat) : OverlappedPool :=
  { p with free := item :: p.free }

/-- `requests` are the `AcceptEx` calls the kernel has not reported yet. A socket is named by its
number among those that `PostAccept` created; `closed` are the sockets `closesocket` was called
on, each time it was. -/
structure Acceptor where
  overlapped : Nat → AcceptOverlapped
  pool : OverlappedPool
  /-- `_acceptOverlappedHolder` -/
  holder : List Nat
  requests : List Nat
  created : Nat
  closed : List SocketHandle
  clientPool : Slot → Client
  destroyed : Bool

/-- How the system calls of `PostAccept` end, and which object the pool gives. -/
structure PostAnswers where
  socketCreated : Bool
  choice : Nat
  acceptPosted : Bool
  deriving DecidableEq

/-- How the system calls of `OnAcceptComplete` end. -/
structure CompleteAnswers where
  updated : Bool
  associated : Bool
  recvPosted : Bool
  post : PostAnswers
  deriving DecidableEq

namespace Acceptor

/-- A new acceptor; the pool is static and may have objects from earlier ones. -/
def new (idle : Nat) : Acceptor where
  overlapped _ := ⟨.accept, none⟩
  pool := ⟨List.range idle, idle⟩
  holder := []
  requests := []
  created := 0
  closed := []
  clientPool _ := .new
  destroyed := false

/-! ## Pieces -/

/-- `WSASocketW`, when it succeeds. -/
def createSocket (s : Acceptor) : Acceptor := { s with created := s.created + 1 }

/-- `Get`, and the object made ready for a socket. -/
def prepare (s : Acceptor) (choice : Nat) (socket : SocketHandle) : Acceptor :=
  { s with
    overlapped := Function.update s.overlapped (s.pool.get choice).1 ⟨.accept, some socket⟩
    pool := (s.pool.get choice).2 }

/-- `_fnAcceptEx`, when it succeeds. -/
def acceptEx (s : Acceptor) (item : Nat) : Acceptor := { s with requests := item :: s.requests }

/-- `DeferredItemHolder::Hold`. -/
def hold (s : Acceptor) (item : Nat) : Acceptor := { s with holder := item :: s.holder }

/-- `DeferredItemHolder::Release`. -/
def release (s : Acceptor) (item : Nat) : Option Acceptor :=
  if item ∈ s.holder then some { s with holder := s.holder.erase item } else none

def returnItem (s : Acceptor) (item : Nat) : Acceptor := { s with pool := s.pool.put item }

/-- `closesocket`, which fails on `InvalidSocket`. -/
def closesocket (s : Acceptor) : Option SocketHandle → Acceptor
  | some socket => { s with closed := socket :: s.closed }
  | none => s

/-- What `clientSocketCleanup` does at the end of its scope. -/
def cleanup (s : Acceptor) (item : Nat) : Acceptor :=
  s.closesocket (s.overlapped item).clientSocket

/-- `overlapped->clientSocket = InvalidSocket`. -/
def forget (s : Acceptor) (item : Nat) : Acceptor :=
  let overlapped := Function.update s.overlapped item
    { s.overlapped item with clientSocket := none }
  { s with overlapped }

def setClient (s : Acceptor) (client : Slot) (c : Client) : Acceptor :=
  { s with clientPool := Function.update s.clientPool client c }

/-- `Client::Close`. -/
def closeClient (s : Acceptor) (client : Slot) : Acceptor :=
  (s.closesocket (s.clientPool client).socket).setClient client (s.clientPool client).close

/-! ## Functions -/

/-- `FindAvailableClient`. -/
def findAvailableClient (maxClients : Nat) (s : Acceptor) : Option Slot :=
  (List.range maxClients).find? fun client => !(s.clientPool client).isConnected

/-- `SetupClient`. Neither call succeeds on `InvalidSocket`. -/
def setupClient (maxClients : Nat) (s : Acceptor) (acceptSocket : Option SocketHandle)
    (ans : CompleteAnswers) : Acceptor :=
  match s.findAvailableClient maxClients with
  | none => s.closesocket acceptSocket
  | some client =>
    let s := s.setClient client { s.clientPool client with socket := acceptSocket }
    if !(ans.associated && (s.clientPool client).isConnected) then s.closeClient client
    else if !(ans.recvPosted && (s.clientPool client).isConnected) then s.closeClient client
    else s.setClient client (s.clientPool client).markConnectionEstablished.2

/-- `PostAccept`, with whether it returns `Ok`. -/
def postAccept (s : Acceptor) (ans : PostAnswers) : Bool × Acceptor :=
  if !ans.socketCreated then (false, s)
  else
    let socket := s.created
    let item := (s.pool.get ans.choice).1
    let s := s.createSocket.prepare ans.choice socket
    if !ans.acceptPosted then (false, (s.returnItem item).closesocket (some socket))
    else (true, (s.acceptEx item).hold item)

/-- `PostAccepts`, one call of `PostAccept` for each answer unless one fails. -/
def postAccepts (s : Acceptor) : List PostAnswers → Bool × Acceptor
  | [] => (true, s)
  | ans :: rest =>
    match s.postAccept ans with
    | (false, s) => (false, s)
    | (true, s) => postAccepts s rest

/-- `OnAcceptComplete` behind `Release`: the item goes back to its pool at the end of the scope, and
before it the socket is closed unless it was handed over. -/
def acceptReleased (maxClients : Nat) (s : Acceptor) (item : Nat) (ans : CompleteAnswers) :
    Bool × Acceptor :=
  if !ans.updated then (false, (s.cleanup item).returnItem item)
  else
    let s := s.setupClient maxClients (s.overlapped item).clientSocket ans
    let posted := (s.forget item).postAccept ans.post
    (posted.1, (posted.2.cleanup item).returnItem item)

/-- `OnAcceptComplete`. -/
def onAcceptComplete (maxClients : Nat) (s : Acceptor) (overlapped : Option Nat)
    (ans : CompleteAnswers) : Bool × Acceptor :=
  match overlapped with
  | none => (false, s)
  | some item =>
    if (s.overlapped item).ioType ≠ .accept then (false, s)
    else
      match s.release item with
      | none => (false, s)
      | some s => s.acceptReleased maxClients item ans

/-- `Shutdown` and the destructor. The pending requests are cancelled, and the holder gives its
items back to the pool. -/
def shutdown (s : Acceptor) : Acceptor :=
  { s with
    pool := { s.pool with free := s.holder ++ s.pool.free }
    holder := []
    destroyed := true }

/-- A worker dequeues an accept. Without an overlapped structure the event looks like one too. -/
def dequeue (s : Acceptor) : Option Nat → Option Acceptor
  | none => some s
  | some item =>
    if item ∈ s.requests then some { s with requests := s.requests.erase item } else none

end Acceptor

/-! ## One operation after the other -/

inductive AcceptorLabel
  | postAccept (ans : PostAnswers)
  | onAcceptComplete (overlapped : Option Nat) (ans : CompleteAnswers)
  | closeClient (client : Slot)
  | shutdown
  deriving DecidableEq

def Acceptor.step (maxClients : Nat) (s : Acceptor) : AcceptorLabel → Option Acceptor
  | .postAccept ans => if s.destroyed then none else some (s.postAccept ans).2
  | .onAcceptComplete overlapped ans =>
    if s.destroyed then none
    else (s.dequeue overlapped).map fun s => (s.onAcceptComplete maxClients overlapped ans).2
  | .closeClient client => if client < maxClients then some (s.closeClient client) else none
  | .shutdown => if s.destroyed then none else some s.shutdown

def acceptorSystem (idle maxClients : Nat) : System Acceptor AcceptorLabel where
  start := .new idle
  step := Acceptor.step maxClients

namespace Acceptor
variable {s t : Acceptor} {maxClients item : Nat} {ans : CompleteAnswers}

/-! ## What the operations leave alone -/

/-- Closing and setting up clients touches sockets and clients only. -/
theorem closesocket_frame (s : Acceptor) (socket : Option SocketHandle) :
    ∃ closed, s.closesocket socket = { s with closed } := by
  cases socket with
  | none => exact ⟨s.closed, rfl⟩
  | some h => exact ⟨h :: s.closed, rfl⟩

theorem closeClient_frame (s : Acceptor) (client : Slot) :
    ∃ closed clientPool, s.closeClient client = { s with closed, clientPool } := by
  obtain ⟨closed, hc⟩ := s.closesocket_frame (s.clientPool client).socket
  exact ⟨closed, _, by rw [closeClient, hc]; rfl⟩

theorem setupClient_frame (maxClients : Nat) (s : Acceptor) (acceptSocket : Option SocketHandle)
    (ans : CompleteAnswers) :
    ∃ closed clientPool, s.setupClient maxClients acceptSocket ans =
      { s with closed, clientPool } := by
  unfold setupClient
  cases s.findAvailableClient maxClients with
  | none =>
    obtain ⟨closed, hc⟩ := s.closesocket_frame acceptSocket
    exact ⟨closed, s.clientPool, hc⟩
  | some client =>
    simp only
    split
    · obtain ⟨closed, clientPool, hc⟩ := closeClient_frame _ client
      exact ⟨closed, clientPool, hc⟩
    · split
      · obtain ⟨closed, clientPool, hc⟩ := closeClient_frame _ client
        exact ⟨closed, clientPool, hc⟩
      · exact ⟨s.closed, _, rfl⟩

/-! ## Where the objects are -/

/-- Every object that was made is in one place: in the pool, in the holder, or in the hands of
somebody; `out` counts the hands that have it. -/
def ItemsOnce (s : Acceptor) (out : Nat → Nat) : Prop :=
  ∀ x, s.pool.free.count x + s.holder.count x + out x = if x < s.pool.made then 1 else 0

/-- What `Get` gives comes out of the pool, or is the next object. -/
theorem get_count (p : OverlappedPool) (choice x : Nat) :
    (p.get choice).2.free.count x + ((p.get choice).1 == x).toNat +
        (if x < p.made then 1 else 0) =
      p.free.count x + if x < (p.get choice).2.made then 1 else 0 := by
  unfold OverlappedPool.get
  cases hf : p.free[choice]? with
  | some item =>
    have hcount := count_erase_add (List.mem_of_getElem? hf) x
    simp only
    omega
  | none =>
    simp only
    by_cases hx : p.made = x
    · subst hx
      simp
    · have hiff : x < p.made + 1 ↔ x < p.made := by omega
      simp [hx, hiff]

variable {out out' : Nat → Nat}

theorem ItemsOnce.prepare {choice : Nat} (h : s.ItemsOnce out) (socket : SocketHandle)
    (hout : ∀ x, out' x = out x + ((s.pool.get choice).1 == x).toNat) :
    (s.prepare choice socket).ItemsOnce out' := by
  intro x
  have hx := h x
  have hget := get_count s.pool choice x
  have hox := hout x
  show (s.pool.get choice).2.free.count x + s.holder.count x + out' x =
    if x < (s.pool.get choice).2.made then 1 else 0
  omega

theorem ItemsOnce.hold (h : s.ItemsOnce out)
    (hout : ∀ x, out' x + (item == x).toNat = out x) : (s.hold item).ItemsOnce out' := by
  intro x
  have hx := h x
  have hox := hout x
  have hc := count_cons_toNat item x s.holder
  show s.pool.free.count x + (item :: s.holder).count x + out' x =
    if x < s.pool.made then 1 else 0
  omega

theorem ItemsOnce.release (h : s.ItemsOnce out) (hm : item ∈ s.holder)
    (hout : ∀ x, out' x = out x + (item == x).toNat) :
    ItemsOnce { s with holder := s.holder.erase item } out' := by
  intro x
  have hx := h x
  have hox := hout x
  have hc := count_erase_add hm x
  simp only
  omega

theorem ItemsOnce.returnItem (h : s.ItemsOnce out)
    (hout : ∀ x, out' x + (item == x).toNat = out x) : (s.returnItem item).ItemsOnce out' := by
  intro x
  have hx := h x
  have hox := hout x
  have hc := count_cons_toNat item x s.pool.free
  show (item :: s.pool.free).count x + s.holder.count x + out' x =
    if x < s.pool.made then 1 else 0
  omega

/-- What somebody has in hand is not in the holder. -/
theorem ItemsOnce.not_held (h : s.ItemsOnce out) (hout : 0 < out item) : item ∉ s.holder := by
  intro hm
  have hpos := List.count_pos_iff.mpr hm
  have hx := h item
  split at hx <;> omega

/-- What `Get` gives is in nobody's hands and not in the holder. -/
theorem ItemsOnce.get_fresh (h : s.ItemsOnce out) (choice : Nat) :
    (s.pool.get choice).1 ∉ s.holder ∧ out (s.pool.get choice).1 = 0 := by
  have hx := h (s.pool.get choice).1
  have hget := get_count s.pool choice (s.pool.get choice).1
  have hle : (if (s.pool.get choice).1 < (s.pool.get choice).2.made then 1 else 0) ≤ 1 := by
    split <;> omega
  have hone : ((s.pool.get choice).1 == (s.pool.get choice).1).toNat = 1 := by simp
  have hnot : s.holder.count (s.pool.get choice).1 = 0 := by omega
  exact ⟨fun hm => by have := List.count_pos_iff.mpr hm; omega, by omega⟩

theorem itemsOnce_new (idle : Nat) : (Acceptor.new idle).ItemsOnce fun _ => 0 := by
  intro x
  have hnodup : (List.range idle).Nodup := List.nodup_range
  rw [Acceptor.new, List.Nodup.count hnodup]
  simp [List.mem_range]

end Acceptor

/-! ## Schedules -/

/-- Everything succeeds, with the first free object or a new one. -/
def PostAnswers.allOk : PostAnswers := ⟨true, 0, true⟩
def CompleteAnswers.allOk : CompleteAnswers := ⟨true, true, true, .allOk⟩

end Highp.Network
