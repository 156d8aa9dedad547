import Highp.Lib.Tally
import Highp.Lib.Transition
import Highp.Network.Client

/-! `ServerLifeCycle` under its threads: `SetupClient`, `HandleRecv` and `Client::Close` statement
by statement, with the echo server's or the chat server's `OnRecv` in the middle. A step is one
access to shared memory or one system call. -/

namespace Highp.Network
open Highp.Lib

/-- Whose `OnRecv` is called. -/
inductive App
  | echo
  | chat
  deriving DecidableEq

/-- `maxClients` is an `int` in the configuration. -/
structure LifecycleCfg where
  app : App
  threadCount : Nat
  maxClients : Nat
  maxClients_lt : maxClients < 2 ^ 31

/-- Where a call of `Close` or `CloseClient` returns to. -/
inductive ReturnTo
  | idle
  /-- `HandleRecv`, behind `OnRecv`. -/
  | handleRecv
  deriving DecidableEq

/-- A thread: a worker, or the logic thread, which calls `Close`. -/
inductive ThreadPc
  | idle
  /-- Out of `WorkerLoop`. -/
  | left
  -- `SetupClient`
  | find (acceptSocket : SocketHandle)
  | poolFull (acceptSocket : SocketHandle)
  | assign (acceptSocket : SocketHandle) (client : Slot)
  | associate (client : Slot)
  | postFirstRecv (client : Slot)
  | markEstablished (client : Slot)
  | testEstablished (client : Slot)
  | setCounted (client : Slot)
  | onConnected (client : Slot)
  | onAccept (client : Slot)
  -- `HandleRecv`
  | onDisconnect (client : Slot)
  | onRecv (client : Slot)
  | echoPostRecv (client : Slot)
  | postNextRecv (client : Slot)
  -- `CloseClient` and `Client::Close`
  | closeClient (client : Slot) (ret : ReturnTo)
  | testCounted (client : Slot) (ret : ReturnTo)
  | clearFlags (client : Slot) (ret : ReturnTo)
  | loadCount (client : Slot) (ret : ReturnTo)
  | subCount (client : Slot) (ret : ReturnTo)
  | testSocket (client : Slot) (ret : ReturnTo)
  | closeSocket (client : Slot) (ret : ReturnTo)
  | resetSocket (client : Slot) (ret : ReturnTo)
  deriving DecidableEq

def ReturnTo.pc (client : Slot) : ReturnTo → ThreadPc
  | .idle => .idle
  | .handleRecv => .postNextRecv client

/-- The callbacks that `BuildClientCallbacks` counts with. -/
inductive ConnEvent
  | connected (client : Slot)
  | disconnected (client : Slot)
  deriving DecidableEq

/-- `recvs` counts, for each `recvOverlapped`, the receives issued and not yet dequeued; `sockets`
are the accepted sockets that are open. `assigned` and `events` are ghosts: which open socket was
put into which slot, and the callbacks that have run. -/
structure Lifecycle where
  clientPool : Slot → Client
  threads : Nat → ThreadPc
  connectedClientCount : Nat
  recvs : Slot → Nat
  sockets : List SocketHandle
  assigned : List (SocketHandle × Slot)
  events : List ConnEvent

inductive RecvOutcome
  | data
  /-- A failure, or a receive of zero bytes. -/
  | ended
  | aborted
  deriving DecidableEq

/-- Where a worker goes with a receive: out of its loop on the abort code, else to `HandleRecv`. -/
def RecvOutcome.pc (client : Slot) : RecvOutcome → ThreadPc
  | .data => .onRecv client
  | .ended => .onDisconnect client
  | .aborted => .left

inductive LifecycleLabel
  /-- A thread dequeues an accept and calls `SetupClient` with its socket. -/
  | accepted (th : Nat) (acceptSocket : SocketHandle)
  /-- A thread dequeues a receive. -/
  | recvDone (th : Nat) (client : Slot) (outcome : RecvOutcome)
  /-- A thread calls `Client::Close`, as `Tick` does. -/
  | close (th : Nat) (client : Slot)
  /-- A thread goes on; `ok` is the answer of the system call, or of `PacketDispatcher::Receive`. -/
  | step (th : Nat) (ok : Bool)

namespace Lifecycle

/-- `GetConnectedClientCount`. -/
def getConnectedClientCount (s : Lifecycle) : Nat := s.connectedClientCount

def setThread (s : Lifecycle) (th : Nat) (pc : ThreadPc) : Lifecycle :=
  { s with threads := Function.update s.threads th pc }

def setClient (s : Lifecycle) (client : Slot) (c : Client) : Lifecycle :=
  { s with clientPool := Function.update s.clientPool client c }

/-- `closesocket`. -/
def closesocket (s : Lifecycle) (h : SocketHandle) : Lifecycle :=
  { s with
    sockets := s.sockets.filter fun k => k != h
    assigned := s.assigned.filter fun p => p.1 != h }

/-- Whether `WSARecv` succeeds, given the answer of the kernel for an open socket. -/
def canPostRecv (s : Lifecycle) (client : Slot) (ok : Bool) : Bool :=
  ok && (s.clientPool client).isConnected

def postRecv (s : Lifecycle) (client : Slot) : Lifecycle :=
  { s with recvs := Function.update s.recvs client (s.recvs client + 1) }

/-- `FindAvailableClient`. -/
def findAvailableClient (maxClients : Nat) (s : Lifecycle) : Option Slot :=
  (List.range maxClients).find? fun client => !(s.clientPool client).isConnected

/-- `SetupClient`. -/
def setupStep (maxClients : Nat) (s : Lifecycle) (ok : Bool) : ThreadPc → Lifecycle × ThreadPc
  | .find h =>
    match s.findAvailableClient maxClients with
    | some client => (s, .assign h client)
    | none => (s, .poolFull h)
  | .poolFull h => (s.closesocket h, .idle)
  | .assign h client =>
    ({ s.setClient client { s.clientPool client with socket := some h } with
       assigned := (h, client) :: s.assigned }, .associate client)
  | .associate client =>
    if ok && (s.clientPool client).isConnected then (s, .postFirstRecv client)
    else (s, .testCounted client .idle)
  | .postFirstRecv client =>
    if s.canPostRecv client ok then (s.postRecv client, .markEstablished client)
    else (s, .testCounted client .idle)
  | .markEstablished client =>
    (s.setClient client { s.clientPool client with connectionEstablished := true },
      .testEstablished client)
  | .testEstablished client =>
    if !(s.clientPool client).connectionEstablished || (s.clientPool client).connectionEventCounted
    then (s, .onAccept client)
    else (s, .setCounted client)
  | .setCounted client =>
    (s.setClient client { s.clientPool client with connectionEventCounted := true },
      .onConnected client)
  | .onConnected client =>
    ({ s with
       connectedClientCount := (s.connectedClientCount + 1) % 2 ^ 64
       events := s.events ++ [.connected client] }, .onAccept client)
  | .onAccept _ => (s, .idle)
  | pc => (s, pc)

/-- `HandleRecv`, with the `OnRecv` of either application. The chat server's may close the client,
when a frame is bad or the frame buffer full. -/
def recvStep (app : App) (s : Lifecycle) (ok : Bool) : ThreadPc → Lifecycle × ThreadPc
  | .onDisconnect client => (s, .closeClient client .idle)
  | .onRecv client =>
    match app with
    | .chat => (s, if ok then .postNextRecv client else .testCounted client .handleRecv)
    | .echo =>
      (s, if ok && (s.clientPool client).isConnected then .echoPostRecv client
        else .closeClient client .handleRecv)
  | .echoPostRecv client =>
    if s.canPostRecv client ok then (s.postRecv client, .postNextRecv client)
    else (s, .closeClient client .handleRecv)
  | .postNextRecv client =>
    if s.canPostRecv client ok then (s.postRecv client, .idle)
    else (s, .closeClient client .idle)
  | pc => (s, pc)

/-- `CloseClient` and `Client::Close`. -/
def closeStep (s : Lifecycle) : ThreadPc → Lifecycle × ThreadPc
  | .closeClient client ret =>
    (s, if (s.clientPool client).isConnected then .testCounted client ret else ret.pc client)
  | .testCounted client ret =>
    if (s.clientPool client).emitsDisconnected then (s, .clearFlags client ret)
    else (s.setClient client { s.clientPool client with
      connectionEstablished := false, connectionEventCounted := false }, .testSocket client ret)
  | .clearFlags client ret =>
    (s.setClient client { s.clientPool client with
      connectionEstablished := false, connectionEventCounted := false }, .loadCount client ret)
  | .loadCount client ret =>
    if s.connectedClientCount > 0 then (s, .subCount client ret)
    else ({ s with events := s.events ++ [.disconnected client] }, .testSocket client ret)
  | .subCount client ret =>
    ({ s with
       connectedClientCount := sizeSub s.connectedClientCount 1
       events := s.events ++ [.disconnected client] }, .testSocket client ret)
  | .testSocket client ret =>
    (s, if (s.clientPool client).isConnected then .closeSocket client ret else ret.pc client)
  | .closeSocket client ret =>
    match (s.clientPool client).socket with
    | some h => (s.closesocket h, .resetSocket client ret)
    | none => (s, .resetSocket client ret)
  | .resetSocket client ret =>
    (s.setClient client { s.clientPool client with socket := none }, ret.pc client)
  | pc => (s, pc)

/-- One step of a busy thread. -/
def threadStep (cfg : LifecycleCfg) (s : Lifecycle) (ok : Bool) (pc : ThreadPc) :
    Option (Lifecycle × ThreadPc) :=
  match pc with
  | .idle | .left => none
  | .find _ | .poolFull _ | .assign _ _ | .associate _ | .postFirstRecv _ | .markEstablished _
  | .testEstablished _ | .setCounted _ | .onConnected _ | .onAccept _ =>
    some (s.setupStep cfg.maxClients ok pc)
  | .onDisconnect _ | .onRecv _ | .echoPostRecv _ | .postNextRecv _ =>
    some (s.recvStep cfg.app ok pc)
  | .closeClient _ _ | .testCounted _ _ | .clearFlags _ _ | .loadCount _ _ | .subCount _ _
  | .testSocket _ _ | .closeSocket _ _ | .resetSocket _ _ => some (s.closeStep pc)

def step (cfg : LifecycleCfg) (s : Lifecycle) : LifecycleLabel → Option Lifecycle
  | .accepted th h =>
    if th < cfg.threadCount ∧ s.threads th = .idle ∧ h ∉ s.sockets then
      some ({ s with sockets := h :: s.sockets }.setThread th (.find h))
    else none
  | .recvDone th client outcome =>
    if th < cfg.threadCount ∧ s.threads th = .idle ∧ 0 < s.recvs client then
      some ({ s with recvs := Function.update s.recvs client (s.recvs client - 1) }.setThread th
        (outcome.pc client))
    else none
  | .close th client =>
    if th < cfg.threadCount ∧ s.threads th = .idle ∧ client < cfg.maxClients then
      some (s.setThread th (.testCounted client .idle))
    else none
  | .step th ok =>
    (s.threadStep cfg ok (s.threads th)).map fun r => r.1.setThread th r.2

end Lifecycle

def lifecycleSystem (cfg : LifecycleCfg) : System Lifecycle LifecycleLabel where
  start := ⟨fun _ => .new, fun _ => .idle, 0, fun _ => 0, [], [], []⟩
  step := Lifecycle.step cfg

/-! ## What one step can do -/

/-- The steps of a busy thread, one constructor for each way a step can end. -/
inductive ThreadStep (cfg : LifecycleCfg) (s : Lifecycle) (ok : Bool) :
    ThreadPc → Lifecycle → ThreadPc → Prop
  | found {h i} : s.findAvailableClient cfg.maxClients = some i →
      ThreadStep cfg s ok (.find h) s (.assign h i)
  | full {h} : s.findAvailableClient cfg.maxClients = none →
      ThreadStep cfg s ok (.find h) s (.poolFull h)
  | refuse {h} : ThreadStep cfg s ok (.poolFull h) (s.closesocket h) .idle
  | assign {h i} : ThreadStep cfg s ok (.assign h i)
      { s.setClient i { s.clientPool i with socket := some h } with
        assigned := (h, i) :: s.assigned } (.associate i)
  | associate {i} : (s.clientPool i).isConnected = true →
      ThreadStep cfg s ok (.associate i) s (.postFirstRecv i)
  | associateFailed {i} : ThreadStep cfg s ok (.associate i) s (.testCounted i .idle)
  | firstRecv {i} : (s.clientPool i).isConnected = true →
      ThreadStep cfg s ok (.postFirstRecv i) (s.postRecv i) (.markEstablished i)
  | firstRecvFailed {i} : ThreadStep cfg s ok (.postFirstRecv i) s (.testCounted i .idle)
  | mark {i} : ThreadStep cfg s ok (.markEstablished i)
      (s.setClient i { s.clientPool i with connectionEstablished := true }) (.testEstablished i)
  | alreadyCounted {i} : ((s.clientPool i).connectionEstablished = false ∨
        (s.clientPool i).connectionEventCounted = true) →
      ThreadStep cfg s ok (.testEstablished i) s (.onAccept i)
  | uncounted {i} : (s.clientPool i).connectionEventCounted = false →
      ThreadStep cfg s ok (.testEstablished i) s (.setCounted i)
  | setCounted {i} : ThreadStep cfg s ok (.setCounted i)
      (s.setClient i { s.clientPool i with connectionEventCounted := true }) (.onConnected i)
  | onConnected {i} : ThreadStep cfg s ok (.onConnected i)
      { s with
        connectedClientCount := (s.connectedClientCount + 1) % 2 ^ 64
        events := s.events ++ [.connected i] } (.onAccept i)
  | onAccept {i} : ThreadStep cfg s ok (.onAccept i) s .idle
  | onDisconnect {i} : ThreadStep cfg s ok (.onDisconnect i) s (.closeClient i .idle)
  | received {i} : cfg.app = .chat → ThreadStep cfg s ok (.onRecv i) s (.postNextRecv i)
  | rejected {i} : cfg.app = .chat → ok = false →
      ThreadStep cfg s ok (.onRecv i) s (.testCounted i .handleRecv)
  | echoed {i} : cfg.app = .echo → (s.clientPool i).isConnected = true →
      ThreadStep cfg s ok (.onRecv i) s (.echoPostRecv i)
  | echoFailed {i} : cfg.app = .echo →
      ThreadStep cfg s ok (.onRecv i) s (.closeClient i .handleRecv)
  | echoRecv {i} : s.canPostRecv i ok = true →
      ThreadStep cfg s ok (.echoPostRecv i) (s.postRecv i) (.postNextRecv i)
  | echoRecvFailed {i} : ThreadStep cfg s ok (.echoPostRecv i) s (.closeClient i .handleRecv)
  | nextRecv {i} : (s.clientPool i).isConnected = true →
      ThreadStep cfg s ok (.postNextRecv i) (s.postRecv i) .idle
  | nextRecvFailed {i} : ThreadStep cfg s ok (.postNextRecv i) s (.closeClient i .idle)
  | closeClient {i ret} : (s.clientPool i).isConnected = true →
      ThreadStep cfg s ok (.closeClient i ret) s (.testCounted i ret)
  | alreadyClosed {i ret} : (s.clientPool i).isConnected = false →
      ThreadStep cfg s ok (.closeClient i ret) s (ret.pc i)
  | counted {i ret} : (s.clientPool i).emitsDisconnected = true →
      ThreadStep cfg s ok (.testCounted i ret) s (.clearFlags i ret)
  | notCounted {i ret} : (s.clientPool i).emitsDisconnected = false →
      ThreadStep cfg s ok (.testCounted i ret)
        (s.setClient i { s.clientPool i with
          connectionEstablished := false, connectionEventCounted := false }) (.testSocket i ret)
  | clearFlags {i ret} : ThreadStep cfg s ok (.clearFlags i ret)
      (s.setClient i { s.clientPool i with
        connectionEstablished := false, connectionEventCounted := false }) (.loadCount i ret)
  | load {i ret} : 0 < s.connectedClientCount →
      ThreadStep cfg s ok (.loadCount i ret) s (.subCount i ret)
  | loadZero {i ret} : s.connectedClientCount = 0 → ThreadStep cfg s ok (.loadCount i ret)
      { s with events := s.events ++ [.disconnected i] } (.testSocket i ret)
  | sub {i ret} : ThreadStep cfg s ok (.subCount i ret)
      { s with
        connectedClientCount := sizeSub s.connectedClientCount 1
        events := s.events ++ [.disconnected i] } (.testSocket i ret)
  | testSocket {i ret} : (s.clientPool i).isConnected = true →
      ThreadStep cfg s ok (.testSocket i ret) s (.closeSocket i ret)
  | noSocket {i ret} : (s.clientPool i).isConnected = false →
      ThreadStep cfg s ok (.testSocket i ret) s (ret.pc i)
  | closeSocket {i ret h} : (s.clientPool i).socket = some h →
      ThreadStep cfg s ok (.closeSocket i ret) (s.closesocket h) (.resetSocket i ret)
  | closeInvalid {i ret} : (s.clientPool i).socket = none →
      ThreadStep cfg s ok (.closeSocket i ret) s (.resetSocket i ret)
  | resetSocket {i ret} : ThreadStep cfg s ok (.resetSocket i ret)
      (s.setClient i { s.clientPool i with socket := none }) (ret.pc i)

section
variable {cfg : LifecycleCfg} {s t u : Lifecycle} {ok : Bool} {pc pc' : ThreadPc} {th : Nat}

/-- **Inversion.** Every step of a busy thread is one of these. -/
theorem threadStep_inv (h : s.threadStep cfg ok pc = some (t, pc')) :
    ThreadStep cfg s ok pc t pc' := by
  cases pc with
  | idle => simp [Lifecycle.threadStep] at h
  | left => simp [Lifecycle.threadStep] at h
  | find k =>
    simp only [Lifecycle.threadStep, Lifecycle.setupStep, Option.some.injEq] at h
    cases hf : s.findAvailableClient cfg.maxClients with
    | some i =>
      simp only [hf] at h
      cases h
      exact .found hf
    | none =>
      simp only [hf] at h
      cases h
      exact .full hf
  | poolFull k => cases h; exact .refuse
  | assign k i => cases h; exact .assign
  | associate i =>
    simp only [Lifecycle.threadStep, Lifecycle.setupStep, Option.some.injEq] at h
    split at h
    · rename_i hc
      cases h
      exact .associate (Bool.and_eq_true_iff.mp hc).2
    · cases h
      exact .associateFailed
  | postFirstRecv i =>
    simp only [Lifecycle.threadStep, Lifecycle.setupStep, Option.some.injEq] at h
    split at h
    · rename_i hc
      cases h
      exact .firstRecv (Bool.and_eq_true_iff.mp hc).2
    · cases h
      exact .firstRecvFailed
  | markEstablished i => cases h; exact .mark
  | testEstablished i =>
    simp only [Lifecycle.threadStep, Lifecycle.setupStep, Option.some.injEq] at h
    split at h
    · rename_i hc
      cases h
      exact .alreadyCounted (by simpa using hc)
    · rename_i hc
      cases h
      exact .uncounted (by simp at hc; exact hc.2)
  | setCounted i => cases h; exact .setCounted
  | onConnected i => cases h; exact .onConnected
  | onAccept i => cases h; exact .onAccept
  | onDisconnect i => cases h; exact .onDisconnect
  | onRecv i =>
    simp only [Lifecycle.threadStep, Lifecycle.recvStep, Option.some.injEq] at h
    cases ha : cfg.app with
    | chat =>
      simp only [ha] at h
      cases ok with
      | true => cases h; exact .received ha
      | false => cases h; exact .rejected ha rfl
    | echo =>
      simp only [ha] at h
      cases hc : ok && (s.clientPool i).isConnected with
      | true =>
        simp only [hc] at h
        cases h
        exact .echoed ha (Bool.and_eq_true_iff.mp hc).2
      | false =>
        simp only [hc] at h
        cases h
        exact .echoFailed ha
  | echoPostRecv i =>
    simp only [Lifecycle.threadStep, Lifecycle.recvStep, Option.some.injEq] at h
    split at h
    · rename_i hc
      cases h
      exact .echoRecv hc
    · cases h
      exact .echoRecvFailed
  | postNextRecv i =>
    simp only [Lifecycle.threadStep, Lifecycle.recvStep, Option.some.injEq] at h
    split at h
    · rename_i hc
      cases h
      exact .nextRecv (Bool.and_eq_true_iff.mp hc).2
    · cases h
      exact .nextRecvFailed
  | closeClient i ret =>
    simp only [Lifecycle.threadStep, Lifecycle.closeStep, Option.some.injEq] at h
    cases hc : (s.clientPool i).isConnected with
    | true => simp only [hc] at h; cases h; exact .closeClient hc
    | false => simp only [hc] at h; cases h; exact .alreadyClosed hc
  | testCounted i ret =>
    simp only [Lifecycle.threadStep, Lifecycle.closeStep, Option.some.injEq] at h
    cases hc : (s.clientPool i).emitsDisconnected with
    | true => simp only [hc] at h; cases h; exact .counted hc
    | false => simp only [hc] at h; cases h; exact .notCounted hc
  | clearFlags i ret => cases h; exact .clearFlags
  | loadCount i ret =>
    simp only [Lifecycle.threadStep, Lifecycle.closeStep, Option.some.injEq] at h
    split at h
    · rename_i hc
      cases h
      exact .load hc
    · rename_i hc
      cases h
      exact .loadZero (by omega)
  | subCount i ret => cases h; exact .sub
  | testSocket i ret =>
    simp only [Lifecycle.threadStep, Lifecycle.closeStep, Option.some.injEq] at h
    cases hc : (s.clientPool i).isConnected with
    | true => simp only [hc] at h; cases h; exact .testSocket hc
    | false => simp only [hc] at h; cases h; exact .noSocket hc
  | closeSocket i ret =>
    simp only [Lifecycle.threadStep, Lifecycle.closeStep, Option.some.injEq] at h
    cases hc : (s.clientPool i).socket with
    | some k => simp only [hc] at h; cases h; exact .closeSocket hc
    | none => simp only [hc] at h; cases h; exact .closeInvalid hc
  | resetSocket i ret => cases h; exact .resetSocket

theorem step_thread (h : s.step cfg (.step th ok) = some t) :
    ∃ u pc', ThreadStep cfg s ok (s.threads th) u pc' ∧ t = u.setThread th pc' := by
  simp only [Lifecycle.step, Option.map_eq_some_iff] at h
  obtain ⟨⟨u, pc'⟩, hr, rfl⟩ := h
  exact ⟨u, pc', threadStep_inv hr, rfl⟩

theorem step_acceptDone {h : SocketHandle} (hs : s.step cfg (.accepted th h) = some t) :
    th < cfg.threadCount ∧ s.threads th = .idle ∧ h ∉ s.sockets ∧
      t = { s with sockets := h :: s.sockets }.setThread th (.find h) := by
  simp only [Lifecycle.step, Option.ite_none_right_eq_some, Option.some.injEq] at hs
  exact ⟨hs.1.1, hs.1.2.1, hs.1.2.2, hs.2.symm⟩

theorem step_recvDequeued {client : Slot} {outcome : RecvOutcome}
    (hs : s.step cfg (.recvDone th client outcome) = some t) :
    th < cfg.threadCount ∧ s.threads th = .idle ∧ 0 < s.recvs client ∧
      t = { s with recvs := Function.update s.recvs client (s.recvs client - 1) }.setThread th
        (outcome.pc client) := by
  simp only [Lifecycle.step, Option.ite_none_right_eq_some, Option.some.injEq] at hs
  exact ⟨hs.1.1, hs.1.2.1, hs.1.2.2, hs.2.symm⟩

theorem step_close {client : Slot} (hs : s.step cfg (.close th client) = some t) :
    th < cfg.threadCount ∧ s.threads th = .idle ∧ client < cfg.maxClients ∧
      t = s.setThread th (.testCounted client .idle) := by
  simp only [Lifecycle.step, Option.ite_none_right_eq_some, Option.some.injEq] at hs
  exact ⟨hs.1.1, hs.1.2.1, hs.1.2.2, hs.2.symm⟩

theorem ThreadStep.threads (h : ThreadStep cfg s ok pc t pc') : t.threads = s.threads := by
  cases h <;> rfl

/-! ## The other threads -/

/-- No thread but `th` passes the test. -/
def Lifecycle.nobodyElse (cfg : LifecycleCfg) (s : Lifecycle) (th : Nat) (p : ThreadPc → Bool) :
    Bool :=
  (List.range cfg.threadCount).all fun v => v == th || !p (s.threads v)

theorem nobodyElse_iff (h : ∀ v, cfg.threadCount ≤ v → s.threads v = .idle)
    {p : ThreadPc → Bool} (hidle : p .idle = false) :
    s.nobodyElse cfg th p = true ↔ ∀ v, v ≠ th → p (s.threads v) = false := by
  simp only [Lifecycle.nobodyElse, List.all_eq_true, List.mem_range, Bool.or_eq_true, beq_iff_eq,
    Bool.not_eq_true']
  constructor
  · intro hall v hv
    rcases Nat.lt_or_ge v cfg.threadCount with hlt | hge
    · exact (hall v hlt).resolve_left hv
    · rw [h v hge, hidle]
  · intro hall v _
    by_cases hv : v = th
    · exact Or.inl hv
    · exact Or.inr (hall v hv)

theorem setThread_other (hu : u.threads = s.threads) {v : Nat} (hv : v ≠ th) :
    (u.setThread th pc').threads v = s.threads v := by
  simp [Lifecycle.setThread, hu, Function.update_of_ne hv]

theorem setThread_self : (u.setThread th pc').threads th = pc' := by
  simp [Lifecycle.setThread]

theorem setClient_other {j : Slot} (s : Lifecycle) (c : Client) (i : Slot) (hi : i ≠ j) :
    (s.setClient j c).clientPool i = s.clientPool i := by
  simp [Lifecycle.setClient, Function.update_of_ne hi]

theorem setClient_self {j : Slot} (s : Lifecycle) (c : Client) :
    (s.setClient j c).clientPool j = c := by
  simp [Lifecycle.setClient]

/-- What a write leaves alone in its client, it leaves alone in all of them. -/
theorem setClient_keeps {β : Type} (f : Client → β) (s : Lifecycle) {j : Slot} {c : Client}
    (i : Slot) (hc : f c = f (s.clientPool j)) :
    f ((s.setClient j c).clientPool i) = f (s.clientPool i) := by
  by_cases hij : i = j
  · subst hij
    rw [setClient_self, hc]
  · rw [setClient_other s c i hij]

theorem others_setThread (h : ∀ v, cfg.threadCount ≤ v → s.threads v = .idle)
    (hth : th < cfg.threadCount) (hu : u.threads = s.threads) :
    ∀ v, cfg.threadCount ≤ v → (u.setThread th pc').threads v = .idle := by
  intro v hv
  rw [setThread_other hu (by omega)]
  exact h v hv

theorem ThreadStep.lt_threadCount (hs : ThreadStep cfg s ok (s.threads th) t pc')
    (h : ∀ v, cfg.threadCount ≤ v → s.threads v = .idle) : th < cfg.threadCount := by
  by_contra hge
  rw [h th (by omega)] at hs
  cases hs

end

/-! ## Schedules -/

/-- Two threads and two slots. -/
def smallLifecycle (app : App) : LifecycleCfg := ⟨app, 2, 2, by decide⟩

/-- Thread `th` runs `SetupClient` to its end. -/
def setsUp (th : Nat) (acceptSocket : SocketHandle) : List LifecycleLabel :=
  .accepted th acceptSocket :: List.replicate 9 (.step th true)

end Highp.Network
