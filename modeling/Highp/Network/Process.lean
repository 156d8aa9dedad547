import Highp.Network.Lifecycle
import Highp.Network.Startup

/-! The two server processes from `main` to their exit, when any system call may fail. Nobody
connects in between. -/

namespace Highp.Network

inductive Exit
  | returned (code : Int)
  | crashed (crash : Crash)
  deriving DecidableEq

/-- What the chat server calls besides its lifecycle. -/
inductive ServerCall
  | onStarted
  | gameLoopStart
  | gameLoopStop
  | onStopping
  deriving DecidableEq

/-- `posted` are the accept sockets of the lifecycle when it is told to stop. -/
structure ServerRun where
  exit : Exit
  posted : List SocketHandle
  calls : List ServerCall
  resources : Resources

/-- The last reference to the listen socket goes: its destructor is `Cleanup`. -/
def dropListener (listenSocket : Option WindowsAsyncSocket) (r : Resources) : Resources :=
  match listenSocket with
  | none => r
  | some socket => socket.cleanup r

def stopLifecycle (lifecycle : Option ServerLifeCycle) (r : Resources) : Resources :=
  match lifecycle with
  | none => r
  | some lifecycle => (lifecycle.stop r).2

/-! ## The echo server -/

/-- `Server` of the echo server: its lifecycle. -/
structure EchoServer where
  lifecycle : Option ServerLifeCycle

namespace EchoServer

def start (answers : Answers) (cfg : StartCfg) (listenSocket : Option WindowsAsyncSocket)
    (r : Resources) : Started × EchoServer × Resources :=
  match ServerLifeCycle.start answers cfg listenSocket r with
  | (started, lifecycle, r) => (started, ⟨some lifecycle⟩, r)

/-- `Stop`, and the destructor as well. -/
def stop (s : EchoServer) (r : Resources) : EchoServer × Resources :=
  (⟨none⟩, stopLifecycle s.lifecycle r)

def posted (s : EchoServer) : List SocketHandle :=
  (s.lifecycle.map ServerLifeCycle.posted).getD []

end EchoServer

/-- The server is the younger of the two objects, so its destructor comes before the one of the
listen socket. -/
def echoMain (answers : Answers) (cfg : StartCfg) (r : Resources) : ServerRun :=
  match makeDefaultListener answers cfg.port r with
  | (listenSocket, r) =>
    match EchoServer.start answers cfg listenSocket r with
    | (.crash crash, es, r) => ⟨.crashed crash, es.posted, [], r⟩
    | (.err _, es, r) => ⟨.returned (-1), es.posted, [], dropListener listenSocket (es.stop r).2⟩
    | (.ok, es, r) =>
      match es.stop r with
      | (stopped, r) =>
        ⟨.returned 0, es.posted, [], dropListener listenSocket (stopped.stop r).2⟩

/-! ## The chat server -/

/-- `Server` of the chat server. `gameLoop` says whether it still has one. -/
structure ChatServer where
  lifecycle : Option ServerLifeCycle
  gameLoop : Bool
  hasStopped : Bool
  calls : List ServerCall

namespace ChatServer

def new : ChatServer := ⟨none, true, false, []⟩

def start (answers : Answers) (cfg : StartCfg) (listenSocket : Option WindowsAsyncSocket)
    (s : ChatServer) (r : Resources) : Started × ChatServer × Resources :=
  match ServerLifeCycle.start answers cfg listenSocket r with
  | (.ok, lifecycle, r) =>
    (.ok, { s with
      lifecycle := some lifecycle
      calls := s.calls ++ [.onStarted, .gameLoopStart] }, r)
  | (started, lifecycle, r) => (started, { s with lifecycle := some lifecycle }, r)

def stop (s : ChatServer) (r : Resources) : ChatServer × Resources :=
  (⟨none, false, true, s.calls ++ (if s.gameLoop then [.gameLoopStop] else []) ++ [.onStopping]⟩,
    stopLifecycle s.lifecycle r)

/-- The destructor. -/
def destroy (s : ChatServer) (r : Resources) : ChatServer × Resources :=
  if s.hasStopped then (s, r) else s.stop r

def posted (s : ChatServer) : List SocketHandle :=
  (s.lifecycle.map ServerLifeCycle.posted).getD []

end ChatServer

/-- The deferred `Stop` is older than the listen socket, so the listen socket goes first. -/
def chatMain (answers : Answers) (cfg : StartCfg) (r : Resources) : ServerRun :=
  match makeDefaultListener answers cfg.port r with
  | (listenSocket, r) =>
    match ChatServer.new.start answers cfg listenSocket r with
    | (.crash crash, s, r) => ⟨.crashed crash, s.posted, s.calls, r⟩
    | (.err _, s, r) =>
      match s.stop (dropListener listenSocket r) with
      | (stopped, r) =>
        match stopped.destroy r with
        | (gone, r) => ⟨.returned (-1), s.posted, gone.calls, r⟩
    | (.ok, s, r) =>
      match s.stop (dropListener listenSocket r) with
      | (stopped, r) =>
        match stopped.destroy r with
        | (gone, r) => ⟨.returned 0, s.posted, gone.calls, r⟩

def serverMain (app : App) (answers : Answers) (cfg : StartCfg) : ServerRun :=
  match app with
  | .echo => echoMain answers cfg .new
  | .chat => chatMain answers cfg .new

/-! ## The stop -/

section
variable {answers : Answers} {cfg : StartCfg} {r r₁ : Resources} {n : Nat} {h : SocketHandle}
  {hs ps listeners : List SocketHandle} {l : ServerLifeCycle} {started : Started}

/-- Behind the last `WSACleanup` each call on a socket is a misuse. -/
theorem touches_late (hr : r.started = 0) (count : Nat) :
    (fun r : Resources => r.touch h)^[count] r =
      { r with misused := r.misused || count != 0 } := by
  induction count with
  | zero => simp
  | succ count ih =>
    rw [Function.iterate_succ_apply', ih]
    simp [Resources.touch, hr]

theorem stop_eq (hrun : ∀ iocp, l.iocp = some iocp → iocp.isRunning = iocp.handle.isSome)
    (hr₁ : l.acceptor.elim r (fun acceptor => acceptor.shutdown (acceptor.shutdown r)) = r₁)
    (hports : r₁.ports.Perm l.ports) : (l.stop r).2 = { r₁ with ports := [] } := by
  have hstop : (l.stop r).2 = l.iocp.elim r₁ fun iocp => (iocp.shutdown r₁).2 := by
    rw [← hr₁]
    unfold ServerLifeCycle.stop
    cases l.acceptor <;> cases l.iocp <;> rfl
  rw [hstop]
  cases hiocp : l.iocp with
  | none =>
    have hnone : r₁.ports = [] := by simpa [ServerLifeCycle.ports, hiocp] using hports
    rw [Option.elim_none, ← hnone]
  | some iocp =>
    have hhandle : r₁.ports.Perm iocp.handle.toList := by
      simpa [ServerLifeCycle.ports, hiocp] using hports
    have hm : ∀ port ∈ iocp.handle, port ∈ r₁.ports := by
      intro port hport
      exact hhandle.mem_iff.mpr (Option.mem_toList.mpr hport)
    rw [Option.elim_some, shutdown_ports (hrun iocp hiocp) hm]
    cases hport : iocp.handle with
    | none =>
      have hnone : r₁.ports = [] := by simpa [hport] using hhandle
      rw [Option.elim_none, hnone]
    | some port =>
      have hone : r₁.ports = [port] := by simpa [hport] using hhandle
      simp [hone]

/-- A stop before the listen socket goes is a proper one. -/
theorem ServerLifeCycle.Came.stop (hc : l.Came cfg started listeners r) :
    Holds (stopLifecycle (some l) r) listeners.length (l.posted ++ listeners) [] := by
  have hr₁ : l.acceptor.elim r (fun acceptor => acceptor.shutdown (acceptor.shutdown r)) = r := by
    cases hacceptor : l.acceptor with
    | none => rfl
    | some acceptor =>
      have hlisten := hc.listening acceptor hacceptor
      have htouch : r.touch acceptor.listenSocket = r := by
        refine hc.holds.touch_eq ?_ ?_
        · simp [hlisten]
        · simp [hlisten]
      have hshutdown : acceptor.shutdown r = r := Function.iterate_fixed htouch _
      rw [Option.elim_some, hshutdown, hshutdown]
  have heq := stop_eq hc.running hr₁ hc.holds.ports
  rw [stopLifecycle, heq]
  exact ⟨hc.holds.started, hc.holds.sockets, .refl _, hc.holds.proper⟩

/-- A stop behind the end of Winsock cancels the posted requests of a closed socket. -/
theorem stop_late (hrun : ∀ iocp, l.iocp = some iocp → iocp.isRunning = iocp.handle.isSome)
    (hr : Holds r 0 l.posted l.ports) :
    stopLifecycle (some l) r = { r with ports := [], misused := l.posted.length != 0 } := by
  have hproper := hr.proper
  have hstart : (l.acceptor.elim r fun acceptor => acceptor.shutdown (acceptor.shutdown r)) =
      { r with misused := l.posted.length != 0 } := by
    cases hacceptor : l.acceptor with
    | none =>
      have hnone : l.posted = [] := by simp [ServerLifeCycle.posted, hacceptor]
      simp [hnone, ← hproper]
    | some acceptor =>
      have hsome : l.posted = acceptor.posted := by simp [ServerLifeCycle.posted, hacceptor]
      have hagain := touches_late (h := acceptor.listenSocket)
        (r := { r with misused := r.misused || acceptor.posted.length != 0 }) hr.started
        acceptor.posted.length
      rw [Option.elim_some, hsome, IocpAcceptor.shutdown, IocpAcceptor.shutdown,
        touches_late hr.started, hagain]
      simp [hproper]
  rw [stopLifecycle, stop_eq hrun hstart hr.ports]

end

/-! ## The processes -/

section
variable {answers : Answers} {cfg : StartCfg} {r r' : Resources} {started : Started}
  {listener : Option WindowsAsyncSocket} {l : ServerLifeCycle}

/-- What `Start` makes of a listener, or of none. -/
theorem start_spec (hlistener : makeDefaultListener answers cfg.port .new = (listener, r))
    (he : ServerLifeCycle.start answers cfg listener r = (started, l, r')) :
    (started = .crash .nullListenSocket ↔ listener = none ∧ answers r.asked = true) ∧
      (started = .crash .lengthError → cfg.maxClients < 0) ∧
      (started ≠ .crash .nullListenSocket → ∃ listeners, l.Came cfg started listeners r' ∧
        ∀ r ps, Holds r listeners.length (l.posted ++ listeners) ps →
          Holds (dropListener listener r) 0 l.posted ps) := by
  rcases makeDefaultListener_spec holds_new hlistener with ⟨rfl, hr⟩ | ⟨h, rfl, hr⟩
  · obtain ⟨hcame, hnull, hlength⟩ := start_none hr he
    refine ⟨by simpa using hnull, fun h => absurd h hlength, fun hne => ⟨[], hcame hne, ?_⟩⟩
    intro r ps hr
    simpa [dropListener] using hr
  · obtain ⟨hcame, hlength, hnull⟩ := start_some hr he
    refine ⟨by simp [hnull], hlength, fun _ => ⟨[h], hcame, ?_⟩⟩
    intro r ps hr
    exact Holds.cleanup (hr.perm List.perm_append_comm)

/-- What is left when a process has ended: accept sockets, and in the chat server a misuse for
them. -/
structure ServerRun.Ended (app : App) (run : ServerRun) : Prop where
  winsock : run.resources.started = 0
  ports : run.resources.ports = []
  sockets : run.resources.sockets.Perm run.posted
  misused : run.resources.misused = true ↔ app = .chat ∧ run.posted ≠ []

theorem echo_ended {exit : Exit} (h : Holds r 0 l.posted []) :
    ServerRun.Ended .echo ⟨exit, l.posted, [], r⟩ :=
  ⟨h.started, h.ports.eq_nil, h.sockets, by simp [h.proper]⟩

theorem chat_ended {exit : Exit} {calls : List ServerCall}
    (hrun : ∀ iocp, l.iocp = some iocp → iocp.isRunning = iocp.handle.isSome)
    (h : Holds r 0 l.posted l.ports) :
    ServerRun.Ended .chat ⟨exit, l.posted, calls, stopLifecycle (some l) r⟩ := by
  rw [stop_late hrun h]
  exact ⟨h.started, rfl, h.sockets, by simp⟩

theorem echoMain_eq (hlistener : makeDefaultListener answers cfg.port .new = (listener, r))
    (hstart : ServerLifeCycle.start answers cfg listener r = (started, l, r')) :
    serverMain .echo answers cfg = match started with
      | .crash crash => ⟨.crashed crash, l.posted, [], r'⟩
      | .err _ => ⟨.returned (-1), l.posted, [], dropListener listener (stopLifecycle (some l) r')⟩
      | .ok => ⟨.returned 0, l.posted, [], dropListener listener (stopLifecycle (some l) r')⟩ := by
  simp only [serverMain, echoMain, EchoServer.start, hlistener, hstart]
  cases started <;> rfl

theorem chatMain_eq (hlistener : makeDefaultListener answers cfg.port .new = (listener, r))
    (hstart : ServerLifeCycle.start answers cfg listener r = (started, l, r')) :
    serverMain .chat answers cfg = match started with
      | .crash crash => ⟨.crashed crash, l.posted, [], r'⟩
      | .err _ => ⟨.returned (-1), l.posted, [.gameLoopStop, .onStopping],
          stopLifecycle (some l) (dropListener listener r')⟩
      | .ok => ⟨.returned 0, l.posted, [.onStarted, .gameLoopStart, .gameLoopStop, .onStopping],
          stopLifecycle (some l) (dropListener listener r')⟩ := by
  simp only [serverMain, chatMain, ChatServer.start, hlistener, hstart]
  cases started <;> rfl

end

end Highp.Network
