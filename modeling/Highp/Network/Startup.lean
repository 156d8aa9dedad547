import Mathlib.Algebra.Order.Ring.Int
import Highp.Network.Resources

/-! How a server comes up and goes down: the listen socket, the completion port with its workers,
the acceptor and the pool, when any system call on the way may fail. -/

namespace Highp.Network

/-! ## `WindowsAsyncSocket` -/

structure WindowsAsyncSocket where
  socketHandle : Option SocketHandle
  wsaStarted : Bool

namespace WindowsAsyncSocket

def new : WindowsAsyncSocket := ⟨none, false⟩

/-- `Initialize`. -/
def initializeWsa (answers : Answers) (s : WindowsAsyncSocket) (r : Resources) :
    Bool × WindowsAsyncSocket × Resources :=
  if s.wsaStarted then (true, s, r)
  else
    match r.wsaStartup answers with
    | (false, r) => (false, s, r)
    | (true, r) => (true, { s with wsaStarted := true }, r)

def createSocket (answers : Answers) (s : WindowsAsyncSocket) (r : Resources) :
    Bool × WindowsAsyncSocket × Resources :=
  match r.socket answers with
  | (result, r) => (result.isSome, { s with socketHandle := result }, r)

/-- `Bind`. A port of zero is accepted without a call. -/
def bind (answers : Answers) (port : UInt16) (h : SocketHandle) (r : Resources) :
    Bool × Resources :=
  if port > 0 then r.onSocket answers h else (true, r)

/-- `Cleanup`. -/
def cleanup (s : WindowsAsyncSocket) (r : Resources) : Resources :=
  match s.socketHandle with
  | none => if s.wsaStarted then r.wsaCleanup else r
  | some h => if s.wsaStarted then (r.closesocket h).wsaCleanup else r.closesocket h

end WindowsAsyncSocket

/-- `SocketHelper::MakeDefaultListener`. The results of the two socket options are not looked at,
and a socket that is given up goes with its destructor. -/
def makeDefaultListener (answers : Answers) (port : UInt16) (r : Resources) :
    Option WindowsAsyncSocket × Resources :=
  match WindowsAsyncSocket.new.initializeWsa answers r with
  | (false, s, r) => (none, s.cleanup r)
  | (true, s, r) =>
    match s.createSocket answers r with
    | (false, s, r) => (none, s.cleanup r)
    | (true, s, r) =>
      match s.socketHandle with
      | none => (none, s.cleanup r)
      | some h =>
        match WindowsAsyncSocket.bind answers port h ((r.touch h).touch h) with
        | (false, r) => (none, s.cleanup r)
        | (true, r) =>
          match r.onSocket answers h with
          | (false, r) => (none, s.cleanup r)
          | (true, r) => (some s, r)

/-! ## `IocpIoMultiplexer` -/

/-- `workers` are the threads of `_workerThreads`. -/
structure IocpIoMultiplexer where
  handle : Option SocketHandle
  isRunning : Bool
  workers : Nat

def IocpIoMultiplexer.new : IocpIoMultiplexer := ⟨none, false, 0⟩

/-- The product of two 32-bit numbers as an `int`. -/
def workerCount (hardwareConcurrency : Nat) (maxWorkerThreadMultiplier : Int) : Int :=
  let product := (hardwareConcurrency * maxWorkerThreadMultiplier) % 2 ^ 32
  if product < 2 ^ 31 then product else product - 2 ^ 32

/-- `Initialize`. -/
def IocpIoMultiplexer.initializeIocp (answers : Answers) (workerThreadCount : Int) (r : Resources) :
    Bool × IocpIoMultiplexer × Resources :=
  match r.createPort answers with
  | (none, r) => (false, .new, r)
  | (some port, r) => (true, ⟨some port, true, workerThreadCount.toNat⟩, r)

/-- `Shutdown`: a null packet for each worker, the join, and the end of the port. -/
def IocpIoMultiplexer.shutdown (m : IocpIoMultiplexer) (r : Resources) :
    IocpIoMultiplexer × Resources :=
  if !m.isRunning then (m, r)
  else
    match m.handle with
    | none => ({ m with isRunning := false, workers := 0 }, r)
    | some port =>
      (.new, ((fun r : Resources => r.touchPort port)^[m.workers] r).closePort port)

/-! ## `IocpAcceptor` -/

/-- `posted` are the accept sockets of the requests in the holder. -/
structure IocpAcceptor where
  listenSocket : SocketHandle
  posted : List SocketHandle

namespace IocpAcceptor

/-- `Initialize` with `LoadAcceptExFunctions`. -/
def initializeAcceptor (answers : Answers) (listenSocket port : SocketHandle) (r : Resources) :
    Bool × IocpAcceptor × Resources :=
  match (r.touchPort port).onSocket answers listenSocket with
  | (false, r) => (false, ⟨listenSocket, []⟩, r)
  | (true, r) =>
    match r.onSocket answers listenSocket with
    | (false, r) => (false, ⟨listenSocket, []⟩, r)
    | (true, r) =>
      match r.onSocket answers listenSocket with
      | (ok, r) => (ok, ⟨listenSocket, []⟩, r)

def postAccept (answers : Answers) (a : IocpAcceptor) (r : Resources) :
    Bool × IocpAcceptor × Resources :=
  match r.socket answers with
  | (none, r) => (false, a, r)
  | (some h, r) =>
    match r.onSocket answers a.listenSocket with
    | (false, r) => (false, a, r.closesocket h)
    | (true, r) => (true, { a with posted := h :: a.posted }, r)

def postAccepts (answers : Answers) : Nat → IocpAcceptor → Resources →
    Bool × IocpAcceptor × Resources
  | 0, a, r => (true, a, r)
  | count + 1, a, r =>
    match a.postAccept answers r with
    | (false, a, r) => (false, a, r)
    | (true, a, r) => postAccepts answers count a r

/-- `Shutdown`: one `CancelIoEx` for each request. The accept sockets stay as they are. -/
def shutdown (a : IocpAcceptor) (r : Resources) : Resources :=
  (fun r : Resources => r.touch a.listenSocket)^[a.posted.length] r

end IocpAcceptor

/-! ## `ServerLifeCycle` -/

/-- `clients` is the size of the pool. -/
structure ServerLifeCycle where
  iocp : Option IocpIoMultiplexer
  acceptor : Option IocpAcceptor
  clients : Nat

/-- What `Start` reads of the configuration, and the processors. -/
structure StartCfg where
  port : UInt16
  maxClients : Int
  backlog : Int
  hardwareConcurrency : Nat
  maxWorkerThreadMultiplier : Int

inductive StartError
  | iocpCreateFailed
  | threadAcceptFailed
  deriving DecidableEq

inductive Crash
  /-- `listenSocket->GetSocketHandle()` on a null pointer. -/
  | nullListenSocket
  /-- `reserve` of a negative number throws `std::length_error`. -/
  | lengthError
  deriving DecidableEq

inductive Started
  | ok
  | err (error : StartError)
  | crash (crash : Crash)
  deriving DecidableEq

namespace ServerLifeCycle

def new : ServerLifeCycle := ⟨none, none, 0⟩

/-- `Start` behind the acceptor: the pool and the requests. -/
def startAccepting (answers : Answers) (cfg : StartCfg) (iocp : IocpIoMultiplexer)
    (acceptor : IocpAcceptor) (r : Resources) : Started × ServerLifeCycle × Resources :=
  if cfg.maxClients < 0 then (.crash .lengthError, ⟨some iocp, some acceptor, 0⟩, r)
  else
    match acceptor.postAccepts answers cfg.backlog.toNat r with
    | (false, acceptor, r) =>
      (.err .threadAcceptFailed, ⟨some iocp, some acceptor, cfg.maxClients.toNat⟩, r)
    | (true, acceptor, r) => (.ok, ⟨some iocp, some acceptor, cfg.maxClients.toNat⟩, r)

/-- `Start` of a new object. -/
def start (answers : Answers) (cfg : StartCfg) (listenSocket : Option WindowsAsyncSocket)
    (r : Resources) : Started × ServerLifeCycle × Resources :=
  match IocpIoMultiplexer.initializeIocp answers
      (workerCount cfg.hardwareConcurrency cfg.maxWorkerThreadMultiplier) r with
  | (false, iocp, r) => (.err .iocpCreateFailed, ⟨some iocp, none, 0⟩, r)
  | (true, iocp, r) =>
    match listenSocket.bind WindowsAsyncSocket.socketHandle, iocp.handle with
    | some h, some port =>
      match IocpAcceptor.initializeAcceptor answers h port r with
      | (false, acceptor, r) => (.err .iocpCreateFailed, ⟨some iocp, some acceptor, 0⟩, r)
      | (true, acceptor, r) => startAccepting answers cfg iocp acceptor r
    | _, _ => (.crash .nullListenSocket, ⟨some iocp, none, 0⟩, r)

/-- `Stop`. The acceptor shuts down again in its destructor. -/
def stop (l : ServerLifeCycle) (r : Resources) : ServerLifeCycle × Resources :=
  let r := match l.acceptor with
    | none => r
    | some acceptor => acceptor.shutdown (acceptor.shutdown r)
  match l.iocp with
  | none => (.new, r)
  | some iocp => (.new, (iocp.shutdown r).2)

/-- The accept sockets that a lifecycle has posted. -/
def posted (l : ServerLifeCycle) : List SocketHandle := (l.acceptor.map IocpAcceptor.posted).getD []

/-- The port that it has. -/
def ports (l : ServerLifeCycle) : List SocketHandle :=
  (l.iocp.bind IocpIoMultiplexer.handle).toList

end ServerLifeCycle

/-! ## What each part takes -/

section
variable {answers : Answers} {r r' : Resources} {n : Nat} {hs ps : List SocketHandle}
  {h port : SocketHandle} {ok : Bool}

/-- A proper call on a socket takes nothing. -/
theorem Holds.touch_eq (hr : Holds r n hs ps) (hn : n ≠ 0) (hm : h ∈ hs) : r.touch h = r := by
  have hsocket : h ∈ r.sockets := hr.sockets.mem_iff.mpr hm
  have hstarted : (r.started == 0) = false := by simp [hr.started, hn]
  simp [Resources.touch, hsocket, hstarted]

theorem touchPort_eq (hm : port ∈ r.ports) : r.touchPort port = r := by
  simp [Resources.touchPort, hm]

theorem Holds.bind {portNumber : UInt16} (hr : Holds r n hs ps) (hn : n ≠ 0) (hm : h ∈ hs)
    (he : WindowsAsyncSocket.bind answers portNumber h r = (ok, r')) : Holds r' n hs ps := by
  unfold WindowsAsyncSocket.bind at he
  split at he
  · exact hr.onSocket hn hm he
  · cases he
    exact hr

/-- The end of a listener, whether it is given up or no longer needed. -/
theorem Holds.cleanup (hr : Holds r 1 (h :: hs) ps) :
    Holds ((⟨some h, true⟩ : WindowsAsyncSocket).cleanup r) 0 hs ps := by
  have hclosed := hr.closesocket Nat.one_ne_zero (.head _)
  rw [List.erase_cons_head] at hclosed
  exact hclosed.wsaCleanup

/-- A listener is a started Winsock and one socket, and no listener is nothing at all. -/
theorem makeDefaultListener_spec {portNumber : UInt16} {listener : Option WindowsAsyncSocket}
    (hr : Holds r 0 [] []) (he : makeDefaultListener answers portNumber r = (listener, r')) :
    (listener = none ∧ Holds r' 0 [] []) ∨
      ∃ h, listener = some ⟨some h, true⟩ ∧ Holds r' 1 [h] [] := by
  unfold makeDefaultListener WindowsAsyncSocket.initializeWsa at he
  simp only [WindowsAsyncSocket.new, Bool.false_eq_true, if_false] at he
  cases hstart : r.wsaStartup answers with
  | mk started r₁ =>
    have hr₁ := hr.wsaStartup hstart
    rw [hstart] at he
    cases started with
    | false =>
      cases he
      exact .inl ⟨rfl, hr₁⟩
    | true =>
      simp only [WindowsAsyncSocket.createSocket] at he
      cases hsocket : r₁.socket answers with
      | mk result r₂ =>
        have hr₂ := hr₁.socket hsocket
        rw [hsocket] at he
        cases result with
        | none =>
          cases he
          exact .inl ⟨rfl, hr₂.wsaCleanup⟩
        | some h =>
          simp only [Option.isSome_some] at he
          have hone : (1 : Nat) ≠ 0 := Nat.one_ne_zero
          have htouched := (hr₂.touch hone (.head _)).touch hone (.head _)
          cases hbind : WindowsAsyncSocket.bind answers portNumber h ((r₂.touch h).touch h) with
          | mk bound r₃ =>
            have hr₃ := htouched.bind hone (.head _) hbind
            rw [hbind] at he
            cases bound with
            | false =>
              cases he
              exact .inl ⟨rfl, Holds.cleanup hr₃⟩
            | true =>
              simp only at he
              cases hlisten : r₃.onSocket answers h with
              | mk listening r₄ =>
                have hr₄ := hr₃.onSocket hone (.head _) hlisten
                rw [hlisten] at he
                cases listening with
                | false =>
                  cases he
                  exact .inl ⟨rfl, Holds.cleanup hr₄⟩
                | true =>
                  cases he
                  exact .inr ⟨h, rfl, hr₄⟩

theorem initializeIocp_spec {workers : Int} {iocp : IocpIoMultiplexer} (hr : Holds r n hs [])
    (he : IocpIoMultiplexer.initializeIocp answers workers r = (ok, iocp, r')) :
    ok = answers r.asked ∧ Holds r' n hs iocp.handle.toList ∧ iocp.handle.isSome = ok ∧
      iocp.isRunning = ok := by
  unfold IocpIoMultiplexer.initializeIocp at he
  cases hport : r.createPort answers with
  | mk result r₁ =>
    have hr₁ := hr.createPort hport
    have hanswer : result.isSome = answers r.asked := by
      unfold Resources.createPort at hport
      cases hasked : answers r.asked <;> simp [hasked] at hport <;> simp [← hport.1]
    rw [hport] at he
    cases result with
    | none =>
      cases he
      exact ⟨hanswer, hr₁, rfl, rfl⟩
    | some port =>
      cases he
      exact ⟨hanswer, hr₁, rfl, rfl⟩

theorem initializeAcceptor_spec {acceptor : IocpAcceptor} (hr : Holds r n hs ps) (hn : n ≠ 0)
    (hm : h ∈ hs) (hport : port ∈ ps)
    (he : IocpAcceptor.initializeAcceptor answers h port r = (ok, acceptor, r')) :
    acceptor = ⟨h, []⟩ ∧ Holds r' n hs ps := by
  unfold IocpAcceptor.initializeAcceptor at he
  cases hassociate : (r.touchPort port).onSocket answers h with
  | mk associated r₁ =>
    have hr₁ := (hr.touchPort hport).onSocket hn hm hassociate
    rw [hassociate] at he
    cases associated with
    | false =>
      cases he
      exact ⟨rfl, hr₁⟩
    | true =>
      simp only at he
      cases hload : r₁.onSocket answers h with
      | mk loaded r₂ =>
        have hr₂ := hr₁.onSocket hn hm hload
        rw [hload] at he
        cases loaded with
        | false =>
          cases he
          exact ⟨rfl, hr₂⟩
        | true =>
          simp only at he
          cases hlast : r₂.onSocket answers h with
          | mk last r₃ =>
            rw [hlast] at he
            cases he
            exact ⟨rfl, hr₂.onSocket hn hm hlast⟩

/-- A request takes one socket, and a request that fails takes none. -/
theorem postAccept_spec {a a' : IocpAcceptor} (hr : Holds r n (a.posted ++ hs) ps) (hn : n ≠ 0)
    (hm : a.listenSocket ∈ hs) (he : a.postAccept answers r = (ok, a', r')) :
    a'.listenSocket = a.listenSocket ∧ a'.posted.length = a.posted.length + ok.toNat ∧
      Holds r' n (a'.posted ++ hs) ps := by
  unfold IocpAcceptor.postAccept at he
  cases hsocket : r.socket answers with
  | mk result r₁ =>
    have hr₁ := hr.socket hsocket
    rw [hsocket] at he
    cases result with
    | none =>
      cases he
      exact ⟨rfl, rfl, hr₁⟩
    | some h =>
      have hlisten : a.listenSocket ∈ h :: (a.posted ++ hs) := by simp [hm]
      simp only at he
      cases hpost : r₁.onSocket answers a.listenSocket with
      | mk accepted r₂ =>
        have hr₂ := hr₁.onSocket hn hlisten hpost
        rw [hpost] at he
        cases accepted with
        | false =>
          cases he
          refine ⟨rfl, rfl, ?_⟩
          have hclosed := hr₂.closesocket hn (.head _)
          simpa using hclosed
        | true =>
          cases he
          exact ⟨rfl, rfl, hr₂⟩

theorem postAccepts_spec {a a' : IocpAcceptor} {count : Nat} (hr : Holds r n (a.posted ++ hs) ps)
    (hn : n ≠ 0) (hm : a.listenSocket ∈ hs)
    (he : IocpAcceptor.postAccepts answers count a r = (ok, a', r')) :
    a'.listenSocket = a.listenSocket ∧ Holds r' n (a'.posted ++ hs) ps ∧
      (ok = true → a'.posted.length = a.posted.length + count) := by
  induction count generalizing a r with
  | zero =>
    cases he
    exact ⟨rfl, hr, fun _ => rfl⟩
  | succ count ih =>
    unfold IocpAcceptor.postAccepts at he
    cases hpost : a.postAccept answers r with
    | mk posted rest =>
      obtain ⟨a₁, r₁⟩ := rest
      obtain ⟨hlisten, hlength, hr₁⟩ := postAccept_spec hr hn hm hpost
      rw [hpost] at he
      cases posted with
      | false =>
        cases he
        exact ⟨hlisten, hr₁, nofun⟩
      | true =>
        obtain ⟨hlast, hfinal, hcount⟩ := ih hr₁ (hlisten ▸ hm) he
        refine ⟨hlast.trans hlisten, hfinal, fun hok => ?_⟩
        rw [hcount hok, hlength]
        simp only [Bool.toNat_true]
        omega

/-- What a lifecycle is and has when `Start` comes back. -/
structure ServerLifeCycle.Came (cfg : StartCfg) (started : Started) (l : ServerLifeCycle)
    (listeners : List SocketHandle) (r : Resources) : Prop where
  holds : Holds r listeners.length (l.posted ++ listeners) l.ports
  running : ∀ iocp, l.iocp = some iocp → iocp.isRunning = iocp.handle.isSome
  listening : ∀ acceptor, l.acceptor = some acceptor → listeners = [acceptor.listenSocket]
  count : started = .ok → l.posted.length = cfg.backlog.toNat

theorem startAccepting_spec {cfg : StartCfg} {iocp : IocpIoMultiplexer} {a : IocpAcceptor}
    {started : Started} {l : ServerLifeCycle} (hrun : iocp.isRunning = iocp.handle.isSome)
    (hempty : a.posted = []) (hr : Holds r 1 [a.listenSocket] iocp.handle.toList)
    (he : ServerLifeCycle.startAccepting answers cfg iocp a r = (started, l, r')) :
    l.Came cfg started [a.listenSocket] r' ∧
      (started = .crash .lengthError ↔ cfg.maxClients < 0) ∧
      started ≠ .crash .nullListenSocket := by
  unfold ServerLifeCycle.startAccepting at he
  split at he
  · rename_i hneg
    cases he
    refine ⟨⟨?_, ?_, ?_, nofun⟩, by simp [hneg], nofun⟩
    · simpa [ServerLifeCycle.posted, ServerLifeCycle.ports, hempty] using hr
    · rintro x hx
      cases hx
      exact hrun
    · rintro x hx
      cases hx
      rfl
  · rename_i hneg
    cases hposts : a.postAccepts answers cfg.backlog.toNat r with
    | mk posted rest =>
      obtain ⟨a', r₁⟩ := rest
      have hholds : Holds r 1 (a.posted ++ [a.listenSocket]) iocp.handle.toList := by
        simpa [hempty] using hr
      obtain ⟨hlisten, hr₁, hcount⟩ := postAccepts_spec hholds Nat.one_ne_zero (.head _) hposts
      have hcame : ∀ started', (started' = .ok → posted = true) → ServerLifeCycle.Came cfg started'
          ⟨some iocp, some a', cfg.maxClients.toNat⟩ [a.listenSocket] r₁ := by
        intro started' hok
        refine ⟨hr₁, ?_, ?_, fun h => ?_⟩
        · rintro x hx
          cases hx
          exact hrun
        · rintro x hx
          cases hx
          rw [hlisten]
        · have hall := hcount (hok h)
          rw [hempty] at hall
          simpa [ServerLifeCycle.posted] using hall
      rw [hposts] at he
      cases posted with
      | false =>
        cases he
        exact ⟨hcame _ nofun, by simp [hneg], nofun⟩
      | true =>
        cases he
        exact ⟨hcame _ fun _ => rfl, by simp [hneg], nofun⟩

/-- `Start` without a listener crashes as soon as there is a port. -/
theorem start_none {cfg : StartCfg} {started : Started} {l : ServerLifeCycle}
    (hr : Holds r 0 [] []) (he : ServerLifeCycle.start answers cfg none r = (started, l, r')) :
    (started ≠ .crash .nullListenSocket → l.Came cfg started [] r') ∧
      (started = .crash .nullListenSocket ↔ answers r.asked = true) ∧
      started ≠ .crash .lengthError := by
  unfold ServerLifeCycle.start at he
  cases hiocp : IocpIoMultiplexer.initializeIocp answers
      (workerCount cfg.hardwareConcurrency cfg.maxWorkerThreadMultiplier) r with
  | mk created rest =>
    obtain ⟨iocp, r₁⟩ := rest
    obtain ⟨hasked, hr₁, hhandle, hrun⟩ := initializeIocp_spec hr hiocp
    rw [hiocp] at he
    cases created with
    | false =>
      cases he
      refine ⟨fun _ => ⟨hr₁, ?_, nofun, nofun⟩, by simp [← hasked], nofun⟩
      rintro x hx
      cases hx
      rw [hrun, hhandle]
    | true =>
      simp only [Option.bind_none] at he
      cases he
      exact ⟨fun h => absurd rfl h, by simp [← hasked], nofun⟩

theorem start_some {cfg : StartCfg} {started : Started} {l : ServerLifeCycle}
    (hr : Holds r 1 [h] [])
    (he : ServerLifeCycle.start answers cfg (some ⟨some h, true⟩) r = (started, l, r')) :
    l.Came cfg started [h] r' ∧ (started = .crash .lengthError → cfg.maxClients < 0) ∧
      started ≠ .crash .nullListenSocket := by
  unfold ServerLifeCycle.start at he
  cases hiocp : IocpIoMultiplexer.initializeIocp answers
      (workerCount cfg.hardwareConcurrency cfg.maxWorkerThreadMultiplier) r with
  | mk created rest =>
    obtain ⟨iocp, r₁⟩ := rest
    obtain ⟨hasked, hr₁, hhandle, hrun⟩ := initializeIocp_spec hr hiocp
    have hsound : ∀ x, some iocp = some x → x.isRunning = x.handle.isSome := by
      rintro x hx
      cases hx
      rw [hrun, hhandle]
    rw [hiocp] at he
    cases created with
    | false =>
      cases he
      exact ⟨⟨hr₁, hsound, nofun, nofun⟩, nofun, nofun⟩
    | true =>
      obtain ⟨port, hport⟩ := Option.isSome_iff_exists.mp hhandle
      simp only [Option.bind_some, hport] at he
      cases hacceptor : IocpAcceptor.initializeAcceptor answers h port r₁ with
      | mk made rest =>
        obtain ⟨a, r₂⟩ := rest
        obtain ⟨rfl, hr₂⟩ := initializeAcceptor_spec hr₁ Nat.one_ne_zero (.head _)
          (by simp [hport]) hacceptor
        rw [hacceptor] at he
        cases made with
        | false =>
          cases he
          refine ⟨⟨hr₂, hsound, ?_, nofun⟩, nofun, nofun⟩
          rintro x hx
          cases hx
          rfl
        | true =>
          obtain ⟨hcame, hlength, hnull⟩ := startAccepting_spec (hsound iocp rfl) rfl hr₂ he
          exact ⟨hcame, hlength.mp, hnull⟩

/-- The shutdown of the port gives back the port and nothing else. -/
theorem shutdown_ports {iocp : IocpIoMultiplexer} (hrun : iocp.isRunning = iocp.handle.isSome)
    (hm : ∀ port ∈ iocp.handle, port ∈ r.ports) :
    (iocp.shutdown r).2 = { r with ports := iocp.handle.elim r.ports r.ports.erase } := by
  obtain ⟨handle, isRunning, workers⟩ := iocp
  simp only at hrun hm
  subst hrun
  cases handle with
  | none => rfl
  | some port =>
    have htouch := touchPort_eq (hm port rfl)
    have hall : (fun r : Resources => r.touchPort port)^[workers] r = r :=
      Function.iterate_fixed htouch workers
    simp only [IocpIoMultiplexer.shutdown, Option.isSome_some, Bool.not_true, Bool.false_eq_true,
      if_false, hall, Resources.closePort, htouch, Option.elim_some]

end

end Highp.Network
