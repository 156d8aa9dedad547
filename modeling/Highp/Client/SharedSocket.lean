import Highp.Client.Connections
import Highp.Client.Disconnects

/-! The socket and the session of the chat client, one access at a time. The thread that uses the
client closes and replaces the socket in `Connect` and `Disconnect`, and a receive thread closes it
when it finds the connection broken. -/

namespace Highp.Client
open Highp.Lib Highp.Network

/-! ## The model -/

/-- Where a receive thread is. -/
def ClientThreads.place (s : ClientThreads) (holder : Holder) : Option RecvPc :=
  (s.threads holder).map RecvThread.pc

/-- Where a thread is inside a piece of `Disconnects` that is more than one access: at its
beginning, in `Close` of the socket, or between two members of `Connect` or `Disconnect`. The
locals of `Connect` have their socket in `assignSession` and `assignSocket`. -/
inductive Inside
  | begin
  | handle
  | shutdown
  | closesocket
  | reset
  | assignSession (socketHandle : SocketHandle)
  | assignSocket (socketHandle : SocketHandle)
  | resetSession
  deriving DecidableEq

/-- The client, its threads and what the process has of the system. -/
structure ChatClient where
  threads : ClientThreads
  wsaSession : Bool
  tcpClientSocket : Option TcpClientSocket
  inApp : Inside
  inRecv : Holder → Inside
  resources : Resources

inductive ChatLabel
  | thread (l : ClientLabel)
  /-- `Connect` makes its session and its socket. -/
  | create (port : UInt16)
  deriving DecidableEq

namespace ChatClient

def handle (c : ChatClient) : Option SocketHandle :=
  c.tcpClientSocket.bind TcpClientSocket.socketHandle

/-- A call on the handle of the socket object, whatever it is by now. -/
def onHandle (c : ChatClient) (call : SocketHandle → Resources → Resources) : ChatClient :=
  { c with
    resources := match c.handle with
      | some h => call h c.resources
      | none => { c.resources with misused := true } }

/-- The next access of `if (_tcpClientSocket) _tcpClientSocket->Close()`, and where the thread is
behind it, if it is not through. -/
def closeStep (c : ChatClient) : Inside → ChatClient × Option Inside
  | .begin => (c, if c.tcpClientSocket.isSome then some .handle else none)
  | .handle => (c, if c.handle.isSome then some .shutdown else none)
  | .shutdown => (c.onHandle Resources.touch, some .closesocket)
  | .closesocket => (c.onHandle Resources.closesocket, some .reset)
  | .reset =>
    ({ c with
      tcpClientSocket := c.tcpClientSocket.map fun socket => { socket with socketHandle := none } },
      none)
  | _ => (c, none)

/-- A receive thread is in `Close`. -/
def recvInside (c : ChatClient) : Bool :=
  c.inRecv .current != .begin || c.inRecv .temporary != .begin

/-- The socket object is destroyed. Its destructor closes it, and nobody may be inside it. -/
def destroySocket (c : ChatClient) : ChatClient :=
  match c.tcpClientSocket with
  | none => c
  | some socket =>
    { c with
      tcpClientSocket := none
      resources :=
        { (socket.close c.resources).2 with
          misused := (socket.close c.resources).2.misused || c.recvInside } }

/-- The thread that uses the client goes on to the next piece. -/
def goOn (c : ChatClient) (l : ClientLabel) : Option ChatClient :=
  (c.threads.step l).map fun threads => { c with threads, inApp := .begin }

/-- The thread that uses the client. A session goes with the last reference to it, which is that of
the client or that of its socket. -/
def appStep (c : ChatClient) (ok : Bool) : Option ChatClient :=
  match c.threads.app, c.inApp with
  | .close _ _, inside =>
    match c.closeStep inside with
    | (c, some next) => some { c with inApp := next }
    | (c, none) => c.goOn (.app ok)
  | .tryConnect, .assignSession h =>
    some { c with
      wsaSession := true
      resources := dropSession (c.wsaSession && c.tcpClientSocket.isNone) c.resources
      inApp := .assignSocket h }
  | .tryConnect, .assignSocket h =>
    goOn { c with
      tcpClientSocket := some ⟨true, some h⟩
      resources := dropSession c.tcpClientSocket.isSome c.destroySocket.resources } (.app true)
  | .tryConnect, _ => none
  | .reset _ _, .resetSession =>
    goOn { c with wsaSession := false, resources := dropSession c.wsaSession c.resources } (.app ok)
  | .reset _ _, _ =>
    some { c.destroySocket with
      resources := dropSession (c.tcpClientSocket.isSome && !c.wsaSession) c.destroySocket.resources
      inApp := .resetSession }
  | .assign, _ =>
    -- the new thread takes its place along
    (c.goOn (.app ok)).map fun c =>
      { c with inRecv := fun holder => if holder = .current then c.inRecv .temporary else .begin }
  | _, _ => c.goOn (.app ok)

/-- A receive thread. -/
def recvStep (c : ChatClient) (holder : Holder) (ok : Bool) : Option ChatClient :=
  if c.threads.place holder = some .close then
    match c.closeStep (c.inRecv holder) with
    | (c, some next) => some { c with inRecv := Function.update c.inRecv holder next }
    | (c, none) =>
      (c.threads.step (.recv holder ok)).map fun threads =>
        { c with threads, inRecv := Function.update c.inRecv holder .begin }
  else (c.threads.step (.recv holder ok)).map fun threads => { c with threads }

/-- `Connect` as far as its locals, which are nobody else's. -/
def create (answers : Answers) (c : ChatClient) (port : UInt16) : Option ChatClient :=
  if c.threads.app = .tryConnect ∧ c.inApp = .begin then
    match c.resources.wsaStartup answers with
    | (false, resources) => { c with resources }.goOn (.app false)
    | (true, r) =>
      match TcpClientSocket.connect answers ⟨true, none⟩ port r with
      | (.ok _, ⟨_, some h⟩, resources) => some { c with resources, inApp := .assignSession h }
      | (_, socket, r) =>
        { c with resources := dropSession true (socket.close r).2 }.goOn (.app false)
  else none

def step (answers : Answers) (c : ChatClient) : ChatLabel → Option ChatClient
  | .thread (.app ok) => c.appStep ok
  | .thread (.recv holder ok) => c.recvStep holder ok
  | .thread l => c.goOn l
  | .create port => c.create answers port

end ChatClient

def chatClient (answers : Answers) : System ChatClient ChatLabel where
  start := ⟨clientSystem.start, false, none, .begin, fun _ => .begin, .new⟩
  step := ChatClient.step answers

/-! ## When the threads keep apart -/

/-- A receive thread has loaded `true` behind an error and has not yet closed the socket. -/
def RecvPc.closing (pc : RecvPc) : Bool := pc == .store || pc == .close

/-- No receive thread is there. -/
def ClientThreads.quiet (s : ClientThreads) : Bool :=
  (s.threads .current).all (fun t => !t.pc.closing) &&
    (s.threads .temporary).all fun t => !t.pc.closing

/-- The next step of the thread that uses the client closes the socket or destroys it. -/
def ChatClient.touchesSocket (c : ChatClient) : Bool :=
  match c.threads.app, c.inApp with
  | .close _ _, _ => true
  | .tryConnect, .assignSocket _ => true
  | _, _ => false

/-- A step of the thread that uses the client. -/
def ClientLabel.isApp : ClientLabel → Bool
  | .app _ => true
  | _ => false

/-- The threads do not meet when they count a session, and `Disconnect` and `Connect` leave the old
socket alone until the receive thread has closed it that has found it broken. -/
def Undisturbed (c : ChatClient) : ChatLabel → Prop
  | .thread l => Apart c.threads l ∧
      (l.isApp = true → c.touchesSocket = true → c.threads.quiet = true)
  | .create _ => True

instance (c : ChatClient) : ∀ l, Decidable (Undisturbed c l)
  | .thread l => inferInstanceAs (Decidable (Apart c.threads l ∧ (_ → _ → _)))
  | .create _ => .isTrue trivial

/-! ## What the client has -/

namespace Inside

/-- The thread is in `Close` of the socket object. -/
def inClose : Inside → Bool
  | .handle => true
  | .shutdown => true
  | .closesocket => true
  | .reset => true
  | _ => false

/-- It has found a handle there. -/
def inHandle : Inside → Bool
  | .shutdown => true
  | .closesocket => true
  | .reset => true
  | _ => false

/-- The socket that the locals of `Connect` have. -/
def fresh : Inside → Option SocketHandle
  | .assignSession h => some h
  | .assignSocket h => some h
  | _ => none

/-- One of the members has changed and the other has not. -/
def between : Inside → Bool
  | .assignSocket _ => true
  | .resetSession => true
  | _ => false

/-- The places that a piece of the thread that uses the client has. -/
def fits : Inside → AppPc → Bool
  | .begin, _ => true
  | .assignSession _, .tryConnect => true
  | .assignSocket _, .tryConnect => true
  | .resetSession, .reset _ _ => true
  | inside, .close _ _ => inside.inClose
  | _, _ => false

theorem inClose_of_inHandle {inside : Inside} (h : inside.inHandle = true) :
    inside.inClose = true := by
  cases inside <;> first | rfl | cases h

theorem fits_close {inside : Inside} (h : inside.inClose = true) (wasConnected : Bool)
    (caller : Caller) : inside.fits (.close wasConnected caller) = true := by
  cases inside <;> first | rfl | cases h

theorem close_of_fits {inside : Inside} {app : AppPc} (h : inside.fits app = true)
    (hclose : inside.inClose = true) : ∃ wasConnected caller, app = .close wasConnected caller := by
  cases app with
  | close wasConnected caller => exact ⟨wasConnected, caller, rfl⟩
  | _ => cases inside <;> first | (cases hclose; done) | cases h

theorem inClose_of_fits {inside : Inside} {wasConnected : Bool} {caller : Caller}
    (h : inside.fits (.close wasConnected caller) = true) :
    inside = .begin ∨ inside.inClose = true := by
  cases inside <;> first | exact .inl rfl | exact .inr h

/-- Elsewhere it has no places of its own. -/
theorem begin_of_fits {inside : Inside} {app : AppPc} (h : inside.fits app = true)
    (hconnect : app ≠ .tryConnect)
    (hclose : ∀ wasConnected caller, app ≠ .close wasConnected caller)
    (hreset : ∀ wasConnected caller, app ≠ .reset wasConnected caller) : inside = .begin := by
  cases app with
  | tryConnect => exact absurd rfl hconnect
  | close wasConnected caller => exact absurd rfl (hclose wasConnected caller)
  | reset wasConnected caller => exact absurd rfl (hreset wasConnected caller)
  | _ => cases inside <;> first | rfl | cases h

theorem reset_of_fits {app : AppPc} (h : Inside.resetSession.fits app = true) :
    ∃ wasConnected caller, app = .reset wasConnected caller := by
  cases app with
  | reset wasConnected caller => exact ⟨wasConnected, caller, rfl⟩
  | _ => cases h

theorem plain_of_inClose {inside : Inside} (h : inside = .begin ∨ inside.inClose = true) :
    inside.fresh = none ∧ inside.between = false := by
  cases inside <;> first | exact ⟨rfl, rfl⟩ | simp [inClose] at h

end Inside

namespace ChatClient

/-- The handle that `_tcpClientSocket` has is closed and not yet forgotten. -/
def closed (c : ChatClient) : Bool :=
  c.inApp == .reset || c.inRecv .current == .reset || c.inRecv .temporary == .reset

/-- The sockets that the client has open. -/
def sockets (c : ChatClient) : List SocketHandle :=
  (if c.closed then [] else c.handle.toList) ++ c.inApp.fresh.toList

/-- The sessions that the client has. Its socket refers to the same session as the client does, but
in the middle of `Connect`. -/
def sessions (c : ChatClient) : Nat :=
  match c.inApp with
  | .assignSession _ => c.tcpClientSocket.isSome.toNat + 1
  | .assignSocket _ => c.tcpClientSocket.isSome.toNat + 1
  | _ => c.wsaSession.toNat

end ChatClient

/-- Somebody will close the socket, or it is in use. -/
def AppPc.attending : AppPc → Bool
  | .connectStore => true
  | .requestStop _ _ => true
  | .close _ _ => true
  | _ => false

/-- `Disconnect` has given the socket and the session back, or there were none. -/
def AppPc.settled : AppPc → Bool
  | .onDisconnected _ => true
  | .destroyMembers => true
  | .gone => true
  | _ => false

/-! ## Where the receive threads are -/

namespace ClientThreads
variable {s t : ClientThreads} {holder : Holder} {ok : Bool}

theorem quiet_iff : s.quiet = true ↔
    ∀ holder, s.place holder ≠ some .store ∧ s.place holder ≠ some .close := by
  have hone : ∀ thread : Option RecvThread, thread.all (fun t => !t.pc.closing) = true ↔
      thread.map RecvThread.pc ≠ some .store ∧ thread.map RecvThread.pc ≠ some .close := by
    intro thread
    cases thread with
    | none => simp
    | some t =>
      obtain ⟨pc, stopRequested⟩ := t
      cases pc <;> simp [RecvPc.closing]
  rw [quiet, Bool.and_eq_true, hone, hone]
  constructor
  · rintro ⟨hcurrent, htemporary⟩ (_ | _)
    · exact hcurrent
    · exact htemporary
  · exact fun h => ⟨h .current, h .temporary⟩

theorem any_of_place {pc : RecvPc} (h : s.place holder = some pc) (p : RecvPc → Bool) :
    ((s.threads holder).any fun t => p t.pc) = p pc := by
  obtain ⟨thread, ht, rfl⟩ := Option.map_eq_some_iff.mp h
  rw [ht]
  rfl

theorem countAt_pos {pc : RecvPc} {p : RecvPc → Bool} (h : s.place holder = some pc)
    (hp : p pc = true) : 0 < countAt s.threads p := by
  have hany := (any_of_place h p).trans hp
  cases holder with
  | current =>
    simp only [countAt, hany, Bool.toNat_true]
    omega
  | temporary =>
    simp only [countAt, hany, Bool.toNat_true]
    omega

/-- A thread that is closing has found the client connected and made it disconnected. -/
theorem Inv.offline_of_close (h : s.Inv) (hplace : s.place holder = some .close) :
    s.isConnected = false := by
  have hpos := countAt_pos (p := RecvPc.owing) hplace rfl
  by_contra hcon
  have howed := (h.balance.connected (by simpa using hcon)).2.2
  omega

/-- Only one thread closes at a time. -/
theorem Inv.close_once (h : s.Inv) {other : Holder} (hplace : s.place holder = some .close)
    (hother : s.place other = some .close) : holder = other := by
  have htwo : ∀ {a b : Holder}, s.place a = some .close → s.place b = some .close → a = .current →
      b = .temporary → False := by
    rintro a b ha hb rfl rfl
    have hcount : countAt s.threads RecvPc.owing = 2 := by
      rw [countAt, any_of_place ha, any_of_place hb]
      rfl
    obtain ⟨-, ⟨-, howed⟩ | ⟨n, -, hsum⟩⟩ := h.balance.closed (h.offline_of_close ha)
    · omega
    · omega
  cases holder with
  | current =>
    cases other with
    | current => rfl
    | temporary => exact (htwo hplace hother rfl rfl).elim
  | temporary =>
    cases other with
    | current => exact (htwo hother hplace rfl rfl).elim
    | temporary => rfl

theorem place_self (s : ClientThreads) (holder : Holder) (thread : RecvThread) :
    (s.setThread holder (some thread)).place holder = some thread.pc := by
  simp [place, setThread]

/-- A receive thread begins to close the socket behind a load of `true`. -/
theorem recv_begins (hs : s.recvStep holder ok = some t) :
    (t.place holder = some .store → s.isConnected = true) ∧
      (t.place holder = some .close → s.place holder = some .store) := by
  unfold recvStep at hs
  cases ht : s.threads holder with
  | none => simp [ht] at hs
  | some thread =>
    have hplace : s.place holder = some thread.pc := by rw [place, ht]; rfl
    rw [hplace]
    simp only [ht] at hs
    cases hpc : thread.pc with
    | done => simp [hpc] at hs
    | errorLoad =>
      simp only [hpc, Option.some.injEq] at hs
      rw [← hs, place_self]
      cases s.isConnected <;> simp
    | loopStop | loopLoad | receiving | errorStop =>
      simp only [hpc, Option.some.injEq] at hs
      rw [← hs, place_self]
      split <;> simp
    | store | close | onDisconnected =>
      simp only [hpc, Option.some.injEq] at hs
      rw [← hs]
      simp [place, setThread]

/-- What a step of a receive thread leaves alone. -/
theorem recv_frame (hs : s.recvStep holder ok = some t) : t.app = s.app ∧ t.socket = s.socket ∧
    (∀ other, other ≠ holder → t.place other = s.place other) ∧
    (t.isConnected = true → s.isConnected = true) ∧
    (s.isConnected = true → t.isConnected = true ∨ t.place holder = some .close) := by
  obtain ⟨-, -, hother, -⟩ := recv_keeps hs
  have hplaces : ∀ other, other ≠ holder → t.place other = s.place other :=
    fun other hne => by rw [place, place, hother other hne]
  obtain ⟨thread, -, -, ⟨pc, rfl, -, -, -⟩ | ⟨-, rfl⟩ | ⟨-, rfl⟩⟩ := recv_cases hs
  · exact ⟨rfl, rfl, hplaces, id, .inl⟩
  · exact ⟨rfl, rfl, hplaces, nofun, fun _ => .inr (s.place_self holder _)⟩
  · exact ⟨rfl, rfl, hplaces, id, .inl⟩

/-- While nobody is connected nobody begins to close. -/
theorem quiet_recv (h : s.quiet = true) (hoff : s.isConnected = false)
    (hs : s.recvStep holder ok = some t) : t.quiet = true := by
  rw [quiet_iff] at h ⊢
  obtain ⟨-, -, hother, -⟩ := recv_keeps hs
  obtain ⟨hstore, hclose⟩ := recv_begins hs
  intro other
  by_cases he : other = holder
  · subst he
    refine ⟨fun hp => ?_, fun hp => (h other).1 (hclose hp)⟩
    rw [hstore hp] at hoff
    cases hoff
  · have hsame : t.place other = s.place other := by rw [place, place, hother other he]
    rw [hsame]
    exact h other

/-- What a step of the thread that uses the client leaves as it is, when it is none that takes or
gives back a socket. -/
structure Goes (s t : ClientThreads) : Prop where
  socket : t.socket = s.socket
  place : ∀ holder, s.place holder = some .close → t.place holder = some .close
  connected : t.isConnected = true → s.isConnected = true ∨ s.app = .connectStore
  connecting : t.app ≠ .connectStore
  kept : s.isConnected = true → t.isConnected = true ∨ t.app.attending = true
  attending : s.app.attending = true → (∀ wasConnected caller, s.app ≠ .close wasConnected caller) →
    t.isConnected = true ∨ t.app.attending = true
  settled : t.app.settled = true → s.app.settled = true ∨ s.socket = false

theorem place_requestStop (s : ClientThreads) (holder : Holder) :
    s.requestStop.place holder = s.place holder := by
  cases holder with
  | current => cases h : s.threads .current <;> simp [place, requestStop, setThread, h]
  | temporary => simp [place, requestStop, setThread]

theorem not_close_of_finished (h : s.finished = true) : s.place .current ≠ some .close := by
  intro hplace
  exact absurd ((any_of_place hplace RecvPc.owing).symm.trans (finished_any h rfl)) (by decide)

/-- From a place where nobody waits for this thread to close the socket. -/
theorem goes_to {pc : AppPc} (hpc : pc ≠ .connectStore)
    (hfrom : s.app.attending = true → ∃ wasConnected caller, s.app = .close wasConnected caller)
    (hsettled : pc.settled = true → s.app.settled = true ∨ s.socket = false) :
    s.Goes { s with app := pc } where
  socket := rfl
  place _ := id
  connected := .inl
  connecting := hpc
  kept := .inl
  attending hattending hclose :=
    have ⟨wasConnected, caller, happ⟩ := hfrom hattending
    absurd happ (hclose wasConnected caller)
  settled := hsettled

theorem caller_ne_connectStore (caller : Caller) : caller.pc ≠ .connectStore := by
  cases caller <;> simp [Caller.pc]

theorem goes_app (hconnect : s.app = .tryConnect → ok = false)
    (hreset : ∀ wasConnected caller, s.app ≠ .reset wasConnected caller) (hassign : s.app ≠ .assign)
    (hs : s.appStep ok = some t) : s.Goes t := by
  unfold appStep at hs
  cases happ : s.app with
  | idle => simp [happ] at hs
  | connectLoad =>
    simp only [happ, Option.some.injEq] at hs
    subst hs
    refine goes_to ?_ (by simp [happ, AppPc.attending]) ?_
    · split <;> simp
    · split <;> exact nofun
  | tryConnect =>
    simp only [happ, hconnect happ, Bool.false_eq_true, if_false, Option.some.injEq] at hs
    subst hs
    exact goes_to (by simp) (by simp [happ, AppPc.attending]) nofun
  | connectStore =>
    simp only [happ, Option.some.injEq] at hs
    subst hs
    exact ⟨rfl, fun _ => id, fun _ => .inr happ, by simp, fun _ => .inl rfl, fun _ _ => .inl rfl,
      nofun⟩
  | onConnected =>
    simp only [happ, Option.some.injEq] at hs
    subst hs
    exact goes_to (by simp) (by simp [happ, AppPc.attending]) nofun
  | exchange caller =>
    simp only [happ, Option.some.injEq] at hs
    subst hs
    exact ⟨rfl, fun _ => id, nofun, by simp, fun _ => .inr rfl, fun _ _ => .inr rfl, nofun⟩
  | requestStop wasConnected caller =>
    simp only [happ, Option.some.injEq] at hs
    subst hs
    exact ⟨rfl, fun holder hplace => (s.place_requestStop holder).trans hplace, .inl, by simp,
      fun _ => .inr rfl, fun _ _ => .inr rfl, nofun⟩
  | close wasConnected caller =>
    simp only [happ, Option.some.injEq] at hs
    subst hs
    exact goes_to (by simp) (by simp [happ, AppPc.attending]) nofun
  | join wasConnected caller =>
    simp only [happ] at hs
    obtain ⟨hfinished, hs⟩ := Option.ite_none_right_eq_some.mp hs
    cases hs
    refine ⟨rfl, fun holder hplace => ?_, .inl, by simp, .inl, by simp [happ, AppPc.attending],
      nofun⟩
    cases holder with
    | current => exact absurd hplace (not_close_of_finished hfinished)
    | temporary => exact hplace
  | reset wasConnected caller => exact absurd happ (hreset _ _)
  | onDisconnected caller =>
    simp only [happ, Option.some.injEq] at hs
    subst hs
    exact ⟨rfl, fun _ => id, .inl, caller_ne_connectStore caller, .inl,
      by simp [happ, AppPc.attending], fun _ => .inl (by rw [happ]; rfl)⟩
  | stopOld =>
    simp only [happ, Option.some.injEq] at hs
    subst hs
    exact ⟨rfl, fun holder hplace => (s.place_requestStop holder).trans hplace, .inl, by simp, .inl,
      by simp [happ, AppPc.attending], nofun⟩
  | joinOld =>
    simp only [happ] at hs
    obtain ⟨-, hs⟩ := Option.ite_none_right_eq_some.mp hs
    cases hs
    exact goes_to (by simp) (by simp [happ, AppPc.attending]) nofun
  | assign => exact absurd happ hassign
  | destroyLoad =>
    simp only [happ, Option.some.injEq] at hs
    subst hs
    cases hcond : s.isConnected || (s.threads .current).isSome || s.socket with
    | true => exact goes_to (by simp) (by simp [happ, AppPc.attending]) nofun
    | false =>
      exact goes_to (by simp) (by simp [happ, AppPc.attending])
        fun _ => .inr (Bool.or_eq_false_iff.mp hcond).2
  | destroyMembers =>
    simp only [happ, Option.some.injEq] at hs
    subst hs
    exact ⟨rfl, fun _ => id, .inl, by simp, .inl, by simp [happ, AppPc.attending],
      fun _ => .inl (by rw [happ]; rfl)⟩
  | gone => simp [happ] at hs

theorem idle_of_call {l : ClientLabel} (happ : l.isApp = false)
    (hrecv : ∀ holder ok, l ≠ .recv holder ok) (hs : s.step l = some t) : s.app = .idle := by
  cases l with
  | app ok => cases happ
  | recv holder ok => exact absurd rfl (hrecv holder ok)
  | connect | startRecvLoop | disconnect | destroy => exact (Option.ite_none_right_eq_some.mp hs).1

/-- The calls of the client by the thread that uses it. -/
theorem goes_call {l : ClientLabel} (h : s.Inv) (happ : l.isApp = false)
    (hrecv : ∀ holder ok, l ≠ .recv holder ok) (hs : s.step l = some t) : s.Goes t := by
  cases l with
  | app ok => cases happ
  | recv holder ok => exact absurd rfl (hrecv holder ok)
  | startRecvLoop =>
    obtain ⟨hidle, hs⟩ := Option.ite_none_right_eq_some.mp hs
    cases hs
    refine ⟨rfl, fun holder hplace => ?_, .inl, by simp, .inl, by simp [hidle, AppPc.attending],
      nofun⟩
    cases holder with
    | current => exact hplace
    | temporary =>
      rw [place, h.single (by rw [hidle]; rfl)] at hplace
      cases hplace
  | connect | disconnect | destroy =>
    obtain ⟨hidle, hs⟩ := Option.ite_none_right_eq_some.mp hs
    cases hs
    exact goes_to (by simp) (by simp [hidle, AppPc.attending]) nofun

end ClientThreads

/-! ## What `Close` gives back -/

namespace ChatClient
variable {c c' : ChatClient} {n : Nat} {hs : List SocketHandle} {inside : Inside}
  {next : Option Inside}

theorem handle_of_none (h : c.tcpClientSocket = none) : c.handle = none := by
  rw [handle, h]
  rfl

theorem onHandle_resources {h : SocketHandle} (hh : c.handle = some h)
    (call : SocketHandle → Resources → Resources) :
    (c.onHandle call).resources = call h c.resources := by
  rw [onHandle, hh]

/-- What an access of `Close` does for the thread that is inside it alone. -/
structure Closes (c c' : ChatClient) (n : Nat) (hs : List SocketHandle) (next : Option Inside) :
    Prop where
  same : c' = { c with tcpClientSocket := c'.tcpClientSocket, resources := c'.resources }
  object : c'.tcpClientSocket.isSome = c.tcpClientSocket.isSome
  goes : ∀ y, next = some y → y.inClose = true ∧ c.tcpClientSocket.isSome = true ∧
    (y.inHandle = true → c'.handle.isSome = true)
  through : next = none → c'.handle = none
  handle : c'.handle.isSome = true → c.handle.isSome = true
  holds : Holds c'.resources n
    ((if next = some .reset then [] else c'.handle.toList) ++ hs) []

theorem closeStep_spec (hinside : inside = .begin ∨ inside.inClose = true)
    (hobject : inside.inClose = true → c.tcpClientSocket.isSome = true)
    (hnamed : inside.inHandle = true → c.handle.isSome = true)
    (hn : c.tcpClientSocket.isSome = true → n ≠ 0)
    (hr : Holds c.resources n ((if inside = .reset then [] else c.handle.toList) ++ hs) [])
    (he : c.closeStep inside = (c', next)) : Closes c c' n hs next := by
  cases inside with
  | begin =>
    cases he
    cases hsome : c.tcpClientSocket with
    | none =>
      have hnone := handle_of_none hsome
      exact ⟨rfl, rfl, by simp, fun _ => hnone, id, by simpa [hnone] using hr⟩
    | some socket => exact ⟨rfl, rfl, by simp [hsome, Inside.inClose, Inside.inHandle], by simp, id,
        by simpa using hr⟩
  | handle =>
    cases he
    have hsome := hobject rfl
    cases hhandle : c.handle with
    | none => exact ⟨rfl, rfl, by simp, fun _ => hhandle, id, by simpa [hhandle] using hr⟩
    | some h => exact ⟨rfl, rfl, by simp [hsome, hhandle, Inside.inClose], by simp, id,
        by simpa [hhandle] using hr⟩
  | shutdown =>
    cases he
    have hsome := hobject rfl
    obtain ⟨h, hhandle⟩ := Option.isSome_iff_exists.mp (hnamed rfl)
    have hheld : Holds c.resources n (h :: hs) [] := by simpa [hhandle] using hr
    refine ⟨rfl, rfl, ?_, by simp, id, ?_⟩
    · rintro y hy
      cases hy
      exact ⟨rfl, hsome, fun _ => hnamed rfl⟩
    · rw [onHandle_resources hhandle]
      have hsame : (c.onHandle Resources.touch).handle = some h := hhandle
      rw [hsame]
      exact hheld.touch (hn hsome) (.head _)
  | closesocket =>
    cases he
    have hsome := hobject rfl
    obtain ⟨h, hhandle⟩ := Option.isSome_iff_exists.mp (hnamed rfl)
    have hheld : Holds c.resources n (h :: hs) [] := by simpa [hhandle] using hr
    refine ⟨rfl, rfl, ?_, by simp, id, ?_⟩
    · rintro y hy
      cases hy
      exact ⟨rfl, hsome, fun _ => hnamed rfl⟩
    · rw [onHandle_resources hhandle]
      simpa using hheld.closesocket (hn hsome) (.head _)
  | reset =>
    cases he
    obtain ⟨socket, hsocket⟩ := Option.isSome_iff_exists.mp (hobject rfl)
    have hgone : handle { c with tcpClientSocket := c.tcpClientSocket.map fun socket =>
        { socket with socketHandle := none } } = none := by
      simp [handle, hsocket]
    refine ⟨rfl, by simp, by simp, fun _ => hgone, ?_, ?_⟩
    · rw [hgone]
      exact fun hno => by cases hno
    · rw [hgone]
      simpa using hr
  | _ => simp [Inside.inClose] at hinside

theorem closeStep_threads (he : c.closeStep inside = (c', next)) : c'.threads = c.threads := by
  cases inside <;> (cases he; rfl)

/-- The destructor of the socket, when nobody is inside it. -/
theorem destroySocket_holds (hn : c.tcpClientSocket.isSome = true → n ≠ 0)
    (hnobody : c.recvInside = false) (hr : Holds c.resources n (c.handle.toList ++ hs) []) :
    Holds c.destroySocket.resources n hs [] := by
  unfold destroySocket
  cases hsome : c.tcpClientSocket with
  | none =>
    rw [handle_of_none hsome] at hr
    exact hr
  | some socket =>
    cases hclose : socket.close c.resources with
    | mk closed r =>
      have hown : c.handle = socket.socketHandle := by
        rw [handle, hsome]
        rfl
      rw [hown] at hr
      have hclosed := Holds.close hr (fun _ => hn (by rw [hsome]; rfl)) hclose
      simp only [hclose, hnobody, Bool.or_false]
      exact hclosed

theorem destroySocket_threads (c : ChatClient) :
    c.destroySocket.threads = c.threads ∧ c.destroySocket.wsaSession = c.wsaSession ∧
      c.destroySocket.inApp = c.inApp ∧ c.destroySocket.inRecv = c.inRecv ∧
      c.destroySocket.tcpClientSocket = none := by
  unfold destroySocket
  cases hsome : c.tcpClientSocket with
  | none => exact ⟨rfl, rfl, rfl, rfl, hsome⟩
  | some socket => exact ⟨rfl, rfl, rfl, rfl, rfl⟩

/-- The sockets when nobody has just closed the one that the client names. -/
theorem sockets_of_open (hclosed : c.closed = false) :
    c.sockets = c.handle.toList ++ c.inApp.fresh.toList := by
  rw [sockets, hclosed]
  rfl

theorem closed_congr (hrecv : c'.inRecv = c.inRecv)
    (happ : (c'.inApp == .reset) = (c.inApp == .reset)) : c'.closed = c.closed := by
  rw [closed, closed, hrecv, happ]

/-- Outside `Connect` the client and its socket have one session. -/
theorem sessions_plain (h : c.inApp.fresh = none) : c.sessions = c.wsaSession.toNat := by
  unfold sessions
  cases hi : c.inApp with
  | assignSession k | assignSocket k =>
    rw [hi] at h
    cases h
  | _ => rfl

theorem holds_plain (hfresh : c.inApp.fresh = none) (hclosed : c.closed = false)
    (hr : Holds c.resources c.wsaSession.toNat c.handle.toList []) :
    Holds c.resources c.sessions c.sockets [] := by
  rw [sessions_plain hfresh, sockets_of_open hclosed, hfresh]
  simpa using hr

/-- What a thread in `Close` has found there, and what it leaves to the others. -/
theorem sessions_congr (hsession : c'.wsaSession = c.wsaSession) (happ : c'.inApp = c.inApp)
    (hobject : c'.tcpClientSocket.isSome = c.tcpClientSocket.isSome) :
    c'.sessions = c.sessions := by
  rw [sessions, sessions, hsession, happ, hobject]

end ChatClient

end Highp.Client
