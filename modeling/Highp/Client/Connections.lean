import Highp.Network.Resources

/-! How the clients come by their connections and give them back: `WsaSession`, `TcpClientSocket`,
and the calls of `EchoClient`, one after the other, when any system call on the way may fail. -/

namespace Highp.Client
open Highp.Network

/-! ## `TcpClientSocket` -/

inductive ConnectError
  | wsaNotInitialized
  | wsaInvalidArgs
  | socketCreateFailed
  | socketConnectFailed
  deriving DecidableEq

/-- `session` is whether `_wsaSession` is set. -/
structure TcpClientSocket where
  session : Bool
  socketHandle : Option SocketHandle
  deriving DecidableEq

def isValidPort (port : UInt16) : Bool := port > 0

/-- `Close`. `shutdown` comes before `closesocket`. -/
def TcpClientSocket.close (socket : TcpClientSocket) (r : Resources) :
    TcpClientSocket × Resources :=
  match socket.socketHandle with
  | none => (socket, r)
  | some h => ({ socket with socketHandle := none }, (r.touch h).closesocket h)

/-- `Connect` for a new handle. `InetPtonA` and `connect` answer one after the other. -/
def TcpClientSocket.connect (answers : Answers) (socket : TcpClientSocket) (port : UInt16)
    (r : Resources) : Except ConnectError Unit × TcpClientSocket × Resources :=
  if !socket.session then (.error .wsaNotInitialized, socket, r)
  else
    match socket.close r with
    | (socket, r) =>
      if !isValidPort port then (.error .wsaInvalidArgs, socket, r)
      else
        match r.socket answers with
        | (none, r) => (.error .socketCreateFailed, socket, r)
        | (some h, r) =>
          let socket := { socket with socketHandle := some h }
          match r.ask answers with
          | (false, r) => (.error .wsaInvalidArgs, socket.close r)
          | (true, r) =>
            match r.onSocket answers h with
            | (false, r) => (.error .socketConnectFailed, socket.close r)
            | (true, r) => (.ok (), socket, r)

section
variable {answers : Answers} {r r' : Resources} {socket socket' : TcpClientSocket} {n : Nat}
  {hs : List SocketHandle} {port : UInt16} {result : Except ConnectError Unit}

theorem TcpClientSocket.close_handle (h : socket.close r = (socket', r')) :
    socket'.socketHandle = none ∧ socket'.session = socket.session := by
  unfold TcpClientSocket.close at h
  split at h
  · rename_i hnone
    cases h
    exact ⟨hnone, rfl⟩
  · cases h
    exact ⟨rfl, rfl⟩

/-- A socket object gives back what it has. -/
theorem Holds.close (hr : Holds r n (socket.socketHandle.toList ++ hs) [])
    (hn : socket.socketHandle ≠ none → n ≠ 0) (h : socket.close r = (socket', r')) :
    Holds r' n hs [] := by
  unfold TcpClientSocket.close at h
  split at h
  · rename_i hnone
    cases h
    simpa [hnone] using hr
  · rename_i handle hsome
    cases h
    have hopen : n ≠ 0 := hn (by simp [hsome])
    have hheld : Holds r n (handle :: hs) [] := by simpa [hsome] using hr
    have hclosed := (hheld.touch hopen (.head _)).closesocket hopen (.head _)
    simpa using hclosed

/-- The end of a connect that has failed. -/
theorem Holds.connect_failed {h : SocketHandle} (hr : Holds r n (h :: hs) []) (hn : n ≠ 0)
    (hclose : (⟨true, some h⟩ : TcpClientSocket).close r = (socket', r')) :
    socket'.session = true ∧ socket'.socketHandle = none ∧ Holds r' n hs [] := by
  obtain ⟨hnone, hsession⟩ := TcpClientSocket.close_handle hclose
  have hr : Holds r n ((⟨true, some h⟩ : TcpClientSocket).socketHandle.toList ++ hs) [] := hr
  exact ⟨hsession, hnone, Holds.close hr (fun _ => hn) hclose⟩

/-- `Connect` gives the old handle back in any case, and has a new one exactly if it succeeds. -/
theorem TcpClientSocket.connect_spec (hsession : socket.session = true)
    (hr : Holds r n (socket.socketHandle.toList ++ hs) []) (hn : n ≠ 0)
    (h : socket.connect answers port r = (result, socket', r')) :
    socket'.session = true ∧ Holds r' n (socket'.socketHandle.toList ++ hs) [] ∧
      (result = .ok () ↔ socket'.socketHandle ≠ none) := by
  unfold TcpClientSocket.connect at h
  rw [hsession] at h
  cases hclose : socket.close r with
  | mk closed r₁ =>
    obtain ⟨hnone, hkept⟩ := TcpClientSocket.close_handle hclose
    have hr₁ := Holds.close hr (fun _ => hn) hclose
    rw [hclose] at h
    cases hport : isValidPort port with
    | false =>
      simp only [hport, Bool.not_true, Bool.not_false, if_true, Bool.false_eq_true, if_false] at h
      cases h
      exact ⟨hkept.trans hsession, by simpa [hnone] using hr₁, by simp [hnone]⟩
    | true =>
      simp only [hport, Bool.not_true, Bool.false_eq_true, if_false] at h
      cases hsocket : r₁.socket answers with
      | mk handle r₂ =>
        have hr₂ := hr₁.socket hsocket
        rw [hsocket] at h
        cases handle with
        | none =>
          cases h
          exact ⟨hkept.trans hsession, by simpa [hnone] using hr₂, by simp [hnone]⟩
        | some handle =>
          have hown : ({ closed with socketHandle := some handle } : TcpClientSocket) =
              ⟨true, some handle⟩ := by rw [hkept, hsession]
          simp only [hown] at h
          cases haddress : r₂.ask answers with
          | mk parsed r₃ =>
            have hr₃ := hr₂.ask haddress
            rw [haddress] at h
            cases parsed with
            | false =>
              simp only [Prod.mk.injEq] at h
              obtain ⟨rfl, hlast⟩ := h
              obtain ⟨hs', hgone, hfinal⟩ := Holds.connect_failed hr₃ hn hlast
              exact ⟨hs', by simpa [hgone] using hfinal, by simp [hgone]⟩
            | true =>
              simp only at h
              cases hconnect : r₃.onSocket answers handle with
              | mk connected r₄ =>
                have hr₄ := hr₃.onSocket hn (.head _) hconnect
                rw [hconnect] at h
                cases connected with
                | false =>
                  simp only [Prod.mk.injEq] at h
                  obtain ⟨rfl, hlast⟩ := h
                  obtain ⟨hs', hgone, hfinal⟩ := Holds.connect_failed hr₄ hn hlast
                  exact ⟨hs', by simpa [hgone] using hfinal, by simp [hgone]⟩
                | true =>
                  cases h
                  exact ⟨rfl, hr₄, by simp⟩

end

/-! ## `EchoClient` -/

structure EchoClient where
  tcpClientSocket : Option TcpClientSocket
  wsaSession : Bool

/-- The last reference to a session goes: `Cleanup`. -/
def dropSession (session : Bool) (r : Resources) : Resources :=
  if session then r.wsaCleanup else r

namespace EchoClient

def new : EchoClient := ⟨none, false⟩

/-- `Disconnect`. The session outlives the socket. -/
def disconnect (c : EchoClient) (r : Resources) : Bool × EchoClient × Resources :=
  match c.tcpClientSocket with
  | none => (false, c, r)
  | some socket =>
    match socket.close r with
    | (socket, r) => (true, ⟨none, false⟩, dropSession c.wsaSession (socket.close r).2)

def connect (answers : Answers) (c : EchoClient) (port : UInt16) (r : Resources) :
    Bool × EchoClient × Resources :=
  match c.disconnect r with
  | (_, c, r) =>
    match r.wsaStartup answers with
    | (false, r) => (false, c, r)
    | (true, r) =>
      match TcpClientSocket.connect answers ⟨true, none⟩ port r with
      | (.error _, socket, r) => (false, c, dropSession true (socket.close r).2)
      | (.ok _, socket, r) => (true, ⟨some socket, true⟩, r)

end EchoClient

inductive EchoCall
  | connect (port : UInt16)
  | disconnect

def EchoClient.step (answers : Answers) (s : EchoClient × Resources) (call : EchoCall) :
    EchoClient × Resources :=
  match call with
  | .connect port => (s.1.connect answers port s.2).2
  | .disconnect => (s.1.disconnect s.2).2

/-- A client, and what it and nobody else has of the system. -/
structure EchoClient.Owns (c : EchoClient) (r : Resources) : Prop where
  session : c.tcpClientSocket.isSome = c.wsaSession
  socket : ∀ socket, c.tcpClientSocket = some socket →
    socket.session = true ∧ socket.socketHandle ≠ none
  holds : Holds r c.wsaSession.toNat
    ((c.tcpClientSocket.bind TcpClientSocket.socketHandle).toList) []

section
variable {answers : Answers} {c c' : EchoClient} {r r' : Resources} {ok : Bool}

theorem EchoClient.Owns.disconnect (h : c.Owns r) (he : c.disconnect r = (ok, c', r')) :
    c' = .new ∧ Holds r' 0 [] [] := by
  obtain ⟨socket, session⟩ := c
  unfold EchoClient.disconnect at he
  cases socket with
  | none =>
    have hnone : session = false := h.session.symm
    subst hnone
    cases he
    exact ⟨rfl, h.holds⟩
  | some socket =>
    have hsome : session = true := h.session.symm
    subst hsome
    cases hclose : socket.close r with
    | mk closed r₁ =>
      obtain ⟨hgone, -⟩ := TcpClientSocket.close_handle hclose
      have hr : Holds r 1 (socket.socketHandle.toList ++ []) [] := by
        rw [List.append_nil]
        exact h.holds
      have hr₁ := Holds.close hr (fun _ => Nat.one_ne_zero) hclose
      have hagain : closed.close r₁ = (closed, r₁) := by simp [TcpClientSocket.close, hgone]
      simp only [hclose, hagain] at he
      cases he
      exact ⟨rfl, hr₁.wsaCleanup⟩

theorem EchoClient.Owns.connect {port : UInt16} (h : c.Owns r)
    (he : c.connect answers port r = (ok, c', r')) :
    c'.Owns r' ∧ (ok = true ↔ c'.wsaSession = true) := by
  unfold EchoClient.connect at he
  cases hdisconnect : c.disconnect r with
  | mk was rest =>
    obtain ⟨c₁, r₁⟩ := rest
    obtain ⟨rfl, hr₁⟩ := h.disconnect hdisconnect
    rw [hdisconnect] at he
    simp only at he
    cases hstart : r₁.wsaStartup answers with
    | mk started r₂ =>
      have hr₂ := hr₁.wsaStartup hstart
      rw [hstart] at he
      cases started with
      | false =>
        cases he
        exact ⟨⟨rfl, nofun, hr₂⟩, by simp [EchoClient.new]⟩
      | true =>
        simp only at he
        cases hconnect : TcpClientSocket.connect answers ⟨true, none⟩ port r₂ with
        | mk result rest =>
          obtain ⟨socket, r₃⟩ := rest
          obtain ⟨hsession, hr₃, hok⟩ := TcpClientSocket.connect_spec  rfl hr₂
            Nat.one_ne_zero hconnect
          rw [hconnect] at he
          cases result with
          | error e =>
            have hnone : socket.socketHandle = none := by
              by_contra hne
              cases hok.mpr hne
            have hclose : socket.close r₃ = (socket, r₃) := by
              simp [TcpClientSocket.close, hnone]
            simp only [hclose] at he
            cases he
            refine ⟨⟨rfl, nofun, ?_⟩, by simp [EchoClient.new]⟩
            rw [hnone] at hr₃
            exact hr₃.wsaCleanup
          | ok _ =>
            cases he
            refine ⟨⟨rfl, ?_, ?_⟩, by simp⟩
            · rintro x hx
              cases hx
              exact ⟨hsession, hok.mp rfl⟩
            · simpa using hr₃

end

theorem EchoClient.owns_run (answers : Answers) (calls : List EchoCall)
    {s : EchoClient × Resources} (h : s.1.Owns s.2) :
    (calls.foldl (EchoClient.step answers) s).1.Owns
      (calls.foldl (EchoClient.step answers) s).2 := by
  induction calls generalizing s with
  | nil => exact h
  | cons call calls ih =>
    rw [List.foldl_cons]
    apply ih
    cases call with
    | connect port => exact (h.connect rfl).1
    | disconnect =>
      cases hd : s.1.disconnect s.2 with
      | mk ok rest =>
        obtain ⟨c, r⟩ := rest
        obtain ⟨rfl, hempty⟩ := h.disconnect hd
        simp only [EchoClient.step, hd]
        exact ⟨rfl, nofun, hempty⟩

/-- **The echo client gives back what it takes.** After any calls, with failures anywhere, it has a
session and an open socket or neither, nothing was closed twice, and a last `Disconnect` leaves the
process with nothing. -/
theorem echo_client_gives_back (answers : Answers) (calls : List EchoCall) :
    let s := calls.foldl (EchoClient.step answers) (.new, .new)
    Holds s.2 s.1.wsaSession.toNat (s.1.tcpClientSocket.bind TcpClientSocket.socketHandle).toList
        [] ∧
      (s.1.wsaSession = true ↔ ∃ handle, s.1.tcpClientSocket = some ⟨true, some handle⟩) ∧
      Holds (s.1.disconnect s.2).2.2 0 [] [] := by
  intro s
  have howns : s.1.Owns s.2 := EchoClient.owns_run answers calls ⟨rfl, nofun, holds_new⟩
  refine ⟨howns.holds, ?_, (howns.disconnect rfl).2⟩
  rw [← howns.session]
  constructor
  · intro hsome
    obtain ⟨socket, hsocket⟩ := Option.isSome_iff_exists.mp hsome
    obtain ⟨hsession, hhandle⟩ := howns.socket socket hsocket
    obtain ⟨handle, hhandle⟩ := Option.ne_none_iff_exists'.mp hhandle
    refine ⟨handle, ?_⟩
    rw [hsocket, ← hsession, ← hhandle]
  · rintro ⟨handle, hsocket⟩
    rw [hsocket]
    rfl

end Highp.Client
