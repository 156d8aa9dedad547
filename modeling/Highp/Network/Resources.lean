import Highp.Network.Client

/-! What a process has of the system: Winsock, sockets and completion ports. Any call that can
fail may fail; what was opened has a new handle, and what is closed twice or used behind its end is
a misuse. -/

namespace Highp.Network

/-- `asked` counts the calls that can fail, `next` is the handle that is given next, and `started`
are the calls of `WSAStartup` that `WSACleanup` has not undone. -/
structure Resources where
  asked : Nat
  next : SocketHandle
  started : Nat
  sockets : List SocketHandle
  ports : List SocketHandle
  misused : Bool

/-- Whether the calls that can fail succeed, one after the other. -/
abbrev Answers := Nat → Bool

namespace Resources

def new : Resources := ⟨0, 0, 0, [], [], false⟩

/-- A call that takes nothing and gives nothing. -/
def ask (answers : Answers) (r : Resources) : Bool × Resources :=
  (answers r.asked, { r with asked := r.asked + 1 })

def wsaStartup (answers : Answers) (r : Resources) : Bool × Resources :=
  if answers r.asked then (true, { r with asked := r.asked + 1, started := r.started + 1 })
  else (false, { r with asked := r.asked + 1 })

def wsaCleanup (r : Resources) : Resources :=
  { r with started := r.started - 1, misused := r.misused || r.started == 0 }

/-- `socket` and `WSASocket`: they fail also when Winsock has not been started. -/
def socket (answers : Answers) (r : Resources) : Option SocketHandle × Resources :=
  if answers r.asked && r.started != 0 then
    (some r.next,
      { r with asked := r.asked + 1, next := r.next + 1, sockets := r.next :: r.sockets })
  else (none, { r with asked := r.asked + 1 })

/-- A call on a socket that cannot fail, or whose result is not looked at. Behind the last
`WSACleanup` there are no sockets. -/
def touch (h : SocketHandle) (r : Resources) : Resources :=
  { r with misused := r.misused || !r.sockets.contains h || r.started == 0 }

/-- `connect`, `bind`, `listen`, `WSAIoctl` and the like: a call on an open socket. -/
def onSocket (answers : Answers) (h : SocketHandle) (r : Resources) : Bool × Resources :=
  (r.touch h).ask answers

def closesocket (h : SocketHandle) (r : Resources) : Resources :=
  { r.touch h with sockets := r.sockets.erase h }

/-- `CreateIoCompletionPort` for a new port. -/
def createPort (answers : Answers) (r : Resources) : Option SocketHandle × Resources :=
  if answers r.asked then
    (some r.next, { r with asked := r.asked + 1, next := r.next + 1, ports := r.next :: r.ports })
  else (none, { r with asked := r.asked + 1 })

/-- A call on a port. -/
def touchPort (port : SocketHandle) (r : Resources) : Resources :=
  { r with misused := r.misused || !r.ports.contains port }

/-- `CloseHandle`. -/
def closePort (port : SocketHandle) (r : Resources) : Resources :=
  { r.touchPort port with ports := r.ports.erase port }

end Resources

/-! ## Accounts -/

/-- The process has these sockets and ports, so many starts of Winsock, and nothing was misused. -/
structure Holds (r : Resources) (started : Nat) (sockets ports : List SocketHandle) : Prop where
  started : r.started = started
  sockets : r.sockets.Perm sockets
  ports : r.ports.Perm ports
  proper : r.misused = false

section
variable {answers : Answers} {r s : Resources} {n : Nat} {h : SocketHandle} {ok : Bool}
  {hs ps hs' ps' : List SocketHandle}

theorem holds_new : Holds .new 0 [] [] := ⟨rfl, .refl _, .refl _, rfl⟩

theorem Holds.perm (hr : Holds r n hs ps) (hsockets : hs.Perm hs') : Holds r n hs' ps :=
  ⟨hr.started, hr.sockets.trans hsockets, hr.ports, hr.proper⟩

theorem Holds.ask (hr : Holds r n hs ps) (he : r.ask answers = (ok, s)) : Holds s n hs ps := by
  cases he
  exact ⟨hr.started, hr.sockets, hr.ports, hr.proper⟩

theorem Holds.wsaStartup (hr : Holds r n hs ps) (he : r.wsaStartup answers = (ok, s)) :
    Holds s (if ok then n + 1 else n) hs ps := by
  unfold Resources.wsaStartup at he
  split at he
  · cases he
    exact ⟨by simp [hr.started], hr.sockets, hr.ports, hr.proper⟩
  · cases he
    exact ⟨hr.started, hr.sockets, hr.ports, hr.proper⟩

theorem Holds.wsaCleanup (hr : Holds r (n + 1) hs ps) : Holds r.wsaCleanup n hs ps :=
  ⟨by simp [Resources.wsaCleanup, hr.started], hr.sockets, hr.ports,
    by simp [Resources.wsaCleanup, hr.started, hr.proper]⟩

theorem Holds.socket {result : Option SocketHandle} (hr : Holds r n hs ps)
    (he : r.socket answers = (result, s)) : Holds s n (result.toList ++ hs) ps := by
  unfold Resources.socket at he
  split at he
  · cases he
    exact ⟨hr.started, hr.sockets.cons _, hr.ports, hr.proper⟩
  · cases he
    exact ⟨hr.started, hr.sockets, hr.ports, hr.proper⟩

theorem Holds.touch (hr : Holds r n hs ps) (hn : n ≠ 0) (hm : h ∈ hs) :
    Holds (r.touch h) n hs ps := by
  refine ⟨hr.started, hr.sockets, hr.ports, ?_⟩
  simp [Resources.touch, hr.proper, hr.sockets.mem_iff.mpr hm, hr.started, hn]

theorem Holds.onSocket (hr : Holds r n hs ps) (hn : n ≠ 0) (hm : h ∈ hs)
    (he : r.onSocket answers h = (ok, s)) : Holds s n hs ps :=
  (hr.touch hn hm).ask he

theorem Holds.closesocket (hr : Holds r n hs ps) (hn : n ≠ 0) (hm : h ∈ hs) :
    Holds (r.closesocket h) n (hs.erase h) ps := by
  have ht := hr.touch hn hm
  exact ⟨ht.started, ht.sockets.erase h, ht.ports, ht.proper⟩

theorem Holds.createPort {result : Option SocketHandle} (hr : Holds r n hs ps)
    (he : r.createPort answers = (result, s)) : Holds s n hs (result.toList ++ ps) := by
  unfold Resources.createPort at he
  split at he
  · cases he
    exact ⟨hr.started, hr.sockets, hr.ports.cons _, hr.proper⟩
  · cases he
    exact ⟨hr.started, hr.sockets, hr.ports, hr.proper⟩

theorem Holds.touchPort (hr : Holds r n hs ps) (hm : h ∈ ps) : Holds (r.touchPort h) n hs ps := by
  refine ⟨hr.started, hr.sockets, hr.ports, ?_⟩
  simp [Resources.touchPort, hr.proper, hr.ports.mem_iff.mpr hm]

theorem Holds.closePort (hr : Holds r n hs ps) (hm : h ∈ ps) :
    Holds (r.closePort h) n hs (ps.erase h) := by
  have ht := hr.touchPort hm
  exact ⟨ht.started, ht.sockets, ht.ports.erase h, ht.proper⟩

end

end Highp.Network
