import Highp.Chat.Agreement
import Highp.Chat.Completions

/-! What is left of a connection after its end. Sessions and room members go away in
`GameLoop::Disconnect` only, which hangs on the receive of the connection: as long as one is
pending or being handled, somebody will see the connection out. -/

namespace Highp.Chat
open Highp.Lib Highp.Network

/-- The connection that a worker sets up or whose receive it handles. -/
def WorkerPc.conn : WorkerPc → Option Conn
  | .associateSocket conn => some conn
  | .postFirstRecv conn => some conn
  | .markConnectionEstablished conn => some conn
  | .onAccept conn => some conn
  | .kickDisconnected conn => some conn
  | .removeByClient conn => some conn
  | .closeClient conn => some conn
  | .append conn _ => some conn
  | .assemble conn => some conn
  | .consume conn _ => some conn
  | .postNextRecv conn => some conn
  | .resetSocket conn _ => some conn
  | _ => none

/-- The connection that a worker has posted a receive for without having announced it. -/
def WorkerPc.establishing : WorkerPc → Option Conn
  | .markConnectionEstablished conn => some conn
  | .onAccept conn => some conn
  | _ => none

/-- The connection whose users a worker will kick or whose receive it will post again. -/
def WorkerPc.attends : WorkerPc → Option Conn
  | .kickDisconnected conn => some conn
  | .append conn _ => some conn
  | .assemble conn => some conn
  | .postNextRecv conn => some conn
  | _ => none

/-- The session on which `JoinRoomHandler` is putting a user. -/
def HandlerPc.joining : HandlerPc → Option Session
  | .joinUser _ _ _ session => some session
  | .joinEnter _ _ user => some user.session
  | _ => none

theorem WorkerPc.conn_of_attends {pc : WorkerPc} {c : Conn} (h : pc.attends = some c) :
    pc.conn = some c := by
  cases pc with
  | kickDisconnected conn => exact h
  | append conn n => exact h
  | assemble conn => exact h
  | postNextRecv conn => exact h
  | _ => simp [attends] at h

/-- Somebody will see the connection out. -/
def State.Attended (s : State) (c : Conn) : Prop :=
  c ∈ s.recvs ∨ ∃ pc ∈ s.workers, pc.attends = some c

/-! ## The condition -/

/-- `Receive` does not close the client in this step, and `PostRecv` succeeds. -/
def staysOpen (fb : FlatBuffers) (s : State) (ok : Bool) : WorkerPc → Bool
  | .append conn n => !(s.pool conn.client).frameBuf.overflows (s.received conn.client n)
  | .assemble conn =>
    match inspect fb (s.pool conn.client).frameBuf.data with
    | .tooLarge => false
    | .invalid _ => false
    | _ => true
  | .postNextRecv conn => s.canPostRecv conn.client ok
  | _ => true

/-- Nothing of an earlier connection is pending on the slot. -/
def State.quiescent (s : State) (client : Slot) : Bool :=
  s.recvs.all (fun conn => conn.client != client) &&
    s.workers.all fun pc => pc.conn.all fun conn => conn.client != client

/-- A session that a join may find is not about to be removed. -/
def keepsSessions (s : State) (client : Slot) : Bool :=
  s.sessions.sessions.all fun session => !session.isSameSession s.pool client ||
    !s.workers.contains (.removeByClient session.conn)

/-- Slots are assigned when they are quiescent; a receive is handled after `OnAccept` and not
aborted; it does not end in a close or in a failing `PostRecv`; and `Disconnect` and a join of
the same client do not meet half way. -/
def SeesOut (fb : FlatBuffers) (s : State) (l : Label) : Prop :=
  (match l with
  | .recvDone _ conn result =>
    !result.aborted && s.workers.all fun pc => pc.establishing != some conn
  | .worker w ok =>
    match s.workers[w]? with
    | some (.assignSocket _ client) => s.quiescent client
    | some (.kickDisconnected conn) =>
      s.handler.joining.all fun session => session.tcpClient != conn.client
    | some pc => staysOpen fb s ok pc
    | none => true
  | .logic _ =>
    match s.handler with
    | .joinSession call _ _ => keepsSessions s call.cmd.client
    | _ => true
  | _ => true) = true

instance (fb : FlatBuffers) (s : State) (l : Label) : Decidable (SeesOut fb s l) :=
  inferInstanceAs (Decidable (_ = true))

/-! ## Whose receives and workers they are -/

/-- Receives and workers belong to the current connections of their slots, and a connection
that is being announced has its receive pending. -/
structure OwnTasks (s : State) : Prop where
  recvs : ∀ c ∈ s.recvs, c = s.current c.client
  tasks : ∀ pc ∈ s.workers, ∀ c, pc.conn = some c → c = s.current c.client
  establishing : ∀ pc ∈ s.workers, ∀ c, pc.establishing = some c → c ∈ s.recvs

variable {cfg : Config} {fb : FlatBuffers} {s t : State} {w : Nat} {ok : Bool}
  {pc pc' : WorkerPc} {c : Conn}

theorem WorkerStep.recvs (h : WorkerStep cfg fb s ok pc t pc') :
    t.recvs = s.recvs ∨
      ∃ conn, pc.conn = some conn ∧ t.recvs = s.recvs ++ [s.current conn.client] := by
  cases h with
  | firstRecv => exact Or.inr ⟨_, rfl, rfl⟩
  | nextRecv => exact Or.inr ⟨_, rfl, rfl⟩
  | _ => exact Or.inl rfl

theorem conn_behindClose {conn : Conn} {next : AfterClose}
    (h : (s.behindClose conn next).conn = some c) : c = conn := by
  unfold State.behindClose at h
  split at h
  · exact (Option.some.inj h).symm
  · cases next with
    | setupClient | handleRecv => simp [WorkerPc.conn, AfterClose.pc] at h
    | postNextRecv | consume _ => exact (Option.some.inj h).symm

theorem WorkerStep.conn (h : WorkerStep cfg fb s ok pc t pc')
    (hpc : ∀ k client, pc ≠ .assignSocket k client) (hc : pc'.conn = some c) :
    pc.conn = some c := by
  cases h with
  | assign => exact absurd rfl (hpc _ _)
  | associate | firstRecv | mark | kick | remove | close | append | incomplete | command | consume
  | nextRecvFailed => exact hc
  | associateFailed | firstRecvFailed | overflow | tooLarge | invalid =>
    exact congrArg some (conn_behindClose hc).symm
  | @reset conn next =>
    cases next with
    | setupClient | handleRecv => simp [WorkerPc.conn, AfterClose.pc] at hc
    | postNextRecv | consume _ => exact hc
  | _ => simp [WorkerPc.conn] at hc

theorem establishing_pc (conn : Conn) (next : AfterClose) :
    (next.pc conn).establishing = none := by cases next <;> rfl

theorem establishing_behindClose (s : State) (conn : Conn) (next : AfterClose) :
    (s.behindClose conn next).establishing = none := by
  rcases behindClose_cases s conn next with he | he
  · rw [he]
    rfl
  · rw [he, establishing_pc]

theorem WorkerStep.establishing (h : WorkerStep cfg fb s ok pc t pc')
    (hc : pc'.establishing = some c) :
    pc.establishing = some c ∨ pc.conn = some c ∧ t.recvs = s.recvs ++ [s.current c.client] := by
  cases h with
  | firstRecv =>
    simp only [WorkerPc.establishing, Option.some.injEq] at hc
    subst hc
    exact Or.inr ⟨rfl, rfl⟩
  | mark => exact Or.inl hc
  | associateFailed | firstRecvFailed | overflow | tooLarge | invalid =>
    rw [establishing_behindClose] at hc
    cases hc
  | @reset conn next =>
    rw [establishing_pc] at hc
    cases hc
  | _ => simp [WorkerPc.establishing] at hc

/-- `SetupClient` takes a quiescent slot, so nobody's connection becomes an old one. -/
theorem OwnTasks.assign {k : SocketHandle} {client : Slot} (h : OwnTasks s)
    (hq : s.quiescent client = true) (hs : WorkerStep cfg fb s ok (.assignSocket k client) t pc') :
    OwnTasks { t with workers := s.workers.set w pc' } := by
  simp only [State.quiescent, Bool.and_eq_true, List.all_eq_true, bne_iff_ne,
    Option.all_eq_true] at hq
  obtain ⟨hfree, hidle⟩ := hq
  cases hs
  refine ⟨?_, ?_, ?_⟩
  · intro c hc
    have hcur := h.recvs c hc
    simp only [State.current] at hcur ⊢
    rwa [Function.update_of_ne (hfree c hc)]
  · intro pc hm c hc
    rcases List.mem_or_eq_of_mem_set hm with hm | rfl
    · have hcur := h.tasks pc hm c hc
      simp only [State.current] at hcur ⊢
      rwa [Function.update_of_ne (by simpa using hidle pc hm c hc)]
    · have he : ⟨client, s.epoch client + 1⟩ = c := by simpa [WorkerPc.conn] using hc
      simp [← he, State.current]
  · intro pc hm c hc
    rcases List.mem_or_eq_of_mem_set hm with hm | rfl
    · exact h.establishing pc hm c hc
    · simp [WorkerPc.establishing] at hc

theorem OwnTasks.worker (h : OwnTasks s) (hw : s.workers[w]? = some pc)
    (hpc : ∀ k client, pc ≠ .assignSocket k client) (hs : WorkerStep cfg fb s ok pc t pc') :
    OwnTasks { t with workers := s.workers.set w pc' } := by
  have hmem := List.mem_of_getElem? hw
  have hepoch := (hs.noNewSocket hpc).epoch
  have hcur : ∀ c, c = s.current c.client → c = t.current c.client := by
    intro c hc
    rw [State.current, hepoch]
    exact hc
  have hsub : ∀ c ∈ s.recvs, c ∈ t.recvs := by
    intro c hc
    rcases hs.recvs with he | ⟨_, _, he⟩
    · exact he ▸ hc
    · exact he ▸ List.mem_append_left _ hc
  refine ⟨?_, ?_, ?_⟩
  · intro c hc
    rcases hs.recvs with he | ⟨conn, hconn, he⟩
    · exact hcur c (h.recvs c (he ▸ hc))
    · rcases List.mem_append.mp (he ▸ hc : c ∈ s.recvs ++ [s.current conn.client]) with hc | hc
      · exact hcur c (h.recvs c hc)
      · apply hcur
        rw [List.mem_singleton.mp hc]
        rfl
  · intro pc'' hm c hc
    rcases List.mem_or_eq_of_mem_set hm with hm | rfl
    · exact hcur c (h.tasks pc'' hm c hc)
    · exact hcur c (h.tasks pc hmem c (hs.conn hpc hc))
  · intro pc'' hm c hc
    rcases List.mem_or_eq_of_mem_set hm with hm | rfl
    · exact hsub c (h.establishing pc'' hm c hc)
    · rcases hs.establishing hc with he | ⟨hconn, he⟩
      · exact hsub c (h.establishing pc hmem c he)
      · show c ∈ t.recvs
        rw [he, ← h.tasks pc hmem c hconn]
        simp

/-! ## Who sees a connection out -/

/-- Every session, listed user and session in the hands of a join is attended; a session may
also be on its way out. -/
structure Tended (s : State) : Prop where
  sessions : ∀ session ∈ s.sessions.sessions,
    s.Attended session.conn ∨ .removeByClient session.conn ∈ s.workers
  listed : ∀ user, Member s.rooms user → s.Attended user.session.conn
  joining : ∀ session, s.handler.joining = some session → s.Attended session.conn

/-- A step that keeps everybody attended and adds neither sessions nor users. -/
theorem Tended.keep (h : Tended s) (hatt : ∀ c, s.Attended c → t.Attended c)
    (hsess : ∀ session ∈ t.sessions.sessions, session ∈ s.sessions.sessions ∧
      (.removeByClient session.conn ∈ s.workers → .removeByClient session.conn ∈ t.workers))
    (hlisted : ∀ user, Member t.rooms user → Member s.rooms user)
    (hjoin : ∀ session, t.handler.joining = some session → s.handler.joining = some session) :
    Tended t where
  sessions session hs := by
    obtain ⟨hs, hrem⟩ := hsess session hs
    exact (h.sessions session hs).imp (hatt _) hrem
  listed user hm := hatt _ (h.listed user (hlisted user hm))
  joining session hj := hatt _ (h.joining session (hjoin session hj))

/-- A worker hands over what it attends: to the worker it becomes or to the kernel. It lets go
of a connection only when it kicks, or when the step does not stay open. -/
theorem WorkerStep.attends (h : WorkerStep cfg fb s ok pc t pc') (hopen : staysOpen fb s ok pc)
    (hpc : ∀ conn, pc ≠ .kickDisconnected conn) (hc : pc.attends = some c) :
    pc'.attends = some c ∨ t.recvs = s.recvs ++ [s.current c.client] := by
  cases h with
  | kick => exact absurd rfl (hpc _)
  | overflow ho => simp [staysOpen, ho] at hopen
  | append => exact Or.inl hc
  | incomplete => exact Or.inl hc
  | tooLarge hi => simp [staysOpen, hi] at hopen
  | invalid hi => simp [staysOpen, hi] at hopen
  | command => exact Or.inl hc
  | nextRecv =>
    simp only [WorkerPc.attends, Option.some.injEq] at hc
    exact Or.inr (by rw [← hc]; rfl)
  | nextRecvFailed hp => simp [staysOpen, hp] at hopen
  | nextRecvClosed hp => simp [staysOpen, State.canPostRecv, hp] at hopen
  | _ => simp [WorkerPc.attends] at hc

theorem WorkerStep.attended (h : WorkerStep cfg fb s ok pc t pc') (hown : OwnTasks s)
    (hw : s.workers[w]? = some pc)
    (hlet : ∀ c', pc.attends = some c' → c' = c →
      pc'.attends = some c ∨ t.recvs = s.recvs ++ [s.current c.client])
    (hc : s.Attended c) : State.Attended { t with workers := s.workers.set w pc' } c := by
  have hsub : c ∈ s.recvs → c ∈ t.recvs := by
    intro hc
    rcases h.recvs with he | ⟨_, _, he⟩
    · exact he ▸ hc
    · exact he ▸ List.mem_append_left _ hc
  rcases hc with hr | ⟨q, hm, ha⟩
  · exact Or.inl (hsub hr)
  · by_cases hq : q = pc
    · subst hq
      rcases hlet c ha rfl with ha' | he
      · exact Or.inr ⟨pc', mem_set_self hw, ha'⟩
      · have hcur : c = s.current c.client :=
          hown.tasks q hm c (WorkerPc.conn_of_attends ha)
        refine Or.inl ?_
        show c ∈ t.recvs
        rw [he, ← hcur]
        simp
    · exact Or.inr ⟨q, mem_set_of_ne hw hm hq, ha⟩

theorem WorkerStep.sessions (h : WorkerStep cfg fb s ok pc t pc')
    (haccept : ∀ conn, pc ≠ .onAccept conn) (hremove : ∀ conn, pc ≠ .removeByClient conn) :
    t.sessions = s.sessions := by
  cases h with
  | onAccept => exact absurd rfl (haccept _)
  | remove => exact absurd rfl (hremove _)
  | _ => rfl

/-- The steps that leave the registries alone. -/
theorem Tended.pass (h : Tended s) (hown : OwnTasks s) (hw : s.workers[w]? = some pc)
    (hs : WorkerStep cfg fb s ok pc t pc') (hopen : staysOpen fb s ok pc = true)
    (haccept : ∀ conn, pc ≠ .onAccept conn) (hkick : ∀ conn, pc ≠ .kickDisconnected conn)
    (hremove : ∀ conn, pc ≠ .removeByClient conn) :
    Tended { t with workers := s.workers.set w pc' } := by
  obtain ⟨-, hhandler, hrooms⟩ := hs.registry
  have hrooms : t.rooms = s.rooms := by
    rcases hrooms with hr | ⟨conn, he, -⟩
    · exact hr
    · exact absurd he (hkick conn)
  refine h.keep ?_ ?_ ?_ ?_
  · intro c hc
    refine hs.attended hown hw ?_ hc
    rintro c' ha rfl
    exact hs.attends hopen hkick ha
  · intro session hm
    have hm' : session ∈ s.sessions.sessions := hs.sessions haccept hremove ▸ hm
    exact ⟨hm', fun hr => mem_set_of_ne hw hr fun he => hremove _ he.symm⟩
  · intro user hm
    exact hrooms ▸ hm
  · intro session hj
    exact hhandler ▸ hj

/-- `OnAccept`: the new session is attended, for its first receive is pending. -/
theorem Tended.onAccept {conn : Conn} (h : Tended s) (hown : OwnTasks s)
    (hw : s.workers[w]? = some (.onAccept conn))
    (hs : WorkerStep cfg fb s ok (.onAccept conn) t pc') :
    Tended { t with workers := s.workers.set w pc' } := by
  have hatt : ∀ c, s.Attended c → State.Attended { t with workers := s.workers.set w pc' } c :=
    fun c hc => hs.attended hown hw (fun _ ha => by simp [WorkerPc.attends] at ha) hc
  have hpending := hown.establishing _ (List.mem_of_getElem? hw) conn rfl
  cases hs
  refine ⟨?_, fun user hm => hatt _ (h.listed user hm), fun session hj =>
    hatt _ (h.joining session hj)⟩
  intro session hm
  rcases List.mem_append.mp hm with hm | hm
  · exact (h.sessions session (List.mem_filter.mp hm).1).imp (hatt _)
      fun hr => mem_set_of_ne hw hr (by simp)
  · rw [List.mem_singleton.mp hm]
    exact Or.inl (Or.inl hpending)

/-- What does not match a client has another connection. -/
theorem conn_ne_of_not_same {pool : Pool} {session : Session} {conn : Conn}
    (h : session.isSameSession pool conn.client = false) : session.conn ≠ conn := by
  rintro rfl
  simp [Session.conn, Session.isSameSession_self] at h

/-- `KickDisconnected`: nobody of the connection is left in a room or on the way into one. -/
theorem Tended.kick {conn : Conn} (h : Tended s) (hown : OwnTasks s)
    (hw : s.workers[w]? = some (.kickDisconnected conn)) (hok : SeesOut fb s (.worker w ok))
    (hs : WorkerStep cfg fb s ok (.kickDisconnected conn) t pc') :
    Tended { t with workers := s.workers.set w pc' } := by
  simp only [SeesOut, hw, Option.all_eq_true, bne_iff_ne] at hok
  have hatt : ∀ c, c ≠ conn → s.Attended c →
      State.Attended { t with workers := s.workers.set w pc' } c := by
    intro c hne hc
    refine hs.attended hown hw (fun c' ha he => ?_) hc
    simp only [WorkerPc.attends, Option.some.injEq] at ha
    exact absurd (he.symm.trans ha.symm) hne
  cases hs
  refine ⟨?_, ?_, ?_⟩
  · intro session hm
    by_cases hne : session.conn = conn
    · exact Or.inr (hne ▸ mem_set_self hw)
    · exact (h.sessions session hm).imp (hatt _ hne) fun hr => mem_set_of_ne hw hr (by simp)
  · intro user hm
    obtain ⟨hm, hn⟩ := member_kick.mp hm
    exact hatt _ (conn_ne_of_not_same hn) (h.listed user hm)
  · intro session hj
    refine hatt _ ?_ (h.joining session hj)
    rintro rfl
    exact hok session hj rfl

/-- `RemoveByClient`: no session of the connection is left. -/
theorem Tended.remove {conn : Conn} (h : Tended s) (hown : OwnTasks s)
    (hw : s.workers[w]? = some (.removeByClient conn))
    (hs : WorkerStep cfg fb s ok (.removeByClient conn) t pc') :
    Tended { t with workers := s.workers.set w pc' } := by
  have hatt : ∀ c, s.Attended c → State.Attended { t with workers := s.workers.set w pc' } c :=
    fun c hc => hs.attended hown hw (fun _ ha => by simp [WorkerPc.attends] at ha) hc
  cases hs
  refine h.keep hatt ?_ (fun _ hm => hm) fun _ hj => hj
  intro session hm
  obtain ⟨hm, hn⟩ := List.mem_filter.mp hm
  have hne : session.conn ≠ conn := conn_ne_of_not_same (by simpa using hn)
  exact ⟨hm, fun hr => mem_set_of_ne hw hr (by simpa using hne)⟩

theorem Tended.worker (h : Tended s) (hown : OwnTasks s) (hw : s.workers[w]? = some pc)
    (hok : SeesOut fb s (.worker w ok)) (hs : WorkerStep cfg fb s ok pc t pc') :
    Tended { t with workers := s.workers.set w pc' } := by
  cases pc with
  | onAccept conn => exact h.onAccept hown hw hs
  | kickDisconnected conn => exact h.kick hown hw hok hs
  | removeByClient conn => exact h.remove hown hw hs
  | assignSocket k client => exact h.pass hown hw hs rfl (by simp) (by simp) (by simp)
  | _ =>
    simp only [SeesOut, hw] at hok
    exact h.pass hown hw hs hok (by simp) (by simp) (by simp)

/-! ## Steps of the logic thread -/

theorem member_of_roomAt {rooms : RoomManager} {i : Nat} {user : User}
    (h : user ∈ (rooms.roomAt i).users) : Member rooms user := by
  by_cases hi : i < rooms.rooms.length
  · exact ⟨_, roomAt_mem hi, h⟩
  · simp [RoomManager.roomAt, List.getElem?_eq_none (Nat.not_lt.mp hi)] at h

theorem member_setRoom_cases {rooms : RoomManager} {i : Nat} {room : Room} {user : User}
    (h : Member (rooms.setRoom i room) user) : Member rooms user ∨ user ∈ room.users := by
  obtain ⟨r, hr, hu⟩ := h
  rcases List.mem_or_eq_of_mem_set hr with hr | rfl
  · exact Or.inl ⟨r, hr, hu⟩
  · exact Or.inr hu

theorem leave_subset {room left : Room} {userId : Nat} {found : User} {others : List User}
    (h : room.leave userId = some (found, others, left)) {user : User} (hu : user ∈ left.users) :
    user ∈ room.users := by
  unfold Room.leave at h
  split at h
  · simp at h
  · simp only [Option.some.injEq, Prod.mk.injEq] at h
    obtain ⟨-, -, rfl⟩ := h
    exact List.mem_of_mem_eraseP hu

/-- A join that finds a session finds one that stays. -/
theorem Tended.found {call : Call} {username : Text} {room order : Nat} {session : Session}
    (h : Tended s) (hh : s.handler = .joinSession call username room) {choice : Choice}
    (hok : SeesOut fb s (.logic choice))
    (hg : s.sessions.getSessionByClient s.pool call.cmd.client order = some session) :
    s.Attended session.conn := by
  obtain ⟨hm, hsame⟩ := List.mem_filter.mp (firstMatch_mem hg)
  simp only [SeesOut, hh, keepsSessions, List.all_eq_true, Bool.or_eq_true, Bool.not_eq_true',
    List.contains_eq_mem, decide_eq_false_iff_not] at hok
  rcases h.sessions session hm with ha | hr
  · exact ha
  · rcases hok session hm with hn | hn
    · simp [hsame] at hn
    · exact absurd hr hn

theorem Tended.logic {choice : Choice} (h : Tended s) (hok : SeesOut fb s (.logic choice))
    (hs : LogicStep s choice t) : Tended t := by
  obtain ⟨hworkers, hrecvs⟩ := hs.network
  have hatt : ∀ c, s.Attended c → t.Attended c := by
    intro c hc
    rw [State.Attended, hworkers, hrecvs]
    exact hc
  have hsess : t.sessions = s.sessions := by cases hs <;> rfl
  have hsessions : ∀ session ∈ t.sessions.sessions,
      t.Attended session.conn ∨ .removeByClient session.conn ∈ t.workers := by
    intro session hm
    rw [hsess] at hm
    rw [hworkers]
    exact (h.sessions session hm).imp_left (hatt _)
  have hlisted : ∀ user, Member s.rooms user → t.Attended user.session.conn :=
    fun user hm => hatt _ (h.listed user hm)
  -- most steps change no room and hold no session
  have hquiet : t.rooms = s.rooms → t.handler.joining = none → Tended t := by
    intro hr hj
    exact ⟨hsessions, fun user hm => hlisted user (hr ▸ hm), fun session hs => by simp [hj] at hs⟩
  cases hs with
  | skip hh => exact ⟨hsessions, hlisted, fun session hj => hatt _ (h.joining session hj)⟩
  | rejectClosed hh => exact ⟨hsessions, hlisted, fun session hj => hatt _ (h.joining session hj)⟩
  | joinRoom hh =>
    refine ⟨hsessions, fun user hm => hlisted user ?_, fun session hj => ?_⟩
    · rcases getOrCreateAvailableRoom_cases s.rooms with ⟨he, -⟩ | he
      · exact he ▸ hm
      · exact (member_append_empty _ _ user).mp (he ▸ hm)
    · simp [HandlerPc.joining] at hj
  | joinSession hh hg =>
    refine ⟨hsessions, hlisted, fun session hj => ?_⟩
    simp only [HandlerPc.joining, Option.some.injEq] at hj
    exact hj ▸ hatt _ (h.found hh hok hg)
  | joinUser hh hg hu =>
    refine ⟨hsessions, hlisted, fun session hj => ?_⟩
    simp only [HandlerPc.joining, Option.some.injEq] at hj
    exact hatt _ (h.joining session (by rw [hh, ← hj, hu]; rfl))
  | joinEnter hh =>
    refine ⟨hsessions, fun user hm => ?_, fun session hj => by simp [HandlerPc.joining] at hj⟩
    rcases member_setRoom_cases hm with hm | hm
    · exact hlisted user hm
    · rcases List.mem_append.mp hm with hm | hm
      · exact hlisted user (member_of_roomAt hm)
      · rw [List.mem_singleton.mp hm]
        exact hatt _ (h.joining _ (by rw [hh]; rfl))
  | leaveRoom hh hr hl =>
    refine ⟨hsessions, fun user hm => hlisted user ?_, fun session hj => by
      simp [HandlerPc.joining] at hj⟩
    rcases member_setRoom_cases hm with hm | hm
    · exact hm
    · exact member_of_roomAt (leave_subset hl hm)
  | _ => exact hquiet rfl rfl

/-! ## Runs -/

/-- What holds of an idle worker's next place, the receive it dequeued aside. -/
structure StartsOn (conn : Conn) (pc : WorkerPc) : Prop where
  attends : pc.attends = some conn
  conn : pc.conn = some conn
  establishing : pc.establishing = none

theorem startsOn_onRecvDequeued {conn : Conn} {result : IoResult} (h : result.aborted = false) :
    StartsOn conn (onRecvDequeued conn result) := by
  rcases onRecvDequeued_cases conn result with ⟨ha, -⟩ | ⟨-, he | ⟨data, he⟩⟩
  · simp [h] at ha
  · rw [he]
    exact ⟨rfl, rfl, rfl⟩
  · rw [he]
    exact ⟨rfl, rfl, rfl⟩

theorem recvDone_keeps {conn : Conn} {result : IoResult} (hown : OwnTasks s) (h : Tended s)
    (hok : SeesOut fb s (.recvDone w conn result)) (hw : s.workers[w]? = some .idle)
    (hconn : conn ∈ s.recvs)
    (ht : t = { s with recvs := s.recvs.erase conn
                       arrived := s.stillArrived conn result
                       workers := s.workers.set w (onRecvDequeued conn result) }) :
    OwnTasks t ∧ Tended t := by
  simp only [SeesOut, Bool.and_eq_true, Bool.not_eq_true', List.all_eq_true, bne_iff_ne] at hok
  obtain ⟨habort, hest⟩ := hok
  have hstart := @startsOn_onRecvDequeued conn result habort
  have hatt : ∀ c, s.Attended c → t.Attended c := by
    subst ht
    rintro c (hr | ⟨pc, hm, ha⟩)
    · by_cases hc : c = conn
      · exact Or.inr ⟨_, mem_set_self hw, hc ▸ hstart.attends⟩
      · exact Or.inl ((List.mem_erase_of_ne hc).mpr hr)
    · refine Or.inr ⟨pc, mem_set_of_ne hw hm ?_, ha⟩
      rintro rfl
      simp [WorkerPc.attends] at ha
  constructor
  · subst ht
    refine ⟨fun c hc => hown.recvs c (List.mem_of_mem_erase hc), ?_, ?_⟩
    · intro pc hm c hc
      rcases List.mem_or_eq_of_mem_set hm with hm | rfl
      · exact hown.tasks pc hm c hc
      · have he : conn = c := Option.some.inj (hstart.conn.symm.trans hc)
        exact he ▸ hown.recvs conn hconn
    · intro pc hm c hc
      rcases List.mem_or_eq_of_mem_set hm with hm | rfl
      · have hne : c ≠ conn := fun he => hest pc hm (he ▸ hc)
        exact (List.mem_erase_of_ne hne).mpr (hown.establishing pc hm c hc)
      · simp [hstart.establishing] at hc
  · refine h.keep hatt ?_ ?_ ?_
    · intro session hm
      subst ht
      exact ⟨hm, fun hr => mem_set_of_ne hw hr (by simp)⟩
    · intro user hm
      subst ht
      exact hm
    · intro session hj
      subst ht
      exact hj

/-- An idle worker that takes something else than a receive. -/
theorem idle_keeps (hown : OwnTasks s) (h : Tended s) (hw : s.workers[w]? = some .idle)
    (hconn : pc.conn = none) (hest : pc.establishing = none)
    (hworkers : t.workers = s.workers.set w pc) (hrecvs : t.recvs = s.recvs)
    (hepoch : t.epoch = s.epoch) (hsess : t.sessions = s.sessions) (hrooms : t.rooms = s.rooms)
    (hhandler : t.handler = s.handler) : OwnTasks t ∧ Tended t := by
  have hcur : ∀ i, t.current i = s.current i := by
    intro i
    rw [State.current, State.current, hepoch]
  have hatt : ∀ c, s.Attended c → t.Attended c := by
    rintro c (hr | ⟨q, hm, ha⟩)
    · exact Or.inl (hrecvs ▸ hr)
    · refine Or.inr ⟨q, hworkers ▸ mem_set_of_ne hw hm ?_, ha⟩
      rintro rfl
      simp [WorkerPc.attends] at ha
  constructor
  · refine ⟨fun c hc => hcur _ ▸ hown.recvs c (hrecvs ▸ hc), ?_, ?_⟩
    · intro q hm c hc
      rcases List.mem_or_eq_of_mem_set (hworkers ▸ hm) with hm | rfl
      · exact hcur _ ▸ hown.tasks q hm c hc
      · simp [hconn] at hc
    · intro q hm c hc
      rcases List.mem_or_eq_of_mem_set (hworkers ▸ hm) with hm | rfl
      · exact hrecvs ▸ hown.establishing q hm c hc
      · simp [hest] at hc
  · refine h.keep hatt ?_ (fun user hm => hrooms ▸ hm) fun session hj => hhandler ▸ hj
    intro session hm
    exact ⟨hsess ▸ hm, fun hr => hworkers ▸ mem_set_of_ne hw hr (by simp)⟩

/-- One step of the server keeps the invariant. -/
theorem seesOut_step {l : Label} (hown : OwnTasks s) (h : Tended s) (hok : SeesOut fb s l)
    (hs : s.step cfg fb l = some t) : OwnTasks t ∧ Tended t := by
  cases l with
  | accepted w acceptSocket =>
    obtain ⟨hw, -, rfl⟩ := step_accepted hs
    exact idle_keeps hown h hw rfl rfl rfl rfl rfl rfl rfl rfl
  | arrive conn data =>
    obtain ⟨-, -, -, rfl⟩ := step_arrive hs
    exact ⟨⟨hown.recvs, hown.tasks, hown.establishing⟩, ⟨h.sessions, h.listed, h.joining⟩⟩
  | recvDone w conn result =>
    obtain ⟨hw, hconn, ht⟩ := step_recvDone hs
    exact recvDone_keeps hown h hok hw hconn ht
  | sendDone w conn result =>
    obtain ⟨hw, -, rfl⟩ := step_sendDone hs
    have hpc : (onSendDequeued conn result).conn = none ∧
        (onSendDequeued conn result).establishing = none := by
      rcases onSendDequeued_cases conn result with he | he
      · rw [he]
        exact ⟨rfl, rfl⟩
      · rw [he]
        exact ⟨rfl, rfl⟩
    exact idle_keeps hown h hw hpc.1 hpc.2 rfl rfl rfl rfl rfl rfl
  | worker w ok =>
    obtain ⟨pc, u, pc', hw, hstep, rfl⟩ := step_worker hs
    refine ⟨?_, h.worker hown hw hok hstep⟩
    by_cases hassign : ∃ k client, pc = .assignSocket k client
    · obtain ⟨k, client, rfl⟩ := hassign
      simp only [SeesOut, hw] at hok
      exact hown.assign hok hstep
    · exact hown.worker hw (fun k client he => hassign ⟨k, client, he⟩) hstep
  | tick =>
    obtain ⟨-, -, rfl⟩ := step_tick hs
    exact ⟨⟨hown.recvs, hown.tasks, hown.establishing⟩, ⟨h.sessions, h.listed, h.joining⟩⟩
  | logic choice =>
    have hl := logicStep_inv hs
    obtain ⟨hworkers, hrecvs⟩ := hl.network
    refine ⟨?_, h.logic hok hl⟩
    have hcur : ∀ i, t.current i = s.current i := by
      intro i
      rw [State.current, State.current, hl.noNewSocket.epoch]
    refine ⟨fun c hc => hcur _ ▸ hown.recvs c (hrecvs ▸ hc), ?_, ?_⟩
    · intro pc hm c hc
      exact hcur _ ▸ hown.tasks pc (hworkers ▸ hm) c hc
    · intro pc hm c hc
      exact hrecvs ▸ hown.establishing pc (hworkers ▸ hm) c hc

theorem tended_of_reach (h : (chatServer cfg fb).Reach (SeesOut fb) s) :
    OwnTasks s ∧ Tended s := by
  refine h.invariant (I := fun s => OwnTasks s ∧ Tended s) ⟨⟨?_, ?_, ?_⟩, ⟨?_, ?_, ?_⟩⟩
    fun _ hi hok hs => seesOut_step hi.1 hi.2 hok hs
  · simp [chatServer, State.new]
  · intro pc hm c hc
    rw [List.eq_of_mem_replicate hm] at hc
    simp [WorkerPc.conn] at hc
  · intro pc hm c hc
    rw [List.eq_of_mem_replicate hm] at hc
    simp [WorkerPc.establishing] at hc
  · simp [chatServer, State.new, SessionManager.new]
  · simp [chatServer, State.new, RoomManager.new, Member]
  · simp [chatServer, State.new, HandlerPc.joining]

/-- `Close` has been called for the connection, and no receive of it is pending or in the hands
of a worker. -/
def State.Finished (s : State) (conn : Conn) : Prop :=
  conn ∈ s.closed ∧ conn ∉ s.recvs ∧ ∀ pc ∈ s.workers, pc.conn ≠ some conn

/-- No session of the connection is held, and no room lists a user on its session. -/
def State.TornDown (s : State) (conn : Conn) : Prop :=
  (∀ session ∈ s.sessions.sessions, session.conn ≠ conn) ∧
    ∀ room ∈ s.rooms.rooms, ∀ user ∈ room.users, user.session.conn ≠ conn

instance (s : State) (conn : Conn) : Decidable (s.Finished conn) :=
  inferInstanceAs (Decidable (_ ∧ _ ∧ _))

instance (s : State) (conn : Conn) : Decidable (s.TornDown conn) :=
  inferInstanceAs (Decidable (_ ∧ _))

end Highp.Chat
