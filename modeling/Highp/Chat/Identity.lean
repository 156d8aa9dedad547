import Highp.Chat.Silence
import Highp.Chat.Sockets

/-! On whose behalf the handlers act. Commands, sessions and users all point to a slot, and none
of them knows which connection it was made for. -/

namespace Highp.Chat
open Highp.Lib Highp.Network

/-! ## The condition -/

/-- A client without a socket cannot be taken for any of these sessions unless it is its own. -/
def toldApart (s : State) (client : Slot) (sessions : List Session) : Bool :=
  (s.pool client).isConnected || sessions.all fun session =>
    session.tcpClient == client || (s.pool session.tcpClient).isConnected

/-- The command comes from the connection that has its slot, and the users are told apart. -/
def speaksForSlot (s : State) (cmd : PacketCommand) : Bool :=
  cmd.conn == s.current cmd.client &&
    toldApart s cmd.client (s.users.users.map User.session)

/-- The system gives out no handle that a slot still names; a slot is assigned after its users
have been removed; and a command that looks for a user is not overtaken by the next connection of
its slot, nor by a second client without a socket. -/
def ActsForItself (s : State) (l : Label) : Prop :=
  (match l with
  | .accepted _ acceptSocket => s.forgotten acceptSocket
  | .worker w _ =>
    match s.workers[w]? with
    | some (.assignSocket _ client) =>
      s.users.users.all fun user => user.session.tcpClient != client
    | _ => true
  | .logic _ =>
    match s.handler with
    | .joinSession call _ _ => toldApart s call.cmd.client s.sessions.sessions
    | .joinUser call _ _ _ => speaksForSlot s call.cmd
    | .leaveFind call => !hasUser s call.cmd.client || speaksForSlot s call.cmd
    | .chatFind call _ => !hasUser s call.cmd.client || speaksForSlot s call.cmd
    | _ => true
  | _ => true) = true

instance (s : State) (l : Label) : Decidable (ActsForItself s l) :=
  inferInstanceAs (Decidable (_ = true))

theorem ActsForItself.fresh {s : State} {l : Label} (h : ActsForItself s l) :
    FreshSockets s l = true := by
  cases l with
  | accepted w acceptSocket => exact h
  | _ => rfl

/-! ## The invariant -/

/-- The session on which `CreateUser` is about to put a user, and the slot it was found for. -/
def HandlerPc.creating : HandlerPc → Option (Slot × Session)
  | .joinUser call _ _ session => some (call.cmd.client, session)
  | _ => none

/-- The user that `LeaveRoomHandler` will remove, and the connection that asked for it. -/
def HandlerPc.removing : HandlerPc → Option (Conn × User)
  | .leaveRoom call user => some (call.cmd.conn, user)
  | .leaveReply call user => some (call.cmd.conn, user)
  | .leaveRemove call user => some (call.cmd.conn, user)
  | _ => none

/-- Every registered user joined on the connection that now has its slot. -/
structure OwnUsers (s : State) : Prop where
  ids : s.users.IdsUnique
  current : ∀ user ∈ s.users.users, user.joined = s.current user.session.tcpClient
  creating : ∀ client session, s.handler.creating = some (client, session) →
    session.tcpClient = client
  removing : ∀ conn user, s.handler.removing = some (conn, user) →
    user ∈ s.users.users ∧ user.joined = conn
  log : ∀ conn user, .touched conn user ∈ s.log → user.joined = conn

variable {cfg : Config} {fb : FlatBuffers} {s t : State} {w : Nat} {ok : Bool}
  {pc pc' : WorkerPc}

/-- A step that looks nobody up. -/
theorem OwnUsers.pass (h : OwnUsers s) (husers : t.users = s.users) (hepoch : t.epoch = s.epoch)
    (hcreating : ∀ x, t.handler.creating = some x → s.handler.creating = some x)
    (hremoving : ∀ x, t.handler.removing = some x → s.handler.removing = some x)
    (hlog : ∀ conn user, .touched conn user ∈ t.log → .touched conn user ∈ s.log) :
    OwnUsers t where
  ids := husers ▸ h.ids
  current user hu := by
    rw [State.current, hepoch]
    exact h.current user (husers ▸ hu)
  creating client session hc := h.creating client session (hcreating _ hc)
  removing conn user hr := by
    rw [husers]
    exact h.removing conn user (hremoving _ hr)
  log conn user hm := h.log conn user (hlog conn user hm)

/-- A step that logs what it finds and leaves the users as they are. -/
theorem OwnUsers.touch {conn : Conn} {user : User} (h : OwnUsers s) (hjoined : user.joined = conn)
    (hlog : t.log = s.log ++ [.touched conn user]) {c : Conn} {u : User}
    (hm : .touched c u ∈ t.log) : u.joined = c := by
  rw [hlog] at hm
  rcases List.mem_append.mp hm with hm | hm
  · exact h.log c u hm
  · simp only [List.mem_singleton, Event.touched.injEq] at hm
    rw [hm.1, hm.2]
    exact hjoined

/-! ## Lookups -/

theorem SocketsOwned.on_slot {client : Slot} {sessions : List Session} {session : Session}
    (h : SocketsOwned s) (hapart : toldApart s client sessions = true) (hm : session ∈ sessions)
    (hsame : session.isSameSession s.pool client = true) : session.tcpClient = client := by
  rcases h.isSameSession_cases hsame with he | ⟨hc, hs⟩
  · exact he
  · simp only [toldApart, hc, Bool.false_or, List.all_eq_true] at hapart
    simpa [hs] using hapart session hm

/-- A user that a command finds joined on the connection of the command. -/
theorem OwnUsers.found {cmd : PacketCommand} {order : Nat} {user : User} (h : OwnUsers s)
    (hsockets : SocketsOwned s) (hslot : speaksForSlot s cmd = true)
    (hg : s.users.getUserByClient s.pool cmd.client order = some user) :
    user.joined = cmd.conn := by
  obtain ⟨hm, hsame⟩ := UserManager.getUserByClient_mem hg
  simp only [speaksForSlot, Bool.and_eq_true, beq_iff_eq] at hslot
  obtain ⟨hcmd, hapart⟩ := hslot
  have hon : user.session.tcpClient = cmd.client :=
    hsockets.on_slot hapart (List.mem_map_of_mem hm) hsame
  rw [h.current user hm, hon, hcmd]

theorem speaksForSlot_of_found {cmd : PacketCommand} {order : Nat} {user : User}
    (hok : (!hasUser s cmd.client || speaksForSlot s cmd) = true)
    (hg : s.users.getUserByClient s.pool cmd.client order = some user) :
    speaksForSlot s cmd = true := by
  simpa [hasUser_of_getUserByClient hg] using hok

/-- `CreateUser`: the new user is on the slot of the command. -/
theorem OwnUsers.create {call : Call} {username : Text} {room : Nat} {session : Session}
    {user : User} (h : OwnUsers s) (hh : s.handler = .joinUser call username room session)
    (hslot : speaksForSlot s call.cmd = true)
    (hu : user = s.users.makeUser session username (s.rooms.roomAt room).id call.cmd.conn) :
    OwnUsers { s with
      users := s.users.addUser user
      handler := .joinEnter call room user
      log := s.log ++ [.touched call.cmd.conn user] } := by
  have hon : session.tcpClient = call.cmd.client := h.creating _ _ (by rw [hh]; rfl)
  have hcmd : call.cmd.conn = s.current call.cmd.client := by
    simp only [speaksForSlot, Bool.and_eq_true, beq_iff_eq] at hslot
    exact hslot.1
  refine ⟨h.ids.addUser user, ?_, ?_, ?_, ?_⟩
  · intro v hv
    rcases UserManager.mem_addUser.mp hv with ⟨hv, -⟩ | rfl
    · exact h.current v hv
    · rw [hu]
      show call.cmd.conn = s.current session.tcpClient
      rw [hon, hcmd]
  · simp [HandlerPc.creating]
  · simp [HandlerPc.removing]
  · intro c v hm
    exact h.touch (by rw [hu]; rfl) rfl hm

/-- `RemoveUserByUserId`: the one user with this id is the one that was found. -/
theorem OwnUsers.remove {call : Call} {user : User} (h : OwnUsers s)
    (hh : s.handler = .leaveRemove call user) :
    OwnUsers { s with
      users := s.users.removeUserByUserId user.id
      handler := .ready
      log := s.log ++ (s.users.users.filter fun u => u.id == user.id).map
        (Event.touched call.cmd.conn) } := by
  obtain ⟨hreg, hjoined⟩ := h.removing call.cmd.conn user (by rw [hh]; rfl)
  refine ⟨h.ids.removeUserByUserId user.id, ?_, ?_, ?_, ?_⟩
  · intro v hv
    exact h.current v (UserManager.mem_removeUserByUserId.mp hv).1
  · simp [HandlerPc.creating]
  · simp [HandlerPc.removing]
  · intro c v hm
    rcases List.mem_append.mp hm with hm | hm
    · exact h.log c v hm
    · obtain ⟨u, hu, he⟩ := List.mem_map.mp hm
      obtain ⟨hu, hid⟩ := List.mem_filter.mp hu
      cases he
      rw [h.ids v hu user hreg (by simpa using hid)]
      exact hjoined

/-! ## Steps -/

theorem OwnUsers.logic {choice : Choice} (h : OwnUsers s) (hsockets : SocketsOwned s)
    (hok : ActsForItself s (.logic choice)) (hs : LogicStep s choice t) : OwnUsers t := by
  have hsent : ∀ {evs : List Event} {pool : Pool}, Sent s pool evs → ∀ conn user,
      .touched conn user ∈ s.log ++ evs → .touched conn user ∈ s.log := by
    intro evs pool hsent conn user hm
    rcases List.mem_append.mp hm with hm | hm
    · exact hm
    · obtain ⟨_, _, _, he⟩ := hsent.posted _ hm
      cases he
  have hnone : ∀ {P : Prop} {α : Type} {x : α}, none = some x → P := fun he => nomatch he
  cases hs with
  | skip => exact h.pass rfl rfl (fun _ hc => hc) (fun _ hr => hr) fun _ _ hm => hm
  | rejectClosed => exact h.pass rfl rfl (fun _ hc => hc) (fun _ hr => hr) fun _ _ hm => hm
  | joinSession hh hg =>
    obtain ⟨hm, hsame⟩ := List.mem_filter.mp (firstMatch_mem hg)
    simp only [ActsForItself, hh] at hok
    refine ⟨h.ids, h.current, ?_, fun _ _ hr => hnone hr, h.log⟩
    intro client session hc
    cases hc
    exact hsockets.on_slot hok hm hsame
  | joinExists hh hg =>
    simp only [ActsForItself, hh] at hok
    exact ⟨h.ids, h.current, fun _ _ hc => hnone hc, fun _ _ hr => hnone hr,
      fun _ _ hm => h.touch (h.found hsockets hok hg) rfl hm⟩
  | joinUser hh hg hu =>
    simp only [ActsForItself, hh] at hok
    exact h.create hh hok hu
  | joinEnter hh hse =>
    exact h.pass rfl rfl (fun _ hc => hnone hc) (fun _ hr => hnone hr) (hsent hse)
  | joinReply hh hse =>
    exact h.pass rfl rfl (fun _ hc => hnone hc) (fun _ hr => hnone hr) (hsent hse)
  | leaveFind hh hg =>
    simp only [ActsForItself, hh] at hok
    have hjoined := h.found hsockets (speaksForSlot_of_found hok hg) hg
    refine ⟨h.ids, h.current, fun _ _ hc => hnone hc, ?_, fun _ _ hm => h.touch hjoined rfl hm⟩
    intro conn user hr
    cases hr
    exact ⟨(UserManager.getUserByClient_mem hg).1, hjoined⟩
  | leaveMissing hh =>
    exact h.pass rfl rfl (fun _ hc => hnone hc) (fun _ hr => by rw [hh]; exact hr) fun _ _ hm => hm
  | leaveRoom hh _ _ hse =>
    exact h.pass rfl rfl (fun _ hc => hnone hc) (fun _ hr => by rw [hh]; exact hr) (hsent hse)
  | leaveReply hh hse =>
    exact h.pass rfl rfl (fun _ hc => hnone hc) (fun _ hr => by rw [hh]; exact hr) (hsent hse)
  | leaveRemove hh => exact h.remove hh
  | chatFind hh hg =>
    simp only [ActsForItself, hh] at hok
    have hjoined := h.found hsockets (speaksForSlot_of_found hok hg) hg
    exact ⟨h.ids, h.current, fun _ _ hc => hnone hc, fun _ _ hr => hnone hr,
      fun _ _ hm => h.touch hjoined rfl hm⟩
  | chatSend hh hse =>
    exact h.pass rfl rfl (fun _ hc => hnone hc) (fun _ hr => hnone hr) (hsent hse)
  | _ => exact h.pass rfl rfl (fun _ hc => hnone hc) (fun _ hr => hnone hr) fun _ _ hm => hm

/-- Workers touch no users. -/
theorem WorkerStep.untouched (h : WorkerStep cfg fb s ok pc t pc') {conn : Conn} {user : User}
    (hm : .touched conn user ∈ t.log) : .touched conn user ∈ s.log := by
  cases h with
  | onAccept => simpa using hm
  | kick => simpa using hm
  | overflow => simpa using hm
  | append => simpa using hm
  | _ => exact hm

theorem OwnUsers.worker (h : OwnUsers s) (hw : s.workers[w]? = some pc)
    (hok : ActsForItself s (.worker w ok)) (hs : WorkerStep cfg fb s ok pc t pc') :
    OwnUsers { t with workers := s.workers.set w pc' } := by
  obtain ⟨husers, hhandler, -⟩ := hs.registry
  by_cases hassign : ∃ k client, pc = .assignSocket k client
  · obtain ⟨k, client, rfl⟩ := hassign
    simp only [ActsForItself, hw, List.all_eq_true, bne_iff_ne] at hok
    cases hs
    refine ⟨h.ids, ?_, h.creating, h.removing, h.log⟩
    intro user hu
    have hne := hok user hu
    rw [h.current user hu]
    simp [State.current, hne]
  · have hpc : ∀ k client, pc ≠ .assignSocket k client := fun k client he => hassign ⟨k, client, he⟩
    refine h.pass husers (hs.noNewSocket hpc).epoch ?_ ?_ fun _ _ hm => hs.untouched hm
    · intro x hc
      exact hhandler ▸ hc
    · intro x hr
      exact hhandler ▸ hr

theorem OwnUsers.step {l : Label} (h : OwnUsers s) (hsockets : SocketsOwned s)
    (hok : ActsForItself s l) (hs : s.step cfg fb l = some t) : OwnUsers t := by
  cases l with
  | accepted w acceptSocket =>
    obtain ⟨-, -, rfl⟩ := step_accepted hs
    exact ⟨h.ids, h.current, h.creating, h.removing, h.log⟩
  | arrive conn data =>
    obtain ⟨-, -, -, rfl⟩ := step_arrive hs
    exact ⟨h.ids, h.current, h.creating, h.removing, h.log⟩
  | recvDone w conn result =>
    obtain ⟨-, -, rfl⟩ := step_recvDone hs
    exact ⟨h.ids, h.current, h.creating, h.removing, h.log⟩
  | sendDone w conn result =>
    obtain ⟨-, -, rfl⟩ := step_sendDone hs
    exact ⟨h.ids, h.current, h.creating, h.removing, h.log⟩
  | worker w ok =>
    obtain ⟨pc, u, pc', hw, hstep, rfl⟩ := step_worker hs
    exact h.worker hw hok hstep
  | tick =>
    obtain ⟨-, -, rfl⟩ := step_tick hs
    exact ⟨h.ids, h.current, h.creating, h.removing, h.log⟩
  | logic choice => exact h.logic hsockets hok (logicStep_inv hs)

theorem ownUsers_of_reach (h : (chatServer cfg fb).Reach ActsForItself s) : OwnUsers s := by
  refine h.invariant (I := OwnUsers) ⟨?_, ?_, ?_, ?_, ?_⟩
    fun hr hi hok hs =>
      hi.step (socketsOwned_of_reach (fun _ _ => ActsForItself.fresh) hr) hok hs
  · simp [UserManager.IdsUnique, chatServer, State.new, UserManager.new]
  · simp [chatServer, State.new, UserManager.new]
  · simp [chatServer, State.new, HandlerPc.creating]
  · simp [chatServer, State.new, HandlerPc.removing]
  · simp [chatServer, State.new]

/-- **A connection acts as its own user only.** In every run that meets the condition, each user
that a command finds, creates or removes was created by a join on the connection of the command. -/
theorem commands_touch_own_users (cfg : Config) (fb : FlatBuffers) {s : State} {conn : Conn}
    {user : User} (h : (chatServer cfg fb).Reach ActsForItself s)
    (hm : .touched conn user ∈ s.log) : user.joined = conn :=
  (ownUsers_of_reach h).log conn user hm

/-- Two clients join, one of them leaves and disconnects, and its slot is taken by a third one
that joins as well. -/
theorem commands_touch_own_users_reused :
    ∃ s user, (chatServer smallServer sample).Reach ActsForItself s ∧
      .touched ⟨0, 2⟩ user ∈ s.log ∧ user.joined = ⟨0, 2⟩ := by
  obtain ⟨s, hr, hp⟩ := System.reach_of_exec (chatServer smallServer sample) ActsForItself
    (accepts 0 4 ++ accepts 1 5 ++ receives 0 ⟨0, 1⟩ (frameBytes joinBytes) 1 ++
      receives 1 ⟨1, 1⟩ (frameBytes joinBytes) 1 ++ ticks 12 ++
      receives 0 ⟨0, 1⟩ (frameBytes leaveBytes) 1 ++ ticks 5 ++ disconnects 0 ⟨0, 1⟩ ++
      accepts 0 4 ++ receives 0 ⟨0, 2⟩ (frameBytes joinBytes) 1 ++ ticks 6)
    (fun s => s.users.users.any fun user => decide (.touched ⟨0, 2⟩ user ∈ s.log))
    (by decide +kernel)
  obtain ⟨user, -, hm⟩ := List.any_eq_true.mp hp
  have hm := of_decide_eq_true hm
  exact ⟨s, user, hr, hm, commands_touch_own_users smallServer sample hr hm⟩

/-- A client joins and disconnects, and its slot is taken by another one whose leave removes the
user of the first. -/
theorem successor_removes_user :
    ∃ s user, (chatServer smallServer sample).Reach System.always s ∧
      .touched ⟨0, 2⟩ user ∈ s.log ∧ user.joined = ⟨0, 1⟩ ∧ user ∉ s.users.users := by
  obtain ⟨s, hr, hp⟩ := System.reach_of_exec (chatServer smallServer sample) System.always
    (accepts 0 4 ++ receives 0 ⟨0, 1⟩ (frameBytes joinBytes) 1 ++ ticks 6 ++
      disconnects 0 ⟨0, 1⟩ ++ accepts 0 5 ++ receives 0 ⟨0, 2⟩ (frameBytes leaveBytes) 1 ++ ticks 5)
    (fun s => s.users.users.isEmpty && s.log.any fun e =>
      match e with
      | .touched conn user => conn == ⟨0, 2⟩ && user.joined == ⟨0, 1⟩
      | _ => false) (by decide +kernel)
  simp only [Bool.and_eq_true, List.isEmpty_iff, List.any_eq_true] at hp
  obtain ⟨hempty, e, hm, he⟩ := hp
  cases e with
  | touched conn user =>
    simp only [Bool.and_eq_true, beq_iff_eq] at he
    obtain ⟨rfl, hj⟩ := he
    exact ⟨s, user, hr, hm, hj, by simp [hempty]⟩
  | _ => simp at he

end Highp.Chat
