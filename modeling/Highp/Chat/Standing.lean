import Highp.Chat.AcceptFirst
import Highp.Chat.RoomSteps
import Highp.Chat.Sockets

/-! Where a client stands. It sends joins, leaves and messages, and the server keeps a user for it
or none. Between the two are the queue, the lookups and the steps of the handlers, among the other
threads. -/

namespace Highp.Chat
open Highp.Lib Highp.Network

/-! ## What a client asks for -/

inductive Ask
  | join
  | leave
  | say
  deriving DecidableEq

/-- What a client is after it has asked, if it was a member or not. -/
def Ask.after : Bool → Ask → Bool
  | _, .join => true
  | _, .leave => false
  | member, .say => member

/-- A user is registered on this slot. -/
def State.member (s : State) (client : Slot) : Bool :=
  s.users.users.any fun u => u.session.tcpClient == client

/-- The call of a handler and what it was asked, at the first step of the handler. -/
def HandlerPc.asked : HandlerPc → Option (Call × Ask)
  | .joinRoom call _ => some (call, .join)
  | .leaveFind call => some (call, .leave)
  | .chatFind call _ => some (call, .say)
  | _ => none

/-- What the logic thread dispatches for a slot in a step. -/
def dispatched (client : Slot) (s : State) (l : RoomLabel) (t : State) : List Ask :=
  match l, s.handler, t.handler.asked with
  | .server (.logic _), .ready, some (call, ask) =>
    if call.cmd.client = client then [ask] else []
  | _, _, _ => []

/-- The server with the commands of a slot that it has dispatched. -/
def askingServer (cfg : Config) (fb : FlatBuffers) (client : Slot) :
    System (State × List Ask) RoomLabel :=
  (roomServer cfg fb).recording [] fun s l t asks => asks ++ dispatched client s l t

/-! ## The condition -/

/-- The system gives out no handle that a slot still names. -/
def FreshHandles (s : State) : RoomLabel → Bool
  | .server l => FreshSockets s l
  | _ => true

/-- The client keeps its socket open and its session registered, no id comes round to one that is
in use, and the system gives out no handle that a slot still names. -/
def Stays (cfg : Config) (fb : FlatBuffers) (client : Slot) (s : State) (l : RoomLabel) : Prop :=
  ((match s.roomStep cfg fb l with
  | some t => (t.pool client).socket == (s.pool client).socket &&
      (t.pool client).socket.all t.sockets.contains
  | none => true) &&
  (match l with
  | .server (.accepted _ acceptSocket) => s.forgotten acceptSocket
  | .server (.worker w _) =>
    match s.workers[w]? with
    | some (.removeByClient conn) => conn.client != client
    | some (.onAccept _) =>
      s.sessions.sessions.all fun session => session.id != s.sessions.sessionCounter
    | _ => true
  | _ => true) &&
  (match s.handler with
  | .joinUser _ _ _ _ => s.users.users.all fun user => user.id != s.users.userIdCounter
  | _ => true)) = true

instance (cfg : Config) (fb : FlatBuffers) (client : Slot) (s : State) (l : RoomLabel) :
    Decidable (Stays cfg fb client s l) :=
  inferInstanceAs (Decidable (_ = true))

/-! ## The invariant -/

/-- The user that a handler is taking out. -/
def HandlerPc.takingOut : HandlerPc → Option (Call × User)
  | .leaveRoom call user => some (call, user)
  | .leaveReply call user => some (call, user)
  | .leaveRemove call user => some (call, user)
  | _ => none

/-- The handler is on its way to the effect that this client has asked for. -/
def HandlerPc.underway (client : Slot) (pc : HandlerPc) : Option Bool :=
  match pc with
  | .joinRoom call _ => if call.cmd.client = client then some true else none
  | .joinSession call _ _ => if call.cmd.client = client then some true else none
  | .joinUser call _ _ _ => if call.cmd.client = client then some true else none
  | .leaveFind call => if call.cmd.client = client then some false else none
  | .leaveRoom call _ => if call.cmd.client = client then some false else none
  | .leaveReply call _ => if call.cmd.client = client then some false else none
  | .leaveRemove call _ => if call.cmd.client = client then some false else none
  | _ => none

/-- The client is what its commands have made of it, but for the one that is being handled. -/
structure Standing (client : Slot) (member : Bool) (s : State) : Prop where
  connected : (s.pool client).isConnected = true
  session : ∃ session ∈ s.sessions.sessions, session.tcpClient = client
  ids : s.users.IdsUnique
  once : ∀ u ∈ s.users.users, ∀ v ∈ s.users.users, u.session.tcpClient = client →
    v.session.tcpClient = client → u = v
  settled : s.handler.underway client = none → s.handler ≠ .fault → s.member client = member
  underway : ∀ after, s.handler.underway client = some after → after = member
  creating : ∀ call username room session, s.handler = .joinUser call username room session →
    (session.tcpClient = client ↔ call.cmd.client = client)
  leaving : ∀ call user, s.handler.takingOut = some (call, user) →
    user ∈ s.users.users ∧ (user.session.tcpClient = client ↔ call.cmd.client = client)

section
variable {cfg : Config} {fb : FlatBuffers} {s t : State} {client other : Slot} {member : Bool}

theorem member_eq_true : s.member client = true ↔
    ∃ u ∈ s.users.users, u.session.tcpClient = client := by
  simp [State.member]

theorem Stays.socket {l : RoomLabel} (h : Stays cfg fb client s l)
    (hs : s.roomStep cfg fb l = some t) : (t.pool client).socket = (s.pool client).socket := by
  simp only [Stays, hs, Bool.and_eq_true, beq_iff_eq] at h
  exact h.1.1.1

theorem Stays.open {l : RoomLabel} (h : Stays cfg fb client s l)
    (hs : s.roomStep cfg fb l = some t) : ∀ k, (t.pool client).socket = some k → k ∈ t.sockets := by
  simp only [Stays, hs, Bool.and_eq_true, Option.all_eq_true, List.contains_iff_mem] at h
  exact h.1.1.2

theorem Stays.fresh {l : RoomLabel} (h : Stays cfg fb client s l) : FreshHandles s l = true := by
  cases l with
  | server l =>
    cases l with
    | accepted w acceptSocket =>
      simp only [Stays, Bool.and_eq_true] at h
      exact h.1.2
    | _ => rfl
  | _ => rfl

theorem Stays.session {w : Nat} {ok : Bool} {conn : Conn}
    (h : Stays cfg fb client s (.server (.worker w ok)))
    (hw : s.workers[w]? = some (.removeByClient conn)) : conn.client ≠ client := by
  simp only [Stays, hw, Bool.and_eq_true, bne_iff_ne] at h
  exact h.1.2

theorem Stays.sessionIds {w : Nat} {ok : Bool} {conn : Conn}
    (h : Stays cfg fb client s (.server (.worker w ok)))
    (hw : s.workers[w]? = some (.onAccept conn)) :
    ∀ session ∈ s.sessions.sessions, session.id ≠ s.sessions.sessionCounter := by
  simp only [Stays, hw, Bool.and_eq_true, List.all_eq_true, bne_iff_ne] at h
  exact h.1.2

theorem Stays.userIds {l : RoomLabel} {call : Call} {username : Text} {room : Nat}
    {session : Session} (h : Stays cfg fb client s l)
    (hpc : s.handler = .joinUser call username room session) :
    ∀ user ∈ s.users.users, user.id ≠ s.users.userIdCounter := by
  simp only [Stays, hpc, Bool.and_eq_true, List.all_eq_true, bne_iff_ne] at h
  exact h.2

/-- A lookup for another client, or for this one, finds what is on its slot. -/
theorem SocketsOwned.same_slot (h : SocketsOwned s)
    (hopen : (s.pool client).isConnected = true) {session : Session}
    (hsame : session.isSameSession s.pool other = true) :
    session.tcpClient = client ↔ other = client := by
  rcases h.isSameSession_cases hsame with he | ⟨hother, hsession⟩
  · rw [he]
  · constructor
    · rintro rfl
      rw [hsession] at hopen
      cases hopen
    · rintro rfl
      rw [hother] at hopen
      cases hopen

theorem getUserByClient_slot (h : SocketsOwned s) (hopen : (s.pool client).isConnected = true)
    {order : Nat} {user : User} (hg : s.users.getUserByClient s.pool other order = some user) :
    user ∈ s.users.users ∧ (user.session.tcpClient = client ↔ other = client) := by
  obtain ⟨hmem, hsame⟩ := UserManager.getUserByClient_mem hg
  exact ⟨hmem, h.same_slot hopen hsame⟩

theorem getUserByClient_none {order : Nat}
    (hg : s.users.getUserByClient s.pool client order = none) : s.member client = false := by
  rw [← Bool.not_eq_true, member_eq_true]
  rintro ⟨u, hu, rfl⟩
  have hfound : u ∈ s.users.users.filter fun v => v.isSameClient s.pool u.session.tcpClient :=
    List.mem_filter.mpr ⟨hu, Session.isSameSession_self _ _⟩
  rw [firstMatch_eq_none.mp hg] at hfound
  exact List.not_mem_nil hfound

theorem getSessionByClient_none {order : Nat}
    (hg : s.sessions.getSessionByClient s.pool client order = none) :
    ∀ session ∈ s.sessions.sessions, session.tcpClient ≠ client := by
  rintro session hm rfl
  have hfound : session ∈ s.sessions.sessions.filter fun x =>
      x.isSameSession s.pool session.tcpClient :=
    List.mem_filter.mpr ⟨hm, Session.isSameSession_self _ _⟩
  rw [firstMatch_eq_none.mp hg] at hfound
  exact List.not_mem_nil hfound

/-! ## One step -/

theorem Standing.keep {member' : Bool} (h : Standing client member s)
    (hopen : (t.pool client).isConnected = true) (hsessions : t.sessions = s.sessions)
    (husers : t.users = s.users)
    (hsettled : t.handler.underway client = none → t.handler ≠ .fault → s.member client = member')
    (hunderway : ∀ after, t.handler.underway client = some after → after = member')
    (hcreating : ∀ call username room session,
      t.handler = .joinUser call username room session →
        (session.tcpClient = client ↔ call.cmd.client = client))
    (htaking : ∀ call user, t.handler.takingOut = some (call, user) →
      user ∈ s.users.users ∧ (user.session.tcpClient = client ↔ call.cmd.client = client)) :
    Standing client member' t where
  connected := hopen
  session := hsessions ▸ h.session
  ids := husers ▸ h.ids
  once := husers ▸ h.once
  settled hnone hfault := by
    rw [State.member, husers]
    exact hsettled hnone hfault
  underway := hunderway
  creating := hcreating
  leaving call user htake := by
    rw [husers]
    exact htaking call user htake

/-- While nothing is under way for the client it is what its commands have made of it. -/
theorem Standing.idle {pc : HandlerPc} (h : Standing client member s) (hpc : s.handler = pc)
    (hidle : pc.underway client = none) (hnot : pc ≠ .fault) : s.member client = member := by
  subst hpc
  exact h.settled hidle hnot

/-- The handler moves on and nothing changes that it has found. -/
theorem Standing.goes {pc pc' : HandlerPc} (h : Standing client member s)
    (hpc : s.handler = pc) (hpc' : t.handler = pc') (hopen : (t.pool client).isConnected = true)
    (hsessions : t.sessions = s.sessions) (husers : t.users = s.users) (hnot : pc ≠ .fault)
    (hunderway : pc'.underway client = pc.underway client)
    (hcreating : ∀ call username room session, pc' ≠ .joinUser call username room session)
    (htaking : pc'.takingOut = pc.takingOut) : Standing client member t := by
  subst hpc hpc'
  refine h.keep hopen hsessions husers (fun hnone _ => h.settled (hunderway ▸ hnone) hnot) ?_ ?_ ?_
  · intro after hafter
    exact h.underway after (hunderway ▸ hafter)
  · intro call username room session he
    exact absurd he (hcreating call username room session)
  · intro call user htake
    exact h.leaving call user (htaking ▸ htake)

/-- The handler comes to its end. -/
theorem Standing.ends (h : Standing client member s) (hopen : (t.pool client).isConnected = true)
    (hsessions : t.sessions = s.sessions) (husers : t.users = s.users)
    (hpc : t.handler = .ready) (hmember : s.member client = member) :
    Standing client member t := by
  refine h.keep hopen hsessions husers (fun _ _ => hmember) ?_ ?_ ?_
  · rw [hpc]
    nofun
  · rw [hpc]
    nofun
  · rw [hpc]
    nofun

/-- A command is dispatched; what it asks for is still to be done if it is from this client. -/
theorem Standing.begins {call : Call} {ask : Ask} (pc : HandlerPc) (h : Standing client member s)
    (hready : s.handler = .ready) (hasked : pc.asked = some (call, ask))
    (hpc : t.handler = pc) (hopen : (t.pool client).isConnected = true)
    (hsessions : t.sessions = s.sessions) (husers : t.users = s.users) :
    Standing client ((if call.cmd.client = client then [ask] else []).foldl Ask.after member)
      t := by
  have hmember : s.member client = member := h.idle hready rfl nofun
  subst hpc
  by_cases hown : call.cmd.client = client
  · rw [if_pos hown]
    cases hhandler : t.handler <;> rw [hhandler] at hasked <;> cases hasked <;>
      exact h.keep hopen hsessions husers
        (by simp [hhandler, HandlerPc.underway, hown, Ask.after, hmember])
        (by simp [hhandler, HandlerPc.underway, hown, Ask.after]) (by simp [hhandler])
        (by simp [hhandler, HandlerPc.takingOut])
  · rw [if_neg hown]
    cases hhandler : t.handler <;> rw [hhandler] at hasked <;> cases hasked <;>
      exact h.keep hopen hsessions husers (fun _ _ => hmember)
        (by simp [hhandler, HandlerPc.underway, hown]) (by simp [hhandler])
        (by simp [hhandler, HandlerPc.takingOut])

theorem dispatched_none {l : RoomLabel} (h : t.handler.asked = none) :
    dispatched client s l t = [] := by
  unfold dispatched
  rw [h]
  split
  · rename_i he
    cases he
  · rfl

/-- The user that a join has made is on the slot of the client that asked for it. -/
theorem Standing.joins {choice : Choice} {call : Call} {username : Text} {room : Nat}
    {session : Session} {user : User} (h : Standing client member s)
    (hpc : s.handler = .joinUser call username room session)
    (hg : s.users.getUserByClient s.pool call.cmd.client choice.order = none)
    (hfree : ∀ u ∈ s.users.users, u.id ≠ s.users.userIdCounter)
    (hopen : (t.pool client).isConnected = true) (hsessions : t.sessions = s.sessions)
    (huser : user = s.users.makeUser session username (s.rooms.roomAt room).id call.cmd.conn)
    (husers : t.users = s.users.addUser user) (hnext : t.handler = .joinEnter call room user) :
    Standing client member t := by
  have hslot : user.session.tcpClient = client ↔ call.cmd.client = client := by
    rw [huser]
    exact h.creating call username room session hpc
  have hkept : ∀ u, u ∈ t.users.users ↔ u ∈ s.users.users ∨ u = user := by
    intro u
    rw [husers, UserManager.mem_addUser]
    constructor
    · rintro (⟨hu, -⟩ | he)
      · exact .inl hu
      · exact .inr he
    · rintro (hu | he)
      · refine .inl ⟨hu, ?_⟩
        rw [huser]
        exact hfree u hu
      · exact .inr he
  refine ⟨hopen, hsessions ▸ h.session, husers ▸ h.ids.addUser user, ?_, ?_, ?_, ?_, ?_⟩
  · intro u hu v hv hcu hcv
    -- a second user would have been found by the lookup
    have hnone : call.cmd.client = client → ∀ w ∈ s.users.users, w.session.tcpClient ≠ client := by
      rintro rfl w hw he
      have hmember := getUserByClient_none hg
      rw [member_eq_true.mpr ⟨w, hw, he⟩] at hmember
      cases hmember
    rcases (hkept u).mp hu with hu | rfl
    · rcases (hkept v).mp hv with hv | rfl
      · exact h.once u hu v hv hcu hcv
      · exact absurd hcu (hnone (hslot.mp hcv) u hu)
    · rcases (hkept v).mp hv with hv | rfl
      · exact absurd hcv (hnone (hslot.mp hcu) v hv)
      · rfl
  · intro _ _
    by_cases hown : call.cmd.client = client
    · have hmember : true = member := by
        apply h.underway
        simp [hpc, HandlerPc.underway, hown]
      rw [← hmember, member_eq_true]
      exact ⟨user, (hkept user).mpr (.inr rfl), hslot.mpr hown⟩
    · have hbefore : s.member client = member := by
        apply h.settled
        · simp [hpc, HandlerPc.underway, hown]
        · rw [hpc]
          nofun
      rw [← hbefore, Bool.eq_iff_iff, member_eq_true, member_eq_true]
      constructor
      · rintro ⟨u, hu, he⟩
        rcases (hkept u).mp hu with hu | rfl
        · exact ⟨u, hu, he⟩
        · exact absurd (hslot.mp he) hown
      · rintro ⟨u, hu, he⟩
        exact ⟨u, (hkept u).mpr (.inl hu), he⟩
  · rw [hnext]
    nofun
  · rw [hnext]
    nofun
  · rw [hnext]
    nofun

/-- The user of a leave is taken out, and it was the only one on its slot. -/
theorem Standing.leaves {call : Call} {user : User} (h : Standing client member s)
    (hpc : s.handler = .leaveRemove call user) (hopen : (t.pool client).isConnected = true)
    (hsessions : t.sessions = s.sessions)
    (husers : t.users = s.users.removeUserByUserId user.id) (hnext : t.handler = .ready) :
    Standing client member t := by
  obtain ⟨hmem, hslot⟩ := h.leaving call user (by rw [hpc]; rfl)
  have hkept : ∀ u, u ∈ t.users.users ↔ u ∈ s.users.users ∧ u ≠ user := by
    intro u
    rw [husers, UserManager.mem_removeUserByUserId]
    constructor
    · rintro ⟨hu, hne⟩
      exact ⟨hu, fun he => hne (he ▸ rfl)⟩
    · rintro ⟨hu, hne⟩
      exact ⟨hu, fun he => hne (h.ids u hu user hmem he)⟩
  refine ⟨hopen, hsessions ▸ h.session, husers ▸ h.ids.removeUserByUserId user.id, ?_, ?_, ?_, ?_,
    ?_⟩
  · intro u hu v hv
    exact h.once u ((hkept u).mp hu).1 v ((hkept v).mp hv).1
  · intro _ _
    by_cases hown : call.cmd.client = client
    · have hmember : false = member := by
        apply h.underway
        simp [hpc, HandlerPc.underway, hown]
      rw [← hmember, ← Bool.not_eq_true, member_eq_true]
      rintro ⟨u, hu, he⟩
      obtain ⟨hu, hne⟩ := (hkept u).mp hu
      exact hne (h.once u hu user hmem he (hslot.mpr hown))
    · have hbefore : s.member client = member := by
        apply h.settled
        · simp [hpc, HandlerPc.underway, hown]
        · rw [hpc]
          nofun
      rw [← hbefore, Bool.eq_iff_iff, member_eq_true, member_eq_true]
      constructor
      · rintro ⟨u, hu, he⟩
        exact ⟨u, ((hkept u).mp hu).1, he⟩
      · rintro ⟨u, hu, he⟩
        refine ⟨u, (hkept u).mpr ⟨hu, ?_⟩, he⟩
        rintro rfl
        exact hown (hslot.mp he)
  · rw [hnext]
    nofun
  · rw [hnext]
    nofun
  · rw [hnext]
    nofun

/-- A join that ends before it has looked for a user has found no session. -/
theorem session_missing {choice : Choice} {call : Call} {username : Text} {room : Nat}
    (hs : s.logicStep fb choice = some t) (hpc : s.handler = .joinSession call username room)
    (hnext : t.handler = .ready) :
    s.sessions.getSessionByClient s.pool call.cmd.client choice.order = none := by
  cases hg : s.sessions.getSessionByClient s.pool call.cmd.client choice.order with
  | none => rfl
  | some session =>
    simp only [State.logicStep, hpc, hg, Option.some.injEq] at hs
    rw [← hs] at hnext
    cases hnext

/-- **One step of the logic thread.** -/
theorem Standing.logic {choice : Choice} (h : Standing client member s) (howned : SocketsOwned s)
    (hopen : (t.pool client).isConnected = true) (hs : s.logicStep fb choice = some t)
    (hfree : ∀ call username room session, s.handler = .joinUser call username room session →
      ∀ user ∈ s.users.users, user.id ≠ s.users.userIdCounter) :
    Standing client ((dispatched client s (.server (.logic choice)) t).foldl Ask.after member)
      t := by
  have hstep := logicStep_inv hs
  have hsessions := hstep.sessions
  have hbusy : s.handler ≠ .ready → dispatched client s (.server (.logic choice)) t = [] := by
    intro hne
    unfold dispatched
    split
    · rename_i hready _
      exact absurd hready hne
    · rfl
  cases hstep with
  | skip hready hb =>
    rw [dispatched_none (by simp [hready, HandlerPc.asked])]
    exact h.ends hopen rfl rfl hready (h.idle hready rfl (by simp))
  | rejectClosed hready hb _ =>
    rw [dispatched_none (by simp [State.closeSocket, hready, HandlerPc.asked])]
    exact h.ends hopen rfl rfl hready (h.idle hready rfl (by simp))
  | reject hready hb _ =>
    rw [dispatched_none (by simp [HandlerPc.asked])]
    exact h.goes hready rfl hopen rfl rfl (by simp) rfl (by simp) rfl
  | reset hpc =>
    rw [hbusy (by simp [hpc])]
    exact h.ends hopen rfl rfl rfl (h.idle hpc rfl (by simp))
  | startJoin sequence username hready hb =>
    simp only [dispatched, hready, HandlerPc.asked]
    exact h.begins (.joinRoom _ username) hready rfl rfl hopen rfl rfl
  | startLeave sequence hready hb =>
    simp only [dispatched, hready, HandlerPc.asked]
    exact h.begins (.leaveFind _) hready rfl rfl hopen rfl rfl
  | startChat sequence message hready hb =>
    simp only [dispatched, hready, HandlerPc.asked]
    exact h.begins (.chatFind _ message) hready rfl rfl hopen rfl rfl
  | @joinRoom call username hpc =>
    rw [hbusy (by simp [hpc])]
    exact h.goes hpc rfl hopen rfl rfl (by simp) rfl (by simp) rfl
  | @joinNoSession call username room hpc =>
    rw [hbusy (by simp [hpc])]
    refine h.ends hopen rfl rfl rfl (h.idle hpc ?_ (by simp))
    have hother : call.cmd.client ≠ client := by
      rintro rfl
      obtain ⟨session, hm, he⟩ := h.session
      exact getSessionByClient_none (session_missing hs hpc rfl) session hm he
    simp [HandlerPc.underway, hother]
  | @joinSession call username room session hpc hg =>
    rw [hbusy (by simp [hpc])]
    have hsame := (List.mem_filter.mp (firstMatch_mem hg)).2
    refine h.keep hopen rfl rfl (fun hnone _ => h.idle hpc hnone (by simp)) ?_ ?_
      (by simp [HandlerPc.takingOut])
    · intro after hafter
      apply h.underway
      rw [hpc]
      exact hafter
    · rintro call' username' room' session' he
      cases he
      exact howned.same_slot h.connected hsame
  | @joinExists call username room session user hpc hg =>
    rw [hbusy (by simp [hpc])]
    refine h.ends hopen rfl rfl rfl ?_
    by_cases hown : call.cmd.client = client
    · obtain ⟨hm, hslot⟩ := getUserByClient_slot howned h.connected hg
      have hmember : true = member := by
        apply h.underway
        simp [hpc, HandlerPc.underway, hown]
      rw [← hmember, member_eq_true]
      exact ⟨user, hm, hslot.mpr hown⟩
    · apply h.idle hpc
      · simp [HandlerPc.underway, hown]
      · simp
  | @joinUser call username room session user hpc hg huser =>
    rw [hbusy (by simp [hpc])]
    exact h.joins hpc hg (hfree _ _ _ _ hpc) hopen rfl huser rfl rfl
  | @joinEnter call room user pool sends evs hpc hsent =>
    rw [hbusy (by simp [hpc])]
    exact h.goes hpc rfl hopen rfl rfl (by simp) rfl (by simp) rfl
  | @joinReply call user pool sends evs hpc hsent =>
    rw [hbusy (by simp [hpc])]
    exact h.ends hopen rfl rfl rfl (h.idle hpc rfl (by simp))
  | @leaveNobody call hpc hg =>
    rw [hbusy (by simp [hpc])]
    refine h.ends hopen rfl rfl rfl ?_
    by_cases hown : call.cmd.client = client
    · have hmember : false = member := by
        apply h.underway
        simp [hpc, HandlerPc.underway, hown]
      subst hown
      rw [← hmember]
      exact getUserByClient_none hg
    · apply h.idle hpc
      · simp [HandlerPc.underway, hown]
      · simp
  | @leaveFind call user hpc hg =>
    rw [hbusy (by simp [hpc])]
    refine h.keep hopen rfl rfl (fun hnone _ => h.idle hpc hnone (by simp)) ?_ (by simp) ?_
    · intro after hafter
      apply h.underway
      rw [hpc]
      exact hafter
    · rintro call' user' he
      cases he
      exact getUserByClient_slot howned h.connected hg
  | @leaveFault call user hpc hr =>
    rw [hbusy (by simp [hpc])]
    exact h.keep hopen rfl rfl (fun _ hfault => absurd rfl hfault) (by simp [HandlerPc.underway])
      (by simp) (by simp [HandlerPc.takingOut])
  | @leaveMissing call user room hpc hr hl =>
    rw [hbusy (by simp [hpc])]
    exact h.goes hpc rfl hopen rfl rfl (by simp) rfl (by simp) rfl
  | @leaveRoom call user room found others left pool sends evs hpc hr hl hsent =>
    rw [hbusy (by simp [hpc])]
    exact h.goes hpc rfl hopen rfl rfl (by simp) rfl (by simp) rfl
  | @leaveReply call user pool sends evs hpc hsent =>
    rw [hbusy (by simp [hpc])]
    exact h.goes hpc rfl hopen rfl rfl (by simp) rfl (by simp) rfl
  | @leaveRemove call user hpc =>
    rw [hbusy (by simp [hpc])]
    exact h.leaves hpc hopen rfl rfl rfl
  | @chatNobody call message hpc hg =>
    rw [hbusy (by simp [hpc])]
    exact h.ends hopen rfl rfl rfl (h.idle hpc rfl (by simp))
  | @chatFind call message user hpc hg =>
    rw [hbusy (by simp [hpc])]
    exact h.goes hpc rfl hopen rfl rfl (by simp) rfl (by simp) rfl
  | @chatNoRoom call message user hpc =>
    rw [hbusy (by simp [hpc])]
    exact h.ends hopen rfl rfl rfl (h.idle hpc rfl (by simp))
  | @chatSend call message user pool sends evs hpc hsent =>
    rw [hbusy (by simp [hpc])]
    exact h.ends hopen rfl rfl rfl (h.idle hpc rfl (by simp))

/-! ## The other threads -/

theorem Standing.others {l : RoomLabel} (h : Standing client member s)
    (hopen : (t.pool client).isConnected = true)
    (hsession : ∃ session ∈ t.sessions.sessions, session.tcpClient = client)
    (husers : t.users = s.users) (hhandler : t.handler = s.handler)
    (hlabel : ∀ choice, l ≠ .server (.logic choice)) :
    Standing client ((dispatched client s l t).foldl Ask.after member) t := by
  have hnone : dispatched client s l t = [] := by
    unfold dispatched
    split
    · exact absurd rfl (hlabel _)
    · rfl
  rw [hnone]
  exact {
    connected := hopen
    session := hsession
    ids := husers ▸ h.ids
    once := husers ▸ h.once
    settled := by
      rw [State.member, husers, hhandler]
      exact h.settled
    underway := hhandler ▸ h.underway
    creating := hhandler ▸ h.creating
    leaving := by
      rw [husers, hhandler]
      exact h.leaving }

/-- A worker takes no session out of the table that is on the slot of the client. -/
theorem Standing.worker_session {w : Nat} {ok : Bool} {pc pc' : WorkerPc} {u : State}
    (h : Standing client member s) (howned : SocketsOwned s)
    (hpc : s.workers[w]? = some pc) (hstep : WorkerStep cfg fb s ok pc u pc')
    (hstays : Stays cfg fb client s (.server (.worker w ok))) :
    ∃ session ∈ u.sessions.sessions, session.tcpClient = client := by
  obtain ⟨session, hm, hslot⟩ := h.session
  by_cases haccept : ∃ conn, pc = .onAccept conn
  · obtain ⟨conn, rfl⟩ := haccept
    have hne := hstays.sessionIds hpc session hm
    cases hstep
    refine ⟨session, ?_, hslot⟩
    exact List.mem_append_left _ (List.mem_filter.mpr ⟨hm, by simpa using hne⟩)
  · by_cases hremove : ∃ conn, pc = .removeByClient conn
    · obtain ⟨conn, rfl⟩ := hremove
      have hne := hstays.session hpc
      cases hstep
      refine ⟨session, List.mem_filter.mpr ⟨hm, ?_⟩, hslot⟩
      rw [Bool.not_eq_true', ← Bool.not_eq_true]
      intro hsame
      exact hne ((howned.same_slot h.connected hsame).mp hslot)
    · have hsame := hstep.sessions (fun conn he => haccept ⟨conn, he⟩)
        fun conn he => hremove ⟨conn, he⟩
      exact ⟨session, hsame ▸ hm, hslot⟩

theorem SocketsOwned.roomStep {l : RoomLabel} (h : SocketsOwned s)
    (hok : FreshHandles s l = true) (hs : s.roomStep cfg fb l = some t) : SocketsOwned t := by
  cases l with
  | server l => exact h.step hok hs
  | kickRoom w room =>
    obtain ⟨conn, -, rfl⟩ := roomStep_kickRoom hs
    exact h
  | kicked w =>
    obtain ⟨conn, hw, rfl⟩ := roomStep_kicked hs
    refine h.effect (.kept (fun _ => rfl) rfl fun i => ?_) (holds_setWorker hw rfl rfl)
    exact resetting_setWorker hw rfl rfl (by simp [WorkerPc.resetting])

/-- **One step of any thread.** -/
theorem Standing.step {l : RoomLabel} (h : Standing client member s) (howned : SocketsOwned s)
    (hstays : Stays cfg fb client s l) (hs : s.roomStep cfg fb l = some t) :
    Standing client ((dispatched client s l t).foldl Ask.after member) t := by
  have hopen : (t.pool client).isConnected = true := by
    rw [Client.isConnected, hstays.socket hs]
    exact h.connected
  cases l with
  | kickRoom w room =>
    obtain ⟨conn, -, rfl⟩ := roomStep_kickRoom hs
    exact h.others hopen h.session rfl rfl (by simp)
  | kicked w =>
    obtain ⟨conn, -, rfl⟩ := roomStep_kicked hs
    exact h.others hopen h.session rfl rfl (by simp)
  | server l =>
    have hs : s.step cfg fb l = some t := hs
    cases l with
    | accepted w acceptSocket =>
      obtain ⟨-, -, rfl⟩ := step_accepted hs
      exact h.others hopen h.session rfl rfl (by simp)
    | arrive conn data =>
      obtain ⟨-, -, -, rfl⟩ := step_arrive hs
      exact h.others hopen h.session rfl rfl (by simp)
    | recvDone w conn result =>
      obtain ⟨-, -, rfl⟩ := step_recvDone hs
      exact h.others hopen h.session rfl rfl (by simp)
    | sendDone w conn result =>
      obtain ⟨-, -, rfl⟩ := step_sendDone hs
      exact h.others hopen h.session rfl rfl (by simp)
    | worker w ok =>
      obtain ⟨pc, u, pc', hpc, hstep, rfl⟩ := step_worker hs
      obtain ⟨husers, hhandler, -⟩ := hstep.registry
      have hsession := h.worker_session howned hpc hstep hstays
      exact h.others hopen hsession husers hhandler (by simp)
    | tick =>
      obtain ⟨-, -, rfl⟩ := step_tick hs
      exact h.others hopen h.session rfl rfl (by simp)
    | logic choice => exact h.logic howned hopen hs fun _ _ _ _ hpc => hstays.userIds hpc

/-! ## Whole runs -/

theorem socketsOwned_of_roomReach
    (h : (roomServer cfg fb).Reach (fun s l => FreshHandles s l = true) s) : SocketsOwned s := by
  refine h.invariant (I := SocketsOwned) ?_ fun _ hi hok hs => hi.roomStep hok hs
  have hstart : (chatServer cfg fb).Reach (fun s l => FreshSockets s l = true) (State.new cfg) :=
    .start
  exact socketsOwned_of_reach (fun _ _ hok => hok) hstart

theorem idsUnique_of_reach {ok : State → RoomLabel → Prop} (h : (roomServer cfg fb).Reach ok s) :
    s.users.IdsUnique := by
  refine h.invariant (I := fun s => s.users.IdsUnique) (by nofun) fun {s t l} _ hi _ hs => ?_
  rcases roomStep_registry hs with ⟨-, hl⟩ | ⟨-, -, hu, -, -⟩
  · cases hl with
    | joinUser => exact hi.addUser _
    | leaveRemove => exact hi.removeUserByUserId _
    | _ => exact hi
  · exact hu ▸ hi

/-- Between two commands a client is what it is. -/
theorem standing_start {ok : State → RoomLabel → Prop} {s₀ : State}
    (h₀ : (roomServer cfg fb).Reach ok s₀)
    (hready : s₀.handler = .ready) (hopen : (s₀.pool client).isConnected = true)
    (hsession : ∃ session ∈ s₀.sessions.sessions, session.tcpClient = client)
    (honce : ∀ u ∈ s₀.users.users, ∀ v ∈ s₀.users.users, u.session.tcpClient = client →
      v.session.tcpClient = client → u = v) : Standing client (s₀.member client) s₀ where
  connected := hopen
  session := hsession
  ids := idsUnique_of_reach h₀
  once := honce
  settled _ _ := rfl
  underway := by
    rw [hready]
    nofun
  creating := by
    rw [hready]
    nofun
  leaving := by
    rw [hready]
    nofun

/-- From a state between two commands on, while the client stays. -/
theorem standing_of_reach {s₀ : State} {p : State × List Ask}
    (hstart : Standing client (s₀.member client) s₀) (howned : SocketsOwned s₀)
    (h : ((askingServer cfg fb client).startingAt (s₀, [])).Reach
      (fun p l => Stays cfg fb client p.1 l) p) :
    Standing client (p.2.foldl Ask.after (s₀.member client)) p.1 ∧ SocketsOwned p.1 := by
  refine h.invariant (I := fun p => Standing client (p.2.foldl Ask.after (s₀.member client)) p.1 ∧
    SocketsOwned p.1) ⟨hstart, howned⟩ ?_
  intro p q l _ hi hok hs
  have hs : (askingServer cfg fb client).step p l = some q := hs
  obtain ⟨hstep, hasks⟩ := System.recording_step hs
  rw [hasks, List.foldl_append]
  exact ⟨hi.1.step hi.2 hok hstep, hi.2.roomStep hok.fresh hstep⟩

end

/-- **A client is a member exactly when its commands have made it one**, in every run in which it
stays and handles are fresh, whatever the other clients and the workers do. -/
theorem member_as_asked (cfg : Config) (fb : FlatBuffers) (client : Slot) {s₀ : State}
    {p : State × List Ask}
    (h₀ : (roomServer cfg fb).Reach (fun s l => FreshHandles s l = true) s₀)
    (hready : s₀.handler = .ready) (hopen : (s₀.pool client).isConnected = true)
    (hsession : ∃ session ∈ s₀.sessions.sessions, session.tcpClient = client)
    (honce : ∀ u ∈ s₀.users.users, ∀ v ∈ s₀.users.users, u.session.tcpClient = client →
      v.session.tcpClient = client → u = v)
    (h : ((askingServer cfg fb client).startingAt (s₀, [])).Reach
      (fun p l => Stays cfg fb client p.1 l) p) (hp : p.1.handler = .ready) :
    p.1.member client = p.2.foldl Ask.after (s₀.member client) := by
  have hstart := standing_start h₀ hready hopen hsession honce
  obtain ⟨hstanding, -⟩ := standing_of_reach hstart (socketsOwned_of_roomReach h₀) h
  exact hstanding.idle hp rfl nofun

/-- Two clients connect. -/
def bothConnect : List RoomLabel := (accepts 0 4 ++ accepts 1 5).map .server

/-- The first joins, talks, leaves and joins again; the second joins among this, and talks. -/
def comesBack : List RoomLabel :=
  (receives 0 ⟨0, 1⟩ (frameBytes joinBytes ++ frameBytes chatBytes) 2 ++
    receives 1 ⟨1, 1⟩ (frameBytes joinBytes) 1 ++ ticks 15 ++
    receives 0 ⟨0, 1⟩ (frameBytes leaveBytes ++ frameBytes joinBytes) 2 ++
    receives 1 ⟨1, 1⟩ (frameBytes chatBytes) 1 ++ ticks 14).map .server

/-- A run through `bothConnect` and `comesBack`. -/
theorem member_as_asked_again : ∃ (s : State) (p : State × List Ask),
    ((askingServer smallServer conversation 0).startingAt (s, [])).Reach
        (fun p l => Stays smallServer conversation 0 p.1 l) p ∧
      p.2 = [.join, .say, .leave, .join] ∧ s.member 0 = false ∧ p.1.member 0 = true := by
  have hrun : (((roomServer smallServer conversation).exec (fun s l => FreshHandles s l = true)
      (State.new smallServer) bothConnect).bind fun s =>
        (((askingServer smallServer conversation 0).startingAt (s, [])).exec
          (fun p l => Stays smallServer conversation 0 p.1 l) (s, []) comesBack).map fun p =>
            s.handler.isReady && (s.pool 0).isConnected &&
              s.sessions.sessions.any (fun x => x.tcpClient == 0) && s.users.users.isEmpty &&
              p.1.handler.isReady && p.2 == [.join, .say, .leave, .join]) = some true := by
    decide +kernel
  obtain ⟨s, hs, hrest⟩ := Option.bind_eq_some_iff.mp hrun
  obtain ⟨p, hp, hcheck⟩ := Option.map_eq_some_iff.mp hrest
  simp only [Bool.and_eq_true, List.isEmpty_iff, List.any_eq_true, beq_iff_eq,
    HandlerPc.isReady_iff] at hcheck
  obtain ⟨⟨⟨⟨⟨hready, hopen⟩, hsession⟩, husers⟩, hend⟩, hasks⟩ := hcheck
  have h₀ : (roomServer smallServer conversation).Reach (fun s l => FreshHandles s l = true) s :=
    System.Reach.start.exec hs
  have h := System.Reach.start.exec hp
  have hmember := member_as_asked smallServer conversation 0 h₀ hready hopen hsession
    (by simp [husers]) h hend
  refine ⟨s, p, h, hasks, ?_, ?_⟩
  · simp [State.member, husers]
  · rw [hmember, hasks]
    rfl

end Highp.Chat
