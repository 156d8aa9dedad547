import Highp.Chat.Membership
import Highp.Chat.Posts
import Highp.Client.Tracking

/-! Whether a request is answered: what a handler posts to the client it runs for, against what
that client has registered. -/

namespace Highp.Chat
open Highp.Lib Highp.Network Highp.Client

/-! ## Requests -/

/-- The call that a handler is serving, and what its client waits for. -/
def HandlerPc.request : HandlerPc → Option (Call × RequestTracking)
  | .ready => none
  | .joinRoom call _ => some (call, sendJoinRoom call.sequence)
  | .joinSession call _ _ => some (call, sendJoinRoom call.sequence)
  | .joinUser call _ _ _ => some (call, sendJoinRoom call.sequence)
  | .joinEnter call _ _ => some (call, sendJoinRoom call.sequence)
  | .joinReply call _ => some (call, sendJoinRoom call.sequence)
  | .leaveFind call => some (call, sendLeave call.sequence)
  | .leaveRoom call _ => some (call, sendLeave call.sequence)
  | .leaveReply call _ => some (call, sendLeave call.sequence)
  | .leaveRemove call _ => some (call, sendLeave call.sequence)
  | .chatFind call _ => some (call, sendMessage call.sequence)
  | .chatSend call _ _ => some (call, sendMessage call.sequence)
  | .resetSocket _ => none
  | .fault => none

/-- The handling of one request: the steps that the logic thread has taken since its dispatch,
each with the state before it. -/
structure Handling where
  request : Option (Call × RequestTracking)
  steps : List (State × Choice)

/-- The handling after one more step. -/
def Handling.add (h : Handling) (s : State) (choice : Choice) : Handling :=
  { h with steps := h.steps ++ [(s, choice)] }

def Handling.note (s : State) (l : RoomLabel) (t : State) (h : Handling) : Handling :=
  match l with
  | .server (.logic choice) =>
    if s.handler.isReady then ⟨t.handler.request, [(s, choice)]⟩ else h.add s choice
  | _ => h

def handlingServer (cfg : Config) (fb : FlatBuffers) : System (State × Handling) RoomLabel :=
  (roomServer cfg fb).recording ⟨none, []⟩ Handling.note

/-- A call of `PostSend` for a connection, with a packet that its client takes for the answer. -/
def Event.answers (conn : Conn) (tracking : RequestTracking) : Event → Bool
  | .posted c packet _ => c == conn && received packet == tracking
  | _ => false

/-- How many answers were posted during the handling. -/
def Handling.answers (fb : FlatBuffers) (h : Handling) (conn : Conn) (tracking : RequestTracking) :
    Nat :=
  (h.steps.flatMap fun step => step.1.posting fb (.logic step.2)).countP
    (Event.answers conn tracking)

/-- The connection still has its slot and its socket. -/
def State.reaches (s : State) (conn : Conn) : Bool :=
  s.current conn.client == conn && (s.pool conn.client).isConnected

/-- What the logic thread has to come upon so that the request it handles is answered once. -/
def State.replies (fb : FlatBuffers) (s : State) (choice : Choice) : Bool :=
  match s.handler with
  | .joinSession call _ _ =>
    (s.sessions.getSessionByClient s.pool call.cmd.client choice.order).any fun session =>
      session.tcpClient == call.cmd.client
  | .joinUser call _ _ _ =>
    (s.users.getUserByClient s.pool call.cmd.client choice.order).isNone
  | .joinReply call _ =>
    s.reaches call.cmd.conn && fitsSendBuffer fb (.joinedRoomResponse call.sequence)
  | .leaveFind call =>
    (s.users.getUserByClient s.pool call.cmd.client choice.order).any fun user =>
      user.session.tcpClient == call.cmd.client
  | .leaveReply call _ =>
    s.reaches call.cmd.conn && fitsSendBuffer fb (.leftRoomResponse call.sequence)
  | .chatFind call _ =>
    (s.users.getUserByClient s.pool call.cmd.client choice.order).isSome
  | .chatSend call message user =>
    (s.rooms.getRoom user.roomId).any fun room =>
      s.reaches call.cmd.conn &&
      fitsSendBuffer fb (.chatMessageBroadcast (user.id % 2 ^ 32) user.username message choice.now
        call.sequence) &&
      ((s.rooms.roomAt room).audience user.id).countP
        (fun other => other.session.tcpClient == call.cmd.client) == 1
  | _ => true

/-! ## Counting answers -/

section
variable {fb : FlatBuffers} {s t : State} {conn : Conn} {packet : ServerPacket}
  {tracking : RequestTracking}

/-- A packet of another kind or sequence is no answer. -/
theorem countP_postings_other (h : received packet ≠ tracking) (refused : List Nat) (k : Nat)
    (users : List User) :
    (s.postings fb packet refused k users).countP (Event.answers conn tracking) = 0 := by
  rw [List.countP_eq_zero]
  intro e he
  obtain ⟨i, user, -, -, rfl⟩ := mem_postings.mp he
  simp [Event.answers, h]

/-- The packet that the client waits for is an answer as often as it goes to its slot. -/
theorem countP_postings (fb : FlatBuffers) (s : State) (conn : Conn) (packet : ServerPacket)
    (refused : List Nat) (k : Nat) (users : List User) :
    (s.postings fb packet refused k users).countP (Event.answers conn (received packet)) =
      if s.reaches conn && fitsSendBuffer fb packet then
        users.countP fun user => user.session.tcpClient == conn.client
      else 0 := by
  induction users generalizing k with
  | nil => simp [State.postings]
  | cons user users ih =>
    have hhead : (s.postings fb packet refused k (user :: users)).countP
          (Event.answers conn (received packet)) =
        (s.postings fb packet refused (k + 1) users).countP
            (Event.answers conn (received packet)) +
          if s.posts fb packet user && s.current user.session.tcpClient == conn then 1 else 0 := by
      rw [State.postings]
      cases hposts : s.posts fb packet user with
      | true => simp [List.countP_cons, Event.answers]
      | false => simp
    rw [hhead, ih, List.countP_cons]
    by_cases hslot : user.session.tcpClient = conn.client
    · have hposted : (s.posts fb packet user && s.current user.session.tcpClient == conn) =
          (s.reaches conn && fitsSendBuffer fb packet) := by
        rw [State.posts, State.reaches, hslot]
        ac_rfl
      rw [hposted]
      cases s.reaches conn && fitsSendBuffer fb packet with
      | true => simp [hslot]
      | false => simp
    · have hother : (s.current user.session.tcpClient == conn) = false := by
        rw [beq_eq_false_iff_ne]
        rintro rfl
        exact hslot rfl
      simp [hother, hslot]

end

/-! ## The invariant -/

/-- Every step of the handling so far has met its condition. -/
def Handling.met (fb : FlatBuffers) (h : Handling) : Prop :=
  ∀ step ∈ h.steps, step.1.replies fb step.2 = true

/-- How far a handling has come: before its reply nothing has been posted, and its steps have met
their conditions if and only if the reply will go to the slot of the client that asked. -/
def Handling.Progress (fb : FlatBuffers) (h : Handling) (call : Call)
    (tracking : RequestTracking) : HandlerPc → Prop
  | .ready => h.answers fb call.cmd.conn tracking = 1 ↔ h.met fb
  | .joinUser _ _ _ session =>
    h.answers fb call.cmd.conn tracking = 0 ∧
      (h.met fb ↔ session.tcpClient = call.cmd.client)
  | .joinEnter _ _ user | .joinReply _ user | .leaveRoom _ user | .leaveReply _ user =>
    h.answers fb call.cmd.conn tracking = 0 ∧
      (h.met fb ↔ user.session.tcpClient = call.cmd.client)
  | .leaveRemove _ _ => h.answers fb call.cmd.conn tracking = 1 ↔ h.met fb
  -- a command without a handler is no request
  | .resetSocket _ => False
  | .fault => True
  | _ => h.answers fb call.cmd.conn tracking = 0 ∧ h.met fb

/-- The handling is that of the handler's request. -/
structure Handling.Serves (fb : FlatBuffers) (h : Handling) (pc : HandlerPc) : Prop where
  request : pc.request = none ∨ h.request = pc.request
  progress : ∀ call tracking, h.request = some (call, tracking) →
    h.Progress fb call tracking pc

section
variable {fb : FlatBuffers} {s t : State} {h : Handling} {choice : Choice} {call : Call}
  {tracking : RequestTracking}

theorem met_add : (h.add s choice).met fb ↔ h.met fb ∧ s.replies fb choice = true := by
  simp [Handling.met, Handling.add, or_imp, forall_and]

theorem answers_add (conn : Conn) :
    (h.add s choice).answers fb conn tracking = h.answers fb conn tracking +
      (s.posting fb (.logic choice)).countP (Event.answers conn tracking) := by
  simp [Handling.answers, Handling.add, List.countP_append]

/-- A step that posts no answer and meets its condition. -/
theorem add_quiet {conn : Conn} (hz : h.answers fb conn tracking = 0)
    (hq : (s.posting fb (.logic choice)).countP (Event.answers conn tracking) = 0)
    (hr : s.replies fb choice = true) :
    (h.add s choice).answers fb conn tracking = 0 ∧ ((h.add s choice).met fb ↔ h.met fb) := by
  rw [answers_add, hq, met_add, hr, hz]
  simp

/-- A step with which the handler gives up. -/
theorem add_refused {conn : Conn} (hz : h.answers fb conn tracking = 0)
    (hout : s.outgoing choice.now = none) (hr : s.replies fb choice = false) :
    (h.add s choice).answers fb conn tracking = 1 ↔ (h.add s choice).met fb := by
  rw [answers_add, met_add, hz, hr, State.posting, hout]
  simp

/-- The step with the reply. -/
theorem add_reply {conn : Conn} (packet : ServerPacket) {user : User}
    (hz : h.answers fb conn (received packet) = 0)
    (hm : h.met fb ↔ user.session.tcpClient = conn.client)
    (hout : s.outgoing choice.now = some (packet, [user]))
    (hr : s.replies fb choice = (s.reaches conn && fitsSendBuffer fb packet)) :
    (h.add s choice).answers fb conn (received packet) = 1 ↔ (h.add s choice).met fb := by
  rw [answers_add, met_add, hz, hr, State.posting, hout, hm]
  simp only [countP_postings, Nat.zero_add]
  cases s.reaches conn && fitsSendBuffer fb packet with
  | true => simp [List.countP_cons]
  | false => simp

/-- The step with the broadcast, which may go to more users of the client or to none. -/
theorem add_broadcast {conn : Conn} (packet : ServerPacket) {users : List User}
    (hz : h.answers fb conn (received packet) = 0) (hm : h.met fb)
    (hout : s.outgoing choice.now = some (packet, users))
    (hr : s.replies fb choice = (s.reaches conn && fitsSendBuffer fb packet &&
      users.countP (fun user => user.session.tcpClient == conn.client) == 1)) :
    (h.add s choice).answers fb conn (received packet) = 1 ↔ (h.add s choice).met fb := by
  rw [answers_add, met_add, hz, hr, State.posting, hout]
  simp only [countP_postings, Nat.zero_add, hm, true_and]
  cases s.reaches conn && fitsSendBuffer fb packet with
  | true => simp
  | false => simp

theorem Handling.Serves.next {pc pc' : HandlerPc} (hs : h.Serves fb pc)
    (hpc : pc.request = some (call, tracking))
    (hpc' : pc'.request = none ∨ pc'.request = some (call, tracking))
    (hstep : h.Progress fb call tracking pc →
      (h.add s choice).Progress fb call tracking pc') : (h.add s choice).Serves fb pc' := by
  have hreq : h.request = some (call, tracking) := by
    rcases hs.request with hnone | heq
    · simp [hpc] at hnone
    · rw [heq, hpc]
  refine ⟨hpc'.imp_right fun he => by rw [he]; exact hreq, fun call' tracking' he => ?_⟩
  have he' : h.request = some (call', tracking') := he
  rw [hreq] at he'
  cases he'
  exact hstep (hs.progress call tracking hreq)

theorem Handling.Serves.refused {pc : HandlerPc} (hs : h.Serves fb pc)
    (hpc : pc.request = some (call, tracking))
    (hz : h.Progress fb call tracking pc → h.answers fb call.cmd.conn tracking = 0)
    (hout : s.outgoing choice.now = none) (hr : s.replies fb choice = false) :
    (h.add s choice).Serves fb .ready :=
  hs.next hpc (Or.inl rfl) fun hp => add_refused (hz hp) hout hr

/-- `Room::Leave` tells others only. -/
theorem Handling.Serves.leaveRoom {user : User} {room : Nat}
    (hs : h.Serves fb (.leaveRoom call user)) (hh : s.handler = .leaveRoom call user)
    (hroom : s.rooms.getRoom user.roomId = some room) :
    (h.add s choice).Serves fb (.leaveReply call user) := by
  have hq : (s.posting fb (.logic choice)).countP
      (Event.answers call.cmd.conn (sendLeave call.sequence)) = 0 := by
    simp only [State.posting, State.outgoing, hh, hroom, Option.bind_some]
    cases (s.rooms.roomAt room).leave user.id with
    | none => rfl
    | some left => exact countP_postings_other (by simp [received, sendLeave]) _ _ _
  refine hs.next rfl (Or.inr rfl) ?_
  rintro ⟨hz, hm⟩
  obtain ⟨hz', hm'⟩ := add_quiet hz hq (by simp [State.replies, hh])
  exact ⟨hz', hm'.trans hm⟩

/-- `ChatMessageHandler` has its user: it broadcasts, or there is no room. -/
theorem Handling.Serves.chatSend {message : Text} {user : User}
    (hs : h.Serves fb (.chatSend call message user))
    (hh : s.handler = .chatSend call message user) : (h.add s choice).Serves fb .ready := by
  cases hroom : s.rooms.getRoom user.roomId with
  | none =>
    exact hs.refused rfl (fun hp => hp.1) (by simp [State.outgoing, hh, hroom])
      (by simp [State.replies, hh, hroom])
  | some room =>
    refine hs.next rfl (Or.inl rfl) ?_
    rintro ⟨hz, hm⟩
    have hout : s.outgoing choice.now =
        some (.chatMessageBroadcast (user.id % 2 ^ 32) user.username message choice.now
          call.sequence, (s.rooms.roomAt room).audience user.id) := by
      simp [State.outgoing, hh, hroom]
    exact add_broadcast _ hz hm hout (by simp [State.replies, hh, hroom, PacketCommand.conn])

/-- A step of a handler. -/
theorem Handling.Serves.logic (hs : h.Serves fb s.handler) (hready : s.handler ≠ .ready)
    (hstep : s.logicStep fb choice = some t) : (h.add s choice).Serves fb t.handler := by
  have hsilent : ∀ conn tracking, s.outgoing choice.now = none →
      (s.posting fb (.logic choice)).countP (Event.answers conn tracking) = 0 := by
    intro conn tracking hout
    simp [State.posting, hout]
  cases logicStep_inv hstep with
  | skip hh _ | startJoin _ _ hh _ | startLeave _ hh _ | startChat _ _ hh _ | reject hh _ _
  | rejectClosed hh _ _ => exact absurd hh hready
  | reset hh =>
    rw [hh] at hs
    exact ⟨Or.inl rfl, fun call tracking hreq => (hs.progress call tracking hreq).elim⟩
  | joinRoom hh =>
    rw [hh] at hs
    refine hs.next rfl (Or.inr rfl) ?_
    rintro ⟨hz, hm⟩
    obtain ⟨hz', hm'⟩ := add_quiet hz (hsilent _ _ (by simp [State.outgoing, hh]))
      (by simp [State.replies, hh])
    exact ⟨hz', hm'.mpr hm⟩
  | @joinNoSession call username room hh =>
    rw [hh] at hs
    cases hg : s.sessions.getSessionByClient s.pool call.cmd.client choice.order with
    | none =>
      exact hs.refused rfl (fun hp => hp.1) (by simp [State.outgoing, hh])
        (by simp [State.replies, hh, hg])
    | some session => simp [State.logicStep, hh, hg] at hstep
  | joinSession hh hg =>
    rw [hh] at hs
    refine hs.next rfl (Or.inr rfl) ?_
    rintro ⟨hz, hm⟩
    constructor
    · rw [answers_add, hz, hsilent _ _ (by simp [State.outgoing, hh])]
    · simp [met_add, hm, State.replies, hh, hg]
  | joinExists hh hg =>
    rw [hh] at hs
    exact hs.refused rfl (fun hp => hp.1) (by simp [State.outgoing, hh])
      (by simp [State.replies, hh, hg])
  | joinUser hh hg hu =>
    rw [hh] at hs
    subst hu
    refine hs.next rfl (Or.inr rfl) ?_
    rintro ⟨hz, hm⟩
    obtain ⟨hz', hm'⟩ := add_quiet hz (hsilent _ _ (by simp [State.outgoing, hh]))
      (by simp [State.replies, hh, hg])
    exact ⟨hz', hm'.trans hm⟩
  | @joinEnter call room user pool sends evs hh _ =>
    rw [hh] at hs
    have hq : (s.posting fb (.logic choice)).countP
        (Event.answers call.cmd.conn (sendJoinRoom call.sequence)) = 0 := by
      simp only [State.posting, State.outgoing, hh]
      exact countP_postings_other (by simp [received, sendJoinRoom]) _ _ _
    refine hs.next rfl (Or.inr rfl) ?_
    rintro ⟨hz, hm⟩
    obtain ⟨hz', hm'⟩ := add_quiet hz hq (by simp [State.replies, hh])
    exact ⟨hz', hm'.trans hm⟩
  | joinReply hh _ =>
    rw [hh] at hs
    refine hs.next rfl (Or.inl rfl) ?_
    rintro ⟨hz, hm⟩
    exact add_reply (.joinedRoomResponse _) hz hm (by rw [State.outgoing, hh])
      (by simp only [State.replies, hh])
  | leaveNobody hh hg =>
    rw [hh] at hs
    exact hs.refused rfl (fun hp => hp.1) (by simp [State.outgoing, hh])
      (by simp [State.replies, hh, hg])
  | leaveFind hh hg =>
    rw [hh] at hs
    refine hs.next rfl (Or.inr rfl) ?_
    rintro ⟨hz, hm⟩
    constructor
    · rw [answers_add, hz, hsilent _ _ (by simp [State.outgoing, hh])]
    · simp [met_add, hm, State.replies, hh, hg]
  | leaveFault hh _ =>
    rw [hh] at hs
    exact hs.next rfl (Or.inl rfl) fun _ => trivial
  | leaveMissing hh hroom _ =>
    rw [hh] at hs
    exact hs.leaveRoom hh hroom
  | leaveRoom hh hroom _ _ =>
    rw [hh] at hs
    exact hs.leaveRoom hh hroom
  | leaveReply hh _ =>
    rw [hh] at hs
    refine hs.next rfl (Or.inr rfl) ?_
    rintro ⟨hz, hm⟩
    exact add_reply (.leftRoomResponse _) hz hm (by rw [State.outgoing, hh])
      (by simp only [State.replies, hh])
  | @leaveRemove call user hh =>
    rw [hh] at hs
    refine hs.next rfl (Or.inl rfl) fun hdone => ?_
    have hq := hsilent call.cmd.conn (sendLeave call.sequence) (by simp [State.outgoing, hh])
    have hr : s.replies fb choice = true := by simp [State.replies, hh]
    show _ = 1 ↔ _
    rw [answers_add, hq, met_add, hr, Nat.add_zero, eq_self, and_true]
    exact hdone
  | chatNobody hh hg =>
    rw [hh] at hs
    exact hs.refused rfl (fun hp => hp.1) (by simp [State.outgoing, hh])
      (by simp [State.replies, hh, hg])
  | chatFind hh hg =>
    rw [hh] at hs
    refine hs.next rfl (Or.inr rfl) ?_
    rintro ⟨hz, hm⟩
    obtain ⟨hz', hm'⟩ := add_quiet hz (hsilent _ _ (by simp [State.outgoing, hh]))
      (by simp [State.replies, hh, hg])
    exact ⟨hz', hm'.mpr hm⟩
  | chatNoRoom hh =>
    rw [hh] at hs
    exact hs.chatSend hh
  | chatSend hh _ =>
    rw [hh] at hs
    exact hs.chatSend hh

/-- The handling of a request begins when it is dispatched. -/
theorem Handling.Serves.begin (hready : s.handler = .ready)
    (hstep : s.logicStep fb choice = some t) :
    Handling.Serves fb ⟨t.handler.request, [(s, choice)]⟩ t.handler := by
  have hquiet : ∀ request conn tracking,
      Handling.answers fb ⟨request, [(s, choice)]⟩ conn tracking = 0 ∧
        Handling.met fb ⟨request, [(s, choice)]⟩ := by
    intro request conn tracking
    constructor
    · simp [Handling.answers, State.posting, State.outgoing, hready]
    · simp [Handling.met, State.replies, hready]
  refine ⟨Or.inr rfl, fun call tracking hreq => ?_⟩
  have hreq' : t.handler.request = some (call, tracking) := hreq
  obtain ⟨cmd, batch, -, rfl | ⟨pc, rfl | rfl, rfl⟩ | ⟨pc, sequence, rfl, hpc⟩⟩ :=
    (logicStep_inv hstep).dispatched hready
  · simp [hready, HandlerPc.request] at hreq'
  · simp [HandlerPc.request] at hreq'
  · simp [HandlerPc.request] at hreq'
  · rcases hpc with ⟨username, rfl⟩ | rfl | ⟨message, rfl⟩
    · exact hquiet _ _ _
    · exact hquiet _ _ _
    · exact hquiet _ _ _

end

variable {cfg : Config} {fb : FlatBuffers}

theorem serves_of_reach {p : State × Handling}
    (h : (handlingServer cfg fb).Reach System.always p) : p.2.Serves fb p.1.handler := by
  refine h.invariant (I := fun p => p.2.Serves fb p.1.handler) ⟨Or.inl rfl, nofun⟩ ?_
  intro p q l _ hi _ hs
  obtain ⟨hstep, hnote⟩ := System.recording_step hs
  by_cases hl : ∃ choice, l = .server (.logic choice)
  · obtain ⟨choice, rfl⟩ := hl
    have hlogic : p.1.logicStep fb choice = some q.1 := hstep
    by_cases hready : p.1.handler = .ready
    · have he : q.2 = ⟨q.1.handler.request, [(p.1, choice)]⟩ := by
        rw [hnote, Handling.note, if_pos (HandlerPc.isReady_iff.mpr hready)]
      rw [he]
      exact .begin hready hlogic
    · have he : q.2 = p.2.add p.1 choice := by
        rw [hnote, Handling.note, if_neg fun hr => hready (HandlerPc.isReady_iff.mp hr)]
      rw [he]
      exact hi.logic hready hlogic
  · have he : q.2 = p.2 := by
      rw [hnote]
      unfold Handling.note
      split
      · exact absurd ⟨_, rfl⟩ hl
      · rfl
    rw [he]
    cases roomStep_registry hstep with
    | logic hc _ => exact absurd ⟨_, hc⟩ hl
    | thin _ _ _ hhandler _ =>
      rw [hhandler]
      exact hi

/-- **Which requests are answered.** The handling of a request posts exactly one answer to the
client that sent it if and only if every step of it comes upon what a reply needs. -/
theorem answered_iff (cfg : Config) (fb : FlatBuffers) {p : State × Handling} {call : Call}
    {tracking : RequestTracking} (h : (handlingServer cfg fb).Reach System.always p)
    (hready : p.1.handler = .ready) (hreq : p.2.request = some (call, tracking)) :
    p.2.answers fb call.cmd.conn tracking = 1 ↔
      ∀ step ∈ p.2.steps, step.1.replies fb step.2 = true := by
  have hprogress := (serves_of_reach h).progress call tracking hreq
  rw [hready] at hprogress
  exact hprogress

/-- A join is answered. -/
theorem answered_iff_join : ∃ p call,
    (handlingServer smallServer conversation).Reach System.always p ∧
      p.2.request = some (call, sendJoinRoom 1) ∧ call.cmd.conn = ⟨0, 1⟩ ∧
      p.2.answers conversation call.cmd.conn (sendJoinRoom 1) = 1 := by
  obtain ⟨p, hr, hp⟩ := System.reach_of_exec (handlingServer smallServer conversation)
    System.always
    ((accepts 0 4 ++ receives 0 ⟨0, 1⟩ (frameBytes joinBytes) 1 ++ ticks 6).map .server)
    (fun p => p.1.handler.isReady &&
      p.2.steps.all (fun step => step.1.replies conversation step.2) &&
      p.2.request.map (fun r => (r.1.cmd.conn, r.2)) == some (⟨0, 1⟩, sendJoinRoom 1))
    (by decide +kernel)
  simp only [Bool.and_eq_true, HandlerPc.isReady_iff, beq_iff_eq] at hp
  obtain ⟨⟨hready, hmet⟩, hreq⟩ := hp
  obtain ⟨⟨call, tracking⟩, hrequest, hpair⟩ := Option.map_eq_some_iff.mp hreq
  obtain ⟨hconn, rfl⟩ := Prod.mk.injEq .. ▸ hpair
  exact ⟨p, call, hr, hrequest, hconn, (answered_iff smallServer conversation hr hready
    hrequest).mpr (List.all_eq_true.mp hmet)⟩

/-- A member of a room, connected, sends a message; its handler comes to the end, and nothing has
been posted to it. -/
theorem speaker_not_answered : ∃ p call,
    (handlingServer smallServer conversation).Reach System.always p ∧ p.1.handler = .ready ∧
      p.2.request = some (call, sendMessage 2) ∧
      (∃ step ∈ p.2.steps, step.1.handler = .ready ∧ step.1.reaches call.cmd.conn = true) ∧
      p.1.reaches call.cmd.conn = true ∧
      p.2.answers conversation call.cmd.conn (sendMessage 2) = 0 := by
  obtain ⟨p, hr, hp⟩ := System.reach_of_exec (handlingServer smallServer conversation)
    System.always
    ((accepts 0 4 ++ receives 0 ⟨0, 1⟩ (frameBytes joinBytes) 1 ++ ticks 6 ++
      receives 0 ⟨0, 1⟩ (frameBytes chatBytes) 1 ++ ticks 3).map .server)
    (fun p => p.1.handler.isReady &&
      p.2.steps.any (fun step => step.1.handler.isReady && step.1.reaches ⟨0, 1⟩) &&
      p.1.reaches ⟨0, 1⟩ && p.2.answers conversation ⟨0, 1⟩ (sendMessage 2) == 0 &&
      p.2.request.map (fun r => (r.1.cmd.conn, r.2)) == some (⟨0, 1⟩, sendMessage 2))
    (by decide +kernel)
  simp only [Bool.and_eq_true, HandlerPc.isReady_iff, beq_iff_eq, List.any_eq_true] at hp
  obtain ⟨⟨⟨⟨hready, hstart⟩, hreaches⟩, hnone⟩, hreq⟩ := hp
  obtain ⟨⟨call, tracking⟩, hrequest, hpair⟩ := Option.map_eq_some_iff.mp hreq
  obtain ⟨hconn, rfl⟩ := Prod.mk.injEq .. ▸ hpair
  simp only at hconn
  rw [← hconn] at hstart hreaches hnone
  exact ⟨p, call, hr, hready, hrequest, hstart, hreaches, hnone⟩

end Highp.Chat
