import Highp.Chat.Handlings
import Highp.Chat.Relay
import Highp.Chat.Unread

/-! Who is told of what happens in a room, and under whose name. -/

namespace Highp.Chat
open Highp.Lib Highp.Network Highp.Client

/-! ## What a handling sends -/

/-- A call of `PostSend`: for whom and with which packet. -/
def Event.sent : Event → Option (Conn × ServerPacket)
  | .posted conn packet _ => some (conn, packet)
  | _ => none

/-- The calls of `PostSend` of some steps, in their order. -/
def sentBy (fb : FlatBuffers) (steps : List (State × Choice)) : List (Conn × ServerPacket) :=
  (steps.flatMap fun step => step.1.posting fb (.logic step.2)).filterMap Event.sent

def Handling.sent (fb : FlatBuffers) (h : Handling) : List (Conn × ServerPacket) :=
  sentBy fb h.steps

def isResponse : ServerPacket → Bool
  | .joinedRoomResponse _ => true
  | .leftRoomResponse _ => true
  | _ => false

/-- What it sends besides its answer. -/
def Handling.broadcasts (fb : FlatBuffers) (h : Handling) : List (Conn × ServerPacket) :=
  (h.sent fb).filter fun e => !isResponse e.2

/-- One packet to each of the users whose client is connected, if its frame fits. -/
def State.once (fb : FlatBuffers) (s : State) (packet : ServerPacket) (users : List User) :
    List (Conn × ServerPacket) :=
  (users.filter (s.posts fb packet)).map fun user => (s.current user.session.tcpClient, packet)

/-- The users listed in the room with this id. -/
def State.members (s : State) (roomId : Nat) : List User :=
  match s.rooms.getRoom roomId with
  | some room => (s.rooms.roomAt room).users
  | none => []

section
variable {fb : FlatBuffers} {s : State}

theorem postings_sent (packet : ServerPacket) (refused : List Nat) (k : Nat) (users : List User) :
    (s.postings fb packet refused k users).filterMap Event.sent = s.once fb packet users := by
  induction users generalizing k with
  | nil => rfl
  | cons user users ih =>
    unfold State.postings State.once
    cases hposts : s.posts fb packet user with
    | true =>
      rw [if_pos rfl, List.filter_cons_of_pos hposts, List.map_cons]
      exact congrArg _ (ih (k + 1))
    | false =>
      rw [if_neg Bool.false_ne_true, List.filter_cons_of_neg (by simp [hposts])]
      exact ih (k + 1)

theorem sentBy_cons {choice : Choice} {packet : ServerPacket} {users : List User}
    (steps : List (State × Choice)) (h : s.outgoing choice.now = some (packet, users)) :
    sentBy fb ((s, choice) :: steps) = s.once fb packet users ++ sentBy fb steps := by
  unfold sentBy
  rw [List.flatMap_cons, List.filterMap_append]
  simp only [State.posting, h, postings_sent]

theorem sentBy_quiet {choice : Choice} (steps : List (State × Choice))
    (h : s.outgoing choice.now = none) : sentBy fb ((s, choice) :: steps) = sentBy fb steps := by
  unfold sentBy
  rw [List.flatMap_cons, List.filterMap_append]
  simp only [State.posting, h, List.filterMap_nil, List.nil_append]

theorem once_filter {packet : ServerPacket} (users : List User) :
    (s.once fb packet users).filter (fun e => !isResponse e.2) =
      if isResponse packet then [] else s.once fb packet users := by
  unfold State.once
  rw [List.filter_map]
  cases hr : isResponse packet with
  | true =>
    rw [if_pos rfl, List.map_eq_nil_iff]
    exact List.filter_eq_nil_iff.mpr fun user _ => by simp [hr]
  | false =>
    rw [if_neg Bool.false_ne_true]
    refine congrArg _ (List.filter_eq_self.mpr fun user _ => ?_)
    simp [hr]

theorem filter_eraseP {α : Type} (p : α → Bool) (l : List α) :
    (l.eraseP p).filter (fun a => !p a) = l.filter fun a => !p a := by
  induction l with
  | nil => rfl
  | cons a l ih =>
    cases ha : p a with
    | true => rw [List.eraseP_cons_of_pos ha, List.filter_cons_of_neg (by simp [ha])]
    | false =>
      rw [List.eraseP_cons_of_neg (by simp [ha]), List.filter_cons_of_pos (by simp [ha]),
        List.filter_cons_of_pos (by simp [ha]), ih]

/-- `Room::Leave` finds a user with the id and tells those whose id is another. -/
theorem leave_others {room : Room} {userId : Nat} {found : User} {others : List User} {left : Room}
    (h : room.leave userId = some (found, others, left)) :
    found ∈ room.users ∧ found.id = userId ∧
      others = room.users.filter fun u => u.id != userId := by
  unfold Room.leave at h
  split at h
  · cases h
  · rename_i user hfound
    cases h
    have hid := List.find?_some hfound
    exact ⟨List.mem_of_find?_eq_some hfound, beq_iff_eq.mp hid,
      filter_eraseP (fun u : User => u.id == userId) room.users⟩

theorem leave_isSome {room : Room} {u : User} (hu : u ∈ room.users) : room.leave u.id ≠ none := by
  intro hnone
  unfold Room.leave at hnone
  split at hnone
  · rename_i hfound
    have hno := List.find?_eq_none.mp hfound u hu
    simp at hno
  · cases hnone

end

/-! ## What each handler sends -/

section
variable {fb : FlatBuffers} {d s m a b : State} {choiceD choice choiceM choiceA choiceB : Choice}
  {call : Call} {u : User}

/-- An answer is no broadcast. -/
theorem sentBy_response {s : State} {choice : Choice} {packet : ServerPacket} {users : List User}
    (hout : s.outgoing choice.now = some (packet, users)) (hr : isResponse packet = true)
    (steps : List (State × Choice)) :
    (sentBy fb ((s, choice) :: steps)).filter (fun e => !isResponse e.2) =
      (sentBy fb steps).filter fun e => !isResponse e.2 := by
  rw [sentBy_cons steps hout, List.filter_append, once_filter, if_pos hr, List.nil_append]

theorem sentBy_broadcast {s : State} {choice : Choice} {packet : ServerPacket}
    {users : List User} (hout : s.outgoing choice.now = some (packet, users))
    (hr : isResponse packet = false) (steps : List (State × Choice)) :
    (sentBy fb ((s, choice) :: steps)).filter (fun e => !isResponse e.2) =
      s.once fb packet users ++ (sentBy fb steps).filter fun e => !isResponse e.2 := by
  rw [sentBy_cons steps hout, List.filter_append, once_filter, hr, if_neg Bool.false_ne_true]

theorem sent_chat {message : Text} (hd : d.handler = .ready)
    (hs : s.handler = .chatFind call message) (hm : m.handler = .chatSend call message u) :
    sentBy fb [(d, choiceD), (s, choice), (m, choiceM)] =
      m.once fb (.chatMessageBroadcast (u.id % 2 ^ 32) u.username message choiceM.now
        call.sequence) ((m.members u.roomId).filter fun v => v.id != u.id) := by
  rw [sentBy_quiet _ (by simp [State.outgoing, hd]), sentBy_quiet _ (by simp [State.outgoing, hs])]
  cases hroom : m.rooms.getRoom u.roomId with
  | none =>
    rw [sentBy_quiet _ (by simp [State.outgoing, hm, hroom])]
    simp [State.members, hroom, State.once, sentBy]
  | some room =>
    rw [sentBy_cons _ (by simp only [State.outgoing, hm, hroom]; rfl)]
    simp [State.members, hroom, Room.audience, sentBy]

theorem sent_leave {room : Nat} {found : User} {others : List User} {left : Room}
    (hd : d.handler = .ready) (hs : s.handler = .leaveFind call)
    (hm : m.handler = .leaveRoom call u) (ha : a.handler = .leaveReply call u)
    (hb : b.handler = .leaveRemove call u) (hroom : m.rooms.getRoom u.roomId = some room)
    (hleave : (m.rooms.roomAt room).leave u.id = some (found, others, left)) :
    (sentBy fb [(d, choiceD), (s, choice), (m, choiceM), (a, choiceA), (b, choiceB)]).filter
        (fun e => !isResponse e.2) = m.once fb (.userLeftBroadcast u.id found.username) others := by
  have hout : m.outgoing choiceM.now = some (.userLeftBroadcast u.id found.username, others) := by
    simp [State.outgoing, hm, hroom, hleave]
  rw [sentBy_quiet _ (by simp [State.outgoing, hd]), sentBy_quiet _ (by simp [State.outgoing, hs]),
    sentBy_broadcast hout rfl, sentBy_response (by rw [State.outgoing, ha]) rfl,
    sentBy_quiet _ (by simp [State.outgoing, hb])]
  exact List.append_nil _

end

/-! ## Who is told -/

/-- The user that `ChatMessageHandler` has found is the sender: all others in its room are told
once, and nobody else is sent anything. -/
def ChatTells (fb : FlatBuffers) (h : Handling) (created : Nat) : Prop :=
  ∀ s choice call message u, (s, choice) ∈ h.steps → s.handler = .chatFind call message →
    s.users.getUserByClient s.pool call.cmd.client choice.order = some u →
    ∃ m choice' request packet, (m, choice') ∈ h.steps ∧ m.handler = .chatSend call message u ∧
      fb.getPacket call.cmd.data = some ⟨.sendMessageRequest (some request), call.sequence⟩ ∧
      packet = .chatMessageBroadcast (u.id % 2 ^ 32) u.username request.message choice'.now
        call.sequence ∧
      h.sent fb = m.once fb packet ((m.members u.roomId).filter fun v => v.id != u.id) ∧
      (created ≤ 2 ^ 64 → (m.members u.roomId).Nodup ∧
        h.sent fb = m.once fb packet ((m.members u.roomId).filter fun v => v ≠ u))

/-- The members of the room that `JoinRoomHandler` has chosen are told once of the user that it
makes. -/
def JoinTells (fb : FlatBuffers) (h : Handling) (created : Nat) : Prop :=
  ∀ s choice call username room session, (s, choice) ∈ h.steps →
    s.handler = .joinUser call username room session →
    s.users.getUserByClient s.pool call.cmd.client choice.order = none →
    ∃ a choiceA m choice' u, (a, choiceA) ∈ h.steps ∧ (m, choice') ∈ h.steps ∧
      a.handler = .joinRoom call username ∧ room = a.rooms.getOrCreateAvailableRoom.2 ∧
      m.handler = .joinEnter call room u ∧
      u = s.users.makeUser session username (s.rooms.roomAt room).id call.cmd.conn ∧
      h.broadcasts fb =
        m.once fb (.userJoinedBroadcast ((m.rooms.roomAt room).id % 2 ^ 32) u.id u.username)
          (m.rooms.roomAt room).users ∧
      (created ≤ 2 ^ 64 → (m.rooms.roomAt room).users.Nodup ∧ u ∉ (m.rooms.roomAt room).users)

/-- If the user that `LeaveRoomHandler` has found is still listed in its room, all others are told
once that it has left. -/
def LeaveTells (fb : FlatBuffers) (h : Handling) (created : Nat) : Prop :=
  ∀ s choice call u, (s, choice) ∈ h.steps → s.handler = .leaveFind call →
    s.users.getUserByClient s.pool call.cmd.client choice.order = some u →
    ∃ m choice', (m, choice') ∈ h.steps ∧ m.handler = .leaveRoom call u ∧
      (u ∈ m.members u.roomId → ∃ found ∈ m.members u.roomId, found.id = u.id ∧
        h.broadcasts fb = m.once fb (.userLeftBroadcast u.id found.username)
          ((m.members u.roomId).filter fun v => v.id != u.id) ∧
        (created ≤ 2 ^ 64 → (m.members u.roomId).Nodup ∧
          h.broadcasts fb = m.once fb (.userLeftBroadcast u.id u.username)
            ((m.members u.roomId).filter fun v => v ≠ u)))

section
variable {fb : FlatBuffers} {m : State} {created : Nat} {roster : Roster} {u : User}

theorem members_nodup (h : Distinct m roster) (roomId : Nat) : (m.members roomId).Nodup := by
  unfold State.members
  split
  · exact (h.apart.once _).of_map
  · exact List.nodup_nil

/-- While the ids are apart, who has another id is another user. -/
theorem members_others (h : Known m created) (hu : m.Knows u) (roomId : Nat) :
    ((m.members roomId).filter fun v => v.id != u.id) =
      (m.members roomId).filter fun v => v ≠ u := by
  refine List.filter_congr fun v hv => ?_
  have hknows : m.Knows v := by
    unfold State.members at hv
    split at hv
    · exact .inr (.inl ⟨_, hv⟩)
    · exact absurd hv List.not_mem_nil
  by_cases hvu : v = u
  · simp [hvu]
  · have hid : v.id ≠ u.id := fun heq => hvu (h.apart v u hknows hu heq)
    simp [hvu, hid]

end

section
variable {fb : FlatBuffers} {p : State × Handling × Roster}

theorem chat_tells (h : Tracked fb p) (hf : p.2.1.Follows fb .ready) :
    ChatTells fb p.2.1 p.2.2.created := by
  intro s choice call message u hstep hh hu
  obtain ⟨d, choiceD, pc, rest, hsteps, hd, hasked, hreq, htrail, hrest, hstart⟩ :=
    hf.from_step hstep (by simp [hh, HandlerPc.request])
  rw [hh] at hreq
  -- the handler of this request began with the lookup
  obtain ⟨call', message', rfl⟩ : ∃ call' message', pc = .chatFind call' message' := by
    rcases hstart with ⟨call', username, rfl⟩ | ⟨call', rfl⟩ | hchat
    · simp [HandlerPc.request, sendJoinRoom, sendMessage] at hreq
    · simp [HandlerPc.request, sendLeave, sendMessage] at hreq
    · exact hchat
  obtain ⟨s', choice', rest', rfl, hh', hnobody, hfound⟩ := htrail.chat
  obtain ⟨rfl, rfl⟩ : s = s' ∧ choice = choice' := by
    refine Prod.mk.inj (htrail.same_place hrest (List.mem_cons_self ..) ?_)
    rw [hh, hh']
    rfl
  rw [hh] at hh'
  cases hh'
  obtain ⟨m, choiceM, rfl, hm⟩ := hfound u hu
  obtain ⟨request, hget, rfl⟩ := hasked
  have hmem : (m, choiceM) ∈ p.2.1.steps := by
    rw [hsteps]
    simp
  have hsent : p.2.1.sent fb = m.once fb (.chatMessageBroadcast (u.id % 2 ^ 32) u.username
      request.message choiceM.now call.sequence)
      ((m.members u.roomId).filter fun v => v.id != u.id) := by
    unfold Handling.sent
    rw [hsteps]
    exact sent_chat hd hh hm
  refine ⟨m, choiceM, request, _, hmem, hm, hget, rfl, hsent, fun hle => ?_⟩
  obtain ⟨hknown, roster, hdistinct⟩ := h.passed _ hmem hle
  have hothers := members_others hknown (.inr (.inr (by rw [hm]; rfl))) u.roomId
  exact ⟨members_nodup hdistinct u.roomId, by rw [hsent, hothers]⟩

theorem join_tells (h : Tracked fb p) (hf : p.2.1.Follows fb .ready) :
    JoinTells fb p.2.1 p.2.2.created := by
  intro s choice call username room session hstep hh hnone
  obtain ⟨d, choiceD, pc, rest, hsteps, hd, -, hreq, htrail, hrest, hstart⟩ :=
    hf.from_step hstep (by simp [hh, HandlerPc.request])
  rw [hh] at hreq
  obtain ⟨call', username', rfl⟩ : ∃ call' username', pc = .joinRoom call' username' := by
    rcases hstart with hjoin | ⟨call', rfl⟩ | ⟨call', message, rfl⟩
    · exact hjoin
    · simp [HandlerPc.request, sendLeave, sendJoinRoom] at hreq
    · simp [HandlerPc.request, sendMessage, sendJoinRoom] at hreq
  obtain ⟨a, choiceA, b, choiceB, room', rest', rfl, ha, hb, hroom, hend⟩ := htrail.join
  rcases hend with rfl | ⟨s', choice', session', rest'', rfl, hh', hsome, hmade⟩
  · -- no session, and the handler did not come this far
    rcases List.mem_cons.mp hrest with heq | hmem
    · obtain ⟨rfl, -⟩ := Prod.mk.inj heq
      simp [ha] at hh
    · obtain ⟨rfl, -⟩ := Prod.mk.inj (List.mem_singleton.mp hmem)
      simp [hb] at hh
  obtain ⟨rfl, rfl⟩ : s = s' ∧ choice = choice' := by
    refine Prod.mk.inj (htrail.same_place hrest (by simp) ?_)
    rw [hh, hh']
    rfl
  rw [hh] at hh'
  cases hh'
  obtain ⟨m, choiceM, c, choiceC, rfl, hm, hc⟩ := hmade hnone
  have hmem : (m, choiceM) ∈ p.2.1.steps := by
    rw [hsteps]
    simp
  refine ⟨a, choiceA, m, choiceM, _, by rw [hsteps]; simp, hmem, ha, hroom, hm, rfl, ?_,
    fun hle => ?_⟩
  · unfold Handling.broadcasts Handling.sent
    rw [hsteps, sentBy_quiet _ (by simp [State.outgoing, hd]),
      sentBy_quiet _ (by simp [State.outgoing, ha]),
      sentBy_quiet _ (by simp [State.outgoing, hb]),
      sentBy_quiet _ (by simp [State.outgoing, hh]),
      sentBy_broadcast (by rw [State.outgoing, hm]) rfl,
      sentBy_response (by rw [State.outgoing, hc]) rfl]
    exact List.append_nil _
  · obtain ⟨-, roster, hdistinct⟩ := h.passed _ hmem hle
    refine ⟨(hdistinct.apart.once room).of_map, fun hu => ?_⟩
    have hlt := (hdistinct.fresh call room _ hm).2 room _ hu
    exact Nat.lt_irrefl _ hlt

theorem leave_tells (h : Tracked fb p) (hf : p.2.1.Follows fb .ready) :
    LeaveTells fb p.2.1 p.2.2.created := by
  intro s choice call u hstep hh hu
  obtain ⟨d, choiceD, pc, rest, hsteps, hd, -, hreq, htrail, hrest, hstart⟩ :=
    hf.from_step hstep (by simp [hh, HandlerPc.request])
  rw [hh] at hreq
  obtain ⟨call', rfl⟩ : ∃ call', pc = .leaveFind call' := by
    rcases hstart with ⟨call', username, rfl⟩ | hleave | ⟨call', message, rfl⟩
    · simp [HandlerPc.request, sendJoinRoom, sendLeave] at hreq
    · exact hleave
    · simp [HandlerPc.request, sendMessage, sendLeave] at hreq
  obtain ⟨s', choice', rest', rfl, hh', hnobody, hfound⟩ := htrail.leave
  obtain ⟨rfl, rfl⟩ : s = s' ∧ choice = choice' := by
    refine Prod.mk.inj (htrail.same_place hrest (List.mem_cons_self ..) ?_)
    rw [hh, hh']
    rfl
  rw [hh] at hh'
  cases hh'
  obtain ⟨m, choiceM, a, choiceA, b, choiceB, rfl, hm, ha, hb⟩ := hfound u hu
  have hmem : (m, choiceM) ∈ p.2.1.steps := by
    rw [hsteps]
    simp
  refine ⟨m, choiceM, hmem, hm, fun hlisted => ?_⟩
  -- the room that `GetRoom` finds lists the user
  obtain ⟨room, hroom, hmembers⟩ : ∃ room, m.rooms.getRoom u.roomId = some room ∧
      m.members u.roomId = (m.rooms.roomAt room).users := by
    unfold State.members at hlisted ⊢
    cases hroom : m.rooms.getRoom u.roomId with
    | none =>
      rw [hroom] at hlisted
      exact absurd hlisted List.not_mem_nil
    | some room => exact ⟨room, rfl, rfl⟩
  rw [hmembers] at hlisted ⊢
  obtain ⟨⟨found, others, left⟩, hleave⟩ :=
    Option.ne_none_iff_exists'.mp (leave_isSome hlisted)
  obtain ⟨hfoundmem, hid, hothers⟩ := leave_others hleave
  have hbroadcasts : p.2.1.broadcasts fb = m.once fb (.userLeftBroadcast u.id found.username)
      ((m.rooms.roomAt room).users.filter fun v => v.id != u.id) := by
    unfold Handling.broadcasts Handling.sent
    rw [hsteps, sent_leave hd hh hm ha hb hroom hleave, hothers]
  refine ⟨found, hfoundmem, hid, hbroadcasts, fun hle => ?_⟩
  obtain ⟨hknown, roster, hdistinct⟩ := h.passed _ hmem hle
  have hsame : found = u := hknown.apart found u (.inr (.inl ⟨room, hfoundmem⟩))
    (.inr (.inl ⟨room, hlisted⟩)) hid
  have hfilter := members_others hknown (.inr (.inl ⟨room, hlisted⟩)) u.roomId
  rw [hmembers] at hfilter
  exact ⟨(hdistinct.apart.once room).of_map, by rw [hbroadcasts, hsame, hfilter]⟩

end

/-- **Room events go to the right people, under the server's names.** In every run, with whatever
the other threads do meanwhile, a finished handling has told the right people; and the server does
the same for two requests that differ in `room_id` and `username` only. -/
theorem room_events (cfg : Config) (fb : FlatBuffers) :
    (∀ p, (eventServer cfg fb).Reach System.always p → p.1.handler = .ready →
      ChatTells fb p.2.1 p.2.2.created ∧ JoinTells fb p.2.1 p.2.2.created ∧
        LeaveTells fb p.2.1 p.2.2.created) ∧
    ∀ (s : State) (cmd : PacketCommand) (batch : List PacketCommand) (data : List UInt8)
      (packet packet' : Packet) (choice : Choice) (ls : List RoomLabel), s.handler = .ready →
      fb.getPacket cmd.data = some packet → fb.getPacket data = some packet' →
      RequestsAlike packet packet' →
      ((roomServer cfg fb).exec System.always { s with batch := cmd :: batch }
          (.server (.logic choice) :: ls)).map State.forget =
        ((roomServer cfg fb).exec System.always
          { s with batch := { cmd with data := data } :: batch }
          (.server (.logic choice) :: ls)).map State.forget := by
  constructor
  · intro p hp hready
    have htracked := tracked_of_reach hp
    rcases htracked.follows with ⟨hnone, -⟩ | hfollows
    · -- nothing has been handled yet
      have hsteps : ∀ step, step ∉ p.2.1.steps := by
        rw [hnone]
        exact fun step => List.not_mem_nil
      refine ⟨?_, ?_, ?_⟩
      · exact fun s choice call message u hstep => absurd hstep (hsteps _)
      · exact fun s choice call username room session hstep => absurd hstep (hsteps _)
      · exact fun s choice call u hstep => absurd hstep (hsteps _)
    · rw [hready] at hfollows
      exact ⟨chat_tells htracked hfollows, join_tells htracked hfollows,
        leave_tells htracked hfollows⟩
  · intro s cmd batch data packet packet' choice ls hready hget hget' halike
    exact exec_alike hready hget hget' halike choice ls

/-! ## A message and its audience -/

/-- The first client is told of the second one's message, once. -/
theorem room_events_hi : ∃ p s call,
    (eventServer smallServer conversation).Reach System.always p ∧ p.1.handler = .ready ∧
      (s, Choice.plain) ∈ p.2.1.steps ∧ s.handler = .chatFind call hi ∧
      s.users.getUserByClient s.pool call.cmd.client 0 = some secondMember ∧
      p.2.1.sent conversation = [(⟨0, 1⟩, .chatMessageBroadcast 1 ann hi ⟨0, 0⟩ 2)] ∧
      ChatTells conversation p.2.1 p.2.2.created := by
  obtain ⟨p, hr, hp⟩ := System.reach_of_exec (eventServer smallServer conversation) System.always
    ((accepts 0 4 ++ accepts 1 5 ++ receives 0 ⟨0, 1⟩ (frameBytes joinBytes) 1 ++
      receives 1 ⟨1, 1⟩ (frameBytes joinBytes) 1 ++ ticks 12 ++
      receives 1 ⟨1, 1⟩ (frameBytes chatBytes) 1 ++ ticks 3).map .server)
    (fun p => p.1.handler.isReady &&
      p.2.1.steps.any (fun step =>
        match step.1.handler with
        | .chatFind call message => message == hi && step.2.order == 0 &&
          step.2.now == ⟨0, 0⟩ && step.2.refused.isEmpty &&
          step.1.users.getUserByClient step.1.pool call.cmd.client 0 == some secondMember
        | _ => false) &&
      p.2.1.sent conversation == [(⟨0, 1⟩, .chatMessageBroadcast 1 ann hi ⟨0, 0⟩ 2)])
    (by decide +kernel)
  simp only [Bool.and_eq_true, HandlerPc.isReady_iff, List.any_eq_true, beq_iff_eq] at hp
  obtain ⟨⟨hready, ⟨s, choice⟩, hstep, hlook⟩, hsent⟩ := hp
  have htells := ((room_events smallServer conversation).1 p hr hready).1
  cases hh : s.handler with
  | chatFind call message =>
    simp only [hh, Bool.and_eq_true, beq_iff_eq, List.isEmpty_iff] at hlook
    obtain ⟨⟨⟨⟨rfl, horder⟩, hnow⟩, hrefused⟩, hfound⟩ := hlook
    have hplain : choice = .plain := by
      obtain ⟨order, now, refused⟩ := choice
      simp only at horder hnow hrefused
      subst horder hnow hrefused
      rfl
    subst hplain
    exact ⟨p, s, call, hr, hready, hstep, hh, hfound, hsent, htells⟩
  | _ => simp [hh] at hlook

/-! ## Two users with one id -/

section
variable {cfg : Config} {fb : FlatBuffers} {p : State × Handling × Roster} {t : State}

theorem reach_begin (h : (eventServer cfg fb).Reach System.always p) (hready : p.1.handler = .ready)
    (hs : p.1.logicStep fb .plain = some t) : ∃ roster, (eventServer cfg fb).Reach System.always
      (t, ⟨t.handler.request, [(p.1, .plain)]⟩, roster) := by
  have hnote : Handling.note p.1 (.server (.logic .plain)) t p.2.1 =
      ⟨t.handler.request, [(p.1, .plain)]⟩ := if_pos (HandlerPc.isReady_iff.mpr hready)
  rw [← hnote]
  exact ⟨_, .next (l := .server (.logic .plain)) h trivial
    (Option.map_eq_some_iff.mpr ⟨t, hs, rfl⟩)⟩

theorem reach_go (h : (eventServer cfg fb).Reach System.always p) (hready : p.1.handler ≠ .ready)
    (hs : p.1.logicStep fb .plain = some t) : ∃ roster, (eventServer cfg fb).Reach System.always
      (t, p.2.1.add p.1 .plain, roster) := by
  have hnote : Handling.note p.1 (.server (.logic .plain)) t p.2.1 = p.2.1.add p.1 .plain :=
    if_neg fun hr => hready (HandlerPc.isReady_iff.mp hr)
  rw [← hnote]
  exact ⟨_, .next (l := .server (.logic .plain)) h trivial
    (Option.map_eq_some_iff.mpr ⟨t, hs, rfl⟩)⟩

end

theorem parse_conversation :
    parsePacket conversation joinBytes = some ⟨.joinRoomRequest (some ⟨ann⟩), 1⟩ ∧
      parsePacket conversation leaveBytes = some ⟨.leaveRoomRequest (some ⟨0⟩), 2⟩ ∧
      parsePacket conversation chatBytes =
        some ⟨.sendMessageRequest (some ⟨0, ann, hi⟩), 2⟩ := by
  have hne : leaveBytes ≠ joinBytes := by decide
  refine ⟨by simp [parsePacket, conversation], by simp [parsePacket, conversation, hne], ?_⟩
  rw [parsePacket, if_pos (by decide +kernel), getPacket_chatBytes]

/-- After `2 ^ 64` users the id of the next one is that of a member of its room. When it speaks,
the other one, who is listed and connected, is told nothing. -/
theorem member_not_told : ∃ p s m call,
    (eventServer smallServer conversation).Reach System.always p ∧ p.1.handler = .ready ∧
      (s, Choice.plain) ∈ p.2.1.steps ∧ s.handler = .chatFind call hi ∧
      s.users.getUserByClient s.pool call.cmd.client 0 = some (guest (2 ^ 64)) ∧
      (m, Choice.plain) ∈ p.2.1.steps ∧ m.handler = .chatSend call hi (guest (2 ^ 64)) ∧
      m.members (guest (2 ^ 64)).roomId = [resident, guest (2 ^ 64)] ∧
      resident ≠ guest (2 ^ 64) ∧
      m.posts conversation (.chatMessageBroadcast 0 ann hi ⟨0, 0⟩ 2) resident = true ∧
      p.2.1.sent conversation = [] := by
  obtain ⟨hjoin, hleave, hchat⟩ := parse_conversation
  obtain ⟨s, hs⟩ := rotating_all (n := 2 ^ 64) hjoin hleave (by decide +kernel) (by decide)
    (Nat.le_refl _)
  obtain ⟨t, ht⟩ := hs.join hjoin
  obtain ⟨s0, h0, hsame⟩ := ht.settled.request (by decide) hchat
  have husers : s0.users = UserManager.addUser ⟨[resident], 2 ^ 64 % 2 ^ 64⟩ (guest (2 ^ 64)) :=
    hsame.users.trans ht.users
  have hrooms : s0.rooms = roomOf [resident, guest (2 ^ 64)] := hsame.rooms.trans ht.rooms
  have hresident : (s0.pool 0).socket = some 4 := (hsame.socket 0).trans ht.residentSocket
  have hguest : (s0.pool 1).socket = some 5 := (hsame.socket 1).trans ht.guestSocket
  have hfind : s0.users.getUserByClient s0.pool 1 0 = some (guest (2 ^ 64)) := by
    rw [husers]
    simp [UserManager.getUserByClient, UserManager.addUser, resident, guest, User.isSameClient,
      Session.isSameSession, hguest, firstMatch]
  have hroom : s0.rooms.getRoom (guest (2 ^ 64)).roomId = some 0 := by
    rw [hrooms]
    rfl
  have haudience : (s0.rooms.roomAt 0).audience (guest (2 ^ 64)).id = [] := by
    rw [hrooms]
    rfl
  obtain ⟨h, hr0⟩ := (reach_roomServer h0.reach).record (⟨none, []⟩, ⟨0, []⟩) fun s l t h =>
    (Handling.note s l t h.1, Roster.note s l t h.2)
  let cmd : PacketCommand := ⟨1, .sendMessageRequest, chatBytes, 1⟩
  let call : Call := ⟨cmd, 2⟩
  -- the three steps of the handler
  let s1 : State := { s0 with batch := [], handler := .chatFind call hi }
  have hs1 : s0.logicStep conversation .plain = some s1 := by
    have hb : s0.batch = [cmd] := h0.batch
    simp [State.logicStep, h0.handler, hb, State.dispatch, getPacket_chatBytes, cmd, s1, call]
  let s2 : State := { s1 with
    handler := .chatSend call hi (guest (2 ^ 64))
    log := s1.log ++ [.touched cmd.conn (guest (2 ^ 64))] }
  have hs2 : s1.logicStep conversation .plain = some s2 := by
    simp only [State.logicStep, s1, s2, Choice.plain, call, cmd, hfind]
  obtain ⟨s3, hs3, hh3⟩ : ∃ s3, s2.logicStep conversation .plain = some s3 ∧
      s3.handler = .ready := by
    simp only [State.logicStep, s1, s2, hroom]
    exact ⟨_, rfl, rfl⟩
  obtain ⟨r1, hr1⟩ := reach_begin hr0 h0.handler hs1
  obtain ⟨r2, hr2⟩ := reach_go hr1 (by simp [s1]) hs2
  obtain ⟨r3, hr3⟩ := reach_go hr2 (by simp [s2]) hs3
  have hmembers : s2.members (guest (2 ^ 64)).roomId = [resident, guest (2 ^ 64)] := by
    unfold State.members
    show (match s0.rooms.getRoom (guest (2 ^ 64)).roomId with
      | some room => (s0.rooms.roomAt room).users
      | none => []) = _
    rw [hroom, hrooms]
    rfl
  refine ⟨_, s1, s2, call, hr3, hh3, by simp [Handling.add], rfl, hfind, by simp [Handling.add],
    rfl, hmembers, by decide, ?_, ?_⟩
  · have hconnected : (s2.pool 0).isConnected = true := by
      show (s0.pool 0).socket.isSome = true
      rw [hresident]
      rfl
    simp only [State.posts, resident, hconnected, Bool.true_and]
    decide +kernel
  · have hout : s2.outgoing Choice.plain.now =
        some (.chatMessageBroadcast ((guest (2 ^ 64)).id % 2 ^ 32) (guest (2 ^ 64)).username hi
          Choice.plain.now 2, []) := by
      simp only [State.outgoing, s1, s2, hroom, haudience, Option.map_some, call]
    simp only [Handling.sent, Handling.add, List.cons_append, List.nil_append]
    rw [sentBy_quiet _ (by simp [State.outgoing, h0.handler]),
      sentBy_quiet _ (by simp [State.outgoing, s1]), sentBy_cons _ hout]
    rfl

end Highp.Chat
