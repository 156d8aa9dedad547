import Highp.Chat.Alone
import Highp.Chat.Posts

/-! Which packets the server can relay. A request may be as large as a frame, and what the server
sends has to fit the send buffer. -/

namespace Highp.Chat
open Highp.Lib Highp.Network

section
variable {fb : FlatBuffers} {s t : State} {packet : ServerPacket} {users : List User}

/-- A packet that is too large for one member is too large for all. -/
theorem posted_iff {choice : Choice} (hout : s.outgoing choice.now = some (packet, users))
    {user : User} (hu : user ∈ users)
    (hc : (s.pool user.session.tcpClient).isConnected = true) :
    (∃ accepted, .posted (s.current user.session.tcpClient) packet accepted ∈
      s.posting fb (.logic choice)) ↔ 4 + (fb.build packet).length ≤ sendBufferSize := by
  simp only [State.posting, hout]
  constructor
  · rintro ⟨accepted, hm⟩
    obtain ⟨i, u, -, hposts, -⟩ := mem_postings.mp hm
    simp only [State.posts, Bool.and_eq_true, fitsSendBuffer, decide_eq_true_eq] at hposts
    exact hposts.2
  · intro hfits
    obtain ⟨i, hi⟩ := List.getElem?_of_mem hu
    have hposts : s.posts fb packet user = true := by
      simp [State.posts, hc, fitsSendBuffer, hfits]
    exact ⟨_, mem_postings.mpr ⟨i, user, hi, hposts, rfl⟩⟩

end

/-- **What the server relays.** When a handler sends a packet to members of a room, every one that
is connected gets it posted if and only if its frame fits the send buffer of 1024 bytes; nobody
does when the strings in it are longer than 1020 bytes. -/
theorem relayed_iff (cfg : Config) (fb : FlatBuffers)
    (hbuild : ∀ packet, packet.strings.length ≤ (fb.build packet).length)
    {s t : State} {choice : Choice} {packet : ServerPacket} {users : List User}
    (hs : s.step cfg fb (.logic choice) = some t)
    (hout : s.outgoing choice.now = some (packet, users)) :
    ∃ new, t.log = s.log ++ new ∧
      (∀ user ∈ users, (s.pool user.session.tcpClient).isConnected = true →
        ((∃ accepted, .posted (s.current user.session.tcpClient) packet accepted ∈ new) ↔
          4 + (fb.build packet).length ≤ sendBufferSize)) ∧
      (1020 < packet.strings.length →
        ∀ conn packet accepted, .posted conn packet accepted ∉ new) := by
  obtain ⟨evs, hlog, hevs⟩ := step_log hs
  rw [List.append_assoc] at hlog
  refine ⟨_, hlog, ?_, ?_⟩
  · intro user hu hc
    rw [← posted_iff hout hu hc]
    simp [hevs]
  · intro hlong conn packet' accepted hm
    have hsize := hbuild packet
    have hfits : fitsSendBuffer fb packet = false := by
      have h1024 : sendBufferSize = 1024 := rfl
      simp only [fitsSendBuffer, decide_eq_false_iff_not]
      omega
    rcases List.mem_append.mp hm with hm | hm
    · exact hevs _ _ _ hm
    · simp [State.posting, hout, postings_too_large hfits] at hm

/-! ## Two members of a room -/

theorem conversation_strings (packet : ServerPacket) :
    packet.strings.length ≤ (conversation.build packet).length := by
  have hbuilt : ∀ entry ∈ builtPackets, entry.1.strings.length ≤ entry.2.length := by
    decide +kernel
  simp only [conversation]
  cases hf : builtPackets.find? fun entry => entry.1 == packet with
  | none => exact Nat.le_refl _
  | some entry =>
    have he : entry.1 = packet := by simpa using List.find?_some hf
    exact he ▸ hbuilt entry (List.mem_of_find?_eq_some hf)

/-- The first and the second client, who are both in the first room. -/
def firstMember : User := ⟨⟨0, 0, 1⟩, 0, ann, 0, ⟨0, 1⟩⟩
def secondMember : User := ⟨⟨1, 1, 1⟩, 1, ann, 0, ⟨1, 1⟩⟩

/-- The second client is free to send its next request. -/
structure TwoMembers (s : State) : Prop where
  settled : Settled smallServer conversation 0 ⟨1, 1⟩ [] s
  users : s.users.users = [firstMember, secondMember]
  rooms : ∃ counter max, s.rooms = ⟨[⟨0, [firstMember, secondMember]⟩], counter, max⟩
  epoch : s.epoch 0 = 1
  sockets : (s.pool 0).socket = some 4 ∧ (s.pool 1).socket = some 5

theorem twoMembers : ∃ s, TwoMembers s := by
  obtain ⟨s, hr, hp⟩ := System.reach_of_exec (chatServer smallServer conversation) System.always
    (accepts 0 4 ++ accepts 1 5 ++ receives 0 ⟨0, 1⟩ (frameBytes joinBytes) 1 ++
      receives 1 ⟨1, 1⟩ (frameBytes joinBytes) 1 ++ ticks 12)
    (fun s => s.workers[0]? == some .idle && s.recvs.contains ⟨1, 1⟩ && s.arrived == [] &&
      s.epoch 1 == 1 &&
      s.queue.isEmpty && s.batch.isEmpty && s.handler.isReady &&
      (s.pool 1).frameBuf.data.isEmpty && s.users.users == [firstMember, secondMember] &&
      s.rooms.rooms.map Room.id == [0] &&
      s.rooms.rooms.map Room.users == [[firstMember, secondMember]] && s.epoch 0 == 1 &&
      (s.pool 0).socket == some 4 && (s.pool 1).socket == some 5) (by decide +kernel)
  simp only [Bool.and_eq_true, beq_iff_eq, List.contains_iff_mem, List.isEmpty_iff,
    HandlerPc.isReady_iff] at hp
  obtain ⟨⟨⟨⟨⟨⟨⟨⟨⟨⟨⟨⟨⟨hworker, hrecv⟩, harrived⟩, hepoch⟩, hqueue⟩, hbatch⟩, hready⟩, hempty⟩,
    husers⟩, hids⟩, hlists⟩, hepoch0⟩, h4⟩, h5⟩ := hp
  have hconn : (s.pool 1).isConnected = true := by simp [Client.isConnected, h5]
  refine ⟨s, ⟨hr, hworker, hrecv, harrived, hepoch, hconn, hempty, hqueue, hbatch, hready⟩,
    husers, ?_, hepoch0, h4, h5⟩
  cases hm : s.rooms with
  | mk rooms counter max =>
    refine ⟨counter, max, ?_⟩
    simp only [hm] at hids hlists
    rw [Room.eq_singleton hids hlists]

/-- The second client's message is about to be broadcast, to the first client. -/
theorem TwoMembers.speak {s : State} (payload : List UInt8) (request : SendMessageRequest)
    (h : TwoMembers s) (hfits : 4 + payload.length ≤ recvBufferSize)
    (hverify : conversation.verify payload = true)
    (hget : conversation.getPacket payload = some ⟨.sendMessageRequest (some request), 2⟩) :
    ∃ t u, (chatServer smallServer conversation).Reach System.always t ∧
      t.step smallServer conversation (.logic .plain) = some u ∧
      t.outgoing ⟨0, 0⟩ =
        some (.chatMessageBroadcast 1 ann request.message ⟨0, 0⟩ 2, [firstMember]) ∧
      (t.pool firstMember.session.tcpClient).isConnected = true ∧ t.current 0 = ⟨0, 1⟩ := by
  have hp : parsePacket conversation payload =
      some ⟨.sendMessageRequest (some request), 2⟩ := by
    rw [parsePacket, if_pos hverify, hget]
  obtain ⟨t, ht, hsame⟩ := h.settled.request hfits hp
  obtain ⟨h4, h5⟩ := h.sockets
  obtain ⟨counter, max, hrooms⟩ := h.rooms
  have hfind : t.users.getUserByClient t.pool 1 0 = some secondMember := by
    simp [UserManager.getUserByClient, hsame.users, h.users, firstMember, secondMember,
      User.isSameClient, Session.isSameSession, hsame.socket, h4, h5, firstMatch]
  have hr := chat_alone ht.reach ht.handler ht.batch hget hfind
  have hroom : t.rooms.getRoom secondMember.roomId = some 0 := by
    rw [hsame.rooms, hrooms]
    rfl
  have haudience : (t.rooms.roomAt 0).audience secondMember.id = [firstMember] := by
    rw [hsame.rooms, hrooms]
    rfl
  refine ⟨_, _, hr, by simp only [State.step, State.logicStep, hroom]; rfl, ?_, ?_, ?_⟩
  · simp only [State.outgoing, hroom, haudience, Option.map_some]
    rfl
  · simp [firstMember, Client.isConnected, hsame.socket, h4]
  · simp [State.current, hsame.epoch, h.epoch]

theorem getPacket_chatBytes :
    conversation.getPacket chatBytes = some ⟨.sendMessageRequest (some ⟨0, ann, hi⟩), 2⟩ := by
  have hjoin : (chatBytes == joinBytes) = false := by decide +kernel
  have hleave : (chatBytes == leaveBytes) = false := by decide +kernel
  simp only [conversation, hjoin, hleave, beq_self_eq_true, Bool.false_eq_true, if_false, if_true]

theorem getPacket_letterBytes :
    conversation.getPacket letterBytes =
      some ⟨.sendMessageRequest (some ⟨0, ann, letter⟩), 2⟩ := by
  have hjoin : (letterBytes == joinBytes) = false := by decide +kernel
  have hleave : (letterBytes == leaveBytes) = false := by decide +kernel
  have hchat : (letterBytes == chatBytes) = false := by decide +kernel
  simp only [conversation, hjoin, hleave, hchat, beq_self_eq_true, Bool.false_eq_true, if_false,
    if_true]

/-- A short message is relayed. -/
theorem relayed_iff_hi : ∃ s t, (chatServer smallServer conversation).Reach System.always s ∧
    s.step smallServer conversation (.logic .plain) = some t ∧
    ∃ new, t.log = s.log ++ new ∧
      ∃ accepted, .posted ⟨0, 1⟩ (.chatMessageBroadcast 1 ann hi ⟨0, 0⟩ 2) accepted ∈ new := by
  obtain ⟨s, hs⟩ := twoMembers
  obtain ⟨t, u, ht, hu, hout, hconn, hcurrent⟩ := hs.speak chatBytes ⟨0, ann, hi⟩ (by decide)
    (by decide +kernel) getPacket_chatBytes
  obtain ⟨new, hlog, hposted, -⟩ :=
    relayed_iff smallServer conversation conversation_strings hu hout
  obtain ⟨accepted, hm⟩ :=
    (hposted _ (List.mem_singleton.mpr rfl) hconn).mpr (by decide +kernel)
  refine ⟨t, u, ht, hu, new, hlog, accepted, ?_⟩
  rw [← hcurrent]
  exact hm

/-- A letter that `Receive` has accepted is not: its frame has 1204 bytes, and the other member
of the room, who is connected, gets nothing. -/
theorem letter_not_relayed : ∃ s t,
    (chatServer smallServer conversation).Reach System.always s ∧
    s.step smallServer conversation (.logic .plain) = some t ∧
    ∃ other, s.outgoing ⟨0, 0⟩ =
        some (.chatMessageBroadcast 1 ann letter ⟨0, 0⟩ 2, [other]) ∧
      (s.pool other.session.tcpClient).isConnected = true ∧
      ∀ conn packet accepted, .posted conn packet accepted ∈ t.log →
        .posted conn packet accepted ∈ s.log := by
  obtain ⟨s, hs⟩ := twoMembers
  obtain ⟨t, u, ht, hu, hout, hconn, -⟩ := hs.speak letterBytes ⟨0, ann, letter⟩
    (by decide +kernel) (by decide +kernel) getPacket_letterBytes
  refine ⟨t, u, ht, hu, firstMember, hout, hconn, fun conn packet accepted hm => ?_⟩
  obtain ⟨evs, hlog, hevs⟩ := step_log hu
  have hlarge : fitsSendBuffer conversation (.chatMessageBroadcast 1 ann letter ⟨0, 0⟩ 2) =
      false := by decide +kernel
  have hnone : t.posting conversation (.logic .plain) = [] := by
    simp only [State.posting, Choice.plain, hout, postings_too_large hlarge]
  rw [hlog, hnone, List.append_nil] at hm
  exact (List.mem_append.mp hm).resolve_right (hevs conn packet accepted)

end Highp.Chat
