import Highp.Chat.RoomSteps

/-! Which packets a step of the server passes to `PostSend`, for whom and in which order. -/

namespace Highp.Chat
open Highp.Lib Highp.Network

/-- The frame of a packet fits the send buffer. -/
def fitsSendBuffer (fb : FlatBuffers) (packet : ServerPacket) : Bool :=
  decide (4 + (fb.build packet).length ≤ sendBufferSize)

/-- `Session::Send` comes to its `PostSend`. -/
def State.posts (fb : FlatBuffers) (s : State) (packet : ServerPacket) (user : User) : Bool :=
  (s.pool user.session.tcpClient).isConnected && fitsSendBuffer fb packet

/-- The calls of `PostSend` when one user after the other is sent a packet. -/
def State.postings (fb : FlatBuffers) (s : State) (packet : ServerPacket) (refused : List Nat) :
    Nat → List User → List Event
  | _, [] => []
  | k, user :: users =>
    if s.posts fb packet user then
      .posted (s.current user.session.tcpClient) packet (!refused.contains k) ::
        s.postings fb packet refused (k + 1) users
    else s.postings fb packet refused (k + 1) users

/-- The packet that the next step of the handler sends, and to whom. -/
def State.outgoing (s : State) (now : Timestamp) : Option (ServerPacket × List User) :=
  match s.handler with
  | .joinEnter _ room user =>
    some (.userJoinedBroadcast ((s.rooms.roomAt room).id % 2 ^ 32) user.id user.username,
      (s.rooms.roomAt room).users)
  | .joinReply call user => some (.joinedRoomResponse call.sequence, [user])
  | .leaveRoom _ user =>
    (s.rooms.getRoom user.roomId).bind fun room =>
      ((s.rooms.roomAt room).leave user.id).map fun (found, others, _) =>
        (.userLeftBroadcast user.id found.username, others)
  | .leaveReply call user => some (.leftRoomResponse call.sequence, [user])
  | .chatSend call message user =>
    (s.rooms.getRoom user.roomId).map fun room =>
      (.chatMessageBroadcast (user.id % 2 ^ 32) user.username message now call.sequence,
        (s.rooms.roomAt room).audience user.id)
  | _ => none

/-- The calls of `PostSend` in a step of the server. -/
def State.posting (fb : FlatBuffers) (s : State) : Label → List Event
  | .logic choice =>
    match s.outgoing choice.now with
    | some (packet, users) => s.postings fb packet choice.refused 0 users
    | none => []
  | _ => []

section
variable {fb : FlatBuffers} {s t : State} {packet : ServerPacket} {refused : List Nat}

theorem send_eq (fb : FlatBuffers) (s : State) (user : User) (packet : ServerPacket)
    (accepted : Bool) :
    s.send fb user.session packet accepted =
      if s.posts fb packet user then
        s.postSend user.session.tcpClient (frameBytes (fb.build packet)) packet accepted
      else s := by
  have h1024 : sendBufferSize = 1024 := rfl
  unfold State.send State.posts fitsSendBuffer
  cases hc : (s.pool user.session.tcpClient).isConnected with
  | false => simp
  | true =>
    by_cases hfits : 4 + (fb.build packet).length ≤ sendBufferSize
    · rw [if_neg (by simp), if_neg (by omega), if_neg (Nat.not_lt.mpr hfits)]
      simp [hfits]
    · have hframe : 4 + (fb.build packet).length > sendBufferSize := Nat.not_le.mp hfits
      simp [hfits, hframe]

/-- What is posted depends on the sockets of the clients and on nothing else that a send
changes. -/
theorem postings_congr (hsocket : ∀ i, (t.pool i).socket = (s.pool i).socket)
    (hepoch : t.epoch = s.epoch) (k : Nat) (users : List User) :
    t.postings fb packet refused k users = s.postings fb packet refused k users := by
  induction users generalizing k with
  | nil => rfl
  | cons user users ih =>
    have hposts : t.posts fb packet user = s.posts fb packet user := by
      simp only [State.posts, Client.isConnected, hsocket]
    have hcurrent : t.current user.session.tcpClient = s.current user.session.tcpClient := by
      simp only [State.current, hepoch]
    simp only [State.postings, hposts, hcurrent, ih]

/-- Sending writes the calls of `PostSend` to the log and nothing else. -/
theorem sendAll_log (fb : FlatBuffers) (packet : ServerPacket) (refused : List Nat)
    (users : List User) (s : State) (k : Nat) :
    (s.sendAll fb packet refused k users).log =
      s.log ++ s.postings fb packet refused k users := by
  induction users generalizing s k with
  | nil => simp [State.sendAll, State.postings]
  | cons user users ih =>
    obtain ⟨pool, sends, evs, he, hsent⟩ :=
      send_sent fb s user.session packet (!refused.contains k)
    have hsocket : ∀ i, ((s.send fb user.session packet (!refused.contains k)).pool i).socket =
        (s.pool i).socket := by
      rw [he]
      exact hsent.socket
    have hepoch : (s.send fb user.session packet (!refused.contains k)).epoch = s.epoch := by
      rw [he]
    rw [State.sendAll, ih, postings_congr hsocket hepoch, send_eq, State.postings]
    cases hposts : s.posts fb packet user with
    | true => simp [State.postSend]
    | false => simp

/-- A packet that is too large is posted to nobody. -/
theorem postings_too_large (h : fitsSendBuffer fb packet = false) (k : Nat) (users : List User) :
    s.postings fb packet refused k users = [] := by
  induction users generalizing k with
  | nil => rfl
  | cons user users ih =>
    rw [State.postings, ih, State.posts, h, Bool.and_false]
    rfl

/-- Who gets a packet that is posted. -/
theorem mem_postings {e : Event} {k : Nat} {users : List User} :
    e ∈ s.postings fb packet refused k users ↔
      ∃ i user, users[i]? = some user ∧ s.posts fb packet user = true ∧
        e = .posted (s.current user.session.tcpClient) packet (!refused.contains (k + i)) := by
  induction users generalizing k with
  | nil => simp [State.postings]
  | cons user users ih =>
    have hstep : e ∈ s.postings fb packet refused k (user :: users) ↔
        (s.posts fb packet user = true ∧
          e = .posted (s.current user.session.tcpClient) packet (!refused.contains k)) ∨
        e ∈ s.postings fb packet refused (k + 1) users := by
      rw [State.postings]
      cases hposts : s.posts fb packet user with
      | true => simp
      | false => simp
    rw [hstep, ih]
    constructor
    · rintro (⟨hposts, he⟩ | ⟨i, u, hu, hposts, he⟩)
      · exact ⟨0, user, rfl, hposts, he⟩
      · refine ⟨i + 1, u, hu, hposts, ?_⟩
        rw [he, Nat.add_right_comm, Nat.add_assoc]
    · rintro ⟨i, u, hu, hposts, he⟩
      cases i with
      | zero =>
        cases hu
        exact Or.inl ⟨hposts, he⟩
      | succ i =>
        refine Or.inr ⟨i, u, hu, hposts, ?_⟩
        rw [he, Nat.add_right_comm, Nat.add_assoc]

theorem dispatch_log (fb : FlatBuffers) (s : State) (cmd : PacketCommand) :
    (s.dispatch fb cmd).log = s.log := by
  unfold State.dispatch
  cases fb.getPacket cmd.data with
  | none => rfl
  | some packet =>
    simp only
    cases packet.payload with
    | joinRoomRequest table => cases table <;> rfl
    | leaveRoomRequest table => cases table <;> rfl
    | sendMessageRequest table => cases table <;> rfl
    | other type =>
      simp only
      split <;> rfl

/-- **The log of a step.** A step of the logic thread writes to the log which users it gets hold
of, or else what it posts. -/
theorem logicStep_log {choice : Choice} (h : s.logicStep fb choice = some t) :
    ∃ evs, t.log = s.log ++ evs ++ s.posting fb (.logic choice) ∧
      ∀ conn packet accepted, .posted conn packet accepted ∉ evs := by
  have hquiet : ∀ evs : List Event, s.outgoing choice.now = none → t.log = s.log ++ evs →
      (∀ conn packet accepted, .posted conn packet accepted ∉ evs) →
      ∃ evs, t.log = s.log ++ evs ++ s.posting fb (.logic choice) ∧
        ∀ conn packet accepted, .posted conn packet accepted ∉ evs := by
    intro evs hout hlog hevs
    exact ⟨evs, by simp [State.posting, hout, hlog], hevs⟩
  have hsent : ∀ packet users, s.outgoing choice.now = some (packet, users) →
      t.log = (s.sendAll fb packet choice.refused 0 users).log →
      ∃ evs, t.log = s.log ++ evs ++ s.posting fb (.logic choice) ∧
        ∀ conn packet accepted, .posted conn packet accepted ∉ evs := by
    intro packet users hout hlog
    exact ⟨[], by simp [State.posting, hout, hlog, sendAll_log], by simp⟩
  unfold State.logicStep at h
  cases hpc : s.handler with
  | ready =>
    cases hb : s.batch with
    | nil => simp [hpc, hb] at h
    | cons cmd batch =>
      simp only [hpc, hb, Option.some.injEq] at h
      exact hquiet [] (by simp [State.outgoing, hpc]) (by rw [← h, dispatch_log]; simp) (by simp)
  | joinRoom call username =>
    simp only [hpc, Option.some.injEq] at h
    exact hquiet [] (by simp [State.outgoing, hpc]) (by rw [← h]; simp) (by simp)
  | joinSession call username room =>
    simp only [hpc] at h
    cases hg : s.sessions.getSessionByClient s.pool call.cmd.client choice.order with
    | none =>
      simp only [hg, Option.some.injEq] at h
      exact hquiet [] (by simp [State.outgoing, hpc]) (by rw [← h]; simp) (by simp)
    | some session =>
      simp only [hg, Option.some.injEq] at h
      exact hquiet [] (by simp [State.outgoing, hpc]) (by rw [← h]; simp) (by simp)
  | joinUser call username room session =>
    simp only [hpc] at h
    cases hg : s.users.getUserByClient s.pool call.cmd.client choice.order with
    | none =>
      simp only [hg, Option.some.injEq] at h
      exact hquiet _ (by simp [State.outgoing, hpc]) (by rw [← h]) (by simp)
    | some user =>
      simp only [hg, Option.some.injEq] at h
      exact hquiet _ (by simp [State.outgoing, hpc]) (by rw [← h]) (by simp)
  | joinEnter call room user =>
    simp only [hpc, Option.some.injEq] at h
    exact hsent _ _ (by rw [State.outgoing, hpc]) (by rw [← h]; rfl)
  | joinReply call user =>
    simp only [hpc, Option.some.injEq] at h
    exact hsent _ [user] (by rw [State.outgoing, hpc]) (by rw [← h]; rfl)
  | leaveFind call =>
    simp only [hpc] at h
    cases hg : s.users.getUserByClient s.pool call.cmd.client choice.order with
    | none =>
      simp only [hg, Option.some.injEq] at h
      exact hquiet [] (by simp [State.outgoing, hpc]) (by rw [← h]; simp) (by simp)
    | some user =>
      simp only [hg, Option.some.injEq] at h
      exact hquiet _ (by simp [State.outgoing, hpc]) (by rw [← h]) (by simp)
  | leaveRoom call user =>
    simp only [hpc] at h
    cases hroom : s.rooms.getRoom user.roomId with
    | none =>
      simp only [hroom, Option.some.injEq] at h
      exact hquiet [] (by simp [State.outgoing, hpc, hroom]) (by rw [← h]; simp) (by simp)
    | some room =>
      simp only [hroom] at h
      cases hleave : (s.rooms.roomAt room).leave user.id with
      | none =>
        simp only [hleave, Option.some.injEq] at h
        exact hquiet [] (by simp [State.outgoing, hpc, hroom, hleave]) (by rw [← h]; simp)
          (by simp)
      | some result =>
        simp only [hleave, Option.some.injEq] at h
        exact hsent (.userLeftBroadcast user.id result.1.username) result.2.1
          (by simp [State.outgoing, hpc, hroom, hleave]) (by rw [← h])
  | leaveReply call user =>
    simp only [hpc, Option.some.injEq] at h
    exact hsent _ [user] (by rw [State.outgoing, hpc]) (by rw [← h]; rfl)
  | leaveRemove call user =>
    simp only [hpc, Option.some.injEq] at h
    exact hquiet _ (by simp [State.outgoing, hpc]) (by rw [← h]) (by simp)
  | chatFind call message =>
    simp only [hpc] at h
    cases hg : s.users.getUserByClient s.pool call.cmd.client choice.order with
    | none =>
      simp only [hg, Option.some.injEq] at h
      exact hquiet [] (by simp [State.outgoing, hpc]) (by rw [← h]; simp) (by simp)
    | some user =>
      simp only [hg, Option.some.injEq] at h
      exact hquiet _ (by simp [State.outgoing, hpc]) (by rw [← h]) (by simp)
  | chatSend call message user =>
    simp only [hpc] at h
    cases hroom : s.rooms.getRoom user.roomId with
    | none =>
      simp only [hroom, Option.some.injEq] at h
      exact hquiet [] (by simp [State.outgoing, hpc, hroom]) (by rw [← h]; simp) (by simp)
    | some room =>
      simp only [hroom, Option.some.injEq] at h
      exact hsent (.chatMessageBroadcast (user.id % 2 ^ 32) user.username message choice.now
          call.sequence) ((s.rooms.roomAt room).audience user.id)
        (by simp [State.outgoing, hpc, hroom]) (by rw [← h])
  | resetSocket cmd =>
    simp only [hpc, Option.some.injEq] at h
    exact hquiet [] (by simp [State.outgoing, hpc]) (by simp [← h, State.resetSocket]) (by simp)
  | fault => simp [hpc] at h

theorem WorkerStep.log_unposted {cfg : Config} {ok : Bool} {pc pc' : WorkerPc}
    (h : WorkerStep cfg fb s ok pc t pc') : ∃ evs, t.log = s.log ++ evs ∧
      ∀ conn packet accepted, .posted conn packet accepted ∉ evs := by
  cases h with
  | onAccept => exact ⟨_, rfl, by simp⟩
  | kick => exact ⟨_, rfl, by simp⟩
  | overflow => exact ⟨_, rfl, by simp⟩
  | append => exact ⟨_, rfl, by simp⟩
  | _ => exact ⟨[], (List.append_nil _).symm, by simp⟩

/-- The same for every step: workers post nothing. -/
theorem step_log {cfg : Config} {l : Label} (h : s.step cfg fb l = some t) :
    ∃ evs, t.log = s.log ++ evs ++ s.posting fb l ∧
      ∀ conn packet accepted, .posted conn packet accepted ∉ evs := by
  cases l with
  | accepted w acceptSocket =>
    obtain ⟨-, -, rfl⟩ := step_accepted h
    exact ⟨[], by simp [State.posting], by simp⟩
  | arrive conn data =>
    obtain ⟨-, -, -, rfl⟩ := step_arrive h
    exact ⟨[], by simp [State.posting], by simp⟩
  | recvDone w conn result =>
    obtain ⟨-, -, rfl⟩ := step_recvDone h
    exact ⟨[], by simp [State.posting], by simp⟩
  | sendDone w conn result =>
    obtain ⟨-, -, rfl⟩ := step_sendDone h
    exact ⟨[], by simp [State.posting], by simp⟩
  | worker w ok =>
    obtain ⟨pc, u, pc', -, hw, rfl⟩ := step_worker h
    obtain ⟨evs, hlog, hevs⟩ := hw.log_unposted
    exact ⟨evs, by simp [State.posting, hlog], hevs⟩
  | tick =>
    obtain ⟨-, -, rfl⟩ := step_tick h
    exact ⟨[], by simp [State.posting], by simp⟩
  | logic choice => exact logicStep_log h

end

/-! ## What a handler was asked -/

/-- The packet behind the command that a handler has in its hands. -/
def HandlerPc.Asked (fb : FlatBuffers) : HandlerPc → Prop
  | .ready => True
  | .fault => True
  | .joinRoom call _ | .joinSession call _ _ | .joinUser call _ _ _ | .joinEnter call _ _
  | .joinReply call _ =>
    ∃ request, fb.getPacket call.cmd.data = some ⟨.joinRoomRequest (some request), call.sequence⟩
  | .leaveFind call | .leaveRoom call _ | .leaveReply call _ | .leaveRemove call _ =>
    ∃ request, fb.getPacket call.cmd.data = some ⟨.leaveRoomRequest (some request), call.sequence⟩
  | .chatFind call message | .chatSend call message _ =>
    ∃ request, fb.getPacket call.cmd.data =
      some ⟨.sendMessageRequest (some request), call.sequence⟩ ∧ request.message = message
  | .resetSocket cmd =>
    ∃ type sequence, fb.getPacket cmd.data = some ⟨.other type, sequence⟩

section
variable {fb : FlatBuffers} {s t : State}

theorem dispatch_asked (hready : s.handler = .ready) (cmd : PacketCommand) :
    (s.dispatch fb cmd).handler.Asked fb := by
  unfold State.dispatch
  cases hp : fb.getPacket cmd.data with
  | none => simp [hready, HandlerPc.Asked]
  | some packet =>
    obtain ⟨payload, sequence⟩ := packet
    simp only
    cases payload with
    | joinRoomRequest table =>
      cases table with
      | none => simp [hready, HandlerPc.Asked]
      | some request => exact ⟨request, hp⟩
    | leaveRoomRequest table =>
      cases table with
      | none => simp [hready, HandlerPc.Asked]
      | some request => exact ⟨request, hp⟩
    | sendMessageRequest table =>
      cases table with
      | none => simp [hready, HandlerPc.Asked]
      | some request => exact ⟨request, hp, rfl⟩
    | other type =>
      simp only
      split
      · exact ⟨type, sequence, hp⟩
      · simp [hready, State.closeSocket, HandlerPc.Asked]

theorem HandlerPc.Asked.logic {choice : Choice} (h : s.handler.Asked fb)
    (hs : s.logicStep fb choice = some t) : t.handler.Asked fb := by
  by_cases hready : s.handler = .ready
  · cases hb : s.batch with
    | nil => simp [State.logicStep, hready, hb] at hs
    | cons cmd batch =>
      simp only [State.logicStep, hready, hb, Option.some.injEq] at hs
      subst hs
      exact dispatch_asked rfl cmd
  · cases logicStep_inv hs with
    | skip hpc | startJoin _ _ hpc | startLeave _ hpc | startChat _ _ hpc | reject hpc
    | rejectClosed hpc => exact absurd hpc hready
    | joinNoSession | joinExists | joinReply | leaveNobody | leaveFault | leaveRemove | chatNobody
    | chatNoRoom | chatSend | reset => trivial
    | joinRoom hpc | joinSession hpc | joinUser hpc | joinEnter hpc | leaveFind hpc
    | leaveMissing hpc | leaveRoom hpc | leaveReply hpc | chatFind hpc => rwa [hpc] at h

theorem HandlerPc.Asked.roomStep {cfg : Config} {l : RoomLabel} (h : s.handler.Asked fb)
    (hs : s.roomStep cfg fb l = some t) : t.handler.Asked fb := by
  cases roomStep_registry hs with
  | logic hl _ =>
    subst hl
    exact h.logic hs
  | thin _ _ _ hhandler _ =>
    rw [hhandler]
    exact h

end
end Highp.Chat
