import Highp.Chat.Server

/-! What one step can do. The results about whole runs go by these lemmas and do not look into
the definitions of the steps again. -/

namespace Highp.Chat
open Highp.Lib Highp.Network

variable {cfg : Config} {fb : FlatBuffers} {s t : State}

/-! ## Sending -/

/-- What sending changes: buffers, operations in flight and the log, but no socket and no flag. -/
structure Sent (s : State) (pool : Pool) (evs : List Event) : Prop where
  socket : ∀ i, (pool i).socket = (s.pool i).socket
  emitsDisconnected : ∀ i, (pool i).emitsDisconnected = (s.pool i).emitsDisconnected
  posted : ∀ e ∈ evs, ∃ conn packet accepted, e = .posted conn packet accepted

theorem sent_nil (s : State) : Sent s s.pool [] := ⟨fun _ => rfl, fun _ => rfl, by simp⟩

theorem send_sent (fb : FlatBuffers) (s : State) (session : Session) (packet : ServerPacket)
    (accepted : Bool) :
    ∃ pool sends evs, s.send fb session packet accepted =
      { s with pool := pool, sends := sends, log := s.log ++ evs } ∧ Sent s pool evs := by
  have hnone : ∃ pool sends evs, s = { s with pool := pool, sends := sends, log := s.log ++ evs } ∧
      Sent s pool evs := ⟨s.pool, s.sends, [], by simp, sent_nil s⟩
  unfold State.send
  split
  · exact hnone
  · split
    · exact hnone
    · split
      · exact hnone
      · refine ⟨_, _, _, rfl, ?_, ?_, ?_⟩
        · intro i
          by_cases hi : i = session.tcpClient
          · subst hi
            simp
          · simp [hi]
        · intro i
          by_cases hi : i = session.tcpClient
          · subst hi
            simp [Client.emitsDisconnected, Client.fillSend]
          · simp [hi]
        · intro e he
          exact ⟨_, _, _, List.mem_singleton.mp he⟩

theorem sendAll_sent (fb : FlatBuffers) (packet : ServerPacket) (refused : List Nat)
    (users : List User) (s : State) (k : Nat) :
    ∃ pool sends evs, s.sendAll fb packet refused k users =
      { s with pool := pool, sends := sends, log := s.log ++ evs } ∧ Sent s pool evs := by
  induction users generalizing s k with
  | nil => exact ⟨s.pool, s.sends, [], by simp [State.sendAll], sent_nil s⟩
  | cons user users ih =>
    obtain ⟨pool, sends, evs, he, hs⟩ :=
      send_sent fb s user.session packet (!refused.contains k)
    obtain ⟨pool', sends', evs', he', hs'⟩ :=
      ih (s.send fb user.session packet (!refused.contains k)) (k + 1)
    refine ⟨pool', sends', evs ++ evs', ?_, ?_, ?_, ?_⟩
    · rw [State.sendAll, he', he]
      simp
    · intro i
      rw [hs'.socket i, he]
      exact hs.socket i
    · intro i
      rw [hs'.emitsDisconnected i, he]
      exact hs.emitsDisconnected i
    · intro e hm
      rcases List.mem_append.mp hm with hm | hm
      · exact hs.posted e hm
      · exact hs'.posted e hm

/-! ## The logic thread -/

/-- The steps of the logic thread, one constructor for each way a step can end. -/
inductive LogicStep (s : State) (choice : Choice) : State → Prop
  | skip {cmd batch} : s.handler = .ready → s.batch = cmd :: batch →
      LogicStep s choice { s with batch }
  | startJoin {cmd batch} (sequence : Nat) (username : Text) : s.handler = .ready →
      s.batch = cmd :: batch →
      LogicStep s choice { s with batch, handler := .joinRoom ⟨cmd, sequence⟩ username }
  | startLeave {cmd batch} (sequence : Nat) : s.handler = .ready → s.batch = cmd :: batch →
      LogicStep s choice { s with batch, handler := .leaveFind ⟨cmd, sequence⟩ }
  | startChat {cmd batch} (sequence : Nat) (message : Text) : s.handler = .ready →
      s.batch = cmd :: batch →
      LogicStep s choice { s with batch, handler := .chatFind ⟨cmd, sequence⟩ message }
  | reject {cmd batch} : s.handler = .ready → s.batch = cmd :: batch →
      (s.pool cmd.client).isConnected = true →
      LogicStep s choice
        { { s with batch }.closeSocket cmd.client with handler := .resetSocket cmd }
  | rejectClosed {cmd batch} : s.handler = .ready → s.batch = cmd :: batch →
      (s.pool cmd.client).isConnected = false →
      LogicStep s choice ({ s with batch }.closeSocket cmd.client)
  | reset {cmd} : s.handler = .resetSocket cmd →
      LogicStep s choice { s.resetSocket cmd.client with handler := .ready }
  | joinRoom {call username} : s.handler = .joinRoom call username →
      LogicStep s choice { s with
        rooms := s.rooms.getOrCreateAvailableRoom.1
        handler := .joinSession call username s.rooms.getOrCreateAvailableRoom.2 }
  | joinNoSession {call username room} : s.handler = .joinSession call username room →
      LogicStep s choice { s with handler := .ready }
  | joinSession {call username room session} : s.handler = .joinSession call username room →
      s.sessions.getSessionByClient s.pool call.cmd.client choice.order = some session →
      LogicStep s choice { s with handler := .joinUser call username room session }
  | joinExists {call username room session user} :
      s.handler = .joinUser call username room session →
      s.users.getUserByClient s.pool call.cmd.client choice.order = some user →
      LogicStep s choice { s with
        handler := .ready, log := s.log ++ [.touched call.cmd.conn user] }
  | joinUser {call username room session user} : s.handler = .joinUser call username room session →
      s.users.getUserByClient s.pool call.cmd.client choice.order = none →
      user = s.users.makeUser session username (s.rooms.roomAt room).id call.cmd.conn →
      LogicStep s choice { s with
        users := s.users.addUser user
        handler := .joinEnter call room user
        log := s.log ++ [.touched call.cmd.conn user] }
  | joinEnter {call room user pool sends evs} : s.handler = .joinEnter call room user →
      Sent s pool evs →
      LogicStep s choice { s with
        pool := pool, sends := sends, log := s.log ++ evs
        rooms := s.rooms.setRoom room ((s.rooms.roomAt room).join user).2
        handler := .joinReply call user }
  | joinReply {call user pool sends evs} : s.handler = .joinReply call user → Sent s pool evs →
      LogicStep s choice { s with
        pool := pool, sends := sends, log := s.log ++ evs, handler := .ready }
  | leaveNobody {call} : s.handler = .leaveFind call →
      s.users.getUserByClient s.pool call.cmd.client choice.order = none →
      LogicStep s choice { s with handler := .ready }
  | leaveFind {call user} : s.handler = .leaveFind call →
      s.users.getUserByClient s.pool call.cmd.client choice.order = some user →
      LogicStep s choice { s with
        handler := .leaveRoom call user, log := s.log ++ [.touched call.cmd.conn user] }
  | leaveFault {call user} : s.handler = .leaveRoom call user →
      s.rooms.getRoom user.roomId = none → LogicStep s choice { s with handler := .fault }
  | leaveMissing {call user room} : s.handler = .leaveRoom call user →
      s.rooms.getRoom user.roomId = some room → (s.rooms.roomAt room).leave user.id = none →
      LogicStep s choice { s with handler := .leaveReply call user }
  | leaveRoom {call user room found others left pool sends evs} :
      s.handler = .leaveRoom call user → s.rooms.getRoom user.roomId = some room →
      (s.rooms.roomAt room).leave user.id = some (found, others, left) → Sent s pool evs →
      LogicStep s choice { s with
        pool := pool, sends := sends, log := s.log ++ evs
        rooms := s.rooms.setRoom room left
        handler := .leaveReply call user }
  | leaveReply {call user pool sends evs} : s.handler = .leaveReply call user → Sent s pool evs →
      LogicStep s choice { s with
        pool := pool, sends := sends, log := s.log ++ evs, handler := .leaveRemove call user }
  | leaveRemove {call user} : s.handler = .leaveRemove call user →
      LogicStep s choice { s with
        users := s.users.removeUserByUserId user.id
        handler := .ready
        log := s.log ++ (s.users.users.filter fun u => u.id == user.id).map
          (Event.touched call.cmd.conn) }
  | chatNobody {call message} : s.handler = .chatFind call message →
      s.users.getUserByClient s.pool call.cmd.client choice.order = none →
      LogicStep s choice { s with handler := .ready }
  | chatFind {call message user} : s.handler = .chatFind call message →
      s.users.getUserByClient s.pool call.cmd.client choice.order = some user →
      LogicStep s choice { s with
        handler := .chatSend call message user, log := s.log ++ [.touched call.cmd.conn user] }
  | chatNoRoom {call message user} : s.handler = .chatSend call message user →
      LogicStep s choice { s with handler := .ready }
  | chatSend {call message user pool sends evs} : s.handler = .chatSend call message user →
      Sent s pool evs →
      LogicStep s choice { s with
        pool := pool, sends := sends, log := s.log ++ evs, handler := .ready }

theorem dispatch_step {choice : Choice} {cmd : PacketCommand} {batch : List PacketCommand}
    (h : s.handler = .ready) (hb : s.batch = cmd :: batch) :
    LogicStep s choice ({ s with batch }.dispatch fb cmd) := by
  unfold State.dispatch
  cases fb.getPacket cmd.data with
  | none => exact .skip h hb
  | some packet =>
    simp only
    cases packet.payload with
    | joinRoomRequest table =>
      cases table with
      | none => exact .skip h hb
      | some payload => exact .startJoin packet.sequence _ h hb
    | leaveRoomRequest table =>
      cases table with
      | none => exact .skip h hb
      | some payload => exact .startLeave packet.sequence h hb
    | sendMessageRequest table =>
      cases table with
      | none => exact .skip h hb
      | some payload => exact .startChat packet.sequence payload.message h hb
    | other type =>
      cases hc : (s.pool cmd.client).isConnected with
      | true => exact .reject h hb hc
      | false => exact .rejectClosed h hb hc

/-- **Inversion.** Every step of the logic thread is one of these. -/
theorem logicStep_inv {choice : Choice} (hs : s.logicStep fb choice = some t) :
    LogicStep s choice t := by
  unfold State.logicStep at hs
  cases h : s.handler with
  | ready =>
    cases hb : s.batch with
    | nil => simp [h, hb] at hs
    | cons cmd batch =>
      simp only [h, hb, Option.some.injEq] at hs
      rw [← h] at hs
      exact hs ▸ dispatch_step h hb
  | joinRoom call username =>
    simp only [h, Option.some.injEq] at hs
    exact hs ▸ .joinRoom h
  | joinSession call username room =>
    simp only [h] at hs
    cases hg : s.sessions.getSessionByClient s.pool call.cmd.client choice.order with
    | none =>
      simp only [hg, Option.some.injEq] at hs
      exact hs ▸ .joinNoSession h
    | some session =>
      simp only [hg, Option.some.injEq] at hs
      exact hs ▸ .joinSession h hg
  | joinUser call username room session =>
    simp only [h] at hs
    cases hg : s.users.getUserByClient s.pool call.cmd.client choice.order with
    | none =>
      simp only [hg, Option.some.injEq] at hs
      exact hs ▸ .joinUser h hg rfl
    | some user =>
      simp only [hg, Option.some.injEq] at hs
      exact hs ▸ .joinExists h hg
  | joinEnter call room user =>
    simp only [h, Option.some.injEq] at hs
    obtain ⟨pool, sends, evs, he, hsent⟩ := sendAll_sent fb
      (.userJoinedBroadcast ((s.rooms.roomAt room).id % 2 ^ 32) user.id user.username)
      choice.refused ((s.rooms.roomAt room).join user).1 s 0
    rw [he] at hs
    exact hs ▸ .joinEnter h hsent
  | joinReply call user =>
    simp only [h, Option.some.injEq] at hs
    obtain ⟨pool, sends, evs, he, hsent⟩ := send_sent fb s user.session
      (.joinedRoomResponse call.sequence) (!choice.refused.contains 0)
    rw [he] at hs
    exact hs ▸ .joinReply h hsent
  | leaveFind call =>
    simp only [h] at hs
    cases hg : s.users.getUserByClient s.pool call.cmd.client choice.order with
    | none =>
      simp only [hg, Option.some.injEq] at hs
      exact hs ▸ .leaveNobody h hg
    | some user =>
      simp only [hg, Option.some.injEq] at hs
      exact hs ▸ .leaveFind h hg
  | leaveRoom call user =>
    simp only [h] at hs
    cases hr : s.rooms.getRoom user.roomId with
    | none =>
      simp only [hr, Option.some.injEq] at hs
      exact hs ▸ .leaveFault h hr
    | some room =>
      simp only [hr] at hs
      cases hl : (s.rooms.roomAt room).leave user.id with
      | none =>
        simp only [hl, Option.some.injEq] at hs
        exact hs ▸ .leaveMissing h hr hl
      | some result =>
        obtain ⟨found, others, left⟩ := result
        simp only [hl, Option.some.injEq] at hs
        obtain ⟨pool, sends, evs, he, hsent⟩ := sendAll_sent fb
          (.userLeftBroadcast user.id found.username) choice.refused others s 0
        rw [he] at hs
        exact hs ▸ .leaveRoom h hr hl hsent
  | leaveReply call user =>
    simp only [h, Option.some.injEq] at hs
    obtain ⟨pool, sends, evs, he, hsent⟩ := send_sent fb s user.session
      (.leftRoomResponse call.sequence) (!choice.refused.contains 0)
    rw [he] at hs
    exact hs ▸ .leaveReply h hsent
  | leaveRemove call user =>
    simp only [h, Option.some.injEq] at hs
    exact hs ▸ .leaveRemove h
  | chatFind call message =>
    simp only [h] at hs
    cases hg : s.users.getUserByClient s.pool call.cmd.client choice.order with
    | none =>
      simp only [hg, Option.some.injEq] at hs
      exact hs ▸ .chatNobody h hg
    | some user =>
      simp only [hg, Option.some.injEq] at hs
      exact hs ▸ .chatFind h hg
  | chatSend call message user =>
    simp only [h] at hs
    cases hr : s.rooms.getRoom user.roomId with
    | none =>
      simp only [hr, Option.some.injEq] at hs
      exact hs ▸ .chatNoRoom h
    | some room =>
      simp only [hr, Option.some.injEq] at hs
      obtain ⟨pool, sends, evs, he, hsent⟩ := sendAll_sent fb
        (.chatMessageBroadcast (user.id % 2 ^ 32) user.username message choice.now call.sequence)
        choice.refused ((s.rooms.roomAt room).audience user.id) s 0
      rw [he] at hs
      exact hs ▸ .chatSend h hsent
  | resetSocket cmd =>
    simp only [h, Option.some.injEq] at hs
    exact hs ▸ .reset h
  | fault => simp [h] at hs

/-- Between two commands the logic thread dispatches the next one of the batch. -/
theorem LogicStep.dispatched {choice : Choice} (h : LogicStep s choice t)
    (hready : s.handler = .ready) : ∃ cmd batch, s.batch = cmd :: batch ∧
      (t = { s with batch } ∨
        (∃ pc, (pc = .ready ∨ pc = .resetSocket cmd) ∧
          t = { { s with batch }.closeSocket cmd.client with handler := pc }) ∨
        ∃ pc sequence, t = { s with batch, handler := pc } ∧
          ((∃ username, pc = .joinRoom ⟨cmd, sequence⟩ username) ∨ pc = .leaveFind ⟨cmd, sequence⟩ ∨
            ∃ message, pc = .chatFind ⟨cmd, sequence⟩ message)) := by
  cases h with
  | skip _ hb => exact ⟨_, _, hb, .inl rfl⟩
  | reject _ hb _ => exact ⟨_, _, hb, .inr (.inl ⟨_, .inr rfl, rfl⟩)⟩
  | rejectClosed hh hb _ => exact ⟨_, _, hb, .inr (.inl ⟨_, .inl rfl, by rw [← hh]; rfl⟩)⟩
  | startJoin _ _ _ hb => exact ⟨_, _, hb, .inr (.inr ⟨_, _, rfl, .inl ⟨_, rfl⟩⟩)⟩
  | startLeave _ _ hb => exact ⟨_, _, hb, .inr (.inr ⟨_, _, rfl, .inr (.inl rfl)⟩)⟩
  | startChat _ _ _ hb => exact ⟨_, _, hb, .inr (.inr ⟨_, _, rfl, .inr (.inr ⟨_, rfl⟩)⟩)⟩
  | joinRoom hh | joinNoSession hh | joinSession hh _ | joinExists hh _ | joinUser hh _ _
  | joinEnter hh _ | joinReply hh _ | leaveNobody hh _ | leaveFind hh _ | leaveFault hh _
  | leaveMissing hh _ _ | leaveRoom hh _ _ _ | leaveReply hh _ | leaveRemove hh | chatNobody hh _
  | chatFind hh _ | chatNoRoom hh | chatSend hh _ | reset hh =>
    exact absurd (hh.symm.trans hready) (by simp)

/-- What a step of the logic thread does to clients and log: nothing that a client would notice,
a part of `Close`, or one packet to some users. -/
inductive Traffic (fb : FlatBuffers) (s t : State) : Prop
  | silent {evs : List Event} : t.pool = s.pool → t.log = s.log ++ evs →
      (∀ conn packet accepted, .posted conn packet accepted ∉ evs) → Traffic fb s t
  | closing {client : Slot} : t.pool = (s.closeSocket client).pool → t.log = s.log → Traffic fb s t
  | reset {client : Slot} : t.pool = (s.resetSocket client).pool → t.log = s.log → Traffic fb s t
  | sent (packet : ServerPacket) (refused : List Nat) (users : List User) :
      t.pool = (s.sendAll fb packet refused 0 users).pool →
      t.log = (s.sendAll fb packet refused 0 users).log → Traffic fb s t

theorem traffic_of_same (hpool : t.pool = s.pool) (hlog : t.log = s.log) : Traffic fb s t :=
  .silent hpool (hlog.trans (List.append_nil _).symm) fun _ _ _ => List.not_mem_nil

theorem logicStep_traffic {choice : Choice} (hs : s.logicStep fb choice = some t) :
    Traffic fb s t := by
  have hinv := logicStep_inv hs
  unfold State.logicStep at hs
  cases hinv with
  | reject _ _ _ => exact .closing rfl rfl
  | rejectClosed _ _ _ => exact .closing rfl rfl
  | reset _ => exact .reset rfl rfl
  | joinExists _ _ => exact .silent rfl rfl (by simp)
  | joinUser _ _ _ => exact .silent rfl rfl (by simp)
  | leaveFind _ _ => exact .silent rfl rfl (by simp)
  | leaveRemove _ => exact .silent rfl rfl (by simp)
  | chatFind _ _ => exact .silent rfl rfl (by simp)
  | joinEnter hpc _ =>
    simp only [hpc, Option.some.injEq] at hs
    rw [← hs]
    exact .sent _ _ _ rfl rfl
  | @joinReply call user pool sends evs hpc _ =>
    simp only [hpc, Option.some.injEq] at hs
    rw [← hs]
    exact .sent _ _ [user] rfl rfl
  | leaveRoom hpc hroom hleave _ =>
    simp only [hpc, hroom, hleave, Option.some.injEq] at hs
    rw [← hs]
    exact .sent _ _ _ rfl rfl
  | @leaveReply call user pool sends evs hpc _ =>
    simp only [hpc, Option.some.injEq] at hs
    rw [← hs]
    exact .sent _ _ [user] rfl rfl
  | @chatSend call message user pool sends evs hpc _ =>
    simp only [hpc] at hs
    cases hroom : s.rooms.getRoom user.roomId with
    | none =>
      simp only [hroom, Option.some.injEq] at hs
      rw [← hs]
      exact traffic_of_same rfl rfl
    | some room =>
      simp only [hroom, Option.some.injEq] at hs
      rw [← hs]
      exact .sent _ _ _ rfl rfl
  | _ => exact traffic_of_same rfl rfl

/-! ## Worker threads -/

/-- The steps of a worker inside a completion, one constructor for each way a step can end. -/
inductive WorkerStep (cfg : Config) (fb : FlatBuffers) (s : State) (ok : Bool) :
    WorkerPc → State → WorkerPc → Prop
  | found {h client} : s.findAvailableClient cfg = some client →
      WorkerStep cfg fb s ok (.findAvailableClient h) s (.assignSocket h client)
  | full {h} : s.findAvailableClient cfg = none →
      WorkerStep cfg fb s ok (.findAvailableClient h)
        { s with sockets := s.sockets.filter fun k => k != h } .idle
  | assign {h client} : WorkerStep cfg fb s ok (.assignSocket h client)
      { s with
        pool := Function.update s.pool client { s.pool client with socket := some h }
        epoch := Function.update s.epoch client (s.epoch client + 1) }
      (.associateSocket ⟨client, s.epoch client + 1⟩)
  | associate {conn} : (s.pool conn.client).isConnected = true →
      WorkerStep cfg fb s ok (.associateSocket conn) s (.postFirstRecv conn)
  | associateFailed {conn} : (ok && (s.pool conn.client).isConnected) = false →
      WorkerStep cfg fb s ok (.associateSocket conn) (s.closeSocket conn.client)
        (s.behindClose conn .setupClient)
  | firstRecv {conn} : s.canPostRecv conn.client ok = true →
      WorkerStep cfg fb s ok (.postFirstRecv conn) (s.postRecv conn.client)
        (.markConnectionEstablished conn)
  | firstRecvFailed {conn} : s.canPostRecv conn.client ok = false →
      WorkerStep cfg fb s ok (.postFirstRecv conn) (s.closeSocket conn.client)
        (s.behindClose conn .setupClient)
  | mark {conn} : WorkerStep cfg fb s ok (.markConnectionEstablished conn)
      { s with
        pool := Function.update s.pool conn.client
          (s.pool conn.client).markConnectionEstablished.2
        connectedClientCount :=
          if (s.pool conn.client).markConnectionEstablished.1 then s.connectedClientCount + 1
          else s.connectedClientCount } (.onAccept conn)
  | onAccept {conn} : WorkerStep cfg fb s ok (.onAccept conn)
      { s with sessions := s.sessions.createSession conn, log := s.log ++ [.onAccept conn] } .idle
  | kick {conn} : WorkerStep cfg fb s ok (.kickDisconnected conn)
      { s with rooms := s.rooms.kickDisconnected s.pool conn.client
               log := s.log ++ [.onDisconnect conn] } (.removeByClient conn)
  | remove {conn} : WorkerStep cfg fb s ok (.removeByClient conn)
      { s with sessions := s.sessions.removeByClient s.pool conn.client } (.closeClient conn)
  | close {conn} : (s.pool conn.client).isConnected = true →
      WorkerStep cfg fb s ok (.closeClient conn) (s.closeSocket conn.client)
        (.resetSocket conn .handleRecv)
  | alreadyClosed {conn} : (s.pool conn.client).isConnected = false →
      WorkerStep cfg fb s ok (.closeClient conn) s .idle
  | overflow {conn n} : (s.pool conn.client).frameBuf.overflows (s.received conn.client n) = true →
      WorkerStep cfg fb s ok (.append conn n)
        { s.closeSocket conn.client with log := s.log ++ [.onRecv conn] }
        (s.behindClose conn .postNextRecv)
  | append {conn n frameBuf} :
      (s.pool conn.client).frameBuf.append (s.received conn.client n) = (true, frameBuf) →
      WorkerStep cfg fb s ok (.append conn n)
        { s.setClient conn.client ((s.pool conn.client).setFrameBuf frameBuf) with
          log := s.log ++ [.onRecv conn] } (.assemble conn)
  | incomplete {conn} : inspect fb (s.pool conn.client).frameBuf.data = .incomplete →
      WorkerStep cfg fb s ok (.assemble conn) s (.postNextRecv conn)
  | tooLarge {conn} : inspect fb (s.pool conn.client).frameBuf.data = .tooLarge →
      WorkerStep cfg fb s ok (.assemble conn) (s.closeSocket conn.client)
        (s.behindClose conn .postNextRecv)
  | invalid {conn frameSize} :
      inspect fb (s.pool conn.client).frameBuf.data = .invalid frameSize →
      WorkerStep cfg fb s ok (.assemble conn) (s.closeSocket conn.client)
        (s.behindClose conn (.consume frameSize))
  | consume {conn frameSize} : WorkerStep cfg fb s ok (.consume conn frameSize)
      (s.setClient conn.client ((s.pool conn.client).setFrameBuf
        ((s.pool conn.client).frameBuf.consume frameSize))) (.postNextRecv conn)
  | command {conn payloadType payload frameSize} :
      inspect fb (s.pool conn.client).frameBuf.data = .command payloadType payload frameSize →
      WorkerStep cfg fb s ok (.assemble conn)
        { s.setClient conn.client ((s.pool conn.client).setFrameBuf
            ((s.pool conn.client).frameBuf.consume frameSize)) with
          queue := s.queue ++ [⟨conn.client, payloadType, payload, conn.epoch⟩] } (.assemble conn)
  | nextRecv {conn} : s.canPostRecv conn.client ok = true →
      WorkerStep cfg fb s ok (.postNextRecv conn) (s.postRecv conn.client) .idle
  | nextRecvFailed {conn} : s.canPostRecv conn.client ok = false →
      (s.pool conn.client).isConnected = true →
      WorkerStep cfg fb s ok (.postNextRecv conn) (s.closeSocket conn.client)
        (.resetSocket conn .handleRecv)
  | nextRecvClosed {conn} : (s.pool conn.client).isConnected = false →
      WorkerStep cfg fb s ok (.postNextRecv conn) s .idle
  | reset {conn next} :
      WorkerStep cfg fb s ok (.resetSocket conn next) (s.resetSocket conn.client) (next.pc conn)

theorem behindClose_cases (s : State) (conn : Conn) (next : AfterClose) :
    s.behindClose conn next = .resetSocket conn next ∨ s.behindClose conn next = next.pc conn := by
  unfold State.behindClose
  split
  · exact .inl rfl
  · exact .inr rfl

theorem append_step {ok : Bool} (conn : Conn) (n : Nat) :
    WorkerStep cfg fb s ok (.append conn n) (s.workerStep cfg fb ok (.append conn n)).1
      (s.workerStep cfg fb ok (.append conn n)).2 := by
  simp only [State.workerStep]
  cases ha : (s.pool conn.client).frameBuf.append (s.received conn.client n) with
  | mk fit frameBuf =>
    cases fit with
    | true => exact .append ha
    | false =>
      refine .overflow ?_
      rw [← Bool.not_eq_false]
      intro hov
      simp [FrameBuffer.append, hov] at ha

theorem assemble_step {ok : Bool} (conn : Conn) :
    WorkerStep cfg fb s ok (.assemble conn) (s.workerStep cfg fb ok (.assemble conn)).1
      (s.workerStep cfg fb ok (.assemble conn)).2 := by
  simp only [State.workerStep]
  cases hi : inspect fb (s.pool conn.client).frameBuf.data with
  | incomplete => exact .incomplete hi
  | tooLarge => exact .tooLarge hi
  | invalid frameSize => exact .invalid hi
  | command payloadType payload frameSize => exact .command hi

/-- **Inversion.** Every step of a busy worker is one of these. -/
theorem workerStep_inv {ok : Bool} {pc : WorkerPc} (hidle : pc ≠ .idle) (hleft : pc ≠ .left) :
    WorkerStep cfg fb s ok pc (s.workerStep cfg fb ok pc).1 (s.workerStep cfg fb ok pc).2 := by
  cases pc with
  | idle => exact absurd rfl hidle
  | left => exact absurd rfl hleft
  | findAvailableClient h =>
    simp only [State.workerStep]
    cases hf : s.findAvailableClient cfg with
    | none => exact .full hf
    | some client => exact .found hf
  | assignSocket h client => exact .assign
  | associateSocket conn =>
    simp only [State.workerStep]
    cases h : ok && (s.pool conn.client).isConnected with
    | true => exact .associate (Bool.and_eq_true_iff.mp h).2
    | false => exact .associateFailed h
  | postFirstRecv conn =>
    simp only [State.workerStep]
    cases h : s.canPostRecv conn.client ok with
    | true => exact .firstRecv h
    | false => exact .firstRecvFailed h
  | markConnectionEstablished conn => exact .mark
  | onAccept conn => exact .onAccept
  | kickDisconnected conn => exact .kick
  | removeByClient conn => exact .remove
  | closeClient conn =>
    simp only [State.workerStep, State.closeClient]
    cases h : (s.pool conn.client).isConnected with
    | true => exact .close h
    | false => exact .alreadyClosed h
  | append conn n => exact append_step conn n
  | assemble conn => exact assemble_step conn
  | consume conn frameSize => exact .consume
  | postNextRecv conn =>
    simp only [State.workerStep, State.closeClient]
    cases h : s.canPostRecv conn.client ok with
    | true => exact .nextRecv h
    | false =>
      cases hc : (s.pool conn.client).isConnected with
      | true => exact .nextRecvFailed h hc
      | false => exact .nextRecvClosed hc
  | resetSocket conn next => exact .reset

/-! ## Completions -/

/-- A receive that is not aborted is handled: as the end of the connection or as data. -/
theorem onRecvDequeued_cases (conn : Conn) (result : IoResult) :
    result.aborted = true ∧ onRecvDequeued conn result = .left ∨
      result.aborted = false ∧ (onRecvDequeued conn result = .kickDisconnected conn ∨
        ∃ n, onRecvDequeued conn result = .append conn n) := by
  cases result with
  | done data =>
    refine Or.inr ⟨rfl, ?_⟩
    by_cases hd : data = []
    · subst hd
      exact Or.inl rfl
    · refine Or.inr ⟨data.length, ?_⟩
      have hlen : (data.length == 0) = false := by simpa using hd
      simp [onRecvDequeued, onDequeued, IoResult.dequeued, Dequeued.isShutdown,
        Dequeued.isAborted, Dequeued.toEvent, handleRecv, hlen]
  | failed error =>
    cases he : error == ERROR_OPERATION_ABORTED with
    | true =>
      refine Or.inl ⟨he, ?_⟩
      simp [onRecvDequeued, onDequeued, IoResult.dequeued, Dequeued.isShutdown,
        Dequeued.isAborted, he]
    | false =>
      refine Or.inr ⟨he, Or.inl ?_⟩
      simp [onRecvDequeued, onDequeued, IoResult.dequeued, Dequeued.isShutdown,
        Dequeued.isAborted, Dequeued.toEvent, handleRecv, he]

theorem onSendDequeued_cases (conn : Conn) (result : IoResult) :
    onSendDequeued conn result = .left ∨ onSendDequeued conn result = .idle := by
  unfold onSendDequeued
  split
  · exact Or.inl rfl
  · exact Or.inr rfl

/-! ## Sockets -/

/-- The slots keep their connections or lose their sockets. -/
structure NoNewSocket (s t : State) : Prop where
  epoch : t.epoch = s.epoch
  socket : ∀ i, (t.pool i).socket = (s.pool i).socket ∨ (t.pool i).socket = none

theorem noNewSocket_of_same (he : t.epoch = s.epoch)
    (hs : ∀ i, (t.pool i).socket = (s.pool i).socket) : NoNewSocket s t :=
  ⟨he, fun i => Or.inl (hs i)⟩

theorem NoNewSocket.isConnected (h : NoNewSocket s t) {i : Slot}
    (hc : (t.pool i).isConnected = true) : (s.pool i).isConnected = true := by
  rcases h.socket i with he | he
  · simpa [Client.isConnected, he] using hc
  · simp [Client.isConnected, he] at hc

/-- Writing a client back with its socket kept or dropped. -/
theorem update_socket (pool : Pool) (client : Slot) (c : Client)
    (h : c.socket = (pool client).socket ∨ c.socket = none) (i : Slot) :
    (Function.update pool client c i).socket = (pool i).socket ∨
      (Function.update pool client c i).socket = none := by
  by_cases hi : i = client
  · subst hi
    simpa using h
  · simp [hi]

theorem noNewSocket_closeSocket (s : State) (client : Slot) :
    NoNewSocket s (s.closeSocket client) :=
  ⟨rfl, update_socket s.pool client _ (Or.inl rfl)⟩

theorem noNewSocket_resetSocket (s : State) (client : Slot) :
    NoNewSocket s (s.resetSocket client) :=
  ⟨rfl, update_socket s.pool client _ (Or.inr rfl)⟩

theorem LogicStep.noNewSocket {choice : Choice} (h : LogicStep s choice t) : NoNewSocket s t := by
  cases h with
  | @reject cmd batch | @rejectClosed cmd batch =>
    exact ⟨rfl, (noNewSocket_closeSocket { s with batch } cmd.client).socket⟩
  | @reset cmd => exact ⟨rfl, (noNewSocket_resetSocket s cmd.client).socket⟩
  | joinEnter _ hsent => exact noNewSocket_of_same rfl hsent.socket
  | joinReply _ hsent => exact noNewSocket_of_same rfl hsent.socket
  | leaveRoom _ _ _ hsent => exact noNewSocket_of_same rfl hsent.socket
  | leaveReply _ hsent => exact noNewSocket_of_same rfl hsent.socket
  | chatSend _ hsent => exact noNewSocket_of_same rfl hsent.socket
  | _ => exact noNewSocket_of_same rfl fun _ => rfl

theorem WorkerStep.noNewSocket {ok : Bool} {pc pc' : WorkerPc}
    (h : WorkerStep cfg fb s ok pc t pc') (hpc : ∀ k client, pc ≠ .assignSocket k client) :
    NoNewSocket s t := by
  cases h with
  | assign => exact absurd rfl (hpc _ _)
  | associateFailed | firstRecvFailed | close | tooLarge | invalid | nextRecvFailed =>
    exact noNewSocket_closeSocket s _
  | overflow => exact ⟨rfl, (noNewSocket_closeSocket s _).socket⟩
  | reset => exact noNewSocket_resetSocket s _
  | mark | append | command | consume => exact ⟨rfl, update_socket s.pool _ _ (Or.inl rfl)⟩
  | _ => exact noNewSocket_of_same rfl fun _ => rfl

theorem LogicStep.network {choice : Choice} (h : LogicStep s choice t) :
    t.workers = s.workers ∧ t.recvs = s.recvs := by
  cases h <;> exact ⟨rfl, rfl⟩

/-- Workers leave users and handler alone, and the rooms too unless they kick. -/
theorem WorkerStep.registry {ok : Bool} {pc pc' : WorkerPc}
    (h : WorkerStep cfg fb s ok pc t pc') :
    t.users = s.users ∧ t.handler = s.handler ∧
      (t.rooms = s.rooms ∨ ∃ conn, pc = .kickDisconnected conn ∧
        t.rooms = s.rooms.kickDisconnected s.pool conn.client) := by
  cases h with
  | kick => exact ⟨rfl, rfl, Or.inr ⟨_, rfl, rfl⟩⟩
  | _ => exact ⟨rfl, rfl, Or.inl rfl⟩

/-! ## Labels -/

theorem step_accepted {w : Nat} {h : SocketHandle}
    (hs : s.step cfg fb (.accepted w h) = some t) :
    s.workers[w]? = some .idle ∧ h ∉ s.sockets ∧
      t = { s with sockets := h :: s.sockets
                   workers := s.workers.set w (.findAvailableClient h) } := by
  simp only [State.step, State.waiting, Option.ite_none_right_eq_some, Bool.and_eq_true,
    beq_iff_eq, Bool.not_eq_true', List.contains_eq_mem, decide_eq_false_iff_not] at hs
  obtain ⟨⟨hw, hh⟩, ht⟩ := hs
  exact ⟨hw, hh, (Option.some.inj ht).symm⟩

theorem step_arrive {conn : Conn} {data : List UInt8}
    (hs : s.step cfg fb (.arrive conn data) = some t) :
    s.pending conn = true ∧ data ≠ [] ∧ data.length ≤ recvBufferSize ∧
      t = { s with
        recvBufs := Function.update s.recvBufs conn.client
          (data ++ (s.recvBufs conn.client).drop data.length)
        arrived := s.arrived ++ [(conn, data)] } := by
  simp only [State.step, Option.ite_none_right_eq_some, Bool.and_eq_true, bne_iff_ne,
    decide_eq_true_eq] at hs
  obtain ⟨⟨⟨hpending, hdata⟩, hfits⟩, ht⟩ := hs
  exact ⟨hpending, hdata, hfits, (Option.some.inj ht).symm⟩

theorem step_recvDone {w : Nat} {conn : Conn} {result : IoResult}
    (hs : s.step cfg fb (.recvDone w conn result) = some t) :
    s.workers[w]? = some .idle ∧ conn ∈ s.recvs ∧
      t = { s with recvs := s.recvs.erase conn
                   arrived := s.stillArrived conn result
                   workers := s.workers.set w (onRecvDequeued conn result) } := by
  simp only [State.step, State.waiting, Option.ite_none_right_eq_some, Bool.and_eq_true,
    beq_iff_eq, List.contains_eq_mem, decide_eq_true_eq] at hs
  obtain ⟨⟨⟨hw, hc⟩, -⟩, ht⟩ := hs
  exact ⟨hw, hc, (Option.some.inj ht).symm⟩

theorem step_reports {w : Nat} {conn : Conn} {result : IoResult}
    (hs : s.step cfg fb (.recvDone w conn result) = some t) : s.reports conn result = true := by
  simp only [State.step, Option.ite_none_right_eq_some, Bool.and_eq_true] at hs
  exact hs.1.2

theorem step_sendDone {w : Nat} {conn : Conn} {result : IoResult}
    (hs : s.step cfg fb (.sendDone w conn result) = some t) :
    s.workers[w]? = some .idle ∧ conn ∈ s.sends ∧
      t = { s with sends := s.sends.erase conn
                   workers := s.workers.set w (onSendDequeued conn result) } := by
  simp only [State.step, State.waiting, Option.ite_none_right_eq_some, Bool.and_eq_true,
    beq_iff_eq, List.contains_eq_mem, decide_eq_true_eq] at hs
  obtain ⟨⟨hw, hc⟩, ht⟩ := hs
  exact ⟨hw, hc, (Option.some.inj ht).symm⟩

theorem WorkerStep.workers {ok : Bool} {pc pc' : WorkerPc}
    (h : WorkerStep cfg fb s ok pc t pc') : t.workers = s.workers := by
  cases h <;> rfl

theorem step_worker {w : Nat} {ok : Bool} (hs : s.step cfg fb (.worker w ok) = some t) :
    ∃ pc u pc', s.workers[w]? = some pc ∧ WorkerStep cfg fb s ok pc u pc' ∧
      t = { u with workers := s.workers.set w pc' } := by
  simp only [State.step] at hs
  split at hs
  · simp at hs
  · simp at hs
  · simp at hs
  · rename_i pc hidle hleft hw
    have hstep : WorkerStep cfg fb s ok pc _ _ :=
      workerStep_inv (fun h => hidle h) (fun h => hleft h)
    refine ⟨pc, _, _, hw, hstep, (Option.some.inj hs).symm.trans ?_⟩
    rw [State.setWorker, hstep.workers]

theorem mem_set_of_ne {workers : List WorkerPc} {old pc pc' : WorkerPc} {w : Nat}
    (hw : workers[w]? = some old) (hm : pc ∈ workers) (hne : pc ≠ old) :
    pc ∈ workers.set w pc' := by
  obtain ⟨i, hi, rfl⟩ := List.mem_iff_getElem.mp hm
  have hiw : w ≠ i := by
    rintro rfl
    rw [List.getElem?_eq_getElem hi] at hw
    exact hne (Option.some.inj hw)
  rw [← List.getElem_set_ne hiw (a := pc') (by simpa using hi)]
  exact List.getElem_mem _

theorem mem_set_self {workers : List WorkerPc} {old pc : WorkerPc} {w : Nat}
    (hw : workers[w]? = some old) : pc ∈ workers.set w pc :=
  List.mem_set (List.getElem?_eq_some_iff.mp hw).1 pc

theorem step_tick (hs : s.step cfg fb .tick = some t) :
    s.handler = .ready ∧ s.batch = [] ∧ t = { s with batch := s.queue, queue := [] } := by
  simp only [State.step] at hs
  split at hs
  · rename_i hr hb
    exact ⟨hr, hb, (Option.some.inj hs).symm⟩
  · simp at hs

/-! ## Schedules -/

def HandlerPc.isReady : HandlerPc → Bool
  | .ready => true
  | _ => false

theorem HandlerPc.isReady_iff {pc : HandlerPc} : pc.isReady = true ↔ pc = .ready := by
  cases pc <;> simp [isReady]

/-- Two workers, two slots, ten users to a room. -/
def smallServer : Config := ⟨2, 2, 10⟩

/-- Worker `w` accepts a socket and runs `SetupClient` to its end. -/
def accepts (w : Nat) (acceptSocket : SocketHandle) : List Label :=
  .accepted w acceptSocket :: List.replicate 6 (.worker w true)

/-- Worker `w` handles a receive that brings `frames` whole frames. -/
def receives (w : Nat) (conn : Conn) (data : List UInt8) (frames : Nat) : List Label :=
  [.arrive conn data, .recvDone w conn (.done data)] ++
    List.replicate (frames + 3) (.worker w true)

/-- Worker `w` handles a receive on which `Receive` closes the client. -/
def refuses (w : Nat) (conn : Conn) (data : List UInt8) : List Label :=
  [.arrive conn data, .recvDone w conn (.done data)] ++ List.replicate 4 (.worker w true)

/-- Worker `w` handles the end of a connection. -/
def disconnects (w : Nat) (conn : Conn) : List Label :=
  .recvDone w conn (.done []) :: List.replicate 4 (.worker w true)

/-- The logic thread drains the queue and takes `steps` steps. -/
def ticks (steps : Nat) : List Label := .tick :: List.replicate steps (.logic ⟨0, ⟨0, 0⟩, []⟩)

end Highp.Chat
