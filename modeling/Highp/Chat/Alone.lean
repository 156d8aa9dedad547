import Highp.Chat.Receive
import Highp.Chat.RoomSteps
import Highp.Network.LegalStream

/-! Requests that nobody interrupts: a frame that one worker receives, a join and a leave that the
logic thread carries out in one go. -/

namespace Highp.Chat
open Highp.Lib Highp.Network

variable {cfg : Config} {fb : FlatBuffers} {s t u : State}

/-! ## What a handler leaves alone -/

structure Undisturbed (s t : State) : Prop where
  workers : t.workers = s.workers
  recvs : t.recvs = s.recvs
  arrived : t.arrived = s.arrived
  epoch : t.epoch = s.epoch
  queue : t.queue = s.queue
  sessions : t.sessions = s.sessions
  socket : ∀ i, (t.pool i).socket = (s.pool i).socket
  frameBuf : ∀ i, (t.pool i).frameBuf = (s.pool i).frameBuf

theorem Undisturbed.trans (h : Undisturbed s t) (h' : Undisturbed t u) : Undisturbed s u where
  workers := h'.workers.trans h.workers
  recvs := h'.recvs.trans h.recvs
  arrived := h'.arrived.trans h.arrived
  epoch := h'.epoch.trans h.epoch
  queue := h'.queue.trans h.queue
  sessions := h'.sessions.trans h.sessions
  socket i := (h'.socket i).trans (h.socket i)
  frameBuf i := (h'.frameBuf i).trans (h.frameBuf i)

theorem send_frameBuf (fb : FlatBuffers) (s : State) (session : Session) (packet : ServerPacket)
    (accepted : Bool) (i : Slot) :
    ((s.send fb session packet accepted).pool i).frameBuf = (s.pool i).frameBuf := by
  unfold State.send
  split
  · rfl
  · split
    · rfl
    · split
      · rfl
      · by_cases hi : i = session.tcpClient
        · subst hi
          simp [State.postSend]
        · simp [State.postSend, hi]

theorem sendAll_frameBuf (fb : FlatBuffers) (packet : ServerPacket) (refused : List Nat)
    (users : List User) (s : State) (k : Nat) (i : Slot) :
    ((s.sendAll fb packet refused k users).pool i).frameBuf = (s.pool i).frameBuf := by
  induction users generalizing s k with
  | nil => rfl
  | cons user users ih =>
    rw [State.sendAll, ih]
    exact send_frameBuf fb s user.session packet _ i

/-- Sending leaves everything but buffers, operations in flight and the log as it is. -/
theorem sendAll_quiet (fb : FlatBuffers) (packet : ServerPacket) (refused : List Nat)
    (users : List User) (s : State) (k : Nat) :
    ∃ pool sends log, s.sendAll fb packet refused k users =
        { s with pool := pool, sends := sends, log := log } ∧
      (∀ i, (pool i).socket = (s.pool i).socket) ∧
      ∀ i, (pool i).frameBuf = (s.pool i).frameBuf := by
  obtain ⟨pool, sends, evs, he, hsent⟩ := sendAll_sent fb packet refused users s k
  refine ⟨pool, sends, s.log ++ evs, he, hsent.socket, fun i => ?_⟩
  have hf := sendAll_frameBuf fb packet refused users s k i
  rwa [he] at hf

/-! ## Joining -/

/-- The clock and the choices of a thread that is left alone. -/
def Choice.plain : Choice := ⟨0, ⟨0, 0⟩, []⟩

theorem reach_logic (h : (chatServer cfg fb).Reach System.always s)
    (hs : s.logicStep fb .plain = some t) : (chatServer cfg fb).Reach System.always t :=
  .next (l := .logic .plain) h trivial hs

/-- **A join that nobody interrupts** makes a user and puts it into the room. -/
theorem join_alone {cmd : PacketCommand} {rest : List PacketCommand} {sequence i : Nat}
    {username : Text} {session : Session} {user : User}
    (h : (chatServer cfg fb).Reach System.always s) (hh : s.handler = .ready)
    (hb : s.batch = cmd :: rest)
    (hp : fb.getPacket cmd.data = some ⟨.joinRoomRequest (some ⟨username⟩), sequence⟩)
    (hroom : s.rooms.getOrCreateAvailableRoom = (s.rooms, i))
    (hsession : s.sessions.getSessionByClient s.pool cmd.client 0 = some session)
    (hnobody : s.users.getUserByClient s.pool cmd.client 0 = none)
    (huser : user = s.users.makeUser session (username.takeWhile (· != 0)) (s.rooms.roomAt i).id
      cmd.conn) :
    ∃ t, (chatServer cfg fb).Reach System.always t ∧ t.handler = .ready ∧ t.batch = rest ∧
      Undisturbed s t ∧ t.users = s.users.addUser user ∧
      t.rooms = s.rooms.setRoom i ((s.rooms.roomAt i).join user).2 := by
  let call : Call := ⟨cmd, sequence⟩
  let name := username.takeWhile (· != 0)
  have r1 := reach_logic h (t := { s with batch := rest, handler := .joinRoom call name })
    (by simp [State.logicStep, hh, hb, State.dispatch, hp, call, name])
  have r2 := reach_logic r1 (t := { s with batch := rest, handler := .joinSession call name i })
    (by simp [State.logicStep, hroom])
  have r3 := reach_logic r2
    (t := { s with batch := rest, handler := .joinUser call name i session })
    (by simp [State.logicStep, Choice.plain, call, hsession])
  have r4 := reach_logic r3 (t := { s with
      batch := rest, users := s.users.addUser user, handler := .joinEnter call i user
      log := s.log ++ [.touched cmd.conn user] })
    (by simp [State.logicStep, Choice.plain, call, hnobody, huser, name])
  obtain ⟨pool, sends, log, he, hsocket, hframe⟩ := sendAll_quiet fb
    (.userJoinedBroadcast ((s.rooms.roomAt i).id % 2 ^ 32) user.id user.username) []
    ((s.rooms.roomAt i).join user).1
    { s with
      batch := rest, users := s.users.addUser user, handler := .joinEnter call i user
      log := s.log ++ [.touched cmd.conn user] } 0
  have r5 := reach_logic r4 (t := { s with
      pool := pool, sends := sends, log := log, batch := rest, users := s.users.addUser user
      rooms := s.rooms.setRoom i ((s.rooms.roomAt i).join user).2
      handler := .joinReply call user }) (by simp only [State.logicStep, Choice.plain, he])
  obtain ⟨pool', sends', log', he', hsocket', hframe'⟩ := sendAll_quiet fb
    (.joinedRoomResponse sequence) [] [user]
    { s with
      pool := pool, sends := sends, log := log, batch := rest, users := s.users.addUser user
      rooms := s.rooms.setRoom i ((s.rooms.roomAt i).join user).2
      handler := .joinReply call user } 0
  have r6 := reach_logic r5 (t := { s with
      pool := pool', sends := sends', log := log', batch := rest, users := s.users.addUser user
      rooms := s.rooms.setRoom i ((s.rooms.roomAt i).join user).2, handler := .ready }) (by
    simp only [State.sendAll] at he'
    simp only [State.logicStep, Choice.plain, call]
    rw [he'])
  exact ⟨_, r6, rfl, rfl, ⟨rfl, rfl, rfl, rfl, rfl, rfl,
    fun j => (hsocket' j).trans (hsocket j), fun j => (hframe' j).trans (hframe j)⟩, rfl, rfl⟩

/-! ## Leaving -/

/-- **A leave that nobody interrupts** takes the user out of its room and out of the registry. -/
theorem leave_alone {cmd : PacketCommand} {rest : List PacketCommand} {sequence i : Nat}
    {request : LeaveRoomRequest} {user found : User} {others : List User} {left : Room}
    (h : (chatServer cfg fb).Reach System.always s) (hh : s.handler = .ready)
    (hb : s.batch = cmd :: rest)
    (hp : fb.getPacket cmd.data = some ⟨.leaveRoomRequest (some request), sequence⟩)
    (huser : s.users.getUserByClient s.pool cmd.client 0 = some user)
    (hroom : s.rooms.getRoom user.roomId = some i)
    (hleave : (s.rooms.roomAt i).leave user.id = some (found, others, left)) :
    ∃ t, (chatServer cfg fb).Reach System.always t ∧ t.handler = .ready ∧ t.batch = rest ∧
      Undisturbed s t ∧ t.users = s.users.removeUserByUserId user.id ∧
      t.rooms = s.rooms.setRoom i left := by
  let call : Call := ⟨cmd, sequence⟩
  have h1 := reach_logic h (t := { s with batch := rest, handler := .leaveFind call })
    (by simp [State.logicStep, hh, hb, State.dispatch, hp, call])
  have h2 := reach_logic h1 (t := { s with
      batch := rest, handler := .leaveRoom call user, log := s.log ++ [.touched cmd.conn user] })
    (by simp [State.logicStep, Choice.plain, call, huser])
  obtain ⟨pool, sends, log, he, hsocket, hframe⟩ := sendAll_quiet fb
    (.userLeftBroadcast user.id found.username) [] others
    { s with
      batch := rest, handler := .leaveRoom call user
      log := s.log ++ [.touched cmd.conn user] } 0
  have h3 := reach_logic h2 (t := { s with
      pool := pool, sends := sends, log := log, batch := rest, rooms := s.rooms.setRoom i left
      handler := .leaveReply call user })
    (by simp only [State.logicStep, Choice.plain, hroom, hleave, he])
  obtain ⟨pool', sends', log', he', hsocket', hframe'⟩ := sendAll_quiet fb
    (.leftRoomResponse sequence) [] [user]
    { s with
      pool := pool, sends := sends, log := log, batch := rest, rooms := s.rooms.setRoom i left
      handler := .leaveReply call user } 0
  have h4 := reach_logic h3 (t := { s with
      pool := pool', sends := sends', log := log', batch := rest
      rooms := s.rooms.setRoom i left, handler := .leaveRemove call user }) (by
    simp only [State.sendAll] at he'
    simp only [State.logicStep, Choice.plain, call]
    rw [he'])
  have h5 := reach_logic h4 (t := { s with
      pool := pool', sends := sends', batch := rest, rooms := s.rooms.setRoom i left
      users := s.users.removeUserByUserId user.id, handler := .ready
      log := log' ++ (s.users.users.filter fun u => u.id == user.id).map
        (Event.touched cmd.conn) }) (by simp only [State.logicStep]; rfl)
  exact ⟨_, h5, rfl, rfl, ⟨rfl, rfl, rfl, rfl, rfl, rfl,
    fun j => (hsocket' j).trans (hsocket j), fun j => (hframe' j).trans (hframe j)⟩, rfl, rfl⟩

/-! ## Speaking -/

/-- A chat message up to its broadcast. -/
theorem chat_alone {cmd : PacketCommand} {rest : List PacketCommand} {sequence : Nat}
    {request : SendMessageRequest} {user : User} (h : (chatServer cfg fb).Reach System.always s)
    (hh : s.handler = .ready) (hb : s.batch = cmd :: rest)
    (hp : fb.getPacket cmd.data = some ⟨.sendMessageRequest (some request), sequence⟩)
    (huser : s.users.getUserByClient s.pool cmd.client 0 = some user) :
    (chatServer cfg fb).Reach System.always { s with
      batch := rest, handler := .chatSend ⟨cmd, sequence⟩ request.message user
      log := s.log ++ [.touched cmd.conn user] } := by
  have h1 := reach_logic h
    (t := { s with batch := rest, handler := .chatFind ⟨cmd, sequence⟩ request.message })
    (by simp [State.logicStep, hh, hb, State.dispatch, hp])
  exact reach_logic h1 (by simp [State.logicStep, Choice.plain, huser])

/-! ## Receiving -/

/-- Worker `w` is handling a receive since `s`, and nobody else has done anything. -/
structure Hearing (s : State) (w : Nat) (pc : WorkerPc) (t : State) : Prop where
  workers : t.workers = s.workers.set w pc
  epoch : t.epoch = s.epoch
  sessions : t.sessions = s.sessions
  users : t.users = s.users
  rooms : t.rooms = s.rooms
  handler : t.handler = s.handler
  batch : t.batch = s.batch
  socket : ∀ i, (t.pool i).socket = (s.pool i).socket

theorem Hearing.at_worker {w : Nat} {pc pc' : WorkerPc} (h : Hearing s w pc' t)
    (hw : s.workers[w]? = some pc) : t.workers[w]? = some pc' := by
  rw [h.workers]
  exact List.getElem?_set_self (List.getElem?_eq_some_iff.mp hw).1

/-- The worker goes on: its step leaves everything alone but its own client and the queue. -/
theorem Hearing.next {w : Nat} {pc pc' : WorkerPc} (h : Hearing s w pc t)
    (hsame : Hearing t w pc' u) : Hearing s w pc' u where
  workers := by rw [hsame.workers, h.workers, List.set_set]
  epoch := hsame.epoch.trans h.epoch
  sessions := hsame.sessions.trans h.sessions
  users := hsame.users.trans h.users
  rooms := hsame.rooms.trans h.rooms
  handler := hsame.handler.trans h.handler
  batch := hsame.batch.trans h.batch
  socket i := (hsame.socket i).trans (h.socket i)

theorem reach_worker {w : Nat} {pc : WorkerPc} (h : (chatServer cfg fb).Reach System.always s)
    (hw : s.workers[w]? = some pc) (hidle : pc ≠ .idle) (hleft : pc ≠ .left) :
    (chatServer cfg fb).Reach System.always
      ((s.workerStep cfg fb true pc).1.setWorker w (s.workerStep cfg fb true pc).2) :=
  .next (l := .worker w true) h trivial (step_worker_eq hw hidle hleft)

theorem setFrameBuf_socket_update (pool : Pool) (client : Slot) (f : FrameBuffer) (i : Slot) :
    (Function.update pool client ((pool client).setFrameBuf f) i).socket = (pool i).socket := by
  by_cases hi : i = client
  · subst hi
    simp
  · simp [hi]

/-- `Append` of bytes that fit. -/
theorem append_alone {w n : Nat} {conn : Conn} {data : List UInt8}
    (h : (chatServer cfg fb).Reach System.always s)
    (hw : s.workers[w]? = some (.append conn n)) (hdata : s.received conn.client n = data)
    (hempty : (s.pool conn.client).frameBuf.data = []) (hfits : data.length ≤ maxFrameSize) :
    ∃ t, (chatServer cfg fb).Reach System.always t ∧ Hearing s w (.assemble conn) t ∧
      t.recvs = s.recvs ∧ t.arrived = s.arrived ∧ t.queue = s.queue ∧
      (t.pool conn.client).frameBuf.data = data := by
  have hspace : (s.pool conn.client).frameBuf.len + data.length ≤ maxFrameSize := by
    rw [FrameBuffer.data_eq_nil.mp hempty, Nat.zero_add]
    exact hfits
  obtain ⟨hok, happended⟩ := FrameBuffer.append_ok hspace
  have hr := reach_worker h hw (by simp) (by simp)
  cases happend : (s.pool conn.client).frameBuf.append data with
  | mk ok f =>
    rw [happend] at hok happended
    simp only [hempty, List.nil_append] at hok happended
    subst hok
    simp only [State.workerStep, hdata, happend] at hr
    refine ⟨_, hr, ⟨rfl, rfl, rfl, rfl, rfl, rfl, rfl, ?_⟩, rfl, rfl, rfl, ?_⟩
    · exact setFrameBuf_socket_update s.pool conn.client f
    · simp [State.setWorker, State.setClient, happended]

theorem inspect_frameBytes {payload : List UInt8} {packet : Packet}
    (hlen : payload.length ≤ maxFrameSize) (hp : parsePacket fb payload = some packet) :
    inspect fb (frameBytes payload) =
      .command packet.payload.type payload (4 + payload.length) := by
  have hn : ofBE32 (frameBytes payload) = payload.length := by
    simpa using ofBE32_frameBytes hlen []
  have hlen4 : (frameBytes payload).length = 4 + payload.length := length_frameBytes payload
  have hdrop : (frameBytes payload).drop 4 = payload := rfl
  simp only [inspect, byteSwap32_load, kHeaderSize, hn, hlen4, hdrop, List.take_length, hp]
  rw [if_neg (by omega), if_neg (by omega), if_neg (by omega)]

/-- One round that finds a whole frame and nothing behind it. -/
theorem command_alone {w : Nat} {conn : Conn} {packet : Packet} {payload : List UInt8}
    (h : (chatServer cfg fb).Reach System.always s) (hw : s.workers[w]? = some (.assemble conn))
    (hdata : (s.pool conn.client).frameBuf.data = frameBytes payload)
    (hlen : payload.length ≤ maxFrameSize) (hp : parsePacket fb payload = some packet) :
    ∃ t, (chatServer cfg fb).Reach System.always t ∧ Hearing s w (.assemble conn) t ∧
      t.recvs = s.recvs ∧ t.arrived = s.arrived ∧
      t.queue = s.queue ++ [⟨conn.client, packet.payload.type, payload, conn.epoch⟩] ∧
      (t.pool conn.client).frameBuf.data = [] := by
  have hr := reach_worker h hw (by simp) (by simp)
  have hframe := inspect_frameBytes hlen hp
  simp only [State.workerStep, hdata, hframe] at hr
  refine ⟨_, hr, ⟨rfl, rfl, rfl, rfl, rfl, rfl, rfl, ?_⟩, rfl, rfl, rfl, ?_⟩
  · exact setFrameBuf_socket_update s.pool conn.client _
  · have hlen : (frameBytes payload).length = 4 + payload.length := length_frameBytes payload
    simp only [State.setWorker, State.setClient, Function.update_self,
      Client.setFrameBuf_frameBuf, FrameBuffer.data_consume, hdata]
    exact List.drop_of_length_le (Nat.le_of_eq hlen)

/-- The kernel writes a receive, and a worker that waits dequeues it. -/
theorem dequeue_alone {w : Nat} {conn : Conn} {data : List UInt8}
    (h : (chatServer cfg fb).Reach System.always s) (hw : s.workers[w]? = some .idle)
    (hrecv : conn ∈ s.recvs) (harrived : s.arrived = []) (hne : data ≠ [])
    (hfits : data.length ≤ recvBufferSize) :
    ∃ t, (chatServer cfg fb).Reach System.always t ∧ Hearing s w (.append conn data.length) t ∧
      t.received conn.client data.length = data ∧ t.arrived = [] ∧ t.pool = s.pool ∧
      t.queue = s.queue := by
  have h1 : (chatServer cfg fb).Reach System.always
      { s with recvBufs := Function.update s.recvBufs conn.client
                 (data ++ (s.recvBufs conn.client).drop data.length)
               arrived := [(conn, data)] } := by
    refine .next (l := .arrive conn data) h trivial ?_
    have hpending : s.pending conn = true := by
      simp [State.pending, harrived, List.count_pos_iff.mpr hrecv]
    simp [chatServer, State.step, hpending, hne, hfits, harrived]
  have hpc : onRecvDequeued conn (.done data) = .append conn data.length := by
    simp [onRecvDequeued, onDequeued, IoResult.dequeued, Dequeued.isShutdown, Dequeued.isAborted,
      Dequeued.toEvent, handleRecv, hne]
  have hreports : State.reports { s with
      recvBufs := Function.update s.recvBufs conn.client
        (data ++ (s.recvBufs conn.client).drop data.length)
      arrived := [(conn, data)] } conn (.done data) = true := by
    cases data with
    | nil => exact absurd rfl hne
    | cons byte data => simp [State.reports]
  refine ⟨{ s with
      recvBufs := Function.update s.recvBufs conn.client
        (data ++ (s.recvBufs conn.client).drop data.length)
      recvs := s.recvs.erase conn
      arrived := []
      workers := s.workers.set w (.append conn data.length) },
    .next (l := .recvDone w conn (.done data)) h1 trivial ?_,
    ⟨rfl, rfl, rfl, rfl, rfl, rfl, rfl, fun _ => rfl⟩, ?_, rfl, rfl, rfl⟩
  · simp [chatServer, State.step, State.waiting, hw, hrecv, hreports, hpc, State.setWorker,
      State.stillArrived]
  · simp [State.received]

/-- **A receive that nobody interrupts**, with one frame in it: its command is at the end of the
queue, and the connection has a receive outstanding again. -/
theorem frame_alone {w : Nat} (conn : Conn) {packet : Packet} {payload : List UInt8}
    (h : (chatServer cfg fb).Reach System.always s) (hw : s.workers[w]? = some .idle)
    (hrecv : conn ∈ s.recvs) (harrived : s.arrived = [])
    (hepoch : s.epoch conn.client = conn.epoch)
    (hconn : (s.pool conn.client).isConnected = true)
    (hempty : (s.pool conn.client).frameBuf.data = [])
    (hfits : 4 + payload.length ≤ recvBufferSize) (hp : parsePacket fb payload = some packet) :
    ∃ t, (chatServer cfg fb).Reach System.always t ∧ Hearing s w .idle t ∧ conn ∈ t.recvs ∧
      t.arrived = [] ∧
      t.queue = s.queue ++ [⟨conn.client, packet.payload.type, payload, conn.epoch⟩] ∧
      (t.pool conn.client).frameBuf.data = [] := by
  have hlen : (frameBytes payload).length = 4 + payload.length := length_frameBytes payload
  obtain ⟨t1, h1, he1, hdata, ha1, hpool, hq1⟩ := dequeue_alone h hw hrecv harrived
    (List.length_pos_iff.mp (by omega)) (hlen ▸ hfits)
  have hmax : (frameBytes payload).length ≤ maxFrameSize := by
    rw [hlen]
    exact Nat.le_trans hfits (by decide)
  obtain ⟨t2, h2, he2, -, ha2, hq2, hd2⟩ := append_alone h1 (he1.at_worker hw) hdata
    (hpool ▸ hempty) hmax
  have he2' := he1.next he2
  obtain ⟨t3, h3, he3, -, ha3, hq3, hd3⟩ := command_alone h2 (he2'.at_worker hw) hd2
    (by omega) hp
  have he3' := he2'.next he3
  have h4 := reach_worker h3 (he3'.at_worker hw) (by simp) (by simp)
  have hnil : inspect fb [] = .incomplete := rfl
  simp only [State.workerStep, hd3, hnil] at h4
  have he4 : Hearing s w (.postNextRecv conn) (t3.setWorker w (.postNextRecv conn)) :=
    he3'.next ⟨rfl, rfl, rfl, rfl, rfl, rfl, rfl, fun _ => rfl⟩
  have hpost : (t3.setWorker w (.postNextRecv conn)).canPostRecv conn.client true = true := by
    simpa [State.canPostRecv, Client.isConnected, he4.socket] using hconn
  have h5 := reach_worker h4 (he4.at_worker hw) (by simp) (by simp)
  simp only [State.workerStep, hpost, if_true] at h5
  have hcurrent : t3.current conn.client = conn := by
    rw [State.current, he3'.epoch, hepoch]
  refine ⟨_, h5, he4.next ⟨rfl, rfl, rfl, rfl, rfl, rfl, rfl, fun _ => rfl⟩, ?_,
    ha3.trans (ha2.trans ha1), ?_, hd3⟩
  · exact List.mem_append_right _ (List.mem_singleton.mpr hcurrent.symm)
  · show t3.queue = _
    rw [hq3, hq2, hq1]

/-! ## One request after the other -/

/-- Nothing is under way: worker `w` waits, `batch` is to be dispatched, and `conn` may send its
next request. -/
structure Settled (cfg : Config) (fb : FlatBuffers) (w : Nat) (conn : Conn)
    (batch : List PacketCommand) (s : State) : Prop where
  reach : (chatServer cfg fb).Reach System.always s
  worker : s.workers[w]? = some .idle
  recv : conn ∈ s.recvs
  arrived : s.arrived = []
  epoch : s.epoch conn.client = conn.epoch
  connected : (s.pool conn.client).isConnected = true
  empty : (s.pool conn.client).frameBuf.data = []
  queue : s.queue = []
  batch : s.batch = batch
  handler : s.handler = .ready

/-- The members that a request finds. -/
structure SameMembers (s t : State) : Prop where
  sessions : t.sessions = s.sessions
  users : t.users = s.users
  rooms : t.rooms = s.rooms
  epoch : t.epoch = s.epoch
  socket : ∀ i, (t.pool i).socket = (s.pool i).socket

section
variable {w : Nat} {conn : Conn} {batch : List PacketCommand}

/-- The next request is received and drained. -/
theorem Settled.request {payload : List UInt8} {packet : Packet} (h : Settled cfg fb w conn [] s)
    (hfits : 4 + payload.length ≤ recvBufferSize) (hp : parsePacket fb payload = some packet) :
    ∃ t, Settled cfg fb w conn [⟨conn.client, packet.payload.type, payload, conn.epoch⟩] t ∧
      SameMembers s t := by
  obtain ⟨t, ht, hear, hrecv, harrived, hqueue, hempty⟩ := frame_alone conn h.reach h.worker h.recv
    h.arrived h.epoch h.connected h.empty hfits hp
  have hready : t.handler = .ready := hear.handler.trans h.handler
  have hnone : t.batch = [] := hear.batch.trans h.batch
  have hconn : (t.pool conn.client).isConnected = true := by
    rw [Client.isConnected, hear.socket]
    exact h.connected
  rw [h.queue] at hqueue
  refine ⟨{ t with batch := t.queue, queue := [] }, ?_,
    ⟨hear.sessions, hear.users, hear.rooms, hear.epoch, hear.socket⟩⟩
  exact {
    reach := .next (l := .tick) ht trivial (by simp [chatServer, State.step, hready, hnone])
    worker := hear.at_worker h.worker
    recv := hrecv
    arrived := harrived
    epoch := by rw [hear.epoch, h.epoch]
    connected := hconn
    empty := hempty
    queue := rfl
    batch := hqueue
    handler := hready }

/-- A handler has been left alone from one such state to the next. -/
theorem Settled.after {rest : List PacketCommand} (h : Settled cfg fb w conn batch s)
    (hr : (chatServer cfg fb).Reach System.always t) (hready : t.handler = .ready)
    (hbatch : t.batch = rest) (hkept : Undisturbed s t) : Settled cfg fb w conn rest t where
  reach := hr
  worker := by rw [hkept.workers, h.worker]
  recv := by rw [hkept.recvs]; exact h.recv
  arrived := by rw [hkept.arrived, h.arrived]
  epoch := by rw [hkept.epoch, h.epoch]
  connected := by
    rw [Client.isConnected, hkept.socket]
    exact h.connected
  empty := by rw [hkept.frameBuf, h.empty]
  queue := by rw [hkept.queue, h.queue]
  batch := hbatch
  handler := hready

end

end Highp.Chat
