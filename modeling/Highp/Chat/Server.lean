import Highp.Lib.Transition
import Highp.Network.WorkerLoop
import Highp.Chat.Registry

/-! The chat server as a transition system: worker threads in `SetupClient` and `HandleRecv`,
the logic thread in `Tick` and the three handlers, and a kernel that completes receives and
sends when it likes. One step is one section under a lock, one system call, one access to a
`Client`, or one round of the frame assembly. -/

namespace Highp.Chat
open Highp.Lib Highp.Network

/-! ## Where the threads are -/

/-- Where a worker goes on behind a `Client::Close`: at the end of `SetupClient` or `HandleRecv`,
at the next `PostRecv`, or in the `Defer` that consumes an invalid frame. -/
inductive AfterClose
  | setupClient
  | handleRecv
  | postNextRecv
  | consume (frameSize : Nat)
  deriving DecidableEq

/-- A worker thread. Behind a completion it carries the connection whose receive was completed;
the code sees its slot only. In `resetSocket` it is inside `Client::Close`, behind the
`closesocket`. -/
inductive WorkerPc
  | idle
  | left
  | findAvailableClient (acceptSocket : SocketHandle)
  | assignSocket (acceptSocket : SocketHandle) (client : Slot)
  | associateSocket (conn : Conn)
  | postFirstRecv (conn : Conn)
  | markConnectionEstablished (conn : Conn)
  | onAccept (conn : Conn)
  | kickDisconnected (conn : Conn)
  | removeByClient (conn : Conn)
  | closeClient (conn : Conn)
  | append (conn : Conn) (bytesTransferred : Nat)
  | assemble (conn : Conn)
  | consume (conn : Conn) (frameSize : Nat)
  | postNextRecv (conn : Conn)
  | resetSocket (conn : Conn) (next : AfterClose)
  deriving DecidableEq

def AfterClose.pc (conn : Conn) : AfterClose → WorkerPc
  | .setupClient => .idle
  | .handleRecv => .idle
  | .postNextRecv => .postNextRecv conn
  | .consume frameSize => .consume conn frameSize

/-- A call of a handler: the command, and the sequence number of its packet. -/
structure Call where
  cmd : PacketCommand
  sequence : Nat

/-- The logic thread: between two commands of the batch, inside a handler, or inside the `Close`
of a client whose command has none. `fault` is a null `Room*` that was dereferenced. -/
inductive HandlerPc
  | ready
  | joinRoom (call : Call) (username : Text)
  | joinSession (call : Call) (username : Text) (room : Nat)
  | joinUser (call : Call) (username : Text) (room : Nat) (session : Session)
  | joinEnter (call : Call) (room : Nat) (user : User)
  | joinReply (call : Call) (user : User)
  | leaveFind (call : Call)
  | leaveRoom (call : Call) (user : User)
  | leaveReply (call : Call) (user : User)
  | leaveRemove (call : Call) (user : User)
  | chatFind (call : Call) (message : Text)
  | chatSend (call : Call) (message : Text) (user : User)
  | resetSocket (cmd : PacketCommand)
  | fault

/-- What happens at the boundaries of the server, and which users a command gets hold of. -/
inductive Event
  | onAccept (conn : Conn)
  | onRecv (conn : Conn)
  | onDisconnect (conn : Conn)
  | posted (conn : Conn) (packet : ServerPacket) (accepted : Bool)
  | touched (conn : Conn) (user : User)
  deriving DecidableEq

/-! ## The state -/

/-- `recvs` and `sends` are the operations that no worker has been told the end of, each with the
connection that issued it; `arrived` are the receives among them that have their bytes, and
`recvBufs` are the `recvOverlapped.buf` of the slots. `epoch`, `closed` and `log` are ghosts: how
many sockets a slot has seen, which connections `Client::Close` has closed, and what has
happened. -/
structure State where
  pool : Pool
  epoch : Slot → Nat
  sockets : List SocketHandle
  recvBufs : Slot → List UInt8
  recvs : List Conn
  arrived : List (Conn × List UInt8)
  sends : List Conn
  connectedClientCount : Nat
  workers : List WorkerPc
  queue : List PacketCommand
  batch : List PacketCommand
  handler : HandlerPc
  sessions : SessionManager
  users : UserManager
  rooms : RoomManager
  closed : List Conn
  log : List Event

structure Config where
  workerCount : Nat
  maxClients : Nat
  maxRoomCapacity : Nat

def State.new (cfg : Config) : State where
  pool _ := .new
  epoch _ := 0
  sockets := []
  recvBufs _ := List.replicate recvBufferSize 0
  recvs := []
  arrived := []
  sends := []
  connectedClientCount := 0
  workers := List.replicate cfg.workerCount .idle
  queue := []
  batch := []
  handler := .ready
  sessions := .new
  users := .new
  rooms := .new 1 cfg.maxRoomCapacity
  closed := []
  log := []

namespace State

/-- The connection that has a slot now. -/
def current (s : State) (client : Slot) : Conn := ⟨client, s.epoch client⟩

def setClient (s : State) (client : Slot) (c : Client) : State :=
  { s with pool := Function.update s.pool client c }

/-! ## `Client` -/

/-- `Client::Close` up to its `closesocket`. The system may give the handle out again while the
slot still names it. -/
def closeSocket (s : State) (client : Slot) : State :=
  { s with
    pool := Function.update s.pool client (s.pool client).emitDisconnectedEvent
    sockets := s.sockets.filter fun h => (s.pool client).socket != some h
    connectedClientCount :=
      if (s.pool client).emitsDisconnected then s.connectedClientCount - 1
      else s.connectedClientCount }

/-- The rest of `Client::Close`. -/
def resetSocket (s : State) (client : Slot) : State :=
  { s with
    pool := Function.update s.pool client (s.pool client).resetSocket
    closed := if (s.pool client).isConnected then s.current client :: s.closed else s.closed }

/-- Where a worker is behind the first part of a `Close`, which ends there without a socket. -/
def behindClose (s : State) (conn : Conn) (next : AfterClose) : WorkerPc :=
  if (s.pool conn.client).isConnected then .resetSocket conn next else next.pc conn

/-- The bytes of a receive, as `HandleRecv` finds them in the buffer of the slot. -/
def received (s : State) (client : Slot) (bytesTransferred : Nat) : List UInt8 :=
  (s.recvBufs client).take bytesTransferred

/-- `ServerLifeCycle::CloseClient`, up to the `closesocket`. -/
def closeClient (s : State) (conn : Conn) : State × WorkerPc :=
  if (s.pool conn.client).isConnected then
    (s.closeSocket conn.client, .resetSocket conn .handleRecv)
  else (s, .idle)

/-- Whether `PostRecv` succeeds, given the answer of the kernel. -/
def canPostRecv (s : State) (client : Slot) (ok : Bool) : Bool := ok && (s.pool client).isConnected

/-- A `WSARecv` on whatever socket the slot has. -/
def postRecv (s : State) (client : Slot) : State :=
  { s with recvs := s.recvs ++ [s.current client] }

/-- `PostSend`. -/
def postSend (s : State) (client : Slot) (data : List UInt8) (packet : ServerPacket)
    (accepted : Bool) : State :=
  { s with
    pool := Function.update s.pool client ((s.pool client).fillSend data)
    sends := if accepted then s.sends ++ [s.current client] else s.sends
    log := s.log ++ [.posted (s.current client) packet accepted] }

/-- `Session::Send`. -/
def send (fb : FlatBuffers) (s : State) (session : Session) (packet : ServerPacket)
    (accepted : Bool) : State :=
  if !(s.pool session.tcpClient).isConnected then s
  else if (fb.build packet).length > 2 ^ 32 - 1 then s
  else if 4 + (fb.build packet).length > sendBufferSize then s
  else s.postSend session.tcpClient (frameBytes (fb.build packet)) packet accepted

/-- One packet to one user after the other; `refused` are the places in this order at which
`WSASend` fails. -/
def sendAll (fb : FlatBuffers) (packet : ServerPacket) (refused : List Nat) :
    State → Nat → List User → State
  | s, _, [] => s
  | s, k, user :: users =>
    sendAll fb packet refused (s.send fb user.session packet (!refused.contains k)) (k + 1) users

/-! ## Worker threads -/

/-- `FindAvailableClient`. -/
def findAvailableClient (cfg : Config) (s : State) : Option Slot :=
  (List.range cfg.maxClients).find? fun client => !(s.pool client).isConnected

/-- One step of a worker inside a completion; `ok` is the answer of the system call it makes. -/
def workerStep (cfg : Config) (fb : FlatBuffers) (s : State) (ok : Bool) :
    WorkerPc → State × WorkerPc
  | .idle => (s, .idle)
  | .left => (s, .left)
  | .findAvailableClient acceptSocket =>
    match s.findAvailableClient cfg with
    | some client => (s, .assignSocket acceptSocket client)
    | none => ({ s with sockets := s.sockets.filter fun h => h != acceptSocket }, .idle)
  | .assignSocket acceptSocket client =>
    ({ s with
       pool := Function.update s.pool client { s.pool client with socket := some acceptSocket }
       epoch := Function.update s.epoch client (s.epoch client + 1) },
      .associateSocket ⟨client, s.epoch client + 1⟩)
  | .associateSocket conn =>
    if ok && (s.pool conn.client).isConnected then (s, .postFirstRecv conn)
    else (s.closeSocket conn.client, s.behindClose conn .setupClient)
  | .postFirstRecv conn =>
    if s.canPostRecv conn.client ok then
      (s.postRecv conn.client, .markConnectionEstablished conn)
    else (s.closeSocket conn.client, s.behindClose conn .setupClient)
  | .markConnectionEstablished conn =>
    ({ s with
       pool := Function.update s.pool conn.client
         (s.pool conn.client).markConnectionEstablished.2
       connectedClientCount :=
         if (s.pool conn.client).markConnectionEstablished.1 then s.connectedClientCount + 1
         else s.connectedClientCount },
      .onAccept conn)
  | .onAccept conn =>
    ({ s with sessions := s.sessions.createSession conn, log := s.log ++ [.onAccept conn] }, .idle)
  | .kickDisconnected conn =>
    ({ s with rooms := s.rooms.kickDisconnected s.pool conn.client
              log := s.log ++ [.onDisconnect conn] }, .removeByClient conn)
  | .removeByClient conn =>
    ({ s with sessions := s.sessions.removeByClient s.pool conn.client }, .closeClient conn)
  | .closeClient conn => s.closeClient conn
  | .append conn bytesTransferred =>
    match (s.pool conn.client).frameBuf.append (s.received conn.client bytesTransferred) with
    | (false, _) =>
      ({ s.closeSocket conn.client with log := s.log ++ [.onRecv conn] },
        s.behindClose conn .postNextRecv)
    | (true, frameBuf) =>
      ({ s.setClient conn.client ((s.pool conn.client).setFrameBuf frameBuf) with
         log := s.log ++ [.onRecv conn] }, .assemble conn)
  | .assemble conn =>
    match inspect fb (s.pool conn.client).frameBuf.data with
    | .incomplete => (s, .postNextRecv conn)
    | .tooLarge => (s.closeSocket conn.client, s.behindClose conn .postNextRecv)
    | .invalid frameSize =>
      (s.closeSocket conn.client, s.behindClose conn (.consume frameSize))
    | .command payloadType payload frameSize =>
      ({ s.setClient conn.client
          ((s.pool conn.client).setFrameBuf ((s.pool conn.client).frameBuf.consume frameSize)) with
         queue := s.queue ++ [⟨conn.client, payloadType, payload, conn.epoch⟩] }, .assemble conn)
  | .consume conn frameSize =>
    (s.setClient conn.client
      ((s.pool conn.client).setFrameBuf ((s.pool conn.client).frameBuf.consume frameSize)),
      .postNextRecv conn)
  | .postNextRecv conn =>
    if s.canPostRecv conn.client ok then (s.postRecv conn.client, .idle)
    else s.closeClient conn
  | .resetSocket conn next => (s.resetSocket conn.client, next.pc conn)

end State

/-! ## Completions -/

/-- How the kernel reports an operation: the bytes of a receive (none for a send), or an error. -/
inductive IoResult
  | done (data : List UInt8)
  | failed (error : Nat)
  deriving DecidableEq

/-- The abort code, on which `WorkerLoop` gives up. -/
def IoResult.aborted : IoResult → Bool
  | .done _ => false
  | .failed error => error == ERROR_OPERATION_ABORTED

/-- The result as `GetQueuedCompletionStatus` returns it; key and overlapped are addresses
inside the slot. -/
def IoResult.dequeued (result : IoResult) (client : Slot) (ioType : EIoType) : Dequeued :=
  match result with
  | .done data => ⟨true, client + 1, some ⟨client + 1, ioType⟩, data.length, 0⟩
  | .failed error => ⟨false, client + 1, some ⟨client + 1, ioType⟩, 0, error⟩

/-- `HandleRecv` up to its first effect. -/
def handleRecv (conn : Conn) (event : CompletionEvent) : WorkerPc :=
  if !event.success || event.bytesTransferred == 0 then .kickDisconnected conn
  else .append conn event.bytesTransferred

/-- What a worker does next when it dequeues a receive of `conn`. -/
def onRecvDequeued (conn : Conn) (result : IoResult) : WorkerPc :=
  match onDequeued (result.dequeued conn.client .recv) with
  | none => .left
  | some event => handleRecv conn event

/-- What a worker does next when it dequeues a send: `OnSend` only writes to the log file. -/
def onSendDequeued (conn : Conn) (result : IoResult) : WorkerPc :=
  match onDequeued (result.dequeued conn.client .send) with
  | none => .left
  | some _ => .idle

/-! ## The logic thread -/

/-- What the environment contributes to a step of the logic thread: the iteration order of the
maps, the clock, and the sends that fail. -/
structure Choice where
  order : Nat
  now : Timestamp
  refused : List Nat

namespace State

/-- `DispatchPacket` for the next command. Where there is no handler it begins the `Close`. -/
def dispatch (fb : FlatBuffers) (s : State) (cmd : PacketCommand) : State :=
  match fb.getPacket cmd.data with
  | none => s
  | some packet =>
    match packet.payload with
    | .joinRoomRequest none => s
    | .joinRoomRequest (some payload) =>
      -- `c_str()` ends at the first zero byte
      { s with handler := .joinRoom ⟨cmd, packet.sequence⟩ (payload.username.takeWhile (· != 0)) }
    | .leaveRoomRequest none => s
    | .leaveRoomRequest (some _) => { s with handler := .leaveFind ⟨cmd, packet.sequence⟩ }
    | .sendMessageRequest none => s
    | .sendMessageRequest (some payload) =>
      { s with handler := .chatFind ⟨cmd, packet.sequence⟩ payload.message }
    | .other _ =>
      if (s.pool cmd.client).isConnected then
        { s.closeSocket cmd.client with handler := .resetSocket cmd }
      else s.closeSocket cmd.client

/-- One step of the logic thread inside a tick. -/
def logicStep (fb : FlatBuffers) (s : State) (choice : Choice) : Option State :=
  match s.handler with
  | .ready =>
    match s.batch with
    | [] => none
    | cmd :: batch => some ({ s with batch }.dispatch fb cmd)
  | .joinRoom call username =>
    let found := s.rooms.getOrCreateAvailableRoom
    some { s with rooms := found.1, handler := .joinSession call username found.2 }
  | .joinSession call username room =>
    match s.sessions.getSessionByClient s.pool call.cmd.client choice.order with
    | none => some { s with handler := .ready }
    | some session => some { s with handler := .joinUser call username room session }
  | .joinUser call username room session =>
    match s.users.getUserByClient s.pool call.cmd.client choice.order with
    | some user =>
      some { s with handler := .ready, log := s.log ++ [.touched call.cmd.conn user] }
    | none =>
      let user := s.users.makeUser session username (s.rooms.roomAt room).id call.cmd.conn
      some { s with
        users := s.users.addUser user
        handler := .joinEnter call room user
        log := s.log ++ [.touched call.cmd.conn user] }
  | .joinEnter call room user =>
    let joined := (s.rooms.roomAt room).join user
    let s := s.sendAll fb
      (.userJoinedBroadcast ((s.rooms.roomAt room).id % 2 ^ 32) user.id user.username)
      choice.refused 0 joined.1
    some { s with rooms := s.rooms.setRoom room joined.2, handler := .joinReply call user }
  | .joinReply call user =>
    let s := s.send fb user.session (.joinedRoomResponse call.sequence)
      (!choice.refused.contains 0)
    some { s with handler := .ready }
  | .leaveFind call =>
    match s.users.getUserByClient s.pool call.cmd.client choice.order with
    | none => some { s with handler := .ready }
    | some user =>
      some { s with
        handler := .leaveRoom call user, log := s.log ++ [.touched call.cmd.conn user] }
  | .leaveRoom call user =>
    match s.rooms.getRoom user.roomId with
    | none => some { s with handler := .fault }
    | some room =>
      match (s.rooms.roomAt room).leave user.id with
      | none => some { s with handler := .leaveReply call user }
      | some (found, others, left) =>
        let s := s.sendAll fb (.userLeftBroadcast user.id found.username) choice.refused 0 others
        some { s with rooms := s.rooms.setRoom room left, handler := .leaveReply call user }
  | .leaveReply call user =>
    let s := s.send fb user.session (.leftRoomResponse call.sequence) (!choice.refused.contains 0)
    some { s with handler := .leaveRemove call user }
  | .leaveRemove call user =>
    some { s with
      users := s.users.removeUserByUserId user.id
      handler := .ready
      log := s.log ++ (s.users.users.filter fun u => u.id == user.id).map
        (Event.touched call.cmd.conn) }
  | .chatFind call message =>
    match s.users.getUserByClient s.pool call.cmd.client choice.order with
    | none => some { s with handler := .ready }
    | some user =>
      some { s with
        handler := .chatSend call message user, log := s.log ++ [.touched call.cmd.conn user] }
  | .chatSend call message user =>
    match s.rooms.getRoom user.roomId with
    | none => some { s with handler := .ready }
    | some room =>
      let s := s.sendAll fb (.chatMessageBroadcast (user.id % 2 ^ 32) user.username message
          choice.now call.sequence) choice.refused 0 ((s.rooms.roomAt room).audience user.id)
      some { s with handler := .ready }
  | .resetSocket cmd => some { s.resetSocket cmd.client with handler := .ready }
  | .fault => none

end State

/-! ## The system -/

inductive Label
  /-- Worker `w` dequeues an accept; `SetupClient` begins with its socket. -/
  | accepted (w : Nat) (acceptSocket : SocketHandle)
  /-- The kernel writes what it received for `conn` into the buffer of the slot. -/
  | arrive (conn : Conn) (data : List UInt8)
  /-- Worker `w` dequeues a receive that `conn` issued. -/
  | recvDone (w : Nat) (conn : Conn) (result : IoResult)
  | sendDone (w : Nat) (conn : Conn) (result : IoResult)
  /-- Worker `w` goes on. -/
  | worker (w : Nat) (ok : Bool)
  /-- `DrainTo`. -/
  | tick
  /-- The logic thread goes on. -/
  | logic (choice : Choice)

namespace State

/-- Worker `w` waits in `GetQueuedCompletionStatus`. -/
def waiting (s : State) (w : Nat) : Bool := s.workers[w]? == some .idle

def setWorker (s : State) (w : Nat) (pc : WorkerPc) : State :=
  { s with workers := s.workers.set w pc }

/-- A receive of `conn` is pending that has no bytes yet. -/
def pending (s : State) (conn : Conn) : Bool :=
  (s.arrived.filter fun a => a.1 == conn).length < s.recvs.count conn

/-- The kernel can report this end of a receive: bytes when it has written them, and anything else
as long as it has not. -/
def reports (s : State) (conn : Conn) : IoResult → Bool
  | .done (byte :: data) => s.arrived.contains (conn, byte :: data)
  | _ => s.pending conn

/-- The receives that have their bytes when this one is dequeued. -/
def stillArrived (s : State) (conn : Conn) : IoResult → List (Conn × List UInt8)
  | .done data => s.arrived.erase (conn, data)
  | .failed _ => s.arrived

def step (cfg : Config) (fb : FlatBuffers) (s : State) : Label → Option State
  | .accepted w acceptSocket =>
    if s.waiting w && !s.sockets.contains acceptSocket then
      some ({ s with sockets := acceptSocket :: s.sockets }.setWorker w
        (.findAvailableClient acceptSocket))
    else none
  | .arrive conn data =>
    if s.pending conn && data != [] && data.length ≤ recvBufferSize then
      some { s with
        recvBufs := Function.update s.recvBufs conn.client
          (data ++ (s.recvBufs conn.client).drop data.length)
        arrived := s.arrived ++ [(conn, data)] }
    else none
  | .recvDone w conn result =>
    if s.waiting w && s.recvs.contains conn && s.reports conn result then
      some ({ s with
        recvs := s.recvs.erase conn
        arrived := s.stillArrived conn result }.setWorker w (onRecvDequeued conn result))
    else none
  | .sendDone w conn result =>
    if s.waiting w && s.sends.contains conn then
      some ({ s with sends := s.sends.erase conn }.setWorker w (onSendDequeued conn result))
    else none
  | .worker w ok =>
    match s.workers[w]? with
    | none => none
    | some .idle => none
    | some .left => none
    | some pc => some ((s.workerStep cfg fb ok pc).1.setWorker w (s.workerStep cfg fb ok pc).2)
  | .tick =>
    match s.handler, s.batch with
    | .ready, [] => some { s with batch := s.queue, queue := [] }
    | _, _ => none
  | .logic choice => s.logicStep fb choice

end State

def chatServer (cfg : Config) (fb : FlatBuffers) : System State Label where
  start := .new cfg
  step := State.step cfg fb

end Highp.Chat
