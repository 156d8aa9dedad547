import Highp.Chat.RoomSteps

/-! What the server does not read of a request. A handler works with the client, the sequence number
and the message, and never looks at the bytes of its command again. -/

namespace Highp.Chat
open Highp.Lib Highp.Network

/-- The call without the bytes of its command. -/
def Call.forget (call : Call) : Call := { call with cmd := { call.cmd with data := [] } }

def HandlerPc.forget : HandlerPc → HandlerPc
  | .ready => .ready
  | .joinRoom call username => .joinRoom call.forget username
  | .joinSession call username room => .joinSession call.forget username room
  | .joinUser call username room session => .joinUser call.forget username room session
  | .joinEnter call room user => .joinEnter call.forget room user
  | .joinReply call user => .joinReply call.forget user
  | .leaveFind call => .leaveFind call.forget
  | .leaveRoom call user => .leaveRoom call.forget user
  | .leaveReply call user => .leaveReply call.forget user
  | .leaveRemove call user => .leaveRemove call.forget user
  | .chatFind call message => .chatFind call.forget message
  | .chatSend call message user => .chatSend call.forget message user
  | .resetSocket cmd => .resetSocket { cmd with data := [] }
  | .fault => .fault

/-- The state without the bytes of the command that the handler has in its hands. -/
def State.forget (s : State) : State := { s with handler := s.handler.forget }

/-- Two packets that differ in `room_id` and `username` at most. -/
def RequestsAlike : Packet → Packet → Prop
  | ⟨.sendMessageRequest (some request), sequence⟩,
    ⟨.sendMessageRequest (some request'), sequence'⟩ =>
    request.message = request'.message ∧ sequence = sequence'
  | ⟨.leaveRoomRequest (some _), sequence⟩, ⟨.leaveRoomRequest (some _), sequence'⟩ =>
    sequence = sequence'
  | _, _ => False

section
variable {cfg : Config} {fb : FlatBuffers} {s t : State}

/-- Between two commands nothing is forgotten. -/
theorem forget_ready (h : s.handler = .ready) : s.forget = s := by
  cases s
  subst h
  rfl

theorem forget_forget (s : State) : s.forget.forget = s.forget := by
  have hpc : ∀ pc : HandlerPc, pc.forget.forget = pc.forget := by
    intro pc
    cases pc <;> rfl
  simp only [State.forget, hpc]

theorem send_forget (session : Session) (packet : ServerPacket) (accepted : Bool) :
    s.forget.send fb session packet accepted = (s.send fb session packet accepted).forget := by
  unfold State.send
  show (if !(s.pool session.tcpClient).isConnected then _ else _) = _
  split
  · rfl
  · split
    · rfl
    · split <;> rfl

theorem sendAll_forget (packet : ServerPacket) (refused : List Nat) (users : List User) (k : Nat)
    (s : State) : s.forget.sendAll fb packet refused k users =
      (s.sendAll fb packet refused k users).forget := by
  induction users generalizing s k with
  | nil => rfl
  | cons user users ih => rw [State.sendAll, send_forget, ih, ← State.sendAll]

/-- A worker does not see the handler. -/
theorem workerStep_forget (ok : Bool) (pc : WorkerPc) :
    s.forget.workerStep cfg fb ok pc =
      ((s.workerStep cfg fb ok pc).1.forget, (s.workerStep cfg fb ok pc).2) := by
  have hpool : s.forget.pool = s.pool := rfl
  have hfind : s.forget.findAvailableClient cfg = s.findAvailableClient cfg := rfl
  have hpost : ∀ client, s.forget.canPostRecv client ok = s.canPostRecv client ok := fun _ => rfl
  have hbehind : ∀ conn next, s.forget.behindClose conn next = s.behindClose conn next :=
    fun _ _ => rfl
  have hreceived : ∀ client n, s.forget.received client n = s.received client n := fun _ _ => rfl
  cases pc with
  | findAvailableClient acceptSocket =>
    simp only [State.workerStep, hfind]
    cases s.findAvailableClient cfg <;> rfl
  | associateSocket conn =>
    simp only [State.workerStep, hpool, hbehind]
    cases ok && (s.pool conn.client).isConnected <;> rfl
  | postFirstRecv conn =>
    simp only [State.workerStep, hpost, hbehind]
    cases s.canPostRecv conn.client ok <;> rfl
  | closeClient conn =>
    simp only [State.workerStep, State.closeClient, hpool]
    cases (s.pool conn.client).isConnected <;> rfl
  | append conn n =>
    simp only [State.workerStep, hpool, hreceived, hbehind]
    obtain ⟨fits, frameBuf⟩ :=
      (s.pool conn.client).frameBuf.append (s.received conn.client n)
    cases fits <;> rfl
  | assemble conn =>
    simp only [State.workerStep, hpool, hbehind]
    cases inspect fb (s.pool conn.client).frameBuf.data <;> rfl
  | postNextRecv conn =>
    simp only [State.workerStep, State.closeClient, hpost, hpool]
    cases s.canPostRecv conn.client ok with
    | true => rfl
    | false => cases (s.pool conn.client).isConnected <;> rfl
  | _ => rfl

theorem logicStep_forget (s : State) (choice : Choice) :
    (s.forget.logicStep fb choice).map State.forget =
      (s.logicStep fb choice).map State.forget := by
  have hsend : ∀ session packet accepted, s.forget.send fb session packet accepted =
      (s.send fb session packet accepted).forget := send_forget
  have hall : ∀ packet users, s.forget.sendAll fb packet choice.refused 0 users =
      (s.sendAll fb packet choice.refused 0 users).forget :=
    fun packet users => sendAll_forget packet choice.refused users 0 s
  cases h : s.handler with
  | ready => rw [forget_ready h]
  | fault => simp [State.logicStep, State.forget, HandlerPc.forget, h]
  | joinRoom call username => simp only [State.logicStep, State.forget, HandlerPc.forget, h]; rfl
  | joinSession call username room =>
    simp only [State.logicStep, State.forget, HandlerPc.forget, h, Call.forget]
    cases s.sessions.getSessionByClient s.pool call.cmd.client choice.order <;> rfl
  | joinUser call username room session =>
    simp only [State.logicStep, State.forget, HandlerPc.forget, h, Call.forget]
    cases s.users.getUserByClient s.pool call.cmd.client choice.order <;> rfl
  | joinEnter call room user =>
    simp only [State.forget, HandlerPc.forget, h] at hall
    simp only [State.logicStep, State.forget, HandlerPc.forget, h, Room.join, hall]
    rfl
  | joinReply call user =>
    simp only [State.forget, HandlerPc.forget, h] at hsend
    simp only [State.logicStep, State.forget, HandlerPc.forget, h, hsend]
    rfl
  | leaveFind call =>
    simp only [State.logicStep, State.forget, HandlerPc.forget, h, Call.forget]
    cases s.users.getUserByClient s.pool call.cmd.client choice.order <;> rfl
  | leaveRoom call user =>
    simp only [State.forget, HandlerPc.forget, h] at hall
    simp only [State.logicStep, State.forget, HandlerPc.forget, h]
    cases s.rooms.getRoom user.roomId with
    | none => rfl
    | some room =>
      cases hleave : (s.rooms.roomAt room).leave user.id with
      | none => simp only [hleave]; rfl
      | some result => simp only [hleave, hall]; rfl
  | leaveReply call user =>
    simp only [State.forget, HandlerPc.forget, h] at hsend
    simp only [State.logicStep, State.forget, HandlerPc.forget, h, hsend]
    rfl
  | leaveRemove call user => simp only [State.logicStep, State.forget, HandlerPc.forget, h]; rfl
  | chatFind call message =>
    simp only [State.logicStep, State.forget, HandlerPc.forget, h, Call.forget]
    cases s.users.getUserByClient s.pool call.cmd.client choice.order <;> rfl
  | chatSend call message user =>
    simp only [State.forget, HandlerPc.forget, h] at hall
    simp only [State.logicStep, State.forget, HandlerPc.forget, h]
    cases s.rooms.getRoom user.roomId with
    | none => rfl
    | some room => simp only [hall]; rfl
  | resetSocket cmd => simp only [State.logicStep, State.forget, HandlerPc.forget, h]; rfl

theorem map_forget {o : Option State} :
    (o.map State.forget).map State.forget = o.map State.forget := by
  rw [Option.map_map]
  exact congrArg (o.map ·) (funext forget_forget)

theorem step_forget (s : State) (l : Label) :
    (s.forget.step cfg fb l).map State.forget = (s.step cfg fb l).map State.forget := by
  cases l with
  | accepted w acceptSocket =>
    have hsame : s.forget.step cfg fb (.accepted w acceptSocket) =
        (s.step cfg fb (.accepted w acceptSocket)).map State.forget := by
      simp only [State.step]
      show (if s.waiting w && !s.sockets.contains acceptSocket then _ else _) = _
      split <;> rfl
    rw [hsame, map_forget]
  | arrive conn data =>
    have hsame : s.forget.step cfg fb (.arrive conn data) =
        (s.step cfg fb (.arrive conn data)).map State.forget := by
      simp only [State.step]
      show (if s.pending conn && data != [] && data.length ≤ recvBufferSize then _ else _) = _
      split <;> rfl
    rw [hsame, map_forget]
  | recvDone w conn result =>
    have hsame : s.forget.step cfg fb (.recvDone w conn result) =
        (s.step cfg fb (.recvDone w conn result)).map State.forget := by
      simp only [State.step]
      show (if s.waiting w && s.recvs.contains conn && s.reports conn result then _ else _) = _
      split <;> rfl
    rw [hsame, map_forget]
  | sendDone w conn result =>
    have hsame : s.forget.step cfg fb (.sendDone w conn result) =
        (s.step cfg fb (.sendDone w conn result)).map State.forget := by
      simp only [State.step]
      show (if s.waiting w && s.sends.contains conn then _ else _) = _
      split <;> rfl
    rw [hsame, map_forget]
  | worker w ok =>
    have hsame : s.forget.step cfg fb (.worker w ok) =
        (s.step cfg fb (.worker w ok)).map State.forget := by
      have hworkers : s.forget.workers = s.workers := rfl
      simp only [State.step, hworkers]
      split
      · rfl
      · rfl
      · rfl
      · rw [workerStep_forget]
        rfl
    rw [hsame, map_forget]
  | tick =>
    cases h : s.handler with
    | ready => rw [forget_ready h]
    | _ => simp [State.step, State.forget, HandlerPc.forget, h]
  | logic choice => exact logicStep_forget s choice

theorem roomStep_forget (s : State) (l : RoomLabel) :
    (s.forget.roomStep cfg fb l).map State.forget =
      (s.roomStep cfg fb l).map State.forget := by
  have hworkers : s.forget.workers = s.workers := rfl
  cases l with
  | server l => exact step_forget s l
  | kickRoom w room =>
    have hsame : s.forget.roomStep cfg fb (.kickRoom w room) =
        (s.roomStep cfg fb (.kickRoom w room)).map State.forget := by
      simp only [State.roomStep, hworkers]
      split <;> rfl
    rw [hsame, map_forget]
  | kicked w =>
    have hsame : s.forget.roomStep cfg fb (.kicked w) =
        (s.roomStep cfg fb (.kicked w)).map State.forget := by
      simp only [State.roomStep, hworkers]
      split <;> rfl
    rw [hsame, map_forget]

/-- **What is forgotten has no effect.** States that differ in it stay so along every run. -/
theorem exec_forget {s s' : State} (h : s.forget = s'.forget) (ls : List RoomLabel) :
    ((roomServer cfg fb).exec System.always s ls).map State.forget =
      ((roomServer cfg fb).exec System.always s' ls).map State.forget := by
  induction ls generalizing s s' with
  | nil => exact congrArg some h
  | cons l ls ih =>
    have hstep : (s.roomStep cfg fb l).map State.forget =
        (s'.roomStep cfg fb l).map State.forget := by
      rw [← roomStep_forget s, h, roomStep_forget s']
    simp only [System.exec]
    show ((s.roomStep cfg fb l).bind _).map _ = ((s'.roomStep cfg fb l).bind _).map _
    cases ht : s.roomStep cfg fb l with
    | none =>
      rw [ht] at hstep
      rw [Option.map_eq_none_iff.mp hstep.symm]
    | some t =>
      rw [ht] at hstep
      obtain ⟨t', ht', heq⟩ := Option.map_eq_some_iff.mp hstep.symm
      rw [ht']
      exact ih heq.symm

/-- The dispatch of a request takes nothing else from its bytes. -/
theorem dispatch_alike {cmd : PacketCommand} {data : List UInt8} {packet packet' : Packet}
    (hget : fb.getPacket cmd.data = some packet) (hget' : fb.getPacket data = some packet')
    (halike : RequestsAlike packet packet') :
    (s.dispatch fb cmd).forget = (s.dispatch fb { cmd with data := data }).forget := by
  obtain ⟨payload, sequence⟩ := packet
  obtain ⟨payload', sequence'⟩ := packet'
  unfold State.dispatch
  rw [hget, hget']
  cases payload with
  | leaveRoomRequest table =>
    cases table with
    | none => exact absurd halike id
    | some request =>
      cases payload' with
      | leaveRoomRequest table' =>
        cases table' with
        | none => exact absurd halike id
        | some request' =>
          obtain rfl : sequence = sequence' := halike
          rfl
      | _ => exact absurd halike id
  | sendMessageRequest table =>
    cases table with
    | none => exact absurd halike id
    | some request =>
      cases payload' with
      | sendMessageRequest table' =>
        cases table' with
        | none => exact absurd halike id
        | some request' =>
          obtain ⟨hmessage, rfl⟩ : request.message = request'.message ∧ sequence = sequence' :=
            halike
          show State.forget { s with handler := .chatFind _ request.message } = _
          rw [hmessage]
          rfl
      | _ => exact absurd halike id
  | _ => exact absurd halike id

/-- **The rest of a request is not read.** From the dispatch on, two requests that differ in
`room_id` and `username` only have the same effect, whatever the other threads do. -/
theorem exec_alike {cmd : PacketCommand} {batch : List PacketCommand} {data : List UInt8}
    {packet packet' : Packet} (hready : s.handler = .ready)
    (hget : fb.getPacket cmd.data = some packet) (hget' : fb.getPacket data = some packet')
    (halike : RequestsAlike packet packet') (choice : Choice) (ls : List RoomLabel) :
    ((roomServer cfg fb).exec System.always { s with batch := cmd :: batch }
        (.server (.logic choice) :: ls)).map State.forget =
      ((roomServer cfg fb).exec System.always
        { s with batch := { cmd with data := data } :: batch }
        (.server (.logic choice) :: ls)).map State.forget := by
  have hfirst : ∀ c : PacketCommand, (roomServer cfg fb).exec System.always
      { s with batch := c :: batch } (.server (.logic choice) :: ls) =
        (roomServer cfg fb).exec System.always ({ s with batch := batch }.dispatch fb c) ls := by
    intro c
    simp [System.exec, System.always, roomServer, State.roomStep, State.step, State.logicStep,
      hready]
  rw [hfirst, hfirst]
  exact exec_forget (dispatch_alike hget hget' halike) ls

end

end Highp.Chat
