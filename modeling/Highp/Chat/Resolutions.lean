import Highp.Chat.AcceptFirst
import Highp.Chat.Posts
import Highp.Chat.RoomSteps
import Highp.Metrics.Requests

/-! Chat clients and their server together. A client numbers its requests, sends their frames and
waits for an answer by number and type; the server copies the number of a request into what it
sends, to the client itself or to others. -/

namespace Highp.Chat
open Highp.Lib Highp.Network Highp.Client Highp.Metrics

/-! ## Clients -/

/-- `sending` is a request whose frame has gone out and that `Send` has not tracked yet. -/
structure ChatClient where
  nextSequence : Nat
  conn : Option Conn
  metrics : AtomicClientMetrics
  sending : Option RequestTracking

def ChatClient.new : ChatClient := ⟨1, none, .new, none⟩

/-- What is registered for a packet of `PacketSender.cpp`; a client sends no other packets. -/
def requestTracking (packet : Packet) : Option RequestTracking :=
  match packet.payload with
  | .joinRoomRequest (some _) => some (sendJoinRoom packet.sequence)
  | .leaveRoomRequest (some _) => some (sendLeave packet.sequence)
  | .sendMessageRequest (some _) => some (sendMessage packet.sequence)
  | _ => none

/-! ## The system -/

/-- A request whose frame was sent. -/
structure Request where
  client : Nat
  conn : Conn
  payload : List UInt8
  tracking : RequestTracking

/-- A packet on its way to a client, and the call that the server was handling when it was
posted. -/
structure Delivery where
  packet : ServerPacket
  call : Call

/-- `ResolveRequest` has removed a pending request of a client; `call` is behind the packet that
did it. -/
structure Resolution where
  client : Nat
  sequence : Nat
  call : Call

/-- `owner` is the client that a connection belongs to, `wire` what was sent on a connection and
not received, `transit` what was posted and not delivered. `requests` and `resolutions` are
ghosts. -/
structure World where
  server : State
  clients : Nat → ChatClient
  owner : Conn → Option Nat
  wire : Conn → List UInt8
  transit : Conn → List Delivery
  requests : List Request
  resolutions : List Resolution

inductive WorldLabel
  | connect (i : Nat) (conn : Conn)
  | disconnect (i : Nat)
  /-- A client takes a sequence number and passes a packet to `Send`; `ok` is the answer of
  `SendFrame`. -/
  | send (i : Nat) (payload : List UInt8) (ok : Bool)
  /-- `Send` goes on to `TrackRequest`. -/
  | track (i : Nat) (timeout : Int) (nowNs : Nat)
  /-- `TakeSnapshot` drops what has timed out. -/
  | expire (i : Nat) (nowNs : Nat)
  /-- The receive loop of a client gets the next packet. -/
  | deliver (conn : Conn) (nowNs : Nat)
  | server (l : RoomLabel)

/-- The calls of `PostSend` in a step of the server. -/
def State.posted (fb : FlatBuffers) (s : State) : RoomLabel → List Event
  | .server l => s.posting fb l
  | _ => []

/-- An accepted send for a connection, on behalf of a call. -/
def Event.delivery (conn : Conn) (call : Option Call) : Event → Option Delivery
  | .posted c packet true => if c = conn then call.map (Delivery.mk packet) else none
  | _ => none

namespace World

def new (cfg : Config) : World :=
  ⟨.new cfg, fun _ => .new, fun _ => none, fun _ => [], fun _ => [], [], []⟩

def setClient (w : World) (i : Nat) (c : ChatClient) : World :=
  { w with clients := Function.update w.clients i c }

/-- `NextSequence`, the packet and `SendFrame`. -/
def send (fb : FlatBuffers) (w : World) (i : Nat) (payload : List UInt8) (ok : Bool) :
    Option World :=
  match (fb.getPacket payload).bind requestTracking with
  | none => none
  | some tracking =>
    if fb.verify payload && tracking.sequence == (w.clients i).nextSequence &&
        (w.clients i).sending.isNone then
      let c := { w.clients i with nextSequence := ((w.clients i).nextSequence + 1) % 2 ^ 32 }
      match c.conn, ok with
      | some conn, true =>
        some { w.setClient i { c with sending := some tracking } with
          wire := Function.update w.wire conn (w.wire conn ++ frameBytes payload)
          requests := w.requests ++ [⟨i, conn, payload, tracking⟩] }
      | _, _ => some (w.setClient i c)
    else none

/-- One round of the receive loop. -/
def deliver (w : World) (conn : Conn) (nowNs : Nat) : Option World :=
  match w.transit conn, w.owner conn with
  | d :: rest, some i =>
    if (w.clients i).conn = some conn then
      let c := w.clients i
      some { w.setClient i { c with
          metrics := c.metrics.resolveRequest (received d.packet) nowNs } with
        transit := Function.update w.transit conn rest
        resolutions := w.resolutions ++
          if c.metrics.removes (received d.packet) nowNs then
            [⟨i, (received d.packet).sequence, d.call⟩]
          else [] }
    else none
  | _, _ => none

/-- A step of the server. It receives what was sent on the connection, in order. -/
def serve (cfg : Config) (fb : FlatBuffers) (w : World) (l : RoomLabel) : Option World :=
  if l.received.all fun chunk => chunk.2.isPrefixOf (w.wire chunk.1) then
    (w.server.roomStep cfg fb l).map fun t =>
      { w with
        server := t
        wire := match l.received with
          | some (conn, data) => Function.update w.wire conn ((w.wire conn).drop data.length)
          | none => w.wire
        transit := fun conn => w.transit conn ++
          (w.server.posted fb l).filterMap (Event.delivery conn w.server.handler.call) }
  else none

def step (cfg : Config) (fb : FlatBuffers) (w : World) : WorldLabel → Option World
  | .connect i conn =>
    if (w.owner conn).isNone then
      some { w.setClient i { w.clients i with conn := some conn } with
        owner := Function.update w.owner conn (some i) }
    else none
  | .disconnect i => some (w.setClient i { w.clients i with conn := none })
  | .send i payload ok => w.send fb i payload ok
  | .track i timeout nowNs =>
    match (w.clients i).sending with
    | some tracking =>
      some (w.setClient i { w.clients i with
        sending := none
        metrics := (w.clients i).metrics.trackRequest tracking timeout nowNs })
    | none => none
  | .expire i nowNs =>
    some (w.setClient i { w.clients i with
      metrics := (w.clients i).metrics.expireTimedOutRequests nowNs })
  | .deliver conn nowNs => w.deliver conn nowNs
  | .server l => w.serve cfg fb l

end World

def chatWorld (cfg : Config) (fb : FlatBuffers) : System World WorldLabel where
  start := .new cfg
  step := World.step cfg fb

/-- The packet was produced while the server handled the request of that number of the same
client. -/
def Resolution.Own (w : World) (r : Resolution) : Prop :=
  r.call.sequence = r.sequence ∧ ∃ request ∈ w.requests, request.client = r.client ∧
    request.conn = r.call.cmd.conn ∧ request.payload = r.call.cmd.data ∧
    request.tracking.sequence = r.sequence

/-! ## The condition -/

/-- Every command that is dispatched is a request that was sent on its connection. A response is
posted to the connection that the request came from. A `ChatMessageBroadcast` is delivered only to a
client that does not wait for one of the same number. -/
def AnswersOwn (w : World) : WorldLabel → Bool
  | .server (.server (.logic _)) =>
    match w.server.handler with
    | .ready =>
      w.server.batch.head?.all fun cmd => w.requests.any fun request =>
        request.conn == cmd.conn && request.payload == cmd.data
    | .joinReply call user | .leaveReply call user =>
      !(w.server.pool user.session.tcpClient).isConnected ||
        w.server.current user.session.tcpClient == call.cmd.conn
    | _ => true
  | .deliver conn _ =>
    match w.transit conn, w.owner conn with
    | ⟨.chatMessageBroadcast _ _ _ _ sequence, _⟩ :: _, some i =>
      ((w.clients i).metrics.find sequence).all fun request =>
        request.responseType != .bChatMessage
    | _, _ => true
  | _ => true

/-! ## Handlers -/

section
variable {cfg : Config} {fb : FlatBuffers} {s t : State}

/-- A handler goes on with its call, or the next command of the batch is dispatched. -/
theorem LogicStep.serves {choice : Choice} (h : LogicStep s choice t) {call : Call}
    (hcall : t.handler.call = some call) :
    s.handler.call = some call ∨ s.handler = .ready ∧ s.batch.head? = some call.cmd := by
  cases h with
  | startJoin _ _ hpc hb =>
    cases hcall
    exact Or.inr ⟨hpc, by rw [hb]; rfl⟩
  | startLeave _ hpc hb =>
    cases hcall
    exact Or.inr ⟨hpc, by rw [hb]; rfl⟩
  | startChat _ _ hpc hb =>
    cases hcall
    exact Or.inr ⟨hpc, by rw [hb]; rfl⟩
  | skip hpc => simp [hpc, HandlerPc.call] at hcall
  | rejectClosed hpc => simp [hpc, State.closeSocket, HandlerPc.call] at hcall
  | joinRoom hpc | joinSession hpc | joinUser hpc | joinEnter hpc | leaveFind hpc
  | leaveMissing hpc | leaveRoom hpc | leaveReply hpc | chatFind hpc =>
    rw [hpc]
    exact Or.inl hcall
  | joinNoSession | joinExists | joinReply | leaveNobody | leaveFault | leaveRemove | chatNobody
  | chatNoRoom | chatSend | reject | reset => simp [HandlerPc.call] at hcall

/-- The number of a call is that of its packet. -/
theorem HandlerPc.Asked.sequence {pc : HandlerPc} {call : Call} (h : pc.Asked fb)
    (hcall : pc.call = some call) :
    ∃ payload, fb.getPacket call.cmd.data = some ⟨payload, call.sequence⟩ := by
  cases pc with
  | ready | fault | resetSocket => simp [HandlerPc.call] at hcall
  | joinRoom | joinSession | joinUser | joinEnter | joinReply | leaveFind | leaveRoom | leaveReply
  | leaveRemove =>
    cases hcall
    obtain ⟨request, hget⟩ := h
    exact ⟨_, hget⟩
  | chatFind | chatSend =>
    cases hcall
    obtain ⟨request, hget, -⟩ := h
    exact ⟨_, hget⟩

/-- The responses to a request, as the client sees them. -/
def ServerPacket.isResponse : ServerPacket → Bool
  | .joinedRoomResponse _ => true
  | .leftRoomResponse _ => true
  | _ => false

/-- Where a response goes to. -/
theorem posting_response {choice : Choice} {conn : Conn} {packet : ServerPacket} {accepted : Bool}
    (hm : .posted conn packet accepted ∈ s.posting fb (.logic choice))
    (hresponse : ServerPacket.isResponse packet = true) :
    ∃ call user, (s.handler = .joinReply call user ∨ s.handler = .leaveReply call user) ∧
      (received packet).sequence = call.sequence ∧ conn = s.current user.session.tcpClient ∧
      (s.pool user.session.tcpClient).isConnected = true := by
  simp only [State.posting] at hm
  cases hout : s.outgoing choice.now with
  | none => simp [hout] at hm
  | some out =>
    obtain ⟨packet', users⟩ := out
    simp only [hout] at hm
    obtain ⟨i, user, hu, hposts, he⟩ := mem_postings.mp hm
    cases he
    have hopen : (s.pool user.session.tcpClient).isConnected = true :=
      ((Bool.and_eq_true _ _).mp hposts).1
    cases hpc : s.handler with
    | joinReply call user' =>
      simp only [State.outgoing, hpc, Option.some.injEq, Prod.mk.injEq] at hout
      obtain ⟨rfl, rfl⟩ := hout
      have huser : user = user' := List.mem_singleton.mp (List.mem_of_getElem? hu)
      subst huser
      exact ⟨call, user, Or.inl rfl, rfl, rfl, hopen⟩
    | leaveReply call user' =>
      simp only [State.outgoing, hpc, Option.some.injEq, Prod.mk.injEq] at hout
      obtain ⟨rfl, rfl⟩ := hout
      have huser : user = user' := List.mem_singleton.mp (List.mem_of_getElem? hu)
      subst huser
      exact ⟨call, user, Or.inr rfl, rfl, rfl, hopen⟩
    | joinEnter call room user' =>
      simp only [State.outgoing, hpc, Option.some.injEq, Prod.mk.injEq] at hout
      obtain ⟨rfl, -⟩ := hout
      simp [ServerPacket.isResponse] at hresponse
    | leaveRoom call user' =>
      simp only [State.outgoing, hpc, Option.bind_eq_some_iff, Option.map_eq_some_iff,
        Prod.mk.injEq] at hout
      obtain ⟨room, -, left, -, rfl, -⟩ := hout
      simp [ServerPacket.isResponse] at hresponse
    | chatSend call message user' =>
      simp only [State.outgoing, hpc, Option.map_eq_some_iff, Prod.mk.injEq] at hout
      obtain ⟨room, -, rfl, -⟩ := hout
      simp [ServerPacket.isResponse] at hresponse
    | _ => simp [State.outgoing, hpc] at hout

end

/-! ## Runs -/

/-- A response that was posted to a connection while a request from there was handled. -/
structure Answering (w : World) (conn : Conn) (d : Delivery) : Prop where
  origin : d.call.cmd.conn = conn
  sequence : (received d.packet).sequence = d.call.sequence
  sent : ∃ request ∈ w.requests, request.conn = conn ∧ request.payload = d.call.cmd.data ∧
    request.tracking.sequence = d.call.sequence

/-- `handling`: what the server handles was sent on the connection it came from. -/
structure Attributed (fb : FlatBuffers) (w : World) : Prop where
  connected : ∀ i conn, (w.clients i).conn = some conn → w.owner conn = some i
  owned : ∀ request ∈ w.requests, w.owner request.conn = some request.client
  numbered : ∀ request ∈ w.requests, ∃ packet, fb.getPacket request.payload = some packet ∧
    request.tracking.sequence = packet.sequence
  asked : w.server.handler.Asked fb
  handling : ∀ call, w.server.handler.call = some call →
    ∃ request ∈ w.requests, request.conn = call.cmd.conn ∧ request.payload = call.cmd.data
  answering : ∀ conn, ∀ d ∈ w.transit conn, ServerPacket.isResponse d.packet = true →
    Answering w conn d
  own : ∀ r ∈ w.resolutions, r.Own w

section
variable {cfg : Config} {fb : FlatBuffers} {w v : World} {conn : Conn} {d : Delivery}
  {r : Resolution}

theorem Answering.mono (h : Answering w conn d)
    (hsub : ∀ request ∈ w.requests, request ∈ v.requests) : Answering v conn d := by
  obtain ⟨request, hm, hrequest⟩ := h.sent
  exact ⟨h.origin, h.sequence, request, hsub request hm, hrequest⟩

theorem Resolution.Own.mono (h : r.Own w) (hsub : ∀ request ∈ w.requests, request ∈ v.requests) :
    r.Own v := by
  obtain ⟨hsequence, request, hm, hrequest⟩ := h
  exact ⟨hsequence, request, hsub request hm, hrequest⟩

/-- A step of a client that sends nothing and stays on its connection. -/
theorem Attributed.client (h : Attributed fb w) (i : Nat) {c : ChatClient}
    (hconn : c.conn = (w.clients i).conn ∨ c.conn = none) : Attributed fb (w.setClient i c) := by
  refine ⟨fun j conn hj => ?_, h.owned, h.numbered, h.asked, h.handling, fun conn d hm hd => ?_,
    fun r hm => ?_⟩
  · by_cases hji : j = i
    · subst hji
      simp only [World.setClient, Function.update_self] at hj
      rcases hconn with he | he
      · exact h.connected j conn (by rw [← he]; exact hj)
      · rw [he] at hj
        simp at hj
    · simp only [World.setClient, Function.update_of_ne hji] at hj
      exact h.connected j conn hj
  · exact (h.answering conn d hm hd).mono fun _ hr => hr
  · exact (h.own r hm).mono fun _ hr => hr

theorem requestTracking_sequence {packet : Packet} {tracking : RequestTracking}
    (h : requestTracking packet = some tracking) : tracking.sequence = packet.sequence := by
  unfold requestTracking at h
  split at h
  · cases h
    rfl
  · cases h
    rfl
  · cases h
    rfl
  · simp at h

theorem Attributed.send (h : Attributed fb w) {i : Nat} {payload : List UInt8} {ok : Bool}
    (hs : w.send fb i payload ok = some v) : Attributed fb v := by
  unfold World.send at hs
  split at hs
  · simp at hs
  · rename_i tracking htracking
    obtain ⟨packet, hpacket, htrack⟩ := Option.bind_eq_some_iff.mp htracking
    split at hs
    · simp only at hs
      split at hs
      · rename_i conn hconn
        cases hs
        have hsub : ∀ request ∈ w.requests,
            request ∈ w.requests ++ [⟨i, conn, payload, tracking⟩] :=
          fun request hm => List.mem_append_left _ hm
        have hstay := h.client i (c := { w.clients i with
          nextSequence := ((w.clients i).nextSequence + 1) % 2 ^ 32
          sending := some tracking }) (Or.inl rfl)
        refine ⟨hstay.connected, ?_, ?_, h.asked, ?_, ?_, ?_⟩
        · intro request hm
          rcases List.mem_append.mp hm with hm | hm
          · exact h.owned request hm
          · rw [List.mem_singleton.mp hm]
            exact h.connected i conn hconn
        · intro request hm
          rcases List.mem_append.mp hm with hm | hm
          · exact h.numbered request hm
          · rw [List.mem_singleton.mp hm]
            exact ⟨packet, hpacket, requestTracking_sequence htrack⟩
        · intro call hcall
          obtain ⟨request, hm, hrequest⟩ := h.handling call hcall
          exact ⟨request, hsub request hm, hrequest⟩
        · intro c d hm hd
          exact (h.answering c d hm hd).mono hsub
        · intro r hm
          exact (h.own r hm).mono hsub
      · cases hs
        exact h.client i (Or.inl rfl)
    · simp at hs

/-- What is delivered to a client and resolves one of its requests is the response to that
request. -/
theorem Attributed.deliver (h : Attributed fb w) {nowNs : Nat}
    (hok : AnswersOwn w (.deliver conn nowNs) = true) (hs : w.deliver conn nowNs = some v) :
    Attributed fb v := by
  unfold World.deliver at hs
  split at hs
  · rename_i d rest i htransit howner
    split at hs
    · cases hs
      have hstay := h.client i (c := { w.clients i with
        metrics := (w.clients i).metrics.resolveRequest (received d.packet) nowNs }) (Or.inl rfl)
      refine ⟨hstay.connected, h.owned, h.numbered, h.asked, h.handling, ?_, ?_⟩
      · intro c e hm he
        by_cases hc : c = conn
        · subst hc
          simp only [Function.update_self] at hm
          exact (h.answering c e (by rw [htransit]; exact List.mem_cons_of_mem _ hm) he).mono
            fun _ hr => hr
        · simp only [Function.update_of_ne hc] at hm
          exact (h.answering c e hm he).mono fun _ hr => hr
      · intro r hm
        rcases List.mem_append.mp hm with hm | hm
        · exact (h.own r hm).mono fun _ hr => hr
        · split at hm
          · rename_i hremoves
            rw [List.mem_singleton.mp hm]
            obtain ⟨hzero, found, hfound, htype⟩ :=
              AtomicClientMetrics.find_of_removes hremoves
            have hresponse : ServerPacket.isResponse d.packet = true := by
              obtain ⟨packet, call⟩ := d
              cases packet with
              | joinedRoomResponse sequence => rfl
              | leftRoomResponse sequence => rfl
              | userJoinedBroadcast roomId userId username => exact absurd rfl hzero
              | userLeftBroadcast userId username => exact absurd rfl hzero
              | chatMessageBroadcast senderId username message timestamp sequence =>
                simp only [AnswersOwn, htransit, howner] at hok
                have hf : (w.clients i).metrics.find sequence = some found := hfound
                simp only [hf, Option.all_some, bne_iff_ne] at hok
                exact absurd htype hok
            have hanswer := h.answering conn d (by rw [htransit]; exact List.mem_cons_self ..)
              hresponse
            obtain ⟨request, hrm, hrconn, hrdata, hrseq⟩ := hanswer.sent
            have hclient : request.client = i := by
              have ho := h.owned request hrm
              rw [hrconn, howner] at ho
              exact (Option.some.inj ho).symm
            exact ⟨hanswer.sequence.symm, request, hrm, hclient, hrconn.trans hanswer.origin.symm,
              hrdata, hrseq.trans hanswer.sequence.symm⟩
          · simp at hm
    · simp at hs
  · simp at hs

/-- What the logic thread posts in answer to a request goes to the connection of the request. -/
theorem Attributed.posted (h : Attributed fb w) {l : RoomLabel}
    (hok : AnswersOwn w (.server l) = true)
    (hm : d ∈ (w.server.posted fb l).filterMap (Event.delivery conn w.server.handler.call))
    (hd : ServerPacket.isResponse d.packet = true) : Answering w conn d := by
  obtain ⟨e, he, hdelivery⟩ := List.mem_filterMap.mp hm
  cases l with
  | kickRoom w' room => simp [State.posted] at he
  | kicked w' => simp [State.posted] at he
  | server l =>
    cases l with
    | logic choice =>
      cases e with
      | posted c packet accepted =>
        cases accepted with
        | false => simp [Event.delivery] at hdelivery
        | true =>
          simp only [Event.delivery] at hdelivery
          split at hdelivery
          · rename_i hc
            obtain ⟨call, hcall, rfl⟩ := Option.map_eq_some_iff.mp hdelivery
            obtain ⟨call', user, hpc, hsequence, hcurrent, hopen⟩ := posting_response he hd
            have hsame : call' = call := by
              rcases hpc with hpc | hpc
              · rw [hpc] at hcall
                exact Option.some.inj hcall
              · rw [hpc] at hcall
                exact Option.some.inj hcall
            subst hsame
            -- the reply goes to the connection that the command came from
            have horigin : call'.cmd.conn = conn := by
              have hgoes : w.server.current user.session.tcpClient = call'.cmd.conn := by
                rcases hpc with hpc | hpc
                · simpa [AnswersOwn, hpc, hopen] using hok
                · simpa [AnswersOwn, hpc, hopen] using hok
              rw [← hc, hcurrent, hgoes]
            obtain ⟨request, hrm, hrconn, hrdata⟩ := h.handling call' hcall
            obtain ⟨packet', hget, hnumber⟩ := h.numbered request hrm
            obtain ⟨payload, hpayload⟩ := h.asked.sequence hcall
            rw [hrdata, hpayload] at hget
            cases hget
            exact ⟨horigin, hsequence, request, hrm, hrconn.trans horigin, hrdata, hnumber⟩
          · simp at hdelivery
      | _ => simp [Event.delivery] at hdelivery
    | _ => simp [State.posted, State.posting] at he

/-- The call in the hands of a handler was dispatched as a request that was sent. -/
theorem Attributed.handled (h : Attributed fb w) {l : RoomLabel} {t : State}
    (hok : AnswersOwn w (.server l) = true) (hs : w.server.roomStep cfg fb l = some t) {call : Call}
    (hcall : t.handler.call = some call) :
    ∃ request ∈ w.requests, request.conn = call.cmd.conn ∧ request.payload = call.cmd.data := by
  cases roomStep_registry hs with
  | thin _ _ _ hhandler _ =>
    rw [hhandler] at hcall
    exact h.handling call hcall
  | logic hl hlogic =>
    subst hl
    rcases hlogic.serves hcall with hsame | ⟨hready, hhead⟩
    · exact h.handling call hsame
    · simp only [AnswersOwn, hready, hhead, Option.all_some, List.any_eq_true, Bool.and_eq_true,
        beq_iff_eq] at hok
      exact hok

theorem Attributed.serve (h : Attributed fb w) {l : RoomLabel}
    (hok : AnswersOwn w (.server l) = true) (hs : w.serve cfg fb l = some v) :
    Attributed fb v := by
  unfold World.serve at hs
  split at hs
  · obtain ⟨t, ht, rfl⟩ := Option.map_eq_some_iff.mp hs
    refine ⟨h.connected, h.owned, h.numbered, h.asked.roomStep ht, fun call => h.handled hok ht,
      ?_, ?_⟩
    · intro conn d hm hd
      rcases List.mem_append.mp hm with hm | hm
      · exact (h.answering conn d hm hd).mono fun _ hr => hr
      · exact (h.posted hok hm hd).mono fun _ hr => hr
    · intro r hm
      exact (h.own r hm).mono fun _ hr => hr
  · simp at hs

theorem Attributed.step (h : Attributed fb w) {l : WorldLabel} (hok : AnswersOwn w l = true)
    (hs : w.step cfg fb l = some v) : Attributed fb v := by
  cases l with
  | connect i conn =>
    simp only [World.step] at hs
    split at hs
    · rename_i hfree
      cases hs
      rw [Option.isNone_iff_eq_none] at hfree
      have howner : ∀ c j, w.owner c = some j →
          Function.update w.owner conn (some i) c = some j := by
        intro c j hc
        have hne : c ≠ conn := by
          rintro rfl
          simp [hfree] at hc
        rw [Function.update_of_ne hne]
        exact hc
      refine ⟨fun j c hj => ?_, fun request hm => howner _ _ (h.owned request hm), h.numbered,
        h.asked, h.handling, ?_, ?_⟩
      · by_cases hji : j = i
        · subst hji
          simp only [World.setClient, Function.update_self, Option.some.injEq] at hj
          subst hj
          exact Function.update_self ..
        · simp only [World.setClient, Function.update_of_ne hji] at hj
          exact howner c j (h.connected j c hj)
      · intro c d hm hd
        exact (h.answering c d hm hd).mono fun _ hr => hr
      · intro r hm
        exact (h.own r hm).mono fun _ hr => hr
    · simp at hs
  | disconnect i =>
    cases hs
    exact h.client i (Or.inr rfl)
  | send i payload ok => exact h.send hs
  | track i timeout nowNs =>
    simp only [World.step] at hs
    split at hs
    · cases hs
      exact h.client i (Or.inl rfl)
    · simp at hs
  | expire i nowNs =>
    cases hs
    exact h.client i (Or.inl rfl)
  | deliver conn nowNs => exact h.deliver hok hs
  | server l => exact h.serve hok hs

end

/-- **Own answers.** Whatever resolves a pending request of a client was produced for that
request. -/
theorem resolved_by_own_answer (cfg : Config) (fb : FlatBuffers) {w : World}
    (h : (chatWorld cfg fb).Reach (fun w l => AnswersOwn w l = true) w) :
    ∀ r ∈ w.resolutions, r.Own w := by
  have hinv : Attributed fb w := by
    refine h.invariant (I := Attributed fb) ?_ fun _ hi hok hs => hi.step hok hs
    exact ⟨by simp [chatWorld, World.new, ChatClient.new], nofun, nofun, trivial, nofun, nofun,
      nofun⟩
  exact hinv.own

/-- A client sends a request and tracks it, with five seconds to wait. -/
def asks (i : Nat) (payload : List UInt8) : List WorldLabel :=
  [.send i payload true, .track i 5000 0]

/-- A client joins, and its request is resolved by the response. -/
theorem resolved_by_own_answer_join : ∃ w,
    (chatWorld smallServer conversation).Reach (fun w l => AnswersOwn w l = true) w ∧
      ∃ r ∈ w.resolutions, r.client = 0 ∧ r.sequence = 1 ∧ r.Own w := by
  obtain ⟨w, hr, hp⟩ := System.reach_of_exec (chatWorld smallServer conversation)
    (fun w l => AnswersOwn w l = true)
    (.connect 0 ⟨0, 1⟩ :: asks 0 joinBytes ++
      ((accepts 0 4 ++ receives 0 ⟨0, 1⟩ (frameBytes joinBytes) 1 ++ ticks 6).map
        fun l => .server (.server l)) ++ [.deliver ⟨0, 1⟩ 8])
    (fun w => w.resolutions.any fun r => r.client == 0 && r.sequence == 1) (by decide +kernel)
  obtain ⟨r, hm, hrp⟩ := List.any_eq_true.mp hp
  simp only [Bool.and_eq_true, beq_iff_eq] at hrp
  exact ⟨w, hr, r, hm, hrp.1, hrp.2, resolved_by_own_answer smallServer conversation hr r hm⟩

/-- Both clients have joined and say `hi`, each with its own request 2. The server gets only that
of the second, and its broadcast resolves the request of the first. -/
theorem resolved_by_anothers_message : ∃ w,
    (chatWorld smallServer conversation).Reach System.always w ∧
      ∃ r ∈ w.resolutions, r.client = 0 ∧ r.sequence = 2 ∧ r.call.cmd.conn = ⟨1, 1⟩ ∧
        ¬ r.Own w := by
  obtain ⟨w, hr, hp⟩ := System.reach_of_exec (chatWorld smallServer conversation) System.always
    ([.connect 0 ⟨0, 1⟩, .connect 1 ⟨1, 1⟩] ++ asks 0 joinBytes ++ asks 1 joinBytes ++
      ((accepts 0 4 ++ accepts 1 5 ++ receives 0 ⟨0, 1⟩ (frameBytes joinBytes) 1 ++
        receives 1 ⟨1, 1⟩ (frameBytes joinBytes) 1 ++ ticks 12).map
        fun l => .server (.server l)) ++ asks 0 chatBytes ++ asks 1 chatBytes ++
      ((receives 1 ⟨1, 1⟩ (frameBytes chatBytes) 1 ++ ticks 3).map
        fun l => .server (.server l)) ++ List.replicate 3 (.deliver ⟨0, 1⟩ 8))
    (fun w => (w.resolutions.any fun r =>
        r.client == 0 && r.sequence == 2 && r.call.cmd.conn == ⟨1, 1⟩) &&
      w.requests.all fun request => request.client != 0 || request.conn == ⟨0, 1⟩)
    (by decide +kernel)
  obtain ⟨hany, hall⟩ := (Bool.and_eq_true _ _).mp hp
  obtain ⟨r, hm, hrp⟩ := List.any_eq_true.mp hany
  simp only [Bool.and_eq_true, beq_iff_eq] at hrp
  obtain ⟨⟨hclient, hsequence⟩, hconn⟩ := hrp
  refine ⟨w, hr, r, hm, hclient, hsequence, hconn, ?_⟩
  rintro ⟨-, request, hrm, hown, hfrom, -⟩
  have hzero := List.all_eq_true.mp hall request hrm
  rw [hown, hclient, hfrom, hconn] at hzero
  simp at hzero

end Highp.Chat
