import Highp.Chat.Alone
import Highp.Chat.Posts
import Highp.Network.CommandOrder

/-! The order of a conversation. Bytes become frames in the buffer of a slot, frames become
commands in one queue, and the logic thread broadcasts the messages one after the other. -/

namespace Highp.Chat
open Highp.Lib Highp.Network

/-! ## History: bytes and messages -/

/-- A message that was broadcast: its command and the packet. -/
structure Message where
  cmd : PacketCommand
  packet : ServerPacket

/-- `stream` is what was received on a connection, `waiting` the connection whose bytes are in
the frame buffer of a slot, and `messages` is the conversation. -/
structure Talk where
  stream : Conn → List UInt8
  waiting : Slot → Option Conn
  messages : List Message

def Talk.received (h : Talk) (conn : Conn) (data : List UInt8) : Talk :=
  { h with stream := Function.update h.stream conn (h.stream conn ++ data) }

/-- `Append`: behind a chunk that did not fit no more bytes of its connection can follow. -/
def Talk.appended (h : Talk) (conn : Conn) (overflows : Bool) : Talk :=
  { h with
    waiting :=
      if !overflows then Function.update h.waiting conn.client (some conn)
      else if h.waiting conn.client = some conn then Function.update h.waiting conn.client none
      else h.waiting }

def Talk.note (s : State) (l : RoomLabel) (_ : State) (h : Talk) : Talk :=
  match l with
  | .server (.arrive conn data) => h.received conn data
  | .server (.worker w _) =>
    match s.workers[w]? with
    | some (.append conn n) =>
      h.appended conn ((s.pool conn.client).frameBuf.overflows (s.received conn.client n))
    | _ => h
  | .server (.logic choice) =>
    match s.handler, s.outgoing choice.now with
    | .chatSend call _ _, some (packet, _) =>
      { h with messages := h.messages ++ [⟨call.cmd, packet⟩] }
    | _, _ => h
  | _ => h

def talkServer (cfg : Config) (fb : FlatBuffers) : System (State × Talk) RoomLabel :=
  (roomServer cfg fb).recording ⟨fun _ => [], fun _ => none, []⟩ Talk.note

/-- A `ChatMessageBroadcast` that was passed to `PostSend` for a client. -/
def chatTo (client : Slot) : Event → Option ServerPacket
  | .posted conn (.chatMessageBroadcast senderId username message timestamp sequence) _ =>
    if conn.client = client then
      some (.chatMessageBroadcast senderId username message timestamp sequence)
    else none
  | _ => none

/-- The packet says what the command asks to say. -/
def Message.Said (fb : FlatBuffers) (m : Message) : Prop :=
  ∃ request sequence senderId username now,
    fb.getPacket m.cmd.data = some ⟨.sendMessageRequest (some request), sequence⟩ ∧
    m.packet = .chatMessageBroadcast senderId username request.message now sequence

/-- All see one conversation: what the server passes to `PostSend` for a client is a part of it,
and the messages of a connection are in it in the order of their frames in the stream. -/
structure InOneOrder (fb : FlatBuffers) (s : State) (stream : Conn → List UInt8)
    (messages : List Message) : Prop where
  said : ∀ m ∈ messages, m.Said fb
  heard : ∀ client, (s.log.filterMap (chatTo client)).Sublist (messages.map Message.packet)
  inTurn : ∀ conn, InTurn ((payloadsOn conn (messages.map Message.cmd)).map frameBytes)
    (stream conn)

/-! ## The condition -/

/-- The connection whose completion a worker takes through `Receive`. -/
def WorkerPc.receiving : WorkerPc → Option Conn
  | .append conn _ => some conn
  | .assemble conn => some conn
  | .consume conn _ => some conn
  | .resetSocket conn .postNextRecv => some conn
  | .resetSocket conn (.consume _) => some conn
  | _ => none

/-- The connection whose frames a worker takes out of the frame buffer. -/
def WorkerPc.assembling : WorkerPc → Option Conn
  | .assemble conn => some conn
  | .consume conn _ => some conn
  | .resetSocket conn (.consume _) => some conn
  | _ => none

theorem receiving_of_assembling {pc : WorkerPc} {conn : Conn} (h : pc.assembling = some conn) :
    pc.receiving = some conn := by
  unfold WorkerPc.assembling at h
  split at h
  · exact h
  · exact h
  · exact h
  · cases h

/-- The slot whose bytes a worker is about to append. -/
def WorkerPc.appending : WorkerPc → Option Slot
  | .append conn _ => some conn.client
  | _ => none

/-- No worker is in `Receive` for a connection. -/
def State.rests (s : State) (conn : Conn) : Bool :=
  s.workers.all fun pc => pc.receiving != some conn

/-- The completions of one connection are handled one after the other. -/
def OneByOne (p : State × Talk) : RoomLabel → Bool
  | .server (.recvDone _ conn _) => p.1.rests conn
  | _ => true

/-- The completions of one connection are handled one after the other. Bytes are written into the
receive buffer of a slot only when all earlier ones have been appended. Bytes are appended to a
frame buffer only when nobody is assembling frames there and when nothing waits in it but the
bytes of the same connection in front of them. Nobody is listed twice among those to whom a
message is posted. -/
def KeepsOrder (fb : FlatBuffers) (p : State × Talk) : RoomLabel → Bool
  | .server (.arrive conn _) =>
    p.1.arrived.all (fun a => a.1.client != conn.client) &&
      p.1.workers.all fun pc => pc.appending != some conn.client
  | .server (.recvDone _ conn _) => p.1.rests conn
  | .server (.worker w _) =>
    match p.1.workers[w]? with
    | some (.append conn _) =>
      p.1.workers.all (fun pc => pc.assembling.all fun c => c.client != conn.client) &&
      ((p.1.pool conn.client).frameBuf.data.isEmpty || p.2.waiting conn.client == some conn)
    | _ => true
  | .server (.logic choice) =>
    match p.1.handler, p.1.outgoing choice.now with
    | .chatSend _ _ _, some (packet, users) =>
      decide ((users.filter (p.1.posts fb packet)).map fun user => user.session.tcpClient).Nodup
    | _, _ => true
  | _ => true

/-! ## What a client gets -/

section
variable {fb : FlatBuffers} {s t : State} {packet : ServerPacket} {client : Slot}

/-- Other packets are no part of the conversation. -/
theorem filterMap_postings_other (hother : ∀ conn accepted,
      chatTo client (.posted conn packet accepted) = none) (refused : List Nat) (k : Nat)
    (users : List User) :
    (s.postings fb packet refused k users).filterMap (chatTo client) = [] := by
  rw [List.filterMap_eq_nil_iff]
  intro e he
  obtain ⟨i, user, -, -, rfl⟩ := mem_postings.mp he
  exact hother _ _

/-- A client gets a message as often as it is listed. -/
theorem filterMap_postings (hchat : ∀ conn accepted,
      chatTo client (.posted conn packet accepted) =
        if conn.client = client then some packet else none) (refused : List Nat) (k : Nat)
    (users : List User) :
    (s.postings fb packet refused k users).filterMap (chatTo client) =
      List.replicate (((users.filter (s.posts fb packet)).map
        fun user => user.session.tcpClient).count client) packet := by
  induction users generalizing k with
  | nil => rfl
  | cons user users ih =>
    rw [State.postings]
    cases hposts : s.posts fb packet user with
    | false => simp [hposts, ih]
    | true =>
      simp only [if_true, List.filterMap_cons, hchat, State.current, hposts,
        List.filter_cons_of_pos, List.map_cons, List.count_cons, ih]
      by_cases hslot : user.session.tcpClient = client
      · simp [hslot, List.replicate_succ]
      · simp [hslot]

theorem filterMap_posting {choice : Choice} (h : Talk)
    (hok : KeepsOrder fb (s, h) (.server (.logic choice)) = true) :
    ((s.posting fb (.logic choice)).filterMap (chatTo client)).Sublist
      (match s.handler, s.outgoing choice.now with
        | .chatSend _ _ _, some (packet, _) => [packet]
        | _, _ => []) := by
  simp only [State.posting]
  cases hpc : s.handler with
  | chatSend call message user =>
    simp only [KeepsOrder, hpc, State.outgoing] at hok ⊢
    cases hroom : s.rooms.getRoom user.roomId with
    | none => simp
    | some room =>
      simp only [hroom, Option.map_some, decide_eq_true_eq] at hok ⊢
      rw [filterMap_postings fun _ _ => rfl]
      have hone := List.nodup_iff_count_le_one.mp hok client
      exact (List.replicate_sublist_replicate _).mpr hone
  | joinEnter call room user =>
    simp only [State.outgoing, hpc]
    rw [filterMap_postings_other fun _ _ => rfl]
  | joinReply call user =>
    simp only [State.outgoing, hpc]
    rw [filterMap_postings_other fun _ _ => rfl]
  | leaveReply call user =>
    simp only [State.outgoing, hpc]
    rw [filterMap_postings_other fun _ _ => rfl]
  | leaveRoom call user =>
    simp only [State.outgoing, hpc]
    cases s.rooms.getRoom user.roomId with
    | none => simp
    | some room =>
      simp only [Option.bind_some]
      cases (s.rooms.roomAt room).leave user.id with
      | none => simp
      | some left =>
        simp only [Option.map_some]
        rw [filterMap_postings_other fun _ _ => rfl]
  | _ => simp [State.outgoing, hpc]

end

/-! ## Workers in `Receive` -/

/-- No two workers take the same connection through `Receive`. -/
def Alone (workers : List WorkerPc) : Prop :=
  ∀ (i j : Nat) (pc pc' : WorkerPc) (conn : Conn), workers[i]? = some pc → workers[j]? = some pc' →
    pc.receiving = some conn → pc'.receiving = some conn → i = j

section
variable {workers : List WorkerPc} {w : Nat} {old new : WorkerPc} {conn : Conn}

theorem Alone.set (h : Alone workers) (hw : workers[w]? = some old)
    (hnew : ∀ conn, new.receiving = some conn →
      old.receiving = some conn ∨ ∀ pc ∈ workers, pc.receiving ≠ some conn) :
    Alone (workers.set w new) := by
  have hlt := (List.getElem?_eq_some_iff.mp hw).1
  -- the new place of worker `w` is as exclusive as its old one
  have hother : ∀ j pc conn, j ≠ w → workers[j]? = some pc → pc.receiving = some conn →
      new.receiving ≠ some conn := by
    intro j pc conn hj hpc hrec hn
    rcases hnew conn hn with hold | hnone
    · exact hj (h j w pc old conn hpc hw hrec hold)
    · exact hnone pc (List.mem_of_getElem? hpc) hrec
  intro i j pc pc' conn hi hj hrec hrec'
  by_cases hiw : i = w
  · by_cases hjw : j = w
    · rw [hiw, hjw]
    · rw [hiw, List.getElem?_set_self hlt] at hi
      cases hi
      rw [List.getElem?_set_ne (Ne.symm hjw)] at hj
      exact absurd hrec (hother j pc' conn hjw hj hrec')
  · rw [List.getElem?_set_ne (Ne.symm hiw)] at hi
    by_cases hjw : j = w
    · rw [hjw, List.getElem?_set_self hlt] at hj
      cases hj
      exact absurd hrec' (hother i pc conn hiw hi hrec)
    · rw [List.getElem?_set_ne (Ne.symm hjw)] at hj
      exact h i j pc pc' conn hi hj hrec hrec'

/-- When the worker of a connection goes on, nobody is left with bytes of it to append. -/
theorem Alone.appended (h : Alone workers) (hw : workers[w]? = some old)
    (hold : old.receiving = some conn) (hnew : ∀ n, new ≠ .append conn n) (n : Nat) :
    .append conn n ∉ workers.set w new := by
  have hlt := (List.getElem?_eq_some_iff.mp hw).1
  intro hm
  obtain ⟨j, hj⟩ := List.getElem?_of_mem hm
  by_cases hjw : j = w
  · rw [hjw, List.getElem?_set_self hlt] at hj
    exact hnew n (Option.some.inj hj)
  · rw [List.getElem?_set_ne (Ne.symm hjw)] at hj
    exact hjw (h j w _ old conn hj hw rfl hold)

/-- A worker that neither comes from an append nor goes to one. -/
theorem mem_append_set (hw : workers[w]? = some old) (hold : ∀ n, old ≠ .append conn n)
    (hnew : ∀ n, new ≠ .append conn n) (n : Nat) :
    .append conn n ∈ workers.set w new ↔ .append conn n ∈ workers := by
  constructor
  · intro hm
    rcases List.mem_or_eq_of_mem_set hm with hm | he
    · exact hm
    · exact absurd he.symm (hnew n)
  · intro hm
    exact mem_set_of_ne hw hm fun he => hold n he.symm

end

/-! ## The receive buffers -/

/-- The buffer of a slot holds these bytes of a connection, and no worker has appended them yet. -/
def State.unappended (s : State) (conn : Conn) (data : List UInt8) : Prop :=
  (conn, data) ∈ s.arrived ∨ ∃ n, .append conn n ∈ s.workers ∧ s.received conn.client n = data

/-- No buffer holds bytes of two receives, and what has arrived is still there. -/
structure Buffered (s : State) : Prop where
  slots : (s.arrived.map fun a => a.1.client).Nodup
  nonempty : ∀ a ∈ s.arrived, a.2 ≠ []
  apart : ∀ c n, .append c n ∈ s.workers → ∀ a ∈ s.arrived, a.1.client ≠ c.client
  held : ∀ a ∈ s.arrived, s.received a.1.client a.2.length = a.2

section
variable {s t : State} {conn : Conn} {w : Nat}

theorem Buffered.keep (h : Buffered s) (harrived : t.arrived = s.arrived)
    (hbufs : t.recvBufs = s.recvBufs)
    (hworkers : ∀ c n, .append c n ∈ t.workers → .append c n ∈ s.workers) : Buffered t where
  slots := harrived ▸ h.slots
  nonempty := harrived ▸ h.nonempty
  apart c n hm := harrived ▸ h.apart c n (hworkers c n hm)
  held := by
    rw [harrived]
    simpa only [State.received, hbufs] using h.held

/-- Bytes arrive in a buffer that holds none. -/
theorem Buffered.arrive {data : List UInt8} (h : Buffered s) (hdata : data ≠ [])
    (hfree : ∀ a ∈ s.arrived, a.1.client ≠ conn.client)
    (happend : ∀ pc ∈ s.workers, pc.appending ≠ some conn.client) :
    Buffered { s with
      recvBufs := Function.update s.recvBufs conn.client
        (data ++ (s.recvBufs conn.client).drop data.length)
      arrived := s.arrived ++ [(conn, data)] } := by
  refine ⟨?_, fun a ha => ?_, fun c n hm a ha => ?_, fun a ha => ?_⟩
  · rw [List.map_append, List.nodup_append]
    refine ⟨h.slots, by simp, fun i hi j hj => ?_⟩
    obtain ⟨a, ha, rfl⟩ := List.mem_map.mp hi
    rw [List.mem_singleton.mp hj]
    exact hfree a ha
  · rcases List.mem_append.mp ha with ha | ha
    · exact h.nonempty a ha
    · rw [List.mem_singleton.mp ha]
      exact hdata
  · rcases List.mem_append.mp ha with ha | ha
    · exact h.apart c n hm a ha
    · rw [List.mem_singleton.mp ha]
      exact fun he => happend _ hm (by rw [WorkerPc.appending, he])
  · rcases List.mem_append.mp ha with ha | ha
    · simpa [State.received, Function.update_of_ne (hfree a ha)] using h.held a ha
    · rw [List.mem_singleton.mp ha]
      simp [State.received]

/-- A receive that brings no bytes takes none of those that have arrived. -/
theorem Buffered.stillArrived (h : Buffered s) {result : IoResult}
    (hnone : ∀ data, result = .done data → data = []) : s.stillArrived conn result = s.arrived := by
  cases result with
  | done data =>
    refine List.erase_of_not_mem fun hm => h.nonempty _ hm (hnone data rfl)
  | failed error => rfl

/-- A worker that takes the bytes that have arrived. -/
theorem Buffered.chunk {data : List UInt8} (h : Buffered s) (hdata : (conn, data) ∈ s.arrived) :
    Buffered { s with
      recvs := s.recvs.erase conn
      arrived := s.arrived.erase (conn, data)
      workers := s.workers.set w (.append conn data.length) } where
  slots := h.slots.sublist (List.Sublist.map _ List.erase_sublist)
  nonempty a ha := h.nonempty a (List.mem_of_mem_erase ha)
  apart c n hm a ha := by
    rcases List.mem_or_eq_of_mem_set hm with hm | he
    · exact h.apart c n hm a (List.mem_of_mem_erase ha)
    · cases he
      have hperm := (List.perm_cons_erase hdata).map fun a => a.1.client
      have hnodup := hperm.nodup_iff.mp h.slots
      intro hslot
      exact (List.nodup_cons.mp hnodup).1 (List.mem_map.mpr ⟨a, ha, hslot⟩)
  held a ha := h.held a (List.mem_of_mem_erase ha)

theorem unappended_set {old new : WorkerPc} (hw : s.workers[w]? = some old)
    (hold : ∀ n, old ≠ .append conn n) (hnew : ∀ n, new ≠ .append conn n)
    (hworkers : t.workers = s.workers.set w new) (harrived : t.arrived = s.arrived)
    (hbufs : t.recvBufs = s.recvBufs) (data : List UInt8) :
    t.unappended conn data ↔ s.unappended conn data := by
  simp only [State.unappended, State.received, hworkers, harrived, hbufs,
    mem_append_set hw hold hnew]

end

/-! ## The invariant -/

/-- The command of a message that is being handled. -/
def HandlerPc.chatting : HandlerPc → List PacketCommand
  | .chatFind call _ => [call.cmd]
  | .chatSend call _ _ => [call.cmd]
  | _ => []

/-- The messages that were broadcast and the commands behind them. -/
def Talk.line (h : Talk) (s : State) : List PacketCommand :=
  h.messages.map Message.cmd ++ (s.handler.chatting ++ (s.batch ++ s.queue))

/-- The end of a stream that has not become frames: what waits in the frame buffer, and bytes that
have not been appended to it yet. -/
structure Unused (s : State) (h : Talk) (conn : Conn) (rest : List UInt8) : Prop where
  appending : ∀ data, s.unappended conn data → ∃ before, rest = before ++ data ∧
    (h.waiting conn.client = some conn → before = (s.pool conn.client).frameBuf.data)
  between : (∀ data, ¬ s.unappended conn data) → h.waiting conn.client = some conn →
    rest = (s.pool conn.client).frameBuf.data

/-- The frames of the line occur in the used part of the stream. -/
def Flows (s : State) (h : Talk) (conn : Conn) : Prop :=
  ∃ used rest, h.stream conn = used ++ rest ∧
    InTurn ((payloadsOn conn (h.line s)).map frameBytes) used ∧ Unused s h conn rest

structure Sequenced (s : State) (h : Talk) : Prop where
  alone : Alone s.workers
  buffered : Buffered s
  owner : ∀ pc ∈ s.workers, ∀ conn, pc.assembling = some conn →
    h.waiting conn.client = some conn
  flows : ∀ conn, Flows s h conn

section
variable {cfg : Config} {fb : FlatBuffers} {s t : State} {h h' : Talk} {conn : Conn}

theorem payloadsOn_sublist {xs ys : List PacketCommand} (hsub : xs.Sublist ys) (conn : Conn) :
    (payloadsOn conn xs).Sublist (payloadsOn conn ys) :=
  (hsub.filter _).map _

/-- A step that leaves the bytes of a connection alone. -/
theorem Flows.keep (hf : Flows s h conn)
    (hline : (payloadsOn conn (h'.line t)).Sublist (payloadsOn conn (h.line s)))
    (hstream : h'.stream conn = h.stream conn)
    (hwaiting : h'.waiting conn.client = some conn → h.waiting conn.client = some conn)
    (hchunks : ∀ data, t.unappended conn data ↔ s.unappended conn data)
    (hbuf : h'.waiting conn.client = some conn →
      (t.pool conn.client).frameBuf.data = (s.pool conn.client).frameBuf.data) :
    Flows t h' conn := by
  obtain ⟨used, rest, hsplit, hturn, hrest⟩ := hf
  refine ⟨used, rest, hstream.trans hsplit, hturn.sublist (hline.map _), ?_, ?_⟩
  · intro data hm
    obtain ⟨before, he, hb⟩ := hrest.appending data ((hchunks data).mp hm)
    refine ⟨before, he, fun hw => ?_⟩
    rw [hbuf hw]
    exact hb (hwaiting hw)
  · intro hnone hw
    rw [hbuf hw]
    exact hrest.between (fun data hm => hnone data ((hchunks data).mpr hm)) (hwaiting hw)

/-! ## The logic thread -/

theorem update_frameBuf (pool : Pool) (client : Slot) {c : Client}
    (hc : c.frameBuf = (pool client).frameBuf) (i : Slot) :
    (Function.update pool client c i).frameBuf = (pool i).frameBuf := by
  by_cases hi : i = client
  · subst hi
    simpa using hc
  · simp [hi]

theorem logicStep_frameBuf {choice : Choice} (hs : s.logicStep fb choice = some t) (i : Slot) :
    (t.pool i).frameBuf = (s.pool i).frameBuf := by
  cases logicStep_traffic hs with
  | silent hpool _ _ => rw [hpool]
  | @closing client hpool _ =>
    rw [hpool]
    exact @update_frameBuf s.pool client (s.pool client).emitDisconnectedEvent rfl i
  | @reset client hpool _ =>
    rw [hpool]
    exact @update_frameBuf s.pool client (s.pool client).resetSocket rfl i
  | sent packet refused users hpool _ =>
    rw [hpool]
    exact sendAll_frameBuf fb packet refused users s 0 i

theorem note_logic (s : State) (choice : Choice) (t : State) (h : Talk) :
    (Talk.note s (.server (.logic choice)) t h).stream = h.stream ∧
      (Talk.note s (.server (.logic choice)) t h).waiting = h.waiting := by
  simp only [Talk.note]
  split
  · exact ⟨rfl, rfl⟩
  · exact ⟨rfl, rfl⟩

/-- A handler takes commands off the line, and broadcasts the one that it has in its hands. -/
theorem line_logic {choice : Choice} (h : Talk) (hs : LogicStep s choice t) :
    ((Talk.note s (.server (.logic choice)) t h).line t).Sublist (h.line s) := by
  have hsent : ∀ call message user, s.handler = .chatSend call message user →
      t.handler = .ready → t.batch = s.batch → t.queue = s.queue →
      ((Talk.note s (.server (.logic choice)) t h).line t).Sublist (h.line s) := by
    intro call message user hpc hready hbatch hqueue
    simp only [Talk.line, hready, hbatch, hqueue, hpc, HandlerPc.chatting, Talk.note]
    split
    · rename_i he _
      cases he
      simp
    · simp
  have hquiet : (∀ call message user, s.handler ≠ .chatSend call message user) →
      Talk.note s (.server (.logic choice)) t h = h := by
    intro hne
    simp only [Talk.note]
    split
    · exact absurd ‹_› (hne _ _ _)
    · rfl
  cases hs with
  | chatNoRoom hpc => exact hsent _ _ _ hpc rfl rfl rfl
  | chatSend hpc _ => exact hsent _ _ _ hpc rfl rfl rfl
  | skip hpc hb =>
    rw [hquiet (by simp [hpc])]
    simp [Talk.line, hpc, hb, HandlerPc.chatting]
  | startJoin _ _ hpc hb =>
    rw [hquiet (by simp [hpc])]
    simp [Talk.line, hpc, hb, HandlerPc.chatting]
  | startLeave _ hpc hb =>
    rw [hquiet (by simp [hpc])]
    simp [Talk.line, hpc, hb, HandlerPc.chatting]
  | startChat _ _ hpc hb =>
    rw [hquiet (by simp [hpc])]
    simp [Talk.line, hpc, hb, HandlerPc.chatting]
  | reject hpc hb _ =>
    rw [hquiet (by simp [hpc])]
    simp [Talk.line, hpc, hb, HandlerPc.chatting, State.closeSocket]
  | rejectClosed hpc hb _ =>
    rw [hquiet (by simp [hpc])]
    simp [Talk.line, hpc, hb, HandlerPc.chatting, State.closeSocket]
  | reset hpc =>
    rw [hquiet (by simp [hpc])]
    simp [Talk.line, hpc, HandlerPc.chatting, State.resetSocket]
  | chatFind hpc _ =>
    rw [hquiet (by simp [hpc])]
    simp [Talk.line, hpc, HandlerPc.chatting]
  | chatNobody hpc _ =>
    rw [hquiet (by simp [hpc])]
    simp [Talk.line, hpc, HandlerPc.chatting]
  | joinRoom hpc | joinNoSession hpc | joinSession hpc _ | joinExists hpc _ | joinUser hpc _ _
  | joinEnter hpc _ | joinReply hpc _ | leaveNobody hpc _ | leaveFind hpc _ | leaveFault hpc _
  | leaveMissing hpc _ _ | leaveRoom hpc _ _ _ | leaveReply hpc _ | leaveRemove hpc =>
    rw [hquiet (by simp [hpc])]
    simp [Talk.line, hpc, HandlerPc.chatting]

theorem LogicStep.buffers {choice : Choice} (hs : LogicStep s choice t) :
    t.arrived = s.arrived ∧ t.recvBufs = s.recvBufs := by
  cases hs <;> exact ⟨rfl, rfl⟩

theorem Sequenced.logic {choice : Choice} (hseq : Sequenced s h)
    (hs : s.logicStep fb choice = some t) :
    Sequenced t (Talk.note s (.server (.logic choice)) t h) := by
  have hworkers : t.workers = s.workers := (logicStep_inv hs).network.1
  obtain ⟨harrived, hbufs⟩ := (logicStep_inv hs).buffers
  obtain ⟨hstream, hwaiting⟩ := note_logic s choice t h
  refine ⟨hworkers ▸ hseq.alone, hseq.buffered.keep harrived hbufs (by rw [hworkers]; exact
    fun _ _ hm => hm), ?_, fun conn => ?_⟩
  · rw [hworkers, hwaiting]
    exact hseq.owner
  · have hline := payloadsOn_sublist (line_logic h (logicStep_inv hs)) conn
    refine (hseq.flows conn).keep hline (by rw [hstream]) (by rw [hwaiting]; exact id)
      (fun data => ?_) fun _ => ?_
    · simp only [State.unappended, State.received, hworkers, harrived, hbufs]
    · rw [logicStep_frameBuf hs]

/-! ## Workers -/

/-- A worker that is not about to append takes a step that leaves the bytes alone. -/
theorem Sequenced.plain {w : Nat} {old new : WorkerPc} (hseq : Sequenced s h)
    (hw : s.workers[w]? = some old) (hold : ∀ conn n, old ≠ .append conn n)
    (happend : ∀ conn n, new ≠ .append conn n)
    (hreceiving : ∀ conn, new.receiving = some conn → old.receiving = some conn)
    (hassembling : ∀ conn, new.assembling = some conn → old.assembling = some conn)
    (hworkers : t.workers = s.workers.set w new) (harrived : t.arrived = s.arrived)
    (hbufs : t.recvBufs = s.recvBufs)
    (hbuf : ∀ i, (t.pool i).frameBuf = (s.pool i).frameBuf) (hline : h.line t = h.line s) :
    Sequenced t h := by
  refine ⟨?_, hseq.buffered.keep harrived hbufs ?_, ?_, fun conn => ?_⟩
  · rw [hworkers]
    exact hseq.alone.set hw fun conn hc => .inl (hreceiving conn hc)
  · intro c n hm
    rw [hworkers] at hm
    exact (mem_append_set hw (hold c) (happend c) n).mp hm
  · intro pc hm conn hc
    rw [hworkers] at hm
    rcases List.mem_or_eq_of_mem_set hm with hm | rfl
    · exact hseq.owner pc hm conn hc
    · exact hseq.owner old (List.mem_of_getElem? hw) conn (hassembling conn hc)
  · exact (hseq.flows conn).keep (by rw [hline]) rfl id
      (unappended_set hw (hold conn) (happend conn) hworkers harrived hbufs) fun _ => by rw [hbuf]

/-- A worker that is not in `Receive` afterwards. -/
theorem Sequenced.outside {w : Nat} {old new : WorkerPc} (hseq : Sequenced s h)
    (hw : s.workers[w]? = some old) (hold : ∀ conn n, old ≠ .append conn n)
    (hnew : new.receiving = none) (hworkers : t.workers = s.workers.set w new)
    (harrived : t.arrived = s.arrived) (hbufs : t.recvBufs = s.recvBufs)
    (hbuf : ∀ i, (t.pool i).frameBuf = (s.pool i).frameBuf) (hline : h.line t = h.line s) :
    Sequenced t h := by
  refine hseq.plain hw hold ?_ (by simp [hnew]) ?_ hworkers harrived hbufs hbuf hline
  · rintro conn n rfl
    simp [WorkerPc.receiving] at hnew
  · intro conn hc
    rw [receiving_of_assembling hc] at hnew
    cases hnew

theorem onRecvDequeued_cons (conn : Conn) (byte : UInt8) (data : List UInt8) :
    onRecvDequeued conn (.done (byte :: data)) = .append conn (byte :: data).length :=
  rfl

theorem onRecvDequeued_failed (conn : Conn) (error : Nat) :
    (onRecvDequeued conn (.failed error)).receiving = none := by
  unfold onRecvDequeued
  split
  · rfl
  · rename_i event hd
    have hfailed : event.success = false := by
      unfold onDequeued at hd
      split at hd
      · simp at hd
      · split at hd
        · simp at hd
        · cases hd
          rfl
    simp [handleRecv, hfailed, WorkerPc.receiving]

/-- The kernel receives bytes. -/
theorem Sequenced.arrive {data : List UInt8} (hseq : Sequenced s h) (hdata : data ≠ [])
    (hfree : ∀ a ∈ s.arrived, a.1.client ≠ conn.client)
    (happend : ∀ pc ∈ s.workers, pc.appending ≠ some conn.client) :
    Sequenced { s with
      recvBufs := Function.update s.recvBufs conn.client
        (data ++ (s.recvBufs conn.client).drop data.length)
      arrived := s.arrived ++ [(conn, data)] } (h.received conn data) := by
  have hnone : ∀ d, ¬ s.unappended conn d := by
    rintro d (hd | ⟨n, hn, -⟩)
    · exact hfree _ hd rfl
    · exact happend _ hn rfl
  refine ⟨hseq.alone, hseq.buffered.arrive hdata hfree happend, hseq.owner, fun c => ?_⟩
  obtain ⟨used, rest, hsplit, hturn, hrest⟩ := hseq.flows c
  by_cases hc : c = conn
  · subst hc
    refine ⟨used, rest ++ data, by simp [Talk.received, hsplit], hturn, ?_, ?_⟩
    · rintro d (hd | ⟨n, hn, -⟩)
      · rcases List.mem_append.mp hd with hd | hd
        · exact absurd rfl (hfree _ hd)
        · cases List.mem_singleton.mp hd
          exact ⟨rest, rfl, hrest.between hnone⟩
      · exact absurd rfl (happend _ hn)
    · exact fun hno => absurd (.inl (List.mem_append_right _ (List.mem_singleton_self _)))
        (hno data)
  · refine (hseq.flows c).keep (List.Sublist.refl _) (by simp [Talk.received, hc]) id
      (fun d => ?_) fun _ => rfl
    have hworkers : ∀ n, .append c n ∈ s.workers → c.client ≠ conn.client :=
      fun n hn he => happend _ hn (by rw [WorkerPc.appending, he])
    refine or_congr ?_ (exists_congr fun n => and_congr_right fun hn => ?_)
    · simp [hc]
    · simp [State.received, Function.update_of_ne (hworkers n hn)]

/-- When the worker of a connection goes on, none of its bytes are left to be appended. -/
theorem Sequenced.unappended_gone {w n : Nat} {new : WorkerPc} (hseq : Sequenced s h)
    (hw : s.workers[w]? = some (.append conn n)) (hnew : ∀ m, new ≠ .append conn m)
    (hworkers : t.workers = s.workers.set w new) (harrived : t.arrived = s.arrived)
    (d : List UInt8) : ¬ t.unappended conn d := by
  rintro (hd | ⟨m, hm, -⟩)
  · rw [harrived] at hd
    exact hseq.buffered.apart conn n (List.mem_of_getElem? hw) _ hd rfl
  · rw [hworkers] at hm
    exact hseq.alone.appended hw rfl hnew m hm

/-- A worker takes up the bytes that have arrived. -/
theorem Sequenced.chunk {w : Nat} {data : List UInt8} (hseq : Sequenced s h)
    (hw : s.workers[w]? = some .idle) (hnone : ∀ pc ∈ s.workers, pc.receiving ≠ some conn)
    (hdata : (conn, data) ∈ s.arrived) :
    Sequenced { s with
      recvs := s.recvs.erase conn
      arrived := s.arrived.erase (conn, data)
      workers := s.workers.set w (.append conn data.length) } h := by
  refine ⟨?_, hseq.buffered.chunk hdata, ?_, fun c => ?_⟩
  · refine hseq.alone.set hw fun c hc => ?_
    cases hc
    exact Or.inr hnone
  · intro pc hm c hc
    rcases List.mem_or_eq_of_mem_set hm with hm | rfl
    · exact hseq.owner pc hm c hc
    · simp [WorkerPc.assembling] at hc
  · refine (hseq.flows c).keep (List.Sublist.refl _) rfl id (fun d => ?_) fun _ => rfl
    have hheld : s.received conn.client data.length = data := hseq.buffered.held _ hdata
    constructor
    · rintro (hd | ⟨n, hn, hd⟩)
      · exact .inl (List.mem_of_mem_erase hd)
      · rcases List.mem_or_eq_of_mem_set hn with hn | he
        · exact .inr ⟨n, hn, hd⟩
        · cases he
          rw [← hd]
          exact .inl (hheld.symm ▸ hdata)
    · rintro (hd | ⟨n, hn, hd⟩)
      · by_cases he : (c, d) = (conn, data)
        · cases he
          exact .inr ⟨_, mem_set_self hw, hheld⟩
        · exact .inl ((List.mem_erase_of_ne he).mpr hd)
      · exact .inr ⟨n, mem_set_of_ne hw hn (by simp), hd⟩

/-- `Append` succeeds. -/
theorem Sequenced.append {w n : Nat} (hseq : Sequenced s h)
    (hw : s.workers[w]? = some (.append conn n))
    (hidle : ∀ pc ∈ s.workers, ∀ c, pc.assembling = some c → c.client ≠ conn.client)
    (hbehind : (s.pool conn.client).frameBuf.data = [] ∨ h.waiting conn.client = some conn)
    (hworkers : t.workers = s.workers.set w (.assemble conn)) (harrived : t.arrived = s.arrived)
    (hbufs : t.recvBufs = s.recvBufs)
    (hbuf : (t.pool conn.client).frameBuf.data =
      (s.pool conn.client).frameBuf.data ++ s.received conn.client n)
    (hother : ∀ i, i ≠ conn.client → (t.pool i).frameBuf = (s.pool i).frameBuf)
    (hline : (h.appended conn false).line t = h.line s) :
    Sequenced t (h.appended conn false) := by
  have hwaiting : ∀ i, (h.appended conn false).waiting i =
      if i = conn.client then some conn else h.waiting i := by
    intro i
    by_cases hi : i = conn.client
    · subst hi
      simp [Talk.appended]
    · simp [Talk.appended, hi]
  refine ⟨?_, hseq.buffered.keep harrived hbufs ?_, ?_, fun c => ?_⟩
  · rw [hworkers]
    exact hseq.alone.set hw fun c hc => Or.inl hc
  · intro c m hm
    rw [hworkers] at hm
    exact (List.mem_or_eq_of_mem_set hm).resolve_right (by simp)
  · intro pc hm c hc
    rw [hworkers] at hm
    rcases List.mem_or_eq_of_mem_set hm with hm | rfl
    · rw [hwaiting, if_neg (hidle pc hm c hc)]
      exact hseq.owner pc hm c hc
    · cases hc
      rw [hwaiting, if_pos rfl]
  · by_cases hc : c = conn
    · subst hc
      have hgone : ∀ d, ¬ t.unappended c d :=
        hseq.unappended_gone hw (by simp) hworkers harrived
      obtain ⟨used, rest, hsplit, hturn, hrest⟩ := hseq.flows c
      obtain ⟨before, rfl, hbefore⟩ :=
        hrest.appending _ (.inr ⟨n, List.mem_of_getElem? hw, rfl⟩)
      rcases hbehind with hempty | hwait
      · refine ⟨used ++ before, s.received c.client n, ?_, ?_, fun d hd => absurd hd (hgone d), ?_⟩
        · simp [Talk.appended, hsplit]
        · rw [hline]
          exact hturn.append_right before
        · intro _ _
          rw [hbuf, hempty, List.nil_append]
      · refine ⟨used, before ++ s.received c.client n, hsplit, by rw [hline]; exact hturn,
          fun d hd => absurd hd (hgone d), fun _ _ => ?_⟩
        rw [hbuf, hbefore hwait]
    · have hne : (h.appended conn false).waiting c.client = some c → c.client ≠ conn.client := by
        intro hwait he
        rw [hwaiting, if_pos he] at hwait
        exact hc (Option.some.inj hwait).symm
      refine (hseq.flows c).keep (by rw [hline]) rfl ?_ ?_ fun hwait => by rw [hother _ (hne hwait)]
      · intro hwait
        have hslot := hne hwait
        rwa [hwaiting, if_neg hslot] at hwait
      · exact unappended_set hw (fun m he => hc (by cases he; rfl)) (by simp) hworkers harrived
          hbufs

/-- `Append` refuses a chunk. -/
theorem Sequenced.overflow {w n : Nat} {new : WorkerPc} (hseq : Sequenced s h)
    (hw : s.workers[w]? = some (.append conn n))
    (hidle : ∀ pc ∈ s.workers, ∀ c, pc.assembling = some c → c.client ≠ conn.client)
    (happend : ∀ c m, new ≠ .append c m)
    (hreceiving : ∀ c, new.receiving = some c → c = conn) (hassembling : new.assembling = none)
    (hworkers : t.workers = s.workers.set w new) (harrived : t.arrived = s.arrived)
    (hbufs : t.recvBufs = s.recvBufs)
    (hbuf : ∀ i, (t.pool i).frameBuf = (s.pool i).frameBuf)
    (hline : (h.appended conn true).line t = h.line s) : Sequenced t (h.appended conn true) := by
  have hwaiting : ∀ c : Conn, (h.appended conn true).waiting c.client = some c →
      c ≠ conn ∧ h.waiting c.client = some c := by
    intro c hwait
    by_cases howner : h.waiting conn.client = some conn
    · by_cases hslot : c.client = conn.client
      · simp [Talk.appended, howner, hslot] at hwait
      · refine ⟨fun he => hslot (by rw [he]), ?_⟩
        simpa [Talk.appended, howner, hslot] using hwait
    · have hsame : h.waiting c.client = some c := by simpa [Talk.appended, howner] using hwait
      exact ⟨fun he => howner (he ▸ hsame), hsame⟩
  refine ⟨?_, hseq.buffered.keep harrived hbufs ?_, ?_, fun c => ?_⟩
  · rw [hworkers]
    exact hseq.alone.set hw fun c hc => .inl (congrArg some (hreceiving c hc).symm)
  · intro c m hm
    rw [hworkers] at hm
    exact (List.mem_or_eq_of_mem_set hm).resolve_right (happend c m).symm
  · intro pc hm c hc
    rw [hworkers] at hm
    rcases List.mem_or_eq_of_mem_set hm with hm | rfl
    · have hslot := hidle pc hm c hc
      have hown := hseq.owner pc hm c hc
      by_cases howner : h.waiting conn.client = some conn
      · simpa [Talk.appended, howner, hslot] using hown
      · simpa [Talk.appended, howner] using hown
    · simp [hassembling] at hc
  · by_cases hc : c = conn
    · subst hc
      obtain ⟨used, rest, hsplit, hturn, -⟩ := hseq.flows c
      refine ⟨used, rest, hsplit, by rw [hline]; exact hturn, ?_, ?_⟩
      · exact fun d hd => absurd hd (hseq.unappended_gone hw (happend c) hworkers harrived d)
      · intro _ hwait
        exact absurd rfl (hwaiting c hwait).1
    · refine (hseq.flows c).keep (by rw [hline]) rfl (fun hwait => (hwaiting c hwait).2) ?_
        fun _ => by rw [hbuf]
      exact unappended_set hw (fun m he => hc (by cases he; rfl)) (happend c) hworkers harrived
        hbufs

/-- A worker in the assembly loop has used bytes from the front of the frame buffer, and has
pushed the commands `cmds` for them. -/
theorem Sequenced.consume (bytes : List UInt8) (cmds : List PacketCommand) {w : Nat}
    {old new : WorkerPc} (hseq : Sequenced s h) (hw : s.workers[w]? = some old)
    (hold : old.assembling = some conn) (hnew : new = .assemble conn ∨ new.receiving = none)
    (hworkers : t.workers = s.workers.set w new) (harrived : t.arrived = s.arrived)
    (hbufs : t.recvBufs = s.recvBufs)
    (hbuf : (s.pool conn.client).frameBuf.data = bytes ++ (t.pool conn.client).frameBuf.data)
    (hother : ∀ i, i ≠ conn.client → (t.pool i).frameBuf = (s.pool i).frameBuf)
    (hline : h.line t = h.line s ++ cmds) (hcmds : ∀ cmd ∈ cmds, cmd.conn = conn)
    (hframes : ∀ {blocks used}, InTurn blocks used →
      InTurn (blocks ++ (payloadsOn conn cmds).map frameBytes) (used ++ bytes)) :
    Sequenced t h := by
  have hown := hseq.owner old (List.mem_of_getElem? hw) conn hold
  have holdne : ∀ c n, old ≠ .append c n := by
    rintro c n rfl
    simp [WorkerPc.assembling] at hold
  have happend : ∀ c n, new ≠ .append c n := by
    rintro c n rfl
    rcases hnew with he | he
    · simp at he
    · simp [WorkerPc.receiving] at he
  refine ⟨?_, hseq.buffered.keep harrived hbufs ?_, ?_, fun c => ?_⟩
  · rw [hworkers]
    refine hseq.alone.set hw fun c hc => ?_
    rcases hnew with rfl | he
    · exact Or.inl (hc ▸ receiving_of_assembling hold)
    · simp [he] at hc
  · intro c n hm
    rw [hworkers] at hm
    exact (mem_append_set hw (holdne c) (happend c) n).mp hm
  · intro pc hm c hc
    rw [hworkers] at hm
    rcases List.mem_or_eq_of_mem_set hm with hm | rfl
    · exact hseq.owner pc hm c hc
    · rcases hnew with rfl | he
      · cases hc
        exact hown
      · rw [receiving_of_assembling hc] at he
        cases he
  · have hchunks : ∀ data, t.unappended c data ↔ s.unappended c data :=
      unappended_set hw (holdne c) (happend c) hworkers harrived hbufs
    by_cases hc : c = conn
    · subst hc
      obtain ⟨used, rest, hsplit, hturn, hrest⟩ := hseq.flows c
      -- the bytes are at the front of what is left, whether more have arrived or not
      have hfront : ∃ rest', rest = bytes ++ rest' := by
        by_cases hnone : ∀ data, ¬ s.unappended c data
        · exact ⟨_, (hrest.between hnone hown).trans hbuf⟩
        · push Not at hnone
          obtain ⟨data, hdata⟩ := hnone
          obtain ⟨before, he, hbefore⟩ := hrest.appending data hdata
          exact ⟨(t.pool c.client).frameBuf.data ++ data, by
            rw [he, hbefore hown, hbuf, List.append_assoc]⟩
      obtain ⟨rest', rfl⟩ := hfront
      refine ⟨used ++ bytes, rest', by rw [hsplit, List.append_assoc], ?_, fun data hdata => ?_,
        fun hnone _ => ?_⟩
      · rw [hline, payloadsOn, List.filter_append, List.map_append, List.map_append]
        exact hframes hturn
      · obtain ⟨before, he, hbefore⟩ := hrest.appending data ((hchunks data).mp hdata)
        rw [hbefore hown, hbuf, List.append_assoc] at he
        exact ⟨_, List.append_cancel_left he, fun _ => rfl⟩
      · have hall := hrest.between (fun data hdata => hnone data ((hchunks data).mpr hdata)) hown
        rw [hbuf] at hall
        exact List.append_cancel_left hall
    · have hslot : h.waiting c.client = some c → c.client ≠ conn.client := by
        intro hwait he
        rw [he, hown] at hwait
        exact hc (Option.some.inj hwait).symm
      have hsame : payloadsOn c (h.line t) = payloadsOn c (h.line s) := by
        have hnil : cmds.filter (fun cmd => decide (cmd.conn = c)) = [] := by
          rw [List.filter_eq_nil_iff]
          intro cmd hm
          simpa [hcmds cmd hm] using Ne.symm hc
        rw [hline, payloadsOn, List.filter_append, hnil, List.append_nil]
        rfl
      exact (hseq.flows c).keep (by rw [hsame]) rfl id hchunks fun hwait => by
        rw [hother _ (hslot hwait)]

theorem note_worker {w : Nat} {ok : Bool} {pc : WorkerPc} (t : State) (h : Talk)
    (hw : s.workers[w]? = some pc) (hpc : ∀ conn data, pc ≠ .append conn data) :
    Talk.note s (.server (.worker w ok)) t h = h := by
  simp only [Talk.note, hw]
  split
  · rename_i he
    exact absurd (Option.some.inj he) (hpc _ _)
  · rfl

theorem append_true {f g : FrameBuffer} {data : List UInt8} (ha : f.append data = (true, g)) :
    f.overflows data = false ∧ g.data = f.data ++ data := by
  have hno : f.overflows data = false := by
    rw [← Bool.not_eq_true]
    intro ho
    simp [FrameBuffer.append, ho] at ha
  have hfits := (f.overflows_eq_false data).mp hno
  refine ⟨hno, ?_⟩
  have hdata := (FrameBuffer.append_ok hfits).2
  rwa [ha] at hdata

theorem payloadsOn_one (cmd : PacketCommand) : payloadsOn cmd.conn [cmd] = [cmd.data] := by
  simp [payloadsOn]

/-- A place behind a `Close` or in it, for a worker of `conn`. -/
structure ClosesIn (conn : Conn) (next : AfterClose) (pc : WorkerPc) : Prop where
  append : ∀ c n, pc ≠ .append c n
  receiving : ∀ c, pc.receiving = some c →
    c = conn ∧ (next = .postNextRecv ∨ ∃ n, next = .consume n)
  assembling : ∀ c, pc.assembling = some c → c = conn ∧ ∃ n, next = .consume n

theorem closesIn_pc (conn : Conn) (next : AfterClose) : ClosesIn conn next (next.pc conn) := by
  cases next with
  | setupClient | handleRecv | postNextRecv => exact ⟨nofun, nofun, nofun⟩
  | consume n =>
    refine ⟨nofun, fun c hc => ?_, fun c hc => ?_⟩
    · exact ⟨(Option.some.inj hc).symm, .inr ⟨n, rfl⟩⟩
    · exact ⟨(Option.some.inj hc).symm, n, rfl⟩

theorem closesIn_behindClose (s : State) (conn : Conn) (next : AfterClose) :
    ClosesIn conn next (s.behindClose conn next) := by
  rcases behindClose_cases s conn next with he | he
  · rw [he]
    cases next with
    | setupClient | handleRecv => exact ⟨nofun, nofun, nofun⟩
    | postNextRecv =>
      exact ⟨nofun, fun c hc => ⟨(Option.some.inj hc).symm, .inl rfl⟩, nofun⟩
    | consume n =>
      refine ⟨nofun, fun c hc => ?_, fun c hc => ?_⟩
      · exact ⟨(Option.some.inj hc).symm, .inr ⟨n, rfl⟩⟩
      · exact ⟨(Option.some.inj hc).symm, n, rfl⟩
  · rw [he]
    exact closesIn_pc conn next

theorem Sequenced.worker {w : Nat} {ok : Bool} (hseq : Sequenced s h)
    (hok : KeepsOrder fb (s, h) (.server (.worker w ok)) = true)
    (hs : s.step cfg fb (.worker w ok) = some t) :
    Sequenced t (Talk.note s (.server (.worker w ok)) t h) := by
  obtain ⟨pc, u, pc', hw, hstep, rfl⟩ := step_worker hs
  have houtside : ∀ {v : State}, v.workers = s.workers.set w pc' →
      (∀ conn n, pc ≠ .append conn n) → pc'.receiving = none → v.arrived = s.arrived →
      v.recvBufs = s.recvBufs → (∀ i, (v.pool i).frameBuf = (s.pool i).frameBuf) →
      h.line v = h.line s → Sequenced v (Talk.note s (.server (.worker w ok)) v h) := by
    intro v hworkers hpc hnew harrived hbufs hbuf hline
    rw [note_worker v h hw hpc]
    exact hseq.outside hw hpc hnew hworkers harrived hbufs hbuf hline
  -- the parts of a `Close` of the connection whose completion the worker handles
  have hclosing : ∀ {v : State} {conn : Conn} {next : AfterClose}, ClosesIn conn next pc' →
      v.workers = s.workers.set w pc' → (∀ c n, pc ≠ .append c n) →
      ((next = .postNextRecv ∨ ∃ n, next = .consume n) → pc.receiving = some conn) →
      ((∃ n, next = .consume n) → pc.assembling = some conn) → v.arrived = s.arrived →
      v.recvBufs = s.recvBufs → (∀ i, (v.pool i).frameBuf = (s.pool i).frameBuf) →
      h.line v = h.line s → Sequenced v (Talk.note s (.server (.worker w ok)) v h) := by
    intro v conn next hin hworkers hpc hrec hasm harrived hbufs hbuf hline
    rw [note_worker v h hw hpc]
    refine hseq.plain hw hpc hin.append (fun c hc => ?_) (fun c hc => ?_) hworkers harrived hbufs
      hbuf hline
    · obtain ⟨rfl, hnext⟩ := hin.receiving c hc
      exact hrec hnext
    · obtain ⟨rfl, hnext⟩ := hin.assembling c hc
      exact hasm hnext
  cases hstep with
  | @append conn n frameBuf ha =>
    obtain ⟨hno, hdata⟩ := append_true ha
    simp only [KeepsOrder, hw, Bool.and_eq_true, List.all_eq_true, bne_iff_ne, Bool.or_eq_true,
      List.isEmpty_iff, beq_iff_eq, Option.all_eq_true] at hok
    simp only [Talk.note, hw, hno]
    refine hseq.append hw hok.1 hok.2 rfl rfl rfl ?_ ?_ rfl
    · simpa [State.setClient] using hdata
    · intro i hi
      simp [State.setClient, hi]
  | @overflow conn n ho =>
    simp only [KeepsOrder, hw, Bool.and_eq_true, List.all_eq_true, bne_iff_ne,
      Option.all_eq_true] at hok
    simp only [Talk.note, hw, ho]
    have hin := closesIn_behindClose s conn .postNextRecv
    refine hseq.overflow hw hok.1 hin.append (fun c hc => (hin.receiving c hc).1) ?_ rfl rfl rfl
      (update_frameBuf s.pool conn.client rfl) rfl
    cases hasm : (s.behindClose conn .postNextRecv).assembling with
    | none => rfl
    | some c =>
      obtain ⟨-, m, hm⟩ := hin.assembling c hasm
      cases hm
  | @command conn payloadType payload frameSize hi =>
    have hemit := inspect_spec fb (s.pool conn.client).frameBuf.data
    rw [hi] at hemit
    rw [note_worker _ h hw (by simp)]
    refine Sequenced.consume (frameBytes payload)
      [⟨conn.client, payloadType, payload, conn.epoch⟩] hseq hw rfl (Or.inl rfl) rfl rfl rfl ?_ ?_
      ?_ ?_ ?_
    · simpa [State.setClient] using nextFrame_emit_eq hemit
    · intro i hne
      simp [State.setClient, hne]
    · simp [Talk.line, State.setClient]
    · simp [PacketCommand.conn]
    · intro blocks used hturn
      have hone : payloadsOn conn [⟨conn.client, payloadType, payload, conn.epoch⟩] = [payload] :=
        payloadsOn_one ⟨conn.client, payloadType, payload, conn.epoch⟩
      rw [hone]
      exact hturn.snoc _
  | @consume conn frameSize =>
    rw [note_worker _ h hw (by simp)]
    refine Sequenced.consume ((s.pool conn.client).frameBuf.data.take frameSize) [] hseq hw rfl
      (Or.inr rfl) rfl rfl rfl ?_ ?_ ?_ (by simp) ?_
    · simp [State.setClient]
    · intro i hne
      simp [State.setClient, hne]
    · simp [Talk.line, State.setClient]
    · intro blocks used hturn
      simpa [payloadsOn] using hturn.append_right _
  | @associateFailed conn =>
    exact hclosing (closesIn_behindClose s conn .setupClient) rfl (by simp) (by simp) (by simp) rfl
      rfl (update_frameBuf s.pool _ rfl) rfl
  | @firstRecvFailed conn =>
    exact hclosing (closesIn_behindClose s conn .setupClient) rfl (by simp) (by simp) (by simp) rfl
      rfl (update_frameBuf s.pool _ rfl) rfl
  | @tooLarge conn =>
    exact hclosing (closesIn_behindClose s conn .postNextRecv) rfl (by simp) (fun _ => rfl)
      (fun _ => rfl) rfl rfl (update_frameBuf s.pool _ rfl) rfl
  | @invalid conn frameSize =>
    exact hclosing (closesIn_behindClose s conn (.consume frameSize)) rfl (by simp) (fun _ => rfl)
      (fun _ => rfl) rfl rfl (update_frameBuf s.pool _ rfl) rfl
  | @reset conn next =>
    refine hclosing (closesIn_pc conn next) rfl (by simp) ?_ ?_ rfl rfl
      (update_frameBuf s.pool _ rfl) rfl
    · rintro (rfl | ⟨n, rfl⟩) <;> rfl
    · rintro ⟨n, rfl⟩
      rfl
  | assign | mark | close | nextRecvFailed =>
    exact houtside rfl (by simp) rfl rfl rfl (update_frameBuf s.pool _ rfl) rfl
  | found | full | associate | firstRecv | onAccept | kick | remove | alreadyClosed | incomplete
  | nextRecv | nextRecvClosed => exact houtside rfl (by simp) rfl rfl rfl (fun _ => rfl) rfl

/-! ## Runs -/

theorem Sequenced.step {l : Label} (hseq : Sequenced s h)
    (hok : KeepsOrder fb (s, h) (.server l) = true) (hs : s.step cfg fb l = some t) :
    Sequenced t (Talk.note s (.server l) t h) := by
  cases l with
  | accepted w acceptSocket =>
    obtain ⟨hw, -, rfl⟩ := step_accepted hs
    exact hseq.outside hw nofun rfl rfl rfl rfl (fun _ => rfl) rfl
  | arrive conn data =>
    obtain ⟨-, hdata, -, rfl⟩ := step_arrive hs
    simp only [KeepsOrder, Bool.and_eq_true, List.all_eq_true, bne_iff_ne] at hok
    exact hseq.arrive hdata hok.1 hok.2
  | recvDone w conn result =>
    have hreports := step_reports hs
    obtain ⟨hw, -, rfl⟩ := step_recvDone hs
    simp only [KeepsOrder, State.rests, List.all_eq_true, bne_iff_ne] at hok
    show Sequenced _ h
    cases result with
    | failed error =>
      exact hseq.outside hw nofun (onRecvDequeued_failed conn error) rfl rfl rfl (fun _ => rfl) rfl
    | done data =>
      cases data with
      | nil =>
        refine hseq.outside hw nofun rfl rfl ?_ rfl (fun _ => rfl) rfl
        exact hseq.buffered.stillArrived fun data hd => (IoResult.done.inj hd).symm
      | cons byte data =>
        rw [onRecvDequeued_cons conn byte data]
        exact hseq.chunk hw hok (List.contains_iff_mem.mp hreports)
  | sendDone w conn result =>
    obtain ⟨hw, -, rfl⟩ := step_sendDone hs
    refine hseq.outside hw nofun ?_ rfl rfl rfl (fun _ => rfl) rfl
    unfold onSendDequeued
    split <;> rfl
  | worker w ok => exact hseq.worker hok hs
  | tick =>
    obtain ⟨hready, hbatch, rfl⟩ := step_tick hs
    refine ⟨hseq.alone, hseq.buffered.keep rfl rfl fun _ _ hm => hm, hseq.owner, fun conn => ?_⟩
    refine (hseq.flows conn).keep ?_ rfl id (fun _ => Iff.rfl) fun _ => rfl
    simp [Talk.line, Talk.note, hbatch]
  | logic choice => exact hseq.logic hs

theorem Sequenced.roomStep {l : RoomLabel} (hseq : Sequenced s h)
    (hok : KeepsOrder fb (s, h) l = true) (hs : s.roomStep cfg fb l = some t) :
    Sequenced t (Talk.note s l t h) := by
  cases l with
  | server l => exact hseq.step hok hs
  | kickRoom w room =>
    obtain ⟨-, -, rfl⟩ := roomStep_kickRoom hs
    exact ⟨hseq.alone, hseq.buffered.keep rfl rfl fun _ _ hm => hm, hseq.owner, fun conn =>
      (hseq.flows conn).keep (List.Sublist.refl _) rfl id (fun _ => Iff.rfl) fun _ => rfl⟩
  | kicked w =>
    obtain ⟨conn, hw, rfl⟩ := roomStep_kicked hs
    exact hseq.outside hw (by simp) rfl rfl rfl rfl (fun _ => rfl) rfl

/-- What every client has got so far is a part of the conversation, in its order. -/
def Heard (s : State) (h : Talk) : Prop :=
  ∀ client, (s.log.filterMap (chatTo client)).Sublist (h.messages.map Message.packet)

/-- Only the logic thread adds to the conversation. -/
theorem note_messages {l : RoomLabel} (hl : ∀ choice, l ≠ .server (.logic choice)) (s t : State)
    (h : Talk) : (Talk.note s l t h).messages = h.messages := by
  simp only [Talk.note]
  split
  · rfl
  · split
    · rfl
    · rfl
  · exact absurd rfl (hl _)
  · rfl

theorem Heard.roomStep {l : RoomLabel} (hh : Heard s h) (hok : KeepsOrder fb (s, h) l = true)
    (hs : s.roomStep cfg fb l = some t) : Heard t (Talk.note s l t h) := by
  have hsilent : ∀ client (evs : List Event),
      (∀ conn packet accepted, .posted conn packet accepted ∉ evs) →
      evs.filterMap (chatTo client) = [] := by
    intro client evs hevs
    rw [List.filterMap_eq_nil_iff]
    intro e he
    cases e with
    | posted conn packet accepted => exact absurd he (hevs _ _ _)
    | _ => rfl
  intro client
  cases l with
  | kickRoom w room =>
    obtain ⟨-, -, rfl⟩ := roomStep_kickRoom hs
    exact hh client
  | kicked w =>
    obtain ⟨conn, -, rfl⟩ := roomStep_kicked hs
    have hnone := hsilent client [.onDisconnect conn] (by simp)
    show ((s.log ++ [Event.onDisconnect conn]).filterMap (chatTo client)).Sublist
      (h.messages.map Message.packet)
    rw [List.filterMap_append, hnone, List.append_nil]
    exact hh client
  | server l =>
    obtain ⟨evs, hlog, hevs⟩ := step_log hs
    rw [hlog, List.filterMap_append, List.filterMap_append, hsilent client evs hevs,
      List.append_nil]
    cases l with
    | arrive conn data => simpa [State.posting, Talk.note, Talk.received] using hh client
    | logic choice =>
      have hnew : (Talk.note s (.server (.logic choice)) t h).messages.map Message.packet =
          h.messages.map Message.packet ++ (match s.handler, s.outgoing choice.now with
            | .chatSend _ _ _, some (packet, _) => [packet]
            | _, _ => []) := by
        simp only [Talk.note]
        split
        · simp
        · simp
      rw [hnew]
      exact (hh client).append (filterMap_posting h hok)
    | accepted w acceptSocket => simpa [State.posting, Talk.note] using hh client
    | recvDone w conn result => simpa [State.posting, Talk.note] using hh client
    | sendDone w conn result => simpa [State.posting, Talk.note] using hh client
    | worker w ok =>
      rw [note_messages (fun _ he => by simp at he)]
      simpa [State.posting] using hh client
    | tick => simpa [State.posting, Talk.note] using hh client

/-- The message that is broadcast next says what its command asks to say. -/
theorem Message.Said.note {choice : Choice} (hsaid : ∀ m ∈ h.messages, m.Said fb)
    (hasked : s.handler.Asked fb) :
    ∀ m ∈ (Talk.note s (.server (.logic choice)) t h).messages, m.Said fb := by
  simp only [Talk.note]
  split
  · rename_i call message user packet users hpc hout
    rw [hpc] at hasked
    obtain ⟨request, hget, hmessage⟩ := hasked
    simp only [State.outgoing, hpc, Option.map_eq_some_iff, Prod.mk.injEq] at hout
    obtain ⟨room, -, hpacket, -⟩ := hout
    intro m hm
    rcases List.mem_append.mp hm with hm | hm
    · exact hsaid m hm
    · rw [List.mem_singleton.mp hm]
      exact ⟨request, _, _, _, _, hget, by rw [← hpacket, hmessage]⟩
  · exact hsaid

theorem said_roomStep {l : RoomLabel} (hsaid : ∀ m ∈ h.messages, m.Said fb)
    (hasked : s.handler.Asked fb) : ∀ m ∈ (Talk.note s l t h).messages, m.Said fb := by
  by_cases hl : ∃ choice, l = .server (.logic choice)
  · obtain ⟨choice, rfl⟩ := hl
    exact Message.Said.note hsaid hasked
  · rw [note_messages (fun choice he => hl ⟨choice, he⟩) s t h]
    exact hsaid

end

/-- **One conversation.** The broadcasts of the server, one after the other, are the order in which
all clients get the messages and in which their frames were received. -/
theorem conversation_in_order (cfg : Config) (fb : FlatBuffers) {p : State × Talk}
    (h : (talkServer cfg fb).Reach (fun p l => KeepsOrder fb p l = true) p) :
    InOneOrder fb p.1 p.2.stream p.2.messages := by
  have hinv : (Heard p.1 p.2 ∧ Sequenced p.1 p.2) ∧
      (∀ m ∈ p.2.messages, m.Said fb) ∧ p.1.handler.Asked fb := by
    refine h.invariant (I := fun p => (Heard p.1 p.2 ∧ Sequenced p.1 p.2) ∧
      (∀ m ∈ p.2.messages, m.Said fb) ∧ p.1.handler.Asked fb)
      ⟨⟨?_, ?_, ?_, ?_, ?_⟩, nofun, trivial⟩ ?_
    · intro client
      exact List.Sublist.refl _
    · intro i j pc pc' conn hi _ hrec
      have hm := List.mem_of_getElem? hi
      rw [List.eq_of_mem_replicate hm] at hrec
      simp [WorkerPc.receiving] at hrec
    · refine ⟨List.nodup_nil, nofun, fun c n hm => ?_, nofun⟩
      exact absurd (List.eq_of_mem_replicate hm) nofun
    · intro pc hm conn hc
      rw [List.eq_of_mem_replicate hm] at hc
      simp [WorkerPc.assembling] at hc
    · intro conn
      refine ⟨[], [], rfl, .nil _, ?_, fun _ hw => ?_⟩
      · rintro data (hm | ⟨n, hm, -⟩)
        · exact absurd hm List.not_mem_nil
        · exact absurd (List.eq_of_mem_replicate hm) nofun
      · simp [talkServer, System.recording] at hw
    · intro p q l _ hi hok hs
      obtain ⟨hstep, hnote⟩ := System.recording_step hs
      rw [hnote]
      exact ⟨⟨hi.1.1.roomStep hok hstep, hi.1.2.roomStep hok hstep⟩,
        said_roomStep hi.2.1 hi.2.2, hi.2.2.roomStep hstep⟩
  refine ⟨hinv.2.1, hinv.1.1, fun conn => ?_⟩
  obtain ⟨used, rest, hsplit, hturn, -⟩ := hinv.1.2.flows conn
  rw [hsplit]
  have hsaid : (payloadsOn conn (p.2.messages.map Message.cmd)).Sublist
      (payloadsOn conn (p.2.line p.1)) := payloadsOn_sublist (List.sublist_append_left _ _) conn
  exact (hturn.sublist (hsaid.map _)).append_right rest

/-- The second of two clients says `hi`, and the first gets it. -/
theorem conversation_in_order_hi : ∃ p,
    (talkServer smallServer conversation).Reach (fun p l => KeepsOrder conversation p l = true) p ∧
      p.1.log.filterMap (chatTo 0) = [.chatMessageBroadcast 1 ann hi ⟨0, 0⟩ 2] ∧
      InOneOrder conversation p.1 p.2.stream p.2.messages := by
  obtain ⟨p, hr, hp⟩ := System.reach_of_exec (talkServer smallServer conversation)
    (fun p l => KeepsOrder conversation p l = true)
    ((accepts 0 4 ++ accepts 1 5 ++ receives 0 ⟨0, 1⟩ (frameBytes joinBytes) 1 ++
      receives 1 ⟨1, 1⟩ (frameBytes joinBytes) 1 ++ ticks 12 ++
      receives 1 ⟨1, 1⟩ (frameBytes chatBytes) 1 ++ ticks 3).map .server)
    (fun p => p.1.log.filterMap (chatTo 0) == [.chatMessageBroadcast 1 ann hi ⟨0, 0⟩ 2])
    (by decide +kernel)
  exact ⟨p, hr, beq_iff_eq.mp hp, conversation_in_order smallServer conversation hr⟩

/-! ## A message that is sent twice -/

theorem stream_note (s t : State) (l : RoomLabel) (h : Talk) (conn : Conn) :
    (Talk.note s l t h).stream conn = h.stream conn ++
      match l.received with
      | some (c, data) => if c = conn then data else []
      | none => [] := by
  cases l with
  | kickRoom w room => simp [Talk.note, RoomLabel.received]
  | kicked w => simp [Talk.note, RoomLabel.received]
  | server l =>
    cases l with
    | arrive c data =>
      by_cases hc : c = conn
      · subst hc
        simp [Talk.note, RoomLabel.received, Talk.received]
      · simp [Talk.note, RoomLabel.received, Talk.received, hc, Ne.symm hc]
    | recvDone w c result => simp [Talk.note, RoomLabel.received]
    | worker w ok =>
      simp only [Talk.note, RoomLabel.received, List.append_nil]
      split
      · rfl
      · rfl
    | logic choice => simp [(note_logic s choice t h).1, RoomLabel.received]
    | accepted w acceptSocket => simp [Talk.note, RoomLabel.received]
    | sendDone w c result => simp [Talk.note, RoomLabel.received]
    | tick => simp [Talk.note, RoomLabel.received]

/-- The stream of a connection is what the steps of the schedule bring. -/
theorem stream_exec {cfg : Config} {fb : FlatBuffers} {ok : State × Talk → RoomLabel → Prop}
    [∀ p l, Decidable (ok p l)] {labels : List RoomLabel} {p q : State × Talk}
    (he : (talkServer cfg fb).exec ok p labels = some q) (conn : Conn) :
    q.2.stream conn = p.2.stream conn ++ (labels.filterMap RoomLabel.received).flatMap
      fun (c, data) => if c = conn then data else [] := by
  induction labels generalizing p with
  | nil =>
    simp only [System.exec, Option.some.injEq] at he
    simp [he]
  | cons l labels ih =>
    rw [System.exec] at he
    split at he
    · obtain ⟨r, hr, he⟩ := Option.bind_eq_some_iff.mp he
      rw [ih he, (System.recording_step hr).2, stream_note, List.append_assoc, List.filterMap_cons]
      cases l.received with
      | none => simp
      | some chunk => simp
    · simp at he

/-- What is said in a `conversation` takes more bytes than a request to join. -/
theorem Message.Said.length_le {m : Message} (h : m.Said conversation) :
    80 ≤ (frameBytes m.cmd.data).length := by
  obtain ⟨request, sequence, _, _, _, hget, -⟩ := h
  have hdata : m.cmd.data = chatBytes ∨ m.cmd.data = letterBytes := by
    simp only [conversation] at hget
    split at hget
    · simp at hget
    · split at hget
      · simp at hget
      · split at hget
        · rename_i _ _ hchat
          exact Or.inl (beq_iff_eq.mp hchat)
        · split at hget
          · rename_i _ _ _ hletter
            exact Or.inr (beq_iff_eq.mp hletter)
          · simp at hget
  rcases hdata with he | he
  · rw [he]
    decide
  · rw [he, length_frameBytes]
    decide +kernel

/-- Slots 0 and 2 are in a room when slot 0 is closed for its bytes. The command of slot 1, closed
as well, finds the session of slot 0 and enters the room with it once slot 0 has been opened again:
what slot 2 says then goes to slot 0 twice. -/
def sentTwice : List RoomLabel :=
  (accepts 0 4 ++ accepts 0 5 ++ accepts 0 6 ++
    receives 0 ⟨0, 1⟩ (frameBytes joinBytes) 1 ++ receives 0 ⟨2, 1⟩ (frameBytes joinBytes) 1 ++
    ticks 12 ++ refuses 0 ⟨0, 1⟩ [255, 255, 255, 255] ++
    receives 0 ⟨1, 1⟩ (frameBytes joinBytes ++ [255, 255, 255, 255]) 2 ++ ticks 3 ++
    accepts 0 7 ++ List.replicate 3 (Label.logic ⟨0, ⟨0, 0⟩, []⟩) ++
    receives 0 ⟨2, 1⟩ (frameBytes chatBytes) 1 ++ ticks 3).map .server

theorem received_sentTwice : sentTwice.filterMap RoomLabel.received =
    [(⟨0, 1⟩, frameBytes joinBytes), (⟨2, 1⟩, frameBytes joinBytes), (⟨0, 1⟩, [255, 255, 255, 255]),
      (⟨1, 1⟩, frameBytes joinBytes ++ [255, 255, 255, 255]), (⟨2, 1⟩, frameBytes chatBytes)] :=
  rfl

/-- There is room for one message in the bytes that were received, on one connection. -/
theorem length_sentTwice {p : State × Talk}
    (he : (talkServer ⟨2, 3, 10⟩ conversation).exec (fun p l => OneByOne p l = true)
      (talkServer ⟨2, 3, 10⟩ conversation).start sentTwice = some p) (conn : Conn) :
    (p.2.stream conn).length < if conn = ⟨2, 1⟩ then 2 * 80 else 80 := by
  have hchat : (frameBytes chatBytes).length = 80 := by decide
  have hjoin : (frameBytes joinBytes).length = 64 := by decide
  rw [stream_exec he, received_sentTwice]
  by_cases h2 : conn = ⟨2, 1⟩
  · subst h2
    simp [talkServer, System.recording, List.flatMap_cons, hchat, hjoin]
  · by_cases h0 : conn = ⟨0, 1⟩
    · subst h0
      simp [talkServer, System.recording, List.flatMap_cons, hjoin]
    · by_cases h1 : conn = ⟨1, 1⟩
      · subst h1
        simp [talkServer, System.recording, List.flatMap_cons, hjoin]
      · simp [talkServer, System.recording, List.flatMap_cons, Ne.symm h0, Ne.symm h1, Ne.symm h2,
          h2]

/-- Whatever is taken for the conversation in that run, it is not one for all. -/
theorem message_sent_twice : ∃ p,
    (talkServer ⟨2, 3, 10⟩ conversation).Reach (fun p l => OneByOne p l = true) p ∧
      ∀ messages, ¬ InOneOrder conversation p.1 p.2.stream messages := by
  have hrun : ((talkServer ⟨2, 3, 10⟩ conversation).exec (fun p l => OneByOne p l = true)
      (talkServer ⟨2, 3, 10⟩ conversation).start sentTwice).map
      (fun p => p.1.log.filterMap (chatTo 0) ==
        [.chatMessageBroadcast 1 ann hi ⟨0, 0⟩ 2, .chatMessageBroadcast 1 ann hi ⟨0, 0⟩ 2]) =
      some true := by
    decide +kernel
  obtain ⟨p, he, hp⟩ := Option.map_eq_some_iff.mp hrun
  refine ⟨p, System.Reach.start.exec he, fun messages h => ?_⟩
  have hheard := h.heard 0
  rw [beq_iff_eq.mp hp, List.sublist_map_iff] at hheard
  obtain ⟨twice, hsub, htwice⟩ := hheard
  have hlen : twice.length = 2 := by simpa using (congrArg List.length htwice).symm
  obtain ⟨first, second, rfl⟩ := List.length_eq_two.mp hlen
  have hturn : ∀ conn, ∀ part : List Message, part.Sublist messages →
      ((payloadsOn conn (part.map Message.cmd)).map frameBytes).flatten.length ≤
        (p.2.stream conn).length := fun conn part hpart =>
    ((h.inTurn conn).sublist ((payloadsOn_sublist (hpart.map _) conn).map _)).length_le
  have hlong : ∀ m ∈ messages, m.cmd.conn = ⟨2, 1⟩ ∧ 80 ≤ (frameBytes m.cmd.data).length := by
    intro m hm
    have hsaid := (h.said m hm).length_le
    have hone := hturn m.cmd.conn [m] (List.singleton_sublist.mpr hm)
    have hroom := length_sentTwice he m.cmd.conn
    rw [List.map_singleton, payloadsOn_one] at hone
    simp only [List.map_singleton, List.flatten_singleton] at hone
    refine ⟨?_, hsaid⟩
    by_contra hother
    rw [if_neg hother] at hroom
    omega
  have hfirst := hlong first (hsub.subset (by simp))
  have hsecond := hlong second (hsub.subset (by simp))
  have htwo := hturn ⟨2, 1⟩ [first, second] hsub
  have hroom := length_sentTwice he ⟨2, 1⟩
  rw [if_pos rfl] at hroom
  have hboth : payloadsOn ⟨2, 1⟩ ([first, second].map Message.cmd) =
      [first.cmd.data, second.cmd.data] := by
    simp [payloadsOn, hfirst.1, hsecond.1]
  rw [hboth] at htwo
  simp only [List.map_cons, List.map_nil, List.flatten_cons, List.flatten_nil, List.append_nil,
    List.length_append] at htwo
  have hlong₁ := hfirst.2
  have hlong₂ := hsecond.2
  omega

end Highp.Chat
