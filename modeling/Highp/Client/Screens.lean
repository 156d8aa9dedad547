import Highp.Client.Prompt
import Highp.Client.Receiver

/-! One conversation on all screens, with the lines that were typed in it. -/

namespace Highp.Console
open Highp.Lib Highp.Network Highp.Client Highp.Chat

/-- A line of the conversation, as the console formats it. -/
def isChat (line : Line) : Bool := line.1 == .info && (ascii "[Chat] ").isPrefixOf line.2

section
variable {conn : Conn}

theorem isChat_disconnect (reason : Metrics.ClientDisconnectReason) :
    isChat (.error, toDisconnectMessage reason) = false := rfl

/-- The messages on the screen of a client are among those that the server has sent to it. -/
theorem chats_sublist (conn : Conn) (log : List Event) :
    (((log.filterMap (acceptedFor conn)).map screenLine).filter isChat).Sublist
      ((log.filterMap (chatTo conn.client)).map screenLine) := by
  induction log with
  | nil => exact .slnil
  | cons e log ih =>
    cases hsent : acceptedFor conn e with
    | none =>
      rw [List.filterMap_cons_none hsent]
      cases hchat : chatTo conn.client e with
      | none => rwa [List.filterMap_cons_none hchat]
      | some packet =>
        rw [List.filterMap_cons_some hchat]
        exact ih.cons _
    | some packet =>
      have he : e = .posted conn packet true := by
        unfold acceptedFor at hsent
        split at hsent
        · split at hsent
          · rename_i hconn
            cases hsent
            rw [hconn]
          · cases hsent
        · cases hsent
      rw [List.filterMap_cons_some hsent, List.map_cons]
      by_cases hline : isChat (screenLine packet) = true
      · have hchat : chatTo conn.client e = some packet := by
          rw [he]
          cases packet with
          | chatMessageBroadcast senderId username message timestamp sequence =>
            simp [chatTo]
          | _ => cases hline
        rw [List.filter_cons_of_pos hline, List.filterMap_cons_some hchat, List.map_cons]
        exact ih.cons_cons _
      · rw [List.filter_cons_of_neg hline]
        cases hchat : chatTo conn.client e with
        | none => rwa [List.filterMap_cons_none hchat]
        | some other =>
          rw [List.filterMap_cons_some hchat]
          exact ih.cons _

/-- The console of a client on what the server has sent to it, in any run. -/
theorem screen_sublist {cfg : Config} {fb : FlatBuffers} {p : State × Talk}
    (h : (talkServer cfg fb).Reach (fun p l => KeepsOrder fb p l = true) p) {net : Transport}
    (hnet : net.Within) {code : ReplyCode} (conn : Conn)
    (hcode : ∀ packet ∈ sentTo conn p.1, ReadsBack code fb packet) (pipe : Pipe)
    (harrived : ConveysInTurn (((sentTo conn p.1).map fb.build).map frameBytes) pipe.bytes)
    (n : Nat) :
    ∃ r, (Receiver.new pipe).loop net code n = some r ∧
      (r.log.filter isChat).Sublist (p.2.messages.map fun m => screenLine m.packet) := by
  have hheard : Heard p.1 p.2 := by
    refine h.invariant (I := fun p => Heard p.1 p.2) ?_ ?_
    · intro client
      exact List.Sublist.refl _
    · intro p q l _ hi hok hs
      obtain ⟨hstep, hnote⟩ := System.recording_step hs
      rw [hnote]
      exact hi.roomStep hok hstep
  have hroom : (roomServer cfg fb).Reach System.always p.1 := h.forget fun _ _ _ => trivial
  obtain ⟨k, r, hrun, -, -, hshowed, -, -⟩ :=
    loop_shows_sent hnet (postsFit_of_reach hroom) hcode (.new pipe) rfl harrived.front n
  refine ⟨r, hrun, ?_⟩
  have hchats : r.log.filter isChat =
      (((sentTo conn p.1).take k).map screenLine).filter isChat := by
    cases hshowed with
    | still pipe => rfl
    | lost pipe reason =>
      simp [Receiver.new, isChat_disconnect]
  have hfront := ((List.take_sublist k (sentTo conn p.1)).map screenLine).filter isChat
  have hsent := chats_sublist conn p.1.log
  have hall := (hheard conn.client).map screenLine
  rw [List.map_map] at hall
  rw [hchats]
  exact hfront.trans (hsent.trans hall)

/-- All messages say what was asked to be said. -/
theorem said_of_reach {cfg : Config} {fb : FlatBuffers} {ok : State × Talk → RoomLabel → Prop}
    {p : State × Talk} (h : (talkServer cfg fb).Reach ok p) :
    (∀ m ∈ p.2.messages, m.Said fb) ∧ p.1.handler.Asked fb := by
  refine h.invariant (I := fun p => (∀ m ∈ p.2.messages, m.Said fb) ∧ p.1.handler.Asked fb)
    ⟨nofun, trivial⟩ ?_
  intro p q l _ hi _ hs
  obtain ⟨hstep, hnote⟩ := System.recording_step hs
  rw [hnote]
  exact ⟨said_roomStep hi.1 hi.2, hi.2.roomStep hstep⟩

end

def Intent.text : Intent → Option Text
  | .say message => some message
  | _ => none

def ClientPacket.text : ClientPacket → Option Text
  | .sendMessageRequest _ _ message _ => some message
  | _ => none

/-- The lines that are meant for the others. -/
def typed (inputs : List Input) : List Text :=
  (script false (lines inputs).tail).filterMap Intent.text

def broadcastText : ServerPacket → Text
  | .chatMessageBroadcast _ _ message _ _ => message
  | _ => []

/-- What was broadcast for a connection since there were so many messages. -/
def broadcasts (conn : Conn) (n : Nat) (h : Talk) : List Text :=
  ((h.messages.drop n).filter fun m => m.cmd.conn == conn).map fun m => broadcastText m.packet

section
variable {fb : FlatBuffers} {build : ClientPacket → List UInt8} {inputs : List Input}

theorem text_packets (inputs : List Input) :
    (packetsOf inputs).filterMap ClientPacket.text = typed inputs := by
  have htexts : (packetsOf inputs).map ClientPacket.text =
      (script false (lines inputs).tail).map Intent.text := by
    apply List.ext_getElem?
    intro i
    rw [List.getElem?_map, List.getElem?_map]
    cases hintent : (script false (lines inputs).tail)[i]? with
    | none => simp [packetsOf, hintent]
    | some intent =>
      have hpacket : (packetsOf inputs)[i]? =
          some (intent.packet (nicknameOf inputs) ((1 + i) % 2 ^ 32)) := by
        simp [packetsOf, hintent]
      rw [hpacket]
      cases intent <;> rfl
  have hsome := congrArg (List.filterMap id) htexts
  rwa [List.filterMap_map, List.filterMap_map] at hsome

/-- A message whose command holds a request of the console says what the request says. -/
theorem said_text {m : Message} {packet : ClientPacket} (hsaid : m.Said fb)
    (hdata : m.cmd.data = build packet)
    (hread : parsePacket fb (build packet) = some packet.read) :
    packet.text = some (broadcastText m.packet) := by
  obtain ⟨request, sequence, senderId, username, now, hget, hpacket⟩ := hsaid
  have hparsed : fb.getPacket (build packet) = some packet.read := by
    unfold parsePacket at hread
    split at hread
    · exact hread
    · cases hread
  rw [hdata, hparsed] at hget
  rw [hpacket]
  cases packet with
  | sendMessageRequest roomId name message number =>
    cases hget
    rfl
  | _ => cases hget

theorem said_texts {messages : List Message} {packets : List ClientPacket}
    (hsaid : ∀ m ∈ messages, m.Said fb)
    (hread : ∀ packet ∈ packets, parsePacket fb (build packet) = some packet.read)
    (hdata : messages.map (fun m => m.cmd.data) = packets.map build) :
    messages.map (fun m => broadcastText m.packet) = packets.filterMap ClientPacket.text := by
  induction messages generalizing packets with
  | nil =>
    cases packets with
    | nil => rfl
    | cons packet packets => cases hdata
  | cons m messages ih =>
    cases packets with
    | nil => cases hdata
    | cons packet packets =>
      simp only [List.map_cons, List.cons.injEq] at hdata
      have htext := said_text (hsaid m (.head _)) hdata.1 (hread packet (.head _))
      rw [List.filterMap_cons_some htext, List.map_cons]
      congr 1
      exact ih (fun x hx => hsaid x (.tail _ hx)) (fun x hx => hread x (.tail _ hx)) hdata.2

end

/-! ## From the stream to the conversation -/

/-- The conversation without its first messages. -/
def since (n : Nat) (h : Talk) : Talk := { h with messages := h.messages.drop n }

/-- The server with what a connection sends and with the conversation. -/
def watchedServer (cfg : Config) (fb : FlatBuffers) (conn : Conn) (q : State × Talk) :
    System (State × Inflow × Talk) RoomLabel :=
  ((roomServer cfg fb).recording (⟨[], []⟩, q.2)
    fun s l t h => (h.1.note conn s l t, Talk.note s l t h.2)).startingAt (q.1, ⟨[], []⟩, q.2)

/-- The commands of the conversation, the one that is handled and those that wait are among the
frames of the connection. -/
structure Spoken (conn : Conn) (n : Nat) (s : State) (i : Inflow) (h : Talk) : Prop where
  later : n ≤ h.messages.length
  frames : (payloadsOn conn ((since n h).line s)).Sublist (i.frames conn s)

section
variable {cfg : Config} {fb : FlatBuffers} {conn : Conn} {n : Nat} {s t : State} {l : RoomLabel}
  {i : Inflow} {h : Talk}

theorem note_since (s t : State) (l : RoomLabel) (hn : n ≤ h.messages.length) :
    n ≤ (Talk.note s l t h).messages.length ∧
      since n (Talk.note s l t h) = Talk.note s l t (since n h) := by
  simp only [Talk.note]
  split
  · exact ⟨hn, rfl⟩
  · split
    · exact ⟨hn, rfl⟩
    · exact ⟨hn, rfl⟩
  · split
    · refine ⟨?_, ?_⟩
      · rw [List.length_append]
        omega
      · simp only [since, List.drop_append_of_le_length hn]
    · exact ⟨hn, rfl⟩
  · exact ⟨hn, rfl⟩

/-- The other threads only add commands. -/
theorem roomStep_commands (hs : s.roomStep cfg fb l = some t)
    (hl : ∀ choice, l ≠ .server (.logic choice)) :
    t.handler = s.handler ∧ ∃ cmds, t.batch ++ t.queue = s.batch ++ s.queue ++ cmds := by
  cases l with
  | kickRoom w room =>
    obtain ⟨conn, -, rfl⟩ := roomStep_kickRoom hs
    exact ⟨rfl, [], (List.append_nil _).symm⟩
  | kicked w =>
    obtain ⟨conn, -, rfl⟩ := roomStep_kicked hs
    exact ⟨rfl, [], (List.append_nil _).symm⟩
  | server l =>
    have hs : s.step cfg fb l = some t := hs
    cases l with
    | accepted w acceptSocket =>
      obtain ⟨-, -, rfl⟩ := step_accepted hs
      exact ⟨rfl, [], (List.append_nil _).symm⟩
    | arrive conn data =>
      obtain ⟨-, -, -, rfl⟩ := step_arrive hs
      exact ⟨rfl, [], (List.append_nil _).symm⟩
    | recvDone w conn result =>
      obtain ⟨-, -, rfl⟩ := step_recvDone hs
      exact ⟨rfl, [], (List.append_nil _).symm⟩
    | sendDone w conn result =>
      obtain ⟨-, -, rfl⟩ := step_sendDone hs
      exact ⟨rfl, [], (List.append_nil _).symm⟩
    | worker w ok =>
      obtain ⟨pc, u, pc', -, hstep, rfl⟩ := step_worker hs
      obtain ⟨-, hhandler, -⟩ := hstep.registry
      obtain ⟨hbatch, hqueue⟩ := hstep.queue
      refine ⟨hhandler, ?_⟩
      rcases hqueue with hqueue | ⟨cmd, -, hqueue⟩
      · exact ⟨[], by simp [hbatch, hqueue]⟩
      · exact ⟨[cmd], by simp [hbatch, hqueue]⟩
    | tick =>
      obtain ⟨-, hempty, rfl⟩ := step_tick hs
      exact ⟨rfl, [], by simp [hempty]⟩
    | logic choice => exact absurd rfl (hl choice)

theorem note_taken (s t : State) (i : Inflow) (hl : ∀ choice, l ≠ .server (.logic choice)) :
    (i.note conn s l t).taken = i.taken := by
  simp only [Inflow.note]
  split
  · split
    · rfl
    · rfl
  · exact absurd rfl (hl _)
  · rfl

/-- **One step.** The logic thread takes a command along, from the queue to the conversation, and
whatever a worker adds was received. -/
theorem Spoken.roomStep (hi : Spoken conn n s i h) (hs : s.roomStep cfg fb l = some t) :
    Spoken conn n t (i.note conn s l t) (Talk.note s l t h) := by
  obtain ⟨hlater, hsince⟩ := note_since s t l hi.later
  refine ⟨hlater, ?_⟩
  rw [hsince]
  by_cases hlogic : ∃ choice, l = .server (.logic choice)
  · obtain ⟨choice, rfl⟩ := hlogic
    have hstep := logicStep_inv (show s.logicStep fb choice = some t from hs)
    obtain ⟨hframes, -, -⟩ :
      (i.note conn s (.server (.logic choice)) t).frames conn t = i.frames conn s ∧ _ ∧ _ :=
      hstep.inflow i
    rw [hframes]
    exact (payloadsOn_sublist (line_logic (since n h) hstep) conn).trans hi.frames
  · have hl : ∀ choice, l ≠ .server (.logic choice) := fun choice he => hlogic ⟨choice, he⟩
    obtain ⟨hhandler, cmds, hcmds⟩ := roomStep_commands hs hl
    have hline : (Talk.note s l t (since n h)).line t = (since n h).line s ++ cmds := by
      rw [Talk.line, Talk.line, note_messages hl, hhandler, hcmds]
      simp only [List.append_assoc]
    have hframes : (i.note conn s l t).frames conn t =
        i.frames conn s ++ payloadsOn conn cmds := by
      rw [Inflow.frames, Inflow.frames, note_taken s t i hl, hcmds, payloadsOn_append,
        List.append_assoc]
    rw [hline, hframes, payloadsOn_append]
    exact hi.frames.append (List.Sublist.refl _)

/-- What was said is among the commands that were dispatched. -/
theorem Spoken.taken (hi : Spoken conn n s i h) :
    (payloadsOn conn ((h.messages.drop n).map Message.cmd)).Sublist i.taken := by
  have hframes := hi.frames
  rw [Talk.line, payloadsOn_append, payloadsOn_append, ← List.append_assoc, Inflow.frames,
    List.append_sublist_append_right] at hframes
  exact (List.sublist_append_left _ _).trans hframes

end

/-- What is known along a run of the watched server. -/
theorem watched_of_reach {cfg : Config} {fb : FlatBuffers} {conn : Conn} {q : State × Talk}
    {p : State × Inflow × Talk} (h₀ : (talkServer cfg fb).Reach System.always q)
    (hready : q.1.handler = .ready)
    (h : (watchedServer cfg fb conn q).Reach (fun p l => Stays cfg fb conn.client p.1 l) p) :
    (inflowServer cfg fb conn q.1).Reach (fun p l => Stays cfg fb conn.client p.1 l)
        (p.1, p.2.1) ∧
      Spoken conn q.2.messages.length p.1 p.2.1 p.2.2 ∧
      (∀ m ∈ p.2.2.messages, m.Said fb) ∧ p.1.handler.Asked fb := by
  refine h.invariant (I := fun p =>
    (inflowServer cfg fb conn q.1).Reach (fun p l => Stays cfg fb conn.client p.1 l)
        (p.1, p.2.1) ∧
      Spoken conn q.2.messages.length p.1 p.2.1 p.2.2 ∧
      (∀ m ∈ p.2.2.messages, m.Said fb) ∧ p.1.handler.Asked fb) ?_ ?_
  · obtain ⟨hsaid, hasked⟩ := said_of_reach h₀
    refine ⟨.start, ⟨Nat.le_refl _, ?_⟩, hsaid, hasked⟩
    show (payloadsOn conn ((since q.2.messages.length q.2).line q.1)).Sublist
      ((⟨[], []⟩ : Inflow).frames conn q.1)
    simp [since, Talk.line, Inflow.frames, hready, HandlerPc.chatting]
  · intro p r l _ hi hok hs
    have hs : ((roomServer cfg fb).recording (⟨[], []⟩, q.2)
      fun s l t h => (h.1.note conn s l t, Talk.note s l t h.2)).step p l = some r := hs
    obtain ⟨hstep, hnote⟩ := System.recording_step hs
    obtain ⟨hinflow, hspoken, hsaid, hasked⟩ := hi
    rw [hnote]
    have hnew : ∀ m ∈ (Talk.note p.1 l r.1 p.2.2).messages, m.Said fb :=
      said_roomStep hsaid hasked
    refine ⟨?_, hspoken.roomStep hstep, hnew, hasked.roomStep hstep⟩
    have hnext : (inflowServer cfg fb conn q.1).step (p.1, p.2.1) l =
        some (r.1, p.2.1.note conn p.1 l r.1) := by
      show ((roomServer cfg fb).step p.1 l).map _ = _
      have hstep : (roomServer cfg fb).step p.1 l = some r.1 := hstep
      rw [hstep]
      rfl
    exact .next hinflow hok hnext

/-- **What is broadcast is what was typed.** In every run of the server in which a client stays,
whatever the network does to its stream and whatever the other clients do, the messages that are
broadcast for its connection are lines that were typed at its console, in their order and none of
them twice. -/
theorem broadcasts_as_typed (net : Transport) (hnet : net.Splits)
    (build : ClientPacket → List UInt8) (cfg : Config) (fb : FlatBuffers) (sends recvs : Nat)
    (inputs : List Input) (hopen : Input.closed ∉ inputs)
    (hread : ∀ packet ∈ packetsOf inputs, parsePacket fb (build packet) = some packet.read)
    (hsize : ∀ packet ∈ packetsOf inputs, (build packet).length ≤ maxFrameSize)
    (conn : Conn) {q : State × Talk} {p : State × Inflow × Talk}
    (h₀ : (talkServer cfg fb).Reach (fun q l => FreshHandles q.1 l = true) q)
    (hopened : Opened conn q.1)
    (h : (watchedServer cfg fb conn q).Reach (fun p l => Stays cfg fb conn.client p.1 l) p)
    (harrived : p.2.1.stream <+: (console net build ⟨[], sends, recvs⟩ inputs).client.pipe.bytes) :
    (broadcasts conn q.2.messages.length p.2.2).Sublist (typed inputs) := by
  have hrun := h₀.mono fun _ _ _ => trivial
  obtain ⟨hinflow, hspoken, hsaid, -⟩ := watched_of_reach hrun hopened.handler h
  have hroom : (roomServer cfg fb).Reach (fun s l => FreshHandles s l = true) q.1 :=
    h₀.forget fun _ _ hok => hok
  obtain ⟨-, -, hconserved⟩ := inflow_of_reach hroom hopened hinflow
  -- the commands that were dispatched are the first of the console
  have htaken := taken_typed hnet hopen hread hsize hconserved harrived
  have hmessages := hspoken.taken
  rw [htaken, List.sublist_map_iff] at hmessages
  obtain ⟨packets, hpackets, hdata⟩ := hmessages
  have hsub : packets.Sublist (packetsOf inputs) := hpackets.trans (List.take_sublist _ _)
  have hnew : ∀ m ∈ (p.2.2.messages.drop q.2.messages.length).filter (fun m => m.cmd.conn == conn),
      m.Said fb := by
    intro m hm
    exact hsaid m (List.mem_of_mem_drop (List.mem_filter.mp hm).1)
  have hcommands : ((p.2.2.messages.drop q.2.messages.length).filter
      fun m => m.cmd.conn == conn).map (fun m => m.cmd.data) = packets.map build := by
    rw [← hdata, payloadsOn, List.filter_map, List.map_map]
    rfl
  have htexts := said_texts hnew (fun packet hp => hread packet (hsub.subset hp)) hcommands
  rw [broadcasts, htexts, ← text_packets]
  exact hsub.filterMap _

/-- The nickname, `/join` and `hi`. -/
def annSays : List Input := [.line ann, .line (ascii "/join"), .line hi]

def saysBuild : ClientPacket → List UInt8
  | .joinRoomRequest _ _ => joinBytes
  | .leaveRoomRequest _ _ => leaveBytes
  | .sendMessageRequest _ _ _ _ => chatBytes

/-- Both requests arrive at once, among the commands of another client. -/
def saysInTurn : List RoomLabel :=
  (receives 0 ⟨0, 1⟩ (frameBytes joinBytes ++ frameBytes chatBytes) 2 ++
    receives 1 ⟨1, 1⟩ (frameBytes joinBytes) 1 ++ ticks 15).map .server

theorem broadcasts_as_typed_hi : ∃ (q : State × Talk) (p : State × Inflow × Talk),
    (watchedServer smallServer conversation ⟨0, 1⟩ q).Reach
        (fun p l => Stays smallServer conversation 0 p.1 l) p ∧
      broadcasts ⟨0, 1⟩ q.2.messages.length p.2.2 = [hi] ∧ [hi].Sublist (typed annSays) := by
  have hpackets : packetsOf annSays = [.joinRoomRequest ann 1, .sendMessageRequest 0 ann hi 2] := by
    decide
  have hread : ∀ packet ∈ packetsOf annSays,
      parsePacket conversation (saysBuild packet) = some packet.read := by
    rw [hpackets]
    simp only [List.forall_mem_cons]
    exact ⟨rfl, rfl, nofun⟩
  have hsize : ∀ packet ∈ packetsOf annSays, (saysBuild packet).length ≤ maxFrameSize := by
    rw [hpackets]
    decide
  have hopen : Input.closed ∉ annSays := by decide
  have hbytes : (console byteByByte saysBuild ⟨[], 0, 0⟩ annSays).client.pipe.bytes =
      frameBytes joinBytes ++ frameBytes chatBytes := by
    rw [console_wire byteByByte_splits hopen 0 0 hsize, hpackets]
    decide
  have hrun : (((talkServer smallServer conversation).exec
      (fun q l => FreshHandles q.1 l = true)
      (talkServer smallServer conversation).start bothConnect).bind fun q =>
        ((watchedServer smallServer conversation ⟨0, 1⟩ q).exec
          (fun p l => Stays smallServer conversation 0 p.1 l) (q.1, ⟨[], []⟩, q.2)
            saysInTurn).map fun p =>
              q.1.justOpened ⟨0, 1⟩ &&
                (p.2.1.stream == frameBytes joinBytes ++ frameBytes chatBytes &&
                  broadcasts ⟨0, 1⟩ q.2.messages.length p.2.2 == [hi])) = some true := by
    decide +kernel
  obtain ⟨q, hq, hrest⟩ := Option.bind_eq_some_iff.mp hrun
  obtain ⟨p, hp, hcheck⟩ := Option.map_eq_some_iff.mp hrest
  simp only [Bool.and_eq_true, beq_iff_eq] at hcheck
  obtain ⟨hopened, hstream, hsaid⟩ := hcheck
  have h := System.Reach.start.exec hp
  have hall : p.2.1.stream =
      (console byteByByte saysBuild ⟨[], 0, 0⟩ annSays).client.pipe.bytes := by
    rw [hstream, hbytes]
  have hpart := broadcasts_as_typed byteByByte byteByByte_splits saysBuild smallServer conversation
    0 0 annSays hopen hread hsize ⟨0, 1⟩ (System.Reach.start.exec hq) (opened_of_check hopened).1 h
    (hall ▸ List.prefix_refl _)
  exact ⟨q, p, h, hsaid, hsaid ▸ hpart⟩

end Highp.Console
