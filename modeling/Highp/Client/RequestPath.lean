import Highp.Chat.Server
import Highp.Client.ChatCli

/-! From the console of a client to the handlers of the server: what is typed is framed, cut up by
the network, put together again and dispatched. -/

namespace Highp.Console
open Highp.Lib Highp.Network Highp.Client Highp.Chat

/-! ## What a session does to the client -/

section
variable {net : Transport} {build : ClientPacket → List UInt8} {P : Client → Prop}

theorem notes_keep (hnote : ∀ c level message, P c → P (c.note level message))
    (texts : List Text) (cli : ChatCli) (h : P cli.client) :
    P (texts.foldl (fun cli text => cli.note .info text) cli).client := by
  induction texts generalizing cli with
  | nil => exact h
  | cons text texts ih => exact ih (cli.note .info text) (hnote _ _ _ h)

theorem printHelp_keeps (hnote : ∀ c level message, P c → P (c.note level message))
    (cli : ChatCli) (h : P cli.client) : P cli.printHelp.client := by
  unfold ChatCli.printHelp
  exact notes_keep hnote _ cli h

/-- A line touches the client by notes in the log and by requests only. -/
theorem handleLine_keeps (hnote : ∀ c level message, P c → P (c.note level message))
    (hrequest : ∀ c make, P c → P (c.request net build make)) (cli : ChatCli) (line : Text)
    (h : P cli.client) : P (cli.handleLine net build line).2.client := by
  cases line with
  | nil => exact h
  | cons first rest =>
    by_cases hslash : first = 47
    · simp only [ChatCli.handleLine, if_pos hslash, ChatCli.handleCommand]
      cases parseCommand (first :: rest) with
      | quit => exact h
      | help => exact printHelp_keeps hnote cli h
      | unknown => exact hnote _ _ _ h
      | join =>
        cases cli.joined with
        | true => exact hnote _ _ _ h
        | false => exact hnote _ _ _ (hrequest _ _ h)
      | leave =>
        cases cli.joined with
        | true => exact hnote _ _ _ (hrequest _ _ h)
        | false => exact hnote _ _ _ h
    · simp only [ChatCli.handleLine, if_neg hslash, ChatCli.handleChat]
      cases cli.joined with
      | true => exact hrequest _ _ h
      | false => exact hnote _ _ _ h

/-- So does a session while the connection is not closed. -/
theorem loop_keeps (hnote : ∀ c level message, P c → P (c.note level message))
    (hrequest : ∀ c make, P c → P (c.request net build make)) {inputs : List Input}
    (hopen : Input.closed ∉ inputs) (cli : ChatCli) (h : P cli.client) :
    P (cli.loop net build inputs).client := by
  induction inputs generalizing cli with
  | nil => exact h
  | cons input inputs ih =>
    rw [List.mem_cons, not_or] at hopen
    cases input with
    | closed => exact absurd rfl hopen.1
    | line text =>
      have hline := handleLine_keeps hnote hrequest cli text h
      rw [ChatCli.loop]
      cases hnext : cli.handleLine net build text with
      | mk action next =>
        rw [hnext] at hline
        cases action with
        | quit => exact hline
        | continued => exact ih hopen.2 next hline

theorem session_keeps (hnote : ∀ c level message, P c → P (c.note level message))
    (hrequest : ∀ c make, P c → P (c.request net build make)) {inputs : List Input}
    (hopen : Input.closed ∉ inputs) (cli : ChatCli) (h : P cli.client) :
    P (cli.session net build inputs).client := by
  have hrun : ∀ line rest, Input.closed ∉ rest →
      P ((cli.setNickname line).run net build rest).client := by
    intro line rest hrest
    exact loop_keeps hnote hrequest hrest _ (printHelp_keeps hnote _ (hnote _ _ _ h))
  cases inputs with
  | nil => exact hrun [] [] hopen
  | cons input inputs =>
    rw [List.mem_cons, not_or] at hopen
    cases input with
    | closed => exact absurd rfl hopen.1
    | line text => exact hrun text inputs hopen.2

end

/-! ## A connection that holds -/

/-- The client is connected and every request went out as a whole. -/
structure Whole (build : ClientPacket → List UInt8) (c : Client) : Prop where
  connected : c.connected = true
  frames : ∀ e ∈ c.asked, e.2 = sendFrameBytes (build e.1)

section
variable {net : Transport} {build : ClientPacket → List UInt8} {c : Client}

theorem Whole.note (h : Whole build c) (level : Level) (message : Text) :
    Whole build (c.note level message) := ⟨h.connected, h.frames⟩

theorem Whole.request (hnet : net.Splits) (h : Whole build c) (make : Nat → ClientPacket) :
    Whole build (c.request net build make) := by
  obtain ⟨part, hbytes, -, hwhole⟩ : ∃ part,
      (c.pipe.transmit net (sendFrameBytes (build (make c.nextSequence)))).2.bytes =
          c.pipe.bytes ++ part ∧ part <+: sendFrameBytes (build (make c.nextSequence)) ∧
        ((c.pipe.transmit net (sendFrameBytes (build (make c.nextSequence)))).1 = true ↔
          part = sendFrameBytes (build (make c.nextSequence))) := transmit_bytes c.pipe _
  have hsent := transmit_splits hnet c.pipe (sendFrameBytes (build (make c.nextSequence)))
  have hpart := hwhole.mp hsent
  cases hpipe : c.pipe.transmit net (sendFrameBytes (build (make c.nextSequence))) with
  | mk ok pipe =>
    rw [hpipe] at hbytes hsent
    cases hsent
    rw [request_sent h.connected hpipe, hbytes, List.drop_left, hpart]
    refine ⟨h.connected, fun e he => ?_⟩
    rcases List.mem_append.mp he with he | he
    · exact h.frames e he
    · rw [List.mem_singleton.mp he]

end

/-! ## What the server makes of it -/

/-- What is read from the packet. -/
def ClientPacket.read : ClientPacket → Packet
  | .joinRoomRequest username sequence => ⟨.joinRoomRequest (some ⟨username⟩), sequence⟩
  | .leaveRoomRequest roomId sequence => ⟨.leaveRoomRequest (some ⟨roomId⟩), sequence⟩
  | .sendMessageRequest roomId username message sequence =>
    ⟨.sendMessageRequest (some ⟨roomId, username, message⟩), sequence⟩

/-- The first step of the handler that is meant. A message is spoken under the name the server
knows, and the nickname ends at its first zero byte. -/
def ClientPacket.begins (cmd : PacketCommand) : ClientPacket → HandlerPc
  | .joinRoomRequest username sequence => .joinRoom ⟨cmd, sequence⟩ (username.takeWhile (· != 0))
  | .leaveRoomRequest _ sequence => .leaveFind ⟨cmd, sequence⟩
  | .sendMessageRequest _ _ message sequence => .chatFind ⟨cmd, sequence⟩ message

theorem dispatch_read (fb : FlatBuffers) (s : State) {cmd : PacketCommand} {packet : ClientPacket}
    (h : fb.getPacket cmd.data = some packet.read) :
    s.dispatch fb cmd = { s with handler := packet.begins cmd } := by
  unfold State.dispatch
  rw [h]
  cases packet <;> rfl

/-- The handler that a packet is meant for begins when the command is dispatched. -/
def Begins (fb : FlatBuffers) (cmd : PacketCommand) (packet : ClientPacket) : Prop :=
  ∀ s : State, s.dispatch fb cmd = { s with handler := packet.begins cmd }

theorem begins_all (fb : FlatBuffers) (build : ClientPacket → List UInt8)
    {cmds : List PacketCommand} {packets : List ClientPacket}
    (hdata : cmds.map PacketCommand.data = packets.map build)
    (hread : ∀ packet ∈ packets, parsePacket fb (build packet) = some packet.read) :
    List.Forall₂ (Begins fb) cmds packets := by
  induction packets generalizing cmds with
  | nil =>
    rw [List.map_nil, List.map_eq_nil_iff] at hdata
    rw [hdata]
    exact .nil
  | cons packet packets ih =>
    obtain ⟨cmd, rest, rfl, hcmd, hrest⟩ := List.map_eq_cons_iff.mp hdata
    refine .cons (fun s => dispatch_read fb s ?_) (ih hrest fun p hp => hread p (.tail _ hp))
    have hparse := hread packet (.head _)
    rw [hcmd]
    unfold parsePacket at hparse
    split at hparse
    · exact hparse
    · cases hparse

/-- The bytes of a session are the frames of its requests. -/
theorem console_wire {net : Transport} (hnet : net.Splits) {build : ClientPacket → List UInt8}
    {inputs : List Input} (hopen : Input.closed ∉ inputs) (sends recvs : Nat)
    (hsize : ∀ packet ∈ packetsOf inputs, (build packet).length ≤ maxFrameSize) :
    (console net build ⟨[], sends, recvs⟩ inputs).client.pipe.bytes =
      wire ((packetsOf inputs).map build) := by
  obtain ⟨hasked, hmade⟩ := console_made net build ⟨[], sends, recvs⟩ inputs
  have hwhole : Whole build (console net build ⟨[], sends, recvs⟩ inputs).client :=
    session_keeps (fun _ level message h => h.note level message)
      (fun _ make h => h.request hnet make) hopen _ ⟨rfl, nofun⟩
  have hframes : (console net build ⟨[], sends, recvs⟩ inputs).client.asked.map Prod.snd =
      (console net build ⟨[], sends, recvs⟩ inputs).client.asked.map
        fun e => frameBytes (build e.1) := by
    refine List.map_congr_left fun e he => ?_
    have hpacket : e.1 ∈ packetsOf inputs := hasked ▸ List.mem_map_of_mem he
    rw [hwhole.frames e he, sendFrameBytes_eq (hsize e.1 hpacket)]
  have hbytes : (console net build ⟨[], sends, recvs⟩ inputs).client.pipe.bytes =
      ((console net build ⟨[], sends, recvs⟩ inputs).client.asked.map Prod.snd).flatten :=
    hmade.bytes
  rw [hbytes, hframes, wire, ← hasked, List.map_map, List.map_map]
  rfl

/-- **What is typed reaches the handlers.** While the connection holds, and however the stream is
cut into receives that fit the buffer, the server stays connected and gets one command for each
request: dispatched, it begins the handler that was meant, with the nickname, the message and the
number of the request. -/
theorem typed_lines_reach_handlers (net : Transport) (hnet : net.Splits)
    (build : ClientPacket → List UInt8) (fb : FlatBuffers) (sends recvs : Nat)
    (inputs : List Input) (hopen : Input.closed ∉ inputs)
    (hread : ∀ packet ∈ packetsOf inputs, parsePacket fb (build packet) = some packet.read)
    (hsize : ∀ packet ∈ packetsOf inputs, (build packet).length ≤ maxFrameSize)
    (conn : Conn) (slot : Network.Client) (queue : List PacketCommand)
    (hslot : slot.isConnected = true) (hempty : slot.frameBuf.len = 0)
    (chunks : List (List UInt8))
    (hcut : chunks.flatten = (console net build ⟨[], sends, recvs⟩ inputs).client.pipe.bytes)
    (hfits : Fits ((packetsOf inputs).map build) chunks) :
    let x := (RecvPath.start slot queue).handleAll fb conn chunks
    x.client.isConnected = true ∧ ∃ cmds, x.inbox.queue = queue ++ cmds ∧
      (∀ cmd ∈ cmds, cmd.conn = conn) ∧ List.Forall₂ (Begins fb) cmds (packetsOf inputs) := by
  intro x
  have hlegal : ∀ p ∈ (packetsOf inputs).map build, Legal fb p := by
    intro p hp
    obtain ⟨packet, hpacket, rfl⟩ := List.mem_map.mp hp
    exact ⟨hsize packet hpacket, by rw [parses, hread packet hpacket]; rfl⟩
  have hwire : chunks.flatten = wire ((packetsOf inputs).map build) := by
    rw [hcut, console_wire hnet hopen sends recvs hsize]
  obtain ⟨hstays, cmds, hqueue, hdata, hconn⟩ :
      Accepted fb conn slot queue ((packetsOf inputs).map build) chunks :=
    accepted_of_fits hslot hempty hlegal hwire hfits
  exact ⟨hstays chunks [] (by simp), cmds, hqueue, hconn, begins_all fb build hdata hread⟩

/-- What the builder makes of the requests of `ann`. -/
def annBuild : ClientPacket → List UInt8
  | .joinRoomRequest username 1 => if username = ann then joinBytes else []
  | .leaveRoomRequest 0 2 => leaveBytes
  | _ => []

def annInputs : List Input :=
  [.line ann, .line (ascii "hi"), .line (ascii "/join"), .line (ascii "/leave"),
    .line (ascii "/quit")]

/-- Two requests in three receives, cut inside both headers. -/
theorem typed_lines_reach_handlers_ann :
    ∃ cmds, List.Forall₂ (Begins sample) cmds
        [.joinRoomRequest ann 1, .leaveRoomRequest 0 2] ∧
      ((RecvPath.start connected []).handleAll sample ⟨0, 1⟩
        [[0], [0, 0, 60] ++ joinBytes ++ [0, 0], [0, 44] ++ leaveBytes]).inbox.queue = cmds := by
  have hpackets : packetsOf annInputs = [.joinRoomRequest ann 1, .leaveRoomRequest 0 2] := by
    decide
  have hsize : ∀ packet ∈ packetsOf annInputs, (annBuild packet).length ≤ maxFrameSize := by
    rw [hpackets]
    decide
  have hread : ∀ packet ∈ packetsOf annInputs,
      parsePacket sample (annBuild packet) = some packet.read := by
    rw [hpackets]
    intro packet hp
    simp only [List.mem_cons, List.not_mem_nil, or_false] at hp
    rcases hp with rfl | rfl <;> rfl
  have hopen : Input.closed ∉ annInputs := by decide
  have hcut : [[0], [0, 0, 60] ++ joinBytes ++ [0, 0], [0, 44] ++ leaveBytes].flatten =
      (console byteByByte annBuild ⟨[], 0, 0⟩ annInputs).client.pipe.bytes := by
    rw [console_wire byteByByte_splits hopen 0 0 hsize, hpackets]
    rfl
  have hfits : Fits ((packetsOf annInputs).map annBuild)
      [[0], [0, 0, 60] ++ joinBytes ++ [0, 0], [0, 44] ++ leaveBytes] := by
    rw [hpackets]
    refine fits_of_short rfl ?_ ?_
    all_goals decide
  obtain ⟨-, cmds, hqueue, -, hbegins⟩ := typed_lines_reach_handlers byteByByte byteByByte_splits
    annBuild sample 0 0 annInputs hopen hread hsize ⟨0, 1⟩ connected [] rfl rfl _ hcut hfits
  rw [hpackets] at hbegins
  exact ⟨cmds, hbegins, hqueue⟩

end Highp.Console
