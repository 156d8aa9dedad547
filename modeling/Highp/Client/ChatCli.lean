import Highp.Client.PacketStream
import Highp.Client.Tracking

/-! The console of the chat client. What is typed becomes requests, numbered as they come; the
client takes itself for a member as soon as it has asked, and no answer of the server changes
that. -/

namespace Highp.Client
open Highp.Lib Highp.Network

/-! ## A send that fails on the way -/

/-- The loop of `SendAll` with its verdict and what it leaves on the wire, also when it fails. -/
def Pipe.transmit (net : Transport) (p : Pipe) (data : List UInt8) : Bool × Pipe :=
  if data = [] then (true, p)
  else
    match net.send p.sends (min data.length INT_MAX) with
    | .socketError _ => (false, { p with sends := p.sends + 1 })
    | .bytes 0 => (false, { p with sends := p.sends + 1 })
    | .bytes (sent + 1) =>
      ({ p with bytes := p.bytes ++ data.take (sent + 1), sends := p.sends + 1 } : Pipe).transmit
        net (data.drop (sent + 1))
termination_by data.length
decreasing_by
  have hpos := List.length_pos_iff.mpr ‹data ≠ []›
  simp only [List.length_drop]
  omega

section
variable {net : Transport}

/-- Both forms of the loop come to the same verdict, and to the same bytes if it is good. -/
theorem sendLoop_eq_transmit (p : Pipe) (data : List UInt8) :
    p.sendLoop net data =
      if (p.transmit net data).1 then .ok (p.transmit net data).2 else .error .wsaSendFailed := by
  fun_induction Pipe.transmit net p data with
  | case1 p =>
    rw [Pipe.sendLoop]
    rfl
  | case2 p data hne e he =>
    rw [Pipe.sendLoop, if_neg hne, he]
    rfl
  | case3 p data hne he =>
    rw [Pipe.sendLoop, if_neg hne, he]
    rfl
  | case4 p data hne sent he ih =>
    rw [Pipe.sendLoop, if_neg hne, he]
    exact ih

/-- What reaches the wire is the front of the data, and all of it if nothing failed. -/
theorem transmit_bytes (p : Pipe) (data : List UInt8) :
    ∃ part, (p.transmit net data).2.bytes = p.bytes ++ part ∧ part <+: data ∧
      ((p.transmit net data).1 = true ↔ part = data) := by
  fun_induction Pipe.transmit net p data with
  | case1 p => exact ⟨[], by simp, List.nil_prefix, by simp⟩
  | case2 p data hne e he => exact ⟨[], by simp, List.nil_prefix, by simpa using Ne.symm hne⟩
  | case3 p data hne he => exact ⟨[], by simp, List.nil_prefix, by simpa using Ne.symm hne⟩
  | case4 p data hne sent he ih =>
    obtain ⟨part, hbytes, ⟨rest, hrest⟩, hwhole⟩ := ih
    have hsplit : data.take (sent + 1) ++ (part ++ rest) = data := by
      rw [hrest, List.take_append_drop]
    refine ⟨data.take (sent + 1) ++ part, ?_, ⟨rest, by rw [List.append_assoc, hsplit]⟩, ?_⟩
    · rw [hbytes, List.append_assoc]
    · rw [hwhole]
      constructor
      · intro he
        rw [he, List.take_append_drop]
      · intro he
        have hcut := he.trans (List.take_append_drop (sent + 1) data).symm
        exact List.append_cancel_left hcut

/-- A network that always moves something leaves nothing behind. -/
theorem transmit_splits (hnet : net.Splits) (p : Pipe) (data : List UInt8) :
    (p.transmit net data).1 = true := by
  obtain ⟨q, hq, -⟩ := sendLoop_ok hnet p data
  rw [sendLoop_eq_transmit] at hq
  by_contra hfalse
  rw [if_neg hfalse] at hq
  cases hq

end
end Highp.Client

namespace Highp.Console
open Highp.Lib Highp.Network Highp.Client

/-! ## `Client` -/

/-- The bytes of a literal. -/
def ascii (text : String) : Text := text.toList.map fun c => UInt8.ofNat c.toNat

/-- The packets that `PacketFactory.h` builds for a client. -/
inductive ClientPacket
  | joinRoomRequest (username : Text) (sequence : Nat)
  | leaveRoomRequest (roomId sequence : Nat)
  | sendMessageRequest (roomId : Nat) (username message : Text) (sequence : Nat)
  deriving DecidableEq

def ClientPacket.sequence : ClientPacket → Nat
  | .joinRoomRequest _ sequence => sequence
  | .leaveRoomRequest _ sequence => sequence
  | .sendMessageRequest _ _ _ sequence => sequence

/-- What `PacketSender.cpp` passes to `Send` beside the packet. -/
def ClientPacket.tracking : ClientPacket → RequestTracking
  | .joinRoomRequest _ sequence => Highp.Client.sendJoinRoom sequence
  | .leaveRoomRequest _ sequence => Highp.Client.sendLeave sequence
  | .sendMessageRequest _ _ _ sequence => Highp.Client.sendMessage sequence

inductive Level
  | info
  | warn
  | error
  deriving DecidableEq

/-- The calls of `IClientMetrics` in `Client::Send`. -/
inductive MetricsCall
  | onSendFailed
  | onSendCompleted (bytes : Nat)
  | trackRequest (tracking : RequestTracking)
  deriving DecidableEq

/-- The client as far as sending goes. `connected` is that there are a socket and a packet stream
and that the socket is open. `asked` is a ghost: the requests that were made, each with what it has
put on the wire. -/
structure Client where
  connected : Bool
  pipe : Pipe
  nextSequence : Nat
  calls : List MetricsCall
  log : List (Level × Text)
  asked : List (ClientPacket × List UInt8)

def Client.note (c : Client) (level : Level) (message : Text) : Client :=
  { c with log := c.log ++ [(level, message)] }

/-- `Send`. -/
def Client.send (net : Transport) (c : Client) (payload : List UInt8)
    (tracking : RequestTracking) : Client :=
  if !c.connected then c.note .error (ascii "Not connected to server.")
  else
    match c.pipe.transmit net (sendFrameBytes payload) with
    | (false, pipe) =>
      ({ c with pipe, calls := c.calls ++ [.onSendFailed] } : Client).note .error
        (ascii "Send failed.")
    | (true, pipe) =>
      { c with
        pipe
        calls := c.calls ++ .onSendCompleted payload.length ::
          if tracking.sequence ≠ 0 ∧ tracking.responseType ≠ .none then [.trackRequest tracking]
          else [] }

/-- What the functions of `PacketSender.cpp` have in common: the next number, the packet and `Send`.
`build` is the generated builder. -/
def Client.request (net : Transport) (build : ClientPacket → List UInt8) (c : Client)
    (make : Nat → ClientPacket) : Client :=
  let packet := make c.nextSequence
  let sent := ({ c with nextSequence := (c.nextSequence + 1) % 2 ^ 32 } : Client).send net
    (build packet) packet.tracking
  { sent with asked := c.asked ++ [(packet, sent.pipe.bytes.drop c.pipe.bytes.length)] }

def sendJoinRoom (net : Transport) (build : ClientPacket → List UInt8) (c : Client)
    (nickname : Text) : Client :=
  c.request net build (.joinRoomRequest nickname)

def sendLeave (net : Transport) (build : ClientPacket → List UInt8) (c : Client) : Client :=
  c.request net build (.leaveRoomRequest 0)

def sendMessage (net : Transport) (build : ClientPacket → List UInt8) (c : Client)
    (username message : Text) : Client :=
  c.request net build (.sendMessageRequest 0 username message)

/-! ## `ChatCli` -/

inductive Command
  | quit
  | help
  | join
  | leave
  | unknown
  deriving DecidableEq

def kCommands : List (Text × Command) :=
  [(ascii "/quit", .quit), (ascii "/help", .help), (ascii "/join", .join), (ascii "/leave", .leave)]

def parseCommand (cmd : Text) : Command := (kCommands.lookup cmd).getD .unknown

structure ChatCli where
  client : Client
  nickname : Text
  joined : Bool

inductive Action
  | continued
  | quit
  deriving DecidableEq

/-- What comes from outside: a line is typed, or the receive thread closes the socket. -/
inductive Input
  | line (text : Text)
  | closed
  deriving DecidableEq

namespace ChatCli

def note (cli : ChatCli) (level : Level) (message : Text) : ChatCli :=
  { cli with client := cli.client.note level message }

def printHelp (cli : ChatCli) : ChatCli :=
  [ascii "Commands:", ascii "  /join   - Join the server", ascii "  /leave  - Leave the server",
    ascii "  /help   - Show this help", ascii "  /quit   - Disconnect and exit",
    ascii "  <text>  - Send chat message"].foldl (fun cli text => cli.note .info text) cli

def handleCommand (net : Transport) (build : ClientPacket → List UInt8) (cli : ChatCli)
    (line : Text) : Action × ChatCli :=
  match parseCommand line with
  | .quit => (.quit, cli)
  | .help => (.continued, cli.printHelp)
  | .join =>
    if cli.joined then (.continued, cli.note .warn (ascii "Already joined."))
    else
      (.continued, ({ cli with
        client := sendJoinRoom net build cli.client cli.nickname
        joined := true } : ChatCli).note .info
          (ascii "'" ++ cli.nickname ++ ascii "' joined the server"))
  | .leave =>
    if !cli.joined then (.continued, cli.note .warn (ascii "Not joined."))
    else
      (.continued, ({ cli with
        client := sendLeave net build cli.client
        joined := false } : ChatCli).note .info
          (ascii "'" ++ cli.nickname ++ ascii "' left the server"))
  | .unknown =>
    (.continued, cli.note .warn (ascii "Unknown command. Type /help for usage."))

def handleChat (net : Transport) (build : ClientPacket → List UInt8) (cli : ChatCli)
    (line : Text) : ChatCli :=
  if !cli.joined then cli.note .warn (ascii "Not joined. Use /join first.")
  else { cli with client := sendMessage net build cli.client cli.nickname line }

/-- The body of the loop in `Run` behind `getline`. -/
def handleLine (net : Transport) (build : ClientPacket → List UInt8) (cli : ChatCli) :
    Text → Action × ChatCli
  | [] => (.continued, cli)
  | first :: rest =>
    -- 47 is the slash
    if first = 47 then cli.handleCommand net build (first :: rest)
    else (.continued, cli.handleChat net build (first :: rest))

def close (cli : ChatCli) : ChatCli :=
  { cli with client := { cli.client with connected := false } }

/-- The loop of `Run`, up to `/quit` or the end of the input. -/
def loop (net : Transport) (build : ClientPacket → List UInt8) : ChatCli → List Input → ChatCli
  | cli, [] => cli
  | cli, .closed :: rest => cli.close.loop net build rest
  | cli, .line text :: rest =>
    match cli.handleLine net build text with
    | (.quit, cli) => cli
    | (.continued, cli) => cli.loop net build rest

/-- `Run`. -/
def run (net : Transport) (build : ClientPacket → List UInt8) (cli : ChatCli)
    (inputs : List Input) : ChatCli :=
  cli.printHelp.loop net build inputs

/-- The end of `PromptNickname`, where nothing was read at the end of the input. -/
def setNickname (cli : ChatCli) (line : Text) : ChatCli :=
  let nickname := if line = [] then ascii "guest" else line
  ({ cli with nickname } : ChatCli).note .info
    (ascii "Nickname set to '" ++ nickname ++ ascii "'")

/-- `PromptNickname` and `Run`, as `main` calls them for a client that is connected. -/
def session (net : Transport) (build : ClientPacket → List UInt8) : ChatCli → List Input → ChatCli
  | cli, [] => (cli.setNickname []).run net build []
  | cli, .closed :: rest => cli.close.session net build rest
  | cli, .line text :: rest => (cli.setNickname text).run net build rest

end ChatCli

/-! ## What the lines stand for -/

inductive Intent
  | join
  | leave
  | say (message : Text)
  deriving DecidableEq

def Intent.packet (nickname : Text) (sequence : Nat) : Intent → ClientPacket
  | .join => .joinRoomRequest nickname sequence
  | .leave => .leaveRoomRequest 0 sequence
  | .say message => .sendMessageRequest 0 nickname message sequence

/-- Joins and leaves take turns, and only members speak. -/
def Intent.turn : Bool → Intent → Option Bool
  | false, .join => some true
  | true, .leave => some false
  | true, .say _ => some true
  | _, _ => none

/-- What a line stands for when the client takes itself for a member, or not. -/
def asks (joined : Bool) : Text → Option Intent
  | [] => none
  | first :: rest =>
    if first = 47 then
      match parseCommand (first :: rest) with
      | .join => if joined then none else some .join
      | .leave => if joined then some .leave else none
      | _ => none
    else if joined then some (.say (first :: rest)) else none

/-- What a list of lines stands for, up to the first `/quit`. -/
def script : Bool → List Text → List Intent
  | _, [] => []
  | joined, line :: rest =>
    if parseCommand line = .quit then []
    else
      match asks joined line with
      | none => script joined rest
      | some intent => intent :: script ((intent.turn joined).getD joined) rest

/-- The lines among the inputs. -/
def lines (inputs : List Input) : List Text :=
  inputs.filterMap fun
    | .line text => some text
    | .closed => none

/-- A client that `Connect` has just connected. -/
def Client.new (pipe : Pipe) : Client := ⟨true, pipe, 1, [], [], []⟩

def ChatCli.new (c : Client) : ChatCli := ⟨c, [], false⟩

/-- The requests that the metrics were told to wait for. -/
def registered (calls : List MetricsCall) : List RequestTracking :=
  calls.filterMap fun
    | .trackRequest tracking => some tracking
    | _ => none

/-! ## Sending a request -/

/-- What the client is asked to wait for: a request whose frame went out as a whole. -/
def awaited (build : ClientPacket → List UInt8) (e : ClientPacket × List UInt8) :
    Option RequestTracking :=
  if e.2 = sendFrameBytes (build e.1) ∧ e.1.sequence ≠ 0 then some e.1.tracking else none

/-- Some requests were made: each has put the front of its frame on the wire. -/
structure Made (build : ClientPacket → List UInt8) (c c' : Client)
    (new : List (ClientPacket × List UInt8)) : Prop where
  asked : c'.asked = c.asked ++ new
  bytes : c'.pipe.bytes = c.pipe.bytes ++ (new.map Prod.snd).flatten
  part : ∀ e ∈ new, e.2 <+: sendFrameBytes (build e.1)
  registered : registered c'.calls = registered c.calls ++ new.filterMap (awaited build)

section
variable {net : Transport} {build : ClientPacket → List UInt8} {c c' c'' : Client}
  {new new' : List (ClientPacket × List UInt8)}

theorem Made.trans (h : Made build c c' new) (h' : Made build c' c'' new') :
    Made build c c'' (new ++ new') where
  asked := by rw [h'.asked, h.asked, List.append_assoc]
  bytes := by
    rw [h'.bytes, h.bytes, List.map_append, List.flatten_append, List.append_assoc]
  part e he := (List.mem_append.mp he).elim (h.part e) (h'.part e)
  registered := by
    rw [h'.registered, h.registered, List.filterMap_append, List.append_assoc]

/-- Nothing was asked. -/
theorem Made.none (hasked : c'.asked = c.asked) (hpipe : c'.pipe = c.pipe)
    (hcalls : c'.calls = c.calls) : Made build c c' [] where
  asked := by rw [hasked, List.append_nil]
  bytes := by simp [hpipe]
  part := nofun
  registered := by simp [hcalls]

theorem sendFrameBytes_ne_nil (payload : List UInt8) : sendFrameBytes payload ≠ [] := by
  unfold sendFrameBytes
  simp [storeLE32]

theorem ClientPacket.tracking_type (packet : ClientPacket) :
    packet.tracking.responseType ≠ .none := by
  cases packet <;> nofun

@[simp] theorem ClientPacket.tracking_sequence (packet : ClientPacket) :
    packet.tracking.sequence = packet.sequence := by
  cases packet <;> rfl

/-- A frame that goes out as a whole. -/
theorem send_sent {payload : List UInt8} {tracking : RequestTracking} {pipe : Pipe}
    (hopen : c.connected = true)
    (hsent : c.pipe.transmit net (sendFrameBytes payload) = (true, pipe)) :
    c.send net payload tracking =
      { c with
        pipe
        calls := c.calls ++ .onSendCompleted payload.length ::
          if tracking.sequence ≠ 0 ∧ tracking.responseType ≠ .none then [.trackRequest tracking]
          else [] } := by
  rw [Client.send, hopen, hsent]
  rfl

theorem request_sent {make : Nat → ClientPacket} {pipe : Pipe} (hopen : c.connected = true)
    (hsent : c.pipe.transmit net (sendFrameBytes (build (make c.nextSequence))) = (true, pipe)) :
    c.request net build make =
      { c with
        pipe
        nextSequence := (c.nextSequence + 1) % 2 ^ 32
        calls := c.calls ++ .onSendCompleted (build (make c.nextSequence)).length ::
          if (make c.nextSequence).sequence ≠ 0 then [.trackRequest (make c.nextSequence).tracking]
          else []
        asked := c.asked ++
          [(make c.nextSequence, pipe.bytes.drop c.pipe.bytes.length)] } := by
  have hsend : ({ c with nextSequence := (c.nextSequence + 1) % 2 ^ 32 } : Client).send net
      (build (make c.nextSequence)) (make c.nextSequence).tracking = _ := send_sent hopen hsent
  simp only [Client.request, hsend]
  simp only [ClientPacket.tracking_sequence, ne_eq, ClientPacket.tracking_type, not_false_eq_true,
    and_true]

/-- One request, whatever the network makes of it. -/
theorem request_made (c : Client) (make : Nat → ClientPacket) :
    (c.request net build make).nextSequence = (c.nextSequence + 1) % 2 ^ 32 ∧
      ∃ part, Made build c (c.request net build make) [(make c.nextSequence, part)] := by
  set packet := make c.nextSequence with hpacket
  cases hopen : c.connected with
  | false =>
    have hsend : c.request net build make =
        { c.note .error (ascii "Not connected to server.") with
          nextSequence := (c.nextSequence + 1) % 2 ^ 32
          asked := c.asked ++ [(packet, [])] } := by
      simp [Client.request, Client.send, Client.note, hopen, hpacket]
    rw [hsend]
    refine ⟨rfl, [], rfl, by simp [Client.note], by simp, ?_⟩
    have hnone : awaited build (packet, []) = none := by
      rw [awaited, if_neg fun h => sendFrameBytes_ne_nil _ h.1.symm]
    simp [Client.note, hnone]
  | true =>
    obtain ⟨part, hbytes, hprefix, hwhole⟩ :
        ∃ part, (c.pipe.transmit net (sendFrameBytes (build packet))).2.bytes =
            c.pipe.bytes ++ part ∧ part <+: sendFrameBytes (build packet) ∧
          ((c.pipe.transmit net (sendFrameBytes (build packet))).1 = true ↔
            part = sendFrameBytes (build packet)) := transmit_bytes c.pipe _
    cases hsent : c.pipe.transmit net (sendFrameBytes (build packet)) with
    | mk ok pipe =>
      rw [hsent] at hbytes hwhole
      have hdrop : pipe.bytes.drop c.pipe.bytes.length = part := by
        rw [hbytes, List.drop_left]
      cases ok with
      | false =>
        have hsend : c.request net build make =
            { c.note .error (ascii "Send failed.") with
              pipe
              nextSequence := (c.nextSequence + 1) % 2 ^ 32
              calls := c.calls ++ [.onSendFailed]
              asked := c.asked ++ [(packet, part)] } := by
          simp [Client.request, Client.send, Client.note, hopen, ← hpacket, hsent, hdrop]
        rw [hsend]
        refine ⟨rfl, part, rfl, by simpa using hbytes, by simpa using hprefix, ?_⟩
        have hnone : awaited build (packet, part) = none := by
          rw [awaited, if_neg fun h => Bool.false_ne_true (hwhole.mpr h.1)]
        simp [registered, hnone]
      | true =>
        rw [request_sent hopen hsent, hdrop, ← hpacket]
        refine ⟨rfl, part, rfl, by simpa using hbytes, by simpa using hprefix, ?_⟩
        have hpart := hwhole.mp rfl
        by_cases hzero : packet.sequence = 0
        · have hnone : awaited build (packet, part) = none := by
            rw [awaited, if_neg fun h => h.2 hzero]
          simp [registered, hnone, hzero]
        · have hsome : awaited build (packet, part) = some packet.tracking := by
            rw [awaited, if_pos ⟨hpart, hzero⟩]
          simp [registered, hsome, hzero]

end

/-! ## Handling a line -/

/-- So much was asked for, and the client takes itself for what it has asked for. -/
structure Went (build : ClientPacket → List UInt8) (cli next : ChatCli) (intents : List Intent) :
    Prop where
  nickname : next.nickname = cli.nickname
  number : next.client.nextSequence = (cli.client.nextSequence + intents.length) % 2 ^ 32
  joined : intents.foldlM Intent.turn cli.joined = some next.joined
  made : ∃ new, new.map Prod.fst = intents.mapIdx (fun k intent =>
      intent.packet cli.nickname ((cli.client.nextSequence + k) % 2 ^ 32)) ∧
    Made build cli.client next.client new

section
variable {net : Transport} {build : ClientPacket → List UInt8} {cli next last : ChatCli}

theorem Went.trans {intents intents' : List Intent} (h : Went build cli next intents)
    (h' : Went build next last intents') : Went build cli last (intents ++ intents') := by
  obtain ⟨new, hnew, hmade⟩ := h.made
  obtain ⟨new', hnew', hmade'⟩ := h'.made
  refine ⟨h'.nickname.trans h.nickname, ?_, ?_, new ++ new', ?_, hmade.trans hmade'⟩
  · rw [h'.number, h.number, List.length_append]
    omega
  · rw [List.foldlM_append, h.joined]
    exact h'.joined
  · rw [List.map_append, hnew, hnew', List.mapIdx_append, h.nickname, h.number]
    have hshift : ∀ k, ((cli.client.nextSequence + intents.length) % 2 ^ 32 + k) % 2 ^ 32 =
        (cli.client.nextSequence + (k + intents.length)) % 2 ^ 32 := by
      intro k
      omega
    simp only [hshift]

theorem went_quiet (hnumber : cli.client.nextSequence < 2 ^ 32)
    (hnickname : next.nickname = cli.nickname) (hjoined : next.joined = cli.joined)
    (hnext : next.client.nextSequence = cli.client.nextSequence)
    (hasked : next.client.asked = cli.client.asked) (hpipe : next.client.pipe = cli.client.pipe)
    (hcalls : next.client.calls = cli.client.calls) : Went build cli next [] where
  nickname := hnickname
  number := by rw [hnext, List.length_nil, Nat.add_zero, Nat.mod_eq_of_lt hnumber]
  joined := by simp [hjoined]
  made := ⟨[], rfl, .none hasked hpipe hcalls⟩

theorem went_note (hnumber : cli.client.nextSequence < 2 ^ 32) (level : Level) (message : Text) :
    Went build cli (cli.note level message) [] :=
  went_quiet hnumber rfl rfl rfl rfl rfl rfl

/-- A request is made for an intent, and the client goes by it. -/
theorem went_request (hnumber : cli.client.nextSequence < 2 ^ 32) {intent : Intent}
    {joined : Bool} (hturn : intent.turn cli.joined = some joined) {make : Nat → ClientPacket}
    (hmake : ∀ sequence, make sequence = intent.packet cli.nickname sequence) :
    Went build cli { cli with client := cli.client.request net build make, joined } [intent] := by
  obtain ⟨hnext, part, hmade⟩ :
      (cli.client.request net build make).nextSequence = (cli.client.nextSequence + 1) % 2 ^ 32 ∧
        ∃ part, Made build cli.client (cli.client.request net build make)
          [(make cli.client.nextSequence, part)] := request_made cli.client make
  refine ⟨rfl, hnext, by simp [hturn], [(make cli.client.nextSequence, part)], ?_, hmade⟩
  rw [List.mapIdx_cons, List.mapIdx_nil, List.map_cons, List.map_nil, hmake, Nat.add_zero,
    Nat.mod_eq_of_lt hnumber]

/-- A line of the log behind it all. -/
theorem Went.noted {intents : List Intent} (h : Went build cli next intents) (level : Level)
    (message : Text) : Went build cli (next.note level message) intents := by
  have hlt : next.client.nextSequence < 2 ^ 32 := by
    rw [h.number]
    exact Nat.mod_lt _ (by decide)
  have hboth := h.trans (went_note hlt level message)
  rwa [List.append_nil] at hboth

theorem notes_went (hnumber : cli.client.nextSequence < 2 ^ 32) (texts : List Text) :
    Went build cli (texts.foldl (fun cli text => cli.note .info text) cli) [] := by
  induction texts generalizing cli with
  | nil => exact went_quiet hnumber rfl rfl rfl rfl rfl rfl
  | cons text texts ih => exact (went_note hnumber .info text).trans (ih hnumber)

theorem printHelp_went (hnumber : cli.client.nextSequence < 2 ^ 32) :
    Went build cli cli.printHelp [] := by
  unfold ChatCli.printHelp
  exact notes_went hnumber _

/-- All commands begin with a slash. -/
theorem parseCommand_slash {first : UInt8} (h : first ≠ 47) (rest : Text) :
    parseCommand (first :: rest) = .unknown := by
  have hslash : ∀ entry ∈ kCommands, entry.1.head? = some 47 := by decide
  have hnone : kCommands.lookup (first :: rest) = none := by
    rw [List.lookup_eq_none_iff]
    intro entry hentry
    have hhead := hslash entry hentry
    rw [bne_iff_ne]
    intro he
    rw [← he] at hhead
    exact h (Option.some.inj hhead)
  rw [parseCommand, hnone]
  rfl

/-- One line, by what it stands for. -/
theorem handleLine_went (hnumber : cli.client.nextSequence < 2 ^ 32) (line : Text) :
    ((cli.handleLine net build line).1 = .quit ↔ parseCommand line = .quit) ∧
      Went build cli (cli.handleLine net build line).2 (asks cli.joined line).toList := by
  cases line with
  | nil =>
    have hcommand : parseCommand [] ≠ .quit := by decide
    exact ⟨by simp [ChatCli.handleLine, hcommand], went_quiet hnumber rfl rfl rfl rfl rfl rfl⟩
  | cons first rest =>
    by_cases hslash : first = 47
    · simp only [ChatCli.handleLine, asks, if_pos hslash, ChatCli.handleCommand]
      cases hcommand : parseCommand (first :: rest) with
      | quit => exact ⟨by simp, went_quiet hnumber rfl rfl rfl rfl rfl rfl⟩
      | help => exact ⟨by simp, printHelp_went hnumber⟩
      | unknown => exact ⟨by simp, went_note hnumber _ _⟩
      | join =>
        cases hjoined : cli.joined with
        | true => exact ⟨by simp, went_note hnumber _ _⟩
        | false =>
          have hturn : Intent.join.turn cli.joined = some true := by
            rw [hjoined]
            rfl
          exact ⟨by simp, (went_request hnumber hturn fun _ => rfl).noted _ _⟩
      | leave =>
        cases hjoined : cli.joined with
        | false => exact ⟨by simp, went_note hnumber _ _⟩
        | true =>
          have hturn : Intent.leave.turn cli.joined = some false := by
            rw [hjoined]
            rfl
          exact ⟨by simp, (went_request hnumber hturn fun _ => rfl).noted _ _⟩
    · simp only [ChatCli.handleLine, asks, if_neg hslash, ChatCli.handleChat]
      refine ⟨by simp [parseCommand_slash hslash], ?_⟩
      cases hjoined : cli.joined with
      | false => exact went_note hnumber _ _
      | true =>
        have hturn : (Intent.say (first :: rest)).turn cli.joined = some true := by
          rw [hjoined]
          rfl
        exact went_request hnumber hturn fun _ => rfl

/-- `/quit` asks for nothing. -/
theorem asks_quit {line : Text} (h : parseCommand line = .quit) (joined : Bool) :
    asks joined line = none := by
  cases line with
  | nil => rfl
  | cons first rest =>
    have hslash : first = 47 := by
      by_contra hother
      rw [parseCommand_slash hother] at h
      cases h
    rw [asks, if_pos hslash, h]

/-- The whole input: the requests are those that the lines stand for. -/
theorem loop_went (hnumber : cli.client.nextSequence < 2 ^ 32) (inputs : List Input) :
    Went build cli (cli.loop net build inputs) (script cli.joined (lines inputs)) := by
  induction inputs generalizing cli with
  | nil => exact went_quiet hnumber rfl rfl rfl rfl rfl rfl
  | cons input inputs ih =>
    cases input with
    | closed =>
      have hclose : Went build cli cli.close [] := went_quiet hnumber rfl rfl rfl rfl rfl rfl
      exact hclose.trans (ih hnumber)
    | line text =>
      obtain ⟨hquit, hwent⟩ : ((cli.handleLine net build text).1 = .quit ↔
          parseCommand text = .quit) ∧ Went build cli (cli.handleLine net build text).2
            (asks cli.joined text).toList := handleLine_went hnumber text
      have hlines : lines (.line text :: inputs) = text :: lines inputs := rfl
      rw [hlines, script, ChatCli.loop]
      cases haction : cli.handleLine net build text with
      | mk action next =>
        rw [haction] at hquit hwent
        have hlt : next.client.nextSequence < 2 ^ 32 := by
          rw [hwent.number]
          exact Nat.mod_lt _ (by decide)
        cases action with
        | quit =>
          have hcommand := hquit.mp rfl
          rw [if_pos hcommand]
          rwa [asks_quit hcommand] at hwent
        | continued =>
          rw [if_neg (by simpa using hquit.not)]
          cases hasks : asks cli.joined text with
          | none =>
            rw [hasks] at hwent
            have hjoined : cli.joined = next.joined := by simpa using hwent.joined
            have hrest := hwent.trans (ih hlt)
            rw [← hjoined] at hrest
            exact hrest
          | some intent =>
            rw [hasks] at hwent
            have hturn : intent.turn cli.joined = some next.joined := by simpa using hwent.joined
            simp only [hturn, Option.getD_some]
            exact hwent.trans (ih hlt)

end

/-! ## A session -/

/-- The first line, or `guest`. -/
def nicknameOf (inputs : List Input) : Text :=
  match lines inputs with
  | [] => ascii "guest"
  | line :: _ => if line = [] then ascii "guest" else line

section
variable {net : Transport} {build : ClientPacket → List UInt8} {cli : ChatCli}

theorem setNickname_went (hnumber : cli.client.nextSequence < 2 ^ 32) {line nickname : Text}
    (h : (if line = [] then ascii "guest" else line) = nickname) :
    Went build { cli with nickname } (cli.setNickname line) [] := by
  subst h
  exact went_quiet hnumber rfl rfl rfl rfl rfl rfl

theorem run_went (cli : ChatCli) (hnumber : cli.client.nextSequence < 2 ^ 32)
    (inputs : List Input) :
    Went build cli (cli.run net build inputs) (script cli.joined (lines inputs)) := by
  have hhelp : Went build cli cli.printHelp [] := printHelp_went hnumber
  have hjoined : cli.joined = cli.printHelp.joined := by simpa using hhelp.joined
  have hlt : cli.printHelp.client.nextSequence < 2 ^ 32 := by
    rw [hhelp.number]
    exact Nat.mod_lt _ (by decide)
  have hall : Went build cli (cli.run net build inputs)
      (script cli.printHelp.joined (lines inputs)) := hhelp.trans (loop_went hlt inputs)
  rwa [← hjoined] at hall

theorem session_went (hnumber : cli.client.nextSequence < 2 ^ 32) (inputs : List Input) :
    Went build { cli with nickname := nicknameOf inputs } (cli.session net build inputs)
      (script cli.joined (lines inputs).tail) := by
  induction inputs generalizing cli with
  | nil =>
    exact (setNickname_went hnumber rfl).trans (run_went (cli.setNickname []) hnumber [])
  | cons input inputs ih =>
    cases input with
    | line text =>
      exact (setNickname_went hnumber rfl).trans (run_went (cli.setNickname text) hnumber inputs)
    | closed =>
      have hclose : Went build { cli with nickname := nicknameOf inputs }
          { cli.close with nickname := nicknameOf inputs } [] :=
        went_quiet hnumber rfl rfl rfl rfl rfl rfl
      have hrest : Went build { cli.close with nickname := nicknameOf inputs }
        (cli.close.session net build inputs) (script cli.joined (lines inputs).tail) := ih hnumber
      exact hclose.trans hrest

end

/-- The requests that the lines of a session stand for, numbered from 1. -/
def packetsOf (inputs : List Input) : List ClientPacket :=
  (script false (lines inputs).tail).mapIdx fun k intent =>
    intent.packet (nicknameOf inputs) ((1 + k) % 2 ^ 32)

/-- The console behind the first connection of a client. -/
def console (net : Transport) (build : ClientPacket → List UInt8) (pipe : Pipe)
    (inputs : List Input) : ChatCli :=
  (ChatCli.new (.new pipe)).session net build inputs

section
variable (net : Transport) (build : ClientPacket → List UInt8) (pipe : Pipe) (inputs : List Input)

theorem console_went :
    Went build { ChatCli.new (.new pipe) with nickname := nicknameOf inputs }
      (console net build pipe inputs) (script false (lines inputs).tail) :=
  session_went (show 1 < 2 ^ 32 by decide) inputs

theorem console_made :
    (console net build pipe inputs).client.asked.map Prod.fst = packetsOf inputs ∧
      Made build (.new pipe) (console net build pipe inputs).client
        (console net build pipe inputs).client.asked := by
  obtain ⟨new, hnew, hmade⟩ := (console_went net build pipe inputs).made
  have hasked : (console net build pipe inputs).client.asked = new := hmade.asked
  rw [hasked]
  exact ⟨hnew, hmade⟩

end

/-- **What is asked for is what was typed.** The requests of a session are those that its lines
stand for, numbered from 1; joins and leaves take turns, and the client takes itself for a member
when the last of them was a join. Neither a lost connection nor a failed send changes any of this:
a request that does not get through leaves the front of its frame on the wire, and it is waited for
exactly if the frame went out as a whole. -/
theorem requests_of_lines (net : Transport) (build : ClientPacket → List UInt8) (pipe : Pipe)
    (inputs : List Input) :
    let cli := console net build pipe inputs
    cli.client.asked.map Prod.fst = packetsOf inputs ∧
      (script false (lines inputs).tail).foldlM Intent.turn false = some cli.joined ∧
      cli.client.pipe.bytes = pipe.bytes ++ (cli.client.asked.map Prod.snd).flatten ∧
      (∀ e ∈ cli.client.asked, e.2 <+: sendFrameBytes (build e.1)) ∧
      registered cli.client.calls = cli.client.asked.filterMap (awaited build) := by
  intro cli
  obtain ⟨hasked, hmade⟩ := console_made net build pipe inputs
  exact ⟨hasked, (console_went net build pipe inputs).joined, hmade.bytes, hmade.part,
    hmade.registered⟩

end Highp.Console
