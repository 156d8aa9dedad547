import Highp.Chat.Conversation
import Highp.Client.ChatCli
import Highp.Metrics.ClientWriter
import Highp.Network.SendBuffer

/-! What the server sends is what the console shows. The receive loop of the chat client takes
frames off the socket, and the packets become lines on the screen. -/

namespace Highp.Client
open Highp.Lib Highp.Network

/-! ## What a receive can take -/

/-- `recv` never gives more than was asked for and is there. -/
def Transport.Within (net : Transport) : Prop :=
  ∀ i n k, 0 < n → net.recv i n = .bytes k → k ≤ n

theorem Transport.Splits.within {net : Transport} (h : net.Splits) : net.Within := by
  intro i n k hpos hk
  obtain ⟨k', hk', -, hle⟩ := h.recv i n hpos
  rw [hk] at hk'
  cases hk'
  exact hle

section
variable {net : Transport} {p q : Pipe} {front more out received : List UInt8} {size : Nat}

theorem recvSome_within (hnet : net.Within) (hpos : 0 < size)
    (h : p.recvSome net true size = .ok (out, q)) :
    p.bytes = out ++ q.bytes ∧ out.length ≤ size := by
  unfold Pipe.recvSome at h
  rw [if_neg (by simp), if_neg (Nat.ne_of_gt hpos)] at h
  cases ha : net.recv p.recvs (min size p.bytes.length) with
  | socketError e =>
    simp only [ha] at h
    split at h <;> cases h
  | bytes n =>
    simp only [ha] at h
    cases h
    refine ⟨(List.take_append_drop n p.bytes).symm, ?_⟩
    rw [List.length_take]
    by_cases hthere : 0 < min size p.bytes.length
    · have hn := hnet _ _ _ hthere ha
      omega
    · omega

theorem recvLoop_within (hnet : net.Within) (hle : received.length ≤ size)
    (h : p.recvLoop net true size received = .ok (out, q)) :
    received ++ p.bytes = out ++ q.bytes ∧ out.length = size := by
  fun_induction Pipe.recvLoop net true p size received with
  | case1 p received hlt e he => cases h
  | case2 p received hlt q he => cases h
  | case3 p received hlt byte chunk q' he ih =>
    obtain ⟨hbytes, hlength⟩ := recvSome_within hnet (by omega) he
    have hnext : (received ++ byte :: chunk).length ≤ size := by
      rw [List.length_append]
      omega
    obtain ⟨hall, hfull⟩ := ih hnext h
    refine ⟨?_, hfull⟩
    rw [hbytes, ← List.append_assoc]
    exact hall
  | case4 p received hge =>
    cases h
    exact ⟨rfl, by omega⟩

/-- What is taken exactly is the front of what can come. -/
theorem recvExact_within (hnet : net.Within) (hfront : p.bytes <+: front ++ more)
    (hsize : front.length = size) (h : p.recvExact net true size = .ok (out, q)) :
    out = front ∧ p.bytes = front ++ q.bytes := by
  obtain ⟨hall, hlength⟩ := recvLoop_within hnet (Nat.zero_le _) h
  rw [List.nil_append] at hall
  have hout : out <+: front ++ more := List.IsPrefix.trans ⟨q.bytes, hall.symm⟩ hfront
  have hle : out <+: front := List.prefix_of_prefix_length_le hout (List.prefix_append ..)
    (by omega)
  have he : out = front := hle.eq_of_length (by omega)
  exact ⟨he, he ▸ hall⟩

/-- A frame that comes at all comes as it was sent. -/
theorem recvFrame_within {payload : List UInt8} (hnet : net.Within)
    (hmax : payload.length ≤ maxFrameSize) (hfront : p.bytes <+: frameBytes payload ++ more)
    (h : p.recvFrame net true maxFrameSize = .ok ((size, out), q)) :
    out = payload ∧ p.bytes = frameBytes payload ++ q.bytes := by
  have hlt : payload.length < 2 ^ 32 := Nat.lt_of_le_of_lt hmax (by decide)
  unfold Pipe.recvFrame at h
  rw [if_neg (by simp [maxFrameSize]), if_neg (Nat.lt_irrefl _)] at h
  cases hheader : p.recvExact net true kHeaderSize with
  | error e =>
    rw [hheader] at h
    cases h
  | ok result =>
    obtain ⟨header, r⟩ := result
    rw [frameBytes, List.append_assoc] at hfront
    obtain ⟨rfl, hrest⟩ := recvExact_within hnet hfront rfl hheader
    have hlength :
        byteSwap32 (loadLE32 (storeLE32 (byteSwap32 payload.length))) = payload.length := by
      have hstore := ofBE32_store payload.length hlt []
      rw [List.append_nil] at hstore
      rw [byteSwap32_load, hstore]
    rw [hheader] at h
    simp only [hlength, gt_iff_lt, if_neg (Nat.not_lt.mpr hmax)] at h
    have hthere : r.bytes <+: payload ++ more := by
      rw [hrest] at hfront
      exact (List.prefix_append_right_inj _).mp hfront
    split at h
    · rename_i hzero
      have hnil : payload = [] := List.length_eq_zero_iff.mp hzero
      subst hnil
      cases h
      exact ⟨rfl, by simpa [frameBytes] using hrest⟩
    · cases hbody : r.recvExact net true payload.length with
      | error e =>
        rw [hbody] at h
        cases h
      | ok result =>
        obtain ⟨body, last⟩ := result
        rw [hbody] at h
        cases h
        obtain ⟨rfl, hlast⟩ := recvExact_within hnet hthere rfl hbody
        refine ⟨rfl, ?_⟩
        rw [hrest, hlast, frameBytes, List.append_assoc]

/-- Nothing comes out of an empty pipe. -/
theorem recvFrame_empty (hempty : p.bytes = []) :
    ∃ e, p.recvFrame net true maxFrameSize = .error e := by
  unfold Pipe.recvFrame
  rw [if_neg (by simp [maxFrameSize]), if_neg (Nat.lt_irrefl _)]
  have hheader : ∃ e, p.recvExact net true kHeaderSize = .error e := by
    unfold Pipe.recvExact Pipe.recvLoop
    rw [if_pos (by simp [kHeaderSize])]
    cases hsome : p.recvSome net true (kHeaderSize - ([] : List UInt8).length) with
    | error e => exact ⟨e, rfl⟩
    | ok result =>
      obtain ⟨chunk, r⟩ := result
      have hnil : chunk = [] := by
        unfold Pipe.recvSome at hsome
        rw [if_neg (by simp), if_neg (by simp [kHeaderSize])] at hsome
        split at hsome
        · split at hsome <;> cases hsome
        · cases hsome
          simp [hempty]
      subst hnil
      exact ⟨_, rfl⟩
  obtain ⟨e, he⟩ := hheader
  exact ⟨e, by rw [he]⟩

end
end Highp.Client

namespace Highp.Console
open Highp.Lib Highp.Network Highp.Client
open Highp.Metrics (ClientDisconnectReason)

/-! ## `PacketReceiver.cpp` -/

def messageTypes : List (Nat × MessageType) :=
  [(0, .none), (1, .csJoinRoom), (2, .csLeaveRoom), (3, .csSendMessage), (100, .scJoinedRoom),
   (101, .scLeftRoom), (150, .bUserJoined), (151, .bUserLeft), (152, .bChatMessage),
   (999, .scError)]

structure ErrorTable where
  message : Option Text
  deriving DecidableEq

/-- The union of a packet with the tables that the client reads. `other` is any other table, and
no table: both are a null pointer for every `payload_as` of the client. -/
inductive ReplyPayload
  | joinedRoomResponse (error : Option ErrorTable)
  | leftRoomResponse (error : Option ErrorTable)
  | userJoinedBroadcast (roomId : Nat) (username : Text)
  | userLeftBroadcast (username : Text)
  | chatMessageBroadcast (senderId : Nat) (username message : Text)
  | errorResponse (errorCode : Nat) (message : Option Text)
  | other
  deriving DecidableEq

/-- A packet as the client reads it. `type` is the number on the wire. -/
structure Reply where
  type : Nat
  payload : ReplyPayload
  sequence : Nat
  deriving DecidableEq

/-- The generated code as far as the client uses it. -/
structure ReplyCode where
  verify : List UInt8 → Bool
  getPacket : List UInt8 → Option Reply
  enumNameMessageType : Nat → Text
  enumNameErrorCode : Nat → Text

abbrev Line := Level × Text

/-- A string that is formatted through `c_str()` ends at its first zero. -/
def cStr (text : Text) : Text := text.takeWhile fun byte => byte != 0

def number (n : Nat) : Text := ascii (toString n)

/-- The lines for a response; `none` is a null pointer that is followed. -/
def responseLine (name : Text) : Option ErrorTable → Option (List Line)
  | some ⟨some message⟩ => some [(.warn, name ++ ascii " err=" ++ cStr message)]
  | some ⟨none⟩ => none
  | none => some [(.info, name ++ ascii " ok")]

/-- `onPacketReceived`. -/
def onPacketReceived (code : ReplyCode) (packet : Reply) : Option (List Line) :=
  match messageTypes.lookup packet.type with
  | some .scJoinedRoom =>
    match packet.payload with
    | .joinedRoomResponse error => responseLine (ascii "[JoinedRoom]") error
    | _ => none
  | some .scLeftRoom =>
    match packet.payload with
    | .leftRoomResponse error => responseLine (ascii "[LeftRoom]") error
    | _ => none
  | some .bUserJoined =>
    match packet.payload with
    | .userJoinedBroadcast roomId username =>
      some [(.info, ascii "[UserJoined] user=" ++ cStr username ++ ascii " roomId=" ++
        number roomId)]
    | _ => none
  | some .bUserLeft =>
    match packet.payload with
    | .userLeftBroadcast username => some [(.info, ascii "[UserLeft] user=" ++ cStr username)]
    | _ => none
  | some .bChatMessage =>
    match packet.payload with
    | .chatMessageBroadcast senderId username message =>
      some [(.info, ascii "[Chat] " ++ number senderId ++ ascii "[" ++ cStr username ++
        ascii "]: " ++ cStr message)]
    | _ => none
  | some .scError =>
    match packet.payload with
    | .errorResponse errorCode message =>
      some [(.error, ascii "[ServerError] code=" ++ code.enumNameErrorCode errorCode ++
        ascii ", message=" ++ cStr (message.getD []))]
    | _ => some []
  | some _ => some [(.error, ascii "[Invalid] type=" ++ code.enumNameMessageType packet.type)]
  | none => some [(.warn, ascii "[Unknown] type=" ++ code.enumNameMessageType packet.type)]

/-! ## `StartRecvLoop` -/

def toDisconnectMessage : ClientDisconnectReason → Text
  | .timeout => ascii "Disconnected from server (timeout)."
  | .serverClose => ascii "Disconnected from server (server close)."
  | .recvFail => ascii "Disconnected from server (recv fail)."
  | .localClose => ascii "Disconnected from server."
  | .none => ascii "Disconnected from server (unknown)."

/-- The calls of `IClientMetrics` in the receive loop. -/
inductive RecvCall
  | onRecvCompleted (bytes : Nat)
  | onPacketValidationFailed
  | onPacketValidationSucceeded
  | resolveRequest (sequence type : Nat)
  | onDisconnected (reason : ClientDisconnectReason)
  deriving DecidableEq

/-- What becomes of a payload: what the metrics hear and what the console shows. -/
def handlePayload (code : ReplyCode) (payload : List UInt8) :
    Option (List RecvCall × List Line) :=
  if payload = [] then some ([], [])
  else if !code.verify payload then
    some ([.onRecvCompleted payload.length, .onPacketValidationFailed],
      [(.warn, ascii "Received invalid packet.")])
  else
    match code.getPacket payload with
    | none => some ([.onRecvCompleted payload.length], [])
    | some packet =>
      (onPacketReceived code packet).map fun lines =>
        ([.onRecvCompleted payload.length, .onPacketValidationSucceeded,
          .resolveRequest packet.sequence packet.type], lines)

/-- The client as far as receiving goes. -/
structure Receiver where
  connected : Bool
  pipe : Pipe
  calls : List RecvCall
  log : List Line

/-- The body of the loop, while nobody else disconnects. `none` is a crash. -/
def Receiver.turn (net : Transport) (code : ReplyCode) (r : Receiver) : Option Receiver :=
  match r.pipe.recvFrame net r.connected maxFrameSize with
  | .error e =>
    let disconnectReason : ClientDisconnectReason :=
      if e = .socketInvalid then .serverClose else .recvFail
    some { r with
      connected := false
      calls := r.calls ++ [.onDisconnected disconnectReason]
      log := r.log ++ [(.error, toDisconnectMessage disconnectReason)] }
  | .ok ((_, payload), pipe) =>
    (handlePayload code payload).map fun (calls, lines) =>
      { r with pipe, calls := r.calls ++ calls, log := r.log ++ lines }

/-- At most so many rounds of the loop. -/
def Receiver.loop (net : Transport) (code : ReplyCode) : Nat → Receiver → Option Receiver
  | 0, r => some r
  | n + 1, r => if r.connected then (r.turn net code).bind (loop net code n) else some r

/-- When the loop starts. -/
def Receiver.new (pipe : Pipe) : Receiver := ⟨true, pipe, [], []⟩

/-! ## What the loop has shown -/

/-- Some payloads were handled, and the connection is still there or was lost behind them. -/
inductive Showed (r : Receiver) (calls : List RecvCall) (lines : List Line) : Receiver → Prop
  | still (pipe : Pipe) :
      Showed r calls lines { r with pipe, calls := r.calls ++ calls, log := r.log ++ lines }
  | lost (pipe : Pipe) (reason : ClientDisconnectReason) :
      Showed r calls lines ⟨false, pipe, r.calls ++ calls ++ [.onDisconnected reason],
        r.log ++ lines ++ [(.error, toDisconnectMessage reason)]⟩

section
variable {net : Transport} {code : ReplyCode} {r r' : Receiver} {calls calls' : List RecvCall}
  {lines lines' : List Line} {payload more : List UInt8}

theorem Showed.none (r : Receiver) : Showed r [] [] r := by
  have h : Showed r [] [] { r with calls := r.calls ++ [], log := r.log ++ [] } := .still r.pipe
  simpa using h

theorem Showed.nothing (r : Receiver) (reason : ClientDisconnectReason) :
    Showed r [] [] ⟨false, r.pipe, r.calls ++ [.onDisconnected reason],
      r.log ++ [(.error, toDisconnectMessage reason)]⟩ := by
  have h : Showed r [] [] ⟨false, r.pipe, r.calls ++ [] ++ [.onDisconnected reason],
      r.log ++ [] ++ [(.error, toDisconnectMessage reason)]⟩ := .lost r.pipe reason
  simpa using h

/-- A payload is handled, and then others. -/
theorem Showed.cons {pipe : Pipe}
    (h : Showed { r with pipe, calls := r.calls ++ calls, log := r.log ++ lines } calls' lines'
      r') : Showed r (calls ++ calls') (lines ++ lines') r' := by
  cases h with
  | still pipe =>
    simp only [List.append_assoc]
    exact .still pipe
  | lost pipe reason =>
    have h : Showed r (calls ++ calls') (lines ++ lines') ⟨false, pipe,
        r.calls ++ (calls ++ calls') ++ [.onDisconnected reason],
        r.log ++ (lines ++ lines') ++ [(.error, toDisconnectMessage reason)]⟩ := .lost pipe reason
    simpa only [List.append_assoc] using h

/-- A round either loses the connection or handles the next payload. -/
theorem turn_cases (hnet : net.Within) (hopen : r.connected = true)
    (hmax : payload.length ≤ maxFrameSize) (hfront : r.pipe.bytes <+: frameBytes payload ++ more)
    (hhandle : handlePayload code payload = some (calls, lines)) :
    (∃ reason, r.turn net code = some ⟨false, r.pipe, r.calls ++ [.onDisconnected reason],
        r.log ++ [(.error, toDisconnectMessage reason)]⟩ ∧
      (net.Splits → ¬ frameBytes payload <+: r.pipe.bytes)) ∨
    ∃ pipe, r.turn net code =
        some { r with pipe, calls := r.calls ++ calls, log := r.log ++ lines } ∧
      r.pipe.bytes = frameBytes payload ++ pipe.bytes := by
  cases hframe : r.pipe.recvFrame net true maxFrameSize with
  | error e =>
    left
    refine ⟨if e = .socketInvalid then .serverClose else .recvFail, ?_, ?_⟩
    · unfold Receiver.turn
      rw [hopen, hframe]
    · rintro hsplits ⟨rest, hrest⟩
      obtain ⟨q, hq, -⟩ := recvFrame_ok hsplits r.pipe hmax hrest.symm
      rw [hframe] at hq
      cases hq
  | ok result =>
    obtain ⟨⟨size, out⟩, pipe⟩ := result
    obtain ⟨rfl, hbytes⟩ := recvFrame_within hnet hmax hfront hframe
    right
    refine ⟨pipe, ?_, hbytes⟩
    unfold Receiver.turn
    rw [hopen, hframe]
    simp only [hhandle, Option.map_some]

theorem loop_lost (hclosed : r.connected = false) (n : Nat) : r.loop net code n = some r := by
  cases n with
  | zero => rfl
  | succ n => simp [Receiver.loop, hclosed]

/-- **The loop handles a front of what it was sent**, and all that arrives if the network keeps
moving. -/
theorem loop_shows {α : Type} (content : α → List UInt8) (told : α → List RecvCall)
    (shown : α → List Line) (hnet : net.Within) (n : Nat) (r : Receiver) (xs : List α)
    (hopen : r.connected = true)
    (hxs : ∀ x ∈ xs, (content x).length ≤ maxFrameSize ∧
      handlePayload code (content x) = some (told x, shown x))
    (hfront : r.pipe.bytes <+: wire (xs.map content)) :
    ∃ k r', r.loop net code n = some r' ∧ k ≤ n ∧ k ≤ xs.length ∧
      Showed r ((xs.take k).flatMap told) ((xs.take k).flatMap shown) r' ∧
      (r'.connected = true ↔ k = n) ∧
      (net.Splits → ∀ j, j ≤ n → j ≤ xs.length →
        wire ((xs.take j).map content) <+: r.pipe.bytes → j ≤ k) := by
  induction n generalizing r xs with
  | zero =>
    refine ⟨0, r, rfl, Nat.le_refl _, Nat.zero_le _, Showed.none r, by simp [hopen], ?_⟩
    intro _ j hj _ _
    exact hj
  | succ n ih =>
    have hloop : r.loop net code (n + 1) = (r.turn net code).bind (Receiver.loop net code n) := by
      simp [Receiver.loop, hopen]
    rw [hloop]
    cases xs with
    | nil =>
      have hempty : r.pipe.bytes = [] := List.prefix_nil.mp hfront
      have hnothing : ∃ e, r.pipe.recvFrame net true maxFrameSize = .error e :=
        recvFrame_empty hempty
      obtain ⟨e, he⟩ := hnothing
      have hturn : ∃ reason, r.turn net code =
          some ⟨false, r.pipe, r.calls ++ [.onDisconnected reason],
            r.log ++ [(.error, toDisconnectMessage reason)]⟩ := by
        refine ⟨if e = .socketInvalid then .serverClose else .recvFail, ?_⟩
        unfold Receiver.turn
        rw [hopen, he]
      obtain ⟨reason, hturn⟩ := hturn
      rw [hturn]
      refine ⟨0, _, loop_lost rfl n, Nat.zero_le _, Nat.zero_le _, ?_, by simp, ?_⟩
      · exact Showed.nothing r reason
      · intro _ j _ hj _
        exact hj
    | cons x xs =>
      obtain ⟨hmax, hhandle⟩ := hxs x (List.mem_cons_self ..)
      have hwire : wire ((x :: xs).map content) =
          frameBytes (content x) ++ wire (xs.map content) := by simp [wire]
      rw [hwire] at hfront
      rcases turn_cases hnet hopen hmax hfront hhandle with
        ⟨reason, hturn, hshort⟩ | ⟨pipe, hturn, hbytes⟩
      · rw [hturn]
        refine ⟨0, _, loop_lost rfl n, Nat.zero_le _, Nat.zero_le _, ?_, by simp, ?_⟩
        · exact Showed.nothing r reason
        · intro hsplits j _ _ hj
          cases j with
          | zero => exact Nat.le_refl _
          | succ j =>
            refine absurd (List.IsPrefix.trans ?_ hj) (hshort hsplits)
            exact ⟨wire ((xs.take j).map content), by simp [wire]⟩
      · rw [hturn]
        have hrest : pipe.bytes <+: wire (xs.map content) := by
          rw [hbytes] at hfront
          exact (List.prefix_append_right_inj _).mp hfront
        obtain ⟨k, r', hrun, hkn, hklen, hshowed, hstill, hall⟩ :=
          ih { r with pipe, calls := r.calls ++ told x, log := r.log ++ shown x } xs hopen
            (fun y hy => hxs y (List.mem_cons_of_mem _ hy)) hrest
        refine ⟨k + 1, r', hrun, by omega, by simpa using hklen, ?_, ?_, ?_⟩
        · exact hshowed.cons
        · rw [hstill, Nat.add_right_cancel_iff]
        · intro hsplits j hjn hjlen hj
          cases j with
          | zero => exact Nat.zero_le _
          | succ j =>
            have hnext : wire ((xs.take j).map content) <+: pipe.bytes := by
              have hjoin : wire (((x :: xs).take (j + 1)).map content) =
                  frameBytes (content x) ++ wire ((xs.take j).map content) := by simp [wire]
              rw [hjoin, hbytes] at hj
              exact (List.prefix_append_right_inj _).mp hj
            have hjk := hall hsplits j (by omega) (by simpa using hjlen) hnext
            omega

end

/-! ## What the server has sent -/

/-- A packet that was passed to `PostSend` for a connection, and taken. -/
def acceptedFor (conn : Conn) : Chat.Event → Option ServerPacket
  | .posted c packet true => if c = conn then some packet else none
  | _ => none

def sentTo (conn : Conn) (s : Chat.State) : List ServerPacket := s.log.filterMap (acceptedFor conn)

/-- The packet as the client finds it. -/
def replyOf : ServerPacket → Reply
  | .joinedRoomResponse sequence => ⟨100, .joinedRoomResponse none, sequence⟩
  | .leftRoomResponse sequence => ⟨101, .leftRoomResponse none, sequence⟩
  | .userJoinedBroadcast roomId _ username => ⟨150, .userJoinedBroadcast roomId username, 0⟩
  | .userLeftBroadcast _ username => ⟨151, .userLeftBroadcast username, 0⟩
  | .chatMessageBroadcast senderId username message _ sequence =>
    ⟨152, .chatMessageBroadcast senderId username message, sequence⟩

/-- The client reads what the server has built. -/
structure ReadsBack (code : ReplyCode) (fb : FlatBuffers) (packet : ServerPacket) : Prop where
  filled : fb.build packet ≠ []
  verify : code.verify (fb.build packet) = true
  getPacket : code.getPacket (fb.build packet) = some (replyOf packet)

/-- What a packet of the server looks like on the screen. -/
def screenLine : ServerPacket → Line
  | .joinedRoomResponse _ => (.info, ascii "[JoinedRoom] ok")
  | .leftRoomResponse _ => (.info, ascii "[LeftRoom] ok")
  | .userJoinedBroadcast roomId _ username =>
    (.info, ascii "[UserJoined] user=" ++ cStr username ++ ascii " roomId=" ++ number roomId)
  | .userLeftBroadcast _ username => (.info, ascii "[UserLeft] user=" ++ cStr username)
  | .chatMessageBroadcast senderId username message _ _ =>
    (.info, ascii "[Chat] " ++ number senderId ++ ascii "[" ++ cStr username ++ ascii "]: " ++
      cStr message)

/-- What the metrics are told of it. -/
def recvCalls (fb : FlatBuffers) (packet : ServerPacket) : List RecvCall :=
  [.onRecvCompleted (fb.build packet).length, .onPacketValidationSucceeded,
    .resolveRequest (received packet).sequence (replyOf packet).type]

section
variable {cfg : Chat.Config} {fb : FlatBuffers} {code : ReplyCode} {s t : Chat.State}
  {packet : ServerPacket} {conn : Conn}

theorem onPacketReceived_replyOf (code : ReplyCode) (packet : ServerPacket) :
    onPacketReceived code (replyOf packet) = some [screenLine packet] := by
  cases packet <;> rfl

theorem handlePayload_build (h : ReadsBack code fb packet) :
    handlePayload code (fb.build packet) = some (recvCalls fb packet, [screenLine packet]) := by
  have hsequence : (replyOf packet).sequence = (received packet).sequence := by
    cases packet <;> rfl
  unfold handlePayload
  rw [if_neg h.filled, h.verify, h.getPacket]
  simp only [Bool.not_true, Bool.false_eq_true, if_false, onPacketReceived_replyOf,
    Option.map_some, hsequence, recvCalls]

/-- What is posted fits the send buffer. -/
def PostsFit (fb : FlatBuffers) (s : Chat.State) : Prop :=
  ∀ conn packet accepted, .posted conn packet accepted ∈ s.log →
    Chat.fitsSendBuffer fb packet = true

theorem PostsFit.roomStep {l : Chat.RoomLabel} (h : PostsFit fb s)
    (hs : s.roomStep cfg fb l = some t) : PostsFit fb t := by
  cases l with
  | kickRoom w room =>
    obtain ⟨-, -, rfl⟩ := Chat.roomStep_kickRoom hs
    exact h
  | kicked w =>
    obtain ⟨conn, -, rfl⟩ := Chat.roomStep_kicked hs
    intro c packet accepted hm
    have hm : .posted c packet accepted ∈ s.log ++ [.onDisconnect conn] := hm
    have hold : .posted c packet accepted ∈ s.log := by simpa using hm
    exact h _ _ _ hold
  | server l =>
    obtain ⟨evs, hlog, hevs⟩ := Chat.step_log hs
    intro c packet accepted hm
    rw [hlog, List.mem_append, List.mem_append] at hm
    rcases hm with (hm | hm) | hm
    · exact h _ _ _ hm
    · exact absurd hm (hevs _ _ _)
    · cases l with
      | logic choice =>
        simp only [Chat.State.posting] at hm
        cases hout : s.outgoing choice.now with
        | none => simp [hout] at hm
        | some sent =>
          obtain ⟨sentPacket, users⟩ := sent
          rw [hout] at hm
          obtain ⟨i, user, -, hposts, he⟩ := Chat.mem_postings.mp hm
          cases he
          rw [Chat.State.posts, Bool.and_eq_true] at hposts
          exact hposts.2
      | _ => simp [Chat.State.posting] at hm

theorem postsFit_of_reach {ok : Chat.State → Chat.RoomLabel → Prop}
    (h : (Chat.roomServer cfg fb).Reach ok s) : PostsFit fb s := by
  refine h.invariant (I := PostsFit fb) nofun ?_
  intro s t l _ hi _ hs
  exact hi.roomStep hs

theorem sentTo_length (h : PostsFit fb s) (hp : packet ∈ sentTo conn s) :
    (fb.build packet).length ≤ maxFrameSize := by
  obtain ⟨e, he, hpacket⟩ := List.mem_filterMap.mp hp
  have hposted : ∃ accepted, e = .posted conn packet accepted := by
    unfold acceptedFor at hpacket
    split at hpacket
    · split at hpacket
      · rename_i hconn
        cases hpacket
        exact ⟨true, by rw [hconn]⟩
      · cases hpacket
    · cases hpacket
  obtain ⟨accepted, rfl⟩ := hposted
  have hfits := h _ _ _ he
  simp only [Chat.fitsSendBuffer, decide_eq_true_eq] at hfits
  have hbuffer : sendBufferSize ≤ maxFrameSize := by decide
  omega

/-- The receive loop on what the server has sent. -/
theorem loop_shows_sent {net : Transport} (hnet : net.Within) (hfit : PostsFit fb s)
    (hcode : ∀ packet ∈ sentTo conn s, ReadsBack code fb packet) (r : Receiver)
    (hopen : r.connected = true)
    (hfront : r.pipe.bytes <+: wire ((sentTo conn s).map fb.build)) (n : Nat) :
    ∃ k r', r.loop net code n = some r' ∧ k ≤ n ∧ k ≤ (sentTo conn s).length ∧
      Showed r (((sentTo conn s).take k).flatMap (recvCalls fb))
        (((sentTo conn s).take k).map screenLine) r' ∧
      (r'.connected = true ↔ k = n) ∧
      (net.Splits → ∀ j, j ≤ n → j ≤ (sentTo conn s).length →
        wire (((sentTo conn s).take j).map fb.build) <+: r.pipe.bytes → j ≤ k) := by
  have hloop := loop_shows fb.build (recvCalls fb) (fun packet => [screenLine packet]) hnet n r
    (sentTo conn s) hopen
    (fun packet hp => ⟨sentTo_length hfit hp, handlePayload_build (hcode packet hp)⟩) hfront
  simpa only [← List.map_eq_flatMap] using hloop

end

/-- **What the server sends is what the console shows**, when each send is posted behind the
completion of the one before: a front of it, packet by packet, and then nothing but that the
connection is lost. -/
theorem packets_shown (cfg : Chat.Config) (fb : FlatBuffers) (net : Transport) (hnet : net.Within)
    (code : ReplyCode) (conn : Conn) {s : Chat.State}
    (h : (Chat.roomServer cfg fb).Reach System.always s)
    (hcode : ∀ packet ∈ sentTo conn s, ReadsBack code fb packet) (pipe : Pipe)
    (harrived : ConveysInTurn (((sentTo conn s).map fb.build).map frameBytes) pipe.bytes)
    (n : Nat) :
    ∃ k r, (Receiver.new pipe).loop net code n = some r ∧ k ≤ n ∧ k ≤ (sentTo conn s).length ∧
      Showed (.new pipe) (((sentTo conn s).take k).flatMap (recvCalls fb))
        (((sentTo conn s).take k).map screenLine) r ∧
      (r.connected = true ↔ k = n) ∧
      (net.Splits → ∀ j, j ≤ n → j ≤ (sentTo conn s).length →
        wire (((sentTo conn s).take j).map fb.build) <+: pipe.bytes → j ≤ k) :=
  loop_shows_sent hnet (postsFit_of_reach h) hcode (.new pipe) rfl harrived.front n

/-- The client's code on the packets of the conversation. -/
def conversationReplies : ReplyCode where
  verify p := builtPackets.any fun entry => entry.2 == p
  getPacket p := (builtPackets.find? fun entry => entry.2 == p).map fun entry => replyOf entry.1
  enumNameMessageType _ := []
  enumNameErrorCode _ := []

/-- The lines of the conversation's first client. -/
def hiPackets : List ServerPacket :=
  [.joinedRoomResponse 1, .userJoinedBroadcast 0 1 ann, .chatMessageBroadcast 1 ann hi ⟨0, 0⟩ 2]

theorem hiPackets_readBack :
    ∀ packet ∈ hiPackets, ReadsBack conversationReplies conversation packet := by
  simp only [hiPackets, List.forall_mem_cons]
  refine ⟨⟨?_, ?_, ?_⟩, ⟨?_, ?_, ?_⟩, ⟨?_, ?_, ?_⟩, nofun⟩
  all_goals decide +kernel

/-- The sends of a connection, one after the other. -/
def postsInTurn (sends : List (List UInt8)) : List SendLabel :=
  sends.zipIdx.flatMap fun (data, i) => .postSend data true :: drain i data.length

theorem hiPackets_conveyed :
    ConveysInTurn ((hiPackets.map conversation.build).map frameBytes)
      (wire (hiPackets.map conversation.build)) := by
  obtain ⟨x, hr, hp⟩ := System.reach_of_exec (sendSystem connected) PostsInTurn
    (postsInTurn ((hiPackets.map conversation.build).map frameBytes))
    (fun x => x.sends.map SendOp.data == (hiPackets.map conversation.build).map frameBytes &&
      SendPath.onWire x.sends == wire (hiPackets.map conversation.build)) (by decide +kernel)
  simp only [Bool.and_eq_true, beq_iff_eq] at hp
  exact ⟨connected, x, hr, hp.1, hp.2 ▸ List.prefix_refl _⟩

/-- The second of two clients joins and says `hi`. -/
def saysHi : List Chat.RoomLabel :=
  (Chat.accepts 0 4 ++ Chat.accepts 1 5 ++ Chat.receives 0 ⟨0, 1⟩ (frameBytes joinBytes) 1 ++
    Chat.receives 1 ⟨1, 1⟩ (frameBytes joinBytes) 1 ++ Chat.ticks 12 ++
    Chat.receives 1 ⟨1, 1⟩ (frameBytes chatBytes) 1 ++ Chat.ticks 3).map .server

/-- The first client sees it. -/
theorem packets_shown_hi : ∃ s r,
    (Chat.roomServer Chat.smallServer conversation).Reach System.always s ∧
      sentTo ⟨0, 1⟩ s = hiPackets ∧
      (Receiver.new ⟨wire (hiPackets.map conversation.build), 0, 0⟩).loop byteByByte
        conversationReplies 3 = some r ∧
      r.connected = true ∧ r.log.map Prod.snd = [ascii "[JoinedRoom] ok",
        ascii "[UserJoined] user=ann roomId=0", ascii "[Chat] 1[ann]: hi"] := by
  obtain ⟨s, hr, hs⟩ := System.reach_of_exec (Chat.roomServer Chat.smallServer conversation)
    System.always saysHi (fun s => sentTo ⟨0, 1⟩ s == hiPackets) (by decide +kernel)
  have hsent : sentTo ⟨0, 1⟩ s = hiPackets := beq_iff_eq.mp hs
  obtain ⟨k, r, hrun, hk, -, hshowed, hopen, hall⟩ :=
    packets_shown Chat.smallServer conversation byteByByte byteByByte_splits.within
      conversationReplies ⟨0, 1⟩ hr (hsent ▸ hiPackets_readBack)
      ⟨wire (hiPackets.map conversation.build), 0, 0⟩ (hsent ▸ hiPackets_conveyed) 3
  have hthree : 3 ≤ k := by
    apply hall byteByByte_splits 3 (Nat.le_refl _)
    · rw [hsent]
      decide
    · rw [hsent]
      exact List.prefix_refl _
  have hk3 : k = 3 := Nat.le_antisymm hk hthree
  have hconn : r.connected = true := hopen.mpr hk3
  refine ⟨s, r, hr, hsent, hrun, hconn, ?_⟩
  rw [hsent, hk3] at hshowed
  cases hshowed with
  | still pipe =>
    have hlines : (([] : List Line) ++ (hiPackets.take 3).map screenLine).map Prod.snd =
        [ascii "[JoinedRoom] ok", ascii "[UserJoined] user=ann roomId=0",
          ascii "[Chat] 1[ann]: hi"] := by decide
    exact hlines
  | lost pipe reason => cases hconn

end Highp.Console
