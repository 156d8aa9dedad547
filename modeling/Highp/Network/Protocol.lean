import Mathlib.Data.List.Basic

/-! What the schemas declare and what the server uses of the FlatBuffers code generated from
them. The generated code is a parameter: a verifier, an accessor for the root table, and a
builder for the messages the server sends. -/

namespace Highp.Network

/-- The bytes of a FlatBuffers string. -/
abbrev Text := List UInt8

structure JoinRoomRequest where
  username : Text

structure LeaveRoomRequest where
  roomId : Nat

structure SendMessageRequest where
  roomId : Nat
  username : Text
  message : Text

inductive PayloadType
  | none
  | joinRoomRequest
  | leaveRoomRequest
  | sendMessageRequest
  | joinedRoomResponse
  | leftRoomResponse
  | userJoinedBroadcast
  | userLeftBroadcast
  | chatMessageBroadcast
  | errorResponse
  deriving DecidableEq

/-- The union of `packet.fbs`, with the tables that the server reads. A union may carry its
type and still have no value, which `payload_as` reports as a null pointer. -/
inductive Payload
  | joinRoomRequest (table : Option JoinRoomRequest)
  | leaveRoomRequest (table : Option LeaveRoomRequest)
  | sendMessageRequest (table : Option SendMessageRequest)
  | other (type : PayloadType)

def Payload.type : Payload → PayloadType
  | .joinRoomRequest _ => .joinRoomRequest
  | .leaveRoomRequest _ => .leaveRoomRequest
  | .sendMessageRequest _ => .sendMessageRequest
  | .other type => type

structure Packet where
  payload : Payload
  sequence : Nat

structure Timestamp where
  seconds : Nat
  nanos : Nat
  deriving DecidableEq

/-- The messages of `PacketFactory.h` that the server builds. -/
inductive ServerPacket
  | joinedRoomResponse (sequence : Nat)
  | leftRoomResponse (sequence : Nat)
  | userJoinedBroadcast (roomId userId : Nat) (username : Text)
  | userLeftBroadcast (userId : Nat) (username : Text)
  | chatMessageBroadcast (senderId : Nat) (username message : Text) (timestamp : Timestamp)
      (sequence : Nat)
  deriving DecidableEq

/-- The client-chosen strings in a packet. -/
def ServerPacket.strings : ServerPacket → Text
  | .joinedRoomResponse _ => []
  | .leftRoomResponse _ => []
  | .userJoinedBroadcast _ _ username => username
  | .userLeftBroadcast _ username => username
  | .chatMessageBroadcast _ username message _ _ => username ++ message

structure FlatBuffers where
  /-- `VerifyPacketBuffer`. -/
  verify : List UInt8 → Bool
  /-- `GetPacket`, where `none` is the null pointer. -/
  getPacket : List UInt8 → Option Packet
  /-- The finished buffer of a `FlatBufferBuilder`. -/
  build : ServerPacket → List UInt8

/-! ## Packets of one client

Finished buffers as the builder lays them out: root offset, identifier `CHAT`, tables. -/

def ann : Text := [97, 110, 110]

/-- A `JoinRoomRequest` of `ann`, sequence 1. -/
def joinBytes : List UInt8 :=
  [20, 0, 0, 0, 67, 72, 65, 84, 12, 0, 18, 0, 6, 0, 5, 0, 8, 0, 12, 0, 12, 0, 0, 0, 0, 1, 1, 0,
   16, 0, 0, 0, 1, 0, 0, 0, 0, 0, 6, 0, 8, 0, 4, 0, 6, 0, 0, 0, 4, 0, 0, 0, 3, 0, 0, 0, 97, 110,
   110, 0]

/-- A `LeaveRoomRequest`, sequence 2. -/
def leaveBytes : List UInt8 :=
  [20, 0, 0, 0, 67, 72, 65, 84, 12, 0, 16, 0, 6, 0, 5, 0, 8, 0, 12, 0, 12, 0, 0, 0, 0, 2, 2, 0,
   12, 0, 0, 0, 2, 0, 0, 0, 4, 0, 4, 0, 4, 0, 0, 0]

/-- A `JoinedRoomResponse`, sequence 1: what the server answers, and what it has no handler
for when a client sends it. -/
def joinedBytes : List UInt8 :=
  [20, 0, 0, 0, 67, 72, 65, 84, 12, 0, 16, 0, 6, 0, 5, 0, 8, 0, 12, 0, 12, 0, 0, 0, 0, 4, 100,
   0, 12, 0, 0, 0, 1, 0, 0, 0, 4, 0, 4, 0, 4, 0, 0, 0]

/-- A `LeftRoomResponse`, sequence 2. -/
def leftBytes : List UInt8 :=
  [20, 0, 0, 0, 67, 72, 65, 84, 12, 0, 16, 0, 6, 0, 5, 0, 8, 0, 12, 0, 12, 0, 0, 0, 0, 5, 101,
   0, 12, 0, 0, 0, 2, 0, 0, 0, 4, 0, 4, 0, 4, 0, 0, 0]

def longChatLetters : Nat := 65460

/-- A `SendMessageRequest` of `ann`, sequence 3, up to its message, which repeats the letter
`a`. -/
def longChatHead : List UInt8 :=
  [20, 0, 0, 0, 67, 72, 65, 84, 12, 0, 18, 0, 6, 0, 5, 0, 8, 0, 12, 0, 12, 0, 0, 0, 0, 3, 3, 0,
   20, 0, 0, 0, 3, 0, 0, 0, 0, 0, 10, 0, 12, 0, 0, 0, 4, 0, 8, 0, 10, 0, 0, 0, 196, 255, 0, 0,
   4, 0, 0, 0, 180, 255, 0, 0]

def longChatTail : List UInt8 := [0, 0, 0, 0, 3, 0, 0, 0, 97, 110, 110, 0]

/-- The whole request, 65536 bytes. -/
def longChatBytes : List UInt8 :=
  longChatHead ++ (List.replicate longChatLetters 97 ++ longChatTail)

/-- The generated code on these packets; nothing else verifies. -/
def sample : FlatBuffers where
  verify p :=
    p == joinBytes || p == leaveBytes || p == joinedBytes || p == leftBytes || p == longChatBytes
  getPacket p :=
    if p == joinBytes then some ⟨.joinRoomRequest (some ⟨ann⟩), 1⟩
    else if p == leaveBytes then some ⟨.leaveRoomRequest (some ⟨0⟩), 2⟩
    else if p == joinedBytes then some ⟨.other .joinedRoomResponse, 1⟩
    else if p == leftBytes then some ⟨.other .leftRoomResponse, 2⟩
    else if p == longChatBytes then
      some ⟨.sendMessageRequest (some ⟨0, ann, List.replicate longChatLetters 97⟩), 3⟩
    else none
  build
    | .joinedRoomResponse 1 => joinedBytes
    | .leftRoomResponse 2 => leftBytes
    | _ => []

/-! ## A conversation -/

def hi : Text := [104, 105]

/-- A `SendMessageRequest` of `ann`, sequence 2: `hi`. -/
def chatBytes : List UInt8 :=
  [20, 0, 0, 0, 67, 72, 65, 84, 12, 0, 18, 0, 6, 0, 5, 0, 8, 0, 12, 0, 12, 0, 0, 0, 0, 3, 3, 0,
   20, 0, 0, 0, 2, 0, 0, 0, 0, 0, 10, 0, 12, 0, 0, 0, 4, 0, 8, 0, 10, 0, 0, 0, 16, 0, 0, 0, 4, 0,
   0, 0, 2, 0, 0, 0, 104, 105, 0, 0, 3, 0, 0, 0, 97, 110, 110, 0]

/-- A message that fits a frame and not the send buffer. -/
def letter : Text := List.replicate 1100 97

/-- A `SendMessageRequest` of `ann`, sequence 2, with the letter. -/
def letterBytes : List UInt8 :=
  [20, 0, 0, 0, 67, 72, 65, 84, 12, 0, 18, 0, 6, 0, 5, 0, 8, 0, 12, 0, 12, 0, 0, 0, 0, 3, 3, 0,
   20, 0, 0, 0, 2, 0, 0, 0, 0, 0, 10, 0, 12, 0, 0, 0, 4, 0, 8, 0, 10, 0, 0, 0, 92, 4, 0, 0, 4, 0,
   0, 0, 76, 4, 0, 0] ++ (letter ++ [0, 0, 0, 0, 3, 0, 0, 0, 97, 110, 110, 0])

/-- A `UserJoinedBroadcast`: user 1, `ann`, enters room 0. -/
def userJoinedBytes : List UInt8 :=
  [20, 0, 0, 0, 67, 72, 65, 84, 0, 0, 10, 0, 12, 0, 6, 0, 5, 0, 8, 0, 10, 0, 0, 0, 0, 6, 150, 0,
   12, 0, 0, 0, 8, 0, 8, 0, 0, 0, 4, 0, 8, 0, 0, 0, 12, 0, 0, 0, 8, 0, 12, 0, 4, 0, 8, 0, 8, 0, 0,
   0, 1, 0, 0, 0, 4, 0, 0, 0, 3, 0, 0, 0, 97, 110, 110, 0]

def userLeftBytes : List UInt8 :=
  [20, 0, 0, 0, 67, 72, 65, 84, 0, 0, 10, 0, 12, 0, 6, 0, 5, 0, 8, 0, 10, 0, 0, 0, 0, 7, 151, 0,
   12, 0, 0, 0, 8, 0, 12, 0, 4, 0, 8, 0, 8, 0, 0, 0, 1, 0, 0, 0, 4, 0, 0, 0, 3, 0, 0, 0, 97, 110,
   110, 0]

/-- The `ChatMessageBroadcast` of user 1 that goes out for `chatBytes`. -/
def chatBroadcastBytes : List UInt8 :=
  [20, 0, 0, 0, 67, 72, 65, 84, 12, 0, 16, 0, 6, 0, 5, 0, 8, 0, 12, 0, 12, 0, 0, 0, 0, 8, 152, 0,
   20, 0, 0, 0, 2, 0, 0, 0, 12, 0, 32, 0, 4, 0, 8, 0, 12, 0, 16, 0, 12, 0, 0, 0, 1, 0, 0, 0, 32,
   0, 0, 0, 20, 0, 0, 0, 0, 0, 0, 0, 0, 0, 0, 0, 0, 0, 0, 0, 0, 0, 0, 0, 2, 0, 0, 0, 104, 105, 0,
   0, 3, 0, 0, 0, 97, 110, 110, 0]

def letterBroadcastBytes : List UInt8 :=
  [20, 0, 0, 0, 67, 72, 65, 84, 12, 0, 16, 0, 6, 0, 5, 0, 8, 0, 12, 0, 12, 0, 0, 0, 0, 8, 152, 0,
   20, 0, 0, 0, 2, 0, 0, 0, 12, 0, 36, 0, 4, 0, 8, 0, 12, 0, 16, 0, 12, 0, 0, 0, 1, 0, 0, 0, 112,
   4, 0, 0, 24, 0, 0, 0, 0, 0, 0, 0, 0, 0, 0, 0, 0, 0, 0, 0, 0, 0, 0, 0, 0, 0, 0, 0, 76, 4, 0, 0]
    ++ (letter ++ [0, 0, 0, 0, 3, 0, 0, 0, 97, 110, 110, 0])

/-- What the builder makes of the server's packets in this conversation. -/
def builtPackets : List (ServerPacket × List UInt8) :=
  [(.joinedRoomResponse 1, joinedBytes), (.leftRoomResponse 2, leftBytes),
   (.userJoinedBroadcast 0 1 ann, userJoinedBytes), (.userLeftBroadcast 1 ann, userLeftBytes),
   (.chatMessageBroadcast 1 ann hi ⟨0, 0⟩ 2, chatBroadcastBytes),
   (.chatMessageBroadcast 1 ann letter ⟨0, 0⟩ 2, letterBroadcastBytes)]

/-- The generated code on the packets of two clients that both call themselves `ann`; nothing
else verifies. -/
def conversation : FlatBuffers where
  verify p := p == joinBytes || p == leaveBytes || p == chatBytes || p == letterBytes
  getPacket p :=
    if p == joinBytes then some ⟨.joinRoomRequest (some ⟨ann⟩), 1⟩
    else if p == leaveBytes then some ⟨.leaveRoomRequest (some ⟨0⟩), 2⟩
    else if p == chatBytes then some ⟨.sendMessageRequest (some ⟨0, ann, hi⟩), 2⟩
    else if p == letterBytes then some ⟨.sendMessageRequest (some ⟨0, ann, letter⟩), 2⟩
    else none
  build packet :=
    match builtPackets.find? fun entry => entry.1 == packet with
    | some (_, bytes) => bytes
    | none => packet.strings

end Highp.Network
