import Highp.Network.Protocol

/-! The chat client: which answer it waits for after a request. -/

namespace Highp.Client
open Highp.Network

inductive MessageType
  | none
  | csJoinRoom
  | csLeaveRoom
  | csSendMessage
  | scJoinedRoom
  | scLeftRoom
  | bUserJoined
  | bUserLeft
  | bChatMessage
  | scError
  deriving DecidableEq

/-- `Client::RequestTracking`. -/
structure RequestTracking where
  sequence : Nat
  responseType : MessageType
  deriving DecidableEq

/-- What `sendJoinRoom`, `sendLeave` and `sendMessage` register. -/
def sendJoinRoom (sequence : Nat) : RequestTracking := ⟨sequence, .scJoinedRoom⟩
def sendLeave (sequence : Nat) : RequestTracking := ⟨sequence, .scLeftRoom⟩
def sendMessage (sequence : Nat) : RequestTracking := ⟨sequence, .bChatMessage⟩

/-- What the client reads of a packet of the server: `sequence()` and `type()`, as
`PacketFactory.h` sets them. -/
def received : ServerPacket → RequestTracking
  | .joinedRoomResponse sequence => ⟨sequence, .scJoinedRoom⟩
  | .leftRoomResponse sequence => ⟨sequence, .scLeftRoom⟩
  | .userJoinedBroadcast _ _ _ => ⟨0, .bUserJoined⟩
  | .userLeftBroadcast _ _ => ⟨0, .bUserLeft⟩
  | .chatMessageBroadcast _ _ _ _ sequence => ⟨sequence, .bChatMessage⟩

end Highp.Client
