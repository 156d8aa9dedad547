import Highp.Network.FrameBuffer

/-! `Client`: one slot of the pool, reused by one connection after the other. -/

namespace Highp.Network
open Highp.Lib

abbrev SocketHandle := Nat

/-- The address of a `Client` object, its place in `_clientPool`. -/
abbrev Slot := Nat

/-- A connection: the `epoch`-th accepted socket that `SetupClient` put into a slot. The
program has no such name; it only ever sees the slot. -/
structure Conn where
  client : Slot
  epoch : Nat
  deriving DecidableEq

/-- `sendOverlapped`: the one buffer of all sends and the length in its descriptor. -/
structure SendOverlapped where
  buf : Block sendBufferSize UInt8
  len : Nat

structure Client where
  /-- `none` is `INVALID_SOCKET`. -/
  socket : Option SocketHandle
  sendOverlapped : SendOverlapped
  frameBuf : FrameBuffer
  connectionEstablished : Bool
  connectionEventCounted : Bool

namespace Client

def new : Client := ⟨none, ⟨fun _ => 0, 0⟩, .empty, false, false⟩

def isConnected (c : Client) : Bool := c.socket.isSome

/-- `MarkConnectionEstablished`, with whether it fires `onConnected`. -/
def markConnectionEstablished (c : Client) : Bool × Client :=
  (!c.connectionEventCounted,
    { c with connectionEstablished := true, connectionEventCounted := true })

/-- Whether `EmitDisconnectedEvent` fires `onDisconnected`; both flags are cleared anyway. -/
def emitsDisconnected (c : Client) : Bool := c.connectionEstablished && c.connectionEventCounted

def emitDisconnectedEvent (c : Client) : Client :=
  { c with connectionEstablished := false, connectionEventCounted := false }

/-- The last line of `Close`. -/
def resetSocket (c : Client) : Client := { c with socket := none }

/-- `Close`. The frame buffer and the overlapped structures are left as they are. -/
def close (c : Client) : Client := c.emitDisconnectedEvent.resetSocket

def setFrameBuf (c : Client) (frameBuf : FrameBuffer) : Client := { c with frameBuf }

/-- The part of `PostSend` in front of `WSASend`: the data is copied over whatever the send
buffer holds. The length goes through a cast to `ULONG`. -/
def fillSend (c : Client) (data : List UInt8) : Client :=
  let len := data.length % 2 ^ 32
  { c with sendOverlapped := ⟨c.sendOverlapped.buf.copyIn 0 (data.take len), len⟩ }

@[simp] theorem emitDisconnectedEvent_socket (c : Client) :
    c.emitDisconnectedEvent.socket = c.socket := rfl
@[simp] theorem emitDisconnectedEvent_frameBuf (c : Client) :
    c.emitDisconnectedEvent.frameBuf = c.frameBuf := rfl
@[simp] theorem resetSocket_socket (c : Client) : c.resetSocket.socket = none := rfl
@[simp] theorem resetSocket_frameBuf (c : Client) : c.resetSocket.frameBuf = c.frameBuf := rfl
@[simp] theorem close_socket (c : Client) : c.close.socket = none := rfl
@[simp] theorem close_frameBuf (c : Client) : c.close.frameBuf = c.frameBuf := rfl
@[simp] theorem setFrameBuf_socket (c : Client) (f : FrameBuffer) :
    (c.setFrameBuf f).socket = c.socket := rfl
@[simp] theorem setFrameBuf_frameBuf (c : Client) (f : FrameBuffer) :
    (c.setFrameBuf f).frameBuf = f := rfl
@[simp] theorem fillSend_socket (c : Client) (d : List UInt8) :
    (c.fillSend d).socket = c.socket := rfl
@[simp] theorem fillSend_frameBuf (c : Client) (d : List UInt8) :
    (c.fillSend d).frameBuf = c.frameBuf := rfl
@[simp] theorem markConnectionEstablished_socket (c : Client) :
    c.markConnectionEstablished.2.socket = c.socket := rfl

end Client
end Highp.Network
