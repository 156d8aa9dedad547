import Highp.Lib.ByteOrder
import Highp.Lib.Framing
import Highp.Network.Client
import Highp.Network.Protocol

/-! `PacketDispatcher::Receive`, the frame assembly on a worker thread, next to the reference
parse of a byte string that it is measured against. -/

namespace Highp.Network
open Highp.Lib

/-- `PacketStream::kHeaderSize`. -/
def kHeaderSize : Nat := 4

/-- A packet on its way to the logic thread. `epoch` is a ghost: together with `client` it
names the connection on which the packet was received. -/
structure PacketCommand where
  client : Slot
  payloadType : PayloadType
  data : List UInt8
  epoch : Nat

def PacketCommand.conn (cmd : PacketCommand) : Conn := ⟨cmd.client, cmd.epoch⟩

/-- `ParsePacket`. -/
def parsePacket (fb : FlatBuffers) (data : List UInt8) : Option Packet :=
  if fb.verify data then fb.getPacket data else none

/-! ## One round of the assembly loop -/

/-- How one round ends. -/
inductive Round
  | incomplete
  | tooLarge
  | invalid (frameSize : Nat)
  | command (payloadType : PayloadType) (payload : List UInt8) (frameSize : Nat)

/-- What one round makes of the accumulated bytes. -/
def inspect (fb : FlatBuffers) (buf : List UInt8) : Round :=
  if buf.length < kHeaderSize then .incomplete
  else
    let payloadLen := byteSwap32 (loadLE32 buf)
    if payloadLen > maxFrameSize then .tooLarge
    else
      let frameSize := kHeaderSize + payloadLen
      if buf.length < frameSize then .incomplete
      else
        let payload := (buf.drop kHeaderSize).take payloadLen
        match parsePacket fb payload with
        | none => .invalid frameSize
        | some packet => .command packet.payload.type payload frameSize

/-- The client that `Receive` works on and the queue it pushes to. -/
structure Inbox where
  client : Client
  queue : List PacketCommand

/-- Run one round; the flag tells whether the loop goes on. The deferred `Consume` takes
effect when the scope is left, with or without a packet. -/
def Inbox.round (fb : FlatBuffers) (conn : Conn) (x : Inbox) : Bool × Inbox :=
  match inspect fb x.client.frameBuf.data with
  | .incomplete => (false, x)
  | .tooLarge => (false, { x with client := x.client.close })
  | .invalid frameSize =>
    (false, { x with client :=
      x.client.close.setFrameBuf (x.client.frameBuf.consume frameSize) })
  | .command payloadType payload frameSize =>
    (true, { client := x.client.setFrameBuf (x.client.frameBuf.consume frameSize)
             queue := x.queue ++ [⟨conn.client, payloadType, payload, conn.epoch⟩] })

/-- The loop of `Receive`, cut off after `fuel` rounds. -/
def Inbox.rounds (fb : FlatBuffers) (conn : Conn) : Nat → Inbox → Option Inbox
  | 0, _ => none
  | fuel + 1, x =>
    match x.round fb conn with
    | (true, y) => y.rounds fb conn fuel
    | (false, y) => some y

/-- `Receive(client, data)` with a bound on the rounds of its loop. -/
def Inbox.receiveWithin (fb : FlatBuffers) (conn : Conn) (fuel : Nat) (x : Inbox)
    (data : List UInt8) : Option Inbox :=
  match x.client.frameBuf.append data with
  | (false, _) => some { x with client := x.client.close }
  | (true, frameBuf) => { x with client := x.client.setFrameBuf frameBuf }.rounds fb conn fuel

/-- `Receive(client, data)`: a full buffer holds fewer frames than bytes. -/
def Inbox.receive (fb : FlatBuffers) (conn : Conn) (x : Inbox) (data : List UInt8) : Inbox :=
  (x.receiveWithin fb conn (maxFrameSize + 1) data).getD x

/-! ## The reference parse -/

/-- One frame on the wire: the length in network order and the payload. -/
def frameBytes (payload : List UInt8) : List UInt8 :=
  storeLE32 (byteSwap32 payload.length) ++ payload

@[simp] theorem length_frameBytes (p : List UInt8) : (frameBytes p).length = 4 + p.length := by
  simp [frameBytes]

def wire (payloads : List (List UInt8)) : List UInt8 := (payloads.map frameBytes).flatten

/-- The verdict on a byte string: a four-byte big-endian length and that many bytes, which
have to verify. -/
def nextFrame (verifies : List UInt8 → Bool) (s : List UInt8) : Next UInt8 (List UInt8) :=
  if s.length < 4 then .more
  else if ofBE32 s > maxFrameSize then .fail s
  else if s.length < 4 + ofBE32 s then .more
  else if verifies ((s.drop 4).take (ofBE32 s)) then
    .emit ((s.drop 4).take (ofBE32 s)) (s.drop (4 + ofBE32 s))
  else .fail (s.drop (4 + ofBE32 s))

section
variable {verifies : List UInt8 → Bool} {s t : List UInt8}

theorem nextFrame_short (h : s.length < 4) : nextFrame verifies s = .more := by
  simp [nextFrame, h]

theorem nextFrame_large (h4 : 4 ≤ s.length) (hn : maxFrameSize < ofBE32 s) :
    nextFrame verifies s = .fail s := by
  rw [nextFrame, if_neg (by omega), if_pos hn]

theorem nextFrame_pending (h4 : 4 ≤ s.length) (hn : ofBE32 s ≤ maxFrameSize)
    (hs : s.length < 4 + ofBE32 s) : nextFrame verifies s = .more := by
  rw [nextFrame, if_neg (by omega), if_neg (by omega), if_pos hs]

/-- A complete frame: its payload decides. -/
theorem nextFrame_full (hn : ofBE32 s ≤ maxFrameSize) (hs : 4 + ofBE32 s ≤ s.length) :
    nextFrame verifies s =
      if verifies ((s.drop 4).take (ofBE32 s)) then
        .emit ((s.drop 4).take (ofBE32 s)) (s.drop (4 + ofBE32 s))
      else .fail (s.drop (4 + ofBE32 s)) := by
  rw [nextFrame, if_neg (by omega), if_neg (by omega), if_neg (by omega)]

/-- The four ways a string can look. -/
theorem frame_cases (s : List UInt8) :
    s.length < 4 ∨ (4 ≤ s.length ∧ maxFrameSize < ofBE32 s) ∨
    (4 ≤ s.length ∧ ofBE32 s ≤ maxFrameSize ∧ s.length < 4 + ofBE32 s) ∨
    (ofBE32 s ≤ maxFrameSize ∧ 4 + ofBE32 s ≤ s.length) := by
  omega

/-- Bytes that follow a complete frame change neither its payload nor where it ends. -/
theorem full_append (t : List UInt8) (hs : 4 + ofBE32 s ≤ s.length) :
    ofBE32 (s ++ t) = ofBE32 s ∧
    ((s ++ t).drop 4).take (ofBE32 s) = (s.drop 4).take (ofBE32 s) ∧
    (s ++ t).drop (4 + ofBE32 s) = s.drop (4 + ofBE32 s) ++ t := by
  refine ⟨ofBE32_append t (by omega), ?_, List.drop_append_of_le_length hs⟩
  rw [List.drop_append_of_le_length (by omega), List.take_append_of_le_length]
  simp only [List.length_drop]
  omega

theorem nextFrame_emit_lt {f r : List UInt8} (h : nextFrame verifies s = .emit f r) :
    r.length < s.length := by
  rcases frame_cases s with hc | ⟨h4, hn⟩ | ⟨h4, hn, hs⟩ | ⟨hn, hs⟩
  · simp [nextFrame_short hc] at h
  · simp [nextFrame_large h4 hn] at h
  · simp [nextFrame_pending h4 hn hs] at h
  · rw [nextFrame_full hn hs] at h
    split at h
    · simp only [Next.emit.injEq] at h
      rw [← h.2, List.length_drop]
      omega
    · simp at h

theorem nextFrame_emit_append {f r : List UInt8} (t : List UInt8)
    (h : nextFrame verifies s = .emit f r) : nextFrame verifies (s ++ t) = .emit f (r ++ t) := by
  rcases frame_cases s with hc | ⟨h4, hn⟩ | ⟨h4, hn, hs⟩ | ⟨hn, hs⟩
  · simp [nextFrame_short hc] at h
  · simp [nextFrame_large h4 hn] at h
  · simp [nextFrame_pending h4 hn hs] at h
  · obtain ⟨ho, hp, hr⟩ := full_append t hs
    rw [nextFrame_full hn hs] at h
    rw [nextFrame_full (ho ▸ hn) (by rw [ho, List.length_append]; omega), ho, hp, hr]
    split at h <;> simp_all

end

def framer (verifies : List UInt8 → Bool) : Framer UInt8 (List UInt8) where
  next := nextFrame verifies
  emit_lt := nextFrame_emit_lt
  emit_append t h := nextFrame_emit_append t h

/-- Whether `ParsePacket` accepts a payload. -/
def parses (fb : FlatBuffers) (payload : List UInt8) : Bool := (parsePacket fb payload).isSome

/-- The reference parse of a byte string. -/
def decode (verifies : List UInt8 → Bool) (s : List UInt8) : Decoded UInt8 (List UInt8) :=
  (framer verifies).decode s

@[simp] theorem decode_nil (verifies : List UInt8 → Bool) :
    decode verifies [] = ⟨[], [], false⟩ :=
  (framer verifies).decode_more (s := []) rfl

section
variable {verifies : List UInt8 → Bool} {s r p : List UInt8}

theorem decode_more (h : nextFrame verifies s = .more) : decode verifies s = ⟨[], s, false⟩ :=
  (framer verifies).decode_more (s := s) h

theorem decode_fail (h : nextFrame verifies s = .fail r) : decode verifies s = ⟨[], r, true⟩ :=
  (framer verifies).decode_fail (s := s) h

theorem decode_emit (h : nextFrame verifies s = .emit p r) :
    decode verifies s = (decode verifies r).after [p] :=
  (framer verifies).decode_emit (s := s) h

theorem decode_append (t : List UInt8) (h : (decode verifies s).failed = false) :
    decode verifies (s ++ t) =
      (decode verifies ((decode verifies s).rest ++ t)).after (decode verifies s).frames :=
  (framer verifies).decode_append t h

end

/-! ## `Receive` against the reference parse -/

section
variable (fb : FlatBuffers) (conn : Conn)

/-- A round says what the reference parse says about the bytes of the buffer. -/
theorem inspect_spec (buf : List UInt8) :
    match inspect fb buf with
    | .incomplete => nextFrame (parses fb) buf = .more
    | .tooLarge => nextFrame (parses fb) buf = .fail buf
    | .invalid n => nextFrame (parses fb) buf = .fail (buf.drop n)
    | .command _ p n => nextFrame (parses fb) buf = .emit p (buf.drop n) := by
  simp only [inspect, byteSwap32_load, kHeaderSize]
  rcases frame_cases buf with hc | ⟨h4, hn⟩ | ⟨h4, hn, hs⟩ | ⟨hn, hs⟩
  · rw [if_pos hc]
    exact nextFrame_short hc
  · rw [if_neg (by omega), if_pos hn]
    exact nextFrame_large h4 hn
  · rw [if_neg (by omega), if_neg (by omega), if_pos hs]
    exact nextFrame_pending h4 hn hs
  · rw [if_neg (by omega), if_neg (by omega), if_neg (by omega)]
    have hf := @nextFrame_full (parses fb) buf hn hs
    cases hp : parsePacket fb ((buf.drop 4).take (ofBE32 buf)) with
    | none => simpa [parses, hp] using hf
    | some packet => simpa [parses, hp] using hf

/-- One round, by the verdict of the reference parse on the buffer. -/
theorem round_spec (x : Inbox) :
    match nextFrame (parses fb) x.client.frameBuf.data with
    | .more => x.round fb conn = (false, x)
    | .fail r => ∃ y, x.round fb conn = (false, y) ∧ y.queue = x.queue ∧
        y.client.socket = none ∧ y.client.frameBuf.data = r
    | .emit p r => ∃ type y, x.round fb conn = (true, y) ∧
        y.queue = x.queue ++ [⟨conn.client, type, p, conn.epoch⟩] ∧
        y.client.socket = x.client.socket ∧ y.client.frameBuf.data = r := by
  have hi := inspect_spec fb x.client.frameBuf.data
  unfold Inbox.round
  cases h : inspect fb x.client.frameBuf.data with
  | incomplete => simp [h] at hi; simp [hi]
  | tooLarge => simp [h] at hi; simp [hi]
  | invalid n => simp [h] at hi; simp [hi]
  | command type p n => simp [h] at hi; simp [hi]

/-- What a call of `Receive` pushes for the payloads `ps`, up to the recorded types. -/
def Pushes (conn : Conn) (old new : List PacketCommand) (ps : List (List UInt8)) : Prop :=
  ∃ cmds, new = old ++ cmds ∧ cmds.map PacketCommand.data = ps ∧
    ∀ cmd ∈ cmds, cmd.conn = conn

theorem Pushes.cons {conn : Conn} {old new : List PacketCommand} {cmd : PacketCommand}
    {ps : List (List UInt8)} (hc : cmd.conn = conn) (h : Pushes conn (old ++ [cmd]) new ps) :
    Pushes conn old new (cmd.data :: ps) := by
  obtain ⟨cmds, rfl, rfl, hall⟩ := h
  exact ⟨cmd :: cmds, by simp, by simp, by simpa [hc] using hall⟩

theorem Pushes.trans {conn : Conn} {old mid new : List PacketCommand} {ps qs : List (List UInt8)}
    (h : Pushes conn old mid ps) (h' : Pushes conn mid new qs) :
    Pushes conn old new (ps ++ qs) := by
  obtain ⟨cs, rfl, rfl, hc⟩ := h
  obtain ⟨ds, rfl, rfl, hd⟩ := h'
  refine ⟨cs ++ ds, by simp, by simp, ?_⟩
  intro cmd hm
  rcases List.mem_append.mp hm with hm | hm
  · exact hc cmd hm
  · exact hd cmd hm

/-- The loop ends once its bound exceeds the bytes in the buffer; it has pushed the frames
of the buffer, keeps the undecoded rest, and has closed the client exactly on a failure. -/
theorem rounds_spec (fuel : Nat) (x : Inbox) (h : x.client.frameBuf.data.length < fuel) :
    ∃ y, x.rounds fb conn fuel = some y ∧
      Pushes conn x.queue y.queue (decode (parses fb) x.client.frameBuf.data).frames ∧
      y.client.frameBuf.data = (decode (parses fb) x.client.frameBuf.data).rest ∧
      y.client.socket = (if (decode (parses fb) x.client.frameBuf.data).failed then none
        else x.client.socket) := by
  induction fuel generalizing x with
  | zero => omega
  | succ fuel ih =>
    have hr := round_spec fb conn x
    unfold Inbox.rounds
    cases hn : nextFrame (parses fb) x.client.frameBuf.data with
    | more =>
      simp only [hn] at hr
      rw [hr, decode_more hn]
      exact ⟨x, rfl, ⟨[], by simp⟩, rfl, rfl⟩
    | fail r =>
      simp only [hn] at hr
      obtain ⟨y, hy, hq, hs, hf⟩ := hr
      rw [hy, decode_fail hn]
      exact ⟨y, rfl, ⟨[], by simp [hq]⟩, hf, hs⟩
    | emit p r =>
      simp only [hn] at hr
      obtain ⟨type, y, hy, hq, hs, hf⟩ := hr
      have hlt := nextFrame_emit_lt hn
      obtain ⟨z, hz, hp, hd, hc⟩ := ih y (by rw [hf]; omega)
      rw [hy, decode_emit hn]
      rw [hf] at hp hd hc
      rw [hq] at hp
      exact ⟨z, hz, hp.cons rfl, hd, by rw [hc, hs]; rfl⟩

/-- **Specification of `Receive`.** For every sufficient bound the call ends, with the same
result: an overflowing chunk closes the client and leaves the buffer alone; otherwise the
buffer and the chunk are decoded together. -/
theorem receiveWithin_spec (fuel : Nat) (x : Inbox) (data : List UInt8)
    (hfuel : maxFrameSize < fuel) :
    ∃ y, x.receiveWithin fb conn fuel data = some y ∧
      if maxFrameSize < x.client.frameBuf.len + data.length then
        y = { x with client := x.client.close }
      else
        Pushes conn x.queue y.queue
            (decode (parses fb) (x.client.frameBuf.data ++ data)).frames ∧
          y.client.frameBuf.data = (decode (parses fb) (x.client.frameBuf.data ++ data)).rest ∧
          y.client.socket = (if (decode (parses fb) (x.client.frameBuf.data ++ data)).failed
            then none else x.client.socket) := by
  by_cases ho : maxFrameSize < x.client.frameBuf.len + data.length
  · rw [Inbox.receiveWithin, FrameBuffer.append_overflow ho]
    exact ⟨_, rfl, by rw [if_pos ho]⟩
  · obtain ⟨hok, hd⟩ := FrameBuffer.append_ok (Nat.not_lt.mp ho)
    cases ha : x.client.frameBuf.append data with
    | mk ok frameBuf =>
      rw [ha] at hok hd
      simp only at hok hd
      subst hok
      have hlen : frameBuf.data.length < fuel := by
        rw [FrameBuffer.length_data]
        exact Nat.lt_of_le_of_lt frameBuf.len_le hfuel
      obtain ⟨y, hy, h⟩ := rounds_spec fb conn fuel
        { x with client := x.client.setFrameBuf frameBuf } hlen
      rw [Inbox.receiveWithin, ha]
      refine ⟨y, hy, ?_⟩
      rw [if_neg ho, ← hd]
      exact h

theorem rounds_mono {fuel fuel' : Nat} {x y : Inbox} (h : x.rounds fb conn fuel = some y)
    (hle : fuel ≤ fuel') : x.rounds fb conn fuel' = some y := by
  induction fuel generalizing fuel' x with
  | zero => simp [Inbox.rounds] at h
  | succ fuel ih =>
    obtain ⟨k, rfl⟩ : ∃ k, fuel' = k + 1 := ⟨fuel' - 1, by omega⟩
    rw [Inbox.rounds] at h ⊢
    cases hr : x.round fb conn with
    | mk go z =>
      rw [hr] at h
      cases go with
      | true => exact ih h (by omega)
      | false => exact h

/-- `Receive` returns: every bound that exceeds the capacity of the buffer gives its result. -/
theorem receiveWithin_eq (x : Inbox) (data : List UInt8) {fuel : Nat}
    (hfuel : maxFrameSize < fuel) :
    x.receiveWithin fb conn fuel data = some (x.receive fb conn data) := by
  obtain ⟨y, hy, -⟩ := receiveWithin_spec fb conn (maxFrameSize + 1) x data (Nat.lt_succ_self _)
  have hr : x.receive fb conn data = y := by rw [Inbox.receive, hy]; rfl
  rw [hr]
  unfold Inbox.receiveWithin at hy ⊢
  cases ha : x.client.frameBuf.append data with
  | mk ok frameBuf =>
    rw [ha] at hy
    cases ok with
    | false => exact hy
    | true => exact rounds_mono fb conn hy hfuel

theorem receive_overflow {x : Inbox} {data : List UInt8}
    (h : maxFrameSize < x.client.frameBuf.len + data.length) :
    x.receive fb conn data = { x with client := x.client.close } := by
  obtain ⟨y, hy, hs⟩ := receiveWithin_spec fb conn (maxFrameSize + 1) x data (Nat.lt_succ_self _)
  rw [Inbox.receive, hy]
  simpa [if_pos h] using hs

theorem receive_fits {x : Inbox} {data : List UInt8}
    (h : x.client.frameBuf.len + data.length ≤ maxFrameSize) :
    Pushes conn x.queue (x.receive fb conn data).queue
        (decode (parses fb) (x.client.frameBuf.data ++ data)).frames ∧
      (x.receive fb conn data).client.frameBuf.data =
        (decode (parses fb) (x.client.frameBuf.data ++ data)).rest ∧
      (x.receive fb conn data).client.socket =
        (if (decode (parses fb) (x.client.frameBuf.data ++ data)).failed then none
          else x.client.socket) := by
  obtain ⟨y, hy, hs⟩ := receiveWithin_spec fb conn (maxFrameSize + 1) x data (Nat.lt_succ_self _)
  rw [Inbox.receive, hy]
  rw [if_neg (by omega)] at hs
  exact hs

end
end Highp.Network
