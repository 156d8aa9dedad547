import Highp.Chat.Posts
import Highp.Network.LegalStream

/-! `PacketStream` over a TCP socket: both directions loop over partial transfers. The frames that
`Session::Send` hands to `PostSend` are laid out by code of their own. -/

namespace Highp.Client
open Highp.Lib Highp.Network

inductive ENetworkError
  | wsaInvalidArgs
  | wsaNoBufferSpace
  | wsaSendFailed
  | wsaRecvFailed
  | socketInvalid
  deriving DecidableEq

def INT_MAX : Nat := 2 ^ 31 - 1

def WSAEINTR : Nat := 10004
def WSAENOTSOCK : Nat := 10038
def WSAESHUTDOWN : Nat := 10058

/-- The answer of a system call: a number of bytes, or `SocketError` with `WSAGetLastError`. -/
inductive Answer
  | bytes (n : Nat)
  | socketError (wsaError : Nat)

/-- How the calls of `send` and `recv` end, by their place in the run and the number of bytes
they can take: what is offered to `send`, and for `recv` what is asked for as far as it is there. -/
structure Transport where
  send : Nat → Nat → Answer
  recv : Nat → Nat → Answer

/-- Every call moves a non-empty part of what it can. -/
structure Transport.Splits (net : Transport) : Prop where
  send : ∀ i n, 0 < n → ∃ k, net.send i n = .bytes k ∧ 0 < k ∧ k ≤ n
  recv : ∀ i n, 0 < n → ∃ k, net.recv i n = .bytes k ∧ 0 < k ∧ k ≤ n

/-- One direction of a connection: the bytes that were sent and not received, and how many calls
there have been. A receiver that runs while the sender is still writing finds fewer bytes there,
which `recv` answers as if it had taken a smaller part. -/
structure Pipe where
  bytes : List UInt8
  sends : Nat
  recvs : Nat

/-! ## `TcpClientSocket` -/

/-- The loop of `SendAll`, with the data it has still to send. -/
def Pipe.sendLoop (net : Transport) (p : Pipe) (data : List UInt8) : Except ENetworkError Pipe :=
  if data = [] then .ok p
  else
    match net.send p.sends (min data.length INT_MAX) with
    | .socketError _ => .error .wsaSendFailed
    | .bytes 0 => .error .wsaSendFailed
    | .bytes (sent + 1) =>
      ({ p with bytes := p.bytes ++ data.take (sent + 1), sends := p.sends + 1 } : Pipe).sendLoop
        net (data.drop (sent + 1))
termination_by data.length
decreasing_by
  have hpos := List.length_pos_iff.mpr ‹data ≠ []›
  simp only [List.length_drop]
  omega

/-- `SendAll`. -/
def Pipe.sendAll (net : Transport) (connected : Bool) (p : Pipe) (data : List UInt8) :
    Except ENetworkError Pipe :=
  if !connected then .error .socketInvalid else p.sendLoop net data

/-- `RecvSome`: what it writes to the front of a buffer of `size` bytes. Nothing is there when the
peer has closed. -/
def Pipe.recvSome (net : Transport) (connected : Bool) (p : Pipe) (size : Nat) :
    Except ENetworkError (List UInt8 × Pipe) :=
  if !connected then .error .socketInvalid
  else if size = 0 then .ok ([], p)
  else
    match net.recv p.recvs (min size p.bytes.length) with
    | .socketError wsaError =>
      if wsaError = WSAEINTR ∨ wsaError = WSAENOTSOCK ∨ wsaError = WSAESHUTDOWN then
        .error .socketInvalid
      else .error .wsaRecvFailed
    | .bytes n => .ok (p.bytes.take n, { p with bytes := p.bytes.drop n, recvs := p.recvs + 1 })

/-! ## `PacketStream` -/

/-- The frame that `SendFrame` builds. The payload is copied behind the header unless the length
is zero. -/
def sendFrameBytes (payload : List UInt8) : List UInt8 :=
  let payloadSize := byteSwap32 (payload.length % 2 ^ 32)
  storeLE32 payloadSize ++
    if payloadSize > 0 then payload else List.replicate payload.length 0

/-- `SendFrame`. -/
def Pipe.sendFrame (net : Transport) (connected : Bool) (p : Pipe) (payload : List UInt8) :
    Except ENetworkError Pipe :=
  p.sendAll net connected (sendFrameBytes payload)

/-- The loop of `RecvExact`, with what it has received. -/
def Pipe.recvLoop (net : Transport) (connected : Bool) (p : Pipe) (size : Nat)
    (received : List UInt8) : Except ENetworkError (List UInt8 × Pipe) :=
  if received.length < size then
    match p.recvSome net connected (size - received.length) with
    | .error e => .error e
    | .ok ([], _) => .error .socketInvalid
    | .ok (byte :: chunk, q) => q.recvLoop net connected size (received ++ byte :: chunk)
  else .ok (received, p)
termination_by size - received.length
decreasing_by
  simp only [List.length_append, List.length_cons]
  omega

/-- `RecvExact`. -/
def Pipe.recvExact (net : Transport) (connected : Bool) (p : Pipe) (size : Nat) :
    Except ENetworkError (List UInt8 × Pipe) :=
  p.recvLoop net connected size []

/-- `RecvFrame`: the size it returns and `outPayload`. -/
def Pipe.recvFrame (net : Transport) (connected : Bool) (limit : Nat) (p : Pipe) :
    Except ENetworkError ((Nat × List UInt8) × Pipe) :=
  if limit = 0 then .error .wsaInvalidArgs
  else if limit > maxFrameSize then .error .wsaInvalidArgs
  else
    match p.recvExact net connected kHeaderSize with
    | .error e => .error e
    | .ok (header, q) =>
      let payloadSize := byteSwap32 (loadLE32 header)
      if payloadSize > limit then .error .wsaNoBufferSpace
      else if payloadSize = 0 then .ok ((0, []), q)
      else
        match q.recvExact net connected payloadSize with
        | .error e => .error e
        | .ok (payload, r) => .ok ((payloadSize, payload), r)

/-- So many calls of `RecvFrame`. -/
def Pipe.recvFrames (net : Transport) (connected : Bool) (limit : Nat) :
    Nat → Pipe → Except ENetworkError (List (Nat × List UInt8) × Pipe)
  | 0, p => .ok ([], p)
  | n + 1, p =>
    match p.recvFrame net connected limit with
    | .error e => .error e
    | .ok (frame, q) =>
      match q.recvFrames net connected limit n with
      | .error e => .error e
      | .ok (frames, r) => .ok (frame :: frames, r)

/-! ## `Session::Send` -/

/-- The frame that `Session::Send` passes to `PostSend`, if it comes so far. -/
def sessionFrame (payload : List UInt8) : Option (List UInt8) :=
  if payload.length > 2 ^ 32 - 1 then none
  else if 4 + payload.length > sendBufferSize then none
  else some (storeLE32 (byteSwap32 (payload.length % 2 ^ 32)) ++ payload)

/-- The server of the chat model sends these frames. -/
theorem send_eq_sessionFrame (fb : FlatBuffers) (s : Chat.State) (session : Chat.Session)
    (packet : ServerPacket) (accepted : Bool)
    (hopen : (s.pool session.tcpClient).isConnected = true) :
    s.send fb session packet accepted =
      match sessionFrame (fb.build packet) with
      | some frame => s.postSend session.tcpClient frame packet accepted
      | none => s := by
  unfold Chat.State.send sessionFrame
  rw [hopen]
  by_cases hlarge : (fb.build packet).length > 2 ^ 32 - 1
  · simp only [Bool.not_true, Bool.false_eq_true, if_false, if_pos hlarge]
  · by_cases hfits : 4 + (fb.build packet).length > sendBufferSize
    · simp only [Bool.not_true, Bool.false_eq_true, if_false, if_neg hlarge, if_pos hfits]
    · have hmod : (fb.build packet).length % 2 ^ 32 = (fb.build packet).length :=
        Nat.mod_eq_of_lt (by omega)
      simp only [Bool.not_true, Bool.false_eq_true, if_false, if_neg hlarge, if_neg hfits, hmod]
      rfl

/-! ## A stream of frames -/

inductive Writer
  | packetStream
  | session
  deriving DecidableEq

/-- One payload is written. A frame of `Session::Send` goes through `PostSend`, which sends what
it is given as long as the sends come one after the other. -/
def Pipe.write (net : Transport) (connected : Bool) (p : Pipe) :
    Writer → List UInt8 → Except ENetworkError Pipe
  | .packetStream, payload => p.sendFrame net connected payload
  | .session, payload =>
    match sessionFrame payload with
    | some frame => if connected then .ok { p with bytes := p.bytes ++ frame } else .ok p
    | none => .ok p

def Pipe.writeAll (net : Transport) (connected : Bool) :
    Pipe → List (Writer × List UInt8) → Except ENetworkError Pipe
  | p, [] => .ok p
  | p, (writer, payload) :: rest =>
    match p.write net connected writer payload with
    | .error e => .error e
    | .ok q => q.writeAll net connected rest

/-- A payload within the limits of its writer. -/
def Writable : Writer × List UInt8 → Prop
  | (.packetStream, payload) => payload.length ≤ maxFrameSize
  | (.session, payload) => payload.length ≤ maxFrameSize ∧ 4 + payload.length ≤ sendBufferSize

theorem Writable.length_le {m : Writer × List UInt8} (h : Writable m) :
    m.2.length ≤ maxFrameSize := by
  obtain ⟨writer, payload⟩ := m
  cases writer with
  | packetStream => exact h
  | session => exact h.1

/-! ## The two layouts -/

theorem byteSwap32_pos {n : Nat} (hpos : 0 < n) (hlt : n < 2 ^ 32) : 0 < byteSwap32 n := by
  have hsum : n = n % 256 + 256 * (n / 256 % 256) + 65536 * (n / 65536 % 256) +
      16777216 * (n / 16777216 % 256) := by omega
  unfold byteSwap32
  generalize n % 256 = a at *
  generalize n / 256 % 256 = b at *
  generalize n / 65536 % 256 = c at *
  omega

/-- An empty payload leaves nothing to copy, any other one is copied. -/
theorem sendFrameBytes_eq {payload : List UInt8} (h : payload.length ≤ maxFrameSize) :
    sendFrameBytes payload = frameBytes payload := by
  have hlt : payload.length < 2 ^ 32 := Nat.lt_of_le_of_lt h (by decide)
  unfold sendFrameBytes frameBytes
  rw [Nat.mod_eq_of_lt hlt]
  by_cases hpos : 0 < payload.length
  · simp only [gt_iff_lt, if_pos (byteSwap32_pos hpos hlt)]
  · have hnil : payload = [] := List.length_eq_zero_iff.mp (by omega)
    subst hnil
    rfl

theorem sessionFrame_eq {payload : List UInt8} (h : 4 + payload.length ≤ sendBufferSize) :
    sessionFrame payload = some (frameBytes payload) := by
  have hlt : payload.length < 2 ^ 32 :=
    Nat.lt_of_le_of_lt (Nat.le_of_add_left_le h) (by decide)
  unfold sessionFrame frameBytes
  rw [if_neg (by omega), if_neg (by omega), Nat.mod_eq_of_lt hlt]

/-! ## The loops -/

section
variable {net : Transport}

/-- Every round sends a part, until nothing is left. -/
theorem sendLoop_ok (hnet : net.Splits) (p : Pipe) (data : List UInt8) :
    ∃ q, p.sendLoop net data = .ok q ∧ q.bytes = p.bytes ++ data := by
  fun_induction Pipe.sendLoop net p data with
  | case1 p => exact ⟨p, rfl, by simp⟩
  | case2 p data hne e he =>
    have hpos := List.length_pos_iff.mpr hne
    obtain ⟨k, hk, -, -⟩ := hnet.send p.sends (min data.length INT_MAX) (by simp [INT_MAX, hpos])
    simp [hk] at he
  | case3 p data hne he =>
    have hpos := List.length_pos_iff.mpr hne
    obtain ⟨k, hk, hk0, -⟩ := hnet.send p.sends (min data.length INT_MAX) (by simp [INT_MAX, hpos])
    rw [hk] at he
    cases he
    omega
  | case4 p data hne sent he ih =>
    obtain ⟨q, hq, hbytes⟩ := ih
    refine ⟨q, hq, ?_⟩
    rw [hbytes, List.append_assoc, List.take_append_drop]

theorem recvSome_ok (hnet : net.Splits) (p : Pipe) {size : Nat} (hpos : 0 < size)
    (hsize : size ≤ p.bytes.length) :
    ∃ k, 0 < k ∧ k ≤ size ∧ p.recvSome net true size =
      .ok (p.bytes.take k, { p with bytes := p.bytes.drop k, recvs := p.recvs + 1 }) := by
  have hmin : min size p.bytes.length = size := Nat.min_eq_left hsize
  obtain ⟨k, hk, hk0, hle⟩ := hnet.recv p.recvs size hpos
  refine ⟨k, hk0, hle, ?_⟩
  unfold Pipe.recvSome
  simp only [Bool.not_true, Bool.false_eq_true, if_false, if_neg (Nat.ne_of_gt hpos), hmin, hk]

/-- Every round receives a part, until the buffer is full. -/
theorem recvLoop_ok (hnet : net.Splits) (size : Nat) (p : Pipe) (received : List UInt8)
    (hle : received.length ≤ size) (hthere : size - received.length ≤ p.bytes.length) :
    ∃ q, p.recvLoop net true size received =
        .ok (received ++ p.bytes.take (size - received.length), q) ∧
      q.bytes = p.bytes.drop (size - received.length) := by
  -- the induction is on how much is missing
  induction hn : size - received.length using Nat.strongRecOn generalizing p received with
  | _ n ih =>
    subst hn
    unfold Pipe.recvLoop
    by_cases hlt : received.length < size
    · have hpos : 0 < size - received.length := by omega
      obtain ⟨k, hk0, hk, hsome⟩ := recvSome_ok hnet p hpos hthere
      rw [if_pos hlt, hsome]
      have hlen : (p.bytes.take k).length = k := by
        rw [List.length_take]
        omega
      have hnew : size - (received ++ p.bytes.take k).length = size - received.length - k := by
        rw [List.length_append, hlen]
        omega
      obtain ⟨q, hq, hbytes⟩ := ih (size - received.length - k) (by omega)
        { p with bytes := p.bytes.drop k, recvs := p.recvs + 1 } (received ++ p.bytes.take k)
        (by rw [List.length_append, hlen]; omega)
        (by rw [hnew]; simp only [List.length_drop]; omega) hnew
      have hsplit : k + (size - received.length - k) = size - received.length := by omega
      refine ⟨q, ?_, ?_⟩
      · cases hchunk : p.bytes.take k with
        | nil =>
          rw [hchunk] at hlen
          simp only [List.length_nil] at hlen
          omega
        | cons byte chunk =>
          rw [hchunk] at hq
          show ({ p with bytes := p.bytes.drop k, recvs := p.recvs + 1 } : Pipe).recvLoop net true
            size (received ++ byte :: chunk) = _
          rw [hq, ← hchunk, List.append_assoc, ← List.take_add, hsplit]
      · rw [hbytes, List.drop_drop, hsplit]
    · have hzero : size - received.length = 0 := by omega
      rw [if_neg hlt, hzero]
      exact ⟨p, by simp, by simp⟩

/-- `RecvExact` takes the front of the stream. -/
theorem recvExact_ok (hnet : net.Splits) (p : Pipe) {front rest : List UInt8}
    (hbytes : p.bytes = front ++ rest) :
    ∃ q, p.recvExact net true front.length = .ok (front, q) ∧ q.bytes = rest := by
  obtain ⟨q, hq, hrest⟩ := recvLoop_ok hnet front.length p [] (Nat.zero_le _) (by simp [hbytes])
  refine ⟨q, ?_, ?_⟩
  · rw [Pipe.recvExact, hq, hbytes]
    simp
  · rw [hrest, hbytes]
    simp

/-! ## One frame -/

theorem recvFrame_ok (hnet : net.Splits) (p : Pipe) {payload rest : List UInt8}
    (hsize : payload.length ≤ maxFrameSize) (hbytes : p.bytes = frameBytes payload ++ rest) :
    ∃ q, p.recvFrame net true maxFrameSize = .ok ((payload.length, payload), q) ∧
      q.bytes = rest := by
  have hlt : payload.length < 2 ^ 32 := Nat.lt_of_le_of_lt hsize (by decide)
  rw [frameBytes, List.append_assoc] at hbytes
  obtain ⟨q, hq, hqbytes⟩ := recvExact_ok hnet p hbytes
  have hheader :
      byteSwap32 (loadLE32 (storeLE32 (byteSwap32 payload.length))) = payload.length := by
    have hstore := ofBE32_store payload.length hlt []
    rw [List.append_nil] at hstore
    rw [byteSwap32_load, hstore]
  unfold Pipe.recvFrame
  rw [if_neg (by simp [maxFrameSize]), if_neg (Nat.lt_irrefl _)]
  have hq' : p.recvExact net true kHeaderSize =
      .ok (storeLE32 (byteSwap32 payload.length), q) := hq
  rw [hq']
  simp only [hheader, gt_iff_lt, if_neg (Nat.not_lt.mpr hsize)]
  by_cases hzero : payload.length = 0
  · rw [if_pos hzero]
    have hnil : payload = [] := List.length_eq_zero_iff.mp hzero
    subst hnil
    exact ⟨q, rfl, hqbytes⟩
  · rw [if_neg hzero]
    obtain ⟨r, hr, hrbytes⟩ := recvExact_ok hnet q hqbytes
    rw [hr]
    exact ⟨r, rfl, hrbytes⟩

theorem write_ok (hnet : net.Splits) (p : Pipe) (m : Writer × List UInt8) (hm : Writable m) :
    ∃ q, p.write net true m.1 m.2 = .ok q ∧ q.bytes = p.bytes ++ frameBytes m.2 := by
  obtain ⟨writer, payload⟩ := m
  cases writer with
  | packetStream =>
    obtain ⟨q, hq, hbytes⟩ := sendLoop_ok hnet p (sendFrameBytes payload)
    refine ⟨q, ?_, ?_⟩
    · simpa [Pipe.write, Pipe.sendFrame, Pipe.sendAll] using hq
    · rw [hbytes, sendFrameBytes_eq hm.length_le]
  | session =>
    have hfits : 4 + payload.length ≤ sendBufferSize := And.right hm
    refine ⟨{ p with bytes := p.bytes ++ frameBytes payload }, ?_, rfl⟩
    simp only [Pipe.write, sessionFrame_eq hfits, if_true]

/-! ## The whole stream -/

theorem writeAll_ok (hnet : net.Splits) (messages : List (Writer × List UInt8)) (p : Pipe)
    (hm : ∀ m ∈ messages, Writable m) :
    ∃ q, p.writeAll net true messages = .ok q ∧
      q.bytes = p.bytes ++ wire (messages.map Prod.snd) := by
  induction messages generalizing p with
  | nil => exact ⟨p, rfl, by simp [wire]⟩
  | cons m rest ih =>
    obtain ⟨q, hq, hqbytes⟩ := write_ok hnet p m (hm m (List.mem_cons_self ..))
    obtain ⟨r, hr, hrbytes⟩ := ih q (fun m' hm' => hm m' (List.mem_cons_of_mem _ hm'))
    refine ⟨r, ?_, ?_⟩
    · rw [Pipe.writeAll, hq]
      exact hr
    · rw [hrbytes, hqbytes]
      simp [wire]

theorem recvFrames_ok (hnet : net.Splits) (payloads : List (List UInt8)) (p : Pipe)
    {rest : List UInt8} (hsize : ∀ payload ∈ payloads, payload.length ≤ maxFrameSize)
    (hbytes : p.bytes = wire payloads ++ rest) :
    ∃ q, p.recvFrames net true maxFrameSize payloads.length =
        .ok (payloads.map (fun payload => (payload.length, payload)), q) ∧
      q.bytes = rest := by
  induction payloads generalizing p with
  | nil => exact ⟨p, rfl, by simpa [wire] using hbytes⟩
  | cons payload payloads ih =>
    have hfront : p.bytes = frameBytes payload ++ (wire payloads ++ rest) := by
      simpa [wire] using hbytes
    obtain ⟨q, hq, hqbytes⟩ := recvFrame_ok hnet p (hsize _ (List.mem_cons_self ..)) hfront
    obtain ⟨r, hr, hrbytes⟩ := ih q (fun x hx => hsize x (List.mem_cons_of_mem _ hx)) hqbytes
    refine ⟨r, ?_, hrbytes⟩
    simp only [List.length_cons, Pipe.recvFrames, hq, hr, List.map_cons]

end

/-- **Frames survive the wire.** Whatever is written by either writer is received frame by frame,
however the stream is split, and the next receive starts with what comes behind it. -/
theorem frames_survive_the_wire (net : Transport) (hnet : net.Splits)
    (messages : List (Writer × List UInt8)) (hm : ∀ m ∈ messages, Writable m)
    (sends recvs : Nat) (rest : List UInt8) :
    (∃ p, (Pipe.mk [] sends recvs).writeAll net true messages = .ok p ∧
      ∃ q, { p with bytes := p.bytes ++ rest }.recvFrames net true maxFrameSize messages.length =
          .ok (messages.map (fun m => (m.2.length, m.2)), q) ∧
        q.bytes = rest) ∧
    ∀ payload : List UInt8, payload.length ≤ maxFrameSize → 4 + payload.length ≤ sendBufferSize →
      sessionFrame payload = some (sendFrameBytes payload) := by
  constructor
  · obtain ⟨p, hp, hbytes⟩ := writeAll_ok hnet messages ⟨[], sends, recvs⟩ hm
    refine ⟨p, hp, ?_⟩
    have hsize : ∀ payload ∈ messages.map Prod.snd, payload.length ≤ maxFrameSize := by
      intro payload hmem
      obtain ⟨m, hmessage, rfl⟩ := List.mem_map.mp hmem
      exact (hm m hmessage).length_le
    have hstream : ({ p with bytes := p.bytes ++ rest } : Pipe).bytes =
        wire (messages.map Prod.snd) ++ rest := by simp [hbytes]
    obtain ⟨q, hq, hrest⟩ := recvFrames_ok hnet (messages.map Prod.snd) _ hsize hstream
    rw [List.length_map, List.map_map] at hq
    exact ⟨q, hq, hrest⟩
  · intro payload hsize hfits
    rw [sessionFrame_eq hfits, sendFrameBytes_eq hsize]

/-- One byte a call. -/
def byteByByte : Transport where
  send _ _ := .bytes 1
  recv _ _ := .bytes 1

theorem byteByByte_splits : byteByByte.Splits where
  send _ _ hn := ⟨1, rfl, Nat.one_pos, hn⟩
  recv _ _ hn := ⟨1, rfl, Nat.one_pos, hn⟩

theorem survives_byteByByte : ∃ p, (Pipe.mk [] 0 0).writeAll byteByByte true
      [(.packetStream, [7, 8]), (.session, []), (.session, [9])] = .ok p ∧
    ∃ q, { p with bytes := p.bytes ++ [0, 0] }.recvFrames byteByByte true maxFrameSize 3 =
        .ok ([(2, [7, 8]), (0, []), (1, [9])], q) ∧ q.bytes = [0, 0] :=
  (frames_survive_the_wire byteByByte byteByByte_splits
    [(.packetStream, [7, 8]), (.session, []), (.session, [9])]
    (by simp [Writable, maxFrameSize, sendBufferSize]) 0 0 [0, 0]).1

end Highp.Client
