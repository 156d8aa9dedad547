import Highp.Network.PacketDispatcher
import Mathlib.Data.List.Induction

/-! How a TCP stream is cut into receives does not matter to `Receive`, as long as every
cut fits the frame buffer. `RecvPath` follows one connection through its receives. -/

namespace Highp.Network
open Highp.Lib

/-- The receiving side of one connection. A chunk can only arrive while a `WSARecv` is
posted; `appended` is a ghost, the bytes that `Append` took. -/
structure RecvPath where
  inbox : Inbox
  posted : Bool
  appended : List UInt8

namespace RecvPath
variable (fb : FlatBuffers) (conn : Conn)

def client (x : RecvPath) : Client := x.inbox.client

/-- The connection as `SetupClient` leaves it, its first receive posted. -/
def start (client : Client) (queue : List PacketCommand) : RecvPath := ⟨⟨client, queue⟩, true, []⟩

/-- `HandleRecv` for a chunk: `OnRecv`, then `PostRecv`, which fails on a closed socket. -/
def handleRecv (x : RecvPath) (chunk : List UInt8) : RecvPath :=
  if x.posted then
    { inbox := x.inbox.receive fb conn chunk
      posted := (x.inbox.receive fb conn chunk).client.isConnected
      appended := if x.client.frameBuf.overflows chunk then x.appended else x.appended ++ chunk }
  else x

def handleAll (x : RecvPath) (chunks : List (List UInt8)) : RecvPath :=
  chunks.foldl (handleRecv fb conn) x

@[simp] theorem handleAll_snoc (x : RecvPath) (chunks : List (List UInt8)) (c : List UInt8) :
    x.handleAll fb conn (chunks ++ [c]) = (x.handleAll fb conn chunks).handleRecv fb conn c := by
  simp [handleAll]

/-- A chunk that does not fit behind the undecoded rest of the stream. -/
def Overflows (chunks : List (List UInt8)) (appended : List UInt8) : Prop :=
  ∃ pre c post, chunks = pre ++ c :: post ∧ appended = pre.flatten ∧
    maxFrameSize < (decode (parses fb) pre.flatten).rest.length + c.length

/-- What holds after the chunks: an open client has all of them, decoded as far as possible;
a closed one was closed by a bad frame or by a chunk too many. -/
structure Follows (queue : List PacketCommand) (chunks : List (List UInt8)) (x : RecvPath) :
    Prop where
  posted : x.posted = x.client.isConnected
  pushed : Pushes conn queue x.inbox.queue (decode (parses fb) x.appended).frames
  cut : ∃ pre post, chunks = pre ++ post ∧ x.appended = pre.flatten
  appended : x.client.isConnected = true → x.appended = chunks.flatten
  sound : x.client.isConnected = true → (decode (parses fb) x.appended).failed = false
  rest : x.client.isConnected = true →
    x.client.frameBuf.data = (decode (parses fb) x.appended).rest
  closed : x.client.isConnected = false →
    (decode (parses fb) x.appended).failed = true ∨ Overflows fb chunks x.appended

variable {fb conn} {queue : List PacketCommand} {chunks : List (List UInt8)} {x : RecvPath}

theorem Overflows.snoc {appended : List UInt8} (h : Overflows fb chunks appended)
    (c : List UInt8) : Overflows fb (chunks ++ [c]) appended := by
  obtain ⟨pre, d, post, rfl, ha, hl⟩ := h
  exact ⟨pre, d, post ++ [c], by simp, ha, hl⟩

theorem follows_start (client : Client) (hopen : client.isConnected = true)
    (hempty : client.frameBuf.len = 0) :
    Follows fb conn queue [] (start client queue) where
  posted := hopen.symm
  pushed := ⟨[], by simp [start]⟩
  cut := ⟨[], [], rfl, rfl⟩
  appended _ := rfl
  sound _ := by simp [start]
  rest _ := by simpa [start, RecvPath.client] using FrameBuffer.data_eq_nil.mpr hempty
  closed h := by simp [start, RecvPath.client, hopen] at h

/-- An open client that meets a chunk too long for its buffer. -/
theorem Follows.overflow (h : Follows fb conn queue chunks x) (ho : x.client.isConnected = true)
    {c : List UInt8} (hc : maxFrameSize < x.client.frameBuf.len + c.length) :
    (x.handleRecv fb conn c).client.isConnected = false ∧
      Follows fb conn queue (chunks ++ [c]) (x.handleRecv fb conn c) := by
  have hov : x.client.frameBuf.overflows c = true := by
    rw [← Bool.not_eq_false, FrameBuffer.overflows_eq_false]
    omega
  have hp : x.posted = true := h.posted.trans ho
  have hx : x.handleRecv fb conn c =
      ⟨{ x.inbox with client := x.client.close }, false, x.appended⟩ := by
    rw [handleRecv, if_pos hp, hov, receive_overflow fb conn hc]
    rfl
  rw [hx]
  refine ⟨rfl, ⟨rfl, h.pushed, ⟨chunks, [c], rfl, h.appended ho⟩,
    by simp [RecvPath.client, Client.isConnected],
    by simp [RecvPath.client, Client.isConnected],
    by simp [RecvPath.client, Client.isConnected], fun _ => Or.inr ?_⟩⟩
  refine ⟨chunks, c, [], rfl, h.appended ho, ?_⟩
  rw [← h.appended ho, ← h.rest ho, FrameBuffer.length_data]
  exact hc

/-- An open client that meets a chunk that fits. -/
theorem Follows.fits (h : Follows fb conn queue chunks x) (ho : x.client.isConnected = true)
    {c : List UInt8} (hc : x.client.frameBuf.len + c.length ≤ maxFrameSize) :
    (x.handleRecv fb conn c).client.isConnected =
        !(decode (parses fb) (chunks.flatten ++ c)).failed ∧
      Follows fb conn queue (chunks ++ [c]) (x.handleRecv fb conn c) := by
  obtain ⟨hq, hr, hs⟩ := receive_fits fb conn (x := x.inbox) hc
  have hd := decode_append c (h.sound ho)
  have hrest : x.inbox.client.frameBuf.data = (decode (parses fb) x.appended).rest := h.rest ho
  have hx : x.handleRecv fb conn c = ⟨x.inbox.receive fb conn c,
      (x.inbox.receive fb conn c).client.isConnected, x.appended ++ c⟩ := by
    rw [handleRecv, if_pos (h.posted.trans ho),
      (FrameBuffer.overflows_eq_false _ _).mpr hc]
    rfl
  have hcon : (x.inbox.receive fb conn c).client.isConnected =
      !(decode (parses fb) (x.appended ++ c)).failed := by
    have ho' : x.inbox.client.socket.isSome = true := ho
    rw [Client.isConnected, hs, hrest, hd]
    simp only [Decoded.after]
    split <;> simp_all
  rw [hx, ← h.appended ho]
  refine ⟨hcon, ⟨rfl, ?_, ⟨chunks ++ [c], [], by simp, by simp [h.appended ho]⟩, ?_, ?_, ?_, ?_⟩⟩
  · rw [hrest] at hq
    simp only [hd, Decoded.after]
    exact h.pushed.trans hq
  · intro _
    simp [h.appended ho]
  · intro hopen
    simpa [RecvPath.client, hcon] using hopen
  · intro _
    simp only [RecvPath.client, hd, Decoded.after]
    rw [hr, hrest]
  · intro hclosed
    left
    simpa [RecvPath.client, hcon] using hclosed

/-- One receive keeps the invariant. -/
theorem Follows.step (h : Follows fb conn queue chunks x) (c : List UInt8) :
    Follows fb conn queue (chunks ++ [c]) (x.handleRecv fb conn c) := by
  by_cases ho : x.client.isConnected = true
  · by_cases hc : x.client.frameBuf.len + c.length ≤ maxFrameSize
    · exact (h.fits ho hc).2
    · exact (h.overflow ho (Nat.not_le.mp hc)).2
  · rw [Bool.not_eq_true] at ho
    rw [handleRecv, if_neg (by simp [h.posted, ho])]
    obtain ⟨pre, post, hp, ha⟩ := h.cut
    refine ⟨h.posted, h.pushed, ⟨pre, post ++ [c], by simp [hp], ha⟩, by simp [ho], by simp [ho],
      by simp [ho], fun _ => ?_⟩
    exact (h.closed ho).imp id (fun hv => hv.snoc c)

/-- Every list of receives keeps the invariant. -/
theorem follows_handleAll (client : Client) (hopen : client.isConnected = true)
    (hempty : client.frameBuf.len = 0) (chunks : List (List UInt8)) :
    Follows fb conn queue chunks ((start client queue).handleAll fb conn chunks) := by
  induction chunks using List.reverseRecOn with
  | nil => exact follows_start client hopen hempty
  | append_singleton chunks c ih =>
    rw [handleAll_snoc]
    exact ih.step c

theorem Follows.closed_iff (h : Follows fb conn queue chunks x) :
    x.client.isConnected = false ↔
      (decode (parses fb) x.appended).failed = true ∨ Overflows fb chunks x.appended := by
  refine ⟨h.closed, fun hc => ?_⟩
  by_contra ho
  rw [Bool.not_eq_false] at ho
  rcases hc with hf | ⟨pre, c, post, rfl, ha, hl⟩
  · simp [h.sound ho] at hf
  · -- the open client took the chunk as well, so the chunk was empty after all
    have hnil : c = [] := by
      have he := (h.appended ho).symm.trans ha
      simp at he
      exact he.1
    have hlen := congrArg List.length (h.rest ho)
    rw [FrameBuffer.length_data, ha] at hlen
    have := x.client.frameBuf.len_le
    simp only [hnil, List.length_nil, Nat.add_zero] at hl
    omega

end RecvPath

/-- **Framing is independent of segmentation.** Each call returns; the payloads pushed are
those of the reference parse of the bytes that were appended; an open client holds exactly
the undecoded rest; and the client is closed exactly when the parse fails on those bytes or
a chunk does not fit behind that rest. -/
theorem receive_independent_of_segmentation (fb : FlatBuffers) (conn : Conn) (client : Client)
    (queue : List PacketCommand) (hopen : client.isConnected = true)
    (hempty : client.frameBuf.len = 0) (chunks : List (List UInt8)) :
    let x := (RecvPath.start client queue).handleAll fb conn chunks
    (∀ chunk, ∃ bound, ∀ fuel ≥ bound,
      x.inbox.receiveWithin fb conn fuel chunk = some (x.inbox.receive fb conn chunk)) ∧
    (∃ pre post, chunks = pre ++ post ∧ x.appended = pre.flatten) ∧
    Pushes conn queue x.inbox.queue (decode (parses fb) x.appended).frames ∧
    (x.client.isConnected = true → x.appended = chunks.flatten ∧
      x.client.frameBuf.data = (decode (parses fb) chunks.flatten).rest) ∧
    (x.client.isConnected = false ↔ (decode (parses fb) x.appended).failed = true ∨
      RecvPath.Overflows fb chunks x.appended) := by
  intro x
  have h : RecvPath.Follows fb conn queue chunks x :=
    RecvPath.follows_handleAll client hopen hempty chunks
  refine ⟨fun chunk => ⟨maxFrameSize + 1, fun fuel hf => ?_⟩, h.cut, h.pushed, fun ho => ?_,
    h.closed_iff⟩
  · exact receiveWithin_eq fb conn x.inbox chunk hf
  · exact ⟨h.appended ho, h.appended ho ▸ h.rest ho⟩

/-- A client that holds socket 4 and has received nothing. -/
def connected : Client := { Client.new with socket := some 4 }

/-- A frame and the first byte of the next one, cut inside the header. -/
theorem receive_independent_of_segmentation_split_header :
    let x := (RecvPath.start connected []).handleAll sample ⟨0, 1⟩
      [[0, 0], 0 :: 44 :: leaveBytes ++ [0]]
    Pushes ⟨0, 1⟩ [] x.inbox.queue [leaveBytes] ∧ x.client.frameBuf.data = [0] := by
  intro x
  obtain ⟨-, -, hp, hr, -⟩ := receive_independent_of_segmentation sample ⟨0, 1⟩ connected []
    rfl rfl [[0, 0], 0 :: 44 :: leaveBytes ++ [0]]
  obtain ⟨ha, hd⟩ := hr (by decide +kernel)
  rw [ha] at hp
  exact ⟨hp, hd⟩

end Highp.Network
