import Highp.Network.Segmentation

/-! A `Client` slot across its connections. Neither `Close` nor `SetupClient` touches the frame
buffer, so the next connection starts with whatever its predecessors left undecoded. -/

namespace Highp.Network
open Highp.Lib

/-- What happens to a slot of the pool. `close` stands for every path that ends in
`Client::Close` outside `Receive`: a peer that disconnects, a receive that cannot be posted, a
packet that cannot be dispatched. -/
inductive SlotEvent
  | setupClient (acceptSocket : SocketHandle)
  | receive (data : List UInt8)
  | close

/-- A slot with the number of connections it has served. -/
structure PooledSlot where
  inbox : Inbox
  epoch : Nat

namespace PooledSlot

def new : PooledSlot := ⟨⟨.new, []⟩, 0⟩

def client (x : PooledSlot) : Client := x.inbox.client

/-- `FindAvailableClient` hands out free slots only. A receive may be handled although the
logic thread has closed the client since it was posted. -/
def step (fb : FlatBuffers) (slot : Slot) (x : PooledSlot) : SlotEvent → PooledSlot
  | .setupClient acceptSocket =>
    if x.client.isConnected then x
    else ⟨{ x.inbox with client := { x.client with socket := some acceptSocket } }, x.epoch + 1⟩
  | .receive data => { x with inbox := x.inbox.receive fb ⟨slot, x.epoch⟩ data }
  | .close => { x with inbox := { x.inbox with client := x.client.close } }

def after (fb : FlatBuffers) (slot : Slot) (history : List SlotEvent) : PooledSlot :=
  history.foldl (step fb slot) new

/-- The next connection of the slot, on the socket `acceptSocket`: the payloads it pushes for
the chunks it receives, and whether it is still open. -/
def serve (fb : FlatBuffers) (slot : Slot) (x : PooledSlot) (acceptSocket : SocketHandle)
    (chunks : List (List UInt8)) : List (List UInt8) × Bool :=
  let y := x.step fb slot (.setupClient acceptSocket)
  let z := (RecvPath.start y.client []).handleAll fb ⟨slot, y.epoch⟩ chunks
  (z.inbox.queue.map PacketCommand.data, z.client.isConnected)

end PooledSlot

/-- What an event makes of the undecoded bytes: only receives add to them. -/
def residueStep (fb : FlatBuffers) (r : List UInt8) : SlotEvent → List UInt8
  | .setupClient _ => r
  | .receive data =>
    if maxFrameSize < r.length + data.length then r else (decode (parses fb) (r ++ data)).rest
  | .close => r

/-- What the bytes received on a slot leave undecoded, over all its connections. -/
def residue (fb : FlatBuffers) (history : List SlotEvent) : List UInt8 :=
  history.foldl (residueStep fb) []

section
variable {fb : FlatBuffers} {slot : Slot}

theorem data_step (x : PooledSlot) (e : SlotEvent) :
    (x.step fb slot e).client.frameBuf.data = residueStep fb x.client.frameBuf.data e := by
  cases e with
  | setupClient acceptSocket =>
    rw [PooledSlot.step]
    split
    · rfl
    · rfl
  | receive data =>
    rw [residueStep, FrameBuffer.length_data]
    split
    · rename_i ho
      rw [PooledSlot.step, PooledSlot.client, receive_overflow fb _ ho]
      rfl
    · rename_i ho
      exact (receive_fits fb ⟨slot, x.epoch⟩ (x := x.inbox) (Nat.not_lt.mp ho)).2.1
  | close => rfl

/-- The frame buffer holds the residue, whichever connection received it. -/
theorem data_after (history : List SlotEvent) :
    (PooledSlot.after fb slot history).client.frameBuf.data = residue fb history := by
  induction history using List.reverseRecOn with
  | nil => exact FrameBuffer.data_eq_nil.mpr rfl
  | append_singleton history e ih =>
    rw [PooledSlot.after, residue, List.foldl_append, List.foldl_append]
    rw [PooledSlot.after, residue] at ih
    rw [List.foldl_cons, List.foldl_cons, List.foldl_nil, List.foldl_nil, ← ih]
    exact data_step _ e

end

/-! ## Equal residues -/

/-- Two receive paths that nobody can tell apart from outside. -/
structure Alike (x y : RecvPath) : Prop where
  posted : x.posted = y.posted
  data : x.client.frameBuf.data = y.client.frameBuf.data
  connected : x.client.isConnected = y.client.isConnected
  queue : x.inbox.queue.map PacketCommand.data = y.inbox.queue.map PacketCommand.data

section
variable (fb : FlatBuffers) (conn conn' : Conn) {x y : RecvPath}

theorem Pushes.map_data {conn : Conn} {old new : List PacketCommand} {ps : List (List UInt8)}
    (h : Pushes conn old new ps) :
    new.map PacketCommand.data = old.map PacketCommand.data ++ ps := by
  obtain ⟨cmds, rfl, rfl, -⟩ := h
  exact List.map_append

/-- Receiving goes by the bytes in the buffer and nothing else. -/
theorem Alike.handleRecv (h : Alike x y) (c : List UInt8) :
    Alike (x.handleRecv fb conn c) (y.handleRecv fb conn' c) := by
  unfold RecvPath.handleRecv
  rw [← h.posted]
  split
  · have hlen : x.inbox.client.frameBuf.len = y.inbox.client.frameBuf.len := by
      have := congrArg List.length h.data
      rwa [FrameBuffer.length_data, FrameBuffer.length_data] at this
    by_cases ho : maxFrameSize < x.inbox.client.frameBuf.len + c.length
    · rw [receive_overflow fb conn ho, receive_overflow fb conn' (hlen ▸ ho)]
      exact ⟨rfl, h.data, rfl, h.queue⟩
    · obtain ⟨hq, hr, hs⟩ := receive_fits fb conn (x := x.inbox) (Nat.not_lt.mp ho)
      obtain ⟨hq', hr', hs'⟩ := receive_fits fb conn' (x := y.inbox) (hlen ▸ Nat.not_lt.mp ho)
      have hd : y.inbox.client.frameBuf.data = x.inbox.client.frameBuf.data := h.data.symm
      rw [hd] at hq' hr' hs'
      have hcon : (x.inbox.receive fb conn c).client.isConnected =
          (y.inbox.receive fb conn' c).client.isConnected := by
        rw [Client.isConnected, Client.isConnected, hs, hs']
        split
        · rfl
        · exact h.connected
      refine ⟨hcon, hr.trans hr'.symm, hcon, ?_⟩
      simp only [hq.map_data, hq'.map_data, h.queue]
  · exact h

theorem Alike.handleAll (h : Alike x y) (chunks : List (List UInt8)) :
    Alike (x.handleAll fb conn chunks) (y.handleAll fb conn' chunks) := by
  induction chunks generalizing x y with
  | nil => exact h
  | cons c cs ih => exact ih (h.handleRecv fb conn conn' c)

end

section
variable {fb : FlatBuffers} {slot : Slot}

/-- The next connection as `SetupClient` starts it. -/
def PooledSlot.next (fb : FlatBuffers) (slot : Slot) (x : PooledSlot)
    (acceptSocket : SocketHandle) : RecvPath :=
  RecvPath.start (x.step fb slot (.setupClient acceptSocket)).client []

theorem data_next (history : List SlotEvent) (h : SocketHandle) :
    ((PooledSlot.after fb slot history).next fb slot h).client.frameBuf.data =
      residue fb history := by
  rw [← @data_after fb slot history]
  exact data_step _ (.setupClient h)

theorem connected_next {x : PooledSlot} (hfree : x.client.isConnected = false) (h : SocketHandle) :
    (x.next fb slot h).client.isConnected = true := by
  rw [PooledSlot.next, PooledSlot.step, if_neg (by simp [hfree])]
  rfl

theorem alike_next {history history' : List SlotEvent}
    (hfree : (PooledSlot.after fb slot history).client.isConnected = false)
    (hfree' : (PooledSlot.after fb slot history').client.isConnected = false)
    (hres : residue fb history = residue fb history') (h : SocketHandle) :
    Alike ((PooledSlot.after fb slot history).next fb slot h)
      ((PooledSlot.after fb slot history').next fb slot h) where
  posted := rfl
  data := by rw [data_next, data_next, hres]
  connected := by rw [connected_next hfree, connected_next hfree']
  queue := rfl

/-- Histories that leave the same bytes behind are the same to the next connection. -/
theorem serve_eq_of_residue_eq {history history' : List SlotEvent}
    (hfree : (PooledSlot.after fb slot history).client.isConnected = false)
    (hfree' : (PooledSlot.after fb slot history').client.isConnected = false)
    (hres : residue fb history = residue fb history') (h : SocketHandle)
    (chunks : List (List UInt8)) :
    (PooledSlot.after fb slot history).serve fb slot h chunks =
      (PooledSlot.after fb slot history').serve fb slot h chunks := by
  have ha := (alike_next hfree hfree' hres h).handleAll fb
    ⟨slot, ((PooledSlot.after fb slot history).step fb slot (.setupClient h)).epoch⟩
    ⟨slot, ((PooledSlot.after fb slot history').step fb slot (.setupClient h)).epoch⟩ chunks
  exact Prod.ext ha.queue ha.connected

end

/-! ## Residues that show -/

/-- Open, with `d` in the buffer and nothing pushed yet. -/
structure Waiting (d : List UInt8) (x : RecvPath) : Prop where
  posted : x.posted = true
  connected : x.client.isConnected = true
  data : x.client.frameBuf.data = d
  queue : x.inbox.queue = []

/-- Open, with nothing pushed. -/
def Quiet (x : RecvPath) : Prop :=
  x.client.isConnected = true ∧ x.inbox.queue.map PacketCommand.data = []

section
variable {fb : FlatBuffers} {conn : Conn} {d c : List UInt8} {x : RecvPath}

theorem frames_eq_nil {verifies : List UInt8 → Bool} {s : List UInt8}
    (hf : (decode verifies s).failed = false) (hn : (decode verifies s).frames = []) :
    nextFrame verifies s = .more := by
  cases h : nextFrame verifies s with
  | more => rfl
  | fail r => simp [decode_fail h] at hf
  | emit p r => simp [decode_emit h, Decoded.after] at hn

/-- A receive leaves the connection quiet exactly when its bytes fit and complete no frame. -/
theorem Waiting.quiet_iff (h : Waiting d x) (c : List UInt8) :
    Quiet (x.handleRecv fb conn c) ↔
      d.length + c.length ≤ maxFrameSize ∧ nextFrame (parses fb) (d ++ c) = .more := by
  have hlen : x.inbox.client.frameBuf.len = d.length := by
    rw [← h.data, FrameBuffer.length_data]
    rfl
  have hd : x.inbox.client.frameBuf.data = d := h.data
  rw [RecvPath.handleRecv, if_pos h.posted]
  by_cases ho : maxFrameSize < d.length + c.length
  · rw [receive_overflow fb conn (hlen ▸ ho)]
    constructor
    · rintro ⟨hc, -⟩
      simp [RecvPath.client, Client.isConnected] at hc
    · rintro ⟨hl, -⟩
      omega
  · obtain ⟨hq, -, hs⟩ := receive_fits fb conn (x := x.inbox) (hlen ▸ Nat.not_lt.mp ho)
    have ho' : x.inbox.client.socket.isSome = true := h.connected
    rw [hd] at hq hs
    simp only [Quiet, RecvPath.client, Client.isConnected, hs, hq.map_data, h.queue]
    constructor
    · rintro ⟨hc, hn⟩
      cases hf : (decode (parses fb) (d ++ c)).failed with
      | true => simp [hf] at hc
      | false => exact ⟨by omega, frames_eq_nil hf (by simpa using hn)⟩
    · rintro ⟨-, hn⟩
      simp [decode_more hn, ho']

theorem Waiting.step (h : Waiting d x) (hq : Quiet (x.handleRecv fb conn c)) :
    Waiting (d ++ c) (x.handleRecv fb conn c) := by
  have hlen : x.inbox.client.frameBuf.len = d.length := by
    rw [← h.data, FrameBuffer.length_data]
    rfl
  obtain ⟨hl, hn⟩ := (h.quiet_iff c).mp hq
  obtain ⟨hc, hm⟩ := hq
  rw [RecvPath.handleRecv, if_pos h.posted] at hc hm ⊢
  obtain ⟨-, hr, -⟩ := receive_fits fb conn (x := x.inbox) (hlen ▸ hl)
  have hd : x.inbox.client.frameBuf.data = d := h.data
  rw [hd, decode_more hn] at hr
  exact ⟨hc, hc, hr, by simpa using hm⟩

end

/-- The bytes of `s`, arriving one by one behind `d`, neither overflow nor complete a frame. -/
def Silent (fb : FlatBuffers) (d s : List UInt8) : Prop :=
  ∀ pre, pre <+: s → pre ≠ [] →
    d.length + pre.length ≤ maxFrameSize ∧ nextFrame (parses fb) (d ++ pre) = .more

/-- One receive for each byte. -/
def bytewise (s : List UInt8) : List (List UInt8) := s.map fun b => [b]

section
variable {fb : FlatBuffers} {conn : Conn} {d s : List UInt8} {x : RecvPath}

theorem Silent.of_piece {t : List UInt8} (h : Silent fb d s) (ht : t <+: s) : Silent fb d t :=
  fun pre hp hne => h pre (hp.trans ht) hne

theorem Silent.snoc {b : UInt8} (h : Silent fb d s)
    (hl : d.length + (s ++ [b]).length ≤ maxFrameSize)
    (hn : nextFrame (parses fb) (d ++ (s ++ [b])) = .more) : Silent fb d (s ++ [b]) := by
  intro pre hp hne
  rcases List.prefix_concat_iff.mp hp with rfl | hp
  · exact ⟨hl, hn⟩
  · exact h pre hp hne

theorem handleAll_bytewise (x : RecvPath) (s : List UInt8) (b : UInt8) :
    x.handleAll fb conn (bytewise (s ++ [b])) =
      (x.handleAll fb conn (bytewise s)).handleRecv fb conn [b] := by
  rw [bytewise, List.map_append]
  exact RecvPath.handleAll_snoc fb conn x _ [b]

/-- One more byte on a silent connection. -/
theorem Waiting.quiet_byte_iff (h : Waiting (d ++ s) (x.handleAll fb conn (bytewise s)))
    (b : UInt8) :
    Quiet (x.handleAll fb conn (bytewise (s ++ [b]))) ↔
      d.length + (s ++ [b]).length ≤ maxFrameSize ∧
        nextFrame (parses fb) (d ++ (s ++ [b])) = .more := by
  rw [handleAll_bytewise, h.quiet_iff, ← List.append_assoc, List.length_append,
    List.length_append, Nat.add_assoc]

theorem Waiting.of_silent (h : Waiting d x) (hs : Silent fb d s) :
    Waiting (d ++ s) (x.handleAll fb conn (bytewise s)) := by
  induction s using List.reverseRecOn with
  | nil => simpa [RecvPath.handleAll, bytewise] using h
  | append_singleton s b ih =>
    have hw := ih (hs.of_piece (List.prefix_append _ _))
    have hq := (hw.quiet_byte_iff b).mpr (hs (s ++ [b]) (List.prefix_refl _) (by simp))
    rw [handleAll_bytewise] at hq ⊢
    rw [← List.append_assoc]
    exact hw.step hq

/-- Being quiet all along is a matter of the bytes alone. -/
theorem Waiting.quiet_all_iff (h : Waiting d x) :
    (∀ pre, pre <+: s → Quiet (x.handleAll fb conn (bytewise pre))) ↔ Silent fb d s := by
  constructor
  · intro hq
    induction s using List.reverseRecOn with
    | nil =>
      intro pre hp hne
      exact absurd (List.prefix_nil.mp hp) hne
    | append_singleton s b ih =>
      have hs := ih fun pre hp => hq pre (hp.trans (List.prefix_append _ _))
      obtain ⟨hl, hn⟩ := ((h.of_silent hs).quiet_byte_iff b).mp (hq _ (List.prefix_refl _))
      exact hs.snoc hl hn
  · intro hs pre hp
    have hw : Waiting (d ++ pre) (x.handleAll fb conn (bytewise pre)) :=
      h.of_silent (hs.of_piece hp)
    exact ⟨hw.connected, by simp [hw.queue]⟩

end

theorem nextFrame_more_iff {verifies : List UInt8 → Bool} {s : List UInt8} (h4 : 4 ≤ s.length) :
    nextFrame verifies s = .more ↔ ofBE32 s ≤ maxFrameSize ∧ s.length < 4 + ofBE32 s := by
  constructor
  · intro h
    rcases frame_cases s with hc | ⟨-, hn⟩ | ⟨-, hn, hs⟩ | ⟨hn, hs⟩
    · omega
    · simp [nextFrame_large h4 hn] at h
    · exact ⟨hn, hs⟩
    · rw [nextFrame_full hn hs] at h
      split at h <;> simp at h
  · rintro ⟨hn, hs⟩
    exact nextFrame_pending h4 hn hs

theorem le_ofBE32_of_short {r : List UInt8} (hpos : 0 < r.length) (h : r.length < 4) :
    255 ≤ ofBE32 (r ++ [255, 255, 255]) := by
  match r with
  | [] => simp at hpos
  | [a] => show 255 ≤ 16777216 * a.toNat + 65536 * 255 + 256 * 255 + 255; omega
  | [a, b] => show 255 ≤ 16777216 * a.toNat + 65536 * b.toNat + 256 * 255 + 255; omega
  | [a, b, c] => show 255 ≤ 16777216 * a.toNat + 65536 * b.toNat + 256 * c.toNat + 255; omega
  | _ :: _ :: _ :: _ :: _ => simp at h; omega

/-- Whatever is left behind, four bytes behind it cannot fare as they do on their own: if the
length `00000100` still waits for its payload, then so does the length `FFFFFFFF`. -/
theorem residue_hides_length {verifies : List UInt8 → Bool} {r : List UInt8} (hr : r ≠ [])
    (h3 : nextFrame verifies (r ++ [255, 255, 255]) = .more)
    (h4 : nextFrame verifies (r ++ [0, 0, 1, 0]) = .more) :
    nextFrame verifies (r ++ [255, 255, 255, 255]) = .more := by
  have hpos : 0 < r.length := List.length_pos_iff.mpr hr
  have hsplit : r ++ [255, 255, 255, 255] = r ++ [255, 255, 255] ++ [255] := by simp
  obtain ⟨hn, -⟩ := (nextFrame_more_iff (by simp; omega)).mp h3
  have hsame : ofBE32 (r ++ [255, 255, 255, 255]) = ofBE32 (r ++ [255, 255, 255]) := by
    rw [hsplit]
    exact ofBE32_append _ (by simp; omega)
  rw [nextFrame_more_iff (by simp), hsame]
  refine ⟨hn, ?_⟩
  by_cases hlong : 4 ≤ r.length
  · -- the length field lies in `r`, so both streams complete the same payload
    obtain ⟨-, hs⟩ := (nextFrame_more_iff (by simp)).mp h4
    rw [ofBE32_append _ hlong] at hs ⊢
    simpa using hs
  · -- the last byte of the length field is `FF`, and at most seven bytes are there
    have hlow := le_ofBE32_of_short hpos (Nat.not_le.mp hlong)
    simp only [List.length_append, List.length_cons, List.length_nil]
    omega

section
variable {fb : FlatBuffers} {slot : Slot} {history history' : List SlotEvent}

/-- The next connection after the chunks, and the bytes it shows. -/
theorem serve_quiet (x : PooledSlot) (h : SocketHandle) (chunks : List (List UInt8)) :
    Quiet ((x.next fb slot h).handleAll fb
        ⟨slot, (x.step fb slot (.setupClient h)).epoch⟩ chunks) ↔
      x.serve fb slot h chunks = ([], true) := by
  simp only [Quiet, PooledSlot.serve, Prod.mk.injEq]
  exact and_comm

theorem waiting_next (hfree : (PooledSlot.after fb slot history).client.isConnected = false)
    (h : SocketHandle) :
    Waiting (residue fb history) ((PooledSlot.after fb slot history).next fb slot h) where
  posted := rfl
  connected := connected_next hfree h
  data := data_next history h
  queue := rfl

/-- What the next connection shows tells which bytes its predecessors left silent. -/
theorem silent_iff_serve (hfree : (PooledSlot.after fb slot history).client.isConnected = false)
    (h : SocketHandle) (s : List UInt8) :
    Silent fb (residue fb history) s ↔
      ∀ pre, pre <+: s →
        (PooledSlot.after fb slot history).serve fb slot h (bytewise pre) = ([], true) := by
  rw [← (waiting_next hfree h).quiet_all_iff]
  exact forall₂_congr fun pre _ => serve_quiet _ h (bytewise pre)

theorem silent_short {s : List UInt8} (hs : s.length < 4) : Silent fb [] s := by
  intro pre hp _
  have hl : pre.length ≤ s.length := hp.length_le
  exact ⟨by simp [maxFrameSize]; omega, nextFrame_short (by simp; omega)⟩

/-- A slot that behaves like an unused one has nothing left over: the streams `00000100` and
`FFFFFFFF`, fed byte by byte, would show it. -/
theorem residue_eq_nil (hfree : (PooledSlot.after fb slot history).client.isConnected = false)
    (h : SocketHandle)
    (heq : ∀ chunks, (PooledSlot.after fb slot history).serve fb slot h chunks =
      (PooledSlot.after fb slot []).serve fb slot h chunks) : residue fb history = [] := by
  have hsame : ∀ s, Silent fb (residue fb history) s ↔ Silent fb [] s := by
    intro s
    rw [silent_iff_serve hfree h]
    simp only [heq]
    exact (@silent_iff_serve fb slot [] rfl h s).symm
  have h4 : Silent fb [] [0, 0, 1, 0] := by
    have hs : Silent fb [] [0, 0, 1] := silent_short (by decide)
    exact hs.snoc (by decide) (nextFrame_pending (by decide) (by decide) (by decide))
  by_contra hr
  have h3 : Silent fb (residue fb history) [255, 255, 255] :=
    (hsame _).mpr (silent_short (by decide))
  obtain ⟨-, hn3⟩ := h3 _ (List.prefix_refl _) (by simp)
  obtain ⟨hl, hn4⟩ := (hsame _).mpr h4 _ (List.prefix_refl _) (by simp)
  have hall : Silent fb [] [255, 255, 255, 255] :=
    (hsame _).mp (h3.snoc hl (residue_hides_length hr hn3 hn4))
  obtain ⟨-, hbad⟩ := hall _ (List.prefix_refl _) (by simp)
  rw [List.nil_append, nextFrame_large (by decide) (by decide)] at hbad
  cases hbad

end

/-- A new connection does not notice the history of its slot: it pushes and closes as on a slot
that was never used. -/
def Unnoticed (fb : FlatBuffers) (slot : Slot) (history : List SlotEvent) : Prop :=
  ∀ acceptSocket chunks, (PooledSlot.after fb slot history).serve fb slot acceptSocket chunks =
    (PooledSlot.after fb slot []).serve fb slot acceptSocket chunks

/-- **What a slot carries over.** The history of a free slot goes unnoticed exactly when the
bytes received in it leave nothing undecoded; any two such histories, followed by the same
bytes, push the same payloads and close at the same point. -/
theorem history_unnoticed_iff (fb : FlatBuffers) (slot : Slot) (history : List SlotEvent)
    (hfree : (PooledSlot.after fb slot history).client.isConnected = false) :
    (Unnoticed fb slot history ↔ residue fb history = []) ∧
    ∀ history', (PooledSlot.after fb slot history').client.isConnected = false →
      residue fb history = [] → residue fb history' = [] → ∀ acceptSocket chunks,
        (PooledSlot.after fb slot history).serve fb slot acceptSocket chunks =
          (PooledSlot.after fb slot history').serve fb slot acceptSocket chunks := by
  refine ⟨⟨fun h => residue_eq_nil hfree 0 (h 0), fun hr acceptSocket chunks => ?_⟩, ?_⟩
  · have hnil : residue fb [] = [] := rfl
    exact serve_eq_of_residue_eq hfree rfl (hr.trans hnil.symm) acceptSocket chunks
  · intro history' hfree' hr hr' acceptSocket chunks
    exact serve_eq_of_residue_eq hfree hfree' (hr.trans hr'.symm) acceptSocket chunks

/-- A connection that sent one whole packet and left is not noticed. -/
theorem history_unnoticed_whole_packet :
    Unnoticed sample 0 [.setupClient 4, .receive (frameBytes leaveBytes), .close] :=
  (history_unnoticed_iff sample 0 _ rfl).1.mpr (by decide +kernel)

/-- A connection that left in the middle of a header breaks the first packet of the next one. -/
theorem half_header_noticed :
    (PooledSlot.after sample 0 [.setupClient 4, .receive [0, 0], .close]).client.isConnected =
        false ∧
      (PooledSlot.after sample 0 []).client.isConnected = false ∧
      (PooledSlot.after sample 0 []).serve sample 0 5 [frameBytes leaveBytes] =
        ([leaveBytes], true) ∧
      (PooledSlot.after sample 0 [.setupClient 4, .receive [0, 0], .close]).serve sample 0 5
        [frameBytes leaveBytes] = ([], false) := by
  refine ⟨by decide +kernel, rfl, by decide +kernel, by decide +kernel⟩

end Highp.Network
