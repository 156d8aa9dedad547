import Highp.Network.Segmentation

/-! Which legal streams get through. `Receive` checks a payload against `maxFrameSize`, but the
frame buffer has `maxFrameSize` bytes for the header, the payload and whatever the same
receive brings behind it. -/

namespace Highp.Network
open Highp.Lib

/-- How many bytes of an unfinished frame precede offset `off` of the stream. -/
def pendingAt : List (List UInt8) → Nat → Nat
  | [], off => off
  | p :: ps, off => if off < 4 + p.length then off else pendingAt ps (off - (4 + p.length))

/-- Every receive fits the buffer together with the unfinished frame in front of it. -/
def Fits (payloads chunks : List (List UInt8)) : Prop :=
  ∀ pre c post, chunks = pre ++ c :: post →
    pendingAt payloads pre.flatten.length + c.length ≤ maxFrameSize

/-- A payload within the limit that both ends check, and that verifies. -/
def Legal (fb : FlatBuffers) (payload : List UInt8) : Prop :=
  payload.length ≤ maxFrameSize ∧ parses fb payload = true

section
variable {fb : FlatBuffers} {p s t u : List UInt8} {payloads chunks : List (List UInt8)}

theorem ofBE32_frameBytes (h : p.length ≤ maxFrameSize) (t : List UInt8) :
    ofBE32 (frameBytes p ++ t) = p.length := by
  have hlt : p.length < 2 ^ 32 := Nat.lt_of_le_of_lt h (by decide)
  rw [frameBytes, List.append_assoc]
  exact ofBE32_store p.length hlt (p ++ t)

/-- A legal frame is cut off whole. -/
theorem nextFrame_frameBytes (h : Legal fb p) (t : List UInt8) :
    nextFrame (parses fb) (frameBytes p ++ t) = .emit p t := by
  have hn := ofBE32_frameBytes h.1 t
  have hd : (frameBytes p ++ t).drop 4 = p ++ t := by
    rw [frameBytes, List.append_assoc]
    rfl
  have hr : (frameBytes p ++ t).drop (4 + p.length) = t := by
    rw [← List.drop_drop, hd, List.drop_left]
  rw [nextFrame_full (by rw [hn]; exact h.1) (by rw [hn]; simp), hn, hd, hr, List.take_left,
    if_pos h.2]

/-- Whatever is cut off as a frame is one, as it goes over the wire. -/
theorem nextFrame_emit_eq {verifies : List UInt8 → Bool} {r : List UInt8}
    (h : nextFrame verifies s = .emit p r) : s = frameBytes p ++ r := by
  rcases frame_cases s with hc | ⟨h4, hn⟩ | ⟨h4, hn, hs⟩ | ⟨hn, hs⟩
  · simp [nextFrame_short hc] at h
  · simp [nextFrame_large h4 hn] at h
  · simp [nextFrame_pending h4 hn hs] at h
  · rw [nextFrame_full hn hs] at h
    split at h
    · simp only [Next.emit.injEq] at h
      obtain ⟨rfl, rfl⟩ := h
      have hlen : ((s.drop 4).take (ofBE32 s)).length = ofBE32 s := by
        simp only [List.length_take, List.length_drop]
        omega
      rw [frameBytes, hlen, storeLE32_ofBE32 (by omega), List.append_assoc, ← List.drop_drop,
        List.take_append_drop, List.take_append_drop]
    · simp at h

/-- The part of a legal frame that has arrived is still waited for. -/
theorem nextFrame_part (h : Legal fb p) (hs : s.length < 4 + p.length)
    (he : frameBytes p ++ t = s ++ u) : nextFrame (parses fb) s = .more := by
  by_cases h4 : s.length < 4
  · exact nextFrame_short h4
  · have hn : ofBE32 s = p.length := by
      rw [← ofBE32_append u (by omega), ← he, ofBE32_frameBytes h.1]
    exact nextFrame_pending (by omega) (hn ▸ h.1) (hn ▸ hs)

/-- Every initial piece of a legal stream decodes without failure and leaves exactly the
unfinished frame behind. -/
theorem decode_piece (hlegal : ∀ p ∈ payloads, Legal fb p) (h : wire payloads = s ++ t) :
    (decode (parses fb) s).failed = false ∧
      (decode (parses fb) s).rest.length = pendingAt payloads s.length := by
  induction payloads generalizing s with
  | nil =>
    have hs : s = [] := by
      simp [wire] at h
      exact h.1
    simp [hs, pendingAt]
  | cons p ps ih =>
    have hp := hlegal p (List.mem_cons_self ..)
    have he : frameBytes p ++ wire ps = s ++ t := by simpa [wire] using h
    by_cases hs : s.length < 4 + p.length
    · rw [decode_more (nextFrame_part hp hs he)]
      simp [pendingAt, hs]
    · obtain ⟨r, rfl⟩ : ∃ r, s = frameBytes p ++ r := by
        have hpre : frameBytes p <+: s :=
          List.prefix_of_prefix_length_le ⟨wire ps, he⟩ ⟨t, rfl⟩ (by simp; omega)
        exact hpre.imp fun r hr => hr.symm
      rw [List.append_assoc] at he
      obtain ⟨hf, hr⟩ := ih (fun q hq => hlegal q (List.mem_cons_of_mem _ hq))
        (List.append_cancel_left he)
      rw [decode_emit (nextFrame_frameBytes hp r)]
      refine ⟨hf, ?_⟩
      simpa [pendingAt, Decoded.after, Nat.not_lt.mpr, hs] using hr

/-- A whole legal stream decodes to its payloads. -/
theorem decode_wire (hlegal : ∀ p ∈ payloads, Legal fb p) :
    (decode (parses fb) (wire payloads)).frames = payloads := by
  induction payloads with
  | nil => simp [wire]
  | cons p ps ih =>
    have hw : wire (p :: ps) = frameBytes p ++ wire ps := by simp [wire]
    rw [hw, decode_emit (nextFrame_frameBytes (hlegal p (List.mem_cons_self ..)) _)]
    simpa [Decoded.after] using ih (fun q hq => hlegal q (List.mem_cons_of_mem _ hq))

end

/-- The client is never closed on the way, and one command per frame is pushed. -/
def Accepted (fb : FlatBuffers) (conn : Conn) (client : Client) (queue : List PacketCommand)
    (payloads chunks : List (List UInt8)) : Prop :=
  (∀ pre post, chunks = pre ++ post →
    ((RecvPath.start client queue).handleAll fb conn pre).client.isConnected = true) ∧
  Pushes conn queue ((RecvPath.start client queue).handleAll fb conn chunks).inbox.queue payloads

section
variable {fb : FlatBuffers} {conn : Conn} {client : Client} {queue : List PacketCommand}
  {payloads chunks pre post : List (List UInt8)} {c : List UInt8}

/-- In front of each receive, an open client holds the unfinished frame. -/
theorem pending_length (hopen : client.isConnected = true) (hempty : client.frameBuf.len = 0)
    (hlegal : ∀ p ∈ payloads, Legal fb p) (hcut : (pre ++ post).flatten = wire payloads)
    (ho : ((RecvPath.start client queue).handleAll fb conn pre).client.isConnected = true) :
    ((RecvPath.start client queue).handleAll fb conn pre).client.frameBuf.len =
      pendingAt payloads pre.flatten.length := by
  have h : RecvPath.Follows fb conn queue pre _ :=
    RecvPath.follows_handleAll client hopen hempty pre
  rw [List.flatten_append] at hcut
  rw [← FrameBuffer.length_data, h.rest ho, h.appended ho, (decode_piece hlegal hcut.symm).2]

theorem fits_of_accepted (hopen : client.isConnected = true) (hempty : client.frameBuf.len = 0)
    (hlegal : ∀ p ∈ payloads, Legal fb p) (hcut : chunks.flatten = wire payloads)
    (h : Accepted fb conn client queue payloads chunks) : Fits payloads chunks := by
  rintro pre c post rfl
  have ho := h.1 pre (c :: post) rfl
  have ho' := h.1 (pre ++ [c]) post (by simp)
  have hf : RecvPath.Follows fb conn queue pre _ :=
    RecvPath.follows_handleAll client hopen hempty pre
  by_contra hc
  rw [← pending_length hopen hempty hlegal hcut ho] at hc
  rw [RecvPath.handleAll_snoc, (hf.overflow ho (by omega)).1] at ho'
  exact Bool.false_ne_true ho'

/-- A receive that fits keeps the client open: on a legal stream nothing else can close it. -/
theorem open_of_fits (hopen : client.isConnected = true) (hempty : client.frameBuf.len = 0)
    (hlegal : ∀ p ∈ payloads, Legal fb p) (hcut : (pre ++ c :: post).flatten = wire payloads)
    (ho : ((RecvPath.start client queue).handleAll fb conn pre).client.isConnected = true)
    (hc : pendingAt payloads pre.flatten.length + c.length ≤ maxFrameSize) :
    ((RecvPath.start client queue).handleAll fb conn (pre ++ [c])).client.isConnected = true := by
  have hf : RecvPath.Follows fb conn queue pre _ :=
    RecvPath.follows_handleAll client hopen hempty pre
  have hlen := pending_length hopen hempty hlegal hcut ho
  have hw : wire payloads = (pre.flatten ++ c) ++ post.flatten := by simp [← hcut]
  rw [RecvPath.handleAll_snoc, (hf.fits ho (by omega)).1, (decode_piece hlegal hw).1]
  rfl

theorem accepted_of_fits (hopen : client.isConnected = true) (hempty : client.frameBuf.len = 0)
    (hlegal : ∀ p ∈ payloads, Legal fb p) (hcut : chunks.flatten = wire payloads)
    (h : Fits payloads chunks) : Accepted fb conn client queue payloads chunks := by
  have hall : ∀ pre post, chunks = pre ++ post →
      ((RecvPath.start client queue).handleAll fb conn pre).client.isConnected = true := by
    intro pre
    induction pre using List.reverseRecOn with
    | nil =>
      intro _ _
      exact hopen
    | append_singleton pre c ih =>
      intro post he
      have he' : chunks = pre ++ c :: post := by simp [he]
      exact open_of_fits hopen hempty hlegal (he' ▸ hcut) (ih _ he') (h pre c post he')
  have ho := hall chunks [] (by simp)
  have hf : RecvPath.Follows fb conn queue chunks _ :=
    RecvPath.follows_handleAll client hopen hempty chunks
  have hp := hf.pushed
  rw [hf.appended ho, hcut, decode_wire hlegal] at hp
  exact ⟨hall, hp⟩

/-- Where the offset falls: at the end of the stream or inside one of its frames. -/
theorem pendingAt_lt (payloads : List (List UInt8)) (off : Nat)
    (h : off ≤ (wire payloads).length) :
    pendingAt payloads off = 0 ∨ ∃ p ∈ payloads, pendingAt payloads off < 4 + p.length := by
  induction payloads generalizing off with
  | nil => simpa [wire, pendingAt] using h
  | cons p ps ih =>
    by_cases ho : off < 4 + p.length
    · exact Or.inr ⟨p, List.mem_cons_self .., by simp [pendingAt, ho]⟩
    · have hw : (wire (p :: ps)).length = 4 + p.length + (wire ps).length := by simp [wire]
      rw [pendingAt, if_neg ho]
      rcases ih (off - (4 + p.length)) (by omega) with h0 | ⟨q, hq, hlt⟩
      · exact Or.inl h0
      · exact Or.inr ⟨q, List.mem_cons_of_mem _ hq, hlt⟩

/-- Payloads that leave room for one more receive fit however the stream is cut. -/
theorem fits_of_short (hcut : chunks.flatten = wire payloads)
    (hchunk : ∀ c ∈ chunks, c.length ≤ recvBufferSize)
    (hshort : ∀ p ∈ payloads, p.length + 3 + recvBufferSize ≤ maxFrameSize) :
    Fits payloads chunks := by
  rintro pre c post rfl
  have hc := hchunk c (by simp)
  have hlen : pre.flatten.length ≤ (wire payloads).length := by
    rw [← hcut]
    simp
  rcases pendingAt_lt payloads _ hlen with h0 | ⟨p, hp, hlt⟩
  · have : recvBufferSize ≤ maxFrameSize := by decide
    omega
  · have := hshort p hp
    omega

end

/-- **Which legal streams are accepted.** A stream of legal frames gets through, one command
per frame, exactly when every receive fits the buffer behind the frame it continues. -/
theorem legal_stream_accepted_iff (fb : FlatBuffers) (conn : Conn) (client : Client)
    (queue : List PacketCommand) (hopen : client.isConnected = true)
    (hempty : client.frameBuf.len = 0) (payloads chunks : List (List UInt8))
    (hlegal : ∀ p ∈ payloads, Legal fb p) (hcut : chunks.flatten = wire payloads) :
    Accepted fb conn client queue payloads chunks ↔ Fits payloads chunks :=
  ⟨fits_of_accepted hopen hempty hlegal hcut, accepted_of_fits hopen hempty hlegal hcut⟩

/-- Two frames in three receives, cut inside both headers. -/
theorem legal_stream_accepted_two_frames :
    Accepted sample ⟨0, 1⟩ connected [] [joinBytes, leaveBytes]
      [[0], [0, 0, 60] ++ joinBytes ++ [0, 0], [0, 44] ++ leaveBytes] := by
  have hcut : [[0], [0, 0, 60] ++ joinBytes ++ [0, 0], [0, 44] ++ leaveBytes].flatten =
      wire [joinBytes, leaveBytes] := rfl
  refine (legal_stream_accepted_iff sample ⟨0, 1⟩ connected [] rfl rfl _ _ ?_ hcut).mpr
    (fits_of_short hcut ?_ ?_)
  · intro p hp
    simp only [List.mem_cons, List.not_mem_nil, or_false] at hp
    rcases hp with rfl | rfl
    · exact ⟨by decide, rfl⟩
    · exact ⟨by decide, rfl⟩
  all_goals decide

/-- A message of the full `maxFrameSize`, cut into receives of at most `recvBufferSize`. -/
def longChatChunks : List (List UInt8) :=
  storeLE32 (byteSwap32 maxFrameSize) :: longChatHead ::
    List.replicate 15 (List.replicate recvBufferSize 97) ++
      [List.replicate (longChatLetters - 15 * recvBufferSize) 97 ++ longChatTail]

theorem length_longChatBytes : longChatBytes.length = maxFrameSize := by
  simp only [longChatBytes, List.length_append, List.length_replicate]
  rfl

theorem parses_longChatBytes : parses sample longChatBytes = true := by
  have hne : ∀ q : List UInt8, q.length < maxFrameSize → (longChatBytes == q) = false := by
    intro q hq
    rw [beq_eq_false_iff_ne]
    rintro rfl
    rw [length_longChatBytes] at hq
    exact Nat.lt_irrefl _ hq
  simp only [parses, parsePacket, sample, hne joinBytes (by decide), hne leaveBytes (by decide),
    hne joinedBytes (by decide), hne leftBytes (by decide), beq_self_eq_true, Bool.or_true,
    Bool.false_eq_true, ↓reduceIte, Option.isSome_some]

theorem flatten_longChatChunks : longChatChunks.flatten = wire [longChatBytes] := by
  have hs : longChatLetters = 15 * recvBufferSize + (longChatLetters - 15 * recvBufferSize) := rfl
  have hl : longChatBytes = longChatHead ++ (List.replicate (15 * recvBufferSize) 97 ++
      (List.replicate (longChatLetters - 15 * recvBufferSize) 97 ++ longChatTail)) := by
    rw [longChatBytes, hs, List.replicate_add, List.append_assoc, ← hs]
  simp only [longChatChunks, wire, frameBytes, length_longChatBytes, List.flatten_append,
    List.flatten_cons, List.flatten_replicate_replicate, List.map_cons, List.map_nil,
    List.flatten_nil, List.append_nil, List.append_assoc]
  rw [hl]

theorem longChatChunks_le : ∀ c ∈ longChatChunks, c.length ≤ recvBufferSize := by
  intro c hc
  simp only [longChatChunks, List.cons_append, List.mem_cons, List.mem_append,
    List.not_mem_nil, or_false] at hc
  rcases hc with rfl | rfl | hc | rfl
  · decide
  · decide
  · rw [List.eq_of_mem_replicate hc, List.length_replicate]
  · simp only [List.length_append, List.length_replicate]
    decide

/-- The message is legal and so is the cut, and yet the client is closed. -/
theorem full_frame_rejected :
    Legal sample longChatBytes ∧ longChatChunks.flatten = wire [longChatBytes] ∧
      (∀ c ∈ longChatChunks, c.length ≤ recvBufferSize) ∧
      ¬ Accepted sample ⟨0, 1⟩ connected [] [longChatBytes] longChatChunks := by
  have hlegal : Legal sample longChatBytes :=
    ⟨Nat.le_of_eq length_longChatBytes, parses_longChatBytes⟩
  refine ⟨hlegal, flatten_longChatChunks, longChatChunks_le, fun h => ?_⟩
  have hf := fits_of_accepted rfl rfl (by simpa using hlegal) flatten_longChatChunks h
  have hlast := hf (storeLE32 (byteSwap32 maxFrameSize) :: longChatHead ::
      List.replicate 15 (List.replicate recvBufferSize 97))
    (List.replicate (longChatLetters - 15 * recvBufferSize) 97 ++ longChatTail) []
    (by rw [longChatChunks])
  have hoff : 4 + (longChatHead.length + 15 * recvBufferSize) < 4 + longChatBytes.length := by
    rw [length_longChatBytes]
    decide
  rw [List.flatten_cons, List.flatten_cons, List.flatten_replicate_replicate, List.length_append,
    List.length_append, List.length_replicate, length_storeLE32, pendingAt, if_pos hoff,
    List.length_append, List.length_replicate] at hlast
  exact absurd hlast (by decide)

end Highp.Network
