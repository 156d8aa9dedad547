import Mathlib.Data.List.Basic

/-! Incremental decoding of a stream of frames. A `Framer` looks at the bytes collected so
far and asks for more, rejects them, or cuts off one frame; its laws say that cutting off
makes progress and that more bytes behind a frame do not change it. Decoding chunk by chunk
then agrees with decoding the concatenation. -/

namespace Highp.Lib

/-- The verdict on a byte string. A rejected string also leaves something behind. -/
inductive Next (β φ : Type*)
  | more
  | fail (rest : List β)
  | emit (frame : φ) (rest : List β)

structure Framer (β φ : Type*) where
  next : List β → Next β φ
  emit_lt : ∀ {s f r}, next s = .emit f r → r.length < s.length
  emit_append : ∀ {s f r} t, next s = .emit f r → next (s ++ t) = .emit f (r ++ t)

structure Decoded (β φ : Type*) where
  frames : List φ
  rest : List β
  failed : Bool

/-- Put the frames `fs` in front of a decoding. -/
def Decoded.after {β φ : Type*} (fs : List φ) (d : Decoded β φ) : Decoded β φ :=
  ⟨fs ++ d.frames, d.rest, d.failed⟩

namespace Framer
variable {β φ : Type*} (F : Framer β φ)

/-- At most `k` rounds of cutting off frames. -/
def decodeN : Nat → List β → Decoded β φ
  | 0, s => ⟨[], s, false⟩
  | k + 1, s =>
    match F.next s with
    | .more => ⟨[], s, false⟩
    | .fail r => ⟨[], r, true⟩
    | .emit f r => (decodeN k r).after [f]

/-- Every frame shortens the string, so its length bounds the rounds. -/
def decode (s : List β) : Decoded β φ := F.decodeN (s.length + 1) s

theorem decodeN_fuel {k k' : Nat} {s : List β} (h : s.length < k) (h' : s.length < k') :
    F.decodeN k s = F.decodeN k' s := by
  induction k generalizing k' s with
  | zero => omega
  | succ k ih =>
    obtain ⟨k', rfl⟩ : ∃ j, k' = j + 1 := ⟨k' - 1, by omega⟩
    cases hn : F.next s with
    | more => simp [decodeN, hn]
    | fail r => simp [decodeN, hn]
    | emit f r =>
      have hr := F.emit_lt hn
      simp only [decodeN, hn, ih (show r.length < k by omega) (show r.length < k' by omega)]

theorem decodeN_eq {k : Nat} {s : List β} (h : s.length < k) : F.decodeN k s = F.decode s :=
  F.decodeN_fuel h (Nat.lt_succ_self _)

theorem decode_more {s : List β} (h : F.next s = .more) : F.decode s = ⟨[], s, false⟩ := by
  simp [decode, decodeN, h]

theorem decode_fail {s r : List β} (h : F.next s = .fail r) : F.decode s = ⟨[], r, true⟩ := by
  simp [decode, decodeN, h]

theorem decode_emit {s r : List β} {f : φ} (h : F.next s = .emit f r) :
    F.decode s = (F.decode r).after [f] := by
  have hr : F.decodeN s.length r = F.decode r := F.decodeN_eq (F.emit_lt h)
  rw [decode, decodeN, h]
  exact congrArg (Decoded.after [f]) hr

/-- Induction along the frames of a string. -/
theorem decode_induction {P : List β → Prop} (s : List β)
    (more : ∀ s, F.next s = .more → P s)
    (fail : ∀ s r, F.next s = .fail r → P s)
    (emit : ∀ s f r, F.next s = .emit f r → P r → P s) : P s := by
  induction hn : s.length using Nat.strongRecOn generalizing s with
  | _ n ih =>
    cases h : F.next s with
    | more => exact more s h
    | fail r => exact fail s r h
    | emit f r => exact emit s f r h (ih r.length (hn ▸ F.emit_lt h) r rfl)

/-- **Compositionality.** What was decoded stays decoded, and the undecoded rest is taken
up together with the new bytes. -/
theorem decode_append {s : List β} (t : List β) (h : (F.decode s).failed = false) :
    F.decode (s ++ t) = (F.decode ((F.decode s).rest ++ t)).after (F.decode s).frames := by
  induction s using F.decode_induction with
  | more s hn => simp [F.decode_more hn, Decoded.after]
  | fail s r hn => simp [F.decode_fail hn] at h
  | emit s f r hn ih =>
    rw [F.decode_emit hn] at h ⊢
    rw [F.decode_emit (F.emit_append t hn), ih h]
    simp [Decoded.after]

end Framer

/-! ## Blocks in a stream -/

/-- The blocks occur in the stream, one behind the other. -/
inductive InTurn {β : Type*} : List (List β) → List β → Prop
  | nil (stream : List β) : InTurn [] stream
  | cons {blocks : List (List β)} {rest : List β} (gap block : List β) :
      InTurn blocks rest → InTurn (block :: blocks) (gap ++ (block ++ rest))

namespace InTurn
variable {β : Type*} {blocks : List (List β)} {stream : List β}

theorem append_right (h : InTurn blocks stream) (more : List β) :
    InTurn blocks (stream ++ more) := by
  induction h with
  | nil stream => exact .nil _
  | cons gap block _ ih =>
    rw [List.append_assoc, List.append_assoc]
    exact .cons gap block ih

theorem append_left (h : InTurn blocks stream) (gap : List β) :
    InTurn blocks (gap ++ stream) := by
  cases h with
  | nil stream => exact .nil _
  | cons gap' block h =>
    rw [← List.append_assoc]
    exact .cons (gap ++ gap') block h

theorem snoc (h : InTurn blocks stream) (block : List β) :
    InTurn (blocks ++ [block]) (stream ++ block) := by
  induction h with
  | nil stream => simpa using InTurn.cons stream block (.nil [])
  | cons gap first _ ih =>
    rw [List.append_assoc, List.append_assoc]
    exact .cons gap first ih

/-- Leaving blocks out keeps the others in order. -/
theorem sublist {blocks' : List (List β)} (h : InTurn blocks stream)
    (hsub : blocks'.Sublist blocks) : InTurn blocks' stream := by
  induction h generalizing blocks' with
  | nil stream =>
    rw [List.sublist_nil.mp hsub]
    exact .nil _
  | cons gap block _ ih =>
    cases hsub with
    | cons _ hsub => exact ((ih hsub).append_left block).append_left gap
    | cons_cons _ hsub => exact .cons gap block (ih hsub)

/-- A stream has room for the blocks that occur in it. -/
theorem length_le (h : InTurn blocks stream) : blocks.flatten.length ≤ stream.length := by
  induction h with
  | nil stream => simp
  | cons gap block _ ih =>
    simp only [List.flatten_cons, List.length_append]
    omega

end InTurn
end Highp.Lib
