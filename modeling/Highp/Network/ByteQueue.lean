import Highp.Lib.Object
import Highp.Network.FrameBuffer

/-! A `FrameBuffer` is a queue of at most `Const::Buffer::maxFrameSize` bytes. The queue
knows nothing of offsets, moved memory or `size_t`. -/

namespace Highp.Network
open Highp.Lib

/-! ## The queue -/

namespace ByteQueue
variable {β : Type*}

/-- The calls that change a buffer. -/
inductive Call (β : Type*)
  | append (data : List β)
  | consume (n : Nat)

/-- A queue with room for `cap` elements. A call of `Consume` has nothing to answer. -/
def object (cap : Nat) : Object (List β) (Call β) (Option Bool)
  | q, .append data =>
    if q.length + data.length ≤ cap then (some true, q ++ data) else (some false, q)
  | q, .consume n => (none, q.drop (min n q.length))

end ByteQueue

namespace FrameBuffer
open ByteQueue

/-- `Size()`. -/
def size (f : FrameBuffer) : Nat := f.len

/-- The member functions as answers to calls. -/
def object : Object FrameBuffer (Call UInt8) (Option Bool)
  | f, .append data => (some (f.append data).1, (f.append data).2)
  | f, .consume n => (none, f.consume n)

/-- The first `_len` cells hold the queue `q`. -/
structure Holds (f : FrameBuffer) (q : List UInt8) : Prop where
  len : f.len = q.length
  cells : ∀ i (h : i < f.len), q[i]? = some (f.buf ⟨i, Nat.lt_of_lt_of_le h f.len_le⟩)

theorem holds_iff {f : FrameBuffer} {q : List UInt8} : f.Holds q ↔ f.data = q := by
  constructor
  · rintro ⟨hl, hc⟩
    apply List.ext_getElem?
    intro i
    by_cases hi : i < f.len
    · have hd : i < f.data.length := by simpa using hi
      rw [hc i hi, List.getElem?_eq_getElem hd]
      exact congrArg some (f.buf.getElem_view f.len f.len_le i hd)
    · rw [List.getElem?_eq_none (by simpa using hi), List.getElem?_eq_none (by omega)]
  · rintro rfl
    refine ⟨f.length_data.symm, ?_⟩
    intro i hi
    have hd : i < f.data.length := by simpa using hi
    rw [List.getElem?_eq_getElem hd]
    exact congrArg some (f.buf.getElem_view f.len f.len_le i hd)

theorem empty_holds : empty.Holds [] := ⟨rfl, fun _ h => absurd h (Nat.not_lt_zero _)⟩

/-- Bytes that fit follow the old ones. -/
theorem Holds.append {f : FrameBuffer} {q d : List UInt8} (h : f.Holds q)
    (hd : q.length + d.length ≤ maxFrameSize) :
    (f.append d).1 = true ∧ (f.append d).2.Holds (q ++ d) := by
  obtain ⟨ha, hq⟩ := append_ok (f := f) (d := d) (by rw [h.len]; exact hd)
  exact ⟨ha, holds_iff.mpr (by rw [hq, holds_iff.mp h])⟩

/-- Bytes that do not fit are refused, however many they are. -/
theorem Holds.append_refused {f : FrameBuffer} {q d : List UInt8} (h : f.Holds q)
    (hd : ¬ q.length + d.length ≤ maxFrameSize) : f.append d = (false, f) :=
  append_overflow (by rw [h.len]; exact Nat.not_le.mp hd)

theorem Holds.consume {f : FrameBuffer} {q : List UInt8} (h : f.Holds q) (n : Nat) :
    (f.consume n).Holds (q.drop (min n q.length)) := by
  rw [holds_iff, data_consume, holds_iff.mp h]
  rcases Nat.le_total n q.length with hn | hn
  · rw [Nat.min_eq_left hn]
  · rw [Nat.min_eq_right hn, List.drop_of_length_le hn, List.drop_length]

theorem object_simulates :
    Object.Simulates Holds object (ByteQueue.object maxFrameSize) := by
  intro f q h c
  cases c with
  | append d =>
    by_cases hd : q.length + d.length ≤ maxFrameSize
    · obtain ⟨ha, hq⟩ := h.append hd
      simp only [object, ByteQueue.object, if_pos hd, ha]
      exact ⟨trivial, hq⟩
    · simp only [object, ByteQueue.object, if_neg hd, h.append_refused hd]
      exact ⟨trivial, h⟩
  | consume n => exact ⟨rfl, h.consume n⟩

/-- **Refinement.** After any calls on a fresh buffer it has answered like the queue and
holds what the queue holds, and the next call does so too, whatever its argument is. -/
theorem refines_queue (cs : List (Call UInt8)) :
    let f := (object.run empty cs).2
    let q := ((ByteQueue.object maxFrameSize).run [] cs).2
    (object.run empty cs).1 = ((ByteQueue.object maxFrameSize).run [] cs).1 ∧
      f.Holds q ∧ f.data = q ∧ f.size = q.length ∧ f.len ≤ maxFrameSize ∧
      (∀ d, q.length + d.length ≤ maxFrameSize →
        (f.append d).1 = true ∧ (f.append d).2.Holds (q ++ d)) ∧
      (∀ d, ¬ q.length + d.length ≤ maxFrameSize → f.append d = (false, f)) ∧
      ∀ n, (f.consume n).Holds (q.drop (min n q.length)) := by
  intro f q
  obtain ⟨ha, hq⟩ := object_simulates.run empty_holds cs
  exact ⟨ha, hq, holds_iff.mp hq, hq.len, f.len_le, fun _ hd => hq.append hd,
    fun _ hd => hq.append_refused hd, fun n => hq.consume n⟩

end FrameBuffer
end Highp.Network
