import Mathlib.Algebra.Group.Nat.Defs
import Highp.Lib.Memory

/-! The compile-time constants of the network library and `FrameBuffer`, the fixed array in
which the bytes of a connection wait until they make up a frame. -/

namespace Highp.Network
open Highp.Lib

/-! ## `Const::Buffer` -/

def recvBufferSize : Nat := 4096
def sendBufferSize : Nat := 1024
def maxFrameSize : Nat := 65536

/-- Subtraction of `size_t`, which wraps. -/
def sizeSub (a b : Nat) : Nat := (a + 2 ^ 64 - b) % 2 ^ 64

theorem sizeSub_eq {a b : Nat} (h : b ≤ a) (ha : a < 2 ^ 64) : sizeSub a b = a - b := by
  have he : a + 2 ^ 64 - b = (a - b) + 2 ^ 64 := by omega
  rw [sizeSub, he, Nat.add_mod_right, Nat.mod_eq_of_lt (by omega)]

/-! ## `FrameBuffer` -/

/-- `_buf` and `_len`; only the first `_len` bytes mean anything. -/
structure FrameBuffer where
  buf : Block maxFrameSize UInt8
  len : Nat
  len_le : len ≤ maxFrameSize

namespace FrameBuffer

def empty : FrameBuffer := ⟨fun _ => 0, 0, Nat.zero_le _⟩

/-- `Data()`. -/
def data (f : FrameBuffer) : List UInt8 := f.buf.view f.len f.len_le

/-- The test in front of the `memcpy` of `Append`. The second disjunct is evaluated only
when the first is false, so its subtraction does not wrap. -/
def overflows (f : FrameBuffer) (data : List UInt8) : Bool :=
  decide (data.length > maxFrameSize) || decide (f.len > sizeSub maxFrameSize data.length)

theorem overflows_eq_false (f : FrameBuffer) (data : List UInt8) :
    f.overflows data = false ↔ f.len + data.length ≤ maxFrameSize := by
  simp only [overflows, Bool.or_eq_false_iff, decide_eq_false_iff_not]
  constructor
  · rintro ⟨hd, hl⟩
    rw [sizeSub_eq (by omega) (by decide)] at hl
    omega
  · intro h
    refine ⟨by omega, ?_⟩
    rw [sizeSub_eq (by omega) (by decide)]
    omega

/-- `Append(data)`: the result and the buffer afterwards. -/
def append (f : FrameBuffer) (data : List UInt8) : Bool × FrameBuffer :=
  if h : f.overflows data = false then
    (true, ⟨f.buf.copyIn f.len data, f.len + data.length, (f.overflows_eq_false data).mp h⟩)
  else (false, f)

/-- `Consume(bytesTransferred)`. -/
def consume (f : FrameBuffer) (bytesTransferred : Nat) : FrameBuffer :=
  if bytesTransferred ≥ f.len then ⟨f.buf, 0, Nat.zero_le _⟩
  else ⟨f.buf.moveDown bytesTransferred (f.len - bytesTransferred), f.len - bytesTransferred,
    Nat.le_trans (Nat.sub_le _ _) f.len_le⟩

@[simp] theorem length_data (f : FrameBuffer) : f.data.length = f.len := by simp [data]

theorem data_eq_nil {f : FrameBuffer} : f.data = [] ↔ f.len = 0 := by
  rw [← List.length_eq_zero_iff, length_data]

/-- `Append` succeeds exactly when the bytes fit, and then they follow the old ones. -/
theorem append_ok {f : FrameBuffer} {d : List UInt8} (h : f.len + d.length ≤ maxFrameSize) :
    (f.append d).1 = true ∧ (f.append d).2.data = f.data ++ d := by
  rw [append, dif_pos ((f.overflows_eq_false d).mpr h)]
  exact ⟨rfl, f.buf.view_copyIn f.len d h⟩

/-- A refused `Append` changes nothing. -/
theorem append_overflow {f : FrameBuffer} {d : List UInt8}
    (h : maxFrameSize < f.len + d.length) : f.append d = (false, f) := by
  rw [append, dif_neg]
  intro ho
  exact absurd ((f.overflows_eq_false d).mp ho) (Nat.not_le.mpr h)

/-- `Consume` drops bytes from the front; the overlapping move keeps the others in order. -/
@[simp] theorem data_consume (f : FrameBuffer) (n : Nat) :
    (f.consume n).data = f.data.drop n := by
  unfold consume
  split
  · rename_i h
    rw [List.drop_eq_nil_of_le (by simpa using h)]
    exact data_eq_nil.mpr rfl
  · rename_i h
    exact f.buf.view_moveDown n f.len (by omega) f.len_le

end FrameBuffer
end Highp.Network
