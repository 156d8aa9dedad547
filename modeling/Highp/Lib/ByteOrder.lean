import Mathlib.Algebra.Group.Nat.Defs
import Mathlib.Data.List.Basic

/-! 32-bit words in memory and on the wire. A little-endian machine loads and stores words
low byte first; `byteSwap32` is its conversion to and from network order. -/

namespace Highp.Lib

/-- The word that a little-endian load of the first four bytes gives. -/
def loadLE32 : List UInt8 → Nat
  | b₀ :: b₁ :: b₂ :: b₃ :: _ =>
    b₀.toNat + 256 * b₁.toNat + 65536 * b₂.toNat + 16777216 * b₃.toNat
  | _ => 0

/-- The four bytes that a little-endian store of `x` writes. -/
def storeLE32 (x : Nat) : List UInt8 :=
  [x % 256, x / 256 % 256, x / 65536 % 256, x / 16777216 % 256].map UInt8.ofNat

/-- `htonl` and `ntohl` on a little-endian machine. -/
def byteSwap32 (x : Nat) : Nat :=
  x % 256 * 16777216 + x / 256 % 256 * 65536 + x / 65536 % 256 * 256 + x / 16777216 % 256

/-- The number written big-endian in the first four bytes. -/
def ofBE32 : List UInt8 → Nat
  | b₀ :: b₁ :: b₂ :: b₃ :: _ =>
    16777216 * b₀.toNat + 65536 * b₁.toNat + 256 * b₂.toNat + b₃.toNat
  | _ => 0

@[simp] theorem length_storeLE32 (x : Nat) : (storeLE32 x).length = 4 := rfl

theorem byteSwap32_load (s : List UInt8) : byteSwap32 (loadLE32 s) = ofBE32 s := by
  match s with
  | b₀ :: b₁ :: b₂ :: b₃ :: _ =>
    have h₀ := b₀.toNat_lt
    have h₁ := b₁.toNat_lt
    have h₂ := b₂.toNat_lt
    have h₃ := b₃.toNat_lt
    simp only [loadLE32, byteSwap32, ofBE32]
    omega
  | [] | [_] | [_, _] | [_, _, _] => simp [loadLE32, byteSwap32, ofBE32]

theorem ofBE32_append {s : List UInt8} (t : List UInt8) (h : 4 ≤ s.length) :
    ofBE32 (s ++ t) = ofBE32 s := by
  match s with
  | _ :: _ :: _ :: _ :: _ => rfl
  | [] | [_] | [_, _] | [_, _, _] => simp at h

private theorem byteSwap32_digits {a b c d : Nat} (ha : a < 256) (hb : b < 256) (hc : c < 256)
    (hd : d < 256) : byteSwap32 (a + 256 * b + 65536 * c + 16777216 * d) =
      d + 256 * c + 65536 * b + 16777216 * a := by
  unfold byteSwap32
  omega

private theorem ofBE32_digits {a b c d : Nat} (ha : a < 256) (hb : b < 256) (hc : c < 256)
    (hd : d < 256) (t : List UInt8) :
    ofBE32 (storeLE32 (d + 256 * c + 65536 * b + 16777216 * a) ++ t) =
      16777216 * d + 65536 * c + 256 * b + a := by
  simp only [storeLE32, List.map_cons, List.map_nil, List.cons_append, List.nil_append, ofBE32,
    UInt8.toNat_ofNat']
  omega

/-- Storing the swapped word writes the number big-endian. -/
theorem ofBE32_store (x : Nat) (h : x < 2 ^ 32) (t : List UInt8) :
    ofBE32 (storeLE32 (byteSwap32 x) ++ t) = x := by
  have hx : x = x % 256 + 256 * (x / 256 % 256) + 65536 * (x / 65536 % 256) +
      16777216 * (x / 16777216) := by omega
  rw [hx, byteSwap32_digits (by omega) (by omega) (by omega) (by omega),
    ofBE32_digits (by omega) (by omega) (by omega) (by omega)]
  omega

private theorem digits_eq {a b c d : Nat} (ha : a < 256) (hb : b < 256) (hc : c < 256)
    (hd : d < 256) : let x := a + 256 * b + 65536 * c + 16777216 * d
    x % 256 = a ∧ x / 256 % 256 = b ∧ x / 65536 % 256 = c ∧ x / 16777216 % 256 = d := by
  intro x
  have h₁ : x / 256 = b + 256 * c + 65536 * d := by omega
  have h₂ : x / 65536 = c + 256 * d := by omega
  have h₃ : x / 16777216 = d := by omega
  refine ⟨?_, ?_, ?_, ?_⟩
  · omega
  · omega
  · omega
  · omega

/-- Storing what was loaded big-endian gives the bytes back. -/
theorem storeLE32_ofBE32 {s : List UInt8} (h : 4 ≤ s.length) :
    storeLE32 (byteSwap32 (ofBE32 s)) = s.take 4 := by
  match s with
  | b₀ :: b₁ :: b₂ :: b₃ :: rest =>
    have hword : ofBE32 (b₀ :: b₁ :: b₂ :: b₃ :: rest) =
        b₃.toNat + 256 * b₂.toNat + 65536 * b₁.toNat + 16777216 * b₀.toNat := by
      simp only [ofBE32]
      omega
    obtain ⟨hd₀, hd₁, hd₂, hd₃⟩ := digits_eq b₀.toNat_lt b₁.toNat_lt b₂.toNat_lt b₃.toNat_lt
    rw [hword, byteSwap32_digits b₃.toNat_lt b₂.toNat_lt b₁.toNat_lt b₀.toNat_lt, storeLE32, hd₀,
      hd₁, hd₂, hd₃]
    simp
  | [] | [_] | [_, _] | [_, _, _] => simp at h

end Highp.Lib
