import Mathlib.Data.Nat.ModEq
import Mathlib.Data.Fin.Basic
import Mathlib.Order.Defs.LinearOrder
import Highp.Network.Protocol

/-! `protocol::now()`. `NowInNs` casts the whole count of nanoseconds since the epoch of the
clock to `uint32_t`, where the field `nanos` beside `seconds` stands for the rest of a second. -/

namespace Highp.Network

/-- What `steady_clock` reads, in nanoseconds since its epoch. -/
abbrev Reading := Fin (2 ^ 63)

namespace Time

def nowInSec (t : Reading) : Nat := t.val / 10 ^ 9

/-- `static_cast<uint32_t>` of the whole count. -/
def nowInNs (t : Reading) : Nat := t.val % 2 ^ 32

end Time

/-- The two fields of `protocol::now()` come from two readings of the clock. -/
def now (forSec forNs : Reading) : Timestamp := ⟨Time.nowInSec forSec, Time.nowInNs forNs⟩

namespace Timestamp

/-- The fields are the seconds of `t` and the nanoseconds that remain. -/
def Splits (s : Timestamp) (t : Nat) : Prop := s.nanos < 10 ^ 9 ∧ s.seconds * 10 ^ 9 + s.nanos = t

/-- Seconds first, then nanoseconds. -/
def compare (s t : Timestamp) : Ordering :=
  (Ord.compare s.seconds t.seconds).then (Ord.compare s.nanos t.nanos)

end Timestamp

/-- The least common multiple of a second and of the range of `uint32_t`. -/
def nanosPeriod : Nat := 2 ^ 32 * 5 ^ 9

theorem nanosPeriod_eq : nanosPeriod = Nat.lcm (10 ^ 9) (2 ^ 32) := by decide +kernel

/-- The cast keeps the rest of the second exactly in the first second of each period. -/
theorem cast_keeps_rest (t : Nat) :
    t % 10 ^ 9 = t % 2 ^ 32 ↔ t % nanosPeriod < 10 ^ 9 := by
  constructor
  · intro h
    have hs : 10 ^ 9 ∣ t - t % 10 ^ 9 := Nat.dvd_sub_mod t
    have hc : 2 ^ 32 ∣ t - t % 10 ^ 9 := h ▸ Nat.dvd_sub_mod t
    obtain ⟨k, hk⟩ : nanosPeriod ∣ t - t % 10 ^ 9 := nanosPeriod_eq ▸ Nat.lcm_dvd hs hc
    have ht : t = t % 10 ^ 9 + nanosPeriod * k := by
      rw [← hk, Nat.add_sub_cancel' (Nat.mod_le t _)]
    calc t % nanosPeriod = t % 10 ^ 9 % nanosPeriod := by
          conv_lhs => rw [ht, Nat.add_mul_mod_self_left]
      _ ≤ t % 10 ^ 9 := Nat.mod_le _ _
      _ < 10 ^ 9 := Nat.mod_lt _ (by decide)
  · intro h
    have hs : t % 10 ^ 9 = t % nanosPeriod := by
      rw [← Nat.mod_mod_of_dvd t (show 10 ^ 9 ∣ nanosPeriod from ⟨8388608, by decide⟩),
        Nat.mod_eq_of_lt h]
    have hc : t % 2 ^ 32 = t % nanosPeriod := by
      rw [← Nat.mod_mod_of_dvd t (show 2 ^ 32 ∣ nanosPeriod from ⟨5 ^ 9, rfl⟩),
        Nat.mod_eq_of_lt (Nat.lt_trans h (by decide))]
    rw [hs, hc]

theorem splits_now (t : Reading) :
    (now t t).Splits t.val ↔ t.val % nanosPeriod < 10 ^ 9 := by
  rw [← cast_keeps_rest]
  have hd : t.val / 10 ^ 9 * 10 ^ 9 + t.val % 10 ^ 9 = t.val := Nat.div_add_mod' t.val _
  simp only [Timestamp.Splits, now, Time.nowInSec, Time.nowInNs]
  constructor
  · rintro ⟨_, h⟩
    exact Nat.add_left_cancel (hd.trans h.symm)
  · intro h
    rw [← h]
    exact ⟨Nat.mod_lt _ (by decide), hd⟩

/-- Within one second the cast count wraps at most once. -/
theorem cast_lt_iff {t u : Nat} (hs : t / 10 ^ 9 = u / 10 ^ 9) (h : t < u) :
    t % 2 ^ 32 < u % 2 ^ 32 ↔ t / 2 ^ 32 = u / 2 ^ 32 := by
  omega

theorem compare_now_of_lt {t u : Reading} (h : t < u) :
    (now t t).compare (now u u) = .lt ↔
      (t.val / 10 ^ 9 = u.val / 10 ^ 9 → t.val / 2 ^ 32 = u.val / 2 ^ 32) := by
  rw [Timestamp.compare, Ordering.then_eq_lt, compare_lt_iff_lt, compare_eq_iff_eq,
    compare_lt_iff_lt]
  have hd : t.val / 10 ^ 9 ≤ u.val / 10 ^ 9 := Nat.div_le_div_right (Fin.lt_def.mp h).le
  constructor
  · rintro (hs | ⟨hs, hn⟩) he
    · exact absurd he (Nat.ne_of_lt hs)
    · exact (cast_lt_iff hs h).mp hn
  · intro hw
    rcases Nat.eq_or_lt_of_le hd with hs | hs
    · exact .inr ⟨hs, (cast_lt_iff hs h).mpr (hw hs)⟩
    · exact .inl hs

/-- Two readings keep their order exactly when the cast count does not wrap between them
within one second. -/
theorem compare_now {t u : Reading} (h : t ≤ u) :
    (now t t).compare (now u u) = Ord.compare t.val u.val ↔
      (t.val / 10 ^ 9 = u.val / 10 ^ 9 → t.val / 2 ^ 32 = u.val / 2 ^ 32) := by
  rcases Fin.lt_or_eq_of_le h with hlt | rfl
  · rw [compare_lt_iff_lt.mpr (Fin.lt_def.mp hlt)]
    exact compare_now_of_lt hlt
  · simp [Timestamp.compare]

/-- **When timestamps are well formed and ordered.** -/
theorem timestamps_iff (t u : Reading) (h : t ≤ u) :
    ((now t t).Splits t.val ↔ t.val % nanosPeriod < 10 ^ 9) ∧
      ((now t t).compare (now u u) = Ord.compare t.val u.val ↔
        (t.val / 10 ^ 9 = u.val / 10 ^ 9 → t.val / 2 ^ 32 = u.val / 2 ^ 32)) :=
  ⟨splits_now t, compare_now h⟩

theorem timestamps_first_second :
    (now ⟨5, by decide⟩ ⟨5, by decide⟩).Splits 5 ∧
      (now ⟨5, by decide⟩ ⟨5, by decide⟩).compare (now ⟨7, by decide⟩ ⟨7, by decide⟩) = .lt :=
  have h := timestamps_iff ⟨5, by decide⟩ ⟨7, by decide⟩ (by decide)
  ⟨h.1.mpr (by decide), h.2.mpr (by decide)⟩

/-- One second after the epoch `nanos` is a whole second, and between two readings of the
fifth second the clock seems to go back. -/
theorem timestamp_of_one_second :
    now ⟨10 ^ 9, by decide⟩ ⟨10 ^ 9, by decide⟩ = ⟨1, 10 ^ 9⟩ ∧
      ¬ (now ⟨10 ^ 9, by decide⟩ ⟨10 ^ 9, by decide⟩).Splits (10 ^ 9) ∧
      (now ⟨4294967295, by decide⟩ ⟨4294967295, by decide⟩).compare
        (now ⟨4294967296, by decide⟩ ⟨4294967296, by decide⟩) = .gt := by
  refine ⟨by decide, ?_, by decide⟩
  rintro ⟨h, _⟩
  exact absurd h (by decide)

end Highp.Network
