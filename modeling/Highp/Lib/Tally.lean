import Mathlib.Algebra.GroupWithZero.Nat
import Mathlib.Data.List.Perm.Basic
import Mathlib.Logic.Function.Basic

/-! How many of the first `n` cells satisfy a test, and how the number changes when one cell is
written; how often an element is in a list, and how that changes when one is put in or taken
out; and a sum over a list of which one place is written. -/

namespace Highp.Lib
variable {α : Type*} {f g : Nat → α} {p q : α → Bool} {n i : Nat} {v : α}

def tally (n : Nat) (f : Nat → α) (p : α → Bool) : Nat := (List.range n).countP fun i => p (f i)

theorem tally_succ (n : Nat) (f : Nat → α) (p : α → Bool) :
    tally (n + 1) f p = tally n f p + (p (f n)).toNat := by
  rw [tally, List.range_succ, List.countP_append]
  cases h : p (f n) with
  | true => simp [tally, h]
  | false => simp [tally, h]

theorem tally_congr {β : Type*} {f : Nat → α} {g : Nat → β} {p : α → Bool} {q : β → Bool}
    (h : ∀ i, i < n → p (f i) = q (g i)) : tally n f p = tally n g q := by
  induction n with
  | zero => rfl
  | succ n ih =>
    rw [tally_succ, tally_succ, ih fun i hi => h i (Nat.lt_succ_of_lt hi), h n (Nat.lt_succ_self n)]

/-- Writing cell `i` takes away what was there and adds what is there now. -/
theorem tally_write (hi : i < n) (hother : ∀ j, j ≠ i → p (g j) = p (f j)) :
    tally n g p + (p (f i)).toNat = tally n f p + (p (g i)).toNat := by
  induction n with
  | zero => omega
  | succ n ih =>
    rw [tally_succ, tally_succ]
    by_cases hin : i = n
    · subst hin
      have he : tally i g p = tally i f p := tally_congr fun j hj => hother j (Nat.ne_of_lt hj)
      omega
    · have hrest := ih (by omega)
      rw [hother n (Ne.symm hin)]
      omega

theorem tally_update (hi : i < n) (f : Nat → α) (v : α) (p : α → Bool) :
    tally n (Function.update f i v) p + (p (f i)).toNat = tally n f p + (p v).toNat := by
  have h := tally_write (g := Function.update f i v) (f := f) (p := p) hi
    fun j hj => by rw [Function.update_of_ne hj]
  rwa [Function.update_self] at h

theorem tally_le (n : Nat) (f : Nat → α) (p : α → Bool) : tally n f p ≤ n := by
  have h : tally n f p ≤ (List.range n).length := List.countP_le_length
  rwa [List.length_range] at h

theorem tally_mono (h : ∀ v, p v = true → q v = true) : tally n f p ≤ tally n f q :=
  List.countP_mono_left fun i _ hi => h (f i) hi

theorem tally_pos (hi : i < n) (h : p (f i) = true) : 0 < tally n f p :=
  List.countP_pos_iff.mpr ⟨i, List.mem_range.mpr hi, h⟩

/-- Nobody passes the test. -/
theorem tally_eq_zero (h : ∀ i, i < n → p (f i) = false) : tally n f p = 0 := by
  apply List.countP_eq_zero.mpr
  intro i hi
  simp [h i (List.mem_range.mp hi)]

/-- Taking out the element at a place takes away what it counts. -/
theorem countP_eraseIdx {l : List α} {a : α} (p : α → Bool) (h : l[i]? = some a) :
    (l.eraseIdx i).countP p + (p a).toNat = l.countP p := by
  obtain ⟨hi, rfl⟩ := List.getElem?_eq_some_iff.mp h
  rw [← (List.getElem_cons_eraseIdx_perm hi).countP_eq p, List.countP_cons]
  cases p l[i] <;> rfl

section
variable [DecidableEq α] {l : List α}

theorem count_cons_toNat (a b : α) (l : List α) :
    (a :: l).count b = l.count b + (a == b).toNat := by
  rw [List.count_cons]
  cases a == b <;> rfl

theorem count_erase_add {a : α} (hm : a ∈ l) (b : α) :
    (l.erase a).count b + (a == b).toNat = l.count b := by
  rw [(List.perm_cons_erase hm).count_eq b, count_cons_toNat]

end

/-- One summand is replaced. -/
theorem sum_set (f : α → Nat) {xs : List α} {i : Nat} {x : α} (h : xs[i]? = some x)
    (y : α) : ((xs.set i y).map f).sum + f x = (xs.map f).sum + f y := by
  induction xs generalizing i with
  | nil => simp at h
  | cons first rest ih =>
    cases i with
    | zero =>
      cases h
      simp only [List.set_cons_zero, List.map_cons, List.sum_cons]
      omega
    | succ i =>
      have hrest := ih h
      simp only [List.set_cons_succ, List.map_cons, List.sum_cons]
      omega

end Highp.Lib
