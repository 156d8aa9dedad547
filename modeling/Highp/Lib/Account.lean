import Highp.Lib.Tally
import Mathlib.Data.List.Basic
import Mathlib.Algebra.BigOperators.Group.List.Basic
import Mathlib.Algebra.Order.Ring.Int

/-! A 64-bit counter that is kept by others than those who cause what it counts: operations are
opened and closed by one thread, and written to the counter by the same or another thread some time
later. -/

namespace Highp.Lib

/-! ## What is still to do -/

section
variable {α : Type*} {f : α → Nat} {threads : List (List α)} {i : Nat} {acts acts' : List α}

/-- The weight of all that the threads have still to do. -/
def owed (f : α → Nat) (threads : List (List α)) : Nat :=
  (threads.map fun acts => (acts.map f).sum).sum

/-- One thread has other things to do than before. -/
theorem owed_set (f : α → Nat) (h : threads[i]? = some acts) (acts' : List α) :
    owed f (threads.set i acts') + (acts.map f).sum = owed f threads + (acts'.map f).sum := by
  exact sum_set (fun acts => (acts.map f).sum) h acts'

/-- Nobody has anything to do that counts. -/
theorem owed_eq_zero (h : ∀ acts ∈ threads, (acts.map f).sum = 0) : owed f threads = 0 := by
  induction threads with
  | nil => rfl
  | cons first rest ih =>
    have hfirst := h first (List.mem_cons_self ..)
    have hrest := ih fun acts hm => h acts (List.mem_cons_of_mem _ hm)
    simp only [owed] at hrest
    simp only [owed, List.map_cons, List.sum_cons]
    omega

end

/-! ## The counter -/

/-- The value that an `int64_t` takes. -/
def int64 (v : Int) : Int := v.bmod (2 ^ 64)

theorem int64_eq {v : Int} (hlow : 0 ≤ v) (hhigh : v < 2 ^ 63) : int64 v = v :=
  Int.bmod_eq_of_le_mul_two (by omega) (by omega)

/-- `opened` operations are open; the counter has not been told of the opening of `unposted` of
them, nor of the closing of `uncleared` others. -/
structure Account where
  value : Int
  opened : Nat
  unposted : Nat
  uncleared : Nat

namespace Account
variable {a b : Account}

structure Balanced (a : Account) : Prop where
  sum : a.value + a.unposted = a.opened + a.uncleared
  posted : a.unposted ≤ a.opened
  room : a.opened + a.uncleared < 2 ^ 63

/-- What may happen to an account. An operation is closed only behind one whose opening has been
posted. -/
inductive Move (a b : Account) : Prop
  | stay : b.value = a.value → b.opened = a.opened → b.unposted = a.unposted →
      b.uncleared = a.uncleared → Move a b
  | opening (n : Nat) : b.value = a.value → b.opened = a.opened + n →
      b.unposted = a.unposted + n → b.uncleared = a.uncleared →
      a.opened + a.uncleared + n < 2 ^ 63 → Move a b
  | post (n : Nat) : b.value = int64 (a.value + n) → b.opened = a.opened →
      b.unposted + n = a.unposted → b.uncleared = a.uncleared → Move a b
  | closing (n : Nat) : b.value = a.value → b.opened + n = a.opened → b.unposted = a.unposted →
      b.uncleared = a.uncleared + n → a.unposted + n ≤ a.opened → Move a b
  | clear (n : Nat) : b.value = int64 (a.value - n) → b.opened = a.opened →
      b.unposted = a.unposted → b.uncleared + n = a.uncleared → Move a b

/-- **Balance.** -/
theorem Balanced.move (h : a.Balanced) (hm : a.Move b) : b.Balanced := by
  obtain ⟨hsum, hposted, hroom⟩ := h
  cases hm with
  | stay hv ho hu hc => exact ⟨by omega, by omega, by omega⟩
  | opening n hv ho hu hc hlimit => exact ⟨by omega, by omega, by omega⟩
  | post n hv ho hu hc =>
    rw [int64_eq (by omega) (by omega)] at hv
    exact ⟨by omega, by omega, by omega⟩
  | closing n hv ho hu hc hbehind => exact ⟨by omega, by omega, by omega⟩
  | clear n hv ho hu hc =>
    rw [int64_eq (by omega) (by omega)] at hv
    exact ⟨by omega, by omega, by omega⟩

theorem Balanced.nonneg (h : a.Balanced) : 0 ≤ a.value := by
  have hsum := h.sum
  have hposted := h.posted
  omega

/-- When everything has been written down, the counter tells how many operations are open. -/
theorem Balanced.settled (h : a.Balanced) (hu : a.unposted = 0) (hc : a.uncleared = 0) :
    a.value = a.opened := by
  have hsum := h.sum
  omega

end Account
end Highp.Lib
