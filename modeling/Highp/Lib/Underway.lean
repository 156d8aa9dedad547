import Mathlib.Data.List.Basic

/-! Lists of tasks that are taken up one after the other: all are settled, but perhaps the last
one, which is under way. -/

namespace Highp.Lib
variable {α : Type*} {p : α → Prop} {xs : List α}

/-- `u` is what is under way in `xs`, where `p` says that a task is settled. -/
def Underway (p : α → Prop) (xs : List α) : Option α → Prop
  | none => ∀ x ∈ xs, p x
  | some x => ¬ p x ∧ ∃ earlier, xs = earlier ++ [x] ∧ ∀ y ∈ earlier, p y

namespace Underway

theorem append (h : Underway p xs none) {x : α} (hx : ¬ p x) : Underway p (xs ++ [x]) (some x) :=
  ⟨hx, xs, rfl, h⟩

theorem eq_none {u : Option α} (h : Underway p xs u) (hall : ∀ x ∈ xs, p x) : u = none := by
  cases u with
  | none => rfl
  | some x =>
    obtain ⟨hx, earlier, rfl, _⟩ := h
    exact absurd (hall x (by simp)) hx

/-- Whatever is not settled is what is under way, and it is the last. -/
theorem eq_some {u : Option α} (h : Underway p xs u) {i : Nat} {x : α} (hi : xs[i]? = some x)
    (hx : ¬ p x) : u = some x ∧ i + 1 = xs.length := by
  cases u with
  | none => exact absurd (h x (List.mem_of_getElem? hi)) hx
  | some y =>
    obtain ⟨_, earlier, rfl, he⟩ := h
    rcases Nat.lt_or_ge i earlier.length with hlt | hge
    · rw [List.getElem?_append_left hlt] at hi
      exact absurd (he x (List.mem_of_getElem? hi)) hx
    · have hlen := (List.getElem?_eq_some_iff.mp hi).1
      rw [List.length_append, List.length_singleton] at hlen
      obtain rfl : i = earlier.length := by omega
      rw [List.getElem?_concat_length] at hi
      exact ⟨hi, by simp⟩

theorem set_last {x : α} (h : Underway p xs (some x)) {i : Nat} (hi : i + 1 = xs.length) (y : α) :
    ∃ earlier, xs.set i y = earlier ++ [y] ∧ ∀ z ∈ earlier, p z := by
  obtain ⟨_, earlier, rfl, he⟩ := h
  obtain rfl : i = earlier.length := by simpa using hi
  exact ⟨earlier, by simp, he⟩

/-- It goes on. -/
theorem set_some {x y : α} (h : Underway p xs (some x)) {i : Nat} (hi : i + 1 = xs.length)
    (hy : ¬ p y) : Underway p (xs.set i y) (some y) :=
  ⟨hy, h.set_last hi y⟩

/-- It is settled. -/
theorem set_none {x y : α} (h : Underway p xs (some x)) {i : Nat} (hi : i + 1 = xs.length)
    (hy : p y) : Underway p (xs.set i y) none := by
  obtain ⟨earlier, heq, he⟩ := h.set_last hi y
  intro z hz
  rw [heq] at hz
  rcases List.mem_append.mp hz with hz | hz
  · exact he z hz
  · exact List.mem_singleton.mp hz ▸ hy

end Underway
end Highp.Lib
