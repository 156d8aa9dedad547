import Mathlib.Data.List.OfFn

/-! Fixed blocks of memory and the three ways the code touches them: copying a span in,
moving a tail to the front (the regions may overlap), and viewing the first cells. -/

namespace Highp.Lib

/-- `cap` cells of type `β`. -/
abbrev Block (cap : Nat) (β : Type*) := Fin cap → β

namespace Block
variable {cap : Nat} {β : Type*}

/-- `memcpy(m + off, data, data.size())`; what would land past the end is dropped. -/
def copyIn (m : Block cap β) (off : Nat) (data : List β) : Block cap β := fun i =>
  if off ≤ i.val then (data[i.val - off]?).getD (m i) else m i

/-- `memmove(m, m + k, n)`. -/
def moveDown (m : Block cap β) (k n : Nat) : Block cap β := fun i =>
  if h : i.val < n ∧ i.val + k < cap then m ⟨i.val + k, h.2⟩ else m i

/-- The span `{m, n}`. -/
def view (m : Block cap β) (n : Nat) (h : n ≤ cap) : List β :=
  List.ofFn fun i : Fin n => m (i.castLE h)

@[simp] theorem length_view (m : Block cap β) (n : Nat) (h : n ≤ cap) :
    (m.view n h).length = n := by simp [view]

theorem getElem_view (m : Block cap β) (n : Nat) (h : n ≤ cap) (i : Nat)
    (hi : i < (m.view n h).length) :
    (m.view n h)[i] = m ⟨i, by have := length_view m n h; omega⟩ := by
  simp [view]

theorem view_copyIn (m : Block cap β) (off : Nat) (data : List β)
    (h : off + data.length ≤ cap) :
    (m.copyIn off data).view (off + data.length) h =
      m.view off (Nat.le_trans (Nat.le_add_right _ _) h) ++ data := by
  apply List.ext_getElem
  · simp
  · intro i hi hj
    rw [getElem_view, List.getElem_append]
    split
    · rename_i hlt
      rw [length_view] at hlt
      rw [getElem_view, copyIn, if_neg (Nat.not_le.mpr hlt)]
    · rename_i hge
      rw [length_view] at hge hi
      simp only [copyIn, length_view, if_pos (Nat.not_lt.mp hge)]
      rw [List.getElem?_eq_getElem (by omega)]
      rfl

theorem view_moveDown (m : Block cap β) (k n : Nat) (hk : k ≤ n) (h : n ≤ cap) :
    (m.moveDown k (n - k)).view (n - k) (Nat.le_trans (Nat.sub_le _ _) h) =
      (m.view n h).drop k := by
  apply List.ext_getElem
  · simp
  · intro i hi hj
    rw [length_view] at hi
    rw [getElem_view, List.getElem_drop, getElem_view, moveDown, dif_pos ⟨hi, by simp only; omega⟩]
    congr 2
    exact Nat.add_comm i k

end Block
end Highp.Lib
