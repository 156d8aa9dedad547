import Mathlib.Logic.Function.Basic

/-! Resources with at most one holder each. What somebody holds is live; what nobody holds may
be live or not. -/

namespace Highp.Lib
variable {ι κ : Type*}

structure Exclusive (holds : ι → Option κ) (live : κ → Prop) : Prop where
  live : ∀ {i a}, holds i = some a → live a
  unique : ∀ {i j a}, holds i = some a → holds j = some a → i = j

namespace Exclusive
variable {holds holds' : ι → Option κ} {live live' : κ → Prop}

theorem of_empty (h : ∀ i, holds i = none) : Exclusive holds live where
  live hi := by simp [h] at hi
  unique hi _ := by simp [h] at hi

/-- Nobody lets go of anything, and what is held stays live. -/
theorem mono (h : Exclusive holds live) (hlive : ∀ {i a}, holds i = some a → live' a) :
    Exclusive holds live' where
  live := hlive
  unique := h.unique

/-- Somebody gets a resource that was not live. -/
theorem take {i : ι} {a : κ} (h : Exclusive holds live) (hfresh : ¬ live a)
    (hi : holds' i = some a) (hother : ∀ j, j ≠ i → holds' j = holds j) (ha : live' a)
    (hlive : ∀ b, live b → live' b) : Exclusive holds' live' := by
  -- whoever else holds something held it before, so it is another resource
  have hne : ∀ {j b}, j ≠ i → holds' j = some b → b ≠ a := by
    rintro j b hj hb rfl
    exact hfresh (h.live (hother j hj ▸ hb))
  constructor
  · intro j b hb
    by_cases hj : j = i
    · subst hj
      rw [hi] at hb
      cases hb
      exact ha
    · exact hlive b (h.live (hother j hj ▸ hb))
  · intro j k b hjb hkb
    by_cases hj : j = i
    · by_cases hk : k = i
      · rw [hj, hk]
      · subst hj
        rw [hi] at hjb
        exact absurd (Option.some.inj hjb).symm (hne hk hkb)
    · by_cases hk : k = i
      · subst hk
        rw [hi] at hkb
        exact absurd (Option.some.inj hkb).symm (hne hj hjb)
      · exact h.unique (hother j hj ▸ hjb) (hother k hk ▸ hkb)

/-- Somebody lets go of what it held, and that stops being live. -/
theorem release {i : ι} (h : Exclusive holds live) (hi : holds' i = none)
    (hother : ∀ j, j ≠ i → holds' j = holds j)
    (hlive : ∀ b, live b → holds i ≠ some b → live' b) : Exclusive holds' live' := by
  have hold : ∀ {j b}, holds' j = some b → j ≠ i ∧ holds j = some b := by
    intro j b hb
    have hj : j ≠ i := by
      rintro rfl
      simp [hi] at hb
    exact ⟨hj, hother j hj ▸ hb⟩
  constructor
  · intro j b hb
    obtain ⟨hj, hb⟩ := hold hb
    exact hlive b (h.live hb) fun hib => hj (h.unique hb hib)
  · intro j k b hjb hkb
    exact h.unique (hold hjb).2 (hold hkb).2

/-- Somebody hands what it holds to somebody else, who may have held something before. -/
theorem move {i j : ι} (h : Exclusive holds live) (hi : holds' i = none)
    (hj : holds' j = holds i) (hother : ∀ k, k ≠ i → k ≠ j → holds' k = holds k)
    (hlive : ∀ {k b}, k ≠ j → holds k = some b → live' b) : Exclusive holds' live' := by
  -- the holder of `b` afterwards is `j` with what `i` held, or a bystander
  have hold : ∀ {k b}, holds' k = some b →
      (k = j ∧ holds i = some b) ∨ (k ≠ i ∧ k ≠ j ∧ holds k = some b) := by
    intro k b hb
    have hki : k ≠ i := by
      rintro rfl
      simp [hi] at hb
    by_cases hkj : k = j
    · subst hkj
      exact Or.inl ⟨rfl, hj ▸ hb⟩
    · exact Or.inr ⟨hki, hkj, hother k hki hkj ▸ hb⟩
  constructor
  · intro k b hb
    rcases hold hb with ⟨-, hb⟩ | ⟨-, hkj, hb⟩
    · refine hlive (fun hij => ?_) hb
      rw [← hj, ← hij, hi] at hb
      cases hb
    · exact hlive hkj hb
  · intro k l b hk hl
    rcases hold hk with ⟨rfl, hk⟩ | ⟨hki, -, hk⟩
    · rcases hold hl with ⟨rfl, -⟩ | ⟨hli, -, hl⟩
      · rfl
      · exact absurd (h.unique hl hk) hli
    · rcases hold hl with ⟨rfl, hl⟩ | ⟨-, -, hl⟩
      · exact absurd (h.unique hk hl) hki
      · exact h.unique hk hl

/-- One holder changes what it holds, to something that nobody else holds. -/
theorem change {i : ι} (h : Exclusive holds live) (hother : ∀ j, j ≠ i → holds' j = holds j)
    (hi : ∀ a, holds' i = some a → live' a ∧ ∀ j, j ≠ i → holds j ≠ some a)
    (hlive : ∀ j a, j ≠ i → holds j = some a → live' a) : Exclusive holds' live' := by
  have hone : ∀ {j a}, j ≠ i → holds' i = some a → holds' j ≠ some a := by
    intro j a hj ha
    rw [hother j hj]
    exact (hi a ha).2 j hj
  constructor
  · intro j a ha
    by_cases hj : j = i
    · subst hj
      exact (hi a ha).1
    · exact hlive j a hj (hother j hj ▸ ha)
  · intro j k a hja hka
    by_cases hj : j = i
    · by_cases hk : k = i
      · rw [hj, hk]
      · subst hj
        exact absurd hka (hone hk hja)
    · by_cases hk : k = i
      · subst hk
        exact absurd hja (hone hj hka)
      · exact h.unique (hother j hj ▸ hja) (hother k hk ▸ hka)

end Exclusive
end Highp.Lib
