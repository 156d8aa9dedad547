import Mathlib.Logic.Function.Basic

/-! Labelled transition systems whose labels name the acting thread together with
every choice the environment makes, so that a step is a partial function.
`Reach ok` collects the states of the runs all of whose steps meet `ok`. -/

namespace Highp.Lib

structure System (σ ℓ : Type*) where
  start : σ
  step : σ → ℓ → Option σ

namespace System
variable {σ ℓ : Type*} {M : System σ ℓ} {ok : σ → ℓ → Prop} {s t : σ}

/-- The states reached by runs whose every step `l` from `s` satisfies `ok s l`. -/
inductive Reach (M : System σ ℓ) (ok : σ → ℓ → Prop) : σ → Prop
  | start : Reach M ok M.start
  | next {s t : σ} {l : ℓ} : Reach M ok s → ok s l → M.step s l = some t → Reach M ok t

/-- The system from another state on: its runs are the ways a run through `s` can go on. -/
def startingAt (M : System σ ℓ) (s : σ) : System σ ℓ := { M with start := s }

/-- No condition on the steps. -/
def always : σ → ℓ → Prop := fun _ _ => True

instance (s : σ) (l : ℓ) : Decidable (always s l) := .isTrue trivial

/-- **Invariant rule.** The step case may use that its source is reachable. -/
theorem Reach.invariant {I : σ → Prop} (h : M.Reach ok s) (hstart : I M.start)
    (hstep : ∀ {s t l}, M.Reach ok s → I s → ok s l → M.step s l = some t → I t) : I s := by
  induction h with
  | start => exact hstart
  | next hr hok hs ih => exact hstep hr ih hok hs

/-- A run that meets a condition meets every weaker one. -/
theorem Reach.mono {ok' : σ → ℓ → Prop} (hw : ∀ s l, ok s l → ok' s l) (h : M.Reach ok s) :
    M.Reach ok' s := by
  induction h with
  | start => exact .start
  | next _ hok hs ih => exact .next ih (hw _ _ hok) hs

/-- Execute a schedule, giving up at a step that is disabled or breaks `ok`. -/
def exec (M : System σ ℓ) (ok : σ → ℓ → Prop) [∀ s l, Decidable (ok s l)] :
    σ → List ℓ → Option σ
  | s, [] => some s
  | s, l :: ls => if ok s l then (M.step s l).bind fun t => exec M ok t ls else none

theorem Reach.exec [∀ s l, Decidable (ok s l)] {ls : List ℓ} (h : M.Reach ok s)
    (he : M.exec ok s ls = some t) : M.Reach ok t := by
  induction ls generalizing s with
  | nil =>
    simp only [System.exec, Option.some.injEq] at he
    exact he ▸ h
  | cons l ls ih =>
    simp only [System.exec] at he
    split at he
    · obtain ⟨u, hu, he⟩ := Option.bind_eq_some_iff.mp he
      exact ih (.next h ‹_› hu) he
    · simp at he

/-- A schedule that runs to the end from the start and whose last state passes `p`
exhibits a reachable state with `p`. -/
theorem reach_of_exec (M : System σ ℓ) (ok : σ → ℓ → Prop) [∀ s l, Decidable (ok s l)]
    (ls : List ℓ) (p : σ → Bool)
    (h : (M.exec ok M.start ls).map p = some true) : ∃ s, M.Reach ok s ∧ p s = true := by
  obtain ⟨s, hs, hp⟩ := Option.map_eq_some_iff.mp h
  exact ⟨s, Reach.start.exec hs, hp⟩

/-! ## Histories -/

section
variable {η : Type*} {h₀ : η} {note : σ → ℓ → σ → η → η}

/-- The system with a history that records what its steps do and that no step looks at. -/
def recording (M : System σ ℓ) (h₀ : η) (note : σ → ℓ → σ → η → η) : System (σ × η) ℓ where
  start := (M.start, h₀)
  step p l := (M.step p.1 l).map fun t => (t, note p.1 l t p.2)

theorem recording_step {p q : σ × η} {l : ℓ} (h : (M.recording h₀ note).step p l = some q) :
    M.step p.1 l = some q.1 ∧ q.2 = note p.1 l q.1 p.2 := by
  obtain ⟨t, ht, rfl⟩ := Option.map_eq_some_iff.mp h
  exact ⟨ht, rfl⟩

/-- Every run can be recorded. -/
theorem Reach.record (h₀ : η) (note : σ → ℓ → σ → η → η) (h : M.Reach ok s) :
    ∃ h, (M.recording h₀ note).Reach (fun p l => ok p.1 l) (s, h) := by
  induction h with
  | start => exact ⟨h₀, .start⟩
  | @next s t l _ hok hs ih =>
    obtain ⟨h, ih⟩ := ih
    exact ⟨note s l t h, .next ih hok (Option.map_eq_some_iff.mpr ⟨t, hs, rfl⟩)⟩

/-- Forgetting the history of a run gives a run. -/
theorem Reach.forget {ok : σ × η → ℓ → Prop} {ok' : σ → ℓ → Prop} {p : σ × η}
    (hw : ∀ p l, ok p l → ok' p.1 l) (h : (M.recording h₀ note).Reach ok p) :
    M.Reach ok' p.1 := by
  induction h with
  | start => exact .start
  | next _ hok hs ih => exact .next ih (hw _ _ hok) (recording_step hs).1

end

end System
end Highp.Lib
