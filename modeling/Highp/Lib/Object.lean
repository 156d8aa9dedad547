import Mathlib.Logic.Basic

/-! Objects that answer calls one after the other, and what it means that one of them
answers like another: every relation kept by single calls is kept by all sequences of them. -/

namespace Highp.Lib

/-- What a call `κ` on a state `σ` answers and leaves. -/
abbrev Object (σ κ ρ : Type*) := σ → κ → ρ × σ

namespace Object
variable {σ τ κ ρ : Type*}

/-- The answers to a sequence of calls and the state it leaves. -/
def run (O : Object σ κ ρ) : σ → List κ → List ρ × σ
  | s, [] => ([], s)
  | s, c :: cs => ((O s c).1 :: (run O (O s c).2 cs).1, (run O (O s c).2 cs).2)

@[simp] theorem run_nil (O : Object σ κ ρ) (s : σ) : O.run s [] = ([], s) := rfl

/-- A call on related states has one answer and leaves related states. -/
def Simulates (R : σ → τ → Prop) (O : Object σ κ ρ) (P : Object τ κ ρ) : Prop :=
  ∀ {s t}, R s t → ∀ c, (O s c).1 = (P t c).1 ∧ R (O s c).2 (P t c).2

theorem Simulates.run {R : σ → τ → Prop} {O : Object σ κ ρ} {P : Object τ κ ρ}
    (h : Simulates R O P) {s : σ} {t : τ} (hR : R s t) (cs : List κ) :
    (O.run s cs).1 = (P.run t cs).1 ∧ R (O.run s cs).2 (P.run t cs).2 := by
  induction cs generalizing s t with
  | nil => exact ⟨rfl, hR⟩
  | cons c cs ih =>
    obtain ⟨ha, hn⟩ := h hR c
    obtain ⟨hs, hf⟩ := ih hn
    exact ⟨by simp only [Object.run, ha, hs], hf⟩

end Object
end Highp.Lib
