import Mathlib.Algebra.Order.Field.Rat
import Mathlib.Data.Rat.Cast.Order
import Mathlib.Tactic.Positivity
import Highp.Lib.Underway
import Highp.Metrics.Windows
import Highp.Metrics.Writer

/-! What one drained window says by itself. The exchanges of a drain and the updates of an
observation go to the count, the total and the maximum in one order. As long as nobody overtakes
on the way, each observation goes into one window with all it has. -/

namespace Highp.Metrics
open Highp.Lib

/-- `result` at the end of `DrainWindow`. -/
def Drain.result (d : Drain) : TimingWindow := ⟨d.count, d.totalNanoseconds, d.maxNanoseconds⟩

/-- A window that some observations can have left. -/
structure TimingWindow.Consistent (t : TimingWindow) : Prop where
  total : t.totalNanoseconds ≤ t.count * t.maxNanoseconds
  empty : t.count = 0 → t.totalNanoseconds = 0 ∧ t.maxNanoseconds = 0

def Window.drained (w : Window) : Bool := w.drains.all fun d => d.exchanges = 3

/-- Whether an observation under way has come to the count before a drain under way. -/
def observationFirst (_ : Window) (l : WindowLabel) (_ : Window) (first : Bool) : Bool :=
  match l with
  | .observe _ => false
  | .drain => true
  | _ => first

def overlapSystem (owner : Owner) : System (Window × Bool) WindowLabel :=
  (windowSystem owner).recording true observationFirst

/-- No observation is under way behind this operation. -/
def Window.ends (owner : Owner) (w : Window) (l : WindowLabel) : Bool :=
  (w.step owner l).any Window.finished

/-- One observer and one drain at a time, a count that does not wrap, and nobody overtakes: a drain
and an observation come to the total and to the maximum in the order in which they came to the
count. -/
def InOrder (owner : Owner) (p : Window × Bool) (l : WindowLabel) : Prop :=
  match l with
  | .observe _ => p.1.finished = true ∧ p.1.count + 1 < 2 ^ 64
  | .addTotal _ => p.2 = true ∨ ∀ d ∈ p.1.drains, d.exchanges ≠ 1
  | .drain => p.1.drained = true
  | .drainTotal _ => p.2 = true → ∀ o ∈ p.1.observations, o.stage ≠ .counted
  | .drainMax _ => p.2 = true → p.1.finished = true
  | l => p.2 = true ∨ p.1.drained = true ∨ p.1.ends owner l = false

instance (owner : Owner) (p : Window × Bool) (l : WindowLabel) : Decidable (InOrder owner p l) := by
  unfold InOrder
  cases l with
  | observe _ => exact inferInstanceAs (Decidable (_ ∧ _))
  | addTotal _ => exact inferInstanceAs (Decidable (_ ∨ _))
  | load _ => exact inferInstanceAs (Decidable (_ ∨ _))
  | compareExchange _ _ => exact inferInstanceAs (Decidable (_ ∨ _))
  | store _ => exact inferInstanceAs (Decidable (_ ∨ _))
  | drain => exact inferInstanceAs (Decidable (_ = _))
  | drainTotal _ => exact inferInstanceAs (Decidable (_ → _))
  | drainMax _ => exact inferInstanceAs (Decidable (_ → _))

/-! ## What the numbers of a window have to do with each other -/

/-- The numbers of a window that counts the observation `o` under way as one of its own. -/
def Fits (count total max : Nat) : Option Observation → Prop
  | none => total ≤ count * max ∧ (count = 0 → max = 0)
  | some o => ∃ others, count = others + 1 ∧ total ≤ others * max + o.added ∧
      (others = 0 → max = 0)

theorem Fits.observe {count total max : Nat} (h : Fits count total max none) {o : Observation}
    (ho : o.added = 0) : Fits (count + 1) total max (some o) :=
  ⟨count, rfl, by rw [ho]; exact h.1, h.2⟩

theorem Fits.addTotal {count total max : Nat} {o o' : Observation}
    (h : Fits count total max (some o)) (ho : o.added = 0) {total' : Nat}
    (ht : total' ≤ total + o'.added) : Fits count total' max (some o') := by
  obtain ⟨others, hc, hle, hz⟩ := h
  exact ⟨others, hc, by omega, hz⟩

/-- The maximum takes the observation in. -/
theorem Fits.finish {count total max max' : Nat} {o : Observation}
    (h : Fits count total max (some o)) (hmax : max ≤ max') (ho : o.added ≤ max') :
    Fits count total max' none := by
  obtain ⟨others, rfl, hle, _⟩ := h
  refine ⟨?_, by omega⟩
  calc total ≤ others * max + o.added := hle
    _ ≤ others * max' + max' := Nat.add_le_add (Nat.mul_le_mul_left _ hmax) ho
    _ = (others + 1) * max' := (Nat.succ_mul _ _).symm

theorem Fits.consistent {count total max : Nat} (h : Fits count total max none) :
    TimingWindow.Consistent ⟨count, total, max⟩ := by
  refine ⟨h.1, fun hz => ⟨?_, h.2 hz⟩⟩
  have hle := h.1
  rw [show count = 0 from hz, Nat.zero_mul] at hle
  exact Nat.le_zero.mp hle

/-- A drain `d` is under way. It takes the observation under way with it if that came first, and
leaves it to the next window otherwise. -/
structure Overlap (w : Window) (first : Bool) (o : Option Observation) (d : Drain) : Prop where
  fits : Fits d.count (if d.exchanges = 1 then w.totalNanoseconds else d.totalNanoseconds)
    w.maxNanoseconds (if first then o else none)
  count : w.count = (if first then none else o).toList.length
  total : d.exchanges = 2 →
    w.totalNanoseconds ≤ ((if first then none else o).toList.map Observation.added).sum
  behind : d.exchanges = 1 → first = false → ∀ x ∈ o, x.stage = .counted
  ahead : d.exchanges = 2 → first = true → ∀ x ∈ o, x.stage ≠ .counted

def Numbers (w : Window) (first : Bool) (o : Option Observation) : Option Drain → Prop
  | none => Fits w.count w.totalNanoseconds w.maxNanoseconds o
  | some d => Overlap w first o d

/-- The observation `o` and the drain `d` are under way. -/
structure Ordered (w : Window) (first : Bool) (o : Option Observation) (d : Option Drain) :
    Prop where
  observing : Underway (fun x : Observation => x.stage = .done) w.observations o
  draining : Underway (fun x : Drain => x.exchanges = 3) w.drains d
  numbers : Numbers w first o d
  consistent : ∀ x ∈ w.drains, x.exchanges = 3 → x.result.Consistent

section
variable {owner : Owner} {w : Window} {first : Bool} {o : Option Observation} {d : Option Drain}

namespace Ordered

theorem eq_none_of_finished (h : Ordered w first o d) (hf : w.finished = true) : o = none :=
  h.observing.eq_none fun x hx => by simpa using List.all_eq_true.mp hf x hx

theorem eq_none_of_drained (h : Ordered w first o d) (hf : w.drained = true) : d = none :=
  h.draining.eq_none fun x hx => by simpa using List.all_eq_true.mp hf x hx

theorem observe (h : Ordered w first none d) (hcount : w.count + 1 < 2 ^ 64) (nanoseconds : Nat) :
    Ordered { w with
      count := (w.count + 1) % 2 ^ 64
      observations := w.observations ++ [⟨nanoseconds, .counted⟩] } false
      (some ⟨nanoseconds, .counted⟩) d := by
  refine ⟨h.observing.append (by simp), h.draining, ?_, h.consistent⟩
  rw [Nat.mod_eq_of_lt hcount]
  cases d with
  | none => exact Fits.observe h.numbers rfl
  | some d =>
    obtain ⟨hfits, hc, ht, _, _⟩ : Overlap w first none d := h.numbers
    simp only [ite_self] at hfits hc ht
    refine ⟨hfits, by simp [hc], ?_, by simp, by simp⟩
    intro hx
    simpa [Observation.added] using ht hx

theorem addTotal {o : Observation} (h : Ordered w first (some o) d) {i : Nat}
    (hi : i + 1 = w.observations.length) (hstage : o.stage = .counted)
    (hfirst : first = true ∨ ∀ x ∈ w.drains, x.exchanges ≠ 1) :
    Ordered { w.setStage i o .totaled with
      totalNanoseconds := (w.totalNanoseconds + o.nanoseconds) % 2 ^ 64 } first
      (some { o with stage := .totaled }) d := by
  refine ⟨h.observing.set_some hi (by simp), h.draining, ?_, h.consistent⟩
  have hold : o.added = 0 := if_pos hstage
  have hnew : Observation.added { o with stage := .totaled } = o.nanoseconds := if_neg (by simp)
  have ht := Nat.mod_le (w.totalNanoseconds + o.nanoseconds) (2 ^ 64)
  cases d with
  | none =>
    exact Fits.addTotal h.numbers hold (by rw [hnew]; exact ht)
  | some d =>
    obtain ⟨hfits, hc, htotal, hbehind, hahead⟩ : Overlap w first (some o) d := h.numbers
    cases first with
    | true =>
      have hone : d.exchanges ≠ 2 := fun h2 => hahead h2 rfl o rfl hstage
      refine ⟨?_, hc, fun h2 => absurd h2 hone, fun _ hf => absurd hf (by simp),
        fun h2 => absurd h2 hone⟩
      simp only [if_true] at hfits ⊢
      refine hfits.addTotal hold ?_
      rw [hnew]
      by_cases h1 : d.exchanges = 1
      · rw [if_pos h1, if_pos h1]
        exact ht
      · rw [if_neg h1, if_neg h1]
        exact Nat.le_add_right _ _
    | false =>
      have hne : d.exchanges ≠ 1 := by
        obtain ⟨_, earlier, heq, _⟩ := h.draining
        exact hfirst.resolve_left (by simp) d (by simp [heq])
      rw [if_neg hne] at hfits
      refine ⟨?_, hc, fun h2 => ?_, fun h1 => absurd h1 hne,
        fun _ hf => absurd hf (by simp)⟩
      · rw [if_neg hne]
        exact hfits
      · have hz : w.totalNanoseconds ≤ 0 := by simpa [hold] using htotal h2
        have hle : (w.totalNanoseconds + o.nanoseconds) % 2 ^ 64 ≤ o.nanoseconds := by omega
        simpa [hnew] using hle

/-- An observation that has added to the total goes on and is not done. -/
theorem advance {o : Observation} (h : Ordered w first (some o) d) {i : Nat}
    (hi : i + 1 = w.observations.length) (hstage : o.stage ≠ .counted) {stage : Stage}
    (hcounted : stage ≠ .counted) (hdone : stage ≠ .done) :
    Ordered (w.setStage i o stage) first (some { o with stage }) d := by
  refine ⟨h.observing.set_some hi hdone, h.draining, ?_, h.consistent⟩
  have hadded : Observation.added { o with stage } = o.added :=
    (if_neg hcounted).trans (if_neg hstage).symm
  cases d with
  | none =>
    obtain ⟨others, hc, hle, hz⟩ : Fits w.count w.totalNanoseconds w.maxNanoseconds (some o) :=
      h.numbers
    exact ⟨others, hc, by rw [hadded]; exact hle, hz⟩
  | some d =>
    obtain ⟨hfits, hc, htotal, hbehind, hahead⟩ : Overlap w first (some o) d := h.numbers
    cases first with
    | true =>
      obtain ⟨others, hcd, hle, hz⟩ := hfits
      refine ⟨⟨others, hcd, by rw [hadded]; exact hle, hz⟩, hc, htotal,
        fun _ hf => absurd hf (by simp), fun _ _ x hx => ?_⟩
      cases hx
      exact hcounted
    | false =>
      refine ⟨hfits, hc, fun h2 => ?_, fun h1 _ => ?_, fun _ hf => absurd hf (by simp)⟩
      · simpa [Window.setStage, hadded] using htotal h2
      · exact absurd (hbehind h1 rfl o rfl) hstage

/-- The maximum has taken the observation in, and the observation is done. -/
theorem finish {o : Observation} (h : Ordered w first (some o) d) {i : Nat}
    (hi : i + 1 = w.observations.length) (hstage : o.stage ≠ .counted) {m : Nat}
    (hmax : w.maxNanoseconds ≤ m) (ho : o.nanoseconds ≤ m)
    (hfirst : first = true ∨ w.drained = true) :
    Ordered { w.setStage i o .done with maxNanoseconds := m } first none d := by
  refine ⟨h.observing.set_none hi rfl, h.draining, ?_, h.consistent⟩
  have hadded : o.added ≤ m := by rw [Observation.added, if_neg hstage]; exact ho
  cases d with
  | none => exact Fits.finish h.numbers hmax hadded
  | some d =>
    cases first with
    | true =>
      obtain ⟨hfits, hc, htotal, hbehind, hahead⟩ : Overlap w true (some o) d := h.numbers
      exact ⟨hfits.finish hmax hadded, hc, htotal, by simp, by simp⟩
    | false => cases h.eq_none_of_drained (hfirst.resolve_left (by simp))

/-- The observation under way comes first from now on. -/
theorem drain (h : Ordered w first o none) :
    Ordered { w with count := 0, drains := w.drains ++ [⟨w.count, 0, 0, 1⟩] } true o
      (some ⟨w.count, 0, 0, 1⟩) := by
  refine ⟨h.observing, h.draining.append (by simp), ?_, ?_⟩
  · exact ⟨h.numbers, rfl, by simp, by simp, by simp⟩
  · intro x hx hdone
    rcases List.mem_append.mp hx with hx | hx
    · exact h.consistent x hx hdone
    · rw [List.mem_singleton.mp hx] at hdone
      cases hdone

theorem drainTotal {d : Drain} (h : Ordered w first o (some d)) {j : Nat}
    (hj : j + 1 = w.drains.length) (hstage : d.exchanges = 1)
    (hfirst : first = true → ∀ x ∈ w.observations, x.stage ≠ .counted) :
    Ordered { w with
      totalNanoseconds := 0
      drains := w.drains.set j { d with totalNanoseconds := w.totalNanoseconds, exchanges := 2 } }
      first o (some { d with totalNanoseconds := w.totalNanoseconds, exchanges := 2 }) := by
  obtain ⟨hfits, hc, htotal, hbehind, hahead⟩ : Overlap w first o d := h.numbers
  rw [if_pos hstage] at hfits
  refine ⟨h.observing, h.draining.set_some hj (by simp), ?_, ?_⟩
  · refine ⟨hfits, hc, fun _ => Nat.zero_le _, by simp, fun _ hf x hx => ?_⟩
    cases o with
    | none => cases hx
    | some o =>
      cases hx
      obtain ⟨_, earlier, heq, _⟩ := h.observing
      exact hfirst hf x (by simp [heq])
  · intro x hx hdone
    rcases List.mem_or_eq_of_mem_set hx with hx | rfl
    · exact h.consistent x hx hdone
    · cases hdone

theorem drainMax {d : Drain} (h : Ordered w first o (some d)) {j : Nat}
    (hj : j + 1 = w.drains.length) (hstage : d.exchanges = 2)
    (hfirst : first = true → w.finished = true) :
    Ordered { w with
      maxNanoseconds := 0
      drains := w.drains.set j { d with maxNanoseconds := w.maxNanoseconds, exchanges := 3 } }
      first o none := by
  obtain ⟨hfits, hc, htotal, hbehind, hahead⟩ : Overlap w first o d := h.numbers
  have hmine : (if first then o else none) = none := by
    cases first with
    | true => exact h.eq_none_of_finished (hfirst rfl)
    | false => rfl
  have hnext : (if first then none else o) = o := by
    cases first with
    | true => exact (h.eq_none_of_finished (hfirst rfl)).symm
    | false => rfl
  rw [hmine, if_neg (by omega)] at hfits
  rw [hnext] at hc htotal
  have ht := htotal hstage
  refine ⟨h.observing, h.draining.set_none hj rfl, ?_, ?_⟩
  · cases o with
    | none => exact ⟨by simpa [hc] using ht, fun _ => rfl⟩
    | some o => exact ⟨0, hc, by simpa using ht, fun _ => rfl⟩
  · intro x hx hdone
    rcases List.mem_or_eq_of_mem_set hx with hx | rfl
    · exact h.consistent x hx hdone
    · exact hfits.consistent

theorem finished_done {o : Observation} (h : Ordered w first (some o) d) {i : Nat}
    (hi : i + 1 = w.observations.length) (m : Nat) :
    Window.finished { w.setStage i o .done with maxNanoseconds := m } = true := by
  have hall : ∀ x ∈ (w.setStage i o .done).observations, x.stage = .done :=
    h.observing.set_none hi rfl
  simpa [Window.finished] using hall

theorem load {o : Observation} (h : Ordered w first (some o) d) {i : Nat}
    (hi : i + 1 = w.observations.length) (hstage : o.stage ≠ .counted)
    (hfirst : first = true ∨ w.drained = true ∨
      (w.setStage i o (afterLoad owner o.nanoseconds w.maxNanoseconds)).finished = false) :
    ∃ o' d', Ordered (w.setStage i o (afterLoad owner o.nanoseconds w.maxNanoseconds)) first o' d'
    := by
  by_cases hdone : afterLoad owner o.nanoseconds w.maxNanoseconds = .done
  · have hle : o.nanoseconds ≤ w.maxNanoseconds := by
      unfold afterLoad at hdone
      split at hdone
      · cases owner with
        | client => cases hdone
        | server => cases hdone
      · exact Nat.not_lt.mp ‹_›
    rw [hdone] at hfirst ⊢
    refine ⟨none, d, h.finish hi hstage (Nat.le_refl _) hle ?_⟩
    rcases hfirst with hf | hf | hf
    · exact .inl hf
    · exact .inr hf
    · exact absurd ((h.finished_done hi w.maxNanoseconds).symm.trans hf) (by simp)
  · exact ⟨_, d, h.advance hi hstage (afterLoad_ne_counted owner o.nanoseconds w.maxNanoseconds)
      hdone⟩

end Ordered
end

/-- Some observation and some drain, or none, are under way in order. -/
def InStep (p : Window × Bool) : Prop := ∃ o d, Ordered p.1 p.2 o d

theorem inStep_step {owner : Owner} {p q : Window × Bool} {l : WindowLabel} (h : InStep p)
    (hmax : MaxInv owner p.1) (hok : InOrder owner p l)
    (hs : (overlapSystem owner).step p l = some q) : InStep q := by
  obtain ⟨w, first⟩ := p
  obtain ⟨w', first'⟩ := q
  obtain ⟨o, d, h⟩ : ∃ o d, Ordered w first o d := h
  have hmax : MaxInv owner w := hmax
  obtain ⟨hstep, hfirst⟩ : w.step owner l = some w' ∧ first' = observationFirst w l w' first :=
    System.recording_step hs
  subst hfirst
  -- the window behind the operation is the one that the condition is about
  have hends : w.ends owner l = w'.finished := by
    rw [Window.ends, hstep, Option.any_some]
  cases l with
  | observe nanoseconds =>
    obtain ⟨_, rfl⟩ := Window.step_observe hstep
    cases h.eq_none_of_finished hok.1
    exact ⟨_, d, h.observe hok.2 nanoseconds⟩
  | addTotal i =>
    obtain ⟨x, hx, hstage, rfl⟩ := Window.step_addTotal hstep
    obtain ⟨rfl, hi⟩ := h.observing.eq_some hx (by simp [hstage])
    exact ⟨_, d, h.addTotal hi hstage hok⟩
  | load i =>
    simp only [InOrder, hends] at hok
    obtain ⟨x, hx, hstage, rfl⟩ := Window.step_load hstep
    obtain ⟨rfl, hi⟩ := h.observing.eq_some hx (by simp [hstage])
    exact h.load hi (by simp [hstage]) hok
  | compareExchange i exchanged =>
    simp only [InOrder, hends] at hok
    obtain ⟨x, observed, hx, hstage, ⟨rfl, rfl⟩ | rfl⟩ := Window.step_compareExchange hstep
    · obtain ⟨rfl, hi⟩ := h.observing.eq_some hx (by simp [hstage])
      have hlt := (hmax.comparing x (List.mem_of_getElem? hx) w.maxNanoseconds hstage).1
      rw [h.finished_done hi] at hok
      exact ⟨none, d, h.finish hi (by simp [hstage]) (by omega) (Nat.le_refl _)
        (by simpa using hok)⟩
    · obtain ⟨rfl, hi⟩ := h.observing.eq_some hx (by simp [hstage])
      exact h.load hi (by simp [hstage]) hok
  | store i =>
    simp only [InOrder, hends] at hok
    obtain ⟨x, hx, hstage, rfl⟩ := Window.step_store hstep
    obtain ⟨rfl, hi⟩ := h.observing.eq_some hx (by simp [hstage])
    have hle := (hmax.storing x (List.mem_of_getElem? hx) hstage).1
    rw [h.finished_done hi] at hok
    exact ⟨none, d, h.finish hi (by simp [hstage]) hle (Nat.le_refl _) (by simpa using hok)⟩
  | drain =>
    cases hstep
    cases h.eq_none_of_drained hok
    exact ⟨o, _, h.drain⟩
  | drainTotal j =>
    obtain ⟨x, hx, hstage, rfl⟩ := Window.step_drainTotal hstep
    obtain ⟨rfl, hj⟩ := h.draining.eq_some hx (by omega)
    exact ⟨o, _, h.drainTotal hj hstage hok⟩
  | drainMax j =>
    obtain ⟨x, hx, hstage, rfl⟩ := Window.step_drainMax hstep
    obtain ⟨rfl, hj⟩ := h.draining.eq_some hx (by omega)
    exact ⟨o, _, h.drainMax hj hstage hok⟩

theorem inStep_reach {owner : Owner} {p : Window × Bool}
    (h : (overlapSystem owner).Reach (InOrder owner) p) : InStep p := by
  refine h.invariant (I := InStep) ?_ ?_
  · exact ⟨none, none, by simp [Underway, overlapSystem, System.recording, windowSystem],
      by simp [Underway, overlapSystem, System.recording, windowSystem],
      ⟨Nat.zero_le _, fun _ => rfl⟩, by simp [overlapSystem, System.recording, windowSystem]⟩
  · intro s t l hr hi hok hs
    have hw : (windowSystem owner).Reach System.always s.1 := hr.forget fun _ _ _ => trivial
    exact inStep_step hi (inv_reach hw).2.2 hok hs

/-! ## The amended statement -/

/-- The average is the exact quotient here. -/
theorem TimingWindow.Consistent.average_le {t : TimingWindow} (h : t.Consistent) :
    (t.averageMilliseconds : Rat) ≤ t.maxMilliseconds := by
  unfold TimingWindow.averageMilliseconds TimingWindow.maxMilliseconds
  simp only [Double.ofInt_rat, Double.div_rat]
  push_cast
  by_cases hz : t.count = 0
  · rw [if_pos hz]
    positivity
  · have hc : (0 : Rat) < t.count := Nat.cast_pos.mpr (Nat.pos_of_ne_zero hz)
    have htotal : (t.totalNanoseconds : Rat) ≤ t.maxNanoseconds * t.count := by
      rw [mul_comm]
      exact_mod_cast h.total
    rw [if_neg hz, div_le_iff₀ hc, div_mul_eq_mul_div]
    exact div_le_div_of_nonneg_right htotal (by positivity)

/-- **A drained window is consistent in itself** as long as drains and observations do not overtake
each other. -/
theorem drained_consistent (owner : Owner) (p : Window × Bool)
    (h : (overlapSystem owner).Reach (InOrder owner) p) :
    ∀ d ∈ p.1.drains, d.exchanges = 3 →
      d.totalNanoseconds ≤ d.count * d.maxNanoseconds ∧
      (d.count = 0 → d.totalNanoseconds = 0 ∧ d.maxNanoseconds = 0) ∧
      (d.result.averageMilliseconds : Rat) ≤ d.result.maxMilliseconds := by
  obtain ⟨_, _, hp⟩ := inStep_reach h
  intro d hd hdone
  have hc := hp.consistent d hd hdone
  exact ⟨hc.total, hc.empty, hc.average_le⟩

/-- A drain that stays behind an observation until both are done. -/
theorem drained_consistent_behind : ∃ w : Window, w.drains = [⟨1, 5, 5, 3⟩] ∧
    ∀ d ∈ w.drains, d.exchanges = 3 →
      d.totalNanoseconds ≤ d.count * d.maxNanoseconds ∧
      (d.count = 0 → d.totalNanoseconds = 0 ∧ d.maxNanoseconds = 0) ∧
      (d.result.averageMilliseconds : Rat) ≤ d.result.maxMilliseconds := by
  obtain ⟨p, hp, hd⟩ := System.reach_of_exec (overlapSystem .server) (InOrder .server)
    [.observe 5, .drain, .addTotal 0, .drainTotal 0, .load 0, .store 0, .drainMax 0]
    (fun p => p.1.drains = [⟨1, 5, 5, 3⟩]) (by decide)
  exact ⟨p.1, by simpa using hd, drained_consistent .server p hp⟩

/-! ### Overtaking -/

/-- One observer and one drain at a time. -/
def OneEach (w : Window) (l : WindowLabel) : Prop :=
  match l with
  | .observe _ => w.finished = true
  | .drain => w.drained = true
  | _ => True

instance (w : Window) (l : WindowLabel) : Decidable (OneEach w l) := by
  unfold OneEach
  cases l with
  | observe _ => exact inferInstanceAs (Decidable (_ = _))
  | drain => exact inferInstanceAs (Decidable (_ = _))
  | _ => exact .isTrue trivial

/-- Some drain has returned more than its count and its maximum allow. -/
def Window.torn (w : Window) : Bool :=
  w.drains.any fun d => d.exchanges = 3 && d.count * d.maxNanoseconds < d.totalNanoseconds

/-- An observation overtakes a drain on the way to the total, a drain overtakes an observation
there, and both once more on the way to the maximum. -/
def overtakings : List (List WindowLabel) :=
  [[.drain, .observe 5, .addTotal 0, .drainTotal 0, .drainMax 0],
    [.observe 5, .drain, .drainTotal 0, .addTotal 0, .drainMax 0, .load 0, .store 0, .drain,
      .drainTotal 1, .drainMax 1],
    [.drain, .drainTotal 0, .observe 5, .addTotal 0, .load 0, .store 0, .drainMax 0, .drain,
      .drainTotal 1, .drainMax 1],
    [.observe 5, .addTotal 0, .drain, .drainTotal 0, .drainMax 0]]

/-- After so many observations of nothing, one that takes 5 nanoseconds, and a drain. -/
theorem reach_wrapped (n : Nat) : ∃ w, (windowSystem .client).Reach OneEach w ∧
    w.drains = [⟨(n + 1) % 2 ^ 64, 5, 5, 3⟩] := by
  have hset : ∀ o o' : Observation,
      (List.replicate n (⟨0, .done⟩ : Observation) ++ [o]).set n o' =
        List.replicate n ⟨0, .done⟩ ++ [o'] := by
    intro o o'
    rw [List.set_append_right _ _ (by simp)]
    simp
  have h₀ : (windowSystem .client).Reach OneEach (counted n) :=
    reach_counted_of (fun n => by simp [OneEach, Window.finished, counted])
      (fun _ _ => ⟨trivial, trivial⟩) n
  have h₁ : (windowSystem .client).Reach OneEach ⟨(n + 1) % 2 ^ 64, 0, 0,
      List.replicate n ⟨0, .done⟩ ++ [⟨5, .counted⟩], []⟩ :=
    h₀.next (l := .observe 5) (by simp [OneEach, Window.finished, counted])
      (by simp [windowSystem, Window.step, counted])
  have h₂ : (windowSystem .client).Reach OneEach ⟨(n + 1) % 2 ^ 64, 5, 0,
      List.replicate n ⟨0, .done⟩ ++ [⟨5, .totaled⟩], []⟩ :=
    h₁.next (l := .addTotal n) trivial
      (by simp [windowSystem, Window.step, Window.setStage, hset])
  have h₃ : (windowSystem .client).Reach OneEach ⟨(n + 1) % 2 ^ 64, 5, 0,
      List.replicate n ⟨0, .done⟩ ++ [⟨5, .comparing 0⟩], []⟩ :=
    h₂.next (l := .load n) trivial
      (by simp [windowSystem, Window.step, Window.setStage, hset, afterLoad])
  have h₄ : (windowSystem .client).Reach OneEach ⟨(n + 1) % 2 ^ 64, 5, 5,
      List.replicate n ⟨0, .done⟩ ++ [⟨5, .done⟩], []⟩ :=
    h₃.next (l := .compareExchange n true) trivial
      (by simp [windowSystem, Window.step, Window.setStage, hset])
  have h₅ : (windowSystem .client).Reach OneEach ⟨0, 5, 5,
      List.replicate n ⟨0, .done⟩ ++ [⟨5, .done⟩], [⟨(n + 1) % 2 ^ 64, 0, 0, 1⟩]⟩ :=
    h₄.next (l := .drain) rfl rfl
  have h₆ : (windowSystem .client).Reach OneEach ⟨0, 0, 5,
      List.replicate n ⟨0, .done⟩ ++ [⟨5, .done⟩], [⟨(n + 1) % 2 ^ 64, 5, 0, 2⟩]⟩ :=
    h₅.next (l := .drainTotal 0) trivial rfl
  exact ⟨_, h₆.next (l := .drainMax 0) trivial rfl, rfl⟩

/-- **Windows that contradict themselves**: one for each way to overtake, and one in which the
count has wrapped. -/
theorem torn_windows :
    (∀ ls ∈ overtakings, ∃ w, (windowSystem .server).exec OneEach (windowSystem .server).start ls =
      some w ∧ w.torn = true) ∧
    ∃ w, (windowSystem .client).Reach OneEach w ∧ w.torn = true := by
  constructor
  · decide
  · obtain ⟨w, hw, hd⟩ := reach_wrapped (2 ^ 64 - 1)
    refine ⟨w, hw, ?_⟩
    rw [Window.torn, hd]
    decide

end Highp.Metrics
