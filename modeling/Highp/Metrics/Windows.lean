import Highp.Lib.Tally
import Highp.Lib.Transition
import Mathlib.Algebra.Order.Ring.Int

/-! The timing windows of the metrics. Count, total and maximum of a window are atomics of their
own, so that a drain can come between any two operations of an observation. -/

namespace Highp.Metrics
open Highp.Lib

/-- Whose `ObserveMax` it is. -/
inductive Owner
  | client
  | server
  deriving DecidableEq

/-- How far `ObserveWindow` has come: the count has been added; the total too; the maximum is to be
exchanged against what was observed; it is to be stored; done. -/
inductive Stage
  | counted
  | totaled
  | comparing (observed : Nat)
  | storing
  | done
  deriving DecidableEq

structure Observation where
  nanoseconds : Nat
  stage : Stage
  deriving DecidableEq

/-- A `DrainWindow` with its `result`, after so many of its three exchanges. -/
structure Drain where
  count : Nat
  totalNanoseconds : Nat
  maxNanoseconds : Nat
  exchanges : Nat
  deriving DecidableEq

/-- `TimingWindowState` with everything that was called on it. -/
structure Window where
  count : Nat
  totalNanoseconds : Nat
  maxNanoseconds : Nat
  observations : List Observation
  drains : List Drain
  deriving DecidableEq

inductive WindowLabel
  /-- `window.count.fetch_add(1)`. -/
  | observe (nanoseconds : Nat)
  /-- `window.totalNanoseconds.fetch_add(nanoseconds)`. -/
  | addTotal (i : Nat)
  /-- `currentMax.load()`. -/
  | load (i : Nat)
  /-- `currentMax.compare_exchange_weak(observed, value)`; it may fail for no reason. -/
  | compareExchange (i : Nat) (exchanged : Bool)
  /-- `currentMax.store(value)`. -/
  | store (i : Nat)
  /-- `window.count.exchange(0)`. -/
  | drain
  /-- `window.totalNanoseconds.exchange(0)`. -/
  | drainTotal (j : Nat)
  /-- `window.maxNanoseconds.exchange(0)`. -/
  | drainMax (j : Nat)

/-- The test of `ObserveMax` on what it has loaded. -/
def afterLoad (owner : Owner) (value observed : Nat) : Stage :=
  if observed < value then
    match owner with
    | .client => .comparing observed
    | .server => .storing
  else .done

namespace Window

def setStage (w : Window) (i : Nat) (o : Observation) (stage : Stage) : Window :=
  { w with observations := w.observations.set i { o with stage } }

def finished (w : Window) : Bool := w.observations.all fun o => o.stage = .done

/-- The server has one observer thread for each window. A number of nanoseconds is a `uint64_t`. -/
def step (owner : Owner) (w : Window) : WindowLabel → Option Window
  | .observe nanoseconds =>
    if nanoseconds < 2 ^ 64 ∧ (owner = .server → w.finished) then
      some { w with
        count := (w.count + 1) % 2 ^ 64
        observations := w.observations ++ [⟨nanoseconds, .counted⟩] }
    else none
  | .addTotal i =>
    match w.observations[i]? with
    | some o =>
      if o.stage = .counted then
        some { w.setStage i o .totaled with
          totalNanoseconds := (w.totalNanoseconds + o.nanoseconds) % 2 ^ 64 }
      else none
    | none => none
  | .load i =>
    match w.observations[i]? with
    | some o =>
      if o.stage = .totaled then
        some (w.setStage i o (afterLoad owner o.nanoseconds w.maxNanoseconds))
      else none
    | none => none
  | .compareExchange i exchanged =>
    match w.observations[i]? with
    | some o =>
      match o.stage with
      | .comparing observed =>
        if exchanged then
          if w.maxNanoseconds = observed then
            some { w.setStage i o .done with maxNanoseconds := o.nanoseconds }
          else none
        else some (w.setStage i o (afterLoad owner o.nanoseconds w.maxNanoseconds))
      | _ => none
    | none => none
  | .store i =>
    match w.observations[i]? with
    | some o =>
      if o.stage = .storing then
        some { w.setStage i o .done with maxNanoseconds := o.nanoseconds }
      else none
    | none => none
  | .drain =>
    some { w with count := 0, drains := w.drains ++ [⟨w.count, 0, 0, 1⟩] }
  | .drainTotal j =>
    match w.drains[j]? with
    | some d =>
      if d.exchanges = 1 then
        some { w with
          totalNanoseconds := 0
          drains := w.drains.set j
            { d with totalNanoseconds := w.totalNanoseconds, exchanges := 2 } }
      else none
    | none => none
  | .drainMax j =>
    match w.drains[j]? with
    | some d =>
      if d.exchanges = 2 then
        some { w with
          maxNanoseconds := 0
          drains := w.drains.set j { d with maxNanoseconds := w.maxNanoseconds, exchanges := 3 } }
      else none
    | none => none

/-- What a step can do. -/
inductive Step (owner : Owner) (w : Window) : Window → Prop
  | observe (nanoseconds : Nat) (hfree : owner = .server → w.finished) :
    Step owner w { w with
      count := (w.count + 1) % 2 ^ 64
      observations := w.observations ++ [⟨nanoseconds, .counted⟩] }
  | addTotal (i : Nat) (o : Observation) (ho : w.observations[i]? = some o)
    (hstage : o.stage = .counted) :
    Step owner w { w.setStage i o .totaled with
      totalNanoseconds := (w.totalNanoseconds + o.nanoseconds) % 2 ^ 64 }
  | load (i : Nat) (o : Observation) (ho : w.observations[i]? = some o)
    (hstage : o.stage ≠ .counted ∧ o.stage ≠ .done) :
    Step owner w (w.setStage i o (afterLoad owner o.nanoseconds w.maxNanoseconds))
  | exchanged (i : Nat) (o : Observation) (ho : w.observations[i]? = some o)
    (hstage : o.stage = .comparing w.maxNanoseconds) :
    Step owner w { w.setStage i o .done with maxNanoseconds := o.nanoseconds }
  | store (i : Nat) (o : Observation) (ho : w.observations[i]? = some o)
    (hstage : o.stage = .storing) :
    Step owner w { w.setStage i o .done with maxNanoseconds := o.nanoseconds }
  | drain : Step owner w { w with count := 0, drains := w.drains ++ [⟨w.count, 0, 0, 1⟩] }
  | drainTotal (j : Nat) (d : Drain) (hd : w.drains[j]? = some d) (hstage : d.exchanges = 1) :
    Step owner w { w with
      totalNanoseconds := 0
      drains := w.drains.set j { d with totalNanoseconds := w.totalNanoseconds, exchanges := 2 } }
  | drainMax (j : Nat) (d : Drain) (hd : w.drains[j]? = some d) (hstage : d.exchanges = 2) :
    Step owner w { w with
      maxNanoseconds := 0
      drains := w.drains.set j { d with maxNanoseconds := w.maxNanoseconds, exchanges := 3 } }

section
variable {owner : Owner} {w w' : Window} {i j : Nat}

theorem step_observe {nanoseconds : Nat} (hs : w.step owner (.observe nanoseconds) = some w') :
    (owner = .server → w.finished) ∧ w' = { w with
      count := (w.count + 1) % 2 ^ 64
      observations := w.observations ++ [⟨nanoseconds, .counted⟩] } := by
  simp only [step] at hs
  split at hs
  · rename_i hc
    cases hs
    exact ⟨hc.2, rfl⟩
  · cases hs

theorem step_addTotal (hs : w.step owner (.addTotal i) = some w') :
    ∃ o, w.observations[i]? = some o ∧ o.stage = .counted ∧ w' = { w.setStage i o .totaled with
      totalNanoseconds := (w.totalNanoseconds + o.nanoseconds) % 2 ^ 64 } := by
  simp only [step] at hs
  split at hs
  · rename_i o ho
    split at hs
    · rename_i hstage
      cases hs
      exact ⟨o, ho, hstage, rfl⟩
    · cases hs
  · cases hs

theorem step_load (hs : w.step owner (.load i) = some w') :
    ∃ o, w.observations[i]? = some o ∧ o.stage = .totaled ∧
      w' = w.setStage i o (afterLoad owner o.nanoseconds w.maxNanoseconds) := by
  simp only [step] at hs
  split at hs
  · rename_i o ho
    split at hs
    · rename_i hstage
      cases hs
      exact ⟨o, ho, hstage, rfl⟩
    · cases hs
  · cases hs

/-- An exchange that fails has loaded the maximum. -/
theorem step_compareExchange {exchanged : Bool}
    (hs : w.step owner (.compareExchange i exchanged) = some w') :
    ∃ o observed, w.observations[i]? = some o ∧ o.stage = .comparing observed ∧
      (w.maxNanoseconds = observed ∧
          w' = { w.setStage i o .done with maxNanoseconds := o.nanoseconds } ∨
        w' = w.setStage i o (afterLoad owner o.nanoseconds w.maxNanoseconds)) := by
  simp only [step] at hs
  split at hs
  · rename_i o ho
    split at hs
    · rename_i observed hstage
      split at hs
      · split at hs
        · rename_i hcur
          cases hs
          exact ⟨o, observed, ho, hstage, .inl ⟨hcur, rfl⟩⟩
        · cases hs
      · cases hs
        exact ⟨o, observed, ho, hstage, .inr rfl⟩
    · cases hs
  · cases hs

theorem step_store (hs : w.step owner (.store i) = some w') :
    ∃ o, w.observations[i]? = some o ∧ o.stage = .storing ∧
      w' = { w.setStage i o .done with maxNanoseconds := o.nanoseconds } := by
  simp only [step] at hs
  split at hs
  · rename_i o ho
    split at hs
    · rename_i hstage
      cases hs
      exact ⟨o, ho, hstage, rfl⟩
    · cases hs
  · cases hs

theorem step_drainTotal (hs : w.step owner (.drainTotal j) = some w') :
    ∃ d, w.drains[j]? = some d ∧ d.exchanges = 1 ∧ w' = { w with
      totalNanoseconds := 0
      drains := w.drains.set j
        { d with totalNanoseconds := w.totalNanoseconds, exchanges := 2 } } := by
  simp only [step] at hs
  split at hs
  · rename_i d hd
    split at hs
    · rename_i hstage
      cases hs
      exact ⟨d, hd, hstage, rfl⟩
    · cases hs
  · cases hs

theorem step_drainMax (hs : w.step owner (.drainMax j) = some w') :
    ∃ d, w.drains[j]? = some d ∧ d.exchanges = 2 ∧ w' = { w with
      maxNanoseconds := 0
      drains := w.drains.set j
        { d with maxNanoseconds := w.maxNanoseconds, exchanges := 3 } } := by
  simp only [step] at hs
  split at hs
  · rename_i d hd
    split at hs
    · rename_i hstage
      cases hs
      exact ⟨d, hd, hstage, rfl⟩
    · cases hs
  · cases hs

theorem step_cases {l : WindowLabel} (hs : w.step owner l = some w') : Step owner w w' := by
  cases l with
  | observe nanoseconds =>
    obtain ⟨hfree, rfl⟩ := step_observe hs
    exact .observe nanoseconds hfree
  | addTotal i =>
    obtain ⟨o, ho, hstage, rfl⟩ := step_addTotal hs
    exact .addTotal i o ho hstage
  | load i =>
    obtain ⟨o, ho, hstage, rfl⟩ := step_load hs
    exact .load i o ho (by simp [hstage])
  | compareExchange i exchanged =>
    obtain ⟨o, observed, ho, hstage, ⟨rfl, rfl⟩ | rfl⟩ := step_compareExchange hs
    · exact .exchanged i o ho hstage
    · exact .load i o ho (by simp [hstage])
  | store i =>
    obtain ⟨o, ho, hstage, rfl⟩ := step_store hs
    exact .store i o ho hstage
  | drain =>
    cases hs
    exact .drain
  | drainTotal j =>
    obtain ⟨d, hd, hstage, rfl⟩ := step_drainTotal hs
    exact .drainTotal j d hd hstage
  | drainMax j =>
    obtain ⟨d, hd, hstage, rfl⟩ := step_drainMax hs
    exact .drainMax j d hd hstage

end

/-! ## What is conserved -/

def countOf (w : Window) : Nat := w.count + (w.drains.map Drain.count).sum

def totalOf (w : Window) : Nat := w.totalNanoseconds + (w.drains.map Drain.totalNanoseconds).sum

end Window

/-- The largest of some numbers, zero if there is none. -/
def largest (xs : List Nat) : Nat := xs.foldr max 0

/-- The largest of the residual maximum and the drained ones. -/
def Window.maxOf (w : Window) : Nat :=
  max w.maxNanoseconds (largest (w.drains.map Drain.maxNanoseconds))

def Window.values (w : Window) : List Nat := w.observations.map Observation.nanoseconds

def windowSystem (owner : Owner) : System Window WindowLabel where
  start := ⟨0, 0, 0, [], []⟩
  step := Window.step owner

theorem le_largest {xs : List Nat} {x : Nat} (h : x ∈ xs) : x ≤ largest xs := by
  induction xs with
  | nil => simp at h
  | cons first rest ih =>
    show x ≤ max first (largest rest)
    rcases List.mem_cons.mp h with rfl | h
    · exact Nat.le_max_left _ _
    · exact Nat.le_trans (ih h) (Nat.le_max_right _ _)

theorem largest_le {xs : List Nat} {b : Nat} (h : ∀ x ∈ xs, x ≤ b) : largest xs ≤ b := by
  induction xs with
  | nil => exact Nat.zero_le b
  | cons first rest ih =>
    show max first (largest rest) ≤ b
    exact Nat.max_le.mpr ⟨h first (List.mem_cons_self ..),
      ih fun x hx => h x (List.mem_cons_of_mem _ hx)⟩

section
variable {owner : Owner} {w w' : Window}

theorem le_maxOf_drain {d : Drain} (h : d ∈ w.drains) : d.maxNanoseconds ≤ w.maxOf :=
  Nat.le_trans (le_largest (List.mem_map_of_mem h)) (Nat.le_max_right _ _)

theorem maxOf_le {b : Nat} (hmax : w.maxNanoseconds ≤ b)
    (hdrains : ∀ d ∈ w.drains, d.maxNanoseconds ≤ b) : w.maxOf ≤ b := by
  refine Nat.max_le.mpr ⟨hmax, largest_le fun x hx => ?_⟩
  obtain ⟨d, hd, rfl⟩ := List.mem_map.mp hx
  exact hdrains d hd

/-! ### Counts -/

/-- The count is that of the observations, until it wraps. -/
structure CountInv (w : Window) : Prop where
  mod : w.countOf % 2 ^ 64 = w.observations.length % 2 ^ 64
  le : w.countOf ≤ w.observations.length

theorem countInv_step (h : CountInv w) (hs : w.Step owner w') : CountInv w' := by
  obtain ⟨hmod, hle⟩ := h
  have hdrop : ∀ (j : Nat) (d d' : Drain), w.drains[j]? = some d → d'.count = d.count →
      ((w.drains.set j d').map Drain.count).sum = (w.drains.map Drain.count).sum := by
    intro j d d' hd heq
    have hsum := sum_set Drain.count hd d'
    omega
  simp only [Window.countOf] at hmod hle
  cases hs with
  | observe nanoseconds hfree =>
    constructor
    · simp only [Window.countOf, List.length_append, List.length_singleton]
      omega
    · simp only [Window.countOf, List.length_append, List.length_singleton]
      omega
  | addTotal i o ho hstage =>
    exact ⟨by simpa [Window.countOf, Window.setStage] using hmod,
      by simpa [Window.countOf, Window.setStage] using hle⟩
  | load i o ho hstage =>
    exact ⟨by simpa [Window.countOf, Window.setStage] using hmod,
      by simpa [Window.countOf, Window.setStage] using hle⟩
  | exchanged i o ho hstage =>
    exact ⟨by simpa [Window.countOf, Window.setStage] using hmod,
      by simpa [Window.countOf, Window.setStage] using hle⟩
  | store i o ho hstage =>
    exact ⟨by simpa [Window.countOf, Window.setStage] using hmod,
      by simpa [Window.countOf, Window.setStage] using hle⟩
  | drain =>
    have hsum : ((w.drains ++ [Drain.mk w.count 0 0 1]).map Drain.count).sum =
        (w.drains.map Drain.count).sum + w.count := by simp
    constructor
    · simp only [Window.countOf, hsum]
      omega
    · simp only [Window.countOf, hsum]
      omega
  | drainTotal j d hd hstage =>
    have hsame := hdrop j d
      { d with totalNanoseconds := w.totalNanoseconds, exchanges := 2 } hd rfl
    constructor
    · simp only [Window.countOf, hsame]
      exact hmod
    · simp only [Window.countOf, hsame]
      exact hle
  | drainMax j d hd hstage =>
    have hsame := hdrop j d { d with maxNanoseconds := w.maxNanoseconds, exchanges := 3 } hd rfl
    constructor
    · simp only [Window.countOf, hsame]
      exact hmod
    · simp only [Window.countOf, hsame]
      exact hle

/-! ### Totals -/

/-- What an observation has added to the total. -/
def Observation.added (o : Observation) : Nat := if o.stage = .counted then 0 else o.nanoseconds

/-- The total is that of the observations that have added theirs; a drain that has not come to it
has none. -/
structure TotalInv (w : Window) : Prop where
  mod : w.totalOf % 2 ^ 64 = (w.observations.map Observation.added).sum % 2 ^ 64
  fresh : ∀ d ∈ w.drains, d.exchanges = 1 → d.totalNanoseconds = 0

/-- An observation that has added to the total goes on. -/
theorem added_set {i : Nat} {o : Observation} (ho : w.observations[i]? = some o)
    (hstage : o.stage ≠ .counted) (stage : Stage) (hstage' : stage ≠ .counted) :
    ((w.observations.set i { o with stage }).map Observation.added).sum =
      (w.observations.map Observation.added).sum := by
  have hsum := sum_set Observation.added ho { o with stage }
  have hold : o.added = o.nanoseconds := if_neg hstage
  have hnew : ({ o with stage } : Observation).added = o.nanoseconds := if_neg hstage'
  omega

theorem afterLoad_ne_counted (owner : Owner) (value observed : Nat) :
    afterLoad owner value observed ≠ .counted := by
  unfold afterLoad
  split
  · cases owner with
    | client => simp
    | server => simp
  · simp

theorem totalInv_step (h : TotalInv w) (hs : w.Step owner w') : TotalInv w' := by
  obtain ⟨hmod, hfresh⟩ := h
  have hset : ∀ (j : Nat) (d : Drain), (d.exchanges = 1 → d.totalNanoseconds = 0) →
      ∀ x ∈ w.drains.set j d, x.exchanges = 1 → x.totalNanoseconds = 0 := by
    intro j d hd x hx
    rcases List.mem_or_eq_of_mem_set hx with hx | rfl
    · exact hfresh x hx
    · exact hd
  simp only [Window.totalOf] at hmod
  cases hs with
  | observe nanoseconds hfree =>
    refine ⟨?_, hfresh⟩
    simpa [Window.totalOf, Observation.added] using hmod
  | addTotal i o ho hstage =>
    refine ⟨?_, hfresh⟩
    have hsum := sum_set Observation.added ho { o with stage := .totaled }
    have hold : o.added = 0 := by rw [Observation.added, if_pos hstage]
    have hnew : ({ o with stage := .totaled } : Observation).added = o.nanoseconds :=
      if_neg (by simp)
    simp only [Window.totalOf, Window.setStage]
    omega
  | load i o ho hstage =>
    refine ⟨?_, hfresh⟩
    simp only [Window.totalOf, Window.setStage,
      added_set ho hstage.1 _ (afterLoad_ne_counted owner o.nanoseconds w.maxNanoseconds)]
    exact hmod
  | exchanged i o ho hstage =>
    refine ⟨?_, hfresh⟩
    simp only [Window.totalOf, Window.setStage,
      added_set ho (by simp [hstage]) .done (by simp)]
    exact hmod
  | store i o ho hstage =>
    refine ⟨?_, hfresh⟩
    simp only [Window.totalOf, Window.setStage,
      added_set ho (by simp [hstage]) .done (by simp)]
    exact hmod
  | drain =>
    refine ⟨by simpa [Window.totalOf] using hmod, fun d hd => ?_⟩
    rcases List.mem_append.mp hd with hd | hd
    · exact hfresh d hd
    · rw [List.mem_singleton.mp hd]
      exact fun _ => rfl
  | drainTotal j d hd hstage =>
    refine ⟨?_, hset j { d with totalNanoseconds := w.totalNanoseconds, exchanges := 2 } (by simp)⟩
    have hsum := sum_set Drain.totalNanoseconds hd
      { d with totalNanoseconds := w.totalNanoseconds, exchanges := 2 }
    have hzero := hfresh d (List.mem_of_getElem? hd) hstage
    simp only [Window.totalOf]
    simp only at hsum
    omega
  | drainMax j d hd hstage =>
    refine ⟨?_, hset j { d with maxNanoseconds := w.maxNanoseconds, exchanges := 3 } (by simp)⟩
    have hsum := sum_set Drain.totalNanoseconds hd
      { d with maxNanoseconds := w.maxNanoseconds, exchanges := 3 }
    simp only [Window.totalOf]
    simp only at hsum
    omega

/-! ### Maxima -/

structure MaxInv (owner : Owner) (w : Window) : Prop where
  /-- Nothing but what was observed is a maximum. -/
  upper : w.maxNanoseconds ≤ largest w.values ∧ ∀ d ∈ w.drains, d.maxNanoseconds ≤ largest w.values
  /-- Whoever is done has not been lost. -/
  seen : ∀ o ∈ w.observations, o.stage = .done → o.nanoseconds ≤ w.maxOf
  comparing : ∀ o ∈ w.observations, ∀ observed, o.stage = .comparing observed →
    observed < o.nanoseconds ∧ owner = .client
  /-- Since the load the maximum can only have been drained. -/
  storing : ∀ o ∈ w.observations, o.stage = .storing →
    w.maxNanoseconds ≤ o.nanoseconds ∧ owner = .server
  alone : owner = .server → ∀ i o, w.observations[i]? = some o → o.stage ≠ .done →
    i + 1 = w.observations.length
  fresh : ∀ d ∈ w.drains, d.exchanges ≤ 2 → d.maxNanoseconds = 0

theorem values_set {i : Nat} {o : Observation} (ho : w.observations[i]? = some o) (stage : Stage) :
    (w.observations.set i { o with stage }).map Observation.nanoseconds = w.values := by
  apply List.ext_getElem?
  intro k
  rw [Window.values, List.getElem?_map, List.getElem?_map]
  by_cases hk : i = k
  · subst hk
    have hi := (List.getElem?_eq_some_iff.mp ho).1
    rw [List.getElem?_set_self hi, ho]
    rfl
  · rw [List.getElem?_set_ne hk]

/-- An observation takes its next step, and the maximum does not get smaller. -/
theorem MaxInv.advance (h : MaxInv owner w) {i : Nat} {o : Observation}
    (ho : w.observations[i]? = some o) (hne : o.stage ≠ .done) (stage : Stage) (m : Nat)
    (hle : w.maxNanoseconds ≤ m) (hm : m ≤ largest w.values)
    (hdone : stage = .done → o.nanoseconds ≤ m ∨ o.nanoseconds ≤ w.maxOf)
    (hcomparing : ∀ observed, stage = .comparing observed →
      observed < o.nanoseconds ∧ owner = .client)
    (hstoring : stage = .storing → m ≤ o.nanoseconds ∧ owner = .server)
    (hothers : ∀ k x, k ≠ i → w.observations[k]? = some x → x.stage = .storing →
      m ≤ x.nanoseconds) :
    MaxInv owner { w.setStage i o stage with maxNanoseconds := m } := by
  have hvalues : Window.values { w.setStage i o stage with maxNanoseconds := m } = w.values :=
    values_set ho stage
  have hmax : w.maxOf ≤ Window.maxOf { w.setStage i o stage with maxNanoseconds := m } :=
    Nat.max_le.mpr ⟨Nat.le_trans hle (Nat.le_max_left _ _), Nat.le_max_right _ _⟩
  have hcases : ∀ x ∈ w.observations.set i { o with stage },
      (∃ k, k ≠ i ∧ w.observations[k]? = some x) ∨ x = { o with stage } := by
    intro x hx
    obtain ⟨k, hk⟩ := List.mem_iff_getElem?.mp hx
    by_cases hki : i = k
    · subst hki
      rw [List.getElem?_set_self (List.getElem?_eq_some_iff.mp ho).1] at hk
      exact Or.inr (Option.some.inj hk).symm
    · rw [List.getElem?_set_ne hki] at hk
      exact Or.inl ⟨k, fun heq => hki heq.symm, hk⟩
  refine ⟨?_, ?_, ?_, ?_, ?_, h.fresh⟩
  · rw [hvalues]
    exact ⟨hm, h.upper.2⟩
  · intro x hx hstage
    rcases hcases x hx with ⟨k, -, hk⟩ | rfl
    · exact Nat.le_trans (h.seen x (List.mem_of_getElem? hk) hstage) hmax
    · rcases hdone hstage with hd | hd
      · exact Nat.le_trans hd (Nat.le_max_left _ _)
      · exact Nat.le_trans hd hmax
  · intro x hx observed hstage
    rcases hcases x hx with ⟨k, -, hk⟩ | rfl
    · exact h.comparing x (List.mem_of_getElem? hk) observed hstage
    · exact hcomparing observed hstage
  · intro x hx hstage
    rcases hcases x hx with ⟨k, hki, hk⟩ | rfl
    · exact ⟨hothers k x hki hk hstage, (h.storing x (List.mem_of_getElem? hk) hstage).2⟩
    · exact hstoring hstage
  · intro howner k x hk hx
    show k + 1 = (w.observations.set i { o with stage }).length
    rw [List.length_set]
    by_cases hki : i = k
    · subst hki
      exact h.alone howner i o ho hne
    · have hk' : w.observations[k]? = some x := by
        rw [← hk]
        exact (List.getElem?_set_ne hki).symm
      exact h.alone howner k x hk' hx

/-- On the server nobody else is observing; on the client nobody stores. -/
theorem MaxInv.no_other (h : MaxInv owner w) {i : Nat} {o : Observation}
    (ho : w.observations[i]? = some o) (hne : o.stage ≠ .done) {k : Nat} {x : Observation}
    (hki : k ≠ i) (hk : w.observations[k]? = some x) : x.stage ≠ .storing := by
  intro hstage
  have howner := (h.storing x (List.mem_of_getElem? hk) hstage).2
  have h₁ := h.alone howner i o ho hne
  have h₂ := h.alone howner k x hk (by simp [hstage])
  omega

theorem le_largest_values {i : Nat} {o : Observation} (ho : w.observations[i]? = some o) :
    o.nanoseconds ≤ largest w.values :=
  le_largest (List.mem_map_of_mem (List.mem_of_getElem? ho))

theorem maxInv_load (h : MaxInv owner w) {i : Nat} {o : Observation}
    (ho : w.observations[i]? = some o) (hne : o.stage ≠ .done) :
    MaxInv owner (w.setStage i o (afterLoad owner o.nanoseconds w.maxNanoseconds)) := by
  refine h.advance ho hne _ w.maxNanoseconds (Nat.le_refl _) h.upper.1 ?_ ?_ ?_ ?_
  · intro hstage
    unfold afterLoad at hstage
    split at hstage
    · cases owner with
      | client => cases hstage
      | server => cases hstage
    · exact Or.inl (by omega)
  · intro observed hstage
    unfold afterLoad at hstage
    split at hstage
    · cases owner with
      | client =>
        cases hstage
        exact ⟨‹_›, rfl⟩
      | server => cases hstage
    · cases hstage
  · intro hstage
    unfold afterLoad at hstage
    split at hstage
    · cases owner with
      | client => cases hstage
      | server => exact ⟨by omega, rfl⟩
    · cases hstage
  · intro k x _ hk hstage
    exact (h.storing x (List.mem_of_getElem? hk) hstage).1

theorem maxInv_observe (h : MaxInv owner w) (nanoseconds : Nat)
    (hfree : owner = .server → w.finished) :
    MaxInv owner { w with
      count := (w.count + 1) % 2 ^ 64
      observations := w.observations ++ [⟨nanoseconds, .counted⟩] } := by
  have hmem : ∀ o ∈ w.observations ++ [⟨nanoseconds, .counted⟩],
      o ∈ w.observations ∨ o.stage = .counted := by
    intro o ho
    rcases List.mem_append.mp ho with ho | ho
    · exact Or.inl ho
    · rw [List.mem_singleton.mp ho]
      exact Or.inr rfl
  have hgrow : largest w.values ≤
      largest ((w.observations ++ [Observation.mk nanoseconds .counted]).map
        Observation.nanoseconds) := by
    refine largest_le fun x hx => le_largest ?_
    rw [List.map_append]
    exact List.mem_append_left _ hx
  refine ⟨⟨Nat.le_trans h.upper.1 hgrow, fun d hd => Nat.le_trans (h.upper.2 d hd) hgrow⟩,
    ?_, ?_, ?_, ?_, h.fresh⟩
  · intro o ho hstage
    rcases hmem o ho with ho | hc
    · exact h.seen o ho hstage
    · rw [hc] at hstage
      cases hstage
  · intro o ho observed hstage
    rcases hmem o ho with ho | hc
    · exact h.comparing o ho observed hstage
    · rw [hc] at hstage
      cases hstage
  · intro o ho hstage
    rcases hmem o ho with ho | hc
    · exact h.storing o ho hstage
    · rw [hc] at hstage
      cases hstage
  · intro howner i o hi hne
    have hall := List.all_eq_true.mp (hfree howner)
    rw [List.length_append, List.length_singleton]
    by_cases hlt : i < w.observations.length
    · rw [List.getElem?_append_left hlt] at hi
      exact absurd (by simpa using hall o (List.mem_of_getElem? hi)) hne
    · have hlen := (List.getElem?_eq_some_iff.mp hi).1
      rw [List.length_append, List.length_singleton] at hlen
      omega

/-- A drain takes at most what is there, and no maximum is lost by it. -/
theorem MaxInv.drained (h : MaxInv owner w) (hobs : w'.observations = w.observations)
    (hle : w'.maxNanoseconds ≤ w.maxNanoseconds) (hmax : w.maxOf ≤ w'.maxOf)
    (hdrains : ∀ d ∈ w'.drains, d ∈ w.drains ∨
      d.maxNanoseconds ≤ w.maxNanoseconds ∧ (d.exchanges ≤ 2 → d.maxNanoseconds = 0)) :
    MaxInv owner w' := by
  have hvalues : w'.values = w.values := by rw [Window.values, hobs, Window.values]
  constructor
  · rw [hvalues]
    refine ⟨Nat.le_trans hle h.upper.1, fun d hd => ?_⟩
    rcases hdrains d hd with hold | hnew
    · exact h.upper.2 d hold
    · exact Nat.le_trans hnew.1 h.upper.1
  · rw [hobs]
    exact fun o ho hdone => Nat.le_trans (h.seen o ho hdone) hmax
  · rw [hobs]
    exact h.comparing
  · rw [hobs]
    exact fun o ho hstage =>
      ⟨Nat.le_trans hle (h.storing o ho hstage).1, (h.storing o ho hstage).2⟩
  · rw [hobs]
    exact h.alone
  · intro d hd hstage
    rcases hdrains d hd with hold | hnew
    · exact h.fresh d hold hstage
    · exact hnew.2 hstage

/-- A drain that goes on has had no maximum so far. -/
theorem MaxInv.maxOf_set (h : MaxInv owner w) {j : Nat} {d d' : Drain}
    (hd : w.drains[j]? = some d) (hstage : d.exchanges ≤ 2) (hset : w'.drains = w.drains.set j d')
    (hle : w.maxNanoseconds ≤ w'.maxOf) : w.maxOf ≤ w'.maxOf := by
  refine maxOf_le hle fun x hx => ?_
  obtain ⟨k, hk⟩ := List.mem_iff_getElem?.mp hx
  by_cases hjk : j = k
  · subst hjk
    rw [hd] at hk
    cases hk
    rw [h.fresh d (List.mem_of_getElem? hd) hstage]
    exact Nat.zero_le _
  · refine le_maxOf_drain (List.mem_iff_getElem?.mpr ⟨k, ?_⟩)
    rw [hset, List.getElem?_set_ne hjk]
    exact hk

theorem maxInv_drain (h : MaxInv owner w) :
    MaxInv owner { w with count := 0, drains := w.drains ++ [⟨w.count, 0, 0, 1⟩] } := by
  have hmax : w.maxOf ≤ Window.maxOf
      { w with count := 0, drains := w.drains ++ [⟨w.count, 0, 0, 1⟩] } := by
    refine maxOf_le (Nat.le_max_left _ _) fun d hd => ?_
    exact le_maxOf_drain (List.mem_append_left _ hd)
  refine h.drained rfl (Nat.le_refl _) hmax fun d hd => ?_
  rcases List.mem_append.mp hd with hd | hd
  · exact .inl hd
  · rw [List.mem_singleton.mp hd]
    exact .inr ⟨Nat.zero_le _, fun _ => rfl⟩

theorem maxInv_drainTotal (h : MaxInv owner w) {j : Nat} {d : Drain} (hd : w.drains[j]? = some d)
    (hstage : d.exchanges = 1) :
    MaxInv owner { w with
      totalNanoseconds := 0
      drains := w.drains.set j { d with totalNanoseconds := w.totalNanoseconds, exchanges := 2 } }
    := by
  have hzero := h.fresh d (List.mem_of_getElem? hd) (by omega)
  refine h.drained rfl (Nat.le_refl _)
    (h.maxOf_set hd (by omega) rfl (Nat.le_max_left _ _)) fun x hx => ?_
  rcases List.mem_or_eq_of_mem_set hx with hx | rfl
  · exact .inl hx
  · exact .inr ⟨by simp [hzero], fun _ => hzero⟩

/-- The maximum goes over into the drain. -/
theorem maxInv_drainMax (h : MaxInv owner w) {j : Nat} {d : Drain} (hd : w.drains[j]? = some d)
    (hstage : d.exchanges = 2) :
    MaxInv owner { w with
      maxNanoseconds := 0
      drains := w.drains.set j { d with maxNanoseconds := w.maxNanoseconds, exchanges := 3 } } := by
  have hj := (List.getElem?_eq_some_iff.mp hd).1
  refine h.drained rfl (Nat.zero_le _) (h.maxOf_set hd (by omega) rfl ?_) fun x hx => ?_
  · exact le_maxOf_drain (d := { d with maxNanoseconds := w.maxNanoseconds, exchanges := 3 })
      (List.mem_iff_getElem?.mpr ⟨j, List.getElem?_set_self hj⟩)
  rcases List.mem_or_eq_of_mem_set hx with hx | rfl
  · exact .inl hx
  · exact .inr ⟨Nat.le_refl _, fun hle => absurd hle (by simp)⟩

theorem maxInv_step (h : MaxInv owner w) (hs : w.Step owner w') : MaxInv owner w' := by
  cases hs with
  | observe nanoseconds hfree => exact maxInv_observe h nanoseconds hfree
  | addTotal i o ho hstage =>
    have hadd := h.advance ho (by simp [hstage]) .totaled w.maxNanoseconds (Nat.le_refl _)
      h.upper.1 (by simp) (by simp) (by simp)
      fun k x _ hk hst => (h.storing x (List.mem_of_getElem? hk) hst).1
    exact ⟨hadd.upper, hadd.seen, hadd.comparing, hadd.storing, hadd.alone, hadd.fresh⟩
  | load i o ho hstage => exact maxInv_load h ho hstage.2
  | exchanged i o ho hstage =>
    have hlt := (h.comparing o (List.mem_of_getElem? ho) _ hstage).1
    exact h.advance ho (by simp [hstage]) .done o.nanoseconds (Nat.le_of_lt hlt)
      (le_largest_values ho) (fun _ => Or.inl (Nat.le_refl _)) (by simp) (by simp)
      fun k x hki hk hst => absurd hst (h.no_other ho (by simp [hstage]) hki hk)
  | store i o ho hstage =>
    have hle := (h.storing o (List.mem_of_getElem? ho) hstage).1
    exact h.advance ho (by simp [hstage]) .done o.nanoseconds hle
      (le_largest_values ho) (fun _ => Or.inl (Nat.le_refl _)) (by simp) (by simp)
      fun k x hki hk hst => absurd hst (h.no_other ho (by simp [hstage]) hki hk)
  | drain => exact maxInv_drain h
  | drainTotal j d hd hstage => exact maxInv_drainTotal h hd hstage
  | drainMax j d hd hstage => exact maxInv_drainMax h hd hstage

theorem inv_reach {ok : Window → WindowLabel → Prop} (h : (windowSystem owner).Reach ok w) :
    CountInv w ∧ TotalInv w ∧ MaxInv owner w := by
  refine h.invariant (I := fun w => CountInv w ∧ TotalInv w ∧ MaxInv owner w) ?_ ?_
  · refine ⟨⟨rfl, Nat.le_refl _⟩, ⟨rfl, by simp [windowSystem]⟩, ?_⟩
    exact ⟨⟨Nat.zero_le _, by simp [windowSystem]⟩, by simp [windowSystem], by simp [windowSystem],
      by simp [windowSystem], by simp [windowSystem], by simp [windowSystem]⟩
  · rintro s t l _ ⟨hc, ht, hm⟩ - hs
    have hstep := Window.step_cases hs
    exact ⟨countInv_step hc hstep, totalInv_step ht hstep, maxInv_step hm hstep⟩

end

/-- What the drained windows and the residual one have together. The counts are exact as long as
they do not wrap. -/
structure Window.Conserved (w : Window) : Prop where
  count : w.countOf % 2 ^ 64 = w.observations.length % 2 ^ 64
  exact : w.observations.length < 2 ^ 64 → w.countOf = w.observations.length
  total : w.totalOf % 2 ^ 64 = w.values.sum % 2 ^ 64
  max : w.maxOf = largest w.values

/-- **Timing windows conserve observations**: for any number of observers on the client and one on
the server, and any number of drains, in whatever order their operations come. -/
theorem windows_conserve (owner : Owner) (w : Window)
    (h : (windowSystem owner).Reach System.always w) (hdone : w.finished = true) :
    w.Conserved := by
  obtain ⟨hc, ht, hm⟩ := inv_reach h
  have hall : ∀ o ∈ w.observations, o.stage = .done := by
    intro o ho
    simpa using List.all_eq_true.mp hdone o ho
  have hadded : w.observations.map Observation.added = w.values := by
    apply List.map_congr_left
    intro o ho
    exact if_neg (by simp [hall o ho])
  refine ⟨hc.mod, fun hlt => ?_, ?_, ?_⟩
  · have hmod := hc.mod
    have hle := hc.le
    rw [Nat.mod_eq_of_lt hlt, Nat.mod_eq_of_lt (by omega)] at hmod
    exact hmod
  · rw [← hadded]
    exact ht.mod
  · apply Nat.le_antisymm
    · exact maxOf_le hm.upper.1 hm.upper.2
    · refine largest_le fun x hx => ?_
      obtain ⟨o, ho, rfl⟩ := List.mem_map.mp hx
      exact hm.seen o ho (hall o ho)

/-- Two observers on the client with a drain between their operations. -/
theorem windows_conserve_interleaved : ∃ w : Window, w.values = [5, 7] ∧ w.Conserved := by
  obtain ⟨w, hw, hp⟩ := System.reach_of_exec (windowSystem .client) System.always
    [.observe 5, .observe 7, .addTotal 1, .drain, .load 1, .addTotal 0, .load 0, .drainTotal 0,
      .compareExchange 0 true, .compareExchange 1 false, .compareExchange 1 true, .drainMax 0]
    (fun w => w.values == [5, 7] && w.finished) (by decide)
  rw [Bool.and_eq_true, beq_iff_eq] at hp
  exact ⟨w, hp.1, windows_conserve .client w hw hp.2⟩

/-! ### Where the count wraps -/

/-- So many observations of nothing, one after the other, and no drain. -/
def counted (n : Nat) : Window :=
  ⟨n % 2 ^ 64, 0, 0, List.replicate n ⟨0, .done⟩, []⟩

theorem reach_counted_of {ok : Window → WindowLabel → Prop}
    (hobserve : ∀ n, ok (counted n) (.observe 0))
    (hrest : ∀ w i, ok w (.addTotal i) ∧ ok w (.load i)) (n : Nat) :
    (windowSystem .client).Reach ok (counted n) := by
  induction n with
  | zero => exact .start
  | succ n ih =>
    have hset : ∀ o o' : Observation,
        (List.replicate n (⟨0, .done⟩ : Observation) ++ [o]).set n o' =
          List.replicate n ⟨0, .done⟩ ++ [o'] := by
      intro o o'
      rw [List.set_append_right _ _ (by simp)]
      simp
    have h₁ : (windowSystem .client).Reach ok ⟨(n % 2 ^ 64 + 1) % 2 ^ 64, 0, 0,
        List.replicate n ⟨0, .done⟩ ++ [⟨0, .counted⟩], []⟩ :=
      ih.next (l := .observe 0) (hobserve n) (by simp [windowSystem, Window.step, counted])
    have h₂ : (windowSystem .client).Reach ok ⟨(n % 2 ^ 64 + 1) % 2 ^ 64, 0, 0,
        List.replicate n ⟨0, .done⟩ ++ [⟨0, .totaled⟩], []⟩ :=
      h₁.next (l := .addTotal n) (hrest _ n).1
        (by simp [windowSystem, Window.step, Window.setStage, hset])
    have h₃ : (windowSystem .client).Reach ok ⟨(n % 2 ^ 64 + 1) % 2 ^ 64, 0, 0,
        List.replicate n ⟨0, .done⟩ ++ [⟨0, .done⟩], []⟩ :=
      h₂.next (l := .load n) (hrest _ n).2
        (by simp [windowSystem, Window.step, Window.setStage, hset, afterLoad])
    have heq : counted (n + 1) = ⟨(n % 2 ^ 64 + 1) % 2 ^ 64, 0, 0,
        List.replicate n ⟨0, .done⟩ ++ [⟨0, .done⟩], []⟩ := by
      rw [counted, List.replicate_succ', Nat.mod_add_mod]
    rw [heq]
    exact h₃

theorem reach_counted (n : Nat) : (windowSystem .client).Reach System.always (counted n) :=
  reach_counted_of (fun _ => trivial) (fun _ _ => ⟨trivial, trivial⟩) n

/-- After 2^64 observations the `uint64_t` is at zero again. -/
theorem count_wraps : ¬ ∀ w, (windowSystem .client).Reach System.always w → w.finished = true →
    w.countOf = w.observations.length := by
  intro hclaim
  have hall : ∀ n, n % 2 ^ 64 = n := by
    intro n
    have h := hclaim (counted n) (reach_counted n) (by simp [Window.finished, counted])
    simpa [Window.countOf, counted] using h
  exact absurd (hall (2 ^ 64)) (by decide)

end Highp.Metrics
