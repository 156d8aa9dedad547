import Highp.Lib.Tally
import Highp.Lib.Transition
import Mathlib.Algebra.BigOperators.Group.List.Basic
import Mathlib.Data.List.Nodup
import Mathlib.Algebra.Order.Ring.Int

/-! `HybridObjectPool`: a pool for each thread and a global one behind a mutex. Objects are numbered
in the order in which they are allocated; none is ever freed. -/

namespace Highp.Memory
open Highp.Lib

def LocalMaxCapacity : Nat := 50 * 2
def ChunkSize : Nat := 50

/-- `static_cast<int>`. -/
def toInt (size : Nat) : Int := Int.bmod size (2 ^ 32)

/-- Where a thread is. What the locked section of `Get` found in the local and in the global pool
is kept until `Get` ends. -/
inductive Phase
  | idle
  | fetching
  | fetched (localSize globalSize : Nat)
  | moving
  deriving DecidableEq

/-- A thread with its `LocalStorage`. -/
structure Thread where
  pool : List Nat
  phase : Phase
  alive : Bool
  deriving DecidableEq

/-- `out` has the objects that are checked out with the threads that got them, `allocations` what
the allocating calls of `Get` found. -/
structure Pool where
  allocated : Nat
  globalPool : List Nat
  threads : List Thread
  out : List (Nat × Nat)
  allocations : List (Nat × Nat)
  deriving DecidableEq

inductive Label
  /-- A thread begins. -/
  | spawn
  /-- `Get` with something in the local pool. -/
  | pop (t : Nat)
  /-- `Get` with an empty local pool, up to the mutex. -/
  | miss (t : Nat)
  /-- The locked section of `Get`. -/
  | fetch (t : Nat)
  /-- `Get` behind its locked section. -/
  | finish (t : Nat)
  /-- `Return` of the `i`-th object that is checked out, up to the mutex if it comes to that. -/
  | returnItem (t i : Nat)
  /-- The locked section of `Return`. -/
  | move (t : Nat)
  /-- The destructor of `LocalStorage`. -/
  | exit (t : Nat)

namespace Pool

def setThread (s : Pool) (t : Nat) (th : Thread) : Pool :=
  { s with threads := s.threads.set t th }

/-- `Get` hands out the last object of the local pool. -/
def handOut (s : Pool) (t : Nat) (th : Thread) : Option Pool :=
  match th.pool.getLast? with
  | some item =>
    some { s.setThread t { th with pool := th.pool.dropLast, phase := .idle } with
      out := (item, t) :: s.out }
  | none => none

/-- The chunk that `Get` takes from the end of the global pool. -/
def fetchCount (s : Pool) : Nat :=
  if toInt s.globalPool.length > 0 then (min (toInt s.globalPool.length) ChunkSize).toNat else 0

def act (s : Pool) (t : Nat) (th : Thread) : Label → Option Pool
  | .pop _ => if th.phase = .idle then s.handOut t th else none
  | .miss _ =>
    if th.phase = .idle ∧ th.pool = [] then some (s.setThread t { th with phase := .fetching })
    else none
  | .fetch _ =>
    if th.phase = .fetching then
      let start := s.globalPool.length - s.fetchCount
      some { s.setThread t { th with
          pool := th.pool ++ s.globalPool.drop start
          phase := .fetched th.pool.length s.globalPool.length } with
        globalPool := s.globalPool.take start }
    else none
  | .finish _ =>
    match th.phase with
    | .fetched localSize globalSize =>
      if th.pool = [] then
        some { s.setThread t { th with phase := .idle } with
          allocated := s.allocated + 1
          out := (s.allocated, t) :: s.out
          allocations := (localSize, globalSize) :: s.allocations }
      else s.handOut t th
    | _ => none
  | .returnItem _ i =>
    match s.out[i]? with
    | some (item, _) =>
      if th.phase = .idle then
        let pool := th.pool ++ [item]
        some { s.setThread t { th with
            pool
            phase := if pool.length ≥ LocalMaxCapacity then .moving else .idle } with
          out := s.out.eraseIdx i }
      else none
    | none => none
  | .move _ =>
    if th.phase = .moving then
      let start := th.pool.length - ChunkSize
      some { s.setThread t { th with pool := th.pool.take start, phase := .idle } with
        globalPool := s.globalPool ++ th.pool.drop start }
    else none
  | .exit _ =>
    if th.phase = .idle then
      some { s.setThread t { th with pool := [], alive := false } with
        globalPool := s.globalPool ++ th.pool }
    else none
  | .spawn => none

/-- The thread that acts. -/
def actor : Label → Nat
  | .spawn => 0
  | .pop t | .miss t | .fetch t | .finish t | .returnItem t _ | .move t | .exit t => t

def step (s : Pool) (l : Label) : Option Pool :=
  match l with
  | .spawn => some { s with threads := s.threads ++ [⟨[], .idle, true⟩] }
  | l =>
    match s.threads[actor l]? with
    | some th => if th.alive then s.act (actor l) th l else none
    | none => none

end Pool

def poolSystem : System Pool Label where
  start := ⟨0, [], [], [], []⟩
  step := Pool.step

/-! ## What a step does -/

/-- What a thread that acts does, and what it has checked. -/
inductive Pool.Act (s : Pool) (t : Nat) (th : Thread) : Label → Pool → Prop
  | handOut (l : Label) (init : List Nat) (item : Nat) :
      (th.phase = .idle ∨ ∃ localSize globalSize, th.phase = .fetched localSize globalSize) →
      th.pool = init ++ [item] →
      Act s t th l { s.setThread t { th with pool := init, phase := .idle } with
        out := (item, t) :: s.out }
  | miss (u : Nat) : th.phase = .idle → th.pool = [] →
      Act s t th (.miss u) (s.setThread t { th with phase := .fetching })
  | fetch (u : Nat) : th.phase = .fetching →
      Act s t th (.fetch u) { s.setThread t { th with
          pool := th.pool ++ s.globalPool.drop (s.globalPool.length - s.fetchCount)
          phase := .fetched th.pool.length s.globalPool.length } with
        globalPool := s.globalPool.take (s.globalPool.length - s.fetchCount) }
  | allocate (u localSize globalSize : Nat) : th.phase = .fetched localSize globalSize →
      th.pool = [] →
      Act s t th (.finish u) { s.setThread t { th with phase := .idle } with
        allocated := s.allocated + 1
        out := (s.allocated, t) :: s.out
        allocations := (localSize, globalSize) :: s.allocations }
  | returnItem (u i item holder : Nat) (phase : Phase) : th.phase = .idle →
      s.out[i]? = some (item, holder) →
      phase = (if (th.pool ++ [item]).length ≥ LocalMaxCapacity then .moving else .idle) →
      Act s t th (.returnItem u i) { s.setThread t { th with pool := th.pool ++ [item], phase } with
        out := s.out.eraseIdx i }
  | move (u : Nat) : th.phase = .moving →
      Act s t th (.move u) { s.setThread t { th with
          pool := th.pool.take (th.pool.length - ChunkSize)
          phase := .idle } with
        globalPool := s.globalPool ++ th.pool.drop (th.pool.length - ChunkSize) }
  | exit (u : Nat) : th.phase = .idle →
      Act s t th (.exit u) { s.setThread t { th with pool := [], alive := false } with
        globalPool := s.globalPool ++ th.pool }

section
variable {s s' : Pool} {t : Nat} {th : Thread} {l : Label}

theorem handOut_cases (hs : s.handOut t th = some s') : ∃ init item, th.pool = init ++ [item] ∧
    s' = { s.setThread t { th with pool := init, phase := .idle } with
      out := (item, t) :: s.out } := by
  unfold Pool.handOut at hs
  split at hs
  · rename_i item hlast
    cases hs
    obtain ⟨init, hpool⟩ := List.getLast?_eq_some_iff.mp hlast
    exact ⟨init, item, hpool, by rw [hpool, List.dropLast_concat]⟩
  · cases hs

theorem act_cases (hs : s.act t th l = some s') : s.Act t th l s' := by
  cases l with
  | spawn => cases hs
  | pop u =>
    simp only [Pool.act] at hs
    split at hs
    · rename_i hphase
      obtain ⟨init, item, hpool, rfl⟩ := handOut_cases hs
      exact .handOut _ init item (.inl hphase) hpool
    · cases hs
  | miss u =>
    simp only [Pool.act] at hs
    split at hs
    · rename_i hc
      cases hs
      exact .miss u hc.1 hc.2
    · cases hs
  | fetch u =>
    simp only [Pool.act] at hs
    split at hs
    · rename_i hphase
      cases hs
      exact .fetch u hphase
    · cases hs
  | finish u =>
    simp only [Pool.act] at hs
    split at hs
    · rename_i localSize globalSize hphase
      split at hs
      · rename_i hempty
        cases hs
        exact .allocate u localSize globalSize hphase hempty
      · obtain ⟨init, item, hpool, rfl⟩ := handOut_cases hs
        exact .handOut _ init item (.inr ⟨localSize, globalSize, hphase⟩) hpool
    · cases hs
  | returnItem u i =>
    simp only [Pool.act] at hs
    split at hs
    · rename_i item holder hout
      split at hs
      · rename_i hphase
        cases hs
        exact .returnItem u i item holder _ hphase hout rfl
      · cases hs
    · cases hs
  | move u =>
    simp only [Pool.act] at hs
    split at hs
    · rename_i hphase
      cases hs
      exact .move u hphase
    · cases hs
  | exit u =>
    simp only [Pool.act] at hs
    split at hs
    · rename_i hphase
      cases hs
      exact .exit u hphase
    · cases hs

/-- A step that is not the start of a thread is one of a thread that lives. -/
theorem step_act (hs : s.step l = some s') (hl : l ≠ .spawn) :
    ∃ th, s.threads[Pool.actor l]? = some th ∧ th.alive = true ∧ s.Act (Pool.actor l) th l s' := by
  cases l with
  | spawn => exact absurd rfl hl
  | _ =>
    simp only [Pool.step] at hs
    split at hs
    · rename_i th ht
      split at hs
      · exact ⟨th, ht, ‹_›, act_cases hs⟩
      · cases hs
    · cases hs

end

/-! ## Every object has one place -/

inductive Place
  | holder (t : Nat)
  | localPool (t : Nat)
  | globalPool

namespace Pool

/-- The objects in a place. -/
def at' (s : Pool) : Place → List Nat
  | .holder t => (s.out.filter fun entry => entry.2 == t).map Prod.fst
  | .localPool t =>
    match s.threads[t]? with
    | some th => th.pool
    | none => []
  | .globalPool => s.globalPool

/-- How often an object is anywhere. -/
def occurrences (s : Pool) (o : Nat) : Nat :=
  (s.out.map Prod.fst).count o + (s.threads.map fun th => th.pool.count o).sum +
    s.globalPool.count o

end Pool

/-- Once if it is allocated, and not at all if not. -/
def present (allocated o : Nat) : Nat := if o < allocated then 1 else 0

theorem present_succ (allocated o : Nat) :
    present (allocated + 1) o = present allocated o + [allocated].count o := by
  unfold present
  rw [List.count_singleton]
  by_cases heq : allocated = o
  · subst heq
    simp
  · have hlt : o < allocated + 1 ↔ o < allocated := by omega
    simp [hlt, heq]

/-- How many objects a thread has in each phase. -/
def Thread.Sized (th : Thread) : Prop :=
  match th.phase with
  | .idle => th.pool.length < LocalMaxCapacity ∧ (th.alive = false → th.pool = [])
  | .fetching => th.pool = [] ∧ th.alive = true
  | .fetched localSize _ => th.pool.length ≤ ChunkSize ∧ localSize = 0 ∧ th.alive = true
  | .moving => th.pool.length = LocalMaxCapacity ∧ th.alive = true

structure Pool.Inv (s : Pool) : Prop where
  accounted : ∀ o, s.occurrences o = present s.allocated o
  sized : ∀ th ∈ s.threads, th.Sized
  allocations : ∀ a ∈ s.allocations, a.1 = 0

section
variable {s s' : Pool} {t : Nat} {th th' : Thread}

theorem count_take_drop (o n : Nat) (xs : List Nat) :
    (xs.take n).count o + (xs.drop n).count o = xs.count o := by
  rw [← List.count_append, List.take_append_drop]

/-- A thread acts: what comes into the three kinds of places went out of them or is new. -/
theorem Pool.Inv.next (h : s.Inv) (ht : s.threads[t]? = some th)
    (hthreads : s'.threads = s.threads.set t th') (hsized : th'.Sized)
    (hbalance : ∀ o, (s'.out.map Prod.fst).count o + th'.pool.count o + s'.globalPool.count o +
        present s.allocated o =
      (s.out.map Prod.fst).count o + th.pool.count o + s.globalPool.count o +
        present s'.allocated o)
    (hallocations : ∀ a ∈ s'.allocations, a.1 = 0) : s'.Inv := by
  refine ⟨fun o => ?_, ?_, hallocations⟩
  · have hsum := sum_set (fun th => th.pool.count o) ht th'
    have hold := h.accounted o
    have hbalance := hbalance o
    simp only [Pool.occurrences] at hold
    rw [Pool.occurrences, hthreads]
    omega
  · intro x hx
    rw [hthreads] at hx
    rcases List.mem_or_eq_of_mem_set hx with hx | rfl
    · exact h.sized x hx
    · exact hsized

/-- The last object of the local pool changes places. -/
theorem inv_handOut (h : s.Inv) (ht : s.threads[t]? = some th) (halive : th.alive = true)
    {init : List Nat} {item : Nat} (hpool : th.pool = init ++ [item])
    (hphase : th.phase = .idle ∨ ∃ localSize globalSize, th.phase = .fetched localSize globalSize) :
    Pool.Inv { s.setThread t { th with pool := init, phase := .idle } with
      out := (item, t) :: s.out } := by
  have hsized := h.sized th (List.mem_of_getElem? ht)
  have hlen : th.pool.length < LocalMaxCapacity := by
    rcases hphase with hidle | ⟨localSize, globalSize, hfetched⟩
    · rw [Thread.Sized, hidle] at hsized
      exact hsized.1
    · rw [Thread.Sized, hfetched] at hsized
      exact Nat.lt_of_le_of_lt hsized.1 (by decide)
  rw [hpool, List.length_append, List.length_singleton] at hlen
  refine h.next ht rfl ?_ (fun o => ?_) h.allocations
  · refine ⟨?_, fun hdead => absurd (halive.symm.trans hdead) (by decide)⟩
    show init.length < LocalMaxCapacity
    omega
  · simp only [Pool.setThread, hpool, List.map_cons, List.count_append, List.count_cons,
      List.count_nil]
    omega

/-- At most a chunk comes from the end of the global pool. -/
theorem inv_fetch (h : s.Inv) (ht : s.threads[t]? = some th) (halive : th.alive = true)
    (hphase : th.phase = .fetching) :
    Pool.Inv { s.setThread t { th with
        pool := th.pool ++ s.globalPool.drop (s.globalPool.length - s.fetchCount)
        phase := .fetched th.pool.length s.globalPool.length } with
      globalPool := s.globalPool.take (s.globalPool.length - s.fetchCount) } := by
  have hsized := h.sized th (List.mem_of_getElem? ht)
  rw [Thread.Sized, hphase] at hsized
  have hempty := hsized.1
  have hfetch : s.fetchCount ≤ ChunkSize := by
    unfold Pool.fetchCount
    split
    · omega
    · exact Nat.zero_le _
  refine h.next ht rfl ⟨?_, by simp [hempty], halive⟩ (fun o => ?_) h.allocations
  · show (th.pool ++ s.globalPool.drop _).length ≤ ChunkSize
    rw [hempty, List.nil_append, List.length_drop]
    omega
  · have hcut := count_take_drop o (s.globalPool.length - s.fetchCount) s.globalPool
    simp only [Pool.setThread, List.count_append]
    omega

/-- A returned object leaves its holder for the local pool. -/
theorem inv_returnItem (h : s.Inv) (ht : s.threads[t]? = some th) (halive : th.alive = true)
    {i item holder : Nat} (hphase : th.phase = .idle) (hout : s.out[i]? = some (item, holder)) :
    Pool.Inv { s.setThread t { th with
        pool := th.pool ++ [item]
        phase := if (th.pool ++ [item]).length ≥ LocalMaxCapacity then .moving else .idle } with
      out := s.out.eraseIdx i } := by
  have hsized := h.sized th (List.mem_of_getElem? ht)
  rw [Thread.Sized, hphase] at hsized
  refine h.next ht rfl ?_ (fun o => ?_) h.allocations
  · have hlen : (th.pool ++ [item]).length ≤ LocalMaxCapacity := by
      rw [List.length_append, List.length_singleton]
      exact hsized.1
    by_cases hfull : (th.pool ++ [item]).length ≥ LocalMaxCapacity
    · simp only [Thread.Sized, if_pos hfull]
      exact ⟨Nat.le_antisymm hlen hfull, halive⟩
    · simp only [Thread.Sized, if_neg hfull]
      exact ⟨Nat.lt_of_not_le hfull, fun hdead => absurd (halive.symm.trans hdead) (by decide)⟩
  · obtain ⟨hi, hitem⟩ := List.getElem?_eq_some_iff.mp hout
    have hcount := ((List.getElem_cons_eraseIdx_perm hi).map Prod.fst).count_eq o
    rw [hitem, List.map_cons] at hcount
    simp only [List.count_cons] at hcount
    simp only [Pool.setThread, List.count_append, List.count_cons, List.count_nil]
    omega

theorem inv_act (h : s.Inv) (ht : s.threads[t]? = some th) (halive : th.alive = true) {l : Label}
    (ha : s.Act t th l s') : s'.Inv := by
  have hsized := h.sized th (List.mem_of_getElem? ht)
  cases ha with
  | handOut l init item hphase hpool => exact inv_handOut h ht halive hpool hphase
  | miss u hphase hempty => exact h.next ht rfl ⟨hempty, halive⟩ (fun _ => rfl) h.allocations
  | fetch u hphase => exact inv_fetch h ht halive hphase
  | allocate u localSize globalSize hphase hempty =>
    rw [Thread.Sized, hphase] at hsized
    refine h.next ht rfl ⟨?_, fun _ => hempty⟩ (fun o => ?_) ?_
    · show th.pool.length < LocalMaxCapacity
      rw [hempty]
      decide
    · simp only [Pool.setThread, present_succ, List.map_cons, List.count_cons, List.count_nil]
      omega
    · intro a ha
      rcases List.mem_cons.mp ha with rfl | ha
      · exact hsized.2.1
      · exact h.allocations a ha
  | returnItem u i item holder phase hidle hout hphase =>
    subst hphase
    exact inv_returnItem h ht halive hidle hout
  | move u hphase =>
    rw [Thread.Sized, hphase] at hsized
    refine h.next ht rfl ⟨?_, ?_⟩ (fun o => ?_) h.allocations
    · show (th.pool.take (th.pool.length - ChunkSize)).length < LocalMaxCapacity
      rw [hsized.1, List.length_take]
      exact Nat.lt_of_le_of_lt (Nat.min_le_left _ _) (by decide)
    · exact fun hdead => absurd (halive.symm.trans hdead) (by decide)
    · have hcut := count_take_drop o (th.pool.length - ChunkSize) th.pool
      simp only [Pool.setThread, List.count_append]
      omega
  | exit u hphase =>
    refine h.next ht rfl ?_ (fun o => ?_) h.allocations
    · simp [Thread.Sized, hphase, LocalMaxCapacity]
    · simp only [Pool.setThread, List.count_append, List.count_nil]
      omega

/-- A new thread has nothing. -/
theorem inv_spawn (h : s.Inv) :
    Pool.Inv { s with threads := s.threads ++ [⟨[], .idle, true⟩] } := by
  refine ⟨fun o => ?_, ?_, h.allocations⟩
  · have hold := h.accounted o
    simp only [Pool.occurrences] at hold
    simp only [Pool.occurrences, List.map_append, List.map_cons, List.map_nil,
      List.sum_append_nat, List.sum_cons, List.sum_nil, List.count_nil]
    omega
  · intro th hth
    rcases List.mem_append.mp hth with hth | hth
    · exact h.sized th hth
    · rw [List.mem_singleton.mp hth]
      exact ⟨by decide, fun _ => rfl⟩

theorem inv_step (h : s.Inv) {l : Label} (hs : s.step l = some s') : s'.Inv := by
  by_cases hl : l = .spawn
  · subst hl
    cases hs
    exact inv_spawn h
  · obtain ⟨th, ht, halive, hact⟩ := step_act hs hl
    exact inv_act h ht halive hact

theorem inv_start : poolSystem.start.Inv where
  accounted o := by simp [poolSystem, Pool.occurrences, present]
  sized := by simp [poolSystem]
  allocations := by simp [poolSystem]

end

theorem inv_reach {ok : Pool → Label → Prop} {s : Pool} (h : poolSystem.Reach ok s) : s.Inv :=
  h.invariant inv_start fun _ hi _ hs => inv_step hi hs

/-! ## When `Get` allocates -/

/-- The size that the locked section of `Get` casts to `int` is positive unless it is zero. -/
def SizeFits (s : Pool) : Label → Prop
  | .fetch _ => s.globalPool ≠ [] → 0 < toInt s.globalPool.length
  | _ => True

/-- Who finds something in the global pool has something to hand out. -/
def Thread.Supplied (th : Thread) : Prop :=
  match th.phase with
  | .fetched _ globalSize => th.pool = [] → globalSize = 0
  | _ => True

/-- Who has fetched from a pool that is not empty has at least one object. -/
theorem fetch_supplied {s : Pool} {th : Thread}
    (hok : s.globalPool ≠ [] → 0 < toInt s.globalPool.length)
    (hnone : th.pool ++ s.globalPool.drop (s.globalPool.length - s.fetchCount) = []) :
    s.globalPool.length = 0 := by
  by_contra hne
  have hpos : 0 < s.globalPool.length := Nat.pos_of_ne_zero hne
  have hsize : 0 < toInt s.globalPool.length := hok (List.length_pos_iff.mp hpos)
  have hcount : 0 < s.fetchCount := by
    unfold Pool.fetchCount
    rw [if_pos hsize]
    simp only [ChunkSize]
    omega
  have hlen := congrArg List.length hnone
  rw [List.length_append, List.length_drop] at hlen
  simp only [List.length_nil] at hlen
  omega

/-- What a thread that acts may do to itself and to the allocations. -/
theorem supplied_act {s s' : Pool} {t : Nat} {th : Thread} {l : Label} (hok : SizeFits s l)
    (hth : th.Supplied) (ha : ∀ a ∈ s.allocations, a.2 = 0) (hs : s.Act t th l s') :
    (∃ th', s'.threads = s.threads.set t th' ∧ th'.Supplied) ∧ ∀ a ∈ s'.allocations, a.2 = 0 := by
  cases hs with
  | handOut l init item _ _ => exact ⟨⟨_, rfl, trivial⟩, ha⟩
  | miss u _ _ => exact ⟨⟨_, rfl, trivial⟩, ha⟩
  | fetch u _ => exact ⟨⟨_, rfl, fetch_supplied hok⟩, ha⟩
  | allocate u localSize globalSize hphase hempty =>
    rw [Thread.Supplied, hphase] at hth
    refine ⟨⟨_, rfl, trivial⟩, ?_⟩
    intro a hm
    rcases List.mem_cons.mp hm with rfl | hm
    · exact hth hempty
    · exact ha a hm
  | returnItem u i item holder phase _ _ hphase =>
    subst hphase
    refine ⟨⟨_, rfl, ?_⟩, ha⟩
    simp only [Thread.Supplied]
    split
    · exact fun hnil => absurd hnil (by simp)
    · trivial
  | move u _ => exact ⟨⟨_, rfl, trivial⟩, ha⟩
  | exit u hphase =>
    refine ⟨⟨_, rfl, ?_⟩, ha⟩
    simp only [Thread.Supplied, hphase]

theorem supplied_reach {s : Pool} (h : poolSystem.Reach SizeFits s) :
    (∀ th ∈ s.threads, th.Supplied) ∧ ∀ a ∈ s.allocations, a.2 = 0 := by
  refine h.invariant
    (I := fun s => (∀ th ∈ s.threads, th.Supplied) ∧ ∀ a ∈ s.allocations, a.2 = 0)
    ⟨by simp [poolSystem], by simp [poolSystem]⟩ ?_
  intro s s' l _ hi hok hs
  by_cases hl : l = .spawn
  · subst hl
    cases hs
    refine ⟨fun th hth => ?_, hi.2⟩
    rcases List.mem_append.mp hth with hth | hth
    · exact hi.1 th hth
    · rw [List.mem_singleton.mp hth]
      trivial
  · obtain ⟨th, ht, -, hact⟩ := step_act hs hl
    obtain ⟨⟨th', hthreads, hth'⟩, ha⟩ :=
      supplied_act hok (hi.1 th (List.mem_of_getElem? ht)) hi.2 hact
    refine ⟨fun x hx => ?_, ha⟩
    rw [hthreads] at hx
    rcases List.mem_or_eq_of_mem_set hx with hx | rfl
    · exact hi.1 x hx
    · exact hth'

/-! ## The pool is sound -/

namespace Pool

/-- What the next step of a `Get` hands out. -/
def handsOut (s : Pool) (t : Nat) : Option Nat :=
  match s.threads[t]? with
  | some th =>
    match th.phase with
    | .idle => th.pool.getLast?
    | .fetched _ _ => some (th.pool.getLast?.getD s.allocated)
    | _ => none
  | none => none

/-- Every object that was ever allocated is in exactly one place, and in it once. -/
structure Partitioned (s : Pool) : Prop where
  somewhere : ∀ o, o < s.allocated ↔ ∃ p, o ∈ s.at' p
  unique : ∀ o p q, o ∈ s.at' p → o ∈ s.at' q → p = q
  nodup : ∀ p, (s.at' p).Nodup
  alive : ∀ th ∈ s.threads, th.alive = false → th.pool = []

/-- No object that is checked out is handed out. -/
def HandsOutFree (s : Pool) : Prop :=
  ∀ t o, s.handsOut t = some o → ∀ holder, o ∉ s.at' (.holder holder)

/-- Between two calls a thread has fewer than `LocalMaxCapacity` objects. -/
def Bounded (s : Pool) : Prop :=
  ∀ th ∈ s.threads, th.phase = .idle → th.pool.length < LocalMaxCapacity

/-- Whoever allocated found nothing in its local pool and nothing in the global one. -/
def AllocatesWhenEmpty (s : Pool) : Prop := ∀ a ∈ s.allocations, a = (0, 0)

end Pool

section
variable {s : Pool} {o : Nat}

theorem le_sum {xs : List Nat} {x : Nat} (h : x ∈ xs) : x ≤ xs.sum := by
  induction xs with
  | nil => simp at h
  | cons first rest ih =>
    rw [List.sum_cons]
    rcases List.mem_cons.mp h with rfl | h
    · omega
    · have hrest := ih h
      omega

theorem exists_pos_of_sum_pos (xs : List Nat) (h : 0 < xs.sum) : ∃ n ∈ xs, 0 < n := by
  induction xs with
  | nil => simp at h
  | cons first rest ih =>
    rw [List.sum_cons] at h
    by_cases hfirst : 0 < first
    · exact ⟨first, List.mem_cons_self .., hfirst⟩
    · obtain ⟨n, hn, hpos⟩ := ih (by omega)
      exact ⟨n, List.mem_cons_of_mem _ hn, hpos⟩

theorem two_le_sum {xs : List Nat} {i j : Nat} (hij : i ≠ j) {x y : Nat} (hi : xs[i]? = some x)
    (hj : xs[j]? = some y) : x + y ≤ xs.sum := by
  induction xs generalizing i j with
  | nil => simp at hi
  | cons first rest ih =>
    rw [List.sum_cons]
    cases i with
    | zero =>
      cases j with
      | zero => exact absurd rfl hij
      | succ j =>
        cases hi
        have hrest := le_sum (List.mem_of_getElem? (i := j) (by simpa using hj))
        omega
    | succ i =>
      cases j with
      | zero =>
        cases hj
        have hrest := le_sum (List.mem_of_getElem? (i := i) (by simpa using hi))
        omega
      | succ j =>
        have hrest := ih (by omega) hi hj
        omega

theorem count_holder_le (t : Nat) :
    (s.at' (.holder t)).count o ≤ (s.out.map Prod.fst).count o :=
  (List.Sublist.map Prod.fst List.filter_sublist).count_le o

theorem count_holders_le {t u : Nat} (htu : t ≠ u) :
    (s.at' (.holder t)).count o + (s.at' (.holder u)).count o ≤ (s.out.map Prod.fst).count o := by
  simp only [Pool.at']
  induction s.out with
  | nil => simp
  | cons entry rest ih =>
    by_cases ht : entry.2 = t
    · have hu : ¬ entry.2 = u := fun h => htu (ht.symm.trans h)
      rw [List.filter_cons_of_pos (by simpa using ht), List.filter_cons_of_neg (by simpa using hu)]
      simp only [List.map_cons, List.count_cons]
      omega
    · by_cases hu : entry.2 = u
      · rw [List.filter_cons_of_neg (by simpa using ht),
          List.filter_cons_of_pos (by simpa using hu)]
        simp only [List.map_cons, List.count_cons]
        omega
      · rw [List.filter_cons_of_neg (by simpa using ht),
          List.filter_cons_of_neg (by simpa using hu)]
        simp only [List.map_cons, List.count_cons]
        omega

theorem count_localPool (t : Nat) :
    (s.at' (.localPool t)).count o = (((s.threads.map fun th => th.pool.count o)[t]?).getD 0) := by
  simp only [Pool.at', List.getElem?_map]
  cases s.threads[t]? with
  | none => rfl
  | some th => rfl

theorem count_localPool_le (t : Nat) :
    (s.at' (.localPool t)).count o ≤ (s.threads.map fun th => th.pool.count o).sum := by
  rw [count_localPool]
  cases h : (s.threads.map fun th => th.pool.count o)[t]? with
  | none => exact Nat.zero_le _
  | some n => exact le_sum (List.mem_of_getElem? h)

theorem count_localPools_le {t u : Nat} (htu : t ≠ u) :
    (s.at' (.localPool t)).count o + (s.at' (.localPool u)).count o ≤
      (s.threads.map fun th => th.pool.count o).sum := by
  cases ht : (s.threads.map fun th => th.pool.count o)[t]? with
  | none =>
    have hzero : (s.at' (.localPool t)).count o = 0 := by rw [count_localPool, ht]; rfl
    have hle := count_localPool_le (s := s) (o := o) u
    omega
  | some m =>
    cases hu : (s.threads.map fun th => th.pool.count o)[u]? with
    | none =>
      have hzero : (s.at' (.localPool u)).count o = 0 := by rw [count_localPool, hu]; rfl
      have hle := count_localPool_le (s := s) (o := o) t
      omega
    | some n =>
      rw [count_localPool, count_localPool, ht, hu]
      exact two_le_sum htu ht hu

theorem count_at_le (p : Place) : (s.at' p).count o ≤ s.occurrences o := by
  unfold Pool.occurrences
  cases p with
  | holder t =>
    have h := count_holder_le (s := s) (o := o) t
    omega
  | localPool t =>
    have h := count_localPool_le (s := s) (o := o) t
    omega
  | globalPool =>
    show s.globalPool.count o ≤ _
    omega

theorem count_two_le {p q : Place} (hpq : p ≠ q) :
    (s.at' p).count o + (s.at' q).count o ≤ s.occurrences o := by
  have hglobal : (s.at' .globalPool).count o = s.globalPool.count o := rfl
  unfold Pool.occurrences
  cases p with
  | holder t =>
    have ht := count_holder_le (s := s) (o := o) t
    cases q with
    | holder u =>
      have h := count_holders_le (s := s) (o := o) (t := t) (u := u) fun heq => hpq (by rw [heq])
      omega
    | localPool u =>
      have hu := count_localPool_le (s := s) (o := o) u
      omega
    | globalPool => omega
  | localPool t =>
    have ht := count_localPool_le (s := s) (o := o) t
    cases q with
    | holder u =>
      have hu := count_holder_le (s := s) (o := o) u
      omega
    | localPool u =>
      have h := count_localPools_le (s := s) (o := o) (t := t) (u := u) fun heq => hpq (by rw [heq])
      omega
    | globalPool => omega
  | globalPool =>
    cases q with
    | holder u =>
      have hu := count_holder_le (s := s) (o := o) u
      omega
    | localPool u =>
      have hu := count_localPool_le (s := s) (o := o) u
      omega
    | globalPool => exact absurd rfl hpq

theorem exists_place (h : 0 < s.occurrences o) : ∃ p, o ∈ s.at' p := by
  unfold Pool.occurrences at h
  by_cases hout : o ∈ s.out.map Prod.fst
  · obtain ⟨entry, hentry, rfl⟩ := List.mem_map.mp hout
    exact ⟨.holder entry.2, List.mem_map.mpr ⟨entry, List.mem_filter.mpr ⟨hentry, by simp⟩, rfl⟩⟩
  · by_cases hglobal : o ∈ s.globalPool
    · exact ⟨.globalPool, hglobal⟩
    · rw [List.count_eq_zero.mpr hout, List.count_eq_zero.mpr hglobal] at h
      -- so it is with some thread
      obtain ⟨n, hn, hpos⟩ := exists_pos_of_sum_pos
        (s.threads.map fun th => th.pool.count o) (by omega)
      obtain ⟨th, hth, rfl⟩ := List.mem_map.mp hn
      obtain ⟨t, ht⟩ := List.mem_iff_getElem?.mp hth
      refine ⟨.localPool t, ?_⟩
      simp only [Pool.at', ht]
      exact List.count_pos_iff.mp hpos

theorem present_le (allocated o : Nat) : present allocated o ≤ 1 := by
  unfold present
  split
  · exact Nat.le_refl 1
  · exact Nat.zero_le 1

theorem Pool.Inv.partitioned (h : s.Inv) : s.Partitioned where
  somewhere o := by
    have hacc := h.accounted o
    unfold present at hacc
    constructor
    · intro hlt
      rw [if_pos hlt] at hacc
      exact exists_place (by omega)
    · rintro ⟨p, hp⟩
      by_contra hge
      rw [if_neg hge] at hacc
      have hle := count_at_le (s := s) (o := o) p
      have hpos := List.count_pos_iff.mpr hp
      omega
  unique o p q hp hq := by
    by_contra hpq
    have htwo := count_two_le (s := s) (o := o) hpq
    have hacc := h.accounted o
    have hone := present_le s.allocated o
    have hpp := List.count_pos_iff.mpr hp
    have hqq := List.count_pos_iff.mpr hq
    omega
  nodup p := by
    rw [List.nodup_iff_count_le_one]
    intro o
    have hle := count_at_le (s := s) (o := o) p
    have hacc := h.accounted o
    have hone := present_le s.allocated o
    omega
  alive th hth hdead := by
    have hsized := h.sized th hth
    unfold Thread.Sized at hsized
    split at hsized
    · exact hsized.2 hdead
    · exact absurd (hsized.2.symm.trans hdead) (by decide)
    · exact absurd (hsized.2.2.symm.trans hdead) (by decide)
    · exact absurd (hsized.2.symm.trans hdead) (by decide)

theorem Pool.Partitioned.handsOutFree (h : s.Partitioned) : s.HandsOutFree := by
  intro t o ho holder hin
  unfold Pool.handsOut at ho
  have hlocal : ∀ th, s.threads[t]? = some th → th.pool.getLast? = some o → False := by
    intro th ht hlast
    have hmem : o ∈ s.at' (.localPool t) := by
      simp only [Pool.at', ht]
      exact List.mem_of_getLast? hlast
    cases h.unique o _ _ hin hmem
  split at ho
  · rename_i th ht
    split at ho
    · exact hlocal th ht ho
    · cases hlast : th.pool.getLast? with
      | some item =>
        rw [hlast] at ho
        cases ho
        exact hlocal th ht hlast
      | none =>
        -- a new object is nowhere yet
        rw [hlast] at ho
        cases ho
        have hlt := (h.somewhere s.allocated).mpr ⟨_, hin⟩
        exact absurd hlt (Nat.lt_irrefl _)
    · cases ho
  · cases ho

theorem Pool.Inv.bounded (h : s.Inv) : s.Bounded := by
  intro th hth hidle
  have hsized := h.sized th hth
  rw [Thread.Sized, hidle] at hsized
  exact hsized.1

end

/-- **The pool neither loses nor duplicates objects**, in every run. It allocates only when both
pools are empty in every run in which the size of the global pool is a positive `int`, or zero,
whenever a chunk is to be taken from it. -/
theorem pool_sound (s : Pool) :
    (poolSystem.Reach System.always s → s.Partitioned ∧ s.HandsOutFree ∧ s.Bounded) ∧
      (poolSystem.Reach SizeFits s → s.AllocatesWhenEmpty) := by
  constructor
  · intro h
    have hi := inv_reach h
    exact ⟨hi.partitioned, hi.partitioned.handsOutFree, hi.bounded⟩
  · intro h a ha
    exact Prod.ext ((inv_reach h).allocations a ha) ((supplied_reach h).2 a ha)

instance : ∀ (s : Pool) (l : Label), Decidable (SizeFits s l)
  | s, .fetch _ => inferInstanceAs (Decidable (s.globalPool ≠ [] → 0 < toInt s.globalPool.length))
  | _, .spawn => .isTrue trivial
  | _, .pop _ => .isTrue trivial
  | _, .miss _ => .isTrue trivial
  | _, .finish _ => .isTrue trivial
  | _, .returnItem _ _ => .isTrue trivial
  | _, .move _ => .isTrue trivial
  | _, .exit _ => .isTrue trivial

/-- An object is got on one thread, returned on another, given back at its exit and got again. -/
theorem pool_sound_handed_over : ∃ s : Pool, s.AllocatesWhenEmpty ∧ s.allocations = [(0, 0)] ∧
    s.out = [(0, 0)] ∧ s.Partitioned := by
  obtain ⟨s, hs, hp⟩ := System.reach_of_exec poolSystem SizeFits
    [.spawn, .spawn, .miss 0, .fetch 0, .finish 0, .returnItem 1 0, .exit 1, .miss 0, .fetch 0,
      .finish 0]
    (fun s => s.allocations == [(0, 0)] && s.out == [(0, 0)]) (by decide)
  rw [Bool.and_eq_true, beq_iff_eq, beq_iff_eq] at hp
  exact ⟨s, (pool_sound s).2 hs, hp.1, hp.2, ((pool_sound s).1 (hs.mono fun _ _ _ => trivial)).1⟩

/-! ## Two billion objects -/

/-- One thread that works and another one that has not begun. -/
def stocked (pool : List Nat) (phase : Phase) (globalPool : List Nat) (out : List (Nat × Nat))
    (allocated : Nat) (allocations : List (Nat × Nat)) : Pool :=
  ⟨allocated, globalPool, [⟨pool, phase, true⟩, ⟨[], .idle, true⟩], out, allocations⟩

section
variable {pool globalPool : List Nat} {out : List (Nat × Nat)} {allocated : Nat}
  {allocations : List (Nat × Nat)}

/-- The locked section of `Get` takes nothing. -/
theorem step_fetch_none (s : Pool) (t : Nat) (pool : List Nat)
    (ht : s.threads[t]? = some ⟨pool, .fetching, true⟩)
    (hsize : ¬ toInt s.globalPool.length > 0) :
    poolSystem.step s (.fetch t) =
      some (s.setThread t ⟨pool, .fetched pool.length s.globalPool.length, true⟩) := by
  have hcount : s.fetchCount = 0 := if_neg hsize
  show s.step (.fetch t) = _
  simp [Pool.step, Pool.actor, Pool.act, Pool.setThread, ht, hcount]

/-- So many calls of `Get` on empty pools. -/
theorem reach_gets (n : Nat) : ∃ out allocations, out.length = n ∧
    poolSystem.Reach System.always (stocked [] .idle [] out n allocations) := by
  induction n with
  | zero =>
    refine ⟨[], [], rfl, ?_⟩
    have h₁ : poolSystem.Reach System.always ⟨0, [], [], [], []⟩ := .start
    have h₂ : poolSystem.Reach System.always ⟨0, [], [⟨[], .idle, true⟩], [], []⟩ :=
      h₁.next (l := .spawn) trivial rfl
    exact h₂.next (l := .spawn) trivial rfl
  | succ n ih =>
    obtain ⟨out, allocations, hlen, h⟩ := ih
    have h₁ : poolSystem.Reach System.always (stocked [] .fetching [] out n allocations) :=
      h.next (l := .miss 0) trivial rfl
    have h₂ : poolSystem.Reach System.always (stocked [] (.fetched 0 0) [] out n allocations) :=
      h₁.next (l := .fetch 0) trivial 
        (step_fetch_none _ 0 [] rfl (by decide : ¬ toInt 0 > 0))
    refine ⟨(n, 0) :: out, (0, 0) :: allocations, by rw [List.length_cons, hlen], ?_⟩
    exact h₂.next (l := .finish 0) trivial rfl

/-- One `Return`, up to the mutex if the pool is full now. -/
theorem reach_return {entry : Nat × Nat}
    (h : poolSystem.Reach System.always
      (stocked pool .idle globalPool (entry :: out) allocated allocations)) :
    poolSystem.Reach System.always (stocked (pool ++ [entry.1])
      (if (pool ++ [entry.1]).length ≥ LocalMaxCapacity then .moving else .idle) globalPool out
      allocated allocations) :=
  h.next (l := .returnItem 0 0) trivial rfl

/-- So many calls of `Return` that do not fill the pool. -/
theorem reach_returns (n : Nat) (hroom : pool.length + n < LocalMaxCapacity) (hn : n ≤ out.length)
    (h : poolSystem.Reach System.always
      (stocked pool .idle globalPool out allocated allocations)) :
    ∃ pool' out', pool'.length = pool.length + n ∧ out'.length = out.length - n ∧
      poolSystem.Reach System.always
        (stocked pool' .idle globalPool out' allocated allocations) := by
  induction n generalizing pool out with
  | zero => exact ⟨pool, out, rfl, rfl, h⟩
  | succ n ih =>
    cases out with
    | nil => simp at hn
    | cons entry rest =>
      have hlen : (pool ++ [entry.1]).length = pool.length + 1 := by simp
      have hnext := reach_return h
      rw [if_neg (by omega)] at hnext
      obtain ⟨pool', out', hpool, hout, h'⟩ := ih (by omega) (by simpa using hn) hnext
      exact ⟨pool', out', by omega, by rw [hout, List.length_cons]; omega, h'⟩

/-- Fifty more calls: the pool is full and moves a chunk. -/
theorem reach_chunk (hpool : pool.length = ChunkSize) (hout : ChunkSize ≤ out.length)
    (h : poolSystem.Reach System.always
      (stocked pool .idle globalPool out allocated allocations)) :
    ∃ pool' globalPool' out', pool'.length = ChunkSize ∧
      globalPool'.length = globalPool.length + ChunkSize ∧
      out'.length = out.length - ChunkSize ∧
      poolSystem.Reach System.always
        (stocked pool' .idle globalPool' out' allocated allocations) := by
  simp only [ChunkSize] at hpool hout ⊢
  obtain ⟨full, rest, hfull, hrest, h₁⟩ := reach_returns 49
    (by rw [hpool]; decide) (by omega) h
  cases rest with
  | nil =>
    simp only [List.length_nil] at hrest
    omega
  | cons entry rest =>
    have hlen : (full ++ [entry.1]).length = 100 := by
      rw [List.length_append, List.length_singleton, hfull, hpool]
    have h₂ := reach_return h₁
    rw [if_pos (by rw [hlen]; decide)] at h₂
    have h₃ : poolSystem.Reach System.always (stocked
        ((full ++ [entry.1]).take ((full ++ [entry.1]).length - ChunkSize)) .idle
        (globalPool ++ (full ++ [entry.1]).drop ((full ++ [entry.1]).length - ChunkSize)) rest
        allocated allocations) := h₂.next (l := .move 0) trivial rfl
    refine ⟨_, _, _, ?_, ?_, ?_, h₃⟩
    · rw [List.length_take, hlen]
      decide
    · rw [List.length_append, List.length_drop, hlen]
      rfl
    · rw [List.length_cons] at hrest
      omega

theorem reach_chunks (n : Nat) (hpool : pool.length = ChunkSize)
    (hout : ChunkSize * n ≤ out.length)
    (h : poolSystem.Reach System.always
      (stocked pool .idle globalPool out allocated allocations)) :
    ∃ pool' globalPool' out', globalPool'.length = globalPool.length + ChunkSize * n ∧
      poolSystem.Reach System.always
        (stocked pool' .idle globalPool' out' allocated allocations) := by
  induction n generalizing pool globalPool out with
  | zero => exact ⟨pool, globalPool, out, rfl, h⟩
  | succ n ih =>
    rw [Nat.mul_succ] at hout
    obtain ⟨pool₁, globalPool₁, out₁, hpool₁, hglobal₁, hout₁, h₁⟩ :=
      reach_chunk hpool (by omega) h
    obtain ⟨pool₂, globalPool₂, out₂, hglobal₂, h₂⟩ := ih hpool₁ (by omega) h₁
    refine ⟨pool₂, globalPool₂, out₂, ?_, h₂⟩
    rw [hglobal₂, hglobal₁, Nat.mul_succ]
    omega

end

/-- With 2147483650 objects in the global pool, the size is negative as an `int`: a thread with an
empty local pool allocates one more. -/
theorem full_pool_not_used :
    ¬ ∀ s, poolSystem.Reach System.always s → s.AllocatesWhenEmpty := by
  intro hclaim
  obtain ⟨out, allocations, hout, h⟩ := reach_gets 2147483700
  obtain ⟨pool, out₁, hpool, hout₁, h₁⟩ := reach_returns 50 (by decide) (by omega) h
  have hpool' : pool.length = ChunkSize := hpool
  obtain ⟨pool₂, globalPool, out₂, hglobal, h₂⟩ :=
    reach_chunks 42949673 hpool' (by rw [hout₁, hout]; decide) h₁
  have hlen : globalPool.length = 2147483650 := hglobal
  have hsize : ¬ toInt globalPool.length > 0 := by
    rw [hlen]
    decide
  have h₃ : poolSystem.Reach System.always ⟨2147483700, globalPool,
      [⟨pool₂, .idle, true⟩, ⟨[], .fetching, true⟩], out₂, allocations⟩ :=
    h₂.next (l := .miss 1) trivial rfl
  have h₄ : poolSystem.Reach System.always ⟨2147483700, globalPool,
      [⟨pool₂, .idle, true⟩, ⟨[], .fetched 0 globalPool.length, true⟩], out₂, allocations⟩ :=
    h₃.next (l := .fetch 1) trivial (step_fetch_none _ 1 [] rfl hsize)
  have h₅ : poolSystem.Reach System.always ⟨2147483700 + 1, globalPool,
      [⟨pool₂, .idle, true⟩, ⟨[], .idle, true⟩], (2147483700, 1) :: out₂,
      (0, globalPool.length) :: allocations⟩ :=
    h₄.next (l := .finish 1) trivial rfl
  have hzero := hclaim _ h₅ (0, globalPool.length) (List.mem_cons_self ..)
  rw [hlen] at hzero
  exact absurd hzero (by decide)

end Highp.Memory
