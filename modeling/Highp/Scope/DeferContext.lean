import Highp.Lib.Duties
import Highp.Lib.Transition

/-! `DeferContext` and `DeferredItemHolder`. A context runs its functions on its item when it is
destroyed; a move takes item, functions and the obligation along. -/

namespace Highp.Scope
open Highp.Lib

/-- A `T*`, which may be null. -/
abbrev Item := Option Nat

/-- The functions are numbered in the order in which they are registered. `origin` is a ghost: the
first function of the context that was built and moved until it got here. -/
structure Context where
  item : Item
  deferFns : List Nat
  needReturn : Bool
  origin : Option Nat
  deriving DecidableEq

/-- What a function is registered for: an item, by way of a context. -/
abbrev Subject := Item × Option Nat

namespace Context

def new (item : Item) (deferFn : Nat) : Context := ⟨item, [deferFn], true, some deferFn⟩

/-- What the move constructor starts from. -/
def fresh : Context := ⟨none, [], true, none⟩

def subject (c : Context) : Subject := (c.item, c.origin)

def defer (c : Context) (deferFn : Nat) : Context := { c with deferFns := c.deferFns ++ [deferFn] }

/-- `MoveFrom`: the context itself and `from` afterwards. -/
def moveFrom (_this source : Context) : Context × Context :=
  (⟨source.item, source.deferFns, source.needReturn, source.origin⟩, ⟨none, [], false, none⟩)

/-- `MoveFrom` with the context itself; a vector is left alone by that. -/
def moveFromSelf (this : Context) : Context := ⟨none, this.deferFns, false, none⟩

/-- The calls of the destructor. -/
def destruct (c : Context) : List (Subject × Nat) :=
  if c.needReturn then c.deferFns.reverse.map (c.subject, ·) else []

end Context

/-- Where a context is: an object of its own, or an element of `_items` of some holder. -/
inductive Place
  | object (n : Nat)
  | held (holder : Nat) (key : Item)
  deriving DecidableEq

/-- The contexts that exist. `registered` has the item and the origin of the context that each
function was handed to, and `called` those of the context that called it. -/
structure DeferState where
  contexts : List (Place × Context)
  registered : List Subject
  called : List (Subject × Nat)
  deriving DecidableEq

inductive DeferLabel
  | construct (n : Nat) (item : Item)
  | defer (n : Nat)
  | moveConstruct (source target : Nat)
  | moveAssign (source target : Nat)
  /-- `Hold`. When the key is there already, `emplace` may have made an element first, which it
  destroys again. -/
  | hold (n holder : Nat) (constructs : Bool)
  /-- `Release`, with the object that the result is. -/
  | release (holder : Nat) (key : Item) (target : Nat)
  /-- `Erase`; the destructor of a holder does this for every key, in some order. -/
  | erase (holder : Nat) (key : Item)
  | destroy (n : Nat)

namespace DeferState

def at? (s : DeferState) (p : Place) : Option Context := s.contexts.lookup p

def remove (s : DeferState) (p : Place) : DeferState :=
  { s with contexts := s.contexts.filter fun e => e.1 != p }

def put (s : DeferState) (p : Place) (c : Context) : DeferState :=
  { s with contexts := (p, c) :: (s.remove p).contexts }

def call (s : DeferState) (calls : List (Subject × Nat)) : DeferState :=
  { s with called := s.called ++ calls }

def register (s : DeferState) (subject : Subject) : DeferState :=
  { s with registered := s.registered ++ [subject] }

/-- One context is moved to another, which is or was `this`. -/
def move (s : DeferState) (source target : Place) (c this : Context) : DeferState :=
  (s.put source (this.moveFrom c).2).put target (this.moveFrom c).1

def step (s : DeferState) : DeferLabel → Option DeferState
  | .construct n item =>
    match s.at? (.object n) with
    | none =>
      some ((s.put (.object n) (.new item s.registered.length)).register
        (Context.new item s.registered.length).subject)
    | some _ => none
  | .defer n =>
    match s.at? (.object n) with
    | some c => some ((s.put (.object n) (c.defer s.registered.length)).register c.subject)
    | none => none
  | .moveConstruct source target =>
    match s.at? (.object source), s.at? (.object target) with
    | some c, none => some (s.move (.object source) (.object target) c .fresh)
    | _, _ => none
  | .moveAssign source target =>
    match s.at? (.object source), s.at? (.object target) with
    | some c, some this =>
      if source = target then some (s.put (.object target) this.moveFromSelf)
      else some (s.move (.object source) (.object target) c this)
    | _, _ => none
  | .hold n holder constructs =>
    match s.at? (.object n) with
    | some c =>
      match s.at? (.held holder c.item) with
      | none => some (s.move (.object n) (.held holder c.item) c .fresh)
      | some _ =>
        if constructs then
          some ((s.put (.object n) (Context.fresh.moveFrom c).2).call
            (Context.fresh.moveFrom c).1.destruct)
        else some s
    | none => none
  | .release holder key target =>
    match s.at? (.held holder key), s.at? (.object target) with
    | none, _ => some s
    | some c, none =>
      let (item, element) := Context.fresh.moveFrom c
      let (result, left) := Context.fresh.moveFrom item
      some (((s.remove (.held holder key)).put (.object target) result).call
        (element.destruct ++ left.destruct))
    | some _, some _ => none
  | .erase holder key =>
    match s.at? (.held holder key) with
    | some c => some ((s.remove (.held holder key)).call c.destruct)
    | none => some s
  | .destroy n =>
    match s.at? (.object n) with
    | some c => some ((s.remove (.object n)).call c.destruct)
    | none => none

end DeferState

def deferSystem : System DeferState DeferLabel where
  start := ⟨[], [], []⟩
  step := DeferState.step

/-! ## Contexts as duties -/

/-- A context owes something if it has an origin, and origins are functions that were registered. -/
def Context.Marked (c : Context) (registered : Nat) : Prop :=
  c.needReturn = c.origin.isSome ∧ ∀ k ∈ c.origin, k < registered

namespace DeferState

/-- Nothing is moved onto a context that still owes its functions. -/
def Spares (s : DeferState) : DeferLabel → Prop
  | .moveAssign _ target => ∀ c ∈ s.at? (.object target), c.needReturn = false
  | _ => True

instance (s : DeferState) (l : DeferLabel) : Decidable (s.Spares l) := by
  unfold Spares
  cases l <;> infer_instance

/-- What a context owes. -/
def owed (s : DeferState) (p : Place) : Option (Subject × List Nat) :=
  (s.at? p).bind fun c => if c.needReturn then some (c.subject, c.deferFns) else none

/-- A function that is handed to a context without an origin is not taken on. -/
def taken (subject : Subject) : Option Subject := if subject.2.isSome then some subject else none

def duties (s : DeferState) : Duties Place Subject := ⟨s.owed, s.registered.map taken, s.called⟩

theorem taken_eq_some {subject subject' : Subject} :
    taken subject = some subject' ↔ subject = subject' ∧ subject'.2.isSome := by
  unfold taken
  split
  · rename_i h
    rw [Option.some.injEq]
    exact ⟨fun he => ⟨he, he ▸ h⟩, And.left⟩
  · rename_i h
    exact ⟨fun he => absurd he (by simp), fun he => absurd (he.1 ▸ he.2) h⟩

theorem getElem?_taken {s : DeferState} {n : Nat} {subject : Subject} :
    (s.registered.map taken)[n]? = some (some subject) ↔
      s.registered[n]? = some subject ∧ subject.2.isSome := by
  rw [List.getElem?_map, Option.map_eq_some_iff]
  constructor
  · rintro ⟨subject', hn, ht⟩
    obtain ⟨rfl, hs⟩ := taken_eq_some.mp ht
    exact ⟨hn, hs⟩
  · rintro ⟨hn, hs⟩
    exact ⟨subject, hn, taken_eq_some.mpr ⟨rfl, hs⟩⟩

structure Marked (s : DeferState) : Prop where
  contexts : ∀ e ∈ s.contexts, e.2.Marked s.registered.length
  registered : ∀ subject ∈ s.registered, ∀ k ∈ subject.2, k < s.registered.length

section
variable {s : DeferState} {p q : Place} {c : Context}

theorem lookup_filter (contexts : List (Place × Context)) (p q : Place) :
    (contexts.filter fun e => e.1 != p).lookup q = if q = p then none else contexts.lookup q := by
  induction contexts with
  | nil => simp
  | cons e rest ih =>
    rw [List.filter_cons]
    by_cases hp : e.1 = p
    · rw [if_neg (by simp [hp]), ih, List.lookup_cons]
      by_cases hq : q = p
      · rw [if_pos hq, if_pos hq]
      · rw [if_neg hq, if_neg hq, beq_false_of_ne (by rw [hp]; exact hq)]
    · rw [if_pos (by simp [hp]), List.lookup_cons, List.lookup_cons, ih]
      by_cases hq : q = p
      · rw [if_pos hq, if_pos hq, beq_false_of_ne (by rw [hq]; exact fun h => hp h.symm)]
      · rw [if_neg hq, if_neg hq]

theorem mem_of_at (h : s.at? p = some c) : (p, c) ∈ s.contexts := by
  obtain ⟨before, after, heq, _⟩ := List.lookup_eq_some_iff.mp h
  simp [heq]

theorem owed_of_at (h : s.at? p = some c) :
    s.owed p = if c.needReturn then some (c.subject, c.deferFns) else none := by
  rw [owed, h, Option.bind_some]

theorem owed_of_none (h : s.at? p = none) : s.owed p = none := by
  rw [owed, h, Option.bind_none]

theorem owed_remove (s : DeferState) (p : Place) :
    (s.remove p).owed = Function.update s.owed p none := by
  funext q
  rw [owed, at?, remove, lookup_filter]
  by_cases hq : q = p
  · rw [if_pos hq, hq, Function.update_self, Option.bind_none]
  · rw [if_neg hq, Function.update_of_ne hq]
    rfl

theorem owed_put (s : DeferState) (p : Place) (c : Context) :
    (s.put p c).owed =
      Function.update s.owed p (if c.needReturn then some (c.subject, c.deferFns) else none) := by
  funext q
  rw [owed, at?, put, List.lookup_cons]
  by_cases hq : q = p
  · rw [hq, beq_self_eq_true, Function.update_self]
    rfl
  · rw [beq_false_of_ne hq, Function.update_of_ne hq]
    have hr : (s.remove p).owed q = s.owed q := by rw [owed_remove, Function.update_of_ne hq]
    exact hr

theorem owed_call (s : DeferState) (calls : List (Subject × Nat)) : (s.call calls).owed = s.owed :=
  rfl

/-- A move takes along what is owed. -/
theorem owed_move (h : s.at? p = some c) (this : Context) :
    (s.move p q c this).owed =
      Function.update (Function.update s.owed p none) q (s.owed p) := by
  rw [move, owed_put, owed_put, owed_of_at h]
  rfl

theorem duties_eq {t : DeferState} {held : Place → Option (Subject × List Nat)}
    {registered : List Subject} {done : List (Subject × Nat)} (howed : t.owed = held)
    (hregistered : t.registered = registered) (hcalled : t.called = done) :
    t.duties = ⟨held, registered.map taken, done⟩ := by
  rw [duties, howed, hregistered, hcalled]

/-! ### Marks -/

theorem Marked.remove (h : s.Marked) (p : Place) : (s.remove p).Marked :=
  ⟨fun e he => h.contexts e (List.mem_filter.mp he).1, h.registered⟩

theorem Marked.put (h : s.Marked) (hc : c.Marked s.registered.length) (p : Place) :
    (s.put p c).Marked := by
  refine ⟨fun e he => ?_, h.registered⟩
  rcases List.mem_cons.mp he with rfl | he
  · exact hc
  · exact (h.remove p).contexts e he

theorem Marked.at (h : s.Marked) (hc : s.at? p = some c) : c.Marked s.registered.length :=
  h.contexts (p, c) (mem_of_at hc)

theorem Marked.call (h : s.Marked) (calls : List (Subject × Nat)) : (s.call calls).Marked :=
  ⟨h.contexts, h.registered⟩

theorem Marked.move (h : s.Marked) (hc : s.at? p = some c) (q : Place) (this : Context) :
    (s.move p q c this).Marked :=
  (h.put (c := (this.moveFrom c).2) ⟨rfl, by simp [Context.moveFrom]⟩ p).put (h.at hc) q

theorem length_register (s : DeferState) (subject : Subject) :
    (s.register subject).registered.length = s.registered.length + 1 := by
  simp [register]

theorem Marked.register (h : s.Marked) {subject : Subject}
    (hs : ∀ k ∈ subject.2, k ≤ s.registered.length) : (s.register subject).Marked := by
  constructor
  · intro e he
    obtain ⟨hn, hk⟩ := h.contexts e he
    rw [length_register]
    exact ⟨hn, fun k hm => Nat.lt_succ_of_lt (hk k hm)⟩
  · intro subject' hm k hk
    rw [length_register]
    rcases List.mem_append.mp hm with hm | hm
    · exact Nat.lt_succ_of_lt (h.registered subject' hm k hk)
    · rw [List.mem_singleton.mp hm] at hk
      exact Nat.lt_succ_of_le (hs k hk)

/-- A context takes a function. -/
theorem Marked.put_register (h : s.Marked) (hn : c.needReturn = c.origin.isSome)
    (hk : ∀ k ∈ c.origin, k ≤ s.registered.length) (p : Place) :
    ((s.put p c).register c.subject).Marked := by
  have hc : c.Marked (s.register c.subject).registered.length := by
    rw [length_register]
    exact ⟨hn, fun k hm => Nat.lt_succ_of_le (hk k hm)⟩
  exact Marked.put (Marked.register h hk) hc p

/-! ### What each operation does to the duties -/

theorem length_taken (s : DeferState) : s.duties.taken.length = s.registered.length :=
  List.length_map _

theorem duties_register (s : DeferState) (subject : Subject) : (s.register subject).duties =
    ⟨s.owed, s.registered.map taken ++ [taken subject], s.called⟩ := by
  rw [duties, register, List.map_append]
  rfl

theorem inv_construct (hi : s.duties.Inv) (hm : s.Marked) (hnone : s.at? p = none) (item : Item) :
    ((s.put p (.new item s.registered.length)).register
      (Context.new item s.registered.length).subject).duties.Inv := by
  have hnew : some (item, some s.registered.length) ∉ s.duties.taken := by
    intro h
    obtain ⟨subject, hs, ht⟩ := List.mem_map.mp h
    obtain ⟨rfl, _⟩ := taken_eq_some.mp ht
    exact Nat.lt_irrefl _ (hm.registered _ hs _ rfl)
  have hstep := Duties.inv_step hi (.take p _ (owed_of_none hnone) hnew)
  rw [length_taken] at hstep
  rw [duties_register, owed_put]
  exact hstep

theorem inv_defer (hi : s.duties.Inv) (hm : s.Marked) (hc : s.at? p = some c) :
    ((s.put p (c.defer s.registered.length)).register c.subject).duties.Inv := by
  obtain ⟨hmark, _⟩ := hm.at hc
  rw [duties_register, owed_put]
  cases hn : c.needReturn with
  | true =>
    have hp : s.owed p = some (c.subject, c.deferFns) := by rw [owed_of_at hc, if_pos hn]
    have ht : taken c.subject = some c.subject := if_pos (hmark.symm.trans hn)
    have hstep := Duties.inv_step hi (.add p c.subject c.deferFns hp)
    rw [length_taken] at hstep
    rw [ht, Context.defer, if_pos hn]
    exact hstep
  | false =>
    -- the context has been moved from, and nobody will call the function
    have hp : s.owed p = none := by rw [owed_of_at hc, hn]; rfl
    have ht : taken c.subject = none := if_neg (by rw [Context.subject, ← hmark, hn]; simp)
    rw [ht, Context.defer, if_neg (by rw [hn]; simp), ← hp, Function.update_eq_self]
    exact Duties.inv_step hi .decline

theorem inv_move (hi : s.duties.Inv) (h : s.at? p = some c) (hfree : s.owed q = none)
    (this : Context) : (s.move p q c this).duties.Inv := by
  rw [duties_eq (owed_move h this) rfl rfl]
  exact Duties.inv_step hi (.move p q hfree)

theorem inv_destruct (hi : s.duties.Inv) (h : s.at? p = some c) {t : DeferState}
    (howed : t.owed = Function.update s.owed p none) (hregistered : t.registered = s.registered)
    (hcalled : t.called = s.called ++ c.destruct) : t.duties.Inv := by
  rw [duties_eq howed hregistered hcalled, Context.destruct]
  by_cases hn : c.needReturn = true
  · have hp : s.owed p = some (c.subject, c.deferFns) := by rw [owed_of_at h, if_pos hn]
    rw [if_pos hn]
    exact Duties.inv_step hi (.finish p c.subject c.deferFns hp)
  · have hp : s.owed p = none := by rw [owed_of_at h, if_neg hn]
    rw [if_neg hn, List.append_nil, ← hp, Function.update_eq_self]
    exact hi

/-- The marks are right and the duties are in order. -/
structure Inv (s : DeferState) : Prop where
  marked : s.Marked
  duties : s.duties.Inv

theorem Inv.move (h : s.Inv) (hc : s.at? p = some c) (hfree : s.owed q = none) (this : Context) :
    (s.move p q c this).Inv :=
  ⟨h.marked.move hc q this, inv_move h.duties hc hfree this⟩

/-- A context that owes nothing is moved onto itself. -/
theorem Inv.moveSelf (h : s.Inv) (hfree : s.owed p = none) : (s.put p c.moveFromSelf).Inv := by
  refine ⟨h.marked.put ⟨rfl, by simp [Context.moveFromSelf]⟩ p, ?_⟩
  have howed : (s.put p c.moveFromSelf).owed = s.owed := by
    rw [owed_put]
    exact (congrArg _ hfree.symm).trans (Function.update_eq_self _ _)
  rw [duties_eq howed rfl rfl]
  exact h.duties

/-- An element takes everything over and is destroyed again. -/
theorem Inv.passThrough (h : s.Inv) (hc : s.at? p = some c) :
    ((s.put p (Context.fresh.moveFrom c).2).call (Context.fresh.moveFrom c).1.destruct).Inv := by
  refine ⟨(h.marked.put ⟨rfl, by simp [Context.moveFrom]⟩ p).call _, ?_⟩
  refine inv_destruct h.duties hc ?_ rfl rfl
  rw [owed_call, owed_put]
  rfl

/-- What is taken out of a holder; the element and the local object have been moved from, so their
destructors call nothing. -/
theorem Inv.takeOut (h : s.Inv) (hc : s.at? p = some c) (hfree : s.owed q = none) :
    (((s.remove p).put q c).call []).Inv := by
  refine ⟨((h.marked.remove p).put (h.marked.at hc) q).call [], ?_⟩
  have howed : (((s.remove p).put q c).call []).owed =
      Function.update (Function.update s.owed p none) q (s.owed p) := by
    rw [owed_call, owed_put, owed_remove, owed_of_at hc]
  rw [duties_eq howed rfl (List.append_nil _)]
  exact Duties.inv_step h.duties (.move p q hfree)

theorem Inv.destruct (h : s.Inv) (hc : s.at? p = some c) :
    ((s.remove p).call c.destruct).Inv := by
  refine ⟨(h.marked.remove p).call _, inv_destruct h.duties hc ?_ rfl rfl⟩
  rw [owed_call, owed_remove]

theorem inv_step (h : s.Inv) {l : DeferLabel} (hok : s.Spares l) {t : DeferState}
    (hs : s.step l = some t) : t.Inv := by
  have hm := h.marked
  have hi := h.duties
  cases l with
  | construct n item =>
    simp only [step] at hs
    split at hs
    · rename_i hnone
      cases hs
      refine ⟨hm.put_register rfl (fun k hk => ?_) _, inv_construct hi hm hnone item⟩
      exact (Option.some.inj hk).symm.le
    · cases hs
  | defer n =>
    simp only [step] at hs
    split at hs
    · rename_i c hc
      cases hs
      obtain ⟨hn, hk⟩ := hm.at hc
      exact ⟨hm.put_register (c := c.defer s.registered.length) hn
        (fun k hmem => Nat.le_of_lt (hk k hmem)) _, inv_defer hi hm hc⟩
    · cases hs
  | moveConstruct source target =>
    simp only [step] at hs
    split at hs
    · rename_i c hc hnone
      cases hs
      exact h.move hc (owed_of_none hnone) _
    · cases hs
  | moveAssign source target =>
    simp only [step] at hs
    split at hs
    · rename_i c this hc hthis
      have hfree : s.owed (.object target) = none := by
        rw [owed_of_at hthis, hok this hthis]
        rfl
      split at hs
      · cases hs
        exact h.moveSelf hfree
      · cases hs
        exact h.move hc hfree _
    · cases hs
  | hold n holder constructs =>
    simp only [step] at hs
    split at hs
    · rename_i c hc
      split at hs
      · rename_i hnone
        cases hs
        exact h.move hc (owed_of_none hnone) _
      · split at hs
        · cases hs
          exact h.passThrough hc
        · cases hs
          exact h
    · cases hs
  | release holder key target =>
    simp only [step] at hs
    split at hs
    · cases hs
      exact h
    · rename_i c hc hnone
      cases hs
      exact h.takeOut hc (owed_of_none hnone)
    · cases hs
  | erase holder key =>
    simp only [step] at hs
    split at hs
    · rename_i c hc
      cases hs
      exact h.destruct hc
    · cases hs
      exact h
  | destroy n =>
    simp only [step] at hs
    split at hs
    · rename_i c hc
      cases hs
      exact h.destruct hc
    · cases hs

end

/-! ## What has been called in the end -/

/-- The functions that were registered for such subjects, in order. -/
def registeredFor (s : DeferState) (such : Subject → Bool) : List Nat :=
  (List.range s.registered.length).filter fun n => (s.registered[n]?).any such

/-- The functions that were called for such subjects, in order. -/
def calledFor (s : DeferState) (such : Subject → Bool) : List Nat :=
  (s.called.filter fun e => such e.1).map Prod.snd

/-- A function that was handed to a context that owed its functions has been called once, on the
item of the context; one that was handed to a context that had been moved from has not. -/
structure CalledOnce (s : DeferState) : Prop where
  once : ∀ n subject, s.registered[n]? = some subject → subject.2.isSome →
    s.called.count (subject, n) = 1
  only : ∀ subject n, (subject, n) ∈ s.called →
    s.registered[n]? = some subject ∧ subject.2.isSome

variable {s : DeferState}

theorem inv_reach (h : deferSystem.Reach Spares s) : s.Inv := by
  refine h.invariant (I := Inv) ?_ fun _ hi hok hs => inv_step hi hok hs
  exact ⟨⟨by simp [deferSystem], by simp [deferSystem]⟩, Duties.inv_start⟩

theorem duties_none (hgone : s.contexts = []) (p : Place) : s.duties.held p = none := by
  simp [duties, owed, at?, hgone]

theorem calledOnce_of_inv (h : s.Inv) (hgone : s.contexts = []) : s.CalledOnce := by
  have hmem : ∀ {subject n}, (subject, n) ∈ s.called ↔
      s.registered[n]? = some subject ∧ subject.2.isSome :=
    (h.duties.mem_done (duties_none hgone)).trans getElem?_taken
  refine ⟨fun n subject hn hs => ?_, fun subject n hc => hmem.mp hc⟩
  exact List.count_eq_one_of_mem h.duties.done_nodup (hmem.mpr ⟨hn, hs⟩)

/-- The functions of one context, wherever it was moved. -/
theorem reversed_of_inv (h : s.Inv) (hgone : s.contexts = []) (item : Item) (k : Nat) :
    s.calledFor (· = (item, some k)) = (s.registeredFor (· = (item, some k))).reverse := by
  have hdone := h.duties.all_done (duties_none hgone) (item, some k)
  have htaken : s.duties.takenFor (item, some k) = s.registeredFor (· = (item, some k)) := by
    rw [Duties.takenFor, registeredFor, length_taken]
    refine List.filter_congr fun n _ => ?_
    have hn : s.duties.taken[n]? = some (some (item, some k)) ↔
        s.registered[n]? = some (item, some k) ∧ (some k).isSome := getElem?_taken
    rw [Bool.eq_iff_iff, decide_eq_true_iff, hn]
    simp [Option.any_eq_true]
  rw [← htaken, ← hdone]
  rfl

/-- An item whose functions were all registered with one context. -/
theorem reversed_of_alone (h : s.Inv) (hgone : s.contexts = []) {item : Item} {k : Nat}
    (halone : ∀ subject ∈ s.registered, subject.1 = item → subject.2 = some k) :
    s.calledFor (fun subject => subject.1 = item) =
      (s.registeredFor fun subject => subject.1 = item).reverse := by
  have hone : ∀ {subject}, subject ∈ s.registered →
      (subject.1 = item ↔ subject = (item, some k)) := by
    intro subject hm
    constructor
    · intro hi
      exact Prod.ext hi (halone subject hm hi)
    · rintro rfl
      rfl
  have hcalled : s.calledFor (fun subject => subject.1 = item) =
      s.calledFor (· = (item, some k)) := by
    unfold calledFor
    refine congrArg _ (List.filter_congr fun e he => decide_eq_decide.mpr (hone ?_))
    exact List.mem_of_getElem? ((calledOnce_of_inv h hgone).only e.1 e.2 he).1
  have hregistered : s.registeredFor (fun subject => subject.1 = item) =
      s.registeredFor (· = (item, some k)) := by
    unfold registeredFor
    refine List.filter_congr fun n _ => ?_
    cases hn : s.registered[n]? with
    | none => rfl
    | some subject => exact decide_eq_decide.mpr (hone (List.mem_of_getElem? hn))
  rw [hcalled, hregistered]
  exact reversed_of_inv h hgone item k

end DeferState

/-- **Deferred functions run exactly once, and in reverse for each context**, unless a context is
moved onto one that still owes its functions. -/
theorem deferred_once (s : DeferState) (h : deferSystem.Reach DeferState.Spares s)
    (hgone : s.contexts = []) :
    s.CalledOnce ∧
      (∀ item k, s.calledFor (· = (item, some k)) =
        (s.registeredFor (· = (item, some k))).reverse) ∧
      ∀ item k, (∀ subject ∈ s.registered, subject.1 = item → subject.2 = some k) →
        s.calledFor (fun subject => subject.1 = item) =
          (s.registeredFor fun subject => subject.1 = item).reverse := by
  have hi := DeferState.inv_reach h
  exact ⟨DeferState.calledOnce_of_inv hi hgone, DeferState.reversed_of_inv hi hgone,
    fun _ _ halone => DeferState.reversed_of_alone hi hgone halone⟩

/-- Two functions for one item, moved about and held for a while. -/
theorem deferred_once_held : ∃ s : DeferState,
    s.registered = [(some 5, some 0), (some 5, some 0)] ∧ s.CalledOnce ∧
      s.calledFor (fun subject => subject.1 = some 5) = [1, 0] := by
  obtain ⟨s, hs, hp⟩ := System.reach_of_exec deferSystem DeferState.Spares
    [.construct 0 (some 5), .defer 0, .moveConstruct 0 1, .hold 1 0 false,
      .release 0 (some 5) 2, .moveAssign 2 0, .destroy 0, .destroy 1, .destroy 2]
    (fun s => s = ⟨[], [(some 5, some 0), (some 5, some 0)],
      [((some 5, some 0), 1), ((some 5, some 0), 0)]⟩) (by decide)
  obtain rfl := of_decide_eq_true hp
  have h := deferred_once _ hs rfl
  exact ⟨_, rfl, h.1, h.2.2 (some 5) 0 (by decide)⟩

/-- **Functions that are lost or called too early**: two contexts of one item that are destroyed in
the order in which they were built, a function for a context that was moved from, and a context
that is moved onto one that owes a function, or onto itself. -/
theorem deferred_lost :
    (deferSystem.exec System.always deferSystem.start
      [.construct 0 (some 5), .construct 1 (some 5), .destroy 0, .destroy 1]).map
        (fun s => (s.contexts, s.registered.map Prod.fst, s.called.map fun e => (e.1.1, e.2))) =
      some ([], [some 5, some 5], [(some 5, 0), (some 5, 1)]) ∧
    (deferSystem.exec System.always deferSystem.start
      [.construct 0 (some 5), .moveConstruct 0 1, .defer 0, .destroy 0, .destroy 1]).map
        (fun s => (s.contexts, s.registered.map Prod.fst, s.called.map fun e => (e.1.1, e.2))) =
      some ([], [some 5, none], [(some 5, 0)]) ∧
    (deferSystem.exec System.always deferSystem.start
      [.construct 0 (some 5), .construct 1 (some 6), .moveAssign 0 1, .destroy 0, .destroy 1]).map
        (fun s => (s.contexts, s.registered.map Prod.fst, s.called.map fun e => (e.1.1, e.2))) =
      some ([], [some 5, some 6], [(some 5, 0)]) ∧
    (deferSystem.exec System.always deferSystem.start
      [.construct 0 (some 5), .moveAssign 0 0, .destroy 0]).map
        (fun s => (s.contexts, s.registered.map Prod.fst, s.called.map fun e => (e.1.1, e.2))) =
      some ([], [some 5], []) :=
  ⟨by decide, by decide, by decide, by decide⟩

end Highp.Scope
