import Highp.Metrics.Requests
import Mathlib.Data.List.Nodup
import Mathlib.Data.List.Perm.Basic

/-! What becomes of a pending request. It leaves the pending requests with the first of an answer, a
request with its sequence number and a snapshot that finds its deadline passed. -/

namespace Highp.Metrics
open Highp.Client

/-- The test of `TrackRequest`, which `Client::Send` makes before it. -/
def Tracks (tracking : RequestTracking) : Prop :=
  tracking.sequence ≠ 0 ∧ tracking.responseType ≠ .none

instance (tracking : RequestTracking) : Decidable (Tracks tracking) :=
  inferInstanceAs (Decidable (_ ∧ _))

namespace AtomicClientMetrics

theorem trackRequest_eq (m : AtomicClientMetrics) (tracking : RequestTracking) (timeout : Int)
    (nowNs : Nat) : m.trackRequest tracking timeout nowNs =
      if Tracks tracking then
        { m with pendingRequests := (tracking.sequence, pendingOf tracking timeout nowNs) ::
          (m.erase tracking.sequence).pendingRequests }
      else m := by
  unfold trackRequest
  by_cases h : tracking.sequence = 0 ∨ tracking.responseType = .none
  · rw [if_pos h, if_neg (show ¬ Tracks tracking by unfold Tracks; tauto)]
  · rw [if_neg h, if_pos (show Tracks tracking by unfold Tracks; tauto)]

/-- `TakeSnapshot`: the metrics behind it, and its `requestRtt`. -/
def takeSnapshot (m : AtomicClientMetrics) (nowNs : Nat) : AtomicClientMetrics × TimingWindow :=
  let m := m.expireTimedOutRequests nowNs
  ({ m with requestRtt := ⟨0, 0, 0⟩ }, m.requestRtt)

end AtomicClientMetrics

/-- What the threads do to a request, one step at a time. `sendFrame` puts it on the wire. -/
inductive ClientStep
  | sendFrame (tracking : RequestTracking)
  | trackRequest (tracking : RequestTracking) (timeout : Int)
  | resolveRequest (tracking : RequestTracking)
  | takeSnapshot
  deriving DecidableEq

def ClientStep.isCall : ClientStep → Bool
  | .takeSnapshot => false
  | _ => true

/-- A pending request, under its sequence number. -/
abbrev Pending := Nat × PendingRequest

/-- The answer that a packet with this sequence number and type is. -/
def IsAnswer (tracking : RequestTracking) (e : Pending) : Bool :=
  tracking.sequence ≠ 0 && tracking.sequence = e.1 && tracking.responseType = e.2.responseType

/-- The metrics, with the number of the `TrackRequest` that made each pending request, of those that
gave a round-trip sample and of those that were counted as timed out, and with the windows that
the snapshots have drained. -/
structure Ledger where
  metrics : AtomicClientMetrics
  calls : Nat
  tags : List (Nat × Pending)
  answered : List Nat
  timedOut : List Nat
  drained : List TimingWindow

namespace Ledger

def new : Ledger := ⟨.new, 0, [], [], [], []⟩

def step (s : Ledger) (nowNs : Nat) : ClientStep → Ledger
  | .sendFrame _ => { s with calls := s.calls + 1 }
  | .trackRequest tracking timeout => { s with
    metrics := s.metrics.trackRequest tracking timeout nowNs
    calls := s.calls + 1
    tags :=
      if Tracks tracking then
        (s.calls, tracking.sequence, pendingOf tracking timeout nowNs) ::
          s.tags.filter fun t => t.2.1 != tracking.sequence
      else s.tags }
  | .resolveRequest tracking => { s with
    metrics := s.metrics.resolveRequest tracking nowNs
    calls := s.calls + 1
    tags := s.tags.filter fun t => !IsAnswer tracking t.2
    answered := s.answered ++ ((s.tags.filter fun t =>
      IsAnswer tracking t.2 && decide (t.2.2.sentAtNs ≤ nowNs)).map Prod.fst) }
  | .takeSnapshot => { s with
    metrics := (s.metrics.takeSnapshot nowNs).1
    tags := s.tags.filter fun t => !t.2.2.expired nowNs
    timedOut := s.timedOut ++ ((s.tags.filter fun t => t.2.2.expired nowNs).map Prod.fst)
    drained := s.drained ++ [(s.metrics.takeSnapshot nowNs).2] }

/-- A run, from the steps and the readings of the clock. -/
def run (s : Ledger) (es : List (Nat × ClientStep)) : Ledger :=
  es.foldl (fun s e => s.step e.1 e.2) s

theorem run_append (s : Ledger) (es fs : List (Nat × ClientStep)) :
    s.run (es ++ fs) = (s.run es).run fs := List.foldl_append ..

end Ledger

/-! ## The fate of a request -/

inductive Fate
  | answered
  | replaced
  | timedOut
  | pending
  deriving DecidableEq

/-- What a step does to a pending request, if it does not stay pending. -/
def fateAt (e : Pending) (nowNs : Nat) : ClientStep → Option Fate
  | .sendFrame _ => none
  | .trackRequest tracking _ =>
    if Tracks tracking ∧ e.1 = tracking.sequence then some .replaced else none
  | .resolveRequest tracking => if IsAnswer tracking e then some .answered else none
  | .takeSnapshot => if e.2.expired nowNs then some .timedOut else none

def fate (e : Pending) : List (Nat × ClientStep) → Fate
  | [] => .pending
  | (nowNs, step) :: es => (fateAt e nowNs step).getD (fate e es)

theorem fateAt_ne_pending {e : Pending} {nowNs : Nat} {step : ClientStep} :
    fateAt e nowNs step ≠ some .pending := by
  intro h
  cases step with
  | sendFrame tracking => cases h
  | trackRequest tracking timeout =>
    simp only [fateAt] at h
    split at h <;> cases h
  | resolveRequest tracking =>
    simp only [fateAt] at h
    split at h <;> cases h
  | takeSnapshot =>
    simp only [fateAt] at h
    split at h <;> cases h

theorem fate_cons_none {e : Pending} {nowNs : Nat} {step : ClientStep}
    (es : List (Nat × ClientStep)) (h : fateAt e nowNs step = none) :
    fate e ((nowNs, step) :: es) = fate e es := by
  show (fateAt e nowNs step).getD _ = _
  rw [h]
  rfl

theorem fate_cons_some {e : Pending} {nowNs : Nat} {step : ClientStep} {f : Fate}
    (es : List (Nat × ClientStep)) (h : fateAt e nowNs step = some f) :
    fate e ((nowNs, step) :: es) = f := by
  show (fateAt e nowNs step).getD _ = _
  rw [h]
  rfl

theorem fate_eq_pending {e : Pending} {es : List (Nat × ClientStep)} :
    fate e es = .pending ↔ ∀ x ∈ es, fateAt e x.1 x.2 = none := by
  induction es with
  | nil => exact ⟨fun _ x hx => absurd hx (List.not_mem_nil), fun _ => rfl⟩
  | cons y es ih =>
    obtain ⟨nowNs, step⟩ := y
    rw [List.forall_mem_cons]
    cases hf : fateAt e nowNs step with
    | none =>
      rw [fate_cons_none es hf]
      exact ih.trans ⟨fun h => ⟨rfl, h⟩, fun h => h.2⟩
    | some f =>
      rw [fate_cons_some es hf]
      constructor
      · rintro rfl
        exact absurd hf fateAt_ne_pending
      · intro h
        cases h.1

theorem fate_append_pending {e : Pending} {es : List (Nat × ClientStep)}
    (h : fate e es = .pending) (fs : List (Nat × ClientStep)) :
    fate e (es ++ fs) = fate e fs := by
  induction es with
  | nil => rfl
  | cons x es ih =>
    have hx := fate_eq_pending.mp h x (List.mem_cons_self ..)
    rw [fate_cons_none es hx] at h
    exact (fate_cons_none (es ++ fs) hx).trans (ih h)

theorem fate_append_met {e : Pending} {es : List (Nat × ClientStep)} (h : fate e es ≠ .pending)
    (fs : List (Nat × ClientStep)) : fate e (es ++ fs) = fate e es := by
  induction es with
  | nil => exact absurd rfl h
  | cons x es ih =>
    cases hf : fateAt e x.1 x.2 with
    | none =>
      rw [fate_cons_none es hf] at h ⊢
      exact (fate_cons_none (es ++ fs) hf).trans (ih h)
    | some f => exact (fate_cons_some (es ++ fs) hf).trans (fate_cons_some es hf).symm

/-- A fate is met at some step, which is the first that does anything to the request. -/
theorem exists_of_fate {e : Pending} {es : List (Nat × ClientStep)} (h : fate e es ≠ .pending) :
    ∃ before x after, es = before ++ x :: after ∧ fate e before = .pending ∧
      fateAt e x.1 x.2 = some (fate e es) := by
  induction es with
  | nil => exact absurd rfl h
  | cons x es ih =>
    cases hf : fateAt e x.1 x.2 with
    | none =>
      rw [fate_cons_none es hf] at h ⊢
      obtain ⟨before, y, after, heq, hbefore, hy⟩ := ih h
      refine ⟨x :: before, y, after, by rw [heq]; rfl, ?_, hy⟩
      exact (fate_cons_none before hf).trans hbefore
    | some f =>
      refine ⟨[], x, es, rfl, rfl, ?_⟩
      rw [fate_cons_some es hf, hf]

namespace Ledger

/-- Numbers are given once, and the lists have only numbers that were given. -/
structure Numbered (s : Ledger) : Prop where
  nodup : (s.tags.map Prod.fst).Nodup
  tags : ∀ t ∈ s.tags, t.1 < s.calls
  answered : ∀ id ∈ s.answered, id < s.calls
  timedOut : ∀ id ∈ s.timedOut, id < s.calls

theorem numbered_new : new.Numbered := by
  constructor
  case nodup => exact List.nodup_nil
  case tags => simp [new]
  case answered => simp [new]
  case timedOut => simp [new]

theorem Numbered.step {s : Ledger} (h : s.Numbered) (nowNs : Nat) (c : ClientStep) :
    (s.step nowNs c).Numbered := by
  obtain ⟨hnodup, htags, hanswered, htimedOut⟩ := h
  have hfilter : ∀ p : Nat × Pending → Bool, ((s.tags.filter p).map Prod.fst).Nodup := fun p =>
    hnodup.sublist (List.filter_sublist.map _)
  have hlog : ∀ (p : Nat × Pending → Bool) (ids : List Nat), (∀ id ∈ ids, id < s.calls) →
      ∀ id ∈ ids ++ (s.tags.filter p).map Prod.fst, id < s.calls := by
    intro p ids hids id hid
    rcases List.mem_append.mp hid with hid | hid
    · exact hids id hid
    · obtain ⟨t, ht, rfl⟩ := List.mem_map.mp hid
      exact htags t (List.mem_filter.mp ht).1
  cases c with
  | sendFrame tracking =>
    exact ⟨hnodup, fun t ht => Nat.lt_succ_of_lt (htags t ht),
      fun id hid => Nat.lt_succ_of_lt (hanswered id hid),
      fun id hid => Nat.lt_succ_of_lt (htimedOut id hid)⟩
  | trackRequest tracking timeout =>
    refine ⟨?_, ?_, fun id hid => Nat.lt_succ_of_lt (hanswered id hid),
      fun id hid => Nat.lt_succ_of_lt (htimedOut id hid)⟩
    · simp only [Ledger.step]
      split
      · refine List.nodup_cons.mpr ⟨fun hid => ?_, hfilter _⟩
        obtain ⟨t, ht, heq⟩ := List.mem_map.mp hid
        have hlt := htags t (List.mem_filter.mp ht).1
        exact absurd heq (Nat.ne_of_lt hlt)
      · exact hnodup
    · simp only [Ledger.step]
      intro t ht
      split at ht
      · rcases List.mem_cons.mp ht with rfl | ht
        · exact Nat.lt_succ_self _
        · exact Nat.lt_succ_of_lt (htags t (List.mem_filter.mp ht).1)
      · exact Nat.lt_succ_of_lt (htags t ht)
  | resolveRequest tracking =>
    exact ⟨hfilter _, fun t ht => Nat.lt_succ_of_lt (htags t (List.mem_filter.mp ht).1),
      fun id hid => Nat.lt_succ_of_lt (hlog _ _ hanswered id hid),
      fun id hid => Nat.lt_succ_of_lt (htimedOut id hid)⟩
  | takeSnapshot =>
    exact ⟨hfilter _, fun t ht => htags t (List.mem_filter.mp ht).1, hanswered,
      hlog _ _ htimedOut⟩

theorem Numbered.run {s : Ledger} (h : s.Numbered) (es : List (Nat × ClientStep)) :
    (s.run es).Numbered := by
  induction es generalizing s with
  | nil => exact h
  | cons e es ih => exact ih (h.step e.1 e.2)

/-! ### A request that is not pending -/

/-- The number of a request that is not pending, or of no request. -/
structure Gone (s : Ledger) (id : Nat) : Prop where
  given : id < s.calls
  absent : id ∉ s.tags.map Prod.fst

theorem not_mem_filter {s : Ledger} {id : Nat} (h : id ∉ s.tags.map Prod.fst)
    (p : Nat × Pending → Bool) : id ∉ (s.tags.filter p).map Prod.fst :=
  fun hid => h ((List.filter_sublist.map _).subset hid)

theorem Gone.step {s : Ledger} {id : Nat} (h : s.Gone id) (nowNs : Nat) (c : ClientStep) :
    (s.step nowNs c).Gone id ∧ (s.step nowNs c).answered.count id = s.answered.count id ∧
      (s.step nowNs c).timedOut.count id = s.timedOut.count id := by
  obtain ⟨hgiven, habsent⟩ := h
  have hnone : ∀ p : Nat × Pending → Bool, ((s.tags.filter p).map Prod.fst).count id = 0 :=
    fun p => List.count_eq_zero.mpr (not_mem_filter habsent p)
  cases c with
  | sendFrame tracking => exact ⟨⟨Nat.lt_succ_of_lt hgiven, habsent⟩, rfl, rfl⟩
  | trackRequest tracking timeout =>
    refine ⟨⟨Nat.lt_succ_of_lt hgiven, ?_⟩, rfl, rfl⟩
    simp only [Ledger.step]
    split
    · intro hid
      rcases List.mem_cons.mp hid with heq | hid
      · exact absurd heq (Nat.ne_of_lt hgiven)
      · exact not_mem_filter habsent _ hid
    · exact habsent
  | resolveRequest tracking =>
    refine ⟨⟨Nat.lt_succ_of_lt hgiven, not_mem_filter habsent _⟩, ?_, rfl⟩
    show (s.answered ++ _).count id = _
    rw [List.count_append, hnone, Nat.add_zero]
  | takeSnapshot =>
    refine ⟨⟨hgiven, not_mem_filter habsent _⟩, rfl, ?_⟩
    show (s.timedOut ++ _).count id = _
    rw [List.count_append, hnone, Nat.add_zero]

theorem Gone.run {s : Ledger} {id : Nat} (h : s.Gone id) (es : List (Nat × ClientStep)) :
    (s.run es).Gone id ∧ (s.run es).answered.count id = s.answered.count id ∧
      (s.run es).timedOut.count id = s.timedOut.count id := by
  induction es generalizing s with
  | nil => exact ⟨h, rfl, rfl⟩
  | cons e es ih =>
    obtain ⟨hgone, ha, ht⟩ := h.step e.1 e.2
    obtain ⟨hgone', ha', ht'⟩ := ih hgone
    exact ⟨hgone', ha'.trans ha, ht'.trans ht⟩

/-! ### A pending request -/

/-- The number of a pending request is in the numbers of the tags with a property once if it has
the property, and never otherwise. -/
theorem count_filter {s : Ledger} (h : s.Numbered) {t : Nat × Pending} (ht : t ∈ s.tags)
    (p : Nat × Pending → Bool) :
    ((s.tags.filter p).map Prod.fst).count t.1 = (p t).toNat := by
  have hunique : ∀ u ∈ s.tags, u.1 = t.1 → u = t := by
    intro u hu heq
    exact List.inj_on_of_nodup_map h.nodup hu ht heq
  cases hp : p t with
  | true =>
    have hmem : t.1 ∈ (s.tags.filter p).map Prod.fst :=
      List.mem_map.mpr ⟨t, List.mem_filter.mpr ⟨ht, hp⟩, rfl⟩
    exact List.count_eq_one_of_mem (h.nodup.sublist (List.filter_sublist.map _)) hmem
  | false =>
    refine List.count_eq_zero.mpr fun hid => ?_
    obtain ⟨u, hu, heq⟩ := List.mem_map.mp hid
    obtain ⟨hu, hpu⟩ := List.mem_filter.mp hu
    rw [hunique u hu heq, hp] at hpu
    cases hpu

theorem gone_of_filter {s : Ledger} (h : s.Numbered) {t : Nat × Pending} (ht : t ∈ s.tags)
    {p : Nat × Pending → Bool} (hp : p t = false) :
    t.1 ∉ (s.tags.filter p).map Prod.fst := by
  have hcount := count_filter h ht p
  rw [hp] at hcount
  exact List.count_eq_zero.mp hcount

/-- What a step does to a pending request. -/
theorem step_pending {s : Ledger} (h : s.Numbered) {t : Nat × Pending} (ht : t ∈ s.tags)
    {nowNs : Nat} (hsent : t.2.2.sentAtNs ≤ nowNs) (c : ClientStep) :
    (s.step nowNs c).answered.count t.1 = s.answered.count t.1 +
        (fateAt t.2 nowNs c = some .answered : Bool).toNat ∧
      (s.step nowNs c).timedOut.count t.1 = s.timedOut.count t.1 +
        (fateAt t.2 nowNs c = some .timedOut : Bool).toNat ∧
      match fateAt t.2 nowNs c with
      | none => t ∈ (s.step nowNs c).tags
      | some _ => (s.step nowNs c).Gone t.1 := by
  have hlt := h.tags t ht
  cases c with
  | sendFrame tracking => exact ⟨rfl, rfl, ht⟩
  | trackRequest tracking timeout =>
    refine ⟨?_, ?_, ?_⟩
    · show _ = _ + Bool.toNat (decide (ite _ _ _ = _))
      split <;> rfl
    · show _ = _ + Bool.toNat (decide (ite _ _ _ = _))
      split <;> rfl
    · by_cases htracks : Tracks tracking
      · by_cases hseq : t.2.1 = tracking.sequence
        · have hgone : t.1 ∉ (s.tags.filter fun u => u.2.1 != tracking.sequence).map Prod.fst :=
            gone_of_filter h ht (by simp [hseq])
          simp only [fateAt, htracks, hseq, and_self, if_true, Ledger.step]
          refine ⟨Nat.lt_succ_of_lt hlt, fun hid => ?_⟩
          rcases List.mem_cons.mp hid with heq | hid
          · exact absurd heq (Nat.ne_of_lt hlt)
          · exact hgone hid
        · simp only [fateAt, hseq, and_false, if_false, Ledger.step, htracks, if_true]
          exact List.mem_cons_of_mem _ (List.mem_filter.mpr ⟨ht, by simpa using hseq⟩)
      · simp only [fateAt, htracks, false_and, if_false, Ledger.step]
        exact ht
  | resolveRequest tracking =>
    have hcount := count_filter h ht fun u =>
      IsAnswer tracking u.2 && decide (u.2.2.sentAtNs ≤ nowNs)
    cases hanswers : IsAnswer tracking t.2 with
    | true =>
      simp only [fateAt, hanswers, if_true, Ledger.step, List.count_append, hcount, hsent]
      exact ⟨rfl, rfl, Nat.lt_succ_of_lt hlt, gone_of_filter h ht (by simp [hanswers])⟩
    | false =>
      simp only [fateAt, hanswers, Ledger.step, List.count_append, hcount]
      exact ⟨rfl, rfl, List.mem_filter.mpr ⟨ht, by simp [hanswers]⟩⟩
  | takeSnapshot =>
    have hcount := count_filter h ht fun u => u.2.2.expired nowNs
    cases hexpired : t.2.2.expired nowNs with
    | true =>
      simp only [fateAt, hexpired, if_true, Ledger.step, List.count_append, hcount]
      exact ⟨rfl, rfl, hlt, gone_of_filter h ht (by simp [hexpired])⟩
    | false =>
      simp only [fateAt, hexpired, Ledger.step, List.count_append, hcount]
      exact ⟨rfl, rfl, List.mem_filter.mpr ⟨ht, by simp [hexpired]⟩⟩

/-- **A pending request meets its fate.** -/
theorem run_pending {s : Ledger} (h : s.Numbered) {t : Nat × Pending} (ht : t ∈ s.tags)
    {es : List (Nat × ClientStep)} (hsent : ∀ e ∈ es, t.2.2.sentAtNs ≤ e.1) :
    (s.run es).answered.count t.1 = s.answered.count t.1 +
        (fate t.2 es = .answered : Bool).toNat ∧
      (s.run es).timedOut.count t.1 = s.timedOut.count t.1 +
        (fate t.2 es = .timedOut : Bool).toNat ∧
      (t.1 ∈ (s.run es).tags.map Prod.fst ↔ fate t.2 es = .pending) := by
  induction es generalizing s with
  | nil => exact ⟨rfl, rfl, ⟨fun _ => rfl, fun _ => List.mem_map_of_mem ht⟩⟩
  | cons e es ih =>
    obtain ⟨nowNs, c⟩ := e
    obtain ⟨ha, hto, hnext⟩ := step_pending h ht (hsent _ (List.mem_cons_self ..)) c
    show ((s.step nowNs c).run es).answered.count t.1 = _ ∧
      ((s.step nowNs c).run es).timedOut.count t.1 = _ ∧
      (t.1 ∈ ((s.step nowNs c).run es).tags.map Prod.fst ↔ _)
    cases hf : fateAt t.2 nowNs c with
    | none =>
      rw [hf] at ha hto hnext
      rw [fate_cons_none es hf]
      obtain ⟨ha', hto', hin⟩ := ih (h.step nowNs c) hnext
        fun e he => hsent e (List.mem_cons_of_mem _ he)
      exact ⟨ha'.trans (by rw [ha]; rfl), hto'.trans (by rw [hto]; rfl), hin⟩
    | some f =>
      rw [hf] at ha hto hnext
      rw [fate_cons_some es hf]
      obtain ⟨hgone, ha', hto'⟩ := hnext.run es
      have hf' : f ≠ .pending := by
        rintro rfl
        exact fateAt_ne_pending hf
      refine ⟨ha'.trans (by rw [ha]; simp), hto'.trans (by rw [hto]; simp), ?_⟩
      exact ⟨fun hin => absurd hin hgone.absent, fun heq => absurd heq hf'⟩

end Ledger

end Highp.Metrics
