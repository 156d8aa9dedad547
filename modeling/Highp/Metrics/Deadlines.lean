import Highp.Metrics.Fates

/-! The deadlines of the requests, the answers that come before them and the snapshots that look
for those that have passed. -/

namespace Highp.Metrics
open Highp.Client

/-! ## The ledger and the counters -/

/-- `_pendingRequests` as an association list. -/
theorem lookup_of_mem {tags : List (Nat × Pending)} (hkeys : (tags.map fun t => t.2.1).Nodup)
    {t : Nat × Pending} (ht : t ∈ tags) : (tags.map Prod.snd).lookup t.2.1 = some t.2.2 := by
  induction tags with
  | nil => cases ht
  | cons u tags ih =>
    obtain ⟨hnew, htail⟩ := List.nodup_cons.mp hkeys
    obtain ⟨id, key, request⟩ := u
    rcases List.mem_cons.mp ht with rfl | ht
    · exact List.lookup_cons_self
    · have hne : t.2.1 ≠ key := by
        intro heq
        exact hnew (List.mem_map.mpr ⟨t, ht, heq⟩)
      simp only [List.map_cons, List.lookup_cons, beq_eq_false_iff_ne.mpr hne]
      exact ih htail ht

namespace Ledger

/-- What the ledger says of the counters of `AtomicClientMetrics`. -/
structure Exact (s : Ledger) : Prop where
  pending : s.tags.map Prod.snd = s.metrics.pendingRequests
  keys : (s.tags.map fun t => t.2.1).Nodup
  timeouts : s.metrics.responseTimeoutTotal = s.timedOut.length % 2 ^ 64
  samples : ((s.drained.map TimingWindow.count).sum + s.metrics.requestRtt.count) % 2 ^ 64 =
    s.answered.length % 2 ^ 64

theorem exact_new : new.Exact := by
  constructor
  case pending => rfl
  case keys => exact List.nodup_nil
  case timeouts => rfl
  case samples => rfl

theorem filter_pending {s : Ledger} (h : s.Exact) (p : Pending → Bool) :
    (s.tags.filter fun t => p t.2).map Prod.snd = s.metrics.pendingRequests.filter p := by
  rw [← h.pending, List.filter_map]
  rfl

theorem filter_keys {s : Ledger} (h : s.Exact) (p : Nat × Pending → Bool) :
    ((s.tags.filter p).map fun t => t.2.1).Nodup :=
  h.keys.sublist (List.filter_sublist.map _)

/-- A request without sequence number or type is not tracked. -/
theorem step_untracked {s : Ledger} {tracking : RequestTracking} (h : ¬ Tracks tracking)
    (nowNs : Nat) (timeout : Int) :
    s.step nowNs (.trackRequest tracking timeout) = { s with calls := s.calls + 1 } := by
  have hmetrics := s.metrics.trackRequest_eq tracking timeout nowNs
  rw [if_neg h] at hmetrics
  simp only [step, if_neg h, hmetrics]

theorem exact_trackRequest {s : Ledger} (h : s.Exact) (nowNs : Nat) (tracking : RequestTracking)
    (timeout : Int) : (s.step nowNs (.trackRequest tracking timeout)).Exact := by
  by_cases htracks : Tracks tracking
  · have hmetrics := s.metrics.trackRequest_eq tracking timeout nowNs
    rw [if_pos htracks] at hmetrics
    constructor
    case pending =>
      simp only [step, if_pos htracks, hmetrics, AtomicClientMetrics.erase, List.map_cons]
      exact congrArg _ (filter_pending h fun e => e.1 != tracking.sequence)
    case keys =>
      simp only [step, if_pos htracks, List.map_cons]
      refine List.nodup_cons.mpr ⟨fun hmem => ?_, filter_keys h _⟩
      obtain ⟨t, ht, heq⟩ := List.mem_map.mp hmem
      have hne := (List.mem_filter.mp ht).2
      exact absurd heq (by simpa using hne)
    case timeouts =>
      simp only [step, hmetrics]
      exact h.timeouts
    case samples =>
      simp only [step, hmetrics]
      exact h.samples
  · rw [step_untracked htracks]
    exact ⟨h.pending, h.keys, h.timeouts, h.samples⟩

theorem isAnswer_spec {tracking : RequestTracking} {e : Pending}
    (h : IsAnswer tracking e = true) : tracking.sequence ≠ 0 ∧ tracking.sequence = e.1 ∧
      tracking.responseType = e.2.responseType := by
  simpa [IsAnswer, and_assoc] using h

/-- A packet answers the request under its sequence number, if that waits for its type. -/
theorem isAnswer_iff {s : Ledger} (h : s.Exact) {t : Nat × Pending} (ht : t ∈ s.tags)
    {tracking : RequestTracking} (hanswer : IsAnswer tracking t.2 = true) {u : Nat × Pending}
    (hu : u ∈ s.tags) : IsAnswer tracking u.2 = true ↔ u = t := by
  have hseq := (isAnswer_spec hanswer).2.1
  constructor
  · intro hu'
    have hseq' := (isAnswer_spec hu').2.1
    exact List.inj_on_of_nodup_map h.keys hu ht (hseq'.symm.trans hseq)
  · rintro rfl
    exact hanswer

/-- The answered request is the one that is taken out. -/
theorem pending_answered {s : Ledger} (h : s.Exact) {tracking : RequestTracking}
    {t : Nat × Pending} (ht : t ∈ s.tags) (hanswer : IsAnswer tracking t.2 = true)
    (hseq : tracking.sequence = t.2.1) :
    (s.tags.filter fun u => !IsAnswer tracking u.2).map Prod.snd =
      (s.metrics.erase tracking.sequence).pendingRequests := by
  show _ = s.metrics.pendingRequests.filter fun e => e.1 != tracking.sequence
  rw [← filter_pending h fun e => e.1 != tracking.sequence]
  refine congrArg _ (List.filter_congr fun u hu => ?_)
  have hiff := isAnswer_iff h ht hanswer hu
  by_cases hut : u = t
  · have hkey : u.2.1 = tracking.sequence := by rw [hut, hseq]
    simp [hiff.mpr hut, hkey]
  · have hkey : u.2.1 ≠ tracking.sequence := fun hkey =>
      hut (List.inj_on_of_nodup_map h.keys hu ht (hkey.trans hseq))
    have hno : IsAnswer tracking u.2 = false :=
      Bool.eq_false_iff.mpr fun hyes => hut (hiff.mp hyes)
    simp [hno, hkey]

/-- It is a sample unless the clock is behind its sending. -/
theorem samples_answered {s : Ledger} (h : s.Exact) {tracking : RequestTracking}
    {t : Nat × Pending} (ht : t ∈ s.tags) (hanswer : IsAnswer tracking t.2 = true) (nowNs : Nat) :
    (s.tags.filter fun u => IsAnswer tracking u.2 && decide (u.2.2.sentAtNs ≤ nowNs)).length =
      (decide (t.2.2.sentAtNs ≤ nowNs)).toNat := by
  have hiff := fun u hu => isAnswer_iff h ht hanswer (u := u) hu
  rw [← List.countP_eq_length_filter]
  by_cases hsent : t.2.2.sentAtNs ≤ nowNs
  · have hone : s.tags.count t = 1 := List.count_eq_one_of_mem h.keys.of_map ht
    rw [decide_eq_true hsent, Bool.toNat_true, ← hone]
    refine List.countP_congr fun u hu => ?_
    by_cases hut : u = t
    · simp [hut, hanswer, hsent]
    · have hno : IsAnswer tracking u.2 = false :=
        Bool.eq_false_iff.mpr fun hyes => hut ((hiff u hu).mp hyes)
      simp [hno, hut]
  · rw [decide_eq_false hsent, Bool.toNat_false, List.countP_eq_zero]
    intro u hu hyes
    obtain ⟨hyes, hle⟩ := (Bool.and_eq_true _ _).mp hyes
    rw [(hiff u hu).mp hyes] at hle
    exact hsent (of_decide_eq_true hle)

theorem find_tag {s : Ledger} (h : s.Exact) {t : Nat × Pending} (ht : t ∈ s.tags) :
    s.metrics.find t.2.1 = some t.2.2 := by
  unfold AtomicClientMetrics.find
  rw [← h.pending]
  exact lookup_of_mem h.keys ht

/-- What `ResolveRequest` does with an answer. -/
theorem resolve_answer {s : Ledger} (h : s.Exact) {tracking : RequestTracking}
    {t : Nat × Pending} (ht : t ∈ s.tags) (hanswer : IsAnswer tracking t.2 = true) (nowNs : Nat) :
    s.metrics.resolveRequest tracking nowNs =
      if t.2.2.sentAtNs ≤ nowNs then
        { s.metrics.erase tracking.sequence with
          requestRtt := s.metrics.requestRtt.observe (nowNs - t.2.2.sentAtNs) }
      else s.metrics.erase tracking.sequence := by
  obtain ⟨hzero, hseq, htype⟩ := isAnswer_spec hanswer
  have hfind : s.metrics.find tracking.sequence = some t.2.2 := by
    rw [hseq]
    exact find_tag h ht
  unfold AtomicClientMetrics.resolveRequest
  rw [if_neg hzero, hfind]
  exact if_neg (not_not_intro htype.symm)

theorem exact_answer {s : Ledger} (h : s.Exact) {nowNs : Nat} {tracking : RequestTracking}
    {t : Nat × Pending} (ht : t ∈ s.tags) (hanswer : IsAnswer tracking t.2 = true) :
    (s.step nowNs (.resolveRequest tracking)).Exact := by
  have hseq := (isAnswer_spec hanswer).2.1
  have hresolve := resolve_answer h ht hanswer nowNs
  constructor
  case pending =>
    simp only [step, hresolve]
    rw [pending_answered h ht hanswer hseq]
    split <;> rfl
  case keys => exact filter_keys h _
  case timeouts =>
    simp only [step, hresolve]
    rw [← h.timeouts]
    split <;> rfl
  case samples =>
    have hsamples := h.samples
    simp only [step, hresolve, List.length_append, List.length_map,
      samples_answered h ht hanswer nowNs]
    by_cases hsent : t.2.2.sentAtNs ≤ nowNs
    · simp only [if_pos hsent, TimingWindow.observe, decide_eq_true hsent, Bool.toNat_true]
      omega
    · simp only [if_neg hsent, decide_eq_false hsent, Bool.toNat_false, Nat.add_zero]
      exact hsamples

/-- No request is pending that this packet answers. -/
def Unmatched (s : Ledger) (tracking : RequestTracking) : Prop :=
  tracking.sequence = 0 ∨ ∀ found, s.metrics.find tracking.sequence = some found →
    found.responseType ≠ tracking.responseType

theorem no_answer {s : Ledger} (h : s.Exact) {tracking : RequestTracking}
    (hunmatched : s.Unmatched tracking) : ∀ t ∈ s.tags, IsAnswer tracking t.2 = false := by
  intro t ht
  rw [Bool.eq_false_iff]
  intro hanswer
  obtain ⟨hzero, hseq, htype⟩ := isAnswer_spec hanswer
  rcases hunmatched with hzero' | hother
  · exact hzero hzero'
  · exact hother t.2.2 (by rw [hseq]; exact find_tag h ht) htype.symm

theorem unmatched_or_answer {s : Ledger} (h : s.Exact) (tracking : RequestTracking) :
    s.Unmatched tracking ∨ ∃ t ∈ s.tags, IsAnswer tracking t.2 = true := by
  by_cases hzero : tracking.sequence = 0
  · exact .inl (.inl hzero)
  by_cases hanswer : ∃ t ∈ s.tags, IsAnswer tracking t.2 = true
  · exact .inr hanswer
  refine .inl (.inr fun found hfound htype => hanswer ?_)
  obtain ⟨front, back, hpending, -⟩ := List.lookup_eq_some_iff.mp hfound
  have hmem : (tracking.sequence, found) ∈ s.tags.map Prod.snd := by
    rw [h.pending, hpending]
    exact List.mem_append_right _ (List.mem_cons_self ..)
  obtain ⟨t, ht, heq⟩ := List.mem_map.mp hmem
  exact ⟨t, ht, by simp [IsAnswer, hzero, heq, htype]⟩

/-- A packet that answers nothing changes nothing. -/
theorem step_unmatched {s : Ledger} (h : s.Exact) {tracking : RequestTracking}
    (hunmatched : s.Unmatched tracking) (nowNs : Nat) :
    s.step nowNs (.resolveRequest tracking) = { s with calls := s.calls + 1 } := by
  have hnone := no_answer h hunmatched
  have hmetrics : s.metrics.resolveRequest tracking nowNs = s.metrics := by
    unfold AtomicClientMetrics.resolveRequest
    by_cases hzero : tracking.sequence = 0
    · exact if_pos hzero
    · rw [if_neg hzero]
      cases hfind : s.metrics.find tracking.sequence with
      | none => rfl
      | some found => exact if_pos (hunmatched.resolve_left hzero found hfind)
  have htags : (s.tags.filter fun t => !IsAnswer tracking t.2) = s.tags :=
    List.filter_eq_self.mpr fun t ht => by simp [hnone t ht]
  have hanswered : (s.tags.filter fun t =>
      IsAnswer tracking t.2 && decide (t.2.2.sentAtNs ≤ nowNs)) = [] :=
    List.filter_eq_nil_iff.mpr fun t ht => by simp [hnone t ht]
  simp only [step, hmetrics, htags, hanswered, List.map_nil, List.append_nil]

theorem exact_resolveRequest {s : Ledger} (h : s.Exact) (nowNs : Nat)
    (tracking : RequestTracking) : (s.step nowNs (.resolveRequest tracking)).Exact := by
  rcases unmatched_or_answer h tracking with hunmatched | ⟨t, ht, hanswer⟩
  · rw [step_unmatched h hunmatched]
    exact ⟨h.pending, h.keys, h.timeouts, h.samples⟩
  · exact exact_answer h ht hanswer

theorem exact_takeSnapshot {s : Ledger} (h : s.Exact) (nowNs : Nat) :
    (s.step nowNs .takeSnapshot).Exact := by
  constructor
  case pending => exact filter_pending h fun e => !e.2.expired nowNs
  case keys => exact filter_keys h _
  case timeouts =>
    have hcount : (s.metrics.pendingRequests.countP fun e => e.2.expired nowNs) =
        (s.tags.filter fun t => t.2.2.expired nowNs).length := by
      rw [List.countP_eq_length_filter, ← filter_pending h fun e => e.2.expired nowNs,
        List.length_map]
    show (s.metrics.responseTimeoutTotal + _) % 2 ^ 64 = (s.timedOut ++ _).length % 2 ^ 64
    rw [hcount, h.timeouts, List.length_append, List.length_map, Nat.mod_add_mod]
  case samples =>
    have hsamples := h.samples
    show (((s.drained ++ [s.metrics.requestRtt]).map TimingWindow.count).sum + 0) % 2 ^ 64 =
      s.answered.length % 2 ^ 64
    rw [List.map_append, List.sum_append]
    simpa using hsamples

theorem Exact.step {s : Ledger} (h : s.Exact) (nowNs : Nat) (c : ClientStep) :
    (s.step nowNs c).Exact := by
  cases c with
  | sendFrame tracking => exact ⟨h.pending, h.keys, h.timeouts, h.samples⟩
  | trackRequest tracking timeout => exact exact_trackRequest h nowNs tracking timeout
  | resolveRequest tracking => exact exact_resolveRequest h nowNs tracking
  | takeSnapshot => exact exact_takeSnapshot h nowNs

theorem Exact.run {s : Ledger} (h : s.Exact) (es : List (Nat × ClientStep)) :
    (s.run es).Exact := by
  induction es generalizing s with
  | nil => exact h
  | cons e es ih => exact ih (h.step e.1 e.2)

/-! ## The request that a call makes -/

theorem calls_run (s : Ledger) (es : List (Nat × ClientStep)) :
    (s.run es).calls = s.calls + es.countP fun e => e.2.isCall := by
  induction es generalizing s with
  | nil => rfl
  | cons e es ih =>
    have hstep : (s.step e.1 e.2).calls = s.calls + e.2.isCall.toNat := by
      cases e.2 <;> rfl
    show ((s.step e.1 e.2).run es).calls = _
    rw [ih, hstep, List.countP_cons, Nat.add_assoc, Nat.add_comm (e.2.isCall.toNat)]
    cases e.2.isCall <;> rfl

end Ledger

/-- What becomes of the request that a call makes, if it makes one. -/
def outcome (x : Nat × ClientStep) (es : List (Nat × ClientStep)) : Option Fate :=
  match x.2 with
  | .trackRequest tracking timeout =>
    if Tracks tracking then some (fate (tracking.sequence, pendingOf tracking timeout x.1) es)
    else none
  | _ => none

namespace Ledger

/-- A number that was not given is nowhere in the ledger. -/
theorem Numbered.fresh {s : Ledger} (h : s.Numbered) : s.answered.count s.calls = 0 ∧
    s.timedOut.count s.calls = 0 ∧ s.calls ∉ s.tags.map Prod.fst := by
  refine ⟨List.count_eq_zero.mpr fun hid => ?_, List.count_eq_zero.mpr fun hid => ?_, fun hid => ?_⟩
  · exact Nat.lt_irrefl _ (h.answered _ hid)
  · exact Nat.lt_irrefl _ (h.timedOut _ hid)
  · obtain ⟨t, ht, heq⟩ := List.mem_map.mp hid
    exact Nat.lt_irrefl _ (heq ▸ h.tags t ht)

/-- The ledger has of the number of a call what becomes of its request. -/
theorem run_call (before : List (Nat × ClientStep)) (x : Nat × ClientStep)
    (hcall : x.2.isCall = true) {after : List (Nat × ClientStep)}
    (hclock : ∀ e ∈ after, x.1 ≤ e.1) :
    (new.run (before ++ x :: after)).answered.count (new.run before).calls =
        (outcome x after = some .answered : Bool).toNat ∧
      (new.run (before ++ x :: after)).timedOut.count (new.run before).calls =
        (outcome x after = some .timedOut : Bool).toNat ∧
      ((new.run before).calls ∈ (new.run (before ++ x :: after)).tags.map Prod.fst ↔
        outcome x after = some .pending) := by
  have hnumbered := numbered_new.run before
  obtain ⟨hanswered, htimedOut, htags⟩ := hnumbered.fresh
  rw [run_append]
  generalize new.run before = s at hnumbered hanswered htimedOut htags ⊢
  show ((s.step x.1 x.2).run after).answered.count s.calls = _ ∧
    ((s.step x.1 x.2).run after).timedOut.count s.calls = _ ∧
    (s.calls ∈ ((s.step x.1 x.2).run after).tags.map Prod.fst ↔ _)
  -- no request is made: its number is not pending
  have hnone : (s.step x.1 x.2).Gone s.calls → outcome x after = none →
      (s.step x.1 x.2).answered.count s.calls = s.answered.count s.calls →
      ((s.step x.1 x.2).run after).answered.count s.calls =
          (outcome x after = some .answered : Bool).toNat ∧
        ((s.step x.1 x.2).run after).timedOut.count s.calls =
          (outcome x after = some .timedOut : Bool).toNat ∧
        (s.calls ∈ ((s.step x.1 x.2).run after).tags.map Prod.fst ↔
          outcome x after = some .pending) := by
    intro hgone hout ha
    obtain ⟨hgone', ha', ht'⟩ := hgone.run after
    have ht : (s.step x.1 x.2).timedOut = s.timedOut := by
      obtain ⟨nowNs, c⟩ := x
      cases c with
      | takeSnapshot => cases hcall
      | _ => rfl
    rw [hout]
    refine ⟨?_, ?_, fun hid => absurd hid hgone'.absent, fun heq => by cases heq⟩
    · rw [ha', ha, hanswered]
      rfl
    · rw [ht', ht, htimedOut]
      rfl
  obtain ⟨nowNs, c⟩ := x
  cases c with
  | takeSnapshot => cases hcall
  | sendFrame tracking => exact hnone ⟨Nat.lt_succ_self _, htags⟩ rfl rfl
  | resolveRequest tracking =>
    refine hnone ⟨Nat.lt_succ_self _, not_mem_filter htags _⟩ rfl ?_
    show (s.answered ++ _).count s.calls = _
    rw [List.count_append, List.count_eq_zero.mpr (not_mem_filter htags _), Nat.add_zero]
  | trackRequest tracking timeout =>
    by_cases htracks : Tracks tracking
    · have hout : outcome (nowNs, .trackRequest tracking timeout) after =
          some (fate (tracking.sequence, pendingOf tracking timeout nowNs) after) :=
        if_pos htracks
      have hmem : (s.calls, tracking.sequence, pendingOf tracking timeout nowNs) ∈
          (s.step nowNs (.trackRequest tracking timeout)).tags := by
        simp only [step, if_pos htracks]
        exact List.mem_cons_self ..
      obtain ⟨ha, ht, hin⟩ := run_pending (hnumbered.step nowNs _) hmem hclock
      rw [hout]
      refine ⟨ha.trans ?_, ht.trans ?_, hin.trans (by simp)⟩
      · show s.answered.count s.calls + _ = _
        simp [hanswered]
      · show s.timedOut.count s.calls + _ = _
        simp [htimedOut]
    · refine hnone ⟨Nat.lt_succ_self _, ?_⟩ (if_neg htracks) rfl
      simp only [step, if_neg htracks]
      exact htags

end Ledger

end Highp.Metrics
