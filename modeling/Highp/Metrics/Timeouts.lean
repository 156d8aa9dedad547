import Mathlib.Data.Int.Order.Lemmas
import Highp.Metrics.Deadlines

/-! Which requests of the client are answered and which are counted as timed out. -/

namespace Highp.Metrics
open Highp.Client

/-- The packet answers the request of `TrackRequest`. -/
theorem isAnswer_pendingOf {tracking : RequestTracking} (htracks : Tracks tracking)
    (timeout : Int) (nowNs : Nat) (packet : RequestTracking) :
    IsAnswer packet (tracking.sequence, pendingOf tracking timeout nowNs) = true ↔
      packet = tracking := by
  obtain ⟨sequence, responseType⟩ := packet
  obtain ⟨sequence', responseType'⟩ := tracking
  simp only [IsAnswer, pendingOf, Bool.and_eq_true, decide_eq_true_eq, RequestTracking.mk.injEq]
  constructor
  · rintro ⟨⟨_, hseq⟩, htype⟩
    exact ⟨hseq, of_decide_eq_true htype⟩
  · rintro ⟨rfl, rfl⟩
    exact ⟨⟨htracks.1, rfl⟩, decide_eq_true rfl⟩

/-! ## A request of `Client::Send` -/

/-- A request of `Client::Send` among the steps of all threads: `SendFrame`, then `TrackRequest`.
The readings of the steady clock do not decrease. -/
structure Sending where
  before : List (Nat × ClientStep)
  sentAt : Nat
  between : List (Nat × ClientStep)
  trackedAt : Nat
  after : List (Nat × ClientStep)
  tracking : RequestTracking
  timeout : Int
  tracks : Tracks tracking
  clock : ((before ++ (sentAt, ClientStep.sendFrame tracking) :: between ++
    (trackedAt, .trackRequest tracking timeout) :: after).map Prod.fst).Pairwise (· ≤ ·)

namespace Sending

def steps (r : Sending) : List (Nat × ClientStep) :=
  r.before ++ (r.sentAt, .sendFrame r.tracking) :: r.between ++
    (r.trackedAt, .trackRequest r.tracking r.timeout) :: r.after

/-- The number of its `TrackRequest`. -/
def id (r : Sending) : Nat :=
  (Ledger.new.run (r.before ++ (r.sentAt, .sendFrame r.tracking) :: r.between)).calls

def request (r : Sending) : Pending :=
  (r.tracking.sequence, pendingOf r.tracking r.timeout r.trackedAt)

/-- The answer is received after `SendFrame`, and before the deadline if there is one. -/
def AnsweredInTime (r : Sending) : Prop :=
  ∃ nowNs, (nowNs, .resolveRequest r.tracking) ∈ r.between ++ r.after ∧
    (0 < r.timeout → (nowNs : Int) < r.trackedAt + r.timeout * 1000000)

/-- The request contributes one sample, is not left pending and is not counted as timed out. -/
def Contributes (r : Sending) : Prop :=
  (Ledger.new.run r.steps).answered.count r.id = 1 ∧
    r.id ∉ (Ledger.new.run r.steps).tags.map Prod.fst ∧
    (Ledger.new.run r.steps).timedOut.count r.id = 0

end Sending

/-- A pending request leaves with this step and without an answer. -/
def Displaces (e : Pending) (x : Nat × ClientStep) : Prop :=
  match x.2 with
  | .trackRequest tracking _ => Tracks tracking ∧ e.1 = tracking.sequence
  | .takeSnapshot => e.2.expired x.1 = true
  | _ => False

/-- After `TrackRequest` the answer is resolved, and nothing displaces the request before. -/
def Sending.Meets (r : Sending) : Prop :=
  ∃ before nowNs rest, r.after = before ++ (nowNs, .resolveRequest r.tracking) :: rest ∧
    ∀ x ∈ before, ¬ Displaces r.request x

theorem fateAt_of_not_displaces {e : Pending} {x : Nat × ClientStep} (h : ¬ Displaces e x) :
    fateAt e x.1 x.2 = none ∨ fateAt e x.1 x.2 = some .answered := by
  obtain ⟨nowNs, c⟩ := x
  cases c with
  | sendFrame tracking => exact .inl rfl
  | trackRequest tracking timeout => exact .inl (if_neg h)
  | resolveRequest tracking =>
    by_cases hanswer : IsAnswer tracking e = true
    · exact .inr (if_pos hanswer)
    · exact .inl (if_neg hanswer)
  | takeSnapshot => exact .inl (if_neg h)

theorem not_displaces_of_fateAt {e : Pending} {x : Nat × ClientStep}
    (h : fateAt e x.1 x.2 = none) : ¬ Displaces e x := by
  intro hd
  obtain ⟨nowNs, c⟩ := x
  cases c with
  | sendFrame tracking => exact hd
  | resolveRequest tracking => exact hd
  | trackRequest tracking timeout =>
    have hsome : fateAt e nowNs (.trackRequest tracking timeout) = some .replaced := if_pos hd
    cases hsome.symm.trans h
  | takeSnapshot =>
    have hsome : fateAt e nowNs .takeSnapshot = some .timedOut := if_pos hd
    cases hsome.symm.trans h

/-- Until something displaces it, a request is pending or answered. -/
theorem fate_of_not_displaces {e : Pending} {es : List (Nat × ClientStep)}
    (h : ∀ x ∈ es, ¬ Displaces e x) : fate e es = .pending ∨ fate e es = .answered := by
  by_cases hpending : fate e es = .pending
  · exact .inl hpending
  · obtain ⟨before, x, after, heq, -, hx⟩ := exists_of_fate hpending
    have hmem : x ∈ es := heq ▸ List.mem_append_right before (List.mem_cons_self ..)
    rcases fateAt_of_not_displaces (h x hmem) with hnone | hanswered
    · cases hnone.symm.trans hx
    · exact .inr (Option.some.inj (hx.symm.trans hanswered))

theorem fateAt_eq_answered {e : Pending} {x : Nat × ClientStep} :
    fateAt e x.1 x.2 = some .answered ↔
      ∃ tracking, x.2 = .resolveRequest tracking ∧ IsAnswer tracking e = true := by
  obtain ⟨nowNs, c⟩ := x
  cases c with
  | sendFrame tracking => simp [fateAt]
  | trackRequest tracking timeout =>
    simp only [fateAt]
    split <;> simp
  | resolveRequest tracking => simp [fateAt]
  | takeSnapshot =>
    simp only [fateAt]
    split <;> simp

/-- A request is answered by the first answer, if nothing displaces it before. -/
theorem fate_eq_answered {e : Pending} {es : List (Nat × ClientStep)} :
    fate e es = .answered ↔ ∃ before nowNs tracking rest,
      es = before ++ (nowNs, .resolveRequest tracking) :: rest ∧ IsAnswer tracking e = true ∧
        ∀ x ∈ before, ¬ Displaces e x := by
  constructor
  · intro h
    have hmet : fate e es ≠ .pending := by
      rw [h]
      exact Fate.noConfusion
    obtain ⟨before, ⟨nowNs, c⟩, rest, heq, hbefore, hx⟩ := exists_of_fate hmet
    rw [h] at hx
    obtain ⟨tracking, rfl, hanswer⟩ := fateAt_eq_answered.mp hx
    exact ⟨before, nowNs, tracking, rest, heq, hanswer, fun x hxmem =>
      not_displaces_of_fateAt (fate_eq_pending.mp hbefore x hxmem)⟩
  · rintro ⟨before, nowNs, tracking, rest, rfl, hanswer, hbefore⟩
    rcases fate_of_not_displaces hbefore with hpending | hanswered
    · rw [fate_append_pending hpending]
      exact fate_cons_some rest (if_pos hanswer)
    · rw [fate_append_met (by rw [hanswered]; exact Fate.noConfusion)]
      exact hanswered

namespace Sending

theorem fate_iff_meets (r : Sending) : fate r.request r.after = .answered ↔ r.Meets := by
  refine fate_eq_answered.trans ?_
  constructor
  · rintro ⟨before, nowNs, packet, rest, heq, hanswer, hbefore⟩
    obtain rfl := (isAnswer_pendingOf r.tracks r.timeout r.trackedAt packet).mp hanswer
    exact ⟨before, nowNs, rest, heq, hbefore⟩
  · rintro ⟨before, nowNs, rest, heq, hbefore⟩
    exact ⟨before, nowNs, r.tracking, rest, heq,
      (isAnswer_pendingOf r.tracks r.timeout r.trackedAt _).mpr rfl, hbefore⟩

theorem tracked_le (r : Sending) : ∀ e ∈ r.after, r.trackedAt ≤ e.1 := by
  intro e he
  have hclock := r.clock
  rw [List.map_append, List.map_cons] at hclock
  have hafter := (List.pairwise_cons.mp (List.pairwise_append.mp hclock).2.1).1
  exact hafter e.1 (List.mem_map_of_mem he)

theorem contributes_iff (r : Sending) : r.Contributes ↔ r.Meets := by
  have hout : outcome (r.trackedAt, .trackRequest r.tracking r.timeout) r.after =
      some (fate r.request r.after) := if_pos r.tracks
  obtain ⟨hanswered, htimedOut, htags⟩ :=
    Ledger.run_call (r.before ++ (r.sentAt, .sendFrame r.tracking) :: r.between)
      (r.trackedAt, .trackRequest r.tracking r.timeout) rfl r.tracked_le
  rw [hout] at hanswered htimedOut htags
  rw [← r.fate_iff_meets]
  unfold Contributes
  change (Ledger.new.run r.steps).answered.count r.id = _ at hanswered
  change (Ledger.new.run r.steps).timedOut.count r.id = _ at htimedOut
  change r.id ∈ (Ledger.new.run r.steps).tags.map Prod.fst ↔ _ at htags
  rw [hanswered, htimedOut, htags]
  cases fate r.request r.after <;> decide

end Sending

/-- **An answered request is not reported as a timeout, if its answer meets it.** An answer that
`ResolveRequest` looks up before `TrackRequest` is lost. -/
theorem answer_contributes (r : Sending) : (Ledger.new.run r.steps).Exact ∧
    ((r.AnsweredInTime → r.Contributes) ↔ (r.AnsweredInTime → r.Meets)) := by
  refine ⟨Ledger.exact_new.run r.steps, ?_⟩
  constructor
  · intro h hanswer
    exact r.contributes_iff.mp (h hanswer)
  · intro h hanswer
    exact r.contributes_iff.mpr (h hanswer)

/-- The server answers before the sending thread gets to `TrackRequest`. -/
def fastServer : Sending where
  before := []
  sentAt := 0
  between := [(1, .resolveRequest ⟨1, .scJoinedRoom⟩)]
  trackedAt := 2
  after := [(5000002, .takeSnapshot)]
  tracking := ⟨1, .scJoinedRoom⟩
  timeout := 5
  tracks := by decide
  clock := by decide

theorem fast_server_times_out : fastServer.AnsweredInTime ∧ ¬ fastServer.Contributes ∧
    (Ledger.new.run fastServer.steps).metrics.responseTimeoutTotal = 1 ∧
    (Ledger.new.run fastServer.steps).answered = [] := by
  refine ⟨⟨1, ?_, ?_⟩, ?_, ?_, ?_⟩
  · decide
  · decide
  · unfold Sending.Contributes
    decide
  · decide
  · decide

/-- The answer comes a millisecond after `TrackRequest`. -/
def slowServer : Sending where
  before := []
  sentAt := 0
  between := []
  trackedAt := 2
  after := [(1000002, .resolveRequest ⟨1, .scJoinedRoom⟩), (5000002, .takeSnapshot)]
  tracking := ⟨1, .scJoinedRoom⟩
  timeout := 5
  tracks := by decide
  clock := by decide

theorem slow_server_contributes : slowServer.AnsweredInTime ∧ slowServer.Contributes := by
  have hanswer : slowServer.AnsweredInTime := ⟨1000002, by decide, by decide⟩
  have hmeets : slowServer.Meets := ⟨[], 1000002, _, rfl, fun x hx => absurd hx List.not_mem_nil⟩
  exact ⟨hanswer, (answer_contributes slowServer).2.mpr (fun _ => hmeets) hanswer⟩

end Highp.Metrics
