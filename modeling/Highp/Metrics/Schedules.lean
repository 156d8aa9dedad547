import Highp.Metrics.Timeouts

/-! The schedules of `TakeSnapshot` over one sequence of calls. A request that is answered late or
is replaced is counted as timed out by some schedules only. -/

namespace Highp.Metrics
open Highp.Client

/-- The calls of `TrackRequest`, with a positive timeout, and of `ResolveRequest`, under a clock
that does not decrease. -/
structure Calls where
  list : List (Nat × ClientStep)
  only : ∀ x ∈ list, (∃ tracking timeout, x.2 = .trackRequest tracking timeout ∧ 0 < timeout) ∨
    ∃ tracking, x.2 = .resolveRequest tracking
  clock : (list.map Prod.fst).Pairwise (· ≤ ·)
  bounded : ∀ x ∈ list, x.1 < 2 ^ 64

/-- A schedule of `TakeSnapshot`: snapshots among the calls, and one of them not before any
deadline. -/
structure Schedule (c : Calls) (es : List (Nat × ClientStep)) : Prop where
  calls : es.filter (fun e => e.2.isCall) = c.list
  clock : (es.map Prod.fst).Pairwise (· ≤ ·)
  bounded : ∀ e ∈ es, e.1 < 2 ^ 64
  last : ∃ last, (last, .takeSnapshot) ∈ es ∧
    ∀ nowNs tracking timeout, (nowNs, .trackRequest tracking timeout) ∈ c.list → Tracks tracking →
      (nowNs : Int) + timeout * 1000000 ≤ last

/-- A matching response is resolved before the deadline. -/
def ResolvedInTime (tracking : RequestTracking) (deadline : Int)
    (rest : List (Nat × ClientStep)) : Prop :=
  ∃ nowNs, (nowNs, .resolveRequest tracking) ∈ rest ∧ (nowNs : Int) < deadline

/-- Two schedules count the same timeouts and the same samples, and the timeouts are those of the
requests with no matching response before the deadline. -/
def SameTimeouts (c : Calls) : Prop :=
  ∀ es fs, Schedule c es → Schedule c fs →
    (Ledger.new.run es).metrics.responseTimeoutTotal =
        (Ledger.new.run fs).metrics.responseTimeoutTotal ∧
      (Ledger.new.run es).answered.length = (Ledger.new.run fs).answered.length ∧
      ∀ (done : List (Nat × ClientStep)) (nowNs : Nat) tracking timeout rest,
        c.list = done ++ (nowNs, .trackRequest tracking timeout) :: rest → Tracks tracking →
          (done.length ∈ (Ledger.new.run es).timedOut ↔
            ¬ ResolvedInTime tracking (nowNs + timeout * 1000000) rest)

/-- All deadlines are below `2 ^ 64` nanoseconds. Otherwise no clock gets to the last of them. -/
def DeadlinesFit (c : Calls) : Prop :=
  ∀ nowNs tracking timeout, (nowNs, .trackRequest tracking timeout) ∈ c.list → Tracks tracking →
    (nowNs : Int) + timeout * 1000000 < 2 ^ 64

/-- The call resolves a matching response or puts another request under the sequence number. -/
def Touches (tracking : RequestTracking) (x : Nat × ClientStep) : Prop :=
  match x.2 with
  | .resolveRequest packet => packet = tracking
  | .trackRequest other _ => Tracks other ∧ tracking.sequence = other.sequence
  | _ => False

/-- A request has a matching response before its deadline, or no later call touches it. -/
def Settled (c : Calls) : Prop :=
  ∀ (done : List (Nat × ClientStep)) (nowNs : Nat) tracking timeout rest,
    c.list = done ++ (nowNs, .trackRequest tracking timeout) :: rest → Tracks tracking →
      ResolvedInTime tracking (nowNs + timeout * 1000000) rest ∨
        ∀ x ∈ rest, ¬ Touches tracking x

/-! ## Deadlines -/

theorem PendingRequest.expired_mono {request : PendingRequest} {nowNs later : Nat}
    (h : request.expired nowNs = true) (hle : nowNs ≤ later) : request.expired later = true := by
  obtain ⟨hsome, hpassed⟩ := (Bool.and_eq_true _ _).mp h
  have hpassed' : request.deadlineNs ≤ nowNs := of_decide_eq_true hpassed
  exact (Bool.and_eq_true _ _).mpr ⟨hsome, decide_eq_true (Nat.le_trans hpassed' hle)⟩

theorem expired_pendingOf {tracking : RequestTracking} {timeout : Int} {nowNs : Nat}
    (hpositive : 0 < timeout) (hfit : (nowNs : Int) + timeout * 1000000 < 2 ^ 64) (later : Nat) :
    (pendingOf tracking timeout nowNs).expired later = true ↔
      (nowNs : Int) + timeout * 1000000 ≤ later := by
  have hproduct : (timeout * 1000000) % 2 ^ 64 = timeout * 1000000 :=
    Int.emod_eq_of_lt (by omega) (by omega)
  have hns : 0 < (timeout * 1000000).toNat := by omega
  have hdeadline : (pendingOf tracking timeout nowNs).deadlineNs =
      nowNs + (timeout * 1000000).toNat := by
    simp only [pendingOf]
    rw [if_pos hpositive, hproduct, if_pos hns]
    exact Nat.mod_eq_of_lt (by omega)
  unfold PendingRequest.expired
  rw [hdeadline, Bool.and_eq_true, bne_iff_ne, decide_eq_true_eq]
  omega

/-! ## Fates among snapshots -/

theorem fate_calls_ne_timedOut {e : Pending} {es : List (Nat × ClientStep)}
    (hcalls : ∀ x ∈ es, x.2.isCall = true) : fate e es ≠ .timedOut := by
  intro h
  have hmet : fate e es ≠ .pending := by
    rw [h]
    exact Fate.noConfusion
  obtain ⟨before, ⟨nowNs, c⟩, after, heq, -, hx⟩ := exists_of_fate hmet
  have hcall : c.isCall = true :=
    hcalls _ (heq ▸ List.mem_append_right before (List.mem_cons_self ..))
  rw [h] at hx
  cases c with
  | takeSnapshot => cases hcall
  | sendFrame tracking => cases hx
  | trackRequest tracking timeout =>
    simp only [fateAt] at hx
    split at hx <;> cases hx
  | resolveRequest tracking =>
    simp only [fateAt] at hx
    split at hx <;> cases hx

theorem filter_call {x : Nat × ClientStep} (es : List (Nat × ClientStep))
    (h : x.2.isCall = true) :
    (x :: es).filter (fun x => x.2.isCall) = x :: es.filter fun x => x.2.isCall :=
  List.filter_cons_of_pos h

theorem filter_snapshot {x : Nat × ClientStep} (es : List (Nat × ClientStep))
    (h : x.2.isCall = false) :
    (x :: es).filter (fun x => x.2.isCall) = es.filter fun x => x.2.isCall :=
  List.filter_cons_of_neg (by rw [h]; exact Bool.false_ne_true)

/-- With an answer before the deadline, the snapshots do nothing to a request. -/
theorem fate_of_resolved {e : Pending} {es : List (Nat × ClientStep)}
    (hclock : (es.map Prod.fst).Pairwise (· ≤ ·)) {nowNs : Nat} {tracking : RequestTracking}
    (hmem : (nowNs, .resolveRequest tracking) ∈ es) (hanswer : IsAnswer tracking e = true)
    (hbefore : e.2.expired nowNs = false) :
    fate e es = fate e (es.filter fun x => x.2.isCall) := by
  induction es with
  | nil => cases hmem
  | cons x es ih =>
    obtain ⟨hle, hclock⟩ := List.pairwise_cons.mp hclock
    rcases List.mem_cons.mp hmem with rfl | hmem
    · rw [filter_call es rfl]
      have hx : fateAt e nowNs (.resolveRequest tracking) = some .answered := if_pos hanswer
      rw [fate_cons_some _ hx, fate_cons_some _ hx]
    · cases hcall : x.2.isCall with
      | true =>
        rw [filter_call es hcall]
        cases hx : fateAt e x.1 x.2 with
        | none =>
          rw [fate_cons_none _ hx, fate_cons_none _ hx]
          exact ih hclock hmem
        | some f => rw [fate_cons_some _ hx, fate_cons_some _ hx]
      | false =>
        -- a snapshot that comes no later than the answer
        have hsnapshot : x.2 = .takeSnapshot := by
          cases h : x.2 with
          | takeSnapshot => rfl
          | _ => rw [h] at hcall; cases hcall
        have hno : e.2.expired x.1 = false := by
          refine Bool.eq_false_iff.mpr fun hyes => ?_
          have hyes' := PendingRequest.expired_mono hyes (hle nowNs (List.mem_map_of_mem hmem))
          rw [hbefore] at hyes'
          cases hyes'
        have hx : fateAt e x.1 x.2 = none := by
          rw [hsnapshot]
          exact if_neg (by rw [hno]; exact Bool.false_ne_true)
        rw [filter_snapshot es hcall, fate_cons_none _ hx]
        exact ih hclock hmem

/-- If no call touches a request, a snapshot after its deadline counts it as timed out. -/
theorem fate_of_untouched {e : Pending} {es : List (Nat × ClientStep)}
    (hcalls : ∀ x ∈ es, x.2.isCall = true → fateAt e x.1 x.2 = none) {last : Nat}
    (hlast : (last, .takeSnapshot) ∈ es) (hpassed : e.2.expired last = true) :
    fate e es = .timedOut := by
  induction es with
  | nil => cases hlast
  | cons x es ih =>
    obtain ⟨nowNs, c⟩ := x
    have htail : ∀ x ∈ es, x.2.isCall = true → fateAt e x.1 x.2 = none :=
      fun x hx => hcalls x (List.mem_cons_of_mem _ hx)
    rcases List.mem_cons.mp hlast with heq | hlast
    · obtain ⟨rfl, rfl⟩ := Prod.mk.inj heq
      exact fate_cons_some es (if_pos hpassed)
    · cases hx : fateAt e nowNs c with
      | none =>
        rw [fate_cons_none es hx]
        exact ih htail hlast
      | some f =>
        have hsnapshot : c = .takeSnapshot := by
          by_contra hne
          have hcall : c.isCall = true := by
            cases c with
            | takeSnapshot => exact absurd rfl hne
            | _ => rfl
          cases hx.symm.trans (hcalls _ (List.mem_cons_self ..) hcall)
        subst hsnapshot
        rw [fate_cons_some es hx]
        simp only [fateAt] at hx
        split at hx
        · exact (Option.some.inj hx).symm
        · cases hx

theorem fateAt_eq_none {tracking : RequestTracking} (htracks : Tracks tracking) {timeout : Int}
    {nowNs : Nat} {x : Nat × ClientStep} (hcall : x.2.isCall = true) :
    fateAt (tracking.sequence, pendingOf tracking timeout nowNs) x.1 x.2 = none ↔
      ¬ Touches tracking x := by
  obtain ⟨later, c⟩ := x
  cases c with
  | takeSnapshot => cases hcall
  | sendFrame packet => exact ⟨fun _ h => h, fun _ => rfl⟩
  | trackRequest other timeout' =>
    simp only [fateAt, Touches]
    split
    case isTrue h => exact ⟨fun heq => absurd heq (Option.some_ne_none _), fun hno => absurd h hno⟩
    case isFalse h => exact ⟨fun _ => h, fun _ => rfl⟩
  | resolveRequest packet =>
    have hiff := isAnswer_pendingOf htracks timeout nowNs packet
    simp only [fateAt, Touches]
    split
    case isTrue h =>
      exact ⟨fun heq => absurd heq (Option.some_ne_none _), fun hno => absurd (hiff.mp h) hno⟩
    case isFalse h => exact ⟨fun _ heq => h (hiff.mpr heq), fun _ => rfl⟩

/-! ## A call in a schedule -/

theorem Calls.isCall {c : Calls} {x : Nat × ClientStep} (hx : x ∈ c.list) :
    x.2.isCall = true := by
  rcases c.only x hx with ⟨tracking, timeout, heq, -⟩ | ⟨tracking, heq⟩
  · rw [heq]
    rfl
  · rw [heq]
    rfl

namespace Schedule

variable {c : Calls} {es fs : List (Nat × ClientStep)}

theorem fit (h : Schedule c es) : DeadlinesFit c := by
  intro nowNs tracking timeout hmem htracks
  obtain ⟨last, hlast, hdeadlines⟩ := h.last
  have hle := hdeadlines nowNs tracking timeout hmem htracks
  have hlt : last < 2 ^ 64 := h.bounded _ hlast
  omega

/-- A call among the steps of a schedule. Its number is its place among the calls. -/
theorem split (h : Schedule c es) {done rest : List (Nat × ClientStep)} {x : Nat × ClientStep}
    (heq : c.list = done ++ x :: rest) :
    ∃ before after, es = before ++ x :: after ∧ (after.filter fun y => y.2.isCall) = rest ∧
      (Ledger.new.run before).calls = done.length := by
  obtain ⟨front, back, hes, hfront, hback⟩ := List.filter_eq_append_iff.mp (h.calls.trans heq)
  obtain ⟨gap, after, hback', hgap, -, hafter⟩ := List.filter_eq_cons_iff.mp hback
  refine ⟨front ++ gap, after, by rw [hes, hback', List.append_assoc], hafter, ?_⟩
  have hgap' : (gap.filter fun y => y.2.isCall) = [] := List.filter_eq_nil_iff.mpr hgap
  rw [Ledger.calls_run, List.countP_eq_length_filter, List.filter_append, hfront, hgap',
    List.append_nil]
  exact Nat.zero_add _

/-- What follows a call in a schedule comes no earlier, in order. -/
theorem clock_after (h : Schedule c es) {before after : List (Nat × ClientStep)}
    {x : Nat × ClientStep} (heq : es = before ++ x :: after) :
    (∀ e ∈ after, x.1 ≤ e.1) ∧ (after.map Prod.fst).Pairwise (· ≤ ·) := by
  have hclock := h.clock
  rw [heq, List.map_append, List.map_cons] at hclock
  obtain ⟨hle, hafter⟩ := List.pairwise_cons.mp (List.pairwise_append.mp hclock).2.1
  exact ⟨fun e he => hle e.1 (List.mem_map_of_mem he), hafter⟩

/-- The last snapshot comes after a request that it finds expired. -/
theorem last_after (h : Schedule c es) {before after : List (Nat × ClientStep)} {nowNs : Nat}
    {tracking : RequestTracking} {timeout : Int} (htracks : Tracks tracking)
    (heq : es = before ++ (nowNs, .trackRequest tracking timeout) :: after)
    (hmem : (nowNs, .trackRequest tracking timeout) ∈ c.list) (hpositive : 0 < timeout) :
    ∃ last, (last, .takeSnapshot) ∈ after ∧ (nowNs : Int) + timeout * 1000000 ≤ last := by
  obtain ⟨last, hlast, hdeadlines⟩ := h.last
  have hle := hdeadlines nowNs tracking timeout hmem htracks
  refine ⟨last, ?_, hle⟩
  rw [heq] at hlast
  rcases List.mem_append.mp hlast with hbefore | hafter
  · have hclock := h.clock
    rw [heq, List.map_append, List.map_cons] at hclock
    have hsorted := (List.pairwise_append.mp hclock).2.2 last (List.mem_map_of_mem hbefore) nowNs
      (List.mem_cons_self ..)
    omega
  · rcases List.mem_cons.mp hafter with hsame | hafter
    · cases hsame
    · exact hafter

/-- What becomes of a request with a matching response before its deadline is seen from the calls,
and a request that no call touches is counted as timed out. -/
theorem outcome_eq (h : Schedule c es) {done before after rest : List (Nat × ClientStep)}
    {nowNs : Nat} {tracking : RequestTracking} {timeout : Int} (htracks : Tracks tracking)
    (hlist : c.list = done ++ (nowNs, .trackRequest tracking timeout) :: rest)
    (heq : es = before ++ (nowNs, .trackRequest tracking timeout) :: after)
    (hafter : (after.filter fun y => y.2.isCall) = rest) :
    (ResolvedInTime tracking (nowNs + timeout * 1000000) rest →
      outcome (nowNs, .trackRequest tracking timeout) after =
          outcome (nowNs, .trackRequest tracking timeout) rest ∧
        outcome (nowNs, .trackRequest tracking timeout) rest ≠ some .timedOut) ∧
      ((∀ x ∈ rest, ¬ Touches tracking x) →
        outcome (nowNs, .trackRequest tracking timeout) after = some .timedOut) := by
  have hmem : (nowNs, .trackRequest tracking timeout) ∈ c.list :=
    hlist ▸ List.mem_append_right done (List.mem_cons_self ..)
  have hpositive : 0 < timeout := by
    rcases c.only _ hmem with ⟨tracking', timeout', heq', hpositive⟩ | ⟨tracking', heq'⟩
    · cases heq'
      exact hpositive
    · cases heq'
  have hfit := h.fit nowNs tracking timeout hmem htracks
  have hexpired : ∀ later : Nat, (pendingOf tracking timeout nowNs).expired later = true ↔
      (nowNs : Int) + timeout * 1000000 ≤ later := expired_pendingOf hpositive hfit
  have hcalls : ∀ x ∈ rest, x.2.isCall = true := fun x hx =>
    Calls.isCall (c := c) (hlist ▸ List.mem_append_right done (List.mem_cons_of_mem _ hx))
  have houtcome : ∀ steps, outcome (nowNs, .trackRequest tracking timeout) steps =
      some (fate (tracking.sequence, pendingOf tracking timeout nowNs) steps) :=
    fun steps => if_pos htracks
  simp only [houtcome]
  constructor
  · rintro ⟨at', hresolve, hintime⟩
    have hresolve' : (at', .resolveRequest tracking) ∈ after :=
      (List.mem_filter.mp (hafter ▸ hresolve)).1
    have hnot : (pendingOf tracking timeout nowNs).expired at' = false := by
      refine Bool.eq_false_iff.mpr fun hyes => ?_
      have hle := (hexpired at').mp hyes
      omega
    have hfate := fate_of_resolved (h.clock_after heq).2 hresolve'
      ((isAnswer_pendingOf htracks timeout nowNs tracking).mpr rfl) hnot
    rw [hafter] at hfate
    exact ⟨congrArg some hfate, fun heq' => fate_calls_ne_timedOut hcalls (Option.some.inj heq')⟩
  · intro huntouched
    obtain ⟨last, hlast, hpassed⟩ := h.last_after htracks heq hmem hpositive
    refine congrArg some (fate_of_untouched (fun x hx hcall => ?_) hlast
      ((hexpired last).mpr hpassed))
    exact (fateAt_eq_none htracks hcall).mpr
      (huntouched x (hafter ▸ List.mem_filter.mpr ⟨hx, hcall⟩))

/-- Two schedules of settled calls do the same to a request. -/
theorem outcome_congr (he : Schedule c es) (hf : Schedule c fs) (hsettled : Settled c)
    {done rest before before' after after' : List (Nat × ClientStep)} {x : Nat × ClientStep}
    (hlist : c.list = done ++ x :: rest) (hes : es = before ++ x :: after)
    (hfs : fs = before' ++ x :: after')
    (hafter : (after.filter fun y => y.2.isCall) = rest)
    (hafter' : (after'.filter fun y => y.2.isCall) = rest) :
    outcome x after = outcome x after' := by
  obtain ⟨nowNs, call⟩ := x
  cases call with
  | sendFrame tracking => rfl
  | resolveRequest tracking => rfl
  | takeSnapshot => rfl
  | trackRequest tracking timeout =>
    by_cases htracks : Tracks tracking
    · obtain ⟨hin, hun⟩ := he.outcome_eq htracks hlist hes hafter
      obtain ⟨hin', hun'⟩ := hf.outcome_eq htracks hlist hfs hafter'
      rcases hsettled done nowNs tracking timeout rest hlist htracks with hintime | huntouched
      · rw [(hin hintime).1, (hin' hintime).1]
      · rw [hun huntouched, hun' huntouched]
    · have hnone : ∀ steps, outcome (nowNs, .trackRequest tracking timeout) steps = none :=
        fun steps => if_neg htracks
      rw [hnone, hnone]

/-- Two schedules of settled calls have the same numbers in the ledger. -/
theorem counts_congr (he : Schedule c es) (hf : Schedule c fs) (hsettled : Settled c) (id : Nat) :
    (Ledger.new.run es).answered.count id = (Ledger.new.run fs).answered.count id ∧
      (Ledger.new.run es).timedOut.count id = (Ledger.new.run fs).timedOut.count id := by
  by_cases hid : id < c.list.length
  · have hlist : c.list = c.list.take id ++ c.list[id] :: c.list.drop (id + 1) := by
      rw [List.getElem_cons_drop, List.take_append_drop]
    have hlength : (c.list.take id).length = id := List.length_take_of_le (Nat.le_of_lt hid)
    have hcall := Calls.isCall (List.getElem_mem hid)
    obtain ⟨before, after, hes, hafter, hcalls⟩ := he.split hlist
    obtain ⟨before', after', hfs, hafter', hcalls'⟩ := hf.split hlist
    have hsame := he.outcome_congr hf hsettled hlist hes hfs hafter hafter'
    obtain ⟨hanswered, htimedOut, -⟩ :=
      Ledger.run_call before c.list[id] hcall (he.clock_after hes).1
    obtain ⟨hanswered', htimedOut', -⟩ :=
      Ledger.run_call before' c.list[id] hcall (hf.clock_after hfs).1
    rw [← hes, hcalls, hlength] at hanswered htimedOut
    rw [← hfs, hcalls', hlength, ← hsame] at hanswered' htimedOut'
    exact ⟨hanswered.trans hanswered'.symm, htimedOut.trans htimedOut'.symm⟩
  · -- no call has this number
    have hzero : ∀ steps, Schedule c steps → (Ledger.new.run steps).answered.count id = 0 ∧
        (Ledger.new.run steps).timedOut.count id = 0 := by
      intro steps h
      have hnumbered := Ledger.numbered_new.run steps
      have hcalls : (Ledger.new.run steps).calls = c.list.length := by
        rw [Ledger.calls_run, List.countP_eq_length_filter, h.calls]
        exact Nat.zero_add _
      constructor
      · refine List.count_eq_zero.mpr fun hmem => hid ?_
        exact hcalls ▸ hnumbered.answered id hmem
      · refine List.count_eq_zero.mpr fun hmem => hid ?_
        exact hcalls ▸ hnumbered.timedOut id hmem
    obtain ⟨ha, ht⟩ := hzero es he
    obtain ⟨ha', ht'⟩ := hzero fs hf
    exact ⟨ha.trans ha'.symm, ht.trans ht'.symm⟩

/-- In a schedule of settled calls, the timeouts are those of the requests that were not answered
in time. -/
theorem mem_timedOut (h : Schedule c es) (hsettled : Settled c)
    {done rest : List (Nat × ClientStep)} {nowNs : Nat} {tracking : RequestTracking}
    {timeout : Int} (htracks : Tracks tracking)
    (hlist : c.list = done ++ (nowNs, .trackRequest tracking timeout) :: rest) :
    done.length ∈ (Ledger.new.run es).timedOut ↔
      ¬ ResolvedInTime tracking (nowNs + timeout * 1000000) rest := by
  obtain ⟨before, after, hes, hafter, hcalls⟩ := h.split hlist
  obtain ⟨hin, hun⟩ := h.outcome_eq htracks hlist hes hafter
  obtain ⟨-, htimedOut, -⟩ := Ledger.run_call before _ rfl (h.clock_after hes).1
  rw [← hes, hcalls] at htimedOut
  rw [← List.count_pos_iff, htimedOut]
  constructor
  · intro hpos hintime
    obtain ⟨hsame, hne⟩ := hin hintime
    rw [hsame, decide_eq_false hne] at hpos
    exact Nat.lt_irrefl 0 hpos
  · intro hno
    have huntouched := (hsettled done nowNs tracking timeout rest hlist htracks).resolve_left hno
    rw [hun huntouched]
    decide

end Schedule

/-! ## The schedule with no snapshot before the end -/

theorem lazy_schedule (c : Calls) (hfit : DeadlinesFit c) :
    Schedule c (c.list ++ [(2 ^ 64 - 1, .takeSnapshot)]) := by
  constructor
  case calls =>
    rw [List.filter_append, List.filter_eq_self.mpr fun x hx => Calls.isCall hx]
    exact List.append_nil _
  case clock =>
    rw [List.map_append]
    refine List.pairwise_append.mpr ⟨c.clock, List.pairwise_singleton .., ?_⟩
    intro nowNs hnow last hlast
    obtain ⟨x, hx, rfl⟩ := List.mem_map.mp hnow
    have hlt := c.bounded x hx
    have heq : last = 2 ^ 64 - 1 := List.mem_singleton.mp hlast
    omega
  case bounded =>
    intro e he
    rcases List.mem_append.mp he with he | he
    · exact c.bounded e he
    · rw [List.mem_singleton.mp he]
      decide
  case last =>
    refine ⟨2 ^ 64 - 1, List.mem_append_right _ (List.mem_singleton.mpr rfl), ?_⟩
    intro nowNs tracking timeout hmem htracks
    have hlt := hfit nowNs tracking timeout hmem htracks
    omega

/-- With no snapshot before the end, a request that some call touches is not counted. -/
theorem lazy_not_timedOut (c : Calls) {done rest : List (Nat × ClientStep)} {nowNs : Nat}
    {tracking : RequestTracking} {timeout : Int} (htracks : Tracks tracking)
    (hlist : c.list = done ++ (nowNs, .trackRequest tracking timeout) :: rest)
    (hfit : DeadlinesFit c) {x : Nat × ClientStep} (hx : x ∈ rest) (htouches : Touches tracking x) :
    done.length ∉ (Ledger.new.run (c.list ++ [(2 ^ 64 - 1, .takeSnapshot)])).timedOut := by
  have hcalls : ∀ y ∈ rest, y.2.isCall = true := fun y hy =>
    Calls.isCall (c := c) (hlist ▸ List.mem_append_right done (List.mem_cons_of_mem _ hy))
  have hsplit : c.list ++ [(2 ^ 64 - 1, .takeSnapshot)] =
      done ++ (nowNs, .trackRequest tracking timeout) ::
        (rest ++ [(2 ^ 64 - 1, .takeSnapshot)]) := by
    rw [hlist, List.append_assoc, List.cons_append]
  have hnumber : (Ledger.new.run done).calls = done.length := by
    rw [Ledger.calls_run, List.countP_eq_length.mpr fun y hy =>
      Calls.isCall (c := c) (hlist ▸ List.mem_append_left _ hy)]
    exact Nat.zero_add _
  have hmet : fate (tracking.sequence, pendingOf tracking timeout nowNs) rest ≠ .pending := by
    intro hpending
    have hnone := fate_eq_pending.mp hpending x hx
    exact (fateAt_eq_none htracks (hcalls x hx)).mp hnone htouches
  have hout : outcome (nowNs, .trackRequest tracking timeout)
      (rest ++ [(2 ^ 64 - 1, .takeSnapshot)]) ≠ some .timedOut := by
    intro heq
    have hfate : outcome (nowNs, .trackRequest tracking timeout)
        (rest ++ [(2 ^ 64 - 1, .takeSnapshot)]) = some (fate _ _) := if_pos htracks
    rw [hfate, fate_append_met hmet] at heq
    exact fate_calls_ne_timedOut hcalls (Option.some.inj heq)
  obtain ⟨-, htimedOut, -⟩ := Ledger.run_call done (nowNs, .trackRequest tracking timeout) rfl
    ((lazy_schedule c hfit).clock_after hsplit).1
  rw [← hsplit, hnumber, decide_eq_false hout] at htimedOut
  exact List.count_eq_zero.mp htimedOut

/-- **The timeouts do not depend on the snapshots if and only if the calls are settled.** -/
theorem timeouts_of_schedules (c : Calls) : (∀ es, (Ledger.new.run es).Exact) ∧
    (SameTimeouts c ↔ (DeadlinesFit c → Settled c)) := by
  refine ⟨fun es => Ledger.exact_new.run es, ?_⟩
  constructor
  · intro hsame hfit done nowNs tracking timeout rest hlist htracks
    have hlazy := lazy_schedule c hfit
    by_cases hintime : ResolvedInTime tracking (nowNs + timeout * 1000000) rest
    · exact .inl hintime
    · refine .inr fun x hx htouches => ?_
      have hcounted := (hsame _ _ hlazy hlazy).2.2 done nowNs tracking timeout rest hlist htracks
      exact lazy_not_timedOut c htracks hlist hfit hx htouches (hcounted.mpr hintime)
  · intro hsettled es fs he hf
    have hsettled := hsettled he.fit
    have hcounts := he.counts_congr hf hsettled
    have hanswered : (Ledger.new.run es).answered.Perm (Ledger.new.run fs).answered :=
      List.perm_iff_count.mpr fun id => (hcounts id).1
    have htimedOut : (Ledger.new.run es).timedOut.Perm (Ledger.new.run fs).timedOut :=
      List.perm_iff_count.mpr fun id => (hcounts id).2
    refine ⟨?_, hanswered.length_eq, ?_⟩
    · rw [(Ledger.exact_new.run es).timeouts, (Ledger.exact_new.run fs).timeouts,
        htimedOut.length_eq]
    · intro done nowNs tracking timeout rest hlist htracks
      exact he.mem_timedOut hsettled htracks hlist

/-- A request with five milliseconds to answer, and the answer after ten. -/
def lateAnswer : Calls where
  list := [(0, .trackRequest ⟨1, .scJoinedRoom⟩ 5), (10000000, .resolveRequest ⟨1, .scJoinedRoom⟩)]
  only := by
    intro x hx
    rcases List.mem_cons.mp hx with rfl | hx
    · exact .inl ⟨_, _, rfl, by decide⟩
    · obtain rfl := List.mem_singleton.mp hx
      exact .inr ⟨_, rfl⟩
  clock := by decide
  bounded := by decide

def snapshotBetween : List (Nat × ClientStep) :=
  [(0, .trackRequest ⟨1, .scJoinedRoom⟩ 5), (7000000, .takeSnapshot),
    (10000000, .resolveRequest ⟨1, .scJoinedRoom⟩), (11000000, .takeSnapshot)]

def snapshotAfter : List (Nat × ClientStep) :=
  [(0, .trackRequest ⟨1, .scJoinedRoom⟩ 5), (10000000, .resolveRequest ⟨1, .scJoinedRoom⟩),
    (11000000, .takeSnapshot)]

/-- With a snapshot between the deadline and the answer the request is counted as timed out, and
otherwise it gives a sample. -/
theorem late_answer_differs :
    Schedule lateAnswer snapshotBetween ∧ Schedule lateAnswer snapshotAfter ∧
      (Ledger.new.run snapshotBetween).metrics.responseTimeoutTotal = 1 ∧
      (Ledger.new.run snapshotAfter).metrics.responseTimeoutTotal = 0 ∧
      (Ledger.new.run snapshotBetween).answered.length = 0 ∧
      (Ledger.new.run snapshotAfter).answered.length = 1 ∧ ¬ SameTimeouts lateAnswer := by
  have hdeadlines : ∀ (nowNs : Nat) (tracking : RequestTracking) (timeout : Int),
      (nowNs, .trackRequest tracking timeout) ∈ lateAnswer.list → Tracks tracking →
        (nowNs : Int) + timeout * 1000000 ≤ (11000000 : Nat) := by
    intro nowNs tracking timeout hmem _
    rcases List.mem_cons.mp hmem with heq | hmem
    · cases heq
      decide
    · cases List.mem_singleton.mp hmem
  have hbetween : Schedule lateAnswer snapshotBetween :=
    ⟨by decide, by decide, by decide, 11000000, by decide, hdeadlines⟩
  have hafter : Schedule lateAnswer snapshotAfter :=
    ⟨by decide, by decide, by decide, 11000000, by decide, hdeadlines⟩
  refine ⟨hbetween, hafter, by decide, by decide, by decide, by decide, fun hsame => ?_⟩
  exact absurd (hsame _ _ hbetween hafter).1 (by decide)

/-- One request is answered in time and one is never answered. -/
def settledCalls : Calls where
  list := [(0, .trackRequest ⟨1, .scJoinedRoom⟩ 5), (1, .trackRequest ⟨2, .scJoinedRoom⟩ 5),
    (2000000, .resolveRequest ⟨1, .scJoinedRoom⟩)]
  only := by
    intro x hx
    rcases List.mem_cons.mp hx with rfl | hx
    · exact .inl ⟨_, _, rfl, by decide⟩
    · rcases List.mem_cons.mp hx with rfl | hx
      · exact .inl ⟨_, _, rfl, by decide⟩
      · obtain rfl := List.mem_singleton.mp hx
        exact .inr ⟨_, rfl⟩
  clock := by decide
  bounded := by decide

theorem settled_calls_same : SameTimeouts settledCalls := by
  refine (timeouts_of_schedules settledCalls).2.mpr fun _ => ?_
  intro done nowNs tracking timeout rest hlist _
  match done with
  | [] =>
    cases hlist
    exact .inl ⟨2000000, by decide, by decide⟩
  | [_] =>
    cases hlist
    refine .inr fun x hx htouches => ?_
    cases List.mem_singleton.mp hx
    exact absurd (show (⟨1, .scJoinedRoom⟩ : RequestTracking) = ⟨2, .scJoinedRoom⟩ from htouches)
      (by decide)
  | [_, _] => cases hlist
  | _ :: _ :: _ :: done =>
    have hlength := congrArg List.length hlist
    simp [settledCalls] at hlength

end Highp.Metrics
