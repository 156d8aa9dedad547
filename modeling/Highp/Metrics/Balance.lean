import Highp.Metrics.Deadlines

/-! Every tracked request is in one place: it is pending, has given a sample or has been counted as
timed out. -/

namespace Highp.Metrics
open Highp.Client

/-! ## The requests of a run -/

/-- A call of `TrackRequest` that puts a request into `_pendingRequests`. -/
def ClientStep.tracks : ClientStep → Bool
  | .trackRequest tracking _ => decide (Tracks tracking)
  | _ => false

def effective (es : List (Nat × ClientStep)) : Nat := es.countP fun e => e.2.tracks

namespace Ledger

/-- No sequence number is tracked while a request with it is pending. -/
def FreshSequences (s : Ledger) : List (Nat × ClientStep) → Prop
  | [] => True
  | e :: es =>
    (∀ tracking timeout, e.2 = .trackRequest tracking timeout → Tracks tracking →
      s.metrics.find tracking.sequence = none) ∧ (s.step e.1 e.2).FreshSequences es

/-- The samples in the windows, drained or not. -/
def samples (s : Ledger) : Nat :=
  (s.drained.map TimingWindow.count).sum + s.metrics.requestRtt.count

/-- Where the tracked requests are. -/
def placed (s : Ledger) : Nat := s.answered.length + s.timedOut.length + s.tags.length

/-- A step moves requests from one place to another, or puts one more into a place. -/
theorem placed_step {s : Ledger} (h : s.Exact) {nowNs : Nat}
    (hsent : ∀ t ∈ s.tags, t.2.2.sentAtNs ≤ nowNs) (c : ClientStep)
    (hfresh : ∀ tracking timeout, c = .trackRequest tracking timeout → Tracks tracking →
      s.metrics.find tracking.sequence = none) :
    (s.step nowNs c).placed = s.placed + c.tracks.toNat := by
  cases c with
  | sendFrame tracking => rfl
  | trackRequest tracking timeout =>
    by_cases htracks : Tracks tracking
    · have hkeys : (s.tags.filter fun t => t.2.1 != tracking.sequence) = s.tags := by
        refine List.filter_eq_self.mpr fun t ht => bne_iff_ne.mpr fun heq => ?_
        have hfind := find_tag h ht
        rw [heq, hfresh tracking timeout rfl htracks] at hfind
        cases hfind
      simp only [placed, step, if_pos htracks, hkeys, List.length_cons, ClientStep.tracks,
        decide_eq_true htracks, Bool.toNat_true]
      omega
    · rw [step_untracked htracks]
      simp [placed, ClientStep.tracks, htracks]
  | resolveRequest tracking =>
    have hanswers : (s.tags.filter fun t =>
        IsAnswer tracking t.2 && decide (t.2.2.sentAtNs ≤ nowNs)) =
          s.tags.filter fun t => IsAnswer tracking t.2 :=
      List.filter_congr fun t ht => by simp [hsent t ht]
    have hsplit := List.length_eq_length_filter_add (l := s.tags) fun t => IsAnswer tracking t.2
    simp only [placed, step, hanswers, List.length_append, List.length_map, ClientStep.tracks,
      Bool.toNat_false]
    omega
  | takeSnapshot =>
    have hsplit := List.length_eq_length_filter_add (l := s.tags) fun t => t.2.2.expired nowNs
    simp only [placed, step, List.length_append, List.length_map, ClientStep.tracks,
      Bool.toNat_false]
    omega

/-- The request that is tracked is sent now, and the others were sent before. -/
theorem sent_step {s : Ledger} {nowNs : Nat} (hsent : ∀ t ∈ s.tags, t.2.2.sentAtNs ≤ nowNs)
    (c : ClientStep) : ∀ t ∈ (s.step nowNs c).tags, t.2.2.sentAtNs ≤ nowNs := by
  have hfilter : ∀ p : Nat × Pending → Bool, ∀ t ∈ s.tags.filter p, t.2.2.sentAtNs ≤ nowNs :=
    fun p t ht => hsent t (List.mem_filter.mp ht).1
  cases c with
  | sendFrame tracking => exact hsent
  | trackRequest tracking timeout =>
    simp only [step]
    split
    · intro t ht
      rcases List.mem_cons.mp ht with rfl | ht
      · exact Nat.le_refl _
      · exact hfilter _ t ht
    · exact hsent
  | resolveRequest tracking => exact hfilter _
  | takeSnapshot => exact hfilter _

theorem samples_trackRequest (s : Ledger) (nowNs : Nat) (tracking : RequestTracking)
    (timeout : Int) : (s.step nowNs (.trackRequest tracking timeout)).samples = s.samples := by
  have hmetrics := s.metrics.trackRequest_eq tracking timeout nowNs
  have hrtt : (s.metrics.trackRequest tracking timeout nowNs).requestRtt =
      s.metrics.requestRtt := by
    rw [hmetrics]
    split <;> rfl
  simp only [samples, step, hrtt]

theorem samples_takeSnapshot (s : Ledger) (nowNs : Nat) :
    (s.step nowNs .takeSnapshot).samples = s.samples := by
  show ((s.drained ++ [s.metrics.requestRtt]).map TimingWindow.count).sum + 0 = _
  rw [List.map_append, List.sum_append]
  simp [samples]

/-- A window that is observed counts one more, or begins again. -/
theorem samples_step {s : Ledger} (h : s.Exact) (nowNs : Nat) (c : ClientStep)
    (hle : s.samples ≤ s.answered.length) :
    (s.step nowNs c).samples ≤ (s.step nowNs c).answered.length := by
  cases c with
  | sendFrame tracking => exact hle
  | trackRequest tracking timeout =>
    rw [samples_trackRequest]
    exact hle
  | resolveRequest tracking =>
    rcases unmatched_or_answer h tracking with hunmatched | ⟨t, ht, hanswer⟩
    · rw [step_unmatched h hunmatched]
      exact hle
    · have hresolve := resolve_answer h ht hanswer nowNs
      simp only [samples] at hle
      simp only [samples, step, hresolve, List.length_append, List.length_map,
        samples_answered h ht hanswer nowNs]
      by_cases hsent : t.2.2.sentAtNs ≤ nowNs
      · simp only [if_pos hsent, TimingWindow.observe, decide_eq_true hsent, Bool.toNat_true]
        omega
      · simp only [if_neg hsent, decide_eq_false hsent, Bool.toNat_false]
        exact hle
  | takeSnapshot =>
    rw [samples_takeSnapshot]
    exact Nat.le_trans hle (by simp [step])

/-! ## Runs -/

theorem placed_run {s : Ledger} (h : s.Exact) {es : List (Nat × ClientStep)}
    (hclock : es.Pairwise fun e f => e.1 ≤ f.1)
    (hsent : ∀ t ∈ s.tags, ∀ e ∈ es, t.2.2.sentAtNs ≤ e.1) (hfresh : s.FreshSequences es) :
    (s.run es).placed = s.placed + effective es := by
  induction es generalizing s with
  | nil => rfl
  | cons e es ih =>
    obtain ⟨nowNs, c⟩ := e
    obtain ⟨hnow, hlater⟩ := List.pairwise_cons.mp hclock
    have hsent' : ∀ t ∈ s.tags, t.2.2.sentAtNs ≤ nowNs :=
      fun t ht => hsent t ht _ (List.mem_cons_self ..)
    have hstep := placed_step h hsent' c hfresh.1
    have hrest := ih (h.step nowNs c) hlater
      (fun t ht e he => Nat.le_trans (sent_step hsent' c t ht) (hnow e he)) hfresh.2
    show ((s.step nowNs c).run es).placed = _
    rw [hrest, hstep, effective, effective, List.countP_cons]
    cases c.tracks with
    | true => simp; omega
    | false => simp

theorem samples_run {s : Ledger} (h : s.Exact) (es : List (Nat × ClientStep))
    (hle : s.samples ≤ s.answered.length) : (s.run es).samples ≤ (s.run es).answered.length := by
  induction es generalizing s with
  | nil => exact hle
  | cons e es ih => exact ih (h.step e.1 e.2) (samples_step h e.1 e.2 hle)

end Ledger

/-- **Every request is accounted for.** The tracked requests are those that gave a sample, those
that were counted as timed out and those that are pending. The counters have the first two numbers
modulo 2^64, so that they add up as long as there are fewer than 2^64 requests. A packet that
answers nothing and a request that is not tracked change nothing. -/
theorem requests_accounted (es : List (Nat × ClientStep))
    (hclock : es.Pairwise fun e f => e.1 ≤ f.1) (hfresh : Ledger.new.FreshSequences es) :
    (Ledger.new.run es).answered.length + (Ledger.new.run es).timedOut.length +
        (Ledger.new.run es).metrics.pendingRequests.length = effective es ∧
      (Ledger.new.run es).samples % 2 ^ 64 = (Ledger.new.run es).answered.length % 2 ^ 64 ∧
      (Ledger.new.run es).metrics.responseTimeoutTotal =
        (Ledger.new.run es).timedOut.length % 2 ^ 64 ∧
      (effective es < 2 ^ 64 → effective es = (Ledger.new.run es).samples +
        (Ledger.new.run es).metrics.responseTimeoutTotal +
          (Ledger.new.run es).metrics.pendingRequests.length) ∧
      (∀ nowNs tracking, (Ledger.new.run es).Unmatched tracking →
        (Ledger.new.run es).step nowNs (.resolveRequest tracking) =
          { Ledger.new.run es with calls := (Ledger.new.run es).calls + 1 }) ∧
      ∀ nowNs tracking timeout, ¬ Tracks tracking →
        (Ledger.new.run es).step nowNs (.trackRequest tracking timeout) =
          { Ledger.new.run es with calls := (Ledger.new.run es).calls + 1 } := by
  have hexact := Ledger.exact_new.run es
  have hplaced := Ledger.placed_run Ledger.exact_new hclock (by simp [Ledger.new]) hfresh
  have hsamples := Ledger.samples_run Ledger.exact_new es (Nat.le_refl _)
  have hnew : Ledger.new.placed = 0 := rfl
  have hpending : (Ledger.new.run es).metrics.pendingRequests.length =
      (Ledger.new.run es).tags.length := by
    rw [← hexact.pending, List.length_map]
  have hmod := hexact.samples
  have htimeouts := hexact.timeouts
  rw [hnew, Nat.zero_add, Ledger.placed] at hplaced
  refine ⟨by omega, hmod, htimeouts, fun hfew => ?_, ?_, ?_⟩
  · simp only [Ledger.samples] at hsamples ⊢
    omega
  · exact fun nowNs tracking hunmatched => Ledger.step_unmatched hexact hunmatched nowNs
  · exact fun nowNs tracking timeout htracks => Ledger.step_untracked htracks nowNs timeout

/-- One request is answered, one times out and one stays pending. -/
def threeRequests : List (Nat × ClientStep) :=
  [(0, .trackRequest (sendJoinRoom 1) 5), (3, .resolveRequest (sendJoinRoom 1)),
    (4, .trackRequest (sendMessage 2) 1), (2000000, .takeSnapshot),
    (2000001, .trackRequest (sendLeave 3) 0)]

theorem requests_accounted_three :
    (Ledger.new.run threeRequests).samples = 1 ∧
      (Ledger.new.run threeRequests).metrics.responseTimeoutTotal = 1 ∧
      effective threeRequests = (Ledger.new.run threeRequests).samples +
        (Ledger.new.run threeRequests).metrics.responseTimeoutTotal +
          (Ledger.new.run threeRequests).metrics.pendingRequests.length := by
  have hfresh : Ledger.new.FreshSequences threeRequests := by
    refine ⟨?_, ?_, ?_, ?_, ?_, trivial⟩
    · rintro tracking timeout heq -
      cases heq
      rfl
    · rintro tracking timeout heq -
      cases heq
    · rintro tracking timeout heq -
      cases heq
      rfl
    · rintro tracking timeout heq -
      cases heq
    · rintro tracking timeout heq -
      cases heq
      rfl
  exact ⟨by decide, by decide,
    (requests_accounted threeRequests (by decide) hfresh).2.2.2.1 (by decide)⟩

/-! ## A counter that wraps -/

/-- A millisecond in nanoseconds. -/
def millisecond : Nat := 1000000

/-- So many requests that wait for a millisecond. -/
def tracks (time n : Nat) : List (Nat × ClientStep) :=
  (List.range n).map fun i => (time, .trackRequest (sendJoinRoom (i + 1)) 1)

/-- The requests, and a snapshot when all have timed out; and this again and again. -/
def rounds (n : Nat) : Nat → List (Nat × ClientStep)
  | 0 => []
  | k + 1 => rounds n k ++ (tracks (k * millisecond) n ++ [((k + 1) * millisecond, .takeSnapshot)])

theorem tracks_succ (time n : Nat) : tracks time (n + 1) =
    tracks time n ++ [(time, .trackRequest (sendJoinRoom (n + 1)) 1)] := by
  rw [tracks, List.range_succ, List.map_append]
  rfl

theorem effective_append (es fs : List (Nat × ClientStep)) :
    effective (es ++ fs) = effective es + effective fs := List.countP_append ..

theorem effective_tracks (time n : Nat) : effective (tracks time n) = n := by
  have htracks : ∀ i, Tracks (sendJoinRoom (i + 1)) :=
    fun i => ⟨Nat.succ_ne_zero i, by simp [sendJoinRoom]⟩
  have hall : ∀ e ∈ tracks time n, e.2.tracks = true := by
    intro e he
    obtain ⟨i, -, rfl⟩ := List.mem_map.mp he
    exact decide_eq_true (htracks i)
  rw [effective, List.countP_eq_length.mpr hall, tracks, List.length_map, List.length_range]

theorem effective_rounds (n k : Nat) : effective (rounds n k) = k * n := by
  induction k with
  | zero => rw [Nat.zero_mul]; rfl
  | succ k ih =>
    have hsnapshot : effective [((k + 1) * millisecond, ClientStep.takeSnapshot)] = 0 := rfl
    rw [rounds, effective_append, effective_append, effective_tracks, hsnapshot, ih, Nat.succ_mul]
    rfl

/-- The clock of the rounds does not go back. -/
theorem rounds_clock (n k : Nat) : (rounds n k).Pairwise (fun e f => e.1 ≤ f.1) ∧
    ∀ e ∈ rounds n k, e.1 ≤ k * millisecond := by
  have htime : ∀ time, ∀ e ∈ tracks time n, e.1 = time := by
    intro time e he
    obtain ⟨i, -, rfl⟩ := List.mem_map.mp he
    rfl
  induction k with
  | zero => exact ⟨.nil, fun e he => absurd he List.not_mem_nil⟩
  | succ k ih =>
    obtain ⟨hpairs, hbound⟩ := ih
    have hsucc : (k + 1) * millisecond = k * millisecond + millisecond := Nat.succ_mul ..
    have hnext : ∀ e ∈ tracks (k * millisecond) n ++
        [((k + 1) * millisecond, ClientStep.takeSnapshot)],
        k * millisecond ≤ e.1 ∧ e.1 ≤ (k + 1) * millisecond := by
      intro e he
      rcases List.mem_append.mp he with he | he
      · have := htime _ e he
        omega
      · rw [List.mem_singleton.mp he]
        simp only
        omega
    refine ⟨List.pairwise_append.mpr ⟨hpairs, List.pairwise_append.mpr ⟨?_, ?_, ?_⟩, ?_⟩, ?_⟩
    · exact List.pairwise_map.mpr (List.pairwise_of_forall fun _ _ => Nat.le_refl _)
    · exact List.pairwise_singleton ..
    · intro e he f hf
      rw [htime _ e he, List.mem_singleton.mp hf]
      simp only
      omega
    · intro e he f hf
      have := hbound e he
      have := (hnext f hf).1
      omega
    · intro e he
      rcases List.mem_append.mp he with he | he
      · have := hbound e he
        omega
      · exact (hnext e he).2

namespace Ledger

theorem freshSequences_append {s : Ledger} (es fs : List (Nat × ClientStep)) :
    s.FreshSequences (es ++ fs) ↔ s.FreshSequences es ∧ (s.run es).FreshSequences fs := by
  induction es generalizing s with
  | nil => exact ⟨fun h => ⟨trivial, h⟩, fun h => h.2⟩
  | cons e es ih =>
    show (_ ∧ (s.step e.1 e.2).FreshSequences (es ++ fs)) ↔ _
    rw [ih, ← and_assoc]
    rfl

/-- What the requests of a round are while they are pending. -/
def waiting (time i : Nat) : Pending := (i + 1, ⟨.scJoinedRoom, time, time + millisecond⟩)

theorem pendingOf_waiting {time : Nat} (htime : time + millisecond < 2 ^ 64) (i : Nat) :
    ((sendJoinRoom (i + 1)).sequence, pendingOf (sendJoinRoom (i + 1)) 1 time) =
      waiting time i := by
  have hdeadline : (time + millisecond) % 2 ^ 64 = time + millisecond := Nat.mod_eq_of_lt htime
  have hns : ((1 * 1000000 : Int) % 2 ^ 64).toNat = millisecond := by decide
  have hpos : (1 : Int) > 0 ∧ millisecond > 0 := by decide
  simp only [pendingOf, sendJoinRoom, waiting, if_pos hpos.1, hns, if_pos hpos.2, hdeadline]

/-- A round of requests: with nothing pending before, exactly these are pending. -/
theorem run_tracks {s : Ledger} {time : Nat} (htime : time + millisecond < 2 ^ 64)
    (hnone : s.metrics.pendingRequests = []) (n : Nat) :
    s.FreshSequences (tracks time n) ∧
      (s.run (tracks time n)).metrics.pendingRequests =
        ((List.range n).map (waiting time)).reverse ∧
      (s.run (tracks time n)).metrics.responseTimeoutTotal = s.metrics.responseTimeoutTotal ∧
      (s.run (tracks time n)).samples = s.samples := by
  induction n with
  | zero => exact ⟨trivial, hnone, rfl, rfl⟩
  | succ n ih =>
    obtain ⟨hfresh, hpending, htotal, hsamples⟩ := ih
    generalize hmid : s.run (tracks time n) = mid at hpending htotal hsamples
    have hsplit : s.run (tracks time (n + 1)) =
        mid.step time (.trackRequest (sendJoinRoom (n + 1)) 1) := by
      rw [tracks_succ, run_append, hmid]
      rfl
    have htracks : Tracks (sendJoinRoom (n + 1)) :=
      ⟨Nat.succ_ne_zero n, by simp [sendJoinRoom]⟩
    have hnew : ∀ e ∈ mid.metrics.pendingRequests, e.1 ≠ n + 1 := by
      intro e he
      rw [hpending, List.mem_reverse] at he
      obtain ⟨i, hi, rfl⟩ := List.mem_map.mp he
      have := List.mem_range.mp hi
      simp only [waiting]
      omega
    have hfind : mid.metrics.find (n + 1) = none := by
      refine List.lookup_eq_none_iff.mpr fun e he => bne_iff_ne.mpr ?_
      exact (hnew e he).symm
    have herase : (mid.metrics.erase (n + 1)).pendingRequests = mid.metrics.pendingRequests :=
      List.filter_eq_self.mpr fun e he => bne_iff_ne.mpr (hnew e he)
    have hmetrics : mid.metrics.trackRequest (sendJoinRoom (n + 1)) 1 time =
        { mid.metrics with pendingRequests := waiting time n :: mid.metrics.pendingRequests } := by
      rw [AtomicClientMetrics.trackRequest_eq, if_pos htracks, pendingOf_waiting htime]
      exact congrArg (fun rest => { mid.metrics with pendingRequests := waiting time n :: rest })
        herase
    refine ⟨?_, ?_, ?_, ?_⟩
    · rw [tracks_succ, freshSequences_append, hmid]
      refine ⟨hfresh, ?_, trivial⟩
      rintro tracking timeout heq -
      cases heq
      exact hfind
    · rw [hsplit]
      simp only [step, hmetrics, hpending]
      rw [List.range_succ, List.map_append, List.reverse_append]
      rfl
    · rw [hsplit]
      simp only [step, hmetrics]
      exact htotal
    · rw [hsplit, samples_trackRequest, hsamples]

/-- At the end of a round all its requests have timed out. -/
theorem run_round {s : Ledger} {k : Nat} (htime : (k + 1) * millisecond < 2 ^ 64)
    (hnone : s.metrics.pendingRequests = []) (n : Nat) :
    s.FreshSequences (tracks (k * millisecond) n ++ [((k + 1) * millisecond, .takeSnapshot)]) ∧
      (s.run (tracks (k * millisecond) n ++
        [((k + 1) * millisecond, .takeSnapshot)])).metrics.pendingRequests = [] ∧
      (s.run (tracks (k * millisecond) n ++
        [((k + 1) * millisecond, .takeSnapshot)])).metrics.responseTimeoutTotal =
          (s.metrics.responseTimeoutTotal + n) % 2 ^ 64 ∧
      (s.run (tracks (k * millisecond) n ++
        [((k + 1) * millisecond, .takeSnapshot)])).samples = s.samples := by
  obtain ⟨hfresh, hpending, htotal, hsamples⟩ :=
    run_tracks (by rw [← Nat.succ_mul]; exact htime) hnone n
  rw [freshSequences_append, run_append]
  generalize s.run (tracks (k * millisecond) n) = mid at hpending htotal hsamples ⊢
  show _ ∧ (mid.step ((k + 1) * millisecond) .takeSnapshot).metrics.pendingRequests = [] ∧
    (mid.step ((k + 1) * millisecond) .takeSnapshot).metrics.responseTimeoutTotal = _ ∧
    (mid.step ((k + 1) * millisecond) .takeSnapshot).samples = _
  have hall : ∀ e ∈ mid.metrics.pendingRequests, e.2.expired ((k + 1) * millisecond) = true := by
    intro e he
    rw [hpending, List.mem_reverse] at he
    obtain ⟨i, -, rfl⟩ := List.mem_map.mp he
    have hle : k * millisecond + millisecond ≤ (k + 1) * millisecond := by
      rw [Nat.succ_mul]
    have hpos : k * millisecond + millisecond ≠ 0 := by
      unfold millisecond
      omega
    simp only [waiting, PendingRequest.expired, Bool.and_eq_true, bne_iff_ne]
    exact ⟨hpos, decide_eq_true hle⟩
  have hcount : (mid.metrics.pendingRequests.countP fun e =>
      e.2.expired ((k + 1) * millisecond)) = n := by
    rw [List.countP_eq_length.mpr hall, hpending, List.length_reverse, List.length_map,
      List.length_range]
  refine ⟨⟨hfresh, ⟨?_, trivial⟩⟩, ?_, ?_, ?_⟩
  · intro tracking timeout heq
    cases heq
  · exact List.filter_eq_nil_iff.mpr fun e he => by simp [hall e he]
  · show (mid.metrics.responseTimeoutTotal + _) % 2 ^ 64 = _
    rw [hcount, htotal]
  · rw [samples_takeSnapshot, hsamples]

theorem run_rounds (n k : Nat) (htime : k * millisecond < 2 ^ 64) :
    new.FreshSequences (rounds n k) ∧ (new.run (rounds n k)).metrics.pendingRequests = [] ∧
      (new.run (rounds n k)).metrics.responseTimeoutTotal = k * n % 2 ^ 64 ∧
      (new.run (rounds n k)).samples = 0 := by
  induction k with
  | zero => exact ⟨trivial, rfl, by rw [Nat.zero_mul]; rfl, rfl⟩
  | succ k ih =>
    have hsucc : (k + 1) * millisecond = k * millisecond + millisecond := Nat.succ_mul ..
    obtain ⟨hfresh, hpending, htotal, hsamples⟩ := ih (by omega)
    obtain ⟨hfresh', hpending', htotal', hsamples'⟩ := run_round htime hpending n
    rw [rounds, freshSequences_append, run_append]
    refine ⟨⟨hfresh, hfresh'⟩, hpending', ?_, hsamples'.trans hsamples⟩
    rw [htotal', htotal, Nat.mod_add_mod, Nat.succ_mul]

end Ledger

/-- After 2^33 rounds of 2^31 requests that all time out, the `uint64_t` is at zero again. -/
theorem timeouts_wrap : ¬ ∀ es : List (Nat × ClientStep), es.Pairwise (fun e f => e.1 ≤ f.1) →
    Ledger.new.FreshSequences es → effective es = (Ledger.new.run es).samples +
      (Ledger.new.run es).metrics.responseTimeoutTotal +
        (Ledger.new.run es).metrics.pendingRequests.length := by
  intro hclaim
  have hall : ∀ n k, k * millisecond < 2 ^ 64 → k * n = k * n % 2 ^ 64 := by
    intro n k htime
    obtain ⟨hfresh, hpending, htotal, hsamples⟩ := Ledger.run_rounds n k htime
    have h := hclaim _ (rounds_clock n k).1 hfresh
    rw [effective_rounds, hpending, htotal, hsamples] at h
    simpa using h
  exact absurd (hall (2 ^ 31) (2 ^ 33) (by decide)) (by decide)

end Highp.Metrics
