import Mathlib.Algebra.Order.Ring.Int
import Highp.Client.Tracking

/-! The pending requests of `AtomicClientMetrics`: what the client waits for, by sequence number. -/

namespace Highp.Metrics
open Highp.Client

structure TimingWindow where
  count : Nat
  totalNanoseconds : Nat
  maxNanoseconds : Nat
  deriving DecidableEq

/-- `ObserveWindow`. -/
def TimingWindow.observe (window : TimingWindow) (nanoseconds : Nat) : TimingWindow where
  count := (window.count + 1) % 2 ^ 64
  totalNanoseconds := (window.totalNanoseconds + nanoseconds) % 2 ^ 64
  maxNanoseconds := max window.maxNanoseconds nanoseconds

structure PendingRequest where
  responseType : MessageType
  sentAtNs : Nat
  deadlineNs : Nat
  deriving DecidableEq

def PendingRequest.expired (request : PendingRequest) (nowNs : Nat) : Bool :=
  request.deadlineNs != 0 && decide (request.deadlineNs ≤ nowNs)

/-- What `TrackRequest` stores, with a timeout in milliseconds; the product is cast to
`uint64_t`. -/
def pendingOf (tracking : RequestTracking) (timeout : Int) (nowNs : Nat) : PendingRequest :=
  let timeoutNs := if timeout > 0 then ((timeout * 1000000) % 2 ^ 64).toNat else 0
  ⟨tracking.responseType, nowNs, if timeoutNs > 0 then (nowNs + timeoutNs) % 2 ^ 64 else 0⟩

structure AtomicClientMetrics where
  /-- `_pendingRequests`; a sequence number is in it once. -/
  pendingRequests : List (Nat × PendingRequest)
  requestRtt : TimingWindow
  responseTimeoutTotal : Nat

namespace AtomicClientMetrics

def new : AtomicClientMetrics := ⟨[], ⟨0, 0, 0⟩, 0⟩

/-- `_pendingRequests.find`. -/
def find (m : AtomicClientMetrics) (sequence : Nat) : Option PendingRequest :=
  m.pendingRequests.lookup sequence

/-- `_pendingRequests.erase`. -/
def erase (m : AtomicClientMetrics) (sequence : Nat) : AtomicClientMetrics :=
  { m with pendingRequests := m.pendingRequests.filter fun entry => entry.1 != sequence }

/-- `TrackRequest`. -/
def trackRequest (m : AtomicClientMetrics) (tracking : RequestTracking) (timeout : Int)
    (nowNs : Nat) : AtomicClientMetrics :=
  if tracking.sequence = 0 ∨ tracking.responseType = .none then m
  else
    { m with pendingRequests := (tracking.sequence, pendingOf tracking timeout nowNs) ::
        (m.erase tracking.sequence).pendingRequests }

/-- `ResolveRequest`. -/
def resolveRequest (m : AtomicClientMetrics) (tracking : RequestTracking) (nowNs : Nat) :
    AtomicClientMetrics :=
  if tracking.sequence = 0 then m
  else
    match m.find tracking.sequence with
    | none => m
    | some found =>
      if found.responseType ≠ tracking.responseType then m
      else
        let m := m.erase tracking.sequence
        if found.sentAtNs ≤ nowNs then
          { m with requestRtt := m.requestRtt.observe (nowNs - found.sentAtNs) }
        else m

/-- `ExpireTimedOutRequests`. -/
def expireTimedOutRequests (m : AtomicClientMetrics) (nowNs : Nat) : AtomicClientMetrics :=
  { m with
    pendingRequests := m.pendingRequests.filter fun entry => !entry.2.expired nowNs
    responseTimeoutTotal := (m.responseTimeoutTotal +
      m.pendingRequests.countP fun entry => entry.2.expired nowNs) % 2 ^ 64 }

/-- `ResolveRequest` removes the pending request of a sequence number. -/
def removes (m : AtomicClientMetrics) (tracking : RequestTracking) (nowNs : Nat) : Bool :=
  (m.find tracking.sequence).isSome &&
    ((m.resolveRequest tracking nowNs).find tracking.sequence).isNone

/-- Only what was waited for is removed. -/
theorem find_of_removes {m : AtomicClientMetrics} {tracking : RequestTracking} {nowNs : Nat}
    (h : m.removes tracking nowNs = true) : tracking.sequence ≠ 0 ∧
      ∃ found, m.find tracking.sequence = some found ∧
        found.responseType = tracking.responseType := by
  obtain ⟨hfound, hgone⟩ := (Bool.and_eq_true _ _).mp h
  obtain ⟨found, hf⟩ := Option.isSome_iff_exists.mp hfound
  unfold resolveRequest at hgone
  by_cases hzero : tracking.sequence = 0
  · rw [if_pos hzero, hf] at hgone
    simp at hgone
  · refine ⟨hzero, found, hf, ?_⟩
    by_contra htype
    rw [if_neg hzero, hf] at hgone
    simp only [if_pos htype, hf] at hgone
    simp at hgone

end AtomicClientMetrics
end Highp.Metrics
