import Highp.Metrics.ServerWriter
import Mathlib.Algebra.Order.Field.Rat
import Mathlib.Data.Rat.Cast.Order

/-! The rates that the server reports. The line of a snapshot divides by whole seconds of the steady
clock, the summary by the nanoseconds of the system clock. -/

namespace Highp.Metrics

section
variable {F : Type} [Double F]

/-- The counters that have a rate in the lines and in the summary. -/
def rateCounters : List (SnapshotRecord F → Nat) :=
  [SnapshotRecord.acceptTotal, SnapshotRecord.recvPacketsTotal, SnapshotRecord.sendPacketsTotal]

/-- `rate` of `BuildSnapshotJson`. -/
def lineRate (record previous : SnapshotRecord F) (counter : SnapshotRecord F → Nat) : F :=
  computeRate (counter record) (counter previous)
    ((record.capturedAtSteady - previous.capturedAtSteady).tdiv 1000000000 * 1000000000)

/-- The rate in `Observe`. -/
def summaryRate (record previous : SnapshotRecord F) (counter : SnapshotRecord F → Nat) : F :=
  computeRate (counter record) (counter previous) (record.capturedAt - previous.capturedAt)

/-- The line of a record has these rates. -/
def LineRates (platform : Platform) (record previous : SnapshotRecord F)
    (rate : (SnapshotRecord F → Nat) → F) : Prop :=
  ∃ fields, ServerMetricsWriter.buildSnapshotJson platform record previous =
      unclosedObject platform fields ∧
    fields[2]? = some (.number "accept_per_sec" (rate SnapshotRecord.acceptTotal)) ∧
    fields[6]? = some (.number "recv_packets_per_sec" (rate SnapshotRecord.recvPacketsTotal)) ∧
    fields[8]? = some (.number "send_packets_per_sec" (rate SnapshotRecord.sendPacketsTotal))

/-- `Observe` adds these rates. -/
def SummaryRates (s : SummaryAccumulator F) (record previous : SnapshotRecord F)
    (rate : (SnapshotRecord F → Nat) → F) : Prop :=
  (s.observe record previous).acceptPerSecSum =
      s.acceptPerSecSum + rate SnapshotRecord.acceptTotal ∧
    (s.observe record previous).recvPacketsPerSecSum =
      s.recvPacketsPerSecSum + rate SnapshotRecord.recvPacketsTotal ∧
    (s.observe record previous).sendPacketsPerSecSum =
      s.sendPacketsPerSecSum + rate SnapshotRecord.sendPacketsTotal

theorem lineRates (platform : Platform) (record previous : SnapshotRecord F) :
    LineRates platform record previous (lineRate record previous) :=
  ⟨_, rfl, rfl, rfl, rfl⟩

theorem summaryRates (s : SummaryAccumulator F) (record previous : SnapshotRecord F) :
    SummaryRates s record previous (summaryRate record previous) :=
  ⟨rfl, rfl, rfl⟩

end

/-- The growth of a counter for each second. -/
def realRate (record previous : SnapshotRecord Rat) (d : Int) (counter : SnapshotRecord Rat → Nat) :
    Rat :=
  ((counter record : Rat) - counter previous) / (d / 1000000000)

theorem toPerSecond_pos {elapsed : Int} (h : 0 < elapsed) (delta : Nat) :
    (toPerSecond delta elapsed : Rat) = delta / (elapsed / 1000000000) := by
  have hpos : (0 : Rat) < elapsed / 1000000000 :=
    div_pos (Int.cast_pos.mpr h) (by decide)
  have hle : ¬ Double.le ((elapsed : Rat) / 1000000000) 0 = true := by
    rw [Double.le_rat]
    exact not_le.mpr hpos
  unfold toPerSecond
  simp only [Double.ofInt_rat, Double.div_rat]
  push_cast
  rw [if_neg hle]

theorem toPerSecond_zero (delta : Nat) : (toPerSecond delta 0 : Rat) = 0 := by
  have hle : Double.le (0 : Rat) 0 = true := (Double.le_rat 0 0).mpr le_rfl
  unfold toPerSecond
  simp only [Double.ofInt_rat, Double.div_rat]
  push_cast
  rw [zero_div, if_pos hle]

theorem computeRate_pos {current prior : Nat} (hle : prior ≤ current) {elapsed : Int}
    (h : 0 < elapsed) :
    (computeRate current prior elapsed : Rat) =
      ((current : Rat) - prior) / (elapsed / 1000000000) := by
  rw [computeRate, if_pos hle, toPerSecond_pos h, Nat.cast_sub hle]

/-- A counter that stands still has the rate zero. -/
theorem computeRate_still (n : Nat) {elapsed : Int} (h : 0 ≤ elapsed) :
    (computeRate n n elapsed : Rat) = 0 := by
  rcases h.lt_or_eq with hpos | rfl
  · rw [computeRate_pos le_rfl hpos, sub_self, zero_div]
  · exact toPerSecond_zero _

/-- Whole seconds give the real rate of a moving counter only if nothing was cut off. -/
theorem whole_seconds_iff {current prior : Nat} (hle : prior ≤ current) {d : Int} (hd : 0 < d) :
    (computeRate current prior (d.tdiv 1000000000 * 1000000000) : Rat) =
        ((current : Rat) - prior) / (d / 1000000000) ↔
      d % 1000000000 = 0 ∨ current = prior := by
  have hcut : d.tdiv 1000000000 * 1000000000 = d - d % 1000000000 := by
    rw [Int.tdiv_eq_ediv_of_nonneg hd.le]
    omega
  have hbillion : (1000000000 : Rat) ≠ 0 := by decide
  have hreal : (d : Rat) / 1000000000 ≠ 0 := div_ne_zero (Int.cast_ne_zero.mpr hd.ne') hbillion
  rw [hcut]
  by_cases hstill : current = prior
  · subst hstill
    rw [computeRate_still current (by omega), sub_self, zero_div]
    exact ⟨fun _ => .inr rfl, fun _ => rfl⟩
  have hgrowth : (current : Rat) - prior ≠ 0 :=
    sub_ne_zero.mpr (Nat.cast_injective.ne hstill)
  by_cases hshort : d < 1000000000
  · -- less than a second counts as no time at all
    have hzero : d - d % 1000000000 = 0 := by omega
    rw [hzero, computeRate, toPerSecond_zero]
    constructor
    · intro h
      exact absurd h.symm (div_ne_zero hgrowth hreal)
    · rintro (h | h)
      · omega
      · exact absurd h hstill
  · rw [computeRate_pos hle (by omega), div_eq_mul_inv _ (d / 1000000000 : Rat), div_eq_mul_inv,
      mul_right_inj' hgrowth, inv_inj, div_left_inj' hbillion, Int.cast_inj]
    constructor
    · intro h
      exact .inl (by omega)
    · rintro (h | h)
      · omega
      · exact absurd h hstill

/-- **Rates.** The line of a snapshot and the summary both have the real rates if and only if the
snapshots are a whole number of seconds apart, or none of the three counters has moved. -/
theorem real_rates_iff (platform : Platform) (s : SummaryAccumulator Rat)
    (record previous : SnapshotRecord Rat) (d : Int) (hd : 0 < d)
    (hsystem : record.capturedAt - previous.capturedAt = d)
    (hsteady : record.capturedAtSteady - previous.capturedAtSteady = d)
    (hcounters : ∀ counter ∈ rateCounters, counter previous ≤ counter record) :
    LineRates platform record previous (lineRate record previous) ∧
      SummaryRates s record previous (summaryRate record previous) ∧
      ((∀ counter ∈ rateCounters,
          lineRate record previous counter = realRate record previous d counter ∧
            summaryRate record previous counter = realRate record previous d counter) ↔
        d % 1000000000 = 0 ∨ ∀ counter ∈ rateCounters, counter record = counter previous) := by
  have hline : ∀ counter ∈ rateCounters,
      (lineRate record previous counter = realRate record previous d counter ↔
        d % 1000000000 = 0 ∨ counter record = counter previous) := by
    intro counter hcounter
    rw [lineRate, hsteady, realRate]
    exact whole_seconds_iff (hcounters counter hcounter) hd
  have hsummary : ∀ counter ∈ rateCounters,
      summaryRate record previous counter = realRate record previous d counter := by
    intro counter hcounter
    rw [summaryRate, hsystem, realRate]
    exact computeRate_pos (hcounters counter hcounter) hd
  refine ⟨lineRates platform record previous, summaryRates s record previous, ?_⟩
  constructor
  · intro h
    by_cases hwhole : d % 1000000000 = 0
    · exact .inl hwhole
    · refine .inr fun counter hcounter => ?_
      exact ((hline counter hcounter).mp (h counter hcounter).1).resolve_left hwhole
  · rintro (h | h) counter hcounter
    · exact ⟨(hline counter hcounter).mpr (.inl h), hsummary counter hcounter⟩
    · exact ⟨(hline counter hcounter).mpr (.inr (h counter hcounter)), hsummary counter hcounter⟩

/-- A record with so many accepted clients, at this time of both clocks. -/
def someRecord (time : Int) (acceptTotal : Nat) : SnapshotRecord Rat :=
  { SnapshotRecord.zero with capturedAt := time, capturedAtSteady := time, acceptTotal }

/-- Two seconds are a whole number of seconds. -/
theorem real_rates_iff_two_seconds :
    lineRate (someRecord 2000000000 6) (someRecord 0 0) SnapshotRecord.acceptTotal = 3 ∧
      summaryRate (someRecord 2000000000 6) (someRecord 0 0) SnapshotRecord.acceptTotal = 3 := by
  have hrates := (real_rates_iff ⟨fun _ _ => [], 0⟩ SummaryAccumulator.zero
    (someRecord 2000000000 6) (someRecord 0 0) 2000000000 (by decide) (by decide) (by decide)
    (by decide)).2.2.mpr (.inl (by decide)) SnapshotRecord.acceptTotal (by simp [rateCounters])
  have hreal : realRate (someRecord 2000000000 6) (someRecord 0 0) 2000000000
      SnapshotRecord.acceptTotal = 3 := by decide +kernel
  rw [hreal] at hrates
  exact hrates

/-- After one and a half seconds with three accepted clients the line says three for each second
and the summary two. -/
theorem line_rate_too_high :
    LineRates ⟨fun _ _ => [], 0⟩ (someRecord 1500000000 3) (someRecord 0 0)
        (lineRate (someRecord 1500000000 3) (someRecord 0 0)) ∧
      lineRate (someRecord 1500000000 3) (someRecord 0 0) SnapshotRecord.acceptTotal = 3 ∧
      summaryRate (someRecord 1500000000 3) (someRecord 0 0) SnapshotRecord.acceptTotal = 2 ∧
      realRate (someRecord 1500000000 3) (someRecord 0 0) 1500000000
        SnapshotRecord.acceptTotal = 2 :=
  ⟨lineRates _ _ _, by decide +kernel, by decide +kernel, by decide +kernel⟩

end Highp.Metrics
