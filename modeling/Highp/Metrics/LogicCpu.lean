import Highp.Lib.Transition
import Highp.Metrics.ServerWriter
import Mathlib.Algebra.Order.Field.Basic
import Mathlib.Algebra.Order.Field.Rat
import Mathlib.Data.Rat.Cast.Order
import Mathlib.Tactic.FieldSimp
import Mathlib.Tactic.Linarith
import Mathlib.Tactic.Ring

/-! The CPU percentage of the logic thread. The CPU time is compared with that of the last reading
of the thread, and the elapsed time with that of the last sample. -/

namespace Highp.Metrics
open Highp.Lib

/-! ## Readings and runs -/

/-- Kernel plus user time of a thread, in units of 100 ns. -/
structure CpuReading where
  threadId : Nat
  time : Int
  total : Nat
  deriving DecidableEq

/-- Since the readings before, the CPU time of the thread has grown by no more than the time. -/
def Plausible (seen : List CpuReading) (r : CpuReading) : Prop :=
  ∀ r' ∈ seen, r'.threadId = r.threadId →
    r'.total ≤ r.total ∧ 100 * ((r.total : Int) - r'.total) ≤ r.time - r'.time

instance (seen : List CpuReading) (r : CpuReading) : Decidable (Plausible seen r) :=
  inferInstanceAs (Decidable (∀ r' ∈ seen, r'.threadId = r.threadId →
    r'.total ≤ r.total ∧ 100 * ((r.total : Int) - r'.total) ≤ r.time - r'.time))

/-- What `Sample` reads of the logic thread, if it can. -/
def RuntimeSampler.readThread (s : RuntimeSampler) (reading : ProcessReading) :
    Option CpuReading :=
  if reading.processTimes.isSome ∧ s.logicThreadId ≠ 0 then
    (reading.threadTimes s.logicThreadId).map fun times =>
      ⟨s.logicThreadId, reading.now, times.1 + times.2⟩
  else none

inductive SamplerCall
  | sample (reading : ProcessReading)
  | setLogicThreadId (threadId : Nat)
  | reset

/-- A sampler and what has happened to it; `lastRead` is what the last call of `Sample` has read of
the logic thread. -/
structure SamplerRun where
  sampler : RuntimeSampler
  clock : Int
  lastRead : Option CpuReading
  seen : List CpuReading
  reported : List Rat

/-- The sampler takes its readings while the steady clock goes on from some time. -/
def samplerSystem (began : Int) : System SamplerRun SamplerCall where
  start := ⟨RuntimeSampler.new, began, none, [], []⟩
  step s
    | .sample reading =>
      let read := s.sampler.readThread reading
      if s.clock ≤ reading.now ∧ ∀ r ∈ read, Plausible s.seen r then
        let (sample, sampler) := s.sampler.sample reading
        some ⟨sampler, reading.now, read, read.toList ++ s.seen,
          s.reported ++ [sample.logicThreadCpuPercent]⟩
      else none
    | .setLogicThreadId threadId =>
      some { s with sampler := s.sampler.setLogicThreadId threadId }
    | .reset => some { s with sampler := s.sampler.reset }

/-- The call computes a percentage of the logic thread. -/
def RuntimeSampler.Compares (s : RuntimeSampler) (reading : ProcessReading) : Prop :=
  s.hasBaseline = true ∧ s.lastSampleAt < reading.now ∧
    s.lastLogicThreadIdSampled = s.logicThreadId ∧ (s.readThread reading).isSome = true

instance (s : RuntimeSampler) (reading : ProcessReading) : Decidable (s.Compares reading) :=
  inferInstanceAs (Decidable (_ ∧ _ ∧ _ ∧ _))

/-- A call that computes a percentage comes after one that has read the times of the thread. -/
def Fresh (s : SamplerRun) : SamplerCall → Prop
  | .sample reading => s.sampler.Compares reading →
      s.lastRead.map CpuReading.threadId = some s.sampler.logicThreadId
  | .setLogicThreadId _ => True
  | .reset => True

instance (s : SamplerRun) : ∀ call, Decidable (Fresh s call)
  | .sample reading => inferInstanceAs (Decidable (s.sampler.Compares reading → _))
  | .setLogicThreadId _ => .isTrue trivial
  | .reset => .isTrue trivial

/-! ## One sample -/

namespace RuntimeSampler

theorem readThread_some {s : RuntimeSampler} {reading : ProcessReading} {r : CpuReading}
    (h : s.readThread reading = some r) :
    ∃ processTimes kernel user, reading.processTimes = some processTimes ∧ s.logicThreadId ≠ 0 ∧
      reading.threadTimes s.logicThreadId = some (kernel, user) ∧
      r = ⟨s.logicThreadId, reading.now, kernel + user⟩ := by
  unfold readThread at h
  by_cases hread : reading.processTimes.isSome ∧ s.logicThreadId ≠ 0
  · rw [if_pos hread] at h
    obtain ⟨⟨kernel, user⟩, htimes, rfl⟩ := Option.map_eq_some_iff.mp h
    obtain ⟨processTimes, hprocess⟩ := Option.isSome_iff_exists.mp hread.1
    exact ⟨processTimes, kernel, user, hprocess, hread.2, htimes, rfl⟩
  · rw [if_neg hread] at h
    cases h

theorem sampleLogicThread_id {F : Type} [Double F] (s : RuntimeSampler)
    (logicTimes : Option (Nat × Nat)) (elapsedSeconds : F) :
    (s.sampleLogicThread logicTimes elapsedSeconds).2.logicThreadId = s.logicThreadId := by
  cases logicTimes with
  | none => rfl
  | some times =>
    unfold sampleLogicThread
    by_cases hid : s.lastLogicThreadIdSampled ≠ s.logicThreadId
    · simp [hid]
    · simp [hid]

/-- What is read becomes what the next sample is compared with. -/
theorem sample_read {F : Type} [Double F] {s : RuntimeSampler} {reading : ProcessReading}
    {r : CpuReading} (h : s.readThread reading = some r) :
    (s.sample (F := F) reading).2.lastLogicThreadIdSampled = r.threadId ∧
      (s.sample (F := F) reading).2.lastSampleAt = r.time ∧
      (s.sample (F := F) reading).2.lastLogicThreadKernel100ns +
        (s.sample (F := F) reading).2.lastLogicThreadUser100ns = r.total := by
  obtain ⟨⟨processKernel, processUser⟩, kernel, user, hprocess, hid, htimes, rfl⟩ :=
    readThread_some h
  unfold sample
  simp only [hprocess, if_pos hid, htimes]
  by_cases hbase : s.hasBaseline = true
  · simp only [hbase, Bool.not_true, Bool.false_eq_true, if_false, and_true]
    by_cases hlt : Double.lt (Double.ofInt 0 : F)
        (Double.ofInt (reading.now - s.lastSampleAt) / Double.ofInt 1000000000) = true
    · rw [if_pos hlt]
      exact s.sampleLogicThread_id _ _
    · rw [if_neg hlt]
  · simp [hbase]

/-- The elapsed time of a sample after the first one, in seconds. -/
def elapsed (s : RuntimeSampler) (reading : ProcessReading) : Rat :=
  ((reading.now - s.lastSampleAt : Int) : Rat) / 1000000000

theorem elapsed_pos {s : RuntimeSampler} {reading : ProcessReading} :
    Double.lt (Double.ofInt 0 : Rat)
        (Double.ofInt (reading.now - s.lastSampleAt) / Double.ofInt 1000000000) = true ↔
      s.lastSampleAt < reading.now := by
  rw [Double.lt_rat, Double.div_rat, Double.ofInt_rat, Double.ofInt_rat, Double.ofInt_rat]
  have hbillion : (0 : Rat) < ((1000000000 : Int) : Rat) := by norm_cast
  rw [Int.cast_zero, div_pos_iff_of_pos_right hbillion, Int.cast_pos]
  omega

/-- A percentage is computed when there is something to compare with, and else is zero. -/
theorem sample_percent (s : RuntimeSampler) (reading : ProcessReading) :
    (s.sample (F := Rat) reading).1.logicThreadCpuPercent =
      if s.Compares reading then
        (s.sampleLogicThread (reading.threadTimes s.logicThreadId) (s.elapsed reading)).1
      else 0 := by
  by_cases hcompares : s.Compares reading
  · rw [if_pos hcompares]
    obtain ⟨hbase, hlater, -, hread⟩ := hcompares
    obtain ⟨r, hr⟩ := Option.isSome_iff_exists.mp hread
    obtain ⟨⟨processKernel, processUser⟩, kernel, user, hprocess, hid, htimes, -⟩ :=
      readThread_some hr
    unfold sample
    simp only [hprocess, hbase, Bool.not_true, Bool.false_eq_true, if_false,
      if_pos (elapsed_pos.mpr hlater), if_pos hid]
    rfl
  · rw [if_neg hcompares]
    unfold sample
    cases hprocess : reading.processTimes with
    | none => rfl
    | some processTimes =>
      by_cases hbase : s.hasBaseline = true
      · simp only [hbase, Bool.not_true, Bool.false_eq_true, if_false]
        by_cases hlater : s.lastSampleAt < reading.now
        · rw [if_pos (elapsed_pos.mpr hlater)]
          by_cases hid : s.logicThreadId ≠ 0
          · rw [if_pos hid]
            cases htimes : reading.threadTimes s.logicThreadId with
            | none => rfl
            | some times =>
              have hread : (s.readThread reading).isSome = true := by
                simp [readThread, hprocess, hid, htimes]
              have hother : s.lastLogicThreadIdSampled ≠ s.logicThreadId :=
                fun hsame => hcompares ⟨hbase, hlater, hsame, hread⟩
              simp only [sampleLogicThread, if_pos hother]
              rfl
          · rw [if_neg hid]
            rfl
        · rw [if_neg (elapsed_pos.not.mpr hlater)]
          rfl
      · simp only [hbase, Bool.not_false, if_true]
        rfl

/-- The unsigned differences add up to the growth, or to less. -/
theorem logicDelta_le {kernel user lastKernel lastUser : Nat}
    (h : lastKernel + lastUser ≤ kernel + user) :
    (minus64 kernel lastKernel + minus64 user lastUser) % 2 ^ 64 ≤
      kernel + user - (lastKernel + lastUser) := by
  unfold minus64
  omega

/-- Within the elapsed time a thread uses at most one CPU. -/
theorem percent_bounds {delta : Nat} {time last : Int} (hlast : last < time)
    (hdelta : 100 * (delta : Int) ≤ time - last) :
    (0 : Rat) ≤ secondsOf100ns delta / (((time - last : Int) : Rat) / 1000000000) *
        Double.ofInt 100 ∧
      secondsOf100ns delta / (((time - last : Int) : Rat) / 1000000000) * Double.ofInt 100 ≤
        (100 : Rat) := by
  have hpos : (0 : Rat) < ((time - last : Int) : Rat) := Int.cast_pos.mpr (by omega)
  have hle : 100 * (delta : Rat) ≤ ((time - last : Int) : Rat) := by exact_mod_cast hdelta
  have hpercent : (secondsOf100ns delta / (((time - last : Int) : Rat) / 1000000000) *
      Double.ofInt 100 : Rat) = 100 * delta / ((time - last : Int) : Rat) * 100 := by
    simp only [secondsOf100ns, Double.ofInt_rat, Double.div_rat, Double.mul_rat]
    field_simp
    push_cast
    ring
  rw [hpercent]
  constructor
  · positivity
  · have := div_le_one_of_le₀ hle hpos.le
    linarith

end RuntimeSampler

/-! ## Runs -/

namespace SamplerRun

/-- No percentage is outside of 0 and 100. -/
def OneCpu (s : SamplerRun) : Prop := ∀ percent ∈ s.reported, 0 ≤ percent ∧ percent ≤ 100

/-- What the sampler compares with is what the last sample has read, if it has read anything. -/
structure Matches (s : SamplerRun) : Prop where
  baseline : ∀ r, s.lastRead = some r → s.sampler.hasBaseline = true →
    s.sampler.lastLogicThreadIdSampled = r.threadId ∧ s.sampler.lastSampleAt = r.time ∧
      s.sampler.lastLogicThreadKernel100ns + s.sampler.lastLogicThreadUser100ns = r.total
  seen : ∀ r, s.lastRead = some r → r ∈ s.seen

/-- What a call of `Sample` does. -/
theorem step_sample {began : Int} {s t : SamplerRun} {reading : ProcessReading}
    (h : (samplerSystem began).step s (.sample reading) = some t) :
    (∀ r ∈ s.sampler.readThread reading, Plausible s.seen r) ∧
      t.sampler = (s.sampler.sample (F := Rat) reading).2 ∧
      t.lastRead = s.sampler.readThread reading ∧
      t.seen = (s.sampler.readThread reading).toList ++ s.seen ∧
      t.reported = s.reported ++
        [(s.sampler.sample (F := Rat) reading).1.logicThreadCpuPercent] := by
  simp only [samplerSystem] at h
  by_cases hread : s.clock ≤ reading.now ∧
      ∀ r ∈ s.sampler.readThread reading, Plausible s.seen r
  · rw [if_pos hread] at h
    cases h
    exact ⟨hread.2, rfl, rfl, rfl, rfl⟩
  · rw [if_neg hread] at h
    cases h

theorem matches_start (began : Int) : (samplerSystem began).start.Matches where
  baseline r hr := by cases hr
  seen r hr := by cases hr

theorem matches_step {began : Int} {s t : SamplerRun} {call : SamplerCall} (h : s.Matches)
    (hs : (samplerSystem began).step s call = some t) : t.Matches := by
  cases call with
  | sample reading =>
    obtain ⟨-, hsampler, hread, hseen, -⟩ := step_sample hs
    constructor
    case baseline =>
      intro r hr _
      rw [hsampler]
      exact RuntimeSampler.sample_read (hread ▸ hr)
    case seen =>
      intro r hr
      rw [hseen, ← hread, hr]
      exact List.mem_append_left _ (List.mem_singleton.mpr rfl)
  | setLogicThreadId threadId =>
    cases hs
    exact ⟨h.baseline, h.seen⟩
  | reset =>
    cases hs
    exact ⟨fun r _ hbase => absurd hbase Bool.false_ne_true, h.seen⟩

/-- A sample that comes after a reading of the thread reports a share of one CPU. -/
theorem percent_of_fresh {s : SamplerRun} (h : s.Matches) {reading : ProcessReading}
    (hfresh : Fresh s (.sample reading))
    (hgrown : ∀ r ∈ s.sampler.readThread reading, Plausible s.seen r) :
    0 ≤ (s.sampler.sample (F := Rat) reading).1.logicThreadCpuPercent ∧
      (s.sampler.sample (F := Rat) reading).1.logicThreadCpuPercent ≤ 100 := by
  rw [RuntimeSampler.sample_percent]
  by_cases hcompares : s.sampler.Compares reading
  · rw [if_pos hcompares]
    obtain ⟨r, hlast, hthread⟩ := Option.map_eq_some_iff.mp (hfresh hcompares)
    obtain ⟨hbase, hlater, hsame, hread⟩ := hcompares
    obtain ⟨-, htime, htotal⟩ := h.baseline r hlast hbase
    obtain ⟨r', hr'⟩ := Option.isSome_iff_exists.mp hread
    have hgrowth := hgrown r' hr' r (h.seen r hlast)
    obtain ⟨-, kernel, user, -, -, htimes, rfl⟩ := RuntimeSampler.readThread_some hr'
    obtain ⟨hmore, hbound⟩ := hgrowth hthread
    simp only at hmore hbound
    have hdelta : (minus64 kernel s.sampler.lastLogicThreadKernel100ns +
        minus64 user s.sampler.lastLogicThreadUser100ns) % 2 ^ 64 ≤ kernel + user -
          (s.sampler.lastLogicThreadKernel100ns + s.sampler.lastLogicThreadUser100ns) :=
      RuntimeSampler.logicDelta_le (by omega)
    have hsmall : 100 * (((minus64 kernel s.sampler.lastLogicThreadKernel100ns +
        minus64 user s.sampler.lastLogicThreadUser100ns) % 2 ^ 64 : Nat) : Int) ≤
          reading.now - s.sampler.lastSampleAt := by
      rw [htime]
      omega
    rw [htimes]
    simp only [RuntimeSampler.sampleLogicThread, ne_eq, hsame, not_true_eq_false, if_false]
    exact RuntimeSampler.percent_bounds hlater hsmall
  · rw [if_neg hcompares]
    decide

end SamplerRun

/-- **One CPU.** In every run in which a percentage is only computed when the sample before has read
the times of the same thread, the logic thread is reported to use between none and all of one
CPU. -/
theorem logic_thread_one_cpu (began : Int) (s : SamplerRun)
    (h : (samplerSystem began).Reach Fresh s) : s.OneCpu := by
  have hall : s.Matches ∧ s.OneCpu := by
    refine h.invariant (I := fun s => s.Matches ∧ s.OneCpu)
      ⟨SamplerRun.matches_start began, fun percent hmem => absurd hmem List.not_mem_nil⟩ ?_
    intro s t call _ ih hok hs
    refine ⟨SamplerRun.matches_step ih.1 hs, ?_⟩
    cases call with
    | sample reading =>
      obtain ⟨hgrown, -, -, -, hreported⟩ := SamplerRun.step_sample hs
      intro percent hmem
      rw [hreported] at hmem
      rcases List.mem_append.mp hmem with hmem | hmem
      · exact ih.2 percent hmem
      · rw [List.mem_singleton.mp hmem]
        exact SamplerRun.percent_of_fresh ih.1 hok hgrown
    | setLogicThreadId threadId =>
      cases hs
      exact ih.2
    | reset =>
      cases hs
      exact ih.2
  exact hall.2

/-- A call of `Sample` after so many nanoseconds, with these times of thread 7. -/
def sampleAt (now : Int) (threadTimes : Option (Nat × Nat)) : SamplerCall :=
  .sample ⟨now, some (0, 0), fun threadId => if threadId = 7 then threadTimes else none, 1, 1⟩

/-- A thread that uses half of a CPU. -/
theorem logic_thread_one_cpu_half : ∃ s : SamplerRun, s.reported.length = 2 ∧ s.OneCpu := by
  obtain ⟨s, hr, hlen⟩ := System.reach_of_exec (samplerSystem 0) Fresh
    [.setLogicThreadId 7, sampleAt 0 (some (0, 0)), sampleAt 1000000000 (some (0, 5000000))]
    (fun s => s.reported.length = 2) (by decide)
  exact ⟨s, of_decide_eq_true hlen, logic_thread_one_cpu 0 s hr⟩

/-- A thread that always runs cannot be read once; the next sample says that it has used two
CPUs. -/
theorem two_cpus_reported :
    ∃ s, (samplerSystem 0).Reach System.always s ∧ s.reported = [0, 0, 200] ∧ ¬ s.OneCpu := by
  obtain ⟨s, hr, hreported⟩ := System.reach_of_exec (samplerSystem 0) System.always
    [.setLogicThreadId 7, sampleAt 0 (some (0, 0)), sampleAt 1000000000 none,
      sampleAt 2000000000 (some (20000000, 0))]
    (fun s => s.reported = [0, 0, 200]) (by decide +kernel)
  have hreported := of_decide_eq_true hreported
  refine ⟨s, hr, hreported, fun h => ?_⟩
  exact absurd (h 200 (by rw [hreported]; decide)).2 (by decide)

end Highp.Metrics
