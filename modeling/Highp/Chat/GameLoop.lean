import Highp.Lib.Transition
import Mathlib.Algebra.BigOperators.Intervals
import Mathlib.Algebra.Order.Ring.Int

/-! The clock of the game loop: when its ticks begin and end, what it reports of them, and how
long the commands wait that the workers push meanwhile. -/

namespace Highp.Chat
open Highp.Lib

/-- A command with the time that `PushCommand` has read. `readable` says whether `GetPacket` finds
a packet in it. `pushedAt` is a ghost: when it came into the queue. -/
structure TimedCommand where
  enqueuedAtNs : Int
  readable : Bool
  pushedAt : Int
  deriving DecidableEq

/-- The logic thread in `Update`. `tick` is when the tick began, and nothing in the `Tick` behind
the loop. -/
inductive LoopPc
  | check
  | drain (tick : Option Int)
  /-- In the loop of `Tick`, in front of the next command. -/
  | process (tick : Option Int)
  | parse (tick : Option Int) (cmd : TimedCommand)
  | dispatch (tick : Option Int) (dispatchStartNs : Int)
  | sleepUntil (targetNextTick : Int)
  | exited
  deriving DecidableEq

/-- A command that `Tick` has taken from the batch: when, and in which tick. -/
structure Handled where
  cmd : TimedCommand
  at' : Int
  tick : Nat
  deriving DecidableEq

/-- `clock` is the latest moment that anybody knows of. The lists of durations are what the
callbacks were told. The last four fields are ghosts: how many ticks were started, when each began
and ended, and the commands taken. -/
structure GameLoop where
  clock : Int
  stopRequested : Bool
  queue : List TimedCommand
  batch : List TimedCommand
  pc : LoopPc
  tickDurations : List Int
  tickLags : List Int
  queueWaits : List Int
  dispatchTimes : List Int
  started : Nat
  starts : Nat → Int
  ends : Nat → Int
  handled : List Handled

inductive LoopLabel
  /-- A worker pushes a command, at its time. -/
  | push (cmd : TimedCommand)
  | requestStop
  /-- The logic thread goes on, and the clock shows `now`. -/
  | logic (now : Int)

namespace GameLoop

/-- The number of ticks that have ended, and so of the one that is under way. -/
def finished (x : GameLoop) : Nat := x.tickDurations.length

/-- One step of `Update`, with `PacketDispatcher::Tick` inside. -/
def update (period : Int) (x : GameLoop) (now : Int) : GameLoop :=
  match x.pc with
  | .check =>
    if x.stopRequested then { x with pc := .drain none }
    else
      { x with
        pc := .drain (some now)
        started := x.started + 1
        starts := Function.update x.starts x.started now }
  | .drain tick => { x with batch := x.queue, queue := [], pc := .process tick }
  | .process tick =>
    match x.batch, tick with
    | cmd :: batch, _ =>
      { x with
        batch
        pc := .parse tick cmd
        queueWaits :=
          if cmd.enqueuedAtNs > 0 then x.queueWaits ++ [now - cmd.enqueuedAtNs] else x.queueWaits
        handled := x.handled ++ [⟨cmd, now, x.finished⟩] }
    | [], some tickStart =>
      let targetNextTick := tickStart + period
      { x with
        tickDurations := x.tickDurations ++ [now - tickStart]
        tickLags := x.tickLags ++ [if now > targetNextTick then now - targetNextTick else 0]
        ends := Function.update x.ends x.finished now
        -- behind its time the loop yields, else it sleeps
        pc := if targetNextTick < now then .check else .sleepUntil targetNextTick }
    | [], none => { x with pc := .exited }
  | .parse tick cmd => { x with pc := if cmd.readable then .dispatch tick now else .process tick }
  | .dispatch tick dispatchStartNs =>
    { x with dispatchTimes := x.dispatchTimes ++ [now - dispatchStartNs], pc := .process tick }
  | .sleepUntil _ => { x with pc := .check }
  | .exited => x

/-- A sleep does not end before its time, and a thread that has exited does nothing. -/
def wakes (x : GameLoop) (now : Int) : Bool :=
  match x.pc with
  | .sleepUntil targetNextTick => targetNextTick ≤ now
  | .exited => false
  | _ => true

def step (period : Int) (x : GameLoop) : LoopLabel → Option GameLoop
  | .push cmd =>
    if x.clock ≤ cmd.pushedAt ∧ cmd.enqueuedAtNs ≤ cmd.pushedAt then
      some { x with clock := cmd.pushedAt, queue := x.queue ++ [cmd] }
    else none
  | .requestStop => some { x with stopRequested := true }
  | .logic now =>
    if x.clock ≤ now ∧ x.wakes now = true then some { x.update period now with clock := now }
    else none

end GameLoop

/-- The loop, with `_tickMs` as nanoseconds. -/
def gameLoop (period : Int) : System GameLoop LoopLabel where
  start := ⟨0, false, [], [], .check, [], [], [], [], 0, fun _ => 0, fun _ => 0, []⟩
  step := GameLoop.step period

/-! ## What one step can do -/

/-- The steps of the logic thread, one constructor for each. -/
inductive LoopStep (period : Int) (x : GameLoop) (now : Int) : GameLoop → Prop
  | leave : x.pc = .check → x.stopRequested = true →
      LoopStep period x now { x with clock := now, pc := .drain none }
  | begin : x.pc = .check → x.stopRequested = false →
      LoopStep period x now { x with
        clock := now, pc := .drain (some now), started := x.started + 1
        starts := Function.update x.starts x.started now }
  | drain {tick : Option Int} : x.pc = .drain tick →
      LoopStep period x now { x with
        clock := now, batch := x.queue, queue := [], pc := .process tick }
  | take {tick : Option Int} {cmd : TimedCommand} {batch : List TimedCommand} :
      x.pc = .process tick → x.batch = cmd :: batch →
      LoopStep period x now { x with
        clock := now, batch, pc := .parse tick cmd
        queueWaits :=
          if cmd.enqueuedAtNs > 0 then x.queueWaits ++ [now - cmd.enqueuedAtNs] else x.queueWaits
        handled := x.handled ++ [⟨cmd, now, x.finished⟩] }
  | finish {tickStart : Int} : x.pc = .process (some tickStart) → x.batch = [] →
      LoopStep period x now { x with
        clock := now
        tickDurations := x.tickDurations ++ [now - tickStart]
        tickLags := x.tickLags ++ [max 0 (now - (tickStart + period))]
        ends := Function.update x.ends x.finished now
        pc := if tickStart + period < now then .check else .sleepUntil (tickStart + period) }
  | exit : x.pc = .process none → x.batch = [] →
      LoopStep period x now { x with clock := now, pc := .exited }
  | skip {tick : Option Int} {cmd : TimedCommand} : x.pc = .parse tick cmd →
      LoopStep period x now { x with clock := now, pc := .process tick }
  | dispatch {tick : Option Int} {cmd : TimedCommand} : x.pc = .parse tick cmd →
      LoopStep period x now { x with clock := now, pc := .dispatch tick now }
  | dispatched {tick : Option Int} {dispatchStartNs : Int} :
      x.pc = .dispatch tick dispatchStartNs →
      LoopStep period x now { x with
        clock := now, dispatchTimes := x.dispatchTimes ++ [now - dispatchStartNs]
        pc := .process tick }
  | wake {targetNextTick : Int} : x.pc = .sleepUntil targetNextTick → targetNextTick ≤ now →
      LoopStep period x now { x with clock := now, pc := .check }

section
variable {period now : Int} {x y : GameLoop}

theorem lag_eq (now target : Int) : (if now > target then now - target else 0) =
    max 0 (now - target) := by
  by_cases h : now > target
  · rw [if_pos h]
    omega
  · rw [if_neg h]
    omega

theorem step_logic (h : x.step period (.logic now) = some y) :
    x.clock ≤ now ∧ LoopStep period x now y := by
  simp only [GameLoop.step, Option.ite_none_right_eq_some, Option.some.injEq] at h
  obtain ⟨⟨hclock, hwakes⟩, rfl⟩ := h
  refine ⟨hclock, ?_⟩
  unfold GameLoop.update
  cases hpc : x.pc with
  | check =>
    cases hstop : x.stopRequested with
    | true =>
      have hleave : LoopStep period x now _ := .leave hpc hstop
      simpa only [hstop, if_true] using hleave
    | false =>
      have hbegin : LoopStep period x now _ := .begin hpc hstop
      simpa only [hstop, Bool.false_eq_true, if_false] using hbegin
  | drain tick => exact .drain hpc
  | process tick =>
    cases hbatch : x.batch with
    | cons cmd batch => exact .take hpc hbatch
    | nil =>
      cases tick with
      | none =>
        have hexit : LoopStep period x now _ := .exit hpc hbatch
        simpa only [hbatch] using hexit
      | some tickStart =>
        have hfinish : LoopStep period x now _ := .finish hpc hbatch
        simpa only [hbatch, lag_eq] using hfinish
  | parse tick cmd =>
    cases hreadable : cmd.readable with
    | true =>
      have hdispatch : LoopStep period x now _ := .dispatch hpc
      simpa only [hreadable, if_true] using hdispatch
    | false =>
      have hskip : LoopStep period x now _ := .skip hpc
      simpa only [hreadable, Bool.false_eq_true, if_false] using hskip
  | dispatch tick dispatchStartNs => exact .dispatched hpc
  | sleepUntil targetNextTick =>
    rw [GameLoop.wakes, hpc, decide_eq_true_eq] at hwakes
    exact .wake hpc hwakes
  | exited => simp [GameLoop.wakes, hpc] at hwakes

theorem step_push {cmd : TimedCommand} (h : x.step period (.push cmd) = some y) :
    x.clock ≤ cmd.pushedAt ∧ cmd.enqueuedAtNs ≤ cmd.pushedAt ∧
      y = { x with clock := cmd.pushedAt, queue := x.queue ++ [cmd] } := by
  simp only [GameLoop.step, Option.ite_none_right_eq_some, Option.some.injEq] at h
  exact ⟨h.1.1, h.1.2, h.2.symm⟩

end

/-! ## The ticks -/

/-- The tick that the logic thread is in, with its beginning. -/
def LoopPc.tick : LoopPc → Option Int
  | .drain tick | .process tick | .parse tick _ | .dispatch tick _ => tick
  | .check | .sleepUntil _ | .exited => none

namespace GameLoop

/-- What the callbacks are told of a tick. -/
def duration (x : GameLoop) (i : Nat) : Int := x.ends i - x.starts i

def lag (period : Int) (x : GameLoop) (i : Nat) : Int := max 0 (x.ends i - (x.starts i + period))

/-- Between two ticks the time of the next one has come, or the thread sleeps until then. -/
def Due (period : Int) (x : GameLoop) : Prop :=
  ∀ i, x.finished = i + 1 →
    (x.pc = .check → x.starts i + period ≤ x.clock) ∧
      ∀ target, x.pc = .sleepUntil target → target = x.starts i + period

/-- The ticks one behind the other, and what was told of them. -/
structure Timed (period : Int) (x : GameLoop) : Prop where
  count : x.started = x.finished + if x.pc.tick.isSome then 1 else 0
  begun : ∀ t, x.pc.tick = some t → x.starts x.finished = t
  past : ∀ i < x.started, x.starts i ≤ x.clock
  ended : ∀ i < x.finished, x.starts i ≤ x.ends i ∧ x.ends i ≤ x.clock
  spaced : ∀ i, i + 1 < x.started →
    x.starts i + period ≤ x.starts (i + 1) ∧ x.ends i ≤ x.starts (i + 1)
  due : x.Due period
  durations : x.tickDurations = (List.range x.finished).map x.duration
  lags : x.tickLags = (List.range x.finished).map (x.lag period)

end GameLoop

section
variable {period now : Int} {x y : GameLoop}

theorem GameLoop.Timed.started_between (h : x.Timed period) (htick : x.pc.tick = none) :
    x.started = x.finished := by
  have hcount := h.count
  rw [htick] at hcount
  exact hcount

theorem GameLoop.Timed.started_within {t : Int} (h : x.Timed period)
    (htick : x.pc.tick = some t) : x.started = x.finished + 1 := by
  have hcount := h.count
  rw [htick] at hcount
  exact hcount

/-- What was told of the ended ticks does not change with the others. -/
theorem told_congr {f g : Nat → Int} (h : ∀ i < x.finished, f i = g i) :
    (List.range x.finished).map f = (List.range x.finished).map g :=
  List.map_congr_left fun i hi => h i (List.mem_range.mp hi)

/-- The time goes on, and the ticks are as they were. -/
theorem GameLoop.Timed.keep (h : x.Timed period) (hclock : x.clock ≤ y.clock)
    (hstarted : y.started = x.started) (hstarts : y.starts = x.starts) (hends : y.ends = x.ends)
    (hdurations : y.tickDurations = x.tickDurations) (hlags : y.tickLags = x.tickLags)
    (htick : y.pc.tick = x.pc.tick) (hdue : y.Due period) : y.Timed period := by
  have hfinished : y.finished = x.finished := by rw [finished, finished, hdurations]
  refine ⟨?_, ?_, ?_, ?_, ?_, hdue, ?_, ?_⟩
  · rw [hstarted, hfinished, htick]
    exact h.count
  · rw [htick, hstarts, hfinished]
    exact h.begun
  · intro i hi
    rw [hstarted] at hi
    rw [hstarts]
    exact (h.past i hi).trans hclock
  · intro i hi
    rw [hfinished] at hi
    rw [hstarts, hends]
    exact ⟨(h.ended i hi).1, (h.ended i hi).2.trans hclock⟩
  · rw [hstarted, hstarts, hends]
    exact h.spaced
  · have hsame : y.duration = x.duration := by
      funext i
      rw [duration, duration, hstarts, hends]
    rw [hdurations, hfinished, hsame]
    exact h.durations
  · have hsame : y.lag period = x.lag period := by
      funext i
      rw [lag, lag, hstarts, hends]
    rw [hlags, hfinished, hsame]
    exact h.lags

theorem GameLoop.Timed.begin (h : x.Timed period) (hclock : x.clock ≤ now)
    (hpc : x.pc = .check) :
    GameLoop.Timed period { x with
      clock := now, pc := .drain (some now), started := x.started + 1
      starts := Function.update x.starts x.started now } := by
  have hcount : x.started = x.finished := h.started_between (by rw [hpc]; rfl)
  have hother : ∀ i, i < x.started → Function.update x.starts x.started now i = x.starts i :=
    fun i hi => Function.update_of_ne (by omega) _ _
  have hself : Function.update x.starts x.started now x.started = now :=
    Function.update_self _ _ _
  refine ⟨?_, ?_, ?_, ?_, ?_, ?_, ?_, ?_⟩
  · show x.started + 1 = x.finished + 1
    rw [hcount]
  · intro t ht
    cases ht
    show Function.update x.starts x.started now x.finished = now
    rw [← hcount, hself]
  · intro i hi
    show Function.update x.starts x.started now i ≤ now
    rcases Nat.lt_succ_iff_lt_or_eq.mp hi with hi | rfl
    · rw [hother i hi]
      exact (h.past i hi).trans hclock
    · rw [hself]
  · intro i hi
    have hi : i < x.finished := hi
    show Function.update x.starts x.started now i ≤ x.ends i ∧ x.ends i ≤ now
    rw [hother i (by omega)]
    exact ⟨(h.ended i hi).1, (h.ended i hi).2.trans hclock⟩
  · intro i hi
    show Function.update x.starts x.started now i + period ≤
        Function.update x.starts x.started now (i + 1) ∧
      x.ends i ≤ Function.update x.starts x.started now (i + 1)
    rw [hother i (Nat.lt_of_succ_lt_succ hi)]
    rcases Nat.lt_succ_iff_lt_or_eq.mp hi with hi | hi
    · rw [hother (i + 1) hi]
      exact h.spaced i hi
    · -- the new tick begins behind the check, and so in its time
      rw [hi, hself]
      have hlast : x.finished = i + 1 := by omega
      have htime := (h.due i hlast).1 hpc
      have hend := (h.ended i (by omega)).2
      exact ⟨htime.trans hclock, hend.trans hclock⟩
  · intro i _
    exact ⟨nofun, nofun⟩
  · show x.tickDurations = (List.range x.finished).map fun i =>
      x.ends i - Function.update x.starts x.started now i
    rw [h.durations]
    apply told_congr
    intro i hi
    rw [hother i (by omega)]
    rfl
  · show x.tickLags = (List.range x.finished).map fun i =>
      max 0 (x.ends i - (Function.update x.starts x.started now i + period))
    rw [h.lags]
    apply told_congr
    intro i hi
    rw [hother i (by omega)]
    rfl

theorem GameLoop.Timed.finish {tickStart : Int} (h : x.Timed period) (hclock : x.clock ≤ now)
    (hpc : x.pc = .process (some tickStart)) :
    GameLoop.Timed period { x with
      clock := now
      tickDurations := x.tickDurations ++ [now - tickStart]
      tickLags := x.tickLags ++ [max 0 (now - (tickStart + period))]
      ends := Function.update x.ends x.finished now
      pc := if tickStart + period < now then .check else .sleepUntil (tickStart + period) } := by
  have hcount : x.started = x.finished + 1 := h.started_within (by rw [hpc]; rfl)
  have hstart : x.starts x.finished = tickStart := h.begun tickStart (by rw [hpc]; rfl)
  have hother : ∀ i, i < x.finished → Function.update x.ends x.finished now i = x.ends i :=
    fun i hi => Function.update_of_ne (by omega) _ _
  have hself : Function.update x.ends x.finished now x.finished = now :=
    Function.update_self _ _ _
  have hlength : (x.tickDurations ++ [now - tickStart]).length = x.finished + 1 := by
    simp [finished]
  have htick : (if tickStart + period < now then LoopPc.check
      else .sleepUntil (tickStart + period)).tick = none := by
    split <;> rfl
  refine ⟨?_, ?_, ?_, ?_, ?_, ?_, ?_, ?_⟩
  · show x.started = (x.tickDurations ++ [now - tickStart]).length +
      if (if tickStart + period < now then LoopPc.check
        else .sleepUntil (tickStart + period)).tick.isSome then 1 else 0
    rw [hlength, htick, hcount]
    rfl
  · intro t ht
    rw [htick] at ht
    cases ht
  · intro i hi
    exact (h.past i hi).trans hclock
  · intro i hi
    have hi : i < (x.tickDurations ++ [now - tickStart]).length := hi
    rw [hlength] at hi
    show x.starts i ≤ Function.update x.ends x.finished now i ∧
      Function.update x.ends x.finished now i ≤ now
    rcases Nat.lt_succ_iff_lt_or_eq.mp hi with hi | rfl
    · rw [hother i hi]
      exact ⟨(h.ended i hi).1, (h.ended i hi).2.trans hclock⟩
    · rw [hself]
      exact ⟨(h.past _ (by omega)).trans hclock, Int.le_refl _⟩
  · intro i hi
    have hi : i + 1 < x.started := hi
    show x.starts i + period ≤ x.starts (i + 1) ∧
      Function.update x.ends x.finished now i ≤ x.starts (i + 1)
    rw [hother i (by omega)]
    exact h.spaced i hi
  · intro i hi
    have hi : (x.tickDurations ++ [now - tickStart]).length = i + 1 := hi
    have hlast : i = x.finished := by omega
    subst hlast
    show ((if tickStart + period < now then LoopPc.check
        else .sleepUntil (tickStart + period)) = .check → x.starts x.finished + period ≤ now) ∧
      ∀ target, (if tickStart + period < now then LoopPc.check
        else .sleepUntil (tickStart + period)) = .sleepUntil target →
        target = x.starts x.finished + period
    rw [hstart]
    split
    · rename_i hlate
      exact ⟨fun _ => by omega, nofun⟩
    · refine ⟨nofun, fun target ht => ?_⟩
      cases ht
      rfl
  · show x.tickDurations ++ [now - tickStart] =
      (List.range (x.tickDurations ++ [now - tickStart]).length).map fun i =>
        Function.update x.ends x.finished now i - x.starts i
    rw [hlength, List.range_succ, List.map_append, List.map_singleton, hself, hstart]
    congr 1
    rw [h.durations]
    apply told_congr
    intro i hi
    rw [hother i hi]
    rfl
  · show x.tickLags ++ [max 0 (now - (tickStart + period))] =
      (List.range (x.tickDurations ++ [now - tickStart]).length).map fun i =>
        max 0 (Function.update x.ends x.finished now i - (x.starts i + period))
    rw [hlength, List.range_succ, List.map_append, List.map_singleton, hself, hstart]
    congr 1
    rw [h.lags]
    apply told_congr
    intro i hi
    rw [hother i hi]
    rfl

theorem GameLoop.Timed.logic (h : x.Timed period) (hclock : x.clock ≤ now)
    (hs : LoopStep period x now y) : y.Timed period := by
  cases hs with
  | begin hpc _ => exact h.begin hclock hpc
  | finish hpc _ => exact h.finish hclock hpc
  | wake hpc hwake =>
    refine h.keep hclock rfl rfl rfl rfl rfl ?_ ?_
    · rw [hpc]
      rfl
    · intro i hi
      have htarget := (h.due i hi).2 _ hpc
      exact ⟨fun _ => htarget ▸ hwake, nofun⟩
  | leave hpc _ | drain hpc | take hpc _ | exit hpc _ | skip hpc | dispatch hpc
  | dispatched hpc =>
    refine h.keep hclock rfl rfl rfl rfl rfl ?_ fun i _ => ⟨nofun, nofun⟩
    rw [hpc]
    rfl

theorem GameLoop.Timed.step {l : LoopLabel} (h : x.Timed period)
    (hs : x.step period l = some y) : y.Timed period := by
  cases l with
  | push cmd =>
    obtain ⟨hclock, -, rfl⟩ := step_push hs
    refine h.keep hclock rfl rfl rfl rfl rfl rfl ?_
    intro i hi
    exact ⟨fun hpc => ((h.due i hi).1 hpc).trans hclock, (h.due i hi).2⟩
  | requestStop =>
    cases hs
    exact h.keep (Int.le_refl _) rfl rfl rfl rfl rfl rfl h.due
  | logic now =>
    obtain ⟨hclock, hstep⟩ := step_logic hs
    exact h.logic hclock hstep

theorem timed_of_reach (h : (gameLoop period).Reach System.always x) : x.Timed period := by
  refine h.invariant (I := GameLoop.Timed period) ?_ fun _ hi _ hs => hi.step hs
  refine ⟨rfl, nofun, nofun, nofun, nofun, nofun, rfl, rfl⟩

end

/-- **No tick is early, and no lag is made up for.** The callbacks are told how long each tick took
and by how much it overran, and from one tick to a later one there is a period for each tick and
all that was reported as lag. -/
theorem lag_never_made_up (period : Int) {x : GameLoop}
    (h : (gameLoop period).Reach System.always x) :
    x.tickDurations = (List.range x.finished).map x.duration ∧
      x.tickLags = (List.range x.finished).map (x.lag period) ∧
      (∀ i < x.finished, 0 ≤ x.duration i) ∧
      ∀ i j, i ≤ j → j < x.started →
        x.starts i + (j - i : Nat) * period + ∑ k ∈ Finset.Ico i j, x.lag period k ≤
          x.starts j := by
  have ht := timed_of_reach h
  refine ⟨ht.durations, ht.lags, ?_, ?_⟩
  · intro i hi
    have := (ht.ended i hi).1
    unfold GameLoop.duration
    omega
  · intro i j hij
    -- the induction is on the later tick
    induction j, hij using Nat.le_induction with
    | base => simp
    | succ j hij ih =>
      intro hj
      have hbefore := ih (by omega)
      obtain ⟨hperiod, hend⟩ := ht.spaced j hj
      have hone : x.starts j + period + x.lag period j ≤ x.starts (j + 1) := by
        unfold GameLoop.lag
        omega
      have hcount : ((j + 1 - i : Nat) : Int) * period = (j - i : Nat) * period + period := by
        rw [Nat.succ_sub hij]
        push_cast
        rw [Int.add_mul, Int.one_mul]
      rw [Finset.sum_Ico_succ_top hij, hcount]
      omega

/-! ## The commands -/

/-- Whether the tick under way has drained the queue. -/
def LoopPc.drained : LoopPc → Nat
  | .process (some _) | .parse (some _) _ | .dispatch (some _) _ => 1
  | _ => 0

/-- Between two ticks. -/
def LoopPc.between : LoopPc → Bool
  | .check | .sleepUntil _ => true
  | _ => false

namespace GameLoop

/-- What is known of a command: it came behind the beginnings of so many ticks. -/
structure Came (x : GameLoop) (n : Nat) (cmd : TimedCommand) : Prop where
  enqueued : cmd.enqueuedAtNs ≤ cmd.pushedAt
  past : cmd.pushedAt ≤ x.clock
  behind : ∀ i < n, x.starts i ≤ cmd.pushedAt

/-- What is known of a command that was taken. -/
structure Took (x : GameLoop) (h : Handled) : Prop where
  enqueued : h.cmd.enqueuedAtNs ≤ h.cmd.pushedAt
  pushed : h.cmd.pushedAt ≤ h.at'
  past : h.at' ≤ x.clock
  behind : ∀ i < h.tick, x.starts i ≤ h.cmd.pushedAt
  number : h.tick ≤ x.finished
  begun : h.tick < x.started → x.starts h.tick ≤ h.at'
  ended : h.tick < x.finished → h.at' ≤ x.ends h.tick

/-- How much later a tick begins than it may behind the one with this number. -/
def late (period : Int) (x : GameLoop) (i : Nat) : Int :=
  x.starts (i + 1) - max (x.starts i + period) (x.ends i)

end GameLoop

/-- The wait that the callback is told of. -/
def Handled.wait (h : Handled) : Option Int :=
  if h.cmd.enqueuedAtNs > 0 then some (h.at' - h.cmd.enqueuedAtNs) else none

/-- Where the commands are, and when they came there. -/
structure GameLoop.Waited (x : GameLoop) : Prop where
  queue : ∀ cmd ∈ x.queue, x.Came (x.finished + x.pc.drained) cmd
  batch : ∀ cmd ∈ x.batch, x.Came x.finished cmd
  handled : ∀ h ∈ x.handled, x.Took h
  settled : x.pc.between = true → ∀ h ∈ x.handled, h.tick < x.finished
  waits : x.queueWaits = x.handled.filterMap Handled.wait

section
variable {period now : Int} {x y : GameLoop} {m n : Nat} {cmd : TimedCommand} {c : Handled}

theorem GameLoop.Came.later (h : x.Came n cmd) (hclock : x.clock ≤ y.clock)
    (hstarts : ∀ i < m, y.starts i = x.starts i) (hm : m ≤ n) : y.Came m cmd := by
  refine ⟨h.enqueued, h.past.trans hclock, fun i hi => ?_⟩
  rw [hstarts i hi]
  exact h.behind i (by omega)

theorem GameLoop.Took.later (h : x.Took c) (hclock : x.clock ≤ y.clock)
    (hstarted : y.started = x.started) (hstarts : y.starts = x.starts) (hends : y.ends = x.ends)
    (hfinished : y.finished = x.finished) : y.Took c := by
  refine ⟨h.enqueued, h.pushed, h.past.trans hclock, ?_, ?_, ?_, ?_⟩
  · rw [hstarts]
    exact h.behind
  · rw [hfinished]
    exact h.number
  · rw [hstarted, hstarts]
    exact h.begun
  · rw [hfinished, hends]
    exact h.ended

/-- A tick has drained no more than it has begun. -/
theorem LoopPc.drained_le (pc : LoopPc) : pc.drained ≤ if pc.tick.isSome then 1 else 0 := by
  cases pc with
  | process tick => cases tick <;> simp [drained, tick]
  | parse tick _ => cases tick <;> simp [drained, tick]
  | dispatch tick _ => cases tick <;> simp [drained, tick]
  | _ => simp [drained]

/-- The time goes on, and the commands are where they were. -/
theorem GameLoop.Waited.keep (h : x.Waited) (hclock : x.clock ≤ y.clock)
    (hstarted : y.started = x.started) (hstarts : y.starts = x.starts) (hends : y.ends = x.ends)
    (hdurations : y.tickDurations = x.tickDurations) (hqueue : y.queue = x.queue)
    (hbatch : y.batch = x.batch) (hhandled : y.handled = x.handled)
    (hwaits : y.queueWaits = x.queueWaits) (hdrained : y.pc.drained = x.pc.drained)
    (hbetween : y.pc.between = true → x.pc.between = true) : y.Waited := by
  have hfinished : y.finished = x.finished := by rw [finished, finished, hdurations]
  have hsame : ∀ (m : Nat), ∀ i < m, y.starts i = x.starts i := by
    intro m i _
    rw [hstarts]
  refine ⟨?_, ?_, ?_, ?_, ?_⟩
  · intro cmd hcmd
    rw [hqueue] at hcmd
    rw [hfinished, hdrained]
    exact (h.queue cmd hcmd).later hclock (hsame _) (Nat.le_refl _)
  · intro cmd hcmd
    rw [hbatch] at hcmd
    rw [hfinished]
    exact (h.batch cmd hcmd).later hclock (hsame _) (Nat.le_refl _)
  · intro c hc
    rw [hhandled] at hc
    exact (h.handled c hc).later hclock hstarted hstarts hends hfinished
  · intro hpc
    rw [hhandled, hfinished]
    exact h.settled (hbetween hpc)
  · rw [hwaits, hhandled]
    exact h.waits

theorem GameLoop.Waited.push (h : x.Waited) (ht : x.Timed period)
    (hclock : x.clock ≤ cmd.pushedAt) (henqueued : cmd.enqueuedAtNs ≤ cmd.pushedAt) :
    GameLoop.Waited { x with clock := cmd.pushedAt, queue := x.queue ++ [cmd] } := by
  refine ⟨?_, ?_, ?_, h.settled, h.waits⟩
  · intro other hother
    rcases List.mem_append.mp hother with hother | hother
    · exact (h.queue other hother).later hclock (fun _ _ => rfl) (Nat.le_refl _)
    · rw [List.mem_singleton.mp hother]
      refine ⟨henqueued, Int.le_refl _, fun i hi => ?_⟩
      have hi : i < x.finished + x.pc.drained := hi
      have hdrained := x.pc.drained_le
      have hcount := ht.count
      exact (ht.past i (by omega)).trans hclock
  · intro other hother
    exact (h.batch other hother).later hclock (fun _ _ => rfl) (Nat.le_refl _)
  · intro c hc
    exact (h.handled c hc).later hclock rfl rfl rfl rfl

theorem GameLoop.Waited.begin (h : x.Waited) (ht : x.Timed period) (hclock : x.clock ≤ now)
    (hpc : x.pc = .check) :
    GameLoop.Waited { x with
      clock := now, pc := .drain (some now), started := x.started + 1
      starts := Function.update x.starts x.started now } := by
  have hcount : x.started = x.finished := ht.started_between (by rw [hpc]; rfl)
  have hother : ∀ i < x.finished, Function.update x.starts x.started now i = x.starts i :=
    fun i hi => Function.update_of_ne (by omega) _ _
  have hsettled : ∀ c ∈ x.handled, c.tick < x.finished := h.settled (by rw [hpc]; rfl)
  refine ⟨?_, ?_, ?_, nofun, h.waits⟩
  · intro cmd hcmd
    have hcame := h.queue cmd hcmd
    rw [hpc] at hcame
    exact hcame.later hclock hother (Nat.le_refl _)
  · intro cmd hcmd
    exact (h.batch cmd hcmd).later hclock hother (Nat.le_refl _)
  · intro c hc
    have htook := h.handled c hc
    have htick := hsettled c hc
    refine ⟨htook.enqueued, htook.pushed, htook.past.trans hclock, ?_, htook.number, ?_,
      htook.ended⟩
    · intro i hi
      show Function.update x.starts x.started now i ≤ c.cmd.pushedAt
      rw [hother i (by omega)]
      exact htook.behind i hi
    · intro _
      show Function.update x.starts x.started now c.tick ≤ c.at'
      rw [hother c.tick htick]
      exact htook.begun (by omega)

theorem GameLoop.Waited.drain {tick : Option Int} (h : x.Waited) (hclock : x.clock ≤ now)
    (hpc : x.pc = .drain tick) :
    GameLoop.Waited { x with
      clock := now, batch := x.queue, queue := [], pc := .process tick } := by
  refine ⟨nofun, ?_, ?_, nofun, h.waits⟩
  · intro cmd hcmd
    have hcame := h.queue cmd hcmd
    rw [hpc] at hcame
    exact hcame.later hclock (fun _ _ => rfl) (Nat.le_refl _)
  · intro c hc
    exact (h.handled c hc).later hclock rfl rfl rfl rfl

theorem GameLoop.Waited.take {tick : Option Int} {batch : List TimedCommand} (h : x.Waited)
    (ht : x.Timed period) (hclock : x.clock ≤ now) (hpc : x.pc = .process tick)
    (hbatch : x.batch = cmd :: batch) :
    GameLoop.Waited { x with
      clock := now, batch, pc := .parse tick cmd
      queueWaits :=
        if cmd.enqueuedAtNs > 0 then x.queueWaits ++ [now - cmd.enqueuedAtNs] else x.queueWaits
      handled := x.handled ++ [⟨cmd, now, x.finished⟩] } := by
  have hcmd : x.Came x.finished cmd := h.batch cmd (hbatch ▸ List.mem_cons_self ..)
  refine ⟨?_, ?_, ?_, nofun, ?_⟩
  · intro other hother
    have hcame := h.queue other hother
    have hdrained : (LoopPc.parse tick cmd).drained = x.pc.drained := by
      rw [hpc]
      cases tick <;> rfl
    show GameLoop.Came _ (x.finished + (LoopPc.parse tick cmd).drained) other
    rw [hdrained]
    exact hcame.later hclock (fun _ _ => rfl) (Nat.le_refl _)
  · intro other hother
    have hmem : other ∈ x.batch := hbatch ▸ List.mem_cons_of_mem _ hother
    exact (h.batch other hmem).later hclock (fun _ _ => rfl) (Nat.le_refl _)
  · intro c hc
    rcases List.mem_append.mp hc with hc | hc
    · exact (h.handled c hc).later hclock rfl rfl rfl rfl
    · rw [List.mem_singleton.mp hc]
      refine ⟨hcmd.enqueued, hcmd.past.trans hclock, Int.le_refl _, hcmd.behind, Nat.le_refl _,
        fun hstarted => ?_, fun hended => ?_⟩
      · exact (ht.past _ hstarted).trans hclock
      · exact absurd hended (Nat.lt_irrefl _)
  · show (if cmd.enqueuedAtNs > 0 then x.queueWaits ++ [now - cmd.enqueuedAtNs]
      else x.queueWaits) = (x.handled ++ [Handled.mk cmd now x.finished]).filterMap Handled.wait
    rw [List.filterMap_append, ← h.waits]
    by_cases hpos : cmd.enqueuedAtNs > 0
    · simp [Handled.wait, hpos]
    · simp [Handled.wait, hpos]

theorem GameLoop.Waited.finish {tickStart : Int} (h : x.Waited) (hclock : x.clock ≤ now)
    (hpc : x.pc = .process (some tickStart)) (hbatch : x.batch = []) :
    GameLoop.Waited { x with
      clock := now
      tickDurations := x.tickDurations ++ [now - tickStart]
      tickLags := x.tickLags ++ [max 0 (now - (tickStart + period))]
      ends := Function.update x.ends x.finished now
      pc := if tickStart + period < now then .check else .sleepUntil (tickStart + period) } := by
  have hlength : (x.tickDurations ++ [now - tickStart]).length = x.finished + 1 := by
    simp [finished]
  have hdrained : (if tickStart + period < now then LoopPc.check
      else .sleepUntil (tickStart + period)).drained = 0 := by
    split <;> rfl
  refine ⟨?_, ?_, ?_, ?_, h.waits⟩
  · intro cmd hcmd
    have hcame := h.queue cmd hcmd
    rw [hpc] at hcame
    show GameLoop.Came _ ((x.tickDurations ++ [now - tickStart]).length +
      (if tickStart + period < now then LoopPc.check
        else .sleepUntil (tickStart + period)).drained) cmd
    rw [hlength, hdrained]
    exact hcame.later hclock (fun _ _ => rfl) (Nat.le_refl _)
  · intro cmd hcmd
    have hcmd : cmd ∈ x.batch := hcmd
    rw [hbatch] at hcmd
    cases hcmd
  · intro c hc
    have htook := h.handled c hc
    have hnumber := htook.number
    refine ⟨htook.enqueued, htook.pushed, htook.past.trans hclock, htook.behind, ?_, htook.begun,
      fun _ => ?_⟩
    · show c.tick ≤ (x.tickDurations ++ [now - tickStart]).length
      omega
    · show c.at' ≤ Function.update x.ends x.finished now c.tick
      rcases Nat.lt_or_eq_of_le hnumber with hlt | heq
      · rw [Function.update_of_ne (by omega)]
        exact htook.ended hlt
      · rw [heq, Function.update_self]
        exact htook.past.trans hclock
  · intro _ c hc
    have hnumber := (h.handled c hc).number
    show c.tick < (x.tickDurations ++ [now - tickStart]).length
    omega

theorem GameLoop.Waited.logic (h : x.Waited) (ht : x.Timed period) (hclock : x.clock ≤ now)
    (hs : LoopStep period x now y) : y.Waited := by
  cases hs with
  | begin hpc _ => exact h.begin ht hclock hpc
  | drain hpc => exact h.drain hclock hpc
  | take hpc hbatch => exact h.take ht hclock hpc hbatch
  | finish hpc hbatch => exact h.finish hclock hpc hbatch
  | leave hpc _ | exit hpc _ =>
    refine h.keep hclock rfl rfl rfl rfl rfl rfl rfl rfl ?_ nofun
    rw [hpc]
    rfl
  | @skip tick _ hpc | @dispatch tick _ hpc | @dispatched tick _ hpc =>
    refine h.keep hclock rfl rfl rfl rfl rfl rfl rfl rfl ?_ nofun
    rw [hpc]
    cases tick <;> rfl
  | wake hpc _ =>
    refine h.keep hclock rfl rfl rfl rfl rfl rfl rfl rfl ?_ fun _ => ?_
    · rw [hpc]
      rfl
    · rw [hpc]
      rfl

theorem GameLoop.Waited.step {l : LoopLabel} (h : x.Waited) (ht : x.Timed period)
    (hs : x.step period l = some y) : y.Waited := by
  cases l with
  | push cmd =>
    obtain ⟨hclock, henqueued, rfl⟩ := step_push hs
    exact h.push ht hclock henqueued
  | requestStop =>
    cases hs
    exact h.keep (Int.le_refl _) rfl rfl rfl rfl rfl rfl rfl rfl rfl id
  | logic now =>
    obtain ⟨hclock, hstep⟩ := step_logic hs
    exact h.logic ht hclock hstep

theorem waited_of_reach (h : (gameLoop period).Reach System.always x) : x.Waited := by
  refine h.invariant (I := GameLoop.Waited) ?_ fun hr hi _ hs => hi.step (timed_of_reach hr) hs
  exact ⟨nofun, nofun, nofun, fun _ => nofun, rfl⟩

end

/-- **A command waits for the tick behind its own time at most.** It came no earlier than the tick
before the one that takes it, so that it waits for what is left of a period, for the lag of that
tick, for the wake-up, and for the commands before it. The callback is told of the wait. -/
theorem waits_within_two_ticks (period : Int) {x : GameLoop}
    (h : (gameLoop period).Reach System.always x) :
    x.queueWaits = x.handled.filterMap Handled.wait ∧
      ∀ c ∈ x.handled, c.cmd.enqueuedAtNs ≤ c.cmd.pushedAt ∧ c.cmd.pushedAt ≤ c.at' ∧
        ∀ n, c.tick = n + 1 → x.starts n ≤ c.cmd.pushedAt ∧
          (c.tick < x.finished → 0 ≤ x.late period n ∧ c.at' - c.cmd.pushedAt ≤
            period + x.lag period n + x.late period n + x.duration (n + 1)) := by
  have ht := timed_of_reach h
  have hw := waited_of_reach h
  refine ⟨hw.waits, fun c hc => ?_⟩
  have htook := hw.handled c hc
  refine ⟨htook.enqueued, htook.pushed, fun n hn => ?_⟩
  have hbehind := htook.behind n (by omega)
  refine ⟨hbehind, fun hended => ?_⟩
  have hend := htook.ended hended
  have hcount := ht.count
  obtain ⟨hperiod, hlast⟩ := ht.spaced n (by omega)
  rw [hn] at hend
  unfold GameLoop.late GameLoop.lag GameLoop.duration
  omega

/-- Two ticks of a period of ten: the first overruns, and a command waits for the second. -/
def twoTicks : List LoopLabel :=
  [.logic 100, .logic 101, .push ⟨102, true, 103⟩, .logic 115, .logic 117, .logic 118, .logic 119,
   .logic 120, .logic 121, .logic 122]

theorem lag_never_made_up_twice : ∃ x, (gameLoop 10).Reach System.always x ∧ x.finished = 2 ∧
    x.tickLags = [5, 0] ∧
    x.starts 0 + (1 - 0 : Nat) * 10 + ∑ k ∈ Finset.Ico 0 1, x.lag 10 k ≤ x.starts 1 := by
  obtain ⟨x, hr, hx⟩ := System.reach_of_exec (gameLoop 10) System.always twoTicks
    (fun x => x.finished == 2 && x.started == 2 && x.tickLags == [5, 0]) (by decide +kernel)
  simp only [Bool.and_eq_true, beq_iff_eq] at hx
  exact ⟨x, hr, hx.1.1, hx.2, (lag_never_made_up 10 hr).2.2.2 0 1 (by decide) (by omega)⟩

/-- The command as it is taken. -/
def waiting : Handled := ⟨⟨102, true, 103⟩, 119, 1⟩

theorem waits_within_two_ticks_once : ∃ x c, (gameLoop 10).Reach System.always x ∧
    x.queueWaits = [17] ∧ c ∈ x.handled ∧ c.tick = 1 ∧
    c.at' - c.cmd.pushedAt ≤ 10 + x.lag 10 0 + x.late 10 0 + x.duration 1 := by
  obtain ⟨x, hr, hx⟩ := System.reach_of_exec (gameLoop 10) System.always twoTicks
    (fun x => x.finished == 2 && x.queueWaits == [17] && x.handled == [waiting])
    (by decide +kernel)
  simp only [Bool.and_eq_true, beq_iff_eq] at hx
  have hmem : waiting ∈ x.handled := by
    rw [hx.2]
    exact List.mem_singleton_self _
  refine ⟨x, waiting, hr, hx.1.2, hmem, rfl, ?_⟩
  have hbound := ((waits_within_two_ticks 10 hr).2 _ hmem).2.2 0 rfl
  exact (hbound.2 (by rw [hx.1.1]; decide)).2

end Highp.Chat
