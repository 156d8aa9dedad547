import Highp.Metrics.Fates
import Highp.Metrics.Writer

/-! What the configurations of the metrics take from the environment. -/

namespace Highp.Metrics
open Highp.Client

/-! ## `ServerMetricsSupport` -/

/-- `std::isspace` of the locale "C". -/
def isSpace (ch : Char) : Bool := ch == ' ' || (decide (9 ≤ ch.toNat) && decide (ch.toNat ≤ 13))

def trim (value : Text) : Text := (value.dropWhile isSpace).rdropWhile isSpace

/-- `std::tolower` of the locale "C". -/
def toLower (value : Text) : Text := value.map Char.toLower

def parseBool (value : Text) (fallback : Bool) : Bool :=
  let value := toLower (trim value)
  if value = [] then fallback
  else if value = "1".toList ∨ value = "true".toList ∨ value = "yes".toList ∨ value = "on".toList
  then true
  else if value = "0".toList ∨ value = "false".toList ∨ value = "no".toList ∨ value = "off".toList
  then false
  else fallback

/-- `std::from_chars` of a `uint64_t`: the longest run of digits, and what follows it. -/
def fromChars (value : Text) : Option (Nat × Text) :=
  let run := value.takeWhile Char.isDigit
  let parsed := run.foldl (fun n ch => 10 * n + (ch.toNat - 48)) 0
  if run = [] ∨ 2 ^ 64 ≤ parsed then none else some (parsed, value.dropWhile Char.isDigit)

def parseUnsigned (value : Text) (fallback : Nat) : Nat :=
  let value := trim value
  if value = [] then fallback
  else
    match fromChars value with
    | some (parsed, []) => parsed
    | _ => fallback

/-- The variables of the environment that are set. -/
abbrev Environment := Text → Option Text

/-- `ReadEnv`; a blank variable counts as one that is not set. -/
def readEnv (env : Environment) (name : String) : Option Text :=
  match env name.toList with
  | none => none
  | some result => if trim result = [] then none else some (trim result)

def readEnvPath (env : Environment) (name : String) : Text := (readEnv env name).getD []

/-! ## `FromEnvironment` -/

/-- What both configurations read. -/
def MetricsConfig.fromEnvironment (env : Environment) : MetricsConfig :=
  let outputRoot := readEnvPath env "HIGHP_METRICS_OUTPUT_ROOT"
  { enabled := ((readEnv env "HIGHP_METRICS_ENABLED").map fun value => parseBool value true).getD
      true
    outputRoot := if outputRoot = [] then "artifacts/load-tests".toList else outputRoot
    runId := ((readEnv env "HIGHP_METRICS_RUN_ID").map sanitizePathComponent).getD [] }

/-- `ClientMetricsConfig`, with a timeout in milliseconds. -/
structure ClientMetricsConfig extends MetricsConfig where
  responseTimeout : Int

def ClientMetricsConfig.fromEnvironment (env : Environment) : ClientMetricsConfig :=
  { MetricsConfig.fromEnvironment env with
    responseTimeout :=
      match readEnv env "HIGHP_CLIENT_METRICS_RESPONSE_TIMEOUT_MS" with
      | some value => (min (parseUnsigned value 3000) (2 ^ 63 - 1) : Nat)
      | none => 3000 }

/-- The number that a text is, blanks around it apart. -/
def number (value : Text) : Option Nat :=
  match fromChars (trim value) with
  | some (parsed, []) => some parsed
  | _ => none

theorem parseUnsigned_eq (value : Text) (fallback : Nat) :
    parseUnsigned value fallback = (number value).getD fallback := by
  unfold parseUnsigned number
  by_cases h : trim value = []
  · rw [if_pos h, h]
    rfl
  · simp only [if_neg h]
    rcases fromChars (trim value) with _ | ⟨parsed, _ | ⟨ch, rest⟩⟩ <;> rfl

/-! ## The response timeout -/

/-- The number in the variable for the timeout, if there is one. -/
def timeoutVariable (env : Environment) : Option Nat :=
  (readEnv env "HIGHP_CLIENT_METRICS_RESPONSE_TIMEOUT_MS").bind number

theorem responseTimeout_eq (env : Environment) :
    (ClientMetricsConfig.fromEnvironment env).responseTimeout =
      (min ((timeoutVariable env).getD 3000) (2 ^ 63 - 1) : Nat) := by
  unfold ClientMetricsConfig.fromEnvironment timeoutVariable
  cases readEnv env "HIGHP_CLIENT_METRICS_RESPONSE_TIMEOUT_MS" with
  | none => rfl
  | some value => simp only [parseUnsigned_eq, Option.bind_some]

/-- What a deadline should be: it is never reached without a timeout, and otherwise it is no
earlier than the timeout asks, or the largest there is, and no remainder of a sum that is too
large for its type. -/
structure InFuture (now timeout deadline : Nat) : Prop where
  zero : timeout = 0 → deadline = 0
  ahead : timeout ≠ 0 → now + timeout * 1000000 ≤ deadline ∨
    (deadline = 2 ^ 64 - 1 ∨ deadline = 2 ^ 63 - 1) ∧ now < deadline
  exact : ¬ (deadline < now + timeout * 1000000 ∧
    deadline % 2 ^ 64 = (now + timeout * 1000000) % 2 ^ 64)

/-- The deadline in exact numbers: the cast to `uint64_t` makes up for the signed product. -/
theorem deadlineNs_pendingOf (tracking : RequestTracking) (timeout now : Nat) :
    (pendingOf tracking timeout now).deadlineNs =
      if timeout * 1000000 % 2 ^ 64 = 0 then 0 else (now + timeout * 1000000) % 2 ^ 64 := by
  have hcast : ((timeout : Int) * 1000000 % 2 ^ 64).toNat = timeout * 1000000 % 2 ^ 64 := by
    have h : (timeout : Int) * 1000000 % 2 ^ 64 = ((timeout * 1000000 % 2 ^ 64 : Nat) : Int) := by
      simp only [Int.natCast_emod, Int.natCast_mul, Int.natCast_pow, Int.cast_ofNat_Int]
    rw [h, Int.toNat_natCast]
  have hns : (if (timeout : Int) > 0 then timeout * 1000000 % 2 ^ 64 else 0) =
      timeout * 1000000 % 2 ^ 64 := by
    by_cases hz : timeout = 0
    · simp [hz]
    · have hpos : (timeout : Int) > 0 := by omega
      rw [if_pos hpos]
  simp only [pendingOf, hcast, hns]
  by_cases hr : timeout * 1000000 % 2 ^ 64 = 0
  · rw [if_pos hr, hr, if_neg (Nat.lt_irrefl 0)]
  · rw [if_neg hr, if_pos (Nat.pos_of_ne_zero hr), Nat.add_mod_mod]

theorem inFuture_pendingOf (tracking : RequestTracking) (timeout : Nat) {now : Nat}
    (hnow : now < 2 ^ 62) :
    InFuture now timeout (pendingOf tracking timeout now).deadlineNs ↔
      timeout = 0 ∨ now + timeout * 1000000 < 2 ^ 64 := by
  rw [deadlineNs_pendingOf]
  constructor
  · intro h
    by_contra hc
    obtain ⟨hz, hlarge⟩ : timeout ≠ 0 ∧ 2 ^ 64 ≤ now + timeout * 1000000 := by omega
    by_cases hr : timeout * 1000000 % 2 ^ 64 = 0
    · have ha := h.ahead hz
      rw [if_pos hr] at ha
      rcases ha with ha | ⟨_, ha⟩
      · exact absurd (Nat.le_trans hlarge ha) (by decide)
      · exact absurd ha (Nat.not_lt_zero now)
    · -- the sum is cut to 64 bits, so it comes out earlier than it is
      have he := h.exact
      rw [if_neg hr, Nat.mod_mod] at he
      exact he ⟨Nat.lt_of_lt_of_le (Nat.mod_lt _ (by decide)) hlarge, rfl⟩
  · intro h
    by_cases hz : timeout = 0
    · subst hz
      rw [Nat.zero_mul, Nat.zero_mod, if_pos rfl]
      exact ⟨fun _ => rfl, fun h => absurd rfl h, by omega⟩
    · have hfit := h.resolve_left hz
      have hr : timeout * 1000000 % 2 ^ 64 = timeout * 1000000 :=
        Nat.mod_eq_of_lt (Nat.lt_of_le_of_lt (Nat.le_add_left _ _) hfit)
      rw [hr, if_neg (by omega), Nat.mod_eq_of_lt hfit]
      exact ⟨fun h => absurd h hz, fun _ => .inl (Nat.le_refl _), fun h => Nat.lt_irrefl _ h.1⟩

/-- The clamp keeps the condition on the variable: what it changes is too large anyway. -/
theorem clamped_iff (value : Nat) {now : Nat} (hnow : now < 2 ^ 62) :
    min value (2 ^ 63 - 1) = 0 ∨ now + min value (2 ^ 63 - 1) * 1000000 < 2 ^ 64 ↔
      value = 0 ∨ now + value * 1000000 < 2 ^ 64 := by
  omega

/-- What `TrackRequest` stores can be found. -/
theorem AtomicClientMetrics.find_trackRequest (m : AtomicClientMetrics)
    {tracking : RequestTracking} (h : Tracks tracking) (timeout : Int) (now : Nat) :
    (m.trackRequest tracking timeout now).find tracking.sequence =
      some (pendingOf tracking timeout now) := by
  rw [trackRequest_eq, if_pos h, find, List.lookup_cons, beq_self_eq_true]

/-- **When a deadline lies in the future.** The variable is not set, or it holds no number, or
the number is 0 or small enough for the deadline to fit. -/
theorem deadline_inFuture_iff (env : Environment) (m : AtomicClientMetrics)
    (tracking : RequestTracking) (now : Nat) (htracks : Tracks tracking) (hnow : now < 2 ^ 62) :
    ∃ (timeout : Nat) (request : PendingRequest),
      (ClientMetricsConfig.fromEnvironment env).responseTimeout = timeout ∧
      (m.trackRequest tracking (ClientMetricsConfig.fromEnvironment env).responseTimeout now).find
        tracking.sequence = some request ∧
      (InFuture now timeout request.deadlineNs ↔
        ∀ value, timeoutVariable env = some value →
          value = 0 ∨ now + value * 1000000 < 2 ^ 64) := by
  refine ⟨_, _, responseTimeout_eq env, m.find_trackRequest htracks _ _, ?_⟩
  rw [responseTimeout_eq, inFuture_pendingOf tracking _ hnow, clamped_iff _ hnow]
  cases timeoutVariable env with
  | none =>
    simp only [Option.getD_none]
    exact ⟨fun _ _ h => absurd h (by simp), fun _ => .inr (by omega)⟩
  | some value =>
    simp only [Option.getD_some, Option.some.injEq]
    exact ⟨fun h _ hv => hv ▸ h, fun h => h value rfl⟩

/-- An environment in which only the timeout is set. -/
def timeoutEnvironment (value : String) : Environment := fun name =>
  if name = "HIGHP_CLIENT_METRICS_RESPONSE_TIMEOUT_MS".toList then some value.toList else none

/-- Five seconds. -/
theorem deadline_inFuture_five_seconds :
    timeoutVariable (timeoutEnvironment " 5000 ") = some 5000 ∧
    ∃ (timeout : Nat) (request : PendingRequest),
      (ClientMetricsConfig.fromEnvironment (timeoutEnvironment " 5000 ")).responseTimeout =
        timeout ∧
      (AtomicClientMetrics.new.trackRequest ⟨7, .scJoinedRoom⟩
        (ClientMetricsConfig.fromEnvironment
          (timeoutEnvironment " 5000 ")).responseTimeout 5).find 7 = some request ∧
      InFuture 5 timeout request.deadlineNs := by
  have hvalue : timeoutVariable (timeoutEnvironment " 5000 ") = some 5000 := by decide +kernel
  obtain ⟨timeout, request, ht, hf, h⟩ := deadline_inFuture_iff (timeoutEnvironment " 5000 ")
    AtomicClientMetrics.new ⟨7, .scJoinedRoom⟩ 5 (by decide) (by decide)
  refine ⟨hvalue, timeout, request, ht, hf, h.mpr fun value hv => ?_⟩
  rw [hvalue, Option.some.injEq] at hv
  subst hv
  decide

/-- The largest timeout that is let through, with a clock at one second: the request is over
before it was sent. -/
theorem clamped_timeout_expires :
    (ClientMetricsConfig.fromEnvironment
      (timeoutEnvironment "9223372036854775807")).responseTimeout = 9223372036854775807 ∧
    (AtomicClientMetrics.new.trackRequest ⟨7, .scJoinedRoom⟩ 9223372036854775807
      1000000000).find 7 = some ⟨.scJoinedRoom, 1000000000, 999000000⟩ ∧
    ¬ InFuture 1000000000 9223372036854775807 999000000 := by
  refine ⟨by decide +kernel, by decide +kernel, ?_⟩
  intro h
  exact absurd (h.ahead (by decide)) (by decide)

end Highp.Metrics
