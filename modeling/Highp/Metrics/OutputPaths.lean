import Highp.Lib.Path
import Highp.Metrics.Environment

/-! The directory that the metrics of a run are written to, and the output root. -/

namespace Highp.Metrics
open Highp.Lib

/-- The manifest behind `ResolveRunId`. -/
def RunManifest.resolved (manifest : RunManifest) (config : MetricsConfig) (platform : Platform)
    (now : Int) : RunManifest :=
  { manifest with runId := config.resolveRunId platform now }

/-- Metrics are written inside the output root: in a directory that is the root with one ordinary
name behind it, and that is what it is in its normal form too. -/
structure Inside (outputRoot outputDirectory : Text) : Prop where
  extended : ∃ name, Path.Ordinary name ∧ outputDirectory = joinPath outputRoot name
  child : (Path.location outputDirectory).ChildOf (Path.location outputRoot)
  below : (Path.location outputDirectory).Below (Path.location outputRoot)

/-! ## `SanitizePathComponent` -/

theorem invalid_of_special {ch : Char} (h : Path.isSlash ch = true ∨ ch = ':' ∨ ch = '?') :
    invalidInPath ch = true := by
  simp only [Path.isSlash, Bool.or_eq_true, beq_iff_eq] at h
  rcases h with (rfl | rfl) | rfl | rfl <;> rfl

/-- No separators and no marks of a root name are left. -/
theorem plain_sanitize (value : Text) : ∀ ch ∈ sanitizePathComponent value,
    Path.isSlash ch = false ∧ ch ≠ ':' ∧ ch ≠ '?' := by
  intro ch hch
  obtain ⟨c, _, rfl⟩ := List.mem_map.mp hch
  cases hc : invalidInPath c with
  | true =>
    rw [if_pos rfl]
    decide
  | false =>
    rw [if_neg (by simp)]
    refine ⟨Bool.eq_false_iff.mpr fun h => ?_, fun h => ?_, fun h => ?_⟩
    · exact absurd (invalid_of_special (.inl h)) (by simp [hc])
    · exact absurd (invalid_of_special (.inr (.inl h))) (by simp [hc])
    · exact absurd (invalid_of_special (.inr (.inr h))) (by simp [hc])

theorem sanitize_ne_nil {value : Text} (h : value ≠ []) : sanitizePathComponent value ≠ [] :=
  fun hnil => h (List.map_eq_nil_iff.mp hnil)

/-- A text that needs no change comes from itself alone. -/
theorem sanitize_eq_iff {value text : Text}
    (htext : (text.all fun ch => ch != '_' && !invalidInPath ch) = true) :
    sanitizePathComponent value = text ↔ value = text := by
  have h : ∀ ch ∈ text, ch ≠ '_' ∧ invalidInPath ch = false := by simpa using htext
  constructor
  · rintro rfl
    have hsame : ∀ ch ∈ value, (if invalidInPath ch then '_' else ch) = ch := by
      intro ch hch
      by_cases hi : invalidInPath ch = true
      · have hmem : '_' ∈ sanitizePathComponent value := List.mem_map.mpr ⟨ch, hch, if_pos hi⟩
        exact absurd rfl (h '_' hmem).1
      · exact if_neg hi
    exact ((List.map_congr_left hsame).trans (List.map_id _)).symm
  · rintro rfl
    refine (List.map_congr_left fun ch hch => ?_).trans (List.map_id _)
    rw [(h ch hch).2]
    rfl

theorem sanitize_eq_dot {value : Text} :
    sanitizePathComponent value = Path.dot ↔ value = Path.dot :=
  sanitize_eq_iff rfl

theorem sanitize_eq_dotDot {value : Text} :
    sanitizePathComponent value = Path.dotDot ↔ value = Path.dotDot :=
  sanitize_eq_iff rfl

/-! ## The run id -/

section
variable (config : MetricsConfig) (platform : Platform) (now : Int)

theorem resolveRunId_ne_nil : config.resolveRunId platform now ≠ [] := by
  unfold MetricsConfig.resolveRunId
  split
  · rename_i h
    exact sanitize_ne_nil h
  · simp

/-- A time stamp is longer than the names that lead elsewhere. -/
theorem resolveRunId_eq_iff {name : Text} (hname : name = Path.dot ∨ name = Path.dotDot) :
    config.resolveRunId platform now = name ↔ config.runId = name := by
  unfold MetricsConfig.resolveRunId
  split
  · rcases hname with rfl | rfl
    · exact sanitize_eq_dot
    · exact sanitize_eq_dotDot
  · rename_i hempty
    rw [not_not] at hempty
    have hmem : 'p' ∈ formatCompactTimestamp platform now ++ ['-', 'p'] ++
        digits platform.getCurrentProcessId := by simp
    constructor
    · rintro rfl
      rcases hname with hdot | hdot
      · rw [hdot] at hmem
        exact absurd hmem (by decide)
      · rw [hdot] at hmem
        exact absurd hmem (by decide)
    · rintro rfl
      rcases hname with hdot | hdot
      · rw [hempty] at hdot
        cases hdot
      · rw [hempty] at hdot
        cases hdot

theorem outputDirectory_resolved (manifest : RunManifest) :
    (manifest.resolved config platform now).outputDirectory =
      joinPath manifest.outputRoot (sanitizePathComponent (config.resolveRunId platform now)) := by
  rw [RunManifest.outputDirectory, RunManifest.resolved,
    if_neg (resolveRunId_ne_nil config platform now)]

/-- The directory of a run is inside unless the run id leads elsewhere or the output root becomes
a root name. -/
theorem inside_iff (manifest : RunManifest) :
    Inside manifest.outputRoot (manifest.resolved config platform now).outputDirectory ↔
      config.runId ≠ Path.dot ∧ config.runId ≠ Path.dotDot ∧
        Path.becomesRoot manifest.outputRoot = false := by
  have hplain := plain_sanitize (config.resolveRunId platform now)
  have hne := sanitize_ne_nil (resolveRunId_ne_nil config platform now)
  have hchild := Path.childOf_join_iff manifest.outputRoot hplain hne
  have hdot : sanitizePathComponent (config.resolveRunId platform now) = Path.dot ↔
      config.runId = Path.dot := sanitize_eq_dot.trans (resolveRunId_eq_iff _ _ _ (.inl rfl))
  have hdotDot : sanitizePathComponent (config.resolveRunId platform now) = Path.dotDot ↔
      config.runId = Path.dotDot :=
    sanitize_eq_dotDot.trans (resolveRunId_eq_iff _ _ _ (.inr rfl))
  rw [outputDirectory_resolved, Ne, Ne, ← hdot, ← hdotDot]
  constructor
  · intro h
    exact hchild.mp h.child
  · intro h
    have hc := hchild.mpr h
    exact ⟨⟨_, ⟨hne, h.1, h.2.1, hplain⟩, rfl⟩, hc, hc.below⟩

end

theorem runId_fromEnvironment {env : Environment} {name : Text}
    (hname : name = Path.dot ∨ name = Path.dotDot) :
    (MetricsConfig.fromEnvironment env).runId = name ↔
      readEnv env "HIGHP_METRICS_RUN_ID" = some name := by
  unfold MetricsConfig.fromEnvironment
  cases readEnv env "HIGHP_METRICS_RUN_ID" with
  | none => rcases hname with rfl | rfl <;> simp [Path.dot, Path.dotDot]
  | some value =>
    rw [Option.some.injEq]
    rcases hname with rfl | rfl
    · exact sanitize_eq_dot
    · exact sanitize_eq_dotDot

/-- **The directory of a run is inside the output root** exactly when its id, whether configured
or taken from the environment, is not one of the two names that lead elsewhere, and the output
root is no path that becomes a root name. -/
theorem output_inside_iff (platform : Platform) (manifest : RunManifest) (now : Int) :
    (∀ config : MetricsConfig,
      Inside manifest.outputRoot (manifest.resolved config platform now).outputDirectory ↔
        config.runId ≠ Path.dot ∧ config.runId ≠ Path.dotDot ∧
          Path.becomesRoot manifest.outputRoot = false) ∧
    ∀ env : Environment,
      Inside manifest.outputRoot (manifest.resolved (MetricsConfig.fromEnvironment env) platform
        now).outputDirectory ↔
        readEnv env "HIGHP_METRICS_RUN_ID" ≠ some Path.dot ∧
          readEnv env "HIGHP_METRICS_RUN_ID" ≠ some Path.dotDot ∧
          Path.becomesRoot manifest.outputRoot = false := by
  refine ⟨fun config => inside_iff config platform now manifest, fun env => ?_⟩
  rw [inside_iff, Ne, Ne, runId_fromEnvironment (.inl rfl), runId_fromEnvironment (.inr rfl)]

/-- The directory of a run whose id is the only variable that is set. -/
def runDirectory (runId : Text) : Text :=
  let config := MetricsConfig.fromEnvironment fun name =>
    if name = "HIGHP_METRICS_RUN_ID".toList then some runId else none
  (RunManifest.resolved ⟨[], [], config.outputRoot, none, none⟩ config ⟨fun _ _ => [], 0⟩
    0).outputDirectory

/-- **Metrics outside of the output root**: with the run id `..` they are written to the directory
above it, and with `.` to the output root itself. -/
theorem outside_output_root :
    ¬ Inside "artifacts/load-tests".toList (runDirectory "..".toList) ∧
      ¬ Inside "artifacts/load-tests".toList (runDirectory ".".toList) ∧
      Path.location (runDirectory "..".toList) = Path.location "artifacts".toList ∧
      Path.location (runDirectory ".".toList) = Path.location "artifacts/load-tests".toList := by
  refine ⟨fun h => ?_, fun h => ?_, by decide, by decide⟩
  · exact absurd h.below.2.2.1 (by decide)
  · exact h.below.2.2.2 (by decide)

end Highp.Metrics
