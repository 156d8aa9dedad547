import Highp.Lib.Json
import Highp.Metrics.Writer

/-! `RunManifest::ToJson`, and what a reader of JSON makes of it. -/

namespace Highp.Metrics
open Highp.Lib

/-- `RunManifest` with all its fields. -/
structure FullManifest extends RunManifest where
  scenarioName : Text
  gitCommit : Text
  gitBranch : Text
  buildType : Text
  machineInfo : Text
  targetHost : Text
  targetPort : UInt16
  plannedClients : Int32
  messageSizeBytes : Int32
  sendIntervalMs : Int32
  durationSec : Int32
  deriving DecidableEq

/-- `"  \"name\": "`. -/
def memberName (name : String) : Text := "  ".toList ++ quoted name.toList ++ ": ".toList

def stringLine (name : String) (value : Text) : Text :=
  memberName name ++ quoted (jsonEscape value) ++ [',', '\n']

def numberLine (name : String) (value : Text) : Text := memberName name ++ value ++ [',', '\n']

/-- A time that is not there is an empty string. -/
def utcTime (platform : Platform) (time : Option Int) : Text :=
  (time.map (formatUtcTime platform)).getD []

namespace FullManifest

def toJson (manifest : FullManifest) (platform : Platform) : Text :=
  ['\x7b', '\n'] ++
  stringLine "run_id" manifest.runId ++
  stringLine "scenario_name" manifest.scenarioName ++
  stringLine "server_name" manifest.serverName ++
  stringLine "git_commit" manifest.gitCommit ++
  stringLine "git_branch" manifest.gitBranch ++
  stringLine "build_type" manifest.buildType ++
  stringLine "machine_info" manifest.machineInfo ++
  stringLine "target_host" manifest.targetHost ++
  stringLine "output_root" manifest.outputRoot ++
  stringLine "output_dir" manifest.outputDirectory ++
  stringLine "started_at" (utcTime platform manifest.startedAt) ++
  stringLine "finished_at" (utcTime platform manifest.finishedAt) ++
  numberLine "target_port" (digits manifest.targetPort.toNat) ++
  numberLine "planned_clients" (signed manifest.plannedClients.toInt) ++
  numberLine "message_size_bytes" (signed manifest.messageSizeBytes.toInt) ++
  numberLine "send_interval_ms" (signed manifest.sendIntervalMs.toInt) ++
  (memberName "duration_sec" ++ signed manifest.durationSec.toInt ++ ['\n']) ++
  ['\x7d', '\n']

/-- The strings that are stored. -/
def texts (manifest : FullManifest) : List (String × Text) :=
  [("run_id", manifest.runId), ("scenario_name", manifest.scenarioName),
    ("server_name", manifest.serverName), ("git_commit", manifest.gitCommit),
    ("git_branch", manifest.gitBranch), ("build_type", manifest.buildType),
    ("machine_info", manifest.machineInfo), ("target_host", manifest.targetHost),
    ("output_root", manifest.outputRoot)]

/-- What is computed. -/
def computed (manifest : FullManifest) (platform : Platform) : List (String × Text) :=
  [("output_dir", manifest.outputDirectory),
    ("started_at", utcTime platform manifest.startedAt),
    ("finished_at", utcTime platform manifest.finishedAt)]

def numbers (manifest : FullManifest) : List (String × Text) :=
  [("target_port", digits manifest.targetPort.toNat),
    ("planned_clients", signed manifest.plannedClients.toInt),
    ("message_size_bytes", signed manifest.messageSizeBytes.toInt),
    ("send_interval_ms", signed manifest.sendIntervalMs.toInt),
    ("duration_sec", signed manifest.durationSec.toInt)]

def member (e : String × Text) : Text × Json.Value := (e.1.toList, .text e.2)

def members (manifest : FullManifest) (platform : Platform) : List (Text × Json.Value) :=
  manifest.texts.map member ++ (manifest.computed platform).map member ++
    manifest.numbers.map fun e => (e.1.toList, .number e.2)

end FullManifest

/-! ## `JsonEscape` -/

theorem hexValue_hexDigit : ∀ n < 16, Json.hexValue (hexDigit n) = some n := by decide

theorem writes_escapeChar (ch : Char) : Json.Writes (escapeChar ch) ch := by
  unfold escapeChar
  split_ifs with hslash hquote hb hf hn hr ht hcontrol
  · exact .short (by rw [hslash]; decide)
  · exact .short (by rw [hquote]; decide)
  · exact .short (by rw [hb]; decide)
  · exact .short (by rw [hf]; decide)
  · exact .short (by rw [hn]; decide)
  · exact .short (by rw [hr]; decide)
  · exact .short (by rw [ht]; decide)
  · have hhex := Json.Writes.hex (hexValue_hexDigit (ch.toNat / 16) (by omega))
      (hexValue_hexDigit (ch.toNat % 16) (by omega))
    rw [Nat.div_add_mod, Char.ofNat_toNat] at hhex
    exact hhex
  · exact .plain ⟨by omega, hquote, hslash⟩

theorem represents_jsonEscape (value : Text) : Json.Represents (jsonEscape value) value :=
  Json.Represents.flatMap writes_escapeChar value

/-! ## `ToJson` -/

/-- The text of a number. -/
def Numeral (text : Text) : Prop := text ≠ [] ∧ ∀ ch ∈ text, Json.isNumberChar ch = true

theorem numeral_digits (n : Nat) : Numeral (digits n) := by
  have h : digits n = Nat.toDigits 10 n := Nat.toList_repr
  rw [h]
  refine ⟨Nat.toDigits_ne_nil, fun ch hch => ?_⟩
  have hdigit := Nat.isDigit_of_mem_toDigits (by decide) (by decide) hch
  rw [Json.isNumberChar, hdigit, Bool.true_or]

theorem numeral_signed (n : Int) : Numeral (signed n) := by
  have h : signed n = n.repr.toList := rfl
  rw [h, Int.repr_eq_if]
  split
  · exact numeral_digits n.toNat
  · rw [String.toList_append]
    obtain ⟨_, hdigits⟩ := numeral_digits (-n).toNat
    refine ⟨by simp, fun ch hch => ?_⟩
    rcases List.mem_append.mp hch with hch | hch
    · obtain rfl : ch = '-' := by simpa using hch
      rfl
    · exact hdigits ch hch

/-- A name that needs no escapes. -/
def plainName (name : String) : Bool := name.toList.all fun ch => decide (Json.Plain ch)

theorem reads_memberName {name : String} (hname : plainName name = true) :
    Json.Reads (memberName name) [.value (.text name.toList), .mark ':'] := by
  have hblank : Json.Reads [' '] [] := .blank rfl
  have hcolon : Json.Reads [':'] [.mark ':'] := .mark rfl rfl
  have hplain : ∀ ch ∈ name.toList, Json.Plain ch := fun ch hch =>
    of_decide_eq_true (List.all_eq_true.mp hname ch hch)
  have hquoted := Json.Reads.text (Json.Represents.self hplain)
  exact (hblank.append hblank).append (hquoted.append (hcolon.append hblank))

theorem reads_comma : Json.Reads [',', '\n'] [.mark ','] := by
  have hcomma : Json.Reads [','] [.mark ','] := .mark rfl rfl
  exact hcomma.append (.blank rfl)

theorem reads_stringLine (name : String) (hname : plainName name = true) (value : Text) :
    Json.Reads (stringLine name value)
      [.value (.text name.toList), .mark ':', .value (.text value), .mark ','] := by
  have hvalue := Json.Reads.text (represents_jsonEscape value)
  exact ((reads_memberName hname).append hvalue).append reads_comma

theorem reads_number (name : String) (hname : plainName name = true) {value : Text}
    (hvalue : Numeral value) {next : Char} {text : Text} {tokens : List Json.Token}
    (hnext : Json.isNumberChar next = false) (h : Json.Reads (next :: text) tokens) :
    Json.Reads (memberName name ++ (value ++ next :: text))
      (.value (.text name.toList) :: .mark ':' :: .value (.number value) :: tokens) := by
  obtain ⟨hne, hchars⟩ := hvalue
  obtain ⟨ch, literal, rfl⟩ := List.exists_cons_of_ne_nil hne
  rw [List.forall_mem_cons] at hchars
  exact (reads_memberName hname).append (.number hchars.1 hchars.2 hnext h)

theorem reads_numberLine (name : String) (hname : plainName name = true) {value : Text}
    (hvalue : Numeral value) : Json.Reads (numberLine name value)
      [.value (.text name.toList), .mark ':', .value (.number value), .mark ','] := by
  rw [numberLine, List.append_assoc]
  exact reads_number name hname hvalue rfl reads_comma

/-- Each line is a member of the object. -/
theorem split_toJson (manifest : FullManifest) (platform : Platform) :
    Json.split (manifest.toJson platform) = some (manifest.members platform) := by
  have hopen : ∀ {text tokens}, Json.Reads text tokens →
      Json.Reads (['\x7b', '\n'] ++ text) (.mark '\x7b' :: tokens) :=
    fun h => (Json.Reads.append (.mark rfl rfl) (.blank rfl)).append h
  have hclose : Json.Reads ['\n', '\x7d', '\n'] [.mark '\x7d'] :=
    Json.Reads.append (.blank rfl) (.append (.mark rfl rfl) (.blank rfl))
  refine Json.split_of_reads (by simp [FullManifest.members, FullManifest.texts]) ?_
  simp only [FullManifest.members, FullManifest.texts, FullManifest.computed,
    FullManifest.numbers, FullManifest.member, List.cons_append, List.nil_append, List.map_cons,
    List.map_nil]
  unfold FullManifest.toJson
  simp only [List.append_assoc]
  refine hopen ?_
  refine .member (reads_stringLine "run_id" (by decide) _) ?_
  refine .member (reads_stringLine "scenario_name" (by decide) _) ?_
  refine .member (reads_stringLine "server_name" (by decide) _) ?_
  refine .member (reads_stringLine "git_commit" (by decide) _) ?_
  refine .member (reads_stringLine "git_branch" (by decide) _) ?_
  refine .member (reads_stringLine "build_type" (by decide) _) ?_
  refine .member (reads_stringLine "machine_info" (by decide) _) ?_
  refine .member (reads_stringLine "target_host" (by decide) _) ?_
  refine .member (reads_stringLine "output_root" (by decide) _) ?_
  refine .member (reads_stringLine "output_dir" (by decide) _) ?_
  refine .member (reads_stringLine "started_at" (by decide) _) ?_
  refine .member (reads_stringLine "finished_at" (by decide) _) ?_
  refine .member (reads_numberLine "target_port" (by decide) (numeral_digits _)) ?_
  refine .member (reads_numberLine "planned_clients" (by decide) (numeral_signed _)) ?_
  refine .member (reads_numberLine "message_size_bytes" (by decide) (numeral_signed _)) ?_
  refine .member (reads_numberLine "send_interval_ms" (by decide) (numeral_signed _)) ?_
  exact reads_number "duration_sec" (by decide) (numeral_signed _) rfl hclose

theorem texts_of_members (manifest : FullManifest) (platform : Platform) :
    (manifest.members platform).take 9 = manifest.texts.map FullManifest.member := rfl

theorem member_injective : Function.Injective FullManifest.member := by
  rintro ⟨name, value⟩ ⟨name', value'⟩ h
  simp only [FullManifest.member, Prod.mk.injEq, Json.Value.text.injEq] at h
  exact Prod.ext (String.toList_injective h.1) h.2

theorem texts_of_toJson {manifest manifest' : FullManifest} {platform : Platform}
    (h : manifest.toJson platform = manifest'.toJson platform) :
    manifest.texts = manifest'.texts := by
  have hmembers : manifest.members platform = manifest'.members platform := by
    refine Option.some.inj ?_
    rw [← split_toJson, ← split_toJson, h]
  refine List.map_injective_iff.mpr member_injective ?_
  rw [← texts_of_members _ platform, ← texts_of_members _ platform, hmembers]

/-- **The manifest is unambiguous**: escaped strings have no control characters and no open
quotation marks and can be read back, a reader of JSON finds every member as it is, and manifests
with different strings have different texts. -/
theorem manifest_unambiguous (platform : Platform) :
    (∀ s : Text, (∀ ch ∈ jsonEscape s, 0x20 ≤ ch.toNat) ∧
      (∀ before after, jsonEscape s = before ++ '"' :: after → Odd (Json.backslashes before)) ∧
      Json.unescape (jsonEscape s) = some s) ∧
    (∀ manifest : FullManifest,
      Json.split (manifest.toJson platform) = some (manifest.members platform)) ∧
    ∀ manifest manifest' : FullManifest, manifest.texts ≠ manifest'.texts →
      manifest.toJson platform ≠ manifest'.toJson platform := by
  refine ⟨fun s => ?_, fun manifest => split_toJson manifest platform, fun _ _ hne heq => ?_⟩
  · have h := represents_jsonEscape s
    exact ⟨h.visible, h.quote, h.unescape⟩
  · exact hne (texts_of_toJson heq)

/-- A manifest of a run with this id. -/
def runManifest (runId : Text) : FullManifest where
  runId := runId
  serverName := "echo".toList
  outputRoot := "out".toList
  startedAt := none
  finishedAt := none
  scenarioName := []
  gitCommit := []
  gitBranch := []
  buildType := []
  machineInfo := []
  targetHost := "localhost".toList
  targetPort := 8080
  plannedClients := 100
  messageSizeBytes := 64
  sendIntervalMs := -1
  durationSec := 60

/-- A quotation mark, and one behind a backslash. -/
theorem manifest_unambiguous_quote :
    (runManifest ['"']).toJson ⟨fun _ _ => [], 0⟩ ≠
      (runManifest ['\\', '"']).toJson ⟨fun _ _ => [], 0⟩ :=
  (manifest_unambiguous _).2.2 _ _ (by decide)

end Highp.Metrics
