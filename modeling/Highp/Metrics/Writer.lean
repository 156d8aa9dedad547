import Mathlib.Data.List.DropRight
import Highp.Lib.Path
import Highp.Metrics.Requests

/-! The two metrics writers: what they have in common. A writer takes snapshots of the metrics,
appends a line of JSON for each to a file and keeps a summary that it writes when it stops. -/

namespace Highp.Metrics

abbrev Text := List Char

/-- What the writers use of `double`. -/
class Double (F : Type) extends Add F, Mul F, Div F where
  /-- The conversion of an integer. -/
  ofInt : Int → F
  lt : F → F → Bool
  le : F → F → Bool
  /-- `oss << std::fixed << std::setprecision(precision) << value`. -/
  fixed : F → Nat → Text

/-- Rational numbers, which are those of `double` as long as nothing is rounded. -/
instance : Double Rat where
  add := Rat.add
  mul := Rat.mul
  div := Rat.div
  ofInt := Rat.ofInt
  lt := Rat.blt
  le x y := !Rat.blt y x
  fixed x precision :=
    let n := (x.num.natAbs * 10 ^ precision * 2 + x.den) / (x.den * 2)
    let fraction := (toString (n % 10 ^ precision)).toList
    (if x.num < 0 then ['-'] else []) ++ (toString (n / 10 ^ precision)).toList ++ ['.'] ++
      List.replicate (precision - fraction.length) '0' ++ fraction

theorem Double.ofInt_rat (n : Int) : (Double.ofInt n : Rat) = n := rfl

theorem Double.div_rat (x y : Rat) :
    @HDiv.hDiv Rat Rat Rat (@instHDiv Rat Double.toDiv) x y = x / y := rfl

theorem Double.mul_rat (x y : Rat) :
    @HMul.hMul Rat Rat Rat (@instHMul Rat Double.toMul) x y = x * y := rfl

theorem Double.lt_rat (x y : Rat) : Double.lt x y = true ↔ x < y := Iff.rfl

theorem Double.le_rat (x y : Rat) : Double.le x y = true ↔ x ≤ y := by
  rw [← Rat.not_lt]
  show (!Rat.blt y x) = true ↔ ¬ Rat.blt y x = true
  simp

/-- What the writers use of Windows and of the standard library. -/
structure Platform where
  /-- `std::put_time` of what `gmtime_s` makes of so many seconds. -/
  putTime : Text → Int → Text
  getCurrentProcessId : Nat

section
variable {F : Type} [Double F]

def Double.max (x y : F) : F := if Double.lt x y then y else x

/-! ## `TimingWindow` and `ServerMetricsSupport` -/

namespace TimingWindow

def averageMilliseconds (window : TimingWindow) : F :=
  if window.count = 0 then Double.ofInt 0
  else
    let totalMs : F := Double.ofInt window.totalNanoseconds / Double.ofInt 1000000
    totalMs / Double.ofInt window.count

def maxMilliseconds (window : TimingWindow) : F :=
  Double.ofInt window.maxNanoseconds / Double.ofInt 1000000

/-- The window of such observations, drained at once. -/
def ofDurations (durations : List Nat) : TimingWindow :=
  durations.foldl TimingWindow.observe ⟨0, 0, 0⟩

end TimingWindow

/-- `ToPerSecond`, of an elapsed time in nanoseconds. -/
def toPerSecond (delta : Nat) (elapsed : Int) : F :=
  let seconds : F := Double.ofInt elapsed / Double.ofInt 1000000000
  if Double.le seconds (Double.ofInt 0) then Double.ofInt 0
  else Double.ofInt delta / seconds

def computeRate (current prior : Nat) (elapsed : Int) : F :=
  toPerSecond (if current ≥ prior then current - prior else 0) elapsed

/-- `a - b` of `uint64_t`. -/
def minus64 (a b : Nat) : Nat := (a + (2 ^ 64 - b % 2 ^ 64)) % 2 ^ 64

def digits (n : Nat) : Text := (toString n).toList

/-- An integer in a stream. -/
def signed (n : Int) : Text := (toString n).toList

/-- `std::setw(width)` with `std::setfill('0')`. -/
def padded (width : Nat) (text : Text) : Text :=
  List.replicate (width - text.length) '0' ++ text

def formatNumber (value : F) : Text :=
  let result := Double.fixed value 3
  let result :=
    if '.' ∈ result then
      let result := result.rdropWhile (· == '0')
      if result.getLast? = some '.' then result.dropLast else result
    else result
  if result = ['-', '0'] then ['0'] else result

def hexDigit (n : Nat) : Char := Char.ofNat (if n < 10 then 48 + n else 87 + n)

def escapeChar (ch : Char) : Text :=
  if ch = '\\' then ['\\', '\\']
  else if ch = '"' then ['\\', '"']
  else if ch = Char.ofNat 8 then ['\\', 'b']
  else if ch = Char.ofNat 12 then ['\\', 'f']
  else if ch = '\n' then ['\\', 'n']
  else if ch = '\r' then ['\\', 'r']
  else if ch = '\t' then ['\\', 't']
  else if ch.toNat < 0x20 then
    ['\\', 'u', '0', '0', hexDigit (ch.toNat / 16), hexDigit (ch.toNat % 16)]
  else [ch]

def jsonEscape (value : Text) : Text := value.flatMap escapeChar

/-- A time of the system clock is a number of nanoseconds; conversions truncate. -/
def formatUtcTime (platform : Platform) (tp : Int) : Text :=
  let seconds := tp.tdiv 1000000000
  let fractional := (tp - seconds * 1000000000).tdiv 1000000
  platform.putTime "%Y-%m-%dT%H:%M:%S".toList seconds ++ ['.'] ++
    padded 3 (signed fractional) ++ ['Z']

def formatCompactTimestamp (platform : Platform) (tp : Int) : Text :=
  let seconds := tp.tdiv 1000000000
  let fractional := (tp - seconds * 1000000000).tdiv 1000000
  platform.putTime "%Y%m%d-%H%M%S".toList seconds ++
    if fractional > 0 then ['-'] ++ padded 3 (signed fractional) else []

def invalidInPath (ch : Char) : Bool :=
  ch.toNat < 32 || "<>:\"/\\|?*".toList.contains ch || ch == ' '

def sanitizePathComponent (value : Text) : Text :=
  value.map fun ch => if invalidInPath ch then '_' else ch

/-- `operator/` of a path and a relative one. -/
def joinPath (path component : Text) : Text := Lib.Path.join path component

/-! ## `JsonFields` -/

inductive JsonField (F : Type)
  | timestamp (name : String) (value : Int)
  | counter (name : String) (value : Nat)
  | gauge (name : String) (value : Int)
  | number (name : String) (value : F)
  | uint (name : String) (value : Nat)
  /-- Between quotation marks. -/
  | text (name : String) (value : Text)

def quoted (text : Text) : Text := ['"'] ++ text ++ ['"']

def JsonField.write (platform : Platform) : JsonField F → Text
  | .timestamp name value =>
    quoted name.toList ++ [':'] ++ quoted (jsonEscape (formatUtcTime platform value))
  | .counter name value => quoted name.toList ++ [':'] ++ digits value
  | .gauge name value => quoted name.toList ++ [':'] ++ signed value
  | .number name value => quoted name.toList ++ [':'] ++ formatNumber value
  | .uint name value => quoted name.toList ++ [':'] ++ digits value
  | .text name value => quoted name.toList ++ [':'] ++ quoted (jsonEscape value)

/-- What a `JsonObjectWriter` has written before its destructor adds the closing brace. -/
def unclosedObject (platform : Platform) (fields : List (JsonField F)) : Text :=
  ['\x7b'] ++ [','].intercalate (fields.map (JsonField.write platform))

def jsonObject (platform : Platform) (fields : List (JsonField F)) : Text :=
  unclosedObject platform fields ++ ['\x7d']

end

/-! ## `RunManifest` and the configuration -/

structure RunManifest where
  runId : Text
  serverName : Text
  outputRoot : Text
  startedAt : Option Int
  finishedAt : Option Int
  deriving DecidableEq

def RunManifest.outputDirectory (manifest : RunManifest) : Text :=
  joinPath manifest.outputRoot
    (if manifest.runId = [] then "run".toList else sanitizePathComponent manifest.runId)

/-- `ServerMetricsConfig` and `ClientMetricsConfig`. -/
structure MetricsConfig where
  enabled : Bool
  outputRoot : Text
  runId : Text

/-- `ResolveRunId`; the system clock is at `now`. -/
def MetricsConfig.resolveRunId (config : MetricsConfig) (platform : Platform) (now : Int) : Text :=
  if config.runId ≠ [] then sanitizePathComponent config.runId
  else
    formatCompactTimestamp platform now ++ ['-', 'p'] ++ digits platform.getCurrentProcessId

def MetricsConfig.resolveOutputDirectory (config : MetricsConfig) (platform : Platform)
    (now : Int) : Text :=
  joinPath config.outputRoot (config.resolveRunId platform now)

/-! ## The writer -/

/-- How it goes with the file that a line is to be appended to. Its stream is closed by the
destructor, and nobody sees that fail. -/
inductive SnapshotFile
  | openFailed
  | writeFailed
  | closeFailed
  | written
  deriving DecidableEq

/-- How it goes with `manifest.json`. -/
inductive ManifestFile
  | openFailed
  | writeFailed
  | written
  deriving DecidableEq

/-- How it goes with the thread; the standard library may throw, or somebody else. -/
inductive ThreadStart
  | started
  | exception (what : Text)
  | unknown
  deriving DecidableEq

/-- What can be seen of a writer, and which timing observations it is about. -/
inductive Effect
  /-- `TakeSnapshot` has removed these observations from the metrics. -/
  | taken (drained : List Nat)
  /-- The line of a record is in the file. -/
  | line (path text : Text) (drained : List Nat)
  /-- The summary has observed a record. -/
  | observed (drained : List Nat)
  /-- `summary.md` has been written. -/
  | summary (path text : Text)
  deriving DecidableEq

/-- The fields of `ServerMetricsWriter` and `ClientMetricsWriter`: `S` is the summary, `T` what the
process times are compared with and `B` what the next record is compared with. -/
structure Writer (S T B : Type) where
  manifest : RunManifest
  outputDirectory : Text
  manifestPath : Text
  snapshotPath : Text
  summaryPath : Text
  summary : S
  sampler : T
  baseline : B
  running : Bool
  /-- `_workerThread.joinable()`. -/
  joinable : Bool
  lastError : Text

/-- What `Start` meets: the readings of the clock, whether the directories can be created, and so
on. -/
structure StartInput (I : Type) where
  resolvedAt : Int
  runIdAt : Int
  startedAt : Int
  /-- `ec.message()`, when there is an error. -/
  directoriesError : Option Text
  manifest : ManifestFile
  capture : I
  thread : ThreadStart

structure StopInput (I : Type) where
  finishedAt : Int
  capture : I
  manifest : ManifestFile
  summaryOpen : Bool

/-- The places in which the two writers differ. -/
structure WriterCode (I S T B : Type) where
  config : MetricsConfig
  defaultName : String
  snapshotName : String
  directoryFailed : String
  threadFailed : String
  /-- What `Start` resets. -/
  reset : Writer S T B → Writer S T B
  /-- `CaptureAndWriteSnapshot`; it is told whether the snapshot is the last one. -/
  capture : Writer S T B → Bool → I → Bool × Writer S T B × List Effect
  /-- `SetLogicThreadId`, which only the server has. -/
  setLogicThreadId : Option (Nat → T → T)
  buildMarkdown : S → RunManifest → Text → Text

/-- What a capture does to the fields that it is not about. -/
structure Writer.Keeps {S T B : Type} (w w' : Writer S T B) : Prop where
  manifest : w'.manifest = w.manifest
  snapshotPath : w'.snapshotPath = w.snapshotPath
  running : w'.running = w.running
  joinable : w'.joinable = w.joinable

/-- What captures and resets leave to the rest of the writer. -/
structure WriterCode.Keeping {I S T B : Type} (code : WriterCode I S T B) : Prop where
  capture : ∀ (w : Writer S T B) final i, w.Keeps (code.capture w final i).2.1
  reset : ∀ w : Writer S T B, w.Keeps (code.reset w)

namespace WriterCode
variable {I S T B : Type} (platform : Platform) (code : WriterCode I S T B)

def initializeArtifacts (w : Writer S T B) (directoriesError : Option Text) :
    Bool × Writer S T B :=
  let outputDirectory := w.manifest.outputDirectory
  let w := { w with
    outputDirectory
    manifestPath := joinPath outputDirectory "manifest.json".toList
    snapshotPath := joinPath outputDirectory code.snapshotName.toList
    summaryPath := joinPath outputDirectory "summary.md".toList }
  match directoriesError with
  | some message => (false, { w with lastError := code.directoryFailed.toList ++ message })
  | none => (true, w)

def writeManifest (w : Writer S T B) : ManifestFile → Bool × Writer S T B
  | .openFailed => (false, { w with lastError := "failed to open manifest file".toList })
  | .writeFailed => (false, { w with lastError := "failed to write manifest file".toList })
  | .written => (true, w)

/-- What `Start` does to the fields before it looks whether the metrics are enabled. -/
def clear (w : Writer S T B) : Writer S T B :=
  let w := code.reset { w with lastError := [] }
  { w with
    manifest := { w.manifest with startedAt := none, finishedAt := none }
    outputDirectory := []
    manifestPath := []
    snapshotPath := []
    summaryPath := [] }

/-- What `Start` sets in the manifest when the metrics are enabled. -/
def prepare (w : Writer S T B) (i : StartInput I) : Writer S T B :=
  { w with
    manifest := { w.manifest with
      outputRoot := code.config.outputRoot
      runId := code.config.resolveRunId platform i.runIdAt
      serverName :=
        if w.manifest.serverName = [] then code.defaultName.toList
        else w.manifest.serverName
      startedAt := some (w.manifest.startedAt.getD i.startedAt) } }

/-- `Start` from `InitializeArtifacts` on. -/
def begin (w : Writer S T B) (i : StartInput I) : Bool × Writer S T B × List Effect :=
  match code.initializeArtifacts w i.directoriesError with
  | (false, w) => (false, w, [])
  | (true, w) =>
    match writeManifest w i.manifest with
    | (false, w) => (false, w, [])
    | (true, w) =>
      match code.capture w false i.capture with
      | (false, w, effects) => (false, w, effects)
      | (true, w, effects) =>
        match i.thread with
        | .started => (true, { w with running := true, joinable := true }, effects)
        | .exception what =>
          (false, { w with
            running := false
            lastError := code.threadFailed.toList ++ [':', ' '] ++ what }, effects)
        | .unknown =>
          (false, { w with running := false, lastError := code.threadFailed.toList }, effects)

def start (w : Writer S T B) (i : StartInput I) : Bool × Writer S T B × List Effect :=
  if w.running then (true, { w with lastError := [] }, [])
  else if !code.config.enabled then
    let w := code.clear w
    (true, { w with
      outputDirectory := code.config.resolveOutputDirectory platform i.resolvedAt
      manifest := { w.manifest with
        outputRoot := code.config.outputRoot
        runId := code.config.resolveRunId platform i.runIdAt } }, [])
  else code.begin (code.prepare platform (code.clear w) i) i

/-- One turn of the loop in `ThreadMain`; a failure ends the thread. -/
def turn (w : Writer S T B) (i : I) : Option (Writer S T B × List Effect) :=
  if w.running then
    match code.capture w false i with
    | (true, w, effects) => some (w, effects)
    | (false, w, effects) => some ({ w with running := false }, effects)
  else none

/-- `Stop` from the last snapshot on. -/
def finish (w : Writer S T B) (i : StopInput I) : Writer S T B × List Effect :=
  let (_, w, effects) := code.capture w true i.capture
  let (_, w) := writeManifest w i.manifest
  if i.summaryOpen then
    (w, effects ++
      [.summary w.summaryPath (code.buildMarkdown w.summary w.manifest w.outputDirectory)])
  else (w, effects)

def stop (w : Writer S T B) (i : StopInput I) : Writer S T B × List Effect :=
  if !w.running && !w.joinable then (w, [])
  else
    let w := { w with running := false, joinable := false }
    if code.config.enabled then
      code.finish { w with manifest :=
        { w.manifest with finishedAt := some (w.manifest.finishedAt.getD i.finishedAt) } } i
    else (w, [])

end WriterCode

/-- What is done with a writer. -/
inductive WriterLabel (I : Type)
  | setLogicThreadId (threadId : Nat)
  | start (i : StartInput I)
  /-- The thread takes a snapshot. -/
  | turn (i : I)
  | stop (i : StopInput I)

namespace WriterCode
variable {I S T B : Type} (platform : Platform) (code : WriterCode I S T B)

def step (w : Writer S T B) : WriterLabel I → Option (Writer S T B × List Effect)
  | .setLogicThreadId threadId =>
    code.setLogicThreadId.map fun set => ({ w with sampler := set threadId w.sampler }, [])
  | .start i => some (code.start platform w i).2
  | .turn i => code.turn w i
  | .stop i => some (code.stop w i)

/-- A run with everything that could be seen of it. -/
def run (w : Writer S T B) : List (WriterLabel I) → Option (Writer S T B × List Effect)
  | [] => some (w, [])
  | l :: ls =>
    (code.step platform w l).bind fun p =>
      (run p.1 ls).map fun q => (q.1, p.2 ++ q.2)

end WriterCode
end Highp.Metrics
