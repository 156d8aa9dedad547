import Highp.Metrics.Writer

/-! `ServerMetricsWriter`. -/

namespace Highp.Metrics

/-- The whole `ServerMetricsSnapshot`, and which timing observations `TakeSnapshot` has removed. -/
structure ServerMetricsWriter.Snapshot where
  capturedAt : Int
  acceptTotal : Nat
  disconnectTotal : Nat
  recvPacketsTotal : Nat
  sendPacketsTotal : Nat
  recvBytesTotal : Nat
  sendBytesTotal : Nat
  sendFailTotal : Nat
  packetValidationTotal : Nat
  packetValidationFailureTotal : Nat
  connectedClients : Int
  pendingAcceptCount : Int
  pendingRecvCount : Int
  pendingSendCount : Int
  dispatcherQueueLength : Int
  runnableWorkerThreadCount : Int
  queueWait : TimingWindow
  dispatchProcess : TimingWindow
  tickDuration : TimingWindow
  tickLag : TimingWindow
  drained : List Nat

structure RuntimeSample (F : Type) where
  processCpuPercent : F
  logicThreadCpuPercent : F
  threadCount : Nat

/-- `SnapshotRecord`; `drained` are the observations whose windows it has. -/
structure SnapshotRecord (F : Type) where
  capturedAt : Int
  capturedAtSteady : Int
  acceptTotal : Nat
  disconnectTotal : Nat
  recvPacketsTotal : Nat
  sendPacketsTotal : Nat
  recvBytesTotal : Nat
  sendBytesTotal : Nat
  sendFailTotal : Nat
  packetValidationTotal : Nat
  packetValidationFailureTotal : Nat
  connectedClients : Int
  pendingAcceptCount : Int
  pendingRecvCount : Int
  pendingSendCount : Int
  dispatcherQueueLength : Int
  runnableWorkerThreadCount : Int
  queueWaitMsAvg : F
  queueWaitMsMax : F
  dispatchProcessMsAvg : F
  dispatchProcessMsMax : F
  tickDurationMsAvg : F
  tickDurationMsMax : F
  tickLagMsAvg : F
  tickLagMsMax : F
  processCpuPercent : F
  logicThreadCpuPercent : F
  threadCount : Nat
  drained : List Nat

/-- What Windows says about the process when a sample is taken. -/
structure ProcessReading where
  now : Int
  /-- `GetProcessTimes`, unless it fails: kernel and user time. -/
  processTimes : Option (Nat × Nat)
  /-- `OpenThread` and `GetThreadTimes` of a thread, unless one fails. -/
  threadTimes : Nat → Option (Nat × Nat)
  processorCount : Nat
  threadCount : Nat

structure RuntimeSampler where
  logicThreadId : Nat
  lastSampleAt : Int
  lastProcessKernel100ns : Nat
  lastProcessUser100ns : Nat
  lastLogicThreadKernel100ns : Nat
  lastLogicThreadUser100ns : Nat
  lastLogicThreadIdSampled : Nat
  hasBaseline : Bool

/-- What a snapshot of the server meets. -/
structure ServerCapture where
  snapshot : ServerMetricsWriter.Snapshot
  steadyNow : Int
  reading : ProcessReading
  file : SnapshotFile

section
variable {F : Type} [Double F]

def RuntimeSample.zero : RuntimeSample F := ⟨Double.ofInt 0, Double.ofInt 0, 0⟩

/-- A `SnapshotRecord` with its initializers. -/
def SnapshotRecord.zero : SnapshotRecord F where
  capturedAt := 0
  capturedAtSteady := 0
  acceptTotal := 0
  disconnectTotal := 0
  recvPacketsTotal := 0
  sendPacketsTotal := 0
  recvBytesTotal := 0
  sendBytesTotal := 0
  sendFailTotal := 0
  packetValidationTotal := 0
  packetValidationFailureTotal := 0
  connectedClients := 0
  pendingAcceptCount := 0
  pendingRecvCount := 0
  pendingSendCount := 0
  dispatcherQueueLength := 0
  runnableWorkerThreadCount := 0
  queueWaitMsAvg := Double.ofInt 0
  queueWaitMsMax := Double.ofInt 0
  dispatchProcessMsAvg := Double.ofInt 0
  dispatchProcessMsMax := Double.ofInt 0
  tickDurationMsAvg := Double.ofInt 0
  tickDurationMsMax := Double.ofInt 0
  tickLagMsAvg := Double.ofInt 0
  tickLagMsMax := Double.ofInt 0
  processCpuPercent := Double.ofInt 0
  logicThreadCpuPercent := Double.ofInt 0
  threadCount := 0
  drained := []

/-! ## `RuntimeSampler` -/

/-- So many units of 100 ns in seconds: a product with the `double` nearest to `1e-7`. -/
def secondsOf100ns (n : Nat) : F := Double.ofInt n * (Double.ofInt 1 / Double.ofInt 10000000)

namespace RuntimeSampler

def new : RuntimeSampler := ⟨0, 0, 0, 0, 0, 0, 0, false⟩

def setLogicThreadId (threadId : Nat) (s : RuntimeSampler) : RuntimeSampler :=
  { s with logicThreadId := threadId }

/-- `Reset`; the logic thread stays. -/
def reset (s : RuntimeSampler) : RuntimeSampler := { RuntimeSampler.new with
  logicThreadId := s.logicThreadId }

/-- `logicThreadCpuPercent` of a sample after the first, and the fields that it sets. -/
def sampleLogicThread (s : RuntimeSampler) (logicTimes : Option (Nat × Nat))
    (elapsedSeconds : F) : F × RuntimeSampler :=
  match logicTimes with
  | some (logicKernel100ns, logicUser100ns) =>
    if s.lastLogicThreadIdSampled ≠ s.logicThreadId then
      (Double.ofInt 0, { s with
        lastLogicThreadKernel100ns := logicKernel100ns
        lastLogicThreadUser100ns := logicUser100ns
        lastLogicThreadIdSampled := s.logicThreadId })
    else
      let logicDelta := (minus64 logicKernel100ns s.lastLogicThreadKernel100ns +
        minus64 logicUser100ns s.lastLogicThreadUser100ns) % 2 ^ 64
      (secondsOf100ns logicDelta / elapsedSeconds * Double.ofInt 100, s)
  | none => (Double.ofInt 0, s)

def sample (s : RuntimeSampler) (reading : ProcessReading) : RuntimeSample F × RuntimeSampler :=
  match reading.processTimes with
  | none =>
    (RuntimeSample.zero, { s with
      hasBaseline := false
      lastSampleAt := reading.now
      lastProcessKernel100ns := 0
      lastProcessUser100ns := 0
      lastLogicThreadKernel100ns := 0
      lastLogicThreadUser100ns := 0
      lastLogicThreadIdSampled := 0 })
  | some (processKernel100ns, processUser100ns) =>
    let logicTimes :=
      if s.logicThreadId ≠ 0 then reading.threadTimes s.logicThreadId else none
    if !s.hasBaseline then
      (RuntimeSample.zero, { s with
        hasBaseline := true
        lastSampleAt := reading.now
        lastProcessKernel100ns := processKernel100ns
        lastProcessUser100ns := processUser100ns
        lastLogicThreadKernel100ns := (logicTimes.getD (0, 0)).1
        lastLogicThreadUser100ns := (logicTimes.getD (0, 0)).2
        lastLogicThreadIdSampled := s.logicThreadId })
    else
      let elapsedSeconds : F :=
        Double.ofInt (reading.now - s.lastSampleAt) / Double.ofInt 1000000000
      let (processCpuPercent, logicThreadCpuPercent, s) :=
        if Double.lt (Double.ofInt 0) elapsedSeconds then
          let processDelta := (minus64 processKernel100ns s.lastProcessKernel100ns +
            minus64 processUser100ns s.lastProcessUser100ns) % 2 ^ 64
          let processSeconds : F := secondsOf100ns processDelta
          let percent := processSeconds / elapsedSeconds / Double.ofInt reading.processorCount *
            Double.ofInt 100
          let (logicThreadCpuPercent, s) := s.sampleLogicThread logicTimes elapsedSeconds
          (percent, logicThreadCpuPercent, s)
        else (Double.ofInt 0, Double.ofInt 0, s)
      let s := { s with
        lastSampleAt := reading.now
        lastProcessKernel100ns := processKernel100ns
        lastProcessUser100ns := processUser100ns }
      let s := match logicTimes with
        | some (logicKernel100ns, logicUser100ns) => { s with
          lastLogicThreadKernel100ns := logicKernel100ns
          lastLogicThreadUser100ns := logicUser100ns
          lastLogicThreadIdSampled := s.logicThreadId }
        | none => s
      (⟨processCpuPercent, logicThreadCpuPercent, reading.threadCount⟩, s)

end RuntimeSampler

/-! ## `SummaryAccumulator` -/

structure SummaryAccumulator (F : Type) where
  snapshots : Nat
  acceptPerSecSum : F
  recvPacketsPerSecSum : F
  sendPacketsPerSecSum : F
  maxAcceptPerSec : F
  maxRecvPacketsPerSec : F
  maxSendPacketsPerSec : F
  queueWaitMsSum : F
  dispatchProcessMsSum : F
  tickDurationMsSum : F
  tickLagMsSum : F
  processCpuPercentSum : F
  logicThreadCpuPercentSum : F
  maxConnectedClients : Int
  maxDispatcherQueueLength : Int
  maxPendingSendCount : Int
  maxQueueWaitMs : F
  maxDispatchProcessMs : F
  maxTickDurationMs : F
  maxTickLagMs : F
  maxProcessCpuPercent : F
  maxLogicThreadCpuPercent : F
  maxThreadCount : Nat
  disconnectTotal : Nat
  packetValidationFailureTotal : Nat

namespace SummaryAccumulator

/-- The initializers, and what `Reset` sets. -/
def zero : SummaryAccumulator F where
  snapshots := 0
  acceptPerSecSum := Double.ofInt 0
  recvPacketsPerSecSum := Double.ofInt 0
  sendPacketsPerSecSum := Double.ofInt 0
  maxAcceptPerSec := Double.ofInt 0
  maxRecvPacketsPerSec := Double.ofInt 0
  maxSendPacketsPerSec := Double.ofInt 0
  queueWaitMsSum := Double.ofInt 0
  dispatchProcessMsSum := Double.ofInt 0
  tickDurationMsSum := Double.ofInt 0
  tickLagMsSum := Double.ofInt 0
  processCpuPercentSum := Double.ofInt 0
  logicThreadCpuPercentSum := Double.ofInt 0
  maxConnectedClients := 0
  maxDispatcherQueueLength := 0
  maxPendingSendCount := 0
  maxQueueWaitMs := Double.ofInt 0
  maxDispatchProcessMs := Double.ofInt 0
  maxTickDurationMs := Double.ofInt 0
  maxTickLagMs := Double.ofInt 0
  maxProcessCpuPercent := Double.ofInt 0
  maxLogicThreadCpuPercent := Double.ofInt 0
  maxThreadCount := 0
  disconnectTotal := 0
  packetValidationFailureTotal := 0

def observe (s : SummaryAccumulator F) (record previous : SnapshotRecord F) :
    SummaryAccumulator F :=
  let elapsed := record.capturedAt - previous.capturedAt
  let acceptPerSec := computeRate record.acceptTotal previous.acceptTotal elapsed
  let recvPacketsPerSec := computeRate record.recvPacketsTotal previous.recvPacketsTotal elapsed
  let sendPacketsPerSec := computeRate record.sendPacketsTotal previous.sendPacketsTotal elapsed
  { snapshots := (s.snapshots + 1) % 2 ^ 64
    maxConnectedClients := max s.maxConnectedClients record.connectedClients
    maxDispatcherQueueLength := max s.maxDispatcherQueueLength record.dispatcherQueueLength
    maxPendingSendCount := max s.maxPendingSendCount record.pendingSendCount
    maxQueueWaitMs := Double.max s.maxQueueWaitMs record.queueWaitMsMax
    maxDispatchProcessMs := Double.max s.maxDispatchProcessMs record.dispatchProcessMsMax
    maxTickDurationMs := Double.max s.maxTickDurationMs record.tickDurationMsMax
    maxTickLagMs := Double.max s.maxTickLagMs record.tickLagMsMax
    maxProcessCpuPercent := Double.max s.maxProcessCpuPercent record.processCpuPercent
    maxLogicThreadCpuPercent :=
      Double.max s.maxLogicThreadCpuPercent record.logicThreadCpuPercent
    maxThreadCount := max s.maxThreadCount record.threadCount
    disconnectTotal := record.disconnectTotal
    packetValidationFailureTotal := record.packetValidationFailureTotal
    acceptPerSecSum := s.acceptPerSecSum + acceptPerSec
    recvPacketsPerSecSum := s.recvPacketsPerSecSum + recvPacketsPerSec
    sendPacketsPerSecSum := s.sendPacketsPerSecSum + sendPacketsPerSec
    maxAcceptPerSec := Double.max s.maxAcceptPerSec acceptPerSec
    maxRecvPacketsPerSec := Double.max s.maxRecvPacketsPerSec recvPacketsPerSec
    maxSendPacketsPerSec := Double.max s.maxSendPacketsPerSec sendPacketsPerSec
    queueWaitMsSum := s.queueWaitMsSum + record.queueWaitMsAvg
    dispatchProcessMsSum := s.dispatchProcessMsSum + record.dispatchProcessMsAvg
    tickDurationMsSum := s.tickDurationMsSum + record.tickDurationMsAvg
    tickLagMsSum := s.tickLagMsSum + record.tickLagMsAvg
    processCpuPercentSum := s.processCpuPercentSum + record.processCpuPercent
    logicThreadCpuPercentSum := s.logicThreadCpuPercentSum + record.logicThreadCpuPercent }

def average (s : SummaryAccumulator F) (sum : F) : F :=
  sum / if s.snapshots = 0 then Double.ofInt 1 else Double.ofInt s.snapshots

def bottleneck (s : SummaryAccumulator F) : String :=
  if s.maxDispatcherQueueLength > 0 ∧ Double.lt (Double.ofInt 0) s.maxTickLagMs then
    "Queue / Logic"
  else if s.maxPendingSendCount > 0 then "Transport / Send"
  else if Double.le (Double.ofInt 80) s.maxProcessCpuPercent then "Runtime / CPU"
  else "none observed"

end SummaryAccumulator

/-- A line `- name: value` of a summary. -/
def bullet (name : String) (value : Text) : Text :=
  ['-', ' '] ++ name.toList ++ [':', ' '] ++ value ++ ['\n']

def SummaryAccumulator.buildMarkdown (platform : Platform) (s : SummaryAccumulator F)
    (manifest : RunManifest) (outputDir : Text) : Text :=
  let average (name : String) (sum : F) := bullet name (formatNumber (s.average sum))
  "Server Metrics Summary\n\n".toList ++
  bullet "run_id" (if manifest.runId = [] then "run".toList else manifest.runId) ++
  bullet "server_name"
    (if manifest.serverName = [] then "server".toList else manifest.serverName) ++
  bullet "output_dir" outputDir ++
  bullet "started_at" ((manifest.startedAt.map (formatUtcTime platform)).getD []) ++
  bullet "finished_at" ((manifest.finishedAt.map (formatUtcTime platform)).getD []) ++ ['\n'] ++
  "Core Results\n".toList ++
  bullet "max connected clients" (signed s.maxConnectedClients) ++
  average "avg accept/sec" s.acceptPerSecSum ++
  bullet "max accept/sec" (formatNumber s.maxAcceptPerSec) ++
  average "avg recv packets/sec" s.recvPacketsPerSecSum ++
  bullet "max recv packets/sec" (formatNumber s.maxRecvPacketsPerSec) ++
  average "avg send packets/sec" s.sendPacketsPerSecSum ++
  bullet "max send packets/sec" (formatNumber s.maxSendPacketsPerSec) ++
  average "avg queue wait ms" s.queueWaitMsSum ++
  bullet "max queue wait ms" (formatNumber s.maxQueueWaitMs) ++
  average "avg dispatch process ms" s.dispatchProcessMsSum ++
  bullet "max dispatch process ms" (formatNumber s.maxDispatchProcessMs) ++
  average "avg tick duration ms" s.tickDurationMsSum ++
  bullet "max tick duration ms" (formatNumber s.maxTickDurationMs) ++
  average "avg tick lag ms" s.tickLagMsSum ++
  bullet "max tick lag ms" (formatNumber s.maxTickLagMs) ++
  bullet "max pending send count" (signed s.maxPendingSendCount) ++
  bullet "packet validation failure total" (digits s.packetValidationFailureTotal) ++
  bullet "disconnect total" (digits s.disconnectTotal) ++
  average "avg process CPU percent" s.processCpuPercentSum ++
  bullet "max process CPU percent" (formatNumber s.maxProcessCpuPercent) ++
  average "avg logic thread CPU percent" s.logicThreadCpuPercentSum ++
  bullet "max logic thread CPU percent" (formatNumber s.maxLogicThreadCpuPercent) ++
  bullet "max thread count" (digits s.maxThreadCount) ++
  bullet "bottleneck guess" s.bottleneck.toList

/-! ## `ServerMetricsWriter` -/

abbrev ServerWriter (F : Type) := Writer (SummaryAccumulator F) RuntimeSampler (SnapshotRecord F)

/-- The record of a snapshot. -/
def SnapshotRecord.of (snapshot : ServerMetricsWriter.Snapshot) (steadyNow : Int)
    (runtime : RuntimeSample F) : SnapshotRecord F where
  capturedAt := snapshot.capturedAt
  capturedAtSteady := steadyNow
  acceptTotal := snapshot.acceptTotal
  disconnectTotal := snapshot.disconnectTotal
  recvPacketsTotal := snapshot.recvPacketsTotal
  sendPacketsTotal := snapshot.sendPacketsTotal
  recvBytesTotal := snapshot.recvBytesTotal
  sendBytesTotal := snapshot.sendBytesTotal
  sendFailTotal := snapshot.sendFailTotal
  packetValidationTotal := snapshot.packetValidationTotal
  packetValidationFailureTotal := snapshot.packetValidationFailureTotal
  connectedClients := snapshot.connectedClients
  pendingAcceptCount := snapshot.pendingAcceptCount
  pendingRecvCount := snapshot.pendingRecvCount
  pendingSendCount := snapshot.pendingSendCount
  dispatcherQueueLength := snapshot.dispatcherQueueLength
  runnableWorkerThreadCount := snapshot.runnableWorkerThreadCount
  queueWaitMsAvg := snapshot.queueWait.averageMilliseconds
  queueWaitMsMax := snapshot.queueWait.maxMilliseconds
  dispatchProcessMsAvg := snapshot.dispatchProcess.averageMilliseconds
  dispatchProcessMsMax := snapshot.dispatchProcess.maxMilliseconds
  tickDurationMsAvg := snapshot.tickDuration.averageMilliseconds
  tickDurationMsMax := snapshot.tickDuration.maxMilliseconds
  tickLagMsAvg := snapshot.tickLag.averageMilliseconds
  tickLagMsMax := snapshot.tickLag.maxMilliseconds
  processCpuPercent := runtime.processCpuPercent
  logicThreadCpuPercent := runtime.logicThreadCpuPercent
  threadCount := runtime.threadCount
  drained := snapshot.drained

namespace ServerMetricsWriter
variable (platform : Platform)

/-- The members of a line. The elapsed time is in whole seconds. `previous` is never null. -/
def snapshotFields (record previous : SnapshotRecord F) : List (JsonField F) :=
  let elapsed :=
    (record.capturedAtSteady - previous.capturedAtSteady).tdiv 1000000000 * 1000000000
  let rate (current prior : Nat) : F := computeRate current prior elapsed
  [
    .timestamp "ts" record.capturedAt,
    .counter "accept_total" record.acceptTotal,
    .number "accept_per_sec" (rate record.acceptTotal previous.acceptTotal),
    .counter "disconnect_total" record.disconnectTotal,
    .number "disconnect_per_sec" (rate record.disconnectTotal previous.disconnectTotal),
    .counter "recv_packets_total" record.recvPacketsTotal,
    .number "recv_packets_per_sec" (rate record.recvPacketsTotal previous.recvPacketsTotal),
    .counter "send_packets_total" record.sendPacketsTotal,
    .number "send_packets_per_sec" (rate record.sendPacketsTotal previous.sendPacketsTotal),
    .counter "recv_bytes_total" record.recvBytesTotal,
    .number "recv_bytes_per_sec" (rate record.recvBytesTotal previous.recvBytesTotal),
    .counter "send_bytes_total" record.sendBytesTotal,
    .number "send_bytes_per_sec" (rate record.sendBytesTotal previous.sendBytesTotal),
    .counter "send_fail_total" record.sendFailTotal,
    .counter "packet_validation_total" record.packetValidationTotal,
    .counter "packet_validation_failure_total" record.packetValidationFailureTotal,
    .gauge "connected_clients" record.connectedClients,
    .gauge "pending_accept_count" record.pendingAcceptCount,
    .gauge "pending_recv_count" record.pendingRecvCount,
    .gauge "pending_send_count" record.pendingSendCount,
    .gauge "dispatcher_queue_length" record.dispatcherQueueLength,
    .gauge "runnable_worker_thread_count" record.runnableWorkerThreadCount,
    .number "queue_wait_ms_avg" record.queueWaitMsAvg,
    .number "queue_wait_ms_max" record.queueWaitMsMax,
    .number "dispatch_process_ms_avg" record.dispatchProcessMsAvg,
    .number "dispatch_process_ms_max" record.dispatchProcessMsMax,
    .number "tick_duration_ms_avg" record.tickDurationMsAvg,
    .number "tick_duration_ms_max" record.tickDurationMsMax,
    .number "tick_lag_ms_avg" record.tickLagMsAvg,
    .number "tick_lag_ms_max" record.tickLagMsMax,
    .number "process_cpu_percent" record.processCpuPercent,
    .number "logic_thread_cpu_percent" record.logicThreadCpuPercent,
    .uint "thread_count" record.threadCount]

/-- `oss.str()` is read before the destructor of `json` has written the closing brace. -/
def buildSnapshotJson (record previous : SnapshotRecord F) : Text :=
  unclosedObject platform (snapshotFields record previous)

def captureAndWriteSnapshot (w : ServerWriter F) (i : ServerCapture) :
    Bool × ServerWriter F × List Effect :=
  let (runtime, sampler) := w.sampler.sample i.reading
  let record := SnapshotRecord.of i.snapshot i.steadyNow runtime
  let w := { w with sampler }
  let taken := Effect.taken i.snapshot.drained
  match i.file with
  | .openFailed =>
    (false, { w with lastError := "failed to open metrics snapshot file".toList }, [taken])
  | .writeFailed =>
    (false, { w with lastError := "failed to write metrics snapshot".toList }, [taken])
  | .closeFailed | .written =>
    let line := Effect.line w.snapshotPath (buildSnapshotJson platform record w.baseline)
      record.drained
    (true, { w with summary := w.summary.observe record w.baseline, baseline := record },
      [taken] ++ (if i.file = SnapshotFile.written then [line] else []) ++
        [Effect.observed record.drained])

def new (manifest : RunManifest) : ServerWriter F where
  manifest
  outputDirectory := []
  manifestPath := []
  snapshotPath := []
  summaryPath := []
  summary := SummaryAccumulator.zero
  sampler := RuntimeSampler.new
  baseline := SnapshotRecord.zero
  running := false
  joinable := false
  lastError := []

/-- `Start` resets the summary and the sampler. -/
def code (config : MetricsConfig) :
    WriterCode ServerCapture (SummaryAccumulator F) RuntimeSampler (SnapshotRecord F) where
  config
  defaultName := "server"
  snapshotName := "server-metrics.jsonl"
  directoryFailed := "failed to create metrics output directory: "
  threadFailed := "failed to start metrics writer thread"
  reset w := { w with summary := SummaryAccumulator.zero, sampler := w.sampler.reset }
  capture w _ i := captureAndWriteSnapshot platform w i
  setLogicThreadId := some RuntimeSampler.setLogicThreadId
  buildMarkdown := SummaryAccumulator.buildMarkdown platform

end ServerMetricsWriter
end
end Highp.Metrics
