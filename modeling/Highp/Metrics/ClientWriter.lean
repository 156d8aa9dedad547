import Highp.Metrics.ServerWriter

/-! `ClientMetricsWriter`. Its first snapshot is a baseline that it does not write. -/

namespace Highp.Metrics

inductive ClientDisconnectReason
  | none
  | timeout
  | serverClose
  | recvFail
  | localClose
  deriving DecidableEq

/-- `ToString`. -/
def ClientDisconnectReason.text : ClientDisconnectReason → String
  | .timeout => "timeout"
  | .serverClose => "server close"
  | .recvFail => "recv fail"
  | .localClose => "local close"
  | .none => "none"

structure ClientMetricsSnapshot (F : Type) where
  capturedAt : Int
  connectSuccessTotal : Nat
  connectFailureTotal : Nat
  disconnectTotal : Nat
  sendPacketsTotal : Nat
  recvPacketsTotal : Nat
  sendBytesTotal : Nat
  recvBytesTotal : Nat
  sendFailTotal : Nat
  responseTimeoutTotal : Nat
  packetValidationTotal : Nat
  packetValidationFailureTotal : Nat
  disconnectTimeoutTotal : Nat
  disconnectServerCloseTotal : Nat
  disconnectRecvFailTotal : Nat
  disconnectLocalCloseTotal : Nat
  connected : Int
  pendingRequestCount : Nat
  connectLatency : TimingWindow
  requestRtt : TimingWindow
  lastConnectLatencyMs : F
  currentSessionUptimeMs : Nat
  lastSessionUptimeMs : Nat
  maxSessionUptimeMs : Nat
  timeSinceLastRecvMs : Nat
  lastDisconnectReason : ClientDisconnectReason
  drained : List Nat

/-- `ClientMetricsWriter::SnapshotRecord`. -/
structure ClientRecord (F : Type) where
  capturedAt : Int
  connectSuccessTotal : Nat
  connectFailureTotal : Nat
  disconnectTotal : Nat
  sendPacketsTotal : Nat
  recvPacketsTotal : Nat
  sendBytesTotal : Nat
  recvBytesTotal : Nat
  sendFailTotal : Nat
  responseTimeoutTotal : Nat
  packetValidationTotal : Nat
  packetValidationFailureTotal : Nat
  disconnectTimeoutTotal : Nat
  disconnectServerCloseTotal : Nat
  disconnectRecvFailTotal : Nat
  disconnectLocalCloseTotal : Nat
  connected : Int
  pendingRequestCount : Nat
  connectLatencyMsAvg : F
  connectLatencyMsMax : F
  requestRttMsAvg : F
  requestRttMsMax : F
  lastConnectLatencyMs : F
  currentSessionUptimeMs : Nat
  lastSessionUptimeMs : Nat
  maxSessionUptimeMs : Nat
  timeSinceLastRecvMs : Nat
  lastDisconnectReason : ClientDisconnectReason
  processCpuPercent : F
  threadCount : Nat
  drained : List Nat

/-- `SummaryStats`. -/
structure SummaryStats (F : Type) where
  snapshots : Nat
  avgConnectLatencyMsSum : F
  avgRequestRttMsSum : F
  sendPacketsPerSecSum : F
  recvPacketsPerSecSum : F
  sendBytesPerSecSum : F
  recvBytesPerSecSum : F
  processCpuPercentSum : F
  maxConnectLatencyMs : F
  maxRequestRttMs : F
  maxSendPacketsPerSec : F
  maxRecvPacketsPerSec : F
  maxSendBytesPerSec : F
  maxRecvBytesPerSec : F
  maxProcessCpuPercent : F
  maxSessionUptimeMs : Nat
  maxTimeSinceLastRecvMs : Nat
  maxPendingRequestCount : Nat
  maxThreadCount : Nat
  connectSuccessTotal : Nat
  connectFailureTotal : Nat
  disconnectTotal : Nat
  sendFailTotal : Nat
  responseTimeoutTotal : Nat
  packetValidationFailureTotal : Nat
  disconnectTimeoutTotal : Nat
  disconnectServerCloseTotal : Nat
  disconnectRecvFailTotal : Nat
  disconnectLocalCloseTotal : Nat
  lastDisconnectReason : ClientDisconnectReason

/-- The fields that `SampleRuntime` keeps. -/
structure RuntimeBaseline where
  lastRuntimeSampleAt : Int
  lastProcessKernel100ns : Nat
  lastProcessUser100ns : Nat
  hasRuntimeBaseline : Bool

structure PreviousRecord (F : Type) where
  previousRecord : ClientRecord F
  hasPreviousRecord : Bool

/-- What a snapshot of the client meets. -/
structure ClientCapture (F : Type) where
  snapshot : ClientMetricsSnapshot F
  reading : ProcessReading
  file : SnapshotFile

section
variable {F : Type} [Double F]

def ClientRecord.zero : ClientRecord F where
  capturedAt := 0
  connectSuccessTotal := 0
  connectFailureTotal := 0
  disconnectTotal := 0
  sendPacketsTotal := 0
  recvPacketsTotal := 0
  sendBytesTotal := 0
  recvBytesTotal := 0
  sendFailTotal := 0
  responseTimeoutTotal := 0
  packetValidationTotal := 0
  packetValidationFailureTotal := 0
  disconnectTimeoutTotal := 0
  disconnectServerCloseTotal := 0
  disconnectRecvFailTotal := 0
  disconnectLocalCloseTotal := 0
  connected := 0
  pendingRequestCount := 0
  connectLatencyMsAvg := Double.ofInt 0
  connectLatencyMsMax := Double.ofInt 0
  requestRttMsAvg := Double.ofInt 0
  requestRttMsMax := Double.ofInt 0
  lastConnectLatencyMs := Double.ofInt 0
  currentSessionUptimeMs := 0
  lastSessionUptimeMs := 0
  maxSessionUptimeMs := 0
  timeSinceLastRecvMs := 0
  lastDisconnectReason := .none
  processCpuPercent := Double.ofInt 0
  threadCount := 0
  drained := []

def SummaryStats.zero : SummaryStats F where
  snapshots := 0
  avgConnectLatencyMsSum := Double.ofInt 0
  avgRequestRttMsSum := Double.ofInt 0
  sendPacketsPerSecSum := Double.ofInt 0
  recvPacketsPerSecSum := Double.ofInt 0
  sendBytesPerSecSum := Double.ofInt 0
  recvBytesPerSecSum := Double.ofInt 0
  processCpuPercentSum := Double.ofInt 0
  maxConnectLatencyMs := Double.ofInt 0
  maxRequestRttMs := Double.ofInt 0
  maxSendPacketsPerSec := Double.ofInt 0
  maxRecvPacketsPerSec := Double.ofInt 0
  maxSendBytesPerSec := Double.ofInt 0
  maxRecvBytesPerSec := Double.ofInt 0
  maxProcessCpuPercent := Double.ofInt 0
  maxSessionUptimeMs := 0
  maxTimeSinceLastRecvMs := 0
  maxPendingRequestCount := 0
  maxThreadCount := 0
  connectSuccessTotal := 0
  connectFailureTotal := 0
  disconnectTotal := 0
  sendFailTotal := 0
  responseTimeoutTotal := 0
  packetValidationFailureTotal := 0
  disconnectTimeoutTotal := 0
  disconnectServerCloseTotal := 0
  disconnectRecvFailTotal := 0
  disconnectLocalCloseTotal := 0
  lastDisconnectReason := .none

def RuntimeBaseline.zero : RuntimeBaseline := ⟨0, 0, 0, false⟩

def PreviousRecord.none : PreviousRecord F := ⟨ClientRecord.zero, false⟩

/-- `SampleRuntime`: the percentage and the number of threads. -/
def RuntimeBaseline.sampleRuntime (s : RuntimeBaseline) (reading : ProcessReading) :
    F × Nat × RuntimeBaseline :=
  match reading.processTimes with
  | Option.none => (Double.ofInt 0, 0, ⟨reading.now, 0, 0, false⟩)
  | some (processKernel100ns, processUser100ns) =>
    let sampled : RuntimeBaseline := ⟨reading.now, processKernel100ns, processUser100ns, true⟩
    if !s.hasRuntimeBaseline then (Double.ofInt 0, reading.threadCount, sampled)
    else
      let elapsedSeconds : F :=
        Double.ofInt (reading.now - s.lastRuntimeSampleAt) / Double.ofInt 1000000000
      if Double.lt (Double.ofInt 0) elapsedSeconds then
        let processDelta := (minus64 processKernel100ns s.lastProcessKernel100ns +
          minus64 processUser100ns s.lastProcessUser100ns) % 2 ^ 64
        let processSeconds : F := secondsOf100ns processDelta
        (processSeconds / elapsedSeconds / Double.ofInt reading.processorCount *
          Double.ofInt 100, reading.threadCount, sampled)
      else (Double.ofInt 0, reading.threadCount, sampled)

namespace SummaryStats

/-- `ObserveSummary`; without a previous record the rates are zero. -/
def observe (s : SummaryStats F) (record : ClientRecord F) (previous : Option (ClientRecord F)) :
    SummaryStats F :=
  let rate (total : ClientRecord F → Nat) : F :=
    match previous with
    | Option.none => Double.ofInt 0
    | some previous =>
      computeRate (total record) (total previous) (record.capturedAt - previous.capturedAt)
  let sendPacketsPerSec := rate ClientRecord.sendPacketsTotal
  let recvPacketsPerSec := rate ClientRecord.recvPacketsTotal
  let sendBytesPerSec := rate ClientRecord.sendBytesTotal
  let recvBytesPerSec := rate ClientRecord.recvBytesTotal
  { snapshots := (s.snapshots + 1) % 2 ^ 64
    avgConnectLatencyMsSum := s.avgConnectLatencyMsSum + record.connectLatencyMsAvg
    avgRequestRttMsSum := s.avgRequestRttMsSum + record.requestRttMsAvg
    maxConnectLatencyMs := Double.max s.maxConnectLatencyMs record.connectLatencyMsMax
    maxRequestRttMs := Double.max s.maxRequestRttMs record.requestRttMsMax
    maxSessionUptimeMs := max s.maxSessionUptimeMs record.maxSessionUptimeMs
    maxTimeSinceLastRecvMs := max s.maxTimeSinceLastRecvMs record.timeSinceLastRecvMs
    maxPendingRequestCount := max s.maxPendingRequestCount record.pendingRequestCount
    maxProcessCpuPercent := Double.max s.maxProcessCpuPercent record.processCpuPercent
    maxThreadCount := max s.maxThreadCount record.threadCount
    processCpuPercentSum := s.processCpuPercentSum + record.processCpuPercent
    connectSuccessTotal := record.connectSuccessTotal
    connectFailureTotal := record.connectFailureTotal
    disconnectTotal := record.disconnectTotal
    sendFailTotal := record.sendFailTotal
    responseTimeoutTotal := record.responseTimeoutTotal
    packetValidationFailureTotal := record.packetValidationFailureTotal
    disconnectTimeoutTotal := record.disconnectTimeoutTotal
    disconnectServerCloseTotal := record.disconnectServerCloseTotal
    disconnectRecvFailTotal := record.disconnectRecvFailTotal
    disconnectLocalCloseTotal := record.disconnectLocalCloseTotal
    lastDisconnectReason := record.lastDisconnectReason
    sendPacketsPerSecSum := s.sendPacketsPerSecSum + sendPacketsPerSec
    recvPacketsPerSecSum := s.recvPacketsPerSecSum + recvPacketsPerSec
    sendBytesPerSecSum := s.sendBytesPerSecSum + sendBytesPerSec
    recvBytesPerSecSum := s.recvBytesPerSecSum + recvBytesPerSec
    maxSendPacketsPerSec := Double.max s.maxSendPacketsPerSec sendPacketsPerSec
    maxRecvPacketsPerSec := Double.max s.maxRecvPacketsPerSec recvPacketsPerSec
    maxSendBytesPerSec := Double.max s.maxSendBytesPerSec sendBytesPerSec
    maxRecvBytesPerSec := Double.max s.maxRecvBytesPerSec recvBytesPerSec }

def bottleneck (s : SummaryStats F) : String :=
  if s.responseTimeoutTotal > 0 ∨ s.maxTimeSinceLastRecvMs ≥ 3000 then "Response / Network"
  else if s.packetValidationFailureTotal > 0 then "Protocol"
  else if Double.le (Double.ofInt 80) s.maxProcessCpuPercent then "Runtime / CPU"
  else "none observed"

end SummaryStats

/-! ## `ClientMetricsWriter` -/

abbrev ClientWriter (F : Type) := Writer (SummaryStats F) RuntimeBaseline (PreviousRecord F)

/-- The record of a snapshot. -/
def ClientRecord.of (snapshot : ClientMetricsSnapshot F) (processCpuPercent : F)
    (threadCount : Nat) : ClientRecord F where
  capturedAt := snapshot.capturedAt
  connectSuccessTotal := snapshot.connectSuccessTotal
  connectFailureTotal := snapshot.connectFailureTotal
  disconnectTotal := snapshot.disconnectTotal
  sendPacketsTotal := snapshot.sendPacketsTotal
  recvPacketsTotal := snapshot.recvPacketsTotal
  sendBytesTotal := snapshot.sendBytesTotal
  recvBytesTotal := snapshot.recvBytesTotal
  sendFailTotal := snapshot.sendFailTotal
  responseTimeoutTotal := snapshot.responseTimeoutTotal
  packetValidationTotal := snapshot.packetValidationTotal
  packetValidationFailureTotal := snapshot.packetValidationFailureTotal
  disconnectTimeoutTotal := snapshot.disconnectTimeoutTotal
  disconnectServerCloseTotal := snapshot.disconnectServerCloseTotal
  disconnectRecvFailTotal := snapshot.disconnectRecvFailTotal
  disconnectLocalCloseTotal := snapshot.disconnectLocalCloseTotal
  connected := snapshot.connected
  pendingRequestCount := snapshot.pendingRequestCount
  connectLatencyMsAvg := snapshot.connectLatency.averageMilliseconds
  connectLatencyMsMax := snapshot.connectLatency.maxMilliseconds
  requestRttMsAvg := snapshot.requestRtt.averageMilliseconds
  requestRttMsMax := snapshot.requestRtt.maxMilliseconds
  lastConnectLatencyMs := snapshot.lastConnectLatencyMs
  currentSessionUptimeMs := snapshot.currentSessionUptimeMs
  lastSessionUptimeMs := snapshot.lastSessionUptimeMs
  maxSessionUptimeMs := snapshot.maxSessionUptimeMs
  timeSinceLastRecvMs := snapshot.timeSinceLastRecvMs
  lastDisconnectReason := snapshot.lastDisconnectReason
  processCpuPercent
  threadCount
  drained := snapshot.drained

namespace ClientMetricsWriter
variable (platform : Platform)

/-- The members of a line. The elapsed time is that of the system clock, in nanoseconds. -/
def snapshotFields (record : ClientRecord F) (previous : Option (ClientRecord F)) :
    List (JsonField F) :=
  let rate (total : ClientRecord F → Nat) : F :=
    match previous with
    | none => Double.ofInt 0
    | some previous =>
      computeRate (total record) (total previous) (record.capturedAt - previous.capturedAt)
  [
    .timestamp "ts" record.capturedAt,
    .counter "connect_success_total" record.connectSuccessTotal,
    .counter "connect_failure_total" record.connectFailureTotal,
    .counter "disconnect_total" record.disconnectTotal,
    .counter "send_packets_total" record.sendPacketsTotal,
    .number "send_packets_per_sec" (rate ClientRecord.sendPacketsTotal),
    .counter "recv_packets_total" record.recvPacketsTotal,
    .number "recv_packets_per_sec" (rate ClientRecord.recvPacketsTotal),
    .counter "send_bytes_total" record.sendBytesTotal,
    .number "send_bytes_per_sec" (rate ClientRecord.sendBytesTotal),
    .counter "recv_bytes_total" record.recvBytesTotal,
    .number "recv_bytes_per_sec" (rate ClientRecord.recvBytesTotal),
    .counter "send_fail_total" record.sendFailTotal,
    .counter "response_timeout_total" record.responseTimeoutTotal,
    .counter "packet_validation_total" record.packetValidationTotal,
    .counter "packet_validation_failure_total" record.packetValidationFailureTotal,
    .counter "disconnect_timeout_total" record.disconnectTimeoutTotal,
    .counter "disconnect_server_close_total" record.disconnectServerCloseTotal,
    .counter "disconnect_recv_fail_total" record.disconnectRecvFailTotal,
    .counter "disconnect_local_close_total" record.disconnectLocalCloseTotal,
    .gauge "connected" record.connected,
    .uint "pending_request_count" record.pendingRequestCount,
    .number "connect_latency_ms_last" record.lastConnectLatencyMs,
    .number "connect_latency_ms_avg" record.connectLatencyMsAvg,
    .number "connect_latency_ms_max" record.connectLatencyMsMax,
    .number "request_rtt_ms_avg" record.requestRttMsAvg,
    .number "request_rtt_ms_max" record.requestRttMsMax,
    .counter "current_session_uptime_ms" record.currentSessionUptimeMs,
    .counter "last_session_uptime_ms" record.lastSessionUptimeMs,
    .counter "max_session_uptime_ms" record.maxSessionUptimeMs,
    .counter "time_since_last_recv_ms" record.timeSinceLastRecvMs,
    .text "last_disconnect_reason" record.lastDisconnectReason.text.toList,
    .number "process_cpu_percent" record.processCpuPercent,
    .uint "thread_count" record.threadCount]

def buildSnapshotJson (record : ClientRecord F) (previous : Option (ClientRecord F)) : Text :=
  jsonObject platform (snapshotFields record previous)

def buildSummaryMarkdown (s : SummaryStats F) (manifest : RunManifest) (outputDirectory : Text) :
    Text :=
  let snapshotCount : F :=
    if s.snapshots = 0 then Double.ofInt 1 else Double.ofInt s.snapshots
  let average (name : String) (sum : F) := bullet name (formatNumber (sum / snapshotCount))
  "Client Metrics Summary\n\n".toList ++
  bullet "run_id" (if manifest.runId = [] then "run".toList else manifest.runId) ++
  bullet "client_name"
    (if manifest.serverName = [] then "client".toList else manifest.serverName) ++
  bullet "output_dir" outputDirectory ++
  bullet "started_at" ((manifest.startedAt.map (formatUtcTime platform)).getD []) ++
  bullet "finished_at" ((manifest.finishedAt.map (formatUtcTime platform)).getD []) ++ ['\n'] ++
  "Core Results\n".toList ++
  bullet "connect success total" (digits s.connectSuccessTotal) ++
  bullet "connect failure total" (digits s.connectFailureTotal) ++
  average "avg connect latency ms" s.avgConnectLatencyMsSum ++
  bullet "max connect latency ms" (formatNumber s.maxConnectLatencyMs) ++
  average "avg request RTT ms" s.avgRequestRttMsSum ++
  bullet "max request RTT ms" (formatNumber s.maxRequestRttMs) ++
  average "avg send packets/sec" s.sendPacketsPerSecSum ++
  bullet "max send packets/sec" (formatNumber s.maxSendPacketsPerSec) ++
  average "avg recv packets/sec" s.recvPacketsPerSecSum ++
  bullet "max recv packets/sec" (formatNumber s.maxRecvPacketsPerSec) ++
  average "avg send bytes/sec" s.sendBytesPerSecSum ++
  bullet "max send bytes/sec" (formatNumber s.maxSendBytesPerSec) ++
  average "avg recv bytes/sec" s.recvBytesPerSecSum ++
  bullet "max recv bytes/sec" (formatNumber s.maxRecvBytesPerSec) ++
  bullet "max session uptime ms" (digits s.maxSessionUptimeMs) ++
  bullet "max time since last recv ms" (digits s.maxTimeSinceLastRecvMs) ++
  bullet "max pending request count" (digits s.maxPendingRequestCount) ++
  bullet "send fail total" (digits s.sendFailTotal) ++
  bullet "response timeout total" (digits s.responseTimeoutTotal) ++
  bullet "packet validation failure total" (digits s.packetValidationFailureTotal) ++
  bullet "disconnect total" (digits s.disconnectTotal) ++
  bullet "disconnect reasons" (
    "timeout=".toList ++ digits s.disconnectTimeoutTotal ++
    ", server close=".toList ++ digits s.disconnectServerCloseTotal ++
    ", recv fail=".toList ++ digits s.disconnectRecvFailTotal ++
    ", local close=".toList ++ digits s.disconnectLocalCloseTotal) ++
  bullet "last disconnect reason" s.lastDisconnectReason.text.toList ++
  average "avg process CPU percent" s.processCpuPercentSum ++
  bullet "max process CPU percent" (formatNumber s.maxProcessCpuPercent) ++
  bullet "max thread count" (digits s.maxThreadCount) ++
  bullet "bottleneck guess" s.bottleneck.toList

/-- `CaptureAndWriteSnapshot` from `std::ofstream out` on. -/
def writeSnapshot (w : ClientWriter F) (record : ClientRecord F) (file : SnapshotFile) :
    Bool × ClientWriter F × List Effect :=
  let previous :=
    if w.baseline.hasPreviousRecord then some w.baseline.previousRecord else none
  match file with
  | .openFailed =>
    (false, { w with
      lastError := "failed to open client metrics snapshot file".toList }, [])
  | .writeFailed =>
    (false, { w with lastError := "failed to write client metrics snapshot".toList }, [])
  | .closeFailed | .written =>
    let line := Effect.line w.snapshotPath (buildSnapshotJson platform record previous)
      record.drained
    (true, { w with summary := w.summary.observe record previous, baseline := ⟨record, true⟩ },
      (if file = SnapshotFile.written then [line] else []) ++ [Effect.observed record.drained])

def captureAndWriteSnapshot (w : ClientWriter F) (finalSnapshot : Bool) (i : ClientCapture F) :
    Bool × ClientWriter F × List Effect :=
  let (processCpuPercent, threadCount, sampler) := w.sampler.sampleRuntime i.reading
  let record := ClientRecord.of i.snapshot processCpuPercent threadCount
  let w := { w with sampler }
  let taken := Effect.taken i.snapshot.drained
  if !w.baseline.hasPreviousRecord && !finalSnapshot then
    (true, { w with baseline := ⟨record, true⟩ }, [taken])
  else
    let w := if w.baseline.hasPreviousRecord then w else { w with baseline := ⟨record, true⟩ }
    let (ok, w, effects) := writeSnapshot platform w record i.file
    (ok, w, [taken] ++ effects)

def new (manifest : RunManifest) : ClientWriter F where
  manifest
  outputDirectory := []
  manifestPath := []
  snapshotPath := []
  summaryPath := []
  summary := SummaryStats.zero
  sampler := RuntimeBaseline.zero
  baseline := PreviousRecord.none
  running := false
  joinable := false
  lastError := []

/-- `Start` resets everything that a snapshot is compared with. -/
def code (config : MetricsConfig) :
    WriterCode (ClientCapture F) (SummaryStats F) RuntimeBaseline (PreviousRecord F) where
  config
  defaultName := "client"
  snapshotName := "client-metrics.jsonl"
  directoryFailed := "failed to create client metrics output directory: "
  threadFailed := "failed to start client metrics writer thread"
  reset w := { w with
    baseline := PreviousRecord.none
    summary := SummaryStats.zero
    sampler := RuntimeBaseline.zero }
  capture w finalSnapshot i := captureAndWriteSnapshot platform w finalSnapshot i
  setLogicThreadId := none
  buildMarkdown := buildSummaryMarkdown platform

end ClientMetricsWriter
end
end Highp.Metrics
