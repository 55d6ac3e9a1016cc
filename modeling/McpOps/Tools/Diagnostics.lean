import McpOps.Python.Sorting
import McpOps.Simulator.AlertReasons
import McpOps.Tools.Devices
import Mathlib.Data.Finset.Sort
import Mathlib.Data.String.Basic
import Mathlib.Data.List.Infix

/-!
# The diagnostics engine

`RuleBasedDiagnosticsEngine`: the telemetry of a device and its recent errors are turned into
signals, and rules over the matched signals give probable causes, recommended actions and a
severity.

The evidence is a list with one entry for each metric, error code, text and state of a service
that the engine looks for, matched or not (`collectEvidence`).  The entries of one kind are made
by one function with the signal, the threshold and the text as its parameters.  A rule is its
condition on the matched signals and what it adds (`diagnosticRules`, in the order of the source).

Beside the diagnosis itself there are the incidents that share signals with it, the references, a
timeline and a confidence, each under the name of the function in the source.  How a number is
written and the ratio of similarity are taken from Python's library (`DiagnosticsRuntime`).
-/

namespace McpOps

/-! ## Reports -/

structure DiagnosticEvidence where
  signal : String
  value : Value
  threshold : Value
  matched : Bool
  detail : String

structure DiagnosticTimelineEvent where
  timestamp : Time
  eventType : String
  detail : String

structure RelatedIncident where
  incidentId : String
  title : String
  matchedSignals : List String
  similarity : ℚ

structure DiagnosticReference where
  documentId : String
  title : String
  documentType : String
  version : String
  sectionTitle : String
  matchedSignals : List String
  citation : String

/-- A report.  Its severity is one of the three that the engine gives. -/
structure DiagnosticReport where
  diagnosticId : String
  deviceId : String
  timestamp : Time
  severity : AlertSeverity
  observations : List String
  evidence : List DiagnosticEvidence
  possibleCauses : List String
  recommendedActions : List String
  confidence : ℚ
  relatedIncidents : List RelatedIncident
  references : List DiagnosticReference
  timeline : List DiagnosticTimelineEvent

/-- What is taken from Python's library. -/
structure DiagnosticsRuntime extends SimulatorRuntime where
  /-- `round(x, 2)` -/
  round2 : ℚ → ℚ

/-! ## Evidence -/

/-- `needle in text`. -/
def containsText (needle text : String) : Bool := decide (needle.toList <:+: text.toList)

/-- `f"{x}"`, of a `float`. -/
def floatText (rt : SimulatorRuntime) (x : ℚ) : String := pyStr rt (.float (.finite x))

/-- `{str(error.get("error_code")) for error in recent_errors}`. -/
def errorCodes (rt : SimulatorRuntime) (recentErrors : List PyDict) : List String :=
  recentErrors.map fun error => pyStr rt ((error.get? "error_code").getD .null)

/-- `" ".join(str(error.get("message", "")).lower() for error in recent_errors)`. -/
def joinedMessages (rt : SimulatorRuntime) (recentErrors : List PyDict) : String :=
  " ".intercalate (recentErrors.map fun error =>
    rt.lower (pyStr rt ((error.get? "message").getD (.str ""))))

/-- The names of the services in a state. -/
def DeviceTelemetry.servicesIn (state : ServiceState) (telemetry : DeviceTelemetry) :
    List String :=
  (telemetry.serviceStates.entries.filter fun entry => entry.2 = state).map Prod.fst

/-- `", ".join(names) or "none"`. -/
def namesOrNone (names : List String) : String :=
  if ", ".intercalate names = "" then "none" else ", ".intercalate names

/-- The evidence of a metric above its threshold. -/
def metricEvidence (signal : String) (value threshold : ℚ) (detail : String) :
    DiagnosticEvidence where
  signal
  value := .float (.finite value)
  threshold := .float (.finite threshold)
  matched := threshold < value
  detail

/-- The evidence of an error code, or of a text among the messages. -/
def errorEvidence (signal : String) (value matched : Bool) (detail : String) :
    DiagnosticEvidence where
  signal
  value := .bool value
  threshold := .bool true
  matched
  detail

/-- The evidence of services in a state. -/
def serviceEvidence (signal : String) (names : List String) (threshold detail : String) :
    DiagnosticEvidence where
  signal
  value := .str (",".intercalate names)
  threshold := .str threshold
  matched := !names.isEmpty
  detail

/-- `_collect_evidence(device, telemetry, recent_errors)`. -/
def collectEvidence (rt : SimulatorRuntime) (device : SimulatedDevice)
    (telemetry : DeviceTelemetry) (recentErrors : List PyDict) : List DiagnosticEvidence :=
  let codes := errorCodes rt recentErrors
  let messages := joinedMessages rt recentErrors
  let crashed := telemetry.servicesIn .crashed
  let degraded := telemetry.servicesIn .degraded
  let scenario := (device.activeScenario.map FailureScenario.value).getD "none"
  [metricEvidence "packet_loss" telemetry.packetLossPercent 10
      ("Packet loss is " ++ floatText rt telemetry.packetLossPercent ++ "%."),
    errorEvidence "network_timeout_error" (decide ("E-NET-TIMEOUT" ∈ codes))
      (decide ("E-NET-TIMEOUT" ∈ codes) || containsText "timeout" messages)
      "Recent errors include network timeout evidence.",
    metricEvidence "cpu_percent" telemetry.cpuPercent 90
      ("CPU usage is " ++ floatText rt telemetry.cpuPercent ++ "%."),
    metricEvidence "high_latency" telemetry.networkLatencyMs 250
      ("Network/process response latency is " ++ floatText rt telemetry.networkLatencyMs ++ "ms."),
    errorEvidence "process_latency_error" (decide ("E-CPU-LATENCY" ∈ codes))
      (decide ("E-CPU-LATENCY" ∈ codes) || containsText "response latency" messages)
      "Recent errors include process response latency evidence.",
    metricEvidence "memory_percent" telemetry.memoryPercent 90
      ("Memory usage is " ++ floatText rt telemetry.memoryPercent ++ "%."),
    serviceEvidence "crashed_service" crashed "no crashed services"
      ("Crashed services: " ++ namesOrNone crashed ++ "."),
    serviceEvidence "degraded_service" degraded "no degraded services"
      ("Degraded services: " ++ namesOrNone degraded ++ "."),
    errorEvidence "crash_log" (containsText "crash" messages) (containsText "crash" messages)
      "Recent logs include crash evidence.",
    errorEvidence "sensor_initialization_error" (decide ("E-SENSOR-INIT" ∈ codes))
      (decide ("E-SENSOR-INIT" ∈ codes)) "Recent errors include sensor initialization failure.",
    { signal := "telemetry_delay"
      value := .bool telemetry.delayed
      threshold := .bool false
      matched := telemetry.delayed
      detail := "Telemetry timestamp is delayed beyond expected interval." },
    metricEvidence "disk_percent" telemetry.diskPercent 85
      ("Disk usage is " ++ floatText rt telemetry.diskPercent ++ "%."),
    metricEvidence "temperature_c" telemetry.temperatureC 80
      ("Temperature is " ++ floatText rt telemetry.temperatureC ++ "C."),
    { signal := "device_active_scenario"
      value := .str scenario
      threshold := .null
      matched := device.activeScenario.isSome
      detail := "Simulator scenario is " ++ scenario ++ "." }]

/-- `{item.signal for item in evidence if item.matched}`. -/
def matchedSignals (evidence : List DiagnosticEvidence) : Finset String :=
  ((evidence.filter DiagnosticEvidence.matched).map DiagnosticEvidence.signal).toFinset

/-- `_severity(evidence)`. -/
def severity (evidence : List DiagnosticEvidence) : AlertSeverity :=
  let matched := matchedSignals evidence
  if {"packet_loss", "network_timeout_error"} ⊆ matched then .critical
  else if "crashed_service" ∈ matched ∨ "cpu_percent" ∈ matched ∨ "temperature_c" ∈ matched then
    .critical
  else if ({"memory_percent", "disk_percent", "telemetry_delay", "degraded_service", "crash_log",
      "sensor_initialization_error"} ∩ matched).Nonempty then
    .warning
  else .info

/-! ## Rules -/

/-- A rule: when it matches, and what it adds to the report. -/
structure DiagnosticRule where
  condition : Finset String → Bool
  cause : String
  action : String

/-- The rules of `diagnose`, in order. -/
def diagnosticRules : List DiagnosticRule :=
  [{ condition := fun matched => {"packet_loss", "network_timeout_error"} ⊆ matched
     cause := "network communication issue"
     action := "Inspect network path and telemetry-agent connectivity." },
    { condition := fun matched =>
        decide ("cpu_percent" ∈ matched) &&
          (decide ("high_latency" ∈ matched) || decide ("process_latency_error" ∈ matched))
      cause := "CPU saturation candidate"
      action := "Review CPU-bound simulator processes and diagnostic-runner load." },
    { condition := fun matched => {"crashed_service", "crash_log"} ⊆ matched
      cause := "service failure candidate"
      action := "Follow governed service restart procedure for the affected service." },
    { condition := fun matched => "memory_percent" ∈ matched
      cause := "memory pressure candidate"
      action := "Capture heap/process memory profile and restart only after approval." },
    { condition := fun matched => "telemetry_delay" ∈ matched
      cause := "telemetry delay"
      action := "Verify telemetry scheduler and Kafka publish latency." },
    { condition := fun matched => "disk_percent" ∈ matched
      cause := "disk capacity warning"
      action := "Clear old diagnostic artifacts or increase simulator disk allocation." },
    { condition := fun matched => "sensor_initialization_error" ∈ matched
      cause := "sensor initialization failure"
      action := "Run sensor initialization SOP before restart_service." }]

/-- The cause that is reported when no rule matches. -/
def noRuleMatched : String := "no deterministic failure rule matched"

/-- The rules that match. -/
def matchingRules (matched : Finset String) : List DiagnosticRule :=
  diagnosticRules.filter fun rule => rule.condition matched

/-- `possible_causes`. -/
def possibleCauses (matched : Finset String) : List String :=
  match matchingRules matched with
  | [] => [noRuleMatched]
  | rules => rules.map DiagnosticRule.cause

/-- `_dedupe(values)`. -/
def dedupe (values : List String) : List String :=
  values.foldl (fun deduped value => if value ∈ deduped then deduped else deduped ++ [value]) []

/-- `_dedupe(recommended_actions)`. -/
def recommendedActions (matched : Finset String) : List String :=
  match matchingRules matched with
  | [] => dedupe ["Collect additional telemetry and logs before operating the device."]
  | rules => dedupe (rules.map DiagnosticRule.action)

/-! ## What surrounds the diagnosis -/

/-- `SIGNAL_GROUPS`. -/
def signalGroups : List (String × Finset String) :=
  [("network", {"packet_loss", "network_timeout_error", "high_latency", "degraded_service"}),
    ("compute", {"cpu_percent", "process_latency_error", "memory_percent", "high_latency"}),
    ("service", {"crashed_service", "crash_log", "sensor_initialization_error"}),
    ("storage", {"disk_percent", "telemetry_delay"})]

/-- `_expand_signals(signals)`. -/
def expandSignals (signals : Finset String) : Finset String :=
  signals ∪ ((signalGroups.filter fun group => (signals ∩ group.2).Nonempty).map Prod.fst).toFinset

/-- `_signal_similarity(left, right, overlap)`. -/
def signalSimilarity (rt : DiagnosticsRuntime) (left right overlap : Finset String) : ℚ :=
  if left = ∅ ∨ right = ∅ ∨ overlap = ∅ then 0
  else
    let groupBonus : ℚ := 15 / 100 * (overlap.filter fun signal =>
      signal ∈ signalGroups.map Prod.fst).card
    rt.round2 (min 1 ((overlap.card : ℚ) / (left ∪ right).card + groupBonus))

/-- The iteration over a value: the items of a list, the keys of a `dict`, the characters of a
text. -/
def iterate : Value → Except SimulatorError (List Value)
  | .list items => .ok items
  | .dict entries => .ok (entries.map fun entry => .str entry.1)
  | .str s => .ok (s.toList.map fun c => .str (String.singleton c))
  | _ => .error (.typeError "object is not iterable")

/-- `set(str(signal) for signal in d.get(key, []))`. -/
def signalSet (rt : SimulatorRuntime) (d : PyDict) (key : String) :
    Except SimulatorError (Finset String) := do
  let signals ← iterate ((d.get? key).getD (.list []))
  .ok (signals.map (pyStr rt)).toFinset

/-- The loop body of `SignalSimilarityIncidentRetriever.retrieve`. -/
def relatedIncident (rt : DiagnosticsRuntime) (matched : Finset String) (incident : PyDict) :
    Except SimulatorError (Option RelatedIncident) := do
  let signals ← signalSet rt.toSimulatorRuntime incident "signals"
  let semanticOverlap := expandSignals matched ∩ expandSignals signals
  let similarity := signalSimilarity rt (expandSignals matched) (expandSignals signals)
    semanticOverlap
  if similarity ≤ 0 then .ok none
  else do
    let incidentId ← payloadItem incident "incident_id"
    let title ← payloadItem incident "title"
    .ok (some
      { incidentId := pyStr rt.toSimulatorRuntime incidentId
        title := pyStr rt.toSimulatorRuntime title
        matchedSignals := ((matched ∩ signals) ∪ semanticOverlap).sort
        similarity })

/-- `_related_incidents(incidents, matched_signals)`. -/
def relatedIncidents (rt : DiagnosticsRuntime) (incidents : List PyDict)
    (matched : Finset String) : Except SimulatorError (List RelatedIncident) := do
  let related ← incidents.mapM (relatedIncident rt matched)
  .ok ((related.filterMap id).mergeSort fun a b => decide (b.similarity ≤ a.similarity))

/-- The loop body of `_references`. -/
def diagnosticReference (rt : SimulatorRuntime) (matched : Finset String) (reference : PyDict) :
    Except SimulatorError (Option DiagnosticReference) := do
  let signals ← signalSet rt reference "matched_signals"
  if signals ∩ matched = ∅ then .ok none
  else do
    let documentId ← payloadItem reference "document_id"
    let title ← payloadItem reference "title"
    let documentType ← payloadItem reference "document_type"
    let version ← payloadItem reference "version"
    let sectionTitle ← payloadItem reference "section"
    let citation ← payloadItem reference "citation"
    .ok (some
      { documentId := pyStr rt documentId
        title := pyStr rt title
        documentType := pyStr rt documentType
        version := pyStr rt version
        sectionTitle := pyStr rt sectionTitle
        matchedSignals := (signals ∩ matched).sort
        citation := pyStr rt citation })

/-- `_references(references, matched_signals)`. -/
def diagnosticReferences (rt : SimulatorRuntime) (references : List PyDict)
    (matched : Finset String) : Except SimulatorError (List DiagnosticReference) := do
  let found ← references.mapM (diagnosticReference rt matched)
  .ok (found.filterMap id)

/-- `f"{error.get('error_code')}: {error.get('message')}"`. -/
def errorText (rt : SimulatorRuntime) (error : PyDict) : String :=
  pyStr rt ((error.get? "error_code").getD .null) ++ ": " ++
    pyStr rt ((error.get? "message").getD .null)

/-- `_timeline(device, telemetry, recent_errors, evidence)`. -/
def timeline (rt : SimulatorRuntime) (device : SimulatedDevice) (telemetry : DeviceTelemetry)
    (recentErrors : List PyDict) (evidence : List DiagnosticEvidence) :
    List DiagnosticTimelineEvent :=
  let identified : List DiagnosticTimelineEvent :=
    [⟨device.lastSeen, "device_identified", "Identified " ++ device.deviceId ++ "."⟩,
      ⟨telemetry.timestamp, "telemetry_collected", "Collected current simulator telemetry."⟩]
  let errors := recentErrors.map fun error =>
    (⟨telemetry.timestamp, "error_collected", errorText rt error⟩ : DiagnosticTimelineEvent)
  let rules := (evidence.filter DiagnosticEvidence.matched).map fun item =>
    (⟨telemetry.timestamp, "rule_matched", item.signal⟩ : DiagnosticTimelineEvent)
  (identified ++ errors ++ rules).mergeSort fun a b => decide (a.timestamp ≤ b.timestamp)

/-- `_confidence(evidence, related)`. -/
def confidence (rt : DiagnosticsRuntime) (evidence : List DiagnosticEvidence)
    (related : List RelatedIncident) : ℚ :=
  let matchedCount := (evidence.filter DiagnosticEvidence.matched).length
  rt.round2 (min (95 / 100) (35 / 100 + matchedCount * (7 / 100) + related.length * (5 / 100)))

/-- `RuleBasedDiagnosticsEngine().diagnose(..)`. -/
def diagnose (rt : DiagnosticsRuntime) (device : SimulatedDevice) (telemetry : DeviceTelemetry)
    (recentErrors historicalIncidents : List PyDict)
    (knowledgeReferences : Option (List PyDict)) : Except SimulatorError DiagnosticReport := do
  let evidence := collectEvidence rt.toSimulatorRuntime device telemetry recentErrors
  let matched := matchedSignals evidence
  let related ← relatedIncidents rt historicalIncidents matched
  let references ←
    diagnosticReferences rt.toSimulatorRuntime (knowledgeReferences.getD []) matched
  .ok
    { diagnosticId := (rt.deterministicUuid ("diagnostic:" ++ device.deviceId ++ ":" ++
        rt.isoformat telemetry.timestamp)).str
      deviceId := device.deviceId
      timestamp := telemetry.timestamp
      severity := severity evidence
      observations :=
        (evidence.filter DiagnosticEvidence.matched).map DiagnosticEvidence.detail
      evidence
      possibleCauses := possibleCauses matched
      recommendedActions := recommendedActions matched
      confidence := confidence rt evidence related
      relatedIncidents := related
      references
      timeline := timeline rt.toSimulatorRuntime device telemetry recentErrors evidence }

end McpOps
