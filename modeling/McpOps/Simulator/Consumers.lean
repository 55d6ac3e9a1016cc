import McpOps.Python.Numbers
import McpOps.Simulator.Registry
import Mathlib.Data.List.Induction

/-!
# The telemetry consumer

Each telemetry event updates the health of its device and is followed by a health event, and by an
alert and an incident when its payload calls for them.  An event is marked as processed before any
of this is done, so that an event that fails is skipped when it is delivered again.

## Strategy

What a payload calls for is a list of events with their topics (`calledFor`), independent of the
publisher.  `Emits` says of the rest of `process` that it completes exactly when the publisher
takes the emissions, and has then published them; a publish comes first, and what follows it only
happens when it succeeds (`emits_cons`).

* A new event of a known device: the payload is read, the device stored anew, and then the events
  are published (`processNew_known`).  Otherwise nothing is published (`processNew_fails`).
* The ids that are remembered are those of the events that have been delivered
  (`mem_processedIds_run`), whether their processing failed or not.

So an event is processed in its first delivery only, to its end exactly when nothing fails there
(`process_first`).  `skipsOnlyCompleted_iff` and the results after it read this off a history,
with `FirstSmooth` as the condition on the first deliveries.
-/

namespace McpOps

/-! ## Reading a payload -/

/-- `payload[key]`. -/
def payloadItem (payload : PyDict) (key : String) : Except SimulatorError Value :=
  match payload.get? key with
  | some value => .ok value
  | none => .error (.keyError key)

/-- `str(value)`. -/
def pyStr (rt : SimulatorRuntime) : Value → String
  | .str s => s
  | value => rt.str value

/-- `_float(value)`. -/
def floatOf (rt : SimulatorRuntime) : Value → Except SimulatorError PyFloat
  | .bool b => .ok (.finite (if b then 1 else 0))
  | .int n =>
      match floatOfInt n with
      | some x => .ok x
      | none => .error .overflowError
  | .float x => .ok x
  | .str s =>
      match rt.parseFloat s with
      | some x => .ok x
      | none => .error (.valueError s)
  | _ => .error (.typeError "Expected numeric telemetry value")

/-- `_float(payload[key])`. -/
def floatItem (rt : SimulatorRuntime) (payload : PyDict) (key : String) :
    Except SimulatorError PyFloat := do
  let value ← payloadItem payload key
  floatOf rt value

/-- `ServiceState(str(state))`. -/
def serviceState (rt : SimulatorRuntime) (value : Value) : Except SimulatorError ServiceState :=
  match ServiceState.ofValue? (pyStr rt value) with
  | some state => .ok state
  | none => .error (.valueError (pyStr rt value))

/-- `_service_states(payload).values()`. -/
def serviceStates (rt : SimulatorRuntime) (payload : PyDict) :
    Except SimulatorError (List ServiceState) := do
  let rawStates ← payloadItem payload "service_states"
  match rawStates with
  | .dict entries => entries.mapM fun entry => serviceState rt entry.2
  | _ => .error (.typeError "service_states must be an object")

/-- `x >= bound`. -/
def PyFloat.ge (x : PyFloat) (bound : ℚ) : Bool :=
  (PyFloat.finite bound).lt x || x.eq (.finite bound)

/-- `evaluate_health(payload)`. -/
def evaluateHealth (rt : SimulatorRuntime) (payload : PyDict) :
    Except SimulatorError (DeviceStatus × ℚ) := do
  let cpu ← floatItem rt payload "cpu_percent"
  let memory ← floatItem rt payload "memory_percent"
  let temperature ← floatItem rt payload "temperature_c"
  let latency ← floatItem rt payload "network_latency_ms"
  let packetLoss ← floatItem rt payload "packet_loss_percent"
  let disk ← floatItem rt payload "disk_percent"
  let delayed ← payloadItem payload "delayed"
  let states ← serviceStates rt payload
  if cpu.ge 95 || memory.ge 95 || latency.ge 3000 || packetLoss.ge 50 || temperature.ge 80 ||
      states.contains .crashed then
    .ok (.critical, 18)
  else if cpu.ge 85 || memory.ge 85 || packetLoss.ge 10 || disk.ge 85 || delayed.truthy ||
      states.contains .degraded || states.contains .stopped then
    .ok (.warning, 62)
  else .ok (.healthy, 96)

/-! ## The events that follow -/

inductive AlertSeverity where
  | info
  | warning
  | critical
  deriving DecidableEq, Repr

def AlertSeverity.value : AlertSeverity → String
  | .info => "INFO"
  | .warning => "WARNING"
  | .critical => "CRITICAL"

structure DeviceAlert where
  alertId : UUID
  deviceId : String
  severity : AlertSeverity
  message : String
  errorCode : String
  timestamp : Time

structure SimulatedIncident where
  incidentId : UUID
  deviceId : String
  title : String
  severity : AlertSeverity
  status : String
  createdAt : Time
  alertId : UUID

/-- `_alert_reason(payload)`. -/
def alertReason (rt : SimulatorRuntime) (payload : PyDict) :
    Except SimulatorError (String × String) := do
  let states ← serviceStates rt payload
  if states.contains .crashed then
    return ("E-SERVICE-CRASH", "A simulator service is crashed.")
  let latency ← floatItem rt payload "network_latency_ms"
  if latency.ge 3000 then return ("E-NET-TIMEOUT", "Network timeout threshold exceeded.")
  let packetLoss ← floatItem rt payload "packet_loss_percent"
  if packetLoss.ge 10 then return ("E-NET-LOSS", "Packet loss threshold exceeded.")
  let cpu ← floatItem rt payload "cpu_percent"
  if cpu.ge 85 then return ("E-CPU-SATURATION", "CPU saturation threshold exceeded.")
  let memory ← floatItem rt payload "memory_percent"
  if memory.ge 85 then return ("E-MEM-PRESSURE", "Memory pressure threshold exceeded.")
  let disk ← floatItem rt payload "disk_percent"
  if disk.ge 85 then return ("E-DISK-CAPACITY", "Disk capacity warning threshold exceeded.")
  let delayed ← payloadItem payload "delayed"
  if delayed.truthy then return ("E-TELEMETRY-DELAY", "Telemetry delay threshold exceeded.")
  return ("E-DEVICE-WARNING", "Device health degraded.")

/-- `build_alert(payload, status, timestamp)`. -/
def buildAlert (rt : SimulatorRuntime) (payload : PyDict) (status : DeviceStatus)
    (timestamp : Time) : Except SimulatorError (Option DeviceAlert) := do
  if status = .healthy then return none
  let device ← payloadItem payload "device_id"
  let deviceId := pyStr rt device
  let (errorCode, message) ← alertReason rt payload
  return some
    { alertId := rt.deterministicUuid
        ("alert:" ++ deviceId ++ ":" ++ errorCode ++ ":" ++ rt.isoformat timestamp)
      deviceId
      severity := if status = .critical then .critical else .warning
      message
      errorCode
      timestamp }

/-- `build_incident(alert, timestamp)`. -/
def buildIncident (rt : SimulatorRuntime) (alert : DeviceAlert) (timestamp : Time) :
    SimulatedIncident where
  incidentId := rt.deterministicUuid
    ("incident:" ++ alert.deviceId ++ ":" ++ alert.errorCode ++ ":" ++ rt.isoformat timestamp)
  deviceId := alert.deviceId
  title := alert.deviceId ++ " threshold breach: " ++ alert.errorCode
  severity := alert.severity
  status := "OPEN"
  createdAt := timestamp
  alertId := alert.alertId

def deviceHealthTopic : String := "device.health"
def deviceAlertTopic : String := "device.alert"
def incidentCreatedTopic : String := "incident.created"

/-- `health_event(device_id, status, health_score, timestamp)`. -/
def healthEvent (rt : SimulatorRuntime) (deviceId : String) (status : DeviceStatus)
    (healthScore : ℚ) (timestamp : Time) : DomainEvent where
  eventId := eventId rt deviceHealthTopic deviceId timestamp
  eventType := "device.health.updated"
  timestamp
  correlationId := eventId rt "correlation" deviceId timestamp
  payload :=
    [("device_id", .str deviceId), ("status", .str status.value),
      ("health_score", .float (.finite healthScore))]

/-- `alert_event(alert)`. -/
def alertEvent (rt : SimulatorRuntime) (alert : DeviceAlert) : DomainEvent where
  eventId := eventId rt deviceAlertTopic alert.deviceId alert.timestamp
  eventType := "device.alert.generated"
  timestamp := alert.timestamp
  correlationId := eventId rt "correlation" alert.deviceId alert.timestamp
  payload :=
    [("alert_id", .str alert.alertId.str), ("device_id", .str alert.deviceId),
      ("severity", .str alert.severity.value), ("message", .str alert.message),
      ("error_code", .str alert.errorCode), ("timestamp", .str (rt.isoformat alert.timestamp))]

/-- `incident_event(incident)`. -/
def incidentEvent (rt : SimulatorRuntime) (incident : SimulatedIncident) : DomainEvent where
  eventId := eventId rt incidentCreatedTopic incident.deviceId incident.createdAt
  eventType := "incident.created"
  timestamp := incident.createdAt
  correlationId := eventId rt "correlation" incident.deviceId incident.createdAt
  payload :=
    [("incident_id", .str incident.incidentId.str), ("device_id", .str incident.deviceId),
      ("title", .str incident.title), ("severity", .str incident.severity.value),
      ("status", .str incident.status), ("created_at", .str (rt.isoformat incident.createdAt)),
      ("alert_id", .str incident.alertId.str)]

/-! ## The consumer -/

/-- A consumer, its registry, and what its publisher has taken. -/
structure TelemetryConsumer where
  registry : DeviceRegistry
  processedIds : List String := []
  published : List (String × DomainEvent) := []

/-- A delivery of an event, and what the publisher answers during it on each topic. -/
structure Delivery where
  event : DomainEvent
  publish : String → Except String Unit

/-- `publisher.publish(topic, event)`. -/
def TelemetryConsumer.publish (delivery : Delivery) (topic : String) (event : DomainEvent)
    (c : TelemetryConsumer) : Except SimulatorError Unit × TelemetryConsumer :=
  match delivery.publish topic with
  | .ok () => (.ok (), { c with published := c.published ++ [(topic, event)] })
  | .error message => (.error (.publisher message), c)

/-- `publisher.publish(topic, event)`, and then the rest of `process`. -/
def TelemetryConsumer.publishThen (delivery : Delivery) (topic : String) (event : DomainEvent)
    (rest : TelemetryConsumer → Except SimulatorError (List DomainEvent) × TelemetryConsumer)
    (c : TelemetryConsumer) : Except SimulatorError (List DomainEvent) × TelemetryConsumer :=
  match c.publish delivery topic event with
  | (.ok (), c) => rest c
  | (.error e, c) => (.error e, c)

/-- The end of `process`: an incident for a critical alert. -/
def publishIncident (rt : SimulatorRuntime) (delivery : Delivery) (alert : DeviceAlert)
    (published : List DomainEvent) (c : TelemetryConsumer) :
    Except SimulatorError (List DomainEvent) × TelemetryConsumer :=
  if alert.severity = .critical then
    let event := incidentEvent rt (buildIncident rt alert delivery.event.timestamp)
    c.publishThen delivery incidentCreatedTopic event fun c => (.ok (published ++ [event]), c)
  else (.ok published, c)

/-- What `process` does after the health event: an alert, if the payload calls for one. -/
def publishAlert (rt : SimulatorRuntime) (delivery : Delivery) (status : DeviceStatus)
    (published : List DomainEvent) (c : TelemetryConsumer) :
    Except SimulatorError (List DomainEvent) × TelemetryConsumer :=
  match buildAlert rt delivery.event.payload status delivery.event.timestamp with
  | .error e => (.error e, c)
  | .ok none => (.ok published, c)
  | .ok (some alert) =>
      let event := alertEvent rt alert
      c.publishThen delivery deviceAlertTopic event
        (publishIncident rt delivery alert (published ++ [event]))

/-- `process(event)` of an event that has not been processed, once it is marked. -/
def processNew (rt : SimulatorRuntime) (delivery : Delivery) (c : TelemetryConsumer) :
    Except SimulatorError (List DomainEvent) × TelemetryConsumer :=
  let payload := delivery.event.payload
  let timestamp := delivery.event.timestamp
  match payloadItem payload "device_id" with
  | .error e => (.error e, c)
  | .ok device =>
      let deviceId := pyStr rt device
      match evaluateHealth rt payload with
      | .error e => (.error e, c)
      | .ok (status, healthScore) =>
          match c.registry.updateHealth deviceId status healthScore timestamp with
          | .error e => (.error e, c)
          | .ok registry =>
              let health := healthEvent rt deviceId status healthScore timestamp
              { c with registry }.publishThen delivery deviceHealthTopic health
                (publishAlert rt delivery status [health])

/-- The key under which an event is remembered: `str(event.event_id)`. -/
def DomainEvent.key (event : DomainEvent) : String := event.eventId.str

/-- `process(event)`. -/
def process (rt : SimulatorRuntime) (delivery : Delivery) (c : TelemetryConsumer) :
    Except SimulatorError (List DomainEvent) × TelemetryConsumer :=
  if delivery.event.key ∈ c.processedIds then (.ok [], c)
  else
    processNew rt delivery { c with processedIds := c.processedIds ++ [delivery.event.key] }

/-- The consumer after a sequence of deliveries, failed ones included. -/
def runDeliveries (rt : SimulatorRuntime) (c : TelemetryConsumer) (deliveries : List Delivery) :
    TelemetryConsumer :=
  deliveries.foldl (fun c delivery => (process rt delivery c).2) c

/-! ## What a payload calls for -/

/-- The incident that an alert is followed by. -/
def incidentEmissions (rt : SimulatorRuntime) (alert : DeviceAlert) (timestamp : Time) :
    List (String × DomainEvent) :=
  if alert.severity = .critical then
    [(incidentCreatedTopic, incidentEvent rt (buildIncident rt alert timestamp))]
  else []

/-- An alert and what it is followed by. -/
def alertEmissions (rt : SimulatorRuntime) (alert : Option DeviceAlert) (timestamp : Time) :
    List (String × DomainEvent) :=
  alert.elim [] fun alert =>
    (deviceAlertTopic, alertEvent rt alert) :: incidentEmissions rt alert timestamp

/-- The events that the payload of an event calls for, with their topics. -/
def calledFor (rt : SimulatorRuntime) (event : DomainEvent) :
    Except SimulatorError (List (String × DomainEvent)) := do
  let device ← payloadItem event.payload "device_id"
  let (status, healthScore) ← evaluateHealth rt event.payload
  let alert ← buildAlert rt event.payload status event.timestamp
  .ok ((deviceHealthTopic,
      healthEvent rt (pyStr rt device) status healthScore event.timestamp) ::
    alertEmissions rt alert event.timestamp)

/-- The event is about a device of the registry. -/
def DomainEvent.Known (rt : SimulatorRuntime) (registry : DeviceRegistry) (event : DomainEvent) :
    Prop :=
  ∃ device, payloadItem event.payload "device_id" = .ok device ∧
    (registry.devices.get? (pyStr rt device)).isSome

/-- Nothing fails in the delivery: the payload can be read, its device is known, and the publisher
takes everything that it calls for. -/
def Delivery.Smooth (rt : SimulatorRuntime) (registry : DeviceRegistry) (delivery : Delivery) :
    Prop :=
  delivery.event.Known rt registry ∧ ∃ emissions, calledFor rt delivery.event = .ok emissions ∧
    ∀ emission ∈ emissions, delivery.publish emission.1 = .ok ()

/-! ## What a delivery does -/

/-- `process` has run to its end. -/
def Completes (result : Except SimulatorError (List DomainEvent) × TelemetryConsumer) : Prop :=
  ∃ events, result.1 = .ok events

/-- A part of `process` from `c` on completes exactly when the publisher takes the emissions, and
has then published them. -/
structure Emits (delivery : Delivery) (c : TelemetryConsumer)
    (emissions : List (String × DomainEvent))
    (result : Except SimulatorError (List DomainEvent) × TelemetryConsumer) : Prop where
  completes : Completes result ↔ ∀ emission ∈ emissions, delivery.publish emission.1 = .ok ()
  published : Completes result → result.2.published = c.published ++ emissions
  registry : result.2.registry = c.registry
  processedIds : result.2.processedIds = c.processedIds
  kept : c.published <+: result.2.published

section Emission

variable {rt : SimulatorRuntime} {delivery : Delivery} {c : TelemetryConsumer}
  {emissions : List (String × DomainEvent)} {topic : String} {event : DomainEvent}

theorem emits_nil (events : List DomainEvent) : Emits delivery c [] (.ok events, c) where
  completes := ⟨fun _ _ hmem => absurd hmem List.not_mem_nil, fun _ => ⟨events, rfl⟩⟩
  published _ := (List.append_nil _).symm
  registry := rfl
  processedIds := rfl
  kept := List.prefix_refl _

/-- A publish comes first, and what follows it only happens when it succeeds. -/
theorem emits_cons (topic : String) (event : DomainEvent) (c : TelemetryConsumer)
    {rest : TelemetryConsumer → Except SimulatorError (List DomainEvent) × TelemetryConsumer}
    (hrest : ∀ c, Emits delivery c emissions (rest c)) :
    Emits delivery c ((topic, event) :: emissions)
      (c.publishThen delivery topic event rest) := by
  unfold TelemetryConsumer.publishThen TelemetryConsumer.publish
  cases hanswer : delivery.publish topic with
  | error message =>
      refine ⟨⟨fun hcompletes => ?_, fun hall => ?_⟩, fun hcompletes => ?_, rfl, rfl,
        List.prefix_refl _⟩
      · obtain ⟨_, hcompletes⟩ := hcompletes
        cases hcompletes
      · have htaken := hall (topic, event) (List.mem_cons_self ..)
        rw [hanswer] at htaken
        cases htaken
      · obtain ⟨_, hcompletes⟩ := hcompletes
        cases hcompletes
  | ok _ =>
      have hafter := hrest { c with published := c.published ++ [(topic, event)] }
      refine ⟨?_, fun hcompletes => ?_, hafter.registry, hafter.processedIds, ?_⟩
      · rw [hafter.completes, List.forall_mem_cons]
        exact (and_iff_right hanswer).symm
      · rw [hafter.published hcompletes, List.append_assoc, List.singleton_append]
      · exact (List.prefix_append ..).trans hafter.kept

theorem publishIncident_emits (alert : DeviceAlert) (published : List DomainEvent)
    (c : TelemetryConsumer) :
    Emits delivery c (incidentEmissions rt alert delivery.event.timestamp)
      (publishIncident rt delivery alert published c) := by
  unfold publishIncident incidentEmissions
  split
  · exact emits_cons _ _ c fun c => emits_nil _
  · exact emits_nil published

theorem publishAlert_emits {status : DeviceStatus} {alert : Option DeviceAlert}
    (hbuild : buildAlert rt delivery.event.payload status delivery.event.timestamp = .ok alert)
    (published : List DomainEvent) (c : TelemetryConsumer) :
    Emits delivery c (alertEmissions rt alert delivery.event.timestamp)
      (publishAlert rt delivery status published c) := by
  unfold publishAlert
  rw [hbuild]
  cases alert with
  | none => exact emits_nil published
  | some alert => exact emits_cons _ _ c fun c => publishIncident_emits alert _ c

theorem publishAlert_fails {status : DeviceStatus} {e : SimulatorError}
    (hbuild : buildAlert rt delivery.event.payload status delivery.event.timestamp = .error e)
    (published : List DomainEvent) (c : TelemetryConsumer) :
    publishAlert rt delivery status published c = (.error e, c) := by
  unfold publishAlert
  rw [hbuild]

end Emission

/-- What `process` leaves as it is. -/
structure TelemetryConsumer.Kept (c c' : TelemetryConsumer) : Prop where
  processedIds : c'.processedIds = c.processedIds
  known : ∀ deviceId, (c'.registry.devices.get? deviceId).isSome =
    (c.registry.devices.get? deviceId).isSome
  published : c.published <+: c'.published

section Process

variable {rt : SimulatorRuntime} {delivery : Delivery} {c : TelemetryConsumer}

theorem DeviceRegistry.getDevice_eq_ok {s : DeviceRegistry} {deviceId : String}
    {device : SimulatedDevice} :
    s.getDevice deviceId = .ok device ↔ s.devices.get? deviceId = some device := by
  unfold getDevice
  cases s.devices.get? deviceId with
  | none => exact ⟨fun h => (by cases h), fun h => (by cases h)⟩
  | some found => exact ⟨fun h => (by cases h; rfl), fun h => (by cases h; rfl)⟩

/-- An update stores the device anew, and fails when it is unknown. -/
theorem DeviceRegistry.updateHealth_eq (s : DeviceRegistry) (deviceId : String)
    (status : DeviceStatus) (healthScore : ℚ) (now : Time) :
    (∃ device, s.devices.get? deviceId = some device ∧
      s.updateHealth deviceId status healthScore now =
        .ok (s.put { device with status, healthScore, lastSeen := now })) ∨
    (s.devices.get? deviceId = none ∧
      s.updateHealth deviceId status healthScore now = .error (.deviceNotFound deviceId)) := by
  unfold updateHealth getDevice
  cases hfound : s.devices.get? deviceId with
  | none => exact Or.inr ⟨rfl, rfl⟩
  | some device => exact Or.inl ⟨device, rfl, rfl⟩

/-- Storing a known device anew makes no other device known. -/
theorem DeviceRegistry.isSome_put {s : DeviceRegistry} {device : SimulatedDevice}
    (h : (s.devices.get? device.deviceId).isSome) (deviceId : String) :
    ((s.put device).devices.get? deviceId).isSome = (s.devices.get? deviceId).isSome := by
  rw [put, Dict.get?_set]
  split
  · rename_i heq
    rw [heq, h]
    rfl
  · rfl

theorem not_completes {e : SimulatorError} : ¬Completes (.error e, c) :=
  fun ⟨_, h⟩ => by cases h

theorem TelemetryConsumer.Kept.refl (c : TelemetryConsumer) : c.Kept c :=
  ⟨rfl, fun _ => rfl, List.prefix_refl _⟩

theorem publishThen_fails (delivery : Delivery) (topic : String) (event : DomainEvent)
    {e : SimulatorError}
    {rest : TelemetryConsumer → Except SimulatorError (List DomainEvent) × TelemetryConsumer}
    (hrest : ∀ c, rest c = (.error e, c)) (c : TelemetryConsumer) :
    ¬Completes (c.publishThen delivery topic event rest) ∧
      (c.publishThen delivery topic event rest).2.processedIds = c.processedIds ∧
      (c.publishThen delivery topic event rest).2.registry = c.registry ∧
      c.published <+: (c.publishThen delivery topic event rest).2.published := by
  unfold TelemetryConsumer.publishThen TelemetryConsumer.publish
  cases delivery.publish topic with
  | error message => exact ⟨not_completes, rfl, rfl, List.prefix_refl _⟩
  | ok _ =>
      simp only [hrest, true_and]
      exact ⟨not_completes, List.prefix_append ..⟩

/-- The payload is read, the device stored anew, and then the events are published. -/
theorem processNew_known {device : Value} {status : DeviceStatus} {healthScore : ℚ}
    {found : SimulatedDevice}
    (hdevice : payloadItem delivery.event.payload "device_id" = .ok device)
    (hhealth : evaluateHealth rt delivery.event.payload = .ok (status, healthScore))
    (hfound : c.registry.devices.get? (pyStr rt device) = some found) :
    processNew rt delivery c =
      { c with
        registry := c.registry.put
          { found with status, healthScore, lastSeen := delivery.event.timestamp } }.publishThen
        delivery deviceHealthTopic
        (healthEvent rt (pyStr rt device) status healthScore delivery.event.timestamp)
        (publishAlert rt delivery status
          [healthEvent rt (pyStr rt device) status healthScore delivery.event.timestamp]) := by
  rcases c.registry.updateHealth_eq (pyStr rt device) status healthScore delivery.event.timestamp
    with ⟨found', hfound', hupdate⟩ | ⟨hnone, -⟩
  · rw [hfound] at hfound'
    cases hfound'
    simp only [processNew, hdevice, hhealth, hupdate]
  · rw [hfound] at hnone
    cases hnone

/-- Otherwise nothing is published. -/
theorem processNew_fails (rt : SimulatorRuntime) (delivery : Delivery) (c : TelemetryConsumer)
    (h : ∀ device status healthScore found,
      payloadItem delivery.event.payload "device_id" = .ok device →
        evaluateHealth rt delivery.event.payload = .ok (status, healthScore) →
          c.registry.devices.get? (pyStr rt device) ≠ some found) :
    ∃ e, processNew rt delivery c = (.error e, c) := by
  cases hdevice : payloadItem delivery.event.payload "device_id" with
  | error e => exact ⟨e, by simp only [processNew, hdevice]⟩
  | ok device =>
      cases hhealth : evaluateHealth rt delivery.event.payload with
      | error e => exact ⟨e, by simp only [processNew, hdevice, hhealth]⟩
      | ok health =>
          obtain ⟨status, healthScore⟩ := health
          rcases c.registry.updateHealth_eq (pyStr rt device) status healthScore
            delivery.event.timestamp with ⟨found, hfound, -⟩ | ⟨-, hupdate⟩
          · exact absurd hfound (h device status healthScore found hdevice hhealth)
          · exact ⟨_, by simp only [processNew, hdevice, hhealth, hupdate]; rfl⟩

/-- What a new event does once its payload has been read. -/
structure Processed (rt : SimulatorRuntime) (delivery : Delivery) (c : TelemetryConsumer)
    (result : Except SimulatorError (List DomainEvent) × TelemetryConsumer) : Prop where
  kept : c.Kept result.2
  completes : Completes result ↔ delivery.Smooth rt c.registry
  published : Completes result → ∀ emissions, calledFor rt delivery.event = .ok emissions →
    result.2.published = c.published ++ emissions

theorem processNew_processed (rt : SimulatorRuntime) (delivery : Delivery)
    (c : TelemetryConsumer) : Processed rt delivery c (processNew rt delivery c) := by
  by_cases hread : ∃ device status healthScore found,
      payloadItem delivery.event.payload "device_id" = .ok device ∧
        evaluateHealth rt delivery.event.payload = .ok (status, healthScore) ∧
          c.registry.devices.get? (pyStr rt device) = some found
  · -- the event can be processed: the device is put back, and then it is published
    obtain ⟨device, status, healthScore, found, hdevice, hhealth, hfound⟩ := hread
    rw [processNew_known hdevice hhealth hfound]
    generalize hregistry : c.registry.put
      { found with status, healthScore, lastSeen := delivery.event.timestamp } = registry
    have hsame : ∀ deviceId, (registry.devices.get? deviceId).isSome =
        (c.registry.devices.get? deviceId).isSome := by
      rw [← hregistry]
      refine DeviceRegistry.isSome_put ?_
      dsimp only
      rw [c.registry.keyed _ _ hfound, hfound]
      rfl
    cases hbuild : buildAlert rt delivery.event.payload status delivery.event.timestamp with
    | ok alert =>
        have hcalled : calledFor rt delivery.event = .ok ((deviceHealthTopic,
            healthEvent rt (pyStr rt device) status healthScore delivery.event.timestamp) ::
              alertEmissions rt alert delivery.event.timestamp) := by
          rw [calledFor, hdevice, hhealth]
          simp only [bind, Except.bind, hbuild]
        have hemits := emits_cons deviceHealthTopic
          (healthEvent rt (pyStr rt device) status healthScore delivery.event.timestamp)
          { c with registry } (publishAlert_emits hbuild
            [healthEvent rt (pyStr rt device) status healthScore delivery.event.timestamp])
        refine ⟨⟨hemits.processedIds, fun deviceId => ?_, hemits.kept⟩, ?_, ?_⟩
        · rw [hemits.registry]
          exact hsame deviceId
        · rw [hemits.completes]
          constructor
          · exact fun htaken => ⟨⟨device, hdevice, by rw [hfound]; rfl⟩, _, hcalled, htaken⟩
          · rintro ⟨-, emissions, hemissions, htaken⟩
            rw [hcalled] at hemissions
            cases hemissions
            exact htaken
        · intro hcompletes emissions hemissions
          rw [hcalled] at hemissions
          cases hemissions
          exact hemits.published hcompletes
    | error e =>
        -- the alert cannot be made, so what is published breaks off there
        have hrest : ∀ c, publishAlert rt delivery status
            [healthEvent rt (pyStr rt device) status healthScore delivery.event.timestamp] c =
              (.error e, c) := publishAlert_fails hbuild _
        obtain ⟨hnot, hids, hsameRegistry, hkept⟩ := publishThen_fails delivery
          deviceHealthTopic
          (healthEvent rt (pyStr rt device) status healthScore delivery.event.timestamp)
          hrest { c with registry }
        refine ⟨⟨hids, fun deviceId => ?_, hkept⟩, iff_of_false hnot ?_, fun h => absurd h hnot⟩
        · rw [hsameRegistry]
          exact hsame deviceId
        · rintro ⟨-, emissions, hemissions, -⟩
          rw [calledFor, hdevice, hhealth] at hemissions
          simp only [bind, Except.bind, hbuild] at hemissions
          cases hemissions
  · -- nothing of the event is used, and no event of such a content is processed
    obtain ⟨e, hfails⟩ := processNew_fails rt delivery c
      fun device status healthScore found hdevice hhealth hfound =>
        hread ⟨device, status, healthScore, found, hdevice, hhealth, hfound⟩
    rw [hfails]
    refine ⟨.refl c, iff_of_false not_completes ?_, fun h => absurd h not_completes⟩
    rintro ⟨⟨device, hdevice, hknown⟩, emissions, hemissions, -⟩
    obtain ⟨found, hfound⟩ := Option.isSome_iff_exists.mp hknown
    rw [calledFor, hdevice] at hemissions
    cases hhealth : evaluateHealth rt delivery.event.payload with
    | error e =>
        rw [hhealth] at hemissions
        cases hemissions
    | ok health =>
        obtain ⟨status, healthScore⟩ := health
        exact hread ⟨device, status, healthScore, found, hdevice, hhealth, hfound⟩

end Process

/-! ## Histories of deliveries -/

section Deliveries

variable {rt : SimulatorRuntime} {delivery : Delivery} {c : TelemetryConsumer}
  {deliveries earlier : List Delivery}

theorem process_seen (h : delivery.event.key ∈ c.processedIds) :
    process rt delivery c = (.ok [], c) := if_pos h

theorem process_new (h : delivery.event.key ∉ c.processedIds) :
    process rt delivery c = processNew rt delivery
      { c with processedIds := c.processedIds ++ [delivery.event.key] } := if_neg h

theorem key_inj {event event' : DomainEvent} : event.key = event'.key ↔
    event.eventId = event'.eventId :=
  ⟨fun h => UUID.str_injective h, fun h => by rw [DomainEvent.key, h, DomainEvent.key]⟩

theorem runDeliveries_append (deliveries : List Delivery) (delivery : Delivery) :
    runDeliveries rt c (deliveries ++ [delivery]) =
      (process rt delivery (runDeliveries rt c deliveries)).2 := by
  rw [runDeliveries, List.foldl_append]
  rfl

/-- A delivery marks its event. -/
theorem mem_processedIds_process {key : String} :
    key ∈ (process rt delivery c).2.processedIds ↔
      key ∈ c.processedIds ∨ key = delivery.event.key := by
  by_cases hseen : delivery.event.key ∈ c.processedIds
  · rw [process_seen hseen]
    exact ⟨Or.inl, fun h => h.elim id fun heq => heq ▸ hseen⟩
  · rw [process_new hseen, (processNew_processed ..).kept.processedIds, List.mem_append,
      List.mem_singleton]

theorem known_process (deliveryId : String) :
    ((process rt delivery c).2.registry.devices.get? deliveryId).isSome =
      (c.registry.devices.get? deliveryId).isSome := by
  by_cases hseen : delivery.event.key ∈ c.processedIds
  · rw [process_seen hseen]
  · rw [process_new hseen]
    exact (processNew_processed ..).kept.known deliveryId

theorem published_process : c.published <+: (process rt delivery c).2.published := by
  by_cases hseen : delivery.event.key ∈ c.processedIds
  · simp only [process_seen hseen, List.prefix_refl]
  · rw [process_new hseen]
    exact (processNew_processed rt delivery
      { c with processedIds := c.processedIds ++ [delivery.event.key] }).kept.published

/-- The ids that are remembered are those of the events that have been delivered. -/
theorem mem_processedIds_run {event : DomainEvent} {registry : DeviceRegistry} :
    event.key ∈ (runDeliveries rt { registry } deliveries).processedIds ↔
      ∃ delivery ∈ deliveries, delivery.event.eventId = event.eventId := by
  induction deliveries using List.reverseRecOn with
  | nil => exact ⟨fun h => absurd h List.not_mem_nil, fun ⟨_, h, _⟩ => absurd h List.not_mem_nil⟩
  | append_singleton earlier last ih =>
      rw [runDeliveries_append, mem_processedIds_process, ih, key_inj]
      constructor
      · rintro (⟨d, hd, hid⟩ | hid)
        · exact ⟨d, List.mem_append_left _ hd, hid⟩
        · exact ⟨last, List.mem_append_right _ (List.mem_singleton_self _), hid.symm⟩
      · rintro ⟨d, hd, hid⟩
        rcases List.mem_append.mp hd with hd | hd
        · exact Or.inl ⟨d, hd, hid⟩
        · rw [List.mem_singleton.mp hd] at hid
          exact Or.inr hid.symm

theorem known_run (deliveries : List Delivery) (deviceId : String) :
    ((runDeliveries rt c deliveries).registry.devices.get? deviceId).isSome =
      (c.registry.devices.get? deviceId).isSome := by
  induction deliveries using List.reverseRecOn with
  | nil => rfl
  | append_singleton earlier last ih => rw [runDeliveries_append, known_process, ih]

theorem published_run (rt : SimulatorRuntime) (c : TelemetryConsumer)
    (h : earlier <+: deliveries) :
    (runDeliveries rt c earlier).published <+: (runDeliveries rt c deliveries).published := by
  obtain ⟨later, rfl⟩ := h
  induction later using List.reverseRecOn with
  | nil => simp only [List.append_nil, List.prefix_refl]
  | append_singleton later last ih =>
      rw [← List.append_assoc, runDeliveries_append]
      exact ih.trans published_process

theorem smooth_congr {registry registry' : DeviceRegistry}
    (h : ∀ deviceId, (registry.devices.get? deviceId).isSome =
      (registry'.devices.get? deviceId).isSome) :
    delivery.Smooth rt registry ↔ delivery.Smooth rt registry' := by
  simp only [Delivery.Smooth, DomainEvent.Known, h]

/-- An event that has not been delivered before is processed to its end exactly when nothing fails
in its delivery, and then all that it calls for is published. -/
theorem process_first {registry : DeviceRegistry}
    (hnew : delivery.event.key ∉ (runDeliveries rt { registry } earlier).processedIds) :
    (Completes (process rt delivery (runDeliveries rt { registry } earlier)) ↔
      delivery.Smooth rt registry) ∧
    (Completes (process rt delivery (runDeliveries rt { registry } earlier)) →
      ∃ emissions, calledFor rt delivery.event = .ok emissions ∧ ∀ emission ∈ emissions,
        emission ∈ (process rt delivery (runDeliveries rt { registry } earlier)).2.published) := by
  have hprocessed := processNew_processed rt delivery
    { runDeliveries rt { registry } earlier with
      processedIds := (runDeliveries rt { registry } earlier).processedIds ++
        [delivery.event.key] }
  have hsame : ∀ deviceId,
      ((runDeliveries rt { registry } earlier).registry.devices.get? deviceId).isSome =
        (registry.devices.get? deviceId).isSome := known_run earlier
  rw [process_new hnew]
  have hsmooth := hprocessed.completes.trans (smooth_congr hsame)
  refine ⟨hsmooth, fun hcompletes => ?_⟩
  obtain ⟨-, emissions, hemissions, -⟩ := hsmooth.mp hcompletes
  refine ⟨emissions, hemissions, fun emission hemission => ?_⟩
  rw [hprocessed.published hcompletes emissions hemissions]
  exact List.mem_append_right _ hemission

end Deliveries

/-! ## Nothing is lost -/

/-- A delivery is skipped only when an earlier delivery of its event has run to its end. -/
def SkipsOnlyCompleted (rt : SimulatorRuntime) (registry : DeviceRegistry)
    (deliveries : List Delivery) : Prop :=
  ∀ earlier delivery, earlier ++ [delivery] <+: deliveries →
    delivery.event.key ∈ (runDeliveries rt { registry } earlier).processedIds →
      ∃ before first, before ++ [first] <+: earlier ∧
        first.event.eventId = delivery.event.eventId ∧
        first.event.key ∉ (runDeliveries rt { registry } before).processedIds ∧
        Completes (process rt first (runDeliveries rt { registry } before))

/-- After a delivery that did not fail, all that its event calls for has been published. -/
def PublishesAll (rt : SimulatorRuntime) (registry : DeviceRegistry)
    (deliveries : List Delivery) : Prop :=
  ∀ earlier delivery, earlier ++ [delivery] <+: deliveries →
    Completes (process rt delivery (runDeliveries rt { registry } earlier)) →
      ∃ emissions, calledFor rt delivery.event = .ok emissions ∧ ∀ emission ∈ emissions,
        emission ∈ (process rt delivery (runDeliveries rt { registry } earlier)).2.published

/-- Nothing fails in the first delivery of an event that is delivered again. -/
def FirstSmooth (rt : SimulatorRuntime) (registry : DeviceRegistry)
    (deliveries : List Delivery) : Prop :=
  ∀ before first between again, before ++ first :: between ++ [again] <+: deliveries →
    first.event.eventId = again.event.eventId →
      (∀ delivery ∈ before, delivery.event.eventId ≠ first.event.eventId) →
        first.Smooth rt registry

/-- A delivery of an event that is delivered again is the same event. -/
def Redelivers (deliveries : List Delivery) : Prop :=
  ∀ first ∈ deliveries, ∀ again ∈ deliveries,
    first.event.eventId = again.event.eventId → first.event = again.event

section Lost

variable {rt : SimulatorRuntime} {registry : DeviceRegistry} {deliveries : List Delivery}

/-- The first delivery of an event is where the deliveries of other events end. -/
theorem first_unique {before before' rest rest' : List Delivery} {first first' : Delivery}
    {id : UUID} (hsplit : before ++ first :: rest = before' ++ first' :: rest')
    (hfirst : first.event.eventId = id) (hbefore : ∀ d ∈ before, d.event.eventId ≠ id)
    (hfirst' : first'.event.eventId = id) (hbefore' : ∀ d ∈ before', d.event.eventId ≠ id) :
    before = before' ∧ first = first' := by
  have htake : ∀ (before rest : List Delivery) (first : Delivery), first.event.eventId = id →
      (∀ d ∈ before, d.event.eventId ≠ id) →
        (before ++ first :: rest).takeWhile (fun d => decide (d.event.eventId ≠ id)) = before := by
    intro before rest first hfirst hbefore
    rw [List.takeWhile_append_of_pos fun d hd => decide_eq_true (hbefore d hd),
      List.takeWhile_cons_of_neg (by simp [hfirst]), List.append_nil]
  have hsame : before = before' := by
    rw [← htake before rest first hfirst hbefore, hsplit, htake _ _ _ hfirst' hbefore']
  subst hsame
  exact ⟨rfl, (List.cons.inj (List.append_cancel_left hsplit)).1⟩

theorem notMem_processedIds {before : List Delivery} {first : Delivery} :
    first.event.key ∉ (runDeliveries rt { registry } before).processedIds ↔
      ∀ d ∈ before, d.event.eventId ≠ first.event.eventId := by
  rw [mem_processedIds_run]
  push Not
  rfl

/-- Events are skipped only when they have been processed exactly when no first delivery of an
event that is delivered again fails. -/
theorem skipsOnlyCompleted_iff :
    SkipsOnlyCompleted rt registry deliveries ↔ FirstSmooth rt registry deliveries := by
  constructor
  · intro hskips before first between again hpre hid hbefore
    have hmem : first ∈ before ++ first :: between := by simp
    obtain ⟨before', first', ⟨rest', hsplit⟩, hid', hnew', hcompletes⟩ :=
      hskips (before ++ first :: between) again hpre
        (mem_processedIds_run.mpr ⟨first, hmem, hid⟩)
    -- the first delivery of the event is the one that ran to its end
    have hbefore' := notMem_processedIds.mp hnew'
    rw [List.append_assoc, List.singleton_append] at hsplit
    rw [hid'] at hbefore'
    rw [hid] at hbefore
    obtain ⟨rfl, rfl⟩ := first_unique hsplit hid' hbefore' hid hbefore
    exact (process_first hnew').1.mp hcompletes
  · intro hsmooth earlier delivery hpre hseen
    obtain ⟨d, hd, hid⟩ := mem_processedIds_run.mp hseen
    obtain ⟨first, hfind⟩ := Option.isSome_iff_exists.mp (List.find?_isSome
      (p := fun d : Delivery => decide (d.event.eventId = delivery.event.eventId)).mpr
        ⟨d, hd, by simpa using hid⟩)
    obtain ⟨hfirst, before, between, hsplit, hbefore⟩ := List.find?_eq_some_iff_append.mp hfind
    have hid' : first.event.eventId = delivery.event.eventId := by simpa using hfirst
    have hnew : first.event.key ∉ (runDeliveries rt { registry } before).processedIds := by
      refine notMem_processedIds.mpr fun b hb => ?_
      rw [hid']
      simpa using hbefore b hb
    have hfirstSmooth := hsmooth before first between delivery
      (by rw [← hsplit]; exact hpre) hid' (notMem_processedIds.mp hnew)
    refine ⟨before, first, ⟨between, by rw [hsplit]; simp⟩, hid', hnew, ?_⟩
    exact (process_first hnew).1.mpr hfirstSmooth

/-- When only processed events are skipped, all that has been delivered without a failure has had
its effect. -/
theorem SkipsOnlyCompleted.publishesAll (h : SkipsOnlyCompleted rt registry deliveries)
    (hsame : Redelivers deliveries) : PublishesAll rt registry deliveries := by
  intro earlier delivery hpre hcompletes
  by_cases hseen : delivery.event.key ∈ (runDeliveries rt { registry } earlier).processedIds
  · obtain ⟨before, first, hbefore, hid, hnew, hdone⟩ := h earlier delivery hpre hseen
    have hfirst : first ∈ deliveries :=
      ((hbefore.trans (List.prefix_append ..)).trans hpre).subset (by simp)
    have hevent : first.event = delivery.event :=
      hsame first hfirst delivery (hpre.subset (by simp)) hid
    obtain ⟨emissions, hemissions, hpublished⟩ := (process_first hnew).2 hdone
    refine ⟨emissions, by rw [← hevent]; exact hemissions, fun emission hemission => ?_⟩
    have hlater := published_run rt { registry } hbefore
    rw [runDeliveries_append] at hlater
    exact published_process.subset (hlater.subset (hpublished emission hemission))
  · exact (process_first hseen).2 hcompletes

/-- No event is lost exactly when no first delivery of an event that is delivered again fails. -/
theorem deliveries_not_lost_iff (rt : SimulatorRuntime) (registry : DeviceRegistry)
    {deliveries : List Delivery} (hsame : Redelivers deliveries) :
    (SkipsOnlyCompleted rt registry deliveries ∧ PublishesAll rt registry deliveries) ↔
      FirstSmooth rt registry deliveries := by
  rw [← skipsOnlyCompleted_iff]
  exact ⟨And.left, fun h => ⟨h, h.publishesAll hsame⟩⟩

end Lost

/-! ### A failed delivery -/

/-- A healthy device. -/
def simDevice : SimulatedDevice where
  deviceId := "SIM-001"
  status := .healthy
  healthScore := 96
  lastSeen := 0
  bootTime := 0
  services := Dict.empty.set "sensor-ingestor" .running

/-- The registry with one device. -/
def oneDevice : DeviceRegistry := .new [simDevice]

/-- Library functions for small examples, where a name has its length for an identifier. -/
def SimulatorRuntime.plain : SimulatorRuntime where
  toRuntime := Runtime.plain
  deterministicUuid name := name.length

/-- Telemetry of a device at second `n`, with the id `n`. -/
def smallTelemetry (n : ℕ) (cpuPercent : ℚ := 25) : DomainEvent where
  eventId := n
  eventType := "device.telemetry.recorded"
  timestamp := seconds n
  correlationId := n
  payload :=
    [("device_id", .str "SIM-001"), ("cpu_percent", .float (.finite cpuPercent)),
      ("memory_percent", .float (.finite 35)), ("temperature_c", .float (.finite 38)),
      ("network_latency_ms", .float (.finite 25)), ("packet_loss_percent", .float (.finite 0)),
      ("disk_percent", .float (.finite 45)),
      ("service_states", .dict [("sensor-ingestor", .str "RUNNING")]), ("delayed", .bool false)]

/-- An event that the publisher refuses at first, and takes when it is delivered again. -/
def refusedFirst : List Delivery :=
  [⟨smallTelemetry 1, fun _ => .error "unavailable"⟩, ⟨smallTelemetry 1, fun _ => .ok ()⟩]

theorem redelivers_refusedFirst : Redelivers refusedFirst := by
  simp [Redelivers, refusedFirst]

/-- The equivalence for an event whose first delivery fails. -/
theorem deliveries_not_lost_refusedFirst :
    (SkipsOnlyCompleted .plain oneDevice refusedFirst ∧
        PublishesAll .plain oneDevice refusedFirst) ↔
      FirstSmooth .plain oneDevice refusedFirst :=
  deliveries_not_lost_iff .plain oneDevice redelivers_refusedFirst

theorem health_mem_calledFor {rt : SimulatorRuntime} {event : DomainEvent}
    {emissions : List (String × DomainEvent)} (h : calledFor rt event = .ok emissions) :
    ∃ health, (deviceHealthTopic, health) ∈ emissions := by
  unfold calledFor at h
  cases hdevice : payloadItem event.payload "device_id" with
  | error e =>
      rw [hdevice] at h
      cases h
  | ok device =>
      cases hhealth : evaluateHealth rt event.payload with
      | error e =>
          rw [hdevice, hhealth] at h
          cases h
      | ok health =>
          cases hbuild : buildAlert rt event.payload health.1 event.timestamp with
          | error e =>
              rw [hdevice, hhealth] at h
              simp only [bind, Except.bind, hbuild] at h
              cases h
          | ok alert =>
              rw [hdevice, hhealth] at h
              simp only [bind, Except.bind, hbuild] at h
              cases h
              exact ⟨_, List.mem_cons_self ..⟩

/-- An event whose first delivery failed is skipped as a duplicate. -/
theorem failed_delivery_skipped :
    ¬ ∀ (rt : SimulatorRuntime) (registry : DeviceRegistry) (deliveries : List Delivery),
      Redelivers deliveries → SkipsOnlyCompleted rt registry deliveries ∧
        PublishesAll rt registry deliveries := by
  intro hclaim
  have hsmooth := skipsOnlyCompleted_iff.mp
    (hclaim .plain oneDevice refusedFirst redelivers_refusedFirst).1
  obtain ⟨-, emissions, hemissions, htaken⟩ := hsmooth []
    ⟨smallTelemetry 1, fun _ => .error "unavailable"⟩ [] ⟨smallTelemetry 1, fun _ => .ok ()⟩
    (List.prefix_refl _) rfl fun d hd => absurd hd List.not_mem_nil
  obtain ⟨health, hmem⟩ := health_mem_calledFor hemissions
  cases htaken _ hmem

end McpOps
