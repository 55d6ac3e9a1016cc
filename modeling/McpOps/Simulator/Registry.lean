import McpOps.Lib.Dict
import McpOps.Python.Value

/-!
# Simulated devices

The registry of simulated devices, the failure scenarios that are activated and cleared on them,
and the telemetry that they send.  The id of a telemetry event is derived from the device and the
timestamp alone.

A device has the fields that some function writes to; the others are facts about it, which the
services of the tools keep beside the registry.  A scenario first sets the field of the device and
then the state of a service, so a missing service is an error after the scenario has been set.

Telemetry is computed from a base that depends on the number in the id of the device, hence an id
without one raises; the active scenario is put over the base.  A device is `Delayed` under one
scenario, and then stamps what it sends with an earlier time.  A snapshot is all or nothing: where
one device raises, no event is published.
-/

namespace McpOps

/-! ## Devices -/

inductive DeviceStatus where
  | healthy
  | warning
  | critical
  | offline
  deriving DecidableEq, Repr

def DeviceStatus.value : DeviceStatus → String
  | .healthy => "HEALTHY"
  | .warning => "WARNING"
  | .critical => "CRITICAL"
  | .offline => "OFFLINE"

inductive ServiceState where
  | running
  | degraded
  | stopped
  | crashed
  deriving DecidableEq, Repr

def ServiceState.value : ServiceState → String
  | .running => "RUNNING"
  | .degraded => "DEGRADED"
  | .stopped => "STOPPED"
  | .crashed => "CRASHED"

/-- `ServiceState(value)`, if it raises no `ValueError`. -/
def ServiceState.ofValue? (value : String) : Option ServiceState :=
  [ServiceState.running, .degraded, .stopped, .crashed].find? fun state => state.value = value

inductive FailureScenario where
  | serviceCrash
  | cpuSaturation
  | memoryPressure
  | packetLoss
  | networkTimeout
  | sensorInitializationFailure
  | telemetryDelay
  | diskCapacityWarning
  deriving DecidableEq, Repr

/-- A device, with the states of its services under their names. -/
structure SimulatedDevice where
  deviceId : String
  status : DeviceStatus
  healthScore : ℚ
  lastSeen : Time
  bootTime : Time
  services : Dict String ServiceState
  activeScenario : Option FailureScenario := none

/-- What the simulator raises. -/
inductive SimulatorError where
  | deviceNotFound (deviceId : String)
  | keyError (key : String)
  | indexError
  | valueError (message : String)
  | typeError (message : String)
  | overflowError
  /-- what the event publisher raises -/
  | publisher (message : String)
  deriving DecidableEq, Repr

/-- What is taken from Python's library. -/
structure SimulatorRuntime extends Runtime where
  /-- `uuid.uuid5(SIMULATOR_NAMESPACE, name)` -/
  deterministicUuid : String → UUID

/-! ## The registry -/

/-- The devices, each under its own id. -/
structure DeviceRegistry where
  devices : Dict String SimulatedDevice
  keyed : ∀ deviceId device, devices.get? deviceId = some device → device.deviceId = deviceId

namespace DeviceRegistry

/-- Store a device under its id. -/
def put (device : SimulatedDevice) (s : DeviceRegistry) : DeviceRegistry where
  devices := s.devices.set device.deviceId device
  keyed deviceId found hfound := by
    rw [Dict.get?_set] at hfound
    split at hfound
    · cases hfound
      exact Eq.symm ‹_›
    · exact s.keyed deviceId found hfound

/-- `DeviceRegistry(devices)`. -/
def new (devices : List SimulatedDevice) : DeviceRegistry :=
  devices.foldl (fun s device => s.put device)
    ⟨Dict.empty, fun _ _ hfound => by cases hfound⟩

/-- `get_device(device_id)`. -/
def getDevice (deviceId : String) (s : DeviceRegistry) : Except SimulatorError SimulatedDevice :=
  match s.devices.get? deviceId with
  | some device => .ok device
  | none => .error (.deviceNotFound deviceId)

/-- `list_devices()`. -/
def listDevices (s : DeviceRegistry) : List SimulatedDevice :=
  (s.devices.keys.mergeSort fun a b => decide (a ≤ b)).filterMap s.devices.get?

/-- `update_health(device_id, status, health_score, now)`. -/
def updateHealth (deviceId : String) (status : DeviceStatus) (healthScore : ℚ) (now : Time)
    (s : DeviceRegistry) : Except SimulatorError DeviceRegistry := do
  let device ← s.getDevice deviceId
  .ok (s.put { device with status, healthScore, lastSeen := now })

end DeviceRegistry

/-- `device.services[name].state = state`. -/
def setService (name : String) (state : ServiceState) (device : SimulatedDevice) :
    Except SimulatorError SimulatedDevice :=
  if (device.services.get? name).isSome then
    .ok { device with services := device.services.set name state }
  else .error (.keyError name)

/-- `_apply_scenario_to_services(device, scenario)`. -/
def applyScenarioToServices (scenario : FailureScenario) (device : SimulatedDevice) :
    Except SimulatorError SimulatedDevice :=
  match scenario with
  | .serviceCrash => setService "sensor-ingestor" .crashed device
  | .sensorInitializationFailure => setService "sensor-ingestor" .crashed device
  | .networkTimeout => setService "telemetry-agent" .degraded device
  | _ => .ok { device with services := device.services.mapValues fun _ _ => .running }

namespace DeviceRegistry

/-- `activate_scenario(device_id, scenario, now)`.  A missing service is an error after the
scenario has been set. -/
def activateScenario (deviceId : String) (scenario : FailureScenario) (now : Time)
    (s : DeviceRegistry) : Except SimulatorError SimulatedDevice × DeviceRegistry :=
  match s.getDevice deviceId with
  | .error e => (.error e, s)
  | .ok device =>
      let device := { device with activeScenario := some scenario, lastSeen := now }
      match applyScenarioToServices scenario device with
      | .error e => (.error e, s.put device)
      | .ok device => (.ok device, s.put device)

/-- `clear_scenario(device_id, now)`. -/
def clearScenario (deviceId : String) (now : Time) (s : DeviceRegistry) :
    Except SimulatorError SimulatedDevice × DeviceRegistry :=
  match s.getDevice deviceId with
  | .error e => (.error e, s)
  | .ok device =>
      let device :=
        { device with
          activeScenario := none
          status := .healthy
          healthScore := 96
          lastSeen := now
          services := device.services.mapValues fun _ _ => .running }
      (.ok device, s.put device)

end DeviceRegistry

/-! ## Telemetry -/

structure DeviceTelemetry where
  telemetryId : UUID
  deviceId : String
  timestamp : Time
  cpuPercent : ℚ
  memoryPercent : ℚ
  temperatureC : ℚ
  networkLatencyMs : ℚ
  packetLossPercent : ℚ
  diskPercent : ℚ
  uptimeSeconds : ℤ
  serviceStates : Dict String ServiceState
  delayed : Bool := false

/-- A domain event. -/
structure DomainEvent where
  eventId : UUID
  eventType : String
  timestamp : Time
  correlationId : UUID
  payload : PyDict

/-- `telemetry_id(device_id, timestamp)`. -/
def telemetryId (rt : SimulatorRuntime) (deviceId : String) (timestamp : Time) : UUID :=
  rt.deterministicUuid ("telemetry:" ++ deviceId ++ ":" ++ rt.isoformat timestamp)

/-- The name that `event_id(topic, device_id, timestamp)` is made from. -/
def eventName (rt : SimulatorRuntime) (topic deviceId : String) (timestamp : Time) : String :=
  "event:" ++ topic ++ ":" ++ deviceId ++ ":" ++ rt.isoformat timestamp

/-- `event_id(topic, device_id, timestamp)`. -/
def eventId (rt : SimulatorRuntime) (topic deviceId : String) (timestamp : Time) : UUID :=
  rt.deterministicUuid (eventName rt topic deviceId timestamp)

/-- `_base_telemetry(device, index, timestamp, delayed)`. -/
def baseTelemetry (rt : SimulatorRuntime) (device : SimulatedDevice) (index : ℤ) (timestamp : Time)
    (delayed : Bool) : DeviceTelemetry where
  telemetryId := telemetryId rt device.deviceId timestamp
  deviceId := device.deviceId
  timestamp
  cpuPercent := ((25 + index * 3 % 45 : ℤ) : ℚ)
  memoryPercent := ((35 + index * 5 % 35 : ℤ) : ℚ)
  temperatureC := ((38 + index % 18 : ℤ) : ℚ)
  networkLatencyMs := ((25 + index * 7 % 100 : ℤ) : ℚ)
  packetLossPercent := ((index % 5 : ℤ) : ℚ) / 10
  diskPercent := ((45 + index % 30 : ℤ) : ℚ)
  uptimeSeconds := max 0 ((timestamp - device.bootTime) / 1000000)
  serviceStates := device.services
  delayed

/-- `_apply_scenario_to_telemetry(telemetry, scenario)`. -/
def applyScenarioToTelemetry (telemetry : DeviceTelemetry) :
    FailureScenario → DeviceTelemetry
  | .serviceCrash =>
      { telemetry with serviceStates := telemetry.serviceStates.set "sensor-ingestor" .crashed }
  | .cpuSaturation => { telemetry with cpuPercent := 984 / 10 }
  | .memoryPressure => { telemetry with memoryPercent := 942 / 10 }
  | .packetLoss => { telemetry with packetLossPercent := 185 / 10 }
  | .networkTimeout =>
      { telemetry with
        networkLatencyMs := 5000
        packetLossPercent := 100
        serviceStates := telemetry.serviceStates.set "telemetry-agent" .degraded }
  | .sensorInitializationFailure =>
      { telemetry with
        serviceStates := telemetry.serviceStates.set "sensor-ingestor" .crashed
        temperatureC := 82 }
  | .telemetryDelay => telemetry
  | .diskCapacityWarning => { telemetry with diskPercent := 91 }

/-- `int(device_id.split("-")[1])`. -/
def deviceIndex (rt : SimulatorRuntime) (deviceId : String) : Except SimulatorError ℤ :=
  match (deviceId.toList.splitOn '-')[1]? with
  | none => .error .indexError
  | some text =>
      match rt.parseInt (String.ofList text) with
      | none => .error (.valueError (String.ofList text))
      | some index => .ok index

/-- `timedelta(minutes=7)`. -/
def telemetryDelay : Time := seconds 420

/-- The device sends its telemetry late. -/
def SimulatedDevice.Delayed (device : SimulatedDevice) : Prop :=
  device.activeScenario = some .telemetryDelay

instance (device : SimulatedDevice) : Decidable device.Delayed :=
  inferInstanceAs (Decidable (_ = _))

/-- The timestamp of what the device sends at `now`. -/
def SimulatedDevice.timestampAt (device : SimulatedDevice) (now : Time) : Time :=
  if device.Delayed then now - telemetryDelay else now

namespace DeviceRegistry

/-- `telemetry_for(device_id, now)`. -/
def telemetryFor (rt : SimulatorRuntime) (deviceId : String) (now : Time) (s : DeviceRegistry) :
    Except SimulatorError DeviceTelemetry := do
  let device ← s.getDevice deviceId
  let index ← deviceIndex rt device.deviceId
  let telemetry := baseTelemetry rt device index (device.timestampAt now) (decide device.Delayed)
  .ok (device.activeScenario.elim telemetry (applyScenarioToTelemetry telemetry))

/-- `telemetry_snapshot(now)`. -/
def telemetrySnapshot (rt : SimulatorRuntime) (now : Time) (s : DeviceRegistry) :
    Except SimulatorError (List DeviceTelemetry) :=
  s.listDevices.mapM fun device => s.telemetryFor rt device.deviceId now

end DeviceRegistry

/-- `telemetry.as_payload()`. -/
def DeviceTelemetry.asPayload (rt : SimulatorRuntime) (telemetry : DeviceTelemetry) : PyDict :=
  [("telemetry_id", .str telemetry.telemetryId.str),
    ("device_id", .str telemetry.deviceId),
    ("timestamp", .str (rt.isoformat telemetry.timestamp)),
    ("cpu_percent", .float (.finite telemetry.cpuPercent)),
    ("memory_percent", .float (.finite telemetry.memoryPercent)),
    ("temperature_c", .float (.finite telemetry.temperatureC)),
    ("network_latency_ms", .float (.finite telemetry.networkLatencyMs)),
    ("packet_loss_percent", .float (.finite telemetry.packetLossPercent)),
    ("disk_percent", .float (.finite telemetry.diskPercent)),
    ("uptime_seconds", .int telemetry.uptimeSeconds),
    ("service_states",
      .dict (telemetry.serviceStates.entries.map fun entry => (entry.1, .str entry.2.value))),
    ("delayed", .bool telemetry.delayed)]

def deviceTelemetryTopic : String := "device.telemetry"

/-- `telemetry_event(telemetry)`. -/
def telemetryEvent (rt : SimulatorRuntime) (telemetry : DeviceTelemetry) : DomainEvent where
  eventId := eventId rt deviceTelemetryTopic telemetry.deviceId telemetry.timestamp
  eventType := "device.telemetry.recorded"
  timestamp := telemetry.timestamp
  correlationId := eventId rt "correlation" telemetry.deviceId telemetry.timestamp
  payload := telemetry.asPayload rt

/-- `publish_snapshot(now)` of the producer: the events that it publishes. -/
def publishSnapshot (rt : SimulatorRuntime) (now : Time) (s : DeviceRegistry) :
    Except SimulatorError (List DomainEvent) := do
  let snapshot ← s.telemetrySnapshot rt now
  .ok (snapshot.map (telemetryEvent rt))

end McpOps
