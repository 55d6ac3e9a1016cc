import McpOps.Simulator.Consumers

/-!
# The device service of the MCP servers

`DeviceDomainService`: the tools on simulated devices, with a configuration for each device.  A
handler returns the data of its output, raises an error of the domain, which the dispatcher turns
into an error result, or lets an error of the simulator through.

The registry holds what the simulator writes to.  Everything else about a device or a service is a
fact that no handler changes, and is kept in `DeviceFacts` and `ServiceFacts`; a payload is made
of both.  The configurations are dictionaries of their own, one for each device that was there
when the service was made.

The checks of a patch are one loop body (`configurationIssue`) over its entries, with the messages
of the source.  A handler is called through `DeviceCall`, which has the fields of its input that
it takes.
-/

namespace McpOps

/-! ## Outcomes of handlers -/

/-- An error of the domain, by its code. -/
structure McpDomainError where
  code : String
  message : String
  deriving DecidableEq, Repr

def deviceNotFound (message : String) : McpDomainError := ⟨"device_not_found", message⟩

def ticketNotFound (message : String) : McpDomainError := ⟨"ticket_not_found", message⟩

def invalidConfiguration (message : String) : McpDomainError := ⟨"validation_error", message⟩

/-- What leaves a handler when it does not return. -/
inductive HandlerFailure where
  | domain (e : McpDomainError)
  /-- an exception that the dispatcher does not catch -/
  | raised (e : SimulatorError)
  deriving DecidableEq, Repr

/-- The data of a `StructuredOutput`, or how the handler fails. -/
abbrev HandlerResult := Except HandlerFailure PyDict

/-! ## Payloads -/

def FailureScenario.value : FailureScenario → String
  | .serviceCrash => "service-crash"
  | .cpuSaturation => "cpu-saturation"
  | .memoryPressure => "memory-pressure"
  | .packetLoss => "packet-loss"
  | .networkTimeout => "network-timeout"
  | .sensorInitializationFailure => "sensor-initialization-failure"
  | .telemetryDelay => "telemetry-delay"
  | .diskCapacityWarning => "disk-capacity-warning"

/-- The fields of a `DeviceService` that nothing writes to. -/
structure ServiceFacts where
  version : String
  lastRestartAt : Time

/-- The fields of a `SimulatedDevice` that nothing writes to. -/
structure DeviceFacts where
  internalId : UUID
  serialNumber : String
  model : String
  location : String
  site : String
  firmwareVersion : String
  services : String → ServiceFacts

/-- `service.as_payload()`. -/
def ServiceFacts.asPayload (rt : SimulatorRuntime) (facts : ServiceFacts) (name : String)
    (state : ServiceState) : PyDict :=
  [("name", .str name), ("state", .str state.value), ("version", .str facts.version),
    ("last_restart_at", .str (rt.isoformat facts.lastRestartAt))]

/-- `[service.as_payload() for service in device.services.values()]`. -/
def SimulatedDevice.servicePayloads (rt : SimulatorRuntime) (facts : DeviceFacts)
    (device : SimulatedDevice) : Value :=
  .list (device.services.entries.map fun entry =>
    .dict ((facts.services entry.1).asPayload rt entry.1 entry.2))

/-- `device.as_payload()`. -/
def SimulatedDevice.asPayload (rt : SimulatorRuntime) (facts : DeviceFacts)
    (device : SimulatedDevice) : PyDict :=
  [("internal_id", .str facts.internalId.str), ("device_id", .str device.deviceId),
    ("serial_number", .str facts.serialNumber), ("model", .str facts.model),
    ("location", .str facts.location), ("site", .str facts.site),
    ("firmware_version", .str facts.firmwareVersion), ("status", .str device.status.value),
    ("health_score", .float (.finite device.healthScore)),
    ("last_seen", .str (rt.isoformat device.lastSeen)),
    ("boot_time", .str (rt.isoformat device.bootTime)),
    ("services", device.servicePayloads rt facts),
    ("active_scenario", device.activeScenario.elim .null fun scenario => .str scenario.value)]

/-! ## Configurations -/

/-- `ALLOWED_CONFIGURATION_KEYS`. -/
def allowedConfigurationKeys : List String :=
  ["telemetry_interval_seconds", "diagnostics_enabled", "firmware_channel",
    "packet_loss_threshold"]

/-- The configuration that a device starts with. -/
def initialConfiguration : PyDict :=
  [("telemetry_interval_seconds", .int 30), ("diagnostics_enabled", .bool true),
    ("firmware_channel", .str "stable"), ("packet_loss_threshold", .float (.finite 10))]

/-- The loop body of `_validate_configuration_patch`: why a value may not be stored under a
key. -/
def configurationIssue (key : String) (value : Value) : Option String :=
  if key = "telemetry_interval_seconds" then
    let text := "telemetry_interval_seconds must be an integer from 5 to 3600."
    match value with
    | .int n => if 5 ≤ n ∧ n ≤ 3600 then none else some text
    | _ => some text
  else if key = "diagnostics_enabled" then
    match value with
    | .bool _ => none
    | _ => some "diagnostics_enabled must be a boolean."
  else if key = "firmware_channel" then
    match value with
    | .str channel =>
        if channel ∈ ["stable", "candidate"] then none
        else some "firmware_channel must be stable or candidate."
    | _ => some "firmware_channel must be stable or candidate."
  else if key = "packet_loss_threshold" then
    let text := "packet_loss_threshold must be numeric from 0 to 100."
    match value with
    | .int n => if 0 ≤ n ∧ n ≤ 100 then none else some text
    | .float (.finite q) => if 0 ≤ q ∧ q ≤ 100 then none else some text
    | _ => some text
  else none

/-- `_validate_configuration_patch(patch)`. -/
def validateConfigurationPatch (patch : PyDict) : Except McpDomainError PyDict :=
  let rejected := ((patch.map Prod.fst).filter fun key =>
    key ∉ allowedConfigurationKeys).mergeSort fun a b => decide (a ≤ b)
  if rejected ≠ [] then
    .error (invalidConfiguration
      ("Unsupported configuration keys: " ++ ", ".intercalate rejected ++ "."))
  else
    match patch.findSome? fun entry => configurationIssue entry.1 entry.2 with
    | some message => .error (invalidConfiguration message)
    | none => .ok patch

/-- `configuration.update(patch)`. -/
def PyDict.update (configuration patch : PyDict) : PyDict :=
  patch.foldl (fun d entry => d.set entry.1 entry.2) configuration

/-! ## The service -/

/-- A device service.  The facts are those of its devices, by id. -/
structure DeviceDomainService where
  registry : DeviceRegistry
  facts : String → DeviceFacts
  configuration : Dict String PyDict

/-- `DEFAULT_TEST_TIME`. -/
def defaultTestTime : Time := seconds 1768478400

namespace DeviceDomainService

/-- `DeviceDomainService(registry)`. -/
def new (registry : DeviceRegistry) (facts : String → DeviceFacts) : DeviceDomainService where
  registry
  facts
  configuration := registry.listDevices.foldl
    (fun d device => d.set device.deviceId initialConfiguration) Dict.empty

/-- `_device(device_id)`. -/
def device (deviceId : String) (s : DeviceDomainService) :
    Except HandlerFailure SimulatedDevice :=
  match s.registry.devices.get? deviceId with
  | some device => .ok device
  | none => .error (.domain (deviceNotFound s!"Device {deviceId} was not found."))

/-- An error of the simulator, which is none of the domain. -/
def raising {α : Type} : Except SimulatorError α → Except HandlerFailure α
  | .ok a => .ok a
  | .error e => .error (.raised e)

variable (rt : SimulatorRuntime)

/-- `list_devices(limit)`. -/
def listDevices (limit : ℕ) (s : DeviceDomainService) : HandlerResult :=
  let devices := (s.registry.listDevices.take limit).map fun device =>
    Value.dict (device.asPayload rt (s.facts device.deviceId))
  .ok [("count", .int devices.length), ("devices", .list devices)]

/-- `get_device(device_id)`. -/
def getDevice (deviceId : String) (s : DeviceDomainService) : HandlerResult := do
  let device ← s.device deviceId
  .ok [("device", .dict (device.asPayload rt (s.facts device.deviceId)))]

/-- `get_status(device_id)`. -/
def getStatus (deviceId : String) (s : DeviceDomainService) : HandlerResult := do
  let device ← s.device deviceId
  .ok [("device_id", .str device.deviceId), ("status", .str device.status.value)]

/-- `get_health(device_id)`. -/
def getHealth (deviceId : String) (s : DeviceDomainService) : HandlerResult := do
  let device ← s.device deviceId
  .ok [("device_id", .str device.deviceId), ("status", .str device.status.value),
    ("health_score", .float (.finite device.healthScore))]

/-- `get_telemetry(device_id, limit)`. -/
def getTelemetry (deviceId : String) (limit : ℕ) (s : DeviceDomainService) : HandlerResult := do
  let telemetry ← (List.range limit).mapM fun _ =>
    raising (s.registry.telemetryFor rt deviceId defaultTestTime)
  .ok [("device_id", .str deviceId),
    ("telemetry", .list (telemetry.map fun point => .dict (point.asPayload rt)))]

/-- `self._configuration[device_id]`. -/
def configurationOf (deviceId : String) (s : DeviceDomainService) :
    Except HandlerFailure PyDict :=
  match s.configuration.get? deviceId with
  | some configuration => .ok configuration
  | none => .error (.raised (.keyError deviceId))

/-- `get_configuration(device_id)`. -/
def getConfiguration (deviceId : String) (s : DeviceDomainService) : HandlerResult := do
  let _ ← s.device deviceId
  let configuration ← s.configurationOf deviceId
  .ok [("device_id", .str deviceId), ("configuration", .dict configuration)]

/-- `get_services(device_id)`. -/
def getServices (deviceId : String) (s : DeviceDomainService) : HandlerResult := do
  let device ← s.device deviceId
  .ok [("device_id", .str deviceId),
    ("services", device.servicePayloads rt (s.facts device.deviceId))]

/-- `run_diagnostics(device_id, checks)`. -/
def runDiagnostics (deviceId : String) (checks : List String) (s : DeviceDomainService) :
    HandlerResult := do
  let telemetry ← raising (s.registry.telemetryFor rt deviceId defaultTestTime)
  let (status, healthScore) ← raising (evaluateHealth rt (telemetry.asPayload rt))
  .ok [("device_id", .str deviceId), ("checks", .list (checks.map .str)),
    ("status", .str (if status = .critical then "FAILED" else "SUCCEEDED")),
    ("health_status", .str status.value), ("health_score", .float (.finite healthScore)),
    ("summary", .str s!"{deviceId} diagnostic run completed with {status.value} health.")]

/-- `restart_device(device_id, reason)`. -/
def restartDevice (deviceId reason : String) (s : DeviceDomainService) :
    HandlerResult × DeviceDomainService :=
  match s.registry.clearScenario deviceId defaultTestTime with
  | (.error e, registry) => (.error (.raised e), { s with registry })
  | (.ok device, registry) =>
      (.ok [("device_id", .str device.deviceId), ("operation", .str "restart_device"),
        ("reason", .str reason)], { s with registry })

/-- `restart_service(device_id, service_name, reason)`. -/
def restartService (deviceId serviceName reason : String) (s : DeviceDomainService) :
    HandlerResult × DeviceDomainService :=
  match s.device deviceId with
  | .error e => (.error e, s)
  | .ok device =>
      match setService serviceName .running device with
      | .error _ =>
          (.error (.domain
            (deviceNotFound s!"Service {serviceName} was not found on {deviceId}.")), s)
      | .ok device =>
          (.ok [("device_id", .str deviceId), ("service_name", .str serviceName),
            ("operation", .str "restart_service"), ("reason", .str reason)],
            { s with registry := s.registry.put device })

/-- `update_configuration(device_id, patch, reason)`. -/
def updateConfiguration (deviceId : String) (patch : PyDict) (reason : String)
    (s : DeviceDomainService) : HandlerResult × DeviceDomainService :=
  match s.device deviceId with
  | .error e => (.error e, s)
  | .ok _ =>
      match validateConfigurationPatch patch with
      | .error e => (.error (.domain e), s)
      | .ok patch =>
          match s.configurationOf deviceId with
          | .error e => (.error e, s)
          | .ok configuration =>
              let configuration := configuration.update patch
              (.ok [("device_id", .str deviceId),
                ("operation", .str "update_device_configuration"),
                ("configuration", .dict configuration), ("reason", .str reason)],
                { s with configuration := s.configuration.set deviceId configuration })

end DeviceDomainService

/-! ## Calls -/

/-- The call of a handler, with the fields of its input that it takes. -/
inductive DeviceCall where
  | listDevices (limit : ℕ)
  | getDevice (deviceId : String)
  | getStatus (deviceId : String)
  | getHealth (deviceId : String)
  | getTelemetry (deviceId : String) (limit : ℕ)
  | getConfiguration (deviceId : String)
  | getServices (deviceId : String)
  | runDiagnostics (deviceId : String) (checks : List String)
  | restartDevice (deviceId reason : String)
  | restartService (deviceId serviceName reason : String)
  | updateConfiguration (deviceId : String) (patch : PyDict) (reason : String)

/-- A call of a handler. -/
def DeviceDomainService.call (rt : SimulatorRuntime) (s : DeviceDomainService) :
    DeviceCall → HandlerResult × DeviceDomainService
  | .listDevices limit => (s.listDevices rt limit, s)
  | .getDevice deviceId => (s.getDevice rt deviceId, s)
  | .getStatus deviceId => (s.getStatus deviceId, s)
  | .getHealth deviceId => (s.getHealth deviceId, s)
  | .getTelemetry deviceId limit => (s.getTelemetry rt deviceId limit, s)
  | .getConfiguration deviceId => (s.getConfiguration deviceId, s)
  | .getServices deviceId => (s.getServices rt deviceId, s)
  | .runDiagnostics deviceId checks => (s.runDiagnostics rt deviceId checks, s)
  | .restartDevice deviceId reason => s.restartDevice deviceId reason
  | .restartService deviceId serviceName reason => s.restartService deviceId serviceName reason
  | .updateConfiguration deviceId patch reason => s.updateConfiguration deviceId patch reason

end McpOps
