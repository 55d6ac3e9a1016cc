import McpOps.Simulator.Telemetry
import McpOps.Tools.Devices

/-!
# Two views of the services of a device

A device holds the states of its services, and `get_services` reports them as they are held.  Its
telemetry takes them too, but puts the state in which the active scenario leaves a service over
the state that is held.  The views agree as long as the active scenario of a device holds its
service down.  `restart_service` starts such a service and leaves the scenario active, where
`restart_device` clears it.

`viewsAgree_iff_showsScenarios` turns the comparison of the views, for one state, into one about
each device that sends telemetry: its active scenario shows in its services.  This needs the
service states of telemetry under a scenario (`serviceStates_applyScenario`), and that a scenario
never leaves a service running (`FailureScenario.takesDown_ne_running`).

An operation changes one device at most, so whether it leads to such a state again can be said by
that device alone (`showsScenarios_after_iff`): `DeviceOperation.KeepsScenario` is exact,
operation by operation.  `views_agree_iff` is the sequence.
-/

namespace McpOps

/-! ## The two views -/

/-- `service["name"], service["state"]`. -/
def nameAndState : Value → Option (String × String)
  | .dict fields =>
      match PyDict.get? fields "name", PyDict.get? fields "state" with
      | some (.str name), some (.str state) => some (name, state)
      | _, _ => none
  | _ => none

/-- The state of a service in the data of `get_services`. -/
def reportedState (data : PyDict) (name : String) : Option String :=
  match data.get? "services" with
  | some (.list services) => (services.filterMap nameAndState).lookup name
  | _ => none

/-- What the telemetry of a device reports of its services is what `get_services` reports. -/
def DeviceDomainService.ViewsAgree (rt : SimulatorRuntime) (s : DeviceDomainService) : Prop :=
  ∀ deviceId now telemetry data, s.registry.telemetryFor rt deviceId now = .ok telemetry →
    s.getServices rt deviceId = .ok data →
      ∀ name, (telemetry.serviceStates.get? name).map ServiceState.value = reportedState data name

/-! ## Operations -/

/-- What is done to the devices. -/
inductive DeviceOperation where
  /-- `activate_scenario(device_id, scenario, now)` of the registry -/
  | activateScenario (deviceId : String) (scenario : FailureScenario) (now : Time)
  /-- `clear_scenario(device_id, now)` of the registry -/
  | clearScenario (deviceId : String) (now : Time)
  | restartDevice (deviceId reason : String)
  | restartService (deviceId serviceName reason : String)

/-- The service after an operation, whether or not it fails. -/
def DeviceDomainService.after (s : DeviceDomainService) : DeviceOperation → DeviceDomainService
  | .activateScenario deviceId scenario now =>
      { s with registry := (s.registry.activateScenario deviceId scenario now).2 }
  | .clearScenario deviceId now =>
      { s with registry := (s.registry.clearScenario deviceId now).2 }
  | .restartDevice deviceId reason => (s.restartDevice deviceId reason).2
  | .restartService deviceId serviceName reason => (s.restartService deviceId serviceName reason).2

/-- The states along the operations, the first one included. -/
def DeviceDomainService.states (s : DeviceDomainService) :
    List DeviceOperation → List DeviceDomainService
  | [] => [s]
  | operation :: rest => s :: (s.after operation).states rest

/-! ## Scenarios -/

/-- The service that a scenario takes down, and the state it leaves the service in. -/
def FailureScenario.takesDown : FailureScenario → Option (String × ServiceState)
  | .serviceCrash => some ("sensor-ingestor", .crashed)
  | .sensorInitializationFailure => some ("sensor-ingestor", .crashed)
  | .networkTimeout => some ("telemetry-agent", .degraded)
  | _ => none

/-- The service that the active scenario takes down. -/
def SimulatedDevice.takenDown (device : SimulatedDevice) : Option (String × ServiceState) :=
  device.activeScenario.bind FailureScenario.takesDown

/-- The device sends telemetry: its id has a number. -/
def SendsTelemetry (rt : SimulatorRuntime) (deviceId : String) : Prop :=
  (deviceIndex rt deviceId).isOk

/-- Where a scenario is active, the service that it takes down is in the state it leaves it in. -/
def DeviceDomainService.ShowsScenarios (rt : SimulatorRuntime) (s : DeviceDomainService) : Prop :=
  ∀ deviceId device, s.registry.devices.get? deviceId = some device → SendsTelemetry rt deviceId →
    ∀ name state, device.takenDown = some (name, state) → device.services.get? name = some state

/-- A scenario is activated only on a device that has the service it takes down, and the service
that the active scenario takes down is not restarted on its own. -/
def DeviceOperation.KeepsScenario (rt : SimulatorRuntime) (s : DeviceDomainService) :
    DeviceOperation → Prop
  | .activateScenario deviceId scenario _ =>
      ∀ device, s.registry.devices.get? deviceId = some device → SendsTelemetry rt deviceId →
        ∀ name state, scenario.takesDown = some (name, state) →
          (device.services.get? name).isSome
  | .restartService deviceId serviceName _ =>
      ∀ device, s.registry.devices.get? deviceId = some device → SendsTelemetry rt deviceId →
        ∀ name state, device.takenDown = some (name, state) → serviceName ≠ name
  | _ => True

/-- Every operation keeps the scenarios of the state it is applied to. -/
def KeepScenarios (rt : SimulatorRuntime) (s : DeviceDomainService) :
    List DeviceOperation → Prop
  | [] => True
  | operation :: rest => operation.KeepsScenario rt s ∧ KeepScenarios rt (s.after operation) rest

section Views

variable {rt : SimulatorRuntime} {s : DeviceDomainService} {device : SimulatedDevice}
  {deviceId name : String} {state : ServiceState}

theorem ServiceState.value_injective : Function.Injective ServiceState.value := by
  intro a b h
  cases a <;> cases b <;> first | rfl | exact absurd h (by decide)

/-- A scenario never leaves a service running. -/
theorem FailureScenario.takesDown_ne_running {scenario : FailureScenario}
    (h : scenario.takesDown = some (name, state)) : state ≠ .running := by
  cases scenario <;> cases h <;> decide

/-- The service states of telemetry under a scenario. -/
theorem serviceStates_applyScenario (telemetry : DeviceTelemetry) (scenario : FailureScenario) :
    (applyScenarioToTelemetry telemetry scenario).serviceStates =
      scenario.takesDown.elim telemetry.serviceStates
        fun entry => telemetry.serviceStates.set entry.1 entry.2 := by
  cases scenario <;> rfl

theorem applyScenarioToServices_eq (scenario : FailureScenario) (device : SimulatedDevice) :
    applyScenarioToServices scenario device =
      scenario.takesDown.elim
        (.ok { device with services := device.services.mapValues fun _ _ => .running })
        fun entry => setService entry.1 entry.2 device := by
  cases scenario <;> rfl

/-- What telemetry reports of the services of a device. -/
def SimulatedDevice.telemetryStates (device : SimulatedDevice) : Dict String ServiceState :=
  device.takenDown.elim device.services fun entry => device.services.set entry.1 entry.2

/-- Telemetry is sent for the known devices whose id has a number, with the service states under
the active scenario. -/
theorem telemetryFor_states (hfound : s.registry.devices.get? deviceId = some device)
    (hsends : SendsTelemetry rt deviceId) (now : Time) :
    ∃ telemetry, s.registry.telemetryFor rt deviceId now = .ok telemetry ∧
      telemetry.serviceStates = device.telemetryStates := by
  have hid := s.registry.keyed deviceId device hfound
  have hdevice := DeviceRegistry.mem_listDevices.mpr (hid ▸ hfound)
  obtain ⟨telemetry, htelemetry⟩ := DeviceRegistry.telemetryFor_ok hdevice (hid ▸ hsends) now
  rw [hid] at htelemetry
  refine ⟨telemetry, htelemetry, ?_⟩
  cases hindex : deviceIndex rt deviceId with
  | error e =>
      rw [SendsTelemetry, hindex] at hsends
      cases hsends
  | ok index =>
      rw [DeviceRegistry.telemetryFor, DeviceRegistry.getDevice_eq_ok.mpr hfound] at htelemetry
      simp only [bind, Except.bind, hid, hindex, Except.ok.injEq] at htelemetry
      subst htelemetry
      unfold SimulatedDevice.telemetryStates SimulatedDevice.takenDown
      cases device.activeScenario with
      | none => rfl
      | some scenario => exact serviceStates_applyScenario _ scenario

theorem lookup_servicePayloads (rt : SimulatorRuntime) (facts : String → ServiceFacts)
    (entries : List (String × ServiceState)) (name : String) :
    ((entries.map fun entry =>
        Value.dict ((facts entry.1).asPayload rt entry.1 entry.2)).filterMap nameAndState).lookup
        name = ((entries.find? fun entry => entry.1 = name).map Prod.snd).map
          ServiceState.value := by
  induction entries with
  | nil => rfl
  | cons entry rest ih =>
      have hentry : nameAndState (.dict ((facts entry.1).asPayload rt entry.1 entry.2)) =
          some (entry.1, entry.2.value) := rfl
      rw [List.map_cons, List.filterMap_cons_some hentry, List.lookup_cons, ih]
      by_cases hname : entry.1 = name
      · have hkey : (name == entry.1) = true := beq_iff_eq.mpr hname.symm
        rw [hkey, List.find?_cons_of_pos (by simpa using hname)]
        rfl
      · have hkey : (name == entry.1) = false := beq_eq_false_iff_ne.mpr (Ne.symm hname)
        rw [hkey, List.find?_cons_of_neg (by simpa using hname)]

/-- What `get_services` reports of the services of a device. -/
theorem getServices_states (rt : SimulatorRuntime)
    (hfound : s.registry.devices.get? deviceId = some device) :
    ∃ data, s.getServices rt deviceId = .ok data ∧
      ∀ name, reportedState data name = (device.services.get? name).map ServiceState.value := by
  have hdevice : s.device deviceId = .ok device := by rw [DeviceDomainService.device, hfound]
  refine ⟨[("device_id", .str deviceId),
    ("services", device.servicePayloads rt (s.facts device.deviceId))], ?_, fun name => ?_⟩
  · rw [DeviceDomainService.getServices, hdevice]
    rfl
  · exact lookup_servicePayloads rt (s.facts device.deviceId).services device.services.entries name

/-- The views agree exactly where the scenarios show in the services. -/
theorem viewsAgree_iff_showsScenarios : s.ViewsAgree rt ↔ s.ShowsScenarios rt := by
  constructor
  · -- one reading of the clock is enough to compare the views
    intro hagree deviceId device hfound hsends name state hdown
    obtain ⟨telemetry, htelemetry, hstates⟩ := telemetryFor_states hfound hsends 0
    obtain ⟨data, hdata, hreported⟩ := getServices_states rt hfound
    have hname := hagree deviceId 0 telemetry data htelemetry hdata name
    rw [hstates, hreported, SimulatedDevice.telemetryStates, hdown, Option.elim_some,
      Dict.get?_set_self] at hname
    exact (Option.map_injective ServiceState.value_injective hname).symm
  · intro hshows deviceId now telemetry data htelemetry hdata name
    cases hfound : s.registry.devices.get? deviceId with
    | none =>
        rw [DeviceDomainService.getServices, DeviceDomainService.device, hfound] at hdata
        cases hdata
    | some device =>
        have hid := s.registry.keyed deviceId device hfound
        have hsends : SendsTelemetry rt deviceId := by
          have hdevice := DeviceRegistry.mem_listDevices.mpr (hid ▸ hfound)
          rw [← hid] at htelemetry ⊢
          exact (DeviceRegistry.telemetryFor_stamp hdevice htelemetry).2.2
        obtain ⟨telemetry', htelemetry', hstates⟩ := telemetryFor_states hfound hsends now
        obtain ⟨data', hdata', hreported⟩ := getServices_states rt hfound
        cases htelemetry.symm.trans htelemetry'
        cases hdata.symm.trans hdata'
        rw [hreported, hstates, SimulatedDevice.telemetryStates]
        -- the views differ in the entry that the scenario takes down, which the registry shows as
        -- well
        cases hdown : device.takenDown with
        | none => rfl
        | some entry =>
            have hheld := hshows deviceId device hfound hsends entry.1 entry.2 hdown
            rw [Option.elim_some, Dict.get?_set]
            split
            · rename_i heq
              rw [heq, hheld]
            · rfl

end Views

/-! ## One operation -/

section Operations

variable {rt : SimulatorRuntime} {s : DeviceDomainService} {device changed : SimulatedDevice}

/-- A service that stores a device again shows the scenarios when the device shows its own. -/
theorem showsScenarios_put (hshows : s.ShowsScenarios rt) :
    DeviceDomainService.ShowsScenarios rt { s with registry := s.registry.put changed } ↔
      (SendsTelemetry rt changed.deviceId →
        ∀ name state, changed.takenDown = some (name, state) →
          changed.services.get? name = some state) := by
  constructor
  · intro hafter hsends
    exact hafter changed.deviceId changed (Dict.get?_set_self ..) hsends
  · intro hchanged deviceId other hother hsends
    rw [DeviceRegistry.put, Dict.get?_set] at hother
    split at hother
    · cases hother
      rename_i heq
      exact hchanged (heq ▸ hsends)
    · exact hshows deviceId other hother hsends

theorem showsScenarios_clear (hshows : s.ShowsScenarios rt) (deviceId : String) (now : Time) :
    DeviceDomainService.ShowsScenarios rt
      { s with registry := (s.registry.clearScenario deviceId now).2 } := by
  unfold DeviceRegistry.clearScenario
  cases s.registry.getDevice deviceId with
  | error e => exact hshows
  | ok device =>
      refine (showsScenarios_put hshows).mpr fun _ name state hdown => ?_
      cases hdown

theorem showsScenarios_activate_iff (hshows : s.ShowsScenarios rt) (deviceId : String)
    (scenario : FailureScenario) (now : Time) :
    DeviceDomainService.ShowsScenarios rt
        { s with registry := (s.registry.activateScenario deviceId scenario now).2 } ↔
      DeviceOperation.KeepsScenario rt s (.activateScenario deviceId scenario now) := by
  simp only [DeviceOperation.KeepsScenario, DeviceRegistry.activateScenario,
    DeviceRegistry.getDevice]
  cases hfound : s.registry.devices.get? deviceId with
  | none => exact iff_of_true hshows fun device hdevice => by cases hdevice
  | some device =>
      have hid := s.registry.keyed deviceId device hfound
      have hservices := applyScenarioToServices_eq scenario
        { device with activeScenario := some scenario, lastSeen := now }
      dsimp only
      rw [hservices]
      -- a scenario that takes nothing down leaves the services alone
      cases hdown : scenario.takesDown with
      | none =>
          refine iff_of_true ((showsScenarios_put hshows).mpr fun _ name state hname => ?_) ?_
          · rw [SimulatedDevice.takenDown, Option.bind_some, hdown] at hname
            cases hname
          · intro _ _ _ name state hname
            cases hname
      | some entry =>
          obtain ⟨name, state⟩ := entry
          dsimp only [Option.elim_some, setService]
          by_cases hservice : (device.services.get? name).isSome
          · rw [if_pos hservice]
            refine iff_of_true ((showsScenarios_put hshows).mpr fun _ name' state' hname => ?_) ?_
            · rw [SimulatedDevice.takenDown, Option.bind_some, hdown] at hname
              cases hname
              exact Dict.get?_set_self ..
            · intro other hother _ name' state' hname
              cases hother
              cases hname
              exact hservice
          · -- the scenario is set before the missing service is looked up
            rw [if_neg hservice]
            refine (showsScenarios_put hshows).trans ⟨fun h => ?_, fun h => ?_⟩
            · intro other hother hsends name' state' hname
              cases hother
              cases hname
              have hheld := h (hid ▸ hsends) name state
                (by rw [SimulatedDevice.takenDown, Option.bind_some, hdown])
              rw [hheld, Option.isSome_some]
            · intro hsends
              exact absurd (h device rfl (hid ▸ hsends) name state rfl) hservice

theorem showsScenarios_restartService_iff (hshows : s.ShowsScenarios rt)
    (deviceId serviceName reason : String) :
    (s.restartService deviceId serviceName reason).2.ShowsScenarios rt ↔
      DeviceOperation.KeepsScenario rt s (.restartService deviceId serviceName reason) := by
  simp only [DeviceOperation.KeepsScenario, DeviceDomainService.restartService,
    DeviceDomainService.device, setService]
  cases hfound : s.registry.devices.get? deviceId with
  | none => exact iff_of_true hshows fun device hdevice => by cases hdevice
  | some device =>
      have hid := s.registry.keyed deviceId device hfound
      have hheld := hshows deviceId device hfound
      dsimp only
      by_cases hservice : (device.services.get? serviceName).isSome
      · rw [if_pos hservice]
        refine (showsScenarios_put hshows).trans ⟨fun h => ?_, fun h hsends name state hdown => ?_⟩
        · -- a service that runs again is not the one that the scenario takes down
          intro other hother hsends name state hdown heq
          cases hother
          have hrunning := h (hid ▸ hsends) name state hdown
          rw [heq, Dict.get?_set_self] at hrunning
          obtain ⟨scenario, _, hscenario⟩ := Option.bind_eq_some_iff.mp hdown
          exact scenario.takesDown_ne_running hscenario (Option.some_inj.mp hrunning).symm
        · have hsends : SendsTelemetry rt deviceId := hid ▸ hsends
          have hne := h device rfl hsends name state hdown
          rw [Dict.get?_set_of_ne (Ne.symm hne)]
          exact hheld hsends name state hdown
      · rw [if_neg hservice]
        refine iff_of_true hshows ?_
        intro other hother hsends name state hdown heq
        cases hother
        have hname := hheld hsends name state hdown
        rw [heq, hname] at hservice
        exact hservice rfl

/-- From a state that shows the scenarios, an operation leads to such a state exactly when it keeps
them. -/
theorem showsScenarios_after_iff (hshows : s.ShowsScenarios rt) (operation : DeviceOperation) :
    (s.after operation).ShowsScenarios rt ↔ operation.KeepsScenario rt s := by
  cases operation with
  | activateScenario deviceId scenario now =>
      exact showsScenarios_activate_iff hshows deviceId scenario now
  | clearScenario deviceId now =>
      exact iff_of_true (showsScenarios_clear hshows deviceId now) trivial
  | restartDevice deviceId reason =>
      refine iff_of_true ?_ trivial
      have hclear := showsScenarios_clear hshows deviceId defaultTestTime
      simp only [DeviceDomainService.after, DeviceDomainService.restartDevice]
      split
      · rename_i heq
        rw [heq] at hclear
        exact hclear
      · rename_i heq
        rw [heq] at hclear
        exact hclear
  | restartService deviceId serviceName reason =>
      exact showsScenarios_restartService_iff hshows deviceId serviceName reason

end Operations

/-! ## Whole runs -/

theorem showsScenarios_states_iff {rt : SimulatorRuntime} (operations : List DeviceOperation)
    (s : DeviceDomainService) :
    (∀ t ∈ s.states operations, t.ShowsScenarios rt) ↔
      s.ShowsScenarios rt ∧ KeepScenarios rt s operations := by
  induction operations generalizing s with
  | nil =>
      simp only [DeviceDomainService.states, List.mem_singleton, forall_eq, KeepScenarios, and_true]
  | cons operation rest ih =>
      rw [DeviceDomainService.states, List.forall_mem_cons, ih, KeepScenarios]
      constructor
      · rintro ⟨hshows, hafter, hrest⟩
        exact ⟨hshows, (showsScenarios_after_iff hshows operation).mp hafter, hrest⟩
      · rintro ⟨hshows, hkeeps, hrest⟩
        exact ⟨hshows, (showsScenarios_after_iff hshows operation).mpr hkeeps, hrest⟩

/-- Along any operations, telemetry and `get_services` report the same service states throughout
exactly when the scenarios show in the services at first, no scenario is activated on a device that
lacks the service it takes down, and no service that an active scenario takes down is restarted on
its own. -/
theorem views_agree_iff (rt : SimulatorRuntime) (s : DeviceDomainService)
    (operations : List DeviceOperation) :
    (∀ t ∈ s.states operations, t.ViewsAgree rt) ↔
      s.ShowsScenarios rt ∧ KeepScenarios rt s operations := by
  rw [← showsScenarios_states_iff]
  exact forall₂_congr fun _ _ => viewsAgree_iff_showsScenarios

/-- The service `sensor-ingestor` crashes and is restarted. -/
def crashAndRestart : List DeviceOperation :=
  [.activateScenario "SIM-001" .serviceCrash 0, .restartService "SIM-001" "sensor-ingestor" "crash"]

/-- A device service for one device. -/
def oneDeviceService : DeviceDomainService where
  registry := oneDevice
  facts _ := ⟨0, "SN-MCP-00001", "SIM-X200", "Rack 1, Slot 1", "Pune Integration", "2026.2.2",
    fun _ => ⟨"v2.1.0", 0⟩⟩
  configuration := Dict.empty.set "SIM-001" initialConfiguration

/-- After a crashed service has been restarted, `get_services` reports it as running and telemetry
as crashed. -/
theorem restartedService_disagrees :
    ¬ ∀ (rt : SimulatorRuntime) (s : DeviceDomainService) (operations : List DeviceOperation),
      (∀ deviceId device, s.registry.devices.get? deviceId = some device →
        device.activeScenario = none) →
          ∀ t ∈ s.states operations, t.ViewsAgree rt := by
  intro hclaim
  have hactive : ∀ deviceId device, oneDeviceService.registry.devices.get? deviceId = some device →
      device.activeScenario = none := by
    intro deviceId device hfound
    have hentry := Dict.get?_eq_some_iff.mp hfound
    have hdevice : (deviceId, device) = ("SIM-001", simDevice) := List.mem_singleton.mp hentry
    cases hdevice
    rfl
  have hshows := (showsScenarios_states_iff crashAndRestart oneDeviceService).mp
    fun t ht => viewsAgree_iff_showsScenarios.mp (hclaim .clocked _ _ hactive t ht)
  have hsends : SendsTelemetry .clocked "SIM-001" := by
    unfold SendsTelemetry
    decide
  exact hshows.2.2.1 _ rfl hsends "sensor-ingestor" .crashed rfl rfl

end McpOps
