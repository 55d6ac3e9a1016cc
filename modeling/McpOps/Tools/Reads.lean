import McpOps.Tools.Tickets

/-!
# What the calls of the services read

Two services give the same result for a call when what the call reads is the same in both.  Calls
change neither which devices and services there are nor the facts about them (`SameFrame`); what
else a call reads is in `ReadsAlike`.

For devices `call_congr` goes through the handlers: each looks its device up, which is in both
services or in neither (`SameFrame.device_cases`), and computes from what it finds there.
`call_sameFrame` says that a call keeps the frame; it stores a device again with other states of
its services at most (`DeviceRegistry.SameShape.put`), or another configuration.

For tickets the result is the same exactly when what is read is (`call_eq_iff`), because a handler
shows the ticket that it has read.  An update need not read what it overwrites.
-/

namespace McpOps

/-! ## Devices -/

/-- The registries have the same devices with the same services. -/
def DeviceRegistry.SameShape (s t : DeviceRegistry) : Prop :=
  ∀ deviceId serviceName,
    (s.devices.get? deviceId).map (fun device => (device.services.get? serviceName).isSome) =
      (t.devices.get? deviceId).map fun device => (device.services.get? serviceName).isSome

/-- The services agree on what no call changes. -/
structure DeviceDomainService.SameFrame (s t : DeviceDomainService) : Prop where
  shape : s.registry.SameShape t.registry
  facts : s.facts = t.facts

/-- What else a call reads is the same in both services. -/
def DeviceCall.ReadsAlike (s t : DeviceDomainService) : DeviceCall → Prop
  | .listDevices limit => s.registry.listDevices.take limit = t.registry.listDevices.take limit
  | .getDevice deviceId => s.registry.devices.get? deviceId = t.registry.devices.get? deviceId
  | .getStatus deviceId =>
      (s.registry.devices.get? deviceId).map (·.status) =
        (t.registry.devices.get? deviceId).map (·.status)
  | .getHealth deviceId =>
      (s.registry.devices.get? deviceId).map (fun device => (device.status, device.healthScore)) =
        (t.registry.devices.get? deviceId).map fun device => (device.status, device.healthScore)
  | .getTelemetry deviceId _ => s.registry.devices.get? deviceId = t.registry.devices.get? deviceId
  | .getConfiguration deviceId => s.configuration.get? deviceId = t.configuration.get? deviceId
  | .getServices deviceId =>
      (s.registry.devices.get? deviceId).map (·.services) =
        (t.registry.devices.get? deviceId).map (·.services)
  | .runDiagnostics deviceId _ =>
      s.registry.devices.get? deviceId = t.registry.devices.get? deviceId
  | .restartDevice _ _ => True
  | .restartService _ _ _ => True
  | .updateConfiguration deviceId patch _ =>
      (validateConfigurationPatch patch).isOk →
        (s.configuration.get? deviceId).map (·.update patch) =
          (t.configuration.get? deviceId).map (·.update patch)

section Devices

variable {rt : SimulatorRuntime} {s t u : DeviceDomainService} {deviceId : String}

theorem DeviceRegistry.SameShape.isSome {s t : DeviceRegistry} (h : s.SameShape t)
    (deviceId : String) : (s.devices.get? deviceId).isSome = (t.devices.get? deviceId).isSome := by
  have hmap := congrArg Option.isSome (h deviceId "")
  simpa only [Option.isSome_map] using hmap

/-- A device may be stored again with other states of its services. -/
theorem DeviceRegistry.SameShape.put {s : DeviceRegistry} {d changed : SimulatedDevice}
    (hfound : s.devices.get? changed.deviceId = some d)
    (hservices : ∀ name, (changed.services.get? name).isSome = (d.services.get? name).isSome) :
    (s.put changed).SameShape s := by
  intro deviceId serviceName
  rw [DeviceRegistry.put, Dict.get?_set]
  split
  · rename_i heq
    rw [heq, hfound, Option.map_some, Option.map_some, hservices]
  · rfl

/-- A patch that is accepted is stored as it is. -/
theorem validateConfigurationPatch_ok {patch checked : PyDict}
    (h : validateConfigurationPatch patch = .ok checked) : checked = patch := by
  simp only [validateConfigurationPatch] at h
  split at h
  · cases h
  · split at h
    · cases h
    · exact (Except.ok.inj h).symm

namespace DeviceDomainService

theorem SameFrame.refl (s : DeviceDomainService) : s.SameFrame s := ⟨fun _ _ => rfl, rfl⟩

theorem SameFrame.trans (h : s.SameFrame t) (h' : t.SameFrame u) : s.SameFrame u :=
  ⟨fun deviceId name => (h.shape deviceId name).trans (h'.shape deviceId name),
    h.facts.trans h'.facts⟩

theorem restartDevice_sameFrame (deviceId reason : String) :
    (s.restartDevice deviceId reason).2.SameFrame s := by
  refine ⟨?_, ?_⟩
  · intro id name
    simp only [restartDevice, DeviceRegistry.clearScenario, DeviceRegistry.getDevice]
    cases hfound : s.registry.devices.get? deviceId with
    | none => rfl
    | some device =>
        have hid := s.registry.keyed deviceId device hfound
        refine DeviceRegistry.SameShape.put (d := device) (by rw [← hfound]; exact hid ▸ rfl)
          (fun name => ?_) id name
        rw [Dict.get?_mapValues, Option.isSome_map]
  · simp only [restartDevice]
    split <;> rfl

theorem restartService_sameFrame (deviceId serviceName reason : String) :
    (s.restartService deviceId serviceName reason).2.SameFrame s := by
  simp only [restartService, device, setService]
  cases hfound : s.registry.devices.get? deviceId with
  | none => exact .refl s
  | some device =>
      dsimp only
      by_cases hservice : (device.services.get? serviceName).isSome
      · rw [if_pos hservice]
        have hid := s.registry.keyed deviceId device hfound
        refine ⟨DeviceRegistry.SameShape.put (d := device) (by rw [← hfound]; exact hid ▸ rfl)
          fun name => ?_, rfl⟩
        rw [Dict.get?_set]
        split
        · rename_i heq
          rw [heq, hservice, Option.isSome_some]
        · rfl
      · rw [if_neg hservice]
        exact .refl s

theorem updateConfiguration_sameFrame (deviceId : String) (patch : PyDict) (reason : String) :
    (s.updateConfiguration deviceId patch reason).2.SameFrame s := by
  unfold updateConfiguration
  split
  · exact .refl s
  · split
    · exact .refl s
    · split
      · exact .refl s
      · exact ⟨fun _ _ => rfl, rfl⟩

/-- A call changes neither which devices and services there are nor the facts about them. -/
theorem call_sameFrame (call : DeviceCall) : (s.call rt call).2.SameFrame s := by
  cases call with
  | restartDevice deviceId reason => exact restartDevice_sameFrame deviceId reason
  | restartService deviceId name reason => exact restartService_sameFrame deviceId name reason
  | updateConfiguration deviceId patch reason =>
      exact updateConfiguration_sameFrame deviceId patch reason
  | _ => exact .refl s

/-- A device is in both services or in neither. -/
theorem SameFrame.device_cases (h : s.SameFrame t) (deviceId : String) :
    (s.registry.devices.get? deviceId = none ∧ t.registry.devices.get? deviceId = none) ∨
      ∃ device other, s.registry.devices.get? deviceId = some device ∧
        t.registry.devices.get? deviceId = some other ∧ device.deviceId = deviceId ∧
        other.deviceId = deviceId ∧
        ∀ name, (device.services.get? name).isSome = (other.services.get? name).isSome := by
  cases hdevice : s.registry.devices.get? deviceId with
  | none =>
      have hknown := h.shape.isSome deviceId
      rw [hdevice, Option.isSome_none] at hknown
      exact .inl ⟨rfl, Option.isSome_eq_false_iff.mp hknown.symm |> Option.isNone_iff_eq_none.mp⟩
  | some device =>
      have hknown := h.shape.isSome deviceId
      rw [hdevice, Option.isSome_some] at hknown
      obtain ⟨other, hother⟩ := Option.isSome_iff_exists.mp hknown.symm
      refine .inr ⟨device, other, rfl, hother, s.registry.keyed _ _ hdevice,
        t.registry.keyed _ _ hother, fun name => ?_⟩
      have hshape := h.shape deviceId name
      rw [hdevice, hother] at hshape
      exact Option.some.inj hshape

theorem device_congr (h : s.registry.devices.get? deviceId = t.registry.devices.get? deviceId) :
    s.device deviceId = t.device deviceId := by
  rw [device, device, h]

theorem telemetryFor_congr (rt : SimulatorRuntime) (now : Time)
    (h : s.registry.devices.get? deviceId = t.registry.devices.get? deviceId) :
    s.registry.telemetryFor rt deviceId now = t.registry.telemetryFor rt deviceId now := by
  simp only [DeviceRegistry.telemetryFor, DeviceRegistry.getDevice, h]

theorem getStatus_congr (h : s.SameFrame t)
    (hreads : (DeviceCall.getStatus deviceId).ReadsAlike s t) :
    s.getStatus deviceId = t.getStatus deviceId := by
  obtain ⟨hs, ht⟩ | ⟨found, other, hs, ht, hid, hid', -⟩ := h.device_cases deviceId
  · rw [getStatus, getStatus, device_congr (hs.trans ht.symm)]
  · simp only [DeviceCall.ReadsAlike, hs, ht, Option.map_some, Option.some.injEq] at hreads
    simp only [getStatus, device, hs, ht, bind, Except.bind, hid, hid', hreads]

theorem getHealth_congr (h : s.SameFrame t)
    (hreads : (DeviceCall.getHealth deviceId).ReadsAlike s t) :
    s.getHealth deviceId = t.getHealth deviceId := by
  obtain ⟨hs, ht⟩ | ⟨found, other, hs, ht, hid, hid', -⟩ := h.device_cases deviceId
  · rw [getHealth, getHealth, device_congr (hs.trans ht.symm)]
  · simp only [DeviceCall.ReadsAlike, hs, ht, Option.map_some, Option.some.injEq,
      Prod.mk.injEq] at hreads
    simp only [getHealth, device, hs, ht, bind, Except.bind, hid, hid', hreads.1, hreads.2]

theorem getServices_congr (h : s.SameFrame t)
    (hreads : (DeviceCall.getServices deviceId).ReadsAlike s t) :
    s.getServices rt deviceId = t.getServices rt deviceId := by
  obtain ⟨hs, ht⟩ | ⟨found, other, hs, ht, hid, hid', -⟩ := h.device_cases deviceId
  · rw [getServices, getServices, device_congr (hs.trans ht.symm)]
    simp only [device, ht, bind, Except.bind]
  · simp only [DeviceCall.ReadsAlike, hs, ht, Option.map_some, Option.some.injEq] at hreads
    simp only [getServices, device, hs, ht, bind, Except.bind, hid, hid', h.facts,
      SimulatedDevice.servicePayloads, hreads]

theorem getConfiguration_congr (h : s.SameFrame t)
    (hreads : s.configuration.get? deviceId = t.configuration.get? deviceId) :
    s.getConfiguration deviceId = t.getConfiguration deviceId := by
  have hconfiguration : s.configurationOf deviceId = t.configurationOf deviceId := by
    rw [configurationOf, configurationOf, hreads]
  obtain ⟨hs, ht⟩ | ⟨found, other, hs, ht, -, -, -⟩ := h.device_cases deviceId
  · simp only [getConfiguration, device, hs, ht, bind, Except.bind]
  · simp only [getConfiguration, device, hs, ht, bind, Except.bind, hconfiguration]

theorem restartDevice_congr (h : s.SameFrame t) (reason : String) :
    (s.restartDevice deviceId reason).1 = (t.restartDevice deviceId reason).1 := by
  obtain ⟨hs, ht⟩ | ⟨found, other, hs, ht, hid, hid', -⟩ := h.device_cases deviceId
  · simp only [restartDevice, DeviceRegistry.clearScenario, DeviceRegistry.getDevice, hs, ht]
  · simp only [restartDevice, DeviceRegistry.clearScenario, DeviceRegistry.getDevice, hs, ht, hid,
      hid']

theorem restartService_congr (h : s.SameFrame t) (serviceName reason : String) :
    (s.restartService deviceId serviceName reason).1 =
      (t.restartService deviceId serviceName reason).1 := by
  obtain ⟨hs, ht⟩ | ⟨found, other, hs, ht, -, -, hservices⟩ := h.device_cases deviceId
  · simp only [restartService, device, hs, ht]
  · simp only [restartService, device, hs, ht, setService, hservices serviceName]
    by_cases hservice : (other.services.get? serviceName).isSome
    · rw [if_pos hservice, if_pos hservice]
    · rw [if_neg hservice, if_neg hservice]

theorem updateConfiguration_congr (h : s.SameFrame t) {patch : PyDict} {reason : String}
    (hreads : (DeviceCall.updateConfiguration deviceId patch reason).ReadsAlike s t) :
    (s.updateConfiguration deviceId patch reason).1 =
      (t.updateConfiguration deviceId patch reason).1 := by
  obtain ⟨hs, ht⟩ | ⟨found, other, hs, ht, -, -, -⟩ := h.device_cases deviceId
  · simp only [updateConfiguration, device, hs, ht]
  · simp only [updateConfiguration, device, hs, ht]
    cases hpatch : validateConfigurationPatch patch with
    | error e => rfl
    | ok checked =>
        have hsame := hreads (by rw [hpatch]; rfl)
        have hchecked : checked = patch := validateConfigurationPatch_ok hpatch
        subst hchecked
        simp only [configurationOf]
        cases hconf : s.configuration.get? deviceId with
        | none =>
            rw [hconf, Option.map_none] at hsame
            rw [Option.map_eq_none_iff.mp hsame.symm]
        | some configuration =>
            rw [hconf, Option.map_some] at hsame
            obtain ⟨configuration', hconf', heq⟩ := Option.map_eq_some_iff.mp hsame.symm
            simp only [hconf', heq]

/-- The result of a call depends only on what it reads. -/
theorem call_congr (h : s.SameFrame t) {call : DeviceCall} (hreads : call.ReadsAlike s t) :
    (s.call rt call).1 = (t.call rt call).1 := by
  cases call with
  | listDevices limit =>
      simp only [DeviceCall.ReadsAlike] at hreads
      simp only [DeviceDomainService.call, listDevices, hreads, h.facts]
  | getDevice deviceId =>
      simp only [DeviceDomainService.call, getDevice, device_congr hreads, h.facts]
  | getStatus deviceId => exact getStatus_congr h hreads
  | getHealth deviceId => exact getHealth_congr h hreads
  | getTelemetry deviceId limit =>
      simp only [DeviceDomainService.call, getTelemetry, telemetryFor_congr rt _ hreads]
  | getConfiguration deviceId => exact getConfiguration_congr h hreads
  | getServices deviceId => exact getServices_congr h hreads
  | runDiagnostics deviceId checks =>
      simp only [DeviceDomainService.call, runDiagnostics, telemetryFor_congr rt _ hreads]
  | restartDevice deviceId reason => exact restartDevice_congr h reason
  | restartService deviceId serviceName reason => exact restartService_congr h serviceName reason
  | updateConfiguration deviceId patch reason => exact updateConfiguration_congr h hreads

end DeviceDomainService

end Devices

/-! ## Tickets -/

/-- What a call reads of the tickets is the same in both services.  An update need not read what
it overwrites. -/
def TicketCall.ReadsAlike (rt : ToolRuntime) (s t : TicketDomainService) : TicketCall → Prop
  | .create _ => True
  | .get ticketId => s.tickets.get? ticketId = t.tickets.get? ticketId
  | .update ticketId status priority description =>
      (s.tickets.get? ticketId).map (Ticket.updated status priority description) =
        (t.tickets.get? ticketId).map (Ticket.updated status priority description)
  | .assign ticketId assignee =>
      (s.tickets.get? ticketId).map (Ticket.assigned assignee) =
        (t.tickets.get? ticketId).map (Ticket.assigned assignee)
  | .search query status deviceId limit =>
      s.found rt query status deviceId limit = t.found rt query status deviceId limit
  | .openTickets limit =>
      s.found rt none (some "OPEN") none limit = t.found rt none (some "OPEN") none limit

namespace TicketDomainService

variable {rt : ToolRuntime} {s t : TicketDomainService}

/-- A call does not change the devices. -/
@[simp] theorem call_deviceService (call : TicketCall) :
    (s.call rt call).2.deviceService = s.deviceService := by
  have hmodify : ∀ (ticketId : String) (change : Ticket → Ticket),
      (s.modify ticketId change).2.deviceService = s.deviceService := by
    intro ticketId change
    unfold modify
    split <;> rfl
  cases call with
  | create payload =>
      simp only [TicketDomainService.call, create]
      split <;> rfl
  | update ticketId status priority description => exact hmodify _ _
  | assign ticketId assignee => exact hmodify _ _
  | _ => rfl

theorem asDict_injective : Function.Injective Ticket.asDict := by
  intro a b h
  simp only [Ticket.asDict, List.cons.injEq, Prod.mk.injEq, Value.str.injEq, Value.dict.injEq,
    true_and, and_true] at h
  obtain ⟨hid, htitle, hdescription, hdevice, hpriority, hstatus, hassignee, hteam, hcreated,
    hevidence⟩ := h
  have hassignee : a.assignee = b.assignee := by
    cases ha : a.assignee <;> cases hb : b.assignee <;> simp_all
  cases a
  cases b
  simp_all

theorem shown_injective : Function.Injective shown := by
  intro a b h
  simp only [shown, List.cons.injEq, Prod.mk.injEq, Value.dict.injEq, true_and, and_true] at h
  exact asDict_injective h

/-- The outcome of showing a ticket, changed or not, is the same for the same ticket only. -/
theorem ticket_map_eq_iff (ticketId : String) (change : Ticket → Ticket) :
    (s.ticket ticketId).map (fun ticket => shown (change ticket)) =
        (t.ticket ticketId).map (fun ticket => shown (change ticket)) ↔
      (s.tickets.get? ticketId).map change = (t.tickets.get? ticketId).map change := by
  simp only [ticket]
  cases s.tickets.get? ticketId with
  | none => cases t.tickets.get? ticketId with
    | none => exact iff_of_true rfl rfl
    | some other => exact iff_of_false (fun h => by cases h) fun h => by cases h
  | some found => cases t.tickets.get? ticketId with
    | none => exact iff_of_false (fun h => by cases h) fun h => by cases h
    | some other =>
        rw [Option.map_some, Option.map_some, Option.some_inj]
        refine ⟨fun h => shown_injective (Except.ok.inj h), fun h => ?_⟩
        simp only [Except.map, h]

theorem modify_fst (ticketId : String) (change : Ticket → Ticket) :
    (s.modify ticketId change).1 = (s.ticket ticketId).map fun ticket => shown (change ticket) := by
  unfold modify
  cases s.ticket ticketId <;> rfl

theorem search_eq_iff {query status deviceId : Option String} {limit : ℕ} :
    s.search rt query status deviceId limit = t.search rt query status deviceId limit ↔
      s.found rt query status deviceId limit = t.found rt query status deviceId limit := by
  refine ⟨fun h => ?_, fun h => by rw [search, search, h]⟩
  simp only [search, Except.ok.injEq, List.cons.injEq, Prod.mk.injEq, Value.list.injEq, true_and,
    and_true] at h
  exact List.map_injective_iff.mpr (fun a b hab => asDict_injective (Value.dict.inj hab)) h

/-- Two services that read the same devices give the same result for a call exactly when they
hold the same of what it reads. -/
theorem call_eq_iff (h : s.deviceService = t.deviceService) (call : TicketCall) :
    (s.call rt call).1 = (t.call rt call).1 ↔ call.ReadsAlike rt s t := by
  cases call with
  | create payload =>
      refine iff_of_true ?_ trivial
      simp only [TicketDomainService.call, create, h]
      cases t.deviceService.device payload.deviceId <;> rfl
  | get ticketId =>
      have hget := ticket_map_eq_iff (s := s) (t := t) ticketId id
      rwa [Option.map_id] at hget
  | update ticketId status priority description =>
      simp only [TicketDomainService.call, update, modify_fst]
      exact ticket_map_eq_iff ..
  | assign ticketId assignee =>
      simp only [TicketDomainService.call, assign, modify_fst]
      exact ticket_map_eq_iff ..
  | search query status deviceId limit => exact search_eq_iff
  | openTickets limit => exact search_eq_iff

end TicketDomainService

end McpOps
