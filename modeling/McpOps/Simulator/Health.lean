import McpOps.Simulator.Consumers
import Mathlib.Data.List.MinMax
import Mathlib.Algebra.Order.Group.Int

/-!
# The health of a device

A telemetry event overwrites the health of its device, whatever its timestamp.  After a sequence
of deliveries the registry holds, for every device, what the event says that came last.

A new event that can be read is what the registry holds about its device, and it leaves the other
devices alone (`processNew_shows`); publishing does not touch the registry, so it does not matter
whether that fails.  By induction the last delivery decides (`Telemetry.last`, `Telemetry.shows`).

The newest event of a device is another matter: it is the one with the latest timestamp.  As
events of one device have timestamps of their own, two deliveries that the registry shows of it
are the same (`DeviceRegistry.Shows.timestamp`), and `followsNewest_iff` says that the health
follows the newest event exactly when that is the one delivered last.
-/

namespace McpOps

/-- The device that an event is about. -/
def DomainEvent.deviceId? (rt : SimulatorRuntime) (event : DomainEvent) : Option String :=
  (payloadItem event.payload "device_id").toOption.map (pyStr rt)

/-- The payload of the event can be read, and its device is known. -/
def DomainEvent.Readable (rt : SimulatorRuntime) (registry : DeviceRegistry)
    (event : DomainEvent) : Prop :=
  event.Known rt registry ∧ ∃ health, evaluateHealth rt event.payload = .ok health

/-- The registry holds what the event says about its device. -/
def DeviceRegistry.Shows (rt : SimulatorRuntime) (event : DomainEvent) (s : DeviceRegistry) :
    Prop :=
  ∃ deviceId device, event.deviceId? rt = some deviceId ∧
    s.devices.get? deviceId = some device ∧
    evaluateHealth rt event.payload = .ok (device.status, device.healthScore) ∧
    device.lastSeen = event.timestamp

section Shows

variable {rt : SimulatorRuntime} {registry : DeviceRegistry} {delivery : Delivery}
  {c : TelemetryConsumer} {deliveries : List Delivery}

/-- Publishing does not touch the registry. -/
theorem publishThen_registry {topic : String} {event : DomainEvent}
    {rest : TelemetryConsumer → Except SimulatorError (List DomainEvent) × TelemetryConsumer}
    (hrest : ∀ c, (rest c).2.registry = c.registry) (c : TelemetryConsumer) :
    (c.publishThen delivery topic event rest).2.registry = c.registry := by
  unfold TelemetryConsumer.publishThen TelemetryConsumer.publish
  cases delivery.publish topic with
  | error message => rfl
  | ok _ => exact hrest _

theorem publishAlert_registry (status : DeviceStatus) (published : List DomainEvent)
    (c : TelemetryConsumer) :
    (publishAlert rt delivery status published c).2.registry = c.registry := by
  cases hbuild : buildAlert rt delivery.event.payload status delivery.event.timestamp with
  | ok alert => exact (publishAlert_emits hbuild published c).registry
  | error e => rw [publishAlert_fails hbuild]

/-- A new event that can be read is what the registry holds about its device, and it leaves the
other devices alone. -/
theorem processNew_shows (hreadable : delivery.event.Readable rt c.registry) :
    (processNew rt delivery c).2.registry.Shows rt delivery.event ∧
      ∀ deviceId, delivery.event.deviceId? rt ≠ some deviceId →
        (processNew rt delivery c).2.registry.devices.get? deviceId =
          c.registry.devices.get? deviceId := by
  obtain ⟨⟨device, hdevice, hknown⟩, ⟨status, healthScore⟩, hhealth⟩ := hreadable
  obtain ⟨found, hfound⟩ := Option.isSome_iff_exists.mp hknown
  have hid : delivery.event.deviceId? rt = some (pyStr rt device) := by
    rw [DomainEvent.deviceId?, hdevice]
    rfl
  have hname := c.registry.keyed _ _ hfound
  rw [processNew_known hdevice hhealth hfound,
    publishThen_registry (publishAlert_registry status _)]
  constructor
  · refine ⟨pyStr rt device,
      { found with status, healthScore, lastSeen := delivery.event.timestamp }, hid, ?_, hhealth,
      rfl⟩
    rw [DeviceRegistry.put, Dict.get?_set]
    exact if_pos hname.symm
  · intro deviceId hne
    rw [DeviceRegistry.put, Dict.get?_set]
    refine if_neg fun heq => hne ?_
    rw [hid, heq]
    exact congrArg some hname.symm

theorem readable_congr {registry' : DeviceRegistry} {event : DomainEvent}
    (h : ∀ deviceId, (registry.devices.get? deviceId).isSome =
      (registry'.devices.get? deviceId).isSome) :
    event.Readable rt registry ↔ event.Readable rt registry' := by
  simp only [DomainEvent.Readable, DomainEvent.Known, h]

end Shows

/-! ## The event that comes last -/

/-- Every event is delivered once, can be read, and has its own timestamp among the events of its
device. -/
structure Telemetry (rt : SimulatorRuntime) (registry : DeviceRegistry)
    (deliveries : List Delivery) : Prop where
  distinct : (deliveries.map (·.event.eventId)).Nodup
  readable : ∀ delivery ∈ deliveries, delivery.event.Readable rt registry
  timestamps : ∀ delivery ∈ deliveries, ∀ other ∈ deliveries,
    delivery.event.deviceId? rt = other.event.deviceId? rt →
      delivery.event.timestamp = other.event.timestamp → delivery = other

/-- The event has the latest timestamp of its device. -/
def Newest (rt : SimulatorRuntime) (deliveries : List Delivery) (delivery : Delivery) : Prop :=
  ∀ other ∈ deliveries, other.event.deviceId? rt = delivery.event.deviceId? rt →
    other.event.timestamp ≤ delivery.event.timestamp

/-- The registry holds, for every device, what its newest event says. -/
def FollowsNewest (rt : SimulatorRuntime) (registry : DeviceRegistry)
    (deliveries : List Delivery) : Prop :=
  ∀ delivery ∈ deliveries, Newest rt deliveries delivery →
    (runDeliveries rt { registry } deliveries).registry.Shows rt delivery.event

/-- The event of every device that is delivered last is the newest one. -/
def LastIsNewest (rt : SimulatorRuntime) (deliveries : List Delivery) : Prop :=
  ∀ before last after, deliveries = before ++ last :: after →
    (∀ other ∈ after, other.event.deviceId? rt ≠ last.event.deviceId? rt) →
      Newest rt deliveries last

section Newest

variable {rt : SimulatorRuntime} {registry : DeviceRegistry} {deliveries : List Delivery}

theorem Telemetry.of_prefix {earlier : List Delivery} (h : Telemetry rt registry deliveries)
    (hpre : earlier <+: deliveries) : Telemetry rt registry earlier where
  distinct := h.distinct.sublist (hpre.sublist.map _)
  readable delivery hd := h.readable delivery (hpre.subset hd)
  timestamps delivery hd other ho := h.timestamps delivery (hpre.subset hd) other
    (hpre.subset ho)

/-- The last delivery decides about its device, and no other. -/
theorem Telemetry.last {earlier : List Delivery} {last : Delivery}
    (h : Telemetry rt registry (earlier ++ [last])) :
    (runDeliveries rt { registry } (earlier ++ [last])).registry.Shows rt last.event ∧
      ∀ deviceId, last.event.deviceId? rt ≠ some deviceId →
        (runDeliveries rt { registry } (earlier ++ [last])).registry.devices.get? deviceId =
          (runDeliveries rt { registry } earlier).registry.devices.get? deviceId := by
  have hnew : last.event.key ∉ (runDeliveries rt { registry } earlier).processedIds := by
    refine notMem_processedIds.mpr fun d hd hid => ?_
    have hdistinct := h.distinct
    rw [List.map_append, List.nodup_append] at hdistinct
    exact hdistinct.2.2 _ (List.mem_map_of_mem hd) _ (List.mem_singleton_self _) hid
  have hreadable : last.event.Readable rt (runDeliveries rt { registry } earlier).registry :=
    (readable_congr (known_run earlier)).mpr
      (h.readable last (List.mem_append_right _ (List.mem_singleton_self _)))
  rw [runDeliveries_append, process_new hnew]
  exact processNew_shows (c := { runDeliveries rt { registry } earlier with
    processedIds := (runDeliveries rt { registry } earlier).processedIds ++ [last.event.key] })
    hreadable

/-- The registry holds what the last event of every device says. -/
theorem Telemetry.shows {before after : List Delivery} {last : Delivery}
    (h : Telemetry rt registry (before ++ last :: after))
    (hafter : ∀ other ∈ after, other.event.deviceId? rt ≠ last.event.deviceId? rt) :
    (runDeliveries rt { registry } (before ++ last :: after)).registry.Shows rt last.event := by
  induction after using List.reverseRecOn with
  | nil => exact h.last.1
  | append_singleton rest other ih =>
      have hsplit : before ++ last :: (rest ++ [other]) = (before ++ last :: rest) ++ [other] := by
        simp
      rw [hsplit] at h ⊢
      obtain ⟨deviceId, device, hid, hdevice, hhealth, hseen⟩ :=
        ih (h.of_prefix (List.prefix_append ..)) fun o ho => hafter o (List.mem_append_left _ ho)
      have hne : other.event.deviceId? rt ≠ some deviceId := by
        rw [← hid]
        exact hafter other (List.mem_append_right _ (List.mem_singleton_self _))
      refine ⟨deviceId, device, hid, ?_, hhealth, hseen⟩
      rw [h.last.2 deviceId hne]
      exact hdevice

/-- A device that some event is about has a last one. -/
theorem exists_last (rt : SimulatorRuntime) {delivery : Delivery} (hmem : delivery ∈ deliveries) :
    ∃ before last after, deliveries = before ++ last :: after ∧
      last.event.deviceId? rt = delivery.event.deviceId? rt ∧
      ∀ other ∈ after, other.event.deviceId? rt ≠ last.event.deviceId? rt := by
  induction deliveries using List.reverseRecOn with
  | nil => exact absurd hmem List.not_mem_nil
  | append_singleton rest other ih =>
      by_cases hother : other.event.deviceId? rt = delivery.event.deviceId? rt
      · exact ⟨rest, other, [], rfl, hother, fun _ h => absurd h List.not_mem_nil⟩
      · rcases List.mem_append.mp hmem with hmem | hmem
        · obtain ⟨before, last, after, hsplit, hlast, hafter⟩ := ih hmem
          refine ⟨before, last, after ++ [other], by rw [hsplit]; simp, hlast, fun o ho => ?_⟩
          rcases List.mem_append.mp ho with ho | ho
          · exact hafter o ho
          · rw [List.mem_singleton.mp ho, hlast]
            exact hother
        · rw [List.mem_singleton.mp hmem] at hother
          exact absurd rfl hother

/-- A device that some event is about has a newest one. -/
theorem exists_newest (rt : SimulatorRuntime) {delivery : Delivery} (hmem : delivery ∈ deliveries) :
    ∃ newest ∈ deliveries, newest.event.deviceId? rt = delivery.event.deviceId? rt ∧
      Newest rt deliveries newest := by
  have hfilter : delivery ∈ deliveries.filter fun d =>
      d.event.deviceId? rt = delivery.event.deviceId? rt := by
    simp [hmem]
  cases hmax : (deliveries.filter fun d =>
      d.event.deviceId? rt = delivery.event.deviceId? rt).argmax (·.event.timestamp) with
  | none =>
      rw [List.argmax_eq_none.mp hmax] at hfilter
      exact absurd hfilter List.not_mem_nil
  | some newest =>
      obtain ⟨hnewest, hdevice⟩ := List.mem_filter.mp (List.argmax_mem hmax)
      have hdevice' := of_decide_eq_true hdevice
      refine ⟨newest, hnewest, hdevice', fun other hother hsame => ?_⟩
      have hother' : other ∈ deliveries.filter fun d =>
          d.event.deviceId? rt = delivery.event.deviceId? rt :=
        List.mem_filter.mpr ⟨hother, decide_eq_true (hsame.trans hdevice')⟩
      exact List.le_of_mem_argmax (f := fun d : Delivery => d.event.timestamp) hother' hmax

/-- Two deliveries that the registry shows of one device have the same timestamp. -/
theorem DeviceRegistry.Shows.timestamp {s : DeviceRegistry} {event other : DomainEvent}
    (h : s.Shows rt event)
    (h' : s.Shows rt other) (hsame : event.deviceId? rt = other.deviceId? rt) :
    event.timestamp = other.timestamp := by
  obtain ⟨deviceId, device, hid, hdevice, -, hseen⟩ := h
  obtain ⟨deviceId', device', hid', hdevice', -, hseen'⟩ := h'
  rw [hid, hid'] at hsame
  cases hsame
  rw [hdevice] at hdevice'
  cases hdevice'
  exact hseen.symm.trans hseen'

/-- The health of every device follows its newest event exactly when that is the one delivered
last. -/
theorem followsNewest_iff (h : Telemetry rt registry deliveries) :
    FollowsNewest rt registry deliveries ↔ LastIsNewest rt deliveries := by
  constructor
  · intro hfollows before last after hsplit hafter
    subst hsplit
    have hlast : last ∈ before ++ last :: after := by simp
    obtain ⟨newest, hmem, hdevice, hnewest⟩ := exists_newest rt hlast
    have htimestamp := (hfollows newest hmem hnewest).timestamp (h.shows hafter) hdevice
    have hsame : newest = last := h.timestamps newest hmem last hlast hdevice htimestamp
    exact hsame ▸ hnewest
  · intro hlast delivery hmem hnewest
    obtain ⟨before, last, after, hsplit, hdevice, hafter⟩ := exists_last rt hmem
    have hnewest' := hlast before last after hsplit hafter
    have hlastMem : last ∈ deliveries := by simp [hsplit]
    have htimestamp : last.event.timestamp = delivery.event.timestamp :=
      le_antisymm (hnewest last hlastMem hdevice) (hnewest' delivery hmem hdevice.symm)
    rw [← h.timestamps last hlastMem delivery hmem hdevice htimestamp]
    subst hsplit
    exact h.shows hafter

end Newest

/-- An event of second 2 with a high load comes first, and one of second 1 after it. -/
def lateTelemetry : List Delivery :=
  [⟨smallTelemetry 2 98, fun _ => .ok ()⟩, ⟨smallTelemetry 1, fun _ => .ok ()⟩]

theorem telemetry_lateTelemetry : Telemetry .plain oneDevice lateTelemetry where
  distinct := by decide
  readable delivery hd := by
    rcases List.mem_cons.mp hd with rfl | hd
    · exact ⟨⟨.str "SIM-001", rfl, rfl⟩, (.critical, 18), by rfl⟩
    · rw [List.mem_singleton.mp hd]
      exact ⟨⟨.str "SIM-001", rfl, rfl⟩, (.healthy, 96), by rfl⟩
  timestamps delivery hd other ho _ htimestamp := by
    have hne : (smallTelemetry 2 98).timestamp ≠ (smallTelemetry 1).timestamp := by decide
    rcases List.mem_cons.mp hd with rfl | hd <;> rcases List.mem_cons.mp ho with rfl | ho
    · rfl
    · rw [List.mem_singleton.mp ho] at htimestamp
      exact absurd htimestamp hne
    · rw [List.mem_singleton.mp hd] at htimestamp
      exact absurd htimestamp.symm hne
    · rw [List.mem_singleton.mp hd, List.mem_singleton.mp ho]

/-- The equivalence for telemetry that arrives late. -/
theorem followsNewest_lateTelemetry :
    FollowsNewest .plain oneDevice lateTelemetry ↔ LastIsNewest .plain lateTelemetry :=
  followsNewest_iff telemetry_lateTelemetry

/-- A late event overwrites what a newer one has said. -/
theorem late_telemetry_overwrites :
    ¬ ∀ (rt : SimulatorRuntime) (registry : DeviceRegistry) (deliveries : List Delivery),
      Telemetry rt registry deliveries → FollowsNewest rt registry deliveries := by
  intro hclaim
  have hlast := @Telemetry.shows .plain oneDevice [⟨smallTelemetry 2 98, fun _ => .ok ()⟩] []
    ⟨smallTelemetry 1, fun _ => .ok ()⟩ telemetry_lateTelemetry
    fun _ h => absurd h List.not_mem_nil
  have hnewest := hclaim .plain oneDevice lateTelemetry telemetry_lateTelemetry
    ⟨smallTelemetry 2 98, fun _ => .ok ()⟩ (List.mem_cons_self ..) ?_
  · exact absurd (hnewest.timestamp hlast rfl) (by decide)
  · intro other hother _
    rcases List.mem_cons.mp hother with rfl | hother
    · exact le_refl _
    · rw [List.mem_singleton.mp hother]
      decide

end McpOps
