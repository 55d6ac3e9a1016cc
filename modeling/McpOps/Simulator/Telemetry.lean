import McpOps.Lib.Traversal
import McpOps.Simulator.Consumers
import Mathlib.Algebra.GroupWithZero.Nat
import Mathlib.Algebra.Order.Group.Int

/-!
# Distinct telemetry

Snapshots of all devices are published at increasing times, while failure scenarios come and go.
A device that sends late stamps its telemetry with an earlier time, so that it may stamp it with
the time of a snapshot that has been published already.  The events then have the same id.

## Strategy

* The id of an event is made from a name, and the name from the device and the time.  A text
  before a colon and a time can be read off where the times have the same length (`split_eq`);
  times with and without microseconds are told apart by the colon that one of them would have in
  its month (`split_ne`).  So the name determines device and time (`eventName_injective`), and
  with `CollisionFree` the id does.
* In a numbered registry each device sends one event in each snapshot
  (`Snapshot.events_numbered`), and otherwise nothing is published (`Snapshot.events_unnumbered`).
  So ids are distinct exactly when the stamps are.
* Two stamps of a device agree exactly when it was on time first and sends late seven minutes
  after (`timestampAt_eq_iff`).

`stamps_nodup_iff` puts this together for all snapshots along the actions, and
`publishedTelemetry_distinct_iff` adds that distinct events are all processed.
-/

namespace McpOps

/-- What happens to the simulator. -/
inductive SimulatorAction where
  /-- `publish_snapshot(now)` -/
  | publishSnapshot (now : Time)
  /-- `activate_scenario(device_id, scenario, now)` -/
  | activateScenario (deviceId : String) (scenario : FailureScenario) (now : Time)
  /-- `clear_scenario(device_id, now)` -/
  | clearScenario (deviceId : String) (now : Time)

/-- The registry at the time of a snapshot. -/
structure Snapshot where
  now : Time
  registry : DeviceRegistry

/-- The snapshots along the actions. -/
def snapshots (s : DeviceRegistry) : List SimulatorAction → List Snapshot
  | [] => []
  | .publishSnapshot now :: rest => ⟨now, s⟩ :: snapshots s rest
  | .activateScenario deviceId scenario now :: rest =>
      snapshots (s.activateScenario deviceId scenario now).2 rest
  | .clearScenario deviceId now :: rest => snapshots (s.clearScenario deviceId now).2 rest

/-- The events of a snapshot: none when it fails. -/
def Snapshot.events (rt : SimulatorRuntime) (snapshot : Snapshot) : List DomainEvent :=
  match publishSnapshot rt snapshot.now snapshot.registry with
  | .ok events => events
  | .error _ => []

/-- The telemetry events that are published along the actions. -/
def publishedTelemetry (rt : SimulatorRuntime) (s : DeviceRegistry)
    (actions : List SimulatorAction) : List DomainEvent :=
  (snapshots s actions).flatMap (Snapshot.events rt)

/-- The devices of a snapshot with the timestamps of their telemetry. -/
def Snapshot.stamps (snapshot : Snapshot) : List (String × Time) :=
  snapshot.registry.listDevices.map fun device =>
    (device.deviceId, device.timestampAt snapshot.now)

/-- Every device id has a number. -/
def DeviceRegistry.Numbered (rt : SimulatorRuntime) (s : DeviceRegistry) : Prop :=
  ∀ device ∈ s.listDevices, (deviceIndex rt device.deviceId).isOk

/-- The names that event ids are made from do not collide under `uuid5`. -/
def CollisionFree (rt : SimulatorRuntime) (stamps : List (String × Time)) : Prop :=
  ∀ a ∈ stamps, ∀ b ∈ stamps,
    eventId rt deviceTelemetryTopic a.1 a.2 = eventId rt deviceTelemetryTopic b.1 b.2 →
      eventName rt deviceTelemetryTopic a.1 a.2 = eventName rt deviceTelemetryTopic b.1 b.2

/-- How `isoformat` writes an aware `datetime`: `2026-01-15T12:00:00+00:00`, or with the
microseconds after the seconds. -/
structure WritesTimes (rt : SimulatorRuntime) (times : List Time) : Prop where
  injective : ∀ t ∈ times, ∀ t' ∈ times, rt.isoformat t = rt.isoformat t' → t = t'
  length : ∀ t ∈ times, (rt.isoformat t).length = 25 ∨ (rt.isoformat t).length = 32
  /-- the second digit of the month -/
  month : ∀ t ∈ times, (rt.isoformat t).toList[6]? ≠ some ':'

/-- No device sends late exactly seven minutes after a snapshot in which it was on time. -/
def NoOverlap (snapshots : List Snapshot) : Prop :=
  snapshots.Pairwise fun first second =>
    ∀ device ∈ first.registry.listDevices, ∀ later ∈ second.registry.listDevices,
      device.deviceId = later.deviceId → ¬device.Delayed → later.Delayed →
        second.now ≠ first.now + telemetryDelay

/-! ## Names -/

section Names

variable {rt : SimulatorRuntime}

/-- A text before a colon and a time can be read off, when the times have the same length. -/
theorem split_eq {d d' w w' : List Char} (h : d ++ ':' :: w = d' ++ ':' :: w')
    (hlength : w.length = w'.length) : d = d' ∧ w = w' := by
  obtain ⟨hd, hw⟩ := List.append_inj' h (by simp [hlength])
  exact ⟨hd, (List.cons.inj hw).2⟩

/-- A longer time would have a colon in its month. -/
theorem split_ne {d d' w w' : List Char} (h : d ++ ':' :: w = d' ++ ':' :: w')
    (hw : w.length = 25) (hw' : w'.length = 32) : w'[6]? = some ':' := by
  have hlength := congrArg List.length h
  simp only [List.length_append, List.length_cons, hw, hw'] at hlength
  have hindex := congrArg (fun l : List Char => l[d.length]?) h
  rw [List.getElem?_append_right le_rfl, List.getElem?_append_right (by omega)] at hindex
  have hseven : d.length - d'.length = 7 := by omega
  rw [Nat.sub_self, hseven] at hindex
  simpa using hindex.symm

/-- The name determines the device and the time. -/
theorem eventName_injective {times : List Time} (h : WritesTimes rt times) {topic d d' : String}
    {t t' : Time} (ht : t ∈ times) (ht' : t' ∈ times)
    (hname : eventName rt topic d t = eventName rt topic d' t') : d = d' ∧ t = t' := by
  have hlist := congrArg String.toList hname
  simp only [eventName, String.toList_append, List.append_assoc,
    List.append_cancel_left_eq] at hlist
  have hcolon : (":" : String).toList = [':'] := rfl
  rw [hcolon, List.singleton_append, List.singleton_append] at hlist
  have hsame : (rt.isoformat t).toList.length = (rt.isoformat t').toList.length := by
    have hlength := h.length t ht
    have hlength' := h.length t' ht'
    rw [← String.length_toList] at hlength hlength'
    rcases hlength with hl | hl <;> rcases hlength' with hl' | hl'
    · rw [hl, hl']
    · exact absurd (split_ne hlist hl hl') (h.month t' ht')
    · exact absurd (split_ne hlist.symm hl' hl) (h.month t ht)
    · rw [hl, hl']
  obtain ⟨hd, hw⟩ := split_eq hlist hsame
  exact ⟨String.toList_injective hd, h.injective t ht t' ht' (String.toList_injective hw)⟩

end Names

/-! ## The events of a snapshot -/

section Events

variable {rt : SimulatorRuntime} {s : DeviceRegistry} {now : Time} {device : SimulatedDevice}

namespace DeviceRegistry

theorem mem_listDevices : device ∈ s.listDevices ↔
    s.devices.get? device.deviceId = some device := by
  simp only [listDevices, List.mem_filterMap, List.mem_mergeSort]
  constructor
  · rintro ⟨deviceId, -, hdevice⟩
    rw [s.keyed _ _ hdevice]
    exact hdevice
  · intro hdevice
    refine ⟨device.deviceId, ?_, hdevice⟩
    by_contra hmissing
    rw [Dict.get?_eq_none_iff.mpr hmissing] at hdevice
    cases hdevice

theorem nodup_listDevices (s : DeviceRegistry) : (s.listDevices.map (·.deviceId)).Nodup := by
  have hkeys : (s.devices.keys.mergeSort fun a b => decide (a ≤ b)).Nodup :=
    (List.mergeSort_perm ..).nodup_iff.mpr s.devices.nodup
  refine (List.Nodup.sublist ?_ hkeys)
  rw [listDevices]
  induction s.devices.keys.mergeSort fun a b => decide (a ≤ b) with
  | nil => exact List.Sublist.slnil
  | cons deviceId rest ih =>
      cases hdevice : s.devices.get? deviceId with
      | none =>
          rw [List.filterMap_cons_none hdevice]
          exact ih.cons _
      | some device =>
          rw [List.filterMap_cons_some hdevice, List.map_cons, s.keyed _ _ hdevice]
          exact ih.cons_cons _

/-- The telemetry of a device whose id has a number. -/
theorem telemetryFor_ok (hdevice : device ∈ s.listDevices)
    (hindex : (deviceIndex rt device.deviceId).isOk) (now : Time) :
    ∃ telemetry, s.telemetryFor rt device.deviceId now = .ok telemetry := by
  cases hnumber : deviceIndex rt device.deviceId with
  | error e =>
      rw [hnumber] at hindex
      cases hindex
  | ok index =>
      rw [telemetryFor, getDevice_eq_ok.mpr (mem_listDevices.mp hdevice)]
      simp only [bind, Except.bind, hnumber]
      exact ⟨_, rfl⟩

/-- The telemetry of a device has its id and its timestamp. -/
theorem telemetryFor_stamp {telemetry : DeviceTelemetry} (hdevice : device ∈ s.listDevices)
    (h : s.telemetryFor rt device.deviceId now = .ok telemetry) :
    telemetry.deviceId = device.deviceId ∧ telemetry.timestamp = device.timestampAt now ∧
      (deviceIndex rt device.deviceId).isOk := by
  rw [telemetryFor, getDevice_eq_ok.mpr (mem_listDevices.mp hdevice)] at h
  cases hnumber : deviceIndex rt device.deviceId with
  | error e =>
      simp only [bind, Except.bind, hnumber] at h
      cases h
  | ok index =>
      simp only [bind, Except.bind, hnumber] at h
      cases h
      cases device.activeScenario with
      | none => exact ⟨rfl, rfl, rfl⟩
      | some scenario => cases scenario <;> exact ⟨rfl, rfl, rfl⟩

end DeviceRegistry

end Events

section Snapshots

variable {rt : SimulatorRuntime} {s : DeviceRegistry} {snapshot : Snapshot}
  {actions : List SimulatorAction}

/-- The event id of a stamp. -/
def stampId (rt : SimulatorRuntime) (stamp : String × Time) : UUID :=
  eventId rt deviceTelemetryTopic stamp.1 stamp.2

/-- The telemetry of a list of devices has their stamps. -/
theorem stampIds_of_telemetry {devices : List SimulatedDevice} {snapshots : List DeviceTelemetry}
    (hdevices : devices ⊆ snapshot.registry.listDevices)
    (h : List.Forall₂ (fun device telemetry =>
      snapshot.registry.telemetryFor rt device.deviceId snapshot.now = .ok telemetry)
        devices snapshots) :
    (snapshots.map (telemetryEvent rt)).map (·.eventId) =
      (devices.map fun device => (device.deviceId, device.timestampAt snapshot.now)).map
        (stampId rt) := by
  induction h with
  | nil => rfl
  | @cons device telemetry devices snapshots hdevice _ ih =>
      obtain ⟨hid, htimestamp, -⟩ := DeviceRegistry.telemetryFor_stamp
        (hdevices (List.mem_cons_self ..)) hdevice
      have hrest := ih (List.subset_of_cons_subset hdevices)
      simp only [List.map_cons, hrest]
      rw [telemetryEvent, hid, htimestamp, stampId]

/-- When every device has a number, each device sends one event. -/
theorem Snapshot.events_numbered (h : snapshot.registry.Numbered rt) :
    (snapshot.events rt).map (·.eventId) = snapshot.stamps.map (stampId rt) := by
  obtain ⟨telemetry, htelemetry⟩ := Traversal.exists_mapM_eq_ok (l := snapshot.registry.listDevices)
    fun device hdevice =>
      DeviceRegistry.telemetryFor_ok hdevice (h device hdevice) snapshot.now
  have hpublish : publishSnapshot rt snapshot.now snapshot.registry =
      .ok (telemetry.map (telemetryEvent rt)) := by
    rw [publishSnapshot, DeviceRegistry.telemetrySnapshot, htelemetry]
    rfl
  rw [Snapshot.events, hpublish]
  exact stampIds_of_telemetry (List.Subset.refl _) (Traversal.mapM_eq_ok htelemetry)

/-- When some device has none, nothing is published. -/
theorem Snapshot.events_unnumbered (h : ¬snapshot.registry.Numbered rt) :
    snapshot.events rt = [] := by
  cases htelemetry : snapshot.registry.telemetrySnapshot rt snapshot.now with
  | error e => simp only [Snapshot.events, publishSnapshot, htelemetry, bind, Except.bind]
  | ok telemetry =>
      refine absurd (fun device hdevice => ?_) h
      obtain ⟨i, hi, rfl⟩ := List.getElem_of_mem hdevice
      have hall := List.forall₂_iff_get.mp (Traversal.mapM_eq_ok htelemetry)
      exact (DeviceRegistry.telemetryFor_stamp hdevice
        (hall.2 i hi (by rw [← hall.1]; exact hi))).2.2

theorem applyScenarioToServices_deviceId {scenario : FailureScenario}
    {device changed : SimulatedDevice} (h : applyScenarioToServices scenario device = .ok changed) :
    changed.deviceId = device.deviceId := by
  have hset : ∀ name state, setService name state device = .ok changed →
      changed.deviceId = device.deviceId := by
    intro name state hset
    unfold setService at hset
    split at hset
    · cases hset
      rfl
    · cases hset
  cases scenario with
  | serviceCrash => exact hset _ _ h
  | sensorInitializationFailure => exact hset _ _ h
  | networkTimeout => exact hset _ _ h
  | _ =>
      cases h
      rfl

theorem known_put {deviceId : String} {found changed : SimulatedDevice}
    (hfound : s.devices.get? deviceId = some found) (hid : changed.deviceId = found.deviceId)
    (other : String) :
    ((s.put changed).devices.get? other).isSome = (s.devices.get? other).isSome := by
  refine DeviceRegistry.isSome_put ?_ other
  rw [hid, s.keyed _ _ hfound, hfound]
  rfl

theorem known_activate (deviceId : String) (scenario : FailureScenario) (now : Time)
    (other : String) : ((s.activateScenario deviceId scenario now).2.devices.get? other).isSome =
      (s.devices.get? other).isSome := by
  unfold DeviceRegistry.activateScenario
  cases hdevice : s.getDevice deviceId with
  | error e => rfl
  | ok found =>
      have hfound := DeviceRegistry.getDevice_eq_ok.mp hdevice
      cases happly : applyScenarioToServices scenario
          { found with activeScenario := some scenario, lastSeen := now } with
      | error e =>
          simp only [happly]
          refine known_put hfound ?_ other
          rfl
      | ok changed =>
          have hid := applyScenarioToServices_deviceId happly
          simp only [happly]
          exact known_put hfound hid other

theorem known_clear (deviceId : String) (now : Time) (other : String) :
    ((s.clearScenario deviceId now).2.devices.get? other).isSome =
      (s.devices.get? other).isSome := by
  unfold DeviceRegistry.clearScenario
  cases hdevice : s.getDevice deviceId with
  | error e => rfl
  | ok found =>
      refine known_put (DeviceRegistry.getDevice_eq_ok.mp hdevice) ?_ other
      rfl

/-- The actions change no device id. -/
theorem snapshots_known (h : snapshot ∈ snapshots s actions) (deviceId : String) :
    (snapshot.registry.devices.get? deviceId).isSome = (s.devices.get? deviceId).isSome := by
  induction actions generalizing s with
  | nil => exact absurd h List.not_mem_nil
  | cons action rest ih =>
      cases action with
      | publishSnapshot now =>
          rcases List.mem_cons.mp h with rfl | h
          · rfl
          · exact ih h
      | activateScenario id scenario now => rw [ih h, known_activate]
      | clearScenario id now => rw [ih h, known_clear]

theorem numbered_congr {s' : DeviceRegistry} (h : ∀ deviceId,
    (s.devices.get? deviceId).isSome = (s'.devices.get? deviceId).isSome) :
    s.Numbered rt → s'.Numbered rt := by
  intro hnumbered device hdevice
  have hknown := h device.deviceId
  rw [DeviceRegistry.mem_listDevices.mp hdevice] at hknown
  obtain ⟨found, hfound⟩ := Option.isSome_iff_exists.mp hknown
  have hid := s.keyed _ _ hfound
  rw [← hid] at hfound
  have hindex := hnumbered found (DeviceRegistry.mem_listDevices.mpr hfound)
  rw [hid] at hindex
  exact hindex

/-- Two times, one or both of them shifted. -/
theorem shifted_eq_iff {a b d : ℤ} (h : a < b) (hd : 0 < d) :
    a - d ≠ b - d ∧ a - d ≠ b ∧ (a = b - d ↔ b = a + d) ∧ a ≠ b := by
  omega

/-- Two stamps of a device agree exactly when it was on time first, and seven minutes later sends
late. -/
theorem timestampAt_eq_iff {device later : SimulatedDevice} {now next : Time} (h : now < next) :
    device.timestampAt now = later.timestampAt next ↔
      ¬device.Delayed ∧ later.Delayed ∧ next = now + telemetryDelay := by
  obtain ⟨hboth, hfirst, hsecond, hnone⟩ := shifted_eq_iff h
    (show (0 : ℤ) < telemetryDelay by decide)
  unfold SimulatedDevice.timestampAt
  by_cases hdevice : device.Delayed <;> by_cases hlater : later.Delayed
  · rw [if_pos hdevice, if_pos hlater]
    exact iff_of_false hboth fun h => h.1 hdevice
  · rw [if_pos hdevice, if_neg hlater]
    exact iff_of_false hfirst fun h => h.1 hdevice
  · rw [if_neg hdevice, if_pos hlater, hsecond]
    exact ⟨fun hnext => ⟨hdevice, hlater, hnext⟩, fun h => h.2.2⟩
  · rw [if_neg hdevice, if_neg hlater]
    exact iff_of_false hnone fun h => hlater h.2.1

/-- The stamps of snapshots are distinct exactly when none overlap. -/
theorem stamps_nodup_iff {snapshots : List Snapshot}
    (hincreasing : (snapshots.map (·.now)).Pairwise (· < ·)) :
    (snapshots.flatMap Snapshot.stamps).Nodup ↔ NoOverlap snapshots := by
  rw [List.nodup_flatMap]
  have hone : ∀ snapshot ∈ snapshots, snapshot.stamps.Nodup := by
    intro snapshot _
    refine List.Nodup.of_map Prod.fst ?_
    rw [Snapshot.stamps, List.map_map]
    exact snapshot.registry.nodup_listDevices
  rw [and_iff_right hone, NoOverlap]
  rw [List.pairwise_map] at hincreasing
  constructor
  · intro hdisjoint
    refine (hincreasing.and hdisjoint).imp ?_
    rintro first second ⟨hlt, hapart⟩ device hdevice later hlater hid hontime hdelayed hnow
    have hstamp := (timestampAt_eq_iff hlt).mpr ⟨hontime, hdelayed, hnow⟩
    refine hapart (a := (device.deviceId, device.timestampAt first.now))
      (List.mem_map_of_mem hdevice) ?_
    rw [hid, hstamp]
    exact List.mem_map_of_mem hlater
  · intro hoverlap
    refine (hincreasing.and hoverlap).imp ?_
    rintro first second ⟨hlt, hnone⟩ stamp hfirst hsecond
    obtain ⟨device, hdevice, rfl⟩ := List.mem_map.mp hfirst
    obtain ⟨later, hlater, hstamp⟩ := List.mem_map.mp hsecond
    obtain ⟨hid, htimestamp⟩ := Prod.mk.inj hstamp
    obtain ⟨hontime, hdelayed, hnow⟩ := (timestampAt_eq_iff hlt).mp htimestamp.symm
    exact hnone device hdevice later hlater hid.symm hontime hdelayed hnow

end Snapshots

/-! ## Distinct telemetry -/

/-- The stamps of all snapshots along the actions. -/
def stampsOf (s : DeviceRegistry) (actions : List SimulatorAction) : List (String × Time) :=
  (snapshots s actions).flatMap Snapshot.stamps

/-- The events are processed, each exactly once, when they are delivered in their order. -/
def NoneSkipped (rt : SimulatorRuntime) (s : DeviceRegistry) (events : List DomainEvent) : Prop :=
  ∀ earlier event, earlier ++ [event] <+: events →
    event.key ∉ (runDeliveries rt { registry := s }
      (earlier.map fun event => ⟨event, fun _ => .ok ()⟩)).processedIds

/-- Events with distinct ids are not mistaken for one another. -/
theorem noneSkipped_of_nodup {rt : SimulatorRuntime} {s : DeviceRegistry}
    {events : List DomainEvent} (h : (events.map (·.eventId)).Nodup) :
    NoneSkipped rt s events := by
  intro earlier event hpre hseen
  obtain ⟨delivery, hdelivery, hid⟩ := mem_processedIds_run.mp hseen
  obtain ⟨first, hfirst, rfl⟩ := List.mem_map.mp hdelivery
  have hdistinct := h.sublist (hpre.sublist.map _)
  rw [List.map_append, List.nodup_append] at hdistinct
  exact hdistinct.2.2 _ (List.mem_map_of_mem hfirst) _ (List.mem_singleton_self _) hid

/-- In a numbered registry the ids are those of the stamps. -/
theorem publishedTelemetry_ids {rt : SimulatorRuntime} {s : DeviceRegistry}
    (h : s.Numbered rt) (actions : List SimulatorAction) :
    (publishedTelemetry rt s actions).map (·.eventId) =
      (stampsOf s actions).map (stampId rt) := by
  have hevents : ∀ snapshot ∈ snapshots s actions,
      (snapshot.events rt).map (·.eventId) = snapshot.stamps.map (stampId rt) := fun _ hmem =>
    Snapshot.events_numbered (numbered_congr (fun id => (snapshots_known hmem id).symm) h)
  rw [publishedTelemetry, stampsOf, List.map_flatMap, List.map_flatMap]
  exact List.flatMap_congr hevents

/-- In another registry nothing is published. -/
theorem publishedTelemetry_unnumbered {rt : SimulatorRuntime} {s : DeviceRegistry}
    (h : ¬s.Numbered rt) (actions : List SimulatorAction) :
    publishedTelemetry rt s actions = [] := by
  refine List.flatMap_eq_nil_iff.mpr fun snapshot hmem =>
    Snapshot.events_unnumbered fun hnumbered =>
    h (numbered_congr (snapshots_known hmem) hnumbered)

theorem stampId_injOn {rt : SimulatorRuntime} {stamps : List (String × Time)}
    (hfree : CollisionFree rt stamps) (hwrites : WritesTimes rt (stamps.map Prod.snd)) :
    ∀ a ∈ stamps, ∀ b ∈ stamps, stampId rt a = stampId rt b → a = b := by
  intro a ha b hb hid
  obtain ⟨hdevice, htime⟩ := eventName_injective hwrites (List.mem_map_of_mem ha)
    (List.mem_map_of_mem hb) (hfree a ha b hb hid)
  exact Prod.ext hdevice htime

/-- Telemetry has distinct ids, so that all of it is processed, exactly when no device of a
numbered registry sends late exactly seven minutes after a snapshot in which it was on time. -/
theorem publishedTelemetry_distinct_iff {rt : SimulatorRuntime} {s : DeviceRegistry}
    {actions : List SimulatorAction}
    (hincreasing : ((snapshots s actions).map (·.now)).Pairwise (· < ·))
    (hfree : CollisionFree rt (stampsOf s actions))
    (hwrites : WritesTimes rt ((stampsOf s actions).map Prod.snd)) :
    ((publishedTelemetry rt s actions).map (·.eventId)).Nodup ∧
        NoneSkipped rt s (publishedTelemetry rt s actions) ↔
      (s.Numbered rt → NoOverlap (snapshots s actions)) := by
  rw [and_iff_left_of_imp noneSkipped_of_nodup]
  by_cases hnumbered : s.Numbered rt
  · rw [publishedTelemetry_ids hnumbered, imp_iff_right hnumbered, ← stamps_nodup_iff hincreasing]
    constructor
    · exact List.Nodup.of_map _
    · exact fun hnodup => hnodup.map_on (stampId_injOn hfree hwrites)
  · rw [publishedTelemetry_unnumbered hnumbered]
    exact iff_of_true List.nodup_nil fun h => absurd h hnumbered

/-- Library functions for the two times that the small examples need.  A name has the sum of its
characters for an identifier. -/
def SimulatorRuntime.clocked : SimulatorRuntime where
  toRuntime :=
    { Runtime.plain with
      isoformat := fun t =>
        if t = 0 then "2026-01-15T12:00:00+00:00" else "2026-01-15T12:07:00+00:00" }
  deterministicUuid name := (name.toList.map Char.toNat).sum

theorem DeviceRegistry.listDevices_singleton {s : DeviceRegistry} (device : SimulatedDevice)
    (hkeys : s.devices.keys = [device.deviceId])
    (hdevice : s.devices.get? device.deviceId = some device) : s.listDevices = [device] := by
  rw [listDevices, hkeys, List.mergeSort_singleton, List.filterMap_cons_some hdevice]
  rfl

/-- The stamp of a registry with one device. -/
theorem stamps_singleton (snapshot : Snapshot) (device : SimulatedDevice)
    (hkeys : snapshot.registry.devices.keys = [device.deviceId])
    (hdevice : snapshot.registry.devices.get? device.deviceId = some device) :
    snapshot.stamps = [(device.deviceId, device.timestampAt snapshot.now)] := by
  rw [Snapshot.stamps, DeviceRegistry.listDevices_singleton device hkeys hdevice]
  rfl

/-- Two snapshots, seven minutes apart. -/
def twoSnapshots : List SimulatorAction :=
  [.publishSnapshot (seconds 0), .publishSnapshot (seconds 420)]

/-- Two snapshots, seven minutes apart, where `SIM-001` sends late in the second. -/
def delayedSnapshot : List SimulatorAction :=
  [.publishSnapshot (seconds 0), .activateScenario "SIM-001" .telemetryDelay (seconds 1),
    .publishSnapshot (seconds 420)]

theorem stampsOf_twoSnapshots :
    stampsOf oneDevice twoSnapshots = [("SIM-001", 0), ("SIM-001", seconds 420)] := by
  have hfirst := stamps_singleton ⟨seconds 0, oneDevice⟩ simDevice rfl rfl
  have hsecond := stamps_singleton ⟨seconds 420, oneDevice⟩ simDevice rfl rfl
  rw [stampsOf, twoSnapshots, snapshots, snapshots, snapshots, List.flatMap_cons, hfirst,
    List.flatMap_cons, hsecond]
  rfl

theorem stampsOf_delayedSnapshot :
    stampsOf oneDevice delayedSnapshot = [("SIM-001", 0), ("SIM-001", 0)] := by
  have hfirst := stamps_singleton ⟨seconds 0, oneDevice⟩ simDevice rfl rfl
  have hsecond := stamps_singleton
    ⟨seconds 420, (oneDevice.activateScenario "SIM-001" .telemetryDelay (seconds 1)).2⟩
    { simDevice with
      activeScenario := some .telemetryDelay
      lastSeen := seconds 1
      services := simDevice.services.mapValues fun _ _ => .running } rfl rfl
  rw [stampsOf, delayedSnapshot, snapshots, snapshots, snapshots, snapshots, List.flatMap_cons,
    hfirst, List.flatMap_cons, hsecond]
  rfl

/-- The equivalence for two snapshots in which the device is on time. -/
theorem publishedTelemetry_distinct_twoSnapshots :
    ((publishedTelemetry .clocked oneDevice twoSnapshots).map (·.eventId)).Nodup ∧
        NoneSkipped .clocked oneDevice (publishedTelemetry .clocked oneDevice twoSnapshots) ↔
      (oneDevice.Numbered .clocked → NoOverlap (snapshots oneDevice twoSnapshots)) := by
  refine publishedTelemetry_distinct_iff (by decide) ?_ ?_
  · rw [stampsOf_twoSnapshots]
    unfold CollisionFree
    decide
  · rw [stampsOf_twoSnapshots]
    exact ⟨by decide, by decide, by decide⟩

/-- A snapshot of a device that sends late repeats an event id of an earlier one. -/
theorem delayed_telemetry_repeats :
    ¬ ∀ (rt : SimulatorRuntime) (s : DeviceRegistry) (actions : List SimulatorAction),
      ((snapshots s actions).map (·.now)).Pairwise (· < ·) →
        CollisionFree rt (stampsOf s actions) →
          WritesTimes rt ((stampsOf s actions).map Prod.snd) →
            ((publishedTelemetry rt s actions).map (·.eventId)).Nodup := by
  intro hclaim
  have hnumbered : oneDevice.Numbered .clocked := by
    intro device hdevice
    rw [DeviceRegistry.listDevices_singleton simDevice rfl rfl] at hdevice
    rw [List.mem_singleton.mp hdevice]
    decide
  have hnodup := hclaim .clocked oneDevice delayedSnapshot (by decide)
    (by rw [stampsOf_delayedSnapshot]; unfold CollisionFree; decide)
    (by rw [stampsOf_delayedSnapshot]; exact ⟨by decide, by decide, by decide⟩)
  rw [publishedTelemetry_ids hnumbered, stampsOf_delayedSnapshot] at hnodup
  exact absurd hnodup (by simp)

end McpOps
