import McpOps.Tools.Devices
import Mathlib.Algebra.Order.Ring.Cast
import Mathlib.Algebra.Order.Ring.Rat
import Mathlib.Data.List.Nodup
import Mathlib.Data.List.Perm.Subperm

/-!
# Configurations of devices

A configuration has the four keys, each with a value of its type and range, and every update keeps
it so.  The input schema and the domain check a patch each in its own way, and accept the same
patches.

The two validators are compared through `Admissible`: allowed keys, with values without an issue.
Their loop bodies judge alike (`schemaIssue_eq`), and the schema's limit on the length of a patch
follows from the keys (`Admissible.length_le`).

An update does nothing when it fails, and otherwise merges an admissible patch
(`updateConfiguration_cases`).  A merge stores under present keys only, so the keys stay
(`PyDict.map_fst_set`) and the values are without an issue (`Configured.update`).  No other handler
writes to configurations.  `configurations_valid` is the sequence of calls, with any patches in it.
-/

namespace McpOps

/-! ## The input schema -/

namespace Value

/-- `isinstance(v, int)`, which is true of a `bool`. -/
def isInt : Value → Bool
  | .int _ => true
  | .bool _ => true
  | _ => false

/-- `isinstance(v, bool)`. -/
def isBool : Value → Bool
  | .bool _ => true
  | _ => false

/-- `isinstance(v, str)`. -/
def isStr : Value → Bool
  | .str _ => true
  | _ => false

/-- `isinstance(v, float)`. -/
def isFloat : Value → Bool
  | .float _ => true
  | _ => false

/-- `v in texts`. -/
def isOneOf (texts : List String) : Value → Bool
  | .str s => s ∈ texts
  | _ => false

/-- `low <= v <= high`, of a number. -/
def between (low high : ℚ) (v : Value) : Bool :=
  v.number?.any fun x => x.ge low && (x.lt (.finite high) || x.eq (.finite high))

end Value

/-- Why the input schema does not accept a patch. -/
inductive ConfigurationInputIssue where
  | wrongType (key : String)
  | tooShort
  | tooLong
  | valueError (message : String)
  deriving DecidableEq, Repr

/-- The loop body of `UpdateDeviceConfigurationInput.validate_configuration_patch`. -/
def schemaIssue (key : String) (item : Value) : Option String :=
  if key = "telemetry_interval_seconds" ∧ (item.isInt = false ∨ item.isBool) then
    some "telemetry_interval_seconds must be an integer from 5 to 3600."
  else if key = "telemetry_interval_seconds" ∧ item.between 5 3600 = false then
    some "telemetry_interval_seconds must be an integer from 5 to 3600."
  else if key = "diagnostics_enabled" ∧ item.isBool = false then
    some "diagnostics_enabled must be a boolean."
  else if key = "firmware_channel" ∧
      (item.isStr = false ∨ item.isOneOf ["stable", "candidate"] = false) then
    some "firmware_channel must be stable or candidate."
  else if key = "packet_loss_threshold" ∧
      ((item.isInt || item.isFloat) = false ∨ item.isBool) then
    some "packet_loss_threshold must be numeric from 0 to 100."
  else if key = "packet_loss_threshold" ∧ item.between 0 100 = false then
    some "packet_loss_threshold must be numeric from 0 to 100."
  else none

/-- What the schema makes of the `configuration_patch` of an `UpdateDeviceConfigurationInput`. -/
def validateConfigurationInput (patch : PyDict) : Except ConfigurationInputIssue PyDict :=
  match patch.find? fun entry => !(entry.2.isStr || entry.2.isInt || entry.2.isFloat) with
  | some entry => .error (.wrongType entry.1)
  | none =>
      if patch.length < 1 then .error .tooShort
      else if 20 < patch.length then .error .tooLong
      else
        let rejected := ((patch.map Prod.fst).filter fun key =>
          key ∉ allowedConfigurationKeys).mergeSort fun a b => decide (a ≤ b)
        if rejected ≠ [] then
          .error (.valueError
            ("Unsupported configuration keys: " ++ ", ".intercalate rejected ++ "."))
        else
          match patch.findSome? fun entry => schemaIssue entry.1 entry.2 with
          | some message => .error (.valueError message)
          | none => .ok patch

/-! ## Two validators -/

theorem between_finite (low high q : ℚ) :
    (Value.float (.finite q)).between low high = decide (low ≤ q ∧ q ≤ high) := by
  rw [Bool.eq_iff_iff, decide_eq_true_eq]
  simp only [Value.between, Value.number?, Option.any_some, PyFloat.ge, PyFloat.lt, PyFloat.eq,
    Bool.and_eq_true, Bool.or_eq_true, decide_eq_true_eq]
  rw [le_iff_lt_or_eq, le_iff_lt_or_eq, eq_comm (a := low)]

theorem between_int (low high n : ℤ) :
    (Value.int n).between low high = decide (low ≤ n ∧ n ≤ high) := by
  have hfinite : (Value.int n).between low high = decide ((low : ℚ) ≤ n ∧ (n : ℚ) ≤ high) :=
    between_finite low high n
  simp only [hfinite, Int.cast_le]

/-- The two loop bodies judge alike. -/
theorem schemaIssue_eq (key : String) (value : Value) :
    schemaIssue key value = configurationIssue key value := by
  have hinterval : ∀ n : ℤ, (Value.int n).between 5 3600 = decide (5 ≤ n ∧ n ≤ 3600) :=
    between_int 5 3600
  have hthreshold : ∀ n : ℤ, (Value.int n).between 0 100 = decide (0 ≤ n ∧ n ≤ 100) :=
    between_int 0 100
  have hfloat : ∀ q : ℚ, (Value.float (.finite q)).between 0 100 = decide (0 ≤ q ∧ q ≤ 100) :=
    between_finite 0 100
  unfold schemaIssue configurationIssue
  -- one key after another; both look at the type first and then at the range
  by_cases hfirst : key = "telemetry_interval_seconds"
  · subst hfirst
    cases value with
    | int n =>
        by_cases h : 5 ≤ n ∧ n ≤ 3600 <;> simp [Value.isInt, Value.isBool, hinterval, h]
    | _ => simp [Value.isInt, Value.isBool]
  · by_cases hsecond : key = "diagnostics_enabled"
    · subst hsecond
      cases value <;> simp [Value.isBool]
    · by_cases hthird : key = "firmware_channel"
      · subst hthird
        cases value with
        | str channel =>
            by_cases h : channel ∈ ["stable", "candidate"] <;>
              simp [Value.isStr, Value.isOneOf, -List.mem_cons, h]
        | _ => simp [Value.isStr]
      · by_cases hfourth : key = "packet_loss_threshold"
        · subst hfourth
          cases value with
          | int n =>
              by_cases h : 0 ≤ n ∧ n ≤ 100 <;>
                simp [Value.isInt, Value.isFloat, Value.isBool, hthreshold, h]
          | float x =>
              cases x with
              | finite q =>
                  by_cases h : 0 ≤ q ∧ q ≤ 100 <;>
                    simp [Value.isInt, Value.isFloat, Value.isBool, hfloat, h]
              | _ => simp [Value.isInt, Value.isFloat, Value.isBool, Value.between,
                  Value.number?, PyFloat.ge, PyFloat.lt, PyFloat.eq]
          | _ => simp [Value.isInt, Value.isFloat, Value.isBool]
        · simp [hfirst, hsecond, hthird, hfourth]

/-- A value without an issue is of a type that the schema knows. -/
theorem scalar_of_configurationIssue {key : String} {value : Value}
    (hkey : key ∈ allowedConfigurationKeys) (h : configurationIssue key value = none) :
    (value.isStr || value.isInt || value.isFloat) = true := by
  simp only [allowedConfigurationKeys, List.mem_cons, List.not_mem_nil, or_false] at hkey
  rcases hkey with rfl | rfl | rfl | rfl <;>
    cases value <;> simp_all [configurationIssue, Value.isStr, Value.isInt, Value.isFloat]

/-- The keys outside the allowed ones, sorted. -/
theorem rejected_eq_nil_iff {patch : PyDict} :
    (((patch.map Prod.fst).filter fun key => key ∉ allowedConfigurationKeys).mergeSort
      fun a b => decide (a ≤ b)) = [] ↔ ∀ entry ∈ patch, entry.1 ∈ allowedConfigurationKeys := by
  rw [← List.length_eq_zero_iff, List.length_mergeSort, List.length_eq_zero_iff,
    List.filter_eq_nil_iff, List.forall_mem_map]
  simp only [decide_eq_true_eq, not_not]

/-- A patch of allowed keys, with values without an issue. -/
def Admissible (patch : PyDict) : Prop :=
  (∀ entry ∈ patch, entry.1 ∈ allowedConfigurationKeys) ∧
    ∀ entry ∈ patch, configurationIssue entry.1 entry.2 = none

/-- What the domain accepts, it returns. -/
theorem validateConfigurationPatch_eq_ok_iff {patch checked : PyDict} :
    validateConfigurationPatch patch = .ok checked ↔ Admissible patch ∧ patch = checked := by
  simp only [validateConfigurationPatch, ne_eq, ite_not]
  split
  · rename_i hkeys
    rw [rejected_eq_nil_iff] at hkeys
    split
    · rename_i message hissue
      refine iff_of_false (fun h => by cases h) fun h => ?_
      rw [List.findSome?_eq_none_iff.mpr h.1.2] at hissue
      cases hissue
    · rename_i hissue
      rw [List.findSome?_eq_none_iff] at hissue
      simp only [Except.ok.injEq, Admissible]
      exact ⟨fun h => ⟨⟨hkeys, hissue⟩, h⟩, fun h => h.2⟩
  · rename_i hkeys
    rw [rejected_eq_nil_iff] at hkeys
    exact iff_of_false (fun h => by cases h) fun h => hkeys h.1.1

/-- Admissible patches are not longer than the list of the allowed keys. -/
theorem Admissible.length_le {patch : Dict String Value} (h : Admissible patch.entries) :
    patch.entries.length ≤ 4 := by
  have hsubset : patch.entries.map Prod.fst ⊆ allowedConfigurationKeys := by
    intro key hkey
    obtain ⟨entry, hentry, rfl⟩ := List.mem_map.mp hkey
    exact h.1 entry hentry
  have hlength := (patch.nodup.subperm hsubset).length_le
  rwa [List.length_map] at hlength

/-- What the schema accepts of a patch that is not empty. -/
theorem validateConfigurationInput_eq_ok_iff {patch : Dict String Value}
    (hne : patch.entries ≠ []) {checked : PyDict} :
    validateConfigurationInput patch.entries = .ok checked ↔
      Admissible patch.entries ∧ patch.entries = checked := by
  rw [validateConfigurationInput]
  split
  · rename_i entry hfound
    refine iff_of_false (fun h => by cases h) fun h => ?_
    -- an item that is no scalar is not admissible
    have hmem := List.mem_of_find?_eq_some hfound
    have hscalar := scalar_of_configurationIssue
      (h.1.1 entry hmem) (h.1.2 entry hmem)
    have hnot := List.find?_some hfound
    rw [hscalar] at hnot
    cases hnot
  · -- from here on the checks are those of admissible patches, one by one
    have hpos : ¬patch.entries.length < 1 := by
      have := List.length_pos_iff.mpr hne
      omega
    rw [if_neg hpos]
    split
    · rename_i hlong
      refine iff_of_false (fun h => by cases h) fun h => ?_
      have := h.1.length_le
      omega
    · simp only [ne_eq, ite_not]
      split
      · rename_i hkeys
        rw [rejected_eq_nil_iff] at hkeys
        simp only [schemaIssue_eq]
        split
        · rename_i message hissue
          refine iff_of_false (fun h => by cases h) fun h => ?_
          rw [List.findSome?_eq_none_iff.mpr h.1.2] at hissue
          cases hissue
        · rename_i hissue
          rw [List.findSome?_eq_none_iff] at hissue
          simp only [Except.ok.injEq, Admissible]
          exact ⟨fun h => ⟨⟨hkeys, hissue⟩, h⟩, fun h => h.2⟩
      · rename_i hkeys
        rw [rejected_eq_nil_iff] at hkeys
        exact iff_of_false (fun h => by cases h) fun h => hkeys h.1.1

/-! ## Stored configurations -/

/-- The four keys, with values without an issue. -/
structure Configured (c : PyDict) : Prop where
  keys : c.map Prod.fst = allowedConfigurationKeys
  sound : ∀ entry ∈ c, configurationIssue entry.1 entry.2 = none

/-- Storing under a present key leaves the keys as they are. -/
theorem PyDict.map_fst_set {d : PyDict} {key : String} (hkey : key ∈ d.map Prod.fst)
    (value : Value) : (PyDict.set d key value).map Prod.fst = d.map Prod.fst := by
  induction d with
  | nil => cases hkey
  | cons entry rest ih =>
      obtain ⟨k, v⟩ := entry
      rw [PyDict.set]
      split
      · rename_i heq
        rw [List.map_cons, List.map_cons, heq]
      · rename_i hne
        have hrest : key ∈ rest.map Prod.fst :=
          (List.mem_cons.mp hkey).resolve_left fun heq => hne heq.symm
        rw [List.map_cons, List.map_cons, ih hrest]

theorem PyDict.mem_set {d : PyDict} {key : String} {value : Value} {entry : String × Value}
    (h : entry ∈ PyDict.set d key value) : entry = (key, value) ∨ entry ∈ d := by
  induction d with
  | nil => exact .inl (List.mem_singleton.mp h)
  | cons first rest ih =>
      obtain ⟨k, v⟩ := first
      rw [PyDict.set] at h
      split at h
      · rcases List.mem_cons.mp h with heq | hrest
        · exact .inl heq
        · exact .inr (List.mem_cons_of_mem _ hrest)
      · rcases List.mem_cons.mp h with heq | hrest
        · exact .inr (List.mem_cons.mpr (.inl heq))
        · exact (ih hrest).imp_right (List.mem_cons_of_mem _)

theorem Configured.set {c : PyDict} (h : Configured c) {key : String} {value : Value}
    (hkey : key ∈ allowedConfigurationKeys) (hvalue : configurationIssue key value = none) :
    Configured (PyDict.set c key value) where
  keys := by rw [PyDict.map_fst_set (h.keys ▸ hkey), h.keys]
  sound entry hentry := by
    rcases PyDict.mem_set hentry with rfl | hmem
    · exact hvalue
    · exact h.sound entry hmem

/-- Merging an admissible patch. -/
theorem Configured.update {c patch : PyDict} (h : Configured c) (hpatch : Admissible patch) :
    Configured (c.update patch) := by
  rw [PyDict.update]
  induction patch generalizing c with
  | nil => exact h
  | cons entry rest ih =>
      rw [List.foldl_cons]
      refine ih (h.set (hpatch.1 entry (List.mem_cons_self ..))
        (hpatch.2 entry (List.mem_cons_self ..))) ?_
      exact ⟨fun e he => hpatch.1 e (List.mem_cons_of_mem _ he),
        fun e he => hpatch.2 e (List.mem_cons_of_mem _ he)⟩

theorem configured_initialConfiguration : Configured initialConfiguration where
  keys := rfl
  sound := by decide

namespace DeviceDomainService

/-- Every device has its four keys. -/
def ConfigurationsSound (s : DeviceDomainService) : Prop :=
  ∀ deviceId c, s.configuration.get? deviceId = some c → Configured c

theorem new_sound (registry : DeviceRegistry) (facts : String → DeviceFacts) :
    (new registry facts).ConfigurationsSound := by
  intro deviceId c hfound
  rcases Dict.of_get?_foldl_set _ _ _ _ hfound with hempty | ⟨_, _, _, rfl⟩
  · cases hempty
  · exact configured_initialConfiguration

/-- What an update does: nothing when it fails, else one merge of an admissible patch. -/
theorem updateConfiguration_cases (deviceId : String) (patch : PyDict) (reason : String)
    (s : DeviceDomainService) :
    (∃ e, s.updateConfiguration deviceId patch reason = (.error e, s)) ∨
      ∃ data configuration, Admissible patch ∧ s.configuration.get? deviceId = some configuration ∧
        s.updateConfiguration deviceId patch reason =
          (.ok data, { s with
            configuration := s.configuration.set deviceId (configuration.update patch) }) := by
  cases hdevice : s.device deviceId with
  | error e => exact .inl ⟨e, by simp only [updateConfiguration, hdevice]⟩
  | ok device =>
      cases hpatch : validateConfigurationPatch patch with
      | error e => exact .inl ⟨.domain e, by simp only [updateConfiguration, hdevice, hpatch]⟩
      | ok checked =>
          obtain ⟨hadmissible, rfl⟩ := validateConfigurationPatch_eq_ok_iff.mp hpatch
          cases hconfiguration : s.configuration.get? deviceId with
          | none =>
              refine .inl ⟨.raised (.keyError deviceId), ?_⟩
              simp only [updateConfiguration, hdevice, hpatch, configurationOf, hconfiguration]
          | some configuration =>
              refine .inr ⟨[("device_id", .str deviceId),
                ("operation", .str "update_device_configuration"),
                ("configuration", .dict (configuration.update patch)), ("reason", .str reason)],
                configuration, hadmissible, rfl, ?_⟩
              simp only [updateConfiguration, hdevice, hpatch, configurationOf, hconfiguration]

theorem ConfigurationsSound.updateConfiguration {s : DeviceDomainService}
    (h : s.ConfigurationsSound) (deviceId : String) (patch : PyDict) (reason : String) :
    (s.updateConfiguration deviceId patch reason).2.ConfigurationsSound := by
  rcases updateConfiguration_cases deviceId patch reason s with
    ⟨e, heq⟩ | ⟨data, configuration, hadmissible, hfound, heq⟩
  · rw [heq]
    exact h
  · rw [heq]
    intro otherId c hother
    rw [Dict.get?_set] at hother
    split at hother
    · cases hother
      exact (h deviceId configuration hfound).update hadmissible
    · exact h otherId c hother

/-- The other handlers do not write to configurations. -/
theorem restartDevice_configuration (deviceId reason : String) (s : DeviceDomainService) :
    (s.restartDevice deviceId reason).2.configuration = s.configuration := by
  rw [restartDevice]
  split <;> rfl

theorem restartService_configuration (deviceId serviceName reason : String)
    (s : DeviceDomainService) :
    (s.restartService deviceId serviceName reason).2.configuration = s.configuration := by
  rw [restartService]
  split
  · rfl
  · split <;> rfl

theorem ConfigurationsSound.call {s : DeviceDomainService} (h : s.ConfigurationsSound)
    (rt : SimulatorRuntime) (call : DeviceCall) : (s.call rt call).2.ConfigurationsSound := by
  cases call with
  | updateConfiguration deviceId patch reason => exact h.updateConfiguration deviceId patch reason
  | restartDevice deviceId reason =>
      intro otherId c hother
      rw [DeviceDomainService.call, restartDevice_configuration] at hother
      exact h otherId c hother
  | restartService deviceId serviceName reason =>
      intro otherId c hother
      rw [DeviceDomainService.call, restartService_configuration] at hother
      exact h otherId c hother
  | _ => exact h

/-- The service after a sequence of calls. -/
def afterCalls (rt : SimulatorRuntime) (s : DeviceDomainService) (calls : List DeviceCall) :
    DeviceDomainService :=
  calls.foldl (fun s call => (s.call rt call).2) s

theorem ConfigurationsSound.afterCalls {s : DeviceDomainService} (h : s.ConfigurationsSound)
    (rt : SimulatorRuntime) (calls : List DeviceCall) :
    (s.afterCalls rt calls).ConfigurationsSound := by
  induction calls generalizing s with
  | nil => exact h
  | cons call rest ih => exact ih (h.call rt call)

end DeviceDomainService

/-! ## The constraints of the keys -/

/-- A configuration with a value of its type and range under each of the four keys. -/
structure ValidConfiguration (c : PyDict) : Prop where
  keys : c.map Prod.fst = allowedConfigurationKeys
  interval : ∃ n : ℤ, c.get? "telemetry_interval_seconds" = some (.int n) ∧ 5 ≤ n ∧ n ≤ 3600
  diagnostics : ∃ b, c.get? "diagnostics_enabled" = some (.bool b)
  channel : ∃ channel ∈ ["stable", "candidate"], c.get? "firmware_channel" = some (.str channel)
  threshold :
    (∃ n : ℤ, c.get? "packet_loss_threshold" = some (.int n) ∧ 0 ≤ n ∧ n ≤ 100) ∨
      ∃ q : ℚ, c.get? "packet_loss_threshold" = some (.float (.finite q)) ∧ 0 ≤ q ∧ q ≤ 100

theorem of_intervalIssue {value : Value}
    (h : configurationIssue "telemetry_interval_seconds" value = none) :
    ∃ n : ℤ, value = .int n ∧ 5 ≤ n ∧ n ≤ 3600 := by
  cases value with
  | int n =>
      refine ⟨n, rfl, ?_⟩
      by_contra hnot
      simp [configurationIssue, hnot] at h
  | _ => simp [configurationIssue] at h

theorem of_diagnosticsIssue {value : Value}
    (h : configurationIssue "diagnostics_enabled" value = none) : ∃ b, value = .bool b := by
  cases value with
  | bool b => exact ⟨b, rfl⟩
  | _ => simp [configurationIssue] at h

theorem of_channelIssue {value : Value}
    (h : configurationIssue "firmware_channel" value = none) :
    ∃ channel ∈ ["stable", "candidate"], value = .str channel := by
  cases value with
  | str channel =>
      refine ⟨channel, ?_, rfl⟩
      by_contra hnot
      simp [configurationIssue, -List.mem_cons, hnot] at h
  | _ => simp [configurationIssue] at h

theorem of_thresholdIssue {value : Value}
    (h : configurationIssue "packet_loss_threshold" value = none) :
    (∃ n : ℤ, value = .int n ∧ 0 ≤ n ∧ n ≤ 100) ∨
      ∃ q : ℚ, value = .float (.finite q) ∧ 0 ≤ q ∧ q ≤ 100 := by
  cases value with
  | int n =>
      refine .inl ⟨n, rfl, ?_⟩
      by_contra hnot
      simp [configurationIssue, hnot] at h
  | float x =>
      cases x with
      | finite q =>
          refine .inr ⟨q, rfl, ?_⟩
          by_contra hnot
          simp [configurationIssue, hnot] at h
      | _ => simp [configurationIssue] at h
  | _ => simp [configurationIssue] at h

theorem Configured.valid {c : PyDict} (h : Configured c) : ValidConfiguration c := by
  have hvalue : ∀ key ∈ allowedConfigurationKeys, ∃ value,
      c.get? key = some value ∧ configurationIssue key value = none := by
    intro key hkey
    rw [← h.keys] at hkey
    cases hfound : c.get? key with
    | none =>
        rw [PyDict.get?, List.lookup_eq_none_iff] at hfound
        obtain ⟨entry, hentry, rfl⟩ := List.mem_map.mp hkey
        simpa using hfound entry hentry
    | some value =>
        obtain ⟨before, behind, heq, -⟩ := List.lookup_eq_some_iff.mp hfound
        have hmem : (key, value) ∈ c := by
          rw [heq]
          exact List.mem_append_right _ (List.mem_cons_self ..)
        exact ⟨value, rfl, h.sound _ hmem⟩
  obtain ⟨interval, hinterval, hintervalIssue⟩ :=
    hvalue "telemetry_interval_seconds" (by decide)
  obtain ⟨enabled, henabled, henabledIssue⟩ := hvalue "diagnostics_enabled" (by decide)
  obtain ⟨channel, hchannel, hchannelIssue⟩ := hvalue "firmware_channel" (by decide)
  obtain ⟨threshold, hthreshold, hthresholdIssue⟩ := hvalue "packet_loss_threshold" (by decide)
  obtain ⟨n, rfl, hrange⟩ := of_intervalIssue hintervalIssue
  obtain ⟨b, rfl⟩ := of_diagnosticsIssue henabledIssue
  obtain ⟨text, htext, rfl⟩ := of_channelIssue hchannelIssue
  refine ⟨h.keys, ⟨n, hinterval, hrange⟩, ⟨b, henabled⟩, ⟨text, htext, hchannel⟩, ?_⟩
  rcases of_thresholdIssue hthresholdIssue with ⟨m, rfl, hm⟩ | ⟨q, rfl, hq⟩
  · exact .inl ⟨m, hthreshold, hm⟩
  · exact .inr ⟨q, hthreshold, hq⟩

/-- Stored configurations are valid after every sequence of calls, an update that fails changes
nothing, and the two validators accept the same patches. -/
theorem configurations_valid (rt : SimulatorRuntime) (registry : DeviceRegistry)
    (facts : String → DeviceFacts) :
    (∀ calls deviceId c,
      (((DeviceDomainService.new registry facts).afterCalls rt calls).configuration.get? deviceId =
        some c) → ValidConfiguration c) ∧
    (∀ s deviceId patch reason e,
      (DeviceDomainService.updateConfiguration deviceId patch reason s).1 = .error e →
        (DeviceDomainService.updateConfiguration deviceId patch reason s).2 = s) ∧
    ∀ patch : Dict String Value, patch.entries ≠ [] → ∀ checked,
      validateConfigurationPatch patch.entries = .ok checked ↔
        validateConfigurationInput patch.entries = .ok checked := by
  refine ⟨?_, ?_, ?_⟩
  · intro calls deviceId c hfound
    have hsound := (DeviceDomainService.new_sound registry facts).afterCalls rt calls
    exact (hsound deviceId c hfound).valid
  · intro s deviceId patch reason e herror
    rcases DeviceDomainService.updateConfiguration_cases deviceId patch reason s with
      ⟨_, heq⟩ | ⟨data, configuration, _, _, heq⟩
    · rw [heq]
    · rw [heq] at herror
      cases herror
  · intro patch hne checked
    rw [validateConfigurationPatch_eq_ok_iff, validateConfigurationInput_eq_ok_iff hne]

end McpOps
