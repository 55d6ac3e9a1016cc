import McpOps.Simulator.Consumers
import Mathlib.Algebra.Order.Ring.Rat

/-!
# The reasons of alerts

The severity of an alert comes from the health of its device, its error code from a cascade of its
own.  The code explains the severity when the metric that it names has the same health by itself,
with every other metric at a nominal value.

Both are functions of the `Readings` of a payload (`evaluateHealth_eq`, `errorCode_alertReason`),
so that the payload itself is left behind at once.  Reading commutes with isolating a metric
(`readPayload_isolate`).

The health of isolated readings depends on the named metric alone (`health_isolated_iff`).  Where
that metric is critical, the isolated readings are critical as the whole payload is; where nothing
is critical, both are a warning.  In between the cascade has named a lesser condition, as it looks
for a metric before it looks for how bad it is.  `alert_explained_iff` says that this is the only
way, and `hotPayload` is an example: overheating, and a tenth of the packets lost.
-/

namespace McpOps

/-! ## Readings -/

/-- What `evaluate_health` and `_alert_reason` read from a payload. -/
structure Readings where
  cpu : PyFloat
  memory : PyFloat
  temperature : PyFloat
  latency : PyFloat
  packetLoss : PyFloat
  disk : PyFloat
  delayed : Bool
  states : List ServiceState
  deriving DecidableEq

/-- The readings of a payload. -/
def readPayload (rt : SimulatorRuntime) (payload : PyDict) : Except SimulatorError Readings := do
  let cpu ← floatItem rt payload "cpu_percent"
  let memory ← floatItem rt payload "memory_percent"
  let temperature ← floatItem rt payload "temperature_c"
  let latency ← floatItem rt payload "network_latency_ms"
  let packetLoss ← floatItem rt payload "packet_loss_percent"
  let disk ← floatItem rt payload "disk_percent"
  let delayed ← payloadItem payload "delayed"
  let states ← serviceStates rt payload
  .ok { cpu, memory, temperature, latency, packetLoss, disk, delayed := delayed.truthy, states }

namespace Readings

/-- `any(critical_conditions)`. -/
def critical (r : Readings) : Bool :=
  r.cpu.ge 95 || r.memory.ge 95 || r.latency.ge 3000 || r.packetLoss.ge 50 || r.temperature.ge 80 ||
    r.states.contains .crashed

/-- `any(warning_conditions)`. -/
def warning (r : Readings) : Bool :=
  r.cpu.ge 85 || r.memory.ge 85 || r.packetLoss.ge 10 || r.disk.ge 85 || r.delayed ||
    r.states.contains .degraded || r.states.contains .stopped

/-- The health that readings stand for. -/
def health (r : Readings) : DeviceStatus × ℚ :=
  if r.critical then (.critical, 18) else if r.warning then (.warning, 62) else (.healthy, 96)

theorem ok_health (r : Readings) :
    (Except.ok r.health : Except SimulatorError (DeviceStatus × ℚ)) =
      if r.critical then .ok (.critical, 18) else if r.warning then .ok (.warning, 62)
      else .ok (.healthy, 96) := by
  rw [health]
  split
  · rfl
  · split <;> rfl

/-- The error code that readings stand for. -/
def errorCode (r : Readings) : String :=
  if r.states.contains .crashed then "E-SERVICE-CRASH"
  else if r.latency.ge 3000 then "E-NET-TIMEOUT"
  else if r.packetLoss.ge 10 then "E-NET-LOSS"
  else if r.cpu.ge 85 then "E-CPU-SATURATION"
  else if r.memory.ge 85 then "E-MEM-PRESSURE"
  else if r.disk.ge 85 then "E-DISK-CAPACITY"
  else if r.delayed then "E-TELEMETRY-DELAY"
  else "E-DEVICE-WARNING"

end Readings

section Payloads

variable {rt : SimulatorRuntime} {payload : PyDict} {r : Readings}

/-- Health is a function of the readings. -/
theorem evaluateHealth_eq (rt : SimulatorRuntime) (payload : PyDict) :
    evaluateHealth rt payload = (readPayload rt payload).map Readings.health := by
  simp only [evaluateHealth, readPayload]
  cases floatItem rt payload "cpu_percent" with
  | error e => rfl
  | ok cpu =>
  cases floatItem rt payload "memory_percent" with
  | error e => rfl
  | ok memory =>
  cases floatItem rt payload "temperature_c" with
  | error e => rfl
  | ok temperature =>
  cases floatItem rt payload "network_latency_ms" with
  | error e => rfl
  | ok latency =>
  cases floatItem rt payload "packet_loss_percent" with
  | error e => rfl
  | ok packetLoss =>
  cases floatItem rt payload "disk_percent" with
  | error e => rfl
  | ok disk =>
  cases payloadItem payload "delayed" with
  | error e => rfl
  | ok delayed =>
  cases serviceStates rt payload with
  | error e => rfl
  | ok states =>
      exact (Readings.ok_health
        ⟨cpu, memory, temperature, latency, packetLoss, disk, delayed.truthy, states⟩).symm

/-- What it takes to read a payload. -/
theorem readPayload_eq_ok_iff :
    readPayload rt payload = .ok r ↔
      floatItem rt payload "cpu_percent" = .ok r.cpu ∧
      floatItem rt payload "memory_percent" = .ok r.memory ∧
      floatItem rt payload "temperature_c" = .ok r.temperature ∧
      floatItem rt payload "network_latency_ms" = .ok r.latency ∧
      floatItem rt payload "packet_loss_percent" = .ok r.packetLoss ∧
      floatItem rt payload "disk_percent" = .ok r.disk ∧
      (payloadItem payload "delayed").map Value.truthy = .ok r.delayed ∧
      serviceStates rt payload = .ok r.states := by
  obtain ⟨cpu, memory, temperature, latency, packetLoss, disk, delayed, states⟩ := r
  rw [readPayload]
  cases floatItem rt payload "cpu_percent" <;>
    cases floatItem rt payload "memory_percent" <;>
    cases floatItem rt payload "temperature_c" <;>
    cases floatItem rt payload "network_latency_ms" <;>
    cases floatItem rt payload "packet_loss_percent" <;>
    cases floatItem rt payload "disk_percent" <;>
    cases payloadItem payload "delayed" <;>
    cases serviceStates rt payload <;>
    simp [bind, Except.bind, Except.map]

/-- The error code of an alert. -/
theorem errorCode_alertReason (h : readPayload rt payload = .ok r) :
    ∃ message, alertReason rt payload = .ok (r.errorCode, message) := by
  obtain ⟨hcpu, hmemory, -, hlatency, hpacketLoss, hdisk, hdelayed, hstates⟩ :=
    readPayload_eq_ok_iff.mp h
  cases hitem : payloadItem payload "delayed" with
  | error e =>
      rw [hitem] at hdelayed
      cases hdelayed
  | ok delayed =>
      rw [hitem, Except.map, Except.ok.injEq] at hdelayed
      simp only [alertReason, Readings.errorCode, hcpu, hmemory, hlatency, hpacketLoss, hdisk,
        hitem, hstates, hdelayed, bind, Except.bind, pure, Except.pure]
      split
      · exact ⟨_, rfl⟩
      split
      · exact ⟨_, rfl⟩
      split
      · exact ⟨_, rfl⟩
      split
      · exact ⟨_, rfl⟩
      split
      · exact ⟨_, rfl⟩
      split
      · exact ⟨_, rfl⟩
      split
      · exact ⟨_, rfl⟩
      · exact ⟨_, rfl⟩

/-- An alert is of a health other than healthy, and has the error code of the readings. -/
theorem buildAlert_some {status : DeviceStatus} {timestamp : Time} {alert : DeviceAlert}
    (h : readPayload rt payload = .ok r)
    (halert : buildAlert rt payload status timestamp = .ok (some alert)) :
    status ≠ .healthy ∧ alert.errorCode = r.errorCode := by
  rw [buildAlert] at halert
  split at halert
  · cases halert
  · rename_i hstatus
    refine ⟨hstatus, ?_⟩
    obtain ⟨message, hreason⟩ := errorCode_alertReason h
    cases hdevice : payloadItem payload "device_id" with
    | error e =>
        rw [hdevice] at halert
        cases halert
    | ok device =>
        simp only [hdevice, hreason, bind, Except.bind, pure, Except.pure, Except.ok.injEq,
          Option.some.injEq] at halert
        rw [← halert]

end Payloads

/-! ## One metric by itself -/

/-- The keys of the metrics. -/
def metricKeys : List String :=
  ["cpu_percent", "memory_percent", "temperature_c", "network_latency_ms", "packet_loss_percent",
    "disk_percent", "delayed", "service_states"]

/-- The metric that an error code names. -/
def namedMetric (errorCode : String) : Option String :=
  [("E-SERVICE-CRASH", "service_states"), ("E-NET-TIMEOUT", "network_latency_ms"),
    ("E-NET-LOSS", "packet_loss_percent"), ("E-CPU-SATURATION", "cpu_percent"),
    ("E-MEM-PRESSURE", "memory_percent"), ("E-DISK-CAPACITY", "disk_percent"),
    ("E-TELEMETRY-DELAY", "delayed")].lookup errorCode

/-- The payload with every metric but one replaced by its value in a second payload. -/
def isolate (metric : Option String) (nominal payload : PyDict) : PyDict :=
  metricKeys.foldl (fun d key =>
    if metric = some key then d else d.set key ((nominal.get? key).getD .null)) payload

/-- A payload of a healthy device: its metrics have nominal values. -/
def Nominal (rt : SimulatorRuntime) (nominal : PyDict) : Prop :=
  evaluateHealth rt nominal = .ok (.healthy, 96)

theorem PyDict.get?_cons (k : String) (v : Value) (rest : PyDict) (key : String) :
    PyDict.get? ((k, v) :: rest) key = if key = k then some v else PyDict.get? rest key := by
  rw [PyDict.get?, List.lookup_cons]
  by_cases h : key = k
  · rw [if_pos h, beq_iff_eq.mpr h]
  · rw [if_neg h, beq_eq_false_iff_ne.mpr h, PyDict.get?]

theorem PyDict.get?_set (d : PyDict) (key other : String) (value : Value) :
    PyDict.get? (PyDict.set d key value) other =
      if other = key then some value else PyDict.get? d other := by
  induction d with
  | nil => exact PyDict.get?_cons key value [] other
  | cons entry rest ih =>
      obtain ⟨k, v⟩ := entry
      rw [PyDict.set]
      split
      · rename_i hk
        rw [PyDict.get?_cons, PyDict.get?_cons, hk]
        split <;> rfl
      · rename_i hk
        rw [PyDict.get?_cons, PyDict.get?_cons, ih]
        by_cases h : other = k
        · rw [if_pos h, if_pos h, if_neg fun heq => hk (h ▸ heq)]
        · rw [if_neg h, if_neg h]

theorem get?_isolate {metric : Option String} {nominal payload : PyDict} {key : String}
    (hkey : key ∈ metricKeys) :
    (isolate metric nominal payload).get? key =
      if metric = some key then payload.get? key else some ((nominal.get? key).getD .null) := by
  have hfold : ∀ (keys : List String) (d : PyDict),
      PyDict.get? (keys.foldl (fun d key =>
        if metric = some key then d else PyDict.set d key ((nominal.get? key).getD .null)) d) key =
        if key ∈ keys ∧ metric ≠ some key then some ((nominal.get? key).getD .null)
        else d.get? key := by
    intro keys
    induction keys with
    | nil => simp
    | cons first rest ih =>
        intro d
        rw [List.foldl_cons, ih]
        by_cases hfirst : metric = some first
        · by_cases heq : key = first
          · simp [hfirst, heq]
          · simp [hfirst, heq]
        · rw [if_neg hfirst, PyDict.get?_set]
          by_cases heq : key = first
          · simp [hfirst, heq]
          · simp [heq]
  rw [isolate, hfold]
  by_cases hmetric : metric = some key <;> simp [hkey, hmetric]

namespace Readings

/-- Readings with every metric but one replaced by those of a second device. -/
def isolated (metric : Option String) (r nominal : Readings) : Readings where
  cpu := if metric = some "cpu_percent" then r.cpu else nominal.cpu
  memory := if metric = some "memory_percent" then r.memory else nominal.memory
  temperature := if metric = some "temperature_c" then r.temperature else nominal.temperature
  latency := if metric = some "network_latency_ms" then r.latency else nominal.latency
  packetLoss := if metric = some "packet_loss_percent" then r.packetLoss else nominal.packetLoss
  disk := if metric = some "disk_percent" then r.disk else nominal.disk
  delayed := if metric = some "delayed" then r.delayed else nominal.delayed
  states := if metric = some "service_states" then r.states else nominal.states

end Readings

section Isolation

variable {rt : SimulatorRuntime} {nominal payload : PyDict} {metric : Option String} {key : String}

theorem payloadItem_isolate (hkey : key ∈ metricKeys) {value : Value}
    (hnominal : payloadItem nominal key = .ok value) :
    payloadItem (isolate metric nominal payload) key =
      if metric = some key then payloadItem payload key else payloadItem nominal key := by
  rw [payloadItem, get?_isolate hkey]
  by_cases hmetric : metric = some key
  · rw [if_pos hmetric, if_pos hmetric, payloadItem]
  · rw [if_neg hmetric, if_neg hmetric, hnominal]
    rw [payloadItem] at hnominal
    cases hget : nominal.get? key with
    | none =>
        rw [hget] at hnominal
        cases hnominal
    | some found =>
        rw [hget] at hnominal
        exact hnominal

theorem floatItem_isolate (hkey : key ∈ metricKeys) {x y : PyFloat}
    (hpayload : floatItem rt payload key = .ok x) (hnominal : floatItem rt nominal key = .ok y) :
    floatItem rt (isolate metric nominal payload) key =
      .ok (if metric = some key then x else y) := by
  cases hitem : payloadItem nominal key with
  | error e =>
      rw [floatItem, hitem] at hnominal
      cases hnominal
  | ok value =>
      rw [floatItem, payloadItem_isolate hkey hitem]
      split
      · exact hpayload
      · exact hnominal

theorem serviceStates_isolate {states states' : List ServiceState}
    (hpayload : serviceStates rt payload = .ok states)
    (hnominal : serviceStates rt nominal = .ok states') :
    serviceStates rt (isolate metric nominal payload) =
      .ok (if metric = some "service_states" then states else states') := by
  cases hitem : payloadItem nominal "service_states" with
  | error e =>
      rw [serviceStates, hitem] at hnominal
      cases hnominal
  | ok value =>
      rw [serviceStates, payloadItem_isolate (by decide) hitem]
      split
      · exact hpayload
      · exact hnominal

theorem delayed_isolate {delayed delayed' : Bool}
    (hpayload : (payloadItem payload "delayed").map Value.truthy = .ok delayed)
    (hnominal : (payloadItem nominal "delayed").map Value.truthy = .ok delayed') :
    (payloadItem (isolate metric nominal payload) "delayed").map Value.truthy =
      .ok (if metric = some "delayed" then delayed else delayed') := by
  cases hitem : payloadItem nominal "delayed" with
  | error e =>
      rw [hitem] at hnominal
      cases hnominal
  | ok value =>
      rw [payloadItem_isolate (by decide) hitem]
      split
      · exact hpayload
      · exact hnominal

/-- Reading commutes with isolating a metric. -/
theorem readPayload_isolate {n r : Readings} (hpayload : readPayload rt payload = .ok r)
    (hnominal : readPayload rt nominal = .ok n) :
    readPayload rt (isolate metric nominal payload) = .ok (r.isolated metric n) := by
  obtain ⟨hcpu, hmemory, htemperature, hlatency, hpacketLoss, hdisk, hdelayed, hstates⟩ :=
    readPayload_eq_ok_iff.mp hpayload
  obtain ⟨ncpu, nmemory, ntemperature, nlatency, npacketLoss, ndisk, ndelayed, nstates⟩ :=
    readPayload_eq_ok_iff.mp hnominal
  rw [readPayload_eq_ok_iff]
  refine ⟨floatItem_isolate (by decide) hcpu ncpu, floatItem_isolate (by decide) hmemory nmemory,
    floatItem_isolate (by decide) htemperature ntemperature,
    floatItem_isolate (by decide) hlatency nlatency,
    floatItem_isolate (by decide) hpacketLoss npacketLoss,
    floatItem_isolate (by decide) hdisk ndisk, delayed_isolate hdelayed ndelayed,
    serviceStates_isolate hstates nstates⟩

end Isolation

/-! ## When the code explains the severity -/

theorem PyFloat.ge_of_ge {x : PyFloat} {low high : ℚ} (hle : low ≤ high) (h : x.ge high) :
    x.ge low := by
  cases x with
  | finite q =>
      simp only [PyFloat.ge, PyFloat.lt, PyFloat.eq, Bool.or_eq_true, decide_eq_true_eq] at h ⊢
      rcases h with h | h
      · exact .inl (lt_of_le_of_lt hle h)
      · rw [h]
        exact hle.lt_or_eq.imp_right Eq.symm
  | posInf => rfl
  | negInf => cases h
  | nan => cases h

namespace Readings

/-- The first metric that the cascade looks for is critical, or nothing is. -/
def Explained (r : Readings) : Prop :=
  r.states.contains .crashed ∨ r.latency.ge 3000 ∨ r.packetLoss.ge 50 ∨
    if r.packetLoss.ge 10 then ¬r.cpu.ge 95 ∧ ¬r.memory.ge 95 ∧ ¬r.temperature.ge 80
    else r.cpu.ge 95 ∨
      if r.cpu.ge 85 then ¬r.memory.ge 95 ∧ ¬r.temperature.ge 80
      else r.memory.ge 95 ∨
        ((r.memory.ge 85 ∨ r.disk.ge 85 ∨ r.delayed) ∧ ¬r.temperature.ge 80)

theorem health_eq_healthy_iff (r : Readings) :
    r.health.1 = .healthy ↔ r.critical = false ∧ r.warning = false := by
  rw [health]
  cases r.critical <;> cases r.warning <;> simp

/-- When readings have the health of others that are not healthy. -/
theorem health_eq_iff {i r : Readings} (hr : r.health.1 ≠ .healthy) :
    i.health.1 = r.health.1 ↔ i.critical = r.critical ∧ (i.critical ∨ i.warning) := by
  rw [health] at hr ⊢
  rw [health]
  cases hcritical : i.critical <;> cases hwarning : i.warning <;> cases hc : r.critical <;>
    cases hw : r.warning <;> simp_all

/-- The named metric by itself. -/
theorem health_isolated_iff {n r : Readings} (hn : n.health.1 = .healthy)
    (hr : r.health.1 ≠ .healthy) :
    (r.isolated (namedMetric r.errorCode) n).health.1 = r.health.1 ↔ r.Explained := by
  have hcpu : r.cpu.ge 95 → r.cpu.ge 85 := PyFloat.ge_of_ge (by decide)
  have hmemory : r.memory.ge 95 → r.memory.ge 85 := PyFloat.ge_of_ge (by decide)
  have hloss : r.packetLoss.ge 50 → r.packetLoss.ge 10 := PyFloat.ge_of_ge (by decide)
  rw [health_eq_iff hr]
  rw [health_eq_healthy_iff] at hn
  simp only [critical, warning, Bool.or_eq_false_iff] at hn
  obtain ⟨⟨⟨⟨⟨⟨c95, m95⟩, l3000⟩, p50⟩, t80⟩, crashed⟩, ⟨⟨⟨⟨⟨⟨c85, m85⟩, p10⟩, d85⟩, late⟩,
    degraded⟩, stopped⟩⟩ := hn
  -- one case for each error code, with the conditions above it false
  cases h₁ : r.states.contains .crashed with
  | true =>
      have hnamed : namedMetric r.errorCode = some "service_states" := by
        rw [errorCode, if_pos h₁]
        rfl
      simp [isolated, critical, warning, Explained, -List.contains_eq_mem, *]
  | false =>
  cases h₂ : r.latency.ge 3000 with
  | true =>
      have hnamed : namedMetric r.errorCode = some "network_latency_ms" := by
        simp only [errorCode, h₁, h₂]
        rfl
      simp [isolated, critical, warning, Explained, -List.contains_eq_mem, *]
  | false =>
  cases h₃ : r.packetLoss.ge 10 with
  | true =>
      have hnamed : namedMetric r.errorCode = some "packet_loss_percent" := by
        simp only [errorCode, h₁, h₂, h₃]
        rfl
      simp [isolated, critical, warning, Explained, -List.contains_eq_mem, *]
      grind
  | false =>
  cases h₄ : r.cpu.ge 85 with
  | true =>
      have hnamed : namedMetric r.errorCode = some "cpu_percent" := by
        simp only [errorCode, h₁, h₂, h₃, h₄]
        rfl
      simp [isolated, critical, warning, Explained, -List.contains_eq_mem, *]
      grind
  | false =>
  cases h₅ : r.memory.ge 85 with
  | true =>
      have hnamed : namedMetric r.errorCode = some "memory_percent" := by
        simp only [errorCode, h₁, h₂, h₃, h₄, h₅]
        rfl
      simp [isolated, critical, warning, Explained, -List.contains_eq_mem, *]
      grind
  | false =>
  cases h₆ : r.disk.ge 85 with
  | true =>
      have hnamed : namedMetric r.errorCode = some "disk_percent" := by
        simp only [errorCode, h₁, h₂, h₃, h₄, h₅, h₆]
        rfl
      simp [isolated, critical, warning, Explained, -List.contains_eq_mem, *]
      grind
  | false =>
  cases h₇ : r.delayed with
  | true =>
      have hnamed : namedMetric r.errorCode = some "delayed" := by
        simp only [errorCode, h₁, h₂, h₃, h₄, h₅, h₆, h₇]
        rfl
      simp [isolated, critical, warning, Explained, -List.contains_eq_mem, *]
      grind
  | false =>
      have hnamed : namedMetric r.errorCode = none := by
        simp only [errorCode, h₁, h₂, h₃, h₄, h₅, h₆, h₇]
        rfl
      simp [isolated, critical, warning, Explained, -List.contains_eq_mem, *]
      grind

end Readings

/-- The metric that an alert names has the health of the whole payload by itself exactly when it is
critical, or nothing is. -/
theorem alert_explained_iff {rt : SimulatorRuntime} {payload nominal : PyDict}
    {status : DeviceStatus} {healthScore : ℚ} {timestamp : Time} {alert : DeviceAlert}
    (hhealth : evaluateHealth rt payload = .ok (status, healthScore))
    (halert : buildAlert rt payload status timestamp = .ok (some alert))
    (hnominal : Nominal rt nominal) :
    (∃ score, evaluateHealth rt (isolate (namedMetric alert.errorCode) nominal payload) =
        .ok (status, score)) ↔
      ∃ r, readPayload rt payload = .ok r ∧ r.Explained := by
  rw [evaluateHealth_eq] at hhealth
  rw [Nominal, evaluateHealth_eq] at hnominal
  cases hread : readPayload rt payload with
  | error e =>
      rw [hread] at hhealth
      cases hhealth
  | ok r =>
      cases hread' : readPayload rt nominal with
      | error e =>
          rw [hread'] at hnominal
          cases hnominal
      | ok n =>
          rw [hread, Except.map, Except.ok.injEq] at hhealth
          rw [hread', Except.map, Except.ok.injEq] at hnominal
          obtain ⟨hstatus, hcode⟩ := buildAlert_some hread halert
          have hr : r.health.1 = status := by rw [hhealth]
          have hn : n.health.1 = .healthy := by rw [hnominal]
          -- both payloads are read, so only the readings of the named metric differ
          have hiff := Readings.health_isolated_iff hn (hr ▸ hstatus)
          rw [hcode, evaluateHealth_eq, readPayload_isolate hread hread', Except.map]
          simp only [Except.ok.injEq, Prod.ext_iff, exists_and_left, exists_eq', and_true,
            exists_eq_left', ← hr]
          exact hiff

/-! ### An alert that names the lesser condition -/

/-- Overheating, and a tenth of the packets lost. -/
def hotPayload : PyDict :=
  ((smallTelemetry 1).payload.set "temperature_c" (.float (.finite 85))).set "packet_loss_percent"
    (.float (.finite 10))

/-- The alert of the overheated device. -/
def hotAlert : DeviceAlert where
  alertId := SimulatorRuntime.plain.deterministicUuid
    ("alert:" ++ "SIM-001" ++ ":" ++ "E-NET-LOSS" ++ ":" ++ SimulatorRuntime.plain.isoformat 0)
  deviceId := "SIM-001"
  severity := .critical
  message := "Packet loss threshold exceeded."
  errorCode := "E-NET-LOSS"
  timestamp := 0

theorem nominal_smallTelemetry : Nominal .plain (smallTelemetry 1).payload := rfl

theorem evaluateHealth_hotPayload : evaluateHealth .plain hotPayload = .ok (.critical, 18) := rfl

theorem buildAlert_hotPayload :
    buildAlert .plain hotPayload .critical 0 = .ok (some hotAlert) := rfl

/-- The equivalence for the overheated device. -/
theorem hotAlert_explained_iff :
    (∃ score, evaluateHealth .plain
        (isolate (namedMetric hotAlert.errorCode) (smallTelemetry 1).payload hotPayload) =
        .ok (.critical, score)) ↔
      ∃ r, readPayload .plain hotPayload = .ok r ∧ r.Explained :=
  alert_explained_iff evaluateHealth_hotPayload buildAlert_hotPayload nominal_smallTelemetry

/-- The lost packets that the alert names are no more than a warning. -/
theorem evaluateHealth_hotAlert :
    evaluateHealth .plain
        (isolate (namedMetric hotAlert.errorCode) (smallTelemetry 1).payload hotPayload) =
      .ok (.warning, 62) := rfl

/-- A critical alert that names a condition which is not critical. -/
theorem hotAlert_not_explained :
    ¬ ∀ (rt : SimulatorRuntime) (payload nominal : PyDict) (status : DeviceStatus)
      (healthScore : ℚ) (timestamp : Time) (alert : DeviceAlert),
      evaluateHealth rt payload = .ok (status, healthScore) →
      buildAlert rt payload status timestamp = .ok (some alert) → Nominal rt nominal →
        ∃ score, evaluateHealth rt (isolate (namedMetric alert.errorCode) nominal payload) =
          .ok (status, score) := by
  intro hclaim
  obtain ⟨score, hscore⟩ := hclaim .plain hotPayload (smallTelemetry 1).payload .critical 18 0
    hotAlert evaluateHealth_hotPayload buildAlert_hotPayload nominal_smallTelemetry
  rw [evaluateHealth_hotAlert] at hscore
  cases hscore

end McpOps
