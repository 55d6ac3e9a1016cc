import McpOps.Tools.Diagnostics

/-!
# What the diagnostics engine makes of its evidence

More evidence never lowers the severity and never takes a cause back, except that a degraded
service may crash.  The severity and the health of the same telemetry have thresholds of their own,
and are critical together where these do not differ.

## Strategy

The engine collects signals and applies rules to them.  `Carries` says that every signal of a
situation is one of a worse situation, but for a degraded service, which may have crashed, and the
scenario.  With that the severity is no lower (`severity_critical_mono`, `severity_info_mono`), and
each rule that applied still does, because no rule looks for the absence of a signal, or for the two
that may be lost (`condition_mono`).  `diagnose_mono` is the result for any two such situations.

For the two assessments, health and severity are both written as conditions on the readings
(`critical_readings_iff`, `severity_critical_iff`), and the consumer reads from a payload what the
telemetry says (`readPayload_asPayload`).  `assessedAlike_iff` puts the two critical conditions
against each other, and `assessments_agree_iff` is the equivalence.
-/

namespace McpOps

/-! ## Signals -/

theorem mem_matchedSignals {evidence : List DiagnosticEvidence} {signal : String} :
    signal ∈ matchedSignals evidence ↔
      ∃ item ∈ evidence, item.matched ∧ item.signal = signal := by
  simp only [matchedSignals, List.mem_toFinset, List.mem_map, List.mem_filter, and_assoc]

section Signals

variable {rt : SimulatorRuntime} {device : SimulatedDevice} {telemetry : DeviceTelemetry}
  {recentErrors : List PyDict} {signal : String}

/-- When each signal is matched. -/
theorem mem_collected :
    signal ∈ matchedSignals (collectEvidence rt device telemetry recentErrors) ↔
      (10 < telemetry.packetLossPercent ∧ signal = "packet_loss") ∨
      (("E-NET-TIMEOUT" ∈ errorCodes rt recentErrors ∨
        containsText "timeout" (joinedMessages rt recentErrors)) ∧
        signal = "network_timeout_error") ∨
      (90 < telemetry.cpuPercent ∧ signal = "cpu_percent") ∨
      (250 < telemetry.networkLatencyMs ∧ signal = "high_latency") ∨
      (("E-CPU-LATENCY" ∈ errorCodes rt recentErrors ∨
        containsText "response latency" (joinedMessages rt recentErrors)) ∧
        signal = "process_latency_error") ∨
      (90 < telemetry.memoryPercent ∧ signal = "memory_percent") ∨
      (telemetry.servicesIn .crashed ≠ [] ∧ signal = "crashed_service") ∨
      (telemetry.servicesIn .degraded ≠ [] ∧ signal = "degraded_service") ∨
      (containsText "crash" (joinedMessages rt recentErrors) ∧ signal = "crash_log") ∨
      ("E-SENSOR-INIT" ∈ errorCodes rt recentErrors ∧ signal = "sensor_initialization_error") ∨
      (telemetry.delayed ∧ signal = "telemetry_delay") ∨
      (85 < telemetry.diskPercent ∧ signal = "disk_percent") ∨
      (80 < telemetry.temperatureC ∧ signal = "temperature_c") ∨
      (device.activeScenario.isSome ∧ signal = "device_active_scenario") := by
  rw [mem_matchedSignals]
  simp only [collectEvidence, List.mem_cons, List.not_mem_nil, or_false, exists_eq_or_imp,
    exists_eq_left, metricEvidence, errorEvidence, serviceEvidence, Bool.or_eq_true,
    decide_eq_true_eq, Bool.not_eq_true', List.isEmpty_eq_false_iff, eq_comm (b := signal)]

theorem mem_servicesIn {state : ServiceState} {name : String} :
    name ∈ telemetry.servicesIn state ↔ telemetry.serviceStates.get? name = some state := by
  rw [Dict.get?_eq_some_iff, DeviceTelemetry.servicesIn, List.mem_map]
  simp only [List.mem_filter, decide_eq_true_eq]
  constructor
  · rintro ⟨entry, ⟨hentry, rfl⟩, rfl⟩
    exact hentry
  · intro hmem
    exact ⟨(name, state), ⟨hmem, rfl⟩, rfl⟩

end Signals

/-! ## Severities and causes of signals -/

/-- The order of severities. -/
def AlertSeverity.rank : AlertSeverity → ℕ
  | .info => 0
  | .warning => 1
  | .critical => 2

section Severity

variable {evidence : List DiagnosticEvidence} {matched : Finset String} {cause : String}

theorem severity_eq_critical_iff :
    severity evidence = .critical ↔
      ("packet_loss" ∈ matchedSignals evidence ∧
        "network_timeout_error" ∈ matchedSignals evidence) ∨
      "crashed_service" ∈ matchedSignals evidence ∨ "cpu_percent" ∈ matchedSignals evidence ∨
      "temperature_c" ∈ matchedSignals evidence := by
  simp only [severity, Finset.insert_subset_iff, Finset.singleton_subset_iff]
  split
  · simp [*]
  · split
    · simp [*]
    · split <;> simp [*]

/-- The signals that warn. -/
def warningSignals : List String :=
  ["memory_percent", "disk_percent", "telemetry_delay", "degraded_service", "crash_log",
    "sensor_initialization_error"]

theorem severity_eq_info_iff :
    severity evidence = .info ↔
      severity evidence ≠ .critical ∧ ∀ signal ∈ warningSignals,
        signal ∉ matchedSignals evidence := by
  have hnone : ¬(({"memory_percent", "disk_percent", "telemetry_delay", "degraded_service",
      "crash_log", "sensor_initialization_error"} : Finset String) ∩
        matchedSignals evidence).Nonempty ↔
      ∀ signal ∈ warningSignals, signal ∉ matchedSignals evidence := by
    rw [Finset.not_nonempty_iff_eq_empty, ← Finset.disjoint_iff_inter_eq_empty,
      Finset.disjoint_left]
    simp only [warningSignals, Finset.mem_insert, Finset.mem_singleton, List.mem_cons,
      List.not_mem_nil, or_false]
  rw [← hnone, severity]
  split
  · simp
  · split
    · simp
    · split
      · rename_i hwarning
        simp [hwarning]
      · rename_i hwarning
        simp [hwarning]

theorem mem_possibleCauses (hcause : cause ≠ noRuleMatched) :
    cause ∈ possibleCauses matched ↔
      ∃ rule ∈ diagnosticRules, rule.condition matched ∧ rule.cause = cause := by
  have hmatching : ∀ rule, rule ∈ matchingRules matched ↔
      rule ∈ diagnosticRules ∧ rule.condition matched := fun rule => List.mem_filter
  rw [possibleCauses]
  split
  · rename_i hnone
    rw [List.mem_singleton]
    refine iff_of_false hcause ?_
    rintro ⟨rule, hrule, hcondition, -⟩
    have hmem := (hmatching rule).mpr ⟨hrule, hcondition⟩
    rw [hnone] at hmem
    cases hmem
  · simp only [List.mem_map, hmatching, and_assoc]

end Severity

/-! ## More evidence -/

/-- A service is as it was, or has failed further. -/
def ServiceState.Worsens (state state' : ServiceState) : Prop :=
  state' = state ∨ (state = .running ∧ state' ≠ .running) ∨
    (state = .degraded ∧ state' = .crashed)

/-- Telemetry in which every metric and every service is as bad as before, or worse. -/
structure TelemetryWorsens (telemetry telemetry' : DeviceTelemetry) : Prop where
  cpu : telemetry.cpuPercent ≤ telemetry'.cpuPercent
  memory : telemetry.memoryPercent ≤ telemetry'.memoryPercent
  temperature : telemetry.temperatureC ≤ telemetry'.temperatureC
  latency : telemetry.networkLatencyMs ≤ telemetry'.networkLatencyMs
  packetLoss : telemetry.packetLossPercent ≤ telemetry'.packetLossPercent
  disk : telemetry.diskPercent ≤ telemetry'.diskPercent
  delayed : telemetry.delayed → telemetry'.delayed
  services : ∀ name state, telemetry.serviceStates.get? name = some state →
    ∃ state', telemetry'.serviceStates.get? name = some state' ∧ state.Worsens state'

/-- Every signal is carried over, but for a degraded service, which may have crashed, and the
scenario. -/
structure Carries (signals signals' : Finset String) : Prop where
  mem : ∀ signal ∈ signals, signal ≠ "degraded_service" → signal ≠ "device_active_scenario" →
    signal ∈ signals'
  degraded : "degraded_service" ∈ signals →
    "degraded_service" ∈ signals' ∨ "crashed_service" ∈ signals'

section Errors

variable {rt : SimulatorRuntime} {errors errors' : List PyDict}

theorem errorCodes_subset (h : errors <:+: errors') :
    errorCodes rt errors ⊆ errorCodes rt errors' :=
  List.map_subset _ h.subset

/-- A joined part is a part of what is joined. -/
theorem intercalate_mono {sep : String} {texts texts' : List String} (h : texts <:+: texts') :
    (sep.intercalate texts).toList <:+: (sep.intercalate texts').toList := by
  obtain ⟨before, behind, rfl⟩ := h
  by_cases hne : texts = []
  · rw [hne, String.intercalate_nil]
    exact List.nil_infix
  · have hfirst : (sep.intercalate texts).toList <:+:
        (sep.intercalate (before ++ texts)).toList := by
      by_cases hbefore : before = []
      · rw [hbefore, List.nil_append]
      · rw [String.intercalate_append_of_ne_nil hbefore hne, String.toList_append]
        exact (List.suffix_append ..).isInfix
    refine hfirst.trans ?_
    by_cases hbehind : behind = []
    · rw [hbehind, List.append_nil]
    · have hne' : before ++ texts ≠ [] := fun h => hne (List.append_eq_nil_iff.mp h).2
      rw [String.intercalate_append_of_ne_nil hne' hbehind, String.append_assoc,
        String.toList_append]
      exact (List.prefix_append ..).isInfix

theorem containsText_mono {needle : String} (h : errors <:+: errors')
    (hfound : containsText needle (joinedMessages rt errors)) :
    containsText needle (joinedMessages rt errors') := by
  rw [containsText, decide_eq_true_eq] at hfound ⊢
  exact hfound.trans (intercalate_mono (h.map _))

end Errors

section Monotone

variable {rt : SimulatorRuntime} {device device' : SimulatedDevice}
  {telemetry telemetry' : DeviceTelemetry} {errors errors' : List PyDict}

/-- A crashed service stays crashed. -/
theorem TelemetryWorsens.crashed (h : TelemetryWorsens telemetry telemetry')
    (hcrashed : telemetry.servicesIn .crashed ≠ []) : telemetry'.servicesIn .crashed ≠ [] := by
  obtain ⟨name, hname⟩ := List.exists_mem_of_ne_nil _ hcrashed
  obtain ⟨state', hstate', hworse⟩ := h.services name .crashed (mem_servicesIn.mp hname)
  have heq : state' = .crashed := by
    rcases hworse with heq | ⟨hrunning, -⟩ | ⟨hdegraded, -⟩
    · exact heq
    · cases hrunning
    · cases hdegraded
  exact List.ne_nil_of_mem (mem_servicesIn.mpr (heq ▸ hstate'))

/-- A degraded service stays degraded or crashes. -/
theorem TelemetryWorsens.degraded (h : TelemetryWorsens telemetry telemetry')
    (hdegraded : telemetry.servicesIn .degraded ≠ []) :
    telemetry'.servicesIn .degraded ≠ [] ∨ telemetry'.servicesIn .crashed ≠ [] := by
  obtain ⟨name, hname⟩ := List.exists_mem_of_ne_nil _ hdegraded
  obtain ⟨state', hstate', hworse⟩ := h.services name .degraded (mem_servicesIn.mp hname)
  rcases hworse with heq | ⟨hrunning, -⟩ | ⟨-, heq⟩
  · exact .inl (List.ne_nil_of_mem (mem_servicesIn.mpr (heq ▸ hstate')))
  · cases hrunning
  · exact .inr (List.ne_nil_of_mem (mem_servicesIn.mpr (heq ▸ hstate')))

theorem carries_collectEvidence (h : TelemetryWorsens telemetry telemetry')
    (herrors : errors <:+: errors') :
    Carries (matchedSignals (collectEvidence rt device telemetry errors))
      (matchedSignals (collectEvidence rt device' telemetry' errors')) where
  mem signal hsignal hdegraded hscenario := by
    rw [mem_collected] at hsignal ⊢
    -- the errors of the worse situation contain those of the other one
    have hcodes : errorCodes rt errors ⊆ errorCodes rt errors' := errorCodes_subset herrors
    have htexts : ∀ needle, containsText needle (joinedMessages rt errors) →
        containsText needle (joinedMessages rt errors') := fun _ => containsText_mono herrors
    -- one signal after another; each is a bound, a text or a service that remains
    rcases hsignal with ⟨hx, rfl⟩ | ⟨hx, rfl⟩ | ⟨hx, rfl⟩ | ⟨hx, rfl⟩ | ⟨hx, rfl⟩ | ⟨hx, rfl⟩ |
      ⟨hx, rfl⟩ | ⟨hx, rfl⟩ | ⟨hx, rfl⟩ | ⟨hx, rfl⟩ | ⟨hx, rfl⟩ | ⟨hx, rfl⟩ | ⟨hx, rfl⟩ |
      ⟨hx, rfl⟩
    · simp [hx.trans_le h.packetLoss]
    · simp [hx.imp (@hcodes _) (htexts _)]
    · simp [hx.trans_le h.cpu]
    · simp [hx.trans_le h.latency]
    · simp [hx.imp (@hcodes _) (htexts _)]
    · simp [hx.trans_le h.memory]
    · simp [h.crashed hx]
    · exact absurd rfl hdegraded
    · simp [htexts _ hx]
    · simp [hcodes hx]
    · simp [h.delayed hx]
    · simp [hx.trans_le h.disk]
    · simp [hx.trans_le h.temperature]
    · exact absurd rfl hscenario
  degraded hsignal := by
    simp only [mem_collected] at hsignal ⊢
    have hservices : telemetry.servicesIn .degraded ≠ [] := by simpa using hsignal
    simpa using h.degraded hservices

/-- Critical stays critical. -/
theorem severity_critical_mono {evidence evidence' : List DiagnosticEvidence}
    (h : Carries (matchedSignals evidence) (matchedSignals evidence'))
    (hcritical : severity evidence = .critical) : severity evidence' = .critical := by
  rw [severity_eq_critical_iff] at hcritical ⊢
  rcases hcritical with ⟨hloss, htimeout⟩ | hcrashed | hcpu | htemperature
  · exact .inl ⟨h.mem _ hloss (by decide) (by decide), h.mem _ htimeout (by decide) (by decide)⟩
  · exact .inr (.inl (h.mem _ hcrashed (by decide) (by decide)))
  · exact .inr (.inr (.inl (h.mem _ hcpu (by decide) (by decide))))
  · exact .inr (.inr (.inr (h.mem _ htemperature (by decide) (by decide))))

/-- A warning stays one, or becomes critical. -/
theorem severity_info_mono {evidence evidence' : List DiagnosticEvidence}
    (h : Carries (matchedSignals evidence) (matchedSignals evidence'))
    (hinfo : severity evidence' = .info) : severity evidence = .info := by
  rw [severity_eq_info_iff] at hinfo ⊢
  obtain ⟨hnot, hnone⟩ := hinfo
  refine ⟨fun hcritical => hnot (severity_critical_mono h hcritical), fun signal hsignal hmem => ?_⟩
  by_cases hdegraded : signal = "degraded_service"
  · subst hdegraded
    rcases h.degraded hmem with hstill | hcrashed
    · exact hnone _ hsignal hstill
    · exact hnot (severity_eq_critical_iff.mpr (.inr (.inl hcrashed)))
  · have hscenario : signal ≠ "device_active_scenario" := by
      rintro rfl
      exact absurd hsignal (by decide)
    exact hnone signal hsignal (h.mem signal hmem hdegraded hscenario)

theorem severity_rank_mono {evidence evidence' : List DiagnosticEvidence}
    (h : Carries (matchedSignals evidence) (matchedSignals evidence')) :
    (severity evidence).rank ≤ (severity evidence').rank := by
  cases hseverity : severity evidence' with
  | info => rw [severity_info_mono h hseverity]
  | warning =>
      cases hseverity' : severity evidence with
      | critical =>
          rw [severity_critical_mono h hseverity'] at hseverity
          cases hseverity
      | info => decide
      | warning => decide
  | critical => cases severity evidence <;> decide

/-- No rule looks for the absence of a signal, or for the two that may be lost. -/
theorem condition_mono {rule : DiagnosticRule} (hrule : rule ∈ diagnosticRules)
    {matched matched' : Finset String} (h : Carries matched matched')
    (hcondition : rule.condition matched) : rule.condition matched' := by
  have hmem : ∀ signal, signal ≠ "degraded_service" → signal ≠ "device_active_scenario" →
      signal ∈ matched → signal ∈ matched' :=
    fun signal hdegraded hscenario hsignal => h.mem signal hsignal hdegraded hscenario
  simp only [diagnosticRules, List.mem_cons, List.not_mem_nil, or_false] at hrule
  rcases hrule with rfl | rfl | rfl | rfl | rfl | rfl | rfl
  all_goals
    simp only [decide_eq_true_eq, Bool.and_eq_true, Bool.or_eq_true, Finset.insert_subset_iff,
      Finset.singleton_subset_iff] at hcondition ⊢
  · exact hcondition.imp (hmem _ (by decide) (by decide)) (hmem _ (by decide) (by decide))
  · exact hcondition.imp (hmem _ (by decide) (by decide))
      (Or.imp (hmem _ (by decide) (by decide)) (hmem _ (by decide) (by decide)))
  · exact hcondition.imp (hmem _ (by decide) (by decide)) (hmem _ (by decide) (by decide))
  · exact hmem _ (by decide) (by decide) hcondition
  · exact hmem _ (by decide) (by decide) hcondition
  · exact hmem _ (by decide) (by decide) hcondition
  · exact hmem _ (by decide) (by decide) hcondition

end Monotone

section Reports

variable {rt : DiagnosticsRuntime} {device device' : SimulatedDevice}
  {telemetry telemetry' : DeviceTelemetry}
  {recentErrors recentErrors' incidents incidents' : List PyDict}
  {references references' : Option (List PyDict)} {report report' : DiagnosticReport}

/-- The severity and the causes of a report. -/
theorem diagnose_eq_ok (h : diagnose rt device telemetry recentErrors incidents references =
    .ok report) :
    report.severity =
        severity (collectEvidence rt.toSimulatorRuntime device telemetry recentErrors) ∧
      report.possibleCauses = possibleCauses (matchedSignals
        (collectEvidence rt.toSimulatorRuntime device telemetry recentErrors)) := by
  rw [diagnose] at h
  cases hrelated : relatedIncidents rt incidents (matchedSignals
      (collectEvidence rt.toSimulatorRuntime device telemetry recentErrors)) with
  | error e =>
      simp only [hrelated, bind, Except.bind] at h
      cases h
  | ok related =>
      cases hreferences : diagnosticReferences rt.toSimulatorRuntime (references.getD [])
          (matchedSignals
            (collectEvidence rt.toSimulatorRuntime device telemetry recentErrors)) with
      | error e =>
          simp only [hrelated, hreferences, bind, Except.bind] at h
          cases h
      | ok found =>
          simp only [hrelated, hreferences, bind, Except.bind, Except.ok.injEq] at h
          rw [← h]
          exact ⟨rfl, rfl⟩

/-- Where everything is as bad as before or worse, the severity is no lower and no cause is taken
back. -/
theorem diagnose_mono (hworse : TelemetryWorsens telemetry telemetry')
    (herrors : recentErrors <:+: recentErrors')
    (h : diagnose rt device telemetry recentErrors incidents references = .ok report)
    (h' : diagnose rt device' telemetry' recentErrors' incidents' references' = .ok report') :
    report.severity.rank ≤ report'.severity.rank ∧
      ∀ cause ∈ report.possibleCauses, cause ≠ noRuleMatched → cause ∈ report'.possibleCauses := by
  obtain ⟨hseverity, hcauses⟩ := diagnose_eq_ok h
  obtain ⟨hseverity', hcauses'⟩ := diagnose_eq_ok h'
  have hcarries : Carries
      (matchedSignals (collectEvidence rt.toSimulatorRuntime device telemetry recentErrors))
      (matchedSignals (collectEvidence rt.toSimulatorRuntime device' telemetry' recentErrors')) :=
    carries_collectEvidence hworse herrors
  rw [hseverity, hseverity', hcauses, hcauses']
  refine ⟨severity_rank_mono hcarries, fun cause hcause hne => ?_⟩
  obtain ⟨rule, hrule, hcondition, rfl⟩ := (mem_possibleCauses hne).mp hcause
  exact (mem_possibleCauses hne).mpr ⟨rule, hrule, condition_mono hrule hcarries hcondition, rfl⟩

end Reports

/-! ### A device that fails -/

/-- Library functions for small examples. -/
def DiagnosticsRuntime.plain : DiagnosticsRuntime where
  toSimulatorRuntime := .plain
  round2 := id

/-- Telemetry of a device with one service, which answers in 25 ms. -/
def quietTelemetry : DeviceTelemetry where
  telemetryId := 0
  deviceId := "SIM-001"
  timestamp := 0
  cpuPercent := 25
  memoryPercent := 35
  temperatureC := 38
  networkLatencyMs := 25
  packetLossPercent := 0
  diskPercent := 45
  uptimeSeconds := 0
  serviceStates := Dict.empty.set "telemetry-agent" .degraded

/-- The device once its disk is full and its service has crashed. -/
def failingTelemetry : DeviceTelemetry :=
  { quietTelemetry with
    diskPercent := 91
    serviceStates := Dict.empty.set "telemetry-agent" .crashed }

theorem worsens_failingTelemetry : TelemetryWorsens quietTelemetry failingTelemetry where
  cpu := le_rfl
  memory := le_rfl
  temperature := le_rfl
  latency := le_rfl
  packetLoss := le_rfl
  disk := by decide
  delayed := id
  services name state hstate := by
    have hentry := Dict.get?_eq_some_iff.mp hstate
    obtain ⟨rfl, rfl⟩ := Prod.mk.inj (List.mem_singleton.mp hentry)
    exact ⟨.crashed, rfl, .inr (.inr ⟨rfl, rfl⟩)⟩

theorem diagnose_without_incidents (rt : DiagnosticsRuntime) (device : SimulatedDevice)
    (telemetry : DeviceTelemetry) (recentErrors : List PyDict) :
    ∃ report, diagnose rt device telemetry recentErrors [] none = .ok report := ⟨_, rfl⟩

/-- The two reports of the failing device. -/
theorem diagnose_failingTelemetry :
    ∃ report report',
      diagnose .plain simDevice quietTelemetry [] [] none = .ok report ∧
      diagnose .plain simDevice failingTelemetry [] [] none = .ok report' ∧
      report.severity.rank ≤ report'.severity.rank ∧
      ∀ cause ∈ report.possibleCauses, cause ≠ noRuleMatched →
        cause ∈ report'.possibleCauses := by
  obtain ⟨report, h⟩ := diagnose_without_incidents .plain simDevice quietTelemetry []
  obtain ⟨report', h'⟩ := diagnose_without_incidents .plain simDevice failingTelemetry []
  exact ⟨report, report', h, h', diagnose_mono worsens_failingTelemetry List.infix_rfl h h'⟩

/-! ## Two assessments of the same telemetry -/

section Assessments

variable {rt : SimulatorRuntime} {device : SimulatedDevice} {telemetry : DeviceTelemetry}

/-- The readings of telemetry. -/
def DeviceTelemetry.readings (telemetry : DeviceTelemetry) : Readings where
  cpu := .finite telemetry.cpuPercent
  memory := .finite telemetry.memoryPercent
  temperature := .finite telemetry.temperatureC
  latency := .finite telemetry.networkLatencyMs
  packetLoss := .finite telemetry.packetLossPercent
  disk := .finite telemetry.diskPercent
  delayed := telemetry.delayed
  states := telemetry.serviceStates.values

theorem serviceState_value (rt : SimulatorRuntime) (state : ServiceState) :
    serviceState rt (.str state.value) = .ok state := by
  cases state <;> rfl

/-- The consumer reads from a payload what the telemetry says. -/
theorem readPayload_asPayload (rt : SimulatorRuntime) (telemetry : DeviceTelemetry) :
    readPayload rt (telemetry.asPayload rt) = .ok telemetry.readings := by
  rw [readPayload_eq_ok_iff]
  refine ⟨rfl, rfl, rfl, rfl, rfl, rfl, rfl, ?_⟩
  have hentries : ∀ entries : List (String × ServiceState),
      (entries.map fun entry => (entry.1, Value.str entry.2.value)).mapM
        (fun entry => serviceState rt entry.2) = .ok (entries.map Prod.snd) := by
    intro entries
    induction entries with
    | nil => rfl
    | cons entry rest ih =>
        rw [List.map_cons, List.mapM_cons, serviceState_value, ih]
        rfl
  exact hentries telemetry.serviceStates.entries

theorem ge_finite (q bound : ℚ) : (PyFloat.finite q).ge bound ↔ bound ≤ q := by
  simp only [PyFloat.ge, PyFloat.lt, PyFloat.eq, Bool.or_eq_true, decide_eq_true_eq]
  rw [le_iff_lt_or_eq, eq_comm (a := q)]

theorem contains_values {state : ServiceState} :
    telemetry.serviceStates.values.contains state ↔ telemetry.servicesIn state ≠ [] := by
  rw [List.contains_iff_mem, Dict.mem_values]
  constructor
  · rintro ⟨name, hname⟩
    exact List.ne_nil_of_mem (mem_servicesIn.mpr hname)
  · intro hne
    obtain ⟨name, hname⟩ := List.exists_mem_of_ne_nil _ hne
    exact ⟨name, mem_servicesIn.mp hname⟩

/-- When the health is critical. -/
theorem critical_readings_iff :
    telemetry.readings.critical ↔
      95 ≤ telemetry.cpuPercent ∨ 95 ≤ telemetry.memoryPercent ∨
      3000 ≤ telemetry.networkLatencyMs ∨ 50 ≤ telemetry.packetLossPercent ∨
      80 ≤ telemetry.temperatureC ∨ telemetry.servicesIn .crashed ≠ [] := by
  simp only [Readings.critical, Bool.or_eq_true, or_assoc]
  rw [← contains_values]
  simp only [DeviceTelemetry.readings, ge_finite]

/-- When the health is a warning at least. -/
theorem warning_readings_iff :
    telemetry.readings.warning ↔
      85 ≤ telemetry.cpuPercent ∨ 85 ≤ telemetry.memoryPercent ∨
      10 ≤ telemetry.packetLossPercent ∨ 85 ≤ telemetry.diskPercent ∨ telemetry.delayed ∨
      telemetry.servicesIn .degraded ≠ [] ∨ telemetry.servicesIn .stopped ≠ [] := by
  simp only [Readings.warning, Bool.or_eq_true, or_assoc]
  rw [← contains_values, ← contains_values]
  simp only [DeviceTelemetry.readings, ge_finite]

/-- When the severity is critical, without errors. -/
theorem severity_critical_iff :
    severity (collectEvidence rt device telemetry []) = .critical ↔
      telemetry.servicesIn .crashed ≠ [] ∨ 90 < telemetry.cpuPercent ∨
        80 < telemetry.temperatureC := by
  have htimeout : containsText "timeout" (joinedMessages rt []) = false := rfl
  rw [severity_eq_critical_iff]
  simp [mem_collected, errorCodes, htimeout]

/-- When the severity is the least, without errors. -/
theorem severity_info_iff :
    severity (collectEvidence rt device telemetry []) = .info ↔
      ¬(telemetry.servicesIn .crashed ≠ [] ∨ 90 < telemetry.cpuPercent ∨
        80 < telemetry.temperatureC) ∧
      ¬(90 < telemetry.memoryPercent ∨ 85 < telemetry.diskPercent ∨ telemetry.delayed ∨
        telemetry.servicesIn .degraded ≠ []) := by
  have hcrash : containsText "crash" (joinedMessages rt []) = false := rfl
  rw [severity_eq_info_iff, ne_eq, severity_critical_iff]
  simp [warningSignals, mem_collected, errorCodes, hcrash]

theorem health_asPayload (status : DeviceStatus) :
    (∃ score, evaluateHealth rt (telemetry.asPayload rt) = .ok (status, score)) ↔
      telemetry.readings.health.1 = status := by
  rw [evaluateHealth_eq, readPayload_asPayload, Except.map]
  simp only [Except.ok.injEq, Prod.ext_iff, exists_and_left, exists_eq', and_true]

theorem health_eq_critical_iff (r : Readings) : r.health.1 = .critical ↔ r.critical := by
  rw [Readings.health]
  cases r.critical <;> cases r.warning <;> simp

/-- Healthy telemetry without errors is of the least severity. -/
theorem severity_of_healthy (h : telemetry.readings.health.1 = .healthy) :
    severity (collectEvidence rt device telemetry []) = .info := by
  rw [Readings.health_eq_healthy_iff, ← Bool.not_eq_true, ← Bool.not_eq_true,
    critical_readings_iff, warning_readings_iff] at h
  obtain ⟨hcritical, hwarning⟩ := h
  rw [severity_info_iff]
  push Not at hcritical hwarning ⊢
  obtain ⟨hcpu, -, -, -, htemperature, hcrashed⟩ := hcritical
  obtain ⟨hcpu', hmemory, -, hdisk, hdelayed, hdegraded, -⟩ := hwarning
  refine ⟨⟨hcrashed, ?_, htemperature.le⟩, ?_, hdisk.le, hdelayed, hdegraded⟩
  · exact hcpu'.le.trans (by decide)
  · exact hmemory.le.trans (by decide)

end Assessments

/-- The thresholds of the two assessments lead to the same answer: both see a critical condition,
or neither. -/
def DeviceTelemetry.AssessedAlike (telemetry : DeviceTelemetry) : Prop :=
  telemetry.servicesIn .crashed ≠ [] ∨ 80 < telemetry.temperatureC ∨ 95 ≤ telemetry.cpuPercent ∨
  (90 < telemetry.cpuPercent ∧
    (95 ≤ telemetry.memoryPercent ∨ 3000 ≤ telemetry.networkLatencyMs ∨
      50 ≤ telemetry.packetLossPercent ∨ 80 ≤ telemetry.temperatureC)) ∨
  (telemetry.cpuPercent ≤ 90 ∧ telemetry.memoryPercent < 95 ∧ telemetry.networkLatencyMs < 3000 ∧
    telemetry.packetLossPercent < 50 ∧ telemetry.temperatureC < 80)

/-- The two critical conditions against each other. -/
theorem assessedAlike_iff {telemetry : DeviceTelemetry} :
    (telemetry.readings.critical ↔
      (telemetry.servicesIn .crashed ≠ [] ∨ 90 < telemetry.cpuPercent ∨
        80 < telemetry.temperatureC)) ↔ telemetry.AssessedAlike := by
  rw [critical_readings_iff, DeviceTelemetry.AssessedAlike]
  by_cases hcrashed : telemetry.servicesIn .crashed ≠ []
  · simp [hcrashed]
  by_cases hhot : 80 < telemetry.temperatureC
  · simp only [hhot, hhot.le, true_or, or_true]
  by_cases hbusy : 90 < telemetry.cpuPercent
  · simp only [hcrashed, hhot, hbusy, hbusy.not_ge, false_or, or_false, or_true, true_and,
      false_and, iff_true]
  · have hcpu : ¬95 ≤ telemetry.cpuPercent := fun h => hbusy (lt_of_lt_of_le (by decide) h)
    simp only [hcrashed, hhot, hbusy, hcpu, not_lt.mp hbusy, false_or, or_false, false_and,
      true_and, iff_false, not_or, not_le]

/-- The health and the severity do not contradict each other exactly where the thresholds lead to
the same answer. -/
theorem assessments_agree_iff {rt : DiagnosticsRuntime} {device : SimulatedDevice}
    {telemetry : DeviceTelemetry} {incidents : List PyDict} {references : Option (List PyDict)}
    {report : DiagnosticReport}
    (h : diagnose rt device telemetry [] incidents references = .ok report) :
    (((∃ score, evaluateHealth rt.toSimulatorRuntime (telemetry.asPayload rt.toSimulatorRuntime) =
          .ok (.healthy, score)) → report.severity = .info) ∧
      ((∃ score, evaluateHealth rt.toSimulatorRuntime (telemetry.asPayload rt.toSimulatorRuntime) =
          .ok (.critical, score)) ↔ report.severity = .critical)) ↔
      telemetry.AssessedAlike := by
  rw [(diagnose_eq_ok h).1, health_asPayload, health_asPayload, health_eq_critical_iff,
    severity_critical_iff, assessedAlike_iff]
  exact and_iff_right severity_of_healthy

/-- Telemetry of a device that the network does not reach. -/
def unreachableTelemetry : DeviceTelemetry :=
  applyScenarioToTelemetry quietTelemetry .networkTimeout

/-- The equivalence for the unreachable device. -/
theorem assessments_agree_unreachable :
    ∃ report, diagnose .plain simDevice unreachableTelemetry [] [] none = .ok report ∧
      ((((∃ score, evaluateHealth .plain (unreachableTelemetry.asPayload .plain) =
            .ok (.healthy, score)) → report.severity = .info) ∧
        ((∃ score, evaluateHealth .plain (unreachableTelemetry.asPayload .plain) =
            .ok (.critical, score)) ↔ report.severity = .critical)) ↔
        unreachableTelemetry.AssessedAlike) := by
  obtain ⟨report, h⟩ := diagnose_without_incidents .plain simDevice unreachableTelemetry []
  exact ⟨report, h, assessments_agree_iff h⟩

/-- The unreachable device is critical, and its diagnosis a warning. -/
theorem unreachable_assessed_differently :
    ¬ ∀ (rt : DiagnosticsRuntime) (device : SimulatedDevice) (telemetry : DeviceTelemetry)
      (report : DiagnosticReport), diagnose rt device telemetry [] [] none = .ok report →
      ((∃ score, evaluateHealth rt.toSimulatorRuntime (telemetry.asPayload rt.toSimulatorRuntime) =
          .ok (.healthy, score)) → report.severity = .info) ∧
      ((∃ score, evaluateHealth rt.toSimulatorRuntime (telemetry.asPayload rt.toSimulatorRuntime) =
          .ok (.critical, score)) ↔ report.severity = .critical) := by
  intro hclaim
  obtain ⟨report, h⟩ := diagnose_without_incidents .plain simDevice unreachableTelemetry []
  have hcritical := (hclaim .plain simDevice unreachableTelemetry report h).2.mp ⟨18, rfl⟩
  rw [(diagnose_eq_ok h).1, severity_critical_iff] at hcritical
  exact absurd hcritical (by decide)

end McpOps
