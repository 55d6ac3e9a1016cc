import McpOps.Policy.Registration

/-!
# Conflicting registrations

With a digest without collisions two fingerprints are equal exactly when the fields that they
cover are.  A second registration under a name is told from the first by these fields, and by no
others.

`fingerprint_eq_iff` takes the fingerprint back to its payload.  The payload is hashed as JSON
with sorted keys, and equal sorted dictionaries have the same entries (`entry_of_sortKeys`), so
each field can be read off.

The fields that matter for security (`SecurityFields`) are more than those that are covered.
Behind equal fingerprints only the uncovered ones are left to compare (`securityFields_eq_iff`).

A registration under a present name leaves the registry as it is, whether it succeeds or not
(`RegistryState.register_unchanged`), and it succeeds exactly for an equal fingerprint
(`RegistryState.register_eq_ok_iff`).  `detectsConflict_iff` puts the two together, and the
example registers a tool again with other limits.
-/

namespace McpOps

/-! ## What a fingerprint determines -/

/-- The fields that a fingerprint covers. -/
structure FingerprintedFields where
  toolName : String
  domain : String
  description : String
  riskLevel : RiskLevel
  requiredPermission : String
  requiresApproval : Bool
  server : String
  category : String
  requiredRoles : List String
  executable : Bool
  enabled : Bool
  deriving DecidableEq

def RegisteredTool.fingerprintedFields (m : RegisteredTool) : FingerprintedFields where
  toolName := m.toolName
  domain := m.domain
  description := m.description
  riskLevel := m.riskLevel
  requiredPermission := m.requiredPermission
  requiresApproval := m.requiresApproval
  server := m.server
  category := m.category
  requiredRoles := m.requiredRoles
  executable := m.executable
  enabled := m.enabled

/-- What is hashed for a fingerprint. -/
def FingerprintedFields.payload (f : FingerprintedFields) : PyDict :=
  [("tool_name", .str f.toolName), ("domain", .str f.domain),
    ("description", .str f.description), ("risk_level", .str f.riskLevel.value),
    ("required_permission", .str f.requiredPermission),
    ("requires_approval", .bool f.requiresApproval), ("server", .str f.server),
    ("category", .str f.category), ("required_roles", .ofTexts f.requiredRoles),
    ("executable", .bool f.executable), ("enabled", .bool f.enabled)]

theorem fingerprintMetadata_eq (rt : Runtime) (m : RegisteredTool) :
    fingerprintMetadata rt m.modelDump = rt.digest (.dict m.fingerprintedFields.payload) := rfl

theorem sortEntries_eq_map (d : PyDict) :
    sortEntries d = d.map fun entry => (entry.1, sortKeys entry.2) := by
  induction d with
  | nil => rfl
  | cons entry rest ih =>
      obtain ⟨key, v⟩ := entry
      rw [sortEntries, ih, List.map_cons]

/-- Equal sorted dictionaries have the same entries. -/
theorem entry_of_sortKeys {d e : PyDict} (h : sortKeys (.dict d) = sortKeys (.dict e))
    {entry : String × Value} (hentry : entry ∈ d) :
    ∃ entry' ∈ e, entry'.1 = entry.1 ∧ sortKeys entry'.2 = sortKeys entry.2 := by
  rw [sortKeys, sortKeys, Value.dict.injEq] at h
  have hperm : (sortEntries d).Perm (sortEntries e) := by
    have hsorted := List.perm_insertionSort (fun a b => ¬b.1 < a.1) (sortEntries d)
    rw [h] at hsorted
    exact hsorted.symm.trans (List.perm_insertionSort _ _)
  have hmem : (entry.1, sortKeys entry.2) ∈ sortEntries d := by
    rw [sortEntries_eq_map]
    exact List.mem_map.mpr ⟨entry, hentry, rfl⟩
  rw [hperm.mem_iff, sortEntries_eq_map] at hmem
  obtain ⟨entry', hentry', heq⟩ := List.mem_map.mp hmem
  rw [Prod.mk.injEq] at heq
  exact ⟨entry', hentry', heq⟩

theorem sortKeys_ofTexts (texts : List String) : sortKeys (.ofTexts texts) = .ofTexts texts := by
  have hitems : ∀ texts : List String, sortItems (texts.map .str) = texts.map .str := by
    intro texts
    induction texts with
    | nil => rfl
    | cons text rest ih =>
        rw [List.map_cons, sortItems, ih]
        rfl
  rw [Value.ofTexts, sortKeys, hitems]

theorem ofTexts_injective {texts texts' : List String}
    (h : Value.ofTexts texts = Value.ofTexts texts') : texts = texts' := by
  rw [Value.ofTexts, Value.ofTexts, Value.list.injEq] at h
  exact List.map_injective_iff.mpr (fun _ _ heq => Value.str.inj heq) h

theorem RiskLevel.value_injective {r r' : RiskLevel} (h : r.value = r'.value) : r = r' := by
  have hsome : ofValue? r.value = ofValue? r'.value := by rw [h]
  rwa [RiskLevel.ofValue?_value, RiskLevel.ofValue?_value, Option.some.injEq] at hsome

section Fingerprints

variable {rt : Runtime} {floatText : PyFloat → List Char} {sha256 : String → String}

/-- Fingerprints are equal exactly when the fields that they cover are. -/
theorem fingerprint_eq_iff (h : DigestsDistinct rt floatText sha256) (m m' : RegisteredTool) :
    fingerprintMetadata rt m.modelDump = fingerprintMetadata rt m'.modelDump ↔
      m.fingerprintedFields = m'.fingerprintedFields := by
  rw [fingerprintMetadata_eq, fingerprintMetadata_eq]
  refine ⟨fun heq => ?_, fun heq => by rw [heq]⟩
  have hsorted := sortKeys_of_digest h heq
  generalize m.fingerprintedFields = f at hsorted
  generalize m'.fingerprintedFields = f' at hsorted
  have hfield : ∀ entry ∈ f.payload, ∃ entry' ∈ f'.payload,
      entry'.1 = entry.1 ∧ sortKeys entry'.2 = sortKeys entry.2 :=
    fun entry hentry => entry_of_sortKeys hsorted hentry
  simp only [FingerprintedFields.payload, List.mem_cons, List.not_mem_nil, or_false,
    forall_eq_or_imp, forall_eq, exists_eq_or_imp, exists_eq_left, String.reduceEq, false_and,
    true_and, false_or, sortKeys, sortKeys_ofTexts, Value.str.injEq, Value.bool.injEq] at hfield
  obtain ⟨hname, hdomain, hdescription, hrisk, hpermission, happroval, hserver, hcategory, hroles,
    hexecutable, henabled⟩ := hfield
  cases f
  cases f'
  rw [FingerprintedFields.mk.injEq]
  exact ⟨hname.symm, hdomain.symm, hdescription.symm, (RiskLevel.value_injective hrisk).symm,
    hpermission.symm, happroval.symm, hserver.symm, hcategory.symm, (ofTexts_injective hroles).symm,
    hexecutable.symm, henabled.symm⟩

end Fingerprints

/-! ## Fields that matter for security -/

/-- The fields of metadata that matter for security. -/
structure SecurityFields where
  description : String
  riskLevel : RiskLevel
  requiredPermission : String
  requiresApproval : Bool
  server : String
  requiredRoles : List String
  executable : Bool
  serverTrustLevel : ServerTrustLevel
  rateLimit : String
  timeoutSeconds : ℕ
  idempotent : Bool
  retrySafe : Bool
  defaultMaxRetries : ℕ
  retryStrategy : RetryStrategy
  compensationTool : Option String
  inputResourceTypes : List String
  outputResourceTypes : List String
  preconditions : List String
  deriving DecidableEq

def RegisteredTool.securityFields (m : RegisteredTool) : SecurityFields where
  description := m.description
  riskLevel := m.riskLevel
  requiredPermission := m.requiredPermission
  requiresApproval := m.requiresApproval
  server := m.server
  requiredRoles := m.requiredRoles
  executable := m.executable
  serverTrustLevel := m.serverTrustLevel
  rateLimit := m.rateLimit
  timeoutSeconds := m.timeoutSeconds
  idempotent := m.idempotent
  retrySafe := m.retrySafe
  defaultMaxRetries := m.defaultMaxRetries
  retryStrategy := m.retryStrategy
  compensationTool := m.compensationTool
  inputResourceTypes := m.inputResourceTypes
  outputResourceTypes := m.outputResourceTypes
  preconditions := m.preconditions

/-- Agreement in the fields that matter for security and that no fingerprint covers. -/
structure UncoveredAgree (m m' : RegisteredTool) : Prop where
  serverTrustLevel : m.serverTrustLevel = m'.serverTrustLevel
  rateLimit : m.rateLimit = m'.rateLimit
  timeoutSeconds : m.timeoutSeconds = m'.timeoutSeconds
  idempotent : m.idempotent = m'.idempotent
  retrySafe : m.retrySafe = m'.retrySafe
  defaultMaxRetries : m.defaultMaxRetries = m'.defaultMaxRetries
  retryStrategy : m.retryStrategy = m'.retryStrategy
  compensationTool : m.compensationTool = m'.compensationTool
  inputResourceTypes : m.inputResourceTypes = m'.inputResourceTypes
  outputResourceTypes : m.outputResourceTypes = m'.outputResourceTypes
  preconditions : m.preconditions = m'.preconditions

/-- Behind equal fingerprints only the uncovered fields are left to compare. -/
theorem securityFields_eq_iff {m m' : RegisteredTool}
    (h : m.fingerprintedFields = m'.fingerprintedFields) :
    m.securityFields = m'.securityFields ↔ UncoveredAgree m m' := by
  simp only [RegisteredTool.fingerprintedFields, FingerprintedFields.mk.injEq] at h
  obtain ⟨-, -, hdescription, hrisk, hpermission, happroval, hserver, -, hroles, hexecutable, -⟩ :=
    h
  simp only [RegisteredTool.securityFields, SecurityFields.mk.injEq]
  constructor
  · rintro ⟨-, -, -, -, -, -, -, htrust, hrate, htimeout, hidempotent, hsafe, hretries, hstrategy,
      hcompensation, hinput, houtput, hpreconditions⟩
    exact ⟨htrust, hrate, htimeout, hidempotent, hsafe, hretries, hstrategy, hcompensation, hinput,
      houtput, hpreconditions⟩
  · rintro ⟨htrust, hrate, htimeout, hidempotent, hsafe, hretries, hstrategy, hcompensation, hinput,
      houtput, hpreconditions⟩
    exact ⟨hdescription, hrisk, hpermission, happroval, hserver, hroles, hexecutable, htrust, hrate,
      htimeout, hidempotent, hsafe, hretries, hstrategy, hcompensation, hinput, houtput,
      hpreconditions⟩

/-! ## A second registration -/

section Registrations

variable {rt : Runtime} {c : Registration} {s : RegistryState rt}
  {metadata existing : RegisteredTool}

/-- What `_register` builds carries its own fingerprint. -/
theorem Registration.fingerprint_metadata (h : c.metadata rt = .ok metadata) :
    metadata.metadataFingerprint = fingerprintMetadata rt metadata.modelDump := by
  rw [Registration.metadata] at h
  cases hidentity : validateToolIdentity c.toolName c.resolvedServer with
  | error e =>
      rw [hidentity] at h
      cases h
  | ok done =>
      simp only [hidentity, bind, Except.bind] at h
      split at h
      · cases h
      · split at h
        · cases h
        · split at h
          · cases h
            rfl
          · cases h

/-- A registration under a present name leaves the registry as it is. -/
theorem RegistryState.register_unchanged (h : s.tools.get? c.toolName = some existing) :
    (s.register c).2 = s := by
  rw [RegistryState.register]
  split
  · rfl
  · rw [h]
    dsimp only
    split <;> rfl

theorem RegisteredTool.fingerprinted_fingerprinted (rt : Runtime) (m : RegisteredTool) :
    (m.fingerprinted rt).fingerprinted rt = m.fingerprinted rt := rfl

/-- A registration under a new name. -/
theorem RegistryState.get?_register (h : s.tools.get? c.toolName = none)
    (hmetadata : c.metadata rt = .ok metadata) :
    (s.register c).2.tools.get? c.toolName = some (metadata.fingerprinted rt) := by
  rw [RegistryState.register, hmetadata]
  simp only [h, RegistryState.store, Dict.get?_set_self]

/-- When a registration under a present name succeeds. -/
theorem RegistryState.register_eq_ok_iff (h : s.tools.get? c.toolName = some existing) :
    (s.register c).1 = .ok () ↔ ∃ metadata, c.metadata rt = .ok metadata ∧
      fingerprintMetadata rt existing.modelDump = fingerprintMetadata rt metadata.modelDump := by
  cases hmetadata : c.metadata rt with
  | error e =>
      rw [RegistryState.register, hmetadata]
      exact iff_of_false (fun h => by cases h) fun ⟨_, h, _⟩ => by cases h
  | ok metadata =>
      rw [← s.fingerprints _ _ h, RegistryState.register, hmetadata]
      simp only [h, Except.ok.injEq, exists_eq_left', ← c.fingerprint_metadata hmetadata]
      by_cases heq : existing.metadataFingerprint = metadata.metadataFingerprint
      · simp [heq]
      · simp [heq]

end Registrations

/-- A registration under a present name succeeds only with the registered metadata, as far as they
matter for security, and leaves the registry as it is. -/
def DetectsConflict {rt : Runtime} (s : RegistryState rt) (c : Registration)
    (existing : RegisteredTool) : Prop :=
  ((s.register c).1 = .ok () → ∃ metadata, c.metadata rt = .ok metadata ∧
    metadata.securityFields = existing.securityFields) ∧ (s.register c).2 = s

/-- A conflict is detected exactly when the metadata differ in a field that the fingerprint covers,
or agree in the others. -/
theorem detectsConflict_iff {rt : Runtime} {floatText : PyFloat → List Char}
    {sha256 : String → String} (h : DigestsDistinct rt floatText sha256) {s : RegistryState rt}
    {c : Registration} {existing : RegisteredTool}
    (hexisting : s.tools.get? c.toolName = some existing) :
    DetectsConflict s c existing ↔ ∀ metadata, c.metadata rt = .ok metadata →
      metadata.fingerprintedFields ≠ existing.fingerprintedFields ∨
        UncoveredAgree metadata existing := by
  rw [DetectsConflict, and_iff_left (s.register_unchanged hexisting),
    RegistryState.register_eq_ok_iff hexisting]
  constructor
  · intro hdetects metadata hmetadata
    by_cases hfields : metadata.fingerprintedFields = existing.fingerprintedFields
    · obtain ⟨metadata', hmetadata', hsecurity⟩ :=
        hdetects ⟨metadata, hmetadata, (fingerprint_eq_iff h _ _).mpr hfields.symm⟩
      rw [hmetadata, Except.ok.injEq] at hmetadata'
      subst hmetadata'
      exact .inr ((securityFields_eq_iff hfields).mp hsecurity)
    · exact .inl hfields
  · rintro hcondition ⟨metadata, hmetadata, hfingerprint⟩
    have hfields := ((fingerprint_eq_iff h _ _).mp hfingerprint).symm
    have hagree := (hcondition metadata hmetadata).resolve_left fun hne => hne hfields
    exact ⟨metadata, hmetadata, (securityFields_eq_iff hfields).mpr hagree⟩

/-! ### A tool registered again with another time limit -/

/-- The registration of `restart_device`, with a time limit and a rate limit. -/
def restartRegistration (timeoutSeconds : ℤ) (rateLimit : String) : Registration where
  toolName := "restart_device"
  domain := "device"
  description := "Request a governed simulator device restart."
  riskLevel := .high
  requiredPermission := "devices:operate"
  requiresApproval := true
  timeoutSeconds
  rateLimit

/-- The metadata that are built from it. -/
def restartMetadata (timeoutSeconds : ℤ) (rateLimit : String) : RegisteredTool :=
  ((restartRegistration timeoutSeconds rateLimit).build .transparent .noRetry).fingerprinted
    .transparent

theorem metadata_restart : (restartRegistration 10 "5/minute").metadata .transparent =
    .ok (restartMetadata 10 "5/minute") := rfl

theorem metadata_restart_lax : (restartRegistration 120 "10000/minute").metadata .transparent =
    .ok (restartMetadata 120 "10000/minute") := rfl

/-- The registry once the tool has been registered. -/
def restartRegistry : RegistryState .transparent :=
  (RegistryState.empty.register (restartRegistration 10 "5/minute")).2

theorem get?_restartRegistry :
    restartRegistry.tools.get? "restart_device" = some (restartMetadata 10 "5/minute") := by
  have hstored := RegistryState.get?_register (s := RegistryState.empty)
    (c := restartRegistration 10 "5/minute") rfl metadata_restart
  rwa [restartMetadata, RegisteredTool.fingerprinted_fingerprinted] at hstored

/-- The equivalence for the tool with another time limit. -/
theorem detectsConflict_restart_iff :
    DetectsConflict restartRegistry (restartRegistration 120 "10000/minute")
        (restartMetadata 10 "5/minute") ↔
      ∀ metadata, (restartRegistration 120 "10000/minute").metadata .transparent = .ok metadata →
        metadata.fingerprintedFields ≠ (restartMetadata 10 "5/minute").fingerprintedFields ∨
          UncoveredAgree metadata (restartMetadata 10 "5/minute") :=
  detectsConflict_iff digestsDistinct_transparent get?_restartRegistry

/-- The tool is registered again with other limits, and nothing is said. -/
theorem restart_conflict_missed :
    ¬ ∀ (rt : Runtime) (floatText : PyFloat → List Char) (sha256 : String → String),
      DigestsDistinct rt floatText sha256 → ∀ (s : RegistryState rt) (c : Registration)
        (existing : RegisteredTool), s.tools.get? c.toolName = some existing →
          DetectsConflict s c existing := by
  intro hclaim
  have hdetects := (hclaim .transparent fractionText id digestsDistinct_transparent
    restartRegistry (restartRegistration 120 "10000/minute") (restartMetadata 10 "5/minute")
    get?_restartRegistry).1
  -- the fingerprint covers neither of the two limits
  have hfields : (restartMetadata 10 "5/minute").fingerprintedFields =
      (restartMetadata 120 "10000/minute").fingerprintedFields := rfl
  have hok : (restartRegistry.register (restartRegistration 120 "10000/minute")).1 = .ok () := by
    rw [RegistryState.register_eq_ok_iff get?_restartRegistry]
    exact ⟨restartMetadata 120 "10000/minute", metadata_restart_lax,
      (fingerprint_eq_iff digestsDistinct_transparent _ _).mpr hfields⟩
  obtain ⟨metadata, hmetadata, hsecurity⟩ := hdetects hok
  rw [metadata_restart_lax, Except.ok.injEq] at hmetadata
  rw [← hmetadata] at hsecurity
  have htimeout := congrArg SecurityFields.timeoutSeconds hsecurity
  exact absurd htimeout (by decide)

end McpOps
