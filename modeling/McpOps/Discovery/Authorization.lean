import McpOps.Gateway.Stores
import McpOps.Workflow.Policy

/-!
# Authorization in tool discovery

The documents that tool discovery builds of the registered tools, and its filter by role.  The
gateway asks for a permission only, the workflow policy for the listed roles before the
permission, and tool discovery for the listed roles or those that hold the permission.  The three
agree on a tool exactly when its metadata is `AuthorizationAligned`.

Each of the three has a lemma that says what it goes by: the gateway by the permission
(`authorize_eq_ok_iff`), and for a permission that is none it raises (`authorize_raises_iff`); the
policy by the listed roles, or by the permission where none is listed; tool discovery likewise,
but it lets everybody through where no role is listed and the permission is none, because then no
role holds it (`rolesForPermission_eq_nil_iff`).

`authorization_agrees_iff` compares them by cases on whether roles are listed.  The service at the
end has a tool that lists other roles than those which hold its permission.
-/

namespace McpOps

/-! ## Documents -/

/-- The metadata of a tool with the texts that only discovery reads. -/
structure CatalogedTool extends ToolMetadata where
  description : String
  category : String
  tags : List String := []

structure ToolDocument where
  name : String
  description : String
  server : String
  category : String
  riskLevel : String
  requiredPermission : String
  requiredRoles : List String
  inputSchema : PyDict
  tags : List String
  executable : Bool
  enabled : Bool
  embedding : List PyFloat := []

/-- The entries of `input_schema.get("properties", {})`. -/
def ToolDocument.schemaProperties (document : ToolDocument) : PyDict :=
  match document.inputSchema.get? "properties" with
  | some (.dict properties) => properties
  | _ => []

/-- `document.discovery_text`. -/
def ToolDocument.discoveryText (document : ToolDocument) : String :=
  " ".intercalate
    [String.ofList (document.name.toList.map fun c => if c = '_' then ' ' else c),
      document.description, document.server, document.category, document.riskLevel,
      document.requiredPermission, " ".intercalate document.requiredRoles,
      " ".intercalate document.tags, " ".intercalate (document.schemaProperties.map Prod.fst)]

/-- A `ToolMetadataError`. -/
structure ToolMetadataError where
  message : String
  deriving DecidableEq, Repr

/-- `ROLE_PERMISSIONS.keys()`. -/
def rolesInOrder : List Role := [.viewer, .engineer, .operator, .admin]

/-- `_roles_for_permission(metadata)`. -/
def rolesForPermission (metadata : ToolMetadata) : List String :=
  match Permission.ofValue? metadata.requiredPermission with
  | none => []
  | some permission =>
      (rolesInOrder.filter fun role => permission ∈ rolePermissions role).map Role.value

/-- `_default_input_schema(metadata)`. -/
def defaultInputSchema (metadata : ToolMetadata) : PyDict :=
  [("type", .str "object"), ("additionalProperties", .bool false),
    ("properties", .dict
      [("query", .dict
        [("type", .str "string"),
          ("description", .str s!"Natural-language selector for {metadata.toolName}.")])])]

/-- A discovery service, as far as it builds documents. -/
structure ToolDiscoveryService where
  inputSchemas : List (String × PyDict)
  /-- `embedding_provider.embed(text)` -/
  embed : String → List PyFloat
  runtime : Runtime

namespace ToolDiscoveryService

variable (D : ToolDiscoveryService)

/-- `self.input_schemas.get(tool_name) or _default_input_schema(metadata)`. -/
def inputSchema (metadata : ToolMetadata) : PyDict :=
  let known := (D.inputSchemas.lookup metadata.toolName).filter (· ≠ [])
  known.getD (defaultInputSchema metadata)

/-- The first of the required texts that is blank. -/
def malformedField (metadata : CatalogedTool) : Option String :=
  let fields :=
    [("tool_name", metadata.toolName), ("description", metadata.description),
      ("server", metadata.server), ("category", metadata.category),
      ("required_permission", metadata.requiredPermission)]
  (fields.find? fun field => D.runtime.strip field.2 = "").map Prod.fst

/-- `_document_from_metadata(name, metadata)`. -/
def documentFromMetadata (name : String) (metadata : CatalogedTool) :
    Except ToolMetadataError ToolDocument :=
  if name ≠ metadata.toolName then
    .error ⟨s!"Registry key {name} does not match tool metadata name."⟩
  else
    match D.malformedField metadata with
    | some field => .error ⟨s!"Tool {name} has malformed {field}."⟩
    | none =>
        let document : ToolDocument :=
          { name := metadata.toolName
            description := metadata.description
            server := metadata.server
            category := metadata.category
            riskLevel := metadata.riskLevel.value
            requiredPermission := metadata.requiredPermission
            requiredRoles :=
              if metadata.requiredRoles ≠ [] then metadata.requiredRoles
              else rolesForPermission metadata.toToolMetadata
            inputSchema := D.inputSchema metadata.toToolMetadata
            tags := metadata.tags
            executable := metadata.executable
            enabled := metadata.enabled }
        .ok { document with embedding := D.embed document.discoveryText }

/-- `_role_authorized(role, document)`. -/
def roleAuthorized (role : String) (document : ToolDocument) : Bool :=
  if ¬ document.enabled then false
  else if document.requiredRoles = [] then true
  else D.runtime.upper role ∈ document.requiredRoles.map D.runtime.upper

variable {D}

/-- What a document keeps of the metadata for the filter by role. -/
theorem of_documentFromMetadata {name : String} {metadata : CatalogedTool}
    {document : ToolDocument} (h : D.documentFromMetadata name metadata = .ok document) :
    document.enabled = metadata.enabled ∧
      document.requiredRoles =
        if metadata.requiredRoles ≠ [] then metadata.requiredRoles
        else rolesForPermission metadata.toToolMetadata := by
  rw [documentFromMetadata] at h
  split at h
  · cases h
  · split at h
    · cases h
    · cases h
      exact ⟨rfl, rfl⟩

end ToolDiscoveryService

/-! ## The three decisions -/

/-- The permission that a tool requires is one that the role holds. -/
def ToolMetadata.heldBy (metadata : ToolMetadata) (role : Role) : Bool :=
  (Permission.ofValue? metadata.requiredPermission).any fun permission =>
    permission ∈ rolePermissions role

/-- The metadata of a tool says the same about a role wherever it is read: without listed roles
the required permission is a known one, and with listed roles these are roles that hold it. -/
def AuthorizationAligned (rt : Runtime) (metadata : ToolMetadata) (role : Role) : Prop :=
  if metadata.requiredRoles = [] then Permission.ofValue? metadata.requiredPermission ≠ none
  else (role.value ∈ metadata.requiredRoles.map rt.upper ↔ metadata.heldBy role)

section Decisions

variable {metadata : ToolMetadata} {rt : Runtime}

/-- The gateway lets through whoever holds the required permission. -/
theorem authorize_eq_ok_iff {principal : Principal} :
    GatewayAuthorizer.authorize principal metadata.requiredPermission = .ok () ↔
      metadata.heldBy principal.role := by
  rw [GatewayAuthorizer.authorize, ToolMetadata.heldBy]
  cases Permission.ofValue? metadata.requiredPermission with
  | none => simp
  | some permission => by_cases hheld : permission ∈ rolePermissions principal.role <;>
      simp [hasPermission, hheld]

/-- The gateway refuses a caller by a `GatewayError` or, where the required permission is none of
`Permission`, raises whoever calls; nobody gets through either way. -/
theorem authorize_raises_iff {principal : Principal} :
    (∃ message, GatewayAuthorizer.authorize principal metadata.requiredPermission =
        .error (.other "ValueError" message)) ↔
      Permission.ofValue? metadata.requiredPermission = none := by
  rw [GatewayAuthorizer.authorize]
  constructor
  · rintro ⟨message, h⟩
    cases hpermission : Permission.ofValue? metadata.requiredPermission with
    | none => rfl
    | some permission =>
        rw [hpermission] at h
        by_cases hheld : hasPermission principal.role permission <;> simp [hheld] at h
  · intro hnone
    rw [hnone]
    exact ⟨_, rfl⟩

/-- The text of a role is that of no other. -/
theorem Role.ofValue?_value (role : Role) : Role.ofValue? role.value = some role := by
  cases role <;> rfl

theorem Role.value_injective : Function.Injective Role.value := by
  intro role role' h
  have hsome : some role = some role' := by rw [← ofValue?_value, ← ofValue?_value, h]
  exact Option.some.inj hsome

/-- The policy goes by the listed roles, and by the permission where none is listed. -/
theorem roleAuthorized_iff (hupper : ∀ role : Role, rt.upper role.value = role.value)
    (role : Role) :
    roleAuthorized rt role.value metadata ↔
      if metadata.requiredRoles = [] then (metadata.heldBy role : Prop)
      else role.value ∈ metadata.requiredRoles.map rt.upper := by
  rw [McpOps.roleAuthorized, ToolMetadata.heldBy, hupper, Role.ofValue?_value]
  by_cases hroles : metadata.requiredRoles = []
  · cases Permission.ofValue? metadata.requiredPermission with
    | none => simp [hroles]
    | some permission => simp [hroles]
  · simp [hroles]

/-- Some role holds each permission, and exactly the roles that hold it are listed for it. -/
theorem mem_rolesForPermission {permission : Permission}
    (hpermission : Permission.ofValue? metadata.requiredPermission = some permission)
    (role : Role) :
    role.value ∈ rolesForPermission metadata ↔ permission ∈ rolePermissions role := by
  have hrole : role ∈ rolesInOrder := by cases role <;> decide
  rw [rolesForPermission, hpermission]
  simp only [List.mem_map_of_injective Role.value_injective]
  simp [hrole]

theorem rolesForPermission_eq_nil_iff :
    rolesForPermission metadata = [] ↔ Permission.ofValue? metadata.requiredPermission = none := by
  cases hpermission : Permission.ofValue? metadata.requiredPermission with
  | none => simp [rolesForPermission, hpermission]
  | some permission =>
      have hadmin : permission ∈ rolePermissions .admin := by cases permission <;> decide
      have hmem := (mem_rolesForPermission hpermission .admin).mpr hadmin
      simp only [reduceCtorEq, iff_false]
      exact List.ne_nil_of_mem hmem

theorem rolesForPermission_upper (hupper : ∀ role : Role, rt.upper role.value = role.value) :
    (rolesForPermission metadata).map rt.upper = rolesForPermission metadata := by
  rw [rolesForPermission]
  cases Permission.ofValue? metadata.requiredPermission with
  | none => rfl
  | some permission =>
      rw [List.map_map]
      exact List.map_congr_left fun role _ => hupper role

end Decisions

namespace ToolDiscoveryService

variable {D : ToolDiscoveryService}

/-- Tool discovery goes by the listed roles; where none is listed it goes by the permission, and
lets everybody through if the permission is unknown. -/
theorem roleAuthorized_iff (hupper : ∀ role : Role, D.runtime.upper role.value = role.value)
    {name : String} {metadata : CatalogedTool} {document : ToolDocument}
    (hdocument : D.documentFromMetadata name metadata = .ok document)
    (henabled : metadata.enabled) (role : Role) :
    D.roleAuthorized role.value document ↔
      if metadata.requiredRoles = [] then
        Permission.ofValue? metadata.requiredPermission = none ∨
          metadata.toToolMetadata.heldBy role
      else role.value ∈ metadata.requiredRoles.map D.runtime.upper := by
  obtain ⟨henabled', hroles⟩ := of_documentFromMetadata hdocument
  rw [roleAuthorized, hroles, henabled', henabled, hupper]
  by_cases hlisted : metadata.requiredRoles = []
  · simp only [hlisted, ne_eq, not_true_eq_false, if_false, if_true,
      rolesForPermission_upper hupper,
      rolesForPermission_eq_nil_iff, ToolMetadata.heldBy]
    cases hpermission : Permission.ofValue? metadata.requiredPermission with
    | none => simp
    | some permission => simp [mem_rolesForPermission hpermission]
  · simp [hlisted]

/-- The gateway, the workflow policy and tool discovery give the same answer about an enabled
tool and a role if and only if the metadata of the tool is aligned for the role. Where the gateway
raises (`authorize_raises_iff`) it lets nobody through, which counts as a refusal here. -/
theorem authorization_agrees_iff
    (hupper : ∀ role : Role, D.runtime.upper role.value = role.value)
    {name : String} {metadata : CatalogedTool} {document : ToolDocument}
    (hdocument : D.documentFromMetadata name metadata = .ok document)
    (henabled : metadata.enabled) (principal : Principal) :
    ((GatewayAuthorizer.authorize principal metadata.requiredPermission = .ok () ↔
          McpOps.roleAuthorized D.runtime principal.role.value metadata.toToolMetadata) ∧
        (McpOps.roleAuthorized D.runtime principal.role.value metadata.toToolMetadata ↔
          D.roleAuthorized principal.role.value document)) ↔
      AuthorizationAligned D.runtime metadata.toToolMetadata principal.role := by
  rw [authorize_eq_ok_iff, McpOps.roleAuthorized_iff hupper,
    roleAuthorized_iff hupper hdocument henabled, AuthorizationAligned]
  by_cases hlisted : metadata.requiredRoles = []
  · have hheld : Permission.ofValue? metadata.requiredPermission = none →
        metadata.toToolMetadata.heldBy principal.role = false := by
      intro hnone
      simp [ToolMetadata.heldBy, hnone]
    simp only [hlisted, if_true, true_and]
    cases hpermission : Permission.ofValue? metadata.requiredPermission with
    | none => simp [hheld hpermission]
    | some permission => simp
  · simp only [hlisted, if_false, and_true]
    exact Iff.comm

/-! ### A service for small examples -/

/-- A service without input schemas that embeds every text alike. -/
def small : ToolDiscoveryService where
  inputSchemas := []
  embed _ := []
  runtime := .plain

/-- A tool of the catalog that lists roles. -/
def getWorkflowRuns : CatalogedTool where
  toolName := "get_workflow_runs"
  domain := "cicd"
  description := "List GitHub Actions workflow runs for an allowed repository."
  riskLevel := .readOnly
  requiredPermission := "cicd:read"
  server := "cicd-mcp"
  category := "cicd"
  tags := ["github", "actions", "workflow", "runs", "ci"]
  requiredRoles := ["ENGINEER", "OPERATOR", "ADMIN"]
  retrySafe := true
  defaultMaxRetries := 1
  retryStrategy := .fixedDelay

theorem getWorkflowRuns_document :
    small.documentFromMetadata "get_workflow_runs" getWorkflowRuns = .ok
      { name := "get_workflow_runs"
        description := "List GitHub Actions workflow runs for an allowed repository."
        server := "cicd-mcp"
        category := "cicd"
        riskLevel := "READ_ONLY"
        requiredPermission := "cicd:read"
        requiredRoles := ["ENGINEER", "OPERATOR", "ADMIN"]
        inputSchema := defaultInputSchema getWorkflowRuns.toToolMetadata
        tags := ["github", "actions", "workflow", "runs", "ci"]
        executable := true
        enabled := true } := by
  have hmalformed : small.malformedField getWorkflowRuns = none := by decide
  rw [documentFromMetadata, hmalformed]
  rfl

theorem authorization_agrees_iff_engineer :
    (∀ role : Role, small.runtime.upper role.value = role.value) ∧ getWorkflowRuns.enabled ∧
      AuthorizationAligned .plain getWorkflowRuns.toToolMetadata .engineer :=
  ⟨fun _ => rfl, rfl,
    (authorization_agrees_iff (fun _ => rfl) getWorkflowRuns_document rfl
      ⟨"engineer-1", .engineer, .human⟩).mp
      ⟨iff_of_true (by decide) (by decide), iff_of_true (by decide) (by decide)⟩⟩

/-- The gateway lets a viewer call a tool that lists other roles only. -/
theorem viewer_authorized_by_gateway_only :
    ∃ document, small.documentFromMetadata "get_workflow_runs" getWorkflowRuns = .ok document ∧
      getWorkflowRuns.enabled ∧
      GatewayAuthorizer.authorize ⟨"viewer-1", .viewer, .human⟩
        getWorkflowRuns.requiredPermission = .ok () ∧
      McpOps.roleAuthorized .plain Role.viewer.value getWorkflowRuns.toToolMetadata = false ∧
      small.roleAuthorized Role.viewer.value document = false :=
  ⟨_, getWorkflowRuns_document, rfl, by decide, by decide, by decide⟩

end ToolDiscoveryService

end McpOps
