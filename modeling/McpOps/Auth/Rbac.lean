import Mathlib.Data.List.Basic

/-!
# Roles and permissions

Each role holds a fixed set of permissions.  A permission also has the text under which tool
metadata names it, and both enumerations can be read back from their texts, as `Role(text)` and
`Permission(text)` do; what they raise for any other text is left to the callers, which differ in
what they make of it.
-/

namespace McpOps

inductive Role where
  | admin
  | engineer
  | operator
  | viewer
  deriving DecidableEq, Repr

/-- The text of a role. -/
def Role.value : Role → String
  | .admin => "ADMIN"
  | .engineer => "ENGINEER"
  | .operator => "OPERATOR"
  | .viewer => "VIEWER"

/-- `Role(text)`, without a result where Python raises `ValueError`. -/
def Role.ofValue? (text : String) : Option Role :=
  [Role.admin, .engineer, .operator, .viewer].find? fun role => role.value = text

inductive Permission where
  | devicesRead
  | devicesDiagnose
  | devicesOperate
  | ticketsRead
  | ticketsCreate
  | ticketsUpdate
  | knowledgeRead
  | cicdRead
  | cicdExecute
  | repositoriesRead
  | deploymentsRead
  | deploymentsOperate
  | approvalsApprove
  | auditRead
  deriving DecidableEq, Repr

namespace Permission

/-- The text of a permission. -/
def value : Permission → String
  | devicesRead => "devices:read"
  | devicesDiagnose => "devices:diagnose"
  | devicesOperate => "devices:operate"
  | ticketsRead => "tickets:read"
  | ticketsCreate => "tickets:create"
  | ticketsUpdate => "tickets:update"
  | knowledgeRead => "knowledge:read"
  | cicdRead => "cicd:read"
  | cicdExecute => "cicd:execute"
  | repositoriesRead => "repositories:read"
  | deploymentsRead => "deployments:read"
  | deploymentsOperate => "deployments:operate"
  | approvalsApprove => "approvals:approve"
  | auditRead => "audit:read"

/-- Every permission, in the order of the enumeration. -/
def all : List Permission :=
  [devicesRead, devicesDiagnose, devicesOperate, ticketsRead, ticketsCreate, ticketsUpdate,
    knowledgeRead, cicdRead, cicdExecute, repositoriesRead, deploymentsRead,
    deploymentsOperate, approvalsApprove, auditRead]

/-- `Permission(text)`, without a result where Python raises `ValueError`. -/
def ofValue? (text : String) : Option Permission := all.find? fun p => p.value = text

/-- Reading back the text of a permission gives the permission. -/
theorem ofValue?_value (p : Permission) : ofValue? p.value = some p := by
  cases p <;> rfl

end Permission

/-- `ROLE_PERMISSIONS`. -/
def rolePermissions : Role → List Permission
  | .viewer =>
      [.devicesRead, .knowledgeRead, .ticketsRead, .cicdRead, .repositoriesRead,
        .deploymentsRead]
  | .engineer =>
      [.devicesRead, .knowledgeRead, .ticketsRead, .devicesDiagnose, .ticketsCreate,
        .ticketsUpdate, .cicdRead, .cicdExecute, .repositoriesRead, .deploymentsRead]
  | .operator =>
      [.devicesRead, .knowledgeRead, .ticketsRead, .devicesDiagnose, .ticketsCreate,
        .ticketsUpdate, .devicesOperate, .cicdRead, .cicdExecute, .repositoriesRead,
        .deploymentsRead, .deploymentsOperate]
  | .admin => Permission.all

/-- `has_permission(role, permission)`. -/
def hasPermission (role : Role) (permission : Permission) : Bool :=
  permission ∈ rolePermissions role

end McpOps
