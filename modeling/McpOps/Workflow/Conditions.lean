import McpOps.Python.Regex
import McpOps.Workflow.Arguments

/-!
# Node conditions

Whether a node runs at all: its typed condition, or the one its legacy text stands for, compared
with an output of a node it depends on.

A legacy text is read by a pattern into a source, a path, an operator and a value; the value is
coerced, quotes or not (`coerceScalar`).  The operators of legacy texts are fewer than the typed
ones (`operatorFromLegacy_ne`).

A comparison gives a truth value, the error that the engine expects, or a `TypeError`
(`ConditionFailure`).  The last is what Python raises for `in` where there can be no membership;
the orderings check their operands first.
-/

namespace McpOps

/-- What `condition_is_satisfied` raises. -/
inductive ConditionFailure where
  /-- a `ConditionEvaluationError` with its text -/
  | evaluation (message : String)
  /-- the `TypeError` of an `in` between values that cannot contain one another -/
  | typeError (message : String)
  deriving DecidableEq, Repr

/-! ## Legacy conditions -/

/-- The characters of ids: `[A-Za-z0-9_-]`. -/
def isIdChar (c : Char) : Bool :=
  c.isDigit || (65 ≤ c.toNat && c.toNat ≤ 90) || (97 ≤ c.toNat && c.toNat ≤ 122) || c = '_' ||
    c = '-'

/-- The characters of output paths: `[A-Za-z0-9_.\[\]-]`. -/
def isPathChar (c : Char) : Bool := isIdChar c || c = '.' || c = '[' || c = ']'

/-- A single or a double quote. -/
def isQuote (c : Char) : Bool := c.toNat = 39 || c.toNat = 34

/-- `_LEGACY_CONDITION_PATTERN`. -/
def legacyConditionPattern (rt : Runtime) : List RegexPiece :=
  [.chars isIdChar 1 (some 120), .oneOf ["."], .chars isPathChar 1 (some 240),
    .chars rt.isSpace 0 none, .oneOf ["==", "!=", ">=", "<=", ">", "<"],
    .chars rt.isSpace 0 none, .chars isQuote 0 (some 1),
    .chars (fun c => !isQuote c) 1 (some 240), .chars isQuote 0 (some 1)]

/-- `_operator_from_legacy(operator)`. -/
def operatorFromLegacy (operator : String) : ConditionOperator :=
  if operator = "==" then .eq
  else if operator = "!=" then .ne
  else if operator = ">" then .gt
  else if operator = ">=" then .gte
  else if operator = "<" then .lt
  else .lte

/-- A legacy condition never asks for membership. -/
theorem operatorFromLegacy_ne (operator : String) : operatorFromLegacy operator ≠ .contains := by
  unfold operatorFromLegacy
  repeat' split
  all_goals exact fun h => by cases h

/-- `_coerce_scalar(value)`. -/
def coerceScalar (rt : Runtime) (value : String) : Value :=
  let lowered := rt.lower value
  if lowered = "true" then .bool true
  else if lowered = "false" then .bool false
  else
    match rt.parseInt value, rt.parseFloat value with
    | some n, _ => .int n
    | none, some x => .float x
    | none, none => .str value

/-- `parse_legacy_condition(condition)`. -/
def parseLegacyCondition (rt : Runtime) :
    Option String → Except ConditionFailure (Option WorkflowCondition)
  | none => .ok none
  | some condition =>
      match matchPieces (legacyConditionPattern rt) (rt.strip condition).toList with
      | some [source, _, path, _, operator, _, _, value, _] =>
          .ok (some
            { sourceNodeId := source
              outputPath := path
              operator := operatorFromLegacy operator
              value := coerceScalar rt (rt.strip value) })
      | _ =>
          .error (.evaluation s!"Condition {rt.repr condition} is not a supported expression.")

/-! ## Comparisons -/

/-- A number that is no `bool`. -/
def comparable? : Value → Option PyFloat
  | .int n => some (.finite n)
  | .float x => some x
  | _ => none

/-- `expected in actual`. -/
def containsValue (actual expected : Value) : Except ConditionFailure Bool :=
  match actual, expected with
  | .list items, _ => .ok (items.any fun item => item.pyEq expected)
  | .str text, .str part => .ok (part.toList <:+: text.toList)
  | .str _, _ => .error (.typeError "'in <string>' requires string as left operand")
  | .dict entries, .str key => .ok (PyDict.get? entries key).isSome
  | .dict _, .list _ => .error (.typeError "unhashable type: 'list'")
  | .dict _, .dict _ => .error (.typeError "unhashable type: 'dict'")
  | _, _ => .ok false

/-- `_compare(actual, operator, expected)`. -/
def compare (actual : Value) (operator : ConditionOperator) (expected : Value) :
    Except ConditionFailure Bool :=
  let ordered := fun (holds : PyFloat → PyFloat → Bool) =>
    match comparable? actual, comparable? expected with
    | some x, some y => Except.ok (holds x y)
    | _, _ => .ok false
  match operator with
  | .eq => .ok (actual.pyEq expected)
  | .ne => .ok (!actual.pyEq expected)
  | .contains => containsValue actual expected
  | .gt => ordered fun x y => y.lt x
  | .gte => ordered fun x y => y.lt x || x.eq y
  | .lt => ordered fun x y => x.lt y
  | .lte => ordered fun x y => x.lt y || x.eq y
  | .exist => .ok false

/-- The condition of a node, with its source's output at hand. -/
def evaluateCondition (condition : WorkflowCondition) (output : PyDict) :
    Except ConditionFailure Bool :=
  match condition.operator, readOutputPath (.dict output) condition.outputPath with
  | .exist, .ok _ => .ok true
  | .exist, .error _ => .ok false
  | _, .error message => .error (.evaluation message)
  | operator, .ok actual => compare actual operator condition.value

/-- `condition_is_satisfied(node, dependency_outputs)`. -/
def conditionIsSatisfied (rt : Runtime) (node : WorkflowNode) (dependencyOutputs : NodeOutputs) :
    Except ConditionFailure Bool := do
  let condition ←
    match node.typedCondition with
    | some condition => .ok (some condition)
    | none => parseLegacyCondition rt node.condition
  match condition with
  | none => .ok true
  | some condition =>
      if condition.sourceNodeId ∉ node.dependsOn then
        .error (.evaluation s!"Condition source {condition.sourceNodeId} must be a dependency.")
      else
        match dependencyOutputs.get? condition.sourceNodeId with
        | none =>
            .error (.evaluation s!"Condition output {condition.sourceNodeId} is not available.")
        | some output => evaluateCondition condition output

end McpOps
