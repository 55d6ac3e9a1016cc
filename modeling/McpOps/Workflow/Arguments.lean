import McpOps.Workflow.Models

/-!
# Argument binding

How a node takes arguments out of the outputs of the nodes before it.

A reference names an argument, a node and a path.  The path is cut into segments and the output is
walked along them; a segment of digits is the place of an item in a list, any other a key of a
mapping.  Paths are of ASCII characters here, as the validator sees to.  What goes wrong on the
way is the text of an `ArgumentBindingError`, as the engine writes it into the node.
-/

namespace McpOps

/-- The outputs of finished nodes, under the node ids. -/
abbrev NodeOutputs := Dict String PyDict

/-- The segments of an output path: `path.replace("[", ".").replace("]", "").split(".")`. -/
def pathSegments (path : String) : List String :=
  let dotted := (path.toList.map fun c => if c = '[' then '.' else c).filter (· ≠ ']')
  (dotted.splitOn '.').map String.ofList

/-- `current` after the segments of the path, for paths of ASCII characters.  The error is the
text of an `ArgumentBindingError`. -/
def readSegments (path : String) : List String → Value → Except String Value
  | [], current => .ok current
  | segment :: rest, current =>
      if segment = "" then readSegments path rest current
      else
        match current with
        | .dict entries =>
            match PyDict.get? entries segment with
            | some value => readSegments path rest value
            | none => .error s!"Output path {path} is missing."
        | .list items =>
            match digits? segment.toList with
            | some index =>
                match items[index]? with
                | some value => readSegments path rest value
                | none => .error s!"Output path {path} index is out of range."
            | none => .error s!"Output path {path} cannot be resolved."
        | _ => .error s!"Output path {path} cannot be resolved."

/-- `read_output_path(payload, path)`. -/
def readOutputPath (payload : Value) (path : String) : Except String Value :=
  readSegments path (pathSegments path) payload

/-- The arguments after one reference, or the text of an `ArgumentBindingError`. -/
def bindReference (dependencyOutputs : NodeOutputs) (arguments : PyDict)
    (reference : ArgumentReference) : Except String PyDict :=
  if reference.sourceNodeId = "" then .error "Argument reference is missing source_node_id."
  else if reference.argument = "" then .error "Argument reference is missing argument."
  else if reference.outputPath = "" then .error "Argument reference is missing output_path."
  else
    match dependencyOutputs.get? reference.sourceNodeId with
    | none => .error s!"Dependency output {reference.sourceNodeId} is not available."
    | some output => do
        let value ← readOutputPath (.dict output) reference.outputPath
        .ok (arguments.set reference.argument value)

/-- `resolve_node_arguments(node, dependency_outputs)`. -/
def resolveNodeArguments (node : WorkflowNode) (dependencyOutputs : NodeOutputs) :
    Except String WorkflowNode := do
  let arguments ← node.argumentReferences.foldlM (bindReference dependencyOutputs) node.arguments
  .ok { node with arguments }

/-- `normalize_tool_output(payload)`. -/
def normalizeToolOutput (payload : PyDict) : PyDict :=
  match payload.get? "tool_result" with
  | some (.dict result) =>
      let ok := (PyDict.get? result "ok").getD (.bool true)
      match PyDict.get? result "data" with
      | some data => [("ok", ok), ("data", data)]
      | none => [("ok", ok), ("data", .dict result)]
  | some result => [("ok", .bool true), ("data", result)]
  | none =>
      match payload.get? "data" with
      | some data => [("ok", (payload.get? "ok").getD (.bool true)), ("data", data)]
      | none => [("ok", .bool true), ("data", .dict payload)]

end McpOps
