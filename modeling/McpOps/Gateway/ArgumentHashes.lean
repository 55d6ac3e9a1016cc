import McpOps.Gateway.Models
import McpOps.Python.Json

/-!
# What a hash of arguments binds

`hash_arguments` redacts its arguments before it hashes them.  With a digest without collisions,
two hashes are equal only if the redacted arguments are equal up to the order of keys, and so are
two binding hashes.

`DigestsDistinct` is what is asked of the digest.  It speaks of JSON texts, and these determine
their values by `reordered_of_jsonDumps`; `sortKeys_of_digest` joins the two.  For a binding hash
the other fields have to be read back from one `dict` of all of them (`sortKeys_binding`).

The redaction comes first, so arguments that differ in a secret only have the same hash:
`passwords_collide` has two passwords.
-/

namespace McpOps

/-- The digest of a value is `sha256` of its JSON text, and `sha256` has no collisions. -/
structure DigestsDistinct (rt : Runtime) (floatText : PyFloat → List Char)
    (sha256 : String → String) : Prop where
  digest : ∀ v, rt.digest v = sha256 (jsonDumps floatText v)
  injective : Function.Injective sha256
  floats : FloatTexts floatText

section Hashes

variable {rt : Runtime} {floatText : PyFloat → List Char} {sha256 : String → String}

theorem sortKeys_of_digest (h : DigestsDistinct rt floatText sha256) {v w : Value}
    (heq : rt.digest v = rt.digest w) : sortKeys v = sortKeys w := by
  rw [h.digest, h.digest] at heq
  exact printJson_injective h.floats (String.ofList_injective (h.injective heq))

theorem reordered_of_hashArguments (h : DigestsDistinct rt floatText sha256) {a b : PyDict}
    (heq : hashArguments rt a = hashArguments rt b) :
    Reordered (sanitizeValue rt (.dict a)) (sanitizeValue rt (.dict b)) := by
  unfold hashArguments at heq
  rw [h.digest, h.digest] at heq
  exact reordered_of_jsonDumps h.floats (h.injective heq)

theorem sortKeys_ofOption (text : Option String) :
    sortKeys (.ofOption text) = .ofOption text := by
  cases text <;> rfl

theorem ofOption_injective {s t : Option String} (h : Value.ofOption s = .ofOption t) : s = t := by
  cases s <;> cases t <;> cases h <;> rfl

/-- What is hashed for a binding, with its keys sorted. -/
theorem sortKeys_binding (workflowId nodeId : Option String) (toolName actorId hash : String) :
    sortKeys (.dict
      [("workflow_id", .ofOption workflowId), ("workflow_node_id", .ofOption nodeId),
        ("tool_name", .str toolName), ("actor_id", .str actorId),
        ("arguments_hash", .str hash)]) =
      .dict
        [("actor_id", .str actorId), ("arguments_hash", .str hash), ("tool_name", .str toolName),
          ("workflow_id", .ofOption workflowId), ("workflow_node_id", .ofOption nodeId)] := by
  have hactor : ¬ "arguments_hash" < "actor_id" := by decide
  have htool : "actor_id" < "tool_name" ∧ "arguments_hash" < "tool_name" := by decide
  have hnode : "actor_id" < "workflow_node_id" ∧ "arguments_hash" < "workflow_node_id" ∧
      "tool_name" < "workflow_node_id" := by decide
  have hid : "actor_id" < "workflow_id" ∧ "arguments_hash" < "workflow_id" ∧
      "tool_name" < "workflow_id" ∧ ¬ "workflow_node_id" < "workflow_id" := by decide
  simp only [sortKeys, sortEntries, sortKeys_ofOption, List.insertionSort, List.orderedInsert,
    List.foldr_cons, List.foldr_nil, hactor, htool, hnode, hid, not_true_eq_false,
    not_false_eq_true, if_true, if_false]

/-- Equal digests come from arguments that are equal, once they are redacted, up to the order of
keys; equal binding hashes come from the same workflow, node, tool and actor as well. -/
theorem hashes_bind_redacted (h : DigestsDistinct rt floatText sha256) (a b : PyDict) :
    (hashArguments rt a = hashArguments rt b →
      Reordered (sanitizeValue rt (.dict a)) (sanitizeValue rt (.dict b))) ∧
    ∀ (request request' : GatewayToolRequest) (actorId actorId' toolName toolName' : String),
      approvalBindingHash rt request actorId toolName a =
        approvalBindingHash rt request' actorId' toolName' b →
      request.workflowId = request'.workflowId ∧
        request.workflowNodeId = request'.workflowNodeId ∧ actorId = actorId' ∧
          toolName = toolName' ∧
            Reordered (sanitizeValue rt (.dict a)) (sanitizeValue rt (.dict b)) := by
  refine ⟨reordered_of_hashArguments h, ?_⟩
  intro request request' actorId actorId' toolName toolName' heq
  have hsorted := sortKeys_of_digest h heq
  rw [sortKeys_binding, sortKeys_binding] at hsorted
  simp only [Value.dict.injEq, List.cons.injEq, Prod.mk.injEq, Value.str.injEq, true_and,
    and_true] at hsorted
  obtain ⟨hactor, hhash, htool, hworkflow, hnode⟩ := hsorted
  have hid : request.workflowId = request'.workflowId :=
    Option.map_injective (fun _ _ => UUID.str_injective) (ofOption_injective hworkflow)
  exact ⟨hid, ofOption_injective hnode, hactor, htool, reordered_of_hashArguments h hhash⟩

end Hashes

/-! ### A digest for small examples -/

/-- A digest that is the JSON text itself. -/
def Runtime.transparent : Runtime :=
  { Runtime.plain with digest := jsonDumps fractionText }

theorem digestsDistinct_transparent : DigestsDistinct .transparent fractionText id where
  digest _ := rfl
  injective := Function.injective_id
  floats := floatTexts_fractionText

/-- The order of the arguments makes no difference. -/
theorem hashes_bind_redacted_device :
    Reordered (sanitizeValue .transparent (.dict [("device_id", .str "d"), ("force", .bool true)]))
      (sanitizeValue .transparent (.dict [("force", .bool true), ("device_id", .str "d")])) :=
  (hashes_bind_redacted digestsDistinct_transparent
    [("device_id", .str "d"), ("force", .bool true)]
    [("force", .bool true), ("device_id", .str "d")]).1 (by rfl)

mutual

/-- Whether the text is among the values. -/
def Value.mentions (text : String) : Value → Bool
  | .str s => s = text
  | .list items => itemsMention text items
  | .dict entries => entriesMention text entries
  | _ => false

def itemsMention (text : String) : List Value → Bool
  | [] => false
  | v :: rest => v.mentions text || itemsMention text rest

def entriesMention (text : String) : List (String × Value) → Bool
  | [] => false
  | (_, v) :: rest => v.mentions text || entriesMention text rest

end

theorem entriesMention_perm {text : String} {d e : PyDict} (h : d.Perm e) :
    entriesMention text d = entriesMention text e := by
  induction h with
  | nil => rfl
  | cons x _ ih => rw [entriesMention, entriesMention, ih]
  | swap x y l => simp only [entriesMention, Bool.or_left_comm]
  | trans _ _ ih ih' => exact ih.trans ih'

/-- Reordering does not change which texts there are. -/
theorem Reordered.mentions {v w : Value} (h : Reordered v w) (text : String) :
    v.mentions text = w.mentions text := by
  induction h with
  | refl v => rfl
  | symm _ ih => exact ih.symm
  | trans _ _ ih ih' => exact ih.trans ih'
  | perm h => exact entriesMention_perm h
  | item _ _ ih ih' => exact congrArg₂ or ih ih'
  | entry key _ _ ih ih' => exact congrArg₂ or ih ih'

/-- Arguments that differ in a password have the same hash. -/
theorem passwords_collide :
    ¬ ∀ (rt : Runtime) (floatText : PyFloat → List Char) (sha256 : String → String),
      DigestsDistinct rt floatText sha256 → ∀ a b : PyDict,
        hashArguments rt a = hashArguments rt b → Reordered (.dict a) (.dict b) := by
  intro hclaim
  have hreordered := hclaim .transparent fractionText id digestsDistinct_transparent
    [("password", .str "a")] [("password", .str "b")] (by rfl)
  exact absurd (hreordered.mentions "a") (by decide)

end McpOps
