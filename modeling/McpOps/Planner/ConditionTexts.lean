import McpOps.Planner.Nodes

/-!
# Conditions written as texts

The engine reads a legacy condition `source.path op "value"` when it gets to the node; the planner
reads it when it makes the node.  Both read the value for a truth value or a number, quotes or
not.

The pattern of both is a list of pieces, and matching it is a search with choices.  On a text of
the grammar (`QuotedCondition`) each piece takes what it is for: a greedy class takes all its
characters (`matchPieces_chars`), the first operator that the text begins with is the right one
(`matchPieces_oneOf`), and the value stands between its quotes (`matchPieces_value`).

`quotedConditions_agree` compares the two readings through what the engine makes of them: a node
with the text is as satisfied as one with the typed condition (`conditionIsSatisfied_text`).  A
path that is canonical stays as it is (`canonicalOutputPath_path`); for others, and for a quoted
number, the last theorem shows the difference.
-/

namespace McpOps

/-! ## Matching one piece -/

/-- A greedy class takes the characters it can take if the rest matches then. -/
theorem matchPieces_chars {member : Char → Bool} (least : ℕ) (most : Option ℕ)
    {rest : List RegexPiece} {a : List Char} (b : List Char) {groups : List String}
    (hall : ∀ c ∈ a, member c) (hstop : b.head?.any member = false) (hleast : least ≤ a.length)
    (hmost : ∀ n, most = some n → a.length ≤ n) (hrest : matchPieces rest b = some groups) :
    matchPieces (.chars member least most :: rest) (a ++ b) =
      some (String.ofList a :: groups) := by
  have htake : (a ++ b).takeWhile member = a := by
    rw [List.takeWhile_append_of_pos hall]
    cases b with
    | nil => simp
    | cons c b =>
        have hc : member c = false := hstop
        rw [List.takeWhile_cons_of_neg (Bool.eq_false_iff.mp hc), List.append_nil]
  have hlongest : most.elim a.length (min a.length) = a.length := by
    cases most with
    | none => rfl
    | some n => exact Nat.min_eq_left (hmost n rfl)
  have hfirst : (matchPieces rest ((a ++ b).drop a.length)).map
      (String.ofList ((a ++ b).take a.length) :: ·) = some (String.ofList a :: groups) := by
    rw [List.drop_left, List.take_left, hrest]
    rfl
  rw [matchPieces, htake, hlongest, List.range_succ, List.reverse_append, List.reverse_singleton,
    List.singleton_append, List.filter_cons_of_pos (by simpa using hleast), List.findSome?_cons,
    hfirst]

/-- The first choice that the text begins with is taken if the rest matches then. -/
theorem matchPieces_oneOf (before : List String) {after : List String} {choice : String}
    {rest : List RegexPiece} {b : List Char} {groups : List String}
    (hbefore : (before.any fun other => other.toList.isPrefixOf (choice.toList ++ b)) = false)
    (hrest : matchPieces rest b = some groups) :
    matchPieces (.oneOf (before ++ choice :: after) :: rest) (choice.toList ++ b) =
      some (choice :: groups) := by
  have hnone : before.findSome? (fun other =>
      if other.toList.isPrefixOf (choice.toList ++ b) then
        (matchPieces rest ((choice.toList ++ b).drop other.length)).map (other :: ·)
      else none) = none := by
    refine List.findSome?_eq_none_iff.mpr fun other hother => ?_
    rw [Bool.eq_false_iff.mpr (List.any_eq_false.mp hbefore other hother)]
    rfl
  have hpre : choice.toList.isPrefixOf (choice.toList ++ b) :=
    List.isPrefixOf_iff_prefix.mpr (List.prefix_append ..)
  rw [matchPieces, List.findSome?_append, hnone, List.findSome?_cons, if_pos hpre,
    ← String.length_toList, List.drop_left, hrest]
  rfl

/-! ## Quoted conditions -/

/-- What `isspace` says about the characters of conditions. -/
structure ReadsSpaces (rt : Runtime) : Prop where
  space : rt.isSpace ' '
  visible : ∀ c, isPathChar c ∨ isQuote c ∨ c ∈ ['=', '!', '<', '>'] → rt.isSpace c = false

/-- A text `source.path op "value"` in the bounds of the pattern. -/
structure QuotedCondition where
  source : String
  path : String
  operator : String
  value : String
  quote : Char
  isSource : ∀ c ∈ source.toList, isIdChar c
  sourceLength : 1 ≤ source.length ∧ source.length ≤ 120
  isPath : ∀ c ∈ path.toList, isPathChar c
  pathLength : 1 ≤ path.length ∧ path.length ≤ 240
  isOperator : operator ∈ ["==", "!=", ">=", "<=", ">", "<"]
  isValue : ∀ c ∈ value.toList, isQuote c = false
  valueLength : 1 ≤ value.length ∧ value.length ≤ 240
  quoted : isQuote quote

namespace QuotedCondition

variable {rt : Runtime} (written : QuotedCondition)

/-- From the operator on. -/
def comparison : List Char :=
  written.operator.toList ++ ' ' :: written.quote :: (written.value.toList ++ [written.quote])

def text : String :=
  String.ofList (written.source.toList ++ '.' :: (written.path.toList ++ ' ' :: written.comparison))

/-- The value with its quotes. -/
theorem matchPieces_value :
    matchPieces
        [.chars isQuote 0 (some 1), .chars (fun c => !isQuote c) 1 (some 240),
          .chars isQuote 0 (some 1)] (written.quote :: (written.value.toList ++ [written.quote])) =
      some [String.ofList [written.quote], written.value, String.ofList [written.quote]] := by
  have hquote : ∀ c ∈ [written.quote], isQuote c := by
    intro c hc
    rw [List.mem_singleton.mp hc]
    exact written.quoted
  have hvalue : ∀ c ∈ written.value.toList, !isQuote c := by
    intro c hc
    rw [written.isValue c hc]
    rfl
  have hlength : written.value.toList.length = written.value.length := String.length_toList
  obtain ⟨hleast, hmost⟩ := written.valueLength
  have hend : matchPieces [.chars isQuote 0 (some 1)] [written.quote] =
      some [String.ofList [written.quote]] :=
    matchPieces_chars 0 (some 1) [] hquote rfl (Nat.zero_le _)
      (fun n hn => by cases hn; exact le_refl _) rfl
  have hvalues := matchPieces_chars 1 (some 240) [written.quote] hvalue
    (by simp [written.quoted]) (by omega) (fun n hn => by cases hn; omega) hend
  rw [String.ofList_toList] at hvalues
  refine matchPieces_chars 0 (some 1) (written.value.toList ++ [written.quote]) hquote ?_
    (Nat.zero_le _) (fun n hn => by cases hn; exact le_refl _) hvalues
  cases hchars : written.value.toList with
  | nil =>
      rw [hchars, List.length_nil] at hlength
      omega
  | cons c chars => exact written.isValue c (hchars ▸ List.mem_cons_self ..)

theorem matchPieces_comparison (h : ReadsSpaces rt) :
    matchPieces
        [.oneOf ["==", "!=", ">=", "<=", ">", "<"], .chars rt.isSpace 0 none,
          .chars isQuote 0 (some 1), .chars (fun c => !isQuote c) 1 (some 240),
          .chars isQuote 0 (some 1)] written.comparison =
      some [written.operator, " ", String.ofList [written.quote], written.value,
        String.ofList [written.quote]] := by
  have hspace : ∀ c ∈ [' '], rt.isSpace c := by
    intro c hc
    rw [List.mem_singleton.mp hc]
    exact h.space
  have hquote : rt.isSpace written.quote = false :=
    h.visible _ (.inr (.inl written.quoted))
  have hrest := matchPieces_chars 0 none
    (written.quote :: (written.value.toList ++ [written.quote])) hspace hquote (Nat.zero_le _)
    (fun n hn => by cases hn) written.matchPieces_value
  unfold comparison
  have hoperator := written.isOperator
  simp only [List.mem_cons, List.not_mem_nil, or_false] at hoperator
  -- each operator is found behind those that are tried before it and do not fit
  rcases hoperator with heq | heq | heq | heq | heq | heq
  · rw [heq]
    exact matchPieces_oneOf [] rfl hrest
  · rw [heq]
    exact matchPieces_oneOf ["=="] rfl hrest
  · rw [heq]
    exact matchPieces_oneOf ["==", "!="] rfl hrest
  · rw [heq]
    exact matchPieces_oneOf ["==", "!=", ">="] rfl hrest
  · rw [heq]
    exact matchPieces_oneOf ["==", "!=", ">=", "<="] rfl hrest
  · rw [heq]
    exact matchPieces_oneOf ["==", "!=", ">=", "<=", ">"] rfl hrest

theorem matchPieces_text (h : ReadsSpaces rt) :
    matchPieces (legacyConditionPattern rt) written.text.toList =
      some [written.source, ".", written.path, " ", written.operator, " ",
        String.ofList [written.quote], written.value, String.ofList [written.quote]] := by
  have hspace : ∀ c ∈ [' '], rt.isSpace c := by
    intro c hc
    rw [List.mem_singleton.mp hc]
    exact h.space
  obtain ⟨hsource, hsource'⟩ := written.sourceLength
  obtain ⟨hpath, hpath'⟩ := written.pathLength
  rw [← String.length_toList] at hsource hsource' hpath hpath'
  have hoperator : written.comparison.head?.any rt.isSpace = false := by
    have hvisible (c : Char) (hc : c ∈ ['=', '!', '<', '>']) : rt.isSpace c = false :=
      h.visible c (.inr (.inr hc))
    have hoperator := written.isOperator
    unfold comparison
    simp only [List.mem_cons, List.not_mem_nil, or_false] at hoperator
    rcases hoperator with heq | heq | heq | heq | heq | heq
    all_goals
      rw [heq]
      exact hvisible _ (by decide)
  have hcomparison := matchPieces_chars 0 none written.comparison hspace hoperator
    (Nat.zero_le _) (fun n hn => by cases hn) (written.matchPieces_comparison h)
  -- the pieces are matched from the end: every class stops where the next piece begins
  have hpaths := matchPieces_chars 1 (some 240) (' ' :: written.comparison) written.isPath rfl
    hpath (fun n hn => by cases hn; exact hpath') hcomparison
  have hdot : matchPieces (.oneOf ["."] :: _)
      (".".toList ++ (written.path.toList ++ ' ' :: written.comparison)) = some ("." :: _) :=
    matchPieces_oneOf [] rfl hpaths
  have hsources := matchPieces_chars 1 (some 120)
    ('.' :: (written.path.toList ++ ' ' :: written.comparison)) written.isSource rfl hsource
    (fun n hn => by cases hn; exact hsource') hdot
  rw [String.ofList_toList, String.ofList_toList] at hsources
  rw [text, String.toList_ofList]
  exact hsources

/-- There is no white space around the text. -/
theorem strip_text (h : ReadsSpaces rt) : rt.strip written.text = written.text := by
  have hquote : rt.isSpace written.quote = false := h.visible _ (.inr (.inl written.quoted))
  obtain ⟨c, source, hsource⟩ : ∃ c source, written.source.toList = c :: source := by
    refine List.exists_cons_of_ne_nil fun hnil => ?_
    have hlength := written.sourceLength.1
    rw [← String.length_toList, hnil] at hlength
    cases hlength
  have hc : rt.isSpace c = false := by
    have hid := written.isSource c (hsource ▸ List.mem_cons_self ..)
    refine h.visible c (.inl ?_)
    rw [isPathChar, hid]
    rfl
  obtain ⟨middle, htext⟩ : ∃ middle, written.text.toList = c :: middle ++ [written.quote] := by
    rw [text, String.toList_ofList, hsource, comparison]
    exact ⟨source ++ '.' :: (written.path.toList ++ ' ' :: (written.operator.toList ++
      ' ' :: written.quote :: written.value.toList)), by simp⟩
  have hleft : written.text.toList.dropWhile rt.isSpace = written.text.toList := by
    rw [htext, List.cons_append, List.dropWhile_cons_of_neg (Bool.eq_false_iff.mp hc)]
  have hright : written.text.toList.reverse.dropWhile rt.isSpace =
      written.text.toList.reverse := by
    rw [htext, List.reverse_append, List.reverse_singleton, List.singleton_append,
      List.dropWhile_cons_of_neg (Bool.eq_false_iff.mp hquote)]
  rw [Runtime.strip, hleft, hright, List.reverse_reverse, String.ofList_toList]

/-- The typed condition that the text stands for, with some value. -/
def typed (value : Value) : WorkflowCondition where
  sourceNodeId := written.source
  outputPath := written.path
  operator := operatorFromLegacy written.operator
  value

theorem parseLegacyCondition_text (h : ReadsSpaces rt) :
    parseLegacyCondition rt (some written.text) =
      .ok (some (written.typed (coerceScalar rt (rt.strip written.value)))) := by
  rw [parseLegacyCondition, written.strip_text h, written.matchPieces_text h]
  rfl

/-- A node with the text is as satisfied as one with the typed condition. -/
theorem conditionIsSatisfied_text (h : ReadsSpaces rt) (node : WorkflowNode)
    (outputs : NodeOutputs) (htyped : node.typedCondition = none)
    (htext : node.condition = some written.text) :
    conditionIsSatisfied rt node outputs =
      conditionIsSatisfied rt
        { node with
          condition := none
          typedCondition := some (written.typed (coerceScalar rt (rt.strip written.value))) }
        outputs := by
  unfold conditionIsSatisfied
  rw [htyped, htext]
  dsimp only
  rw [written.parseLegacyCondition_text h]

theorem normalizeTypedCondition_text (h : ReadsSpaces rt) {dependsOn : List String}
    (hsource : written.source ∈ dependsOn) :
    normalizeTypedCondition rt (.str written.text) dependsOn =
      some
        { written.typed (coerceScalar rt (rt.strip written.value)) with
          outputPath := clip 240 (canonicalOutputPath rt written.path) } := by
  have hclip : clip 120 written.source = written.source := by
    have hlength := written.sourceLength.2
    rw [← String.length_toList] at hlength
    rw [clip, List.take_of_length_le hlength, String.ofList_toList]
  rw [normalizeTypedCondition, written.strip_text h, written.matchPieces_text h]
  dsimp only
  rw [if_pos hsource, hclip]
  rfl

/-- A path that is canonical stays as it is. -/
theorem canonicalOutputPath_path (h : ReadsSpaces rt)
    (hdata : "data.".toList <+: written.path.toList) :
    clip 240 (canonicalOutputPath rt written.path) = written.path := by
  have hvisible : ∀ c ∈ written.path.toList, rt.isSpace c = false :=
    fun c hc => h.visible c (.inl (written.isPath c hc))
  have hdrop (l : List Char) (hl : ∀ c ∈ l, rt.isSpace c = false) : l.dropWhile rt.isSpace = l := by
    cases l with
    | nil => rfl
    | cons c l =>
        rw [List.dropWhile_cons_of_neg (Bool.eq_false_iff.mp (hl c (List.mem_cons_self ..)))]
  have hstrip : rt.strip written.path = written.path := by
    rw [Runtime.strip, hdrop _ hvisible, hdrop _ (fun c hc => hvisible c (List.mem_reverse.mp hc)),
      List.reverse_reverse, String.ofList_toList]
  have hlength := written.pathLength.2
  rw [← String.length_toList] at hlength
  have hclip : clip 240 written.path = written.path := by
    rw [clip, List.take_of_length_le hlength, String.ofList_toList]
  obtain ⟨rest, hrest⟩ := hdata
  -- a path below `data.` begins with none of the other names
  have hother : (["output.", "result.", "tool_result.data.", "tool_result."].findSome?
      fun start =>
        if start.toList.isPrefixOf written.path.toList then
          some ("data." ++ String.ofList (written.path.toList.drop start.length))
        else none) = none := by
    rw [← hrest]
    rfl
  have hcanonical : "data.".toList.isPrefixOf written.path.toList :=
    List.isPrefixOf_iff_prefix.mpr ⟨rest, hrest⟩
  have hpath : canonicalOutputPath rt written.path = written.path := by
    unfold canonicalOutputPath
    rw [hstrip]
    dsimp only
    rw [hother]
    dsimp only
    rw [if_pos hcanonical]
  rw [hpath, hclip]

end QuotedCondition

/-- A node with a quoted condition in a text is as satisfied as one with the typed condition for
the value that the text is read for, which is the quoted text itself unless that is trimmed or
reads as a truth value or a number; and so is a node that the planner gives a typed condition for
the text, if the path is canonical. -/
theorem quotedConditions_agree {rt : Runtime} (h : ReadsSpaces rt) (written : QuotedCondition) :
    (∀ (node : WorkflowNode) (outputs : NodeOutputs), node.typedCondition = none →
      node.condition = some written.text →
        (conditionIsSatisfied rt node outputs =
          conditionIsSatisfied rt
            { node with
              condition := none
              typedCondition := some (written.typed (coerceScalar rt (rt.strip written.value))) }
            outputs) ∧
        (coerceScalar rt (rt.strip written.value) = .str written.value →
          conditionIsSatisfied rt node outputs =
            conditionIsSatisfied rt
              { node with
                condition := none
                typedCondition := some (written.typed (.str written.value)) } outputs)) ∧
    ∀ dependsOn : List String, written.source ∈ dependsOn →
      normalizeTypedCondition rt (.str written.text) dependsOn =
          some
            { written.typed (coerceScalar rt (rt.strip written.value)) with
              outputPath := clip 240 (canonicalOutputPath rt written.path) } ∧
        ("data.".toList <+: written.path.toList →
          normalizeTypedCondition rt (.str written.text) dependsOn =
            some (written.typed (coerceScalar rt (rt.strip written.value)))) := by
  refine ⟨fun node outputs htyped htext => ?_, fun dependsOn hsource => ?_⟩
  · have hagree := written.conditionIsSatisfied_text h node outputs htyped htext
    refine ⟨hagree, fun hplain => ?_⟩
    rw [hplain] at hagree
    exact hagree
  · have hread := written.normalizeTypedCondition_text h hsource
    refine ⟨hread, fun hdata => ?_⟩
    rw [hread, written.canonicalOutputPath_path h hdata]
    rfl

/-! ### Conditions for small examples -/

theorem readsSpaces_plain : ReadsSpaces .plain := by
  refine ⟨rfl, fun c hc => Bool.eq_false_iff.mpr fun hspace => ?_⟩
  have hcases : ((c = ' ' ∨ c = '\t') ∨ c = '\r') ∨ c = '\n' := by
    simpa [Runtime.plain, Char.isWhitespace] using hspace
  rcases hcases with ((rfl | rfl) | rfl) | rfl
  all_goals exact absurd hc (by decide)

theorem noQuotes_failed : ∀ c ∈ "failed".toList, isQuote c = false := by
  intro c hc
  have hall : ("failed".toList.all fun c => !isQuote c) = true := rfl
  simpa using List.all_eq_true.mp hall c hc

/-- A condition on the state that a node reports. -/
def reportedCondition (value : String) (isValue : ∀ c ∈ value.toList, isQuote c = false)
    (valueLength : 1 ≤ value.length ∧ value.length ≤ 240) : QuotedCondition where
  source := "check"
  path := "data.state"
  operator := "=="
  value
  quote := '"'
  isSource := List.all_eq_true.mp rfl
  sourceLength := by decide
  isPath := List.all_eq_true.mp rfl
  pathLength := by decide
  isOperator := by decide
  isValue
  valueLength
  quoted := by decide

/-- A node after the reporting node. -/
def reportedNode (condition : Option String) (typedCondition : Option WorkflowCondition) :
    WorkflowNode where
  id := "act"
  toolName := "create_ticket"
  toolServer := "ticket-mcp"
  description := "Create a ticket."
  dependsOn := ["check"]
  condition
  typedCondition
  riskLevel := "MEDIUM"

/-- The outputs when the state is reported. -/
def reportedOutputs (state : String) : NodeOutputs where
  entries := [("check", [("data", .dict [("state", .str state)])])]
  nodup := List.nodup_singleton _

theorem quotedConditions_agree_failed :
    conditionIsSatisfied .plain (reportedNode (some "check.data.state == \"failed\"") none)
        (reportedOutputs "failed") =
      conditionIsSatisfied .plain
        (reportedNode none (some ⟨"check", "data.state", .eq, .str "failed"⟩))
        (reportedOutputs "failed") := by
  have htext : (reportedCondition "failed" noQuotes_failed (by decide)).text =
      "check.data.state == \"failed\"" := by decide
  have hplain : coerceScalar .plain (Runtime.plain.strip "failed") = .str "failed" := rfl
  have hagree := quotedConditions_agree readsSpaces_plain
    (reportedCondition "failed" noQuotes_failed (by decide))
  exact (hagree.1 (reportedNode (some "check.data.state == \"failed\"") none)
    (reportedOutputs "failed") rfl (congrArg some htext.symm)).2 hplain

/-- A quoted number is compared as a number, a quoted text without the white space around it, and
the planner looks for the path under `data`. -/
theorem quotedNumber_differs :
    conditionIsSatisfied .plain (reportedNode (some "check.data.state == \"5\"") none)
        (reportedOutputs "5") = .ok false ∧
      conditionIsSatisfied .plain
        (reportedNode none (some ⟨"check", "data.state", .eq, .str "5"⟩))
        (reportedOutputs "5") = .ok true ∧
      conditionIsSatisfied .plain (reportedNode (some "check.data.state == \" a\"") none)
        (reportedOutputs " a") = .ok false ∧
      conditionIsSatisfied .plain
        (reportedNode none (some ⟨"check", "data.state", .eq, .str " a"⟩))
        (reportedOutputs " a") = .ok true ∧
      (normalizeTypedCondition .plain (.str "check.state == \"on\"") ["check"]).map
        (·.outputPath) = some "data.state" := by
  refine ⟨rfl, rfl, rfl, rfl, ?_⟩
  rfl

end McpOps
