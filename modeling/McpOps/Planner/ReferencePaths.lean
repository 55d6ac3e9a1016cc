import McpOps.Lib.DottedPaths
import McpOps.Planner.ConditionTexts

/-!
# What a reference means

The model writes `{"$from": "node.path"}` for a value that an earlier tool returns.  The planner
puts the path under `data`, takes a leading envelope name off and cuts it to 240 characters; the
engine unwraps the response and walks along what is left.  A path that begins with an envelope
name, or that is longer than what fits after `data.`, is read as another path.

## Strategy

Both sides are brought to the list of names in a path (`pathNames`).

* The engine reads a path along its names (`readOutputPath_eq_ok_iff`), and `data.` before a path
  is one more name (`pathNames_data`).
* The planner's pattern finds the source and the path of a reference of its grammar
  (`matchPieces_text`), and what it makes of the path is `kept`, under `data`
  (`canonicalOutputPath_eq`).  So the engine binds the value at `kept` (`binds_iff`).

What is left to compare are the names of a path with those of `kept`.  A path that begins with no
envelope name keeps its beginning (`kept_eq_take`), and loses nothing if nothing is named where it
is cut.  A path that begins with one loses characters of its names (`length_kept_lt`), and names
are never made up.  `pathNames_kept_iff` says that the names are kept exactly for a plain path,
and `references_keepMeaning_iff` follows.
-/

namespace McpOps

open DottedPath

/-! ## The names in a path -/

/-- The characters that stand between the names of a path. -/
def isPathSeparator (c : Char) : Bool := c = '.' || c = '[' || c = ']'

/-- `path.replace("[", ".").replace("]", "")`. -/
def dottedPath (path : List Char) : List Char :=
  (path.map fun c => if c = '[' then '.' else c).filter (· ≠ ']')

/-- The names that a walk along a path looks up. -/
def pathNames (path : List Char) : List String := (pieces '.' (dottedPath path)).map String.ofList

/-- The value under one name. -/
def child? : Value → String → Option Value
  | .dict entries, name => PyDict.get? entries name
  | .list items, name => (digits? name.toList).bind fun index => items[index]?
  | _, _ => none

/-- The object that holds one value. -/
def holding (name : String) (value : Value) : Value := .dict [(name, value)]

theorem child?_holding (name : String) (value : Value) :
    child? (holding name value) name = some value := by
  simp [holding, child?, PyDict.get?]

theorem child?_holding_of_ne (name : String) (value : Value) (other : String) (h : other ≠ name) :
    child? (holding name value) other = none := by
  simp [holding, child?, PyDict.get?, h]

theorem holding_ne (name : String) (value : Value) : holding name value ≠ .str "" := by
  intro h
  cases h

theorem dottedPath_append (a b : List Char) :
    dottedPath (a ++ b) = dottedPath a ++ dottedPath b := by
  rw [dottedPath, List.map_append, List.filter_append]
  rfl

theorem dottedPath_filter (path : List Char) :
    (dottedPath path).filter (· ≠ '.') = path.filter fun c => !isPathSeparator c := by
  induction path with
  | nil => rfl
  | cons c path ih =>
      have hcons : dottedPath (c :: path) = dottedPath [c] ++ dottedPath path :=
        dottedPath_append [c] path
      rw [hcons, List.filter_append, ih]
      by_cases hopen : c = '['
      · rw [hopen]
        rfl
      · by_cases hclose : c = ']'
        · rw [hclose]
          rfl
        · by_cases hdot : c = '.'
          · rw [hdot]
            rfl
          · have hsingle : dottedPath [c] = [c] := by simp [dottedPath, hopen, hclose]
            rw [hsingle, List.filter_cons_of_pos (by simpa using hdot),
              List.filter_cons_of_pos (by simp [isPathSeparator, hopen, hclose, hdot])]
            rfl

/-- The characters of the names are those of the path without the separators. -/
theorem flatMap_pathNames (path : List Char) :
    (pathNames path).flatMap String.toList = path.filter fun c => !isPathSeparator c := by
  rw [← dottedPath_filter, ← flatten_pieces, pathNames, List.flatMap_map]
  have hid : (fun piece => (String.ofList piece).toList) = (id : List Char → List Char) := by
    funext piece
    exact String.toList_ofList
  rw [hid, List.flatMap_id]

/-- `data.` before a path is one more name. -/
theorem pathNames_data (path : List Char) :
    pathNames ("data.".toList ++ path) = "data" :: pathNames path := by
  have hdotted : dottedPath ("data.".toList ++ path) = "data".toList ++ '.' :: dottedPath path := by
    rw [dottedPath_append]
    rfl
  have hdata : pieces '.' "data".toList = ["data".toList] :=
    pieces_of_notMem (List.cons_ne_nil _ _) (by decide)
  rw [pathNames, hdotted, pieces_append_cons, hdata]
  rfl

/-- Separators at the end of a path name nothing. -/
theorem pathNames_append (a : List Char) {b : List Char} (hb : ∀ c ∈ b, isPathSeparator c) :
    pathNames (a ++ b) = pathNames a := by
  have hdots : ∀ c ∈ dottedPath b, c = '.' := by
    intro c hc
    obtain ⟨hmap, hclose⟩ := List.mem_filter.mp hc
    obtain ⟨c', hmem, rfl⟩ := List.mem_map.mp hmap
    have hseparator := hb c' hmem
    by_cases hopen : c' = '['
    · rw [if_pos hopen]
    · rw [if_neg hopen] at hclose ⊢
      simpa [isPathSeparator, hopen, of_decide_eq_true hclose] using hseparator
  rw [pathNames, dottedPath_append, pieces_append_of_forall_eq _ hdots]
  rfl

/-! ## Walks of the engine -/

theorem readSegments_eq_ok_iff {path : String} {segments : List String} {current value : Value} :
    readSegments path segments current = .ok value ↔
      follow child? (segments.filter (· ≠ "")) current = some value := by
  induction segments generalizing current with
  | nil =>
      rw [readSegments]
      exact ⟨fun h => congrArg some (Except.ok.inj h),
        fun h => congrArg Except.ok (Option.some.inj h)⟩
  | cons segment segments ih =>
      by_cases hempty : segment = ""
      · -- empty segments are passed over by both
        have hskip : readSegments path (segment :: segments) current =
            readSegments path segments current := by simp [readSegments, hempty]
        rw [hskip, List.filter_cons_of_neg (by simpa using hempty), ih]
      · rw [List.filter_cons_of_pos (by simpa using hempty), follow_cons]
        cases current with
        | dict entries =>
            rw [readSegments, if_neg hempty, child?]
            cases hget : PyDict.get? entries segment with
            | none => exact ⟨fun h => (by cases h), fun h => (by cases h)⟩
            | some value => exact ih
        | list items =>
            rw [readSegments, if_neg hempty, child?]
            cases hdigits : digits? segment.toList with
            | none => exact ⟨fun h => (by cases h), fun h => (by cases h)⟩
            | some index =>
                rw [Option.bind_some]
                dsimp only
                cases hitem : items[index]? with
                | none => exact ⟨fun h => (by cases h), fun h => (by cases h)⟩
                | some value => exact ih
        | _ => simp [readSegments, child?, hempty]

theorem pathNames_eq (path : String) :
    (pathSegments path).filter (· ≠ "") = pathNames path.toList := by
  have hofList : ∀ piece : List Char, String.ofList piece = "" ↔ piece = [] := by
    intro piece
    rw [← String.toList_inj, String.toList_ofList]
    rfl
  rw [pathSegments, pathNames, pieces, List.filter_map]
  congr 1
  refine List.filter_congr fun piece _ => ?_
  simp [hofList]

/-- A path is read along its names. -/
theorem readOutputPath_eq_ok_iff {payload value : Value} {path : String} :
    readOutputPath payload path = .ok value ↔
      follow child? (pathNames path.toList) payload = some value := by
  rw [readOutputPath, readSegments_eq_ok_iff, pathNames_eq]

/-! ## Written references -/

/-- The names of the envelopes that the planner takes off a path. -/
def envelopeNames : List String :=
  ["output.", "result.", "tool_result.data.", "tool_result.", "data."]

/-- A path without the envelope name it begins with. -/
def withoutEnvelope (path : List Char) : List Char :=
  match envelopeNames.find? fun name => name.toList.isPrefixOf path with
  | some name => path.drop name.length
  | none => path

/-- A reference of the planner's grammar. -/
structure WrittenReference where
  source : String
  path : String
  isSource : ∀ c ∈ source.toList, isIdChar c
  sourceLength : 1 ≤ source.length ∧ source.length ≤ 120
  isPath : ∀ c ∈ path.toList, isPathChar c
  pathLength : 1 ≤ path.length ∧ path.length ≤ 240

namespace WrittenReference

variable {rt : Runtime} (written : WrittenReference)

/-- `source.path`. -/
def text : String := String.ofList (written.source.toList ++ '.' :: written.path.toList)

/-- What the engine walks along under `data`. -/
def kept : List Char := (withoutEnvelope written.path.toList).take 235

/-- No envelope name comes first, and nothing is named where the path is cut. -/
def Plain : Prop :=
  (∀ name ∈ envelopeNames, ¬name.toList <+: written.path.toList) ∧
    ∀ c ∈ written.path.toList.drop 235, isPathSeparator c

/-- Stripping changes no text of the grammar. -/
theorem strip_of_visible {text : String} (h : ∀ c ∈ text.toList, rt.isSpace c = false) :
    rt.strip text = text := by
  have hdrop : ∀ l : List Char, (∀ c ∈ l, rt.isSpace c = false) → l.dropWhile rt.isSpace = l := by
    intro l hl
    cases l with
    | nil => rfl
    | cons c l =>
        rw [List.dropWhile_cons_of_neg (Bool.eq_false_iff.mp (hl c (List.mem_cons_self ..)))]
  rw [Runtime.strip, hdrop _ h, hdrop _ (fun c hc => h c (List.mem_reverse.mp hc)),
    List.reverse_reverse, String.ofList_toList]

theorem path_visible (h : ReadsSpaces rt) : ∀ c ∈ written.path.toList, rt.isSpace c = false :=
  fun c hc => h.visible c (.inl (written.isPath c hc))

theorem text_visible (h : ReadsSpaces rt) : ∀ c ∈ written.text.toList, rt.isSpace c = false := by
  intro c hc
  rw [text, String.toList_ofList] at hc
  refine h.visible c (.inl ?_)
  rcases List.mem_append.mp hc with hsource | hrest
  · have hid := written.isSource c hsource
    simp [isPathChar, hid]
  · rcases List.mem_cons.mp hrest with rfl | hpath
    · rfl
    · exact written.isPath c hpath

/-- The pattern finds the source and the path. -/
theorem matchPieces_text :
    matchPieces referencePattern written.text.toList =
      some [written.source, ".", written.path] := by
  have hsource : written.source.toList.length = written.source.length := String.length_toList
  have hpath : written.path.toList.length = written.path.length := String.length_toList
  obtain ⟨hsourceLeast, hsourceMost⟩ := written.sourceLength
  obtain ⟨hpathLeast, hpathMost⟩ := written.pathLength
  have hnothing : matchPieces [] [] = some [] := rfl
  have hend := matchPieces_chars 1 (some 240) [] written.isPath rfl (by omega)
    (fun n hn => by cases hn; omega) hnothing
  rw [List.append_nil, String.ofList_toList] at hend
  have hdot : matchPieces [.oneOf ["."], .chars isPathChar 1 (some 240)]
      ('.' :: written.path.toList) = some [".", written.path] :=
    matchPieces_oneOf [] rfl hend
  have hall := matchPieces_chars 1 (some 120) ('.' :: written.path.toList) written.isSource rfl
    (by omega) (fun n hn => by cases hn; omega) hdot
  rw [String.ofList_toList] at hall
  rw [text, String.toList_ofList]
  exact hall

/-- Every canonical path is what is left of the path, under `data`. -/
theorem canonicalOutputPath_eq (h : ReadsSpaces rt) :
    canonicalOutputPath rt written.path =
      "data." ++ String.ofList (withoutEnvelope written.path.toList) := by
  -- the first of the names that fits is cut off
  have hfind : ∀ names : List String,
      (names.findSome? fun name =>
        if name.toList.isPrefixOf written.path.toList then
          some ("data." ++ String.ofList (written.path.toList.drop name.length))
        else none) =
        (names.find? fun name => name.toList.isPrefixOf written.path.toList).map fun name =>
          "data." ++ String.ofList (written.path.toList.drop name.length) := by
    intro names
    induction names with
    | nil => rfl
    | cons name names ih =>
        rw [List.findSome?_cons, List.find?_cons]
        by_cases hname : name.toList.isPrefixOf written.path.toList
        · rw [hname]
          rfl
        · rw [Bool.eq_false_iff.mpr hname]
          exact ih
  have hstrip := strip_of_visible (written.path_visible h)
  have hnames : envelopeNames =
      ["output.", "result.", "tool_result.data.", "tool_result."] ++ ["data."] := rfl
  unfold canonicalOutputPath withoutEnvelope
  rw [hstrip, hnames, List.find?_append]
  dsimp only
  rw [hfind]
  cases hfirst : ["output.", "result.", "tool_result.data.", "tool_result."].find? fun name =>
      name.toList.isPrefixOf written.path.toList with
  | some name => rfl
  | none =>
      rw [Option.none_or, List.find?_cons]
      by_cases hdata : "data.".toList.isPrefixOf written.path.toList
      · -- the path begins with `data.` already
        obtain ⟨rest, hrest⟩ := List.isPrefixOf_iff_prefix.mp hdata
        have hdrop : written.path.toList.drop "data.".length = rest := by
          rw [← hrest]
          rfl
        have hpath : written.path = "data." ++ String.ofList rest := by
          rw [← String.toList_inj, String.toList_append, String.toList_ofList (l := rest)]
          exact hrest.symm
        rw [hdata]
        dsimp only
        rw [hdrop]
        exact hpath
      · rw [Bool.eq_false_iff.mpr hdata, List.find?_nil]
        dsimp only
        rw [String.ofList_toList]
        rfl

/-- What the planner makes of the reference. -/
theorem argumentReference_eq (h : ReadsSpaces rt) (argument : String) {fields : PyDict}
    {dependsOn : List String} (hfrom : fields.get? "$from" = some (.str written.text))
    (hsource : written.source ∈ dependsOn) :
    argumentReference rt argument (.dict fields) dependsOn =
      some ⟨clip 120 argument, written.source, "data." ++ String.ofList written.kept⟩ := by
  have hlookup : fields.lookup "$from" = some (.str written.text) := hfrom
  have hlength : written.source.toList.length ≤ 120 := by
    rw [String.length_toList]
    exact written.sourceLength.2
  have hclip : clip 120 written.source = written.source := by
    rw [clip, List.take_of_length_le hlength, String.ofList_toList]
  have hcut : clip 240 ("data." ++ String.ofList (withoutEnvelope written.path.toList)) =
      "data." ++ String.ofList written.kept := by
    rw [clip, ← String.toList_inj]
    simp only [String.toList_append, String.toList_ofList]
    rfl
  rw [argumentReference, hlookup]
  dsimp only
  rw [strip_of_visible (written.text_visible h), written.matchPieces_text]
  dsimp only
  rw [if_pos hsource, referenceTo, hclip, written.canonicalOutputPath_eq h, hcut]

/-- Whatever argument of whatever node the reference is for, the engine binds it to `value` when
the data of the tool result are `data`. -/
def Binds (rt : Runtime) (written : WrittenReference) (data : PyDict) (value : Value) : Prop :=
  ∀ (fields : PyDict) (dependsOn : List String) (argument : String) (content response : PyDict)
    (outputs : NodeOutputs),
    fields.get? "$from" = some (.str written.text) → written.source ∈ dependsOn → argument ≠ "" →
    content.get? "data" = some (.dict data) → response.get? "tool_result" = some (.dict content) →
    outputs.get? written.source = some (normalizeToolOutput response) →
    ∃ reference, argumentReference rt argument (.dict fields) dependsOn = some reference ∧
      ∀ node : WorkflowNode, node.argumentReferences = [reference] →
        resolveNodeArguments node outputs =
          .ok { node with arguments := node.arguments.set (clip 120 argument) value }

theorem source_ne : written.source ≠ "" := by
  intro hempty
  have hleast := written.sourceLength.1
  rw [hempty] at hleast
  exact absurd hleast (by decide)

/-- The engine walks along what is left of the path. -/
theorem readOutputPath_kept {content data response : PyDict}
    (hcontent : content.get? "data" = some (.dict data))
    (hresponse : response.get? "tool_result" = some (.dict content)) (value : Value) :
    readOutputPath (.dict (normalizeToolOutput response)) ("data." ++ String.ofList written.kept) =
        .ok value ↔
      follow child? (pathNames written.kept) (.dict data) = some value := by
  have hlookup : PyDict.get? content "data" = some (.dict data) := hcontent
  have hnormal : normalizeToolOutput response =
      [("ok", (PyDict.get? content "ok").getD (.bool true)), ("data", .dict data)] := by
    rw [normalizeToolOutput, hresponse]
    dsimp only
    rw [hlookup]
  have hnames : pathNames ("data." ++ String.ofList written.kept).toList =
      "data" :: pathNames written.kept := by
    rw [String.toList_append, String.toList_ofList (l := written.kept)]
    exact pathNames_data written.kept
  rw [readOutputPath_eq_ok_iff, hnames, follow_cons, hnormal]
  rfl

/-- A node with one reference gets the value that is read. -/
theorem resolveNodeArguments_eq {node : WorkflowNode} {outputs : NodeOutputs} {output : PyDict}
    {argument path : String} (hnode : node.argumentReferences = [⟨argument, written.source, path⟩])
    (hargument : argument ≠ "") (hpath : path ≠ "")
    (houtput : outputs.get? written.source = some output) :
    resolveNodeArguments node outputs =
      (readOutputPath (.dict output) path).map fun value =>
        { node with arguments := node.arguments.set argument value } := by
  rw [resolveNodeArguments, hnode, List.foldlM_cons, bindReference]
  dsimp only
  rw [if_neg written.source_ne, if_neg hargument, if_neg hpath, houtput]
  dsimp only
  cases readOutputPath (.dict output) path with
  | error message => rfl
  | ok value => rfl

theorem clip_ne {argument : String} (hargument : argument ≠ "") : clip 120 argument ≠ "" := by
  intro hclip
  have hlist := congrArg String.toList hclip
  rw [clip, String.toList_ofList] at hlist
  cases hchars : argument.toList with
  | nil => exact hargument (String.toList_inj.mp hchars)
  | cons c chars =>
      rw [hchars] at hlist
      cases hlist

theorem data_append_ne (path : String) : "data." ++ path ≠ "" := by
  intro hempty
  have hlist := congrArg String.toList hempty
  rw [String.toList_append] at hlist
  cases hlist

/-- The value that is bound is the one at what is left of the path. -/
theorem binds_iff (h : ReadsSpaces rt) (data : PyDict) (value : Value) :
    written.Binds rt data value ↔
      follow child? (pathNames written.kept) (.dict data) = some value := by
  constructor
  · intro hbinds
    -- one response that holds the data, and one node that refers to it
    let content : PyDict := [("data", .dict data)]
    let response : PyDict := [("tool_result", .dict content)]
    let outputs : NodeOutputs :=
      ⟨[(written.source, normalizeToolOutput response)], List.nodup_singleton _⟩
    let fields : PyDict := [("$from", .str written.text)]
    have houtputs : outputs.get? written.source = some (normalizeToolOutput response) := by
      simp [outputs, Dict.get?]
    obtain ⟨reference, hreference, hnode⟩ := hbinds fields [written.source] "x" content response
      outputs rfl (List.mem_singleton_self _) (by decide) rfl rfl houtputs
    rw [written.argumentReference_eq h "x" rfl (List.mem_singleton_self _)] at hreference
    let node : WorkflowNode :=
      { id := "n", toolName := "t", toolServer := "s", description := "d", riskLevel := "LOW"
        argumentReferences := [reference] }
    have hresolved := hnode node rfl
    rw [written.resolveNodeArguments_eq (congrArg (fun r => [r]) (Option.some.inj hreference).symm)
      (clip_ne (by decide)) (data_append_ne _) houtputs] at hresolved
    have hcontent : content.get? "data" = some (.dict data) := rfl
    have hresponse : response.get? "tool_result" = some (.dict content) := rfl
    rw [← written.readOutputPath_kept hcontent hresponse]
    cases hread : readOutputPath (.dict (normalizeToolOutput response))
        ("data." ++ String.ofList written.kept) with
    | error message =>
        rw [hread] at hresolved
        cases hresolved
    | ok other =>
        rw [hread] at hresolved
        have harguments := congrArg WorkflowNode.arguments (Except.ok.inj hresolved)
        have hvalue : [(clip 120 "x", other)] = [(clip 120 "x", value)] := harguments
        rw [(Prod.mk.inj (List.singleton_inj.mp hvalue)).2]
  · intro hfollow fields dependsOn argument content response outputs hfrom hsource hargument
      hcontent hresponse houtputs
    refine ⟨_, written.argumentReference_eq h argument hfrom hsource, fun node hnode => ?_⟩
    rw [written.resolveNodeArguments_eq hnode (clip_ne hargument) (data_append_ne _) houtputs,
      (written.readOutputPath_kept hcontent hresponse value).mpr hfollow]
    rfl

/-- A path that begins with no envelope name keeps its beginning. -/
theorem kept_eq_take (h : ∀ name ∈ envelopeNames, ¬name.toList <+: written.path.toList) :
    written.kept = written.path.toList.take 235 := by
  have hnone : (envelopeNames.find? fun name => name.toList.isPrefixOf written.path.toList) =
      none := by
    refine List.find?_eq_none.mpr fun name hname hpre => ?_
    exact h name hname (List.isPrefixOf_iff_prefix.mp hpre)
  rw [kept, withoutEnvelope, hnone]

/-- A path that begins with an envelope name loses characters of its names. -/
theorem length_kept_lt {name : String} (hname : name ∈ envelopeNames)
    (hpre : name.toList <+: written.path.toList) :
    (written.kept.filter fun c => !isPathSeparator c).length <
      (written.path.toList.filter fun c => !isPathSeparator c).length := by
  cases hfind : envelopeNames.find? fun name => name.toList.isPrefixOf written.path.toList with
  | none =>
      have hnot := List.find?_eq_none.mp hfind name hname
      exact absurd (List.isPrefixOf_iff_prefix.mpr hpre) hnot
  | some first =>
      have hmem : first ∈ envelopeNames := List.mem_of_find?_eq_some hfind
      have hfirst : first.toList.isPrefixOf written.path.toList :=
        List.find?_some (p := fun name : String => name.toList.isPrefixOf written.path.toList) hfind
      obtain ⟨rest, hrest⟩ := List.isPrefixOf_iff_prefix.mp hfirst
      have hdrop : withoutEnvelope written.path.toList = rest := by
        rw [withoutEnvelope, hfind]
        dsimp only
        rw [← hrest, ← String.length_toList, List.drop_left]
      have hnames : 0 < (first.toList.filter fun c => !isPathSeparator c).length := by
        have hall : (envelopeNames.all fun name =>
            decide (0 < (name.toList.filter fun c => !isPathSeparator c).length)) = true := rfl
        exact of_decide_eq_true (List.all_eq_true.mp hall first hmem)
      have htake : (written.kept.filter fun c => !isPathSeparator c).length ≤
          (rest.filter fun c => !isPathSeparator c).length := by
        rw [kept, hdrop]
        exact ((List.take_sublist 235 rest).filter _).length_le
      rw [← hrest, List.filter_append, List.length_append]
      omega

/-- The names are kept exactly for a plain path. -/
theorem pathNames_kept_iff :
    pathNames written.kept = pathNames written.path.toList ↔ written.Plain := by
  constructor
  · intro hnames
    have hfilter : written.kept.filter (fun c => !isPathSeparator c) =
        written.path.toList.filter fun c => !isPathSeparator c := by
      rw [← flatMap_pathNames, hnames, flatMap_pathNames]
    have hplain : ∀ name ∈ envelopeNames, ¬name.toList <+: written.path.toList := by
      intro name hname hpre
      have hlt := written.length_kept_lt hname hpre
      rw [hfilter] at hlt
      exact absurd hlt (lt_irrefl _)
    refine ⟨hplain, fun c hc => ?_⟩
    rw [written.kept_eq_take hplain] at hfilter
    have hsplit := List.filter_append (p := fun c => !isPathSeparator c)
      (written.path.toList.take 235) (written.path.toList.drop 235)
    rw [List.take_append_drop, hfilter] at hsplit
    have hrest := List.filter_eq_nil_iff.mp (List.self_eq_append_right.mp hsplit) c hc
    simpa using hrest
  · intro hplain
    rw [written.kept_eq_take hplain.1]
    have hnames := pathNames_append (written.path.toList.take 235) hplain.2
    rw [List.take_append_drop] at hnames
    exact hnames.symm

end WrittenReference

/-- The engine binds a reference to the value at what is left of its path; that is the value at the
path in the data of every tool result just in case the path begins with no envelope name and names
nothing beyond its first 235 characters. -/
theorem references_keepMeaning_iff {rt : Runtime} (h : ReadsSpaces rt)
    (written : WrittenReference) :
    (∀ (data : PyDict) (value : Value),
      written.Binds rt data value ↔
        readOutputPath (.dict data) (String.ofList written.kept) = .ok value) ∧
    ((∀ (data : PyDict) (value : Value), readOutputPath (.dict data) written.path = .ok value →
      written.Binds rt data value) ↔ written.Plain) := by
  constructor
  · intro data value
    rw [written.binds_iff h, readOutputPath_eq_ok_iff, String.toList_ofList]
  · rw [← written.pathNames_kept_iff]
    constructor
    · intro hall
      -- the data that hold one text at the path and nothing else
      cases hnames : pathNames written.path.toList with
      | nil =>
          have hread : readOutputPath (.dict []) written.path = .ok (.dict []) := by
            rw [readOutputPath_eq_ok_iff, hnames]
            rfl
          have hfollow := (written.binds_iff h _ _).mp (hall [] _ hread)
          cases hkept : pathNames written.kept with
          | nil => rfl
          | cons name names =>
              rw [hkept] at hfollow
              cases hfollow
      | cons name names =>
          have hread : readOutputPath (.dict [(name, nest holding names (.str ""))]) written.path =
              .ok (.str "") := by
            rw [readOutputPath_eq_ok_iff, hnames]
            exact follow_nest child?_holding (name :: names) (.str "")
          have hfollow := (written.binds_iff h _ _).mp (hall _ _ hread)
          exact eq_of_follow_nest child?_holding child?_holding_of_ne (fun _ => rfl) holding_ne
            hfollow
    · intro hnames data value hread
      rw [written.binds_iff h, hnames]
      exact readOutputPath_eq_ok_iff.mp hread

/-! ### References for small examples -/

theorem check_isSource : ∀ c ∈ "check".toList, isIdChar c := List.all_eq_true.mp rfl

theorem check_length : 1 ≤ "check".length ∧ "check".length ≤ 120 := by decide

/-- `check.path` with a path of the grammar. -/
def checkReference (path : String) (isPath : (path.toList.all isPathChar) = true)
    (pathLength : 1 ≤ path.length ∧ path.length ≤ 240) : WrittenReference where
  source := "check"
  path
  isSource := check_isSource
  sourceLength := check_length
  isPath := List.all_eq_true.mp isPath
  pathLength

theorem references_keepMeaning_iff_jobs :
    (checkReference "jobs.0.id" rfl (by decide)).Binds .plain
      [("jobs", .list [.dict [("id", .int 7)]])] (.int 7) := by
  have hread : readOutputPath (.dict [("jobs", .list [.dict [("id", .int 7)]])])
      (String.ofList (checkReference "jobs.0.id" rfl (by decide)).kept) = .ok (.int 7) := rfl
  exact ((references_keepMeaning_iff readsSpaces_plain _).1 _ _).mpr hread

/-- A name of `n` characters. -/
def longName (n : ℕ) : String := String.ofList (List.replicate n 'x')

theorem toList_longName (n : ℕ) : (longName n).toList = List.replicate n 'x' := String.toList_ofList

theorem length_longName (n : ℕ) : (longName n).length = n := by
  rw [longName, String.length_ofList, List.length_replicate]

theorem longName_isPath (n : ℕ) : ∀ c ∈ (longName n).toList, isPathChar c := by
  intro c hc
  rw [toList_longName] at hc
  rw [List.eq_of_mem_replicate hc]
  rfl

theorem longName_pathLength {n : ℕ} (h : 1 ≤ n ∧ n ≤ 240) :
    1 ≤ (longName n).length ∧ (longName n).length ≤ 240 := by rwa [length_longName]

/-- `check.xx...x`. -/
def longReference (n : ℕ) (h : 1 ≤ n ∧ n ≤ 240) : WrittenReference where
  source := "check"
  path := longName n
  isSource := check_isSource
  sourceLength := check_length
  isPath := longName_isPath n
  pathLength := longName_pathLength h

theorem pathNames_longName {n : ℕ} (h : 1 ≤ n) :
    pathNames (List.replicate n 'x') = [longName n] := by
  have hdotted : dottedPath (List.replicate n 'x') = List.replicate n 'x' := by
    rw [dottedPath, List.map_replicate]
    exact List.filter_eq_self.mpr fun c hc => by rw [List.eq_of_mem_replicate hc]; rfl
  have hdot : '.' ∉ List.replicate n 'x' := by
    intro hmem
    exact absurd (List.eq_of_mem_replicate hmem) (by decide)
  have hne : List.replicate n 'x' ≠ [] := by
    intro hnil
    have hlength := congrArg List.length hnil
    rw [List.length_replicate, List.length_nil] at hlength
    omega
  rw [pathNames, hdotted, pieces_of_notMem hne hdot]
  rfl

/-- The value under a name that does not fit after `data.` is not found. -/
theorem longReference_not_binds {n : ℕ} (h : 1 ≤ n ∧ n ≤ 240) (hlong : 235 < n) (value : Value) :
    readOutputPath (.dict [(longName n, value)]) (longName n) = .ok value ∧
      ¬(longReference n h).Binds .plain [(longName n, value)] value := by
  have hpath : (longReference n h).path.toList = List.replicate n 'x' := toList_longName n
  have hplain : ∀ name ∈ envelopeNames, ¬name.toList <+: (longReference n h).path.toList := by
    intro name hname hpre
    rw [hpath] at hpre
    have hall : (envelopeNames.all fun name => name.toList.any (· ≠ 'x')) = true := rfl
    obtain ⟨c, hc, hne⟩ := List.any_eq_true.mp (List.all_eq_true.mp hall name hname)
    have hx := List.eq_of_mem_replicate (hpre.subset hc)
    simp [hx] at hne
  -- the first 235 characters are kept, which is another name
  have hkept : pathNames (longReference n h).kept = [longName 235] := by
    rw [(longReference n h).kept_eq_take hplain, hpath, List.take_replicate,
      Nat.min_eq_left hlong.le]
    exact pathNames_longName (by omega)
  have hother : longName 235 ≠ longName n := by
    intro hname
    have hlength := congrArg String.length hname
    rw [length_longName, length_longName] at hlength
    omega
  constructor
  · rw [readOutputPath_eq_ok_iff, toList_longName, pathNames_longName h.1, follow_cons]
    have hfound : child? (holding (longName n) value) (longName n) = some value :=
      child?_holding (longName n) value
    rw [← holding, hfound]
    rfl
  · intro hbinds
    have hfollow := ((longReference n h).binds_iff readsSpaces_plain _ _).mp hbinds
    rw [hkept, follow_cons, ← holding, child?_holding_of_ne _ _ _ hother] at hfollow
    cases hfollow

/-- From data with a `result` of its own the engine takes another value, and the value under a name
of 236 characters it does not find. -/
theorem resultReference_differs :
    (readOutputPath (.dict [("result", .dict [("id", .int 7)]), ("id", .int 8)]) "result.id" =
        .ok (.int 7) ∧
      (checkReference "result.id" rfl (by decide)).Binds .plain
        [("result", .dict [("id", .int 7)]), ("id", .int 8)] (.int 8) ∧
      ¬(checkReference "result.id" rfl (by decide)).Binds .plain
        [("result", .dict [("id", .int 7)]), ("id", .int 8)] (.int 7)) ∧
    (readOutputPath (.dict [(longName 236, .int 7)]) (longName 236) = .ok (.int 7) ∧
      ¬(longReference 236 (by omega)).Binds .plain [(longName 236, .int 7)] (.int 7)) := by
  refine ⟨?_, longReference_not_binds _ (by omega) _⟩
  have hbinds := (checkReference "result.id" rfl (by decide)).binds_iff readsSpaces_plain
    [("result", .dict [("id", .int 7)]), ("id", .int 8)]
  refine ⟨rfl, (hbinds (.int 8)).mpr rfl, fun h => ?_⟩
  have hvalue : some (Value.int 8) = some (Value.int 7) := (hbinds (.int 7)).mp h
  cases hvalue

end McpOps
