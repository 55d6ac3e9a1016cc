import McpOps.Lib.Runs
import McpOps.Planner.ReferencePaths
import McpOps.Workflow.Validator

/-!
# Reading along output paths

`read_output_path` walks along the names in a path, with `isdigit` and `int` of Python for the
items of a list.  A path behind another is read from what the other leads to.  On the paths that
the validator accepts, digits are ASCII digits, so that `int` does not fail.

## Strategy

`walkOutputPath` is the function for paths of any characters, with `isdigit` and `int` as a
`DigitReader`.  On accepted paths it agrees with the walk that the engine's model uses.

* An accepted path has ASCII characters and at most 240 of them (`isSafePath_cases`, with the line
  end that Python's `$` lets through), and so has every segment (`isPlain_of_isSafePath`).
* On plain segments `int` does not fail (`walkSegments_eq`), so only errors of the binding are
  left (`walkOutputPath_eq`).

The names of a path behind another come after those of the other (`pathNames_append_dot`), and a
walk along names that are appended is two walks.  `walkOutputPath_append` states both, for values
and for errors.
-/

namespace McpOps

open DottedPath

/-! ## Digits of Python -/

/-- How Python reads digits. -/
structure DigitReader where
  /-- `segment.isdigit()` -/
  isDigit : String → Bool
  /-- `int(segment)`, if it raises no `ValueError` -/
  parseInt : String → Option ℕ

/-- Texts of ASCII characters are read as decimal numbers, up to the limit of `int`. -/
structure DigitReader.ReadsAscii (digits : DigitReader) : Prop where
  isDigit : ∀ text : String, (∀ c ∈ text.toList, c.toNat < 128) →
    digits.isDigit text = (digits? text.toList).isSome
  parseInt : ∀ (text : String) (n : ℕ), text.length ≤ 4300 → digits? text.toList = some n →
    digits.parseInt text = some n

/-- What `read_output_path` raises. -/
inductive PathFailure where
  /-- `ArgumentBindingError` -/
  | argumentBinding (message : String)
  /-- the `ValueError` of `int` -/
  | valueError
  deriving DecidableEq, Repr

/-- `current` after the segments of the path. -/
def walkSegments (digits : DigitReader) (path : String) :
    List String → Value → Except PathFailure Value
  | [], current => .ok current
  | segment :: rest, current =>
      if segment = "" then walkSegments digits path rest current
      else
        match current with
        | .dict entries =>
            match PyDict.get? entries segment with
            | some value => walkSegments digits path rest value
            | none => .error (.argumentBinding s!"Output path {path} is missing.")
        | .list items =>
            if digits.isDigit segment then
              match digits.parseInt segment with
              | none => .error .valueError
              | some index =>
                  match items[index]? with
                  | some value => walkSegments digits path rest value
                  | none => .error (.argumentBinding s!"Output path {path} index is out of range.")
            else .error (.argumentBinding s!"Output path {path} cannot be resolved.")
        | _ => .error (.argumentBinding s!"Output path {path} cannot be resolved.")

/-- `read_output_path(payload, path)`, for paths of any characters. -/
def walkOutputPath (digits : DigitReader) (payload : Value) (path : String) :
    Except PathFailure Value :=
  walkSegments digits path (pathSegments path) payload

/-! ## Paths of ASCII characters -/

/-- The text is in ASCII, and short enough for `int`. -/
def IsPlain (text : List Char) : Prop := (∀ c ∈ text, c.toNat < 128) ∧ text.length ≤ 4300

theorem IsPlain.segment {path segment : String} (h : IsPlain path.toList)
    (hsegment : segment ∈ pathSegments path) : IsPlain segment.toList := by
  obtain ⟨piece, hpiece, rfl⟩ := List.mem_map.mp hsegment
  have hpart := (Runs.mem_splitOnP hpiece).2
  have hlength : piece.length ≤ path.toList.length := by
    refine hpart.length_le.trans ((List.length_filter_le ..).trans ?_)
    rw [List.length_map]
  rw [String.toList_ofList]
  refine ⟨fun c hc => ?_, hlength.trans h.2⟩
  obtain ⟨hmem, -⟩ := List.mem_filter.mp (hpart.subset hc)
  obtain ⟨d, hd, rfl⟩ := List.mem_map.mp hmem
  split
  · decide
  · exact h.1 d hd

/-- On plain segments `int` does not fail. -/
theorem walkSegments_eq {digits : DigitReader} (hdigits : digits.ReadsAscii) (path : String)
    {segments : List String} (hsegments : ∀ segment ∈ segments, IsPlain segment.toList)
    (current : Value) :
    walkSegments digits path segments current =
      (readSegments path segments current).mapError .argumentBinding := by
  induction segments generalizing current with
  | nil => rfl
  | cons segment rest ih =>
      -- the names of a safe path are plain, so both readers of digits agree on them
      have hrest := ih fun segment hmem => hsegments segment (List.mem_cons_of_mem _ hmem)
      obtain ⟨hascii, hlength⟩ := hsegments segment (List.mem_cons_self ..)
      by_cases hempty : segment = ""
      · simp only [walkSegments, readSegments, if_pos hempty]
        exact hrest current
      · cases current with
        | dict entries =>
            rw [walkSegments, readSegments, if_neg hempty, if_neg hempty]
            cases PyDict.get? entries segment with
            | none => rfl
            | some value => exact hrest value
        | list items =>
            rw [walkSegments, readSegments, if_neg hempty, if_neg hempty,
              hdigits.isDigit segment hascii]
            cases hread : digits? segment.toList with
            | none => rfl
            | some index =>
                rw [Option.isSome_some, if_pos rfl,
                  hdigits.parseInt segment index (by rwa [← String.length_toList]) hread]
                dsimp only
                cases items[index]? with
                | none => rfl
                | some value => exact hrest value
        | _ => simp [walkSegments, readSegments, hempty, Except.mapError]

theorem walkOutputPath_eq {digits : DigitReader} (hdigits : digits.ReadsAscii) {path : String}
    (hpath : IsPlain path.toList) (payload : Value) :
    walkOutputPath digits payload path =
      (readOutputPath payload path).mapError .argumentBinding :=
  walkSegments_eq hdigits path (fun _ hsegment => hpath.segment hsegment) payload

/-! ## Accepted paths -/

theorem toNat_lt_of_isPathChar {c : Char} (h : isPathChar c) : c.toNat < 128 := by
  have hdigit : c.isDigit → c.toNat ≤ 57 := by
    intro hd
    simp only [Char.isDigit, Bool.and_eq_true, decide_eq_true_eq] at hd
    exact hd.2
  simp only [isPathChar, isIdChar, Bool.or_eq_true, Bool.and_eq_true, decide_eq_true_eq] at h
  rcases h with ((((((hd | h) | h) | h) | h) | h) | h) | h
  · have hle := hdigit hd
    omega
  · omega
  · omega
  all_goals rw [h]; decide

/-- An accepted path has up to 240 characters of paths, and may end a line. -/
theorem isSafePath_cases {path : String} (h : isSafePath path) :
    ∃ chars : List Char, (∀ c ∈ chars, isPathChar c) ∧ chars.length ≤ 240 ∧
      (path.toList = chars ∨ path.toList = chars ++ ['\n']) := by
  rw [isSafePath, matchPieces] at h
  obtain ⟨groups, hgroups⟩ := Option.isSome_iff_exists.mp h
  obtain ⟨n, hn, hmatch⟩ := List.exists_of_findSome?_eq_some hgroups
  obtain ⟨rest, hrest, -⟩ := Option.map_eq_some_iff.mp hmatch
  have hle := List.mem_range.mp (List.mem_reverse.mp (List.mem_filter.mp hn).1)
  have hmost : n ≤ (path.toList.takeWhile isPathChar).length ∧ n ≤ 240 :=
    Nat.le_min.mp (Nat.lt_succ_iff.mp hle)
  refine ⟨path.toList.take n, fun c hc => ?_, ?_, ?_⟩
  · have hpre : path.toList.take n <+: path.toList.takeWhile isPathChar :=
      List.prefix_of_prefix_length_le (List.take_prefix ..) (List.takeWhile_prefix _)
        ((List.length_take_le ..).trans hmost.1)
    exact List.mem_takeWhile_imp (hpre.subset hc)
  · exact (List.length_take_le ..).trans hmost.2
  · rw [matchPieces] at hrest
    split at hrest
    · rename_i hend
      rcases hend with hnil | hbreak
      · left
        rw [← List.take_append_drop n path.toList, hnil, List.append_nil, List.take_take]
        simp
      · right
        rw [← hbreak, List.take_append_drop]
    · cases hrest

theorem ascii_of_isSafePath {path : String} (h : isSafePath path) :
    (∀ c ∈ path.toList, c.toNat < 128) ∧ path.toList.length ≤ 241 := by
  obtain ⟨chars, hchars, hlength, hpath | hpath⟩ := isSafePath_cases h
  · rw [hpath]
    exact ⟨fun c hc => toNat_lt_of_isPathChar (hchars c hc), by omega⟩
  · rw [hpath, List.length_append]
    refine ⟨fun c hc => ?_, Nat.succ_le_succ hlength⟩
    rcases List.mem_append.mp hc with hc | hc
    · exact toNat_lt_of_isPathChar (hchars c hc)
    · rw [List.mem_singleton.mp hc]
      decide

theorem isPlain_of_isSafePath {path : String} (h : isSafePath path) : IsPlain path.toList := by
  obtain ⟨hascii, hlength⟩ := ascii_of_isSafePath h
  exact ⟨hascii, by omega⟩

theorem isPlain_append {p q : String} (hp : isSafePath p) (hq : isSafePath q) :
    IsPlain (p ++ "." ++ q).toList := by
  obtain ⟨hp, hplength⟩ := ascii_of_isSafePath hp
  obtain ⟨hq, hqlength⟩ := ascii_of_isSafePath hq
  rw [String.toList_append, String.toList_append]
  constructor
  · intro c hc
    rcases List.mem_append.mp hc with hc | hc
    · rcases List.mem_append.mp hc with hc | hc
      · exact hp c hc
      · rw [List.mem_singleton.mp hc]
        decide
    · exact hq c hc
  · rw [List.length_append, List.length_append]
    exact (Nat.add_le_add (Nat.add_le_add_right hplength 1) hqlength).trans (by decide)

/-! ## One path behind another -/

/-- The names of a path behind another come after those of the other. -/
theorem pathNames_append_dot (p q : String) :
    pathNames (p ++ "." ++ q).toList = pathNames p.toList ++ pathNames q.toList := by
  have hdotted : dottedPath (p ++ "." ++ q).toList =
      dottedPath p.toList ++ '.' :: dottedPath q.toList := by
    rw [String.toList_append, String.toList_append, dottedPath_append, dottedPath_append,
      List.append_assoc]
    rfl
  rw [pathNames, hdotted, pieces_append_cons, List.map_append]
  rfl

theorem readOutputPath_append (payload : Value) (p q : String) :
    (readOutputPath payload (p ++ "." ++ q)).toOption =
      (readOutputPath payload p).toOption.bind fun value => (readOutputPath value q).toOption := by
  have hread : ∀ (payload : Value) (path : String), (readOutputPath payload path).toOption =
      follow child? (pathNames path.toList) payload := by
    intro payload path
    refine Option.ext fun value => ?_
    rw [← readOutputPath_eq_ok_iff]
    cases readOutputPath payload path with
    | error message => exact ⟨fun h => (by cases h), fun h => (by cases h)⟩
    | ok found => exact ⟨fun h => (by cases h; rfl), fun h => (by cases h; rfl)⟩
  rw [hread, hread, pathNames_append_dot, follow, List.foldlM_append]
  exact congrArg _ (funext fun value => (hread value q).symm)

/-- **Output paths.**  Of two accepted paths, one behind the other is read from what the other
leads to, where there is one; and accepted paths fail only with an error of the binding. -/
theorem walkOutputPath_append {digits : DigitReader} (hdigits : digits.ReadsAscii)
    (payload : Value) {p q : String} (hp : isSafePath p) (hq : isSafePath q) :
    ((walkOutputPath digits payload (p ++ "." ++ q)).toOption =
        (walkOutputPath digits payload p).toOption.bind fun value =>
          (walkOutputPath digits value q).toOption) ∧
      ∀ path ∈ [p, q, p ++ "." ++ q], ∀ failure,
        walkOutputPath digits payload path = .error failure →
          ∃ message, failure = .argumentBinding message := by
  have hoption : ∀ result : Except String Value,
      (result.mapError PathFailure.argumentBinding).toOption = result.toOption := by
    intro result
    cases result <;> rfl
  have hcomposed := readOutputPath_append payload p q
  -- the two paths and their composition have plain names only
  have hplain : ∀ path ∈ [p, q, p ++ "." ++ q], IsPlain path.toList := by
    intro path hpath
    simp only [List.mem_cons, List.not_mem_nil, or_false] at hpath
    rcases hpath with rfl | rfl | rfl
    · exact isPlain_of_isSafePath hp
    · exact isPlain_of_isSafePath hq
    · exact isPlain_append hp hq
  constructor
  · rw [walkOutputPath_eq hdigits (isPlain_append hp hq), hoption, hcomposed,
      walkOutputPath_eq hdigits (isPlain_of_isSafePath hp), hoption]
    refine congrArg _ (funext fun value => ?_)
    rw [walkOutputPath_eq hdigits (isPlain_of_isSafePath hq), hoption]
  · -- what fails is the reading, and it is passed on as one error
    intro path hpath failure hfailure
    rw [walkOutputPath_eq hdigits (hplain path hpath)] at hfailure
    cases hread : readOutputPath payload path with
    | error message =>
        rw [hread] at hfailure
        cases hfailure
        exact ⟨message, rfl⟩
    | ok value =>
        rw [hread] at hfailure
        cases hfailure

/-- Digits as in ASCII. -/
def DigitReader.ascii : DigitReader where
  isDigit text := (digits? text.toList).isSome
  parseInt text := digits? text.toList

theorem readsAscii_ascii : DigitReader.ascii.ReadsAscii where
  isDigit _ _ := rfl
  parseInt _ _ _ h := h

/-- The second of a list under a key, behind the first item of another list. -/
theorem walkOutputPath_append_nested :
    (walkOutputPath .ascii
        (.dict [("jobs", .list [.dict [("steps", .list [.int 3, .int 5])]])])
        ("jobs[0]" ++ "." ++ "steps[1]")).toOption = some (.int 5) :=
  (walkOutputPath_append readsAscii_ascii
    (.dict [("jobs", .list [.dict [("steps", .list [.int 3, .int 5])]])])
    (by decide : isSafePath "jobs[0]") (by decide : isSafePath "steps[1]")).1.trans rfl

end McpOps
