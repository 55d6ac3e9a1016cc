import McpOps.Knowledge.Ingestion

/-!
# What ingestion keeps of a document

The words of a document are the runs without white space and control characters, the markers of
its headings aside.  A word gets into a chunk unless it stands before the first heading, in the
heading of a section without a body, or behind the first 600 characters of a chunk.

## Strategy

Both what is kept and what is lost are computed from the source text (`keptParts`, `lostParts`),
so the statement needs no chunk.

* Headings: the words of a text are those before its headings, and the marker, the heading and the
  words that follow for each (`words_splitHeadings`).
* Sentences: packing them keeps every run without white space (`sentenceChunks_keeps`), and a
  section keeps its heading, in each of its chunks, and its body (`section_keeps`).
* Cleaning: a run in the first 600 characters stays, or is lost behind them
  (`sanitizeDescription_keeps`).

`kept_or_lost` puts the three together.  As a word of a lost part may stand in a kept part as
well, `ingestDocument_keepsWords_iff` compares the two, with blank lost parts as the case that
suffices.
-/

namespace McpOps

open Redaction Runs

/-- What stands between words. -/
def isBreak (c : Char) : Bool := isSpace c || isControl c

theorem isBreak_of_isSpace {c : Char} (h : isSpace c) : isBreak c := by
  rw [isBreak, h]
  rfl

theorem isSpace_newline {c : Char} (h : c = '\n') : isSpace c := by
  rw [h]
  rfl

/-- The words of a document, the markers of its headings aside. -/
def documentWords (content : List Char) : List (List Char) :=
  words isBreak (headingsOf content).1 ++ (headingsOf content).2.flatMap fun part =>
    words isBreak part.1.heading ++ words isBreak part.2

/-! ## Reading headings -/

/-- The text begins with the match, which has `lead` and `spaces` around its marker. -/
structure HeadingMatch.Reads (found : HeadingMatch) (text lead spaces : List Char) : Prop where
  text_eq : text =
    lead ++ (found.marker ++ (spaces ++ (found.heading ++ (found.trailing ++ found.after))))
  lead_isSpace : ∀ c ∈ lead, isSpace c
  marker_ne : found.marker ≠ []
  marker_eq : ∀ c ∈ found.marker, c = '#'
  spaces_ne : spaces ≠ []
  spaces_isSpace : ∀ c ∈ spaces, isSpace c
  trailing_isSpace : ∀ c ∈ found.trailing, isSpace c
  ends : ∀ c, (found.trailing ++ found.after).head? = some c → isSpace c

theorem trailingSpace_initial (text : List Char) : trailingSpace text <+: text := by
  rw [trailingSpace]
  split
  · exact List.prefix_rfl
  · exact (List.dropLast_prefix _).trans
      ((List.rdropWhile_prefix ..).trans (List.takeWhile_prefix _))

theorem trailingSpace_isSpace (text : List Char) : ∀ c ∈ trailingSpace text, isSpace c := by
  intro c hc
  rw [trailingSpace] at hc
  split at hc
  · rename_i hall
    have htext := (List.takeWhile_prefix isSpace (l := text)).eq_of_length hall
    rw [← htext] at hc
    exact List.mem_takeWhile_imp hc
  · exact List.mem_takeWhile_imp ((List.rdropWhile_prefix ..).subset (List.mem_of_mem_dropLast hc))

/-- The line of a heading goes on with white space, or ends there. -/
theorem head?_drop_rdropWhile {c : Char} (text : List Char)
    (h : (text.drop ((text.takeWhile (· ≠ '\n')).rdropWhile isSpace).length).head? = some c) :
    isSpace c := by
  have hline : (text.takeWhile (· ≠ '\n')).rdropWhile isSpace ++
      ((text.takeWhile (· ≠ '\n')).rtakeWhile isSpace ++ text.dropWhile (· ≠ '\n')) = text := by
    rw [← List.append_assoc, List.rdropWhile_append_rtakeWhile, List.takeWhile_append_dropWhile]
  have hdrop := congrArg
    (fun l => l.drop ((text.takeWhile (· ≠ '\n')).rdropWhile isSpace).length) hline
  rw [List.drop_left] at hdrop
  rw [← hdrop, List.head?_append, Option.or_eq_some_iff] at h
  rcases h with hspace | ⟨-, hbreak⟩
  · exact List.mem_rtakeWhile_imp (List.mem_of_head? hspace)
  · have hnot := List.head?_dropWhile_not (fun c => decide (c ≠ '\n')) text
    rw [hbreak] at hnot
    exact isSpace_newline (by simpa using hnot)

theorem HeadingMatch.reads_of_headingAt {found : HeadingMatch} {text : List Char}
    (h : headingAt text = some found) : ∃ lead spaces, found.Reads text lead spaces := by
  rw [headingAt] at h
  split at h
  · cases h
  · rename_i hneither
    rw [not_or, not_or] at hneither
    obtain ⟨hmarker, -, hspaces⟩ := hneither
    have hlead := List.takeWhile_append_dropWhile (p := isSpace) (l := text)
    have hmarked := List.takeWhile_append_dropWhile (p := (· = '#')) (l := text.dropWhile isSpace)
    have hspaced := List.takeWhile_append_dropWhile (p := isSpace)
      (l := (text.dropWhile isSpace).dropWhile (· = '#'))
    have hsharp : ∀ c ∈ (text.dropWhile isSpace).takeWhile (· = '#'), c = '#' := by
      intro c hc
      simpa using List.mem_takeWhile_imp hc
    split at h
    · -- a blank line after the marker: the pattern goes back, and gives its last character to the
      -- heading
      rename_i hblank
      obtain ⟨c, hc, rfl⟩ := Option.map_eq_some_iff.mp h
      obtain ⟨before, hbefore⟩ := List.getLast?_eq_some_iff.mp hc
      rw [hblank, List.append_nil] at hspaced
      obtain ⟨first, tail, hcons⟩ := List.exists_cons_of_ne_nil hspaces
      have hall : ∀ d ∈ first :: tail, isSpace d := by
        intro d hd
        rw [← hcons] at hd
        exact List.mem_takeWhile_imp hd
      rw [hcons, List.tail_cons] at hbefore
      have htail := List.rdropWhile_append_rtakeWhile (p := fun d => decide (d = '\n')) (l := tail)
      rw [hbefore, List.append_assoc, List.singleton_append] at htail
      have hmem : ∀ d ∈ before ++ c :: tail.rtakeWhile (· = '\n'), isSpace d := by
        intro d hd
        rw [htail] at hd
        exact hall d (List.mem_cons_of_mem _ hd)
      refine ⟨text.takeWhile isSpace, first :: before, ?_, fun d hd => List.mem_takeWhile_imp hd,
        hmarker, hsharp, List.cons_ne_nil _ _, ?_, ?_, ?_⟩
      · dsimp only
        rw [hcons, List.tail_cons, List.append_nil, List.singleton_append, List.cons_append, htail,
          ← hcons, hspaced, hmarked, hlead]
      · intro d hd
        rcases List.mem_cons.mp hd with rfl | hd
        · exact hall d (List.mem_cons_self ..)
        · exact hmem d (List.mem_append_left _ hd)
      · intro d hd
        dsimp only at hd
        rw [hcons, List.tail_cons] at hd
        exact hmem d (List.mem_append_right _ (List.mem_cons_of_mem _ hd))
      · intro d hd
        dsimp only at hd
        rw [hcons, List.tail_cons, List.append_nil] at hd
        exact hmem d (List.mem_append_right _ (List.mem_cons_of_mem _ (List.mem_of_head? hd)))
    · -- the heading is the rest of the line without the spaces at its end
      rename_i c rest hrest
      cases h
      have hheading := List.prefix_iff_eq_append.mp
        ((List.rdropWhile_prefix isSpace ((c :: rest).takeWhile (· ≠ '\n'))).trans
          (List.takeWhile_prefix _))
      have htrailing := List.prefix_iff_eq_append.mp (trailingSpace_initial ((c :: rest).drop
        (((c :: rest).takeWhile (· ≠ '\n')).rdropWhile isSpace).length))
      refine ⟨text.takeWhile isSpace, _, ?_, fun c hc => List.mem_takeWhile_imp hc, hmarker,
        hsharp, hspaces, fun c hc => List.mem_takeWhile_imp hc, trailingSpace_isSpace _, ?_⟩
      · dsimp only
        rw [htrailing, hheading, ← hrest, hspaced, hmarked, hlead]
      · intro d hd
        dsimp only at hd
        rw [htrailing] at hd
        exact head?_drop_rdropWhile _ hd

theorem HeadingMatch.Reads.words_eq {found : HeadingMatch} {text lead spaces : List Char}
    (h : found.Reads text lead spaces) :
    words isBreak text =
      found.marker :: (words isBreak found.heading ++ words isBreak found.after) := by
  have hmarker : Unbroken isBreak found.marker := by
    intro c hc
    rw [h.marker_eq c hc]
    rfl
  have hspaces : ∀ rest c, (spaces ++ rest).head? = some c → isBreak c := by
    intro rest c hc
    rw [List.head?_append_of_ne_nil _ h.spaces_ne] at hc
    exact isBreak_of_isSpace (h.spaces_isSpace c (List.mem_of_head? hc))
  calc words isBreak text
      = words isBreak (found.marker ++
          (spaces ++ (found.heading ++ (found.trailing ++ found.after)))) := by
        rw [h.text_eq, words_append_of_sep fun c hc => isBreak_of_isSpace (h.lead_isSpace c hc)]
    _ = found.marker :: words isBreak (found.heading ++ (found.trailing ++ found.after)) := by
        rw [words_append_of_head _ (hspaces _), words_of_unbroken hmarker h.marker_ne,
          words_append_of_sep fun c hc => isBreak_of_isSpace (h.spaces_isSpace c hc)]
        rfl
    _ = found.marker :: (words isBreak found.heading ++ words isBreak found.after) := by
        rw [words_append_of_head _ fun c hc => isBreak_of_isSpace (h.ends c hc),
          words_append_of_sep fun c hc => isBreak_of_isSpace (h.trailing_isSpace c hc)]

/-- A match begins a line. -/
theorem findHeading_eq_some {lineStart : Bool} {text before : List Char} {found : HeadingMatch}
    (h : findHeading lineStart text = some (before, found)) :
    ∃ rest, text = before ++ rest ∧ headingAt rest = some found ∧
      ((before = [] ∧ lineStart) ∨ ∃ lines, before = lines ++ ['\n']) := by
  induction text generalizing lineStart before with
  | nil => cases h
  | cons c text ih =>
      rw [findHeading] at h
      split at h
      · rename_i hat
        cases h
        split at hat
        · rename_i hstart
          exact ⟨c :: text, rfl, hat, .inl ⟨rfl, hstart⟩⟩
        · cases hat
      · obtain ⟨later, hlater, heq⟩ := Option.map_eq_some_iff.mp h
        cases heq
        obtain ⟨rest, htext, hat, hstart⟩ := ih hlater
        refine ⟨rest, by rw [List.cons_append, ← htext], hat, .inr ?_⟩
        rcases hstart with ⟨hnil, hbreak⟩ | ⟨lines, hlines⟩
        · rw [hnil, of_decide_eq_true hbreak]
          exact ⟨[], rfl⟩
        · rw [hlines]
          exact ⟨c :: lines, rfl⟩

theorem words_append_of_lines {before : List Char} (rest : List Char)
    (h : before = [] ∨ ∃ lines, before = lines ++ ['\n']) :
    words isBreak (before ++ rest) = words isBreak before ++ words isBreak rest := by
  rcases h with rfl | ⟨lines, rfl⟩
  · rfl
  · have hbreak : isBreak '\n' := isBreak_of_isSpace rfl
    rw [List.append_assoc, List.singleton_append, words_append_cons _ _ hbreak,
      words_append_cons _ _ hbreak, words_nil, List.append_nil]

/-- The words of a text are those before its headings, and the marker, the heading and the words
that follow for each. -/
theorem words_splitHeadings (fuel : ℕ) (lineStart : Bool) (text : List Char) :
    words isBreak text = words isBreak (splitHeadings fuel lineStart text).1 ++
      (splitHeadings fuel lineStart text).2.flatMap fun part =>
        part.1.marker :: (words isBreak part.1.heading ++ words isBreak part.2) := by
  induction fuel generalizing lineStart text with
  | zero => rw [splitHeadings, List.flatMap_nil, List.append_nil]
  | succ fuel ih =>
      rw [splitHeadings]
      split
      · rw [List.flatMap_nil, List.append_nil]
      · rename_i before found hfind
        obtain ⟨rest, rfl, hat, hstart⟩ := findHeading_eq_some hfind
        obtain ⟨lead, spaces, hreads⟩ := HeadingMatch.reads_of_headingAt hat
        rw [words_append_of_lines rest (hstart.imp_left And.left), hreads.words_eq,
          ih (found.trailing.getLast? = some '\n') found.after, List.flatMap_cons]
        simp only [List.cons_append, List.append_assoc]

theorem words_content (content : List Char) :
    words isBreak content = words isBreak (headingsOf content).1 ++
      (headingsOf content).2.flatMap fun part =>
        part.1.marker :: (words isBreak part.1.heading ++ words isBreak part.2) :=
  words_splitHeadings content.length true content

/-- Only markers are left out of the words of a document. -/
theorem mem_words_of_mem_documentWords {w content : List Char} (h : w ∈ documentWords content) :
    w ∈ words isBreak content := by
  rw [words_content]
  rcases List.mem_append.mp h with hbefore | hparts
  · exact List.mem_append_left _ hbefore
  · obtain ⟨part, hpart, hw⟩ := List.mem_flatMap.mp hparts
    exact List.mem_append_right _
      (List.mem_flatMap.mpr ⟨part, hpart, List.mem_cons_of_mem _ hw⟩)

theorem after_length_lt {lineStart : Bool} {text before : List Char} {found : HeadingMatch}
    (h : findHeading lineStart text = some (before, found)) : found.after.length < text.length := by
  obtain ⟨rest, htext, hat, -⟩ := findHeading_eq_some h
  obtain ⟨lead, spaces, hreads⟩ := HeadingMatch.reads_of_headingAt hat
  have hmarker := List.length_pos_of_ne_nil hreads.marker_ne
  have hlength := congrArg List.length htext
  rw [hreads.text_eq] at hlength
  simp only [List.length_append] at hlength
  omega

/-- The fuel does not run out before the headings do. -/
theorem splitHeadings_of_length_le {fuel fuel' : ℕ} {text : List Char} (lineStart : Bool)
    (h : text.length ≤ fuel) (h' : text.length ≤ fuel') :
    splitHeadings fuel lineStart text = splitHeadings fuel' lineStart text := by
  induction fuel generalizing fuel' lineStart text with
  | zero =>
      rw [List.length_eq_zero_iff.mp (Nat.le_zero.mp h)]
      cases fuel' <;> rfl
  | succ fuel ih =>
      cases fuel' with
      | zero =>
          rw [List.length_eq_zero_iff.mp (Nat.le_zero.mp h')]
          rfl
      | succ fuel' =>
          rw [splitHeadings, splitHeadings]
          split
          · rfl
          · rename_i before found hfind
            have hlt := after_length_lt hfind
            rw [ih _ (by omega) (by omega : found.after.length ≤ fuel')]

/-! ## Packing sentences -/

section Packing

variable {w : List Char} (hw : Unbroken isSpace w) (hne : w ≠ [])

include hw hne

theorem packSentences_keeps (chunkSize : ℤ) {current : List Char} {sentences : List (List Char)}
    (h : w <:+: current ∨ ∃ sentence ∈ sentences, w <:+: sentence) :
    ∃ chunk ∈ packSentences chunkSize current sentences, w <:+: chunk := by
  induction sentences generalizing current with
  | nil =>
      have hcurrent : w <:+: current := by
        rcases h with h | ⟨_, hmem, -⟩
        · exact h
        · cases hmem
      rw [packSentences, if_neg]
      · exact ⟨current, List.mem_singleton_self _, hcurrent⟩
      · rintro rfl
        exact hne (List.infix_nil.mp hcurrent)
  | cons sentence rest ih =>
      have hcases : w <:+: current ∨ w <:+: sentence ∨ ∃ s ∈ rest, w <:+: s := by
        rcases h with h | ⟨s, hs, hin⟩
        · exact .inl h
        · rcases List.mem_cons.mp hs with rfl | hs
          · exact .inr (.inl hin)
          · exact .inr (.inr ⟨s, hs, hin⟩)
      rw [packSentences]
      split
      · -- the sentence does not fit any more, so the chunk is closed
        rcases hcases with hcurrent | hlater
        · exact ⟨current, List.mem_cons_self .., hcurrent⟩
        · obtain ⟨chunk, hchunk, hin⟩ := ih hlater
          exact ⟨chunk, List.mem_cons_of_mem _ hchunk, hin⟩
      · -- the sentence is added, and trimming keeps unbroken runs
        apply ih
        rcases hcases with hcurrent | hsentence | hrest
        · exact .inl (infix_trim hw hne (hcurrent.trans (List.prefix_append ..).isInfix))
        · exact .inl (infix_trim hw hne
            ((hsentence.trans (List.suffix_cons ..).isInfix).trans (List.suffix_append ..).isInfix))
        · exact .inr hrest

/-- Packing keeps every run without white space. -/
theorem sentenceChunks_keeps (chunkSize : ℤ) {text : List Char} (h : w <:+: text) :
    ∃ chunk ∈ sentenceChunks text chunkSize, w <:+: chunk := by
  have hnormalized : w <:+: stripText (collapseSpaces text) :=
    infix_trim hw hne (infix_collapse hw ' ' false h)
  rw [sentenceChunks]
  split
  · exact ⟨_, List.mem_singleton_self _, hnormalized⟩
  · exact packSentences_keeps hw hne chunkSize
      (.inr (infix_splitBehind hw hne _ false false hnormalized))

end Packing

theorem sentenceChunks_ne_nil (chunkSize : ℤ) {text : List Char} (h : stripText text ≠ []) :
    sentenceChunks (stripText text) chunkSize ≠ [] := by
  obtain ⟨c, hc, hspace⟩ := exists_mem_trim h
  have hunbroken : Unbroken isSpace [c] := by
    intro d hd
    rw [List.mem_singleton.mp hd, hspace]
  obtain ⟨chunk, hchunk, -⟩ := sentenceChunks_keeps hunbroken (List.cons_ne_nil c []) chunkSize
    ((List.singleton_infix_iff c _).mpr hc)
  exact List.ne_nil_of_mem hchunk

/-! ## What gets lost -/

/-- When a section has a body, the text before the first heading and the headings of sections
without one. -/
def droppedParts (content : List Char) : List (List Char) :=
  if markdownSections content = [] then []
  else
    (headingsOf content).1 ::
      ((headingsOf content).2.filter fun part => stripText part.2 = []).map fun part =>
        part.1.heading

/-- What stands behind the first 600 characters of the chunks, with the run that ends there, and
what gets into no chunk. -/
def lostParts (content : List Char) (chunkSize : ℤ) : List (List Char) :=
  droppedParts content ++
    (chunkText content chunkSize).map fun text => cutOff isSpace 600 (cleanDescription text)

/-- The first 600 characters of the chunks. -/
def keptParts (content : List Char) (chunkSize : ℤ) : List (List Char) :=
  (chunkText content chunkSize).map sanitizeDescription

theorem mem_markdownSections {content : List Char} {part : HeadingMatch × List Char}
    (hpart : part ∈ (headingsOf content).2) (hbody : stripText part.2 ≠ []) :
    (stripText (collapseSpaces part.1.heading), stripText part.2) ∈ markdownSections content := by
  exact List.mem_filterMap.mpr ⟨part, hpart, if_neg hbody⟩

theorem mem_chunkText {content chunk : List Char} (chunkSize : ℤ) {part : List Char × List Char}
    (hpart : part ∈ markdownSections content)
    (hchunk : chunk ∈ sentenceChunks part.2 (max 100 (chunkSize - (sectionPrefix part.1).length))) :
    stripText (sectionPrefix part.1 ++ chunk) ∈ chunkText content chunkSize := by
  rw [chunkText, if_neg (List.ne_nil_of_mem hpart)]
  exact List.mem_flatMap.mpr ⟨part, hpart, List.mem_map.mpr ⟨chunk, hchunk, rfl⟩⟩

section Keeping

variable {w content : List Char} (hw : Unbroken isSpace w) (hne : w ≠ []) (chunkSize : ℤ)

include hw hne

/-- A section keeps its heading, in each of its chunks, and its body. -/
theorem section_keeps {part : HeadingMatch × List Char} (hpart : part ∈ (headingsOf content).2)
    (hbody : stripText part.2 ≠ []) (h : w <:+: part.1.heading ∨ w <:+: part.2) :
    ∃ text ∈ chunkText content chunkSize, w <:+: text := by
  have hmem := mem_markdownSections hpart hbody
  rcases h with hheading | hin
  · obtain ⟨chunk, hchunk⟩ := List.exists_mem_of_ne_nil _
      (sentenceChunks_ne_nil (max 100 (chunkSize -
        (sectionPrefix (stripText (collapseSpaces part.1.heading))).length)) hbody)
    refine ⟨_, mem_chunkText chunkSize hmem hchunk, infix_trim hw hne ?_⟩
    have hkept : w <:+: stripText (collapseSpaces part.1.heading) :=
      infix_trim hw hne (infix_collapse hw ' ' false hheading)
    have hleading : w <:+: sectionPrefix (stripText (collapseSpaces part.1.heading)) :=
      hkept.trans ⟨"Section: ".toList, ". ".toList, rfl⟩
    exact hleading.trans (List.prefix_append ..).isInfix
  · obtain ⟨chunk, hchunk, hkept⟩ := sentenceChunks_keeps hw hne (max 100 (chunkSize -
      (sectionPrefix (stripText (collapseSpaces part.1.heading))).length)) (infix_trim hw hne hin)
    refine ⟨_, mem_chunkText chunkSize hmem hchunk, infix_trim hw hne ?_⟩
    exact hkept.trans (List.suffix_append ..).isInfix

/-- Cleaning keeps a run in the first 600 characters, or loses it behind them. -/
theorem sanitizeDescription_keeps (hcontrol : ∀ c ∈ w, isControl c = false) {text : List Char}
    (h : w <:+: text) :
    w <:+: sanitizeDescription text ∨ w <:+: cutOff isSpace 600 (cleanDescription text) := by
  have hmap : w.map (fun c => if isControl c then ' ' else c) = w := by
    rw [List.map_congr_left (g := id), List.map_id]
    intro c hc
    rw [hcontrol c hc]
    rfl
  have hin := h.map fun c => if isControl c then ' ' else c
  rw [hmap] at hin
  exact infix_take_or_cutOff hw 600 (infix_collapse hw ' ' false (infix_trim hw hne hin))

end Keeping

theorem chunkText_keeps {w content : List Char} (chunkSize : ℤ) (h : w ∈ documentWords content) :
    (∃ text ∈ chunkText content chunkSize, w <:+: text) ∨
      ∃ part ∈ droppedParts content, w <:+: part := by
  obtain ⟨hne, hbreak, hcontent⟩ := of_mem_words (mem_words_of_mem_documentWords h)
  have hw : Unbroken isSpace w := fun c hc => (Bool.or_eq_false_iff.mp (hbreak c hc)).1
  by_cases hsections : markdownSections content = []
  · left
    rw [chunkText, if_pos hsections]
    exact sentenceChunks_keeps hw hne chunkSize hcontent
  · rw [droppedParts, if_neg hsections]
    rcases List.mem_append.mp h with hbefore | hparts
    · exact .inr ⟨_, List.mem_cons_self .., (of_mem_words hbefore).2.2⟩
    · obtain ⟨part, hpart, hmem⟩ := List.mem_flatMap.mp hparts
      have hin : w <:+: part.1.heading ∨ w <:+: part.2 :=
        (List.mem_append.mp hmem).imp (fun h => (of_mem_words h).2.2) fun h => (of_mem_words h).2.2
      by_cases hbody : stripText part.2 = []
      · have hheading := hin.resolve_right fun hin =>
          hne (List.infix_nil.mp (hbody ▸ infix_trim hw hne hin))
        exact .inr ⟨_, List.mem_cons_of_mem _ (List.mem_map.mpr
          ⟨part, List.mem_filter.mpr ⟨hpart, decide_eq_true hbody⟩, rfl⟩), hheading⟩
      · exact .inl (section_keeps hw hne chunkSize hpart hbody hin)

/-- A word is kept or lost. -/
theorem kept_or_lost {w content : List Char} (chunkSize : ℤ) (h : w ∈ documentWords content) :
    (∃ part ∈ keptParts content chunkSize, w <:+: part) ∨
      ∃ part ∈ lostParts content chunkSize, w <:+: part := by
  obtain ⟨hne, hbreak, -⟩ := of_mem_words (mem_words_of_mem_documentWords h)
  have hw : Unbroken isSpace w := fun c hc => (Bool.or_eq_false_iff.mp (hbreak c hc)).1
  rcases chunkText_keeps chunkSize h with ⟨text, htext, hin⟩ | ⟨part, hpart, hin⟩
  · rcases sanitizeDescription_keeps hw hne (fun c hc => (Bool.or_eq_false_iff.mp (hbreak c hc)).2)
      hin with hkept | hlost
    · exact .inl ⟨_, List.mem_map.mpr ⟨text, htext, rfl⟩, hkept⟩
    · exact .inr ⟨_, List.mem_append_right _ (List.mem_map.mpr ⟨text, htext, rfl⟩), hlost⟩
  · exact .inr ⟨part, List.mem_append_left _ hpart, hin⟩

/-! ## Documents -/

/-- Every word of the content is in the text of a chunk. -/
def KeepsWords (content : List Char) (chunks : List KnowledgeChunk) : Prop :=
  ∀ w ∈ documentWords content, ∃ chunk ∈ chunks, w <:+: chunk.text.toList

section Documents

variable {embed : String → List PyFloat} {document : EngineeringDocument} {chunkSize : ℤ}
  {chunks : List KnowledgeChunk}

theorem ingestDocument_eq_ok (h : ingestDocument embed document chunkSize = .ok chunks) :
    chunks = (chunkText document.content.toList chunkSize).mapIdx fun index text =>
      ingestedChunk embed document.metadata (index + 1) text := by
  rw [ingestDocument] at h
  cases hvalid : validateMetadata document.metadata with
  | error e =>
      rw [hvalid] at h
      cases h
  | ok _ =>
      rw [hvalid, Except.bind] at h
      split at h
      · cases h
      · cases h
        rfl

/-- The texts of the chunks are the parts that are kept. -/
theorem texts_of_ingestDocument (h : ingestDocument embed document chunkSize = .ok chunks) :
    chunks.map (fun chunk => chunk.text.toList) =
      keptParts document.content.toList chunkSize := by
  rw [ingestDocument_eq_ok h, keptParts]
  apply List.ext_getElem
  · simp only [List.length_map, List.length_mapIdx]
  · intro index _ _
    rw [List.getElem_map, List.getElem_mapIdx, List.getElem_map]
    exact String.toList_ofList

theorem occurs_iff_kept (h : ingestDocument embed document chunkSize = .ok chunks)
    (w : List Char) : (∃ chunk ∈ chunks, w <:+: chunk.text.toList) ↔
      ∃ part ∈ keptParts document.content.toList chunkSize, w <:+: part := by
  rw [← texts_of_ingestDocument h]
  constructor
  · rintro ⟨chunk, hchunk, hin⟩
    exact ⟨_, List.mem_map_of_mem hchunk, hin⟩
  · rintro ⟨part, hpart, hin⟩
    obtain ⟨chunk, hchunk, rfl⟩ := List.mem_map.mp hpart
    exact ⟨chunk, hchunk, hin⟩

/-- A document keeps its words exactly if those in lost parts are in a kept part too, and in
particular if the lost parts are blank. -/
theorem ingestDocument_keepsWords_iff (embed : String → List PyFloat)
    (document : EngineeringDocument) (chunkSize : ℤ) {chunks : List KnowledgeChunk}
    (h : ingestDocument embed document chunkSize = .ok chunks) :
    (KeepsWords document.content.toList chunks ↔
        ∀ w ∈ documentWords document.content.toList,
          (∃ part ∈ lostParts document.content.toList chunkSize, w <:+: part) →
            ∃ part ∈ keptParts document.content.toList chunkSize, w <:+: part) ∧
      ((∀ part ∈ lostParts document.content.toList chunkSize, ∀ c ∈ part, isBreak c) →
        KeepsWords document.content.toList chunks) := by
  have hiff : KeepsWords document.content.toList chunks ↔
      ∀ w ∈ documentWords document.content.toList,
        (∃ part ∈ lostParts document.content.toList chunkSize, w <:+: part) →
          ∃ part ∈ keptParts document.content.toList chunkSize, w <:+: part := by
    constructor
    · intro hkeeps w hw _
      exact (occurs_iff_kept h w).mp (hkeeps w hw)
    · intro hlost w hw
      refine (occurs_iff_kept h w).mpr ?_
      rcases kept_or_lost chunkSize hw with hkept | hin
      · exact hkept
      · exact hlost w hw hin
  refine ⟨hiff, fun hblank => hiff.mpr ?_⟩
  rintro w hw ⟨part, hpart, hin⟩
  obtain ⟨hne, hbreak, -⟩ := of_mem_words (mem_words_of_mem_documentWords hw)
  obtain ⟨c, hc⟩ := List.exists_mem_of_ne_nil w hne
  have hboth := hbreak c hc
  rw [hblank part hpart c (hin.subset hc)] at hboth
  cases hboth

end Documents

/-- A document with an introduction before its first heading. -/
def introducedDocument (introduction : String) : EngineeringDocument where
  metadata :=
    { documentId := "runbook"
      title := "Runbook"
      documentType := "runbook"
      updatedAt := .aware 0 }
  content := introduction ++ "\n# Step\nRetry"

theorem lostParts_blankIntroduction :
    lostParts (introducedDocument "").content.toList 900 = [[], []] := by decide

theorem blankIntroduction_keepsWords :
    ∃ chunks, ingestDocument (fun _ => []) (introducedDocument "") 900 = .ok chunks ∧
      KeepsWords (introducedDocument "").content.toList chunks := by
  refine ⟨_, rfl,
    (ingestDocument_keepsWords_iff (fun _ => []) (introducedDocument "") 900 rfl).2 ?_⟩
  intro part hpart c hc
  rw [lostParts_blankIntroduction] at hpart
  rcases List.mem_pair.mp hpart with rfl | rfl <;> cases hc

theorem keptParts_introducedDocument :
    keptParts (introducedDocument "Beware").content.toList 900 =
      ["Section: Step. Retry".toList] := rfl

theorem mem_documentWords_introducedDocument :
    "Beware".toList ∈ documentWords (introducedDocument "Beware").content.toList := by decide

/-- The introduction gets into no chunk. -/
theorem introduction_fails :
    ∃ chunks, ingestDocument (fun _ => []) (introducedDocument "Beware") 900 = .ok chunks ∧
      ¬KeepsWords (introducedDocument "Beware").content.toList chunks := by
  have hok : ∃ chunks,
      ingestDocument (fun _ => []) (introducedDocument "Beware") 900 = .ok chunks := ⟨_, rfl⟩
  obtain ⟨chunks, hchunks⟩ := hok
  refine ⟨chunks, hchunks, fun h => ?_⟩
  obtain ⟨part, hpart, hin⟩ := (occurs_iff_kept hchunks "Beware".toList).mp
    (h _ mem_documentWords_introducedDocument)
  rw [keptParts_introducedDocument, List.mem_singleton] at hpart
  rw [hpart] at hin
  exact absurd hin (by decide)

end McpOps
