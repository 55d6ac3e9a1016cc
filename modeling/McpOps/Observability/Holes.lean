import Mathlib.Data.List.TakeWhile
import McpOps.Observability.Redaction

/-!
# Texts with a hole

A text with a secret in it has a hole where the secret stands.  Where the text before the hole
ends with a separator, the first pattern is `Indifferent` to what is put in: it finds the same
matches before the hole, and goes on into the filling in the same way.

## Strategy

A key stops before a character that it does not accept, whatever comes after it
(`matchKey_append`), and a separator is such a character (`OutsideKeys`).  So a key that begins
before the hole ends there.  The value of a match may go on into the filling, if nothing but it
stands before (`matchMany_append`).

`assignmentEnd` lists how an assignment can end: not at all, before the hole, or with the value
that is put there.  `secretEnd` extends this from one key to all of them, and `indifferent` says
that the first pattern does not look into what is put after a separator, but for where its value
ends.
-/

namespace McpOps

open Substitution

namespace Redaction

/-! ## Characters that no key accepts -/

/-- The piece matches the character. -/
def KeyPiece.accepts : KeyPiece → Char → Bool
  | .letter p, c => foldCase c = p
  | .dash, c => c = '_' || c = '-'

/-- The piece is not about white space. -/
def KeyPiece.visible : KeyPiece → Bool
  | .letter p => !isSpace p
  | .dash => true

/-- No piece of a key matches the character. -/
def OutsideKeys (c : Char) : Prop := ∀ key ∈ secretKeys, ∀ piece ∈ key, piece.accepts c = false

instance (c : Char) : Decidable (OutsideKeys c) :=
  inferInstanceAs (Decidable (∀ key ∈ secretKeys, ∀ piece ∈ key, piece.accepts c = false))

theorem foldCase_of_isSpace {c : Char} (h : isSpace c) : foldCase c = c := by
  have hcode : ¬ (65 ≤ c.toNat ∧ c.toNat ≤ 90) ∧ c.toNat ≠ 304 ∧ c.toNat ≠ 305 ∧ c.toNat ≠ 383 ∧
      c.toNat ≠ 8490 := by
    simp only [isSpace, Bool.or_eq_true, Bool.and_eq_true, decide_eq_true_eq] at h
    omega
  obtain ⟨hupper, hdotted, hdotless, hlong, hkelvin⟩ := hcode
  rw [foldCase, if_neg (not_or.mpr ⟨hdotted, hdotless⟩), if_neg hlong, if_neg hkelvin]
  exact dif_neg fun hval => hupper hval

theorem outsideKeys_of_isSpace {c : Char} (h : isSpace c) : OutsideKeys c := by
  have hvisible : ∀ key ∈ secretKeys, ∀ piece ∈ key, piece.visible := by decide
  intro key hkey piece hpiece
  cases piece with
  | letter p =>
      refine decide_eq_false fun heq => ?_
      rw [foldCase_of_isSpace h] at heq
      rw [heq] at h
      have := hvisible key hkey _ hpiece
      rw [KeyPiece.visible, h] at this
      cases this
  | dash =>
      refine Bool.or_eq_false_iff.mpr ⟨decide_eq_false ?_, decide_eq_false ?_⟩
      · rintro rfl
        cases h
      · rintro rfl
        cases h

/-! ## Keys -/

/-- A suffix of a list is one of its tail, unless it begins with its head. -/
theorem suffix_of_ne {c d : Char} {ws b : List Char} (h : c :: ws <:+ d :: b) (hne : d ≠ c) :
    c :: ws <:+ b := by
  rcases List.suffix_cons_iff.mp h with heq | h
  · exact absurd (List.cons.inj heq).1.symm hne
  · exact h

/-- A key stops before a character that it does not accept, whatever comes after it. -/
theorem matchKey_append {key : List KeyPiece} {b : List Char} {c : Char} {ws : List Char}
    (hc : ∀ piece ∈ key, piece.accepts c = false) (hb : c :: ws <:+ b) (y : List Char) :
    matchKey key (b ++ y) = (matchKey key b).map (· ++ y) ∧
      ∀ b', matchKey key b = some b' → c :: ws <:+ b' := by
  induction key generalizing b with
  | nil =>
      refine ⟨rfl, fun b' h => ?_⟩
      cases h
      exact hb
  | cons piece key ih =>
      have hkey : ∀ piece ∈ key, piece.accepts c = false :=
        fun p hp => hc p (List.mem_cons_of_mem _ hp)
      have hpiece := hc piece (List.mem_cons_self ..)
      have hmem : c ∈ b := hb.subset (List.mem_cons_self ..)
      obtain ⟨d, b, rfl⟩ := List.exists_cons_of_ne_nil (List.ne_nil_of_mem hmem)
      -- a character that the key takes is not the one before the hole
      have hnext : piece.accepts d → c :: ws <:+ b := by
        intro haccepts
        refine suffix_of_ne hb ?_
        rintro rfl
        rw [hpiece] at haccepts
        cases haccepts
      rw [List.cons_append]
      cases piece with
      | letter p =>
          by_cases hd : foldCase d = p
          · rw [matchKey, matchKey, if_pos hd, if_pos hd]
            exact ih hkey (hnext (decide_eq_true hd))
          · rw [matchKey, matchKey, if_neg hd, if_neg hd]
            exact ⟨rfl, fun b' h => by cases h⟩
      | dash =>
          obtain ⟨hwith, hwith'⟩ := ih hkey hb
          by_cases hd : d = '_' ∨ d = '-'
          · -- the dash is tried first, and then passed over
            obtain ⟨hskip, hskip'⟩ := ih hkey (hnext (by simpa [KeyPiece.accepts] using hd))
            rw [matchKey, matchKey, if_pos hd, if_pos hd, hskip, ← List.cons_append, hwith]
            cases hkeyb : matchKey key b with
            | none => exact ⟨rfl, hwith'⟩
            | some b₀ => exact ⟨rfl, fun b' h => hskip' b' (hkeyb ▸ h)⟩
          · rw [matchKey, matchKey, if_neg hd, if_neg hd, ← List.cons_append]
            exact ⟨hwith, hwith'⟩

/-! ## What stands before a hole -/

/-- The text ends with a separator and white space. -/
def EndsAssigning (before : List Char) : Prop :=
  ∃ start separator spaces, before = start ++ separator :: spaces ∧
    (separator = ':' ∨ separator = '=') ∧ ∀ c ∈ spaces, isSpace c

/-- What is put into the hole: some value, with white space before it if `spaced`. -/
structure Filling (spaced : Bool) (y : List Char) : Prop where
  space : y.head?.any isSpace = spaced
  value : (y.dropWhile isSpace).head?.any isValueChar

/-- What the first value of the filling leaves. -/
def afterValue (y : List Char) : List Char := (y.dropWhile isSpace).dropWhile isValueChar

/-- How far the first value of the filling goes. -/
def reach (y : List Char) : ℕ := y.length - (afterValue y).length

theorem length_dropWhile_lt {member : Char → Bool} {l : List Char} (h : l.head?.any member) :
    (l.dropWhile member).length < l.length := by
  cases l with
  | nil => cases h
  | cons c l =>
      have hc : member c := h
      rw [List.dropWhile_cons, if_pos hc, List.length_cons]
      exact Nat.lt_succ_of_le (List.length_dropWhile_le ..)

theorem one_le_reach {spaced : Bool} {y : List Char} (h : Filling spaced y) : 1 ≤ reach y := by
  have hlt := length_dropWhile_lt h.value
  have hle := List.length_dropWhile_le isSpace y
  unfold reach afterValue
  omega

/-- How an assignment ends that begins after a key: not at all, at the end of the text and so with
the value that is put there, or before with something left. -/
def assignmentEnd (spaced : Bool) (text : List Char) : Option (Option (List Char)) :=
  match text.dropWhile isSpace with
  | [] => none
  | c :: rest =>
      if c = ':' ∨ c = '=' then
        let value := rest.dropWhile isSpace
        if value = [] then some none
        else if value.head?.any isValueChar then
          if value.all isValueChar ∧ spaced = false then some none
          else some (some (value.dropWhile isValueChar))
        else none
      else none

/-- What an assignment leaves when the filling is put in. -/
def leftOver (y : List Char) : Option (List Char) → List Char
  | none => afterValue y
  | some rest => rest ++ y

theorem dropWhile_of_head {member : Char → Bool} {l : List Char} (h : l.head?.any member = false) :
    l.dropWhile member = l := by
  cases l with
  | nil => rfl
  | cons c l =>
      have hc : member c = false := h
      rw [List.dropWhile_cons, if_neg (Bool.eq_false_iff.mp hc)]

theorem dropWhile_append_of_ne_nil {member : Char → Bool} {l y : List Char}
    (h : l.dropWhile member ≠ []) : (l ++ y).dropWhile member = l.dropWhile member ++ y := by
  rw [List.dropWhile_append, if_neg (by simpa using h)]

theorem dropWhile_append_of_nil {member : Char → Bool} {l y : List Char}
    (h : l.dropWhile member = []) : (l ++ y).dropWhile member = y.dropWhile member := by
  rw [List.dropWhile_append, if_pos (by simpa using h)]

theorem Filling.not_isSpace_of {y : List Char} (h : Filling false y) : y.dropWhile isSpace = y :=
  dropWhile_of_head h.space

theorem Filling.not_isValueChar_of {y : List Char} (h : Filling true y) :
    y.dropWhile isValueChar = y := by
  refine dropWhile_of_head ?_
  cases y with
  | nil => rfl
  | cons c y =>
      have hc : isSpace c = true := h.space
      show (!isSpace c && decide (c ≠ ',')) = false
      rw [hc]
      rfl

/-- A value goes on into the filling if nothing but it stands before. -/
theorem matchMany_append {spaced : Bool} {y value : List Char} (hy : Filling spaced y)
    (hvalue : value ≠ []) :
    matchMany isValueChar (value ++ y) =
      (if value.head?.any isValueChar then
        if value.all isValueChar ∧ spaced = false then some none
        else some (some (value.dropWhile isValueChar))
      else none).map (leftOver y) := by
  rw [matchMany, List.head?_append_of_ne_nil _ hvalue]
  by_cases hhead : value.head?.any isValueChar
  · rw [if_pos hhead, if_pos hhead]
    have hnil : value.dropWhile isValueChar = [] ↔ value.all isValueChar := by
      rw [List.dropWhile_eq_nil_iff, List.all_eq_true]
    by_cases hall : value.all isValueChar
    · have hdrop : value.dropWhile isValueChar = [] := hnil.mpr hall
      rw [dropWhile_append_of_nil hdrop, hdrop]
      cases spaced with
      | false =>
          rw [if_pos ⟨hall, rfl⟩, Option.map_some, leftOver, afterValue, hy.not_isSpace_of]
      | true =>
          rw [if_neg (fun h => Bool.noConfusion h.2), hy.not_isValueChar_of]
          rfl
    · have hdrop : value.dropWhile isValueChar ≠ [] := fun h => hall (hnil.mp h)
      rw [dropWhile_append_of_ne_nil hdrop, if_neg (fun h => hall h.1)]
      rfl
  · rw [if_neg hhead, if_neg hhead]
    rfl

theorem matchAssignment_append {spaced : Bool} {y text : List Char} (hy : Filling spaced y)
    (htext : text.dropWhile isSpace ≠ []) :
    matchAssignment (text ++ y) = (assignmentEnd spaced text).map (leftOver y) := by
  obtain ⟨c, rest, hdrop⟩ := List.exists_cons_of_ne_nil htext
  unfold matchAssignment assignmentEnd
  rw [dropWhile_append_of_ne_nil htext, hdrop, List.cons_append]
  dsimp only
  by_cases hc : c = ':' ∨ c = '='
  · rw [if_pos hc, if_pos hc]
    by_cases hvalue : rest.dropWhile isSpace = []
    · rw [if_pos hvalue, dropWhile_append_of_nil hvalue, matchMany, if_pos hy.value]
      rfl
    · rw [if_neg hvalue, dropWhile_append_of_ne_nil hvalue]
      exact matchMany_append hy hvalue
  · rw [if_neg hc, if_neg hc]
    rfl

/-- A key fails at a character that its first letter is not. -/
theorem matchKey_cons_eq_none {key : List KeyPiece} {c : Char}
    (h : key.head?.any fun piece => piece ≠ .dash && !piece.accepts c) (text : List Char) :
    matchKey key (c :: text) = none := by
  cases key with
  | nil => cases h
  | cons piece key =>
      cases piece with
      | letter p =>
          have hp : foldCase c ≠ p := by simpa [KeyPiece.accepts] using h
          rw [matchKey, if_neg hp]
      | dash => cases h

theorem matchKey_of_outsideKeys {c : Char} (hc : OutsideKeys c) (text : List Char)
    {key : List KeyPiece} (hkey : key ∈ secretKeys) : matchKey key (c :: text) = none := by
  have hletter : ∀ key ∈ secretKeys, key.head?.any (· ≠ .dash) := by decide
  have hhead := hletter key hkey
  refine matchKey_cons_eq_none ?_ text
  cases key with
  | nil => cases hhead
  | cons piece key =>
      have hpiece := hc _ hkey piece (List.mem_cons_self ..)
      simpa [hpiece] using hhead

theorem matchSecret_of_outsideKeys {c : Char} (hc : OutsideKeys c) (text : List Char) :
    matchSecret (c :: text) = none := by
  refine List.findSome?_eq_none_iff.mpr fun key hkey => ?_
  rw [matchKey_of_outsideKeys hc text hkey]
  rfl

/-- A key takes characters that it accepts. -/
theorem matchKey_split {key : List KeyPiece} {text rest : List Char}
    (h : matchKey key text = some rest) :
    ∃ m, text = m ++ rest ∧ ∀ c ∈ m, ∃ piece ∈ key, piece.accepts c := by
  induction key generalizing text with
  | nil =>
      cases h
      exact ⟨[], rfl, fun c hc => by cases hc⟩
  | cons piece key ih =>
      -- a piece takes one character, or none where it may be missing
      have htake : ∀ {c text}, piece.accepts c → matchKey key text = some rest →
          ∃ m, c :: text = m ++ rest ∧ ∀ c ∈ m, ∃ p ∈ piece :: key, p.accepts c := by
        intro c text hc h
        obtain ⟨m, rfl, hm⟩ := ih h
        refine ⟨c :: m, rfl, fun d hd => ?_⟩
        rcases List.mem_cons.mp hd with rfl | hd
        · exact ⟨piece, List.mem_cons_self .., hc⟩
        · obtain ⟨p, hp, haccepts⟩ := hm d hd
          exact ⟨p, List.mem_cons_of_mem _ hp, haccepts⟩
      have hstay : ∀ {text}, matchKey key text = some rest →
          ∃ m, text = m ++ rest ∧ ∀ c ∈ m, ∃ p ∈ piece :: key, p.accepts c := by
        intro text h
        obtain ⟨m, hm, haccepts⟩ := ih h
        refine ⟨m, hm, fun d hd => ?_⟩
        obtain ⟨p, hp, hd⟩ := haccepts d hd
        exact ⟨p, List.mem_cons_of_mem _ hp, hd⟩
      cases piece with
      | letter p =>
          cases text with
          | nil => cases h
          | cons c text =>
              rw [matchKey] at h
              split_ifs at h with hc
              exact htake (decide_eq_true hc) h
      | dash =>
          cases text with
          | nil => exact hstay h
          | cons c text =>
              rw [matchKey] at h
              split_ifs at h with hc
              · cases hskip : matchKey key text with
                | none =>
                    rw [hskip] at h
                    exact hstay h
                | some rest' =>
                    rw [hskip] at h
                    cases h
                    exact htake (by simpa [KeyPiece.accepts] using hc) hskip
              · exact hstay h

/-- How the first pattern ends that begins at the start of the text. -/
def secretEnd (spaced : Bool) (text : List Char) : Option (Option (List Char)) :=
  secretKeys.findSome? fun key => (matchKey key text).bind (assignmentEnd spaced)

theorem findSome?_congr {α β : Type} {f g : α → Option β} {l : List α}
    (h : ∀ a ∈ l, f a = g a) : l.findSome? f = l.findSome? g := by
  induction l with
  | nil => rfl
  | cons a l ih =>
      rw [List.findSome?_cons, List.findSome?_cons, h a (List.mem_cons_self ..),
        ih fun b hb => h b (List.mem_cons_of_mem _ hb)]

theorem matchSecret_append {spaced : Bool} {y b spaces : List Char} {separator : Char}
    (hy : Filling spaced y) (hseparator : separator = ':' ∨ separator = '=')
    (hb : separator :: spaces <:+ b) :
    matchSecret (b ++ y) = (secretEnd spaced b).map (leftOver y) := by
  have houtside : OutsideKeys separator := by
    rcases hseparator with rfl | rfl
    · decide
    · decide
  have hvisible : isSpace separator = false := by
    rcases hseparator with rfl | rfl
    · rfl
    · rfl
  unfold matchSecret secretEnd
  rw [List.map_findSome?]
  refine findSome?_congr fun key hkey => ?_
  obtain ⟨hmatch, hrest⟩ := matchKey_append (houtside key hkey) hb y
  rw [hmatch, Function.comp_apply]
  cases hb' : matchKey key b with
  | none => rfl
  | some b' =>
      have hmem : separator ∈ b' := (hrest b' hb').subset (List.mem_cons_self ..)
      have hne : b'.dropWhile isSpace ≠ [] := by
        intro hnil
        have := List.dropWhile_eq_nil_iff.mp hnil separator hmem
        rw [hvisible] at this
        cases this
      exact matchAssignment_append hy hne

/-- A match leaves a part of the text behind. -/
theorem assignmentEnd_length {spaced : Bool} {text rest : List Char}
    (h : assignmentEnd spaced text = some (some rest)) : rest.length ≤ text.length := by
  have hle := List.length_dropWhile_le isSpace text
  unfold assignmentEnd at h
  cases hdrop : text.dropWhile isSpace with
  | nil =>
      rw [hdrop] at h
      cases h
  | cons c tail =>
      rw [hdrop, List.length_cons] at hle
      rw [hdrop] at h
      dsimp only at h
      have hvalue := List.length_dropWhile_le isSpace tail
      have hrest := List.length_dropWhile_le isValueChar (tail.dropWhile isSpace)
      split_ifs at h
      · cases h
      · cases h
      · rw [← Option.some.inj (Option.some.inj h)]
        omega

theorem length_afterValue (y : List Char) : (afterValue y).length ≤ y.length :=
  (List.length_dropWhile_le ..).trans (List.length_dropWhile_le ..)

theorem secretEnd_length {spaced : Bool} {text rest : List Char}
    (h : secretEnd spaced text = some (some rest)) : rest.length ≤ text.length := by
  obtain ⟨key, _, hkey⟩ := List.exists_of_findSome?_eq_some h
  obtain ⟨text', htext', hend⟩ := Option.bind_eq_some_iff.mp hkey
  obtain ⟨m, rfl, _⟩ := matchKey_split htext'
  have hle := assignmentEnd_length hend
  rw [List.length_append]
  omega

theorem indifferent_of_suffix {w : Char → Bool} {spaced : Bool} {b y probe spaces : List Char}
    {separator : Char} {prev : Option Char} (hy : Filling spaced y) (hprobe : Filling spaced probe)
    (hseparator : separator = ':' ∨ separator = '=') (hb : separator :: spaces <:+ b) :
    lengthAt w matchSecret prev (b ++ y) =
      (lengthAt w matchSecret prev (b ++ probe)).map
        fun n => if b.length < n then b.length + reach y else n := by
  have hne : b ≠ [] := List.ne_nil_of_mem (hb.subset (List.mem_cons_self ..))
  unfold lengthAt
  rw [List.head?_append_of_ne_nil _ hne, List.head?_append_of_ne_nil _ hne,
    matchSecret_append hy hseparator hb, matchSecret_append hprobe hseparator hb]
  split_ifs with hboundary
  · rw [Option.map_map, Option.map_map, Option.map_map]
    cases hend : secretEnd spaced b with
    | none => rfl
    | some stop =>
        have hlengths := length_afterValue y
        have hlengths' := length_afterValue probe
        have hreach := one_le_reach hprobe
        unfold reach at hreach ⊢
        -- both lengths are read off from what is left after the match
        refine congrArg some ?_
        simp only [Function.comp_apply]
        cases stop with
        | none =>
            simp only [leftOver, List.length_append]
            rw [if_pos (by omega)]
            omega
        | some rest =>
            have hrest := secretEnd_length hend
            simp only [leftOver, List.length_append]
            rw [if_neg (by omega)]
            omega
  · rfl

/-- The first pattern does not look into what is put after a separator, but for where its value
ends. -/
theorem indifferent {w : Char → Bool} {spaced : Bool} {before b y probe : List Char}
    (hbefore : EndsAssigning before) (hne : b ≠ []) (hb : b <:+ before) (hy : Filling spaced y)
    (hprobe : Filling spaced probe) :
    Indifferent (lengthAt w matchSecret) probe b y (reach y) := by
  obtain ⟨start, separator, spaces, rfl, hseparator, hspaces⟩ := hbefore
  obtain ⟨c, b, rfl⟩ := List.exists_cons_of_ne_nil hne
  intro prev
  rcases List.suffix_or_suffix_of_suffix hb (List.suffix_append start (separator :: spaces))
    with hinside | houtside
  · rcases List.suffix_cons_iff.mp hinside with heq | hinside
    · rw [heq]
      exact indifferent_of_suffix hy hprobe hseparator (List.suffix_refl _)
    · have hc := outsideKeys_of_isSpace (hspaces c (hinside.subset (List.mem_cons_self ..)))
      unfold lengthAt
      rw [List.cons_append, List.cons_append, matchSecret_of_outsideKeys hc,
        matchSecret_of_outsideKeys hc]
      split_ifs <;> rfl
  · exact indifferent_of_suffix hy hprobe hseparator houtside

end Redaction

end McpOps
