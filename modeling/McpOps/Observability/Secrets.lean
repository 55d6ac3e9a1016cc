import Mathlib.Data.Bool.AllAny
import McpOps.Observability.Holes

/-!
# What redaction hides

`hides_iff` says at which places of a text the logger hides a secret: after a key of the first
pattern, after `Authorization: Bearer`, in the user part of a URL, and under a sensitive key of a
mapping.

## Strategy

The first pattern decides what becomes of a secret.  The number of `@` in its output is kept by
the other two, so two secrets that it turns into texts with different numbers of `@` stay apart
(`sanitizeString_ne`).

* For the other two patterns: a match of the second has no `@`, and a match of the third has one
  and gets one (`count_redactMatch_of_url`).
* For the first: what it makes of a text with a hole depends on the text before the hole through
  the match that is open there (`heldOpen`, with `indifferent` for the rest of the text).  A match
  that has its `://` and an `@` already is cut off before the secret (`redactMatch_append`), and
  then every secret is hidden.  Every other match leaves a trace of one of two secrets
  (`count_redactMatch_ne`).

So the places are exact: `SecretSite.redacted_eq_iff` after a key, `UrlSite.redacted_eq_iff` in a
URL, where only the `://` counts since every password comes with an `@` behind it, and
`BearerSite.redactAll_eq`, which shows that a token is never taken by the first pattern.
-/

namespace McpOps

open Substitution

namespace Redaction

/-! ## The first `://` -/

/-- A list that begins a list with `x` in it begins what stands before `x`, or contains `x`. -/
theorem prefix_or_mem {p l r : List Char} {x : Char} (h : p <+: l ++ x :: r) :
    p <+: l ∨ x ∈ p := by
  rcases List.prefix_or_prefix_of_prefix h (List.prefix_append l (x :: r)) with hp | ⟨q, rfl⟩
  · exact Or.inl hp
  · cases q with
    | nil => exact Or.inl (by rw [List.append_nil])
    | cons d q =>
        have hq : d :: q <+: x :: r := (List.prefix_append_right_inj l).mp h
        obtain ⟨rfl, _⟩ := List.cons_prefix_cons.mp hq
        exact Or.inr (List.mem_append_right _ (List.mem_cons_self ..))

theorem beforeMark_marked {c : Char} {m : List Char} (h : schemeMark <+: c :: m) :
    beforeMark (c :: m) = [] := by
  rw [beforeMark, if_pos (List.isPrefixOf_iff_prefix.mpr h)]

theorem beforeMark_unmarked {c : Char} {m : List Char} (h : ¬ schemeMark <+: c :: m) :
    beforeMark (c :: m) = c :: beforeMark m := by
  rw [beforeMark, if_neg (fun hp => h (List.isPrefixOf_iff_prefix.mp hp))]

/-- What comes after a `://` does not matter. -/
theorem beforeMark_append {m : List Char} (h : schemeMark <:+: m) (y : List Char) :
    beforeMark (m ++ y) = beforeMark m := by
  induction m with
  | nil => exact absurd (List.infix_nil.mp h) (by decide)
  | cons c m ih =>
      by_cases hp : schemeMark <+: c :: m
      · have hp' : schemeMark <+: c :: (m ++ y) := hp.trans (List.prefix_append (c :: m) y)
        rw [beforeMark_marked hp, List.cons_append, beforeMark_marked hp']
      · have hm : schemeMark <:+: m := (List.infix_cons_iff.mp h).resolve_left hp
        have hlength : schemeMark.length ≤ (c :: m).length := h.length_le
        have hp' : ¬ schemeMark <+: c :: (m ++ y) := fun hp' =>
          hp (List.prefix_of_prefix_length_le hp' (List.prefix_append (c :: m) y) hlength)
        rw [beforeMark_unmarked hp, List.cons_append, beforeMark_unmarked hp', ih hm]

/-- Without a `://` all is kept that comes before some other character. -/
theorem beforeMark_append_cons {m : List Char} {x : Char} (h : ¬ schemeMark <:+: m)
    (hx : x ∉ schemeMark) (r : List Char) :
    beforeMark (m ++ x :: r) = m ++ x :: beforeMark r := by
  induction m with
  | nil =>
      refine beforeMark_unmarked fun hp => ?_
      rcases prefix_or_mem (l := []) hp with hnil | hmem
      · exact absurd (List.prefix_nil.mp hnil) (by decide)
      · exact hx hmem
  | cons c m ih =>
      have hp : ¬ schemeMark <+: c :: (m ++ x :: r) := by
        intro hp
        rcases prefix_or_mem (l := c :: m) hp with hpre | hmem
        · exact h hpre.isInfix
        · exact hx hmem
      rw [List.cons_append, beforeMark_unmarked hp,
        ih fun hm => h (List.infix_cons hm), List.cons_append]

theorem beforeMark_sublist (m : List Char) : (beforeMark m).Sublist m := by
  induction m with
  | nil => exact List.Sublist.refl _
  | cons c m ih =>
      by_cases hp : schemeMark <+: c :: m
      · rw [beforeMark_marked hp]
        exact List.nil_sublist _
      · rw [beforeMark_unmarked hp]
        exact ih.cons_cons c

/-! ## How many `@` a rewritten match has -/

/-- The match is of the second pattern. -/
def OfBearer (m : List Char) : Prop := (m.map Char.toLower).take 6 = "bearer".toList

/-- A match that gets two marks of redaction. -/
theorem redactMatch_of_mark {m : List Char} (hbearer : ¬ OfBearer m) (hmark : schemeMark <:+: m)
    (hat : '@' ∈ m) : redactMatch m = beforeMark m ++ "://<redacted>:<redacted>@".toList := by
  unfold OfBearer at hbearer
  rw [redactMatch, if_neg hbearer, if_pos ⟨hmark, hat⟩]

theorem strip_sublist (m : List Char) : (strip m).Sublist m := by
  have hright := List.dropWhile_sublist isSpace (l := (m.dropWhile isSpace).reverse)
  have hstrip := hright.reverse
  rw [List.reverse_reverse] at hstrip
  exact hstrip.trans (List.dropWhile_sublist _)

/-- A match without a `://` or without an `@` gets no new `@`. -/
theorem count_redactMatch_le {m : List Char} (h : ¬ (schemeMark <:+: m ∧ '@' ∈ m)) :
    (redactMatch m).count '@' ≤ m.count '@' := by
  have hkey (separator : Char) (hseparator : separator ≠ '@') :
      (strip (m.takeWhile (· ≠ separator)) ++ separator :: "<redacted>".toList).count '@' ≤
        m.count '@' := by
    rw [List.count_append, List.count_cons_of_ne hseparator]
    exact ((strip_sublist _).trans (List.takeWhile_sublist _)).count_le '@'
  rw [redactMatch, if_neg h]
  split_ifs
  · exact Nat.zero_le _
  · exact hkey ':' (by decide)
  · exact hkey '=' (by decide)

theorem count_mark : ("://<redacted>:<redacted>@".toList).count '@' = 1 := by decide

theorem count_redactMatch_le_succ (m : List Char) :
    (redactMatch m).count '@' ≤ m.count '@' + 1 := by
  by_cases h : schemeMark <:+: m ∧ '@' ∈ m
  · rw [redactMatch, if_pos h]
    split_ifs
    · exact Nat.zero_le _
    · rw [List.count_append, count_mark]
      exact Nat.succ_le_succ ((beforeMark_sublist m).count_le '@')
  · exact (count_redactMatch_le h).trans (Nat.le_succ _)

/-! ## The second and the third pattern -/

theorem matchMany_split {member : Char → Bool} {text rest : List Char}
    (h : matchMany member text = some rest) :
    ∃ m, text = m ++ rest ∧ m ≠ [] ∧ ∀ c ∈ m, member c := by
  unfold matchMany at h
  split_ifs at h with hhead
  cases h
  refine ⟨text.takeWhile member, List.takeWhile_append_dropWhile.symm, ?_, fun c hc => ?_⟩
  · cases text with
    | nil => cases hhead
    | cons c text =>
        have hc : member c := hhead
        rw [List.takeWhile_cons_of_pos hc]
        exact List.cons_ne_nil _ _
  · exact List.mem_takeWhile_imp hc

theorem matchChar_split {p : Char} {text rest : List Char} (h : matchChar p text = some rest) :
    text = p :: rest := by
  cases text with
  | nil => cases h
  | cons c text =>
      rw [matchChar] at h
      split_ifs at h with hc
      cases h
      rw [hc]

/-- What a key without a dash takes has no `@`. -/
theorem at_notMem_of_accepts {key : List KeyPiece} (hkey : ∀ piece ∈ key, piece.accepts '@' = false)
    {m : List Char} (h : ∀ c ∈ m, ∃ piece ∈ key, piece.accepts c) : '@' ∉ m := by
  intro hat
  obtain ⟨piece, hpiece, haccepts⟩ := h '@' hat
  rw [hkey piece hpiece] at haccepts
  cases haccepts

theorem at_notMem_of_member {member : Char → Bool} (hmember : member '@' = false)
    {m : List Char} (h : ∀ c ∈ m, member c) : '@' ∉ m := by
  intro hat
  have := h '@' hat
  rw [hmember] at this
  cases this

theorem matchBearer_split {text rest : List Char} (h : matchBearer text = some rest) :
    ∃ m, text = m ++ rest ∧ m ≠ [] ∧ '@' ∉ m := by
  obtain ⟨text₁, h₁, h⟩ := Option.bind_eq_some_iff.mp h
  obtain ⟨text₂, h₂, h₃⟩ := Option.bind_eq_some_iff.mp h
  obtain ⟨key, rfl, hkey⟩ := matchKey_split h₁
  obtain ⟨spaces, rfl, hne, hspaces⟩ := matchMany_split h₂
  obtain ⟨token, rfl, _, htoken⟩ := matchMany_split h₃
  refine ⟨key ++ (spaces ++ token), by simp, by simp [hne], ?_⟩
  have hkeyAt := at_notMem_of_accepts (by decide) hkey
  have hspacesAt := at_notMem_of_member (by decide) hspaces
  have htokenAt := at_notMem_of_member (by decide) htoken
  simp [hkeyAt, hspacesAt, htokenAt]

theorem matchCredentials_split {text rest : List Char} (h : matchCredentials text = some rest) :
    ∃ m, text = schemeMark ++ m ++ '@' :: rest ∧ '@' ∉ m := by
  obtain ⟨text₁, h₁, h⟩ := Option.bind_eq_some_iff.mp h
  obtain ⟨text₂, h₂, h⟩ := Option.bind_eq_some_iff.mp h
  obtain ⟨text₃, h₃, h⟩ := Option.bind_eq_some_iff.mp h
  obtain ⟨text₄, h₄, h⟩ := Option.bind_eq_some_iff.mp h
  obtain ⟨text₅, h₅, h⟩ := Option.bind_eq_some_iff.mp h
  obtain ⟨text₆, h₆, h₇⟩ := Option.bind_eq_some_iff.mp h
  obtain rfl := matchChar_split h₁
  obtain rfl := matchChar_split h₂
  obtain rfl := matchChar_split h₃
  obtain ⟨user, rfl, _, huser⟩ := matchMany_split h₄
  obtain rfl := matchChar_split h₅
  obtain ⟨password, rfl, _, hpassword⟩ := matchMany_split h₆
  obtain rfl := matchChar_split h₇
  refine ⟨user ++ ':' :: password, by simp [schemeMark], ?_⟩
  have huserAt := at_notMem_of_member (by decide) huser
  have hpasswordAt := at_notMem_of_member (by decide) hpassword
  simp [huserAt, hpasswordAt]

theorem eq_of_toLower {c : Char} (h : c.toLower = 'b') : c = 'b' ∨ c = 'B' := by
  delta Char.toLower at h
  split_ifs at h with hupper
  · right
    have hval : c.val + ('a'.val - 'A'.val) = 'b'.val := congrArg Char.val h
    have hB : c.val + ('a'.val - 'A'.val) = 'B'.val + ('a'.val - 'A'.val) := hval
    exact Char.ext ((UInt32.add_left_inj _).mp hB)
  · exact Or.inl h

/-- What a key takes that begins with another letter is not of the second pattern. -/
theorem not_ofBearer {key : List KeyPiece} {c : Char} {text rest r : List Char}
    (hkey : key.head?.any fun piece => piece ≠ .dash && !piece.accepts 'b' && !piece.accepts 'B')
    (h : matchKey key (c :: text) = some rest) : ¬ OfBearer (c :: r) := by
  intro hbearer
  have hc : c.toLower = 'b' := (List.cons.inj hbearer).1
  have hnone : matchKey key (c :: text) = none := by
    refine matchKey_cons_eq_none ?_ text
    rw [Option.any_eq_true] at hkey ⊢
    obtain ⟨piece, hpiece, hkey⟩ := hkey
    rw [Bool.and_eq_true, Bool.and_eq_true] at hkey
    refine ⟨piece, hpiece, ?_⟩
    rcases eq_of_toLower hc with rfl | rfl
    · rw [hkey.1.1, hkey.1.2]
      rfl
    · rw [hkey.1.1, hkey.2]
      rfl
  rw [hnone] at h
  cases h

theorem matchUrl_split {text rest : List Char} (h : matchUrl text = some rest) :
    ∃ scheme m, text = scheme ++ schemeMark ++ m ++ '@' :: rest ∧ '@' ∉ scheme ∧ '@' ∉ m ∧
      ∀ r, ¬ OfBearer (scheme ++ schemeMark ++ r) := by
  obtain ⟨key, hmem, hkey⟩ := List.exists_of_findSome?_eq_some h
  obtain ⟨text', h₁, h₂⟩ := Option.bind_eq_some_iff.mp hkey
  obtain ⟨scheme, rfl, hscheme⟩ := matchKey_split h₁
  obtain ⟨m, rfl, hm⟩ := matchCredentials_split h₂
  have hkeys : ∀ key ∈ urlSchemes, ∀ piece ∈ key, piece.accepts '@' = false := by decide
  have hheads : ∀ key ∈ urlSchemes,
      key.head?.any fun piece => piece ≠ .dash && !piece.accepts 'b' && !piece.accepts 'B' := by
    decide
  refine ⟨scheme, m, by simp, at_notMem_of_accepts (hkeys key hmem) hscheme, hm, fun r => ?_⟩
  cases scheme with
  | nil => exact fun hbearer => absurd (List.cons.inj hbearer).1 (by decide)
  | cons c scheme => exact not_ofBearer (hheads key hmem) h₁

/-- A match of the third pattern, which has one `@`, gets one. -/
theorem count_redactMatch_of_url {scheme m : List Char} (hscheme : '@' ∉ scheme)
    (hbearer : ¬ OfBearer (scheme ++ schemeMark ++ m ++ ['@'])) :
    (redactMatch (scheme ++ schemeMark ++ m ++ ['@'])).count '@' = 1 := by
  have hmark : schemeMark <:+: scheme ++ schemeMark := (List.suffix_append ..).isInfix
  have hbefore : beforeMark (scheme ++ schemeMark ++ m ++ ['@']) =
      beforeMark (scheme ++ schemeMark) := by
    rw [List.append_assoc, beforeMark_append hmark]
  have hnone : '@' ∉ beforeMark (scheme ++ schemeMark) := by
    intro hat
    rcases List.mem_append.mp ((beforeMark_sublist _).subset hat) with hat | hat
    · exact hscheme hat
    · exact absurd hat (by decide)
  rw [redactMatch_of_mark hbearer (hmark.trans ⟨[], m ++ ['@'], by simp⟩) (by simp), hbefore,
    List.count_append, List.count_eq_zero.mpr hnone, count_mark]

/-! ## The number of `@` after the first pattern -/

/-- What a match of the pattern at the start of a text takes. -/
theorem lengthAt_split {w : Char → Bool} {pattern : List Char → Option (List Char)}
    {prev : Option Char} {text : List Char} {n : ℕ}
    (h : lengthAt w pattern prev text = some n) :
    ∃ rest, pattern text = some rest ∧ n = text.length - rest.length := by
  unfold lengthAt at h
  split_ifs at h
  obtain ⟨rest, hrest, rfl⟩ := Option.map_eq_some_iff.mp h
  exact ⟨rest, hrest, rfl⟩

theorem count_redactAll_bearer (w : Char → Bool) (text : List Char) :
    (redactAll w matchBearer text).count '@' = text.count '@' := by
  refine count_substitute (fun prev text n h => ?_) 0 none text
  obtain ⟨rest, hrest, rfl⟩ := lengthAt_split h
  obtain ⟨m, rfl, hne, hat⟩ := matchBearer_split hrest
  have hlength : (m ++ rest).length - rest.length = m.length := by simp
  have hcount : m.count '@' = 0 := List.count_eq_zero.mpr hat
  rw [hlength, List.take_left]
  refine ⟨List.length_pos_iff.mpr hne, ?_⟩
  have hle := count_redactMatch_le (m := m) fun h => hat h.2
  omega

theorem count_redactAll_url (w : Char → Bool) (text : List Char) :
    (redactAll w matchUrl text).count '@' = text.count '@' := by
  refine count_substitute (fun prev text n h => ?_) 0 none text
  obtain ⟨rest, hrest, rfl⟩ := lengthAt_split h
  obtain ⟨scheme, m, rfl, hscheme, hm, hbearer⟩ := matchUrl_split hrest
  have hsplit : scheme ++ schemeMark ++ m ++ '@' :: rest =
      (scheme ++ schemeMark ++ m ++ ['@']) ++ rest := by simp
  have hlength : ((scheme ++ schemeMark ++ m ++ ['@']) ++ rest).length - rest.length =
      (scheme ++ schemeMark ++ m ++ ['@']).length := by
    rw [List.length_append, Nat.add_sub_cancel]
  have hmark : schemeMark.count '@' = 0 := by decide
  have hbearer' : ¬ OfBearer (scheme ++ schemeMark ++ m ++ ['@']) := by
    rw [List.append_assoc]
    exact hbearer _
  rw [hsplit, hlength, List.take_left, count_redactMatch_of_url hscheme hbearer']
  refine ⟨List.length_pos_iff.mpr (by simp), ?_⟩
  rw [List.count_append, List.count_append, List.count_append, hmark,
    List.count_eq_zero.mpr hscheme, List.count_eq_zero.mpr hm]
  rfl

/-- Texts that the first pattern leaves with different numbers of `@` are not redacted to the
same. -/
theorem sanitizeString_ne {w : Char → Bool} {text text' : List Char}
    (h : (redactAll w matchSecret text).count '@' ≠ (redactAll w matchSecret text').count '@') :
    sanitizeString w (String.ofList text) ≠ sanitizeString w (String.ofList text') := by
  intro heq
  have hchars := String.ofList_injective heq
  rw [String.toList_ofList, String.toList_ofList] at hchars
  refine h ?_
  rw [← count_redactAll_bearer, ← count_redactAll_url, hchars, count_redactAll_url,
    count_redactAll_bearer]

/-! ## The first pattern around a hole -/

/-- The substitution of the first pattern in the rest of a text, after `prev`. -/
def redactRest (w : Char → Bool) (prev : Option Char) (text : List Char) : List Char :=
  substitute (lengthAt w matchSecret) redactMatch 0 prev text

theorem redactRest_of_none {w : Char → Bool} {prev : Option Char} {c : Char} {text : List Char}
    (h : matchSecret (c :: text) = none) :
    redactRest w prev (c :: text) = c :: redactRest w (some c) text := by
  refine substitute_of_none ?_
  unfold lengthAt
  rw [h]
  split_ifs <;> rfl

/-- The text is over or goes on with white space or a comma. -/
def Ended (tail : List Char) : Prop := tail.head?.all fun c => !isValueChar c

theorem Ended.cases {tail : List Char} (h : Ended tail) :
    tail = [] ∨ ∃ c rest, tail = c :: rest ∧ OutsideKeys c ∧ isValueChar c = false := by
  cases tail with
  | nil => exact Or.inl rfl
  | cons c rest =>
      have hc : (!isValueChar c) = true := h
      rw [Bool.not_eq_true'] at hc
      refine Or.inr ⟨c, rest, rfl, ?_, hc⟩
      rcases Bool.and_eq_false_iff.mp hc with hspace | hcomma
      · exact outsideKeys_of_isSpace (by simpa using hspace)
      · obtain rfl : c = ',' := by simpa using hcomma
        decide

/-- Where the text ends, it does not matter what was before. -/
theorem redactRest_of_ended {w : Char → Bool} {tail : List Char} (h : Ended tail)
    (prev prev' : Option Char) : redactRest w prev tail = redactRest w prev' tail := by
  rcases h.cases with rfl | ⟨c, rest, rfl, hc, _⟩
  · rfl
  · rw [redactRest_of_none (matchSecret_of_outsideKeys hc _),
      redactRest_of_none (matchSecret_of_outsideKeys hc _)]

/-- The part, before a value, of the match of the first pattern that takes the value in. -/
def heldOpen (w : Char → Bool) (before : List Char) : Option (List Char) :=
  openMatch (lengthAt w matchSecret) ['x'] 0 none before

/-- What the first pattern makes of the text before a value that it does not take in with a match
from before. -/
def settledBefore (w : Char → Bool) (before probe : List Char) : List Char :=
  settled (lengthAt w matchSecret) redactMatch probe 0 none before

/-- An open match is not of the second pattern. -/
theorem not_ofBearer_of_openMatch {w : Char → Bool} {probe before m : List Char}
    (h : openMatch (lengthAt w matchSecret) probe 0 none before = some m) (y : List Char) :
    m ≠ [] ∧ ¬ OfBearer (m ++ y) := by
  obtain ⟨hne, prev, hfind⟩ := openMatch_eq_some h
  refine ⟨hne, ?_⟩
  obtain ⟨c, m, rfl⟩ := List.exists_cons_of_ne_nil hne
  obtain ⟨n, hn⟩ := Option.isSome_iff_exists.mp hfind
  obtain ⟨rest, hrest, _⟩ := lengthAt_split hn
  obtain ⟨key, hmem, hkey⟩ := List.exists_of_findSome?_eq_some hrest
  obtain ⟨text, htext, _⟩ := Option.bind_eq_some_iff.mp hkey
  have hheads : ∀ key ∈ secretKeys,
      key.head?.any fun piece => piece ≠ .dash && !piece.accepts 'b' && !piece.accepts 'B' := by
    decide
  exact not_ofBearer (hheads key hmem) htext

theorem redactAll_of_none {w : Char → Bool} {spaced : Bool} {before probe y : List Char}
    (hbefore : EndsAssigning before) (hprobe : Filling spaced probe) (hy : Filling spaced y)
    (hopen : openMatch (lengthAt w matchSecret) probe 0 none before = none) :
    redactAll w matchSecret (before ++ y) =
      settledBefore w before probe ++ redactRest w before.getLast? y := by
  have hind : ∀ b, b ≠ [] → b <:+ before →
      Indifferent (lengthAt w matchSecret) probe b y (reach y) :=
    fun b hne hb => indifferent hbefore hne hb hy hprobe
  have hsubst : redactAll w matchSecret (before ++ y) =
      settledBefore w before probe ++ redactRest w (before.getLast?.or none) y :=
    substitute_of_openMatch_none hind (Nat.zero_le _) hopen
  rw [Option.or_none] at hsubst
  exact hsubst

theorem redactAll_of_some {w : Char → Bool} {spaced : Bool} {before probe value rest m : List Char}
    (hbefore : EndsAssigning before) (hprobe : Filling spaced probe)
    (hy : Filling spaced (value ++ rest)) (hrest : afterValue (value ++ rest) = rest)
    (hopen : openMatch (lengthAt w matchSecret) probe 0 none before = some m) :
    redactAll w matchSecret (before ++ (value ++ rest)) =
      settledBefore w before probe ++ redactMatch (m ++ value) ++
        redactRest w value.getLast? rest := by
  have hind : ∀ b, b ≠ [] → b <:+ before →
      Indifferent (lengthAt w matchSecret) probe b (value ++ rest) (reach (value ++ rest)) :=
    fun b hne hb => indifferent hbefore hne hb hy hprobe
  have hreach : reach (value ++ rest) = value.length := by
    unfold reach
    rw [hrest, List.length_append, Nat.add_sub_cancel]
  have hlength : reach (value ++ rest) ≤ (value ++ rest).length := Nat.sub_le ..
  have hsubst : redactAll w matchSecret (before ++ (value ++ rest)) =
      settledBefore w before probe ++
          redactMatch (m ++ (value ++ rest).take (reach (value ++ rest))) ++
        redactRest w ((value ++ rest).take (reach (value ++ rest))).getLast?
          ((value ++ rest).drop (reach (value ++ rest))) :=
    substitute_of_openMatch_some (one_le_reach hy) hlength hind hopen
  rw [hreach, List.take_left, List.drop_left] at hsubst
  exact hsubst

theorem not_isSpace_of_isValueChar {c : Char} (h : isValueChar c) : isSpace c = false := by
  have hc := (Bool.and_eq_true_iff.mp h).1
  simpa using hc

theorem filling_of_value {value rest : List Char} (hne : value ≠ [])
    (hvisible : ∀ c ∈ value, isValueChar c) : Filling false (value ++ rest) := by
  obtain ⟨c, value, rfl⟩ := List.exists_cons_of_ne_nil hne
  have hc : isValueChar c := hvisible c (List.mem_cons_self ..)
  have hspace : isSpace c = false := not_isSpace_of_isValueChar hc
  refine ⟨hspace, ?_⟩
  rw [List.cons_append, List.dropWhile_cons_of_neg (Bool.eq_false_iff.mp hspace)]
  exact hc

theorem afterValue_of_value {value rest : List Char} (hne : value ≠ [])
    (hvisible : ∀ c ∈ value, isValueChar c) (hrest : Ended rest) :
    afterValue (value ++ rest) = rest := by
  unfold afterValue
  rw [(filling_of_value hne hvisible).not_isSpace_of,
    List.dropWhile_append_of_pos (fun c hc => hvisible c hc)]
  rcases hrest.cases with rfl | ⟨c, rest, rfl, _, hc⟩
  · rfl
  · rw [List.dropWhile_cons_of_neg (Bool.eq_false_iff.mp hc)]

/-! ## Secrets after a key -/

/-- Some text without commas and white space. -/
structure Secret where
  chars : List Char
  ne_nil : chars ≠ []
  visible : ∀ c ∈ chars, isValueChar c

/-- A place for a secret: a key at a word boundary, a separator and white space around it. -/
structure SecretSite (w : Char → Bool) where
  start : List Char
  keyText : List Char
  spaces : List Char
  separator : Char
  spaces' : List Char
  tail : List Char
  isKey : ∃ key ∈ secretKeys, matchKey key keyText = some []
  bounded : boundary w start.getLast? keyText.head?
  separates : separator = ':' ∨ separator = '='
  spaced : ∀ c ∈ spaces ++ spaces', isSpace c
  ended : tail = [] ∨ tail.head? = some ',' ∨ tail.head? = some ' '

variable {w : Char → Bool}

/-- What stands before the secret. -/
def SecretSite.before (site : SecretSite w) : List Char :=
  site.start ++ site.keyText ++ site.spaces ++ site.separator :: site.spaces'

/-- The text with a secret, redacted. -/
def SecretSite.redacted (site : SecretSite w) (secret : Secret) : String :=
  sanitizeString w (String.ofList (site.before ++ (secret.chars ++ site.tail)))

theorem SecretSite.endsAssigning (site : SecretSite w) : EndsAssigning site.before :=
  ⟨_, site.separator, site.spaces', rfl, site.separates,
    fun c hc => site.spaced c (List.mem_append_right _ hc)⟩

theorem ended_of_head {tail : List Char}
    (h : tail = [] ∨ tail.head? = some ',' ∨ tail.head? = some ' ') : Ended tail := by
  unfold Ended
  rcases h with rfl | h | h
  · rfl
  · rw [h]
    rfl
  · rw [h]
    rfl

theorem filling_probe : Filling false ['x'] := ⟨rfl, rfl⟩

theorem SecretSite.redactAll_of_some (site : SecretSite w) (secret : Secret) {m : List Char}
    (hopen : heldOpen w site.before = some m) :
    redactAll w matchSecret (site.before ++ (secret.chars ++ site.tail)) =
      settledBefore w site.before ['x'] ++ redactMatch (m ++ secret.chars) ++
        redactRest w none site.tail := by
  have hended := ended_of_head site.ended
  rw [redactRest_of_ended hended none secret.chars.getLast?]
  exact Redaction.redactAll_of_some site.endsAssigning filling_probe
    (filling_of_value secret.ne_nil secret.visible)
    (afterValue_of_value secret.ne_nil secret.visible hended) hopen

theorem SecretSite.redactAll_of_none (site : SecretSite w) (secret : Secret)
    (hopen : heldOpen w site.before = none) :
    redactAll w matchSecret (site.before ++ (secret.chars ++ site.tail)) =
      settledBefore w site.before ['x'] ++
        redactRest w site.before.getLast? (secret.chars ++ site.tail) :=
  Redaction.redactAll_of_none site.endsAssigning filling_probe
    (filling_of_value secret.ne_nil secret.visible) hopen

/-- Two secrets that are told apart wherever they are not cut off. -/
def plainSecret : Secret := ⟨"a".toList, by decide, List.all_iff_forall_prop.mp rfl⟩

def markedSecret : Secret := ⟨"@://".toList, by decide, List.all_iff_forall_prop.mp rfl⟩

/-- A letter before the end of a text is no key. -/
theorem redactRest_letter {prev : Option Char} {tail : List Char}
    (h : tail = [] ∨ tail.head? = some ',' ∨ tail.head? = some ' ') :
    redactRest w prev ('a' :: tail) = 'a' :: redactRest w none tail := by
  have hnone : matchSecret ('a' :: tail) = none := by
    cases tail with
    | nil => rfl
    | cons c tail =>
        rcases h with h | h | h
        · cases h
        · cases h
          rfl
        · cases h
          rfl
  rw [redactRest_of_none hnone, redactRest_of_ended (ended_of_head h) _ none]

theorem redactRest_mark {prev : Option Char} {tail : List Char} (h : Ended tail) :
    redactRest w prev ("@://".toList ++ tail) = "@://".toList ++ redactRest w none tail := by
  have houtside : ∀ c ∈ "@://".toList, OutsideKeys c := List.all_iff_forall_prop.mp rfl
  have hstep : ∀ (text : List Char) (prev : Option Char), (∀ c ∈ text, OutsideKeys c) →
      redactRest w prev (text ++ tail) = text ++ redactRest w none tail := by
    intro text
    induction text with
    | nil =>
        intro prev _
        exact redactRest_of_ended h prev none
    | cons c text ih =>
        intro prev hc
        rw [List.cons_append,
          redactRest_of_none (matchSecret_of_outsideKeys (hc c (List.mem_cons_self ..)) _),
          ih _ fun d hd => hc d (List.mem_cons_of_mem _ hd)]
        rfl
  exact hstep _ prev houtside

/-- A match with `://` and `@` in it before the secret is cut off before the secret. -/
theorem redactMatch_append {m : List Char} (hbearer : ∀ y, ¬ OfBearer (m ++ y))
    (hmark : schemeMark <:+: m) (y : List Char) (hat : '@' ∈ m ++ y) :
    redactMatch (m ++ y) = beforeMark m ++ "://<redacted>:<redacted>@".toList := by
  rw [redactMatch_of_mark (hbearer y) (hmark.trans (List.prefix_append m y).isInfix) hat,
    beforeMark_append hmark]

/-- Every other match leaves a trace of the secrets above. -/
theorem count_redactMatch_ne {m : List Char} (hbearer : ∀ y, ¬ OfBearer (m ++ y))
    (h : ¬ (schemeMark <:+: m ∧ '@' ∈ m)) :
    (redactMatch (m ++ "a".toList)).count '@' < (redactMatch (m ++ "@://".toList)).count '@' := by
  have hmarked : schemeMark <:+: m ++ "@://".toList := by
    have hsuffix : schemeMark <:+: "@://".toList := by decide
    exact hsuffix.trans (List.suffix_append ..).isInfix
  rw [redactMatch_of_mark (hbearer "@://".toList) hmarked (by simp), List.count_append, count_mark]
  by_cases hmark : schemeMark <:+: m
  · have hat : '@' ∉ m := fun hat => h ⟨hmark, hat⟩
    have hat' : '@' ∉ m ++ "a".toList := by simpa using hat
    have hle := count_redactMatch_le (m := m ++ "a".toList) fun h => hat' h.2
    rw [List.count_eq_zero.mpr hat'] at hle
    omega
  · have hcons := beforeMark_append_cons (x := '@') hmark (by decide) "://".toList
    have hle := count_redactMatch_le_succ (m ++ "a".toList)
    have hempty : beforeMark "://".toList = [] := rfl
    have hsplit : m ++ "@://".toList = m ++ '@' :: "://".toList := rfl
    rw [hsplit, hcons, hempty, List.count_append]
    rw [List.count_append] at hle
    have hone : ['@'].count '@' = 1 := rfl
    have hzero : ("a".toList).count '@' = 0 := rfl
    omega

/-- The secrets after a key are hidden exactly if a match is open there that has its `://` and an
`@` already. -/
theorem SecretSite.redacted_eq_iff (site : SecretSite w) :
    (∀ secret secret', site.redacted secret = site.redacted secret') ↔
      ∃ m, heldOpen w site.before = some m ∧ schemeMark <:+: m ∧ '@' ∈ m := by
  constructor
  · intro h
    by_contra hcut
    have hended := ended_of_head site.ended
    -- the results differ in the number of `@`s, which nothing later adds or removes
    refine sanitizeString_ne (w := w) ?_ (h plainSecret markedSecret)
    cases hopen : heldOpen w site.before with
    | none =>
        have hletter : redactRest w site.before.getLast? (plainSecret.chars ++ site.tail) =
            'a' :: redactRest w none site.tail := redactRest_letter site.ended
        have hmark : redactRest w site.before.getLast? (markedSecret.chars ++ site.tail) =
            "@://".toList ++ redactRest w none site.tail := redactRest_mark hended
        have hone : ("@://".toList).count '@' = 1 := rfl
        rw [site.redactAll_of_none _ hopen, site.redactAll_of_none _ hopen, hletter, hmark,
          List.count_append, List.count_append, List.count_append, hone,
          List.count_cons_of_ne (by decide)]
        omega
    | some m =>
        have hbearer := fun y => (not_ofBearer_of_openMatch hopen y).2
        have hne := count_redactMatch_ne hbearer fun hm => hcut ⟨m, hopen, hm⟩
        rw [site.redactAll_of_some _ hopen, site.redactAll_of_some _ hopen]
        rw [List.count_append, List.count_append, List.count_append, List.count_append]
        have hne' : (redactMatch (m ++ plainSecret.chars)).count '@' <
            (redactMatch (m ++ markedSecret.chars)).count '@' := hne
        omega
  · rintro ⟨m, hopen, hmark, hat⟩ secret secret'
    have hbearer := fun y => (not_ofBearer_of_openMatch hopen y).2
    -- what is held open is cut at the scheme, before the secret begins
    have hcut (y : List Char) := redactMatch_append hbearer hmark y (List.mem_append_left y hat)
    unfold SecretSite.redacted sanitizeString
    rw [String.toList_ofList, String.toList_ofList, site.redactAll_of_some secret hopen,
      site.redactAll_of_some secret' hopen, hcut, hcut]

/-! ## Tokens after `Authorization: Bearer` -/

/-- A place for a token after `Authorization: Bearer `. -/
structure BearerSite where
  start : List Char
  tail : List Char
  ended : tail = [] ∨ tail.head? = some ',' ∨ tail.head? = some ' '

/-- What stands before the scheme. -/
def BearerSite.before (site : BearerSite) : List Char := site.start ++ "Authorization:".toList

/-- The text with a token, redacted. -/
def BearerSite.redacted (w : Char → Bool) (site : BearerSite) (token : Secret) : String :=
  sanitizeString w (String.ofList
    (site.start ++ "Authorization: Bearer ".toList ++ (token.chars ++ site.tail)))

/-- No key is in the scheme. -/
theorem redactRest_bearer {prev : Option Char} (rest : List Char) :
    redactRest w prev (" Bearer".toList ++ ' ' :: rest) =
      " Bearer ".toList ++ redactRest w (some ' ') rest := by
  change redactRest w prev
    (' ' :: 'B' :: 'e' :: 'a' :: 'r' :: 'e' :: 'r' :: ' ' :: rest) = _
  rw [redactRest_of_none rfl, redactRest_of_none rfl, redactRest_of_none rfl,
    redactRest_of_none rfl, redactRest_of_none rfl, redactRest_of_none rfl,
    redactRest_of_none rfl, redactRest_of_none rfl]
  rfl

/-- The first pattern takes at most the scheme, and never the token. -/
theorem BearerSite.redactAll_eq (site : BearerSite) :
    ∃ l, ∃ prev, ∀ token : Secret,
      redactAll w matchSecret
          (site.start ++ "Authorization: Bearer ".toList ++ (token.chars ++ site.tail)) =
        l ++ redactRest w prev (token.chars ++ site.tail) := by
  have hbefore : EndsAssigning site.before :=
    ⟨site.start ++ "Authorization".toList, ':', [], by simp [before], Or.inl rfl,
      fun c hc => by cases hc⟩
  have hprobe : Filling true " x".toList := ⟨rfl, rfl⟩
  have hfilling (rest : List Char) : Filling true (" Bearer".toList ++ ' ' :: rest) := ⟨rfl, rfl⟩
  have hspace : OutsideKeys ' ' := by decide
  have hsplit (rest : List Char) : site.start ++ "Authorization: Bearer ".toList ++ rest =
      site.before ++ (" Bearer".toList ++ ' ' :: rest) := by simp [before]
  cases hopen : openMatch (lengthAt w matchSecret) " x".toList 0 none site.before with
  | none =>
      refine ⟨settledBefore w site.before " x".toList ++ " Bearer ".toList, some ' ',
        fun token => ?_⟩
      rw [hsplit, redactAll_of_none hbefore hprobe (hfilling _) hopen, redactRest_bearer,
        List.append_assoc]
  | some m =>
      refine ⟨settledBefore w site.before " x".toList ++ redactMatch (m ++ " Bearer".toList) ++
        [' '], some ' ', fun token => ?_⟩
      rw [hsplit, redactAll_of_some hbefore hprobe (hfilling _) rfl hopen,
        redactRest_of_none (matchSecret_of_outsideKeys hspace _)]
      simp

theorem BearerSite.leaks (site : BearerSite) :
    ¬ ∀ token token', site.redacted w token = site.redacted w token' := by
  intro h
  obtain ⟨l, prev, hredact⟩ := site.redactAll_eq (w := w)
  refine sanitizeString_ne (w := w) ?_ (h plainSecret markedSecret)
  have hletter : redactRest w prev (plainSecret.chars ++ site.tail) =
      'a' :: redactRest w none site.tail := redactRest_letter site.ended
  have hmark : redactRest w prev (markedSecret.chars ++ site.tail) =
      "@://".toList ++ redactRest w none site.tail := redactRest_mark (ended_of_head site.ended)
  have hone : ("@://".toList).count '@' = 1 := rfl
  rw [hredact, hredact, hletter, hmark, List.count_append, List.count_append, List.count_append,
    hone, List.count_cons_of_ne (by decide)]
  omega

/-! ## Passwords in URLs -/

/-- A secret that does not end the user part of a URL. -/
structure Password extends Secret where
  unmarked : '@' ∉ chars

/-- A place for a password in a URL. -/
structure UrlSite (w : Char → Bool) where
  start : List Char
  scheme : List Char
  user : List Char
  tail : List Char
  isScheme : ∃ key ∈ urlSchemes, matchKey key scheme = some []
  bounded : boundary w start.getLast? scheme.head?
  named : user ≠ []
  isUser : ∀ c ∈ user, isUserChar c

/-- What stands before the password. -/
def UrlSite.before (site : UrlSite w) : List Char :=
  site.start ++ site.scheme ++ "://".toList ++ site.user ++ [':']

/-- The text with a password, redacted. -/
def UrlSite.redacted (site : UrlSite w) (password : Password) : String :=
  sanitizeString w (String.ofList (site.before ++ (password.chars ++ '@' :: site.tail)))

theorem UrlSite.endsAssigning (site : UrlSite w) : EndsAssigning site.before :=
  ⟨_, ':', [], rfl, Or.inl rfl, fun c hc => by cases hc⟩

/-- The value that begins with the password goes on behind it. -/
def UrlSite.value (site : UrlSite w) (password : Password) : List Char :=
  password.chars ++ '@' :: site.tail.takeWhile isValueChar

theorem UrlSite.value_append (site : UrlSite w) (password : Password) :
    site.value password ++ site.tail.dropWhile isValueChar =
      password.chars ++ '@' :: site.tail := by
  rw [value, List.append_assoc, List.cons_append, List.takeWhile_append_dropWhile]

theorem UrlSite.value_ne_nil (site : UrlSite w) (password : Password) :
    site.value password ≠ [] := by
  simp [value]

theorem UrlSite.value_visible (site : UrlSite w) (password : Password) :
    ∀ c ∈ site.value password, isValueChar c := by
  intro c hc
  rcases List.mem_append.mp hc with hc | hc
  · exact password.visible c hc
  · rcases List.mem_cons.mp hc with rfl | hc
    · rfl
    · exact List.mem_takeWhile_imp hc

theorem ended_dropWhile (tail : List Char) : Ended (tail.dropWhile isValueChar) := by
  induction tail with
  | nil => rfl
  | cons c tail ih =>
      by_cases hc : isValueChar c
      · rw [List.dropWhile_cons_of_pos hc]
        exact ih
      · rw [List.dropWhile_cons_of_neg hc]
        unfold Ended
        simpa using hc

theorem UrlSite.redactAll_of_some (site : UrlSite w) (password : Password) {m : List Char}
    (hopen : heldOpen w site.before = some m) :
    redactAll w matchSecret (site.before ++ (password.chars ++ '@' :: site.tail)) =
      settledBefore w site.before ['x'] ++ redactMatch (m ++ site.value password) ++
        redactRest w none (site.tail.dropWhile isValueChar) := by
  have hended := ended_dropWhile site.tail
  rw [redactRest_of_ended hended none (site.value password).getLast?, ← site.value_append]
  exact Redaction.redactAll_of_some site.endsAssigning filling_probe
    (filling_of_value (site.value_ne_nil _) (site.value_visible _))
    (afterValue_of_value (site.value_ne_nil _) (site.value_visible _) hended) hopen

/-- Two passwords that the first pattern takes for tokens, one of them with a URL in it. -/
def tokenPassword : Password :=
  ⟨⟨"token=a".toList, by decide, List.all_iff_forall_prop.mp rfl⟩, by decide⟩

def urlPassword : Password :=
  ⟨⟨"token=a://b".toList, by decide, List.all_iff_forall_prop.mp rfl⟩, by decide⟩

theorem takeWhile_append_sublist {p : Char → Bool} {x : Char} (hx : p x = false)
    (l r : List Char) : ((l ++ x :: r).takeWhile p).Sublist l := by
  induction l with
  | nil =>
      rw [List.nil_append, List.takeWhile_cons_of_neg (Bool.eq_false_iff.mp hx)]
  | cons c l ih =>
      rw [List.cons_append]
      by_cases hc : p c
      · rw [List.takeWhile_cons_of_pos hc]
        exact ih.cons_cons c
      · rw [List.takeWhile_cons_of_neg hc]
        exact List.nil_sublist _

/-- With the first password a match without a `://` keeps its `@`, or gets two more. -/
theorem count_redactMatch_token {m z : List Char} (hbearer : ∀ y, ¬ OfBearer (m ++ 't' :: y))
    (hmark : ¬ schemeMark <:+: m) :
    (redactMatch (m ++ ("token=a".toList ++ '@' :: z))).count '@' ≠ m.count '@' + 1 := by
  have hbearer' : ¬ OfBearer (m ++ ("token=a".toList ++ '@' :: z)) := hbearer _
  -- with a scheme the result is cut before it; without one the value goes as a whole
  by_cases hmarked : schemeMark <:+: m ++ ("token=a".toList ++ '@' :: z)
  · have hbefore : beforeMark (m ++ ("token=a".toList ++ '@' :: z)) =
        m ++ 't' :: beforeMark ("oken=a".toList ++ '@' :: z) :=
      beforeMark_append_cons hmark (by decide) _
    have hrest : beforeMark ("oken=a".toList ++ '@' :: z) =
        "oken=a".toList ++ '@' :: beforeMark z := rfl
    rw [redactMatch_of_mark hbearer' hmarked (by simp), hbefore, hrest, List.count_append,
      List.count_append, count_mark, List.count_cons_of_ne (by decide), List.count_append,
      List.count_cons_self]
    omega
  · have hsplit : m ++ ("token=a".toList ++ '@' :: z) =
        (m ++ "token".toList) ++ '=' :: ("a".toList ++ '@' :: z) := by simp
    have hkey : ((m ++ ("token=a".toList ++ '@' :: z)).takeWhile (· ≠ '=')).Sublist
        (m ++ "token".toList) := by
      rw [hsplit]
      exact takeWhile_append_sublist (by decide) _ _
    have hle := ((strip_sublist _).trans hkey).count_le '@'
    have hzero : ("token".toList).count '@' = 0 := rfl
    have hequals : ¬ (':' ∈ m ++ ("token=a".toList ++ '@' :: z) ∧
        '=' ∉ m ++ ("token=a".toList ++ '@' :: z)) := by simp
    have hredacted : redactMatch (m ++ ("token=a".toList ++ '@' :: z)) =
        strip ((m ++ ("token=a".toList ++ '@' :: z)).takeWhile (· ≠ '=')) ++
          '=' :: "<redacted>".toList := by
      unfold OfBearer at hbearer'
      rw [redactMatch, if_neg hbearer', if_neg fun h => hmarked h.1, if_neg hequals]
    have hend : ('=' :: "<redacted>".toList).count '@' = 0 := by decide
    rw [List.count_append, hzero] at hle
    rw [hredacted, List.count_append, hend]
    omega

/-- With the second password it gets one more. -/
theorem count_redactMatch_url {m z : List Char} (hbearer : ∀ y, ¬ OfBearer (m ++ 't' :: y))
    (hmark : ¬ schemeMark <:+: m) :
    (redactMatch (m ++ ("token=a://b".toList ++ '@' :: z))).count '@' = m.count '@' + 1 := by
  have hbearer' : ¬ OfBearer (m ++ ("token=a://b".toList ++ '@' :: z)) := hbearer _
  have hmarked : schemeMark <:+: m ++ ("token=a://b".toList ++ '@' :: z) :=
    ⟨m ++ "token=a".toList, 'b' :: '@' :: z, by simp [schemeMark]⟩
  have hbefore : beforeMark (m ++ ("token=a://b".toList ++ '@' :: z)) =
      m ++ 't' :: beforeMark ("oken=a://b".toList ++ '@' :: z) :=
    beforeMark_append_cons hmark (by decide) _
  have hrest : beforeMark ("oken=a://b".toList ++ '@' :: z) = "oken=a".toList := rfl
  have hzero : ("oken=a".toList).count '@' = 0 := rfl
  rw [redactMatch_of_mark hbearer' hmarked (by simp), hbefore, hrest, List.count_append,
    List.count_append, count_mark, List.count_cons_of_ne (by decide), hzero]

/-- A value that begins with a token is a match of the first pattern. -/
theorem UrlSite.redactRest_value (site : UrlSite w) (password : Password)
    (h : matchSecret (password.chars ++ '@' :: site.tail) =
      some (site.tail.dropWhile isValueChar))
    (hhead : (password.chars ++ '@' :: site.tail).head? = some 't') :
    redactRest w (some ':') (password.chars ++ '@' :: site.tail) =
      redactMatch (site.value password) ++
        redactRest w none (site.tail.dropWhile isValueChar) := by
  have hended := ended_dropWhile site.tail
  rw [← site.value_append] at h hhead ⊢
  rw [redactRest_of_ended hended none (site.value password).getLast?]
  refine substitute_match (site.value_ne_nil password) ?_
  have hboundary : boundary w (some ':') (some 't') := rfl
  rw [lengthAt, hhead, if_pos hboundary, h, Option.map_some, List.length_append,
    Nat.add_sub_cancel]

/-- The passwords are hidden exactly if a match is open there that has its `://` already. -/
theorem UrlSite.redacted_eq_iff (site : UrlSite w) :
    (∀ password password', site.redacted password = site.redacted password') ↔
      ∃ m, heldOpen w site.before = some m ∧ schemeMark <:+: m := by
  constructor
  · intro h
    by_contra hcut
    -- one password looks like a token and the other one like a URL
    refine sanitizeString_ne (w := w) ?_ (h tokenPassword urlPassword)
    cases hopen : heldOpen w site.before with
    | none =>
        have hlast : site.before.getLast? = some ':' := List.getLast?_concat
        have hall (password : Password) :
            redactAll w matchSecret (site.before ++ (password.chars ++ '@' :: site.tail)) =
              settledBefore w site.before ['x'] ++
                redactRest w (some ':') (password.chars ++ '@' :: site.tail) := by
          rw [← hlast]
          exact redactAll_of_none site.endsAssigning filling_probe
            (filling_of_value password.ne_nil password.visible) hopen
        have hbearer : ∀ y, ¬ OfBearer ([] ++ 't' :: y) := fun y hbearer =>
          absurd (List.cons.inj hbearer).1 (by decide)
        have hmark : ¬ schemeMark <:+: [] := by decide
        have htoken := count_redactMatch_token (z := site.tail.takeWhile isValueChar) hbearer hmark
        have hurl := count_redactMatch_url (z := site.tail.takeWhile isValueChar) hbearer hmark
        rw [hall, hall, site.redactRest_value tokenPassword rfl rfl,
          site.redactRest_value urlPassword rfl rfl, List.count_append, List.count_append,
          List.count_append, List.count_append]
        have htoken' : (redactMatch (site.value tokenPassword)).count '@' ≠ 1 := htoken
        have hurl' : (redactMatch (site.value urlPassword)).count '@' = 1 := hurl
        omega
    | some m =>
        have hbearer := fun y => (not_ofBearer_of_openMatch hopen ('t' :: y)).2
        have hmark : ¬ schemeMark <:+: m := fun hm => hcut ⟨m, hopen, hm⟩
        have htoken := count_redactMatch_token (z := site.tail.takeWhile isValueChar) hbearer hmark
        have hurl := count_redactMatch_url (z := site.tail.takeWhile isValueChar) hbearer hmark
        rw [site.redactAll_of_some _ hopen, site.redactAll_of_some _ hopen, List.count_append,
          List.count_append, List.count_append, List.count_append]
        have htoken' : (redactMatch (m ++ site.value tokenPassword)).count '@' ≠ m.count '@' + 1 :=
          htoken
        have hurl' : (redactMatch (m ++ site.value urlPassword)).count '@' = m.count '@' + 1 :=
          hurl
        omega
  · rintro ⟨m, hopen, hmark⟩ password password'
    have hbearer := fun y => (not_ofBearer_of_openMatch hopen y).2
    -- the mark stands before the password, so the match is cut there
    have hcut (password : Password) := redactMatch_append hbearer hmark (site.value password)
      (List.mem_append_right m (by simp [value]))
    unfold redacted sanitizeString
    rw [String.toList_ofList, String.toList_ofList, site.redactAll_of_some password hopen,
      site.redactAll_of_some password' hopen, hcut, hcut]

/-! ## Values under sensitive keys -/

/-- A mapping with a hole under a key, nested in mappings and lists. -/
inductive ValueContext where
  | entry (before after : PyDict)
  | inEntry (before : PyDict) (key : String) (context : ValueContext) (after : PyDict)
  | inItem (before : List Value) (context : ValueContext) (after : List Value)

/-- The value stored under the key. -/
def ValueContext.fill (key : String) (v : Value) : ValueContext → Value
  | .entry before after => .dict (before ++ (key, v) :: after)
  | .inEntry before outer context after =>
      .dict (before ++ (outer, context.fill key v) :: after)
  | .inItem before context after => .list (before ++ context.fill key v :: after)

theorem sanitizeEntries_append (rt : Runtime) (before after : PyDict) :
    sanitizeEntries rt (before ++ after) =
      sanitizeEntries rt before ++ sanitizeEntries rt after := by
  induction before with
  | nil => rfl
  | cons entry before ih => simp [sanitizeEntries, ih]

theorem sanitizeItems_append (rt : Runtime) (before after : List Value) :
    sanitizeItems rt (before ++ after) = sanitizeItems rt before ++ sanitizeItems rt after := by
  induction before with
  | nil => rfl
  | cons v before ih => simp [sanitizeItems, ih]

theorem ValueContext.hides (context : ValueContext) (rt : Runtime) {key : String}
    (hkey : isSensitiveKey rt key) (v v' : Value) :
    sanitizeValue rt (context.fill key v) = sanitizeValue rt (context.fill key v') := by
  induction context with
  | entry before after =>
      simp [fill, sanitizeValue, sanitizeEntries_append, sanitizeEntries, hkey]
  | inEntry before outer context after ih =>
      simp [fill, sanitizeValue, sanitizeEntries_append, sanitizeEntries, ih]
  | inItem before context after ih =>
      simp [fill, sanitizeValue, sanitizeItems_append, sanitizeItems, ih]

/-- When the logger hides a secret: after a key if a match is open there that has its `://` and an
`@` before the secret; after `Authorization: Bearer` never; in a URL if a match is open there that
has its `://` before the password; under a sensitive key always. -/
theorem hides_iff (w : Char → Bool) (rt : Runtime) :
    (∀ site : SecretSite w,
      (∀ secret secret', site.redacted secret = site.redacted secret') ↔
        ∃ m, heldOpen w site.before = some m ∧ schemeMark <:+: m ∧ '@' ∈ m) ∧
    (∀ site : BearerSite, ¬ ∀ token token', site.redacted w token = site.redacted w token') ∧
    (∀ site : UrlSite w,
      (∀ password password', site.redacted password = site.redacted password') ↔
        ∃ m, heldOpen w site.before = some m ∧ schemeMark <:+: m) ∧
    ∀ (context : ValueContext) (key : String), isSensitiveKey rt key →
      ∀ v v', sanitizeValue rt (context.fill key v) = sanitizeValue rt (context.fill key v') :=
  ⟨SecretSite.redacted_eq_iff, BearerSite.leaks, UrlSite.redacted_eq_iff,
    fun context _ hkey => context.hides rt hkey⟩

/-- A bearer token stands in the log as it is, and a password up to its last `=`. -/
theorem token_survives :
    sanitizeString (fun _ => false) "Authorization: Bearer abc" =
        "Authorization:<redacted> abc" ∧
      sanitizeString (fun _ => false) "Authorization: Bearer abc" ≠
        sanitizeString (fun _ => false) "Authorization: Bearer abd" ∧
      sanitizeString (fun _ => false) "password: abc=" ≠
        sanitizeString (fun _ => false) "password: abd=" := by
  decide

end Redaction

end McpOps
