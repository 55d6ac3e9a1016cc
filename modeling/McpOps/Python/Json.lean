import Mathlib.Data.Bool.AllAny
import Mathlib.Data.List.Sort
import McpOps.Python.Value

/-!
# JSON texts

`json.dumps(v, sort_keys=True, separators=(",", ":"))`: the keys of every object sorted, then the
text, all in ASCII.  How a float is written is a parameter, with `FloatTexts` for what matters of
it.

A text determines its value (`printJson_injective`), so two values have the same text only if they
are equal up to the order of keys (`reordered_of_jsonDumps`).

## Strategy

A value cannot be read off a prefix by its length, so every lemma has the form of a cancellation:
if two values are followed by texts that cannot continue them, and the whole texts are equal, then
the values are equal and what follows is equal.

* Inside a text: `escapeChar_cancel` for one character, with `unicodeEscape_cancel` and
  `numericEscape_cancel` for its longer forms, and `closeText_cancel` up to the quotation mark.
* Numbers end where a delimiter comes: `append_cancel_of_stops`.
* The first character tells the kind of a value (`kind_eq`), so only values of one kind are
  compared; `printJson_cancel` is then an induction over the value, together with
  `printItems_cancel` and `printEntries_cancel`.
-/

namespace McpOps

/-! ## Texts -/

/-- The text of an `int`. -/
def intText : ℤ → List Char
  | .ofNat n => Nat.toDigits 10 n
  | .negSucc n => '-' :: Nat.toDigits 10 (n + 1)

def backslash : Char := Char.ofNat 92

def quotationMark : Char := Char.ofNat 34

/-- The characters with an escape of two characters, and the second of these. -/
def shortEscapes : List (Char × Char) :=
  [(quotationMark, quotationMark), (backslash, backslash), (Char.ofNat 10, 'n'),
    (Char.ofNat 13, 'r'), (Char.ofNat 9, 't'), (Char.ofNat 12, 'f'), (Char.ofNat 8, 'b')]

/-- A backslash, `u` and four hexadecimal digits. -/
def unicodeEscape (n : ℕ) : List Char := backslash :: 'u' :: hexDigits 4 n

/-- The escape of a character by its number, beyond 16 bits by a surrogate pair. -/
def numericEscape (n : ℕ) : List Char :=
  if n < 65536 then unicodeEscape n
  else unicodeEscape (55296 + (n - 65536) / 1024) ++ unicodeEscape (56320 + (n - 65536) % 1024)

/-- A character inside a text in quotation marks. -/
def escapeChar (c : Char) : List Char :=
  match shortEscapes.lookup c with
  | some e => [backslash, e]
  | none => if 32 ≤ c.toNat ∧ c.toNat ≤ 126 then [c] else numericEscape c.toNat

/-- The characters of a text, escaped, and the closing quotation mark. -/
def closeText : List Char → List Char
  | [] => [quotationMark]
  | c :: rest => escapeChar c ++ closeText rest

/-- A text in quotation marks. -/
def quoteText (text : String) : List Char := quotationMark :: closeText text.toList

mutual

/-- The JSON text of a value, its keys in the order they have. -/
def printJson (floatText : PyFloat → List Char) : Value → List Char
  | .null => "null".toList
  | .bool true => "true".toList
  | .bool false => "false".toList
  | .int n => intText n
  | .float x => floatText x
  | .str s => quoteText s
  | .list [] => ['[', ']']
  | .list (v :: rest) => '[' :: (printJson floatText v ++ printItems floatText rest)
  | .dict [] => [Char.ofNat 123, Char.ofNat 125]
  | .dict ((key, v) :: rest) =>
      Char.ofNat 123 ::
        (quoteText key ++ ':' :: (printJson floatText v ++ printEntries floatText rest))

/-- Further items, each after a comma, and the closing bracket. -/
def printItems (floatText : PyFloat → List Char) : List Value → List Char
  | [] => [']']
  | v :: rest => ',' :: (printJson floatText v ++ printItems floatText rest)

/-- Further entries, each after a comma, and the closing brace. -/
def printEntries (floatText : PyFloat → List Char) : List (String × Value) → List Char
  | [] => [Char.ofNat 125]
  | (key, v) :: rest =>
      ',' :: (quoteText key ++ ':' :: (printJson floatText v ++ printEntries floatText rest))

end

mutual

/-- The value with the keys of every `dict` in it sorted. -/
def sortKeys : Value → Value
  | .list items => .list (sortItems items)
  | .dict entries => .dict ((sortEntries entries).insertionSort fun a b => ¬ b.1 < a.1)
  | v => v

def sortItems : List Value → List Value
  | [] => []
  | v :: rest => sortKeys v :: sortItems rest

def sortEntries : List (String × Value) → List (String × Value)
  | [] => []
  | (key, v) :: rest => (key, sortKeys v) :: sortEntries rest

end

/-- `json.dumps(v, sort_keys=True, separators=(",", ":"))`. -/
def jsonDumps (floatText : PyFloat → List Char) (v : Value) : String :=
  String.ofList (printJson floatText (sortKeys v))

/-! ## Equal up to the order of keys -/

/-- The values are equal, except that the entries of a `dict` may come in another order. -/
inductive Reordered : Value → Value → Prop
  | refl (v : Value) : Reordered v v
  | symm {v w : Value} : Reordered v w → Reordered w v
  | trans {u v w : Value} : Reordered u v → Reordered v w → Reordered u w
  | perm {d e : PyDict} : d.Perm e → Reordered (.dict d) (.dict e)
  | item {v w : Value} {xs ys : List Value} : Reordered v w → Reordered (.list xs) (.list ys) →
      Reordered (.list (v :: xs)) (.list (w :: ys))
  | entry {v w : Value} {d e : PyDict} (key : String) : Reordered v w →
      Reordered (.dict d) (.dict e) → Reordered (.dict ((key, v) :: d)) (.dict ((key, w) :: e))

mutual

/-- Sorting the keys only reorders. -/
theorem reordered_sortKeys : ∀ v, Reordered v (sortKeys v)
  | .list items => reordered_sortItems items
  | .dict entries =>
      (reordered_sortEntries entries).trans (.perm (List.perm_insertionSort _ _).symm)
  | .null => .refl _
  | .bool _ => .refl _
  | .int _ => .refl _
  | .float _ => .refl _
  | .str _ => .refl _

theorem reordered_sortItems : ∀ items, Reordered (.list items) (.list (sortItems items))
  | [] => .refl _
  | v :: rest => .item (reordered_sortKeys v) (reordered_sortItems rest)

theorem reordered_sortEntries :
    ∀ entries, Reordered (.dict entries) (.dict (sortEntries entries))
  | [] => .refl _
  | (key, v) :: rest => .entry key (reordered_sortKeys v) (reordered_sortEntries rest)

end

/-! ## What a text determines -/

theorem unicodeEscape_cancel {m n : ℕ} {r r' : List Char}
    (h : unicodeEscape m ++ r = unicodeEscape n ++ r') : m % 65536 = n % 65536 ∧ r = r' := by
  simp only [unicodeEscape, List.cons_append, List.cons.injEq, true_and] at h
  obtain ⟨hdigits, hrest⟩ := List.append_inj h (by rw [length_hexDigits, length_hexDigits])
  exact ⟨hexDigits_injective hdigits, hrest⟩

/-- A character number, which is no surrogate. -/
def IsScalar (n : ℕ) : Prop := n < 55296 ∨ 57343 < n ∧ n < 1114112

theorem numericEscape_cancel {m n : ℕ} {r r' : List Char} (hm : IsScalar m) (hn : IsScalar n)
    (h : numericEscape m ++ r = numericEscape n ++ r') : m = n ∧ r = r' := by
  unfold numericEscape at h
  unfold IsScalar at hm hn
  split at h
  · split at h
    · obtain ⟨heq, hrest⟩ := unicodeEscape_cancel h
      exact ⟨by omega, hrest⟩
    · rw [List.append_assoc] at h
      obtain ⟨heq, -⟩ := unicodeEscape_cancel h
      -- the first of a pair is a surrogate
      omega
  · split at h
    · rw [List.append_assoc] at h
      obtain ⟨heq, -⟩ := unicodeEscape_cancel h
      omega
    · rw [List.append_assoc, List.append_assoc] at h
      obtain ⟨hhigh, hrest⟩ := unicodeEscape_cancel h
      obtain ⟨hlow, hrest⟩ := unicodeEscape_cancel hrest
      exact ⟨by omega, hrest⟩

theorem numericEscape_head (n : ℕ) : ∃ rest, numericEscape n = backslash :: 'u' :: rest := by
  unfold numericEscape
  split
  · exact ⟨_, rfl⟩
  · exact ⟨_, rfl⟩

/-- The three ways to write a character. -/
theorem escapeChar_cases (c : Char) :
    (∃ e, (c, e) ∈ shortEscapes ∧ escapeChar c = [backslash, e]) ∨
      (c ≠ backslash ∧ c ≠ quotationMark ∧ escapeChar c = [c]) ∨
      escapeChar c = numericEscape c.toNat := by
  unfold escapeChar
  cases hlookup : shortEscapes.lookup c with
  | some e =>
      obtain ⟨before, after, hsplit, -⟩ := List.lookup_eq_some_iff.mp hlookup
      exact .inl ⟨e, hsplit ▸ List.mem_append_right _ (List.mem_cons_self ..), rfl⟩
  | none =>
      refine .inr ?_
      dsimp only
      split
      · refine .inl ⟨?_, ?_, rfl⟩
        · rintro rfl
          cases hlookup
        · rintro rfl
          cases hlookup
      · exact .inr rfl

/-- What follows an escaped character tells the character. -/
theorem escapeChar_cancel {c d : Char} {r r' : List Char}
    (h : escapeChar c ++ r = escapeChar d ++ r') : c = d ∧ r = r' := by
  have hu : ∀ p ∈ shortEscapes, p.2 ≠ 'u' := by decide
  have hinj : ∀ p ∈ shortEscapes, ∀ q ∈ shortEscapes, p.2 = q.2 → p.1 = q.1 := by decide
  obtain ⟨mc, hmc⟩ := numericEscape_head c.toNat
  obtain ⟨md, hmd⟩ := numericEscape_head d.toNat
  rcases escapeChar_cases c with ⟨e, hc, htext⟩ | ⟨hbc, -, htext⟩ | htext <;>
    rcases escapeChar_cases d with ⟨e', hd, htext'⟩ | ⟨hbd, -, htext'⟩ | htext' <;>
    rw [htext, htext'] at h
  · simp only [List.cons_append, List.nil_append, List.cons.injEq, true_and] at h
    exact ⟨hinj _ hc _ hd h.1, h.2⟩
  · exact absurd (List.cons.inj h).1.symm hbd
  · rw [hmd] at h
    exact absurd (List.cons.inj (List.cons.inj h).2).1 (hu _ hc)
  · exact absurd (List.cons.inj h).1 hbc
  · exact List.cons.inj h
  · rw [hmd] at h
    exact absurd (List.cons.inj h).1 hbc
  · rw [hmc] at h
    exact absurd (List.cons.inj (List.cons.inj h).2).1.symm (hu _ hd)
  · rw [hmc] at h
    exact absurd (List.cons.inj h).1.symm hbd
  · obtain ⟨heq, hrest⟩ := numericEscape_cancel c.valid d.valid h
    exact ⟨Char.toNat_inj.mp heq, hrest⟩

theorem escapeChar_head (c : Char) : ∃ a rest, escapeChar c = a :: rest ∧ a ≠ quotationMark := by
  obtain ⟨m, hm⟩ := numericEscape_head c.toNat
  have hne : backslash ≠ quotationMark := by decide
  rcases escapeChar_cases c with ⟨e, -, htext⟩ | ⟨-, hquote, htext⟩ | htext
  · exact ⟨backslash, [e], htext, hne⟩
  · exact ⟨c, [], htext, hquote⟩
  · exact ⟨backslash, 'u' :: m, htext.trans hm, hne⟩

theorem closeText_cancel {a b r r' : List Char} (h : closeText a ++ r = closeText b ++ r') :
    a = b ∧ r = r' := by
  induction a generalizing b with
  | nil =>
      cases b with
      | nil => exact ⟨rfl, (List.cons.inj h).2⟩
      | cons d b =>
          obtain ⟨x, rest, hd, hx⟩ := escapeChar_head d
          rw [closeText, closeText, hd] at h
          exact absurd (List.cons.inj h).1.symm hx
  | cons c a ih =>
      cases b with
      | nil =>
          obtain ⟨x, rest, hc, hx⟩ := escapeChar_head c
          rw [closeText, closeText, hc] at h
          exact absurd (List.cons.inj h).1 hx
      | cons d b =>
          rw [closeText, closeText, List.append_assoc, List.append_assoc] at h
          obtain ⟨rfl, htail⟩ := escapeChar_cancel h
          obtain ⟨rfl, hrest⟩ := ih htail
          exact ⟨rfl, hrest⟩

theorem quoteText_cancel {s t : String} {r r' : List Char}
    (h : quoteText s ++ r = quoteText t ++ r') : s = t ∧ r = r' := by
  obtain ⟨heq, hrest⟩ := closeText_cancel (List.cons.inj h).2
  exact ⟨String.toList_inj.mp heq, hrest⟩

/-! ### Numbers -/

theorem toDigits_injective {m n : ℕ} (h : Nat.toDigits 10 m = Nat.toDigits 10 n) : m = n := by
  have := congrArg (Nat.ofDigitChars 10 · 0) h
  rwa [Nat.ofDigitChars_ten_toDigits, Nat.ofDigitChars_ten_toDigits] at this

theorem isDigit_of_mem_toDigits {c : Char} {n : ℕ} (h : c ∈ Nat.toDigits 10 n) : c.isDigit :=
  Nat.isDigit_of_mem_toDigits (by decide) (by decide) h

theorem intText_injective {m n : ℤ} (h : intText m = intText n) : m = n := by
  have hsign : ∀ k l : ℕ, Nat.toDigits 10 k ≠ '-' :: Nat.toDigits 10 l := by
    intro k l heq
    have hdigit : ('-').isDigit :=
      isDigit_of_mem_toDigits (n := k) (heq ▸ List.mem_cons_self ..)
    exact absurd hdigit (by decide)
  cases m with
  | ofNat k =>
      cases n with
      | ofNat l => rw [toDigits_injective h]
      | negSucc l => exact absurd h (hsign k (l + 1))
  | negSucc k =>
      cases n with
      | ofNat l => exact absurd h.symm (hsign l (k + 1))
      | negSucc l => rw [Nat.succ.inj (toDigits_injective (List.cons.inj h).2)]

/-- The characters that can follow a value. -/
def IsDelimiter (c : Char) : Prop := c = ',' ∨ c = ']' ∨ c = Char.ofNat 125

instance (c : Char) : Decidable (IsDelimiter c) := inferInstanceAs (Decidable (_ ∨ _ ∨ _))

/-- The first character of a number. -/
def StartsNumber (c : Char) : Prop := c.isDigit ∨ c = '-' ∨ c = 'I' ∨ c = 'N'

/-- How floats are written: different floats differently, as a number and not as an `int`. -/
structure FloatTexts (floatText : PyFloat → List Char) : Prop where
  injective : Function.Injective floatText
  head : ∀ x, ∃ c rest, floatText x = c :: rest ∧ StartsNumber c
  noDelimiter : ∀ x, ∀ c ∈ floatText x, ¬ IsDelimiter c
  notInt : ∀ x n, floatText x ≠ intText n

theorem intText_head (n : ℤ) : ∃ c rest, intText n = c :: rest ∧ StartsNumber c := by
  cases n with
  | ofNat k =>
      have hne : Nat.toDigits 10 k ≠ [] := Nat.toDigits_ne_nil
      obtain ⟨c, rest, hdigits⟩ := List.exists_cons_of_ne_nil hne
      exact ⟨c, rest, hdigits, .inl (isDigit_of_mem_toDigits (hdigits ▸ List.mem_cons_self ..))⟩
  | negSucc k => exact ⟨'-', _, rfl, .inr (.inl rfl)⟩

theorem not_isDelimiter_of_isDigit {c : Char} (h : c.isDigit) : ¬ IsDelimiter c := by
  rintro (rfl | rfl | rfl) <;> exact absurd h (by decide)

theorem intText_noDelimiter (n : ℤ) : ∀ c ∈ intText n, ¬ IsDelimiter c := by
  cases n with
  | ofNat k => exact fun c hc => not_isDelimiter_of_isDigit (isDigit_of_mem_toDigits hc)
  | negSucc k =>
      intro c hc
      rcases List.mem_cons.mp hc with rfl | hc
      · rintro (h | h | h) <;> exact absurd h (by decide)
      · exact not_isDelimiter_of_isDigit (isDigit_of_mem_toDigits hc)

/-- A text without characters of a kind ends where one of them comes. -/
theorem append_cancel_of_stops {P : Char → Prop} {a b r r' : List Char} (ha : ∀ c ∈ a, ¬ P c)
    (hb : ∀ c ∈ b, ¬ P c) (hr : ∀ c rest, r = c :: rest → P c)
    (hr' : ∀ c rest, r' = c :: rest → P c) (h : a ++ r = b ++ r') : a = b ∧ r = r' := by
  induction a generalizing b with
  | nil =>
      cases b with
      | nil => exact ⟨rfl, h⟩
      | cons d b => exact absurd (hr d _ h) (hb d (List.mem_cons_self ..))
  | cons c a ih =>
      cases b with
      | nil => exact absurd (hr' c _ h.symm) (ha c (List.mem_cons_self ..))
      | cons d b =>
          obtain ⟨rfl, htail⟩ := List.cons.inj h
          obtain ⟨rfl, hrest⟩ := ih (fun c hc => ha c (List.mem_cons_of_mem _ hc))
            (fun c hc => hb c (List.mem_cons_of_mem _ hc)) htail
          exact ⟨rfl, hrest⟩

/-- What comes after a value: nothing, or a delimiter first. -/
def Follows (r : List Char) : Prop := ∀ c rest, r = c :: rest → IsDelimiter c

/-! ### Values -/

/-- The kinds of JSON texts, which their first characters tell apart. -/
inductive JsonKind where
  | null
  | bool
  | number
  | text
  | array
  | object
  deriving DecidableEq

def Value.kind : Value → JsonKind
  | .null => .null
  | .bool _ => .bool
  | .int _ => .number
  | .float _ => .number
  | .str _ => .text
  | .list _ => .array
  | .dict _ => .object

/-- The kind of a text that starts with the character. -/
def kindOfHead (c : Char) : JsonKind :=
  if c = 'n' then .null
  else if c = 't' ∨ c = 'f' then .bool
  else if c = quotationMark then .text
  else if c = '[' then .array
  else if c = Char.ofNat 123 then .object
  else .number

theorem kindOfHead_of_startsNumber {c : Char} (h : StartsNumber c) :
    kindOfHead c = .number ∧ ¬ IsDelimiter c := by
  rcases h with h | rfl | rfl | rfl
  · refine ⟨?_, not_isDelimiter_of_isDigit h⟩
    have hne : ∀ d : Char, d.isDigit = false → c ≠ d := fun d hd heq => by
      rw [heq, hd] at h
      exact Bool.false_ne_true h
    unfold kindOfHead
    rw [if_neg (hne _ (by decide)), if_neg, if_neg (hne _ (by decide)), if_neg (hne _ (by decide)),
      if_neg (hne _ (by decide))]
    rintro (h | h)
    · exact hne _ (by decide) h
    · exact hne _ (by decide) h
  all_goals exact ⟨by decide, by decide⟩

section Values

variable {floatText : PyFloat → List Char} (hf : FloatTexts floatText)

include hf

theorem printJson_head (v : Value) : ∃ c rest, printJson floatText v = c :: rest ∧
    kindOfHead c = v.kind ∧ ¬ IsDelimiter c := by
  cases v with
  | null => exact ⟨'n', _, rfl, rfl, by decide⟩
  | bool b =>
      cases b with
      | true => exact ⟨'t', _, rfl, rfl, by decide⟩
      | false => exact ⟨'f', _, rfl, rfl, by decide⟩
  | int n =>
      obtain ⟨c, rest, htext, hc⟩ := intText_head n
      exact ⟨c, rest, htext, kindOfHead_of_startsNumber hc⟩
  | float x =>
      obtain ⟨c, rest, htext, hc⟩ := hf.head x
      exact ⟨c, rest, htext, kindOfHead_of_startsNumber hc⟩
  | str s => exact ⟨quotationMark, _, rfl, rfl, by decide⟩
  | list items =>
      cases items with
      | nil => exact ⟨'[', _, rfl, rfl, by decide⟩
      | cons v rest => exact ⟨'[', _, rfl, rfl, by decide⟩
  | dict entries =>
      cases entries with
      | nil => exact ⟨Char.ofNat 123, _, rfl, rfl, by decide⟩
      | cons e rest => exact ⟨Char.ofNat 123, _, rfl, rfl, by decide⟩

/-- Values with texts that start alike are of one kind. -/
theorem kind_eq {v w : Value} {r r' : List Char}
    (h : printJson floatText v ++ r = printJson floatText w ++ r') : v.kind = w.kind := by
  obtain ⟨c, rest, hv, hkind, -⟩ := printJson_head hf v
  obtain ⟨d, rest', hw, hkind', -⟩ := printJson_head hf w
  rw [hv, hw] at h
  rw [← hkind, ← hkind', (List.cons.inj h).1]

omit hf in
theorem follows_printItems (items : List Value) (r : List Char) :
    Follows (printItems floatText items ++ r) := by
  cases items with
  | nil => rintro c rest h; exact .inr (.inl (List.cons.inj h).1.symm)
  | cons v items => rintro c rest h; exact .inl (List.cons.inj h).1.symm

omit hf in
theorem follows_printEntries (entries : List (String × Value)) (r : List Char) :
    Follows (printEntries floatText entries ++ r) := by
  cases entries with
  | nil => rintro c rest h; exact .inr (.inr (List.cons.inj h).1.symm)
  | cons e entries => rintro c rest h; exact .inl (List.cons.inj h).1.symm

/-- A value does not start where a list or an object is closed. -/
theorem printJson_ne (v : Value) {c : Char} (hc : IsDelimiter c) (r r' : List Char) :
    printJson floatText v ++ r ≠ c :: r' := by
  obtain ⟨d, rest, hv, -, hd⟩ := printJson_head hf v
  rw [hv]
  exact fun h => hd ((List.cons.inj h).1 ▸ hc)

end Values

section Cancel

variable {floatText : PyFloat → List Char}

mutual

/-- What follows a value tells the value. -/
theorem printJson_cancel (hf : FloatTexts floatText) :
    ∀ (v w : Value) {r r' : List Char}, Follows r → Follows r' →
      printJson floatText v ++ r = printJson floatText w ++ r' → v = w ∧ r = r'
  | .null, w, r, r', _, _, h => by
      have hkind := kind_eq hf h
      cases w with
      | null => exact ⟨rfl, List.append_cancel_left h⟩
      | _ => cases hkind
  | .bool b, w, r, r', _, _, h => by
      have hkind := kind_eq hf h
      cases w with
      | bool b' =>
          cases b <;> cases b' <;> first | exact ⟨rfl, List.append_cancel_left h⟩ | cases h
      | _ => cases hkind
  | .int n, w, r, r', hr, hr', h => by
      have hkind := kind_eq hf h
      cases w with
      | int n' =>
          obtain ⟨heq, hrest⟩ :=
            append_cancel_of_stops (intText_noDelimiter n) (intText_noDelimiter n') hr hr' h
          exact ⟨congrArg _ (intText_injective heq), hrest⟩
      | float x =>
          -- a float is never written like an integer
          obtain ⟨heq, -⟩ :=
            append_cancel_of_stops (intText_noDelimiter n) (hf.noDelimiter x) hr hr' h
          exact absurd heq.symm (hf.notInt x n)
      | _ => cases hkind
  | .float x, w, r, r', hr, hr', h => by
      have hkind := kind_eq hf h
      cases w with
      | int n =>
          obtain ⟨heq, -⟩ :=
            append_cancel_of_stops (hf.noDelimiter x) (intText_noDelimiter n) hr hr' h
          exact absurd heq (hf.notInt x n)
      | float x' =>
          obtain ⟨heq, hrest⟩ :=
            append_cancel_of_stops (hf.noDelimiter x) (hf.noDelimiter x') hr hr' h
          exact ⟨congrArg _ (hf.injective heq), hrest⟩
      | _ => cases hkind
  | .str s, w, r, r', _, _, h => by
      have hkind := kind_eq hf h
      cases w with
      | str t =>
          obtain ⟨heq, hrest⟩ := quoteText_cancel h
          exact ⟨congrArg _ heq, hrest⟩
      | _ => cases hkind
  | .list [], w, r, r', _, _, h => by
      have hkind := kind_eq hf h
      cases w with
      | list items =>
          cases items with
          | nil => exact ⟨rfl, List.append_cancel_left h⟩
          | cons w items =>
              have htail : (printJson floatText w ++ printItems floatText items) ++ r' = ']' :: r :=
                (List.cons.inj h).2.symm
              rw [List.append_assoc] at htail
              exact absurd htail (printJson_ne hf w (.inr (.inl rfl)) _ _)
      | _ => cases hkind
  | .list (v :: items), w, r, r', _, _, h => by
      have hkind := kind_eq hf h
      cases w with
      | list items' =>
          cases items' with
          | nil =>
              have htail : (printJson floatText v ++ printItems floatText items) ++ r = ']' :: r' :=
                (List.cons.inj h).2
              rw [List.append_assoc] at htail
              exact absurd htail (printJson_ne hf v (.inr (.inl rfl)) _ _)
          | cons w items' =>
              rw [printJson, printJson, List.cons_append, List.cons_append, List.cons.injEq,
                List.append_assoc, List.append_assoc] at h
              obtain ⟨rfl, htail⟩ := printJson_cancel hf v w (follows_printItems items r)
                (follows_printItems items' r') h.2
              obtain ⟨rfl, hrest⟩ := printItems_cancel hf items items' htail
              exact ⟨rfl, hrest⟩
      | _ => cases hkind
  | .dict [], w, r, r', _, _, h => by
      have hkind := kind_eq hf h
      cases w with
      | dict entries =>
          cases entries with
          | nil => exact ⟨rfl, List.append_cancel_left h⟩
          | cons e entries => exact absurd (List.cons.inj (List.cons.inj h).2).1 (by decide)
      | _ => cases hkind
  | .dict ((key, v) :: entries), w, r, r', _, _, h => by
      have hkind := kind_eq hf h
      cases w with
      | dict entries' =>
          cases entries' with
          | nil => exact absurd (List.cons.inj (List.cons.inj h).2).1 (by decide)
          | cons e entries' =>
              obtain ⟨key', w⟩ := e
              rw [printJson, printJson, List.cons_append, List.cons_append, List.cons.injEq,
                List.append_assoc, List.append_assoc] at h
              obtain ⟨rfl, hvalue⟩ := quoteText_cancel h.2
              rw [List.cons_append, List.cons_append, List.cons.injEq, List.append_assoc,
                List.append_assoc] at hvalue
              obtain ⟨rfl, htail⟩ := printJson_cancel hf v w (follows_printEntries entries r)
                (follows_printEntries entries' r') hvalue.2
              obtain ⟨rfl, hrest⟩ := printEntries_cancel hf entries entries' htail
              exact ⟨rfl, hrest⟩
      | _ => cases hkind

theorem printItems_cancel (hf : FloatTexts floatText) :
    ∀ (xs ys : List Value) {r r' : List Char},
      printItems floatText xs ++ r = printItems floatText ys ++ r' → xs = ys ∧ r = r'
  | [], [], _, _, h => ⟨rfl, (List.cons.inj h).2⟩
  | [], _ :: _, _, _, h => absurd (List.cons.inj h).1 (by decide)
  | _ :: _, [], _, _, h => absurd (List.cons.inj h).1 (by decide)
  | v :: xs, w :: ys, r, r', h => by
      rw [printItems, printItems, List.cons_append, List.cons_append, List.cons.injEq,
        List.append_assoc, List.append_assoc] at h
      obtain ⟨rfl, htail⟩ := printJson_cancel hf v w (follows_printItems xs r)
        (follows_printItems ys r') h.2
      obtain ⟨rfl, hrest⟩ := printItems_cancel hf xs ys htail
      exact ⟨rfl, hrest⟩

theorem printEntries_cancel (hf : FloatTexts floatText) :
    ∀ (d e : List (String × Value)) {r r' : List Char},
      printEntries floatText d ++ r = printEntries floatText e ++ r' → d = e ∧ r = r'
  | [], [], _, _, h => ⟨rfl, (List.cons.inj h).2⟩
  | [], _ :: _, _, _, h => absurd (List.cons.inj h).1 (by decide)
  | _ :: _, [], _, _, h => absurd (List.cons.inj h).1 (by decide)
  | (key, v) :: d, (key', w) :: e, r, r', h => by
      rw [printEntries, printEntries, List.cons_append, List.cons_append, List.cons.injEq,
        List.append_assoc, List.append_assoc] at h
      obtain ⟨rfl, hvalue⟩ := quoteText_cancel h.2
      rw [List.cons_append, List.cons_append, List.cons.injEq, List.append_assoc,
        List.append_assoc] at hvalue
      obtain ⟨rfl, htail⟩ := printJson_cancel hf v w (follows_printEntries d r)
        (follows_printEntries e r') hvalue.2
      obtain ⟨rfl, hrest⟩ := printEntries_cancel hf d e htail
      exact ⟨rfl, hrest⟩

end

/-- The text of a value determines it. -/
theorem printJson_injective (hf : FloatTexts floatText) :
    Function.Injective (printJson floatText) := by
  intro v w h
  have hnil : Follows [] := fun c rest h => by cases h
  exact (printJson_cancel hf v w hnil hnil (congrArg (· ++ []) h)).1

/-- Values with the same JSON text are equal up to the order of keys. -/
theorem reordered_of_jsonDumps (hf : FloatTexts floatText) {v w : Value}
    (h : jsonDumps floatText v = jsonDumps floatText w) :
    Reordered v w := by
  have hsorted : sortKeys v = sortKeys w := printJson_injective hf (String.ofList_injective h)
  exact (reordered_sortKeys v).trans (hsorted ▸ (reordered_sortKeys w).symm)

end Cancel

/-! ### Floats for small examples -/

/-- Floats as fractions, with a dot between numerator and denominator. -/
def fractionText : PyFloat → List Char
  | .finite q => intText q.num ++ '.' :: Nat.toDigits 10 q.den
  | .posInf => "Infinity".toList
  | .negInf => "-Infinity".toList
  | .nan => "NaN".toList

theorem intText_ne {n : ℤ} {c : Char} (h : c.isDigit = false) (hc : c ≠ '-') :
    c ∉ intText n := by
  have hdigits : ∀ k, c ∉ Nat.toDigits 10 k := fun k hmem =>
    Bool.false_ne_true (h.symm.trans (isDigit_of_mem_toDigits hmem))
  cases n with
  | ofNat k => exact hdigits k
  | negSucc k => exact fun hmem => (List.mem_cons.mp hmem).elim hc (hdigits (k + 1))

theorem mem_fractionText {q : ℚ} {c : Char} (h : c ∈ fractionText (.finite q)) :
    c.isDigit ∨ c = '-' ∨ c = '.' := by
  rcases List.mem_append.mp h with h | h
  · by_contra hne
    push Not at hne
    exact intText_ne (Bool.eq_false_iff.mpr hne.1) hne.2.1 h
  · rcases List.mem_cons.mp h with rfl | h
    · exact .inr (.inr rfl)
    · exact .inl (isDigit_of_mem_toDigits h)

theorem fractionText_finite {p q : ℚ} (h : fractionText (.finite p) = fractionText (.finite q)) :
    p = q := by
  have hdot : ∀ n : ℤ, ∀ c ∈ intText n, ¬ c = '.' := by
    rintro n c hc rfl
    exact intText_ne (by decide) (by decide) hc
  have hstop : ∀ (d c : Char) (l rest : List Char), d :: l = c :: rest → c = d :=
    fun d c l rest h => (List.cons.inj h).1.symm
  obtain ⟨hnum, hden⟩ := append_cancel_of_stops (hdot p.num) (hdot q.num)
    (fun c rest => hstop '.' c _ rest) (fun c rest => hstop '.' c _ rest) h
  exact Rat.ext (intText_injective hnum) (toDigits_injective (List.cons.inj hden).2)

theorem floatTexts_fractionText : FloatTexts fractionText where
  injective := by
    -- a fraction has no letters
    have hletter : ∀ (q : ℚ) {y : PyFloat}, 'n' ∈ fractionText y ∨ 'N' ∈ fractionText y →
        fractionText (.finite q) ≠ fractionText y := by
      rintro q y (hmem | hmem) heq <;>
        exact absurd (mem_fractionText (heq ▸ hmem)) (by decide)
    have hnamed : ∀ {x : PyFloat}, x ∈ [PyFloat.posInf, .negInf, .nan] →
        'n' ∈ fractionText x ∨ 'N' ∈ fractionText x := by decide
    have hdistinct : ∀ x ∈ [PyFloat.posInf, .negInf, .nan], ∀ y ∈ [PyFloat.posInf, .negInf, .nan],
        fractionText x = fractionText y → x = y := by decide
    have hcases : ∀ x, (∃ q, x = .finite q) ∨ x ∈ [PyFloat.posInf, .negInf, .nan] := by
      intro x
      cases x with
      | finite q => exact .inl ⟨q, rfl⟩
      | _ => exact .inr (by decide)
    intro x y h
    rcases hcases x with ⟨p, rfl⟩ | hx
    · rcases hcases y with ⟨q, rfl⟩ | hy
      · exact congrArg _ (fractionText_finite h)
      · exact absurd h (hletter p (hnamed hy))
    · rcases hcases y with ⟨q, rfl⟩ | hy
      · exact absurd h.symm (hletter q (hnamed hx))
      · exact hdistinct x hx y hy h
  head x := by
    cases x with
    | finite q =>
        obtain ⟨c, rest, htext, hc⟩ := intText_head q.num
        have hfraction : fractionText (.finite q) = c :: (rest ++ '.' :: Nat.toDigits 10 q.den) :=
          congrArg (· ++ '.' :: Nat.toDigits 10 q.den) htext
        exact ⟨c, _, hfraction, hc⟩
    | posInf => exact ⟨'I', "nfinity".toList, rfl, .inr (.inr (.inl rfl))⟩
    | negInf => exact ⟨'-', "Infinity".toList, rfl, .inr (.inl rfl)⟩
    | nan => exact ⟨'N', "aN".toList, rfl, .inr (.inr (.inr rfl))⟩
  noDelimiter x c hc := by
    cases x with
    | finite q =>
        rcases mem_fractionText hc with h | rfl | rfl
        · exact not_isDelimiter_of_isDigit h
        · decide
        · decide
    | posInf =>
        have hall : ∀ c ∈ fractionText .posInf, ¬ IsDelimiter c := List.all_iff_forall_prop.mp rfl
        exact hall c hc
    | negInf =>
        have hall : ∀ c ∈ fractionText .negInf, ¬ IsDelimiter c := List.all_iff_forall_prop.mp rfl
        exact hall c hc
    | nan =>
        have hall : ∀ c ∈ fractionText .nan, ¬ IsDelimiter c := List.all_iff_forall_prop.mp rfl
        exact hall c hc
  notInt x n h := by
    have hmem : ∀ c ∈ fractionText x, c.isDigit ∨ c = '-' := by
      intro c hc
      by_contra hne
      push Not at hne
      exact intText_ne (Bool.eq_false_iff.mpr hne.1) hne.2 (h ▸ hc)
    cases x with
    | finite q =>
        have hdot : '.' ∈ fractionText (.finite q) :=
          List.mem_append_right _ (List.mem_cons_self ..)
        exact absurd (hmem _ hdot) (by decide)
    | nan => exact absurd (hmem 'N') (by decide)
    | _ => exact absurd (hmem 'y') (by decide)

end McpOps
