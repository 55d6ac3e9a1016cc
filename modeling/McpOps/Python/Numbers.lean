import McpOps.Lib.Rounding
import McpOps.Lib.Runs
import McpOps.Python.Value

/-!
# Reading and rounding numbers

`int(text)`, `float(n)` and the sums of `float`s.

`int` reads decimal digits of any script, with single underscores between them, a sign before them
and blanks around, up to the number of digits at which the interpreter stops.  A `float` is the
value of a double or infinite: what arithmetic yields is rounded to the nearest double, and is
infinite from the number on that would need a greater exponent.

* `intOfText_digits`: what is written with ASCII digits only is read as such.
-/

namespace McpOps

open Rounding

/-! ## `int(text)` -/

/-- The code points of the digits zero. -/
def decimalZeros : List ℕ :=
  [0x30, 0x660, 0x6f0, 0x7c0, 0x966, 0x9e6, 0xa66, 0xae6, 0xb66, 0xbe6, 0xc66, 0xce6, 0xd66, 0xde6,
    0xe50, 0xed0, 0xf20, 0x1040, 0x1090, 0x17e0, 0x1810, 0x1946, 0x19d0, 0x1a80, 0x1a90, 0x1b50,
    0x1bb0, 0x1c40, 0x1c50, 0xa620, 0xa8d0, 0xa900, 0xa9d0, 0xa9f0, 0xaa50, 0xabf0, 0xff10, 0x104a0,
    0x10d30, 0x11066, 0x110f0, 0x11136, 0x111d0, 0x112f0, 0x11450, 0x114d0, 0x11650, 0x116c0,
    0x11730, 0x118e0, 0x11950, 0x11c50, 0x11d50, 0x11da0, 0x11f50, 0x16a60, 0x16ac0, 0x16b50,
    0x1d7ce, 0x1d7d8, 0x1d7e2, 0x1d7ec, 0x1d7f6, 0x1e140, 0x1e2f0, 0x1e4f0, 0x1e950, 0x1fbf0]

/-- The value of a decimal digit. -/
def decimalDigit? (c : Char) : Option ℕ :=
  (decimalZeros.find? fun first => first ≤ c.toNat ∧ c.toNat < first + 10).map (c.toNat - ·)

/-- The blanks that `int` skips. -/
def isIntSpace (c : Char) : Bool :=
  (9 ≤ c.toNat ∧ c.toNat ≤ 13) ∨
    c.toNat ∈ [0x20, 0x85, 0xa0, 0x1680, 0x2028, 0x2029, 0x202f, 0x205f, 0x3000] ∨
    (0x2000 ≤ c.toNat ∧ c.toNat ≤ 0x200a)

/-- The digits that follow those with the value `n`. -/
def moreDigits : ℕ → List Char → Option ℕ
  | n, [] => some n
  | n, c :: rest =>
      if c = '_' then
        match rest with
        | [] => none
        | d :: rest => (decimalDigit? d).bind fun k => moreDigits (10 * n + k) rest
      else (decimalDigit? c).bind fun k => moreDigits (10 * n + k) rest

/-- A number without a sign. -/
def unsignedInt : List Char → Option ℕ
  | [] => none
  | c :: rest => (decimalDigit? c).bind fun k => moreDigits k rest

/-- A number with or without a sign. -/
def signedInt : List Char → Option ℤ
  | [] => none
  | c :: rest =>
      if c = '+' then (unsignedInt rest).map Int.ofNat
      else if c = '-' then (unsignedInt rest).map Int.negOfNat
      else (unsignedInt (c :: rest)).map Int.ofNat

/-- The most digits that `int` reads. -/
def intMaxStrDigits : ℕ := 4300

/-- `int(text)`, if it raises no `ValueError`. -/
def intOfText (text : List Char) : Option ℤ :=
  if text.countP (fun c => (decimalDigit? c).isSome) ≤ intMaxStrDigits then
    signedInt (Runs.trim isIntSpace text)
  else none

theorem toNat_of_isDigit {c : Char} (h : c.isDigit) : 48 ≤ c.toNat ∧ c.toNat ≤ 57 :=
  Char.isDigit_iff_toNat.mp h

/-- An ASCII digit is one of the first script. -/
theorem decimalDigit?_of_isDigit {c : Char} (h : c.isDigit) :
    decimalDigit? c = some (c.toNat - 48) := by
  obtain ⟨hlow, hhigh⟩ := toNat_of_isDigit h
  have hfind : decimalZeros.find? (fun first => decide (first ≤ c.toNat ∧ c.toNat < first + 10)) =
      some 0x30 := by
    apply List.find?_cons_of_pos
    rw [decide_eq_true_eq]
    omega
  rw [decimalDigit?, hfind, Option.map_some]

theorem not_isIntSpace_of_isDigit {c : Char} (h : c.isDigit) : isIntSpace c = false := by
  obtain ⟨hlow, hhigh⟩ := toNat_of_isDigit h
  rw [isIntSpace, decide_eq_false_iff_not]
  simp only [List.mem_cons, List.not_mem_nil, or_false]
  omega

theorem ne_of_isDigit {c d : Char} (h : c.isDigit) (hd : d.isDigit = false) : c ≠ d := by
  rintro rfl
  rw [hd] at h
  cases h

theorem moreDigits_of_isDigit {text : List Char} (h : ∀ c ∈ text, c.isDigit) (n : ℕ) :
    moreDigits n text = some (Nat.ofDigitChars 10 text n) := by
  induction text generalizing n with
  | nil => simp [moreDigits]
  | cons c rest ih =>
      have hc := h c (List.mem_cons_self ..)
      rw [moreDigits.eq_def]
      simp only
      rw [if_neg (ne_of_isDigit (d := '_') hc rfl), decimalDigit?_of_isDigit hc, Option.bind_some,
        ih (fun d hd => h d (List.mem_cons_of_mem c hd)), Nat.ofDigitChars_cons]
      rfl

/-- Digits are not trimmed. -/
theorem trim_of_isDigit {text : List Char} (h : ∀ c ∈ text, c.isDigit) :
    Runs.trim isIntSpace text = text := by
  have hspace : ∀ c ∈ text, ¬ isIntSpace c := by
    intro c hc
    rw [not_isIntSpace_of_isDigit (h c hc)]
    exact Bool.false_ne_true
  rw [Runs.trim, List.dropWhile_eq_self_iff.mpr fun hl => hspace _ (List.getElem_mem hl),
    List.rdropWhile_eq_self_iff.mpr fun hl => hspace _ (List.getLast_mem hl)]

/-- A text of ASCII digits is read as the number that they write. -/
theorem intOfText_digits {text : List Char} (hne : text ≠ []) (h : ∀ c ∈ text, c.isDigit)
    (hlength : text.length ≤ intMaxStrDigits) :
    intOfText text = some (Int.ofNat (Nat.ofDigitChars 10 text 0)) := by
  have hcount : text.countP (fun c => (decimalDigit? c).isSome) ≤ intMaxStrDigits :=
    List.countP_le_length.trans hlength
  obtain ⟨c, rest, rfl⟩ := List.exists_cons_of_ne_nil hne
  have hc := h c (List.mem_cons_self ..)
  rw [intOfText, if_pos hcount, trim_of_isDigit h, signedInt, if_neg (ne_of_isDigit hc rfl),
    if_neg (ne_of_isDigit hc rfl), unsignedInt, decimalDigit?_of_isDigit hc, Option.bind_some,
    moreDigits_of_isDigit fun d hd => h d (List.mem_cons_of_mem c hd), Option.map_some,
    Nat.ofDigitChars_cons, Nat.mul_zero, Nat.zero_add]
  rfl

/-! ## `float`s -/

/-- The `float` that a result of arithmetic is rounded to. -/
def PyFloat.ofRat (x : ℚ) : PyFloat :=
  let y := binary64.round x
  if 2 ^ 1024 ≤ y then .posInf else if y ≤ -2 ^ 1024 then .negInf else .finite y

theorem PyFloat.ofRat_eq {x y : ℚ} (hround : binary64.round x = y) (hlow : -2 ^ 1024 < y)
    (hhigh : y < 2 ^ 1024) : PyFloat.ofRat x = .finite y := by
  rw [PyFloat.ofRat, hround, if_neg (not_le.mpr hhigh), if_neg (not_le.mpr hlow)]

/-- `x <= y`. -/
def PyFloat.le (x y : PyFloat) : Bool := x.lt y || x.eq y

theorem PyFloat.not_le_of_lt {x y : PyFloat} (h : x.lt y) : ¬ y.le x := by
  cases x <;> cases y <;> simp_all [PyFloat.le, PyFloat.lt, PyFloat.eq]
  · constructor
    · exact h.le
    · exact h.ne'

/-- The least integer for which `float(n)` raises an `OverflowError`. -/
def floatLimit : ℤ := 2 ^ 1024 - 2 ^ 970

/-- `float(n)`, if it raises no `OverflowError`. -/
def floatOfInt (n : ℤ) : Option PyFloat :=
  if n < floatLimit ∧ -floatLimit < n then some (.finite (binary64.round n)) else none

end McpOps
