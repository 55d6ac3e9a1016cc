import Mathlib.Algebra.Group.Nat.Defs
import Mathlib.Data.Rat.Defs
import Mathlib.Data.List.Basic

/-!
# Python values

The JSON-like values that travel through tool arguments, tool results and workflow outputs, with
Python's `==` and truth test on them, and the identifiers and clock readings that accompany them.

* `Value` keeps a `dict` as the list of its entries, since iteration and dumps see their order;
  `pyEq` does not.
* `PyFloat` has the finite floats by their values beside `nan` and the infinities, with the
  comparisons of IEEE 754.
* `UUID.str` writes an identifier; it is injective (`UUID.str_injective`) and of fixed length
  (`UUID.length_str`).
* `Time` counts microseconds, as a `timedelta` does.

`Runtime` collects what is taken from libraries instead of being written out here: the digest of a
JSON dump, the display of a value, the redaction patterns of the logger.  A dump and a display are
texts, whatever the value; where the library raises instead, `dumpsRaises` and `strRaises` say what,
and code that may come to such a value asks them first.  `Runtime.plain` is a runtime that can be
evaluated.
-/

namespace McpOps

/-! ## Numbers, values and dictionaries -/

/-- A `float`, a finite one by its value. -/
inductive PyFloat where
  | finite (q : ℚ)
  | posInf
  | negInf
  | nan
  deriving DecidableEq, Repr

/-- IEEE equality: `nan` differs from everything. -/
def PyFloat.eq : PyFloat → PyFloat → Bool
  | .finite p, .finite q => p = q
  | .posInf, .posInf => true
  | .negInf, .negInf => true
  | _, _ => false

/-- IEEE order: `nan` is unordered. -/
def PyFloat.lt : PyFloat → PyFloat → Bool
  | .finite p, .finite q => p < q
  | .negInf, .finite _ => true
  | .negInf, .posInf => true
  | .finite _, .posInf => true
  | _, _ => false

/-- A JSON-like Python value.  A `dict` is the list of its entries in insertion order. -/
inductive Value where
  | null
  | bool (b : Bool)
  | int (n : ℤ)
  | float (x : PyFloat)
  | str (s : String)
  | list (items : List Value)
  | dict (entries : List (String × Value))
  deriving Repr

/-- A `dict[str, Any]`. -/
abbrev PyDict := List (String × Value)

/-- `d.get(key)`. -/
def PyDict.get? (d : PyDict) (key : String) : Option Value := d.lookup key

/-- `d[key] = value`. -/
def PyDict.set : PyDict → String → Value → PyDict
  | [], key, value => [(key, value)]
  | (k, v) :: rest, key, value =>
      if k = key then (key, value) :: rest else (k, v) :: PyDict.set rest key value

namespace Value

/-- The number a value stands for in a comparison: `True` is one and `False` is zero. -/
def number? : Value → Option PyFloat
  | .bool b => some (.finite (if b then 1 else 0))
  | .int n => some (.finite n)
  | .float x => some x
  | _ => none

/-- `==` of two numbers, `False` when one side is not a number. -/
def numberEq (v w : Value) : Bool :=
  match v.number?, w.number? with
  | some x, some y => x.eq y
  | _, _ => false

mutual

/-- Python's `==`: numbers by value across their types, a `dict` without regard to order. -/
def pyEq : Value → Value → Bool
  | .null, .null => true
  | .str s, .str t => s = t
  | .list xs, .list ys => pyEqItems xs ys
  | .dict d, .dict e => d.length = e.length && pyEqEntries d e
  | v, w => numberEq v w

/-- `==` of two lists. -/
def pyEqItems : List Value → List Value → Bool
  | [], [] => true
  | x :: xs, y :: ys => pyEq x y && pyEqItems xs ys
  | _, _ => false

/-- Every entry of the first is in the second, up to `==`. -/
def pyEqEntries : List (String × Value) → List (String × Value) → Bool
  | [], _ => true
  | (k, v) :: rest, e =>
      (match e.lookup k with
        | some w => pyEq v w
        | none => false) && pyEqEntries rest e

end

/-- `bool(v)`. -/
def truthy : Value → Bool
  | .null => false
  | .bool b => b
  | .int n => n ≠ 0
  | .float x => !x.eq (.finite 0)
  | .str s => s ≠ ""
  | .list items => !items.isEmpty
  | .dict entries => !entries.isEmpty

end Value

/-- `==` of two argument dictionaries. -/
def PyDict.pyEq (d e : PyDict) : Bool := (Value.dict d).pyEq (.dict e)

/-! ## Identifiers and time -/

/-- A 128-bit identifier. -/
abbrev UUID := BitVec 128

/-- The hexadecimal digits of `n`, `width` of them. -/
def hexDigits : ℕ → ℕ → List Char
  | 0, _ => []
  | width + 1, n => hexDigits width (n / 16) ++ [Nat.digitChar (n % 16)]

/-- `str(uuid)`: 32 hexadecimal digits in groups of 8, 4, 4, 4 and 12. -/
def UUID.str (u : UUID) : String :=
  let digits := hexDigits 32 u.toNat
  let group := fun first size => String.ofList ((digits.drop first).take size)
  group 0 8 ++ "-" ++ group 8 4 ++ "-" ++ group 12 4 ++ "-" ++ group 16 4 ++ "-" ++ group 20 12

theorem length_hexDigits (width n : ℕ) : (hexDigits width n).length = width := by
  induction width generalizing n with
  | zero => rfl
  | succ width ih => rw [hexDigits, List.length_append, ih, List.length_singleton]

theorem digitChar_injective {m n : ℕ} (hm : m < 16) (hn : n < 16)
    (h : Nat.digitChar m = Nat.digitChar n) : m = n := by
  have hall : ∀ m < 16, ∀ n < 16, Nat.digitChar m = Nat.digitChar n → m = n := by decide
  exact hall m hm n hn h

/-- The digits determine the number, as far as they reach. -/
theorem hexDigits_injective {width m n : ℕ} (h : hexDigits width m = hexDigits width n) :
    m % 16 ^ width = n % 16 ^ width := by
  induction width generalizing m n with
  | zero => rw [Nat.pow_zero, Nat.mod_one, Nat.mod_one]
  | succ width ih =>
      rw [hexDigits, hexDigits] at h
      obtain ⟨hrest, hlast⟩ := List.append_inj' h rfl
      have hdigit := digitChar_injective (Nat.mod_lt m (Nat.succ_pos 15))
        (Nat.mod_lt n (Nat.succ_pos 15)) (List.singleton_inj.mp hlast)
      rw [Nat.pow_succ', Nat.mod_mul, Nat.mod_mul, hdigit, ih hrest]

/-- A list of 32 elements by its groups. -/
theorem eq_groups {l : List Char} (hlength : l.length = 32) :
    l = (l.drop 0).take 8 ++ ((l.drop 8).take 4 ++
      ((l.drop 12).take 4 ++ ((l.drop 16).take 4 ++ (l.drop 20).take 12))) := by
  have hlast : (l.drop 20).take 12 = l.drop 20 := List.take_of_length_le (by simp [hlength])
  have hnext : ∀ n k, (l.drop n).take k ++ l.drop (n + k) = l.drop n := fun n k => by
    rw [← List.drop_drop, List.take_append_drop]
  rw [hlast, hnext 16 4, hnext 12 4, hnext 8 4, hnext 0 8, List.drop_zero]

theorem UUID.length_str (u : UUID) : (UUID.str u).length = 36 := by
  simp only [UUID.str, String.length_append, String.length_ofList, List.length_take,
    List.length_drop, length_hexDigits]
  rfl

/-- Different identifiers have different texts. -/
theorem UUID.str_injective {u v : UUID} (h : UUID.str u = UUID.str v) : u = v := by
  have hlength := fun u : UUID => length_hexDigits 32 u.toNat
  have hlist := congrArg String.toList h
  simp only [UUID.str, String.toList_append, String.toList_ofList, List.append_assoc] at hlist
  have htake : ∀ (u : UUID) first size, first + size ≤ 32 →
      (((hexDigits 32 u.toNat).drop first).take size).length = size := by
    intro u first size hle
    rw [List.length_take, List.length_drop, hlength]
    omega
  -- group by group, with a dash after each
  obtain ⟨h₀, hlist⟩ := List.append_inj hlist (by rw [htake u 0 8, htake v 0 8] <;> decide)
  obtain ⟨-, hlist⟩ := List.append_inj hlist rfl
  obtain ⟨h₁, hlist⟩ := List.append_inj hlist (by rw [htake u 8 4, htake v 8 4] <;> decide)
  obtain ⟨-, hlist⟩ := List.append_inj hlist rfl
  obtain ⟨h₂, hlist⟩ := List.append_inj hlist (by rw [htake u 12 4, htake v 12 4] <;> decide)
  obtain ⟨-, hlist⟩ := List.append_inj hlist rfl
  obtain ⟨h₃, hlist⟩ := List.append_inj hlist (by rw [htake u 16 4, htake v 16 4] <;> decide)
  obtain ⟨-, h₄⟩ := List.append_inj hlist rfl
  have hdigits : hexDigits 32 u.toNat = hexDigits 32 v.toNat := by
    rw [eq_groups (hlength u), eq_groups (hlength v), h₀, h₁, h₂, h₃, h₄]
  have hmod := hexDigits_injective hdigits
  refine BitVec.eq_of_toNat_eq ?_
  have hu : u.toNat < 16 ^ 32 := u.isLt
  have hv : v.toNat < 16 ^ 32 := v.isLt
  rwa [Nat.mod_eq_of_lt hu, Nat.mod_eq_of_lt hv] at hmod

/-- A point in time or a span of it, in microseconds. -/
abbrev Time := ℤ

/-- `timedelta(seconds=n)`. -/
def seconds (n : ℤ) : Time := n * 1000000

/-! ## Library functions -/

/-- What is taken from Python's library and from the patterns of the logger as they are. -/
structure Runtime where
  /-- `hashlib.sha256(json.dumps(v, default=str, sort_keys=True, ...)).hexdigest()` -/
  digest : Value → String
  /-- what `json.dumps(v, ...)` raises, by class and text: of a value that is nested too deeply, or
  of an integer with too many digits -/
  dumpsRaises : Value → Option (String × String)
  /-- `str(v)` -/
  str : Value → String
  /-- what `str(v)` raises -/
  strRaises : Value → Option (String × String)
  /-- `repr(s)` -/
  repr : String → String
  /-- `s.lower()` -/
  lower : String → String
  /-- `s.upper()` -/
  upper : String → String
  /-- `c.isspace()`, what `strip` removes and what a pattern matches with `\s` -/
  isSpace : Char → Bool
  /-- `int(s)`, if it raises no `ValueError` -/
  parseInt : String → Option ℤ
  /-- `float(s)`, if it raises no `ValueError` -/
  parseFloat : String → Option PyFloat
  /-- `UUID(s)`, if it raises no `ValueError` -/
  parseUuid : String → Option UUID
  /-- `re.match(pattern, s) is not None` -/
  reMatch : (pattern s : String) → Bool
  /-- `_sanitize_string`: the secret patterns of the logger replaced in `s` -/
  sanitizeString : String → String
  /-- what the recursion of `sanitize_value(v)` raises -/
  sanitizeRaises : Value → Option (String × String)
  /-- how a model dump writes a `datetime` -/
  isoformat : Time → String

/-- `s.strip()`. -/
def Runtime.strip (rt : Runtime) (s : String) : String :=
  String.ofList (((s.toList.dropWhile rt.isSpace).reverse.dropWhile rt.isSpace).reverse)

/-! ### A runtime for small examples -/

mutual

/-- A readable text of a value. -/
def Value.display : Value → String
  | .null => "None"
  | .bool b => if b then "True" else "False"
  | .int n => toString n
  | .float _ => "float"
  | .str s => s
  | .list items => "[" ++ displayItems items ++ "]"
  | .dict entries => "(" ++ displayEntries entries ++ ")"

def displayItems : List Value → String
  | [] => ""
  | v :: rest => v.display ++ ", " ++ displayItems rest

def displayEntries : List (String × Value) → String
  | [] => ""
  | (key, v) :: rest => key ++ ": " ++ v.display ++ ", " ++ displayEntries rest

end

/-- The decimal digits of `text` as a number. -/
def digits? (text : List Char) : Option ℕ :=
  if text = [] then none
  else text.foldlM (fun n c => if c.isDigit then some (10 * n + (c.toNat - 48)) else none) 0

/-- The value of a lower-case hexadecimal digit. -/
def hexDigit? (c : Char) : Option ℕ :=
  if c.isDigit then some (c.toNat - 48)
  else if 97 ≤ c.toNat ∧ c.toNat ≤ 102 then some (c.toNat - 87)
  else none

/-- Library functions for plain ASCII data without secrets that is already in the case it is
compared in, with natural numbers only.  The digest of a value is the value's own text. -/
def Runtime.plain : Runtime where
  digest := Value.display
  dumpsRaises _ := none
  str := Value.display
  strRaises _ := none
  repr := id
  lower := id
  upper := id
  isSpace := Char.isWhitespace
  parseInt s := (digits? s.toList).map fun n => (n : ℤ)
  parseFloat _ := none
  parseUuid s := do
    let hex := s.toList.filter (· ≠ '-')
    if hex.length = 32 then
      (hex.foldlM (fun n c => (hexDigit? c).map (16 * n + ·)) 0).map (BitVec.ofNat 128)
    else none
  reMatch _ _ := true
  sanitizeString := id
  sanitizeRaises _ := none
  isoformat t := toString t

end McpOps
