import Mathlib.Algebra.Order.Floor.Ring
import Mathlib.Algebra.Order.Monoid.WithTop
import Mathlib.Algebra.Order.Ring.Rat
import Mathlib.Data.Int.Log
import Mathlib.Data.Rat.Floor
import Mathlib.Tactic.Linarith
import Mathlib.Tactic.Positivity

/-!
# Rounding to binary floating point

A rational number is rounded to the nearest number with so many binary digits, the one with the
even last digit if there are two.  Small numbers have fewer digits, since exponents are bounded
from below; they are not bounded from above, so overflow is left to who uses the result.

## Strategy

Within one binade, the numbers between two powers of two, all numbers of a format are multiples of
one unit, and rounding is rounding to an integer.  So monotonicity is shown for integers first.  Two
numbers of different binades have a power of two between them, which neither crosses.

Where numbers are added one after another and each sum is rounded, not much of this matters:
`IsRounding` says what does, and holds of the sums of a format with its overflow.

* `nearestEven`: the nearest integer, with `nearestEven_mono` and `nearestEven_intCast`.
* `BinaryFormat.round`: the nearest number of a format.
* `BinaryFormat.round_eq_self`: multiples of the unit stay as they are.
* `BinaryFormat.round_mono`: rounding keeps the order of numbers that are not negative.
* `BinaryFormat.round_round`: what is rounded is a number of the format.
* `isRounding_overflowing`: rounding with overflow is a rounding of sums.
-/

namespace Rounding

/-! ## The nearest integer -/

/-- The nearest integer, the even one of two. -/
def nearestEven (x : ℚ) : ℤ :=
  if x - ⌊x⌋ < 1 / 2 ∨ x - ⌊x⌋ = 1 / 2 ∧ ⌊x⌋ % 2 = 0 then ⌊x⌋ else ⌊x⌋ + 1

@[simp] theorem nearestEven_intCast (n : ℤ) : nearestEven n = n := by
  rw [nearestEven, Int.floor_intCast, sub_self, if_pos (.inl (by norm_num))]

theorem floor_le_nearestEven (x : ℚ) : ⌊x⌋ ≤ nearestEven x := by
  rw [nearestEven]
  split <;> omega

theorem nearestEven_le_floor_succ (x : ℚ) : nearestEven x ≤ ⌊x⌋ + 1 := by
  rw [nearestEven]
  split <;> omega

/-- Of two numbers above one integer the greater one is not rounded down where the other is
rounded up. -/
theorem nearestEven_mono {x y : ℚ} (hxy : x ≤ y) : nearestEven x ≤ nearestEven y := by
  have hfloor : ⌊x⌋ ≤ ⌊y⌋ := Int.floor_le_floor hxy
  rcases hfloor.lt_or_eq with hlt | heq
  · have hx := nearestEven_le_floor_succ x
    have hy := floor_le_nearestEven y
    omega
  · rw [nearestEven, nearestEven, heq]
    split
    · split <;> omega
    · next hup =>
      rw [if_neg]
      intro hdown
      apply hup
      rcases hdown with hless | ⟨htie, heven⟩
      · exact .inl (by linarith)
      · rcases hxy.lt_or_eq with hbelow | hsame
        · exact .inl (by linarith)
        · exact .inr ⟨by rw [hsame]; exact htie, heven⟩

/-- An integer below a number is below what the number is rounded to. -/
theorem le_nearestEven {n : ℤ} {x : ℚ} (h : (n : ℚ) ≤ x) : n ≤ nearestEven x := by
  have hmono := nearestEven_mono h
  rwa [nearestEven_intCast] at hmono

theorem nearestEven_le {n : ℤ} {x : ℚ} (h : x ≤ n) : nearestEven x ≤ n := by
  have hmono := nearestEven_mono h
  rwa [nearestEven_intCast] at hmono

/-- What is closer than a half to an integer is rounded to it. -/
theorem nearestEven_eq {n : ℤ} {x : ℚ} (h : |x - n| < 1 / 2) : nearestEven x = n := by
  obtain ⟨hlow, hhigh⟩ := abs_lt.mp h
  by_cases hle : (n : ℚ) ≤ x
  · have hfloor : ⌊x⌋ = n := Int.floor_eq_iff.mpr ⟨hle, by linarith⟩
    rw [nearestEven, hfloor, if_pos (.inl (by linarith))]
  · have hfloor : ⌊x⌋ = n - 1 := by
      apply Int.floor_eq_iff.mpr
      push_cast
      exact ⟨by linarith, by linarith⟩
    rw [nearestEven, hfloor, if_neg, sub_add_cancel]
    push_cast
    rintro (hless | ⟨htie, -⟩)
    · linarith
    · linarith

/-! ## The nearest number of a format -/

/-- A binary format: how many digits its numbers have, and the exponent of the least unit. -/
structure BinaryFormat where
  digits : ℕ
  least : ℤ

/-- The format of double precision. -/
def binary64 : BinaryFormat := ⟨53, -1074⟩

namespace BinaryFormat

variable (F : BinaryFormat)

/-- The exponent of the unit of the numbers near `x`. -/
def exponent (x : ℚ) : ℤ := max (Int.log 2 |x| + 1 - F.digits) F.least

/-- The nearest number of the format, the one with the even last digit of two. -/
def round (x : ℚ) : ℚ := nearestEven (x / 2 ^ F.exponent x) * 2 ^ F.exponent x

variable {F} {x y : ℚ} {e : ℤ}

theorem two_zpow_pos (e : ℤ) : (0 : ℚ) < 2 ^ e := zpow_pos two_pos e

/-- A multiple of the unit is a number of the format. -/
theorem round_eq_self {n : ℤ} (h : x = n * 2 ^ F.exponent x) : F.round x = x := by
  have hquotient : x / 2 ^ F.exponent x = n := by
    rw [div_eq_iff (two_zpow_pos _).ne']
    exact h
  rw [round, hquotient, nearestEven_intCast]
  exact h.symm

@[simp] theorem round_zero : F.round 0 = 0 := round_eq_self (n := 0) (by simp)

/-- The unit of the numbers from a power of two up to the next one. -/
theorem exponent_eq (hleast : F.least ≤ e) (hlow : 2 ^ (e + F.digits - 1) ≤ x)
    (hhigh : x < 2 ^ (e + F.digits)) : F.exponent x = e := by
  have hx : 0 < x := (two_zpow_pos _).trans_le hlow
  have hle : e + F.digits - 1 ≤ Int.log 2 x :=
    (Int.zpow_le_iff_le_log one_lt_two hx).mp (by exact_mod_cast hlow)
  have hlt : Int.log 2 x < e + F.digits :=
    (Int.lt_zpow_iff_log_lt one_lt_two hx).mp (by exact_mod_cast hhigh)
  rw [exponent, abs_of_pos hx]
  omega

/-- What is closer than half a unit to a number of the format is rounded to it. -/
theorem round_eq {n : ℤ} (he : F.exponent x = e) (h : |x / 2 ^ e - n| < 1 / 2) :
    F.round x = n * 2 ^ e := by
  rw [round, he, nearestEven_eq h]

/-- A power of two is a multiple of every smaller one. -/
theorem zpow_eq_mul {a b : ℤ} (h : a ≤ b) :
    ((2 : ℚ) ^ b) = ((2 ^ (b - a).toNat : ℤ) : ℚ) * 2 ^ a := by
  have hcast : ((2 ^ (b - a).toNat : ℤ) : ℚ) = (2 : ℚ) ^ (b - a) := by
    rw [Int.cast_pow, Int.cast_ofNat, ← zpow_natCast, Int.toNat_of_nonneg (by omega)]
  rw [hcast, ← zpow_add₀ two_ne_zero, sub_add_cancel]

/-- What is rounded does not cross a power of two that is a multiple of its unit. -/
theorem zpow_le_round (he : F.exponent x ≤ e) (h : 2 ^ e ≤ x) : 2 ^ e ≤ F.round x := by
  rw [zpow_eq_mul he] at h ⊢
  rw [round, mul_le_mul_iff_left₀ (two_zpow_pos _), Int.cast_le]
  apply le_nearestEven
  rwa [le_div_iff₀ (two_zpow_pos _)]

theorem round_le_zpow (he : F.exponent x ≤ e) (h : x ≤ 2 ^ e) : F.round x ≤ 2 ^ e := by
  rw [zpow_eq_mul he] at h ⊢
  rw [round, mul_le_mul_iff_left₀ (two_zpow_pos _), Int.cast_le]
  apply nearestEven_le
  rwa [div_le_iff₀ (two_zpow_pos _)]

theorem round_nonneg (hx : 0 ≤ x) : 0 ≤ F.round x := by
  refine mul_nonneg (Int.cast_nonneg (le_nearestEven ?_)) (two_zpow_pos _).le
  rw [Int.cast_zero]
  exact div_nonneg hx (two_zpow_pos _).le

/-- A number is less than the power of two with all the digits of its unit. -/
theorem lt_zpow_exponent (hx : 0 ≤ x) : x < 2 ^ (F.exponent x + F.digits) := by
  have hlog := Int.lt_zpow_succ_log_self one_lt_two x
  have hexponent : Int.log 2 x + 1 ≤ F.exponent x + F.digits := by
    have hmax := le_max_left (Int.log 2 |x| + 1 - F.digits) F.least
    rw [exponent]
    rw [abs_of_nonneg hx] at hmax ⊢
    omega
  exact hlog.trans_le (zpow_le_zpow_right₀ one_le_two hexponent)

/-- Where the unit is not the least one, it has all digits. -/
theorem zpow_exponent_le (hx : 0 < x) (hleast : F.least < F.exponent x) :
    2 ^ (F.exponent x + F.digits - 1) ≤ x := by
  have hexponent : F.exponent x + F.digits - 1 = Int.log 2 x := by
    rw [exponent, abs_of_pos hx] at hleast ⊢
    omega
  rw [hexponent]
  exact Int.zpow_log_le_self one_lt_two hx

theorem exponent_mono (hx : 0 < x) (hxy : x ≤ y) : F.exponent x ≤ F.exponent y := by
  have hlog := Int.log_mono_right (b := 2) hx hxy
  rw [exponent, exponent, abs_of_pos hx, abs_of_pos (hx.trans_le hxy)]
  omega

/-- **Rounding keeps the order.** -/
theorem round_mono (hdigits : 0 < F.digits) (hx : 0 ≤ x) (hxy : x ≤ y) :
    F.round x ≤ F.round y := by
  rcases hx.lt_or_eq with hpos | rfl
  · rcases (exponent_mono (F := F) hpos hxy).lt_or_eq with hlt | heq
    · -- the power of two at which the binade of `y` begins
      have hleast : F.least ≤ F.exponent x := le_max_right ..
      have hstart : 2 ^ (F.exponent y + F.digits - 1) ≤ y :=
        zpow_exponent_le (hpos.trans_le hxy) (hleast.trans_lt hlt)
      have hend : x ≤ 2 ^ (F.exponent y + F.digits - 1) := by
        refine (lt_zpow_exponent (F := F) hx).le.trans (zpow_le_zpow_right₀ one_le_two ?_)
        omega
      exact (round_le_zpow (by omega) hend).trans (zpow_le_round (by omega) hstart)
    · rw [round, round, heq]
      apply mul_le_mul_of_nonneg_right _ (two_zpow_pos _).le
      exact Int.cast_le.mpr (nearestEven_mono
        (div_le_div_of_nonneg_right hxy (two_zpow_pos _).le))
  · rw [round_zero]
    exact round_nonneg hxy

/-- Natural numbers with few enough digits are numbers of the format. -/
theorem round_natCast {n : ℕ} (hn : n < 2 ^ F.digits) (hleast : F.least ≤ 0) :
    F.round n = n := by
  rcases Nat.eq_zero_or_pos n with rfl | hpos
  · simp
  have hexponent : F.exponent (n : ℚ) ≤ 0 := by
    rw [exponent, abs_of_nonneg (Nat.cast_nonneg n)]
    have hlog : Int.log 2 (n : ℚ) < F.digits := by
      apply (Int.lt_zpow_iff_log_lt one_lt_two (Nat.cast_pos.mpr hpos)).mp
      exact_mod_cast hn
    omega
  apply round_eq_self (n := n * 2 ^ (-F.exponent (n : ℚ)).toNat)
  have hunit : ((2 : ℚ) ^ (-F.exponent (n : ℚ)).toNat) = 2 ^ (-F.exponent (n : ℚ)) := by
    rw [← zpow_natCast, Int.toNat_of_nonneg (by omega)]
  push_cast
  rw [hunit, mul_assoc, ← zpow_add₀ two_ne_zero, neg_add_cancel, zpow_zero, mul_one]

/-- What is rounded is a number of the format. -/
theorem round_round (hdigits : 0 < F.digits) (hx : 0 ≤ x) : F.round (F.round x) = F.round x := by
  have hhigh : F.round x ≤ 2 ^ (F.exponent x + F.digits) :=
    round_le_zpow (by omega) (lt_zpow_exponent hx).le
  rcases hhigh.lt_or_eq with hlt | heq
  · rcases (round_nonneg (F := F) hx).lt_or_eq with hpos | hzero
    · -- the unit of the result is no greater
      have hlog : Int.log 2 (F.round x) < F.exponent x + F.digits :=
        (Int.lt_zpow_iff_log_lt one_lt_two hpos).mp (by exact_mod_cast hlt)
      have hexponent : F.exponent (F.round x) ≤ F.exponent x := by
        have hleast : F.least ≤ F.exponent x := le_max_right ..
        rw [exponent.eq_1 F (F.round x), abs_of_pos hpos]
        omega
      apply round_eq_self (n := nearestEven (x / 2 ^ F.exponent x) *
        2 ^ (F.exponent x - F.exponent (F.round x)).toNat)
      rw [Int.cast_mul, mul_assoc, ← zpow_eq_mul hexponent]
      rfl
    · rw [← hzero, round_zero]
  · have hexponent : F.exponent (F.round x) ≤ F.exponent x + F.digits := by
      have hleast : F.least ≤ F.exponent x := le_max_right ..
      have hlog : Int.log 2 ((2 : ℚ) ^ (F.exponent x + F.digits)) = F.exponent x + F.digits := by
        have hpower := Int.log_zpow (R := ℚ) (b := 2) one_lt_two (F.exponent x + F.digits)
        rwa [Nat.cast_ofNat] at hpower
      rw [exponent, heq, abs_of_pos (two_zpow_pos _), hlog]
      omega
    have hle := round_le_zpow hexponent heq.le
    have hge := zpow_le_round hexponent heq.ge
    exact (le_antisymm hle hge).trans heq.symm

end BinaryFormat

/-! ## Rounded sums -/

/-- Rounding keeps zero, the order, and what is rounded already. -/
structure IsRounding {S : Type} [Zero S] [LE S] (round : S → S) : Prop where
  zero : round 0 = 0
  mono : ∀ s t, 0 ≤ s → s ≤ t → round s ≤ round t
  idem : ∀ s, 0 ≤ s → round (round s) = round s

/-- Exact sums. -/
theorem isRounding_id {S : Type} [Zero S] [LE S] : IsRounding (id : S → S) :=
  ⟨rfl, fun _ _ _ h => h, fun _ _ => rfl⟩

namespace IsRounding

variable {S : Type} [AddCommMonoid S] [PartialOrder S] {round : S → S} {s t w : S}

theorem nonneg (h : IsRounding round) (hs : 0 ≤ s) : 0 ≤ round s := by
  rw [← h.zero]
  exact h.mono 0 s le_rfl hs

variable [IsOrderedAddMonoid S]

/-- A rounded sum is no less than a rounded summand. -/
theorem le_round_add (h : IsRounding round) (hs : 0 ≤ s) (hround : round s = s) (hw : 0 ≤ w) :
    s ≤ round (s + w) :=
  calc s = round s := hround.symm
    _ ≤ round (s + w) := h.mono s (s + w) hs (le_add_of_nonneg_right hw)

theorem round_add_mono (h : IsRounding round) (hs : 0 ≤ s) (hw : 0 ≤ w) (hst : s ≤ t) :
    round (s + w) ≤ round (t + w) :=
  h.mono (s + w) (t + w) (add_nonneg hs hw) (add_le_add_left hst w)

end IsRounding

/-- Rounding to a format whose numbers are all below `limit`. -/
def BinaryFormat.overflowing (F : BinaryFormat) (limit : ℚ) : WithTop ℚ → WithTop ℚ :=
  WithTop.recTopCoe ⊤ fun x => if F.round x < limit then (F.round x : WithTop ℚ) else ⊤

section Overflowing

variable {F : BinaryFormat} {limit x : ℚ}

theorem overflowing_coe (h : F.round x < limit) : F.overflowing limit x = F.round x :=
  if_pos h

theorem isRounding_overflowing (hdigits : 0 < F.digits) (hlimit : 0 < limit) :
    IsRounding (F.overflowing limit) where
  zero := by
    have hzero : F.overflowing limit ((0 : ℚ) : WithTop ℚ) = F.round 0 :=
      overflowing_coe (by rwa [BinaryFormat.round_zero])
    rw [BinaryFormat.round_zero] at hzero
    exact hzero
  mono s t hs hst := by
    induction t with
    | top => exact le_top
    | coe y =>
        induction s with
        | top => exact absurd (top_le_iff.mp hst) (WithTop.coe_ne_top)
        | coe x =>
            -- below the limit rounding is that of the format; from there on it is `⊤`, which is the
            -- greatest
            have hround : F.round x ≤ F.round y :=
              BinaryFormat.round_mono hdigits (WithTop.coe_nonneg.mp hs) (WithTop.coe_le_coe.mp hst)
            by_cases hy : F.round y < limit
            · rw [overflowing_coe hy, overflowing_coe (hround.trans_lt hy)]
              exact WithTop.coe_le_coe.mpr hround
            · have htop : F.overflowing limit y = ⊤ := if_neg hy
              rw [htop]
              exact le_top
  idem s hs := by
    induction s with
    | top => rfl
    | coe x =>
        by_cases hx : F.round x < limit
        · have hagain := BinaryFormat.round_round hdigits (WithTop.coe_nonneg.mp hs)
          rw [overflowing_coe hx, overflowing_coe (by rwa [hagain]), hagain]
        · have htop : F.overflowing limit x = ⊤ := if_neg hx
          rw [htop]
          rfl

end Overflowing

end Rounding
