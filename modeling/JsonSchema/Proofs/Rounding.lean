import JsonSchema.Numeric.Binary64
import Mathlib.Algebra.Order.Field.Basic
import Mathlib.Data.Nat.Cast.Order.Field
import Mathlib.Data.Rat.Cast.Order
import Mathlib.Tactic.FieldSimp
import Mathlib.Tactic.Linarith
import Mathlib.Tactic.NormNum
import Mathlib.Tactic.Positivity
import Mathlib.Tactic.Ring

/-!
# Rounding errors

`roundHalfEven` finds a nearest natural, `roundToGrid` a number that differs from the exact one by at
most `2 ^ (-53)` of it and half a unit. Rounding to the grid does not go below the power of two that
the exact number reaches, and not above a number of the grid that the exact one does not exceed. For
counts of units, `Binary64.amount` is the number that is counted, and half a unit next to nothing.
-/

namespace JsonSchema

namespace Numeric

variable {num den : Nat}

/-! ### The nearest natural -/

theorem cast_div_add_mod (num : Nat) (h : 0 < den) :
    (num : ℚ) / den = (num / den : Nat) + (num % den : Nat) / den := by
  have hden : (den : ℚ) ≠ 0 := Nat.cast_ne_zero.mpr (Nat.ne_of_gt h)
  have hsplit : (num : ℚ) = den * (num / den : Nat) + (num % den : Nat) := by
    exact_mod_cast (Nat.div_add_mod num den).symm
  rw [hsplit]
  field_simp

theorem abs_roundHalfEven_sub_le (num : Nat) (h : 0 < den) :
    |(roundHalfEven num den : ℚ) - num / den| ≤ 1 / 2 := by
  have hden : (0 : ℚ) < den := Nat.cast_pos.mpr h
  have hfraction : ((num % den : Nat) : ℚ) / den < 1 :=
    (div_lt_one hden).mpr (Nat.cast_lt.mpr (Nat.mod_lt num h))
  have hnonneg : 0 ≤ ((num % den : Nat) : ℚ) / den := by positivity
  rw [cast_div_add_mod num h, abs_le, roundHalfEven]
  split_ifs with hlow hhigh
  · have hhalf : ((num % den : Nat) : ℚ) / den ≤ 1 / 2 := by
      rw [div_le_div_iff₀ hden two_pos]
      exact_mod_cast (by omega : num % den * 2 ≤ 1 * den)
    constructor <;> linarith
  · have hhalf : 1 / 2 ≤ ((num % den : Nat) : ℚ) / den := by
      rw [div_le_div_iff₀ two_pos hden]
      exact_mod_cast (by omega : 1 * den ≤ num % den * 2)
    push_cast
    constructor <;> linarith
  · have hhalf : ((num % den : Nat) : ℚ) / den = 1 / 2 := by
      rw [div_eq_div_iff (ne_of_gt hden) two_ne_zero]
      exact_mod_cast (by omega : num % den * 2 = 1 * den)
    rw [hhalf]
    rcases Nat.mod_two_eq_zero_or_one (num / den) with hparity | hparity <;>
      rw [hparity] <;> push_cast <;> constructor <;> linarith

/-- No integer is nearer. -/
theorem abs_roundHalfEven_sub_le_abs (num : Nat) (h : 0 < den) (other : Int) :
    |(roundHalfEven num den : ℚ) - num / den| ≤ |(other : ℚ) - num / den| := by
  have hhalf := abs_roundHalfEven_sub_le num h
  by_cases heq : other = roundHalfEven num den
  · rw [heq, Int.cast_natCast]
  · have hapart : (1 : ℚ) ≤ |(other : ℚ) - roundHalfEven num den| := by
      exact_mod_cast Int.one_le_abs (sub_ne_zero.mpr heq)
    have htriangle := abs_sub_le (other : ℚ) (num / den) (roundHalfEven num den)
    rw [abs_sub_comm ((num : ℚ) / den) (roundHalfEven num den)] at htriangle
    linarith

theorem roundHalfEven_le_of_le {bound : Nat} (hden : 0 < den) (h : num ≤ bound * den) :
    roundHalfEven num den ≤ bound := by
  rcases Nat.lt_or_ge (num / den) bound with hlt | hge
  · exact Nat.le_trans (roundHalfEven_le num den) hlt
  · have hnum : num = bound * den :=
      Nat.le_antisymm h ((Nat.le_div_iff_mul_le hden).mp hge)
    rw [hnum, roundHalfEven_mul bound den hden]

/-! ### The nearest number of the grid -/

/-- The spacing of the grid is one, or at most `2 ^ (-52)` of the number. -/
theorem spacing_le (whole : Nat) :
    (Nat.pow 2 (gridExponent whole) : ℚ) ≤ whole / 2 ^ 52 + 1 := by
  have hspacing : 2 ^ gridExponent whole * 2 ^ 52 ≤ whole + 2 ^ 52 := by
    rcases Nat.lt_or_ge 52 whole.log2 with hlarge | hsmall
    · have hne : whole ≠ 0 := by
        rintro rfl
        exact absurd hlarge (by decide)
      rw [← Nat.pow_add, gridExponent, Nat.sub_add_cancel hlarge.le]
      exact (Nat.log2_self_le hne).trans (Nat.le_add_right _ _)
    · rw [gridExponent, Nat.sub_eq_zero_of_le hsmall]
      omega
  rw [Nat.pow_eq, div_add_one (by positivity), le_div_iff₀ (by positivity)]
  exact_mod_cast hspacing

/-- The rounded number is off by at most `2 ^ (-53)` of the exact one, and half a unit. -/
theorem abs_roundToGrid_sub_le (num : Nat) (h : 0 < den) :
    |(roundToGrid num den : ℚ) - num / den| ≤ num / den / 2 ^ 53 + 1 / 2 := by
  have hspacing : (0 : ℚ) < Nat.pow 2 (gridExponent (num / den)) := by
    rw [Nat.pow_eq]
    positivity
  have hpos : 0 < den * Nat.pow 2 (gridExponent (num / den)) :=
    Nat.mul_pos h (Nat.cast_pos.mp hspacing)
  have hle := spacing_le (num / den)
  rw [roundToGrid]
  generalize Nat.pow 2 (gridExponent (num / den)) = spacing at hspacing hpos hle ⊢
  have hden : (0 : ℚ) < den := Nat.cast_pos.mpr h
  have hfloor : ((num / den : Nat) : ℚ) ≤ num / den := Nat.cast_div_le
  have hnearest := abs_roundHalfEven_sub_le num hpos
  have hscaled : ((roundHalfEven num (den * spacing) * spacing : Nat) : ℚ) - num / den =
      ((roundHalfEven num (den * spacing) : ℚ) - num / (den * spacing : Nat)) * spacing := by
    push_cast
    field_simp
  calc |((roundHalfEven num (den * spacing) * spacing : Nat) : ℚ) - num / den|
      = |(roundHalfEven num (den * spacing) : ℚ) - num / (den * spacing : Nat)| * spacing := by
        rw [hscaled, abs_mul, abs_of_pos hspacing]
    _ ≤ 1 / 2 * spacing := mul_le_mul_of_nonneg_right hnearest hspacing.le
    _ ≤ num / den / 2 ^ 53 + 1 / 2 := by linarith

theorem two_pow_le_roundToGrid {exponent : Nat} (h : 2 ^ exponent ≤ num / den) :
    2 ^ exponent ≤ roundToGrid num den := by
  have hne : num / den ≠ 0 := Nat.ne_of_gt (Nat.lt_of_lt_of_le (Nat.two_pow_pos exponent) h)
  have hspacing : gridExponent (num / den) ≤ (num / den).log2 := Nat.sub_le _ _
  have hquotient : 2 ^ ((num / den).log2 - gridExponent (num / den)) ≤
      num / (den * 2 ^ gridExponent (num / den)) := by
    rw [← Nat.div_div_eq_div_mul, Nat.le_div_iff_mul_le (Nat.two_pow_pos _), ← Nat.pow_add,
      Nat.sub_add_cancel hspacing]
    exact Nat.log2_self_le hne
  calc 2 ^ exponent
      ≤ 2 ^ (num / den).log2 := Nat.pow_le_pow_right two_pos ((Nat.le_log2 hne).mpr h)
    _ = 2 ^ ((num / den).log2 - gridExponent (num / den)) * 2 ^ gridExponent (num / den) := by
        rw [← Nat.pow_add, Nat.sub_add_cancel hspacing]
    _ ≤ roundToGrid num den :=
        Nat.mul_le_mul_right _ (hquotient.trans (le_roundHalfEven num _))

/-- A number of the grid that is not less than another is a multiple of the spacing there. -/
theorem spacing_dvd_of_le {whole bound : Nat} (hbound : Fits bound) (h : whole ≤ bound) :
    2 ^ gridExponent whole ∣ bound := by
  obtain ⟨significand, exponent, hsignificand, rfl⟩ := hbound
  rw [Nat.pow_eq] at h hsignificand ⊢
  rcases Nat.lt_or_ge exponent (gridExponent whole) with hlt | hle
  · -- The bound lies below the power of two that `whole` reaches, or is that power.
    have hlog : 2 ^ (gridExponent whole + 52) ≤ whole := by
      rw [gridExponent] at hlt ⊢
      rw [Nat.sub_add_cancel (by omega)]
      refine Nat.log2_self_le ?_
      rintro rfl
      exact absurd hlt (by simp)
    have hlarge : significand * 2 ^ exponent ≤ 2 ^ (gridExponent whole + 52) :=
      calc significand * 2 ^ exponent ≤ 2 ^ 53 * 2 ^ exponent :=
            Nat.mul_le_mul_right _ hsignificand
        _ = 2 ^ (53 + exponent) := (Nat.pow_add 2 53 exponent).symm
        _ ≤ 2 ^ (gridExponent whole + 52) := Nat.pow_le_pow_right two_pos (by omega)
    rw [Nat.le_antisymm hlarge (hlog.trans h)]
    exact Nat.pow_dvd_pow 2 (Nat.le_add_right _ _)
  · exact Dvd.dvd.mul_left (Nat.pow_dvd_pow 2 hle) significand

theorem roundToGrid_le_of_le {bound : Nat} (hbound : Fits bound) (hden : 0 < den)
    (h : num ≤ bound * den) : roundToGrid num den ≤ bound := by
  have hwhole : num / den ≤ bound := Nat.div_le_of_le_mul (Nat.mul_comm bound den ▸ h)
  obtain ⟨quotient, hquotient⟩ := spacing_dvd_of_le hbound hwhole
  have hspacing : 0 < den * 2 ^ gridExponent (num / den) :=
    Nat.mul_pos hden (Nat.two_pow_pos _)
  have hnum : num ≤ quotient * (den * 2 ^ gridExponent (num / den)) :=
    calc num ≤ bound * den := h
      _ = quotient * (den * 2 ^ gridExponent (num / den)) := by
        rw [hquotient]
        ring
  calc roundToGrid num den
      ≤ quotient * 2 ^ gridExponent (num / den) :=
        Nat.mul_le_mul_right _ (roundHalfEven_le_of_le hspacing hnum)
    _ = bound := by rw [hquotient, Nat.mul_comm]

end Numeric

/-! ### Counts of units as numbers -/

open Numeric

namespace Binary64

def amount (units : Nat) : ℚ := units / one

theorem one_pos_cast : (0 : ℚ) < one := Nat.cast_pos.mpr one_pos

theorem amount_nonneg (units : Nat) : 0 ≤ amount units :=
  div_nonneg units.cast_nonneg one_pos_cast.le

theorem amount_mul_one (n : Nat) : amount (n * one) = n := by
  rw [amount, Nat.cast_mul, mul_div_cancel_right₀ _ one_pos_cast.ne']

theorem amount_mul_units (units : Nat) : amount units * one = units :=
  div_mul_cancel₀ _ one_pos_cast.ne'

theorem amount_one : amount one = 1 := div_self one_pos_cast.ne'

theorem amount_le_amount_iff {a b : Nat} : amount a ≤ amount b ↔ a ≤ b := by
  rw [amount, amount, div_le_div_iff_of_pos_right one_pos_cast, Nat.cast_le]

theorem amount_sub {a b : Nat} (h : b ≤ a) : amount (a - b) = amount a - amount b := by
  rw [amount, amount, amount, Nat.cast_sub h, sub_div]

theorem amount_max_sub_min (a b : Nat) : amount (max a b - min a b) = |amount a - amount b| := by
  rcases Nat.le_total a b with h | h
  · rw [max_eq_right h, min_eq_left h, amount_sub h, abs_sub_comm, abs_of_nonneg]
    exact sub_nonneg.mpr (amount_le_amount_iff.mpr h)
  · rw [max_eq_left h, min_eq_right h, amount_sub h, abs_of_nonneg]
    exact sub_nonneg.mpr (amount_le_amount_iff.mpr h)

theorem ten_pow_le_one : (10 : ℚ) ^ 20 ≤ one := by
  have hpow : ∀ exponent, 70 ≤ exponent → 10 ^ 20 ≤ Nat.pow 2 exponent := fun exponent h =>
    le_trans (by decide) (Nat.pow_le_pow_right (n := 2) two_pos h)
  have hone : 10 ^ 20 ≤ one := by
    unfold one
    exact hpow 1074 (by decide)
  exact_mod_cast hone

/-- The first number is the second but for the error of one rounding, which is little more than
`10 ^ (-16)` of it. -/
def IsRounded (rounded exact : ℚ) : Prop :=
  |rounded - exact| ≤ 12 / 10 ^ 17 * exact + 1 / 10 ^ 20

theorem isRounded_self {exact : ℚ} (h : 0 ≤ exact) : IsRounded exact exact := by
  rw [IsRounded, sub_self, abs_zero]
  positivity

theorem isRounded_amount_roundToGrid (num : Nat) {den : Nat} (h : 0 < den) :
    IsRounded (amount (roundToGrid num den)) (amount num / den) := by
  have hone := one_pos_cast
  have hlarge := ten_pow_le_one
  have hrounded := abs_roundToGrid_sub_le num h
  simp only [IsRounded, amount]
  generalize (one : ℚ) = unit at hone hlarge ⊢
  have hhalf : 1 / 2 / unit ≤ 1 / 10 ^ 20 := by
    rw [div_div, div_le_div_iff₀ (by positivity) (by positivity)]
    linarith
  have hnonneg : (0 : ℚ) ≤ num / unit / den := by positivity
  calc |(roundToGrid num den : ℚ) / unit - num / unit / den|
      = |(roundToGrid num den : ℚ) - num / den| / unit := by
        rw [div_right_comm, ← sub_div, abs_div, abs_of_pos hone]
    _ ≤ (num / den / 2 ^ 53 + 1 / 2) / unit := div_le_div_of_nonneg_right hrounded hone.le
    _ = num / unit / den / 2 ^ 53 + 1 / 2 / unit := by ring
    _ ≤ 12 / 10 ^ 17 * (num / unit / den) + 1 / 10 ^ 20 := by linarith

theorem ofUnits_of_lt (negative : Bool) {num den : Nat} (h : roundToGrid num den < overflow) :
    ofUnits negative num den = .finite negative (roundToGrid num den)
      ⟨roundToGrid_fits num den, h⟩ := dif_pos h

theorem isMagnitude_one : IsMagnitude one where
  fits := by
    have hpow : ∀ exponent, Fits (Nat.pow 2 exponent) := fun exponent =>
      ⟨1, exponent, Nat.one_le_two_pow, (Nat.one_mul _).symm⟩
    unfold one
    exact hpow 1074
  lt_overflow := by
    have hpow : ∀ low high, low < high → Nat.pow 2 low < Nat.pow 2 high := fun _ _ =>
      Nat.pow_lt_pow_right (by decide)
    unfold one overflow
    exact hpow 1074 2098 (by decide)

theorem one_le_roundToGrid {num : Nat} (h : one ≤ num) : one ≤ roundToGrid num 1 := by
  have hpow : ∀ exponent, Nat.pow 2 exponent ≤ num → Nat.pow 2 exponent ≤ roundToGrid num 1 :=
    fun _ hle => two_pow_le_roundToGrid ((Nat.div_one num).symm ▸ hle)
  unfold one at h ⊢
  exact hpow 1074 h

end Binary64

end JsonSchema
