/-!
# Rounding to the nearest value

`roundHalfEven` rounds a quotient of naturals to the nearest natural, a half going to the even
neighbour. `roundToGrid` rounds to the nearest natural that has at most 53 significant bits, which
is the grid of the double-precision numbers when they are counted in units of `2 ^ (-1074)`.
`roundToGrid_fits` says that the result is such a natural.
-/

namespace JsonSchema.Numeric

/-- The natural nearest to `num / den`; a half goes to the even neighbour. -/
def roundHalfEven (num den : Nat) : Nat :=
  let quotient := num / den
  let remainder := num % den
  if 2 * remainder < den then quotient
  else if den < 2 * remainder then quotient + 1
  else quotient + quotient % 2

theorem roundHalfEven_le (num den : Nat) : roundHalfEven num den ≤ num / den + 1 := by
  unfold roundHalfEven
  dsimp only
  split
  · exact Nat.le_succ _
  · split
    · exact Nat.le_refl _
    · have := Nat.mod_lt (num / den) (by decide : 0 < 2)
      omega

theorem le_roundHalfEven (num den : Nat) : num / den ≤ roundHalfEven num den := by
  unfold roundHalfEven
  dsimp only
  split
  · exact Nat.le_refl _
  · split
    · exact Nat.le_succ _
    · exact Nat.le_add_right _ _

/-- A whole quotient is its own nearest natural. -/
theorem roundHalfEven_mul (quotient den : Nat) (h : 0 < den) :
    roundHalfEven (quotient * den) den = quotient := by
  simp [roundHalfEven, Nat.mul_div_cancel _ h, h]

def Fits (units : Nat) : Prop :=
  ∃ significand exponent, significand ≤ Nat.pow 2 53 ∧ units = significand * Nat.pow 2 exponent

/-- The spacing of the grid above `whole` is two to this power. -/
def gridExponent (whole : Nat) : Nat := whole.log2 - 52

/-- The natural of at most 53 significant bits that is nearest to `num / den`. -/
def roundToGrid (num den : Nat) : Nat :=
  let spacing := Nat.pow 2 (gridExponent (num / den))
  roundHalfEven num (den * spacing) * spacing

theorem div_two_pow_gridExponent_lt (whole : Nat) :
    whole / Nat.pow 2 (gridExponent whole) < Nat.pow 2 53 := by
  rw [Nat.pow_eq, Nat.pow_eq, Nat.div_lt_iff_lt_mul (Nat.two_pow_pos _), ← Nat.pow_add]
  refine Nat.lt_of_lt_of_le (Nat.lt_log2_self (n := whole)) (Nat.pow_le_pow_right (by decide) ?_)
  unfold gridExponent
  omega

theorem roundToGrid_fits (num den : Nat) : Fits (roundToGrid num den) := by
  refine ⟨_, _, ?_, rfl⟩
  refine Nat.le_trans (roundHalfEven_le _ _) ?_
  rw [← Nat.div_div_eq_div_mul]
  exact div_two_pow_gridExponent_lt _

end JsonSchema.Numeric
