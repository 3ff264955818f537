import JsonSchema.Proofs.Faults
import JsonSchema.Proofs.Rounding

/-!
# Multiples of whole numbers

Whole numbers are tried for a multiple by remainder if they are written as integers, or if one of them
is too large for a double. Otherwise their rounded quotient has to be nearly whole. It goes through
three roundings, and the tolerances are several times as large, so the verdict on the rounded quotient
can be told from the exact one (`isMultipleOf_whole`): no multiple is refused, and only large numbers
are accepted that are none.
-/

namespace JsonSchema

open Numeric

namespace Number

open Binary64

/-! ### The tolerances -/

/-- The units of a negative power of ten. -/
theorem magnitude_ofDecimal {places : Nat} (hpos : 0 < places) (hle : places ≤ 300) :
    magnitude (.ofDecimal false 1 (-places)) = roundToGrid one (10 ^ places) := by
  have hten : 0 < 10 ^ places := Nat.pow_pos (by decide)
  have hrounded : roundToGrid one (10 ^ places) < overflow :=
    Nat.lt_of_le_of_lt (roundToGrid_le_of_le isMagnitude_one.fits hten
      (Nat.le_mul_of_pos_right one hten)) isMagnitude_one.lt_overflow
  have hcount : digitCount 1 = 1 := by simp [digitCount]
  have hlow : ¬ (1 = 0 ∨ -(places : Int) + (1 : Nat) < -330) := by omega
  have hhigh : ¬ 310 < -(places : Int) + (1 : Nat) := by omega
  have hnegative : -(places : Int) < 0 := by omega
  rw [ofDecimal, hcount]
  simp only [if_neg hlow, if_neg hhigh, if_pos hnegative, Int.natAbs_neg, Int.natAbs_natCast,
    Nat.one_mul, Nat.pow_eq]
  rw [ofUnits_of_lt false hrounded]
  rfl

/-- A tolerance is the power of ten that it is written as, but for the rounding. -/
theorem amount_tolerance_between {tolerance : Binary64} {places : Nat}
    (h : tolerance = .ofDecimal false 1 (-places)) (hpos : 0 < places) (hle : places ≤ 15) :
    9999 / 10 ^ 4 * (1 / 10 ^ places) ≤ amount (magnitude tolerance) ∧
      amount (magnitude tolerance) ≤ 10001 / 10 ^ 4 * (1 / 10 ^ places) := by
  have hten : 0 < 10 ^ places := Nat.pow_pos (by decide)
  have hrounded := isRounded_amount_roundToGrid one hten
  rw [amount_one, Nat.cast_pow, Nat.cast_ofNat, IsRounded] at hrounded
  have hsmall : (1 : ℚ) / 10 ^ 15 ≤ 1 / 10 ^ places :=
    one_div_le_one_div_of_le (by positivity) (pow_le_pow_right₀ (by norm_num) hle)
  rw [h, magnitude_ofDecimal hpos (by omega)]
  obtain ⟨hlow, hhigh⟩ := abs_le.mp hrounded
  constructor <;> linarith

/-- An error that has a part in proportion to a size and a fixed part is below either part alone, with
a little more of it: below the first where the size is above some threshold, else below the second. -/
theorem le_or_le_of_le_add {error size rate fixed rate' fixed' : ℚ} (threshold : ℚ)
    (h : error ≤ rate * size + fixed) (hrate : 0 ≤ rate) (hrates : rate ≤ rate')
    (habove : rate * threshold + fixed ≤ rate' * threshold)
    (hbelow : rate * threshold + fixed ≤ fixed') : error ≤ rate' * size ∨ error ≤ fixed' := by
  rcases le_total threshold size with hlarge | hsmall
  · left
    have hscaled := mul_le_mul_of_nonneg_left hlarge (sub_nonneg.mpr hrates)
    linarith
  · right
    have hscaled := mul_le_mul_of_nonneg_left hsmall hrate
    linarith

/-- A number is within the tolerances about another one, if each of them is taken `rate` times. -/
def Tolerated (rate whole exact : ℚ) : Prop :=
  |whole - exact| ≤ rate / 10 ^ 15 * exact ∨ |whole - exact| ≤ rate / 10 ^ 10

/-- What is within the tolerances about a number is so about any that differs from it by a few roundings,
if the rate is raised by 0.39. -/
theorem Tolerated.of_near {rate rate' whole x y : ℚ} (h : Tolerated rate whole x) (hy : 0 ≤ y)
    (hnear : |x - y| ≤ 38 / 10 ^ 17 * y + 1 / 10 ^ 18) (hnonneg : 0 ≤ rate) (hle : rate ≤ 2)
    (hrates : rate + 39 / 10 ^ 2 ≤ rate') : Tolerated rate' whole y := by
  have htriangle := abs_sub_le whole x y
  rcases h with hrelative | habsolute
  · have hx : x ≤ y + (38 / 10 ^ 17 * y + 1 / 10 ^ 18) := by linarith [(abs_le.mp hnear).2]
    have hscaled : rate / 10 ^ 15 * x ≤
        rate / 10 ^ 15 * y + 2 / 10 ^ 15 * (38 / 10 ^ 17 * y + 1 / 10 ^ 18) :=
      calc rate / 10 ^ 15 * x
          ≤ rate / 10 ^ 15 * (y + (38 / 10 ^ 17 * y + 1 / 10 ^ 18)) :=
            mul_le_mul_of_nonneg_left hx (by positivity)
        _ = rate / 10 ^ 15 * y + rate / 10 ^ 15 * (38 / 10 ^ 17 * y + 1 / 10 ^ 18) := mul_add _ _ _
        _ ≤ rate / 10 ^ 15 * y + 2 / 10 ^ 15 * (38 / 10 ^ 17 * y + 1 / 10 ^ 18) := by gcongr
    have hdistance : |whole - y| ≤ (rate / 10 ^ 15 + 381 / 10 ^ 18) * y + 2 / 10 ^ 18 := by
      linarith
    exact le_or_le_of_le_add 1 hdistance (by positivity) (by linarith) (by linarith)
      (by linarith)
  · have hdistance : |whole - y| ≤ 38 / 10 ^ 17 * y + (rate / 10 ^ 10 + 1 / 10 ^ 18) := by
      linarith
    exact le_or_le_of_le_add (10 ^ 5) hdistance (by norm_num) (by linarith) (by linarith)
      (by linarith)

/-! ### Numbers that are nearly whole -/

/-- The rounded distance from the nearest whole number. -/
def gap (units : Nat) : Nat :=
  roundToGrid (max (roundHalfEven units one * one) units - min (roundHalfEven units one * one) units)
    1

/-- The relative tolerance applied to a number of some size. -/
def allowance (size : Nat) : Nat := roundToGrid (magnitude relativeTolerance * size) one

theorem nearlyWhole_iff {units : Nat} :
    nearlyWhole units ↔
      amount (gap units) ≤ amount (allowance (roundHalfEven units one * one)) ∨
        amount (gap units) ≤ amount (allowance units) ∨
          amount (gap units) ≤ amount (magnitude absoluteTolerance) := by
  simp only [amount_le_amount_iff]
  simp only [nearlyWhole, gap, allowance, Bool.or_eq_true, decide_eq_true_eq, or_assoc]

theorem amount_gap_between (units : Nat) :
    9999 / 10 ^ 4 * |(roundHalfEven units one : ℚ) - amount units| - 1 / 10 ^ 20 ≤
        amount (gap units) ∧
      amount (gap units) ≤
        10001 / 10 ^ 4 * |(roundHalfEven units one : ℚ) - amount units| + 1 / 10 ^ 20 := by
  have hrounded := isRounded_amount_roundToGrid
    (max (roundHalfEven units one * one) units - min (roundHalfEven units one * one) units)
    Nat.one_pos
  rw [Nat.cast_one, div_one, amount_max_sub_min, amount_mul_one, IsRounded] at hrounded
  have hnonneg := abs_nonneg ((roundHalfEven units one : ℚ) - amount units)
  obtain ⟨hlow, hhigh⟩ := abs_le.mp hrounded
  rw [gap]
  constructor <;> linarith

theorem amount_allowance_between (size : Nat) :
    9998 / 10 ^ 19 * amount size - 1 / 10 ^ 20 ≤ amount (allowance size) ∧
      amount (allowance size) ≤ 10002 / 10 ^ 19 * amount size + 1 / 10 ^ 20 := by
  have hrounded := isRounded_amount_roundToGrid (magnitude relativeTolerance * size) Binary64.one_pos
  have hproduct : amount (magnitude relativeTolerance * size) / one =
      amount (magnitude relativeTolerance) * amount size := by
    simp only [amount, Nat.cast_mul]
    ring
  obtain ⟨hleast, hmost⟩ :=
    @amount_tolerance_between relativeTolerance 15 rfl (by decide) (by decide)
  have hlower := mul_le_mul_of_nonneg_right hleast (amount_nonneg size)
  have hupper := mul_le_mul_of_nonneg_right hmost (amount_nonneg size)
  have hnonneg := amount_nonneg size
  rw [hproduct, IsRounded] at hrounded
  obtain ⟨hlow, hhigh⟩ := abs_le.mp hrounded
  rw [allowance]
  constructor <;> linarith

/-- What counts as whole is as near to a whole number as the tolerances say, but for roundings. -/
theorem exists_tolerated_of_nearlyWhole {units : Nat} (h : nearlyWhole units) :
    ∃ whole : Int, Tolerated (1001 / 10 ^ 3) whole (amount units) := by
  refine ⟨roundHalfEven units one, ?_⟩
  rw [Tolerated, Int.cast_natCast]
  obtain ⟨hgap, -⟩ := amount_gap_between units
  have hsize : ((roundHalfEven units one : Nat) : ℚ) ≤
      amount units + |(roundHalfEven units one : ℚ) - amount units| := by
    linarith [le_abs_self ((roundHalfEven units one : ℚ) - amount units)]
  have hnonneg := amount_nonneg units
  generalize |(roundHalfEven units one : ℚ) - amount units| = distance at hgap hsize ⊢
  -- Either relative tolerance is in proportion to the size, but for what the rounding adds.
  have hparts : distance ≤ 10004 / 10 ^ 19 * amount units + 3 / 10 ^ 20 ∨
      amount (gap units) ≤ amount (magnitude absoluteTolerance) := by
    rcases nearlyWhole_iff.mp h with hwhole | hunits | habsolute
    · have hallowed := (amount_allowance_between (roundHalfEven units one * one)).2
      rw [amount_mul_one] at hallowed
      left
      linarith
    · have hallowed := (amount_allowance_between units).2
      left
      linarith
    · exact .inr habsolute
  rcases hparts with hdistance | habsolute
  · exact le_or_le_of_le_add 1 hdistance (by norm_num) (by norm_num) (by norm_num) (by norm_num)
  · have hallowed := (@amount_tolerance_between absoluteTolerance 10 rfl (by decide) (by decide)).2
    right
    linarith

/-- What is as near to a whole number as that, counts as whole. -/
theorem nearlyWhole_of_tolerated {units : Nat} {whole : Int}
    (h : Tolerated (999 / 10 ^ 3) whole (amount units)) : nearlyWhole units := by
  have hnearest : |(roundHalfEven units one : ℚ) - amount units| ≤ |(whole : ℚ) - amount units| :=
    abs_roundHalfEven_sub_le_abs units Binary64.one_pos whole
  obtain ⟨-, hgap⟩ := amount_gap_between units
  obtain ⟨hallowed, -⟩ := amount_allowance_between units
  obtain ⟨habsolute, -⟩ :=
    @amount_tolerance_between absoluteTolerance 10 rfl (by decide) (by decide)
  rw [nearlyWhole_iff]
  right
  generalize |(roundHalfEven units one : ℚ) - amount units| = distance at hgap hnearest
  rcases h with hrelative | hfixed
  · have hdistance : amount (gap units) + 1 / 10 ^ 20 ≤
        9992 / 10 ^ 19 * amount units + 2 / 10 ^ 20 := by
      linarith [amount_nonneg units]
    have hparts : amount (gap units) + 1 / 10 ^ 20 ≤ 9998 / 10 ^ 19 * amount units ∨
        amount (gap units) + 1 / 10 ^ 20 ≤ 999 / 10 ^ 13 :=
      le_or_le_of_le_add 1 hdistance (by norm_num) (by norm_num) (by norm_num) (by norm_num)
    rcases hparts with hlarge | hsmall
    · left
      linarith
    · right
      linarith
  · right
    linarith

/-! ### Rounded quotients -/

theorem abs_div_sub_div_le {x y a n : ℚ} (ha : 0 ≤ a) (hn : 1 ≤ n) (hnonneg : 0 ≤ x)
    (hx : IsRounded x a) (hy : IsRounded y n) :
    |x / y - a / n| ≤ 2420 / 10 ^ 19 * (a / n) + 2 / 10 ^ 20 := by
  obtain ⟨hxlow, hxhigh⟩ := abs_le.mp hx
  obtain ⟨hylow, hyhigh⟩ := abs_le.mp hy
  have hleast : (1 - 1201 / 10 ^ 19) * n ≤ y := by linarith
  have hmost : y ≤ (1 + 1201 / 10 ^ 19) * n := by linarith
  have hpos : 0 < y := by linarith
  have hquotient : a / n * n = a := div_mul_cancel₀ a (by linarith)
  have hratio : 0 ≤ a / n := div_nonneg ha (by linarith)
  generalize a / n = ratio at hquotient hratio ⊢
  subst hquotient
  rw [abs_le]
  constructor
  · have hlower : (ratio * (1 - 2420 / 10 ^ 19) - 2 / 10 ^ 20) * y ≤ x := by
      rcases le_total (ratio * (1 - 2420 / 10 ^ 19) - 2 / 10 ^ 20) 0 with hneg | hge
      · exact (mul_nonpos_of_nonpos_of_nonneg hneg hpos.le).trans hnonneg
      · have hscaled := mul_le_mul_of_nonneg_left hmost hge
        linarith
    have hdivided := (le_div_iff₀ hpos).mpr hlower
    linarith
  · have hupper : x ≤ (ratio * (1 + 2420 / 10 ^ 19) + 2 / 10 ^ 20) * y := by
      have hge : 0 ≤ ratio * (1 + 2420 / 10 ^ 19) + 2 / 10 ^ 20 := by positivity
      have hscaled := mul_le_mul_of_nonneg_left hleast hge
      linarith
    have hdivided := (div_le_iff₀ hpos).mpr hupper
    linarith

/-- The first number is the second but for the errors of three roundings, those of two numbers and of
their quotient. -/
def IsRoundedQuotient (rounded exact : ℚ) : Prop :=
  |rounded - exact| ≤ 37 / 10 ^ 17 * exact + 1 / 10 ^ 19

theorem isRoundedQuotient_amount {num den : Nat} {a n : ℚ} (ha : 0 ≤ a) (hn : 1 ≤ n)
    (hden : 0 < den) (hnum : IsRounded (amount num) a) (hdivisor : IsRounded (amount den) n) :
    IsRoundedQuotient (amount (roundToGrid (num * one) den)) (a / n) := by
  have hexact := abs_div_sub_div_le ha hn (amount_nonneg num) hnum hdivisor
  have hrounded := isRounded_amount_roundToGrid (num * one) hden
  have hquotient : amount (num * one) / den = amount num / amount den := by
    rw [amount_mul_one, amount, amount, div_div_div_cancel_right₀ one_pos_cast.ne']
  have hratio : 0 ≤ a / n := div_nonneg ha (by linarith)
  rw [hquotient] at hrounded
  obtain ⟨hlow, hhigh⟩ := abs_le.mp hrounded
  obtain ⟨hlow', hhigh'⟩ := abs_le.mp hexact
  rw [IsRoundedQuotient, abs_le]
  constructor <;> linarith

namespace IsRoundedQuotient

variable {rounded exact whole : ℚ}

/-- A quotient that is nearly whole after its roundings is so before them, with more tolerance. -/
theorem tolerated_exact (h : IsRoundedQuotient rounded exact) (hexact : 0 ≤ exact)
    (hwhole : Tolerated (1001 / 10 ^ 3) whole rounded) : Tolerated (14 / 10) whole exact := by
  have hnear : |rounded - exact| ≤ 38 / 10 ^ 17 * exact + 1 / 10 ^ 18 := by
    rw [IsRoundedQuotient] at h
    linarith
  exact hwhole.of_near hexact hnear (by norm_num) (by norm_num) (by norm_num)

/-- A quotient that is nearly whole before its roundings, with less tolerance, is so after them. -/
theorem tolerated_rounded (h : IsRoundedQuotient rounded exact) (hrounded : 0 ≤ rounded)
    (hwhole : Tolerated (6 / 10) whole exact) : Tolerated (999 / 10 ^ 3) whole rounded := by
  have hnear : |exact - rounded| ≤ 38 / 10 ^ 17 * rounded + 1 / 10 ^ 18 := by
    rw [IsRoundedQuotient, abs_sub_comm] at h
    have hdistance := le_abs_self (exact - rounded)
    linarith
  exact hwhole.of_near hrounded hnear (by norm_num) (by norm_num) (by norm_num)

end IsRoundedQuotient

/-! ### Whole numbers -/

section Whole

variable {a : Number} {x : Binary64} {m n : Int}

theorem signedUnits?_of_toInt? (h : x.toInt? = some m) : x.signedUnits? = some (m * one) := by
  rw [Binary64.toInt?] at h
  cases hunits : x.signedUnits? with
  | none => simp [hunits] at h
  | some units =>
    simp only [hunits] at h
    split_ifs at h with hwhole
    cases h
    rw [Int.ediv_mul_cancel (Int.dvd_of_emod_eq_zero hwhole)]

theorem units_of_toInt? (h : x.toInt? = some m) :
    ∃ negative units hunits, x = .finite negative units hunits ∧ units = m.natAbs * one ∧
      (if negative then -(units : Int) else units) = m * one := by
  have hsigned := signedUnits?_of_toInt? h
  cases x with
  | nan => cases hsigned
  | infinite negative => cases hsigned
  | finite negative units hunits =>
    cases negative with
    | false =>
      have heq : (units : Int) = m * one := Option.some.inj hsigned
      refine ⟨false, units, hunits, rfl, ?_, heq⟩
      rw [← Int.natAbs_natCast units, heq, Int.natAbs_mul, Int.natAbs_natCast]
    | true =>
      have heq : -(units : Int) = m * one := Option.some.inj hsigned
      refine ⟨true, units, hunits, rfl, ?_, heq⟩
      rw [← Int.natAbs_natCast units, ← Int.natAbs_neg, heq, Int.natAbs_mul, Int.natAbs_natCast]

/-- A whole number has an exact value, that of the integer. -/
theorem exactUnits_of_toInt? (h : a.toInt? = some m) : a.exactUnits = .ok (m * one) := by
  cases a with
  | int value =>
    cases h
    rfl
  | float x =>
    obtain ⟨negative, units, hunits, rfl, -, hsigned⟩ := units_of_toInt? h
    rw [exactUnits, hsigned]

/-- The double that takes the place of a whole number in a division is off by one rounding. -/
theorem rounded_of_toInt? (hm : a.toInt? = some m) (hx : a.toBinary64? = some x) :
    ∃ negative units hunits, x = .finite negative units hunits ∧
      IsRounded (amount units) m.natAbs ∧ (m ≠ 0 → one ≤ units) := by
  cases a with
  | int value =>
    cases hm
    change ofInt? m = some x at hx
    obtain ⟨negative, units, hunits, hfinite, hvalue⟩ := eq_of_finite? hx
    have hrounded := isRounded_amount_roundToGrid (m.natAbs * one) Nat.one_pos
    rw [amount_mul_one, Nat.cast_one, div_one, ← units_of_ofUnits hfinite] at hrounded
    refine ⟨negative, units, hunits, hvalue.trans hfinite, hrounded, fun hne => ?_⟩
    rw [units_of_ofUnits hfinite]
    exact one_le_roundToGrid (Nat.le_mul_of_pos_left one (Int.natAbs_pos.mpr hne))
  | float value =>
    cases hx
    obtain ⟨negative, units, hunits, rfl, hvalue, -⟩ := units_of_toInt? hm
    refine ⟨negative, units, hunits, rfl, ?_, fun hne => ?_⟩
    · rw [hvalue, amount_mul_one]
      exact isRounded_self (Nat.cast_nonneg _)
    · rw [hvalue]
      exact Nat.le_mul_of_pos_left one (Int.natAbs_pos.mpr hne)

/-! ### Whole numbers compared -/

variable {divisor : Number}

/-- Both numbers are written as integers, or one is an integer that is too large to be rounded. -/
def ComparedExactly (a divisor : Number) : Prop :=
  (∃ m n, a = .int m ∧ divisor = .int n) ∨ a.toBinary64? = none ∨ divisor.toBinary64? = none

theorem isMultipleOf_of_comparedExactly (hm : a.toInt? = some m) (hn : divisor.toInt? = some n)
    (h : ComparedExactly a divisor) : a.isMultipleOf divisor = .ok (decide (n ∣ m)) := by
  unfold isMultipleOf
  split
  · cases hm
    cases hn
    rw [decide_eq_decide.mpr Int.dvd_iff_emod_eq_zero]
  · rename_i hints
    have hexact : a.toBinary64? = none ∨ divisor.toBinary64? = none := by
      rcases h with ⟨k, l, rfl, rfl⟩ | hlarge
      · exact absurd rfl (hints k l rfl)
      · exact hlarge
    split
    · rename_i hx hy
      simp [hx, hy] at hexact
    · have hone : (one : Int) ≠ 0 := Int.natCast_ne_zero.mpr (Nat.ne_of_gt Binary64.one_pos)
      rw [exactUnits_of_toInt? hm, exactUnits_of_toInt? hn]
      have hscaled : m * one % (n * one) = 0 ↔ n ∣ m := by
        rw [← Int.dvd_iff_emod_eq_zero, Int.mul_dvd_mul_iff_right hone]
      simp only [bind, Except.bind, pure, Except.pure, hscaled]

/-- Else the rounded quotient counts, which is off by three roundings. -/
theorem isMultipleOf_of_not_comparedExactly (hm : a.toInt? = some m)
    (hn : divisor.toInt? = some n) (hpos : 0 < n) (h : ¬ ComparedExactly a divisor) :
    ∃ units, a.isMultipleOf divisor = .ok (nearlyWhole units) ∧
      IsRoundedQuotient (amount units) (m.natAbs / n.natAbs) := by
  rw [ComparedExactly, not_or, not_or] at h
  obtain ⟨hints, hx, hy⟩ := h
  obtain ⟨x, hx⟩ := Option.ne_none_iff_exists'.mp hx
  obtain ⟨y, hy⟩ := Option.ne_none_iff_exists'.mp hy
  obtain ⟨negative, num, hnum, rfl, hnumerator, -⟩ := rounded_of_toInt? hm hx
  obtain ⟨negative', den, hden, rfl, hdenominator, hone⟩ := rounded_of_toInt? hn hy
  have hle : one ≤ den := hone (ne_of_gt hpos)
  have hdenpos : 0 < den := Nat.lt_of_lt_of_le Binary64.one_pos hle
  have hfinite : roundToGrid (num * one) den < overflow :=
    Nat.lt_of_le_of_lt (roundToGrid_le_of_le hnum.fits hdenpos (Nat.mul_le_mul_left num hle))
      hnum.lt_overflow
  refine ⟨roundToGrid (num * one) den, ?_, ?_⟩
  · unfold isMultipleOf
    split
    · exact absurd ⟨_, _, rfl, rfl⟩ hints
    · simp only [hx, hy, Binary64.div, if_neg (Nat.ne_of_gt hdenpos), ofUnits_of_lt _ hfinite]
  · exact isRoundedQuotient_amount (Nat.cast_nonneg _)
      (Nat.one_le_cast.mpr (Int.natAbs_pos.mpr (ne_of_gt hpos))) hdenpos hnumerator hdenominator

/-! ### Tolerances about multiples -/

/-- Some multiple of `n` is so near to `m`: in tenths of `10 ^ (-15)` of `m`, or of `10 ^ (-10)` of
`n`. -/
def NearMultiple (tenths m n : Int) : Prop :=
  ∃ k, |m - k * n| * 10 ^ 16 ≤ tenths * |m| ∨ |m - k * n| * 10 ^ 11 ≤ tenths * n

theorem nearMultiple_of_dvd {tenths : Int} (htenths : 0 ≤ tenths) (h : n ∣ m) :
    NearMultiple tenths m n := by
  obtain ⟨k, rfl⟩ := h
  refine ⟨k, .inl ?_⟩
  rw [Int.mul_comm n k, sub_self, abs_zero, zero_mul]
  positivity

theorem nearMultiple_natAbs {tenths : Int} :
    NearMultiple tenths m.natAbs n ↔ NearMultiple tenths m n := by
  rcases Int.natAbs_eq m with heq | heq
  · rw [← heq]
  · have hflip : ∀ k, |(m.natAbs : Int) - k * n| = |m - -k * n| := by
      intro k
      rw [← abs_neg, heq, Int.natAbs_neg, Int.natAbs_natCast]
      congr 1
      ring
    constructor
    · rintro ⟨k, hk⟩
      rw [hflip, Int.natCast_natAbs, abs_abs] at hk
      exact ⟨-k, hk⟩
    · rintro ⟨k, hk⟩
      refine ⟨-k, ?_⟩
      rw [hflip, neg_neg, Int.natCast_natAbs, abs_abs]
      exact hk

/-- The same told of the quotient. -/
theorem nearMultiple_iff {tenths : Int} (hpos : 0 < n) :
    NearMultiple tenths m n ↔
      ∃ whole : Int, Tolerated (tenths / 10) whole (m.natAbs / n.natAbs) := by
  obtain ⟨divisor, rfl⟩ := Int.eq_ofNat_of_zero_le hpos.le
  have hdivisor : (0 : ℚ) < divisor := by exact_mod_cast hpos
  rw [← nearMultiple_natAbs, Int.natAbs_natCast]
  generalize m.natAbs = number
  refine exists_congr fun whole => ?_
  have hdistance : |(whole : ℚ) - number / divisor| = |(number : ℚ) - whole * divisor| / divisor := by
    rw [← abs_of_pos hdivisor, ← abs_div, abs_of_pos hdivisor, abs_sub_comm, sub_div,
      mul_div_cancel_right₀ _ hdivisor.ne']
  rw [Tolerated, div_div, div_div, ← pow_succ', ← pow_succ', hdistance, ← mul_div_assoc,
    div_le_div_iff_of_pos_right hdivisor, div_le_iff₀ hdivisor,
    div_mul_eq_mul_div, div_mul_eq_mul_div, le_div_iff₀ (by positivity),
    le_div_iff₀ (by positivity), Nat.abs_cast]
  exact or_congr (by exact_mod_cast Iff.rfl) (by exact_mod_cast Iff.rfl)

theorem dvd_of_nearMultiple (h : NearMultiple 14 m n) (hm : |m| ≤ 7 * 10 ^ 14)
    (hn : n ≤ 7 * 10 ^ 9) : n ∣ m := by
  obtain ⟨k, hk⟩ := h
  have hzero : |m - k * n| = 0 := by
    have hnonneg := abs_nonneg (m - k * n)
    rcases hk with hnumber | hdivisor <;> omega
  exact ⟨k, by rw [sub_eq_zero.mp (abs_eq_zero.mp hzero), Int.mul_comm]⟩

/-- The test for a multiple on whole numbers, which may be written as integers or as doubles. It always
comes to a verdict. Two integers, and an integer that is too large to be rounded, are compared exactly.
Otherwise the verdict is right up to the tolerances: it accepts what is within six tenths of them about
a multiple, so all multiples, and nothing that is not within fourteen tenths. Hence it is right, in
whichever form the numbers are written, as long as they are not too large. -/
theorem isMultipleOf_whole (hm : a.toInt? = some m) (hn : divisor.toInt? = some n)
    (hpos : 0 < n) :
    ∃ verdict, a.isMultipleOf divisor = .ok verdict ∧
      (ComparedExactly a divisor → (verdict ↔ n ∣ m)) ∧
      (¬ ComparedExactly a divisor →
        (NearMultiple 6 m n → verdict) ∧ (verdict → NearMultiple 14 m n)) ∧
      (n ∣ m → verdict) ∧
      (|m| ≤ 7 * 10 ^ 14 → n ≤ 7 * 10 ^ 9 → (verdict ↔ n ∣ m)) := by
  by_cases hexact : ComparedExactly a divisor
  · have hverdict : decide (n ∣ m) = true ↔ n ∣ m := decide_eq_true_iff
    exact ⟨_, isMultipleOf_of_comparedExactly hm hn hexact, fun _ => hverdict,
      fun hrounded => absurd hexact hrounded, hverdict.mpr, fun _ _ => hverdict⟩
  · obtain ⟨units, hresult, herror⟩ :=
      isMultipleOf_of_not_comparedExactly hm hn hpos hexact
    have hratio : (0 : ℚ) ≤ m.natAbs / n.natAbs := by positivity
    have haccepts : NearMultiple 6 m n → nearlyWhole units := by
      intro h
      obtain ⟨whole, hwhole⟩ := (nearMultiple_iff hpos).mp h
      exact nearlyWhole_of_tolerated (herror.tolerated_rounded (amount_nonneg units) hwhole)
    have hrefuses : nearlyWhole units → NearMultiple 14 m n := by
      intro h
      obtain ⟨whole, hwhole⟩ := exists_tolerated_of_nearlyWhole h
      exact (nearMultiple_iff hpos).mpr ⟨whole, herror.tolerated_exact hratio hwhole⟩
    have hmultiple : n ∣ m → nearlyWhole units :=
      fun h => haccepts (nearMultiple_of_dvd (by decide) h)
    exact ⟨_, hresult, fun h => absurd h hexact, fun _ => ⟨haccepts, hrefuses⟩, hmultiple,
      fun hlarge hlarge' => ⟨fun h => dvd_of_nearMultiple (hrefuses h) hlarge hlarge', hmultiple⟩⟩

end Whole

/-- Six is a multiple of three, both written as doubles. -/
theorem isMultipleOf_six :
    (float (.ofUnits false (6 * one) 1)).toInt? = some 6 ∧
      (float (.ofUnits false (3 * one) 1)).toInt? = some 3 ∧
      (float (.ofUnits false (6 * one) 1)).isMultipleOf (.float (.ofUnits false (3 * one) 1)) =
        .ok true := by
  have hsix : (float (.ofUnits false (6 * one) 1)).toInt? = some 6 := by decide +kernel
  have hthree : (float (.ofUnits false (3 * one) 1)).toInt? = some 3 := by decide +kernel
  obtain ⟨verdict, hresult, -, -, hmultiple, -⟩ := isMultipleOf_whole hsix hthree (by decide)
  rw [hmultiple (by decide)] at hresult
  exact ⟨hsix, hthree, hresult⟩

/-- One is a multiple of a hundred billion if that is written as a double, and not if it is written as
an integer. -/
theorem isMultipleOf_hundredBillion :
    (float (.ofUnits false (10 ^ 11 * one) 1)).toInt? = some (10 ^ 11) ∧
      (int 1).isMultipleOf (.float (.ofUnits false (10 ^ 11 * one) 1)) = .ok true ∧
      (int 1).isMultipleOf (.int (10 ^ 11)) = .ok false ∧ ¬ (10 ^ 11 : Int) ∣ 1 := by
  refine ⟨by decide +kernel, ?_, rfl, by decide⟩
  exact Except.toOption_eq_some_iff.mp (by decide +kernel)

end Number

end JsonSchema
