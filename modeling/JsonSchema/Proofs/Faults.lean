import JsonSchema.Proofs.Finite
import JsonSchema.Proofs.Locations

/-!
# Validations without a fault

A fault comes from an exact multiple of or by a number that is infinite or none, or from a pattern that
is no text of a pattern and yet no mere error of form. Where all numbers are finite and all patterns
are settled, there is none of these (`findings_fault_eq_none`): a test for a multiple never divides by
zero, and a malformed pattern is a violation of its node.
-/

namespace JsonSchema

open Findings

/-! ### Multiples of finite numbers -/

namespace Numeric

theorem two_pow_gridExponent_le {whole : Nat} (h : 0 < whole) :
    Nat.pow 2 (gridExponent whole) ≤ whole := by
  have hexponent : gridExponent whole ≤ whole.log2 := Nat.sub_le _ _
  have hpow : 2 ^ whole.log2 ≤ whole := Nat.log2_self_le (Nat.ne_of_gt h)
  exact Nat.le_trans (Nat.pow_le_pow_right (by decide) hexponent) hpow

/-- A quotient of at least one is not rounded to zero. -/
theorem roundToGrid_pos {num den : Nat} (hden : 0 < den) (h : den ≤ num) :
    0 < roundToGrid num den := by
  have hwhole : 0 < num / den := Nat.div_pos h hden
  have hspacing : 0 < Nat.pow 2 (gridExponent (num / den)) := Nat.two_pow_pos _
  have hquotient : 0 < num / (den * Nat.pow 2 (gridExponent (num / den))) := by
    rw [← Nat.div_div_eq_div_mul]
    exact Nat.div_pos (two_pow_gridExponent_le hwhole) hspacing
  exact Nat.mul_pos (Nat.lt_of_lt_of_le hquotient (le_roundHalfEven _ _)) hspacing

end Numeric

namespace Binary64

theorem units_of_ofUnits {negative sign : Bool} {num den units : Nat} {h : IsMagnitude units}
    (heq : ofUnits negative num den = .finite sign units h) :
    units = Numeric.roundToGrid num den := by
  unfold ofUnits at heq
  split_ifs at heq
  exact (Binary64.finite.inj heq).2.symm

theorem signedUnits?_finite_ne_zero {negative : Bool} {units : Nat} {h : IsMagnitude units}
    (hunits : units ≠ 0) : (finite negative units h).signedUnits? ≠ some 0 := by
  cases negative <;> simp [signedUnits?, hunits]

/-- An integer other than zero is not rounded to zero. -/
theorem signedUnits?_ne_zero_of_ofInt? {n : Int} {x : Binary64} (hn : n ≠ 0)
    (h : ofInt? n = some x) : x.signedUnits? ≠ some 0 := by
  have hmagnitude : 1 ≤ n.natAbs * one := Nat.mul_pos (Int.natAbs_pos.mpr hn) one_pos
  have hrounded := Numeric.roundToGrid_pos Nat.zero_lt_one hmagnitude
  obtain ⟨negative, units, hfits, hfinite, hx⟩ := eq_of_finite? h
  rw [← units_of_ofUnits hfinite] at hrounded
  rw [hx, hfinite]
  exact signedUnits?_finite_ne_zero (Nat.ne_of_gt hrounded)

end Binary64

namespace Number

theorem exists_exactUnits {a : Number} (h : a.isFinite) : ∃ units, a.exactUnits = .ok units := by
  match a with
  | .int value => exact ⟨_, rfl⟩
  | .float (.finite _ _ _) => exact ⟨_, rfl⟩
  | .float .nan => cases h
  | .float (.infinite _) => cases h

/-- A test for a multiple comes to a result, also where a number is too large to be rounded. -/
theorem exists_isMultipleOf {a divisor : Number} (ha : a.isFinite) (hdivisor : divisor.isFinite) :
    ∃ whole, a.isMultipleOf divisor = .ok whole := by
  obtain ⟨m, hm⟩ := exists_exactUnits ha
  obtain ⟨n, hn⟩ := exists_exactUnits hdivisor
  unfold isMultipleOf
  split
  · exact ⟨_, rfl⟩
  · split
    · split <;> exact ⟨_, rfl⟩
    · rw [hm, hn]
      exact ⟨_, rfl⟩

theorem rank_zero : zero.rank = some ⟨0, 0⟩ := by
  rw [zero, rank, Int.zero_mul]

theorem rank_finite_zero (negative : Bool) (h : Binary64.IsMagnitude 0) :
    (float (.finite negative 0 h)).rank = zero.rank := by
  rw [rank_zero]
  cases negative <;> rfl

/-- A divisor is not zero in any of the forms in which numbers are divided by it. -/
structure IsDivisor (divisor : Number) : Prop where
  int : ∀ n, divisor = .int n → n ≠ 0
  rounded : ∀ x, divisor.toBinary64? = some x → x.signedUnits? ≠ some 0
  exact : ∀ units, divisor.exactUnits = .ok units → units ≠ 0

theorem isDivisor_of_pos {divisor : Number} (h : zero.lt divisor) : divisor.IsDivisor := by
  match divisor with
  | .int n =>
    have hn : n ≠ 0 := by
      rintro rfl
      have hself : zero.lt zero = false := lt_of_rank_eq rfl
      exact Bool.false_ne_true (hself.symm.trans h)
    refine ⟨fun m hm => ?_, fun x hx => Binary64.signedUnits?_ne_zero_of_ofInt? hn hx,
      fun units hunits => ?_⟩
    · cases hm
      exact hn
    · cases hunits
      exact Int.mul_ne_zero hn (Int.ofNat_ne_zero.mpr (Nat.ne_of_gt Binary64.one_pos))
  | .float .nan => cases h
  | .float (.infinite negative) =>
    refine ⟨nofun, fun x hx => ?_, nofun⟩
    cases hx
    exact nofun
  | .float (.finite negative units _) =>
    have hunits : units ≠ 0 := by
      rintro rfl
      rw [lt_of_rank_eq (rank_finite_zero negative _).symm] at h
      cases h
    refine ⟨nofun, fun x hx => ?_, fun exact hexact => ?_⟩
    · cases hx
      exact Binary64.signedUnits?_finite_ne_zero hunits
    · cases hexact
      cases negative <;> simp [hunits]

end Number

/-! ### Schemas and values that cause no fault -/

/-- A text that is read as a pattern, or is malformed and nothing worse. -/
def Pattern.Settled (written : String) : Prop :=
  ∀ defect, Pattern.parse written = .error defect → defect = .invalid

structure Node.FaultFree (n : Node Schema) : Prop where
  divisor : ∀ d ∈ n.multipleOf, d.isFinite
  pattern : ∀ written ∈ n.pattern, Pattern.Settled written
  patternProperties : ∀ entry ∈ n.patternProperties.getD [], Pattern.Settled entry.1

section Walk

variable {reported : Violation → Prop} {allowed : Fault → Prop}

theorem within_checkMultiple_of_isFinite (hreport : ∀ cause, reported ⟨[], cause⟩)
    {divisor : Option Number} {number : Number} (hdivisor : ∀ d ∈ divisor, d.isFinite)
    (hnumber : number.isFinite) : (checkMultiple divisor number).Within reported allowed := by
  cases divisor with
  | none => exact within_clean
  | some d =>
    obtain ⟨whole, hwhole⟩ := Number.exists_isMultipleOf hnumber (hdivisor d rfl)
    rw [checkMultiple, hwhole]
    split_ifs
    · exact within_require _ (hreport _)
    · exact within_clean

theorem within_withPattern_of_settled (hreport : ∀ cause, reported ⟨[], cause⟩) {written : String}
    (h : Pattern.Settled written) :
    (withPattern written fun _ => clean).Within reported allowed := by
  cases hparse : Pattern.parse written with
  | ok pattern =>
    simp only [withPattern, hparse]
    exact within_clean
  | error defect =>
    cases h defect hparse
    simp only [withPattern, hparse]
    exact within_report (hreport _)

/-- A walk from fault-free schemas and a finite value visits none but fault-free schemas and finite
values, so it ends in a fault only if its fuel is used up. -/
theorem within_walk_of_faultFree {root : Schema} (hroot : root.Everywhere Node.FaultFree)
    {fuel : Nat} {active : List String} {value : Value} {schema : Schema}
    (hschema : schema.Everywhere Node.FaultFree) (hvalue : value.Finite) :
    (walk root fuel active value schema).Within (fun _ => True) (· = .outOfFuel) := by
  induction fuel generalizing active value schema with
  | zero => exact within_raise rfl
  | succ fuel ih =>
    match schema with
    | .always true => exact within_clean
    | .always false => exact within_report trivial
    | .node n =>
      obtain ⟨hnode, hchildren⟩ := Schema.everywhere_node_iff.mp hschema
      obtain ⟨hnumber, hparts⟩ := hvalue
      cases href : n.ref with
      | none =>
        rw [walk_node href]
        have hreport : Cause → True := fun _ => trivial
        exact within_checkNode hreport (fun _ _ _ => hreport)
          (fun number hnumber' =>
            within_checkMultiple_of_isFinite hreport hnode.divisor (hnumber number hnumber'))
          (fun written hmem => within_withPattern_of_settled hreport (hnode.pattern written hmem))
          (fun entry hmem =>
            within_withPattern_of_settled hreport (hnode.patternProperties entry hmem))
          (fun child hmem => ih (hchildren child hmem) ⟨hnumber, hparts⟩)
          (fun step part hstep child hmem =>
            ih (hchildren child hmem) (hparts part hstep.mem_parts))
      | some ref =>
        rw [walk_reference href]
        split_ifs
        · exact within_clean
        · cases htarget : root.resolveReference ref with
          | none => exact within_clean
          | some target =>
            have htargetNodes := hroot.of_occurs (Schema.occurs_of_resolveReference htarget)
            exact ih htargetNodes ⟨hnumber, hparts⟩

end Walk

/-! ### Malformed patterns -/

namespace Findings

theorem firstOf_cons_of_clean {check : Unit → Findings} {rest : List (Unit → Findings)}
    (h : check () = clean) : firstOf (check :: rest) = firstOf rest := by
  rw [firstOf, h]
  rfl

theorem firstOf_cons_of_report {check : Unit → Findings} {rest : List (Unit → Findings)}
    {cause : Cause} (h : check () = report cause) : firstOf (check :: rest) = report cause := by
  rw [firstOf, h]
  rfl

/-- A check that ends in no fault finds nothing where that holds which it decides. -/
theorem Decides.eq_clean {f : Findings} {P : Prop} (h : f.Decides P)
    (hwithin : f.Within (fun _ => True) fun _ => False) (hP : P) : f = clean := by
  have hviolations : f.violations = [] := by_contra fun hne => h.fails hne hP
  have hfault : f.fault = none := Option.eq_none_iff_forall_not_mem.mpr hwithin.fault
  obtain ⟨violations, fault⟩ := f
  cases hviolations
  cases hfault
  rfl

end Findings

theorem withPattern_of_invalid {written : String} {check : Pattern → Findings}
    (h : Pattern.parse written = .error .invalid) :
    withPattern written check = report (.badPattern written) := by
  rw [withPattern, h]

/-- The first pattern that is malformed is the one that is reported. -/
theorem readPatterns_of_invalid {before after : List (String × Schema)} {entry : String × Schema}
    (hbefore : ∀ earlier ∈ before, ∃ pattern, Pattern.parse earlier.1 = .ok pattern)
    (hentry : Pattern.parse entry.1 = .error .invalid) :
    readPatterns (before ++ entry :: after) = .error (report (.badPattern entry.1)) := by
  induction before with
  | nil =>
    rw [List.nil_append, readPatterns, hentry, withPattern_of_invalid hentry]
  | cons earlier rest ih =>
    obtain ⟨pattern, hpattern⟩ := hbefore earlier List.mem_cons_self
    have hrest := ih fun other hother => hbefore other (List.mem_cons_of_mem earlier hother)
    rw [List.cons_append, readPatterns, hpattern, hrest]
    rfl

namespace Node

/-- The keywords that are checked ahead of those for one kind of value. -/
structure GeneralHolds (n : Node Schema) (value : Value) : Prop where
  enum : ∀ choices ∈ n.enum, ∃ choice ∈ choices, value.equal choice
  const : ∀ expected ∈ n.const, value.equal expected
  type : n.type.accepts value

/-- The check of a value comes to a malformed pattern, as nothing that is checked before it fails. -/
inductive ReachesMalformed (n : Node Schema) : Value → String → Prop where
  | pattern {text written : String} (hmaximum : ∀ bound ∈ n.maxLength, text.length ≤ bound)
      (hminimum : ∀ bound ∈ n.minLength, bound ≤ text.length) (hwritten : n.pattern = some written)
      (hinvalid : Pattern.parse written = .error .invalid) :
      ReachesMalformed n (.string text) written
  | patternProperties {members : List (String × Value)} {before after : List (String × Schema)}
      {entry : String × Schema} (hlimits : n.toObjectLimits.Holds members)
      (hentries : n.patternProperties = some (before ++ entry :: after))
      (hbefore : ∀ earlier ∈ before, ∃ pattern, Pattern.parse earlier.1 = .ok pattern)
      (hinvalid : Pattern.parse entry.1 = .error .invalid) :
      ReachesMalformed n (.object members) entry.1

variable {here : Schema → Findings} {below : Value → Schema → Findings} {n : Node Schema}
  {value : Value} {written : String}

theorem checkKind_of_reachesMalformed (h : n.ReachesMalformed value written) :
    checkKind here below n value = report (.badPattern written) := by
  have hreport : Cause → True := fun _ => trivial
  cases h with
  | @pattern text written hmaximum hminimum hwritten hinvalid =>
    have htooLong : checkBound n.maxLength (· < text.length) .tooLong = clean :=
      (decides_checkBound _ _ _).eq_clean (within_checkBound hreport _ _ _)
        (by simpa using hmaximum)
    have htooShort : checkBound n.minLength (text.length < ·) .tooShort = clean :=
      (decides_checkBound _ _ _).eq_clean (within_checkBound hreport _ _ _)
        (by simpa using hminimum)
    have hpattern : checkPattern n.pattern text = report (.badPattern written) := by
      rw [hwritten]
      exact withPattern_of_invalid hinvalid
    rw [checkKind, StringLimits.check, firstOf_cons_of_clean htooLong,
      firstOf_cons_of_clean htooShort]
    exact firstOf_cons_of_report hpattern
  | @patternProperties members before after entry hlimits hentries hbefore hinvalid =>
    have hclean : n.toObjectLimits.check members = clean :=
      (decides_objectLimits _ _).eq_clean (within_objectLimits hreport _ _) hlimits
    have hproperties : checkProperties below n members = report (.badPattern entry.1) := by
      rw [checkProperties, hentries, Option.getD_some, readPatterns_of_invalid hbefore hinvalid]
    rw [checkKind, checkObject, firstOf_cons_of_clean hclean]
    exact firstOf_cons_of_report hproperties

theorem checkNode_of_reachesMalformed (hgeneral : n.GeneralHolds value)
    (h : n.ReachesMalformed value written) :
    checkNode here below n value = report (.badPattern written) := by
  have hreport : Cause → True := fun _ => trivial
  have henum : checkEnum n.enum value = clean :=
    (decides_checkEnum _ _).eq_clean (within_checkEnum hreport _ _) hgeneral.enum
  have hconst : checkConst n.const value = clean :=
    (decides_checkConst _ _).eq_clean (within_checkConst hreport _ _) hgeneral.const
  have htype : checkType n.type value = clean :=
    (decides_require _ Iff.rfl).eq_clean (within_require _ trivial) hgeneral.type
  rw [checkNode, firstOf_cons_of_clean henum, firstOf_cons_of_clean hconst,
    firstOf_cons_of_clean htype]
  exact firstOf_cons_of_report (checkKind_of_reachesMalformed h)

end Node

/-! ### Validation -/

namespace Schema

/-- Where the divisors of the schemas and the numbers of the value are finite, and every pattern is
read or malformed, a validation comes to its end: however many errors are asked for, they are given.
No divisor that is positive is zero in any of the forms in which a number is divided by it, and a
malformed pattern that is come to is the one violation of its node. -/
theorem findings_fault_eq_none {root schema : Schema} {value : Value}
    (hroot : root.Everywhere Node.FaultFree) (hschema : schema.Everywhere Node.FaultFree)
    (hvalue : value.Finite) :
    (root.findings schema value).fault = none ∧
    (∀ (start : String) (limit : Int), 0 ≤ limit → limit ≤ greatestLimit →
      root.errors schema value start limit =
        .ok (((root.findings schema value).violations.take limit.toNat).map
          (Violation.diagnostic start))) ∧
    (∀ divisor, Number.zero.lt divisor → divisor.IsDivisor) ∧
    ∀ (fuel : Nat) (active : List String) (part : Value) (n : Node Schema) (written : String),
      n.ref = none → n.GeneralHolds part → n.ReachesMalformed part written →
        walk root (fuel + 1) active part (.node n) = report (.badPattern written) := by
  have hfault : (root.findings schema value).fault = none := by
    cases hended : (root.findings schema value).fault with
    | none => rfl
    | some fault =>
      have hwithin : (root.findings schema value).Within (fun _ => True) (· = .outOfFuel) :=
        within_walk_of_faultFree hroot hschema hvalue
      cases hwithin.fault fault hended
      exact absurd hended (walk_fault_ne_outOfFuel (Nat.le_refl _) [])
  refine ⟨hfault, fun start limit hlow hhigh => ?_, fun divisor => Number.isDivisor_of_pos,
    fun fuel active part n written href hgeneral hmalformed => ?_⟩
  · rw [errors_eq hlow hhigh, hfault]
    split_ifs with hcount
    · rfl
    · rw [List.take_of_length_le (by omega)]
  · rw [walk_node href]
    exact Node.checkNode_of_reachesMalformed hgeneral hmalformed

def quarters : Schema := .node {
  properties := some [
    ("amount", .node { multipleOf := some (.float (.ofDecimal false 25 (-2))) }),
    ("name", .node { pattern := some "[" })] }

def hugeAmount : Value :=
  .object [("amount", .number (.int (.ofNat (Nat.pow 10 200 * Nat.pow 10 200 + 1)))),
    ("name", .string "A")]

theorem findings_hugeAmount :
    quarters.Everywhere Node.FaultFree ∧ hugeAmount.Finite ∧
    (quarters.findings quarters hugeAmount).fault = none ∧
    quarters.errors quarters hugeAmount "#" 10 = .ok [{
      path := "#/name"
      message := "Pattern '[' is not a valid regular expression"
      context := ["Invalid property 'name'"] }] := by
  have hquarter : (Number.float (.ofDecimal false 25 (-2))).isFinite := by decide +kernel
  have hopen : Pattern.Settled "[" := by
    intro defect hdefect
    have hparse : Pattern.parse "[" = .error .invalid := by rfl
    rw [hparse] at hdefect
    exact (Except.error.inj hdefect).symm
  have hnodes : quarters.Everywhere Node.FaultFree := by
    rw [quarters, everywhere_node_iff]
    refine ⟨⟨by simp, by simp, by simp⟩, fun child hmem => ?_⟩
    simp only [Node.children, Items.children, Option.getD, List.map, Option.toList, List.flatMap_nil,
      List.append_nil, List.nil_append, List.mem_cons, List.not_mem_nil, or_false] at hmem
    rcases hmem with rfl | rfl <;> rw [everywhere_node_iff]
    · exact ⟨⟨by simpa using hquarter, by simp, by simp⟩, by simp [Node.children, Items.children]⟩
    · exact ⟨⟨by simp, by simpa using hopen, by simp⟩, by simp [Node.children, Items.children]⟩
  have hfinite : hugeAmount.Finite := by simp [hugeAmount]
  exact ⟨hnodes, hfinite, (findings_fault_eq_none hnodes hnodes hfinite).1, by decide +kernel⟩

end Schema

end JsonSchema
