import JsonSchema.Proofs.Alike
import JsonSchema.Proofs.Equality
import JsonSchema.Proofs.Keywords
import JsonSchema.Proofs.Numbers
import JsonSchema.Proofs.Rounding

/-!
# Equality is an equivalence

Numbers are equal if they are the same number, in exact arithmetic. On values without NaN in which no
object has a name twice, JSON equality is an equivalence (`Value.equal_equivalence`) that does not see
the order of members at any depth. So it does not matter in which order items are compared when two
equal ones are looked for.
-/

namespace JsonSchema

/-! ### Numbers -/

inductive Extended where
  | finite (x : ℚ)
  | infinite (negative : Bool)

namespace Number

/-- The number that is meant, in exact arithmetic; NaN means none. -/
def meant? : Number → Option Extended
  | .int value => some (.finite value)
  | .float .nan => none
  | .float (.infinite negative) => some (.infinite negative)
  | .float (.finite true units _) => some (.finite (-Binary64.amount units))
  | .float (.finite false units _) => some (.finite (Binary64.amount units))

inductive StandsAt : Option Rank → Option Extended → Prop
  | nowhere : StandsAt none none
  | bottom : StandsAt (some ⟨-1, 0⟩) (some (.infinite true))
  | top : StandsAt (some ⟨1, 0⟩) (some (.infinite false))
  | between {units : Int} {x : ℚ} (h : x * Binary64.one = units) :
      StandsAt (some ⟨0, units⟩) (some (.finite x))

theorem standsAt : ∀ a : Number, StandsAt a.rank a.meant?
  | .int value => .between (by push_cast; rfl)
  | .float .nan => .nowhere
  | .float (.infinite true) => .bottom
  | .float (.infinite false) => .top
  | .float (.finite true units _) => .between (by
      rw [neg_mul, Binary64.amount_mul_units]
      push_cast
      rfl)
  | .float (.finite false units _) => .between (by rw [Binary64.amount_mul_units]; rfl)

/-- Whatever their kinds, numbers are compared as the numbers that they mean. -/
theorem equal_iff_meant {a b : Number} :
    a.equal b ↔ ∃ x, a.meant? = some x ∧ b.meant? = some x := by
  rw [equal_iff]
  have ha := a.standsAt
  have hb := b.standsAt
  generalize a.rank = place at ha ⊢
  generalize b.rank = place' at hb ⊢
  generalize a.meant? = number at ha ⊢
  generalize b.meant? = number' at hb ⊢
  cases ha with
  | nowhere => simp
  | bottom => cases hb <;> simp
  | top => cases hb <;> simp
  | @between units x h =>
    cases hb with
    | nowhere => simp
    | bottom => simp
    | top => simp
    | @between units' x' h' =>
      have hiff : units' = units ↔ x' = x := by
        rw [← mul_left_inj' Binary64.one_pos_cast.ne', h, h']
        exact Int.cast_inj.symm
      simp [hiff]

@[simp] theorem isNaN_int (value : Int) : (int value).isNaN = false := rfl

theorem equal_self {a : Number} (h : a.isNaN = false) : a.equal a := by
  rw [equal_iff]
  obtain ⟨place, hplace⟩ := Option.ne_none_iff_exists'.mp (of_decide_eq_false h)
  exact ⟨place, hplace, hplace⟩

end Number

namespace Value

/-! ### The order of members -/

/-- The second value is the first with the members of objects in another order, at any depth. -/
inductive Shuffled : Value → Value → Prop
  | same (value : Value) : Shuffled value value
  | array {items others : List Value} (h : List.Forall₂ Shuffled items others) :
      Shuffled (.array items) (.array others)
  | object {members aligned others : List (String × Value)}
      (h : List.Forall₂ (SameName Shuffled) members aligned) (horder : aligned.Perm others) :
      Shuffled (.object members) (.object others)

/-- What equality is an equivalence on: no object has a name twice, and no number is NaN. -/
structure Comparable (value : Value) : Prop where
  wellFormed : value.WellFormed
  numbers : value.AllNumbers fun n => n.isNaN = false

variable {a b c : Value} {items others : List Value} {members aligned : List (String × Value)}

theorem comparable_array_iff : (Value.array items).Comparable ↔ ∀ item ∈ items, item.Comparable := by
  constructor
  · rintro ⟨hwell, hnumbers⟩ item hitem
    exact ⟨wellFormed_array_iff.mp hwell item hitem, allNumbers_array_iff.mp hnumbers item hitem⟩
  · intro h
    exact ⟨wellFormed_array_iff.mpr fun item hitem => (h item hitem).wellFormed,
      .array fun item hitem => (h item hitem).numbers⟩

theorem comparable_object_iff : (Value.object members).Comparable ↔
    Members.Distinct members ∧ ∀ member ∈ members, member.2.Comparable := by
  constructor
  · rintro ⟨hwell, hnumbers⟩
    obtain ⟨hdistinct, hvalues⟩ := wellFormed_object_iff.mp hwell
    exact ⟨hdistinct, fun member hmem =>
      ⟨hvalues member hmem, allNumbers_object_iff.mp hnumbers member hmem⟩⟩
  · rintro ⟨hdistinct, h⟩
    exact ⟨wellFormed_object_iff.mpr ⟨hdistinct, fun member hmem => (h member hmem).wellFormed⟩,
      .object fun member hmem => (h member hmem).numbers⟩

theorem equal_refl (h : a.Comparable) : a.equal a := by
  induction a using Value.induction with
  | null => rw [equal]
  | bool b => simp [equal]
  | string text => simp [equal]
  | number n => exact Number.equal_self (allNumbers_number_iff.mp h.numbers)
  | array items ih =>
    have hitems := comparable_array_iff.mp h
    refine equal_array_iff.mpr ⟨rfl, fun index a b ha hb => ?_⟩
    obtain rfl := Option.some.inj (ha.symm.trans hb)
    have hmem := List.mem_of_getElem? ha
    exact ih a hmem (hitems a hmem)
  | object members ih =>
    obtain ⟨hdistinct, hmembers⟩ := comparable_object_iff.mp h
    refine equal_object_iff.mpr ⟨rfl, fun member hmem => ?_⟩
    exact ⟨member.2, Members.lookup_of_mem hdistinct hmem, ih member hmem (hmembers member hmem)⟩

/-- Shuffling keeps a value comparable, and gives an equal one. -/
theorem Shuffled.comparable_and_equal (h : Shuffled a b) (ha : a.Comparable) :
    b.Comparable ∧ a.equal b := by
  induction a using Value.induction generalizing b with
  | array items ih =>
    cases h with
    | same => exact ⟨ha, equal_refl ha⟩
    | @array _ others hitems =>
      have hall : List.Forall₂ (fun item other => other.Comparable ∧ item.equal other) items others :=
        forall₂_imp_of_mem hitems fun item hmem other _ hshuffled =>
          ih item hmem hshuffled (comparable_array_iff.mp ha item hmem)
      constructor
      · refine comparable_array_iff.mpr fun other hother => ?_
        obtain ⟨item, -, hcomparable, -⟩ := (Matched.of_forall₂ hall).exists_left hother
        exact hcomparable
      · refine equal_array_iff.mpr ⟨hall.length_eq, fun index item other hitem hother => ?_⟩
        obtain ⟨hlt, rfl⟩ := List.getElem?_eq_some_iff.mp hitem
        obtain ⟨hlt', rfl⟩ := List.getElem?_eq_some_iff.mp hother
        exact (hall.get hlt hlt').2
  | object members ih =>
    cases h with
    | same => exact ⟨ha, equal_refl ha⟩
    | @object _ aligned others hmembers horder =>
      obtain ⟨hdistinct, hvalues⟩ := comparable_object_iff.mp ha
      have hmatched : Matched (SameName fun a b => b.Comparable ∧ a.equal b) members others := by
        refine Matched.imp ⟨aligned, hmembers, horder⟩ ?_
        rintro _ hmem _ - ⟨hshuffled⟩
        exact .mk (ih _ hmem hshuffled (hvalues _ hmem))
      have hothers : Members.Distinct others :=
        (Members.perm_names_of_matched hmatched).nodup_iff.mp hdistinct
      constructor
      · refine comparable_object_iff.mpr ⟨hothers, fun other hother => ?_⟩
        obtain ⟨_, -, ⟨hcomparable, -⟩⟩ := hmatched.exists_left hother
        exact hcomparable
      · refine equal_object_iff.mpr ⟨hmatched.length_eq, fun member hmem => ?_⟩
        have hlookup := Members.Alike.rel_lookup ⟨hmatched, hothers⟩ member.1
        rw [Members.lookup_of_mem hdistinct hmem] at hlookup
        cases hfound : others.lookup member.1 with
        | none =>
          rw [hfound] at hlookup
          cases hlookup
        | some other =>
          rw [hfound] at hlookup
          cases hlookup with
          | some hboth => exact ⟨other, rfl, hboth.2⟩
  | null =>
    cases h
    exact ⟨ha, equal_refl ha⟩
  | bool b =>
    cases h
    exact ⟨ha, equal_refl ha⟩
  | number n =>
    cases h
    exact ⟨ha, equal_refl ha⟩
  | string text =>
    cases h
    exact ⟨ha, equal_refl ha⟩

theorem equal_eq_of_equal {a' b' : Value} (ha : a.WellFormed) (hb : b.WellFormed)
    (haa : a.equal a') (hbb : b.equal b') : a.equal b = a'.equal b' := by
  rw [Bool.eq_iff_iff]
  constructor
  · intro h
    exact equal_trans (equal_symm ha haa) (equal_trans h hbb)
  · intro h
    exact equal_trans haa (equal_trans h (equal_symm hb hbb))

/-! ### Equal items -/

/-- Items are compared with those behind them only. By symmetry, no two are equal in either order. -/
theorem hasDuplicates_eq_false_iff_apart (h : ∀ item ∈ items, item.WellFormed) :
    hasDuplicates items = false ↔ items.Pairwise fun a b => ¬ a.equal b ∧ ¬ b.equal a := by
  rw [hasDuplicates_eq_false_iff]
  constructor
  · refine List.Pairwise.imp_of_mem fun _ hb hab => ⟨hab, fun hba => hab ?_⟩
    exact equal_symm (h _ hb) hba
  · exact List.Pairwise.imp And.left

theorem hasDuplicates_iff (h : ∀ item ∈ items, item.WellFormed) :
    hasDuplicates items ↔ ∃ (i j : Nat) (a b : Value),
      i ≠ j ∧ items[i]? = some a ∧ items[j]? = some b ∧ a.equal b := by
  rw [← not_iff_not, Bool.not_eq_true, hasDuplicates_eq_false_iff_apart h,
    List.pairwise_iff_getElem]
  constructor
  · rintro hapart ⟨i, j, a, b, hne, ha, hb, hequal⟩
    obtain ⟨hi, rfl⟩ := List.getElem?_eq_some_iff.mp ha
    obtain ⟨hj, rfl⟩ := List.getElem?_eq_some_iff.mp hb
    rcases Nat.lt_or_gt_of_ne hne with hlt | hgt
    · exact (hapart i j hi hj hlt).1 hequal
    · exact (hapart j i hj hi hgt).2 hequal
  · intro hnone i j hi hj hlt
    have ha := List.getElem?_eq_getElem hi
    have hb := List.getElem?_eq_getElem hj
    exact ⟨fun hequal => hnone ⟨i, j, _, _, hlt.ne, ha, hb, hequal⟩,
      fun hequal => hnone ⟨j, i, _, _, hlt.ne', hb, ha, hequal⟩⟩

theorem hasDuplicates_eq_of_perm (h : ∀ item ∈ items, item.WellFormed) (hperm : items.Perm others) :
    hasDuplicates items = hasDuplicates others := by
  have hothers : ∀ item ∈ others, item.WellFormed := fun item hitem =>
    h item (hperm.symm.subset hitem)
  have hiff : hasDuplicates items = false ↔ hasDuplicates others = false := by
    rw [hasDuplicates_eq_false_iff_apart h, hasDuplicates_eq_false_iff_apart hothers]
    exact hperm.pairwise_iff And.symm
  cases hitems : hasDuplicates items <;> cases hothers : hasDuplicates others <;> simp_all

/-! ### The equivalence -/

/-- On values without NaN and without repeated names, equality is an equivalence. It does not see the
order of members, relates values of one primitive type only, and compares numbers as the numbers that
they mean; and it does not matter in which order a list is searched for equal items. -/
theorem equal_equivalence :
    Equivalence (fun a b : {value : Value // value.Comparable} => a.val.equal b.val = true) ∧
    (∀ a a' b b' : Value, a.Comparable → b.Comparable → a.Shuffled a' → b.Shuffled b' →
      a.equal b = a'.equal b') ∧
    (∀ a b : Value, a.equal b → Primitive.ofValue a = Primitive.ofValue b) ∧
    (∀ items : List Value, (∀ item ∈ items, item.Comparable) →
      (hasDuplicates items ↔ ∃ (i j : Nat) (a b : Value),
        i ≠ j ∧ items[i]? = some a ∧ items[j]? = some b ∧ a.equal b) ∧
      ∀ others, items.Perm others → hasDuplicates items = hasDuplicates others) ∧
    ∀ m n : Number, (Value.number m).equal (.number n) ↔
      ∃ x, m.meant? = some x ∧ n.meant? = some x := by
  refine ⟨⟨fun a => equal_refl a.property, fun {a _} h => equal_symm a.property.wellFormed h,
    equal_trans⟩, ?_, fun a b => ofValue_eq_of_equal, ?_, ?_⟩
  · intro a a' b b' ha hb hshuffled hshuffled'
    exact equal_eq_of_equal ha.wellFormed hb.wellFormed (hshuffled.comparable_and_equal ha).2
      (hshuffled'.comparable_and_equal hb).2
  · intro items hitems
    have hwell : ∀ item ∈ items, item.WellFormed := fun item hitem => (hitems item hitem).wellFormed
    exact ⟨hasDuplicates_iff hwell, fun others => hasDuplicates_eq_of_perm hwell⟩
  · intro m n
    rw [equal, Number.equal_iff_meant]

def largeFloat : Number :=
  .float (.finite false (9007199254740992 * Binary64.one)
    ⟨⟨2 ^ 52, 1075, by decide +kernel, by decide +kernel⟩, by decide +kernel⟩)

theorem isNaN_largeFloat : largeFloat.isNaN = false := rfl

def measurement : Value := .object [
  ("sizes", .array [.int 9007199254740992, .object [("low", .bool true), ("high", .null)],
    .number largeFloat]),
  ("unit", .string "m")]

def shuffledMeasurement : Value := .object [
  ("unit", .string "m"),
  ("sizes", .array [.int 9007199254740992, .object [("high", .null), ("low", .bool true)],
    .number largeFloat])]

theorem comparable_measurement : measurement.Comparable where
  wellFormed := by
    simp [measurement, int, WellFormed, WellFormedMembers, WellFormedItems, Members.Distinct,
      Members.names]
  numbers := by
    simp [measurement, int, isNaN_largeFloat]

theorem shuffled_measurement : measurement.Shuffled shuffledMeasurement := by
  refine .object (.cons (.mk (.array ?_)) (.cons (.mk (.same _)) .nil)) (.swap _ _ _)
  refine .cons (.same _) (.cons ?_ (.cons (.same _) .nil))
  exact .object (.cons (.mk (.same _)) (.cons (.mk (.same _)) .nil)) (.swap _ _ _)

theorem equal_equivalence_measurement :
    measurement.equal shuffledMeasurement ∧
    hasDuplicates [.int 9007199254740992, .bool true, .number largeFloat] ∧
    ¬ (int 9007199254740993).equal (.number largeFloat) := by
  obtain ⟨⟨hrefl, -, -⟩, hshuffled, -, hduplicates, hexact⟩ := equal_equivalence
  have hlarge : largeFloat.meant? = (Number.int 9007199254740992).meant? := by
    simp [largeFloat, Number.meant?, Binary64.amount_mul_one]
  have hlist : (array [.int 9007199254740992, .bool true, .number largeFloat]).Comparable :=
    ⟨by simp [int, WellFormed, WellFormedItems], by simp [int, isNaN_largeFloat]⟩
  refine ⟨?_, ?_, ?_⟩
  · rw [← hshuffled measurement measurement measurement shuffledMeasurement comparable_measurement
      comparable_measurement (.same _) shuffled_measurement]
    exact hrefl ⟨measurement, comparable_measurement⟩
  · refine (hduplicates _ (comparable_array_iff.mp hlist)).1.mpr
      ⟨0, 2, _, _, by decide, rfl, rfl, ?_⟩
    exact (hexact _ _).mpr ⟨_, rfl, hlarge⟩
  · rw [int, hexact, hlarge]
    simp [Number.meant?]

end Value

end JsonSchema
