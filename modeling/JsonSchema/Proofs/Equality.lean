import JsonSchema.Proofs.Visits
import Mathlib.Data.List.Perm.Subperm

/-!
# Equality of values

JSON equality is transitive, and symmetric on values in which no object has a name twice. Equal numbers
have the same place on the number line; equal arrays have equal items at each index and equal objects
equal members under each name.
-/

namespace JsonSchema

/-! ### Numbers -/

namespace Number

variable {a a' b b' : Number}

theorem equal_iff : a.equal b ↔ ∃ place, a.rank = some place ∧ b.rank = some place := by
  unfold equal
  split
  · rename_i x y hx hy
    simp [hx, hy, eq_comm]
  · rename_i hnone
    simp only [Bool.false_eq_true, false_iff, not_exists, not_and]
    intro place ha hb
    exact hnone place place ha hb

theorem rank_eq_of_equal (h : a.equal b) : a.rank = b.rank := by
  obtain ⟨place, ha, hb⟩ := equal_iff.mp h
  rw [ha, hb]

theorem equal_congr (ha : a.rank = a'.rank) (hb : b.rank = b'.rank) :
    a.equal b = a'.equal b' := by
  simp only [equal, ha, hb]

theorem lt_congr (ha : a.rank = a'.rank) (hb : b.rank = b'.rank) : a.lt b = a'.lt b' := by
  simp only [lt, ha, hb]

theorem le_congr (ha : a.rank = a'.rank) (hb : b.rank = b'.rank) : a.le b = a'.le b' := by
  rw [le, le, lt_congr ha hb, equal_congr ha hb]

theorem lt_of_rank_eq (h : a.rank = b.rank) : a.lt b = false := by
  unfold lt
  rw [h]
  cases b.rank with
  | none => rfl
  | some place => simp [Rank.lt]

/-- The integral numbers stand at the whole multiples of one. -/
theorem isIntegral_iff :
    a.isIntegral ↔ ∃ units, a.rank = some ⟨0, units⟩ ∧ units % Binary64.one = 0 := by
  have hwhole (units : Int) :
      (if units % Binary64.one = 0 then some (units / Binary64.one) else none).isSome ↔
        ∃ units', some (⟨0, units⟩ : Rank) = some ⟨0, units'⟩ ∧ units' % Binary64.one = 0 := by
    split_ifs with hunits
    · exact iff_of_true rfl ⟨units, rfl, hunits⟩
    · refine iff_of_false Bool.false_ne_true ?_
      rintro ⟨units', hplace, hzero⟩
      cases hplace
      exact hunits hzero
  have hnowhere {place : Option Rank} (h : ∀ units, place ≠ some ⟨0, units⟩) :
      false = true ↔ ∃ units, place = some ⟨0, units⟩ ∧ units % Binary64.one = 0 :=
    iff_of_false Bool.false_ne_true fun ⟨units, hplace, _⟩ => h units hplace
  match a with
  | .int value => exact iff_of_true rfl ⟨value * Binary64.one, rfl, Int.mul_emod_left _ _⟩
  | .float .nan => exact hnowhere fun units h => by cases h
  | .float (.infinite true) => exact hnowhere fun units h => by cases h
  | .float (.infinite false) => exact hnowhere fun units h => by cases h
  | .float (.finite true units _) => exact hwhole (-units)
  | .float (.finite false units _) => exact hwhole units

theorem isIntegral_congr (h : a.rank = b.rank) : a.isIntegral = b.isIntegral := by
  rw [Bool.eq_iff_iff, isIntegral_iff, isIntegral_iff, h]

end Number

/-! ### Arrays and objects -/

namespace Value

theorem induction {motive : Value → Prop} (null : motive .null) (bool : ∀ b, motive (.bool b))
    (number : ∀ n, motive (.number n)) (string : ∀ text, motive (.string text))
    (array : ∀ items, (∀ item ∈ items, motive item) → motive (.array items))
    (object : ∀ members, (∀ member ∈ members, motive member.2) → motive (.object members))
    (value : Value) : motive value := by
  induction hd : value.depth using Nat.strongRecOn generalizing value with
  | ind d ih =>
    have hpart : ∀ part ∈ value.parts, motive part := fun part hpart =>
      ih part.depth (hd ▸ depth_lt_of_mem_parts hpart) part rfl
    cases value with
    | null => exact null
    | bool b => exact bool b
    | number n => exact number n
    | string text => exact string text
    | array items => exact array items hpart
    | object members =>
      exact object members fun member hmem =>
        hpart member.2 (List.mem_append_left _ (List.mem_map_of_mem hmem))

theorem wellFormed_array_iff {items : List Value} :
    (Value.array items).WellFormed ↔ ∀ item ∈ items, item.WellFormed := by
  rw [WellFormed]
  induction items with
  | nil => simp [WellFormedItems]
  | cons item rest ih => rw [WellFormedItems, ih, List.forall_mem_cons]

theorem wellFormed_object_iff {members : List (String × Value)} :
    (Value.object members).WellFormed ↔
      Members.Distinct members ∧ ∀ member ∈ members, member.2.WellFormed := by
  have hmembers : WellFormedMembers members ↔ ∀ member ∈ members, member.2.WellFormed := by
    induction members with
    | nil => simp [WellFormedMembers]
    | cons member rest ih => rw [WellFormedMembers, ih, List.forall_mem_cons]
  rw [WellFormed, hmembers]

theorem WellFormed.of_mem_parts {part value : Value} (h : value.WellFormed)
    (hpart : part ∈ value.parts) : part.WellFormed := by
  cases value with
  | array items => exact wellFormed_array_iff.mp h part hpart
  | object members =>
    rcases List.mem_append.mp hpart with hvalue | hname
    · obtain ⟨member, hmem, rfl⟩ := List.mem_map.mp hvalue
      exact (wellFormed_object_iff.mp h).2 member hmem
    · obtain ⟨member, -, rfl⟩ := List.mem_map.mp hname
      trivial
  | null => cases hpart
  | bool b => cases hpart
  | number n => cases hpart
  | string text => cases hpart

/-- Equal arrays have equal items at each index. -/
theorem equal_array_iff {as bs : List Value} :
    (Value.array as).equal (.array bs) ↔ as.length = bs.length ∧
      ∀ (index : Nat) (a b : Value), as[index]? = some a → bs[index]? = some b → a.equal b := by
  rw [equal]
  induction as generalizing bs with
  | nil => cases bs <;> simp [equalItems]
  | cons first as ih =>
    cases bs with
    | nil => simp [equalItems]
    | cons second bs =>
      rw [equalItems, Bool.and_eq_true, ih, List.length_cons, List.length_cons, Nat.add_right_cancel_iff]
      constructor
      · rintro ⟨hfirst, hlength, hrest⟩
        refine ⟨hlength, fun index a b ha hb => ?_⟩
        cases index with
        | zero =>
          cases ha
          cases hb
          exact hfirst
        | succ index => exact hrest index a b ha hb
      · rintro ⟨hlength, hall⟩
        exact ⟨hall 0 first second rfl rfl, hlength, fun index a b ha hb =>
          hall (index + 1) a b ha hb⟩

/-- Equal objects have equally many members, and equal ones under each name. -/
theorem equal_object_iff {as bs : List (String × Value)} :
    (Value.object as).equal (.object bs) ↔ as.length = bs.length ∧
      ∀ member ∈ as, ∃ value, bs.lookup member.1 = some value ∧ member.2.equal value := by
  have hmembers : equalMembers as bs ↔
      ∀ member ∈ as, ∃ value, bs.lookup member.1 = some value ∧ member.2.equal value := by
    induction as with
    | nil => simp [equalMembers]
    | cons member rest ih =>
      rw [equalMembers, Bool.and_eq_true, ih, List.forall_mem_cons]
      apply and_congr_left'
      cases bs.lookup member.1 <;> simp
  rw [equal, Bool.and_eq_true, hmembers, decide_eq_true_eq]

/-! ### Symmetry and transitivity -/

/-- Names that occur in one of two equal objects occur in the other. -/
theorem perm_names_of_equal {as bs : List (String × Value)} (has : Members.Distinct as)
    (h : (Value.object as).equal (.object bs)) :
    (Members.names as).Perm (Members.names bs) := by
  obtain ⟨hlength, hmembers⟩ := equal_object_iff.mp h
  have hsubset : Members.names as ⊆ Members.names bs := by
    intro name hname
    obtain ⟨member, hmem, rfl⟩ := List.mem_map.mp hname
    obtain ⟨value, hvalue, -⟩ := hmembers member hmem
    exact List.mem_map.mpr ⟨_, Members.mem_of_lookup hvalue, rfl⟩
  refine (List.subperm_of_subset has hsubset).perm_of_length_le ?_
  simp only [Members.names, List.length_map]
  omega

theorem equal_symm {a b : Value} (ha : a.WellFormed) (h : a.equal b) : b.equal a := by
  induction a using Value.induction generalizing b with
  | null => cases b <;> simp_all [equal]
  | bool x => cases b <;> simp_all [equal]
  | string text => cases b <;> simp_all [equal]
  | number n =>
    cases b with
    | number m =>
      rw [equal] at h ⊢
      rw [Number.equal_congr (Number.rank_eq_of_equal h).symm (Number.rank_eq_of_equal h)]
      exact h
    | _ => simp [equal] at h
  | array as ih =>
    cases b with
    | array bs =>
      obtain ⟨hlength, hitems⟩ := equal_array_iff.mp h
      refine equal_array_iff.mpr ⟨hlength.symm, fun index b a hb ha' => ?_⟩
      have hmem := List.mem_of_getElem? ha'
      exact ih a hmem (wellFormed_array_iff.mp ha a hmem) (hitems index a b ha' hb)
    | _ => simp [equal] at h
  | object as ih =>
    cases b with
    | object bs =>
      obtain ⟨hlength, hmembers⟩ := equal_object_iff.mp h
      obtain ⟨hdistinct, hwell⟩ := wellFormed_object_iff.mp ha
      have hperm := perm_names_of_equal hdistinct h
      refine equal_object_iff.mpr ⟨hlength.symm, ?_⟩
      rintro ⟨name, b⟩ hb
      have hname := hperm.mem_iff.mpr (List.mem_map_of_mem (f := Prod.fst) hb)
      obtain ⟨⟨_, a⟩, hmem, rfl⟩ := List.mem_map.mp hname
      obtain ⟨b', hb', hequal⟩ := hmembers _ hmem
      have hthere := Members.lookup_of_mem (hperm.nodup hdistinct) hb
      have heq : b' = b := Option.some.inj (hb'.symm.trans hthere)
      subst heq
      exact ⟨a, Members.lookup_of_mem hdistinct hmem, ih _ hmem (hwell _ hmem) hequal⟩
    | _ => simp [equal] at h

theorem equal_trans {a b c : Value} (hab : a.equal b) (hbc : b.equal c) : a.equal c := by
  induction a using Value.induction generalizing b c with
  | null =>
    cases b with
    | null => exact hbc
    | _ => simp [equal] at hab
  | bool x =>
    cases b with
    | bool y =>
      have heq : x = y := by simpa [equal] using hab
      exact heq ▸ hbc
    | _ => simp [equal] at hab
  | string text =>
    cases b with
    | string other =>
      have heq : text = other := by simpa [equal] using hab
      exact heq ▸ hbc
    | _ => simp [equal] at hab
  | number n =>
    cases b with
    | number m =>
      cases c with
      | number k =>
        rw [equal] at hab hbc ⊢
        rw [Number.equal_congr (Number.rank_eq_of_equal hab) rfl]
        exact hbc
      | _ => simp [equal] at hbc
    | _ => simp [equal] at hab
  | array as ih =>
    cases b with
    | array bs =>
      cases c with
      | array cs =>
        obtain ⟨hlength, hitems⟩ := equal_array_iff.mp hab
        obtain ⟨hlength', hitems'⟩ := equal_array_iff.mp hbc
        refine equal_array_iff.mpr ⟨hlength.trans hlength', fun index a c ha hc => ?_⟩
        obtain ⟨b, hb⟩ : ∃ b, bs[index]? = some b := by
          obtain ⟨hlt, -⟩ := List.getElem?_eq_some_iff.mp ha
          exact ⟨bs[index], List.getElem?_eq_getElem (by omega)⟩
        exact ih a (List.mem_of_getElem? ha) (hitems index a b ha hb) (hitems' index b c hb hc)
      | _ => simp [equal] at hbc
    | _ => simp [equal] at hab
  | object as ih =>
    cases b with
    | object bs =>
      cases c with
      | object cs =>
        obtain ⟨hlength, hmembers⟩ := equal_object_iff.mp hab
        obtain ⟨hlength', hmembers'⟩ := equal_object_iff.mp hbc
        refine equal_object_iff.mpr ⟨hlength.trans hlength', fun member hmem => ?_⟩
        obtain ⟨b, hb, hequal⟩ := hmembers member hmem
        obtain ⟨c, hc, hequal'⟩ := hmembers' _ (Members.mem_of_lookup hb)
        exact ⟨c, hc, ih member hmem hequal hequal'⟩
      | _ => simp [equal] at hbc
    | _ => simp [equal] at hab

theorem ofValue_eq_of_equal {a b : Value} (h : a.equal b) :
    Primitive.ofValue a = Primitive.ofValue b := by
  cases a <;> cases b <;> simp_all [equal, Primitive.ofValue]
  rename_i n m
  rw [Number.isIntegral_congr (Number.rank_eq_of_equal h)]

end Value

end JsonSchema
