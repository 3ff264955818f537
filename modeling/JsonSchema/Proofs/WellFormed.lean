import JsonSchema.Editing
import JsonSchema.Json.Reader
import JsonSchema.Proofs.Equality
import JsonSchema.Proofs.Lens
import JsonSchema.Proofs.Selection

/-!
# Values that are read are well-formed

No object that is read from a JSON text has a name twice, as its members go through
`Members.ofPairs` (`Json.wellFormed_of_read`), and storing a value in another keeps this
(`Schema.wellFormed_setAt`). The functions of the reader are taken together, by induction on the fuel.
-/

namespace JsonSchema

namespace Members

variable {α : Type} {name : String} {value : α} {member : String × α}
  {members : List (String × α)}

theorem Distinct.insert (h : Distinct members) (name : String) (value : α) :
    Distinct (insert name value members) := by
  rw [Distinct, names_insert]
  split_ifs with hhas
  · exact h
  · rw [has_iff_mem_names] at hhas
    exact List.nodup_append.mpr ⟨h, List.pairwise_singleton _ name, by
      rintro other hother _ hname rfl
      exact hhas (List.mem_singleton.mp hname ▸ hother)⟩

theorem eq_or_mem_of_mem_insert (h : member ∈ insert name value members) :
    member = (name, value) ∨ member ∈ members := by
  induction members with
  | nil => exact .inl (List.mem_singleton.mp h)
  | cons first rest ih =>
    rw [insert] at h
    split_ifs at h
    · exact (List.mem_cons.mp h).imp_right (List.mem_cons_of_mem first)
    · rcases List.mem_cons.mp h with rfl | hrest
      · exact .inr List.mem_cons_self
      · exact (ih hrest).imp_right (List.mem_cons_of_mem _)

/-- Whatever pairs an object is built of, it has no name twice and no other members. -/
theorem distinct_ofPairs (pairs : List (String × α)) :
    Distinct (ofPairs pairs) ∧ ∀ member ∈ ofPairs pairs, member ∈ pairs := by
  induction pairs using List.reverseRecOn with
  | nil => exact ⟨List.nodup_nil, nofun⟩
  | append_singleton pairs last ih =>
    rw [ofPairs_concat]
    refine ⟨ih.1.insert _ _, fun member hmember => ?_⟩
    rcases eq_or_mem_of_mem_insert hmember with rfl | hearlier
    · exact List.mem_append_right _ List.mem_cons_self
    · exact List.mem_append_left _ (ih.2 member hearlier)

end Members

namespace Value

variable {members : List (String × Value)}

theorem wellFormed_object_ofPairs (h : ∀ member ∈ members, member.2.WellFormed) :
    (Value.object (Members.ofPairs members)).WellFormed := by
  obtain ⟨hdistinct, hmembers⟩ := Members.distinct_ofPairs members
  exact wellFormed_object_iff.mpr ⟨hdistinct, fun member hmember => h member (hmembers member hmember)⟩

theorem wellFormed_object_insert {name : String} {value : Value}
    (h : (Value.object members).WellFormed) (hvalue : value.WellFormed) :
    (Value.object (Members.insert name value members)).WellFormed := by
  rw [wellFormed_object_iff] at h ⊢
  refine ⟨h.1.insert name value, fun member hmember => ?_⟩
  rcases Members.eq_or_mem_of_mem_insert hmember with rfl | hearlier
  · exact hvalue
  · exact h.2 member hearlier

theorem wellFormed_array_setItem {items : List Value} {index : Nat} {item : Value}
    (h : (Value.array items).WellFormed) (hitem : item.WellFormed) :
    (Value.array (setItem items index item)).WellFormed := by
  rw [wellFormed_array_iff] at h ⊢
  intro other hother
  rw [setItem] at hother
  split_ifs at hother
  · rcases List.mem_or_eq_of_mem_set hother with hearlier | rfl
    · exact h other hearlier
    · exact hitem
  · rcases List.mem_append.mp hother with hearlier | hlast
    · exact h other hearlier
    · rwa [List.mem_singleton.mp hlast]

end Value

/-! ### JSON -/

namespace Json

variable {fuel : Nat}

structure ReadsWellFormed (fuel : Nat) : Prop where
  value : ∀ {chars value rest}, readValue fuel chars = .ok (value, rest) → value.WellFormed
  items : ∀ {chars items rest}, readItems fuel chars = .ok (items, rest) →
    ∀ item ∈ items, item.WellFormed
  members : ∀ {chars members rest}, readMembers fuel chars = .ok (members, rest) →
    ∀ member ∈ members, member.2.WellFormed

theorem ReadsWellFormed.value_succ (ih : ReadsWellFormed fuel) {chars rest : List Char}
    {value : Value} (h : readValue (fuel + 1) chars = .ok (value, rest)) : value.WellFormed := by
  unfold readValue at h
  split at h
  · obtain ⟨⟨text, after⟩, -, hvalue⟩ := Except.bind_eq_ok_iff.mp h
    cases hvalue
    trivial
  · split at h
    · cases h
      trivial
    · obtain ⟨⟨items, after⟩, hitems, hvalue⟩ := Except.bind_eq_ok_iff.mp h
      cases hvalue
      exact Value.wellFormed_array_iff.mpr (ih.items hitems)
  · split at h
    · cases h
      exact Value.wellFormed_object_iff.mpr ⟨List.nodup_nil, nofun⟩
    · obtain ⟨⟨members, after⟩, hmembers, hvalue⟩ := Except.bind_eq_ok_iff.mp h
      cases hvalue
      exact Value.wellFormed_object_ofPairs (ih.members hmembers)
  · cases h
    trivial
  · cases h
    trivial
  · cases h
    trivial
  · cases h
    trivial
  · cases h
    trivial
  · cases h
    trivial
  · obtain ⟨⟨n, after⟩, -, hvalue⟩ := Except.bind_eq_ok_iff.mp h
    cases hvalue
    trivial

theorem ReadsWellFormed.items_succ (ih : ReadsWellFormed fuel) {chars rest : List Char}
    {items : List Value} (h : readItems (fuel + 1) chars = .ok (items, rest)) :
    ∀ item ∈ items, item.WellFormed := by
  obtain ⟨⟨item, after⟩, hitem, hnext⟩ := Except.bind_eq_ok_iff.mp h
  dsimp only at hnext
  split at hnext
  · cases hnext
    exact List.forall_mem_singleton.mpr (ih.value hitem)
  · obtain ⟨⟨others, last⟩, hothers, hitems⟩ := Except.bind_eq_ok_iff.mp hnext
    cases hitems
    exact List.forall_mem_cons.mpr ⟨ih.value hitem, ih.items hothers⟩
  · cases hnext

theorem ReadsWellFormed.members_succ (ih : ReadsWellFormed fuel) {chars rest : List Char}
    {members : List (String × Value)} (h : readMembers (fuel + 1) chars = .ok (members, rest)) :
    ∀ member ∈ members, member.2.WellFormed := by
  unfold readMembers at h
  split at h
  · obtain ⟨⟨name, after⟩, -, hcolon⟩ := Except.bind_eq_ok_iff.mp h
    dsimp only at hcolon
    split at hcolon
    · obtain ⟨⟨value, behind⟩, hvalue, hnext⟩ := Except.bind_eq_ok_iff.mp hcolon
      dsimp only at hnext
      split at hnext
      · cases hnext
        exact List.forall_mem_singleton.mpr (ih.value hvalue)
      · obtain ⟨⟨others, last⟩, hothers, hmembers⟩ := Except.bind_eq_ok_iff.mp hnext
        cases hmembers
        exact List.forall_mem_cons.mpr ⟨ih.value hvalue, ih.members hothers⟩
      · cases hnext
    · cases hcolon
  · cases h

theorem readsWellFormed (fuel : Nat) : ReadsWellFormed fuel := by
  induction fuel with
  | zero => exact ⟨nofun, nofun, nofun⟩
  | succ fuel ih => exact ⟨ih.value_succ, ih.items_succ, ih.members_succ⟩

theorem wellFormed_of_read {text : String} {value : Value} (h : read text = .ok value) :
    value.WellFormed := by
  have hwhole := Except.mapError_eq_ok_iff.mp h
  unfold readWholeText at hwhole
  split at hwhole
  · cases hwhole
  · obtain ⟨⟨value, rest⟩, hvalue, hend⟩ := Except.bind_eq_ok_iff.mp hwhole
    dsimp only at hend
    split at hend
    · cases hend
      exact (readsWellFormed _).value hvalue
    · cases hend

end Json

/-! ### Changed values -/

namespace Schema

variable {root schema : Schema} {new result : Value} {current : Option Value}

/-- A container to write into is a part that is there, or empty. -/
theorem wellFormed_ofValue (root schema : Schema) (hcurrent : ∀ value ∈ current, value.WellFormed) :
    match Container.ofValue root schema current with
    | .array items => (Value.array items).WellFormed
    | .object members => (Value.object members).WellFormed := by
  fun_cases Container.ofValue root schema current with
  | case1 items => exact hcurrent _ rfl
  | case2 members => exact hcurrent _ rfl
  | case3 => trivial
  | case4 => exact Value.wellFormed_object_iff.mpr ⟨List.nodup_nil, nofun⟩

/-- By induction on the segments. -/
theorem wellFormed_setBelow {segments : List String} (hnew : new.WellFormed)
    (hcurrent : ∀ value ∈ current, value.WellFormed)
    (h : setBelow root new schema current segments = .ok result) : result.WellFormed := by
  induction segments generalizing schema current result with
  | nil =>
    cases h
    exact hnew
  | cons segment rest ih =>
    have hthere := wellFormed_ofValue root schema hcurrent
    rcases setBelow_cons_eq_ok_iff.mp h with
      ⟨items, index, item, hcontainer, -, -, hitem, rfl⟩ | ⟨members, value, hcontainer, hvalue, rfl⟩
    · rw [hcontainer] at hthere
      have hitems := Value.wellFormed_array_iff.mp hthere
      exact Value.wellFormed_array_setItem hthere
        (ih (fun old hold => hitems old (List.mem_of_getElem? hold)) hitem)
    · rw [hcontainer] at hthere
      have hmembers := (Value.wellFormed_object_iff.mp hthere).2
      exact Value.wellFormed_object_insert hthere
        (ih (fun old hold => hmembers _ (Members.mem_of_lookup hold)) hvalue)

/-- A value stays well-formed when one is stored in it. -/
theorem wellFormed_setAt {pointer : String} (hnew : new.WellFormed)
    (hcurrent : ∀ value ∈ current, value.WellFormed)
    (h : schema.setAt pointer new current = .ok result) : result.WellFormed := by
  unfold setAt at h
  split at h
  · cases h
  · exact wellFormed_setBelow hnew hcurrent h

end Schema

end JsonSchema
