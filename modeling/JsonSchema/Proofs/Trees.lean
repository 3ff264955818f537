import JsonSchema.Proofs.Contents
import JsonSchema.Yaml.Reader

/-!
# Trees that are read

The reader that commands are run with gives trees in which no mapping has a name twice
(`Yaml.wellFormed_of_read`), as commands expect of their platform. Its functions are taken one at a time:
what each of them yields follows from what the functions it calls yield, by induction on the fuel.
-/

namespace JsonSchema

namespace Yaml

variable {α β : Type} {reader : Reader α} {next : α → Reader β} {p : α → Prop} {q : β → Prop}

def Yields (reader : Reader α) (p : α → Prop) : Prop :=
  ∀ cursor a after, reader.run cursor = .ok (a, after) → p a

theorem yields_pure {a : α} (h : p a) : Yields (pure a) p := by
  rintro _ _ _ ⟨⟩
  exact h

theorem Yields.bind (h : Yields reader p) (hnext : ∀ a, p a → Yields (next a) q) :
    Yields (reader >>= next) q := by
  intro cursor b after hrun
  rw [StateT.run_bind] at hrun
  obtain ⟨⟨a, middle⟩, hfirst, hsecond⟩ := Except.bind_eq_ok_iff.mp hrun
  exact hnext a (h cursor a middle hfirst) middle b after hsecond

/-- Most steps have results that do not matter. -/
theorem yields_bind (hnext : ∀ a, Yields (next a) q) : Yields (reader >>= next) q :=
  Yields.bind (p := fun _ => True) (fun _ _ _ _ => trivial) fun a _ => hnext a

theorem yields_fail (problem : String) (context : Option (String × Nat)) :
    Yields (fail problem context : Reader α) p :=
  yields_bind fun _ => nofun

/-- Nothing is read behind a failure. -/
theorem yields_fail_bind (problem : String) (context : Option (String × Nat)) :
    Yields ((fail problem context : Reader α) >>= next) q :=
  (yields_fail (p := fun _ => False) problem context).bind fun _ => False.elim

def WellFormed (tree : Yaml) : Prop := tree.toValue.WellFormed

def ItemsWellFormed (items : List Yaml) : Prop := ∀ item ∈ items, item.WellFormed

def MembersWellFormed (members : List (Scalar × Yaml)) : Prop :=
  ∀ member ∈ members, member.2.WellFormed

theorem toValues_eq_map (items : List Yaml) : toValues items = items.map toValue := by
  induction items with
  | nil => rfl
  | cons item rest ih => rw [toValues, ih, List.map_cons]

theorem ItemsWellFormed.sequence {items : List Yaml} (h : ItemsWellFormed items) :
    (sequence items).WellFormed := by
  rw [WellFormed, toValue, toValues_eq_map, Value.wellFormed_array_iff]
  exact List.forall_mem_map.mpr h

theorem toMembers_eq_map (members : List (Scalar × Yaml)) :
    toMembers members = members.map fun member => (member.1.toName, member.2.toValue) := by
  induction members with
  | nil => rfl
  | cons member rest ih => rw [toMembers, ih, List.map_cons]

/-- Members are kept under their names, so the mapping of members has no name twice. -/
theorem MembersWellFormed.ofMembers {members : List (Scalar × Yaml)}
    (h : MembersWellFormed members) : (ofMembers members).WellFormed := by
  let named := members.map fun member => (member.1.toName, member)
  obtain ⟨hdistinct, hmembers⟩ := Members.distinct_ofPairs named
  -- a pair of a name and a member has the name of the member
  have hnamed : ∀ pair ∈ Members.ofPairs named, pair.2 ∈ members ∧ pair.2.1.toName = pair.1 := by
    intro pair hpair
    obtain ⟨member, hmember, rfl⟩ := List.mem_map.mp (hmembers pair hpair)
    exact ⟨hmember, rfl⟩
  have hnames : (Members.ofPairs named).map (fun pair => pair.2.1.toName) =
      Members.names (Members.ofPairs named) :=
    List.map_congr_left fun pair hpair => (hnamed pair hpair).2
  rw [WellFormed, Yaml.ofMembers, toValue, toMembers_eq_map, Value.wellFormed_object_iff, List.map_map]
  refine ⟨?_, List.forall_mem_map.mpr fun pair hpair => h pair.2 (hnamed pair hpair).1⟩
  rw [Members.Distinct, Members.names, List.map_map]
  exact hnames ▸ hdistinct

/-! ### Scalars -/

theorem wellFormed_scalar (content : Scalar) : (scalar content).WellFormed := by
  rw [WellFormed, toValue]
  cases content <;> simp [Scalar.toValue, Value.WellFormed]

theorem yields_scalar (reader : Reader Scalar) : Yields (return .scalar (← reader)) WellFormed :=
  yields_bind fun content => yields_pure (wellFormed_scalar content)

/-! ### Flow collections -/

structure FlowWellFormed (fuel : Nat) : Prop where
  value : Yields (readFlow fuel) WellFormed
  name : Yields (readFlowName fuel) fun named => named.1.WellFormed
  named : Yields (readFlowValue fuel) WellFormed
  items : ∀ context, Yields (readFlowItems fuel context) ItemsWellFormed
  members : ∀ context, Yields (readFlowMembers fuel context) MembersWellFormed

variable {fuel : Nat}

theorem FlowWellFormed.value_succ (ih : FlowWellFormed fuel) :
    Yields (readFlow (fuel + 1)) WellFormed := by
  rw [readFlow]
  refine yields_bind fun start => yields_bind fun first => ?_
  split
  · exact yields_bind fun _ => (ih.items _).bind fun _ h => yields_pure h.sequence
  · exact yields_bind fun _ => (ih.members _).bind fun _ h => yields_pure h.ofMembers
  · exact yields_scalar _
  · exact yields_scalar _
  · split_ifs
    · exact yields_bind fun _ => yields_fail_bind _ _
    · exact yields_scalar _
  · exact yields_fail _ _

theorem FlowWellFormed.name_succ (ih : FlowWellFormed fuel) :
    Yields (readFlowName (fuel + 1)) fun named => named.1.WellFormed := by
  rw [readFlowName]
  refine yields_bind fun _ => ih.value.bind fun tree htree => ?_
  exact yields_bind fun _ => yields_bind fun _ => yields_bind fun _ => yields_pure htree

theorem FlowWellFormed.named_succ (ih : FlowWellFormed fuel) :
    Yields (readFlowValue (fuel + 1)) WellFormed := by
  rw [readFlowValue]
  refine yields_bind fun _ => yields_bind fun _ => yields_bind fun next => ?_
  split
  · exact yields_pure (wellFormed_scalar _)
  · exact yields_pure (wellFormed_scalar _)
  · exact yields_pure (wellFormed_scalar _)
  · exact ih.value

theorem FlowWellFormed.items_succ (ih : FlowWellFormed fuel) (context : Option (String × Nat)) :
    Yields (readFlowItems (fuel + 1) context) ItemsWellFormed := by
  rw [readFlowItems]
  refine yields_bind fun _ => yields_bind fun first => ?_
  split_ifs
  · exact yields_bind fun _ => yields_pure (List.forall_mem_nil _)
  · refine yields_bind fun _ => ih.name.bind ?_
    rintro ⟨tree, isName⟩ htree
    dsimp -zeta only
    extract_lets goOn
    have hgoOn : ∀ item : Yaml, item.WellFormed → Yields (goOn item) ItemsWellFormed := by
      intro item hitem
      refine yields_bind fun _ => yields_bind fun next => ?_
      split
      · exact yields_bind fun _ => (ih.items context).bind fun _ hothers =>
          yields_pure (List.forall_mem_cons.mpr ⟨hitem, hothers⟩)
      · exact yields_bind fun _ => yields_pure (List.forall_mem_singleton.mpr hitem)
      · exact yields_bind fun _ => yields_fail _ _
    split_ifs
    · refine yields_bind fun name => ih.named.bind fun value hvalue => ?_
      have hmapping : MembersWellFormed [(name, value)] := List.forall_mem_singleton.mpr hvalue
      exact (yields_pure hmapping.ofMembers).bind hgoOn
    · exact (yields_pure htree).bind hgoOn

theorem FlowWellFormed.members_succ (ih : FlowWellFormed fuel)
    (context : Option (String × Nat)) :
    Yields (readFlowMembers (fuel + 1) context) MembersWellFormed := by
  rw [readFlowMembers]
  refine yields_bind fun _ => yields_bind fun first => ?_
  split_ifs
  · exact yields_bind fun _ => yields_pure (List.forall_mem_nil _)
  · refine yields_bind fun _ => yields_bind ?_
    rintro ⟨tree, isName⟩
    refine yields_bind fun name => ?_
    extract_lets goOn
    have hgoOn : ∀ value : Yaml, value.WellFormed → Yields (goOn value) MembersWellFormed := by
      intro value hvalue
      refine yields_bind fun _ => yields_bind fun next => ?_
      split
      · exact yields_bind fun _ => (ih.members context).bind fun _ hothers =>
          yields_pure (List.forall_mem_cons.mpr ⟨hvalue, hothers⟩)
      · exact yields_bind fun _ => yields_pure (List.forall_mem_singleton.mpr hvalue)
      · exact yields_bind fun _ => yields_fail _ _
    split_ifs
    · exact ih.named.bind hgoOn
    · exact (yields_pure (wellFormed_scalar _)).bind hgoOn

theorem flowWellFormed (fuel : Nat) : FlowWellFormed fuel := by
  induction fuel with
  | zero =>
    exact ⟨yields_fail _ _, yields_fail _ _, yields_fail _ _, fun _ => yields_fail _ _,
      fun _ => yields_fail _ _⟩
  | succ fuel ih =>
    exact ⟨ih.value_succ, ih.name_succ, ih.named_succ, ih.items_succ, ih.members_succ⟩

/-! ### Block collections -/

theorem yields_readInline (least : Nat) : Yields (readInline least) WellFormed := by
  unfold readInline
  refine yields_bind fun start => yields_bind fun first => ?_
  split
  · exact (flowWellFormed _).value
  · exact (flowWellFormed _).value
  · exact yields_scalar _
  · exact yields_scalar _
  · exact yields_scalar _

theorem yields_failBeyond (context : Option (String × Nat)) :
    Yields (failBeyond context : Reader α) p := by
  unfold failBeyond
  refine yields_bind fun _ => ?_
  split_ifs
  · exact yields_bind fun _ => yields_fail _ _
  · refine yields_bind fun _ => ?_
    split_ifs <;> exact yields_bind fun _ => yields_fail _ _

structure BlockWellFormed (fuel : Nat) : Prop where
  value : ∀ least isFirstOnLine, Yields (readBlock fuel least isFirstOnLine) WellFormed
  entries : ∀ column context, Yields (readEntries fuel column context) ItemsWellFormed
  members : ∀ column context, Yields (readMembers fuel column context) MembersWellFormed

theorem BlockWellFormed.value_succ (ih : BlockWellFormed fuel) (least : Nat)
    (isFirstOnLine : Bool) : Yields (readBlock (fuel + 1) least isFirstOnLine) WellFormed := by
  rw [readBlock]
  refine yields_bind fun _ => yields_bind fun first => ?_
  split
  · exact yields_pure (wellFormed_scalar _)
  refine yields_bind fun _ => yields_bind fun isEntry => ?_
  split
  · split
    · exact yields_fail_bind _ _
    refine (ih.entries _ _).bind fun items hitems => yields_bind fun _ => yields_bind fun _ => ?_
    split
    · exact yields_fail_bind _ _
    · exact yields_pure hitems.sequence
  refine yields_bind fun isName => ?_
  split
  · split
    · exact yields_bind fun _ => yields_bind fun _ => yields_fail_bind _ _
    · exact (ih.members _ _).bind fun _ hmembers => yields_pure hmembers.ofMembers
  · exact yields_readInline _

theorem BlockWellFormed.entries_succ (ih : BlockWellFormed fuel) (column : Nat)
    (context : Option (String × Nat)) :
    Yields (readEntries (fuel + 1) column context) ItemsWellFormed := by
  rw [readEntries]
  refine yields_bind fun _ => yields_bind fun _ => yields_bind fun _ => ?_
  refine (ih.value _ _).bind fun item hitem => ?_
  have hlast : ItemsWellFormed [item] := List.forall_mem_singleton.mpr hitem
  refine yields_bind fun _ => yields_bind fun _ => yields_bind fun _ => ?_
  split
  · exact yields_pure hlast
  split
  · refine yields_bind fun _ => ?_
    split
    · exact (ih.entries _ _).bind fun _ hothers =>
        yields_pure (List.forall_mem_cons.mpr ⟨hitem, hothers⟩)
    · exact yields_pure hlast
  · exact yields_failBeyond _

theorem BlockWellFormed.members_succ (ih : BlockWellFormed fuel) (column : Nat)
    (context : Option (String × Nat)) :
    Yields (readMembers (fuel + 1) column context) MembersWellFormed := by
  rw [readMembers]
  refine yields_bind fun name => yields_bind fun _ => yields_bind fun _ => yields_bind fun _ => ?_
  extract_lets isEntry goOn
  have hgoOn : ∀ value : Yaml, value.WellFormed → Yields (goOn value) MembersWellFormed := by
    intro value hvalue
    refine yields_bind fun _ => yields_bind fun _ => yields_bind fun _ => ?_
    split
    · exact yields_pure (List.forall_mem_singleton.mpr hvalue)
    split
    · refine yields_bind fun _ => ?_
      split
      · exact yields_fail_bind _ _
      · exact (ih.members _ _).bind fun _ hothers =>
          yields_pure (List.forall_mem_cons.mpr ⟨hvalue, hothers⟩)
    · exact yields_failBeyond _
  split
  · exact yields_bind fun _ => (ih.entries _ _).bind fun _ hitems =>
      (yields_pure hitems.sequence).bind hgoOn
  · exact (ih.value _ _).bind hgoOn

theorem blockWellFormed (fuel : Nat) : BlockWellFormed fuel := by
  induction fuel with
  | zero =>
    exact ⟨fun _ _ => yields_fail _ _, fun _ _ => yields_fail _ _, fun _ _ => yields_fail _ _⟩
  | succ fuel ih => exact ⟨ih.value_succ, ih.entries_succ, ih.members_succ⟩

theorem yields_readDocument : Yields readDocument WellFormed := by
  unfold readDocument
  refine yields_bind fun _ => yields_bind fun _ => yields_bind fun _ => ?_
  refine ((blockWellFormed _).value _ _).bind fun tree htree => ?_
  refine yields_bind fun _ => yields_bind fun _ => ?_
  split
  · exact yields_bind fun _ => yields_fail_bind _ _
  · exact yields_pure htree

theorem wellFormed_of_read {text : String} {tree : Yaml} (h : read text = .ok tree) :
    tree.WellFormed := by
  unfold read at h
  split at h
  · cases h
  · dsimp only at h
    split at h
    · rename_i hrun
      cases h
      exact yields_readDocument _ _ _ hrun
    · cases h

theorem readYaml_of_read {text : String} {tree : Yaml} (h : read text = .ok tree) :
    Platform.readYaml text = .ok tree := by
  rw [Platform.readYaml, instPlatform]
  exact Except.mapError_eq_ok_iff.mpr h

theorem isPlain_of_read {text : String} {tree : Yaml} (h : read text = .ok tree)
    (hkinds : tree.hasPlainKinds) : tree.IsPlain :=
  ⟨hkinds, wellFormed_of_read h⟩

end Yaml

end JsonSchema
