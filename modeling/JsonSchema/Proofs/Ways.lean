import JsonSchema.Proofs.Descent
import JsonSchema.Proofs.Frame

/-!
# Reading and writing follow the same schemas

The node at a pointer is looked up with references resolved after each step, and the search is given up
where they lead nowhere. A write hands on the schema of a member as it stands, be it a reference or a
boolean. Both come by the same schemas: the search succeeds if all of those on the way have nodes that
are no references, and its result is the node of the last (`nodeAt_along`).
-/

namespace JsonSchema.Schema

variable {root schema : Schema} {n : Node Schema} {segments : List String}

/-- A schema has a node, or refers to one, that is no reference any more. -/
def Settles (root schema : Schema) : Prop :=
  ∃ n, root.resolvedNode? schema = some n ∧ n.ref = none

theorem settles_iff : root.Settles schema ↔ ∃ n, settled? (root.resolvedNode? schema) = some n := by
  simp only [Settles, settled?_eq_some_iff]

/-- By induction on the segments. A step down from a schema that settles is one from its node. -/
theorem descend_eq_some_iff :
    root.descend (root.resolvedNode? schema) segments = some n ↔
      (∀ shared, shared <+: segments → root.Settles (root.along schema shared)) ∧
        root.resolvedNode? (root.along schema segments) = some n := by
  induction segments generalizing schema with
  | nil =>
    rw [descend, settled?_eq_some_iff]
    constructor
    · rintro ⟨hnode, href⟩
      refine ⟨fun shared hshared => ?_, hnode⟩
      rw [List.prefix_nil.mp hshared]
      exact ⟨n, hnode, href⟩
    · rintro ⟨hsettles, hnode⟩
      obtain ⟨m, hm, href⟩ := hsettles [] (List.nil_prefix)
      obtain rfl := Option.some.inj (hm.symm.trans hnode)
      exact ⟨hnode, href⟩
  | cons segment rest ih =>
    by_cases hsettles : root.Settles schema
    · obtain ⟨m, hm, href⟩ := hsettles
      have hsettled := settled?_eq_some_iff.mpr ⟨hm, href⟩
      have hstep : root.property segment schema = root.property segment (.node m) :=
        property_of_resolvedNode? hm href
      rw [descend, hsettled]
      dsimp only
      rw [← hstep, ih]
      refine and_congr_left' ⟨fun hrest shared hshared => ?_, fun hall shared hshared => ?_⟩
      · rcases List.prefix_cons_iff.mp hshared with rfl | ⟨after, rfl, hafter⟩
        · exact ⟨m, hm, href⟩
        · exact hrest after hafter
      · exact hall (segment :: shared) ((List.prefix_cons_inj segment).mpr hshared)
    · have hnone : settled? (root.resolvedNode? schema) = none := by
        rw [Option.eq_none_iff_forall_ne_some]
        exact fun m hm => hsettles (settles_iff.mpr ⟨m, hm⟩)
      rw [descend, hnone]
      refine iff_of_false (fun h => ?_) fun hboth => hsettles (hboth.1 [] List.nil_prefix)
      cases h

/-- The node at a pointer is that of the schema which a write through the pointer comes to, handing on
the schemas of members without resolving references in between; and the node is found exactly if the
schemas of all places on the way settle. -/
theorem nodeAt_along (root : Schema) (pointer : String) :
    (∀ n, root.nodeAt pointer = some n ↔ ∃ segments, Pointer.parse pointer = .ok segments ∧
      (∀ shared, shared <+: segments → root.Settles (root.along root shared)) ∧
        root.resolvedNode? (root.along root segments) = some n) ∧
    ∀ shared rest new current result, Pointer.parse pointer = .ok (shared ++ rest) →
      root.setAt pointer new current = .ok result →
        ∃ part, result.at? shared = some part ∧
          setBelow root new (root.along root shared) (current.bind (·.at? shared)) rest =
            .ok part := by
  constructor
  · intro n
    unfold nodeAt
    cases hparse : Pointer.parse pointer with
    | error cause => exact iff_of_false nofun fun ⟨_, hok, _⟩ => by cases hok
    | ok segments =>
      dsimp only
      rw [descend_eq_some_iff]
      constructor
      · exact fun h => ⟨segments, rfl, h⟩
      · rintro ⟨_, hok, h⟩
        cases hok
        exact h
  · intro shared rest new current result hparse hset
    rw [setAt_of_parse hparse] at hset
    exact exists_setBelow_along hset

/-- The entries of a directory are references to a reference to the root. A write into one of them
starts from the first reference, whose node is the root. -/
theorem nodeAt_along_directory :
    directory.along directory ["entries", "0"] = .node { ref := some "#/definitions/entry" } ∧
    directory.nodeAt "#/entries/0" = directory.toNode? ∧
    directory.resolvedNode? (.node { ref := some "#/definitions/entry" }) = directory.toNode? ∧
    ∃ result part, directory.setAt "#/entries/0/marks/2" (.int 8) (some directoryTree) = .ok result ∧
      result.at? ["entries", "0"] = some part ∧
      setBelow directory (.int 8) (.node { ref := some "#/definitions/entry" })
        (directoryTree.at? ["entries", "0"]) ["marks", "2"] = .ok part := by
  have halong : directory.along directory ["entries", "0"] =
      .node { ref := some "#/definitions/entry" } := by rfl
  have hnode : directory.nodeAt "#/entries/0" = directory.toNode? := by rfl
  have hparse : Pointer.parse "#/entries/0/marks/2" =
      .ok (["entries", "0"] ++ ["marks", "2"]) := by rfl
  obtain ⟨result, hset⟩ : ∃ result,
      directory.setAt "#/entries/0/marks/2" (.int 8) (some directoryTree) = .ok result := ⟨_, rfl⟩
  obtain ⟨segments, hsegments, -, hresolved⟩ :=
    ((nodeAt_along directory "#/entries/0").1 _).mp hnode
  obtain ⟨part, hpart, hbelow⟩ :=
    (nodeAt_along directory "#/entries/0/marks/2").2 _ _ _ _ _ hparse hset
  have heq : segments = ["entries", "0"] := Except.ok.inj (hsegments.symm.trans rfl)
  rw [heq, halong] at hresolved
  exact ⟨halong, hnode, hresolved, result, part, hset, hpart, halong ▸ hbelow⟩

end JsonSchema.Schema
