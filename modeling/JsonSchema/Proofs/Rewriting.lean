import JsonSchema.Proofs.Levels
import JsonSchema.Proofs.References

/-!
# Validation of rewritten schemas

A function on schemas that keeps what each node asks for, and that commutes with the following of
references, does not change what a validation finds, but for the form of the types that its violations
tell about. `retold_checkNode` says so for one node whose children are rewritten; the walk follows by
induction on its fuel, and the findings because they do not depend on how much of it there is.
-/

namespace JsonSchema

open Findings

/-! ### References -/

namespace Schema

variable {t : TypeSpec → TypeSpec} {f : Schema → Schema} {root root' : Schema}

theorem Rewriting.ref? (hf : Rewriting t f) (schema : Schema) : (f schema).ref? = schema.ref? := by
  cases schema with
  | always accepted => rw [hf.always]
  | node n =>
    obtain ⟨n', hn', href, -⟩ := hf.node n
    rw [hn']
    exact href

theorem rel_lookup_mapMembers {related : Schema → Schema → Prop}
    (hrelated : ∀ schema, related schema (f schema)) (members : List (String × Schema))
    (name : String) :
    Option.Rel related (members.lookup name) ((mapMembers f members).lookup name) := by
  rw [lookup_mapMembers]
  cases members.lookup name with
  | none => exact .none
  | some schema => exact .some (hrelated schema)

/-- Where one root resolves a reference, the other resolves it to a schema that is walked like the
rewritten target. -/
def Follows (f : Schema → Schema) (root root' : Schema) : Prop :=
  ∀ ref, Option.Rel (fun target target' => ∀ fuel active value,
      walk root' fuel active value target' = walk root' fuel active value (f target))
    (root.resolveReference ref) (root'.resolveReference ref)

/-- References lead to the rewritten definitions. -/
theorem follows_rewritten (hf : Rewriting t f)
    (hdefinitions : (f root).definitions = mapMembers f root.definitions) :
    Follows f root (f root) := by
  intro ref
  have hlength : (f root).definitions.length = root.definitions.length := by
    rw [hdefinitions, mapMembers, List.length_map]
  have hrel : Option.Rel (fun target target' => target' = f target) (root.resolveReference ref)
      ((f root).resolveReference ref) := by
    refine @resolveReference_related _ root (f root) rfl hlength (fun name => ?_) ?_ ref
    · rw [hdefinitions]
      apply rel_lookup_mapMembers
      exact fun _ => rfl
    · rintro schema _ rfl
      exact hf.ref? schema
  generalize root.resolveReference ref = target at hrel ⊢
  generalize (f root).resolveReference ref = target' at hrel ⊢
  cases hrel with
  | none => exact .none
  | some heq => exact .some fun fuel active value => by rw [heq]

/-! ### Walks -/

theorem findings_eq_walk {schema : Schema} {value : Value} {fuel : Nat}
    (hfuel : root.fuel schema value ≤ fuel) :
    root.findings schema value = walk root fuel [] value schema := by
  have hrank := rank_le_fuel root [] value schema
  rw [findings, walk_eq_iterate_step, walk_eq_iterate_step]
  exact Visit.iterate_step_eq_of_rank_le (Visit.fits_root root schema) (Visit.fits_schema root schema)
    hrank (Nat.le_trans hrank hfuel) _ _

theorem retold_walk (hf : Rewriting t f) (hfollows : Follows f root root') (fuel : Nat)
    (active : List String) (value : Value) (schema : Schema) :
    (walk root fuel active value schema).Retold t (walk root' fuel active value (f schema)) := by
  induction fuel generalizing active value schema with
  | zero => exact retold_raise .outOfFuel
  | succ fuel ih =>
    cases schema with
    | always accepted =>
      rw [hf.always]
      cases accepted with
      | true => exact retold_clean
      | false => exact retold_report .falseSchema
    | node n =>
      obtain ⟨n', hn', href', hrewrite⟩ := hf.node n
      rw [hn']
      cases href : n.ref with
      | some ref =>
        rw [walk_reference href, walk_reference (href'.trans href)]
        split_ifs
        · exact retold_clean
        · have htarget := hfollows ref
          generalize root.resolveReference ref = target at htarget ⊢
          generalize root'.resolveReference ref = target' at htarget ⊢
          cases htarget with
          | none => exact retold_clean
          | @some target target' halike =>
            dsimp only [Option.elim]
            rw [halike]
            exact ih (ref :: active) value target
      | none =>
        obtain ⟨keywords, rfl, hkeywords⟩ := hrewrite href
        rw [walk_node href, walk_node (href'.trans href)]
        exact retold_checkNode hf hkeywords (fun schema _ => ih active value schema)
          fun part _ schema _ => ih [] part schema

/-- A validation against rewritten schemas finds the same, told with another form of the types. -/
theorem retold_findings (hf : Rewriting t f) (hfollows : Follows f root root') (schema : Schema)
    (value : Value) :
    (root.findings schema value).Retold t (root'.findings (f schema) value) := by
  rw [findings_eq_walk (Nat.le_max_left _ (root'.fuel (f schema) value)),
    findings_eq_walk (Nat.le_max_right (root.fuel schema value) _)]
  exact retold_walk hf hfollows _ [] value schema

end Schema

end JsonSchema
