import JsonSchema.Members
import JsonSchema.Proofs.Outcomes
import Mathlib.Data.List.Perm.Basic
import Mathlib.Tactic.Common

/-!
# Lists that match up to their order

Two lists match if the elements of the first are related, one by one, to those of the second in some
order. Computations agree if both fail, however they fail, or both succeed with related results; then
they agree also along lists that match (`Agree.mapM`).
-/

namespace JsonSchema

variable {α β γ : Type} {R : α → β → Prop} {as : List α} {bs : List β}

theorem forall₂_imp_of_mem {S : α → β → Prop} (h : List.Forall₂ R as bs)
    (himp : ∀ a ∈ as, ∀ b ∈ bs, R a b → S a b) : List.Forall₂ S as bs := by
  induction h with
  | nil => exact .nil
  | @cons a b as bs hfirst _ ih =>
    refine .cons (himp a List.mem_cons_self b List.mem_cons_self hfirst) (ih ?_)
    intro a' ha b' hb
    exact himp a' (List.mem_cons_of_mem a ha) b' (List.mem_cons_of_mem b hb)

def Matched (R : α → β → Prop) (as : List α) (bs : List β) : Prop :=
  ∃ aligned, List.Forall₂ R as aligned ∧ aligned.Perm bs

namespace Matched

theorem nil : Matched R [] [] := ⟨[], .nil, .nil⟩

theorem of_forall₂ (h : List.Forall₂ R as bs) : Matched R as bs := ⟨bs, h, .refl bs⟩

theorem length_eq (h : Matched R as bs) : as.length = bs.length := by
  obtain ⟨aligned, hall, hperm⟩ := h
  rw [hall.length_eq, hperm.length_eq]

theorem exists_left (h : Matched R as bs) {b : β} (hb : b ∈ bs) : ∃ a ∈ as, R a b := by
  obtain ⟨aligned, hall, hperm⟩ := h
  have hmem : b ∈ aligned := hperm.symm.subset hb
  clear hperm
  induction hall with
  | nil => cases hmem
  | @cons a first as aligned hfirst _ ih =>
    rcases List.mem_cons.mp hmem with rfl | hrest
    · exact ⟨a, List.mem_cons_self, hfirst⟩
    · obtain ⟨other, hother, hrelated⟩ := ih hrest
      exact ⟨other, List.mem_cons_of_mem a hother, hrelated⟩

theorem imp {S : α → β → Prop} (h : Matched R as bs)
    (himp : ∀ a ∈ as, ∀ b ∈ bs, R a b → S a b) : Matched S as bs := by
  obtain ⟨aligned, hall, hperm⟩ := h
  exact ⟨aligned, forall₂_imp_of_mem hall fun a ha b hb => himp a ha b (hperm.subset hb), hperm⟩

/-- What the elements on the left share with those that they are related to holds of both lists or
of neither. -/
theorem forall_iff {p : α → Prop} {q : β → Prop} (h : Matched R as bs)
    (hiff : ∀ a ∈ as, ∀ b, R a b → (p a ↔ q b)) : (∀ a ∈ as, p a) ↔ ∀ b ∈ bs, q b := by
  obtain ⟨aligned, hall, hperm⟩ := h
  have horder : (∀ b ∈ aligned, q b) ↔ ∀ b ∈ bs, q b :=
    forall_congr' fun b => imp_congr_left hperm.mem_iff
  rw [← horder]
  clear hperm horder
  induction hall with
  | nil => exact iff_of_true nofun nofun
  | @cons a b as aligned hfirst _ ih =>
    have hrest := ih fun other hother => hiff other (List.mem_cons_of_mem a hother)
    rw [List.forall_mem_cons, List.forall_mem_cons]
    exact and_congr (hiff a List.mem_cons_self b hfirst) hrest

theorem exists_iff {p : α → Prop} {q : β → Prop} (h : Matched R as bs)
    (hiff : ∀ a ∈ as, ∀ b, R a b → (p a ↔ q b)) : (∃ a ∈ as, p a) ↔ ∃ b ∈ bs, q b := by
  have hnot := h.forall_iff fun a hmem b hab => not_congr (hiff a hmem b hab)
  simpa using not_congr hnot

theorem countP_eq {p : α → Bool} {q : β → Bool} (h : Matched R as bs)
    (heq : ∀ a ∈ as, ∀ b, R a b → p a = q b) : as.countP p = bs.countP q := by
  obtain ⟨aligned, hall, hperm⟩ := h
  rw [← hperm.countP_eq]
  clear hperm
  induction hall with
  | nil => rfl
  | @cons a b as aligned hfirst _ ih =>
    have hrest := ih fun other hother => heq other (List.mem_cons_of_mem a hother)
    rw [List.countP_cons, List.countP_cons, heq a List.mem_cons_self b hfirst, hrest]

end Matched

/-! ### Members -/

inductive SameName (R : α → β → Prop) : String × α → String × β → Prop
  | mk {name : String} {a : α} {b : β} (h : R a b) : SameName R (name, a) (name, b)

namespace Members

theorem lookup_of_perm {as bs : List (String × α)} (hbs : Distinct bs) (h : as.Perm bs)
    (name : String) : as.lookup name = bs.lookup name := by
  have has : Distinct as := (h.map Prod.fst).nodup_iff.mpr hbs
  cases hfound : as.lookup name with
  | some value => exact (lookup_of_mem hbs (h.subset (mem_of_lookup hfound))).symm
  | none =>
    cases hother : bs.lookup name with
    | none => rfl
    | some value =>
      rw [lookup_of_mem has (h.symm.subset (mem_of_lookup hother))] at hfound
      cases hfound

theorem perm_names_of_matched {as : List (String × α)} {bs : List (String × β)}
    (h : Matched (SameName R) as bs) : (names as).Perm (names bs) := by
  obtain ⟨aligned, hall, hperm⟩ := h
  have hnames : names as = names aligned := by
    clear hperm
    induction hall with
    | nil => rfl
    | cons hfirst _ ih =>
      cases hfirst
      exact congrArg (List.cons _) ih
  rw [hnames]
  exact hperm.map Prod.fst

/-- In matched members the values under each name are related. -/
theorem rel_lookup_of_matched {related : String × α → String × β → Prop} {as : List (String × α)}
    {bs : List (String × β)} (hname : ∀ a b, related a b → a.1 = b.1) (h : Matched related as bs)
    (hbs : Distinct bs) (name : String) :
    Option.Rel (fun a b => related (name, a) (name, b)) (as.lookup name) (bs.lookup name) := by
  obtain ⟨aligned, hall, hperm⟩ := h
  rw [← lookup_of_perm hbs hperm]
  clear hperm
  induction hall with
  | nil => exact .none
  | @cons a b as aligned hfirst _ ih =>
    obtain ⟨key, a⟩ := a
    obtain ⟨other, b⟩ := b
    obtain rfl : key = other := hname _ _ hfirst
    by_cases hkey : name = key
    · subst hkey
      rw [List.lookup_cons_self, List.lookup_cons_self]
      exact .some hfirst
    · have hbeq : (name == key) = false := by simpa using hkey
      rw [List.lookup_cons, List.lookup_cons, hbeq]
      exact ih

end Members

end JsonSchema

namespace Except

open JsonSchema (Matched)

variable {ε ε' α β γ δ : Type} {R : α → β → Prop} {S : γ → δ → Prop}

/-- Two computations both fail, or both succeed with related results. -/
inductive Agree (R : α → β → Prop) : Except ε α → Except ε' β → Prop
  | ok {a : α} {b : β} (h : R a b) : Agree R (.ok a) (.ok b)
  | error (e : ε) (e' : ε') : Agree R (.error e) (.error e')

namespace Agree

variable {x : Except ε α} {y : Except ε' β}

theorem of_eq {x y : Except ε α} (h : x = y) : Agree Eq x y := by
  subst h
  cases x with
  | ok a => exact .ok rfl
  | error e => exact .error e e

theorem imp {S : α → β → Prop} (h : Agree R x y) (himp : ∀ a b, R a b → S a b) : Agree S x y := by
  cases h with
  | ok hab => exact .ok (himp _ _ hab)
  | error e e' => exact .error e e'

theorem bind {f : α → Except ε γ} {g : β → Except ε' δ} (h : Agree R x y)
    (hnext : ∀ a b, R a b → Agree S (f a) (g b)) : Agree S (x >>= f) (y >>= g) := by
  cases h with
  | ok hab => exact hnext _ _ hab
  | error e e' => exact .error e e'

theorem map {f : α → γ} {g : β → δ} (h : Agree R x y) (himp : ∀ a b, R a b → S (f a) (g b)) :
    Agree S (x.map f) (y.map g) := by
  cases h with
  | ok hab => exact .ok (himp _ _ hab)
  | error e e' => exact .error e e'

theorem mapError {ζ ζ' : Type} (h : Agree R x y) (f : ε → ζ) (g : ε' → ζ') :
    Agree R (x.mapError f) (y.mapError g) := by
  cases h with
  | ok hab => exact .ok hab
  | error e e' => exact .error (f e) (g e')

theorem trans {ζ : Type} {T : β → γ → Prop} {U : α → γ → Prop} {z : Except ζ γ} (h : Agree R x y)
    (h' : Agree T y z) (himp : ∀ a b c, R a b → T b c → U a c) : Agree U x z := by
  cases h with
  | ok hab =>
    cases h' with
    | ok hbc => exact .ok (himp _ _ _ hab hbc)
  | error e e' =>
    cases h' with
    | error _ e'' => exact .error e e''

theorem symm (h : Agree R x y) : Agree (fun b a => R a b) y x := by
  cases h with
  | ok hab => exact .ok hab
  | error e e' => exact .error e' e

theorem results (h : Agree R x y) : Agree (fun a b => R a b ∧ x = .ok a ∧ y = .ok b) x y := by
  cases h with
  | ok hab => exact .ok ⟨hab, rfl, rfl⟩
  | error e e' => exact .error e e'

theorem isOk_iff (h : Agree R x y) : (∃ a, x = .ok a) ↔ ∃ b, y = .ok b := by
  cases h with
  | ok => exact iff_of_true ⟨_, rfl⟩ ⟨_, rfl⟩
  | error => exact iff_of_false nofun nofun

theorem rel {a : α} {b : β} (h : Agree R (.ok a : Except ε α) (.ok b : Except ε' β)) : R a b := by
  cases h with
  | ok hab => exact hab

theorem mapM_forall₂ {f : γ → Except ε α} {g : δ → Except ε' β} {cs : List γ} {ds : List δ}
    (h : List.Forall₂ (fun c d => Agree R (f c) (g d)) cs ds) :
    Agree (List.Forall₂ R) (cs.mapM f) (ds.mapM g) := by
  induction h with
  | nil => exact .ok .nil
  | cons hfirst _ ih =>
    rw [List.mapM_cons, List.mapM_cons]
    exact hfirst.bind fun a b hab => ih.bind fun as bs hrest => .ok (.cons hab hrest)

theorem mapM_perm {f : γ → Except ε α} {cs ds : List γ} (h : cs.Perm ds) :
    Agree List.Perm (cs.mapM f) (ds.mapM f) := by
  induction h with
  | nil => exact .ok .nil
  | cons c _ ih =>
    rw [List.mapM_cons, List.mapM_cons]
    exact (of_eq rfl).bind fun a _ hab => ih.bind fun as bs hrest => hab ▸ .ok (hrest.cons a)
  | swap c d rest =>
    simp only [List.mapM_cons]
    cases f c <;> cases f d <;> cases rest.mapM f
    case ok.ok.ok a b as => exact .ok (.swap a b as)
    all_goals exact .error _ _
  | trans _ _ ih ih' => exact ih.trans ih' fun _ _ _ => List.Perm.trans

/-- Along lists that match, computations agree if they agree on what is related. -/
theorem mapM {f : γ → Except ε α} {g : δ → Except ε' β} {cs : List γ} {ds : List δ}
    (h : Matched (fun c d => Agree R (f c) (g d)) cs ds) :
    Agree (Matched R) (cs.mapM f) (ds.mapM g) := by
  obtain ⟨aligned, hall, hperm⟩ := h
  exact (mapM_forall₂ hall).trans (mapM_perm hperm) fun _ as' _ hrel horder => ⟨as', hrel, horder⟩

end Agree

end Except
