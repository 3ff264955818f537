import Mathlib.Data.List.Forall2

/-!
# Computations that succeed or fail

A composed computation succeeds exactly if each of its steps does, and fails as the first step does
that fails.
-/

namespace Except

variable {ε ε' α β : Type}

theorem bind_eq_ok_iff {x : Except ε α} {f : α → Except ε β} {b : β} :
    x >>= f = .ok b ↔ ∃ a, x = .ok a ∧ f a = .ok b := by
  cases x with
  | error e => simp [bind, Except.bind]
  | ok a => simp [bind, Except.bind]

theorem bind_eq_error_iff {x : Except ε α} {f : α → Except ε β} {e : ε} :
    x >>= f = .error e ↔ x = .error e ∨ ∃ a, x = .ok a ∧ f a = .error e := by
  cases x with
  | error e => simp [bind, Except.bind]
  | ok a => simp [bind, Except.bind]

theorem map_eq_ok_iff {x : Except ε α} {f : α → β} {b : β} :
    x.map f = .ok b ↔ ∃ a, x = .ok a ∧ f a = b := by
  cases x with
  | error e => simp [Except.map]
  | ok a => simp [Except.map]

theorem mapError_eq_ok_iff {x : Except ε α} {f : ε → ε'} {a : α} :
    x.mapError f = .ok a ↔ x = .ok a := by
  cases x with
  | error e => exact ⟨nofun, nofun⟩
  | ok a =>
    constructor
    · rintro ⟨⟩
      rfl
    · rintro ⟨⟩
      rfl

theorem map_eq_error_iff {x : Except ε α} {f : α → β} {e : ε} :
    x.map f = .error e ↔ x = .error e := by
  cases x with
  | error e => simp [Except.map]
  | ok a => simp [Except.map]

theorem mapError_eq_error_iff {x : Except ε α} {f : ε → ε'} {e' : ε'} :
    x.mapError f = .error e' ↔ ∃ e, x = .error e ∧ f e = e' := by
  cases x with
  | error e => simp [Except.mapError]
  | ok a => simp [Except.mapError]

theorem toOption_eq_some_iff {x : Except ε α} {a : α} : x.toOption = some a ↔ x = .ok a := by
  cases x with
  | error e => exact ⟨nofun, nofun⟩
  | ok b => simp [Except.toOption]

theorem exists_of_mem_mapM {f : α → Except ε β} {as : List α} {bs : List β}
    (h : as.mapM f = .ok bs) {b : β} (hb : b ∈ bs) : ∃ a ∈ as, f a = .ok b := by
  induction as generalizing bs with
  | nil =>
    cases h
    cases hb
  | cons a rest ih =>
    rw [List.mapM_cons] at h
    obtain ⟨first, hfirst, hnext⟩ := bind_eq_ok_iff.mp h
    obtain ⟨others, hothers, hbs⟩ := bind_eq_ok_iff.mp hnext
    cases hbs
    rcases List.mem_cons.mp hb with rfl | hmem
    · exact ⟨a, List.mem_cons_self, hfirst⟩
    · obtain ⟨other, hother, hresult⟩ := ih hothers hmem
      exact ⟨other, List.mem_cons_of_mem _ hother, hresult⟩

/-- A function that succeeds on a list succeeds on each element, in order. -/
theorem forall₂_of_mapM {f : α → Except ε β} {as : List α} {bs : List β} (h : as.mapM f = .ok bs) :
    List.Forall₂ (fun a b => f a = .ok b) as bs := by
  induction as generalizing bs with
  | nil =>
    cases h
    exact .nil
  | cons a rest ih =>
    rw [List.mapM_cons] at h
    obtain ⟨first, hfirst, hnext⟩ := bind_eq_ok_iff.mp h
    obtain ⟨others, hothers, hbs⟩ := bind_eq_ok_iff.mp hnext
    cases hbs
    exact .cons hfirst (ih hothers)

theorem mapM_congr {f g : α → Except ε β} {as : List α} (h : ∀ a ∈ as, f a = g a) :
    as.mapM f = as.mapM g := by
  induction as with
  | nil => rfl
  | cons a rest ih =>
    have hrest := ih fun other hother => h other (List.mem_cons_of_mem a hother)
    rw [List.mapM_cons, List.mapM_cons, h a List.mem_cons_self, hrest]

/-- Where each element leads to a result through its image, the list does. -/
theorem mapM_map_eq_ok {γ : Type} {f : α → Except ε β} {g : γ → α} {h : γ → β} {cs : List γ}
    (heach : ∀ c ∈ cs, f (g c) = .ok (h c)) : (cs.map g).mapM f = .ok (cs.map h) := by
  induction cs with
  | nil => rfl
  | cons c rest ih =>
    have hrest := ih fun other hother => heach other (List.mem_cons_of_mem c hother)
    rw [List.map_cons, List.mapM_cons, heach c List.mem_cons_self, hrest]
    rfl

def ErrorsIn (allowed : ε → Prop) (x : Except ε α) : Prop := ∀ e, x = .error e → allowed e

section ErrorsIn

variable {allowed : ε → Prop} {x : Except ε α}

theorem errorsIn_ok (a : α) : (ok a : Except ε α).ErrorsIn allowed := by
  intro e h
  cases h

theorem ErrorsIn.bind {f : α → Except ε β} (hx : x.ErrorsIn allowed)
    (hf : ∀ a, (f a).ErrorsIn allowed) : (x >>= f).ErrorsIn allowed := by
  intro e h
  rcases bind_eq_error_iff.mp h with herror | ⟨a, -, hnext⟩
  · exact hx e herror
  · exact hf a e hnext

theorem ErrorsIn.map (f : α → β) (hx : x.ErrorsIn allowed) : (x.map f).ErrorsIn allowed :=
  fun e h => hx e (map_eq_error_iff.mp h)

theorem errorsIn_mapM {f : α → Except ε β} {as : List α} (h : ∀ a ∈ as, (f a).ErrorsIn allowed) :
    (as.mapM f).ErrorsIn allowed := by
  induction as with
  | nil => exact errorsIn_ok []
  | cons a rest ih =>
    have hrest := ih fun other hother => h other (List.mem_cons_of_mem a hother)
    rw [List.mapM_cons]
    exact (h a List.mem_cons_self).bind fun _ => hrest.bind fun _ => errorsIn_ok _

end ErrorsIn

end Except
