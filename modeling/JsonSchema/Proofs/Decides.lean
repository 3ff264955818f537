import JsonSchema.Proofs.Outcomes
import JsonSchema.Validation.Keywords
import Mathlib.Tactic.Common

/-!
# Checks that decide a condition

A check decides a condition if the condition holds where the check is clean and fails where there is
a violation; a fault without a violation leaves it open. A violation settles the matter even if a
fault follows, which is why `passes` may stop at the first one. Each way to put checks together
decides the conjunction of the conditions of its parts.
-/

open scoped Classical

namespace JsonSchema

namespace Findings

variable {α : Type} {f g : Findings} {P Q : Prop}

structure Decides (f : Findings) (P : Prop) : Prop where
  holds : f.violations = [] → f.fault = none → P
  fails : f.violations ≠ [] → ¬ P

theorem Decides.congr (h : f.Decides P) (hPQ : P ↔ Q) : f.Decides Q where
  holds hv hf := hPQ.mp (h.holds hv hf)
  fails hv hQ := h.fails hv (hPQ.mpr hQ)

theorem Decides.violations_eq_nil_iff (h : f.Decides P) (hfault : f.fault = none) :
    f.violations = [] ↔ P :=
  ⟨fun hv => h.holds hv hfault, fun hP => by_contra fun hv => h.fails hv hP⟩

theorem Decides.of_passes {b : Bool} (h : f.Decides P) (hb : f.passes = .ok b) :
    b = true ↔ P := by
  obtain ⟨violations, fault⟩ := f
  cases violations with
  | nil =>
    cases fault with
    | none =>
      have hP := h.holds rfl rfl
      cases hb
      simp [hP]
    | some fault => cases hb
  | cons violation rest =>
    have hP := h.fails (List.cons_ne_nil _ _)
    cases hb
    simp [hP]

theorem decides_clean (hP : P) : clean.Decides P where
  holds _ _ := hP
  fails hv := absurd rfl hv

theorem decides_report (cause : Cause) (hP : ¬ P) : (report cause).Decides P where
  holds hv := by cases hv
  fails _ := hP

theorem decides_raise (fault : Fault) : (raise fault).Decides P where
  holds _ hf := by cases hf
  fails hv := absurd rfl hv

theorem decides_require {holds : Bool} (cause : Cause) (h : holds = true ↔ P) :
    (require holds cause).Decides P := by
  cases holds with
  | true => exact decides_clean (h.mp rfl)
  | false => exact decides_report cause fun hP => Bool.false_ne_true (h.mpr hP)

theorem Decides.append (hf : f.Decides P) (hg : g.Decides Q) : (f.append g).Decides (P ∧ Q) := by
  obtain ⟨violations, fault⟩ := f
  cases fault with
  | some fault =>
    constructor
    · intro _ hnone
      cases hnone
    · intro hv hPQ
      exact hf.fails hv hPQ.1
  | none =>
    constructor
    · intro hv hnone
      have hsplit : violations = [] ∧ g.violations = [] := List.append_eq_nil_iff.mp hv
      exact ⟨hf.holds hsplit.1 rfl, hg.holds hsplit.2 hnone⟩
    · intro hv hPQ
      have hsplit : ¬ (violations = [] ∧ g.violations = []) :=
        fun h => hv (List.append_eq_nil_iff.mpr h)
      rcases not_and_or.mp hsplit with hleft | hright
      · exact hf.fails hleft hPQ.1
      · exact hg.fails hright hPQ.2

theorem decides_concat {xs : List α} {check : α → Findings} {P : α → Prop}
    (h : ∀ x ∈ xs, (check x).Decides (P x)) :
    (concat (xs.map check)).Decides (∀ x ∈ xs, P x) := by
  induction xs with
  | nil => exact decides_clean (by simp)
  | cons x rest ih =>
    have hrest := ih fun y hy => h y (List.mem_cons_of_mem x hy)
    exact ((h x List.mem_cons_self).append hrest).congr (List.forall_mem_cons).symm

theorem Decides.under (step : Step) (h : f.Decides P) : (f.under step).Decides P where
  holds hv hf := h.holds (List.map_eq_nil_iff.mp hv) hf
  fails hv := h.fails fun hnil => hv (List.map_eq_nil_iff.mpr hnil)

theorem decides_firstOf_nil : (firstOf []).Decides True := decides_clean trivial

/-- A check behind one that is not clean is not made, and need not be. -/
theorem Decides.firstOf_cons {check : Unit → Findings} {rest : List (Unit → Findings)}
    (hcheck : (check ()).Decides P) (hrest : (firstOf rest).Decides Q) :
    (firstOf (check :: rest)).Decides (P ∧ Q) := by
  unfold firstOf
  by_cases hclean : (check ()).isClean
  · have hP : P := by
      simp only [isClean, Bool.and_eq_true, List.isEmpty_iff, Option.isNone_iff_eq_none] at hclean
      exact hcheck.holds hclean.1 hclean.2
    rw [if_pos hclean]
    exact hrest.congr (and_iff_right hP).symm
  · rw [if_neg hclean]
    constructor
    · intro hv hf
      simp [isClean, hv, hf] at hclean
    · intro hv hPQ
      exact hcheck.fails hv hPQ.1

theorem decides_ofResult {result : Except Fault α} {next : α → Findings}
    (h : ∀ a, result = .ok a → (next a).Decides P) : (ofResult result next).Decides P := by
  cases result with
  | ok a => exact h a rfl
  | error fault => exact decides_raise fault

end Findings

open Findings

/-! ### Questions about several checks -/

section Several

variable {α : Type} {xs : List α} {check : α → Findings} {P : α → Prop}

theorem anyPasses_eq_true_iff (h : ∀ x ∈ xs, (check x).Decides (P x)) {b : Bool}
    (hb : anyPasses (xs.map fun x _ => check x) = .ok b) : b = true ↔ ∃ x ∈ xs, P x := by
  induction xs with
  | nil =>
    cases hb
    simp
  | cons x rest ih =>
    obtain ⟨passed, hx, hnext⟩ := Except.bind_eq_ok_iff.mp hb
    have hPx := (h x List.mem_cons_self).of_passes hx
    cases passed with
    | true =>
      cases hnext
      simp [hPx.mp rfl]
    | false =>
      have hnot : ¬ P x := mt hPx.mpr Bool.false_ne_true
      rw [ih (fun y hy => h y (List.mem_cons_of_mem x hy)) hnext]
      simp [hnot]

theorem countPasses_eq_countP (h : ∀ x ∈ xs, (check x).Decides (P x)) {count : Nat}
    (hcount : countPasses (xs.map fun x _ => check x) = .ok count) :
    count = xs.countP fun x => P x := by
  induction xs generalizing count with
  | nil =>
    cases hcount
    rfl
  | cons x rest ih =>
    obtain ⟨passed, hx, hnext⟩ := Except.bind_eq_ok_iff.mp hcount
    obtain ⟨others, hothers, hsum⟩ := Except.bind_eq_ok_iff.mp hnext
    have hPx := (h x List.mem_cons_self).of_passes hx
    have hrest := ih (fun y hy => h y (List.mem_cons_of_mem x hy)) hothers
    cases passed with
    | true =>
      have hsum' : others + 1 = count := Except.ok.inj hsum
      rw [List.countP_cons_of_pos (by simpa using hPx.mp rfl), ← hrest, hsum']
    | false =>
      have hsum' : others = count := Except.ok.inj hsum
      rw [List.countP_cons_of_neg (by simpa using mt hPx.mpr Bool.false_ne_true), ← hrest, hsum']

end Several

end JsonSchema
