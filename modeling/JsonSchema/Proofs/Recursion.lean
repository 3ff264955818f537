import Mathlib.Data.List.Chain
import Mathlib.Logic.Function.Iterate

/-!
# Recursion along falling ranks

A recursive function is the iteration of one step, which takes the answers to the calls that it makes
as an argument. If a rank falls from every call to those made in it, then the rank of the first call
bounds how deep calls are nested, and with that much fuel the answers further down do not count.
-/

namespace JsonSchema

variable {σ α : Type} {fits : σ → Prop} {calls : σ → σ → Prop} {rank : σ → Nat} {x : σ}

/-- The rank falls from each call that fits to those made in it, which fit again. -/
structure Descends (fits : σ → Prop) (calls : σ → σ → Prop) (rank : σ → Nat) : Prop where
  pos {x : σ} (hx : fits x) : 0 < rank x
  kept {x y : σ} (hx : fits x) (h : calls x y) : fits y
  lt {x y : σ} (hx : fits x) (h : calls x y) : rank y < rank x

namespace Descends

/-- A recursion whose calls can be seen as calls of another one descends with it. -/
theorem comap {τ : Type} {calls' : τ → τ → Prop} (h : Descends fits calls rank) (f : τ → σ)
    (hcalls : ∀ x y, calls' x y → calls (f x) (f y)) :
    Descends (fun x => fits (f x)) calls' fun x => rank (f x) where
  pos := h.pos
  kept hx hxy := h.kept hx (hcalls _ _ hxy)
  lt hx hxy := h.lt hx (hcalls _ _ hxy)

/-- Where there is fuel for the rank of a call, the answers below do not count. -/
theorem iterate_eq (h : Descends fits calls rank) {step : (σ → α) → σ → α}
    (hstep : ∀ x next next', (∀ y, calls x y → next y = next' y) → step next x = step next' x)
    (hx : fits x) {fuel fuel' : Nat} (hfuel : rank x ≤ fuel) (hfuel' : rank x ≤ fuel')
    (deeper deeper' : σ → α) : step^[fuel] deeper x = step^[fuel'] deeper' x := by
  -- with no fuel at all there is no call that fits, since its rank is not zero
  induction fuel generalizing fuel' x with
  | zero =>
    have hpos := h.pos hx
    omega
  | succ fuel ih =>
    obtain ⟨less, rfl⟩ : ∃ less, fuel' = less + 1 := by
      have hpos := h.pos hx
      exact ⟨fuel' - 1, by omega⟩
    rw [Function.iterate_succ_apply', Function.iterate_succ_apply']
    apply hstep
    intro y hxy
    have hlt := h.lt hx hxy
    exact ih (h.kept hx hxy) (by omega) (by omega)

/-- The rank of the first of nested calls is at least their number. -/
theorem length_le (h : Descends fits calls rank) {nested : List σ} (hx : fits x)
    (hnested : (x :: nested).IsChain calls) : nested.length + 1 ≤ rank x := by
  induction nested generalizing x with
  | nil => exact h.pos hx
  | cons y nested ih =>
    obtain ⟨hxy, hrest⟩ := List.isChain_cons_cons.mp hnested
    have hlt := h.lt hx hxy
    have hlength := ih (h.kept hx hxy) hrest
    rw [List.length_cons]
    omega

/-- What each call hands on to those made in it holds of all nested calls. -/
theorem forall_mem_of_isChain (h : Descends fits calls rank) {P : σ → Prop} {nested : List σ}
    (hkept : ∀ x y, fits x → calls x y → P x → P y) (hx : fits x) (hP : P x)
    (hnested : (x :: nested).IsChain calls) : ∀ call ∈ nested, P call := by
  have hboth := hnested.cons_induction (fun call => fits call ∧ P call) nested
    (fun y z hyz hy => ⟨h.kept hy.1 hyz, hkept y z hy.1 hyz hy.2⟩) ⟨hx, hP⟩
  exact fun call hcall => (hboth call hcall).2

end Descends

end JsonSchema
