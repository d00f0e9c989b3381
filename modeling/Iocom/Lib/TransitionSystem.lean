import Mathlib.Algebra.GroupWithZero.Nat
import Mathlib.Logic.Relation

/-!
# Runs of a transition system

A system is a predicate of initial states and a one-step relation.  Its runs
are the reflexive transitive closure of the step relation, so the induction
principles of `Relation.ReflTransGen` apply; the rules below package them once
for safety proofs.
-/

namespace TransitionSystem

variable {σ τ : Type*}

/-- States which some finite run reaches from an initial state. -/
def Reachable (init : σ → Prop) (step : σ → σ → Prop) (s : σ) : Prop :=
  ∃ s₀, init s₀ ∧ Relation.ReflTransGen step s₀ s

theorem Reachable.start {init : σ → Prop} {step : σ → σ → Prop} {s : σ}
    (hinit : init s) : Reachable init step s :=
  ⟨s, hinit, .refl⟩

theorem Reachable.next {init : σ → Prop} {step : σ → σ → Prop} {s t : σ}
    (hs : Reachable init step s) (hstep : step s t) :
    Reachable init step t := by
  obtain ⟨s₀, hinit, hrun⟩ := hs
  exact ⟨s₀, hinit, hrun.tail hstep⟩

theorem Reachable.mono {init : σ → Prop} {step step' : σ → σ → Prop} {s : σ}
    (hstep : ∀ s t, step s t → step' s t) (hs : Reachable init step s) :
    Reachable init step' s := by
  obtain ⟨s₀, hinit, hrun⟩ := hs
  exact ⟨s₀, hinit, Relation.ReflTransGen.mono hstep _ _ hrun⟩

/-- The invariant rule for one run: what every step preserves holds all along
a run which it holds at the beginning of. -/
theorem invariant_of_run {step : σ → σ → Prop} (inv : σ → Prop)
    (hstep : ∀ s t, inv s → step s t → inv t)
    {s₀ s : σ} (hs₀ : inv s₀) (hrun : Relation.ReflTransGen step s₀ s) : inv s := by
  induction hrun with
  | refl => exact hs₀
  | tail _ hlast ih => exact hstep _ _ ih hlast

theorem Reachable.invariant {init : σ → Prop} {step : σ → σ → Prop}
    (inv : σ → Prop)
    (hinit : ∀ s, init s → inv s)
    (hstep : ∀ s t, inv s → step s t → inv t)
    {s : σ} (hs : Reachable init step s) : inv s := by
  obtain ⟨s₀, hs₀, hrun⟩ := hs
  exact invariant_of_run inv hstep (hinit s₀ hs₀) hrun

/-! ## Runs by choices

A partial function of a state and a choice plays a run; it fails where the choice is not
possible. -/

section Choices

variable {γ : Type*} {f : σ → γ → Option σ} {choices : List γ} {s t : σ}

theorem run_of_play {step : σ → σ → Prop} (hf : ∀ s choice t, f s choice = some t → step s t)
    (hrun : choices.foldlM f s = some t) : Relation.ReflTransGen step s t := by
  induction choices generalizing s with
  | nil =>
      obtain rfl := Option.some.inj hrun
      exact .refl
  | cons choice choices ih =>
      rw [List.foldlM_cons, Option.bind_eq_bind, Option.bind_eq_some_iff] at hrun
      obtain ⟨between, hfirst, hrest⟩ := hrun
      exact .head (hf s choice between hfirst) (ih hrest)

theorem Reachable.play {init : σ → Prop} {step : σ → σ → Prop}
    (hf : ∀ s choice t, f s choice = some t → step s t) (hs : Reachable init step s)
    (hrun : choices.foldlM f s = some t) : Reachable init step t := by
  obtain ⟨s₀, hinit, hreached⟩ := hs
  exact ⟨s₀, hinit, hreached.trans (run_of_play hf hrun)⟩

/-- The invariant rule for runs which may spend up to a limit. -/
theorem invariant_of_spending (cost : γ → ℕ) {limit : ℕ} (inv : ℕ → σ → Prop)
    (hstep : ∀ n s choice t, inv n s → n + cost choice ≤ limit → f s choice = some t →
      inv (n + cost choice) t)
    {n : ℕ} (hs : inv n s) (hlimit : n + (choices.map cost).sum ≤ limit)
    (hrun : choices.foldlM f s = some t) : inv (n + (choices.map cost).sum) t := by
  induction choices generalizing n s with
  | nil =>
      obtain rfl := Option.some.inj hrun
      simpa using hs
  | cons choice choices ih =>
      rw [List.map_cons, List.sum_cons, ← Nat.add_assoc] at hlimit ⊢
      rw [List.foldlM_cons, Option.bind_eq_bind, Option.bind_eq_some_iff] at hrun
      obtain ⟨between, hfirst, hrest⟩ := hrun
      have hfits : n + cost choice ≤ limit := by omega
      exact ih (hstep n s choice between hs hfits hfirst) hlimit hrest

end Choices

end TransitionSystem
