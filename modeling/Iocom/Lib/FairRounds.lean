import Mathlib.Data.List.Basic

/-!
# Finishing by rounds

A system takes actions one after the other; some of its work is left, and no action
adds to it.  If every round of actions takes from the work of a system which is not
done, then as many rounds as there is work are enough.
-/

namespace FairRounds

variable {σ α : Type*}

/-- Actions keep the invariant and do not add to the work. -/
structure Settles (step : σ → α → σ) (inv : σ → Prop) (work : σ → ℕ) : Prop where
  inv_step : ∀ s a, inv s → inv (step s a)
  work_step : ∀ s a, inv s → work (step s a) ≤ work s

variable {step : σ → α → σ} {inv : σ → Prop} {work : σ → ℕ} {s : σ}

theorem Settles.inv_foldl (h : Settles step inv work) (actions : List α) (hs : inv s) :
    inv (actions.foldl step s) := by
  induction actions generalizing s with
  | nil => exact hs
  | cons a actions ih => exact ih (h.inv_step s a hs)

theorem Settles.work_foldl (h : Settles step inv work) (actions : List α) (hs : inv s) :
    work (actions.foldl step s) ≤ work s := by
  induction actions generalizing s with
  | nil => exact Nat.le_refl _
  | cons a actions ih =>
      exact Nat.le_trans (ih (h.inv_step s a hs)) (h.work_step s a hs)

/-- An action which would take from the work does so wherever it stands among other
actions, unless one before it has already taken from the work. -/
theorem Settles.foldl_lt (h : Settles step inv work) (hs : inv s) {a : α} {actions : List α}
    (hmem : a ∈ actions)
    (hlt : ∀ before : List α, work s ≤ work (before.foldl step s) →
      work (step (before.foldl step s) a) < work (before.foldl step s)) :
    work (actions.foldl step s) < work s := by
  obtain ⟨before, after, rfl⟩ := List.append_of_mem hmem
  have hbefore := h.inv_foldl before hs
  have hle := h.work_foldl before hs
  have hstep := h.work_step _ a hbefore
  have hafter := h.work_foldl after (h.inv_step _ a hbefore)
  rw [List.foldl_append, List.foldl_cons]
  by_cases hsame : work s ≤ work (before.foldl step s)
  · have hless := hlt before hsame
    omega
  · omega

theorem Settles.finish (h : Settles step inv work) (done : σ → Prop)
    (hzero : ∀ s, inv s → work s = 0 → done s)
    (hkeep : ∀ s a, inv s → done s → done (step s a)) (rounds : List (List α))
    (hrounds : ∀ round ∈ rounds, ∀ s, inv s → ¬done s → work (round.foldl step s) < work s)
    (hs : inv s) (hwork : work s ≤ rounds.length) : done (rounds.flatten.foldl step s) := by
  have hkeepAll : ∀ (actions : List α) (s : σ), inv s → done s → done (actions.foldl step s) := by
    intro actions
    induction actions with
    | nil => exact fun _ _ hdone => hdone
    | cons a actions ih =>
        exact fun s hs hdone => ih _ (h.inv_step s a hs) (hkeep s a hs hdone)
  induction rounds generalizing s with
  | nil => exact hzero s hs (Nat.le_zero.mp hwork)
  | cons round rounds ih =>
      rw [List.flatten_cons, List.foldl_append]
      by_cases hdone : done s
      · exact hkeepAll _ _ (h.inv_foldl round hs) (hkeepAll round s hs hdone)
      · have hlt := hrounds round List.mem_cons_self s hs hdone
        rw [List.length_cons] at hwork
        exact ih (fun round' hmem => hrounds round' (List.mem_cons_of_mem _ hmem))
          (h.inv_foldl round hs) (by omega)

end FairRounds
