import Mathlib.Data.List.Basic

/-!
# Histories

A history is a list of versions which only grows at its end.  Who looks at it
later sees a later version.
-/

namespace History

variable {α : Type*}

theorem getElem?_append_of_some {xs ys : List α} {k : ℕ} {x : α} (h : xs[k]? = some x) :
    (xs ++ ys)[k]? = some x := by
  obtain ⟨hk, -⟩ := List.getElem?_eq_some_iff.mp h
  rw [List.getElem?_append_left hk, h]

theorem count_le_of_pairwise {count : α → ℕ} {xs : List α} {i j : ℕ} {a b : α}
    (h : xs.Pairwise fun a b => count a ≤ count b) (ha : xs[i]? = some a) (hb : xs[j]? = some b)
    (hij : i ≤ j) : count a ≤ count b := by
  obtain ⟨hi, rfl⟩ := List.getElem?_eq_some_iff.mp ha
  obtain ⟨hj, rfl⟩ := List.getElem?_eq_some_iff.mp hb
  rcases Nat.lt_or_eq_of_le hij with hlt | rfl
  · exact List.pairwise_iff_getElem.mp h i j hi hj hlt
  · exact Nat.le_refl _

end History
