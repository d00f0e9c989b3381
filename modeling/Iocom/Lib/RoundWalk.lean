import Mathlib.Data.List.GetD
import Mathlib.Data.List.Rotate
import Mathlib.Data.Nat.ModEq
import Mathlib.Tactic.Common

/-!
# Walking round a list

The positions of a list of `n` elements in circular order.
-/

namespace RoundWalk

/-- The position after `i`. -/
def next (n i : ℕ) : ℕ := if i + 1 < n then i + 1 else 0

/-- The `m` positions from `i` on. -/
def walk (n i : ℕ) : ℕ → List ℕ
  | 0 => []
  | m + 1 => i :: walk n (next n i) m

variable {n i m : ℕ}

@[simp] theorem walk_zero : walk n i 0 = [] := rfl

@[simp] theorem walk_succ : walk n i (m + 1) = i :: walk n (next n i) m := rfl

theorem next_eq_mod (hi : i < n) : next n i = (i + 1) % n := by
  unfold next
  split_ifs with h
  · rw [Nat.mod_eq_of_lt h]
  · rw [show i + 1 = n by omega, Nat.mod_self]

theorem next_lt (hi : i < n) : next n i < n := by
  unfold next
  split_ifs with h
  · exact h
  · omega

@[simp] theorem length_walk : (walk n i m).length = m := by
  induction m generalizing i with
  | zero => rfl
  | succ m ih => simp [ih]

theorem walk_eq_map (hi : i < n) : walk n i m = (List.range m).map fun k => (i + k) % n := by
  induction m generalizing i with
  | zero => rfl
  | succ m ih =>
      rw [walk_succ, ih (next_lt hi), next_eq_mod hi, List.range_succ_eq_map, List.map_cons,
        List.map_map]
      congr 1
      · rw [Nat.add_zero, Nat.mod_eq_of_lt hi]
      apply List.map_congr_left
      intro k _
      simp [Nat.add_assoc, Nat.add_comm 1 k]

theorem walk_nodup (hi : i < n) (hm : m ≤ n) : (walk n i m).Nodup := by
  rw [walk_eq_map hi]
  refine List.Nodup.map_on ?_ List.nodup_range
  intro a ha b hb hab
  have hle := List.mem_range.mp ha
  have hle' := List.mem_range.mp hb
  have hmod : Nat.ModEq n a b := Nat.ModEq.add_left_cancel' i hab
  exact Nat.ModEq.eq_of_lt_of_lt hmod (by omega) (by omega)

theorem walk_map_getD {α : Type*} (xs : List α) (d : α) (hi : i < xs.length) :
    (walk xs.length i xs.length).map (fun k => xs.getD k d) = xs.rotate i := by
  apply List.ext_getElem (by simp)
  intro k hk hk'
  have hlt : (i + k) % xs.length < xs.length := Nat.mod_lt _ (by omega)
  simp only [walk_eq_map hi, List.getElem_map, List.getElem_range, List.getElem_rotate,
    List.getD_eq_getElem _ _ hlt]
  simp [Nat.add_comm k i]

end RoundWalk
