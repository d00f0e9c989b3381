import Mathlib.Tactic.Ring
import Mathlib.Data.List.Basic

/-!
# Address windows of byte memories

A memory is a total map from integer addresses; a buffer is the window of it
between two bounds.  The operations are the ones C code performs on such
windows: copying a range, reading a run of cells as a list, and combining a
list of values with the cells from a given address on.  Every lemma says what
one cell holds afterwards.
-/

namespace Segment

variable {α β : Type*}

/-- Copy the cells `first .. last` (both included) of `src` over `dst`. -/
def copyRange (dst src : ℤ → α) (first last : ℤ) : ℤ → α :=
  fun i => if first ≤ i ∧ i ≤ last then src i else dst i

/-- The `n` cells from address `first` on, as a list. -/
def segment (m : ℤ → α) (first : ℤ) (n : ℕ) : List α :=
  (List.range n).map fun k : ℕ => m (first + (k : ℤ))

/-- Combine the cells from address `first` on with the values of a list. -/
def combineAt (f : α → β → α) (m : ℤ → α) (first : ℤ) (xs : List β) : ℤ → α :=
  fun i =>
    if first ≤ i then
      match xs[(i - first).toNat]? with
      | some x => f (m i) x
      | none => m i
    else m i

@[simp] theorem copyRange_apply (dst src : ℤ → α) (first last i : ℤ) :
    copyRange dst src first last i =
      if first ≤ i ∧ i ≤ last then src i else dst i := rfl

@[simp] theorem segment_length (m : ℤ → α) (first : ℤ) (n : ℕ) :
    (segment m first n).length = n := by
  simp [segment]

@[simp] theorem segment_zero (m : ℤ → α) (first : ℤ) :
    segment m first 0 = [] := rfl

theorem segment_getElem? (m : ℤ → α) (first : ℤ) {n k : ℕ} (hk : k < n) :
    (segment m first n)[k]? = some (m (first + k)) := by
  simp [segment, hk]

theorem segment_eq_iff {m m' : ℤ → α} {first : ℤ} {n : ℕ} :
    segment m first n = segment m' first n ↔
      ∀ i, first ≤ i → i < first + n → m i = m' i := by
  constructor
  · intro heq i hlo hhi
    have hk : (i - first).toNat < n := by omega
    have hcell := congrArg (fun xs => xs[(i - first).toNat]?) heq
    simp only [segment_getElem? _ _ hk, Option.some.injEq] at hcell
    have hi : first + ((i - first).toNat : ℤ) = i := by omega
    rwa [hi] at hcell
  · intro hcells
    apply List.map_congr_left
    intro k hk
    have hlt : k < n := List.mem_range.mp hk
    exact hcells _ (by omega) (by omega)

theorem segment_take (m : ℤ → α) (first : ℤ) {k n : ℕ} (hk : k ≤ n) :
    (segment m first n).take k = segment m first k := by
  simp [segment, ← List.map_take, List.take_range, Nat.min_eq_left hk]

/-- Combining a memory with a segment of another acts cell by cell. -/
theorem combineAt_segment (f : α → β → α) (m : ℤ → α) (g : ℤ → β)
    (first : ℤ) (n : ℕ) (i : ℤ) :
    combineAt f m first (segment g first n) i =
      if first ≤ i ∧ i < first + n then f (m i) (g i) else m i := by
  unfold combineAt
  by_cases hlo : first ≤ i
  · by_cases hhi : i < first + n
    · have hk : (i - first).toNat < n := by omega
      have hi : first + ((i - first).toNat : ℤ) = i := by omega
      rw [segment_getElem? _ _ hk, hi]
      simp [hlo, hhi]
    · have hk : n ≤ (i - first).toNat := by omega
      have hnone : (segment g first n)[(i - first).toNat]? = none := by
        simpa using hk
      rw [hnone]
      simp [hlo, hhi]
  · simp [hlo]

theorem combineAt_of_outside (f : α → β → α) (m : ℤ → α) (first : ℤ)
    (xs : List β) {i : ℤ} (hout : i < first ∨ first + xs.length ≤ i) :
    combineAt f m first xs i = m i := by
  unfold combineAt
  rcases hout with hlt | hge
  · simp [not_le.mpr hlt]
  · have hk : xs.length ≤ (i - first).toNat := by omega
    rw [List.getElem?_eq_none hk]
    simp

theorem combineAt_apply (f : α → β → α) (m : ℤ → α) (first : ℤ) (xs : List β)
    {k : ℕ} (hk : k < xs.length) :
    combineAt f m first xs (first + k) = f (m (first + k)) xs[k] := by
  have hle : first ≤ first + k := by omega
  have hsub : (first + (k : ℤ) - first).toNat = k := by omega
  unfold combineAt
  rw [if_pos hle, hsub, List.getElem?_eq_getElem hk]

theorem combineAt_append (f : α → β → α) (m : ℤ → α) (first : ℤ) (xs ys : List β) :
    combineAt f (combineAt f m first xs) (first + xs.length) ys =
      combineAt f m first (xs ++ ys) := by
  funext i
  by_cases hlo : i < first + xs.length
  · rw [combineAt_of_outside f _ _ ys (Or.inl hlo)]
    unfold combineAt
    by_cases hfirst : first ≤ i
    · have hk : (i - first).toNat < xs.length := by omega
      simp [hfirst, List.getElem?_append_left hk]
    · simp [hfirst]
  · have hk : xs.length ≤ (i - first).toNat := by omega
    have hsub : (i - (first + xs.length)).toNat = (i - first).toNat - xs.length := by
      omega
    have hfirst : first ≤ i := by omega
    have hsecond : first + xs.length ≤ i := by omega
    unfold combineAt
    simp [hfirst, hsecond, hsub, List.getElem?_append_right hk,
      List.getElem?_eq_none hk]

theorem segment_succ (m : ℤ → α) (first : ℤ) (n : ℕ) :
    segment m first (n + 1) = m first :: segment m (first + 1) n := by
  have htail : ∀ k : ℕ, m (first + ((k + 1 : ℕ) : ℤ)) = m (first + 1 + k) := by
    intro k
    congr 1
    push_cast
    ring
  simp [segment, List.range_succ_eq_map, Function.comp_def, ← htail]

theorem segment_add (m : ℤ → α) (first : ℤ) (a b : ℕ) :
    segment m first (a + b) = segment m first a ++ segment m (first + a) b := by
  simp [segment, List.range_add, Function.comp_def, Int.add_assoc]

theorem segment_combineAt (m : ℤ → α) (first : ℤ) (xs : List α) :
    segment (combineAt (fun _ new => new) m first xs) first xs.length = xs := by
  apply List.ext_getElem?
  intro k
  by_cases hk : k < xs.length
  · rw [segment_getElem? _ _ hk, combineAt_apply _ _ _ _ hk,
      List.getElem?_eq_getElem hk]
  · have hsegment :
        (segment (combineAt (fun _ new => new) m first xs) first xs.length).length ≤ k := by
      simpa using hk
    rw [List.getElem?_eq_none hsegment, List.getElem?_eq_none (by omega)]

/-- The first cell from `first` on where two memories differ, looking at `n`
cells at most: `first + n` when the memories agree on all of them. -/
def firstDifference [DecidableEq α] (a b : ℤ → α) (first : ℤ) : ℕ → ℤ
  | 0 => first
  | n + 1 =>
      if a first ≠ b first then first else firstDifference a b (first + 1) n

/-- The last cell down from `last` where two memories differ, looking at `n`
cells at most. -/
def lastDifference [DecidableEq α] (a b : ℤ → α) (last : ℤ) : ℕ → ℤ
  | 0 => last
  | n + 1 =>
      if a last ≠ b last then last else lastDifference a b (last - 1) n

theorem firstDifference_bounds [DecidableEq α] (a b : ℤ → α) (first : ℤ) (n : ℕ) :
    first ≤ firstDifference a b first n ∧ firstDifference a b first n ≤ first + n := by
  induction n generalizing first with
  | zero => simp [firstDifference]
  | succ n ih =>
      unfold firstDifference
      split
      · constructor <;> omega
      · have := ih (first + 1)
        push_cast
        omega

theorem eq_of_lt_firstDifference [DecidableEq α] (a b : ℤ → α) {first i : ℤ} {n : ℕ}
    (hlo : first ≤ i) (hhi : i < firstDifference a b first n) : a i = b i := by
  induction n generalizing first with
  | zero =>
      simp only [firstDifference] at hhi
      omega
  | succ n ih =>
      unfold firstDifference at hhi
      split at hhi
      · omega
      · rename_i heq
        by_cases hi : i = first
        · subst i
          exact not_not.mp heq
        · exact ih (by omega) hhi

theorem lastDifference_bounds [DecidableEq α] (a b : ℤ → α) (last : ℤ) (n : ℕ) :
    last - n ≤ lastDifference a b last n ∧ lastDifference a b last n ≤ last := by
  induction n generalizing last with
  | zero => simp [lastDifference]
  | succ n ih =>
      unfold lastDifference
      split
      · constructor <;> omega
      · have := ih (last - 1)
        push_cast
        omega

theorem eq_of_lastDifference_lt [DecidableEq α] (a b : ℤ → α) {last i : ℤ} {n : ℕ}
    (hlo : lastDifference a b last n < i) (hhi : i ≤ last) : a i = b i := by
  induction n generalizing last with
  | zero =>
      simp only [lastDifference] at hlo
      omega
  | succ n ih =>
      unfold lastDifference at hlo
      split at hlo
      · omega
      · rename_i heq
        by_cases hi : i = last
        · subst i
          exact not_not.mp heq
        · exact ih hlo (by omega)

theorem ne_firstDifference [DecidableEq α] (a b : ℤ → α) {first : ℤ} {n : ℕ}
    (h : firstDifference a b first n < first + n) :
    a (firstDifference a b first n) ≠ b (firstDifference a b first n) := by
  induction n generalizing first with
  | zero => simp [firstDifference] at h
  | succ n ih =>
      unfold firstDifference at h ⊢
      split_ifs at h ⊢ with hdiff
      · exact hdiff
      · exact ih (by omega)

theorem ne_lastDifference [DecidableEq α] (a b : ℤ → α) {last : ℤ} {n : ℕ}
    (h : last - n < lastDifference a b last n) :
    a (lastDifference a b last n) ≠ b (lastDifference a b last n) := by
  induction n generalizing last with
  | zero => simp [lastDifference] at h
  | succ n ih =>
      unfold lastDifference at h ⊢
      split_ifs at h ⊢ with hdiff
      · exact hdiff
      · exact ih (by omega)

/-- Shrink a range from both ends to the cells where two memories differ; the
result is empty when they agree. -/
def shrink [DecidableEq α] (a b : ℤ → α) (first last : ℤ) : ℤ × ℤ :=
  let first' := firstDifference a b first (last - first + 1).toNat
  (first', lastDifference a b last (last - first' + 1).toNat)

theorem shrink_spec [DecidableEq α] (a b : ℤ → α) (first last : ℤ) :
    first ≤ (shrink a b first last).1 ∧ (shrink a b first last).2 ≤ last ∧
      ∀ i, first ≤ i → i ≤ last →
        ¬((shrink a b first last).1 ≤ i ∧ i ≤ (shrink a b first last).2) →
          a i = b i := by
  refine ⟨(firstDifference_bounds a b first _).1,
    (lastDifference_bounds a b last _).2, fun i hlo hhi hout => ?_⟩
  by_cases hi : i < (shrink a b first last).1
  · exact eq_of_lt_firstDifference a b hlo hi
  · exact eq_of_lastDifference_lt a b
      (lt_of_not_ge fun h => hout ⟨not_lt.mp hi, h⟩) hhi

theorem shrink_ends [DecidableEq α] (a b : ℤ → α) {first last : ℤ}
    (h : (shrink a b first last).1 ≤ (shrink a b first last).2) :
    a (shrink a b first last).1 ≠ b (shrink a b first last).1 ∧
      a (shrink a b first last).2 ≠ b (shrink a b first last).2 := by
  have hspec := shrink_spec a b first last
  refine ⟨ne_firstDifference a b ?_, ne_lastDifference a b ?_⟩
  · change (shrink a b first last).1 < _
    omega
  · change _ < (shrink a b first last).2
    change last - ((last - (shrink a b first last).1 + 1).toNat : ℤ) < _
    omega

end Segment
