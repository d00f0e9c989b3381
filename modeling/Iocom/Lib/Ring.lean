import Iocom.Lib.Segment
import Mathlib.Data.Nat.ModEq

/-!
# Rings of cells

A ring of `sz` cells holds elements of a sequence: the one with the index `a`
is in the cell `a % sz`.  Elements are stored and read in runs of cells which do
not go beyond the last one.
-/

namespace Ring

variable {α : Type*} {sz : ℕ}

theorem mod_add_of_lt {a j : ℕ} (h : a % sz + j < sz) : (a + j) % sz = a % sz + j := by
  rw [← Nat.mod_add_mod, Nat.mod_eq_of_lt h]

theorem mod_add_of_wrap {a j : ℕ} (hlow : sz ≤ a % sz + j) (hhigh : a % sz + j < 2 * sz) :
    (a + j) % sz = a % sz + j - sz := by
  rw [← Nat.mod_add_mod, Nat.mod_eq_sub_mod hlow, Nat.mod_eq_of_lt (by omega)]

/-- The distance of two indices which are less than a round apart. -/
theorem sub_of_mod_le {a b : ℕ} (hsz : 0 < sz) (hab : a ≤ b) (hround : b < a + sz)
    (hmod : a % sz ≤ b % sz) : b - a = b % sz - a % sz := by
  obtain ⟨j, rfl⟩ := Nat.exists_eq_add_of_le hab
  have hlt := Nat.mod_lt a hsz
  by_cases hwrap : a % sz + j < sz
  · rw [mod_add_of_lt hwrap]
    omega
  · rw [mod_add_of_wrap (by omega) (by omega)] at hmod
    omega

theorem sub_of_lt_mod {a b : ℕ} (hsz : 0 < sz) (hab : a ≤ b) (hround : b < a + sz)
    (hmod : b % sz < a % sz) : b - a = b % sz + sz - a % sz := by
  obtain ⟨j, rfl⟩ := Nat.exists_eq_add_of_le hab
  have hlt := Nat.mod_lt a hsz
  by_cases hwrap : a % sz + j < sz
  · rw [mod_add_of_lt hwrap] at hmod
    omega
  · rw [mod_add_of_wrap (by omega) (by omega)]
    omega

/-- Different indices less than a round apart have different cells. -/
theorem mod_ne {a b : ℕ} (hab : a < b) (hround : b < a + sz) : a % sz ≠ b % sz := by
  intro h
  have hsz : 0 < sz := by omega
  have hdistance := sub_of_mod_le hsz (Nat.le_of_lt hab) hround (Nat.le_of_eq h)
  omega

/-- The elements from the index `first` on to the one before `last` are in
their cells. -/
def Holds (sz : ℕ) (m : ℤ → α) (xs : List α) (first last : ℕ) : Prop :=
  ∀ a, first ≤ a → a < last → xs[a]? = some (m ((a % sz : ℕ) : ℤ))

theorem Holds.mono {m : ℤ → α} {xs : List α} {first last first' last' : ℕ}
    (h : Holds sz m xs first last) (hfirst : first ≤ first') (hlast : last' ≤ last) :
    Holds sz m xs first' last' :=
  fun a ha ha' => h a (Nat.le_trans hfirst ha) (Nat.lt_of_lt_of_le ha' hlast)

theorem Holds.append {m : ℤ → α} {xs : List α} {first last : ℕ}
    (h : Holds sz m xs first last) (ys : List α) : Holds sz m (xs ++ ys) first last := by
  intro a ha ha'
  have hold := h a ha ha'
  obtain ⟨hlt, -⟩ := List.getElem?_eq_some_iff.mp hold
  rw [List.getElem?_append_left hlt, hold]

/-- A run of elements is stored behind those of a sequence. -/
def store (sz : ℕ) (m : ℤ → α) (start : ℕ) (ys : List α) : ℤ → α :=
  Segment.combineAt (fun _ new => new) m ((start % sz : ℕ) : ℤ) ys

theorem store_of_other {m : ℤ → α} {start : ℕ} {ys : List α} {i : ℤ}
    (hrun : start % sz + ys.length ≤ sz)
    (hother : ∀ j < ys.length, i ≠ (((start + j) % sz : ℕ) : ℤ)) :
    store sz m start ys i = m i := by
  apply Segment.combineAt_of_outside
  by_contra hinside
  rw [not_or, not_lt, not_le] at hinside
  obtain ⟨hlow, hhigh⟩ := hinside
  apply hother (i - (start % sz : ℕ)).toNat (by omega)
  rw [mod_add_of_lt (by omega)]
  omega

theorem store_apply {m : ℤ → α} {start j : ℕ} {ys : List α}
    (hrun : start % sz + ys.length ≤ sz) (hj : j < ys.length) :
    store sz m start ys (((start + j) % sz : ℕ) : ℤ) = ys[j] := by
  rw [mod_add_of_lt (by omega)]
  unfold store Segment.combineAt
  have hindex : (((start % sz + j : ℕ) : ℤ) - ((start % sz : ℕ) : ℤ)).toNat = j := by omega
  rw [if_pos (by omega), hindex, List.getElem?_eq_getElem hj]

theorem Holds.store {m : ℤ → α} {xs ys : List α} {first : ℕ}
    (h : Holds sz m xs first xs.length) (hrun : xs.length % sz + ys.length ≤ sz)
    (hround : xs.length + ys.length ≤ first + sz) :
    Holds sz (Ring.store sz m xs.length ys) (xs ++ ys) first (xs ++ ys).length := by
  intro a ha ha'
  rw [List.length_append] at ha'
  by_cases hold : a < xs.length
  · have hother : ∀ j < ys.length,
        ((a % sz : ℕ) : ℤ) ≠ (((xs.length + j) % sz : ℕ) : ℤ) := by
      intro j hj heq
      exact @mod_ne sz a (xs.length + j) (by omega) (by omega) (by exact_mod_cast heq)
    rw [store_of_other hrun hother, List.getElem?_append_left hold, h a ha hold]
  · obtain ⟨j, rfl⟩ := Nat.exists_eq_add_of_le (Nat.le_of_not_lt hold)
    have hj : j < ys.length := by omega
    rw [store_apply hrun hj, List.getElem?_append_right (Nat.le_add_right _ _),
      Nat.add_sub_cancel_left, List.getElem?_eq_getElem hj]

/-- A run of cells which hold elements is a part of the sequence. -/
theorem Holds.segment {m : ℤ → α} {xs : List α} {first last n : ℕ}
    (h : Holds sz m xs first last) (hrun : first % sz + n ≤ sz) (hlast : first + n ≤ last) :
    Segment.segment m ((first % sz : ℕ) : ℤ) n = (xs.drop first).take n := by
  apply List.ext_getElem?
  intro j
  by_cases hj : j < n
  · rw [Segment.segment_getElem? _ _ hj, List.getElem?_take_of_lt hj, List.getElem?_drop,
      h (first + j) (by omega) (by omega), mod_add_of_lt (by omega)]
    rfl
  · rw [List.getElem?_eq_none (by rw [Segment.segment_length]; omega),
      List.getElem?_eq_none (by rw [List.length_take]; omega)]

end Ring
