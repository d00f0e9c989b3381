import Mathlib.Data.List.Basic
import Mathlib.Tactic.Ring

/-!
# Reversed groups

A list cut into groups of one size, each of them reversed: how the byte order
of an array of numbers is changed.  Reversing twice gives the groups back.
-/

namespace ReversedGroups

variable {α : Type*}

/-- The first `count` groups of `size` elements, each of them reversed. -/
def reverseGroups (size : ℕ) : ℕ → List α → List α
  | 0, _ => []
  | count + 1, xs =>
      (xs.take size).reverse ++ reverseGroups size count (xs.drop size)

variable {size count : ℕ} {xs : List α}

@[simp] theorem reverseGroups_zero (size : ℕ) (xs : List α) :
    reverseGroups size 0 xs = [] := rfl

theorem reverseGroups_length (hlen : size * count ≤ xs.length) :
    (reverseGroups size count xs).length = size * count := by
  induction count generalizing xs with
  | zero => simp
  | succ count ih =>
      have hrest : size * count ≤ (xs.drop size).length := by
        rw [List.length_drop]
        rw [Nat.mul_succ] at hlen
        omega
      have hsize : size ≤ xs.length := by
        rw [Nat.mul_succ] at hlen
        omega
      simp only [reverseGroups, List.length_append, List.length_reverse,
        List.length_take, ih hrest, Nat.min_eq_left hsize]
      ring

theorem reverseGroups_take {n : ℕ} (hn : size * count ≤ n) :
    reverseGroups size count (xs.take n) = reverseGroups size count xs := by
  induction count generalizing xs n with
  | zero => simp
  | succ count ih =>
      have hsize : size ≤ n := by
        rw [Nat.mul_succ] at hn
        omega
      have hrest : size * count ≤ n - size := by
        rw [Nat.mul_succ] at hn
        omega
      simp only [reverseGroups, List.take_take, Nat.min_eq_left hsize,
        List.drop_take, ih hrest]

theorem reverseGroups_reverseGroups (hlen : xs.length = size * count) :
    reverseGroups size count (reverseGroups size count xs) = xs := by
  induction count generalizing xs with
  | zero =>
      have hnil : xs = [] := List.eq_nil_of_length_eq_zero (by simpa using hlen)
      simp [hnil]
  | succ count ih =>
      have hsize : size ≤ xs.length := by
        rw [hlen, Nat.mul_succ]
        omega
      have hrest : (xs.drop size).length = size * count := by
        rw [List.length_drop, hlen, Nat.mul_succ]
        omega
      have hgroup : (xs.take size).reverse.length = size := by
        simpa using hsize
      have hreversed : (xs.take size).reverse.reverse = xs.take size :=
        List.reverse_reverse _
      simp only [reverseGroups, List.take_left' hgroup, List.drop_left' hgroup,
        ih hrest, hreversed, List.take_append_drop]

/-- The first groups of the result are the reversed first groups. -/
theorem take_reverseGroups {m : ℕ} (hm : m ≤ count) (hlen : size * count ≤ xs.length) :
    (reverseGroups size count xs).take (size * m) = reverseGroups size m xs := by
  induction m generalizing count xs with
  | zero => simp
  | succ m ih =>
      obtain ⟨rest, rfl⟩ : ∃ rest, count = rest + 1 := ⟨count - 1, by omega⟩
      rw [Nat.mul_succ] at hlen
      have hgroup : (xs.take size).reverse.length = size := by
        simp
        omega
      have hrest : (reverseGroups size rest (xs.drop size)).take (size * m) =
          reverseGroups size m (xs.drop size) :=
        ih (by omega) (by rw [List.length_drop]; omega)
      have hsub : size * m + size - size = size * m := Nat.add_sub_cancel _ _
      rw [reverseGroups, reverseGroups, Nat.mul_succ, List.take_append, hgroup, hsub, hrest,
        List.take_of_length_le (by omega)]

theorem reverseGroups_replicate (a : α) {n : ℕ} (hn : size * count ≤ n) :
    reverseGroups size count (List.replicate n a) = List.replicate (size * count) a := by
  induction count generalizing n with
  | zero => simp
  | succ count ih =>
      rw [Nat.mul_succ] at hn
      have hrest : size * count ≤ n - size := by omega
      have hsize : min size n = size := by omega
      simp only [reverseGroups, List.take_replicate, List.drop_replicate,
        List.reverse_replicate, ih hrest, hsize, List.replicate_append_replicate]
      ring_nf

end ReversedGroups
