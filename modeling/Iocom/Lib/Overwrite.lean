import Mathlib.Data.List.Basic

/-!
# Writing into a buffer

Allocated memory is the list of its cells; data which is copied into it takes the
place of as many cells.
-/

namespace Buffer

variable {α : Type*}

/-- `data` is copied to `buf` from the cell `pos` on. -/
def overwrite (buf : List α) (pos : ℕ) (data : List α) : List α :=
  buf.take pos ++ data ++ buf.drop (pos + data.length)

theorem overwrite_length {buf data : List α} {pos : ℕ} (h : pos + data.length ≤ buf.length) :
    (overwrite buf pos data).length = buf.length := by
  unfold overwrite
  simp only [List.length_append, List.length_take, List.length_drop]
  omega

theorem overwrite_getElem? {buf data : List α} {pos : ℕ} (h : pos + data.length ≤ buf.length)
    (i : ℕ) : (overwrite buf pos data)[i]? =
      if pos ≤ i ∧ i < pos + data.length then data[i - pos]? else buf[i]? := by
  have htake : (buf.take pos).length = pos := by
    rw [List.length_take]
    omega
  unfold overwrite
  rw [List.append_assoc]
  rcases Nat.lt_or_ge i pos with hlow | hlow
  · rw [List.getElem?_append_left (by omega), List.getElem?_take_of_lt hlow, if_neg (by omega)]
  · rw [List.getElem?_append_right (by omega), htake]
    rcases Nat.lt_or_ge i (pos + data.length) with hhigh | hhigh
    · rw [List.getElem?_append_left (by omega), if_pos ⟨hlow, hhigh⟩]
    · rw [List.getElem?_append_right (by omega), List.getElem?_drop, if_neg (by omega)]
      congr 1
      omega

/-- A buffer which is filled up to `part` goes on with `data`. -/
theorem overwrite_take {buf part : List α} (htake : buf.take part.length = part)
    (data : List α) :
    (overwrite buf part.length data).take (part ++ data).length = part ++ data := by
  unfold overwrite
  rw [htake]
  exact List.take_left

/-- What is written inside the first `n` cells is written to them. -/
theorem take_overwrite {buf data : List α} {pos n : ℕ} (h : pos + data.length ≤ n)
    (hn : n ≤ buf.length) :
    (overwrite buf pos data).take n = overwrite (buf.take n) pos data := by
  have hlength : (buf.take pos ++ data).length = pos + data.length := by
    rw [List.length_append, List.length_take]
    omega
  unfold overwrite
  rw [List.take_append, List.take_of_length_le (by omega), hlength, List.take_take,
    Nat.min_eq_left (by omega), List.drop_take]

end Buffer
