import Mathlib.Data.List.Rotate
import Iocom.Lib.Overwrite

/-!
# Ring buffers

A ring buffer is a list of cells with two indices: elements stand from `tail` on up to
the cell before `head`, and go on at the first cell behind the last one.  One cell is
always free, so that equal indices mean an empty ring.  Runs of cells are read and
written which do not go beyond the last cell.
-/

structure RingBuffer (α : Type*) where
  buf : List α
  head : ℕ
  tail : ℕ
  head_lt : head < buf.length
  tail_lt : tail < buf.length

namespace RingBuffer

open Buffer

variable {α : Type*}

/-- The number of elements. -/
def count (r : RingBuffer α) : ℕ := (r.head + r.buf.length - r.tail) % r.buf.length

def space (r : RingBuffer α) : ℕ := r.buf.length - 1 - r.count

/-- The elements in their order. -/
def contents (r : RingBuffer α) : List α := (r.buf.rotate r.tail).take r.count

/-- The index `k` cells on, at most one behind the last cell. -/
def wrapped (sz i k : ℕ) : ℕ := if sz ≤ i + k then 0 else i + k

/-- The cells from the tail on. -/
def run (r : RingBuffer α) (k : ℕ) : List α := (r.buf.drop r.tail).take k

theorem wrapped_lt {sz i : ℕ} (h : i < sz) (k : ℕ) : wrapped sz i k < sz := by
  unfold wrapped
  split_ifs <;> omega

theorem wrapped_eq {sz i k : ℕ} (h : i + k ≤ sz) : wrapped sz i k = (i + k) % sz := by
  unfold wrapped
  split_ifs with hend
  · rw [Nat.le_antisymm h hend, Nat.mod_self]
  · exact (Nat.mod_eq_of_lt (not_le.mp hend)).symm

/-- The first `k` elements are taken out. -/
def advance (r : RingBuffer α) (k : ℕ) : RingBuffer α :=
  { r with
    tail := wrapped r.buf.length r.tail k
    tail_lt := wrapped_lt r.tail_lt k }

/-- Elements are stored from the head on. -/
def store (r : RingBuffer α) (data : List α) (h : r.head + data.length ≤ r.buf.length) :
    RingBuffer α where
  buf := overwrite r.buf r.head data
  head := wrapped r.buf.length r.head data.length
  tail := r.tail
  head_lt := by
    rw [overwrite_length h]
    exact wrapped_lt r.head_lt _
  tail_lt := by
    rw [overwrite_length h]
    exact r.tail_lt

section

variable {r : RingBuffer α} {k : ℕ}

theorem count_eq (r : RingBuffer α) :
    r.count = if r.tail ≤ r.head then r.head - r.tail else r.head + r.buf.length - r.tail := by
  have hhead := r.head_lt
  have htail := r.tail_lt
  unfold count
  split_ifs with h
  · rw [show r.head + r.buf.length - r.tail = r.head - r.tail + r.buf.length by omega,
      Nat.add_mod_right, Nat.mod_eq_of_lt (by omega)]
  · exact Nat.mod_eq_of_lt (by omega)

theorem count_lt (r : RingBuffer α) : r.count < r.buf.length :=
  Nat.mod_lt _ (Nat.zero_lt_of_lt r.head_lt)

@[simp] theorem contents_length (r : RingBuffer α) : r.contents.length = r.count := by
  rw [contents, List.length_take, List.length_rotate]
  exact Nat.min_eq_left r.count_lt.le

/-- The cell of an index which is less than a round beyond the ring. -/
theorem index_eq {sz i : ℕ} (h : i < 2 * sz) : i % sz = if i < sz then i else i - sz := by
  split_ifs with hlt
  · exact Nat.mod_eq_of_lt hlt
  · rw [Nat.mod_eq_sub_mod (not_lt.mp hlt), Nat.mod_eq_of_lt (by omega)]

theorem contents_getElem? (hk : k < r.count) :
    r.contents[k]? = r.buf[if k + r.tail < r.buf.length then k + r.tail
      else k + r.tail - r.buf.length]? := by
  have hcount := r.count_lt
  have htail := r.tail_lt
  rw [contents, List.getElem?_take_of_lt hk, List.getElem?_rotate (by omega),
    index_eq (by omega)]

theorem run_length (h : r.tail + k ≤ r.buf.length) : (r.run k).length = k := by
  rw [run, List.length_take, List.length_drop]
  omega

theorem run_eq (hk : k ≤ r.count) (h : r.tail + k ≤ r.buf.length) :
    r.run k = r.contents.take k := by
  apply List.ext_getElem?
  intro j
  by_cases hj : j < k
  · rw [run, List.getElem?_take_of_lt hj, List.getElem?_drop, List.getElem?_take_of_lt hj,
      contents_getElem? (by omega), if_pos (by omega), Nat.add_comm]
  · rw [List.getElem?_eq_none (by rw [run_length h]; omega),
      List.getElem?_eq_none (by rw [List.length_take, contents_length]; omega)]

theorem advance_count (hk : k ≤ r.count) (h : r.tail + k ≤ r.buf.length) :
    (r.advance k).count = r.count - k := by
  have hhead := r.head_lt
  have htail := r.tail_lt
  rw [count_eq] at hk ⊢
  rw [count_eq]
  simp only [advance, wrapped]
  split_ifs at hk ⊢ <;> omega

theorem advance_contents (hk : k ≤ r.count) (h : r.tail + k ≤ r.buf.length) :
    (r.advance k).contents = r.contents.drop k := by
  have hcount := advance_count hk h
  have hlt := r.count_lt
  apply List.ext_getElem?
  intro j
  by_cases hj : j < r.count - k
  · rw [List.getElem?_drop, contents_getElem? (by omega), contents_getElem? (by omega)]
    have htail := r.tail_lt
    simp only [advance, wrapped]
    congr 1
    split_ifs <;> omega
  · rw [List.getElem?_eq_none (by rw [contents_length]; omega),
      List.getElem?_eq_none (by rw [List.length_drop, contents_length]; omega)]

variable {data : List α} {h : r.head + data.length ≤ r.buf.length}

theorem store_count (hspace : data.length ≤ r.space) :
    (r.store data h).count = r.count + data.length := by
  have hhead := r.head_lt
  have htail := r.tail_lt
  unfold space at hspace
  rw [count_eq] at hspace ⊢
  rw [count_eq]
  simp only [store, wrapped, overwrite_length h]
  split_ifs at hspace ⊢ <;> omega

theorem store_space (hspace : data.length ≤ r.space) :
    (r.store data h).space = r.space - data.length := by
  rw [space, store_count hspace, space]
  simp only [store, overwrite_length h]
  omega

theorem store_contents (hspace : data.length ≤ r.space) :
    (r.store data h).contents = r.contents ++ data := by
  have hcount := @store_count _ r data h hspace
  have hhead := r.head_lt
  have htail := r.tail_lt
  have hlt := r.count_lt
  have hindex := r.count_eq
  unfold space at hspace
  apply List.ext_getElem?
  intro j
  rcases Nat.lt_or_ge j (r.count + data.length) with hj | hj
  · rw [contents_getElem? (by omega)]
    simp only [store, overwrite_length h]
    rw [overwrite_getElem? h]
    rcases Nat.lt_or_ge j r.count with hold | hnew
    · rw [List.getElem?_append_left (by rwa [contents_length]), contents_getElem? hold,
        if_neg (by split_ifs at hindex ⊢ <;> omega)]
    · rw [List.getElem?_append_right (by rwa [contents_length]), contents_length,
        if_pos (by split_ifs at hindex ⊢ <;> omega)]
      congr 1
      split_ifs at hindex ⊢ <;> omega
  · rw [List.getElem?_eq_none (by rw [contents_length]; omega),
      List.getElem?_eq_none (by rw [List.length_append, contents_length]; omega)]

end

end RingBuffer
