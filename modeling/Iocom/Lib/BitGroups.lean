import Mathlib.Data.Nat.Bitwise
import Mathlib.Data.List.Basic
import Mathlib.Tactic.Common

/-!
# Numbers on a line of bits

Numbers which are sent one after the other, `w` bits each and the lowest first, and
how many zeros stand in a row on the line.
-/

namespace BitGroups

/-- The `w` lowest bits of `c`, the lowest first. -/
def lowBits (w c : ℕ) : List Bool := (List.range w).map c.testBit

/-- The numbers `cs` on the line. -/
def groupBits (w : ℕ) (cs : List ℕ) : List Bool := cs.flatMap (lowBits w)

variable {w c j i : ℕ} {cs : List ℕ}

@[simp] theorem length_lowBits : (lowBits w c).length = w := by simp [lowBits]

theorem getD_lowBits (hi : i < w) : (lowBits w c).getD i false = c.testBit i := by
  simp [lowBits, hi]

@[simp] theorem groupBits_nil : groupBits w [] = [] := rfl

@[simp] theorem groupBits_cons : groupBits w (c :: cs) = lowBits w c ++ groupBits w cs := rfl

@[simp] theorem length_groupBits : (groupBits w cs).length = w * cs.length := by
  induction cs with
  | nil => rfl
  | cons c cs ih => simp [ih, Nat.mul_succ, Nat.add_comm]

/-- The bits of the `j`th number stand from bit `w * j` on. -/
theorem getD_groupBits (hi : i < w) :
    (groupBits w cs).getD (w * j + i) false = (cs.getD j 0).testBit i := by
  induction cs generalizing j with
  | nil => simp
  | cons c cs ih =>
      cases j with
      | zero =>
          have hlt : i < (lowBits w c).length := by simpa using hi
          rw [groupBits_cons, Nat.mul_zero, Nat.zero_add, List.getD_append _ _ _ _ hlt,
            getD_lowBits hi]
          simp
      | succ j =>
          have hle : (lowBits w c).length ≤ w * (j + 1) + i := by
            simp [Nat.mul_succ]
            omega
          have hrest : w * (j + 1) + i - (lowBits w c).length = w * j + i := by
            simp [Nat.mul_succ]
            omega
          rw [groupBits_cons, List.getD_append_right _ _ _ _ hle, hrest, ih]
          simp

/-! ## Zeros in a row -/

/-- How many zeros stand at the end of the line when `n` stood there before a bit. -/
def zeroStep (n : ℕ) (b : Bool) : ℕ := if b then 0 else n + 1

/-- How many zeros stand at the end of the line when `n` stood there before `bits`. -/
def zerosAfter (n : ℕ) (bits : List Bool) : ℕ := bits.foldl zeroStep n

/-- `m` zeros in a row are never reached. -/
def ZerosBelow (m : ℕ) : ℕ → List Bool → Prop
  | _, [] => True
  | n, b :: bits => zeroStep n b < m ∧ ZerosBelow m (zeroStep n b) bits

instance decidableZerosBelow (m : ℕ) : ∀ n bits, Decidable (ZerosBelow m n bits)
  | _, [] => isTrue trivial
  | n, b :: bits =>
      @instDecidableAnd _ _ _ (decidableZerosBelow m (zeroStep n b) bits)

variable {m n n' : ℕ} {b : Bool} {bits more : List Bool}

@[simp] theorem zeroStep_true : zeroStep n true = 0 := rfl

@[simp] theorem zeroStep_false : zeroStep n false = n + 1 := rfl

@[simp] theorem zerosAfter_nil : zerosAfter n [] = n := rfl

@[simp] theorem zerosAfter_cons : zerosAfter n (b :: bits) = zerosAfter (zeroStep n b) bits := rfl

theorem zerosAfter_append :
    zerosAfter n (bits ++ more) = zerosAfter (zerosAfter n bits) more := by
  simp [zerosAfter]

@[simp] theorem zerosBelow_nil : ZerosBelow m n [] := trivial

@[simp] theorem zerosBelow_cons :
    ZerosBelow m n (b :: bits) ↔ zeroStep n b < m ∧ ZerosBelow m (zeroStep n b) bits := Iff.rfl

theorem zerosBelow_append :
    ZerosBelow m n (bits ++ more) ↔ ZerosBelow m n bits ∧ ZerosBelow m (zerosAfter n bits) more := by
  induction bits generalizing n with
  | nil => simp
  | cons b bits ih => simp [ih, and_assoc]

theorem zerosAfter_replicate (k : ℕ) : zerosAfter n (List.replicate k false) = n + k := by
  induction k generalizing n with
  | zero => rfl
  | succ k ih => simp [List.replicate_succ, ih, Nat.add_assoc, Nat.add_comm 1 k]

theorem zerosBelow_replicate {k : ℕ} (h : n + k < m) :
    ZerosBelow m n (List.replicate k false) := by
  induction k generalizing n with
  | zero => trivial
  | succ k ih => exact ⟨by simp; omega, ih (by simp; omega)⟩

theorem zeroStep_mono (h : n ≤ n') : zeroStep n b ≤ zeroStep n' b := by
  cases b <;> simp [h]

theorem zerosAfter_mono (h : n ≤ n') : zerosAfter n bits ≤ zerosAfter n' bits := by
  induction bits generalizing n n' with
  | nil => simpa using h
  | cons b bits ih => exact ih (zeroStep_mono h)

theorem ZerosBelow.mono (h : ZerosBelow m n' bits) (hn : n ≤ n') : ZerosBelow m n bits := by
  induction bits generalizing n n' with
  | nil => trivial
  | cons b bits ih =>
      have hstep := zeroStep_mono (b := b) hn
      exact ⟨by have := h.1; omega, ih h.2 hstep⟩

/-- Numbers which keep at most `n` zeros at the end of the line, each of them, keep
them together. -/
theorem groupBits_zeros (hstep : ∀ c ∈ cs, ZerosBelow m n (lowBits w c) ∧
      zerosAfter n (lowBits w c) ≤ n) (hn : n' ≤ n) :
    ZerosBelow m n' (groupBits w cs) ∧ zerosAfter n' (groupBits w cs) ≤ n := by
  induction cs generalizing n' with
  | nil => simpa using hn
  | cons c cs ih =>
      obtain ⟨hbelow, hafter⟩ := hstep c (by simp)
      have hle : zerosAfter n' (lowBits w c) ≤ n := (zerosAfter_mono hn).trans hafter
      have hrest := ih (fun d hd => hstep d (by simp [hd])) hle
      rw [groupBits_cons, zerosBelow_append, zerosAfter_append]
      exact ⟨⟨hbelow.mono hn, hrest.1⟩, hrest.2⟩

end BitGroups
