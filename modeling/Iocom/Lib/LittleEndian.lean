import Mathlib.Data.Nat.Digits.Defs
import Mathlib.Tactic.Ring

/-!
# Integers as bytes

The bytes of a fixed number of an integer, the lowest one first.  Casting an
integer to a type of so many bytes keeps it modulo a power of 256; what is read
back is its representative in the range of the type.
-/

namespace LittleEndian

/-- The lowest bytes of a number. -/
def split : ℕ → ℕ → List UInt8
  | 0, _ => []
  | size + 1, n => UInt8.ofNat n :: split size (n / 256)

def combine (bytes : List UInt8) : ℕ :=
  Nat.ofDigits 256 (bytes.map UInt8.toNat)

@[simp] theorem split_length (size n : ℕ) : (split size n).length = size := by
  induction size generalizing n with
  | zero => rfl
  | succ size ih => simp [split, ih]

theorem combine_cons (b : UInt8) (bytes : List UInt8) :
    combine (b :: bytes) = b.toNat + 256 * combine bytes := by
  simp [combine, Nat.ofDigits_cons]

theorem combine_split (size n : ℕ) : combine (split size n) = n % 256 ^ size := by
  induction size generalizing n with
  | zero => simp [split, combine, Nat.mod_one]
  | succ size ih =>
      have hbyte : (UInt8.ofNat n).toNat = n % 256 := by simp
      rw [split, combine_cons, ih, hbyte, pow_succ', Nat.mod_mul]

/-- The bytes of an integer which is cast to so many bytes. -/
def ofInt (size : ℕ) (v : ℤ) : List UInt8 := split size (v % 256 ^ size).toNat

/-- The integer of a signed or an unsigned type which has these bytes. -/
def toInt (signed : Bool) (bytes : List UInt8) : ℤ :=
  if signed then Int.bmod (combine bytes) (256 ^ bytes.length) else combine bytes

@[simp] theorem ofInt_length (size : ℕ) (v : ℤ) : (ofInt size v).length = size :=
  split_length size _

theorem combine_ofInt (size : ℕ) (v : ℤ) :
    (combine (ofInt size v) : ℤ) = v % 256 ^ size := by
  have hpos : (0 : ℤ) < 256 ^ size := by positivity
  have hnonneg : 0 ≤ v % 256 ^ size := Int.emod_nonneg v hpos.ne'
  rw [ofInt, combine_split, Nat.mod_eq_of_lt, Int.toNat_of_nonneg hnonneg]
  have hlt : v % 256 ^ size < 256 ^ size := Int.emod_lt_of_pos v hpos
  zify
  rw [Int.toNat_of_nonneg hnonneg]
  exact hlt

theorem toInt_ofInt_unsigned {size : ℕ} {v : ℤ} (hlo : 0 ≤ v) (hhi : v < 256 ^ size) :
    toInt false (ofInt size v) = v := by
  simp only [toInt, Bool.false_eq_true, if_false, combine_ofInt]
  exact Int.emod_eq_of_lt hlo hhi

theorem toInt_ofInt_signed {size : ℕ} {v : ℤ} (hsize : 0 < size)
    (hlo : -(256 ^ size / 2) ≤ v) (hhi : v < 256 ^ size / 2) :
    toInt true (ofInt size v) = v := by
  obtain ⟨m, hm⟩ : ∃ m : ℕ, 256 ^ size = 2 * m := by
    obtain ⟨k, rfl⟩ := Nat.exists_eq_succ_of_ne_zero hsize.ne'
    exact ⟨128 * 256 ^ k, by rw [pow_succ]; ring⟩
  have hmint : (256 : ℤ) ^ size = 2 * m := by exact_mod_cast hm
  have hcast : ((256 ^ size : ℕ) : ℤ) = 2 * m := by rw [hm]; push_cast; ring
  rw [hmint] at hlo hhi
  simp only [toInt, if_true, combine_ofInt, ofInt_length]
  rw [hmint, hm]
  have hbmod : Int.bmod (v % ((2 * m : ℕ) : ℤ)) (2 * m) = Int.bmod v (2 * m) :=
    Int.emod_bmod v (2 * m)
  push_cast at hbmod
  rw [hbmod]
  exact Int.bmod_eq_of_le (by omega) (by omega)

end LittleEndian
