import Mathlib.Algebra.Order.Group.Nat

/-!
# Numbers which are given in rounds

Numbers are given from a first one on, and from the first one again when all of them have
been given.  Among the numbers which have been given last, the next number to be given
tells which is older.
-/

namespace RoundNumbers

variable {start period shift k m m' : ℕ}

/-- The number which is given after `m` others. -/
def number (start period m : ℕ) : ℕ := start + m % period

/-- A number of the round before, or of this round: the latter are shifted behind the
former. -/
def age (shift next n : ℕ) : ℕ := if next ≤ n then n else n + shift

theorem number_lt (hperiod : 0 < period) : number start period m < start + period :=
  Nat.add_lt_add_left (Nat.mod_lt m hperiod) start

/-- What has been given last is of this round or of the round before. -/
theorem round_cases (hperiod : 0 < period) (hm : m < k) (hk : k ≤ m + period) :
    (m / period = k / period ∧ m % period < k % period) ∨
      (m / period + 1 = k / period ∧ k % period ≤ m % period) := by
  have hle : m / period ≤ k / period := Nat.div_le_div_right hm.le
  have hge : k / period ≤ m / period + 1 := by
    calc k / period ≤ (m + period) / period := Nat.div_le_div_right hk
      _ = m / period + 1 := Nat.add_div_right m hperiod
  have hmod := Nat.div_add_mod m period
  have hmodk := Nat.div_add_mod k period
  rcases Nat.eq_or_lt_of_le hle with heq | hlt
  · left
    rw [← heq] at hmodk
    exact ⟨heq, by omega⟩
  · right
    have hsucc : m / period + 1 = k / period := by omega
    rw [← hsucc, Nat.mul_succ] at hmodk
    exact ⟨hsucc, by omega⟩

theorem age_lt (hperiod : 0 < period) (hshift : period ≤ shift) (hlt : m < m') (hm' : m' < k)
    (hk : k ≤ m + period) :
    age shift (number start period k) (number start period m) <
      age shift (number start period k) (number start period m') := by
  have hmod := Nat.div_add_mod m period
  have hmod' := Nat.div_add_mod m' period
  have hbound := Nat.mod_lt m hperiod
  have hbound' := Nat.mod_lt m' hperiod
  unfold age number
  rcases round_cases hperiod (hlt.trans hm') hk with ⟨hround, hpos⟩ | ⟨hround, hpos⟩
  · rcases round_cases hperiod hm' (hk.trans (Nat.add_le_add_right hlt.le period)) with
      ⟨hround', hpos'⟩ | ⟨hround', hpos'⟩
    · rw [hround] at hmod
      rw [hround'] at hmod'
      rw [if_neg (by omega), if_neg (by omega)]
      omega
    · -- the later number would be of an earlier round
      have hle : m / period ≤ m' / period := Nat.div_le_div_right hlt.le
      omega
  · rcases round_cases hperiod hm' (hk.trans (Nat.add_le_add_right hlt.le period)) with
      ⟨hround', hpos'⟩ | ⟨hround', hpos'⟩
    · rw [if_pos (by omega), if_neg (by omega)]
      omega
    · have hsame : m / period = m' / period := by omega
      rw [hsame] at hmod
      rw [if_pos (by omega), if_pos (by omega)]
      omega

theorem number_ne (hperiod : 0 < period) (hlt : m < m') (hm' : m' < m + period) :
    number start period m ≠ number start period m' := by
  unfold number
  rcases round_cases hperiod hlt hm'.le with ⟨-, hpos⟩ | ⟨hround, hpos⟩
  · omega
  · have hmod := Nat.div_add_mod m period
    have hmod' := Nat.div_add_mod m' period
    rw [← hround, Nat.mul_succ] at hmod'
    omega

end RoundNumbers
