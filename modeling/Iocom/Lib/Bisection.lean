import Mathlib.Data.Nat.Init

/-!
# Bisection which stops at two entries

A bisection of numbered entries which leaves one or two of them, and the choice of one of
those.  Where what is searched for lies between two entries, it depends on their number
which of the two is found.
-/

namespace Bisection

section

variable (before after : ℕ → Prop) [DecidablePred before] [DecidablePred after]

/-- What is searched for can be before an entry, after it, or in it. -/
def bisect (first last : ℕ) : ℕ × ℕ :=
  if first + 1 < last then
    if before ((first + last) / 2) then bisect first ((first + last) / 2 - 1)
    else if after ((first + last) / 2) then bisect ((first + last) / 2 + 1) last
    else ((first + last) / 2, (first + last) / 2)
  else (first, last)
termination_by last - first

/-- The second entry which is left, unless what is searched for is before it. -/
def find (first last : ℕ) : ℕ :=
  if before (bisect before after first last).2 then (bisect before after first last).1
  else (bisect before after first last).2

end

/-- Whether the bisection compares with an entry before it stops, if it goes there. -/
def visits (first last k : ℕ) : Bool :=
  if first + 1 < last then
    if k < (first + last) / 2 then visits first ((first + last) / 2 - 1) k
    else if (first + last) / 2 < k then visits ((first + last) / 2 + 1) last k
    else true
  else false
termination_by last - first

theorem visits_of_lt_mid {first last k : ℕ} (hmore : first + 1 < last)
    (hlt : k < (first + last) / 2) :
    visits first last k = visits first ((first + last) / 2 - 1) k := by
  rw [visits, if_pos hmore, if_pos hlt]

theorem visits_of_mid_lt {first last k : ℕ} (hmore : first + 1 < last)
    (hlt : (first + last) / 2 < k) :
    visits first last k = visits ((first + last) / 2 + 1) last k := by
  rw [visits, if_pos hmore, if_neg (by omega), if_pos hlt]

theorem visits_mid {first last : ℕ} (hmore : first + 1 < last) :
    visits first last ((first + last) / 2) = true := by
  rw [visits, if_pos hmore, if_neg (Nat.lt_irrefl _), if_neg (Nat.lt_irrefl _)]

theorem visits_of_stop {first last : ℕ} (hstop : ¬first + 1 < last) (k : ℕ) :
    visits first last k = false := by
  rw [visits, if_neg hstop]

theorem visits_first (first last : ℕ) : visits first last first = false := by
  induction last using Nat.strong_induction_on with
  | _ last ih =>
      by_cases hmore : first + 1 < last
      · rw [visits_of_lt_mid hmore (by omega)]
        exact ih _ (by omega)
      · exact visits_of_stop hmore first

theorem visits_last (first last : ℕ) : visits first last last = false := by
  induction hsize : last - first using Nat.strong_induction_on generalizing first with
  | _ size ih =>
      by_cases hmore : first + 1 < last
      · rw [visits_of_mid_lt hmore (by omega)]
        exact ih _ (by omega) _ rfl
      · exact visits_of_stop hmore last

variable {before after : ℕ → Prop} [DecidablePred before] [DecidablePred after]
variable {first last : ℕ}

theorem find_of_before_mid (hmore : first + 1 < last) (hmid : before ((first + last) / 2)) :
    find before after first last = find before after first ((first + last) / 2 - 1) := by
  unfold find
  rw [bisect, if_pos hmore, if_pos hmid]

theorem find_of_after_mid (hmore : first + 1 < last) (hmid : ¬before ((first + last) / 2))
    (hafter : after ((first + last) / 2)) :
    find before after first last = find before after ((first + last) / 2 + 1) last := by
  unfold find
  rw [bisect, if_pos hmore, if_neg hmid, if_pos hafter]

theorem find_of_mid (hmore : first + 1 < last) (hmid : ¬before ((first + last) / 2))
    (hafter : ¬after ((first + last) / 2)) :
    find before after first last = (first + last) / 2 := by
  unfold find
  rw [bisect, if_pos hmore, if_neg hmid, if_neg hafter]
  exact if_neg hmid

theorem find_of_stop (hstop : ¬first + 1 < last) :
    find before after first last = if before last then first else last := by
  unfold find
  rw [bisect, if_neg hstop]

theorem find_of_before (hle : first ≤ last) (hbefore : ∀ i, first ≤ i → i ≤ last → before i) :
    find before after first last = first := by
  induction last using Nat.strong_induction_on with
  | _ last ih =>
      by_cases hmore : first + 1 < last
      · rw [find_of_before_mid hmore (hbefore _ (by omega) (by omega))]
        exact ih _ (by omega) (by omega) fun i hi hi' => hbefore i hi (by omega)
      · rw [find_of_stop hmore, if_pos (hbefore last hle (Nat.le_refl _))]

theorem find_of_mem {k : ℕ} (hfirst : first ≤ k) (hlast : k ≤ last) (hnot : ¬before k)
    (hin : ¬after k) (hafter : ∀ i, first ≤ i → i < k → ¬before i ∧ after i)
    (hbefore : ∀ i, k < i → i ≤ last → before i) :
    find before after first last = k := by
  induction hsize : last - first using Nat.strong_induction_on generalizing first last with
  | _ size ih =>
      by_cases hmore : first + 1 < last
      · rcases Nat.lt_trichotomy k ((first + last) / 2) with hlt | heq | hgt
        · rw [find_of_before_mid hmore (hbefore _ hlt (by omega))]
          exact ih _ (by omega) hfirst (by omega) hafter
            (fun i hi hi' => hbefore i hi (by omega)) rfl
        · rw [heq] at hnot hin
          rw [find_of_mid hmore hnot hin, heq]
        · have hmid := hafter _ (by omega) hgt
          rw [find_of_after_mid hmore hmid.1 hmid.2]
          exact ih _ (by omega) (by omega) hlast (fun i hi hi' => hafter i (by omega) hi')
            hbefore rfl
      · rw [find_of_stop hmore]
        by_cases hk : k = last
        · rw [if_neg (hk ▸ hnot), hk]
        · rw [if_pos (hbefore last (by omega) (Nat.le_refl _))]
          omega

/-- Between two entries the second one is found, if the bisection compares with the first
one, and the first one otherwise. -/
theorem find_of_between {k : ℕ} (hfirst : first ≤ k) (hlast : k ≤ last)
    (hafter : ∀ i, first ≤ i → i ≤ k → ¬before i ∧ after i)
    (hbefore : ∀ i, k < i → i ≤ last → before i) :
    find before after first last = if visits first last k then k + 1 else k := by
  induction hsize : last - first using Nat.strong_induction_on generalizing first last with
  | _ size ih =>
      by_cases hmore : first + 1 < last
      · rcases Nat.lt_trichotomy k ((first + last) / 2) with hlt | heq | hgt
        · rw [visits_of_lt_mid hmore hlt, find_of_before_mid hmore (hbefore _ hlt (by omega))]
          exact ih _ (by omega) hfirst (by omega) hafter
            (fun i hi hi' => hbefore i hi (by omega)) rfl
        · have hmid := hafter k hfirst (Nat.le_refl k)
          rw [heq] at hmid
          rw [find_of_after_mid hmore hmid.1 hmid.2,
            find_of_before (by omega) fun i hi hi' => hbefore i (by omega) hi', heq,
            visits_mid hmore, if_pos rfl]
        · have hmid := hafter _ (by omega) (Nat.le_of_lt hgt)
          rw [visits_of_mid_lt hmore hgt, find_of_after_mid hmore hmid.1 hmid.2]
          exact ih _ (by omega) (by omega) hlast (fun i hi hi' => hafter i (by omega) hi')
            hbefore rfl
      · rw [visits_of_stop hmore, find_of_stop hmore, if_neg Bool.false_ne_true]
        by_cases hk : k = last
        · rw [hk, if_neg (hafter last (by omega) (by omega)).1]
        · rw [if_pos (hbefore last (by omega) (Nat.le_refl _))]
          omega

end Bisection
