import Mathlib.Logic.Function.Basic
import Mathlib.Tactic.Push

/-!
# A table which keeps the most recent entries

An entry is stored in the slot which has its key already, else in one which is free,
else in one whose entry is the oldest.  `last` gives the entry which has been stored
last for each key.
-/

namespace RecencyTable

variable {ι κ τ ν : Type*}

structure Entry (κ τ ν : Type*) where
  key : κ
  time : τ
  value : ν

variable [LE τ]

/-- An entry with the key may be stored in this slot. -/
inductive Chosen (table : ι → Option (Entry κ τ ν)) (k : κ) (i : ι) : Prop where
  | has (e : Entry κ τ ν) (hslot : table i = some e) (hkey : e.key = k)
  | free (hnew : ∀ j e, table j = some e → e.key ≠ k) (hfree : table i = none)
  | oldest (hnew : ∀ j e, table j = some e → e.key ≠ k) (e : Entry κ τ ν)
      (hslot : table i = some e)
      (holdest : ∀ j, ∃ e', table j = some e' ∧ e.time ≤ e'.time)

/-- The table has the last entries of the keys, except for keys which are older than
all which it has. -/
structure Holds (last : κ → Option (Entry κ τ ν)) (table : ι → Option (Entry κ τ ν)) :
    Prop where
  isLast : ∀ i e, table i = some e → last e.key = some e
  unique : ∀ i j e e', table i = some e → table j = some e' → e.key = e'.key → i = j
  dropped : ∀ k e, last k = some e → (∀ i e', table i = some e' → e'.key ≠ k) →
    ∀ i, ∃ e', table i = some e' ∧ e.time ≤ e'.time

theorem Holds.empty :
    Holds (fun _ : κ => none) (fun _ : ι => (none : Option (Entry κ τ ν))) where
  isLast := by simp
  unique := by simp
  dropped := by simp

/-- No key of a table is newer than the newest of its entries, not even one which has
been dropped. -/
theorem Holds.le_newest {last : κ → Option (Entry κ τ ν)} {table : ι → Option (Entry κ τ ν)}
    (h : Holds last table) {p : κ → Prop} {i : ι} {e : Entry κ τ ν} (hslot : table i = some e)
    (hnewest : ∀ j e', table j = some e' → p e'.key → e'.time ≤ e.time)
    {k : κ} {e' : Entry κ τ ν} (hlast : last k = some e') (hk : p k) : e'.time ≤ e.time := by
  by_cases hmissing : ∀ j e'', table j = some e'' → e''.key ≠ k
  · obtain ⟨e'', hother, hle⟩ := h.dropped k e' hlast hmissing i
    rw [hslot, Option.some.injEq] at hother
    exact hother ▸ hle
  · push Not at hmissing
    obtain ⟨j, e'', hother, rfl⟩ := hmissing
    have hsame := h.isLast j e'' hother
    rw [hlast, Option.some.injEq] at hsame
    exact hsame ▸ hnewest j e'' hother hk

variable [DecidableEq ι] [DecidableEq κ]

/-- What is newer than all which is stored may be stored in a chosen slot. -/
theorem Holds.store {last : κ → Option (Entry κ τ ν)} {table : ι → Option (Entry κ τ ν)}
    (h : Holds last table) {e : Entry κ τ ν} {i : ι} (hchosen : Chosen table e.key i)
    (hnewest : ∀ k e', last k = some e' → e'.time ≤ e.time) :
    Holds (Function.update last e.key (some e)) (Function.update table i (some e)) := by
  have hother : ∀ j e', j ≠ i → table j = some e' → e'.key ≠ e.key := by
    intro j e' hne hslot hkey
    cases hchosen with
    | has e₁ hhas hkey₁ => exact hne (h.unique j i e' e₁ hslot hhas (hkey.trans hkey₁.symm))
    | free hnew => exact hnew j e' hslot hkey
    | oldest hnew => exact hnew j e' hslot hkey
  constructor
  case isLast =>
    intro j e' hslot
    obtain rfl | hne := eq_or_ne j i
    · rw [Function.update_self, Option.some.injEq] at hslot
      rw [← hslot, Function.update_self]
    · rw [Function.update_of_ne hne] at hslot
      rw [Function.update_of_ne (hother j e' hne hslot)]
      exact h.isLast j e' hslot
  case unique =>
    intro j j' e₁ e₂ hslot hslot' hkey
    obtain rfl | hne := eq_or_ne j i
    · obtain rfl | hne' := eq_or_ne j' j
      · rfl
      · rw [Function.update_self, Option.some.injEq] at hslot
        rw [Function.update_of_ne hne'] at hslot'
        exact absurd (hslot ▸ hkey.symm) (hother j' e₂ hne' hslot')
    · rw [Function.update_of_ne hne] at hslot
      obtain rfl | hne' := eq_or_ne j' i
      · rw [Function.update_self, Option.some.injEq] at hslot'
        exact absurd (hslot' ▸ hkey) (hother j e₁ hne hslot)
      · rw [Function.update_of_ne hne'] at hslot'
        exact h.unique j j' e₁ e₂ hslot hslot' hkey
  case dropped =>
    intro k e' hlast hmissing j
    have hk : k ≠ e.key := fun hk =>
      hmissing i e (Function.update_self i (some e) table) hk.symm
    rw [Function.update_of_ne hk] at hlast
    -- All slots are used, by entries which are not older.
    have hfull : ∀ j, ∃ e'', table j = some e'' ∧ e'.time ≤ e''.time := by
      by_cases hbefore : ∀ j e'', table j = some e'' → e''.key ≠ k
      · exact h.dropped k e' hlast hbefore
      · push Not at hbefore
        obtain ⟨j', e'', hslot, rfl⟩ := hbefore
        have hj' : j' = i := by
          by_contra hne
          exact hmissing j' e'' (by rw [Function.update_of_ne hne, hslot]) rfl
        subst hj'
        have hsame := h.isLast j' e'' hslot
        rw [hlast, Option.some.injEq] at hsame
        subst hsame
        cases hchosen with
        | has e₁ hhas hkey =>
            rw [hslot, Option.some.injEq] at hhas
            exact absurd (hhas ▸ hkey) hk
        | free hnew hfree => simp [hslot] at hfree
        | oldest hnew e₁ hhas holdest =>
            rw [hslot, Option.some.injEq] at hhas
            exact hhas ▸ holdest
    obtain rfl | hne := eq_or_ne j i
    · exact ⟨e, Function.update_self j (some e) table, hnewest k e' hlast⟩
    · rw [Function.update_of_ne hne]
      exact hfull j

end RecencyTable
