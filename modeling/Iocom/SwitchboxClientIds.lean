import Iocom.SwitchboxShared
import Mathlib.Logic.Function.Iterate

/-!
# Client ids of the switchbox

Client ids go round through 1 to 65535.  The search for a new one ends when there is one
which no client has, and an id comes again after all others have been tried.
-/

namespace Iocom

theorem incrementClientId_toNat (k : UInt16) :
    (incrementClientId k).toNat = k.toNat % 65535 + 1 := by
  have hk := k.toNat_lt
  have hadd : (k + 1).toNat = (k.toNat + 1) % 65536 := UInt16.toNat_add k 1
  unfold incrementClientId
  split_ifs with hzero
  · rw [hzero] at hadd ⊢
    have hmod : 0 = (k.toNat + 1) % 65536 := hadd
    rw [show k.toNat = 65535 by omega]
    rfl
  · have hne : (k + 1).toNat ≠ 0 := fun h => hzero (UInt16.toNat_inj.mp h)
    omega

theorem iterate_incrementClientId_toNat (k : UInt16) (n : ℕ) :
    (incrementClientId^[n + 1] k).toNat = (k.toNat + n) % 65535 + 1 := by
  induction n with
  | zero => exact incrementClientId_toNat k
  | succ n ih =>
      rw [Function.iterate_succ_apply', incrementClientId_toNat, ih]
      omega

theorem exists_iterate_incrementClientId (k : UInt16) {clientId : UInt16} (hne : clientId ≠ 0) :
    ∃ n < 65535, incrementClientId^[n + 1] k = clientId := by
  have hpos : clientId.toNat ≠ 0 := fun h => hne (UInt16.toNat_inj.mp h)
  have hlt := clientId.toNat_lt
  refine ⟨(clientId.toNat - 1 + (65535 - k.toNat % 65535)) % 65535, Nat.mod_lt _ (by omega), ?_⟩
  apply UInt16.toNat_inj.mp
  rw [iterate_incrementClientId_toNat]
  omega

theorem iterate_incrementClientId_ne {k : UInt16} {n j : ℕ} (hj : j < n) (hn : n < 65535) :
    incrementClientId^[n + 1] k ≠ incrementClientId^[j + 1] k := by
  intro heq
  have hnat := congrArg UInt16.toNat heq
  rw [iterate_incrementClientId_toNat, iterate_incrementClientId_toNat] at hnat
  omega

theorem searchClientId_eq_some {con : List UInt16} {rounds : ℕ} {k clientId : UInt16} :
    searchClientId con rounds k = some clientId ↔
      ∃ n < rounds, clientId = incrementClientId^[n + 1] k ∧ clientId ∉ con ∧
        ∀ j < n, incrementClientId^[j + 1] k ∈ con := by
  induction rounds generalizing k with
  | zero => simp [searchClientId]
  | succ rounds ih =>
      simp only [searchClientId]
      split_ifs with hmem
      · rw [ih]
        constructor
        · rintro ⟨n, hn, rfl, hnew, hold⟩
          refine ⟨n + 1, by omega, rfl, hnew, fun j hj => ?_⟩
          cases j with
          | zero => exact hmem
          | succ j => exact hold j (by omega)
        · rintro ⟨n, hn, rfl, hnew, hold⟩
          cases n with
          | zero => exact absurd hmem hnew
          | succ n => exact ⟨n, by omega, rfl, hnew, fun j hj => hold (j + 1) (by omega)⟩
      · rw [Option.some.injEq]
        constructor
        · rintro rfl
          exact ⟨0, by omega, rfl, hmem, fun j hj => by omega⟩
        · rintro ⟨n, hn, rfl, hnew, hold⟩
          cases n with
          | zero => rfl
          | succ n => exact absurd (hold 0 (by omega)) hmem

/-- The search ends exactly when there is a client id which no
client has; it gives one which is not 0 and which no client has, and it is the first one
after the last which was given. -/
theorem newSwitchboxClientId_spec (root : SwitchboxRoot) :
    ((newSwitchboxClientId root).isSome ↔ ∃ k, k ≠ 0 ∧ k ∉ root.con) ∧
      ∀ clientId root', newSwitchboxClientId root = some (clientId, root') →
        clientId ≠ 0 ∧ clientId ∉ root.con ∧
          root' = { root with currentClientId := clientId } ∧
          ∃ n < 65535, clientId = incrementClientId^[n + 1] root.currentClientId ∧
            ∀ j < n, incrementClientId^[j + 1] root.currentClientId ∈ root.con := by
  have hne : ∀ n, incrementClientId^[n + 1] root.currentClientId ≠ 0 := by
    intro n heq
    have hnat := iterate_incrementClientId_toNat root.currentClientId n
    rw [heq] at hnat
    exact absurd hnat (by simp)
  constructor
  · rw [newSwitchboxClientId, Option.isSome_map]
    constructor
    · intro hsome
      obtain ⟨clientId, hclientId⟩ := Option.isSome_iff_exists.mp hsome
      obtain ⟨n, -, rfl, hnew, -⟩ := searchClientId_eq_some.mp hclientId
      exact ⟨_, hne n, hnew⟩
    · rintro ⟨k, hk, hnew⟩
      obtain ⟨n, hn, rfl⟩ := exists_iterate_incrementClientId root.currentClientId hk
      have hexists : ∃ n, incrementClientId^[n + 1] root.currentClientId ∉ root.con := ⟨n, hnew⟩
      have hfirst := Nat.find_spec hexists
      rw [searchClientId_eq_some.mpr ⟨Nat.find hexists,
        (Nat.find_min' hexists hnew).trans_lt hn, rfl, hfirst,
        fun j hj => not_not.mp (Nat.find_min hexists hj)⟩]
      rfl
  · intro clientId root' h
    rw [newSwitchboxClientId, Option.map_eq_some_iff] at h
    obtain ⟨k, hk, hpair⟩ := h
    obtain ⟨rfl, rfl⟩ := Prod.mk.inj hpair
    obtain ⟨n, hn, rfl, hnew, hold⟩ := searchClientId_eq_some.mp hk
    exact ⟨hne n, hnew, rfl, n, hn, rfl, hold⟩

/-! ## The first round -/

/-- The first `n` client ids after `k`. -/
def Issued (k : UInt16) (n : ℕ) (clientId : UInt16) : Prop :=
  ∃ j < n, clientId = incrementClientId^[j + 1] k

theorem issued_succ {k clientId : UInt16} {n : ℕ} :
    Issued k (n + 1) clientId ↔
      Issued k n clientId ∨ clientId = incrementClientId^[n + 1] k := by
  constructor
  · rintro ⟨j, hj, rfl⟩
    rcases Nat.lt_succ_iff_lt_or_eq.mp hj with hlt | rfl
    · exact .inl ⟨j, hlt, rfl⟩
    · exact .inr rfl
  · rintro (⟨j, hj, rfl⟩ | rfl)
    · exact ⟨j, by omega, rfl⟩
    · exact ⟨n, by omega, rfl⟩

/-- So far the client ids after `k` have been given to `n` clients, some of which may have
gone. -/
structure SwitchboxRoot.FirstRound (root : SwitchboxRoot) (k : UInt16) (n : ℕ) : Prop where
  current : root.currentClientId = incrementClientId^[n] k
  issued : ∀ clientId ∈ root.con, Issued k n clientId

namespace SwitchboxRoot.FirstRound

variable {root : SwitchboxRoot} {k : UInt16} {n : ℕ}

theorem next (h : root.FirstRound k n) (hn : n < 65535) :
    newSwitchboxClientId root =
        some (incrementClientId^[n + 1] k,
          { root with currentClientId := incrementClientId^[n + 1] k }) ∧
      ¬Issued k n (incrementClientId^[n + 1] k) := by
  have hnew : ¬Issued k n (incrementClientId^[n + 1] k) :=
    fun ⟨j, hj, heq⟩ => iterate_incrementClientId_ne hj hn heq
  have hnext : incrementClientId^[0 + 1] root.currentClientId = incrementClientId^[n + 1] k := by
    rw [h.current, ← Function.iterate_add_apply]
    congr 1
    omega
  have hsearch : searchClientId root.con 65535 root.currentClientId =
      some (incrementClientId^[n + 1] k) :=
    searchClientId_eq_some.mpr ⟨0, by omega, hnext.symm, fun hmem => hnew (h.issued _ hmem),
      fun j hj => by omega⟩
  exact ⟨by rw [newSwitchboxClientId, hsearch]; rfl, hnew⟩

theorem connect (h : root.FirstRound k n) :
    SwitchboxRoot.FirstRound
      ⟨incrementClientId^[n + 1] k, root.con ++ [incrementClientId^[n + 1] k]⟩ k (n + 1) where
  current := rfl
  issued clientId hmem := by
    rcases List.mem_append.mp hmem with hmem | hmem
    · exact issued_succ.mpr (.inl (h.issued clientId hmem))
    · exact issued_succ.mpr (.inr (List.mem_singleton.mp hmem))

theorem erase (h : root.FirstRound k n) (clientId : UInt16) :
    SwitchboxRoot.FirstRound { root with con := root.con.erase clientId } k n where
  current := h.current
  issued j hmem := h.issued j (List.mem_of_mem_erase hmem)

end SwitchboxRoot.FirstRound

end Iocom
