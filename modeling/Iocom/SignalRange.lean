import Iocom.Signal
import Iocom.Lib.Bisection
import Mathlib.Algebra.Order.Group.Int
import Mathlib.Data.Nat.Find

/-!
# Signals which an address range touches

`ioc_get_signal_range_by_hdr` of `ioc_signal_addr.c`.  The first signal is searched for
with the start address and the last one with the end address, among the signals from the
first one on.  An address in a hole between two signals belongs to the next one in the
first search and to the one before in the second search.
-/

namespace Iocom

open Bisection

/-- `iocMblkSignalHdr`.  What is behind the last signal is not read. -/
structure MblkSignalHdr where
  nSignals : ℕ
  firstSignal : ℕ → Signal

/-- `ioc_is_my_address`. -/
def Signal.isMyAddress (signal : Signal) (startAddr endAddr : ℤ) : Bool :=
  if endAddr < signal.addr then false
  else decide (startAddr < signal.addr + signal.nroSignalBytes)

/-- `signal_end`. -/
def Signal.signalEnd (signal : Signal) : ℤ := signal.addr + signal.nroSignalBytes - 1

/-- One of the two searches, in the signals `first` to `last`. -/
def findSignal (sig : ℕ → Signal) (addr : ℤ) (first last : ℕ) : ℕ :=
  find (fun mid => addr < (sig mid).addr) (fun mid => (sig mid).signalEnd < addr) first last

/-- `ioc_get_signal_range_by_hdr`: the index of the signal which is returned, and
`n_signals`. -/
def getSignalRangeByHdr (hdr : MblkSignalHdr) (startAddr endAddr : ℤ) : Option ℕ × ℕ :=
  let sig := hdr.firstSignal
  let last := hdr.nSignals - 1
  if endAddr < (sig 0).addr ∨ (sig last).signalEnd < startAddr then (none, 0)
  else
    let first := findSignal sig startAddr 0 last
    let sig := fun i => sig (first + i)
    let n := findSignal sig endAddr 0 (hdr.nSignals - first - 1)
    if n = 0 ∧ (endAddr < (sig 0).addr ∨ (sig 0).signalEnd < startAddr) then (none, 0)
    else (some first, n + 1)

/-! ## Sorted signals -/

structure MblkSignalHdr.Sorted (hdr : MblkSignalHdr) : Prop where
  nSignals_pos : 0 < hdr.nSignals
  lt_addr : ∀ i j, i < j → j < hdr.nSignals →
    (hdr.firstSignal i).signalEnd < (hdr.firstSignal j).addr

structure MblkSignalHdr.InHole (hdr : MblkSignalHdr) (addr : ℤ) (k : ℕ) : Prop where
  lt_nSignals : k + 1 < hdr.nSignals
  after : (hdr.firstSignal k).signalEnd < addr
  before : addr < (hdr.firstSignal (k + 1)).addr

/-- The signals which touch the range, by `ioc_is_my_address`. -/
def MblkSignalHdr.Touched (hdr : MblkSignalHdr) (startAddr endAddr : ℤ) (i : ℕ) : Prop :=
  i < hdr.nSignals ∧ (hdr.firstSignal i).isMyAddress startAddr endAddr

/-- What has been returned is `OS_NULL` and zero, if no signal touches the range, and the
first one and their number otherwise. -/
def MblkSignalHdr.IsRange (hdr : MblkSignalHdr) (startAddr endAddr : ℤ) :
    Option ℕ × ℕ → Prop
  | (none, n) => n = 0 ∧ ∀ i, ¬hdr.Touched startAddr endAddr i
  | (some first, n) => 0 < n ∧
      ∀ i, hdr.Touched startAddr endAddr i ↔ first ≤ i ∧ i < first + n

/-- The search with the start address compares with the signal before its hole, if the next
signal touches the range; the search with the end address does not compare with the signal
before its hole. -/
structure MblkSignalHdr.HolesFound (hdr : MblkSignalHdr) (startAddr endAddr : ℤ) : Prop where
  start : ∀ k, hdr.InHole startAddr k → (hdr.firstSignal (k + 1)).addr ≤ endAddr →
    visits 0 (hdr.nSignals - 1) k = true
  stop : ∀ i k, hdr.Touched startAddr endAddr i →
    (∀ j < i, ¬hdr.Touched startAddr endAddr j) → i ≤ k → hdr.InHole endAddr k →
    visits 0 (hdr.nSignals - i - 1) (k - i) = false

theorem Signal.nroSignalBytes_pos (signal : Signal) : 0 < signal.nroSignalBytes := by
  unfold Signal.nroSignalBytes
  dsimp only
  split
  · omega
  · split_ifs <;> omega
  · omega

theorem Signal.addr_le_signalEnd (signal : Signal) : signal.addr ≤ signal.signalEnd := by
  have hpos := signal.nroSignalBytes_pos
  unfold Signal.signalEnd
  omega

theorem Signal.isMyAddress_iff (signal : Signal) (startAddr endAddr : ℤ) :
    signal.isMyAddress startAddr endAddr = true ↔
      signal.addr ≤ endAddr ∧ startAddr ≤ signal.signalEnd := by
  unfold Signal.isMyAddress Signal.signalEnd
  split_ifs with hend
  · constructor
    · intro h
      cases h
    · intro h
      omega
  · rw [decide_eq_true_iff]
    constructor <;> intro h <;> omega

namespace MblkSignalHdr

variable {hdr : MblkSignalHdr} {startAddr endAddr addr : ℤ} {i k lo : ℕ}

theorem Sorted.addr_lt (h : hdr.Sorted) (hlt : i < k) (hk : k < hdr.nSignals) :
    (hdr.firstSignal i).addr < (hdr.firstSignal k).addr :=
  ((hdr.firstSignal i).addr_le_signalEnd).trans_lt (h.lt_addr i k hlt hk)

theorem Sorted.addr_le (h : hdr.Sorted) (hle : i ≤ k) (hk : k < hdr.nSignals) :
    (hdr.firstSignal i).addr ≤ (hdr.firstSignal k).addr := by
  rcases Nat.eq_or_lt_of_le hle with rfl | hlt
  · exact le_refl _
  · exact (h.addr_lt hlt hk).le

theorem Sorted.signalEnd_le (h : hdr.Sorted) (hle : i ≤ k) (hk : k < hdr.nSignals) :
    (hdr.firstSignal i).signalEnd ≤ (hdr.firstSignal k).signalEnd := by
  rcases Nat.eq_or_lt_of_le hle with rfl | hlt
  · exact le_refl _
  · exact (h.lt_addr i k hlt hk).le.trans (hdr.firstSignal k).addr_le_signalEnd

theorem exists_last (haddr : (hdr.firstSignal 0).addr ≤ addr) (hpos : 0 < hdr.nSignals) :
    ∃ k < hdr.nSignals, (hdr.firstSignal k).addr ≤ addr ∧
      (k + 1 < hdr.nSignals → addr < (hdr.firstSignal (k + 1)).addr) := by
  let k := Nat.findGreatest (fun i => (hdr.firstSignal i).addr ≤ addr) (hdr.nSignals - 1)
  have hk : k ≤ hdr.nSignals - 1 := Nat.findGreatest_le _
  refine ⟨k, by omega, ?_, fun hlt => ?_⟩
  · exact Nat.findGreatest_spec (P := fun i => (hdr.firstSignal i).addr ≤ addr)
      (Nat.zero_le _) haddr
  · exact not_le.mp (Nat.findGreatest_is_greatest (Nat.lt_succ_self k) (by omega))

/-! ## The two searches -/

theorem Sorted.findSignal_of_before (h : hdr.Sorted) (hlo : lo < hdr.nSignals)
    (haddr : addr < (hdr.firstSignal lo).addr) :
    findSignal (fun i => hdr.firstSignal (lo + i)) addr 0 (hdr.nSignals - lo - 1) = 0 :=
  find_of_before (Nat.zero_le _) fun i _ hi =>
    haddr.trans_le (h.addr_le (Nat.le_add_right lo i) (by omega))

/-- What the signals before and behind an address are for the search. -/
theorem Sorted.before_after (h : hdr.Sorted) (hk : k < hdr.nSignals)
    (haddr : (hdr.firstSignal k).addr ≤ addr)
    (hnext : k + 1 < hdr.nSignals → addr < (hdr.firstSignal (k + 1)).addr) :
    (∀ i, i < k → ¬addr < (hdr.firstSignal i).addr ∧ (hdr.firstSignal i).signalEnd < addr) ∧
      ∀ i, k < i → i < hdr.nSignals → addr < (hdr.firstSignal i).addr := by
  refine ⟨fun i hi => ⟨?_, ?_⟩, fun i hi hlt => ?_⟩
  · exact not_lt.mpr ((h.addr_lt hi hk).le.trans haddr)
  · exact (h.lt_addr i k hi hk).trans_le haddr
  · exact (hnext (by omega)).trans_le (h.addr_le hi hlt)

theorem Sorted.findSignal_of_mem (h : hdr.Sorted) (hlo : lo ≤ k) (hk : k < hdr.nSignals)
    (haddr : (hdr.firstSignal k).addr ≤ addr) (hend : addr ≤ (hdr.firstSignal k).signalEnd) :
    findSignal (fun i => hdr.firstSignal (lo + i)) addr 0 (hdr.nSignals - lo - 1) = k - lo := by
  have hnext : k + 1 < hdr.nSignals → addr < (hdr.firstSignal (k + 1)).addr := fun hlt =>
    hend.trans_lt (h.lt_addr k (k + 1) (Nat.lt_succ_self k) hlt)
  have hsides := h.before_after hk haddr hnext
  have hindex : lo + (k - lo) = k := by omega
  refine find_of_mem (Nat.zero_le _) (by omega) ?_ ?_ (fun i _ hi => ?_) fun i hi hi' => ?_
  · dsimp only
    rw [hindex]
    exact not_lt.mpr haddr
  · dsimp only
    rw [hindex]
    exact not_lt.mpr hend
  · exact hsides.1 (lo + i) (by omega)
  · exact hsides.2 (lo + i) (by omega) (by omega)

theorem Sorted.findSignal_of_after (h : hdr.Sorted) (hlo : lo ≤ k) (hk : k < hdr.nSignals)
    (hend : (hdr.firstSignal k).signalEnd < addr)
    (hnext : k + 1 < hdr.nSignals → addr < (hdr.firstSignal (k + 1)).addr) :
    findSignal (fun i => hdr.firstSignal (lo + i)) addr 0 (hdr.nSignals - lo - 1) =
      if visits 0 (hdr.nSignals - lo - 1) (k - lo) then k - lo + 1 else k - lo := by
  have haddr : (hdr.firstSignal k).addr ≤ addr :=
    ((hdr.firstSignal k).addr_le_signalEnd).trans hend.le
  have hsides := h.before_after hk haddr hnext
  refine find_of_between (Nat.zero_le _) (by omega) (fun i _ hi => ?_) fun i hi hi' => ?_
  · rcases Nat.eq_or_lt_of_le hi with rfl | hlt
    · dsimp only
      rw [show lo + (k - lo) = k by omega]
      exact ⟨not_lt.mpr haddr, hend⟩
    · exact hsides.1 (lo + i) (by omega)
  · exact hsides.2 (lo + i) (by omega) (by omega)

theorem get_of_find {first n : ℕ} (hend : (hdr.firstSignal 0).addr ≤ endAddr)
    (hstart : startAddr ≤ (hdr.firstSignal (hdr.nSignals - 1)).signalEnd)
    (hfirst : findSignal (fun i => hdr.firstSignal (0 + i)) startAddr 0 (hdr.nSignals - 0 - 1) =
      first)
    (hn : findSignal (fun i => hdr.firstSignal (first + i)) endAddr 0
      (hdr.nSignals - first - 1) = n) :
    getSignalRangeByHdr hdr startAddr endAddr =
      if n = 0 ∧ (endAddr < (hdr.firstSignal first).addr ∨
          (hdr.firstSignal first).signalEnd < startAddr) then (none, 0)
      else (some first, n + 1) := by
  have hzero : (fun i => hdr.firstSignal (0 + i)) = hdr.firstSignal :=
    funext fun i => by rw [Nat.zero_add]
  rw [hzero, Nat.sub_zero] at hfirst
  unfold getSignalRangeByHdr
  dsimp only
  rw [if_neg (not_or.mpr ⟨not_lt.mpr hend, not_lt.mpr hstart⟩), hfirst, hn]
  rfl

/-! ## No signal touches the range -/

theorem touched_iff :
    hdr.Touched startAddr endAddr i ↔ i < hdr.nSignals ∧
      (hdr.firstSignal i).addr ≤ endAddr ∧ startAddr ≤ (hdr.firstSignal i).signalEnd := by
  unfold Touched
  rw [Signal.isMyAddress_iff]

theorem Sorted.get_of_not_touched (h : hdr.Sorted) (hle : startAddr ≤ endAddr)
    (hnone : ∀ i, ¬hdr.Touched startAddr endAddr i) :
    getSignalRangeByHdr hdr startAddr endAddr = (none, 0) := by
  have hpos := h.nSignals_pos
  by_cases hout : endAddr < (hdr.firstSignal 0).addr ∨
      (hdr.firstSignal (hdr.nSignals - 1)).signalEnd < startAddr
  · unfold getSignalRangeByHdr
    exact if_pos hout
  · obtain ⟨hend, hstart⟩ := not_or.mp hout
    have hend' := not_lt.mp hend
    have hstart' := not_lt.mp hstart
    obtain ⟨k, hk, haddr, hnext⟩ := exists_last hend' hpos
    have hafter : (hdr.firstSignal k).signalEnd < startAddr := by
      by_contra hnot
      exact hnone k (touched_iff.mpr ⟨hk, haddr, not_lt.mp hnot⟩)
    have hlt : k + 1 < hdr.nSignals := by
      by_contra hlast
      rw [show hdr.nSignals - 1 = k by omega] at hstart'
      omega
    have hfirst := h.findSignal_of_after (Nat.zero_le k) hk hafter fun hmore =>
      hle.trans_lt (hnext hmore)
    by_cases hvisits : visits 0 (hdr.nSignals - 0 - 1) (k - 0) = true
    · rw [if_pos hvisits] at hfirst
      have hn : findSignal (fun i => hdr.firstSignal (k + 1 + i)) endAddr 0
          (hdr.nSignals - (k + 1) - 1) = 0 := h.findSignal_of_before hlt (hnext hlt)
      rw [get_of_find hend' hstart' hfirst hn, if_pos ⟨rfl, .inl (hnext hlt)⟩]
    · rw [if_neg hvisits] at hfirst
      have hn := h.findSignal_of_after (Nat.le_refl k) hk (hafter.trans_le hle) hnext
      rw [Nat.sub_self, visits_first, if_neg Bool.false_ne_true] at hn
      rw [get_of_find hend' hstart' hfirst hn, if_pos ⟨rfl, .inr hafter⟩]

/-! ## Signals touch the range -/

structure Touching (hdr : MblkSignalHdr) (startAddr endAddr : ℤ) (first last : ℕ) : Prop where
  first_le : first ≤ last
  last_lt : last < hdr.nSignals
  start_le : startAddr ≤ (hdr.firstSignal first).signalEnd
  before : ∀ i < first, (hdr.firstSignal i).signalEnd < startAddr
  addr_le : (hdr.firstSignal last).addr ≤ endAddr
  next : last + 1 < hdr.nSignals → endAddr < (hdr.firstSignal (last + 1)).addr

theorem Sorted.touching (h : hdr.Sorted) (hsome : ∃ i, hdr.Touched startAddr endAddr i) :
    ∃ first last, hdr.Touching startAddr endAddr first last := by
  classical
  have htouched := touched_iff.mp (Nat.find_spec hsome)
  have hzero : (hdr.firstSignal 0).addr ≤ endAddr :=
    (h.addr_le (Nat.zero_le _) htouched.1).trans htouched.2.1
  obtain ⟨k, hk, haddr, hnext⟩ := exists_last hzero h.nSignals_pos
  refine ⟨Nat.find hsome, k, ?_, hk, htouched.2.2, fun i hi => ?_, haddr, hnext⟩
  · by_contra hlt
    have hless := hnext (by omega)
    have hle := h.addr_le (show k + 1 ≤ Nat.find hsome by omega) htouched.1
    omega
  · by_contra hnot
    exact Nat.find_min hsome hi (touched_iff.mpr ⟨hi.trans htouched.1,
      (h.addr_le hi.le htouched.1).trans htouched.2.1, not_lt.mp hnot⟩)

variable {first last : ℕ}

theorem Touching.touched_iff (hrange : hdr.Touching startAddr endAddr first last)
    (h : hdr.Sorted) :
    hdr.Touched startAddr endAddr i ↔ first ≤ i ∧ i ≤ last := by
  rw [MblkSignalHdr.touched_iff]
  constructor
  · rintro ⟨hi, haddr, hend⟩
    constructor
    · by_contra hlt
      have hbefore := hrange.before i (not_le.mp hlt)
      omega
    · by_contra hlt
      have hnext := hrange.next (by omega)
      have hle := h.addr_le (show last + 1 ≤ i by omega) hi
      omega
  · rintro ⟨hfirst, hlast⟩
    have hlt := hrange.last_lt
    exact ⟨by omega, (h.addr_le hlast hlt).trans hrange.addr_le,
      hrange.start_le.trans (h.signalEnd_le hfirst (by omega))⟩

/-- The range which is returned, by the index at which the second search starts and what it
finds. -/
theorem Touching.isRange_iff (hrange : hdr.Touching startAddr endAddr first last)
    (h : hdr.Sorted) {k n : ℕ} :
    hdr.IsRange startAddr endAddr (some k, n + 1) ↔ k = first ∧ k + n = last := by
  have hle := hrange.first_le
  constructor
  · rintro ⟨-, hiff⟩
    have hself := (hrange.touched_iff h).mp ((hiff k).mpr ⟨Nat.le_refl k, by omega⟩)
    have hfirst := (hiff first).mp ((hrange.touched_iff h).mpr ⟨Nat.le_refl _, hle⟩)
    have hlast := (hiff last).mp ((hrange.touched_iff h).mpr ⟨hle, Nat.le_refl _⟩)
    have hend := (hrange.touched_iff h).mp ((hiff (k + n)).mpr ⟨by omega, by omega⟩)
    omega
  · rintro ⟨hk, hlast⟩
    refine ⟨Nat.succ_pos n, fun i => ?_⟩
    rw [hrange.touched_iff h]
    omega

theorem Touching.inHole_start_iff (hrange : hdr.Touching startAddr endAddr first last)
    (h : hdr.Sorted) :
    (hdr.InHole startAddr k ∧ (hdr.firstSignal (k + 1)).addr ≤ endAddr) ↔
      k + 1 = first ∧ startAddr < (hdr.firstSignal first).addr := by
  have hlast := hrange.last_lt
  have hle := hrange.first_le
  constructor
  · rintro ⟨hhole, haddr⟩
    have hnext : hdr.Touched startAddr endAddr (k + 1) :=
      MblkSignalHdr.touched_iff.mpr ⟨hhole.lt_nSignals, haddr,
        hhole.before.le.trans (hdr.firstSignal (k + 1)).addr_le_signalEnd⟩
    have hself : ¬hdr.Touched startAddr endAddr k := fun htouched =>
      absurd (MblkSignalHdr.touched_iff.mp htouched).2.2 (not_le.mpr hhole.after)
    rw [hrange.touched_iff h] at hnext hself
    obtain rfl : k + 1 = first := by omega
    exact ⟨rfl, hhole.before⟩
  · rintro ⟨rfl, hbefore⟩
    exact ⟨⟨by omega, hrange.before k (Nat.lt_succ_self k), hbefore⟩,
      (h.addr_le hle hlast).trans hrange.addr_le⟩

/-- The first search finds the first signal or the one before it. -/
theorem Touching.first_search (hrange : hdr.Touching startAddr endAddr first last)
    (h : hdr.Sorted) :
    ∃ k, findSignal (fun i => hdr.firstSignal (0 + i)) startAddr 0 (hdr.nSignals - 0 - 1) = k ∧
      (k = first ∨ k + 1 = first) ∧
      (k = first ↔ ∀ m, hdr.InHole startAddr m → (hdr.firstSignal (m + 1)).addr ≤ endAddr →
        visits 0 (hdr.nSignals - 1) m = true) := by
  have hlt : first < hdr.nSignals := hrange.first_le.trans_lt hrange.last_lt
  refine ⟨_, rfl, ?_⟩
  by_cases hin : (hdr.firstSignal first).addr ≤ startAddr
  · rw [h.findSignal_of_mem (Nat.zero_le first) hlt hin hrange.start_le]
    refine ⟨.inl rfl, fun _ m hhole haddr => ?_, fun _ => rfl⟩
    exact absurd ((hrange.inHole_start_iff h).mp ⟨hhole, haddr⟩).2 (not_lt.mpr hin)
  · have hbefore := not_le.mp hin
    cases first with
    | zero =>
        rw [h.findSignal_of_before hlt hbefore]
        refine ⟨.inl rfl, fun _ m hhole haddr => ?_, fun _ => rfl⟩
        exact absurd ((hrange.inHole_start_iff h).mp ⟨hhole, haddr⟩).1 (Nat.succ_ne_zero m)
    | succ m =>
        have hhole := (hrange.inHole_start_iff h).mpr ⟨rfl, hbefore⟩
        rw [h.findSignal_of_after (Nat.zero_le m) (Nat.lt_of_succ_lt hlt) hhole.1.after
          fun _ => hbefore, Nat.sub_zero, Nat.sub_zero]
        by_cases hvisits : visits 0 (hdr.nSignals - 1) m = true
        · rw [if_pos hvisits]
          refine ⟨.inl rfl, fun _ m' hhole' haddr' => ?_, fun _ => rfl⟩
          have hsame := ((hrange.inHole_start_iff h).mp ⟨hhole', haddr'⟩).1
          rw [Nat.succ_injective hsame]
          exact hvisits
        · rw [if_neg hvisits]
          refine ⟨.inr rfl, fun heq => absurd heq (by omega), fun hfound => ?_⟩
          exact absurd (hfound m hhole.1 hhole.2) hvisits

/-- The second search finds the last signal or the one behind it. -/
theorem Touching.second_search (hrange : hdr.Touching startAddr endAddr first last)
    (h : hdr.Sorted) :
    first + findSignal (fun i => hdr.firstSignal (first + i)) endAddr 0
        (hdr.nSignals - first - 1) = last ↔
      ∀ k, first ≤ k → hdr.InHole endAddr k →
        visits 0 (hdr.nSignals - first - 1) (k - first) = false := by
  have hle := hrange.first_le
  have hlt := hrange.last_lt
  have hhole : ∀ k, hdr.InHole endAddr k →
      k = last ∧ (hdr.firstSignal last).signalEnd < endAddr := by
    intro k hhole
    have hsides := h.before_after hlt hrange.addr_le hrange.next
    have hstart := (hdr.firstSignal k).addr_le_signalEnd
    have hless := hhole.before
    have hmore := hhole.after
    rcases Nat.lt_trichotomy k last with hk | rfl | hk
    · have hnot := h.addr_le (show k + 1 ≤ last from hk) hlt
      have haddr := hrange.addr_le
      omega
    · exact ⟨rfl, hmore⟩
    · have hnot := hsides.2 k hk (Nat.lt_of_succ_lt hhole.lt_nSignals)
      omega
  by_cases hin : endAddr ≤ (hdr.firstSignal last).signalEnd
  · rw [h.findSignal_of_mem hle hlt hrange.addr_le hin]
    exact ⟨fun _ k _ hk => absurd (hhole k hk).2 (not_lt.mpr hin), fun _ => by omega⟩
  · have hafter := not_le.mp hin
    rw [h.findSignal_of_after hle hlt hafter hrange.next]
    by_cases hmore : last + 1 < hdr.nSignals
    · by_cases hvisits : visits 0 (hdr.nSignals - first - 1) (last - first) = true
      · rw [if_pos hvisits]
        constructor
        · intro heq
          omega
        · intro hfound
          have hnot := hfound last hle ⟨hmore, hafter, hrange.next hmore⟩
          exact absurd (hvisits.symm.trans hnot) Bool.noConfusion
      · rw [if_neg hvisits]
        refine ⟨fun _ k _ hk => ?_, fun _ => by omega⟩
        rw [(hhole k hk).1]
        exact Bool.eq_false_iff.mpr hvisits
    · rw [show hdr.nSignals - first - 1 = last - first by omega, visits_last,
        if_neg Bool.false_ne_true]
      refine ⟨fun _ k _ hk => ?_, fun _ => by omega⟩
      have hbound := hk.lt_nSignals
      rw [(hhole k hk).1] at hbound
      exact absurd hbound hmore

end MblkSignalHdr

/-- Exactly the signals which touch the range are returned, if and only if the two searches
go to the right side of the holes which the addresses are in. -/
theorem getSignalRangeByHdr_exact_iff {hdr : MblkSignalHdr} (h : hdr.Sorted)
    {startAddr endAddr : ℤ} (hle : startAddr ≤ endAddr) :
    hdr.IsRange startAddr endAddr (getSignalRangeByHdr hdr startAddr endAddr) ↔
      hdr.HolesFound startAddr endAddr := by
  by_cases hsome : ∃ i, hdr.Touched startAddr endAddr i
  · obtain ⟨first, last, hrange⟩ := h.touching hsome
    have hlt := hrange.last_lt
    have hend : (hdr.firstSignal 0).addr ≤ endAddr :=
      (h.addr_le (Nat.zero_le last) hlt).trans hrange.addr_le
    have hstart : startAddr ≤ (hdr.firstSignal (hdr.nSignals - 1)).signalEnd :=
      hrange.start_le.trans (h.signalEnd_le (hrange.first_le.trans (by omega)) (by omega))
    have hfirst : hdr.Touched startAddr endAddr first :=
      (hrange.touched_iff h).mpr ⟨Nat.le_refl _, hrange.first_le⟩
    obtain ⟨k, hk, hcases, hstartFound⟩ := hrange.first_search h
    rw [MblkSignalHdr.get_of_find hend hstart hk rfl]
    rcases hcases with rfl | hless
    · have hnot : ¬(endAddr < (hdr.firstSignal k).addr ∨
          (hdr.firstSignal k).signalEnd < startAddr) := by
        have htouched := MblkSignalHdr.touched_iff.mp hfirst
        exact not_or.mpr ⟨not_lt.mpr htouched.2.1, not_lt.mpr htouched.2.2⟩
      rw [if_neg fun hhole => hnot hhole.2, hrange.isRange_iff h, hrange.second_search h]
      constructor
      · rintro ⟨-, hstop⟩
        refine ⟨hstartFound.mp rfl, fun i m hi hbefore him hhole => ?_⟩
        have hki := ((hrange.touched_iff h).mp hi).1
        obtain rfl : i = k := by
          by_contra hne
          exact hbefore k (by omega) hfirst
        exact hstop m him hhole
      · intro hfound
        refine ⟨rfl, fun m hm hhole => hfound.stop k m hfirst (fun j hj htouched => ?_) hm hhole⟩
        exact absurd ((hrange.touched_iff h).mp htouched).1 (by omega)
    · have hwrong : ¬hdr.HolesFound startAddr endAddr := fun hfound => by
        have hsame := hstartFound.mpr hfound.start
        omega
      refine iff_of_false (fun hreturned => ?_) hwrong
      split_ifs at hreturned
      · exact hreturned.2 first hfirst
      · have hsame := ((hrange.isRange_iff h).mp hreturned).1
        omega
  · have hnone : ∀ i, ¬hdr.Touched startAddr endAddr i := not_exists.mp hsome
    rw [h.get_of_not_touched hle hnone]
    refine iff_of_true ⟨rfl, hnone⟩ ⟨fun k hhole haddr => ?_, fun i _ hi => absurd hi (hnone i)⟩
    exact absurd (MblkSignalHdr.touched_iff.mpr ⟨hhole.lt_nSignals, haddr,
      hhole.before.le.trans (hdr.firstSignal (k + 1)).addr_le_signalEnd⟩) (hnone (k + 1))

def gapHdr : MblkSignalHdr where
  nSignals := 2
  firstSignal i := ⟨4 * i, 1, .uchar⟩

theorem gapHdr_sorted : gapHdr.Sorted where
  nSignals_pos := Nat.succ_pos 1
  lt_addr i j hlt hj := by
    obtain rfl : j = 1 := by
      have hj' : j < 2 := hj
      omega
    obtain rfl : i = 0 := by omega
    decide

/-- The range starts in the gap, and the signal before the gap is returned. -/
theorem gap_signal_returned :
    gapHdr.Sorted ∧ getSignalRangeByHdr gapHdr 2 5 = (some 0, 2) ∧
      (gapHdr.firstSignal 0).isMyAddress 2 5 = false ∧
      ¬gapHdr.IsRange 2 5 (getSignalRangeByHdr gapHdr 2 5) := by
  have hget : getSignalRangeByHdr gapHdr 2 5 = (some 0, 2) := by
    have hfirst : findSignal (fun i => gapHdr.firstSignal (0 + i)) 2 0 1 = 0 :=
      (find_of_stop (by decide)).trans (by decide)
    have hn : findSignal (fun i => gapHdr.firstSignal (0 + i)) 5 0 1 = 1 :=
      (find_of_stop (by decide)).trans (by decide)
    exact MblkSignalHdr.get_of_find (by decide) (by decide) hfirst hn
  refine ⟨gapHdr_sorted, hget, rfl, ?_⟩
  rw [hget]
  rintro ⟨-, hiff⟩
  exact absurd ((hiff 0).mpr ⟨Nat.le_refl 0, Nat.two_pos⟩).2 (by decide)

/-- A range which starts in a signal and ends behind the last one. -/
theorem getSignalRangeByHdr_gap :
    gapHdr.IsRange 1 9 (getSignalRangeByHdr gapHdr 1 9) :=
  (getSignalRangeByHdr_exact_iff gapHdr_sorted (by decide)).mpr
    ⟨fun k hhole _ => by
      obtain rfl : k = 0 := by
        have hk : k + 1 < 2 := hhole.lt_nSignals
        omega
      exact absurd hhole.after (by decide),
    fun i k _ _ _ hhole => by
      obtain rfl : k = 0 := by
        have hk : k + 1 < 2 := hhole.lt_nSignals
        omega
      exact absurd hhole.before (by decide)⟩

end Iocom
