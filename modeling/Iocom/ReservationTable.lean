import Iocom.AutoDeviceNr
import Iocom.Lib.RoundNumbers

/-!
# The reservation table keeps the last devices

The rows are filled and replaced in turns.  The number of a row tells which reservation it
holds, as long as there are not more rows than numbers.
-/

namespace Iocom

open RoundNumbers

variable {sizes : AutoNrSizes}

/-! ## Selecting a row -/

def AutoNrRow.key (next : ℕ) (row : AutoNrRow sizes) : ℕ :=
  age autoDeviceNrStart next row.deviceNr

theorem selectRow_cons {next i : ℕ} {row : AutoNrRow sizes} {rows : List (AutoNrRow sizes)}
    {best : ℕ × ℕ} (hrow : row.deviceNr < autoDeviceNrStart) :
    selectRow next i (row :: rows) best =
      selectRow next (i + 1) rows (if row.key next < best.2 then (i, row.key next) else best) := by
  have hstart : autoDeviceNrStart = 40001 := rfl
  have hmod : (row.deviceNr + autoDeviceNrStart) % 0x100000000 =
      row.deviceNr + autoDeviceNrStart := Nat.mod_eq_of_lt (by omega)
  rw [selectRow, hmod]
  unfold AutoNrRow.key age
  by_cases hnext : next ≤ row.deviceNr
  · rw [if_pos hnext, if_pos hnext]
    by_cases hless : row.deviceNr < best.2
    · rw [if_pos hless, if_neg (by dsimp only; omega)]
    · rw [if_neg hless, if_neg (by omega)]
  · rw [if_neg hnext, if_neg hnext]

theorem selectRow_of_least {next i : ℕ} {rows : List (AutoNrRow sizes)} {best : ℕ × ℕ}
    (hrows : ∀ row ∈ rows, row.deviceNr < autoDeviceNrStart)
    (hleast : ∀ other ∈ rows, best.2 ≤ other.key next) : selectRow next i rows best = best.1 := by
  induction rows generalizing i with
  | nil => rw [selectRow]
  | cons first rows ih =>
      rw [selectRow_cons (hrows first List.mem_cons_self),
        if_neg (Nat.not_lt.mpr (hleast first List.mem_cons_self))]
      exact ih (fun other hother => hrows other (List.mem_cons_of_mem _ hother))
        fun other hother => hleast other (List.mem_cons_of_mem _ hother)

theorem selectRow_eq {next : ℕ} {rows : List (AutoNrRow sizes)}
    (hrows : ∀ row ∈ rows, row.deviceNr < autoDeviceNrStart) {i j : ℕ} {row : AutoNrRow sizes}
    (hj : rows[j]? = some row) {best : ℕ × ℕ} (hbest : row.key next < best.2)
    (hbefore : ∀ k other, k < j → rows[k]? = some other → row.key next < other.key next)
    (hafter : ∀ other ∈ rows, row.key next ≤ other.key next) :
    selectRow next i rows best = i + j := by
  induction rows generalizing i j best with
  | nil => cases hj
  | cons first rows ih =>
      have hrest : ∀ other ∈ rows, other.deviceNr < autoDeviceNrStart := fun other hother =>
        hrows other (List.mem_cons_of_mem _ hother)
      have hless : ∀ other ∈ rows, row.key next ≤ other.key next := fun other hother =>
        hafter other (List.mem_cons_of_mem _ hother)
      rw [selectRow_cons (hrows first List.mem_cons_self)]
      cases j with
      | zero =>
          obtain rfl : first = row := Option.some.inj hj
          rw [if_pos hbest]
          exact selectRow_of_least hrest hless
      | succ j =>
          have hfirst : row.key next < first.key next := hbefore 0 first (Nat.succ_pos j) rfl
          have hbest' : row.key next <
              (if first.key next < best.2 then (i, first.key next) else best).2 := by
            split_ifs
            · exact hfirst
            · exact hbest
          rw [ih hrest hj hbest'
            (fun k other hk hother => hbefore (k + 1) other (Nat.succ_lt_succ hk) hother) hless]
          omega

theorem smallestRow_eq {next : ℕ} {rows : List (AutoNrRow sizes)}
    (hrows : ∀ row ∈ rows, row.deviceNr < autoDeviceNrStart) {j : ℕ} {row : AutoNrRow sizes}
    (hj : rows[j]? = some row)
    (hbefore : ∀ k other, k < j → rows[k]? = some other → row.key next < other.key next)
    (hafter : ∀ other ∈ rows, row.key next ≤ other.key next) :
    smallestRow next rows = j := by
  cases rows with
  | nil => cases hj
  | cons first rows =>
      have hstart : autoDeviceNrStart = 40001 := rfl
      have hfirst := hrows first List.mem_cons_self
      have hid : (if first.deviceNr < next then
          (first.deviceNr + autoDeviceNrStart) % 0x100000000 else first.deviceNr) =
            first.key next := by
        rw [Nat.mod_eq_of_lt (by omega)]
        unfold AutoNrRow.key age
        split_ifs with hlt hle
        · omega
        · rfl
        · rfl
        · omega
      rw [smallestRow, hid, selectRow_cons hfirst, if_neg (Nat.lt_irrefl _)]
      cases j with
      | zero =>
          obtain rfl : first = row := Option.some.inj hj
          exact selectRow_of_least
            (fun other hother => hrows other (List.mem_cons_of_mem _ hother))
            fun other hother => hafter other (List.mem_cons_of_mem _ hother)
      | succ j =>
          have hless : row.key next < first.key next := hbefore 0 first (Nat.succ_pos j) rfl
          rw [selectRow_eq (fun other hother => hrows other (List.mem_cons_of_mem _ hother)) hj
            hless (fun k other hk hother => hbefore (k + 1) other (Nat.succ_lt_succ hk) hother)
            fun other hother => hafter other (List.mem_cons_of_mem _ hother)]
          omega

/-! ## The turns of the rows -/

/-- The reservations of a table: those which have been made last, in turns. -/
structure Reservations.Valid (s : Reservations sizes) : Prop where
  rows_length : s.saved.rows.length = sizes.nroSavedDeviceNrs
  reserve : s.saved.reserveAutoDeviceNr =
    if s.count = 0 then 0
    else number reservedAutoDeviceNrStart nroReservedNumbers (s.count - 1) + 1
  turns : ∀ i < sizes.nroSavedDeviceNrs, (s.reservedAt i = 0 ∧ s.count ≤ i) ∨
    ∃ q, s.reservedAt i = sizes.nroSavedDeviceNrs * q + i + 1 ∧ s.reservedAt i ≤ s.count ∧
      s.count < s.reservedAt i + sizes.nroSavedDeviceNrs
  numbers : ∀ (i : ℕ) (row : AutoNrRow sizes), s.saved.rows[i]? = some row → row.deviceNr =
    if s.reservedAt i = 0 then 0
    else number reservedAutoDeviceNrStart nroReservedNumbers (s.reservedAt i - 1)
  used : ∀ (i : ℕ) (row : AutoNrRow sizes), s.saved.rows[i]? = some row →
    (row.uniqueIdBin = noUniqueId sizes ↔ s.reservedAt i = 0)
  distinct : ∀ (i j : ℕ) (row other : AutoNrRow sizes), s.saved.rows[i]? = some row →
    s.saved.rows[j]? = some other → row.uniqueIdBin = other.uniqueIdBin →
    row.uniqueIdBin ≠ noUniqueId sizes → i = j

namespace Reservations

variable {s : Reservations sizes}

theorem initial_row {i : ℕ} {row : AutoNrRow sizes}
    (hrow : (initialReservations sizes).saved.rows[i]? = some row) :
    row = ⟨0, noUniqueId sizes⟩ :=
  List.eq_of_mem_replicate (List.mem_of_getElem? hrow)

theorem initial_valid : (initialReservations sizes).Valid where
  rows_length := List.length_replicate
  reserve := rfl
  turns i _ := .inl ⟨rfl, Nat.zero_le i⟩
  numbers i row hrow := by
    obtain rfl := initial_row hrow
    rfl
  used i row hrow := by
    obtain rfl := initial_row hrow
    exact ⟨fun _ => rfl, fun _ => rfl⟩
  distinct i j row other hrow _ _ hne := by
    obtain rfl := initial_row hrow
    exact absurd rfl hne

def turn (s : Reservations sizes) : ℕ := s.count % sizes.nroSavedDeviceNrs

theorem turn_lt (s : Reservations sizes) : s.turn < sizes.nroSavedDeviceNrs :=
  Nat.mod_lt _ sizes.nroSavedDeviceNrs_pos

theorem Valid.next_eq (h : s.Valid) :
    s.saved.next = number reservedAutoDeviceNrStart nroReservedNumbers s.count := by
  have hreserve := h.reserve
  have hstart : autoDeviceNrStart = 40001 := rfl
  unfold SavedAutoNrData.next
  unfold number at hreserve ⊢
  unfold nroReservedNumbers reservedAutoDeviceNrStart autoDeviceNumber at *
  rw [hstart] at hreserve ⊢
  split_ifs at hreserve with hcount
  · rw [hreserve, hcount]
    rfl
  · split_ifs with hrange <;> omega

theorem Valid.not_unused (h : s.Valid) (hfull : sizes.nroSavedDeviceNrs ≤ s.count) {i : ℕ}
    (hi : i < sizes.nroSavedDeviceNrs) :
    ∃ q, s.reservedAt i = sizes.nroSavedDeviceNrs * q + i + 1 ∧ s.reservedAt i ≤ s.count ∧
      s.count < s.reservedAt i + sizes.nroSavedDeviceNrs := by
  rcases h.turns i hi with ⟨-, hle⟩ | hused
  · omega
  · exact hused

/-- In a table which is full it is the turn of the oldest row. -/
theorem Valid.turn_reservedAt (h : s.Valid) (hfull : sizes.nroSavedDeviceNrs ≤ s.count) :
    s.reservedAt s.turn + sizes.nroSavedDeviceNrs = s.count + 1 := by
  obtain ⟨q, hq, hle, hlt⟩ := h.not_unused hfull s.turn_lt
  have hpos := sizes.nroSavedDeviceNrs_pos
  have hcount : sizes.nroSavedDeviceNrs * (s.count / sizes.nroSavedDeviceNrs) + s.turn =
      s.count := Nat.div_add_mod _ _
  have hless : q < s.count / sizes.nroSavedDeviceNrs := by
    refine Nat.lt_of_mul_lt_mul_left (a := sizes.nroSavedDeviceNrs) ?_
    omega
  have hmore : s.count / sizes.nroSavedDeviceNrs < q + 2 := by
    refine Nat.lt_of_mul_lt_mul_left (a := sizes.nroSavedDeviceNrs) ?_
    rw [Nat.mul_add]
    omega
  have hround : s.count / sizes.nroSavedDeviceNrs = q + 1 := by omega
  rw [hround, Nat.mul_succ] at hcount
  omega

theorem Valid.reservedAt_ne (h : s.Valid) {i j : ℕ} (hi : i < sizes.nroSavedDeviceNrs)
    (hj : j < sizes.nroSavedDeviceNrs) (hne : i ≠ j) (hused : s.reservedAt i ≠ 0) :
    s.reservedAt i ≠ s.reservedAt j := by
  intro hsame
  obtain ⟨q, hq, -⟩ := (h.turns i hi).resolve_left fun hnone => hused hnone.1
  obtain ⟨q', hq', -⟩ := (h.turns j hj).resolve_left fun hnone => hused (hsame.trans hnone.1)
  have heq : sizes.nroSavedDeviceNrs * q + i = sizes.nroSavedDeviceNrs * q' + j := by omega
  have hmod : (sizes.nroSavedDeviceNrs * q + i) % sizes.nroSavedDeviceNrs =
      (sizes.nroSavedDeviceNrs * q' + j) % sizes.nroSavedDeviceNrs := by rw [heq]
  rw [Nat.mul_add_mod, Nat.mul_add_mod, Nat.mod_eq_of_lt hi, Nat.mod_eq_of_lt hj] at hmod
  exact hne hmod

/-- An unused row first, and then the row which was reserved the longest ago. -/
theorem Valid.turn_oldest (h : s.Valid) :
    s.reservedAt s.turn = 0 ∨ ∀ i < sizes.nroSavedDeviceNrs, i ≠ s.turn →
      s.reservedAt s.turn < s.reservedAt i := by
  by_cases hfull : sizes.nroSavedDeviceNrs ≤ s.count
  · right
    intro i hi hne
    have hturn := h.turn_reservedAt hfull
    obtain ⟨q, hq, -, hlt⟩ := h.not_unused hfull hi
    have hdiffer := h.reservedAt_ne hi s.turn_lt hne (by omega)
    omega
  · left
    have hturn : s.turn = s.count := Nat.mod_eq_of_lt (Nat.lt_of_not_le hfull)
    rcases h.turns s.turn s.turn_lt with ⟨hnone, -⟩ | ⟨q, hq, hle, -⟩
    · exact hnone
    · rw [hturn] at hq hle
      omega

theorem Valid.number_bounds (h : s.Valid) {i : ℕ} {row : AutoNrRow sizes}
    (hrow : s.saved.rows[i]? = some row) (hused : s.reservedAt i ≠ 0) :
    reservedAutoDeviceNrStart ≤ row.deviceNr ∧ row.deviceNr ≤ autoDeviceNrStart - 2 := by
  have hnumber := h.numbers i row hrow
  have hlt : number reservedAutoDeviceNrStart nroReservedNumbers (s.reservedAt i - 1) <
      reservedAutoDeviceNrStart + nroReservedNumbers := number_lt (by decide)
  have hsum : reservedAutoDeviceNrStart + nroReservedNumbers = autoDeviceNrStart - 1 := rfl
  have hstart : autoDeviceNrStart = 40001 := rfl
  rw [if_neg hused] at hnumber
  rw [hnumber]
  exact ⟨Nat.le_add_right _ _, by omega⟩

/-- The numbers of two rows which are used differ: there are not more rows than numbers. -/
theorem Valid.number_unique (h : s.Valid) {i j : ℕ} {row other : AutoNrRow sizes}
    (hrow : s.saved.rows[i]? = some row) (hother : s.saved.rows[j]? = some other)
    (hused : s.reservedAt i ≠ 0) (hused' : s.reservedAt j ≠ 0)
    (hsame : row.deviceNr = other.deviceNr) : i = j := by
  by_contra hne
  have hlength := h.rows_length
  have hi : i < s.saved.rows.length := (List.getElem?_eq_some_iff.mp hrow).1
  have hj : j < s.saved.rows.length := (List.getElem?_eq_some_iff.mp hother).1
  rw [hlength] at hi hj
  have hdiffer := h.reservedAt_ne hi hj hne hused
  have hle := sizes.nroSavedDeviceNrs_le
  have hnumber := h.numbers i row hrow
  have hnumber' := h.numbers j other hother
  rw [if_neg hused] at hnumber
  rw [if_neg hused'] at hnumber'
  obtain ⟨q, hq, hcount, hlt⟩ := (h.turns i hi).resolve_left fun hnone => hused hnone.1
  obtain ⟨q', hq', hcount', hlt'⟩ := (h.turns j hj).resolve_left fun hnone => hused' hnone.1
  have hpositive : 0 < nroReservedNumbers := by decide
  rw [hnumber, hnumber'] at hsame
  rcases Nat.lt_or_gt_of_ne hdiffer with hless | hless
  · exact number_ne hpositive (by omega) (by omega) hsame
  · exact number_ne hpositive (by omega) (by omega) hsame.symm

theorem Valid.index_unique (h : s.Valid) {i j : ℕ} {row other : AutoNrRow sizes}
    (hrow : s.saved.rows[i]? = some row) (hother : s.saved.rows[j]? = some other)
    (hne : row.deviceNr ≠ 0) (hsame : row.deviceNr = other.deviceNr) : i = j := by
  refine h.number_unique hrow hother (fun hzero => ?_) (fun hzero => ?_) hsame
  · have hnumber := h.numbers i row hrow
    rw [if_pos hzero] at hnumber
    exact hne hnumber
  · have hnumber := h.numbers j other hother
    rw [if_pos hzero] at hnumber
    exact hne (hsame.trans hnumber)

/-- A row is used if it has a number, and then the number is one of those to reserve. -/
theorem Valid.mem_bounds (h : s.Valid) {row : AutoNrRow sizes} (hmem : row ∈ s.saved.rows)
    (hne : row.deviceNr ≠ 0) :
    reservedAutoDeviceNrStart ≤ row.deviceNr ∧ row.deviceNr ≤ autoDeviceNrStart - 2 := by
  obtain ⟨i, hi, hrow⟩ := List.getElem_of_mem hmem
  have hget : s.saved.rows[i]? = some row := by rw [List.getElem?_eq_getElem hi, hrow]
  refine h.number_bounds hget fun hzero => ?_
  have hnumber := h.numbers i row hget
  rw [if_pos hzero] at hnumber
  exact hne hnumber

theorem Valid.row_eq_of_deviceNr (h : s.Valid) {row other : AutoNrRow sizes}
    (hmem : row ∈ s.saved.rows) (hother : other ∈ s.saved.rows) (hne : row.deviceNr ≠ 0)
    (hsame : row.deviceNr = other.deviceNr) : row = other := by
  obtain ⟨i, hi, hrow⟩ := List.getElem_of_mem hmem
  obtain ⟨j, hj, hrow'⟩ := List.getElem_of_mem hother
  have hget : s.saved.rows[i]? = some row := by rw [List.getElem?_eq_getElem hi, hrow]
  have hget' : s.saved.rows[j]? = some other := by rw [List.getElem?_eq_getElem hj, hrow']
  obtain rfl := h.index_unique hget hget' hne hsame
  exact Option.some.inj (hget.symm.trans hget')

theorem Valid.deviceNr_ne_zero (h : s.Valid) {row : AutoNrRow sizes} (hmem : row ∈ s.saved.rows)
    (hne : row.uniqueIdBin ≠ noUniqueId sizes) : row.deviceNr ≠ 0 := by
  obtain ⟨i, hi, hrow⟩ := List.getElem_of_mem hmem
  have hget : s.saved.rows[i]? = some row := by rw [List.getElem?_eq_getElem hi, hrow]
  have hused : s.reservedAt i ≠ 0 := fun hzero => hne ((h.used i row hget).mpr hzero)
  have hbounds := h.number_bounds hget hused
  have hstart : reservedAutoDeviceNrStart = 9001 := rfl
  omega

theorem Valid.deviceNr_lt (h : s.Valid) :
    ∀ row ∈ s.saved.rows, row.deviceNr < autoDeviceNrStart := by
  intro row hmem
  obtain ⟨i, hi, hrow⟩ := List.getElem_of_mem hmem
  have hrow' : s.saved.rows[i]? = some row := by rw [List.getElem?_eq_getElem hi, hrow]
  have hstart : autoDeviceNrStart = 40001 := rfl
  by_cases hused : s.reservedAt i = 0
  · have hnumber := h.numbers i row hrow'
    rw [if_pos hused] at hnumber
    omega
  · have hbounds := h.number_bounds hrow' hused
    omega

theorem Valid.key_turn (h : s.Valid) {i : ℕ} {row other : AutoNrRow sizes}
    (hrow : s.saved.rows[s.turn]? = some row) (hother : s.saved.rows[i]? = some other) :
    (i < s.turn → row.key s.saved.next < other.key s.saved.next) ∧
      row.key s.saved.next ≤ other.key s.saved.next := by
  have hi : i < sizes.nroSavedDeviceNrs := by
    rw [← h.rows_length]
    exact (List.getElem?_eq_some_iff.mp hother).1
  have hnumber := h.numbers _ _ hrow
  have hnumber' := h.numbers _ _ hother
  have hle := sizes.nroSavedDeviceNrs_le
  unfold AutoNrRow.key
  rw [h.next_eq]
  by_cases hfull : sizes.nroSavedDeviceNrs ≤ s.count
  · by_cases hsame : i = s.turn
    · subst hsame
      obtain rfl : row = other := Option.some.inj (hrow.symm.trans hother)
      exact ⟨fun hlt => absurd hlt (Nat.lt_irrefl _), Nat.le_refl _⟩
    · have hturn := h.turn_reservedAt hfull
      obtain ⟨q, hq, hcount, hlt⟩ := h.not_unused hfull hi
      obtain ⟨q', hq', -⟩ := h.not_unused hfull s.turn_lt
      have holder := h.turn_oldest.resolve_left (by omega) i hi hsame
      rw [if_neg (by omega)] at hnumber hnumber'
      rw [hnumber, hnumber']
      have hage :
          age autoDeviceNrStart (number reservedAutoDeviceNrStart nroReservedNumbers s.count)
              (number reservedAutoDeviceNrStart nroReservedNumbers (s.reservedAt s.turn - 1)) <
            age autoDeviceNrStart (number reservedAutoDeviceNrStart nroReservedNumbers s.count)
              (number reservedAutoDeviceNrStart nroReservedNumbers (s.reservedAt i - 1)) :=
        age_lt (by decide) (by decide) (by omega) (by omega) (by omega)
      exact ⟨fun _ => hage, hage.le⟩
  · have hturn : s.turn = s.count := Nat.mod_eq_of_lt (Nat.lt_of_not_le hfull)
    have hnext : number reservedAutoDeviceNrStart nroReservedNumbers s.count =
        reservedAutoDeviceNrStart + s.count := by
      unfold number
      rw [Nat.mod_eq_of_lt (by omega)]
    have hnone : s.reservedAt s.turn = 0 := by
      rcases h.turns s.turn s.turn_lt with ⟨hnone, -⟩ | ⟨q, hq, hused, -⟩
      · exact hnone
      · rw [hturn] at hq hused
        omega
    have hpositive : 0 < reservedAutoDeviceNrStart := by decide
    rw [if_pos hnone] at hnumber
    rw [hnumber, hnext]
    unfold age
    rw [if_neg (by omega)]
    rcases h.turns i hi with ⟨hnone', hafter⟩ | ⟨q, hq, hused, -⟩
    · rw [if_pos hnone'] at hnumber'
      rw [hnumber', if_neg (by omega)]
      exact ⟨fun hlt => by omega, Nat.le_refl _⟩
    · have hfirst : s.reservedAt i = i + 1 := by
        have hq0 : q = 0 := by
          by_contra hmore
          have hmul : sizes.nroSavedDeviceNrs * 1 ≤ sizes.nroSavedDeviceNrs * q :=
            Nat.mul_le_mul_left _ (Nat.pos_of_ne_zero hmore)
          omega
        rw [hq, hq0, Nat.mul_zero, Nat.zero_add]
      rw [if_neg (by omega), hfirst, Nat.add_sub_cancel] at hnumber'
      unfold number at hnumber'
      rw [Nat.mod_eq_of_lt (by omega)] at hnumber'
      rw [hnumber', if_neg (by omega)]
      exact ⟨fun _ => by omega, by omega⟩

theorem Valid.smallestRow_eq (h : s.Valid) :
    smallestRow s.saved.next s.saved.rows = s.turn := by
  have hlt : s.turn < s.saved.rows.length := by
    rw [h.rows_length]
    exact s.turn_lt
  have hrow := List.getElem?_eq_getElem hlt
  refine Iocom.smallestRow_eq h.deviceNr_lt hrow
    (fun k other hk hother => (h.key_turn hrow hother).1 hk) fun other hmem => ?_
  obtain ⟨i, hi, rfl⟩ := List.getElem_of_mem hmem
  exact (h.key_turn hrow (List.getElem?_eq_getElem hi)).2

/-! ## Calls -/

/-- An identifier of the table gets the number of its row, and the table stays. -/
theorem getReservedAutonr_of_mem {id : UniqueId sizes} {row : AutoNrRow sizes}
    (hmem : row ∈ s.saved.rows) (hrow : row.uniqueIdBin = id)
    (hfirst : ∀ other ∈ s.saved.rows, other.uniqueIdBin = id → other = row) :
    getReservedAutonr id s.saved = (row.deviceNr, s.saved) := by
  have hfind : (s.saved.rows.find? fun other => decide (id = other.uniqueIdBin)) = some row := by
    cases hsearch : s.saved.rows.find? fun other => decide (id = other.uniqueIdBin) with
    | none =>
        have hnot := List.find?_eq_none.mp hsearch row hmem
        rw [hrow] at hnot
        exact absurd (decide_eq_true rfl) hnot
    | some found =>
        have hfound : decide (id = found.uniqueIdBin) = true := by
          simpa using List.find?_some hsearch
        rw [hfirst found (List.mem_of_find?_eq_some hsearch) (of_decide_eq_true hfound).symm]
  unfold getReservedAutonr
  rw [hfind]

theorem call_of_mem {id : UniqueId sizes} {row : AutoNrRow sizes} (hmem : row ∈ s.saved.rows)
    (hrow : row.uniqueIdBin = id)
    (hfirst : ∀ other ∈ s.saved.rows, other.uniqueIdBin = id → other = row) :
    s.call id = s := by
  unfold call
  rw [getReservedAutonr_of_mem hmem hrow hfirst]
  exact if_pos rfl

def reserved (s : Reservations sizes) (id : UniqueId sizes) : Reservations sizes where
  saved :=
    { reserveAutoDeviceNr :=
        number reservedAutoDeviceNrStart nroReservedNumbers s.count + 1
      rows := s.saved.rows.set s.turn
        ⟨number reservedAutoDeviceNrStart nroReservedNumbers s.count, id⟩ }
  count := s.count + 1
  reservedAt := fun i => if i = s.turn then s.count + 1 else s.reservedAt i

/-- A new identifier gets the next number, and the row whose turn it is. -/
theorem Valid.getReservedAutonr_of_not_mem (h : s.Valid) {id : UniqueId sizes}
    (hnew : ∀ row ∈ s.saved.rows, row.uniqueIdBin ≠ id) :
    getReservedAutonr id s.saved =
      (number reservedAutoDeviceNrStart nroReservedNumbers s.count, (s.reserved id).saved) := by
  have hfind : (s.saved.rows.find? fun other => decide (id = other.uniqueIdBin)) = none :=
    List.find?_eq_none.mpr fun row hmem hid => hnew row hmem (of_decide_eq_true hid).symm
  have hbound : number reservedAutoDeviceNrStart nroReservedNumbers s.count <
      reservedAutoDeviceNrStart + nroReservedNumbers := number_lt (by decide)
  have hsum : reservedAutoDeviceNrStart + nroReservedNumbers + 1 = 40001 := rfl
  unfold getReservedAutonr reserved
  rw [hfind]
  dsimp only
  rw [h.smallestRow_eq, h.next_eq, Nat.mod_eq_of_lt (by omega)]

theorem Valid.call_of_not_mem (h : s.Valid) {id : UniqueId sizes}
    (hnew : ∀ row ∈ s.saved.rows, row.uniqueIdBin ≠ id) : s.call id = s.reserved id := by
  have hturn : s.turn < s.saved.rows.length := by
    rw [h.rows_length]
    exact s.turn_lt
  have hset : (s.reserved id).saved.rows[s.turn]? =
      some ⟨number reservedAutoDeviceNrStart nroReservedNumbers s.count, id⟩ :=
    List.getElem?_set_self hturn
  have hdiffer : (s.reserved id).saved.rows[s.turn]? ≠ s.saved.rows[s.turn]? := by
    intro hsame
    rw [hset] at hsame
    exact hnew _ (List.mem_of_getElem? hsame.symm) rfl
  have hchanged : (s.reserved id).saved ≠ s.saved := fun hsame => hdiffer (by rw [hsame])
  unfold call
  rw [h.getReservedAutonr_of_not_mem hnew]
  dsimp only
  rw [if_neg hchanged]
  unfold reserved
  congr 1
  funext i
  by_cases hi : i = s.turn
  · rw [if_pos hi, hi]
    exact if_neg hdiffer
  · rw [if_neg hi, List.getElem?_set_ne (Ne.symm hi), if_pos rfl]

theorem Valid.reserved_row (h : s.Valid) {id : UniqueId sizes} {i : ℕ} {row : AutoNrRow sizes}
    (hrow : (s.reserved id).saved.rows[i]? = some row) :
    (i = s.turn ∧ row = ⟨number reservedAutoDeviceNrStart nroReservedNumbers s.count, id⟩) ∨
      (i ≠ s.turn ∧ s.saved.rows[i]? = some row) := by
  unfold reserved at hrow
  dsimp only at hrow
  by_cases hi : i = s.turn
  · have hturn : s.turn < s.saved.rows.length := by
      rw [h.rows_length]
      exact s.turn_lt
    rw [hi, List.getElem?_set_self hturn] at hrow
    exact .inl ⟨hi, (Option.some.inj hrow).symm⟩
  · rw [List.getElem?_set_ne (Ne.symm hi)] at hrow
    exact .inr ⟨hi, hrow⟩

theorem Valid.mem_reserved (h : s.Valid) (id : UniqueId sizes) :
    ⟨number reservedAutoDeviceNrStart nroReservedNumbers s.count, id⟩ ∈
      (s.reserved id).saved.rows := by
  have hturn : s.turn < s.saved.rows.length := by
    rw [h.rows_length]
    exact s.turn_lt
  exact List.mem_of_getElem? (List.getElem?_set_self hturn)

theorem reserved_turn (s : Reservations sizes) (id : UniqueId sizes) :
    (s.reserved id).reservedAt s.turn = s.count + 1 := if_pos rfl

theorem reserved_other {id : UniqueId sizes} {i : ℕ} (hi : i ≠ s.turn) :
    (s.reserved id).reservedAt i = s.reservedAt i := if_neg hi

theorem Valid.reserved_turns (h : s.Valid) (id : UniqueId sizes) :
    ∀ i < sizes.nroSavedDeviceNrs,
      ((s.reserved id).reservedAt i = 0 ∧ s.count + 1 ≤ i) ∨
      ∃ q, (s.reserved id).reservedAt i = sizes.nroSavedDeviceNrs * q + i + 1 ∧
        (s.reserved id).reservedAt i ≤ s.count + 1 ∧
        s.count + 1 < (s.reserved id).reservedAt i + sizes.nroSavedDeviceNrs := by
  intro i hi
  have hpos := sizes.nroSavedDeviceNrs_pos
  by_cases hturn : i = s.turn
  · have hcount : sizes.nroSavedDeviceNrs * (s.count / sizes.nroSavedDeviceNrs) + s.turn =
        s.count := Nat.div_add_mod _ _
    right
    rw [hturn, reserved_turn]
    exact ⟨s.count / sizes.nroSavedDeviceNrs, by omega, Nat.le_refl _, by omega⟩
  · rw [reserved_other hturn]
    rcases h.turns i hi with ⟨hnone, hle⟩ | ⟨q, hq, hle, hlt⟩
    · left
      have hne : s.count ≠ i := fun hsame => hturn (by
        unfold turn
        rw [hsame, Nat.mod_eq_of_lt hi])
      exact ⟨hnone, by omega⟩
    · right
      have hne : s.count ≠ sizes.nroSavedDeviceNrs * (q + 1) + i := fun hsame => hturn (by
        unfold turn
        rw [hsame, Nat.mul_add_mod, Nat.mod_eq_of_lt hi])
      rw [Nat.mul_succ] at hne
      exact ⟨q, hq, by omega, by omega⟩

theorem Valid.reserved (h : s.Valid) {id : UniqueId sizes} (hid : id ≠ noUniqueId sizes)
    (hnew : ∀ row ∈ s.saved.rows, row.uniqueIdBin ≠ id) : (s.reserved id).Valid where
  rows_length := List.length_set.trans h.rows_length
  reserve := (if_neg (Nat.succ_ne_zero s.count)).symm
  turns := h.reserved_turns id
  numbers i row hrow := by
    rcases h.reserved_row hrow with ⟨hi, rfl⟩ | ⟨hi, hold⟩
    · rw [hi, reserved_turn, if_neg (Nat.succ_ne_zero _), Nat.add_sub_cancel]
    · rw [reserved_other hi]
      exact h.numbers i row hold
  used i row hrow := by
    rcases h.reserved_row hrow with ⟨hi, rfl⟩ | ⟨hi, hold⟩
    · rw [hi, reserved_turn]
      exact ⟨fun hsame => absurd hsame hid, fun hzero => absurd hzero (Nat.succ_ne_zero _)⟩
    · rw [reserved_other hi]
      exact h.used i row hold
  distinct i j row other hrow hother hsame hne := by
    rcases h.reserved_row hrow with ⟨hi, rfl⟩ | ⟨hi, hold⟩
    · rcases h.reserved_row hother with ⟨hj, rfl⟩ | ⟨hj, hold'⟩
      · rw [hi, hj]
      · exact absurd hsame.symm (hnew other (List.mem_of_getElem? hold'))
    · rcases h.reserved_row hother with ⟨hj, rfl⟩ | ⟨hj, hold'⟩
      · exact absurd hsame (hnew row (List.mem_of_getElem? hold))
      · exact h.distinct i j row other hold hold' hsame hne

theorem Valid.row_unique (h : s.Valid) {row : AutoNrRow sizes} (hmem : row ∈ s.saved.rows)
    (hne : row.uniqueIdBin ≠ noUniqueId sizes) :
    ∀ other ∈ s.saved.rows, other.uniqueIdBin = row.uniqueIdBin → other = row := by
  intro other hother hsame
  obtain ⟨i, hi, hrow⟩ := List.getElem_of_mem hmem
  obtain ⟨j, hj, hrow'⟩ := List.getElem_of_mem hother
  have hget : s.saved.rows[i]? = some row := by rw [List.getElem?_eq_getElem hi, hrow]
  have hget' : s.saved.rows[j]? = some other := by rw [List.getElem?_eq_getElem hj, hrow']
  obtain rfl := h.distinct i j row other hget hget' hsame.symm hne
  exact Option.some.inj (hget'.symm.trans hget)

theorem Valid.call (h : s.Valid) {id : UniqueId sizes} (hid : id ≠ noUniqueId sizes) :
    (s.call id).Valid := by
  by_cases hold : ∃ row ∈ s.saved.rows, row.uniqueIdBin = id
  · obtain ⟨row, hmem, rfl⟩ := hold
    rw [call_of_mem hmem rfl (h.row_unique hmem hid)]
    exact h
  · have hnew : ∀ row ∈ s.saved.rows, row.uniqueIdBin ≠ id := fun row hmem hsame =>
      hold ⟨row, hmem, hsame⟩
    rw [h.call_of_not_mem hnew]
    exact h.reserved hid hnew

theorem Valid.calls {calls : List (UniqueId sizes)} (h : s.Valid)
    (hcalls : ∀ id ∈ calls, id ≠ noUniqueId sizes) : (calls.foldl Reservations.call s).Valid := by
  induction calls generalizing s with
  | nil => exact h
  | cons id calls ih =>
      exact ih (h.call (hcalls id List.mem_cons_self)) fun id' hmem =>
        hcalls id' (List.mem_cons_of_mem _ hmem)

/-- A row whose identifier is still in the table after a call has not been replaced. -/
theorem Valid.row_stays (h : s.Valid) {id : UniqueId sizes} {row : AutoNrRow sizes}
    (hmem : row ∈ s.saved.rows) (hne : row.uniqueIdBin ≠ noUniqueId sizes)
    (hid : id ≠ noUniqueId sizes)
    (hstays : ∃ other ∈ (s.call id).saved.rows, other.uniqueIdBin = row.uniqueIdBin) :
    row ∈ (s.call id).saved.rows := by
  by_cases hold : ∃ found ∈ s.saved.rows, found.uniqueIdBin = id
  · obtain ⟨found, hfound, rfl⟩ := hold
    rw [call_of_mem hfound rfl (h.row_unique hfound hid)]
    exact hmem
  · have hnew : ∀ found ∈ s.saved.rows, found.uniqueIdBin ≠ id := fun found hfound hsame =>
      hold ⟨found, hfound, hsame⟩
    obtain ⟨other, hother, hsame⟩ := hstays
    rw [h.call_of_not_mem hnew] at hother ⊢
    obtain ⟨i, hi, hget⟩ := List.getElem_of_mem hother
    have hget' : (s.reserved id).saved.rows[i]? = some other := by
      rw [List.getElem?_eq_getElem hi, hget]
    rcases h.reserved_row hget' with ⟨-, rfl⟩ | ⟨-, hkept⟩
    · exact absurd hsame.symm (hnew row hmem)
    · rw [← h.row_unique hmem hne other (List.mem_of_getElem? hkept) hsame]
      exact hother

/-- While an identifier stays in the table it gets the same number. -/
theorem Valid.same_number {more : List (UniqueId sizes)} (h : s.Valid) {row : AutoNrRow sizes}
    (hmem : row ∈ s.saved.rows) (hne : row.uniqueIdBin ≠ noUniqueId sizes)
    (hmore : ∀ id ∈ more, id ≠ noUniqueId sizes)
    (hstays : ∀ calls, calls <+: more →
      ∃ other ∈ (calls.foldl Reservations.call s).saved.rows,
        other.uniqueIdBin = row.uniqueIdBin) :
    getReservedAutonr row.uniqueIdBin (more.foldl Reservations.call s).saved =
      (row.deviceNr, (more.foldl Reservations.call s).saved) := by
  induction more generalizing s with
  | nil => exact getReservedAutonr_of_mem hmem rfl (h.row_unique hmem hne)
  | cons id more ih =>
      have hid := hmore id List.mem_cons_self
      have hnext : ∃ other ∈ (s.call id).saved.rows, other.uniqueIdBin = row.uniqueIdBin :=
        hstays [id] ⟨more, rfl⟩
      refine ih (h.call hid) (h.row_stays hmem hne hid hnext)
        (fun id' hmem' => hmore id' (List.mem_cons_of_mem _ hmem')) fun calls hcalls => ?_
      exact hstays (id :: calls) ((List.prefix_cons_inj id).mpr hcalls)

end Reservations

/-- The table after any calls: the numbers are different ones of those to reserve, each
identifier is there at most once and keeps its number, and a new one takes an unused row or
the row which was reserved the longest ago. -/
theorem reservation_table (calls : List (UniqueId sizes))
    (hcalls : ∀ id ∈ calls, id ≠ noUniqueId sizes) :
    let s := calls.foldl Reservations.call (initialReservations sizes)
    (∀ (i j : ℕ) (row other : AutoNrRow sizes), s.saved.rows[i]? = some row →
      s.saved.rows[j]? = some other → row.deviceNr ≠ 0 → row.deviceNr = other.deviceNr → i = j) ∧
    (∀ row ∈ s.saved.rows, row.deviceNr ≠ 0 → reservedAutoDeviceNrStart ≤ row.deviceNr ∧
      row.deviceNr ≤ autoDeviceNrStart - 2) ∧
    (∀ (i j : ℕ) (row other : AutoNrRow sizes), s.saved.rows[i]? = some row →
      s.saved.rows[j]? = some other → row.uniqueIdBin = other.uniqueIdBin →
      row.uniqueIdBin ≠ noUniqueId sizes → i = j) ∧
    (∀ row ∈ s.saved.rows, row.uniqueIdBin ≠ noUniqueId sizes →
      ∀ more : List (UniqueId sizes), (∀ id ∈ more, id ≠ noUniqueId sizes) →
      (∀ first, first <+: more → ∃ other ∈ (first.foldl Reservations.call s).saved.rows,
        other.uniqueIdBin = row.uniqueIdBin) →
      getReservedAutonr row.uniqueIdBin (more.foldl Reservations.call s).saved =
        (row.deviceNr, (more.foldl Reservations.call s).saved)) ∧
    ∀ id, id ≠ noUniqueId sizes → (∀ row ∈ s.saved.rows, row.uniqueIdBin ≠ id) →
      ∃ i < sizes.nroSavedDeviceNrs,
        (getReservedAutonr id s.saved).2.rows =
          s.saved.rows.set i ⟨(getReservedAutonr id s.saved).1, id⟩ ∧
        (s.reservedAt i = 0 ∨ ∀ j < sizes.nroSavedDeviceNrs, j ≠ i →
          s.reservedAt i < s.reservedAt j) := by
  intro s
  have h : s.Valid := Reservations.initial_valid.calls hcalls
  refine ⟨fun i j row other hrow hother hne hsame => h.index_unique hrow hother hne hsame,
    fun row hmem hne => h.mem_bounds hmem hne, h.distinct, ?_, ?_⟩
  · intro row hmem hne more hmore hstays
    exact h.same_number hmem hne hmore hstays
  · intro id _ hnew
    refine ⟨s.turn, s.turn_lt, ?_, h.turn_oldest⟩
    rw [h.getReservedAutonr_of_not_mem hnew]
    rfl

def serverSizes : AutoNrSizes where
  uniqueIdBin := 4
  nroSavedDeviceNrs := 5
  nroSavedDeviceNrs_pos := by decide
  nroSavedDeviceNrs_le := by decide

def deviceId (n : UInt8) : UniqueId serverSizes := #v[0, 0, 1, n]

def sixDevices : List (UniqueId serverSizes) :=
  [deviceId 1, deviceId 2, deviceId 3, deviceId 4, deviceId 5, deviceId 6]

/-- Six devices have taken five rows, and the first of them comes back. -/
theorem reservation_table_six :
    let s := sixDevices.foldl Reservations.call (initialReservations serverSizes)
    (getReservedAutonr (deviceId 1) s.saved).1 = 9007 ∧
      ∃ i < serverSizes.nroSavedDeviceNrs,
        (getReservedAutonr (deviceId 1) s.saved).2.rows =
          s.saved.rows.set i ⟨(getReservedAutonr (deviceId 1) s.saved).1, deviceId 1⟩ ∧
        (s.reservedAt i = 0 ∨ ∀ j < serverSizes.nroSavedDeviceNrs, j ≠ i →
          s.reservedAt i < s.reservedAt j) :=
  ⟨by decide +kernel,
    (reservation_table sixDevices (by decide +kernel)).2.2.2.2 (deviceId 1) (by decide +kernel)
      (by decide +kernel)⟩

end Iocom
