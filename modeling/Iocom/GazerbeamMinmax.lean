import Mathlib.Order.Bounds.Basic
import Mathlib.Order.Interval.Set.LinearOrder
import Mathlib.Data.Int.ConditionallyCompleteOrder
import Mathlib.Data.Nat.Bitwise
import Mathlib.Tactic.Ring
import Mathlib.Tactic.Linarith

/-!
# Minimum and maximum over layers

`gazerbeam_minmax`: each layer holds the minimum (maximum) of the last two values of the
layer below, and takes a new value half as often as it does.  The bits of a wrapping
counter say which layers are due.
-/

namespace Iocom

variable {V : Type*} [LinearOrder V]

/-- `MAX_GAZERBEAM_LAYERS`. -/
def maxGazerbeamLayers : ℕ := 8

/-- `GazerbeamBuffer`; of the cells those below `maxGazerbeamLayers` exist. -/
structure GazerbeamBuffer (V : Type*) where
  x : ℕ → V
  z : ℕ → V
  runCount : ℕ
  nroLayers : ℕ
  findMax : Bool
  layers : 1 ≤ nroLayers ∧ nroLayers ≤ maxGazerbeamLayers

/-- `GB_MIN`. -/
def gbMin (a b : V) : V := if a < b then a else b

/-- `GB_MAX`. -/
def gbMax (a b : V) : V := if b < a then a else b

def gbSelect (findMax : Bool) (a b : V) : V := if findMax then gbMax a b else gbMin a b

/-- The loop for `n`: the number of ones at the low end of the counter, from `n` on. -/
def layersDue (runCount : ℕ) : ℕ → ℕ → ℕ
  | 0, n => n
  | left + 1, n => if runCount.testBit n then layersDue runCount left (n + 1) else n

/-- The loop for `i` from `n` down to one. -/
def cascadeLayers : ℕ → GazerbeamBuffer V → GazerbeamBuffer V
  | 0, gbb => gbb
  | i + 1, gbb =>
      cascadeLayers i
        { gbb with
          z := Function.update gbb.z (i + 1) (gbb.x (i + 1))
          x := Function.update gbb.x (i + 1) (gbSelect gbb.findMax (gbb.x i) (gbb.z i)) }

/-- `gazerbeam_minmax`. -/
def gazerbeamMinmax (gbb : GazerbeamBuffer V) (x : V) : GazerbeamBuffer V × V :=
  let maxLayer := gbb.nroLayers - 1
  let n := layersDue gbb.runCount maxLayer 0
  let gbb := cascadeLayers n gbb
  let gbb := { gbb with z := Function.update gbb.z 0 (gbb.x 0) }
  let gbb := { gbb with x := Function.update gbb.x 0 x }
  let gbb := { gbb with
    runCount := if 2 ^ maxLayer ≤ gbb.runCount + 1 then 0 else gbb.runCount + 1 }
  (gbb, gbSelect gbb.findMax (gbb.x maxLayer) (gbb.z maxLayer))

/-- `gazerbeam_fill_minmax`. -/
def gazerbeamFillMinmax (gbb : GazerbeamBuffer V) (x : V) : GazerbeamBuffer V :=
  { gbb with
    x := fun i => if i < maxGazerbeamLayers then x else gbb.x i
    z := fun i => if i < maxGazerbeamLayers then x else gbb.z i }

/-- What the calls return when the samples are fed one after the other. -/
def feedMinmax (gbb : GazerbeamBuffer V) : List V → List V
  | [] => []
  | x :: samples => (gazerbeamMinmax gbb x).2 :: feedMinmax (gazerbeamMinmax gbb x).1 samples

/-! ## Windows -/

/-- The value is the least, or the greatest, of the samples after `lo` up to `hi`. -/
def Extremum (findMax : Bool) (sample : ℤ → V) (lo hi : ℤ) (v : V) : Prop :=
  if findMax then IsGreatest (sample '' Set.Ioc lo hi) v
  else IsLeast (sample '' Set.Ioc lo hi) v

section Windows

variable {findMax : Bool} {sample : ℤ → V} {lo mid hi : ℤ} {a b : V}

theorem gbMin_eq (a b : V) : gbMin a b = min a b := by
  unfold gbMin
  split_ifs with h
  · exact (min_eq_left h.le).symm
  · exact (min_eq_right (not_lt.mp h)).symm

theorem gbMax_eq (a b : V) : gbMax a b = max a b := by
  unfold gbMax
  split_ifs with h
  · exact (max_eq_left h.le).symm
  · exact (max_eq_right (not_lt.mp h)).symm

theorem Extremum.join (hnew : Extremum findMax sample mid hi a)
    (hold : Extremum findMax sample lo mid b) (hlo : lo ≤ mid) (hhi : mid ≤ hi) :
    Extremum findMax sample lo hi (gbSelect findMax a b) := by
  have hwindow : sample '' Set.Ioc lo hi =
      sample '' Set.Ioc mid hi ∪ sample '' Set.Ioc lo mid := by
    rw [← Set.image_union, Set.union_comm, Set.Ioc_union_Ioc_eq_Ioc hlo hhi]
  unfold Extremum gbSelect at *
  cases findMax with
  | true =>
      simp only [if_true] at *
      rw [hwindow, gbMax_eq]
      exact hnew.union hold
  | false =>
      simp only [Bool.false_eq_true, if_false] at *
      rw [hwindow, gbMin_eq]
      exact hnew.union hold

theorem Extremum.const (hwindow : lo < hi) (hsame : ∀ j ≤ hi, sample j = a) :
    Extremum findMax sample lo hi a := by
  have himage : sample '' Set.Ioc lo hi = {a} := by
    refine Set.eq_singleton_iff_unique_mem.mpr ⟨⟨hi, ⟨hwindow, le_rfl⟩, hsame hi le_rfl⟩, ?_⟩
    rintro v ⟨j, hj, rfl⟩
    exact hsame j hj.2
  unfold Extremum
  rw [himage]
  split_ifs
  · exact isGreatest_singleton
  · exact isLeast_singleton

theorem Extremum.single (t : ℤ) : Extremum findMax sample (t - 1) t (sample t) := by
  have hwindow : Set.Ioc (t - 1) t = {t} := by
    ext j
    simp only [Set.mem_Ioc, Set.mem_singleton_iff]
    omega
  unfold Extremum
  rw [hwindow, Set.image_singleton]
  split_ifs
  · exact isGreatest_singleton
  · exact isLeast_singleton

end Windows

/-! ## The layers which are due -/

theorem layersDue_spec (runCount left n : ℕ) :
    n ≤ layersDue runCount left n ∧ layersDue runCount left n ≤ n + left ∧
      (∀ k, n ≤ k → k < layersDue runCount left n → runCount.testBit k) ∧
      (layersDue runCount left n < n + left →
        runCount.testBit (layersDue runCount left n) = false) := by
  induction left generalizing n with
  | zero =>
      simp only [layersDue]
      exact ⟨le_rfl, le_rfl, fun k hk hlt => absurd hlt (by omega), fun h => absurd h (by omega)⟩
  | succ left ih =>
      simp only [layersDue]
      split_ifs with hbit
      · obtain ⟨hle, hleft, hones, hzero⟩ := ih (n + 1)
        refine ⟨by omega, by omega, fun k hk hlt => ?_, fun h => hzero (by omega)⟩
        rcases Nat.eq_or_lt_of_le hk with rfl | hk
        · exact hbit
        · exact hones k hk hlt
      · exact ⟨le_rfl, by omega, fun k hk hlt => absurd hlt (by omega),
          fun _ => by simpa using hbit⟩

/-- The bits below `i` are ones when the counter goes on to a multiple of `2 ^ i`. -/
theorem two_pow_dvd_succ_iff (c i : ℕ) : 2 ^ i ∣ c + 1 ↔ ∀ k < i, c.testBit k := by
  induction i with
  | zero => simp
  | succ i ih =>
      have hstep : 2 ^ (i + 1) ∣ c + 1 ↔ 2 ^ i ∣ c + 1 ∧ c.testBit i := by
        rw [Nat.testBit_eq_decide_div_mod_eq, decide_eq_true_iff]
        constructor
        · intro h
          have hdvd := dvd_trans (pow_dvd_pow 2 (Nat.le_succ i)) h
          obtain ⟨m, hm⟩ := h
          refine ⟨hdvd, ?_⟩
          have hdiv := Nat.succ_div_of_dvd hdvd
          rw [hm, pow_succ, mul_assoc, Nat.mul_div_cancel_left _ (Nat.two_pow_pos i)] at hdiv
          omega
        · rintro ⟨hdvd, hodd⟩
          have hdiv := Nat.succ_div_of_dvd hdvd
          obtain ⟨m, hm⟩ := hdvd
          rw [hm, Nat.mul_div_cancel_left _ (Nat.two_pow_pos i)] at hdiv
          obtain ⟨k, rfl⟩ : ∃ k, m = 2 * k := ⟨m / 2, by omega⟩
          exact ⟨k, by rw [hm, pow_succ, mul_assoc]⟩
      rw [hstep, ih]
      constructor
      · rintro ⟨hbelow, hbit⟩ k hk
        rcases Nat.eq_or_lt_of_le (Nat.le_of_lt_succ hk) with rfl | hlt
        · exact hbit
        · exact hbelow k hlt
      · exact fun h => ⟨fun k hk => h k (by omega), h i (by omega)⟩

/-- Layer `i + 1` is due each time as many samples as fit in it have come. -/
theorem lt_layersDue_iff {t maxLayer : ℕ} {i : ℕ} (hi : i < maxLayer) :
    i < layersDue (t % 2 ^ maxLayer) maxLayer 0 ↔ 2 ^ (i + 1) ∣ t + 1 := by
  obtain ⟨-, -, hones, hzero⟩ := layersDue_spec (t % 2 ^ maxLayer) maxLayer 0
  have hmod : 2 ^ (i + 1) ∣ t % 2 ^ maxLayer + 1 ↔ 2 ^ (i + 1) ∣ t + 1 := by
    have hdvd : 2 ^ (i + 1) ∣ 2 ^ maxLayer := pow_dvd_pow 2 hi
    have hsplit : t + 1 = 2 ^ maxLayer * (t / 2 ^ maxLayer) + (t % 2 ^ maxLayer + 1) := by
      rw [← add_assoc, Nat.div_add_mod]
    rw [hsplit]
    exact (Nat.dvd_add_right (dvd_mul_of_dvd_left hdvd _)).symm
  rw [← hmod, two_pow_dvd_succ_iff]
  constructor
  · intro h k hk
    exact hones k (Nat.zero_le k) (by omega)
  · intro h
    by_contra hnot
    have hbit := h (layersDue (t % 2 ^ maxLayer) maxLayer 0) (by omega)
    rw [hzero (by omega)] at hbit
    exact Bool.false_ne_true hbit

/-! ## One sample -/

theorem cascadeLayers_kept (n : ℕ) (gbb : GazerbeamBuffer V) :
    (cascadeLayers n gbb).findMax = gbb.findMax ∧
      (cascadeLayers n gbb).runCount = gbb.runCount ∧
      (cascadeLayers n gbb).nroLayers = gbb.nroLayers ∧
      (cascadeLayers n gbb).x 0 = gbb.x 0 := by
  induction n generalizing gbb with
  | zero => simp [cascadeLayers]
  | succ n ih => simp [cascadeLayers, ih]

/-- The loop goes down, so that each layer takes what the layer below held before. -/
theorem cascadeLayers_succ (n j : ℕ) (gbb : GazerbeamBuffer V) :
    (cascadeLayers n gbb).x (j + 1) =
        (if j < n then gbSelect gbb.findMax (gbb.x j) (gbb.z j) else gbb.x (j + 1)) ∧
      (cascadeLayers n gbb).z (j + 1) =
        if j < n then gbb.x (j + 1) else gbb.z (j + 1) := by
  induction n generalizing gbb with
  | zero => simp [cascadeLayers]
  | succ n ih =>
      simp only [cascadeLayers, ih]
      rcases lt_trichotomy j n with hj | rfl | hj
      · have hne : j ≠ n + 1 := by omega
        simp [hj, hne, Nat.lt_succ_of_lt hj, hj.ne]
      · simp
      · have hnot : ¬j < n + 1 := by omega
        simp [hj.not_gt, hnot, hj.ne']

/-! ## The invariant -/

/-- The newest sample, counted from zero, in layer `i` when `t` samples have come. -/
def newestIn (i t : ℕ) : ℤ := 2 ^ i * (t / 2 ^ i : ℕ) - 2 ^ i

/-- The first cell of each layer holds the extremum of as many samples as fit in it, the
second of those before. -/
structure GazerbeamBuffer.Tracks (gbb : GazerbeamBuffer V) (sample : ℤ → V) (t : ℕ) : Prop where
  runCount : gbb.runCount = t % 2 ^ (gbb.nroLayers - 1)
  x : ∀ i < gbb.nroLayers,
    Extremum gbb.findMax sample (newestIn i t - 2 ^ i) (newestIn i t) (gbb.x i)
  z : ∀ i < gbb.nroLayers,
    Extremum gbb.findMax sample (newestIn i t - 2 ^ i - 2 ^ i) (newestIn i t - 2 ^ i) (gbb.z i)

/-- A layer which is due takes over where the layer below is. -/
theorem newestIn_due {i t : ℕ} (hdue : 2 ^ (i + 1) ∣ t + 1) :
    newestIn (i + 1) (t + 1) = newestIn i t ∧
      newestIn (i + 1) (t + 1) - 2 ^ (i + 1) = newestIn (i + 1) t := by
  have hbelow : 2 ^ i ∣ t + 1 := dvd_trans (pow_dvd_pow 2 (Nat.le_succ i)) hdue
  have hdiv := Nat.succ_div_of_dvd hdue
  have hsame : 2 ^ (i + 1) * (t / 2 ^ (i + 1) + 1) = 2 ^ i * (t / 2 ^ i + 1) := by
    rw [← hdiv, ← Nat.succ_div_of_dvd hbelow, Nat.mul_div_cancel' hdue, Nat.mul_div_cancel' hbelow]
  have hcast : (2 ^ (i + 1) * ((t / 2 ^ (i + 1) : ℕ) + 1) : ℤ) =
      2 ^ i * ((t / 2 ^ i : ℕ) + 1) := by exact_mod_cast hsame
  have hpow : (2 : ℤ) ^ (i + 1) = 2 ^ i + 2 ^ i := by ring
  unfold newestIn
  rw [hdiv, Nat.cast_add, Nat.cast_one]
  rw [mul_add, mul_add] at hcast
  rw [mul_add]
  constructor <;> linarith

theorem newestIn_idle {i t : ℕ} (hidle : ¬2 ^ (i + 1) ∣ t + 1) :
    newestIn (i + 1) (t + 1) = newestIn (i + 1) t := by
  unfold newestIn
  rw [Nat.succ_div_of_not_dvd hidle]

theorem gazerbeamMinmax_zero (gbb : GazerbeamBuffer V) (x : V) :
    (gazerbeamMinmax gbb x).1.x 0 = x ∧ (gazerbeamMinmax gbb x).1.z 0 = gbb.x 0 := by
  simp [gazerbeamMinmax, cascadeLayers_kept]

theorem gazerbeamMinmax_succ (gbb : GazerbeamBuffer V) (x : V) (j : ℕ) :
    (gazerbeamMinmax gbb x).1.x (j + 1) =
        (if j < layersDue gbb.runCount (gbb.nroLayers - 1) 0 then
          gbSelect gbb.findMax (gbb.x j) (gbb.z j) else gbb.x (j + 1)) ∧
      (gazerbeamMinmax gbb x).1.z (j + 1) =
        if j < layersDue gbb.runCount (gbb.nroLayers - 1) 0 then gbb.x (j + 1)
        else gbb.z (j + 1) := by
  simp [gazerbeamMinmax, cascadeLayers_succ]

theorem gazerbeamMinmax_out (gbb : GazerbeamBuffer V) (x : V) :
    (gazerbeamMinmax gbb x).2 = gbSelect gbb.findMax
      ((gazerbeamMinmax gbb x).1.x (gbb.nroLayers - 1))
      ((gazerbeamMinmax gbb x).1.z (gbb.nroLayers - 1)) := by
  simp [gazerbeamMinmax, cascadeLayers_kept]

theorem gazerbeamMinmax_kept (gbb : GazerbeamBuffer V) (x : V) :
    (gazerbeamMinmax gbb x).1.findMax = gbb.findMax ∧
      (gazerbeamMinmax gbb x).1.nroLayers = gbb.nroLayers ∧
      (gazerbeamMinmax gbb x).1.runCount =
        if 2 ^ (gbb.nroLayers - 1) ≤ gbb.runCount + 1 then 0 else gbb.runCount + 1 := by
  simp [gazerbeamMinmax, cascadeLayers_kept]

section Step

variable {gbb : GazerbeamBuffer V} {sample : ℤ → V} {t : ℕ}

theorem GazerbeamBuffer.Tracks.pair (h : gbb.Tracks sample t) {i : ℕ} (hi : i < gbb.nroLayers) :
    Extremum gbb.findMax sample (newestIn i t - 2 ^ (i + 1)) (newestIn i t)
      (gbSelect gbb.findMax (gbb.x i) (gbb.z i)) := by
  have hpos : (0 : ℤ) < 2 ^ i := by positivity
  have hpow : newestIn i t - 2 ^ (i + 1) = newestIn i t - 2 ^ i - 2 ^ i := by ring
  rw [hpow]
  exact (h.x i hi).join (h.z i hi) (by linarith) (by linarith)

theorem GazerbeamBuffer.Tracks.minmax (h : gbb.Tracks sample t) :
    (gazerbeamMinmax gbb (sample t)).1.Tracks sample (t + 1) := by
  obtain ⟨hfind, hlayers, hcount⟩ := gazerbeamMinmax_kept gbb (sample t)
  have hpos := gbb.layers.1
  have hzero : newestIn 0 (t + 1) = t := by simp [newestIn]
  have hzero' : newestIn 0 t = t - 1 := by simp [newestIn]
  have hdue : ∀ i, i + 1 < gbb.nroLayers →
      (i < layersDue gbb.runCount (gbb.nroLayers - 1) 0 ↔ 2 ^ (i + 1) ∣ t + 1) := by
    intro i hi
    rw [h.runCount]
    exact lt_layersDue_iff (by omega)
  refine ⟨?_, ?_, ?_⟩
  · rw [hcount, hlayers, h.runCount]
    have hlt := Nat.mod_lt t (Nat.two_pow_pos (gbb.nroLayers - 1))
    rw [← Nat.mod_add_mod]
    split_ifs with hwrap
    · rw [show t % 2 ^ (gbb.nroLayers - 1) + 1 = 2 ^ (gbb.nroLayers - 1) by omega, Nat.mod_self]
    · exact (Nat.mod_eq_of_lt (not_le.mp hwrap)).symm
  · rw [hlayers, hfind]
    intro i hi
    cases i with
    | zero =>
        rw [(gazerbeamMinmax_zero gbb (sample t)).1, hzero]
        exact .single _
    | succ i =>
        rw [(gazerbeamMinmax_succ gbb (sample t) i).1]
        by_cases hd : 2 ^ (i + 1) ∣ t + 1
        · obtain ⟨hnew, -⟩ := newestIn_due hd
          have hjoined := h.pair (Nat.lt_of_succ_lt hi)
          rw [if_pos ((hdue i hi).mpr hd), hnew]
          exact hjoined
        · rw [if_neg (hd ∘ (hdue i hi).mp), newestIn_idle hd]
          exact h.x (i + 1) hi
  · rw [hlayers, hfind]
    intro i hi
    cases i with
    | zero =>
        have hfirst := h.x 0 hpos
        rw [hzero'] at hfirst
        rw [(gazerbeamMinmax_zero gbb (sample t)).2, hzero, pow_zero]
        exact hfirst
    | succ i =>
        rw [(gazerbeamMinmax_succ gbb (sample t) i).2]
        by_cases hd : 2 ^ (i + 1) ∣ t + 1
        · obtain ⟨-, hold⟩ := newestIn_due hd
          rw [if_pos ((hdue i hi).mpr hd), hold]
          exact h.x (i + 1) hi
        · rw [if_neg (hd ∘ (hdue i hi).mp), newestIn_idle hd]
          exact h.z (i + 1) hi

/-- The newest sample of the last layer is at most as old as the window is long. -/
theorem newestIn_age (m t : ℕ) :
    newestIn m (t + 1) = t - ((t + 1) % 2 ^ m + 2 ^ m - 1 : ℕ) := by
  have hsplit := Nat.div_add_mod (t + 1) (2 ^ m)
  have hpos := Nat.two_pow_pos m
  have hcast : (2 ^ m * ((t + 1) / 2 ^ m : ℕ) + ((t + 1) % 2 ^ m : ℕ) : ℤ) = t + 1 := by
    exact_mod_cast hsplit
  unfold newestIn
  rw [Nat.cast_sub (by omega)]
  push_cast at hcast ⊢
  linarith

end Step

/-! ## Runs -/

/-- Samples from the first on, and before it the value the buffer was filled with. -/
def extendedSamples (fill : V) (samples : List V) (j : ℤ) : V :=
  if j < 0 then fill else samples.getD j.toNat fill

theorem gazerbeamFillMinmax_tracks (gbb : GazerbeamBuffer V) (hcount : gbb.runCount = 0) (fill : V)
    (samples : List V) :
    (gazerbeamFillMinmax gbb fill).Tracks (extendedSamples fill samples) 0 := by
  have hlayers := gbb.layers.2
  have hnewest : ∀ i, newestIn i 0 = -2 ^ i := fun i => by simp [newestIn]
  have hpow : ∀ i : ℕ, (0 : ℤ) < 2 ^ i := fun i => by positivity
  have hfill : ∀ i hi, hi < 0 → Extremum gbb.findMax (extendedSamples fill samples)
      (hi - 2 ^ i) hi fill := by
    intro i hi hneg
    refine .const (by linarith [hpow i]) fun j hj => ?_
    rw [extendedSamples, if_pos (hj.trans_lt hneg)]
  refine ⟨by simpa [gazerbeamFillMinmax] using hcount, ?_, ?_⟩
  · intro i hi
    have hcell : i < maxGazerbeamLayers := hi.trans_le hlayers
    simp only [gazerbeamFillMinmax, hcell, if_true, hnewest]
    exact hfill i _ (by linarith [hpow i])
  · intro i hi
    have hcell : i < maxGazerbeamLayers := hi.trans_le hlayers
    simp only [gazerbeamFillMinmax, hcell, if_true, hnewest]
    exact hfill i _ (by linarith [hpow i])

@[simp] theorem feedMinmax_length (gbb : GazerbeamBuffer V) (samples : List V) :
    (feedMinmax gbb samples).length = samples.length := by
  induction samples generalizing gbb with
  | nil => rfl
  | cons x samples ih => simp [feedMinmax, ih]

/-- What is returned for each sample, after any number of them. -/
theorem feedMinmax_tracks {sample : ℤ → V} {gbb : GazerbeamBuffer V} {t : ℕ}
    (h : gbb.Tracks sample t) (samples : List V)
    (hsamples : ∀ (k : ℕ) x, samples[k]? = some x → sample (t + k : ℕ) = x) :
    ∀ k out, (feedMinmax gbb samples)[k]? = some out →
      Extremum gbb.findMax sample (newestIn (gbb.nroLayers - 1) (t + k + 1) - 2 ^ gbb.nroLayers)
        (newestIn (gbb.nroLayers - 1) (t + k + 1)) out := by
  induction samples generalizing gbb t with
  | nil => simp [feedMinmax]
  | cons x samples ih =>
      obtain ⟨hfind, hlayers, -⟩ := gazerbeamMinmax_kept gbb x
      have hx : sample t = x := by simpa using hsamples 0 x rfl
      have hpos := gbb.layers.1
      have hstep := h.minmax
      rw [hx] at hstep
      intro k out hout
      cases k with
      | zero =>
          have hpair := @GazerbeamBuffer.Tracks.pair _ _ _ _ _ hstep (gbb.nroLayers - 1) (by omega)
          rw [hfind, show gbb.nroLayers - 1 + 1 = gbb.nroLayers by omega] at hpair
          rw [← gazerbeamMinmax_out] at hpair
          simp only [feedMinmax, List.getElem?_cons_zero, Option.some.injEq] at hout
          rw [← hout]
          exact hpair
      | succ k =>
          have hrest := ih hstep (fun k' x' hx' => ?_) k out hout
          · rw [hfind, hlayers] at hrest
            rw [show t + (k + 1) + 1 = t + 1 + k + 1 by omega]
            exact hrest
          · rw [show t + 1 + k' = t + (k' + 1) by omega]
            exact hsamples (k' + 1) x' hx'

/-- The samples of one window, `2 ^ layers` long, which ends `age` samples before the
current one. -/
def SlidesOver (findMax : Bool) (layers : ℕ) (sample : ℤ → V) (t : ℕ) (out : V) : Prop :=
  ∃ age : ℕ, 2 ^ (layers - 1) - 1 ≤ age ∧ age ≤ 2 ^ layers - 2 ∧
    Extremum findMax sample (t - age - 2 ^ layers) (t - age) out

/-- Whatever the number of
layers, the direction, the value the buffer is filled with and the samples are, each
output is the least (greatest) of `2 ^ nroLayers` consecutive samples. -/
theorem minmax_slides (gbb : GazerbeamBuffer V) (hcount : gbb.runCount = 0) (fill : V)
    (samples : List V) :
    (feedMinmax (gazerbeamFillMinmax gbb fill) samples).length = samples.length ∧
      ∀ t out, (feedMinmax (gazerbeamFillMinmax gbb fill) samples)[t]? = some out →
        SlidesOver gbb.findMax gbb.nroLayers (extendedSamples fill samples) t out := by
  refine ⟨feedMinmax_length _ samples, fun t out hout => ?_⟩
  have hpos := gbb.layers.1
  have htracks := gazerbeamFillMinmax_tracks gbb hcount fill samples
  have hwindow := feedMinmax_tracks htracks samples (fun k x hx => ?_) t out hout
  · rw [Nat.zero_add, newestIn_age] at hwindow
    have hlt := Nat.mod_lt (t + 1) (Nat.two_pow_pos (gbb.nroLayers - 1))
    have hpow : 2 ^ gbb.nroLayers = 2 ^ (gbb.nroLayers - 1) + 2 ^ (gbb.nroLayers - 1) := by
      rw [← two_mul, ← pow_succ', Nat.sub_add_cancel hpos]
    refine ⟨(t + 1) % 2 ^ (gbb.nroLayers - 1) + 2 ^ (gbb.nroLayers - 1) - 1, ?_, ?_, hwindow⟩
    · omega
    · omega
  · rw [Nat.zero_add, extendedSamples, if_neg (by omega), Int.toNat_natCast,
      List.getD_eq_getElem?_getD, hx]
    rfl

theorem three_layers : 1 ≤ 3 ∧ 3 ≤ maxGazerbeamLayers := by decide

def threeLayerBuffer : GazerbeamBuffer ℕ := ⟨fun _ => 0, fun _ => 0, 0, 3, false, three_layers⟩

/-- Five samples, of which the first has come through to the last layer. -/
theorem three_layers_slide : SlidesOver false 3 (extendedSamples 9 [5, 3, 8, 1, 7]) 4 5 :=
  (minmax_slides threeLayerBuffer rfl 9 [5, 3, 8, 1, 7]).2 4 5 (by decide)

end Iocom
