import Mathlib.Data.List.Basic
import Mathlib.Tactic.Ring

/-!
# Placing one after another

Things are placed at integer addresses in the order of a list.  Each has a
kind and an amount, from which its size follows; a kind and an address which
are not requested are those where the previous one left off.
-/

namespace Placement

variable {κ γ : Type*}

/-- A request for a place. -/
structure Request (κ γ : Type*) where
  address : Option ℤ
  kind : Option κ
  amount : γ

structure Allotment (κ γ : Type*) where
  address : ℤ
  kind : κ
  amount : γ

/-- Where the next one is placed, and the first address behind all of them. -/
@[ext]
structure Cursor (κ : Type*) where
  kind : κ
  address : ℤ
  extent : ℤ

def Cursor.place (cursor : Cursor κ) (request : Request κ γ) : Allotment κ γ where
  address := request.address.getD cursor.address
  kind := request.kind.getD cursor.kind
  amount := request.amount

variable (size : κ → γ → ℤ)

def Allotment.stop (placed : Allotment κ γ) : ℤ :=
  placed.address + size placed.kind placed.amount

def Cursor.next (cursor : Cursor κ) (request : Request κ γ) : Cursor κ where
  kind := (cursor.place request).kind
  address := (cursor.place request).stop size
  extent := max cursor.extent ((cursor.place request).stop size)

def Cursor.after (cursor : Cursor κ) (requests : List (Request κ γ)) : Cursor κ :=
  requests.foldl (Cursor.next size) cursor

def Cursor.placeAll (cursor : Cursor κ) : List (Request κ γ) → List (Allotment κ γ)
  | [] => []
  | request :: requests =>
      cursor.place request :: (cursor.next size request).placeAll requests

variable {size}

theorem Cursor.after_cons
    (cursor : Cursor κ) (request : Request κ γ) (requests : List (Request κ γ)) :
    cursor.after size (request :: requests) =
      (cursor.next size request).after size requests :=
  rfl

theorem Cursor.extent_le_after (cursor : Cursor κ) (requests : List (Request κ γ)) :
    cursor.extent ≤ (cursor.after size requests).extent := by
  induction requests generalizing cursor with
  | nil => exact le_refl _
  | cons request requests ih =>
      exact le_trans (le_max_left _ _) (ih (cursor.next size request))

theorem Cursor.length_placeAll (cursor : Cursor κ) (requests : List (Request κ γ)) :
    (cursor.placeAll size requests).length = requests.length := by
  induction requests generalizing cursor with
  | nil => rfl
  | cons request requests ih =>
      rw [Cursor.placeAll, List.length_cons, List.length_cons, ih]

theorem Cursor.after_append (cursor : Cursor κ) (requests more : List (Request κ γ)) :
    cursor.after size (requests ++ more) =
      (cursor.after size requests).after size more :=
  List.foldl_append

theorem Cursor.stop_le_extent
    {cursor : Cursor κ} {requests : List (Request κ γ)} {placed : Allotment κ γ}
    (hplaced : placed ∈ cursor.placeAll size requests) :
    placed.stop size ≤ (cursor.after size requests).extent := by
  induction requests generalizing cursor with
  | nil => cases hplaced
  | cons request requests ih =>
      rw [Cursor.after_cons]
      rcases List.mem_cons.mp hplaced with rfl | hplaced
      · apply le_trans (le_max_right cursor.extent _)
        exact Cursor.extent_le_after (cursor.next size request) requests
      · exact ih hplaced

theorem Cursor.address_nonneg
    {cursor : Cursor κ} {requests : List (Request κ γ)} {placed : Allotment κ γ}
    (hsize : ∀ kind amount, 0 ≤ size kind amount) (hcursor : 0 ≤ cursor.address)
    (hrequests : ∀ request ∈ requests, ∀ address ∈ request.address, 0 ≤ address)
    (hplaced : placed ∈ cursor.placeAll size requests) : 0 ≤ placed.address := by
  induction requests generalizing cursor with
  | nil => cases hplaced
  | cons request requests ih =>
      have hhead : 0 ≤ (cursor.place request).address := by
        unfold Cursor.place
        cases haddress : request.address with
        | none => exact hcursor
        | some address => exact hrequests request List.mem_cons_self address haddress
      rcases List.mem_cons.mp hplaced with rfl | hplaced
      · exact hhead
      · apply ih _ (fun request hrequest =>
          hrequests request (List.mem_cons_of_mem _ hrequest)) hplaced
        exact add_nonneg hhead (hsize _ _)

/-- The place of a request is found by the cursor which those before it leave. -/
theorem Cursor.placeAll_getElem
    (cursor : Cursor κ) (requests : List (Request κ γ)) (i : ℕ)
    (hi : i < requests.length) (hplaced : i < (cursor.placeAll size requests).length) :
    (cursor.placeAll size requests)[i] =
      (cursor.after size (requests.take i)).place requests[i] := by
  induction requests generalizing cursor i with
  | nil => cases hi
  | cons request requests ih =>
      cases i with
      | zero => rfl
      | succ i =>
          exact ih (cursor.next size request) i (Nat.lt_of_succ_lt_succ hi)
            (Nat.lt_of_succ_lt_succ hplaced)

theorem Cursor.after_take_succ
    (cursor : Cursor κ) (requests : List (Request κ γ)) (i : ℕ)
    (hi : i < requests.length) :
    cursor.after size (requests.take (i + 1)) =
      (cursor.after size (requests.take i)).next size requests[i] := by
  rw [List.take_succ_eq_append_getElem hi, Cursor.after_append]
  rfl

/-- Those which follow each other without a requested address do not overlap. -/
theorem Cursor.stop_le_address
    {cursor : Cursor κ} {requests : List (Request κ γ)}
    (hsize : ∀ kind amount, 0 ≤ size kind amount) {i j : ℕ}
    (hij : i < j) (hi : i < (cursor.placeAll size requests).length)
    (hj : j < (cursor.placeAll size requests).length)
    (hrun : ∀ k (hk : k < requests.length), i < k → k ≤ j → requests[k].address = none) :
    (cursor.placeAll size requests)[i].stop size ≤
      (cursor.placeAll size requests)[j].address := by
  induction j with
  | zero => omega
  | succ j ih =>
      have hj' : j < (cursor.placeAll size requests).length := by omega
      have hlast := hj
      rw [Cursor.length_placeAll] at hlast
      have hnext : (cursor.placeAll size requests)[j + 1].address =
          (cursor.placeAll size requests)[j].stop size := by
        rw [Cursor.placeAll_getElem _ _ _ hlast, Cursor.placeAll_getElem _ _ j (by omega),
          Cursor.after_take_succ _ _ j (by omega)]
        have himplicit := hrun (j + 1) hlast hij (le_refl _)
        unfold Cursor.place
        rw [himplicit]
        rfl
      rw [hnext]
      rcases Nat.lt_or_eq_of_le (Nat.le_of_lt_succ hij) with hlt | rfl
      · have hbefore := ih hlt (by omega) fun k hk hik hkj => hrun k hk hik (by omega)
        have hpositive := hsize (cursor.placeAll size requests)[j].kind
          (cursor.placeAll size requests)[j].amount
        unfold Allotment.stop at hbefore ⊢
        omega
      · exact le_refl _

theorem Cursor.placeAll_extent
    (kind : κ) (address extent extent' : ℤ) (requests : List (Request κ γ)) :
    (Cursor.mk kind address extent).placeAll size requests =
      (Cursor.mk kind address extent').placeAll size requests := by
  induction requests generalizing kind address extent extent' with
  | nil => rfl
  | cons request requests ih =>
      rw [Cursor.placeAll, Cursor.placeAll]
      exact congrArg₂ List.cons rfl (ih _ _ _ _)

theorem Cursor.after_extent
    (kind : κ) (address least extent : ℤ) (requests : List (Request κ γ)) :
    (Cursor.mk kind address (max least extent)).after size requests =
      let after := (Cursor.mk kind address extent).after size requests
      ⟨after.kind, after.address, max least after.extent⟩ := by
  induction requests generalizing kind address extent with
  | nil => rfl
  | cons request requests ih =>
      have hnext : (Cursor.mk kind address (max least extent)).next size request =
          ⟨((Cursor.mk kind address extent).next size request).kind,
            ((Cursor.mk kind address extent).next size request).address,
            max least ((Cursor.mk kind address extent).next size request).extent⟩ := by
        unfold Cursor.next
        rw [← max_assoc]
        rfl
      rw [Cursor.after_cons, Cursor.after_cons, hnext, ih]

end Placement
