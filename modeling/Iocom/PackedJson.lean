import Mathlib.Data.Int.Notation
import Mathlib.Data.List.Basic

/-!
# Packed JSON

The items which `osal_get_json_item` enumerates, in the order of the text.
-/

namespace Iocom

inductive JsonValue where
  | string (s : String)
  | integer (l : ℤ)
  | float
  | null
  | boolean (b : Bool)
  deriving DecidableEq

/-- `osalJsonElementCode`. -/
inductive JsonCode where
  | startBlock
  | endBlock
  | startArray
  | endArray
  | value (v : JsonValue)
  deriving DecidableEq

/-- `osalJsonItem`; the elements of an array have the tag `-`. -/
structure JsonItem where
  tagName : String
  code : JsonCode
  deriving DecidableEq

def JsonValue.isInteger : JsonValue → Bool
  | .integer _ => true
  | _ => false

/-- The status of parsing; `outOfFuel` does not occur when there is more fuel
than items. -/
inductive ParseStatus where
  | success
  | failed
  | outOfFuel
  deriving DecidableEq

def fieldItems (fields : List (String × JsonValue)) : List JsonItem :=
  fields.map fun field => ⟨field.1, .value field.2⟩

/-- A tag as it is copied to the 16 bytes of an `array_tag_buf`. -/
def arrayTagOf (tag : String) : String := String.ofList (tag.toList.take 15)

theorem arrayTagOf_eq_iff {tag name : String} (hname : name.length < 15) :
    arrayTagOf tag = name ↔ tag = name := by
  unfold arrayTagOf
  constructor
  · intro h
    have hlist : tag.toList.take 15 = name.toList := by
      rw [← h, String.toList_ofList]
    have hlength : (tag.toList.take 15).length < 15 := by
      rw [hlist, String.length_toList]
      exact hname
    have hshort : tag.toList.length ≤ 15 := by
      rw [List.length_take] at hlength
      omega
    rw [List.take_of_length_le hshort] at hlist
    exact String.toList_injective hlist
  · rintro rfl
    have hshort : tag.toList.length ≤ 15 := by
      rw [String.length_toList]
      exact Nat.le_of_lt hname
    rw [List.take_of_length_le hshort, String.ofList_toList]

end Iocom
