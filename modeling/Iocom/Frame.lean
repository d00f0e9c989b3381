import Iocom.Connection
import Mathlib.Data.List.Basic

/-!
# Frames

A data or system frame, and its form on the line: the header written by
`ioc_generate_header` followed by the content.  Numbers in the header take
one, two or four bytes, which the flags and the optional extra flags tell.
-/

namespace Iocom

/-- The flags of a data frame which matter for storing it. -/
structure DataFlags where
  deltaEncoded : Bool
  compressed : Bool
  syncComplete : Bool
  deriving DecidableEq

structure Frame where
  frameNr : ℕ
  system : Bool
  flags : DataFlags
  mblkId : ℕ
  addr : ℕ
  payload : List UInt8
  deriving DecidableEq

/-- Number of bytes `ioc_msg_set_uint` stores. -/
def uintSize (i : ℕ) : ℕ :=
  if i < 0x100 then 1 else if i < 0x10000 then 2 else 4

/-- The bytes `ioc_msg_set_uint` stores. -/
def uintBytes (i : ℕ) : List UInt8 :=
  if i < 0x100 then [UInt8.ofNat i]
  else if i < 0x10000 then [UInt8.ofNat i, UInt8.ofNat (i / 0x100)]
  else
    [UInt8.ofNat i, UInt8.ofNat (i / 0x100), UInt8.ofNat (i / 0x10000),
      UInt8.ofNat (i / 0x1000000)]

@[simp] theorem uintBytes_length (i : ℕ) : (uintBytes i).length = uintSize i := by
  unfold uintBytes uintSize
  split
  · rfl
  split <;> rfl

def needsExtraFlags (mblkId addr : ℕ) : Bool :=
  decide (0x10000 ≤ mblkId) || decide (0x10000 ≤ addr)

/-- `header_sz` as computed by `ioc_generate_header`. -/
def headerSize (isSocket : Bool) (mblkId addr : ℕ) : ℕ :=
  (if isSocket then 4 else 5) + (if needsExtraFlags mblkId addr then 1 else 0) +
    uintSize mblkId + uintSize addr

theorem headerSize_pos (isSocket : Bool) (mblkId addr : ℕ) :
    0 < headerSize isSocket mblkId addr := by
  unfold headerSize
  split <;> omega

theorem headerSize_le (isSocket : Bool) (mblkId addr : ℕ) :
    headerSize isSocket mblkId addr ≤ 14 := by
  have hsize : ∀ i, uintSize i ≤ 4 := by
    intro i
    unfold uintSize
    split
    · omega
    split <;> omega
  have := hsize mblkId
  have := hsize addr
  unfold headerSize
  split <;> split <;> omega

end Iocom
