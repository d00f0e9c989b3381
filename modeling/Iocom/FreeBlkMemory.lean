import Iocom.MemoryPool
import Iocom.Lib.PointerChain
import Iocom.Lib.LittleEndian
import Mathlib.Tactic.NormNum

/-!
# Free blocks in the memory of the pool

`ioc_malloc` and `ioc_free` as they run on the bytes of the pool: a freed block begins
with a structure `iocFreeBlk`, which holds the links to other free blocks.  How the
structure is laid out depends on the computer.
-/

namespace Iocom

open PointerChain LittleEndian

/-- `iocFreeBlk`; pointers count from the start of the pool. -/
structure IocFreeBlk where
  nextSamesz : Option ℤ
  nextDiffsz : Option ℤ
  sz : ℤ
  deriving DecidableEq

/-- A pointer is null or into a pool whose size is an `os_int`. -/
def PoolPointer (p : Option ℤ) : Prop := ∀ a, p = some a → 0 ≤ a ∧ a < 2147483648

structure IocFreeBlk.Storable (b : IocFreeBlk) : Prop where
  nextSamesz : PoolPointer b.nextSamesz
  nextDiffsz : PoolPointer b.nextDiffsz
  sz : -2147483648 ≤ b.sz ∧ b.sz < 2147483648

/-- How a computer lays out `iocFreeBlk` in memory; `size` is `sizeof(iocFreeBlk)`. -/
structure FreeBlkLayout where
  size : ℕ
  size_pos : 0 < size
  encode : IocFreeBlk → ℕ → UInt8
  decode : (ℕ → UInt8) → IocFreeBlk
  decode_encode : ∀ (b : IocFreeBlk) (bytes : ℕ → UInt8), b.Storable →
    (∀ i < size, bytes i = encode b i) → decode bytes = b
  decode_congr : ∀ bytes bytes' : ℕ → UInt8,
    (∀ i < size, bytes i = bytes' i) → decode bytes = decode bytes'

/-- The part of `iocRoot` for the pool, and the bytes of the pool. -/
structure IocPool where
  poolsz : ℤ
  poolpos : ℤ
  poolfree : Option ℤ
  mem : ℤ → UInt8

namespace FreeBlkLayout

variable (layout : FreeBlkLayout)

def load (mem : ℤ → UInt8) (a : ℤ) : IocFreeBlk := layout.decode fun i => mem (a + i)

def store (mem : ℤ → UInt8) (a : ℤ) (b : IocFreeBlk) : ℤ → UInt8 := fun i =>
  if a ≤ i ∧ i < a + layout.size then layout.encode b (i - a).toNat else mem i

/-- The loops for `b`, with `prevb`.  In a pool of which `poolpos` bytes are in use there
are no more blocks than that. -/
def findFreeBlk (pool : IocPool) (bytes : ℤ) : Option (Option (Option ℤ × ℤ)) :=
  findNode (fun b => (layout.load pool.mem b).nextDiffsz)
    (fun b => (layout.load pool.mem b).sz = bytes) (pool.poolpos.toNat + 1) none pool.poolfree

/-- `ioc_malloc` with a static pool; without a result, it does not end. -/
def iocMalloc (pool : IocPool) (requestBytes : ℤ) : Option (Option ℤ × IocPool) :=
  match layout.findFreeBlk pool requestBytes with
  | none => none
  | some (some (prevb, b)) =>
      let blk := layout.load pool.mem b
      match blk.nextSamesz with
      | some r =>
          let next := (layout.load pool.mem r).nextSamesz
          some (some r, { pool with
            mem := layout.store pool.mem b { blk with nextSamesz := next } })
      | none =>
          match prevb with
          | some prevb =>
              let prev := layout.load pool.mem prevb
              some (some b, { pool with
                mem := layout.store pool.mem prevb { prev with nextDiffsz := blk.nextDiffsz } })
          | none => some (some b, { pool with poolfree := blk.nextDiffsz })
  | some none =>
      if requestBytes ≤ pool.poolsz - pool.poolpos then
        some (some pool.poolpos, { pool with poolpos := pool.poolpos + osInt requestBytes })
      else some (none, pool)

/-- `ioc_free` with a static pool. -/
def iocFree (pool : IocPool) (memoryBlock : Option ℤ) (bytes : ℤ) : Option IocPool :=
  match memoryBlock with
  | none => some pool
  | some r =>
      let pool := { pool with mem := layout.store pool.mem r ⟨none, none, osInt bytes⟩ }
      match layout.findFreeBlk pool bytes with
      | none => none
      | some (some (_, b)) =>
          let next := (layout.load pool.mem b).nextSamesz
          let mem := layout.store pool.mem r { layout.load pool.mem r with nextSamesz := next }
          some { pool with
            mem := layout.store mem b { layout.load mem b with nextSamesz := some r } }
      | some none =>
          some { pool with
            mem := layout.store pool.mem r
              { layout.load pool.mem r with nextDiffsz := pool.poolfree }
            poolfree := some r }

end FreeBlkLayout

/-! ## The memory of one structure -/

section Memory

variable {layout : FreeBlkLayout} {mem : ℤ → UInt8} {a c : ℤ}

theorem FreeBlkLayout.load_congr {mem' : ℤ → UInt8}
    (hsame : ∀ i, a ≤ i → i < a + layout.size → mem' i = mem i) :
    layout.load mem' a = layout.load mem a :=
  layout.decode_congr _ _ fun i hi => hsame _ (by omega) (by omega)

theorem FreeBlkLayout.load_store {b : IocFreeBlk} (hb : b.Storable) :
    layout.load (layout.store mem a b) a = b := by
  apply layout.decode_encode b _ hb
  intro i hi
  simp [store, hi]

/-- A structure which lies apart from the one that is stored. -/
theorem FreeBlkLayout.load_store_apart (b : IocFreeBlk)
    (happart : a + layout.size ≤ c ∨ c + layout.size ≤ a) :
    layout.load (layout.store mem a b) c = layout.load mem c := by
  apply layout.load_congr
  intro i hlow hhigh
  rw [store, if_neg (by omega)]

end Memory

/-! ## A layout of 32 bits -/

def poolAddress : ℤ := 536870912

def pointerValue : Option ℤ → ℤ
  | none => 0
  | some a => poolAddress + a

def valuePointer (v : ℤ) : Option ℤ := if v = 0 then none else some (v - poolAddress)

/-- Two pointers and an `os_int`, each of four bytes, the lowest first. -/
def freeBlkBytes (b : IocFreeBlk) : List UInt8 :=
  ofInt 4 (pointerValue b.nextSamesz) ++ (ofInt 4 (pointerValue b.nextDiffsz) ++ ofInt 4 b.sz)

def bytesFreeBlk (bytes : List UInt8) : IocFreeBlk where
  nextSamesz := valuePointer (toInt false (bytes.take 4))
  nextDiffsz := valuePointer (toInt false ((bytes.drop 4).take 4))
  sz := toInt true (bytes.drop 8)

theorem valuePointer_bytes {p : Option ℤ} (hp : PoolPointer p) :
    valuePointer (toInt false (ofInt 4 (pointerValue p))) = p := by
  cases p with
  | none => decide
  | some a =>
      obtain ⟨hlow, hhigh⟩ := hp a rfl
      have hvalue : pointerValue (some a) = 536870912 + a := rfl
      rw [hvalue, toInt_ofInt_unsigned (by omega) (by norm_num; omega), valuePointer,
        if_neg (by omega), poolAddress, add_sub_cancel_left]

theorem bytesFreeBlk_freeBlkBytes {b : IocFreeBlk} (hb : b.Storable) :
    bytesFreeBlk (freeBlkBytes b) = b := by
  obtain ⟨hsame, hdiff, hlow, hhigh⟩ := hb
  have hsz : toInt true (ofInt 4 b.sz) = b.sz :=
    toInt_ofInt_signed (Nat.succ_pos 3) (by norm_num; omega) (by norm_num; omega)
  have hfirst : (freeBlkBytes b).take 4 = ofInt 4 (pointerValue b.nextSamesz) :=
    List.take_left' (ofInt_length 4 _)
  have hrest : (freeBlkBytes b).drop 4 = ofInt 4 (pointerValue b.nextDiffsz) ++ ofInt 4 b.sz :=
    List.drop_left' (ofInt_length 4 _)
  have hlast : (freeBlkBytes b).drop 8 = ofInt 4 b.sz := by
    rw [show 8 = 4 + 4 from rfl, ← List.drop_drop, hrest, List.drop_left' (ofInt_length 4 _)]
  unfold bytesFreeBlk
  rw [hfirst, hrest, hlast, List.take_left' (ofInt_length 4 _), hsz, valuePointer_bytes hsame,
    valuePointer_bytes hdiff]

theorem decode_freeBlkBytes (b : IocFreeBlk) (bytes : ℕ → UInt8) (hb : b.Storable)
    (hbytes : ∀ i < 12, bytes i = (freeBlkBytes b).getD i 0) :
    bytesFreeBlk ((List.range 12).map bytes) = b := by
  have hsame : (List.range 12).map bytes = freeBlkBytes b := by
    apply List.ext_getElem
    · simp [freeBlkBytes]
    · intro i hi hi'
      rw [List.length_map, List.length_range] at hi
      simp [hbytes i hi, List.getElem?_eq_getElem hi']
  rw [hsame, bytesFreeBlk_freeBlkBytes hb]

theorem bytesFreeBlk_congr (bytes bytes' : ℕ → UInt8) (hsame : ∀ i < 12, bytes i = bytes' i) :
    bytesFreeBlk ((List.range 12).map bytes) = bytesFreeBlk ((List.range 12).map bytes') := by
  rw [List.map_congr_left fun i hi => hsame i (List.mem_range.mp hi)]

/-- `iocFreeBlk` on a computer with 32 bits. -/
def layout32 : FreeBlkLayout :=
  ⟨12, Nat.succ_pos 11, fun b i => (freeBlkBytes b).getD i 0,
    fun bytes => bytesFreeBlk ((List.range 12).map bytes), decode_freeBlkBytes, bytesFreeBlk_congr⟩

end Iocom
