import Iocom.SignalAccess
import Iocom.Lib.ReversedGroups

/-!
# Reading and writing memory blocks

`ioc_write` and `ioc_read` with all their flags.  Both clip the number of bytes
at the end of the block.  What the caller passes is a list of the bytes which
his pointer points to; a function which reads past its end returns `none`.
-/

namespace Iocom

/-- Flags of `ioc_write` and `ioc_read`; `swap` is what `IOC_SWAP_MASK` leaves. -/
structure AccessFlags where
  string : Bool
  clearRange : Bool
  swap : ℕ

def stringChars (buf : List UInt8) : List UInt8 :=
  buf.takeWhile fun c => decide (c ≠ 0)

/-- `os_strlen`, which counts the terminator. -/
def osStrlen (buf : List UInt8) : Option ℕ :=
  if (0 : UInt8) ∈ buf then some ((stringChars buf).length + 1) else none

def bytesAt (buf : List UInt8) (n : ℕ) : Option (List UInt8) :=
  if n ≤ buf.length then some (buf.take n) else none

/-! ## Byte order -/

variable (smallEndian : Bool)

/-- Whether `ioc_byte_ordered_copy` turns groups of bytes around.  The processor
is `OSAL_SMALL_ENDIAN` or not. -/
def swapsBytes (typeSz : ℕ) : Bool :=
  !smallEndian && (typeSz == 2 || typeSz == 4 || typeSz == 8)

/-- The number of bytes which `ioc_byte_ordered_copy` copies. -/
def copiedCount (totalSz typeSz : ℕ) : ℕ :=
  if swapsBytes smallEndian typeSz then typeSz * (totalSz / typeSz) else totalSz

/-- `ioc_byte_ordered_copy`: the bytes as they are stored. -/
def byteOrderedCopy (p : List UInt8) (totalSz typeSz : ℕ) : List UInt8 :=
  if swapsBytes smallEndian typeSz then
    ReversedGroups.reverseGroups typeSz (totalSz / typeSz) p
  else p.take totalSz

/-! ## The functions -/

/-- `ioc_write` with the flag `IOC_MBLK_STRING`; `len` is `os_strlen`. -/
def LinkedBlock.storeString
    (block : LinkedBlock) (addr : ℤ) (buf : List UInt8) (len n : ℕ) : LinkedBlock :=
  let count := min (osInt len - 1) n
  let copied := block.storeBytes addr (buf.take count.toNat)
  if count < n then
    copied.storeBytes (addr + count) (List.replicate (n - count).toNat 0)
  else copied

/-- The storing branches of `ioc_write`. -/
def LinkedBlock.storeRange
    (block : LinkedBlock) (addr : ℤ) (buf : List UInt8) (n : ℕ) (flags : AccessFlags) :
    Option LinkedBlock :=
  if flags.string then
    (osStrlen buf).map fun len => block.storeString addr buf len n
  else if flags.clearRange then
    some (block.storeBytes addr (List.replicate n 0))
  else
    (bytesAt buf (copiedCount smallEndian n flags.swap)).map fun p =>
      block.storeBytes addr (byteOrderedCopy smallEndian p n flags.swap)

/-- `ioc_write`. -/
def LinkedBlock.writeRange
    (block : LinkedBlock) (addr : ℤ) (buf : List UInt8) (n : ℕ) (flags : AccessFlags) :
    Option LinkedBlock :=
  let maxN := block.mblk.nbytes - addr
  if maxN ≤ 0 then some block
  else
    let n := min n maxN.toNat
    (block.storeRange smallEndian addr buf n flags).map fun stored =>
      stored.invalidate addr (addr + n - 1)

/-- The loop of `ioc_read` with the flag `IOC_MBLK_STRING`, over the buffer it
fills. -/
def readString (mem : Mem) : ℤ → List UInt8 → List UInt8
  | _, [] => []
  | _, [_] => [0]
  | p, _ :: c :: rest =>
      if mem p = 0 then 0 :: c :: rest
      else mem p :: readString mem (p + 1) (c :: rest)

/-- `ioc_read` to a buffer of `n` bytes. -/
def MemoryBlock.readRange
    (mblk : MemoryBlock) (addr : ℤ) (buf : List UInt8) (flags : AccessFlags) :
    List UInt8 :=
  let maxN := mblk.nbytes - addr
  if maxN ≤ 0 then buf
  else
    let n := min buf.length maxN.toNat
    let cleared := List.replicate (buf.length - n) 0
    if flags.string then readString mblk.buf addr (buf.take n) ++ cleared
    else
      let copied :=
        byteOrderedCopy smallEndian (Segment.segment mblk.buf addr n) n flags.swap
      copied ++ (buf.take n).drop copied.length ++ cleared


/-! ## What is stored -/

variable {smallEndian} {block : LinkedBlock} {flags : AccessFlags}
variable {buf : List UInt8} {addr : ℤ} {n : ℕ}

theorem copiedCount_le (smallEndian : Bool) (totalSz typeSz : ℕ) :
    copiedCount smallEndian totalSz typeSz ≤ totalSz := by
  unfold copiedCount
  split
  · exact Nat.mul_div_le totalSz typeSz
  · exact Nat.le_refl totalSz

theorem byteOrderedCopy_length {p : List UInt8} {totalSz typeSz : ℕ}
    (hp : copiedCount smallEndian totalSz typeSz ≤ p.length) :
    (byteOrderedCopy smallEndian p totalSz typeSz).length =
      copiedCount smallEndian totalSz typeSz := by
  unfold copiedCount at hp
  unfold byteOrderedCopy copiedCount
  split
  · rename_i hswaps
    rw [if_pos hswaps] at hp
    exact ReversedGroups.reverseGroups_length hp
  · rename_i hswaps
    rw [if_neg hswaps] at hp
    rw [List.length_take, Nat.min_eq_left hp]

theorem byteOrderedCopy_byteOrderedCopy {p : List UInt8} {totalSz typeSz : ℕ}
    (hp : totalSz ≤ p.length)
    (hwhole : copiedCount smallEndian totalSz typeSz = totalSz) :
    byteOrderedCopy smallEndian (byteOrderedCopy smallEndian p totalSz typeSz)
      totalSz typeSz = p.take totalSz := by
  unfold copiedCount at hwhole
  unfold byteOrderedCopy
  split
  · rename_i hswaps
    rw [if_pos hswaps] at hwhole
    have htake : ReversedGroups.reverseGroups typeSz (totalSz / typeSz) (p.take totalSz) =
        ReversedGroups.reverseGroups typeSz (totalSz / typeSz) p :=
      ReversedGroups.reverseGroups_take (le_of_eq hwhole)
    rw [← htake]
    exact ReversedGroups.reverseGroups_reverseGroups (by simp [hp, hwhole])
  · simp

theorem byteOrderedCopy_take {p : List UInt8} {totalSz typeSz : ℕ} {k : ℕ}
    (hk : copiedCount smallEndian totalSz typeSz ≤ k) :
    byteOrderedCopy smallEndian (p.take k) totalSz typeSz =
      byteOrderedCopy smallEndian p totalSz typeSz := by
  unfold copiedCount at hk
  unfold byteOrderedCopy
  split
  · rename_i hswaps
    rw [if_pos hswaps] at hk
    exact ReversedGroups.reverseGroups_take hk
  · rename_i hswaps
    rw [if_neg hswaps] at hk
    rw [List.take_take, Nat.min_eq_left hk]

theorem LinkedBlock.storeBytes_storeBytes (block : LinkedBlock) (addr : ℤ)
    (xs ys : List UInt8) :
    (block.storeBytes addr xs).storeBytes (addr + xs.length) ys =
      block.storeBytes addr (xs ++ ys) := by
  unfold LinkedBlock.storeBytes
  simp only [Segment.combineAt_append]

theorem LinkedBlock.storeString_eq (hlen : (stringChars buf).length < 2147483647) :
    block.storeString addr buf ((stringChars buf).length + 1) n =
      block.storeBytes addr ((stringChars buf).take n ++
        List.replicate (n - (stringChars buf).length) 0) := by
  have hint : osInt ((stringChars buf).length + 1 : ℕ) - 1 = (stringChars buf).length := by
    rw [osInt_of_range (by omega) (by omega)]
    omega
  have hstarts : buf.take (stringChars buf).length = stringChars buf :=
    (List.prefix_iff_eq_take.mp (List.takeWhile_prefix _)).symm
  unfold LinkedBlock.storeString
  rw [hint]
  by_cases hn : (stringChars buf).length < n
  · have hmin : min ((stringChars buf).length : ℤ) n = (stringChars buf).length := by omega
    have hcount : ((n : ℤ) - (stringChars buf).length).toNat = n - (stringChars buf).length := by
      omega
    have hlt : ((stringChars buf).length : ℤ) < n := by omega
    have htake : (stringChars buf).take n = stringChars buf := List.take_of_length_le hn.le
    simp only [hmin, hlt, if_true, Int.toNat_natCast, hstarts, hcount, htake,
      LinkedBlock.storeBytes_storeBytes]
  · have hmin : min ((stringChars buf).length : ℤ) n = n := by omega
    have hzero : n - (stringChars buf).length = 0 := by omega
    have htake : buf.take n = (stringChars buf).take n := by
      rw [← hstarts, List.take_take, Nat.min_eq_left (by omega)]
    simp [hmin, hzero, htake]

/-- The bytes which `ioc_write` stores. -/
def AccessFlags.storedBytes (smallEndian : Bool) (flags : AccessFlags) (buf : List UInt8)
    (n : ℕ) : List UInt8 :=
  if flags.string then
    (stringChars buf).take n ++ List.replicate (n - (stringChars buf).length) 0
  else if flags.clearRange then List.replicate n 0
  else byteOrderedCopy smallEndian buf n flags.swap

/-- What `ioc_write` needs of the source: a string whose length is an `os_int`,
nothing, or the bytes it stores. -/
def AccessFlags.SourceHolds (flags : AccessFlags) (buf : List UInt8) (n : ℕ) : Prop :=
  if flags.string then (0 : UInt8) ∈ buf ∧ (stringChars buf).length < 2147483647
  else if flags.clearRange then True
  else n ≤ buf.length

instance (flags : AccessFlags) (buf : List UInt8) (n : ℕ) :
    Decidable (flags.SourceHolds buf n) :=
  inferInstanceAs (Decidable (if flags.string then _ else if flags.clearRange then _ else _))

theorem LinkedBlock.storeRange_eq (hsource : flags.SourceHolds buf n) :
    block.storeRange smallEndian addr buf n flags =
      some (block.storeBytes addr (flags.storedBytes smallEndian buf n)) := by
  unfold AccessFlags.SourceHolds at hsource
  unfold LinkedBlock.storeRange AccessFlags.storedBytes
  by_cases hstring : flags.string = true
  · simp only [hstring, if_true] at hsource ⊢
    simp only [osStrlen, hsource.1, if_true, Option.map_some,
      LinkedBlock.storeString_eq hsource.2]
  · by_cases hclear : flags.clearRange = true
    · simp [hstring, hclear]
    · simp only [hstring, hclear, if_false, Bool.false_eq_true] at hsource ⊢
      have hcount := copiedCount_le smallEndian n flags.swap
      simp only [bytesAt, hcount.trans hsource, if_true, Option.map_some,
        byteOrderedCopy_take (Nat.le_refl _)]

theorem AccessFlags.storedBytes_length_le (hsource : flags.SourceHolds buf n) :
    (flags.storedBytes smallEndian buf n).length ≤ n := by
  unfold AccessFlags.SourceHolds at hsource
  unfold AccessFlags.storedBytes
  by_cases hstring : flags.string = true
  · simp only [hstring, if_true, List.length_append, List.length_take,
      List.length_replicate]
    omega
  · by_cases hclear : flags.clearRange = true
    · simp [hstring, hclear]
    · simp only [hstring, hclear, if_false, Bool.false_eq_true] at hsource ⊢
      have hcount := copiedCount_le smallEndian n flags.swap
      rw [byteOrderedCopy_length (hcount.trans hsource)]
      exact hcount


theorem AccessFlags.storedBytes_length (hstring : flags.string = false)
    (hsource : flags.SourceHolds buf n)
    (hwhole : copiedCount smallEndian n flags.swap = n) :
    (flags.storedBytes smallEndian buf n).length = n := by
  unfold AccessFlags.SourceHolds at hsource
  unfold AccessFlags.storedBytes
  by_cases hclear : flags.clearRange = true
  · simp [hstring, hclear]
  · simp only [hstring, hclear, if_false, Bool.false_eq_true] at hsource ⊢
    rw [byteOrderedCopy_length (hwhole.trans_le hsource), hwhole]

/-! ## What is read -/

variable {mblk : MemoryBlock} {mem mem' : Mem}

@[simp] theorem readString_length (mem : Mem) (p : ℤ) (buf : List UInt8) :
    (readString mem p buf).length = buf.length := by
  fun_induction readString mem p buf with
  | case1 => rfl
  | case2 => rfl
  | case3 => rfl
  | case4 p b c rest h ih => simpa using ih

theorem readString_congr {p : ℤ} {buf : List UInt8}
    (hmem : ∀ i, p ≤ i → i < p + buf.length → mem i = mem' i) :
    readString mem p buf = readString mem' p buf := by
  induction buf generalizing p with
  | nil => rfl
  | cons b buf ih =>
      cases buf with
      | nil => rfl
      | cons c rest =>
          have hp : mem p = mem' p := hmem p (le_refl p) (by simp; omega)
          have hrest : readString mem (p + 1) (c :: rest) =
              readString mem' (p + 1) (c :: rest) := by
            apply ih
            intro i hlo hhi
            have hlen : ((b :: c :: rest).length : ℤ) = (c :: rest).length + 1 := by simp
            exact hmem i (by omega) (by omega)
          simp only [readString, hp, hrest]

/-- The string ends at the first terminator or where the buffer does. -/
theorem readString_eq (mem : Mem) (p : ℤ) (buf : List UInt8) (hbuf : buf ≠ []) :
    ∃ k < buf.length,
      readString mem p buf = Segment.segment mem p k ++ 0 :: buf.drop (k + 1) ∧
      (∀ i, p ≤ i → i < p + k → mem i ≠ 0) ∧
      (k + 1 < buf.length → mem (p + k) = 0) := by
  induction buf generalizing p with
  | nil => exact absurd rfl hbuf
  | cons b buf ih =>
      cases buf with
      | nil =>
          exact ⟨0, by simp, by simp [readString], fun i hlo hhi => by omega,
            fun hlt => by simp at hlt⟩
      | cons c rest =>
          by_cases hp : mem p = 0
          · exact ⟨0, by simp, by simp [readString, hp], fun i hlo hhi => by omega,
              fun _ => by simpa using hp⟩
          · obtain ⟨k, hk, heq, hne, hend⟩ := ih (p + 1) (by simp)
            refine ⟨k + 1, by simpa using hk, ?_, ?_, ?_⟩
            · simp only [readString, hp, if_false, heq, Segment.segment_succ, List.cons_append,
                List.drop_succ_cons]
            · intro i hlo hhi
              by_cases hi : i = p
              · rwa [hi]
              · exact hne i (by omega) (by push_cast at hhi; omega)
            · intro hlt
              have hadd : p + ((k + 1 : ℕ) : ℤ) = p + 1 + k := by push_cast; ring
              rw [hadd]
              exact hend (by simpa using hlt)


/-- The part of the caller's buffer which the block covers, and the rest, which
is cleared. -/
theorem MemoryBlock.readRange_eq (haddr : addr < mblk.nbytes) :
    ∃ head : List UInt8, head.length = mblk.writeCount addr buf.length ∧
      mblk.readRange smallEndian addr buf flags =
        head ++ List.replicate (buf.length - mblk.writeCount addr buf.length) 0 := by
  have hmax : ¬ mblk.nbytes - addr ≤ 0 := by omega
  have hcount : mblk.writeCount addr buf.length ≤ buf.length := Nat.min_le_left _ _
  unfold MemoryBlock.readRange
  simp only [hmax, if_false]
  by_cases hstring : flags.string = true
  · refine ⟨readString mblk.buf addr (buf.take (mblk.writeCount addr buf.length)), ?_, ?_⟩
    · simpa using hcount
    · simp only [hstring, if_true, MemoryBlock.writeCount]
  · refine ⟨_, ?_, by simp only [hstring, if_false, Bool.false_eq_true]; rfl⟩
    have hcopied := copiedCount_le smallEndian (mblk.writeCount addr buf.length) flags.swap
    have hlen : (byteOrderedCopy smallEndian
        (Segment.segment mblk.buf addr (mblk.writeCount addr buf.length))
        (mblk.writeCount addr buf.length) flags.swap).length =
        copiedCount smallEndian (mblk.writeCount addr buf.length) flags.swap :=
      byteOrderedCopy_length (by simpa using hcopied)
    simp only [MemoryBlock.writeCount] at hlen hcopied hcount ⊢
    simp only [List.length_append, List.length_drop, List.length_take, hlen]
    omega

theorem MemoryBlock.readRange_whole (haddr : addr < mblk.nbytes)
    (hstring : flags.string = false)
    (hwhole : copiedCount smallEndian (mblk.writeCount addr buf.length) flags.swap =
      mblk.writeCount addr buf.length) :
    mblk.readRange smallEndian addr buf flags =
      byteOrderedCopy smallEndian
          (Segment.segment mblk.buf addr (mblk.writeCount addr buf.length))
          (mblk.writeCount addr buf.length) flags.swap ++
        List.replicate (buf.length - mblk.writeCount addr buf.length) 0 := by
  have hmax : ¬ mblk.nbytes - addr ≤ 0 := by omega
  have hlen : (byteOrderedCopy smallEndian
      (Segment.segment mblk.buf addr (mblk.writeCount addr buf.length))
      (mblk.writeCount addr buf.length) flags.swap).length =
      mblk.writeCount addr buf.length := by
    rw [byteOrderedCopy_length (by simpa using hwhole.le), hwhole]
  unfold MemoryBlock.readRange
  unfold MemoryBlock.writeCount at hlen ⊢
  simp [hmax, hstring, hlen]

/-! ## Clipping -/

/-- The addresses of the block among `n` addresses. -/
def MemoryBlock.Covers (mblk : MemoryBlock) (addr : ℤ) (n : ℕ) (i : ℤ) : Prop :=
  (addr ≤ i ∧ i < addr + n) ∧ 0 ≤ i ∧ i < mblk.nbytes

instance (mblk : MemoryBlock) (addr : ℤ) (n : ℕ) (i : ℤ) : Decidable (mblk.Covers addr n i) :=
  inferInstanceAs (Decidable (_ ∧ _))

structure LinkedBlock.ClippedWrite (block written : LinkedBlock) (addr : ℤ) (n : ℕ) :
    Prop where
  unchanged : ∀ i, ¬ block.mblk.Covers addr n i → written.mblk.buf i = block.mblk.buf i
  invalidated : written.sbufs =
    if max addr 0 < min (addr + n) block.mblk.nbytes then
      block.sbufs.map fun sbuf =>
        sbuf.invalidate written.mblk (max addr 0) (min (addr + n) block.mblk.nbytes - 1)
    else block.sbufs
  others : written =
    { block with mblk.buf := written.mblk.buf, sbufs := written.sbufs }

/-- A read which looks at bytes of the block only. -/
def MemoryBlock.ReadsExisting (smallEndian : Bool) (mblk : MemoryBlock) (addr : ℤ) (n : ℕ)
    (flags : AccessFlags) : Prop :=
  ∀ mem : Mem, (∀ i, 0 ≤ i → i < mblk.nbytes → mem i = mblk.buf i) →
    ∀ buf : List UInt8, buf.length = n →
      ({ mblk with buf := mem }).readRange smallEndian addr buf flags =
        mblk.readRange smallEndian addr buf flags

/-- A read after which nothing is left in the caller's buffer. -/
def MemoryBlock.SetsEvery (smallEndian : Bool) (mblk : MemoryBlock) (addr : ℤ) (n : ℕ)
    (flags : AccessFlags) : Prop :=
  ∀ buf buf' : List UInt8, buf.length = n → buf'.length = n →
    mblk.readRange smallEndian addr buf flags = mblk.readRange smallEndian addr buf' flags

/-- A read which clears what the block does not cover. -/
def MemoryBlock.ClearsOutside (smallEndian : Bool) (mblk : MemoryBlock) (addr : ℤ) (n : ℕ)
    (flags : AccessFlags) : Prop :=
  ∀ buf : List UInt8, buf.length = n → ∀ k : ℕ, k < n →
    ¬ mblk.Covers addr n (addr + k) →
      (mblk.readRange smallEndian addr buf flags)[k]? = some 0

/-- A string read: what it leaves is between the terminator and the end of the
block. -/
def MemoryBlock.SetsString (smallEndian : Bool) (mblk : MemoryBlock) (addr : ℤ) (n : ℕ)
    (flags : AccessFlags) : Prop :=
  ∀ buf : List UInt8, buf.length = n → ∃ k < mblk.writeCount addr n,
    mblk.readRange smallEndian addr buf flags =
      Segment.segment mblk.buf addr k ++ 0 ::
        ((buf.take (mblk.writeCount addr n)).drop (k + 1) ++
          List.replicate (n - mblk.writeCount addr n) 0) ∧
    (∀ i, addr ≤ i → i < addr + k → mblk.buf i ≠ 0) ∧
    (k + 1 < mblk.writeCount addr n → mblk.buf (addr + k) = 0)

theorem LinkedBlock.clippedWrite_storeBytes (haddr : 0 ≤ addr) (hn : 0 < n)
    (hmax : addr < block.mblk.nbytes) {bytes : List UInt8}
    (hbytes : bytes.length ≤ block.mblk.writeCount addr n) :
    block.ClippedWrite ((block.storeBytes addr bytes).invalidate addr
      (addr + block.mblk.writeCount addr n - 1)) addr n where
  unchanged i hi := by
    unfold MemoryBlock.writeCount at hbytes
    unfold MemoryBlock.Covers at hi
    have hout : i < addr ∨ addr + bytes.length ≤ i := by omega
    have hbuf := Segment.combineAt_of_outside (fun (_ new : UInt8) => new)
      block.mblk.buf addr bytes hout
    exact hbuf
  invalidated := by
    have hlt : max addr 0 < min (addr + n) block.mblk.nbytes := by omega
    have hfirst : max addr 0 = addr := by omega
    have hlast : min (addr + n) block.mblk.nbytes - 1 =
        addr + block.mblk.writeCount addr n - 1 := by
      unfold MemoryBlock.writeCount
      omega
    rw [if_pos hlt, hfirst, hlast]
    rfl
  others := rfl

theorem LinkedBlock.writeRange_eq (haddr : addr < block.mblk.nbytes)
    (hsource : flags.SourceHolds buf (block.mblk.writeCount addr n)) :
    block.writeRange smallEndian addr buf n flags =
      some ((block.storeBytes addr
        (flags.storedBytes smallEndian buf (block.mblk.writeCount addr n))).invalidate addr
          (addr + block.mblk.writeCount addr n - 1)) := by
  have hmax : ¬ block.mblk.nbytes - addr ≤ 0 := by omega
  have hstore : block.storeRange smallEndian addr buf (block.mblk.writeCount addr n) flags =
      some (block.storeBytes addr
        (flags.storedBytes smallEndian buf (block.mblk.writeCount addr n))) :=
    LinkedBlock.storeRange_eq hsource
  unfold LinkedBlock.writeRange
  simp only [hmax, if_false]
  unfold MemoryBlock.writeCount at hstore ⊢
  rw [hstore]
  rfl

theorem LinkedBlock.writeRange_clipped (haddr : 0 ≤ addr) (hn : 0 < n)
    (hsource : flags.SourceHolds buf (block.mblk.writeCount addr n)) :
    ∃ written, block.writeRange smallEndian addr buf n flags = some written ∧
      block.ClippedWrite written addr n := by
  by_cases hmax : addr < block.mblk.nbytes
  · exact ⟨_, LinkedBlock.writeRange_eq hmax hsource,
      LinkedBlock.clippedWrite_storeBytes haddr hn hmax
        (AccessFlags.storedBytes_length_le hsource)⟩
  · have hnone : block.mblk.nbytes - addr ≤ 0 := by omega
    have hout : ¬ max addr 0 < min (addr + n) block.mblk.nbytes := by omega
    exact ⟨block, by simp [LinkedBlock.writeRange, hnone],
      fun _ _ => rfl, by rw [if_neg hout], rfl⟩

theorem MemoryBlock.readsExisting (haddr : 0 ≤ addr) :
    mblk.ReadsExisting smallEndian addr n flags := by
  intro mem hmem buf hbuf
  have hsegment : ∀ count : ℕ, addr + count ≤ mblk.nbytes →
      Segment.segment mem addr count = Segment.segment mblk.buf addr count := by
    intro count hcount
    refine Segment.segment_eq_iff.mpr fun i hlo hhi => hmem i (by omega) (by omega)
  have hstring : addr < mblk.nbytes →
      readString mem addr (buf.take (min buf.length (mblk.nbytes - addr).toNat)) =
        readString mblk.buf addr (buf.take (min buf.length (mblk.nbytes - addr).toNat)) := by
    intro hlt
    refine readString_congr fun i hlo hhi => hmem i (by omega) ?_
    rw [List.length_take] at hhi
    omega
  unfold MemoryBlock.readRange
  by_cases hmax : mblk.nbytes - addr ≤ 0
  · simp [hmax]
  · have hcount := hsegment (min buf.length (mblk.nbytes - addr).toNat) (by omega)
    simp [hmax, hcount, hstring (by omega)]

theorem MemoryBlock.setsEvery (haddr : addr < mblk.nbytes) (hstring : flags.string = false)
    (hwhole : copiedCount smallEndian (mblk.writeCount addr n) flags.swap =
      mblk.writeCount addr n) :
    mblk.SetsEvery smallEndian addr n flags := by
  intro buf buf' hbuf hbuf'
  rw [MemoryBlock.readRange_whole haddr hstring (by rw [hbuf, hwhole]),
    MemoryBlock.readRange_whole haddr hstring (by rw [hbuf', hwhole]), hbuf, hbuf']

theorem MemoryBlock.clearsOutside (haddr : 0 ≤ addr) (hmax : addr < mblk.nbytes) :
    mblk.ClearsOutside smallEndian addr n flags := by
  intro buf hbuf k hk hout
  have hcount : mblk.writeCount addr n ≤ k := by
    unfold MemoryBlock.Covers at hout
    unfold MemoryBlock.writeCount
    omega
  obtain ⟨head, hlen, heq⟩ := @MemoryBlock.readRange_eq smallEndian flags buf addr mblk hmax
  rw [hbuf] at hlen heq
  rw [heq, List.getElem?_append_right (by omega), List.getElem?_replicate_of_lt (by omega)]

theorem MemoryBlock.setsString (hmax : addr < mblk.nbytes) (hn : 0 < n)
    (hstring : flags.string = true) : mblk.SetsString smallEndian addr n flags := by
  intro buf hbuf
  have hpos : ¬ mblk.nbytes - addr ≤ 0 := by omega
  have hcount : mblk.writeCount addr n = min n (mblk.nbytes - addr).toNat := rfl
  have hlen : (buf.take (mblk.writeCount addr n)).length = mblk.writeCount addr n := by
    rw [List.length_take]
    omega
  have hne : buf.take (mblk.writeCount addr n) ≠ [] := by
    intro hnil
    rw [hnil] at hlen
    simp at hlen
    omega
  obtain ⟨k, hk, heq, hchars, hend⟩ := readString_eq mblk.buf addr _ hne
  rw [hlen] at hk hend
  refine ⟨k, hk, ?_, hchars, hend⟩
  unfold MemoryBlock.readRange
  simp only [hpos, if_false, hstring, if_true, hbuf, ← hcount, heq, List.cons_append,
    List.append_assoc]


theorem byteOrderedCopy_replicate (a : UInt8) (totalSz typeSz : ℕ) :
    byteOrderedCopy smallEndian (List.replicate totalSz a) totalSz typeSz =
      List.replicate (copiedCount smallEndian totalSz typeSz) a := by
  unfold byteOrderedCopy copiedCount
  split
  · exact ReversedGroups.reverseGroups_replicate a (Nat.mul_div_le totalSz typeSz)
  · simp

/-- What a write stores of the source is what a read of the same range returns. -/
theorem MemoryBlock.readRange_writeRange {written : LinkedBlock} {old : List UInt8}
    (hmax : addr < block.mblk.nbytes) (hstring : flags.string = false)
    (hsource : flags.SourceHolds buf (block.mblk.writeCount addr n))
    (hwhole : copiedCount smallEndian (block.mblk.writeCount addr n) flags.swap =
      block.mblk.writeCount addr n)
    (hwritten : block.writeRange smallEndian addr buf n flags = some written)
    (hold : old.length = n) {k : ℕ} (hk : k < block.mblk.writeCount addr n) :
    (written.mblk.readRange smallEndian addr old flags)[k]? =
      if flags.clearRange then some 0 else buf[k]? := by
  rw [LinkedBlock.writeRange_eq hmax hsource, Option.some.injEq] at hwritten
  have hnbytes : written.mblk.nbytes = block.mblk.nbytes := by rw [← hwritten]; rfl
  have hbuf : written.mblk.buf = Segment.combineAt (fun _ new => new) block.mblk.buf addr
      (flags.storedBytes smallEndian buf (block.mblk.writeCount addr n)) := by
    rw [← hwritten]
    rfl
  have hcount : written.mblk.writeCount addr old.length = block.mblk.writeCount addr n := by
    rw [hold]
    unfold MemoryBlock.writeCount
    rw [hnbytes]
  have hlen := AccessFlags.storedBytes_length hstring hsource hwhole
  have hsegment : Segment.segment written.mblk.buf addr (block.mblk.writeCount addr n) =
      flags.storedBytes smallEndian buf (block.mblk.writeCount addr n) := by
    have hback := Segment.segment_combineAt block.mblk.buf addr
      (flags.storedBytes smallEndian buf (block.mblk.writeCount addr n))
    rwa [hlen, ← hbuf] at hback
  rw [MemoryBlock.readRange_whole (by omega) hstring (by rw [hcount, hwhole]), hcount,
    hsegment]
  unfold AccessFlags.SourceHolds at hsource
  unfold AccessFlags.storedBytes
  by_cases hclear : flags.clearRange = true
  · simp only [hstring, hclear, if_true, Bool.false_eq_true, if_false,
      byteOrderedCopy_replicate, hwhole]
    rw [List.getElem?_append_left (by simpa using hk),
      List.getElem?_replicate_of_lt hk]
  · simp only [hstring, hclear, Bool.false_eq_true, if_false] at hsource ⊢
    rw [byteOrderedCopy_byteOrderedCopy hsource hwhole,
      List.getElem?_append_left (by simp; omega), List.getElem?_take_of_lt hk]

/-- Reads and writes are clipped: a write changes and invalidates covered bytes only, and
is read back; a read looks at bytes of the block, sets every byte up to the terminator of a
string, and clears what the block does not cover. -/
theorem block_access_clipped (smallEndian : Bool) (block : LinkedBlock) (addr : ℤ)
    (haddr : 0 ≤ addr) (n : ℕ) (hn : 0 < n) (flags : AccessFlags) :
    (∀ buf : List UInt8, flags.SourceHolds buf (block.mblk.writeCount addr n) →
      ∃ written, block.writeRange smallEndian addr buf n flags = some written ∧
        block.ClippedWrite written addr n ∧
        (addr < block.mblk.nbytes → flags.string = false →
          copiedCount smallEndian (block.mblk.writeCount addr n) flags.swap =
            block.mblk.writeCount addr n →
          ∀ old : List UInt8, old.length = n → ∀ k < block.mblk.writeCount addr n,
            (written.mblk.readRange smallEndian addr old flags)[k]? =
              if flags.clearRange then some 0 else buf[k]?)) ∧
      block.mblk.ReadsExisting smallEndian addr n flags ∧
      (addr < block.mblk.nbytes →
        block.mblk.ClearsOutside smallEndian addr n flags ∧
        (flags.string = true → block.mblk.SetsString smallEndian addr n flags) ∧
        (flags.string = false →
          copiedCount smallEndian (block.mblk.writeCount addr n) flags.swap =
            block.mblk.writeCount addr n →
          block.mblk.SetsEvery smallEndian addr n flags)) := by
  refine ⟨fun buf hsource => ?_, MemoryBlock.readsExisting haddr, fun hmax => ?_⟩
  · obtain ⟨written, hwritten, hclipped⟩ :=
      @LinkedBlock.writeRange_clipped smallEndian block flags buf addr n haddr hn hsource
    refine ⟨written, hwritten, hclipped, ?_⟩
    intro hmax hstring hwhole old hold k hk
    exact MemoryBlock.readRange_writeRange hmax hstring hsource hwhole hwritten hold hk
  · exact ⟨MemoryBlock.clearsOutside haddr hmax,
      MemoryBlock.setsString hmax hn, MemoryBlock.setsEvery hmax⟩


def plainAccess : AccessFlags := ⟨false, false, 0⟩

def fiveBytes : LinkedBlock where
  name := ⟨"exp", "tea", 1, "cafenet"⟩
  dynamic := false
  mblk :=
    { mblkId := 3
      flags := ⟨true, false, false, false, false⟩
      nbytes := 5
      bufAllocated := true
      buf := fun i => if i = 0 then 65 else 0 }
  sbufs := []
  tbufs := []

theorem block_access_clipped_fiveBytes :
    ∃ written, fiveBytes.writeRange true 3 [1, 2, 3, 4] 4 plainAccess = some written ∧
      fiveBytes.ClippedWrite written 3 4 ∧
      (written.mblk.readRange true 3 [9, 9, 9, 9] plainAccess)[1]? = some 2 ∧
      fiveBytes.mblk.ClearsOutside true 3 4 plainAccess := by
  have h := block_access_clipped true fiveBytes 3 (by decide) 4 (by decide) plainAccess
  obtain ⟨written, hwritten, hclipped, hback⟩ := h.1 [1, 2, 3, 4] (by decide)
  refine ⟨written, hwritten, hclipped, ?_, (h.2.2 (by decide)).1⟩
  have hone : (1 : ℕ) < fiveBytes.mblk.writeCount 3 4 := by decide
  have hbyte := hback (by decide) rfl rfl [9, 9, 9, 9] rfl 1 hone
  simpa [plainAccess] using hbyte

/-- A negative address, a read at the end, a string which is shorter than the buffer, and
a group which is cut off. -/
theorem access_not_clipped :
    (∃ written, fiveBytes.writeRange true (-1) [7] 1 plainAccess = some written ∧
      ¬ fiveBytes.ClippedWrite written (-1) 1) ∧
    ¬ fiveBytes.mblk.ClearsOutside true 5 1 plainAccess ∧
    ¬ fiveBytes.mblk.SetsEvery true 0 3 ⟨true, false, 0⟩ ∧
    ¬ fiveBytes.mblk.SetsEvery false 0 6 ⟨false, false, 2⟩ := by
  refine ⟨⟨_, rfl, fun h => ?_⟩, fun h => ?_, fun h => ?_, fun h => ?_⟩
  · have hbyte := h.unchanged (-1) (by decide)
    revert hbyte
    decide
  · have hzero := h [1] rfl 0 (by decide) (by decide)
    revert hzero
    decide
  · have hsame := h [1, 1, 1] [2, 2, 2] rfl rfl
    revert hsame
    decide
  · have hsame := h [1, 1, 1, 1, 1, 1] [2, 2, 2, 2, 2, 2] rfl rfl
    revert hsame
    decide

end Iocom
