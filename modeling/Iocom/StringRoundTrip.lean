import Iocom.SignalValues

/-!
# Strings in memory blocks

A string is written and read with the flag `IOC_MBLK_STRING` or as a string
signal.  It comes back, cut off to what fits together with its terminator,
exactly when all of it fits: a longer string is stored without a terminator.
-/

namespace Iocom

structure StringBytes where
  chars : List UInt8
  chars_ne : ∀ c ∈ chars, c ≠ 0

def HoldsString (buf chars : List UInt8) : Prop := chars ++ [0] <+: buf

/-- The longest beginning of a string which fits in `n` bytes with its terminator. -/
def StringBytes.fitting (str : StringBytes) (n : ℕ) : List UInt8 := str.chars.take (n - 1)

variable {str : StringBytes} {buf chars rest : List UInt8} {n : ℕ}

theorem StringBytes.char_ne (str : StringBytes) {k : ℕ} (hk : k < str.chars.length) :
    str.chars[k] ≠ 0 :=
  str.chars_ne _ (List.getElem_mem hk)

theorem StringBytes.take_ne (str : StringBytes) (k : ℕ) : ∀ c ∈ str.chars.take k, c ≠ 0 :=
  fun c hc => str.chars_ne c (List.mem_of_mem_take hc)

theorem StringBytes.fitting_ne (str : StringBytes) (n : ℕ) : ∀ c ∈ str.fitting n, c ≠ 0 :=
  str.take_ne _

@[simp] theorem StringBytes.fitting_length (str : StringBytes) (n : ℕ) :
    (str.fitting n).length = min (n - 1) str.chars.length := by
  simp [StringBytes.fitting]

theorem stringChars_append (hchars : ∀ c ∈ chars, c ≠ 0) (rest : List UInt8) :
    stringChars (chars ++ rest) = chars ++ stringChars rest := by
  unfold stringChars
  exact List.takeWhile_append_of_pos fun c hc => by simpa using hchars c hc

theorem stringChars_replicate (n : ℕ) : stringChars (List.replicate n 0) = [] := by
  cases n <;> simp [stringChars, List.replicate_succ]

theorem holdsString_iff (hchars : ∀ c ∈ chars, c ≠ 0) :
    HoldsString buf chars ↔ stringChars buf = chars ∧ chars.length < buf.length := by
  constructor
  · rintro ⟨tail, rfl⟩
    have htail : stringChars (0 :: tail) = [] := by simp [stringChars]
    constructor
    · rw [List.append_assoc, List.singleton_append, stringChars_append hchars, htail,
        List.append_nil]
    · simp
  · rintro ⟨hstarts, hlen⟩
    have hsplit : stringChars buf ++ buf.dropWhile (fun c => decide (c ≠ 0)) = buf :=
      List.takeWhile_append_dropWhile
    cases hrest : buf.dropWhile (fun c => decide (c ≠ 0)) with
    | nil =>
        rw [hrest, hstarts, List.append_nil] at hsplit
        rw [hsplit] at hlen
        exact absurd hlen (lt_irrefl _)
    | cons c tail =>
        have hzero : c = 0 := by
          have hhead := List.head?_dropWhile_not (fun c : UInt8 => decide (c ≠ 0)) buf
          rw [hrest] at hhead
          simpa using hhead
        refine ⟨tail, ?_⟩
        rw [hrest, hstarts, hzero] at hsplit
        rw [← hsplit]
        simp

theorem HoldsString.getElem?_length (h : HoldsString buf chars) :
    buf[chars.length]? = some 0 := by
  obtain ⟨tail, rfl⟩ := h
  simp

theorem StringBytes.holdsString_zeros_iff {k : ℕ} (hk : k ≤ str.chars.length) (hkn : k ≤ n)
    (hn : 0 < n) :
    HoldsString (str.chars.take k ++ List.replicate (n - k) 0) (str.fitting n) ↔
      k = min (n - 1) str.chars.length := by
  have hchars : stringChars (str.chars.take k ++ List.replicate (n - k) 0) =
      str.chars.take k := by
    rw [stringChars_append (str.take_ne k), stringChars_replicate, List.append_nil]
  have hlen : (str.chars.take k ++ List.replicate (n - k) (0 : UInt8)).length = n := by
    simp
    omega
  rw [holdsString_iff (str.fitting_ne n), hchars, hlen, StringBytes.fitting_length]
  unfold StringBytes.fitting
  rw [List.take_eq_take_iff]
  omega

/-! ## The flag `IOC_MBLK_STRING` -/

variable {block : LinkedBlock} {addr : ℤ}

/-- The number of characters `ioc_write` copies of a string. -/
def StringBytes.copied (str : StringBytes) (n : ℕ) : ℕ :=
  (min (osInt (str.chars.length + 1) - 1) n).toNat

theorem StringBytes.copied_le (str : StringBytes) (n : ℕ) :
    str.copied n ≤ str.chars.length ∧ str.copied n ≤ n := by
  have hle := osInt_le (i := str.chars.length + 1) (by omega)
  unfold StringBytes.copied
  omega

@[simp] theorem LinkedBlock.storeBytes_nbytes (block : LinkedBlock) (addr : ℤ)
    (bytes : List UInt8) : (block.storeBytes addr bytes).mblk.nbytes = block.mblk.nbytes := rfl

theorem LinkedBlock.storeBytes_apply (block : LinkedBlock) (addr : ℤ)
    (bytes : List UInt8) {k : ℕ} (hk : k < bytes.length) :
    (block.storeBytes addr bytes).mblk.buf (addr + k) = bytes[k] :=
  Segment.combineAt_apply (fun _ new => new) block.mblk.buf addr bytes hk

theorem LinkedBlock.segment_storeBytes (block : LinkedBlock) (addr : ℤ)
    (bytes : List UInt8) :
    Segment.segment (block.storeBytes addr bytes).mblk.buf addr bytes.length = bytes :=
  Segment.segment_combineAt block.mblk.buf addr bytes

theorem LinkedBlock.segment_storeString (block : LinkedBlock) (addr : ℤ)
    (str : StringBytes) (rest : List UInt8) (n : ℕ) :
    Segment.segment
        (block.storeString addr (str.chars ++ 0 :: rest) (str.chars.length + 1) n).mblk.buf
        addr n =
      str.chars.take (str.copied n) ++ List.replicate (n - str.copied n) 0 := by
  obtain ⟨hcopied, hn⟩ := str.copied_le n
  have htake : (str.chars ++ 0 :: rest).take (str.copied n) =
      str.chars.take (str.copied n) := List.take_append_of_le_length hcopied
  have hlen : (str.chars.take (str.copied n)).length = str.copied n := by simpa using hcopied
  have hcopy : (min (osInt (str.chars.length + 1) - 1) (n : ℤ)).toNat = str.copied n := rfl
  unfold LinkedBlock.storeString
  push_cast
  rw [hcopy, htake]
  by_cases hneg : osInt (str.chars.length + 1) - 1 < 0
  · -- a length which has become negative: all of the range is cleared, and more
    obtain ⟨j, hj⟩ : ∃ j : ℕ, osInt (str.chars.length + 1) - 1 = -(j : ℤ) :=
      ⟨(-(osInt (str.chars.length + 1) - 1)).toNat, by omega⟩
    have hmin : min (-(j : ℤ)) n = -(j : ℤ) := by omega
    have hzero : str.copied n = 0 := by
      unfold StringBytes.copied
      omega
    have hcleared : ((n : ℤ) - -(j : ℤ)).toNat = n + j := by omega
    rw [hj, hmin, if_pos (by omega), hzero, hcleared]
    refine List.ext_getElem? fun k => ?_
    by_cases hk : k < n
    · have haddr : addr + -(j : ℤ) + ((k + j : ℕ) : ℤ) = addr + k := by omega
      have hstored := (block.storeBytes addr (str.chars.take 0)).storeBytes_apply
        (addr + -(j : ℤ)) (List.replicate (n + j) 0) (k := k + j) (by simpa using hk)
      rw [haddr, List.getElem_replicate] at hstored
      rw [Segment.segment_getElem? _ _ hk, hstored]
      simp [hk]
    · rw [List.getElem?_eq_none (by simpa using hk), List.getElem?_eq_none (by simpa using hk)]
  · have hmin : min (osInt (str.chars.length + 1) - 1) (n : ℤ) = (str.copied n : ℕ) := by
      unfold StringBytes.copied
      omega
    have hcleared : ((n : ℤ) - (str.copied n : ℕ)).toNat = n - str.copied n := by omega
    have htotal : (str.chars.take (str.copied n) ++
        List.replicate (n - str.copied n) 0).length = n := by
      rw [List.length_append, hlen, List.length_replicate]
      omega
    have hall := block.segment_storeBytes addr (str.chars.take (str.copied n) ++
      List.replicate (n - str.copied n) 0)
    rw [htotal, ← LinkedBlock.storeBytes_storeBytes, hlen] at hall
    rw [hmin, hcleared]
    by_cases hlt : ((str.copied n : ℕ) : ℤ) < n
    · rw [if_pos hlt, hall]
    · have hnone : n - str.copied n = 0 := by omega
      have heq : str.copied n = n := by omega
      have hback := block.segment_storeBytes addr (str.chars.take (str.copied n))
      rw [hlen, heq] at hback
      rw [if_neg hlt, hnone, heq, hback]
      simp

theorem readString_holdsString {mem : Mem} (hchars : ∀ c ∈ chars, c ≠ 0)
    (h : HoldsString (Segment.segment mem addr n) chars) (hbuf : buf.length = n) :
    HoldsString (readString mem addr buf) chars := by
  have hlen : chars.length < n := by
    simpa using ((holdsString_iff hchars).mp h).2
  have hcell : ∀ k, k < chars.length → chars[k]? = some (mem (addr + k)) := by
    intro k hk
    obtain ⟨tail, htail⟩ := h
    have hget := congrArg (fun bytes => bytes[k]?) htail
    simp only [List.append_assoc] at hget
    rwa [List.getElem?_append_left hk, Segment.segment_getElem? _ _ (by omega)] at hget
  have hend : mem (addr + chars.length) = 0 := by
    have hzero := h.getElem?_length
    rwa [Segment.segment_getElem? _ _ hlen, Option.some.injEq] at hzero
  have hne : buf ≠ [] := by
    intro hnil
    simp [hnil] at hbuf
    omega
  obtain ⟨k, hk, heq, hbefore, hstop⟩ := readString_eq mem addr buf hne
  have hkeq : k = chars.length := by
    rcases Nat.lt_trichotomy k chars.length with hlt | heq | hgt
    · have hzero := hstop (by omega)
      have hchar := hcell k hlt
      rw [hzero] at hchar
      exact absurd rfl (hchars 0 (List.mem_of_getElem? hchar))
    · exact heq
    · exact absurd hend (hbefore _ (by omega) (by omega))
  have hsegment : Segment.segment mem addr k = chars := by
    refine List.ext_getElem? fun i => ?_
    by_cases hi : i < k
    · rw [Segment.segment_getElem? _ _ hi, hcell i (by omega)]
    · rw [List.getElem?_eq_none (by simpa using hi), List.getElem?_eq_none (by omega)]
  rw [heq, hsegment]
  exact ⟨buf.drop (k + 1), by simp⟩


@[simp] theorem LinkedBlock.invalidate_mblk (block : LinkedBlock) (startAddr endAddr : ℤ) :
    (block.invalidate startAddr endAddr).mblk = block.mblk := rfl

@[simp] theorem LinkedBlock.storeString_nbytes (block : LinkedBlock) (addr : ℤ)
    (buf : List UInt8) (len n : ℕ) :
    (block.storeString addr buf len n).mblk.nbytes = block.mblk.nbytes := by
  simp only [LinkedBlock.storeString, apply_ite LinkedBlock.mblk, apply_ite MemoryBlock.nbytes,
    LinkedBlock.storeBytes_nbytes, ite_self]

def LinkedBlock.StringComesBack (smallEndian : Bool) (block : LinkedBlock) (addr : ℤ) (n : ℕ)
    (flags : AccessFlags) (str : StringBytes) (rest : List UInt8) : Prop :=
  ∃ written,
    block.writeRange smallEndian addr (str.chars ++ 0 :: rest) n flags = some written ∧
    HoldsString (Segment.segment written.mblk.buf addr n) (str.fitting n) ∧
    ∀ old : List UInt8, old.length = n →
      HoldsString (written.mblk.readRange smallEndian addr old flags) (str.fitting n)

theorem LinkedBlock.writeRange_string {smallEndian : Bool} {flags : AccessFlags}
    (hstring : flags.string = true) (hn : 0 < n) (hmax : addr + n ≤ block.mblk.nbytes)
    (str : StringBytes) (rest : List UInt8) :
    block.writeRange smallEndian addr (str.chars ++ 0 :: rest) n flags =
      some ((block.storeString addr (str.chars ++ 0 :: rest) (str.chars.length + 1)
        n).invalidate addr (addr + n - 1)) := by
  have hpos : ¬ block.mblk.nbytes - addr ≤ 0 := by omega
  have hcount : min n (block.mblk.nbytes - addr).toNat = n := by omega
  have hzeros : stringChars (0 :: rest) = [] := by simp [stringChars]
  have hlen : osStrlen (str.chars ++ 0 :: rest) = some (str.chars.length + 1) := by
    unfold osStrlen
    rw [if_pos (by simp), stringChars_append str.chars_ne, hzeros, List.append_nil]
  unfold LinkedBlock.writeRange LinkedBlock.storeRange
  simp [hpos, hcount, hstring, hlen]

theorem MemoryBlock.readRange_string {mblk : MemoryBlock} {smallEndian : Bool}
    {flags : AccessFlags} (hstring : flags.string = true) (hbuf : buf.length = n)
    (hn : 0 < n) (hmax : addr + n ≤ mblk.nbytes) :
    mblk.readRange smallEndian addr buf flags = readString mblk.buf addr buf := by
  have hpos : ¬ mblk.nbytes - addr ≤ 0 := by omega
  have hcount : min buf.length (mblk.nbytes - addr).toNat = buf.length := by omega
  unfold MemoryBlock.readRange
  simp [hpos, hcount, hstring]

theorem LinkedBlock.stringComesBack_iff {smallEndian : Bool} {flags : AccessFlags}
    (hstring : flags.string = true) (hn : 0 < n) (hint : n < 2147483648)
    (hmax : addr + n ≤ block.mblk.nbytes) (str : StringBytes) (rest : List UInt8) :
    block.StringComesBack smallEndian addr n flags str rest ↔
      str.chars.length < n ∨ (osInt (str.chars.length + 1) - 1).toNat = n - 1 := by
  obtain ⟨hcopied, hcopiedn⟩ := str.copied_le n
  have hiff := StringBytes.holdsString_zeros_iff hcopied hcopiedn hn
  have hsegment := block.segment_storeString addr str rest n
  have hcount : str.copied n = min (n - 1) str.chars.length ↔
      str.chars.length < n ∨ (osInt (str.chars.length + 1) - 1).toNat = n - 1 := by
    have hle := osInt_le (i := str.chars.length + 1) (by omega)
    have hsmall : str.chars.length < n →
        osInt (str.chars.length + 1) = str.chars.length + 1 := fun hlt =>
      osInt_of_range (by omega) (by omega)
    unfold StringBytes.copied
    clear hint hiff hsegment
    generalize osInt (str.chars.length + 1) = count at hle hsmall ⊢
    omega
  rw [← hcount, ← hiff, ← hsegment]
  constructor
  · rintro ⟨written, hwritten, hholds, -⟩
    rw [LinkedBlock.writeRange_string hstring hn hmax, Option.some.injEq] at hwritten
    rwa [← hwritten, LinkedBlock.invalidate_mblk] at hholds
  · intro hholds
    refine ⟨_, LinkedBlock.writeRange_string hstring hn hmax str rest, ?_, ?_⟩
    · rwa [LinkedBlock.invalidate_mblk]
    · intro old hold
      rw [LinkedBlock.invalidate_mblk,
        MemoryBlock.readRange_string hstring hold hn (by simpa using hmax)]
      exact readString_holdsString (str.fitting_ne n) hholds hold

/-! ## String signals -/

variable {p : SignalProcessor} {signal : Signal}

/-- A string is written to a signal and read to a buffer of `sz` bytes. -/
def LinkedBlock.StringSignalComesBack (p : SignalProcessor) (block : LinkedBlock)
    (signal : Signal) (str : StringBytes) (stateBits : UInt8) (sz : ℕ)
    (noTbufCheck : Bool) : Prop :=
  ∀ old : List UInt8, old.length = sz →
    HoldsString
      ((block.moveStr p.osal signal str.chars stateBits).1.getString p signal old
        noTbufCheck).1
      (str.fitting (min signal.n sz))

theorem LinkedBlock.moveStr_apply (stateBits : UInt8) (htype : signal.typeId = .str)
    (haddr : 0 ≤ signal.addr) (hmax : signal.addr + signal.n + 1 ≤ block.mblk.nbytes)
    {k : ℕ} (hk : k < signal.n) (hchar : k ≤ str.chars.length) :
    (block.moveStr p.osal signal str.chars stateBits).1.mblk.buf (signal.addr + 1 + k) =
      (str.chars ++ [0]).get ⟨k, by simpa using Nat.lt_succ_of_le hchar⟩ := by
  have hout : ¬ (signal.addr < 0 ∨ block.mblk.nbytes < signal.addr + signal.n + 1) := by
    omega
  have hlen : k + 1 < (stateBits :: (str.chars ++ [0]).take signal.n).length := by
    simp
    omega
  have hcell := block.storeBytes_apply signal.addr
    (stateBits :: (str.chars ++ [0]).take signal.n) hlen
  have haddr' : signal.addr + ((k + 1 : ℕ) : ℤ) = signal.addr + 1 + k := by push_cast; ring
  rw [haddr', List.getElem_cons_succ, List.getElem_take] at hcell
  rw [List.get_eq_getElem, ← hcell]
  unfold LinkedBlock.moveStr LinkedBlock.setString
  rw [if_pos htype, if_neg hout]
  rfl


theorem LinkedBlock.getString_eq {old : List UInt8} {noTbufCheck : Bool}
    (haddr : 0 ≤ signal.addr) (hmax : signal.addr + signal.n + 1 ≤ block.mblk.nbytes) :
    (block.getString p signal old noTbufCheck).1 =
      Segment.segment block.mblk.buf (signal.addr + 1) (min old.length signal.n) ++
        (old.set 0 0).drop (min old.length signal.n) := by
  have hout : ¬ (signal.addr < 0 ∨ block.mblk.nbytes < signal.addr + signal.n + 1) := by
    omega
  unfold LinkedBlock.getString
  rw [if_neg hout]

theorem LinkedBlock.moveStr_nbytes (block : LinkedBlock) (signal : Signal)
    (htype : signal.typeId = .str) (chars : List UInt8) (stateBits : UInt8) :
    (block.moveStr p.osal signal chars stateBits).1.mblk.nbytes = block.mblk.nbytes := by
  unfold LinkedBlock.moveStr LinkedBlock.setString
  rw [if_pos htype]
  split <;> rfl

/-- A string which fits in the signal is stored with its terminator. -/
theorem LinkedBlock.segment_moveStr (stateBits : UInt8) (htype : signal.typeId = .str)
    (haddr : 0 ≤ signal.addr) (hmax : signal.addr + signal.n + 1 ≤ block.mblk.nbytes)
    (hlt : str.chars.length < signal.n) :
    Segment.segment (block.moveStr p.osal signal str.chars stateBits).1.mblk.buf
      (signal.addr + 1) (str.chars.length + 1) = str.chars ++ [0] := by
  refine List.ext_getElem (by simp) fun k hk hk' => ?_
  have hle : k < str.chars.length + 1 := by simpa using hk
  have hcell := @LinkedBlock.moveStr_apply str block p signal stateBits htype haddr hmax
    k (by omega) (by omega)
  have hget := Segment.segment_getElem?
    (block.moveStr p.osal signal str.chars stateBits).1.mblk.buf (signal.addr + 1) hle
  rw [List.getElem?_eq_getElem hk, Option.some.injEq] at hget
  rw [hget, hcell, List.get_eq_getElem]

theorem LinkedBlock.stringSignalComesBack_iff (htype : signal.typeId = .str)
    (haddr : 0 ≤ signal.addr) (hmax : signal.addr + signal.n + 1 ≤ block.mblk.nbytes)
    (str : StringBytes) (stateBits : UInt8) (sz : ℕ) (noTbufCheck : Bool) :
    block.StringSignalComesBack p signal str stateBits sz noTbufCheck ↔
      str.chars.length < min signal.n sz ∨ (signal.n = 0 ∧ 0 < sz) := by
  have hread : ∀ old : List UInt8, old.length = sz →
      ((block.moveStr p.osal signal str.chars stateBits).1.getString p signal old
          noTbufCheck).1 =
        Segment.segment (block.moveStr p.osal signal str.chars stateBits).1.mblk.buf
            (signal.addr + 1) (min sz signal.n) ++
          (old.set 0 0).drop (min sz signal.n) := by
    intro old hold
    rw [LinkedBlock.getString_eq haddr (by rwa [block.moveStr_nbytes signal htype]), hold]
  constructor
  · intro h
    have hold := h (List.replicate sz 1) (by simp)
    have hzero := hold.getElem?_length
    rw [hread _ (by simp), StringBytes.fitting_length] at hzero
    by_contra hnot
    rw [not_or, not_lt] at hnot
    obtain ⟨hlong, hempty⟩ := hnot
    have hsz : 0 < sz := by
      by_contra hsz
      have hnil : sz = 0 := by omega
      simp [hnil] at hzero
    have hlast : min (min signal.n sz - 1) str.chars.length = min sz signal.n - 1 := by omega
    have hk : min sz signal.n - 1 < signal.n := by omega
    have hchar : min sz signal.n - 1 < str.chars.length := by omega
    have hcell := @LinkedBlock.moveStr_apply str block p signal stateBits htype haddr hmax
      _ hk hchar.le
    rw [List.get_eq_getElem, List.getElem_append_left hchar] at hcell
    rw [hlast, List.getElem?_append_left (by simp; omega),
      Segment.segment_getElem? _ _ (by omega), hcell, Option.some.injEq] at hzero
    exact str.char_ne _ hzero
  · intro hfits old hold
    rw [hread old hold]
    rcases hfits with hlt | ⟨hn, hsz⟩
    · have hfitting : str.fitting (min signal.n sz) = str.chars :=
        List.take_of_length_le (by omega)
      have hsplit := @LinkedBlock.segment_moveStr str block p signal stateBits htype haddr hmax
        (by omega)
      have htake := Segment.segment_take
        (block.moveStr p.osal signal str.chars stateBits).1.mblk.buf (signal.addr + 1)
        (show str.chars.length + 1 ≤ min sz signal.n by omega)
      rw [hsplit] at htake
      rw [hfitting]
      refine ((htake ▸ List.take_prefix _ _ : str.chars ++ [0] <+: _)).trans ?_
      exact List.prefix_append _ _
    · have hnil : min sz signal.n = 0 := by omega
      have hfitting : str.fitting (min signal.n sz) = [] := by
        simp [StringBytes.fitting, hn]
      obtain ⟨b, tail, rfl⟩ := List.exists_cons_of_length_pos (hold ▸ hsz)
      rw [hnil, hfitting]
      exact ⟨tail, by simp⟩

/-- A string comes back from a range or a signal of the block, as far as it fits with its
terminator, exactly if all of it does. -/
theorem string_comes_back_iff (p : SignalProcessor) (block : LinkedBlock)
    (str : StringBytes) :
    (∀ (addr : ℤ) (n : ℕ) (flags : AccessFlags) (rest : List UInt8),
      flags.string = true → 0 ≤ addr → 0 < n → n < 2147483648 →
      addr + n ≤ block.mblk.nbytes →
      (block.StringComesBack p.smallEndian addr n flags str rest ↔
        str.chars.length < n ∨ (osInt (str.chars.length + 1) - 1).toNat = n - 1)) ∧
    (∀ (signal : Signal) (stateBits : UInt8) (sz : ℕ) (noTbufCheck : Bool),
      signal.typeId = .str → 0 ≤ signal.addr →
      signal.addr + signal.n + 1 ≤ block.mblk.nbytes →
      (block.StringSignalComesBack p signal str stateBits sz noTbufCheck ↔
        str.chars.length < min signal.n sz ∨ (signal.n = 0 ∧ 0 < sz))) :=
  ⟨fun _ _ _ rest hstring _ hn hint hmax =>
      LinkedBlock.stringComesBack_iff hstring hn hint hmax str rest,
    fun _ stateBits sz noTbufCheck htype haddr hmax =>
      LinkedBlock.stringSignalComesBack_iff htype haddr hmax str stateBits sz noTbufCheck⟩

def teaString : StringBytes := ⟨[0x74, 0x65, 0x61], by simp⟩

def stringAccess : AccessFlags := ⟨true, false, 0⟩

def fourBytesSignal : Signal := ⟨0, 4, .str⟩

theorem string_comes_back_tea :
    fiveBytes.StringComesBack true 1 4 stringAccess teaString [] ∧
      fiveBytes.StringSignalComesBack littleEndianProcessor fourBytesSignal teaString 2 9
        true := by
  have h := string_comes_back_iff littleEndianProcessor fiveBytes teaString
  exact ⟨(h.1 1 4 stringAccess [] rfl (by decide) (by decide) (by decide) (by decide)).mpr
      (Or.inl (by decide)),
    (h.2 fourBytesSignal 2 9 true rfl (by decide) (by decide)).mpr (Or.inl (by decide))⟩

/-- Three bytes are too few. -/
theorem tea_not_terminated :
    ¬ fiveBytes.StringComesBack true 1 3 stringAccess teaString [] ∧
      ¬ fiveBytes.StringSignalComesBack littleEndianProcessor fourBytesSignal teaString 2 3
        true := by
  constructor
  · rintro ⟨written, hwritten, hholds, -⟩
    have hstored : fiveBytes.writeRange true 1 (teaString.chars ++ [0]) 3 stringAccess =
        some written := hwritten
    cases hstored
    have hzero := hholds.getElem?_length
    revert hzero
    decide
  · intro h
    have hzero := (h [0, 0, 0] rfl).getElem?_length
    revert hzero
    decide

end Iocom
