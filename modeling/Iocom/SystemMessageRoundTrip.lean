import Iocom.Lib.MessageParts
import Iocom.SystemMessages
import Mathlib.Data.List.TakeWhile

/-!
# What is announced is what is read

An info of a memory block is read as it was sent.  An authentication message is read back
unless it was made with a user name or a network name for which the other end has no room.
-/

namespace Iocom

open MemoryReader SwitchboxAuth

/-! ## Parts -/

section Parts

variable {σ : Type} {mem : ℕ → UInt8} {pos : ℕ} {s : σ}

theorem uintSize_le (i : ℕ) : uintSize i ≤ 4 := by
  unfold uintSize
  split_ifs <;> omega

theorem ofNat_toNat_of_lt {n : ℕ} (h : n < 0x100) : (UInt8.ofNat n).toNat = n := by
  rw [uInt8_toNat_ofNat, Nat.mod_eq_of_lt h]

theorem msgGetstr_takes {strSz : ℕ} {str : List UInt8} (h : str.length < strSz)
    (hlength : str.length < 0x100) :
    (msgGetstr strSz : MemoryReader σ (List UInt8)).Takes (msgSetstr str) str := by
  refine (takes_byte (UInt8.ofNat str.length)).bind ?_
  rw [ofNat_toNat_of_lt hlength, if_neg (by omega)]
  exact takes_bytes str

theorem msgGetstr_refuses {strSz : ℕ} {str : List UInt8} (h : strSz ≤ str.length)
    (hlength : str.length < 0x100) (hmem : HoldsFrom mem pos (msgSetstr str)) :
    ((msgGetstr strSz : MemoryReader σ (List UInt8)).read mem pos s).value = none := by
  have hfirst : HoldsFrom mem pos [UInt8.ofNat str.length] := (holdsFrom_append.mp hmem).1
  have hreach := (takes_byte (UInt8.ofNat str.length)).reaches hfirst (s := s) fun len =>
    if strSz ≤ len.toNat then .refuse len.toNat else .bytes len.toNat
  rw [ofNat_toNat_of_lt hlength, if_pos h] at hreach
  exact hreach.value

theorem twoBytes_eq {i : ℕ} (hi : i < 0x10000) :
    (UInt8.ofNat i).toNat + 0x100 * (UInt8.ofNat (i / 0x100)).toNat = i := by
  rw [uInt8_toNat_ofNat, uInt8_toNat_ofNat]
  omega

theorem fourBytes_eq {i : ℕ} (hi : i < 0x100000000) :
    (UInt8.ofNat i).toNat + 0x100 * (UInt8.ofNat (i / 0x100)).toNat +
      0x10000 * (UInt8.ofNat (i / 0x10000)).toNat +
      0x1000000 * (UInt8.ofNat (i / 0x1000000)).toNat = i := by
  simp only [uInt8_toNat_ofNat]
  omega

theorem msgGetUint_takes {i : ℕ} (hi : i < 0x100000000) :
    (msgGetUint (isTwoBytes i) (isFourBytes i) : MemoryReader σ ℕ).Takes (uintBytes i) i := by
  unfold uintBytes isTwoBytes isFourBytes
  by_cases hone : i < 0x100
  · have hfour : ¬ 0x10000 ≤ i := by omega
    have htwo : ¬ 0x100 ≤ i := by omega
    have htakes : (msgGetUint false false : MemoryReader σ ℕ).Takes [UInt8.ofNat i]
        (UInt8.ofNat i).toNat := (takes_byte _).bind (takes_pure _)
    rw [ofNat_toNat_of_lt hone] at htakes
    simpa [hone, hfour, htwo] using htakes
  by_cases htwo : i < 0x10000
  · have hfour : ¬ 0x10000 ≤ i := by omega
    have hge : 0x100 ≤ i := by omega
    have htakes : (msgGetUint true false : MemoryReader σ ℕ).Takes
        [UInt8.ofNat i, UInt8.ofNat (i / 0x100)]
        ((UInt8.ofNat i).toNat + 0x100 * (UInt8.ofNat (i / 0x100)).toNat) :=
      (takes_byte _).bind ((takes_byte _).bind (takes_pure _))
    rw [twoBytes_eq htwo] at htakes
    simpa [hone, htwo, hfour, hge] using htakes
  · have hfour : 0x10000 ≤ i := by omega
    have htakes : (msgGetUint false true : MemoryReader σ ℕ).Takes
        [UInt8.ofNat i, UInt8.ofNat (i / 0x100), UInt8.ofNat (i / 0x10000),
          UInt8.ofNat (i / 0x1000000)]
        ((UInt8.ofNat i).toNat + 0x100 * (UInt8.ofNat (i / 0x100)).toNat +
          0x10000 * (UInt8.ofNat (i / 0x10000)).toNat +
          0x1000000 * (UInt8.ofNat (i / 0x1000000)).toNat) :=
      (takes_byte _).bind ((takes_byte _).bind
        ((takes_byte _).bind ((takes_byte _).bind (takes_pure _))))
    rw [fourBytes_eq hi] at htakes
    simpa [hone, htwo, hfour] using htakes

theorem msgGetUshort_takes {i : ℕ} (hi : i < 0x10000) :
    (msgGetUshort (msgSetUshort i).2 : MemoryReader σ ℕ).Takes (msgSetUshort i).1 i := by
  unfold msgSetUshort
  by_cases hone : i < 256
  · have htakes : (msgGetUshort false : MemoryReader σ ℕ).Takes [UInt8.ofNat i]
        (UInt8.ofNat i).toNat := (takes_byte _).bind (takes_pure _)
    rw [ofNat_toNat_of_lt hone] at htakes
    simpa [hone] using htakes
  · have htakes : (msgGetUshort true : MemoryReader σ ℕ).Takes
        [UInt8.ofNat i, UInt8.ofNat (i / 0x100)]
        ((UInt8.ofNat i).toNat + 0x100 * (UInt8.ofNat (i / 0x100)).toNat) :=
      (takes_byte _).bind ((takes_byte _).bind (takes_pure _))
    rw [twoBytes_eq hi] at htakes
    simpa [hone] using htakes

theorem msgSetFlaggedUint_eq (i : ℕ) (flags twoBytesFlag fourBytesFlag : UInt8) :
    msgSetFlaggedUint i flags twoBytesFlag fourBytesFlag =
      (uintBytes i, (if isTwoBytes i then flags ||| twoBytesFlag else flags) |||
        if isFourBytes i then flags ||| fourBytesFlag else flags) := by
  unfold msgSetFlaggedUint
  rw [msgSetUint_eq]

end Parts

variable {build : MessageBuild}

theorem MessageBuild.name_le (build : MessageBuild) : build.sizes.name ≤ 16 := by
  unfold MessageBuild.sizes
  dsimp only
  split_ifs <;> omega

theorem BufferString.length_lt {sz n : ℕ} (str : BufferString sz) (h : sz ≤ n) :
    str.chars.length < n :=
  lt_of_lt_of_le str.fits h

/-! ## Frames -/

section Frames

variable {checksum : List UInt8 → ℕ} {socket : Bool} {frameNr mblkId : ℕ} {content : List UInt8}

theorem finishSystemFrame_eq :
    finishSystemFrame checksum socket frameNr mblkId content =
      (systemFrame frameNr mblkId content).encode checksum socket :=
  completeFrame_eq_encode socket (systemFrame frameNr mblkId content)

theorem finishSystemFrame_length :
    (finishSystemFrame checksum socket frameNr mblkId content).length =
      headerSize socket mblkId 0 + content.length := by
  rw [finishSystemFrame_eq, Frame.encode_length]
  rfl

/-- The number in the place of the identifier and the content are those of the frame. -/
theorem parse_finishSystemFrame (hmblkId : mblkId < 0x100000000)
    (hcontent : content.length < if socket then 0x10000 else 0x100) :
    (parseFrame socket (finishSystemFrame checksum socket frameNr mblkId content)).mblkId = mblkId ∧
      (parseFrame socket (finishSystemFrame checksum socket frameNr mblkId content)).payload =
        content := by
  rw [finishSystemFrame_eq]
  unfold Frame.encode
  generalize (if socket then 0 else _) = crc
  generalize hframe : systemFrame frameNr mblkId content = frame
  have hid : frame.mblkId = mblkId := by rw [← hframe]; rfl
  have haddr : frame.addr = 0 := by rw [← hframe]; rfl
  have hpayload : frame.payload = content := by rw [← hframe]; rfl
  obtain ⟨hflags, hextra, hdata⟩ :=
    readHeader_encodeWith frame crc (headerFieldsEnd_le socket crc frame)
  rw [Frame.encodeWith_take] at hflags hextra hdata
  unfold parseFrame
  dsimp only
  rw [hflags, hextra, hdata (by rw [hpayload]; exact hcontent),
    decodeFrame_encodeWith crc _ (by rw [hid]; exact hmblkId) (by rw [haddr]; decide)]
  exact ⟨hid, by rw [List.take_length, hpayload]⟩

end Frames

/-! ## Memory block infos -/

/-- The flags of an info, put together as the message is made. -/
theorem infoFlags_bits (d2 d4 n2 n4 f2 named mblkNamed : Bool) :
    let deviceNr : UInt8 := (if d2 then 0 ||| 2 else 0) ||| if d4 then 0 ||| 4 else 0
    let nbytes := (if n2 then deviceNr ||| 8 else deviceNr) |||
      if n4 then deviceNr ||| 16 else deviceNr
    let flags := if f2 then nbytes ||| 32 else nbytes
    let names := if named then flags ||| 64 else flags
    let iflags := if mblkNamed then names ||| 128 else names
    iflags.toNat.testBit 1 = d2 ∧ iflags.toNat.testBit 2 = d4 ∧ iflags.toNat.testBit 3 = n2 ∧
      iflags.toNat.testBit 4 = n4 ∧ iflags.toNat.testBit 5 = f2 ∧
      iflags.toNat.testBit 6 = named ∧ iflags.toNat.testBit 7 = mblkNamed := by
  revert d2 d4 n2 n4 f2 named mblkNamed
  decide

namespace DescribedMblk

variable {checksum : List UInt8 → ℕ} {socket : Bool} {frameNr autoDeviceNr : ℕ}

theorem iflags_bits (mblk : DescribedMblk build) (autoDeviceNr : ℕ) :
    let deviceNr := mblk.sentDeviceNr autoDeviceNr
    let nbytes := mblk.nbytes.toUInt32.toNat
    let bits := (mblk.iflags autoDeviceNr).toNat
    bits.testBit 1 = isTwoBytes deviceNr ∧ bits.testBit 2 = isFourBytes deviceNr ∧
      bits.testBit 3 = isTwoBytes nbytes ∧ bits.testBit 4 = isFourBytes nbytes ∧
      bits.testBit 5 = (msgSetUshort mblk.flags.toUInt16.toNat).2 ∧
      bits.testBit 6 = mblk.named ∧ bits.testBit 7 = mblk.mblkNamed := by
  unfold iflags
  simp only [msgSetFlaggedUint_eq]
  exact infoFlags_bits _ _ _ _ _ _ _

theorem sentDeviceNr_lt (mblk : DescribedMblk build) :
    mblk.sentDeviceNr autoDeviceNr < 0x100000000 := by
  unfold sentDeviceNr
  split_ifs
  · decide
  · exact mblk.deviceNr.toNat_lt

theorem readDeviceNames_takes {σ : Type} (mblk : DescribedMblk build) :
    (MemoryReader.optional mblk.named (SystemFrameContext.readDeviceNames build.sizes) ([], []) :
      MemoryReader σ (List UInt8 × List UInt8)).Takes
      (if mblk.named then msgSetstr mblk.deviceName.chars ++ msgSetstr mblk.networkName.chars
        else [])
      (if mblk.named then (mblk.deviceName.chars, mblk.networkName.chars) else ([], [])) := by
  have hname := build.name_le
  refine Takes.optional mblk.named fun _ => ?_
  refine (msgGetstr_takes mblk.deviceName.fits (mblk.deviceName.length_lt (by omega))).bind ?_
  exact (msgGetstr_takes mblk.networkName.fits
    (mblk.networkName.length_lt (show 24 ≤ 0x100 by decide))).bind_pure _

theorem chars_of_named {sz : ℕ} (str : BufferString sz) :
    (if !str.chars.isEmpty then str.chars else []) = str.chars := by
  cases str.chars <;> rfl

theorem message_eq (mblk : DescribedMblk build) (autoDeviceNr : ℕ) :
    mblk.message autoDeviceNr =
      ⟨mblk.sentDeviceNr autoDeviceNr, mblk.nbytes.toUInt32.toNat, mblk.flags.toUInt16.toNat,
        (if mblk.named then (mblk.deviceName.chars, mblk.networkName.chars) else ([], [])).1,
        (if mblk.named then (mblk.deviceName.chars, mblk.networkName.chars) else ([], [])).2,
        if mblk.mblkNamed then mblk.mblkName.chars else []⟩ := by
  have hdevice := chars_of_named mblk.deviceName
  have hmblk := chars_of_named mblk.mblkName
  unfold message named mblkNamed
  rw [apply_ite Prod.fst, apply_ite Prod.snd, hdevice, hmblk]

theorem readMbinfo_takes {σ : Type} (mblk : DescribedMblk build) (autoDeviceNr : ℕ) :
    (SystemFrameContext.readMbinfo build.sizes : MemoryReader σ MbinfoMessage).Takes
      ((mblk.infoContent autoDeviceNr).drop 1) (mblk.message autoDeviceNr) := by
  have hname := build.name_le
  obtain ⟨hd2, hd4, hn2, hn4, hf2, hnamed, hmblkNamed⟩ := mblk.iflags_bits autoDeviceNr
  unfold infoContent SystemFrameContext.readMbinfo
  rw [List.drop_one, List.tail_cons, msgSetFlaggedUint_eq, msgSetFlaggedUint_eq]
  refine (takes_byte (mblk.iflags autoDeviceNr)).bind ?_
  rw [hd2, hd4, hn2, hn4, hf2, hnamed, hmblkNamed]
  refine (msgGetUint_takes mblk.sentDeviceNr_lt).bind ?_
  refine (msgGetUint_takes mblk.nbytes.toUInt32.toNat_lt).bind ?_
  refine (msgGetUshort_takes mblk.flags.toUInt16.toNat_lt).bind ?_
  refine mblk.readDeviceNames_takes.bind ?_
  rw [mblk.message_eq autoDeviceNr]
  exact (Takes.optional mblk.mblkNamed fun _ =>
    msgGetstr_takes mblk.mblkName.fits (mblk.mblkName.length_lt (by omega))).bind_pure _

theorem msgSetUshort_length_le (i : ℕ) : (msgSetUshort i).1.length ≤ 2 := by
  unfold msgSetUshort
  split_ifs <;> simp

theorem infoContent_length_le (mblk : DescribedMblk build) (autoDeviceNr : ℕ) :
    (mblk.infoContent autoDeviceNr).length ≤ 68 := by
  have hname := build.name_le
  have hdeviceName := mblk.deviceName.fits
  have hnetworkName : mblk.networkName.chars.length < 24 := mblk.networkName.fits
  have hmblkName := mblk.mblkName.fits
  have hdeviceNr := uintSize_le (mblk.sentDeviceNr autoDeviceNr)
  have hnbytes := uintSize_le mblk.nbytes.toUInt32.toNat
  have hflags := msgSetUshort_length_le mblk.flags.toUInt16.toNat
  unfold infoContent
  rw [msgSetFlaggedUint_eq, msgSetFlaggedUint_eq]
  cases mblk.named <;> cases mblk.mblkNamed <;> simp [msgSetstr] <;> omega

/-- The frame fits the frame buffer of the connection.  The other end takes the identifier
and the content out of it, reads every field of the info up to the end, and goes on with
them. -/
structure RoundTrips (checksum : List UInt8 → ℕ) (socket : Bool) (frameNr autoDeviceNr : ℕ)
    (mblk : DescribedMblk build) : Prop where
  fits : (mblk.makeMblkInfoFrame checksum socket frameNr autoDeviceNr).length ≤
    build.frameSz socket
  mblkId : (parseFrame socket
    (mblk.makeMblkInfoFrame checksum socket frameNr autoDeviceNr)).mblkId = mblk.mblkId.toNat
  payload : (parseFrame socket
    (mblk.makeMblkInfoFrame checksum socket frameNr autoDeviceNr)).payload =
      mblk.infoContent autoDeviceNr
  fields : ∀ {σ : Type}, (SystemFrameContext.readMbinfo build.sizes :
    MemoryReader σ MbinfoMessage).Takes
      ((mblk.infoContent autoDeviceNr).drop 1) (mblk.message autoDeviceNr)
  received : ∀ {ν : Type} (ctx : SystemFrameContext ν), ctx.sizes = build.sizes →
    ∀ mem, HoldsMessage mem (mblk.infoContent autoDeviceNr) → ∀ s,
      Reaches mem (ctx.processReceivedSystemFrame mblk.mblkId.toNat) 0 s
        (modifyState (ctx.mbinfoReceived mblk.mblkId.toNat (mblk.message autoDeviceNr)))
        (mblk.infoContent autoDeviceNr).length s

theorem roundTrips (checksum : List UInt8 → ℕ) (socket : Bool) (frameNr autoDeviceNr : ℕ)
    (mblk : DescribedMblk build) : mblk.RoundTrips checksum socket frameNr autoDeviceNr := by
  have hlength := mblk.infoContent_length_le autoDeviceNr
  have hheader := headerSize_le socket mblk.mblkId.toNat 0
  have hcontent : (mblk.infoContent autoDeviceNr).length <
      if socket then 0x10000 else 0x100 := by
    split_ifs <;> omega
  have hparse := @parse_finishSystemFrame checksum socket frameNr _ _ mblk.mblkId.toNat_lt
    hcontent
  refine ⟨?_, hparse.1, hparse.2, mblk.readMbinfo_takes autoDeviceNr, ?_⟩
  · unfold makeMblkInfoFrame MessageBuild.frameSz
    rw [finishSystemFrame_length]
    split_ifs <;> omega
  · intro ν ctx hsizes mem hmem s
    have hend : 0 + [(1 : UInt8)].length + ((mblk.infoContent autoDeviceNr).drop 1).length =
        (mblk.infoContent autoDeviceNr).length := by
      rw [Nat.zero_add, ← List.length_append]
      rfl
    obtain ⟨htype, hrest⟩ := holdsFrom_append.mp
      (show HoldsFrom mem 0 ([1] ++ (mblk.infoContent autoDeviceNr).drop 1) from hmem.holdsFrom)
    have hmbinfo : (SystemFrameContext.readMbinfo ctx.sizes :
        MemoryReader (SystemFrameEnd ν) MbinfoMessage).Takes
          ((mblk.infoContent autoDeviceNr).drop 1) (mblk.message autoDeviceNr) := by
      rw [hsizes]
      exact mblk.readMbinfo_takes autoDeviceNr
    have hread := hmbinfo.reaches (s := s) hrest fun msg =>
      modifyState (ctx.mbinfoReceived mblk.mblkId.toNat msg)
    rw [hend] at hread
    exact ((takes_byte 1).reaches htype _).trans hread

end DescribedMblk

/-! ## Authentication messages -/

/-- The flags of an authentication message, put together as the message is made. -/
theorem authFlags_bits' (nr2 nr4 id cert up bidir cloud : Bool) :
    let deviceNr : UInt8 := (if nr2 then 0 ||| 32 else 0) ||| if nr4 then 0 ||| 64 else 0
    let flags := if id then deviceNr ||| 2 else deviceNr
    let flags := if cert then flags ||| 4 else flags
    let flags := if up then flags ||| 16 else flags
    let flags := if bidir then flags ||| 128 else flags
    let flags := if cloud then flags ||| 8 else flags
    flags.toNat.testBit 1 = id ∧ flags.toNat.testBit 2 = cert ∧ flags.toNat.testBit 3 = cloud ∧
      flags.toNat.testBit 4 = up ∧ flags.toNat.testBit 5 = nr2 ∧ flags.toNat.testBit 6 = nr4 ∧
      flags.toNat.testBit 7 = bidir := by
  revert nr2 nr4 id cert up bidir cloud
  decide

namespace AuthenticatingEnd

variable (e : AuthenticatingEnd build)

structure TellsFlags (authFlags : UInt8) : Prop where
  uniqueId : authFlags.toNat.testBit 1 = e.sentUniqueId.isSome
  certificateRequest : authFlags.toNat.testBit 2 = e.requestsCertificate
  cloudConnection : authFlags.toNat.testBit 3 = e.cloudConnection
  connectUp : authFlags.toNat.testBit 4 = e.connectUp
  bidirectionalMblks : authFlags.toNat.testBit 7 = e.bidirectionalMblks

theorem authFlags_bits :
    e.TellsFlags e.authFlags ∧ e.authFlags.toNat.testBit 5 = isTwoBytes e.sentDeviceNr ∧
      e.authFlags.toNat.testBit 6 = isFourBytes e.sentDeviceNr := by
  unfold authFlags
  rw [msgSetFlaggedUint_eq]
  obtain ⟨h1, h2, h3, h4, h5, h6, h7⟩ :=
    authFlags_bits' (isTwoBytes e.sentDeviceNr) (isFourBytes e.sentDeviceNr)
      e.sentUniqueId.isSome e.requestsCertificate e.connectUp e.bidirectionalMblks
      e.cloudConnection
  exact ⟨⟨h1, h2, h3, h4, h7⟩, h5, h6⟩

theorem sentDeviceNr_lt : e.sentDeviceNr < 0x100000000 := by
  unfold sentDeviceNr
  split_ifs
  · decide
  · exact e.deviceNr.toUInt32.toNat_lt
  · decide

theorem userName_length_lt : e.userName.length < 0x100 := by
  have hname := build.name_le
  have huser : e.userOverride.chars.length < build.sizes.name + 24 := e.userOverride.fits
  have hdevice := e.deviceName.fits
  have hle := (List.takeWhile_prefix (fun c => decide (c ≠ 46))
    (l := e.userOverride.chars)).length_le
  unfold userName
  split_ifs <;> omega

theorem sentNetworkName_length_lt : e.sentNetworkName.length < 0x100 := by
  have hname := build.name_le
  have huser : e.userOverride.chars.length < build.sizes.name + 24 := e.userOverride.fits
  have hnetwork : e.networkName.chars.length < 24 := e.networkName.fits
  have hle := (List.dropWhile_suffix (fun c => decide (c ≠ 46))
    (l := e.userOverride.chars)).length_le
  unfold sentNetworkName
  split_ifs
  · rw [List.length_drop]
    omega
  · omega

theorem sentPassword_length_lt : e.sentPassword.length < 46 := by
  unfold sentPassword
  split_ifs
  · exact e.password.fits
  · exact e.passwordOverride.fits
  · decide

theorem uniqueId_takes {σ : Type} (absent : List UInt8) :
    (MemoryReader.optional e.sentUniqueId.isSome (.bytes build.sizes.uniqueIdBin) absent :
      MemoryReader σ (List UInt8)).Takes (e.sentUniqueId.getD []) (e.sentUniqueId.getD absent) := by
  unfold sentUniqueId
  split_ifs
  · cases e.uniqueId with
    | none => exact takes_pure absent
    | some id =>
        have hbytes : (MemoryReader.bytes id.1.length : MemoryReader σ (List UInt8)).Takes
            id.1 id.1 := takes_bytes id.1
        rw [id.2] at hbytes
        exact hbytes
  · exact takes_pure absent

theorem numberedUserName_eq {ν : Type} (ctx : SystemFrameContext ν)
    (hsizes : ctx.sizes = build.sizes) :
    ctx.numberedUserName e.userName e.sentDeviceNr = e.user.userName := by
  unfold SystemFrameContext.numberedUserName user
  dsimp only
  by_cases hnr : e.sentDeviceNr = 0
  · rw [if_pos hnr, if_pos hnr]
  rw [if_neg hnr, if_neg hnr]
  have hdevice : e.userName = e.deviceName.chars := by
    unfold userName
    rw [if_neg]
    intro hoverridden
    exact hnr (by rw [sentDeviceNr, if_pos hoverridden])
  have hplain : (e.deviceName.chars.takeWhile fun c => decide (c ≠ 0)) = e.deviceName.chars := by
    rw [List.takeWhile_eq_self_iff]
    exact fun c hc => decide_eq_true fun h => e.deviceName.nul_notMem (h ▸ hc)
  have hdigits : (Nat.toDigits 10 e.sentDeviceNr).length ≤ 10 :=
    (Nat.length_toDigits_le_iff (by decide) (by decide)).mpr
      (lt_trans e.sentDeviceNr_lt (by decide))
  rw [hdevice, hplain, List.take_of_length_le]
  have hfits := e.deviceName.fits
  rw [List.length_append, List.length_map, hsizes, MessageSizes.deviceId]
  omega

end AuthenticatingEnd

namespace SystemFrameContext

variable {ν : Type}

/-- `ioc_process_received_authentication_message` from the network name on. -/
def readNetworkAndPassword (ctx : SystemFrameContext ν) (mblkId : ℕ) (authFlags : UInt8)
    (userName : List UInt8) (deviceNr : ℕ) : MemoryReader (SystemFrameEnd ν) Unit := do
  let networkName ← msgGetstr ctx.sizes.networkName
  let password ← msgGetstr ctx.sizes.password
  .modifyState (limitFrameSize mblkId)
  ctx.acceptUser
    ⟨ctx.numberedUserName userName deviceNr, networkName, password, authFlags⟩

def readUser (ctx : SystemFrameContext ν) (mblkId : ℕ) (authFlags : UInt8) :
    MemoryReader (SystemFrameEnd ν) Unit := do
  let userName ← msgGetstr ctx.sizes.deviceId
  let deviceNr ← msgGetUint (authFlags.toNat.testBit 5) (authFlags.toNat.testBit 6)
  let uniqueId ←
    .optional (authFlags.toNat.testBit 1) (.bytes ctx.sizes.uniqueIdBin)
      (List.replicate ctx.sizes.uniqueIdBin 0)
  .modifyState fun s => { s with uniqueIdBin := uniqueId }
  ctx.readNetworkAndPassword mblkId authFlags userName deviceNr

theorem reaches_readUser {ctx : SystemFrameContext ν} {mem : ℕ → UInt8} {mblkId : ℕ}
    {authFlags : UInt8} (s : SystemFrameEnd ν) (hmem : HoldsFrom mem 0 [2, authFlags]) :
    Reaches mem (ctx.processReceivedSystemFrame mblkId) 0 s (ctx.readUser mblkId authFlags) 2
      (setAuthFlags authFlags s) := by
  obtain ⟨htype, hflags⟩ :=
    holdsFrom_append.mp (show HoldsFrom mem 0 ([2] ++ [authFlags]) from hmem)
  refine Reaches.trans ((takes_byte 2).reaches htype _) ?_
  refine Reaches.trans ((takes_byte authFlags).reaches hflags _) ?_
  exact reaches_modifyState _ _

theorem acceptUser_value {ctx : SystemFrameContext ν} {user : ReceivedUser}
    {mem : ℕ → UInt8} {pos : ℕ} {s : SystemFrameEnd ν}
    (h : s.con.security.authorizationFunc = false) :
    ((ctx.acceptUser user).read mem pos s).value = some () := by
  have hstate : ((getState : MemoryReader (SystemFrameEnd ν) _).read mem pos s).value = some s :=
    rfl
  unfold acceptUser
  rw [bind_of_some _ hstate, h]
  rfl

end SystemFrameContext

namespace AuthenticatingEnd

variable (e : AuthenticatingEnd build) {ν : Type}

def receivedState (s : SystemFrameEnd ν) : SystemFrameEnd ν :=
  SystemFrameContext.limitFrameSize (build.frameSz e.socket)
    { SystemFrameContext.setAuthFlags e.authFlags s with
      uniqueIdBin := e.sentUniqueId.getD (List.replicate build.sizes.uniqueIdBin 0) }

/-- The frame fits the frame buffer of the connection.  The other end takes the frame size
and the content out of it, and reads the user whom the message tells, up to the end. -/
structure RoundTrips (checksum : List UInt8 → ℕ) (frameNr : ℕ) : Prop where
  fits : (e.makeAuthenticationMessage checksum frameNr).length ≤ build.frameSz e.socket
  frameSz : (parseFrame e.socket (e.makeAuthenticationMessage checksum frameNr)).mblkId =
    build.frameSz e.socket
  payload : (parseFrame e.socket (e.makeAuthenticationMessage checksum frameNr)).payload =
    e.content
  flags : e.TellsFlags e.user.flags
  received : ∀ {ν : Type} (ctx : SystemFrameContext ν), ctx.sizes = build.sizes →
    ∀ mem, HoldsMessage mem e.content → ∀ s,
      Reaches mem (ctx.processReceivedSystemFrame (build.frameSz e.socket)) 0 s
        (ctx.acceptUser e.user) e.content.length (e.receivedState s)

/-- The names of the message have room at the other end, and the frame in its buffer. -/
structure Fits : Prop where
  userName : e.userName.length < build.sizes.deviceId
  networkName : e.sentNetworkName.length < build.sizes.networkName
  frame : headerSize e.socket (build.frameSz e.socket) 0 +
    (5 + e.userName.length + uintSize e.sentDeviceNr + (e.sentUniqueId.getD []).length +
      e.sentNetworkName.length + e.sentPassword.length) ≤ build.frameSz e.socket

theorem content_length : e.content.length =
    5 + e.userName.length + uintSize e.sentDeviceNr + (e.sentUniqueId.getD []).length +
      e.sentNetworkName.length + e.sentPassword.length := by
  unfold content
  rw [msgSetFlaggedUint_eq]
  simp [msgSetstr]
  omega

theorem frame_length (checksum : List UInt8 → ℕ) (frameNr : ℕ) :
    (e.makeAuthenticationMessage checksum frameNr).length =
      headerSize e.socket (build.frameSz e.socket) 0 + e.content.length :=
  finishSystemFrame_length

section Received

variable {ctx : SystemFrameContext ν} (hsizes : ctx.sizes = build.sizes) {mem : ℕ → UInt8}
  {pos : ℕ} (mblkId : ℕ) (s : SystemFrameEnd ν)

def networkAndPassword : List UInt8 := msgSetstr e.sentNetworkName ++ msgSetstr e.sentPassword

def userPart : List UInt8 :=
  msgSetstr e.userName ++ (uintBytes e.sentDeviceNr ++ (e.sentUniqueId.getD [] ++
    e.networkAndPassword))

theorem content_eq : e.content = [2, e.authFlags] ++ e.userPart := by
  unfold content
  rw [msgSetFlaggedUint_eq]
  rfl

theorem content_parts (hmem : HoldsMessage mem e.content) :
    HoldsFrom mem 0 [2, e.authFlags] ∧ HoldsFrom mem 2 e.userPart :=
  holdsFrom_append.mp (e.content_eq ▸ hmem.holdsFrom)

include hsizes

theorem reaches_readNetworkAndPassword (hmem : HoldsFrom mem pos e.userPart)
    (huser : e.userName.length < build.sizes.deviceId) :
    ∃ next, Reaches mem (ctx.readUser mblkId e.authFlags) pos s
        (ctx.readNetworkAndPassword mblkId e.authFlags e.userName e.sentDeviceNr) next
        { s with uniqueIdBin := e.sentUniqueId.getD (List.replicate build.sizes.uniqueIdBin 0) } ∧
      HoldsFrom mem next e.networkAndPassword ∧
      next + e.networkAndPassword.length = pos + e.userPart.length := by
  obtain ⟨hname, hrest⟩ := holdsFrom_append.mp hmem
  obtain ⟨hnr, hrest⟩ := holdsFrom_append.mp hrest
  obtain ⟨hid, hrest⟩ := holdsFrom_append.mp hrest
  obtain ⟨hflags, hnr2, hnr4⟩ := e.authFlags_bits
  refine ⟨_, ?_, hrest, by simp [userPart]; omega⟩
  unfold SystemFrameContext.readUser
  rw [hsizes, hflags.uniqueId, hnr2, hnr4]
  refine Reaches.trans ((msgGetstr_takes huser e.userName_length_lt).reaches hname _) ?_
  refine Reaches.trans ((msgGetUint_takes e.sentDeviceNr_lt).reaches hnr _) ?_
  refine Reaches.trans ((e.uniqueId_takes _).reaches hid _) ?_
  exact reaches_modifyState _ _

theorem reaches_acceptUser (hmem : HoldsFrom mem pos e.networkAndPassword)
    (hnetwork : e.sentNetworkName.length < build.sizes.networkName) :
    Reaches mem (ctx.readNetworkAndPassword mblkId e.authFlags e.userName e.sentDeviceNr) pos s
      (ctx.acceptUser e.user) (pos + e.networkAndPassword.length)
      (SystemFrameContext.limitFrameSize mblkId s) := by
  obtain ⟨hname, hpassword⟩ := holdsFrom_append.mp hmem
  have hend : pos + (msgSetstr e.sentNetworkName).length + (msgSetstr e.sentPassword).length =
      pos + e.networkAndPassword.length := by
    rw [networkAndPassword, List.length_append, Nat.add_assoc]
  have huser : e.user = ⟨ctx.numberedUserName e.userName e.sentDeviceNr, e.sentNetworkName,
      e.sentPassword, e.authFlags⟩ := by
    rw [e.numberedUserName_eq ctx hsizes]
    rfl
  unfold SystemFrameContext.readNetworkAndPassword
  rw [hsizes, huser, ← hend]
  refine Reaches.trans
    ((msgGetstr_takes hnetwork e.sentNetworkName_length_lt).reaches hname _) ?_
  refine Reaches.trans ((msgGetstr_takes (show _ < 46 from e.sentPassword_length_lt)
    (lt_trans e.sentPassword_length_lt (by decide))).reaches hpassword _) ?_
  exact reaches_modifyState _ _

theorem value_of_not_fits (hmem : HoldsMessage mem e.content)
    (hnames : ¬ (e.userName.length < build.sizes.deviceId ∧
      e.sentNetworkName.length < build.sizes.networkName)) :
    ((ctx.processReceivedSystemFrame mblkId).read mem 0 s).value = none := by
  obtain ⟨hhead, huser⟩ := e.content_parts hmem
  rw [(SystemFrameContext.reaches_readUser s hhead).value]
  by_cases hfits : e.userName.length < build.sizes.deviceId
  · obtain ⟨next, hreach, hrest, -⟩ := e.reaches_readNetworkAndPassword hsizes mblkId
      (SystemFrameContext.setAuthFlags e.authFlags s) huser hfits
    rw [hreach.value]
    refine value_bind_of_none _ (msgGetstr_refuses ?_ e.sentNetworkName_length_lt
      (holdsFrom_append.mp hrest).1)
    rw [hsizes]
    exact Nat.le_of_not_lt fun h => hnames ⟨hfits, h⟩
  · refine value_bind_of_none _ (msgGetstr_refuses ?_ e.userName_length_lt
      (holdsFrom_append.mp huser).1)
    rw [hsizes]
    exact Nat.le_of_not_lt hfits

/-- A user name and a network name with room are read, with all that is between them. -/
theorem reaches_of_fits (hmem : HoldsMessage mem e.content)
    (huserName : e.userName.length < build.sizes.deviceId)
    (hnetwork : e.sentNetworkName.length < build.sizes.networkName) :
    Reaches mem (ctx.processReceivedSystemFrame (build.frameSz e.socket)) 0 s
      (ctx.acceptUser e.user) e.content.length (e.receivedState s) := by
  obtain ⟨hhead, huser⟩ := e.content_parts hmem
  obtain ⟨next, hreach, hrest, hnext⟩ := e.reaches_readNetworkAndPassword hsizes
    (build.frameSz e.socket) (SystemFrameContext.setAuthFlags e.authFlags s) huser huserName
  have hend : next + e.networkAndPassword.length = e.content.length := by
    rw [hnext, e.content_eq, List.length_append]
    rfl
  have haccept := e.reaches_acceptUser hsizes (build.frameSz e.socket)
    { SystemFrameContext.setAuthFlags e.authFlags s with
      uniqueIdBin := e.sentUniqueId.getD (List.replicate build.sizes.uniqueIdBin 0) } hrest hnetwork
  rw [hend] at haccept
  exact ((SystemFrameContext.reaches_readUser s hhead).trans hreach).trans haccept

end Received

theorem security_receivedState (s : SystemFrameEnd ν) :
    (e.receivedState s).con.security = s.con.security :=
  (SystemFrameContext.limitFrameSize_unchanged _ _).security

variable (checksum : List UInt8 → ℕ) (frameNr : ℕ)

theorem RoundTrips.to_fits {e : AuthenticatingEnd build} (h : e.RoundTrips checksum frameNr) :
    e.Fits := by
  have hframe := h.fits
  rw [e.frame_length, e.content_length] at hframe
  -- an end without user authorization accepts what it can read
  let ctx : SystemFrameContext Unit := { plainFrameContext with sizes := build.sizes }
  have hmem := payloadMemory_holds e.content fun _ => 0
  have hreach := h.received ctx rfl _ hmem emptyFrameEnd
  have haccept := hreach.value.trans (SystemFrameContext.acceptUser_value
    (by rw [e.security_receivedState]; rfl))
  have hnames : e.userName.length < build.sizes.deviceId ∧
      e.sentNetworkName.length < build.sizes.networkName := by
    by_contra hnot
    have hrefused : ((ctx.processReceivedSystemFrame (build.frameSz e.socket)).read
        (payloadMemory e.content fun _ => 0) 0 emptyFrameEnd).value = none :=
      e.value_of_not_fits rfl (build.frameSz e.socket) emptyFrameEnd hmem hnot
    rw [haccept] at hrefused
    cases hrefused
  exact ⟨hnames.1, hnames.2, hframe⟩

theorem Fits.roundTrips {e : AuthenticatingEnd build} (h : e.Fits) :
    e.RoundTrips checksum frameNr := by
  have hfits : (e.makeAuthenticationMessage checksum frameNr).length ≤ build.frameSz e.socket := by
    rw [e.frame_length, e.content_length]
    exact h.frame
  have hle : build.frameSz e.socket ≤ if e.socket then 1392 else 96 := by
    unfold MessageBuild.frameSz
    split_ifs <;> omega
  have hcontent : e.content.length < if e.socket then 0x10000 else 0x100 := by
    rw [e.frame_length] at hfits
    split_ifs at hle ⊢ <;> omega
  have hframeSz : build.frameSz e.socket < 0x100000000 := by
    split_ifs at hle <;> omega
  have hparse := @parse_finishSystemFrame checksum e.socket frameNr _ _ hframeSz hcontent
  exact ⟨hfits, hparse.1, hparse.2, e.authFlags_bits.1,
    fun ctx hsizes _ hmem s => e.reaches_of_fits hsizes s hmem h.userName h.networkName⟩

end AuthenticatingEnd

/-- An info of a memory block always arrives as it was sent.  An authentication message does
exactly if its user name and its network name have room at the other end and its frame has
room in the frame buffer. -/
theorem system_messages_round_trip (build : MessageBuild) (checksum : List UInt8 → ℕ)
    (frameNr : ℕ) :
    (∀ socket autoDeviceNr (mblk : DescribedMblk build),
      mblk.RoundTrips checksum socket frameNr autoDeviceNr) ∧
    ∀ e : AuthenticatingEnd build, e.RoundTrips checksum frameNr ↔ e.Fits := by
  refine ⟨fun socket autoDeviceNr mblk => mblk.roundTrips checksum socket frameNr autoDeviceNr,
    fun e => ⟨?_, ?_⟩⟩
  · exact AuthenticatingEnd.RoundTrips.to_fits checksum frameNr
  · exact AuthenticatingEnd.Fits.roundTrips checksum frameNr

theorem nul_notMem_nil : (0 : UInt8) ∉ ([] : List UInt8) := List.not_mem_nil

def BufferString.empty {sz : ℕ} (h : 0 < sz) : BufferString sz := ⟨[], h, nul_notMem_nil⟩

theorem longUser_name : 0 < (⟨false, false, 16⟩ : MessageBuild).sizes.name := by decide

theorem longUser_networkName : 0 < (⟨false, false, 16⟩ : MessageBuild).sizes.networkName := by
  decide

theorem longUser_password : 0 < (⟨false, false, 16⟩ : MessageBuild).sizes.password := by decide

def longName : List UInt8 := List.replicate 30 117

theorem longName_length : longName.length < 40 := by decide

theorem longName_nul : 0 ∉ longName := by decide

def longUser : AuthenticatingEnd ⟨false, false, 16⟩ where
  deviceName := .empty longUser_name
  deviceNr := 1
  networkName := .empty longUser_networkName
  password := .empty longUser_password
  uniqueId := none
  noCertChain := false
  userOverride := ⟨longName, longName_length, longName_nul⟩
  passwordOverride := .empty longUser_password
  socket := true
  listener := false
  secureConnection := false
  connectUp := true
  bidirectionalMblks := false
  cloudConnection := false

/-- The other end has no room for that user name. -/
theorem long_user_name_refused : ¬ longUser.RoundTrips (fun _ => 0) 1 := by
  intro h
  exact absurd h.to_fits.userName (by decide)

end Iocom
