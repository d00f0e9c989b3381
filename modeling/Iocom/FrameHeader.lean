import Iocom.FrameReassembly

/-!
# Making a frame in place

`ioc_generate_header` stores the header in the frame buffer with zeros where
the checksum and the data size belong, and remembers where these and the flags
are.  `ioc_make_data_frame` and `ioc_finish_frame` fill them in when the content
is known.  The result is the encoding of the frame, which the other end reads
back.
-/

namespace Iocom

variable {checksum : List UInt8 → ℕ}

/-- `iocSendHeaderPtrs`, as positions in the frame buffer. -/
structure SendHeaderPtrs where
  checksumLow : Option ℕ
  checksumHigh : Option ℕ
  flags : ℕ
  dataSzLow : ℕ
  dataSzHigh : Option ℕ
  extraFlags : Option ℕ
  headerSz : ℕ

/-- `ioc_msg_set_uint`: the stored bytes, the flags and the extra flags. -/
def msgSetUint (i : ℕ) (flags twoBytesFlag extraFlags fourBytesFlag : UInt8) :
    List UInt8 × UInt8 × UInt8 :=
  if i / 0x100 = 0 then ([UInt8.ofNat i], flags, extraFlags)
  else if i / 0x100 / 0x100 = 0 then
    ([UInt8.ofNat i, UInt8.ofNat (i / 0x100)], flags ||| twoBytesFlag, extraFlags)
  else
    ([UInt8.ofNat i, UInt8.ofNat (i / 0x100), UInt8.ofNat (i / 0x100 / 0x100),
        UInt8.ofNat (i / 0x100 / 0x100 / 0x100)],
      flags, extraFlags ||| fourBytesFlag)

/-- `ioc_generate_header`. -/
def generateHeader (isSocket : Bool) (frameNr remoteMblkId addr : ℕ) :
    List UInt8 × SendHeaderPtrs :=
  let extra : Bool :=
    decide (remoteMblkId / 0x10000 ≠ 0) || decide (addr / 0x10000 ≠ 0)
  let mblk := msgSetUint remoteMblkId (if extra then 128 else 0) 8 128 2
  let adr := msgSetUint addr mblk.2.1 4 mblk.2.2 1
  let fixed :=
    UInt8.ofNat frameNr ::
      if isSocket then [adr.2.1, 0, 0] else [0, 0, adr.2.1, 0]
  let hdr := fixed ++ (if extra then [adr.2.2] else []) ++ mblk.1 ++ adr.1
  (hdr,
    { checksumLow := if isSocket then none else some 1
      checksumHigh := if isSocket then none else some 2
      flags := if isSocket then 1 else 3
      dataSzLow := if isSocket then 2 else 4
      dataSzHigh := if isSocket then some 3 else none
      extraFlags := if extra then some fixed.length else none
      headerSz := hdr.length })

def setByte (buf : List UInt8) (p : Option ℕ) (b : UInt8) : List UInt8 :=
  match p with
  | some k => buf.set k b
  | none => buf

/-- The flags which are added to a frame when its content is known. -/
def contentFlags (flags : DataFlags) (system : Bool) : UInt8 :=
  (if flags.deltaEncoded then 1 else 0) ||| (if flags.compressed then 2 else 0) |||
    (if flags.syncComplete then 16 else 0) ||| (if system then 32 else 0)

/-- The end of `ioc_make_data_frame` and of `ioc_finish_frame`: data size, flags
and checksum of the frame with the content in place. -/
def completeFrame
    (checksum : List UInt8 → ℕ) (header : List UInt8 × SendHeaderPtrs)
    (flags : UInt8) (content : List UInt8) : List UInt8 :=
  let ptrs := header.2
  let buf := header.1 ++ content
  let buf := buf.set ptrs.dataSzLow (UInt8.ofNat content.length)
  let buf := setByte buf ptrs.dataSzHigh (UInt8.ofNat (content.length / 0x100))
  let buf := buf.set ptrs.flags (buf.getD ptrs.flags 0 ||| flags)
  let crc := checksum buf % 0x10000
  setByte (setByte buf ptrs.checksumLow (UInt8.ofNat crc)) ptrs.checksumHigh
    (UInt8.ofNat (crc / 0x100))

/-- What `ioc_msg_set_uint` stores and flags, by the size of the number. -/
theorem msgSetUint_eq
    (i : ℕ) (flags twoBytesFlag extraFlags fourBytesFlag : UInt8) :
    msgSetUint i flags twoBytesFlag extraFlags fourBytesFlag =
      (uintBytes i, if isTwoBytes i then flags ||| twoBytesFlag else flags,
        if isFourBytes i then extraFlags ||| fourBytesFlag else extraFlags) := by
  unfold msgSetUint uintBytes isTwoBytes isFourBytes
  by_cases hone : i < 0x100
  · have hzero : i / 0x100 = 0 := by omega
    simp [hone, hzero]
    omega
  by_cases htwo : i < 0x10000
  · have h1 : i / 0x100 ≠ 0 := by omega
    have h2 : i / 0x100 / 0x100 = 0 := by omega
    have h3 : 0x100 ≤ i := by omega
    have h4 : ¬0x10000 ≤ i := by omega
    simp [hone, htwo, h1, h2, h3, h4]
  · have h1 : i / 0x100 ≠ 0 := by omega
    have h2 : i / 0x100 / 0x100 ≠ 0 := by omega
    have h3 : 0x10000 ≤ i := by omega
    rw [if_neg h1, if_neg h2, if_neg hone, if_neg htwo]
    simp [h3, Nat.div_div_eq_div_mul]

/-- The flags byte, put together bit by bit, is the one of the frame. -/
theorem flagsByte_eq (b0 b1 b2 b3 b4 b5 b7 : Bool) :
    (let start : UInt8 := if b7 then 128 else 0
      let mblk := if b3 then start ||| 8 else start
      (if b2 then mblk ||| 4 else mblk) |||
        ((if b0 then 1 else 0) ||| (if b1 then 2 else 0) |||
          (if b4 then 16 else 0) ||| (if b5 then 32 else 0))) =
      UInt8.ofNat (b0.toNat + 2 * b1.toNat + 4 * b2.toNat + 8 * b3.toNat +
        16 * b4.toNat + 32 * b5.toNat + 128 * b7.toNat) := by
  revert b0 b1 b2 b3 b4 b5 b7
  decide

theorem extraFlagsByte_eq (b0 b1 : Bool) :
    (let mblk : UInt8 := if b1 then 128 ||| 2 else 128
      if b0 then mblk ||| 1 else mblk) =
      UInt8.ofNat (128 + b0.toNat + 2 * b1.toNat) := by
  revert b0 b1
  decide

theorem generateHeader_extra (mblkId addr : ℕ) :
    (decide (mblkId / 0x10000 ≠ 0) || decide (addr / 0x10000 ≠ 0)) =
      needsExtraFlags mblkId addr := by
  unfold needsExtraFlags
  congr 1 <;> (apply decide_eq_decide.mpr; omega)

theorem generateHeader_headerSz (isSocket : Bool) (frameNr mblkId addr : ℕ) :
    (generateHeader isSocket frameNr mblkId addr).2.headerSz =
        headerSize isSocket mblkId addr ∧
      (generateHeader isSocket frameNr mblkId addr).1.length =
        headerSize isSocket mblkId addr := by
  have hlength : (generateHeader isSocket frameNr mblkId addr).1.length =
      headerSize isSocket mblkId addr := by
    unfold generateHeader headerSize
    dsimp only
    rw [generateHeader_extra, msgSetUint_eq, msgSetUint_eq]
    cases isSocket <;> cases needsExtraFlags mblkId addr <;> simp <;> omega
  exact ⟨hlength, hlength⟩

/-- A frame which is made in place is the encoding of the frame. -/
theorem completeFrame_eq_encode (isSocket : Bool) (frame : Frame) :
    completeFrame checksum
        (generateHeader isSocket frame.frameNr frame.mblkId frame.addr)
        (contentFlags frame.flags frame.system) frame.payload =
      frame.encode checksum isSocket := by
  unfold completeFrame generateHeader Frame.encode Frame.encodeWith Frame.variablePart
  dsimp only
  rw [generateHeader_extra, msgSetUint_eq, msgSetUint_eq]
  have hflags := flagsByte_eq frame.flags.deltaEncoded frame.flags.compressed
    (isTwoBytes frame.addr) (isTwoBytes frame.mblkId) frame.flags.syncComplete
    frame.system (needsExtraFlags frame.mblkId frame.addr)
  have hextra := extraFlagsByte_eq (isFourBytes frame.addr) (isFourBytes frame.mblkId)
  unfold contentFlags
  dsimp only at hflags hextra ⊢
  change _ = UInt8.ofNat frame.flagsByte at hflags
  change _ = UInt8.ofNat frame.extraFlagsByte at hextra
  rw [hextra]
  cases isSocket with
  | true => simp [setByte, hflags]
  | false => simp [setByte, hflags]

/-- What the receiving end finds in a frame, when the first `n` bytes of it are
in the frame buffer and the stream goes on with the rest. -/
structure ReadsBack
    (checksum : List UInt8 → ℕ) (con : Connection) (header : List UInt8 × SendHeaderPtrs)
    (frame : Frame) (bytes tail : List UInt8) (n : ℕ) (reads : List ℕ) : Prop where
  loop : ∃ rfs n',
    readFrameLoop ⟨con.isSocket, con.frameSz, frame.frameNr, bytes.take n,
        0, 0, 0, 0, 0⟩ (bytes.drop n ++ tail) reads =
      some (rfs, bytes.drop n' ++ tail) ∧
    n ≤ n' ∧ n' ≤ bytes.length ∧ (0 < reads.headD 0 → n < n') ∧
    (n' < bytes.length → n' < rfs.needed) ∧
    (n' = bytes.length →
      rfs.needed = header.2.headerSz + frame.payload.length ∧
      rfs.dataSz = frame.payload.length ∧
      ∃ con', connectionReceive checksum con ⟨frame.frameNr, bytes.take n⟩
          (bytes.drop n ++ tail) reads =
        some (some (.frame frame), con', ⟨nextFrameNr frame.frameNr, []⟩, tail))
  content : bytes.drop header.2.headerSz = frame.payload

/-- What `ioc_connection_receive` leaves in the stream is what
`ioc_read_frame` leaves in it. -/
theorem connectionReceive_stream
    {con con' : Connection} {frameIn frameIn' : FrameIn} {reads : List ℕ}
    {stream stream₁ stream₂ : List UInt8} {rfs : ReadFrameState}
    {received : Option Message}
    (hrun : readFrameLoop ⟨con.isSocket, con.frameSz, frameIn.frameNr, frameIn.buf,
      0, 0, 0, 0, 0⟩ stream reads = some (rfs, stream₁))
    (hreceive : connectionReceive checksum con frameIn stream reads =
      some (received, con', frameIn', stream₂)) : stream₂ = stream₁ := by
  unfold connectionReceive at hreceive
  rw [hrun] at hreceive
  dsimp only at hreceive
  generalize (if con.isSocket then rfs.buf else clearChecksum rfs.buf) = buf at hreceive
  split at hreceive
  · simp only [Option.some.injEq, Prod.mk.injEq] at hreceive
    exact hreceive.2.2.2.symm
  split at hreceive
  · simp only [Option.some.injEq, Prod.mk.injEq] at hreceive
    exact hreceive.2.2.2.symm
  split at hreceive
  · contradiction
  · simp only [Option.some.injEq, Prod.mk.injEq] at hreceive
    exact hreceive.2.2.2.symm

theorem Frame.encode_drop (isSocket : Bool) (frame : Frame) :
    (frame.encode checksum isSocket).drop
        (headerSize isSocket frame.mblkId frame.addr) = frame.payload := by
  have hsplit : ∃ header : List UInt8,
      frame.encode checksum isSocket = header ++ frame.payload := by
    unfold Frame.encode Frame.encodeWith Frame.variablePart
    exact ⟨_, (List.append_assoc _ _ _).symm⟩
  obtain ⟨header, hheader⟩ := hsplit
  have hlength := congrArg List.length hheader
  rw [Frame.encode_length, List.length_append] at hlength
  have hsize : headerSize isSocket frame.mblkId frame.addr = header.length := by
    omega
  rw [hheader, hsize, List.drop_left]

/-- The header which `ioc_generate_header` makes is read back: whatever pieces
the bytes arrive in, `ioc_read_frame` finds the size of the frame, the checksum
test passes, and the fields are those which were stored. -/
theorem frame_header_round_trip
    {con : Connection} {frame : Frame}
    (hsize : con.frameSz ≤ maxFrameSzOf con.isSocket)
    (hnr : frame.frameNr ≤ maxFrameNr)
    (hmblk : frame.mblkId ≤ 0x7FFFFFFF) (haddr : frame.addr ≤ 0x7FFFFFFF)
    (hfits : (((generateHeader con.isSocket frame.frameNr frame.mblkId
      frame.addr).2.headerSz + frame.payload.length : ℕ) : ℤ) ≤ con.frameSz)
    (tail : List UInt8) (reads : List ℕ) {n : ℕ}
    (hn : n < (generateHeader con.isSocket frame.frameNr frame.mblkId
      frame.addr).2.headerSz + frame.payload.length) :
    ReadsBack checksum con
      (generateHeader con.isSocket frame.frameNr frame.mblkId frame.addr) frame
      (completeFrame checksum
        (generateHeader con.isSocket frame.frameNr frame.mblkId frame.addr)
        (contentFlags frame.flags frame.system) frame.payload) tail n reads := by
  rw [(generateHeader_headerSz ..).1] at hfits hn
  have hwf : (Message.frame frame).WellFormed con.isSocket con.frameSz :=
    ⟨hnr, by omega, by omega, hfits⟩
  have hlength := @Frame.encode_length checksum con.isSocket frame
  have hlt : n < (Message.encode checksum con.isSocket (.frame frame)).length := by
    change n < (frame.encode checksum con.isSocket).length
    omega
  have hread := @connectionReceive_spec checksum con
    ⟨frame.frameNr, (frame.encode checksum con.isSocket).take n⟩ (.frame frame) n
    tail reads hwf hsize (by rintro sent hsent; cases hsent; rfl) rfl hlt
  have hreading : ReadFrameState.Reading checksum
      ⟨con.isSocket, con.frameSz, frame.frameNr,
        (frame.encode checksum con.isSocket).take n, 0, 0, 0, 0, 0⟩
      (.frame frame) n :=
    { buf := rfl
      le := hlt.le
      wellFormed := hwf
      frameSz := hsize
      frameNr := by
        rintro sent hsent
        cases hsent
        rfl }
  obtain ⟨rfs, n', hrun, hle, hle', hbuf, -, hpart, hwhole, hprogress⟩ :=
    readFrameLoop_spec tail reads hreading
  rw [completeFrame_eq_encode]
  refine
    { loop := ⟨rfs, n', hrun, hle, hle', hprogress hlt, hpart, fun hall => ?_⟩
      content := by
        rw [(generateHeader_headerSz ..).1]
        exact frame.encode_drop con.isSocket }
  obtain ⟨hneeded, -, -, hdataSz⟩ := hwhole hall
  change n' = (frame.encode checksum con.isSocket).length at hall
  refine ⟨?_, hdataSz, ?_⟩
  · rw [(generateHeader_headerSz ..).1, hneeded, hall, frame.encode_length]
  · obtain ⟨n₁, received, con', frameIn', hreceive, -, hle₁, -, -, -, -, hdone, -⟩ :=
      hread
    have hstream := congrArg List.length (connectionReceive_stream hrun hreceive)
    simp only [List.length_append, List.length_drop] at hstream
    have hn₁ : n₁ = (Message.encode checksum con.isSocket (.frame frame)).length := by
      change n' = (Message.encode checksum con.isSocket (.frame frame)).length at hall
      omega
    obtain ⟨rfl, rfl⟩ := hdone hn₁
    rw [hn₁, List.drop_length, List.nil_append] at hreceive
    exact ⟨con', hreceive⟩

def longHeaderFrame : Frame where
  frameNr := 200
  system := false
  flags := { deltaEncoded := true, compressed := false, syncComplete := true }
  mblkId := 0x10203
  addr := 0x1FF
  payload := [5, 6]

theorem frame_header_round_trip_long :
    ReadsBack (fun _ => 0x1234) serialReader
      (generateHeader false 200 0x10203 0x1FF) longHeaderFrame
      (completeFrame (fun _ => 0x1234) (generateHeader false 200 0x10203 0x1FF)
        (contentFlags longHeaderFrame.flags longHeaderFrame.system) [5, 6])
      [255] 3 [2, 9] :=
  @frame_header_round_trip (fun _ => 0x1234) serialReader longHeaderFrame
    (by decide) (by decide) (by decide) (by decide) (by decide) [255] [2, 9] 3
    (by decide)

end Iocom
