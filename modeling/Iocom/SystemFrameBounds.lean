import Iocom.SystemFrames
import Iocom.Lib.MessageLayout

/-!
# The bounds of system frames

The parsers of system frames get the address of the payload and not its size.
They read what the flags, the counting bytes and the number of requests announce,
so they stay inside the payload exactly when it has room for all of that.  What
lies behind the payload is read otherwise.
-/

namespace Iocom

open MemoryReader

/-! ## Layouts -/

def stringLayout (strSz : ℕ) : MessageLayout :=
  .byte fun len => if strSz ≤ len.toNat then .refused else .bytes len.toNat .done

def numberLayout (twoBytes fourBytes : Bool) : MessageLayout :=
  .bytes (extraBytes twoBytes fourBytes + 1) .done

def mbinfoLayout (sizes : MessageSizes) : MessageLayout :=
  .byte fun iflags =>
    (numberLayout (iflags.toNat.testBit 1) (iflags.toNat.testBit 2)).append <|
    (numberLayout (iflags.toNat.testBit 3) (iflags.toNat.testBit 4)).append <|
    (numberLayout (iflags.toNat.testBit 5) false).append <|
    (if iflags.toNat.testBit 6 then
      (stringLayout sizes.name).append (stringLayout sizes.networkName)
    else MessageLayout.done).append <|
    if iflags.toNat.testBit 7 then stringLayout sizes.name else .done

def authenticationLayout (sizes : MessageSizes) : MessageLayout :=
  .byte fun authFlags =>
    (stringLayout sizes.deviceId).append <|
    (numberLayout (authFlags.toNat.testBit 5) (authFlags.toNat.testBit 6)).append <|
    (if authFlags.toNat.testBit 1 then MessageLayout.bytes sizes.uniqueIdBin .done
    else .done).append <|
    (stringLayout sizes.networkName).append <|
    stringLayout sizes.password

def integerLayout (code : IntegerCode) : MessageLayout :=
  .byte fun first => .bytes (code.size first - 1) .done

def integersLayout (code : IntegerCode) : ℕ → MessageLayout
  | 0 => .done
  | n + 1 => (integerLayout code).append (integersLayout code n)

def removeRequestLayout (code : IntegerCode) (nRequests : ℕ) : MessageLayout :=
  if nRequests < 1 ∨ packAbsMaxRequests < nRequests then .refused
  else integersLayout code nRequests

def systemFrameLayout (sizes : MessageSizes) (code : IntegerCode) (mblkId : ℕ) :
    MessageLayout :=
  .byte fun type =>
    if type = 1 then mbinfoLayout sizes
    else if type = 2 then authenticationLayout sizes
    else if type = 3 then removeRequestLayout code mblkId
    else .done

/-! ## The parsers follow the layouts -/

section Follows

variable {σ : Type}

theorem msgGetstr_follows (strSz : ℕ) :
    (msgGetstr strSz : MemoryReader σ (List UInt8)).Follows (stringLayout strSz) := by
  refine follows_byte_bind fun len => ?_
  by_cases hlen : strSz ≤ len.toNat
  · rw [if_pos hlen, if_pos hlen]
    exact follows_refuse len.toNat
  · rw [if_neg hlen, if_neg hlen]
    exact follows_bytes len.toNat

theorem byte_bind_follows {α : Type} {f : UInt8 → MemoryReader σ α} {n : ℕ}
    (hf : ∀ b, (f b).Follows (.bytes n .done)) :
    (byte >>= f).Follows (.bytes (n + 1) .done) :=
  (follows_byte_bind hf).congr fun rest message => MessageLayout.fit_bytes_succ n rest message

theorem pure_follows {α : Type} (a : α) :
    (pure a : MemoryReader σ α).Follows (.bytes 0 .done) :=
  (follows_pure a).congr fun rest message => by
    simp only [MessageLayout.append, MessageLayout.fit, Nat.zero_le, decide_true,
      Bool.true_and, List.drop_zero]

theorem msgGetUshort_follows (twoBytes : Bool) :
    (msgGetUshort twoBytes : MemoryReader σ ℕ).Follows (numberLayout twoBytes false) := by
  cases twoBytes with
  | false => exact byte_bind_follows fun _ => pure_follows _
  | true => exact byte_bind_follows fun _ => byte_bind_follows fun _ => pure_follows _

theorem msgGetUint_follows (twoBytes fourBytes : Bool) :
    (msgGetUint twoBytes fourBytes : MemoryReader σ ℕ).Follows
      (numberLayout twoBytes fourBytes) := by
  cases fourBytes with
  | false =>
      cases twoBytes with
      | false => exact byte_bind_follows fun _ => pure_follows _
      | true => exact byte_bind_follows fun _ => byte_bind_follows fun _ => pure_follows _
  | true =>
      cases twoBytes with
      | false =>
          exact byte_bind_follows fun _ => byte_bind_follows fun _ =>
            byte_bind_follows fun _ => byte_bind_follows fun _ => pure_follows _
      | true =>
          exact byte_bind_follows fun _ => byte_bind_follows fun _ =>
            byte_bind_follows fun _ => byte_bind_follows fun _ => pure_follows _

theorem intserReader_follows (code : IntegerCode) :
    (code.intserReader : MemoryReader σ ℤ).Follows (integerLayout code) :=
  follows_byte_bind fun first =>
    (follows_bytes (code.size first - 1)).bind_done fun _ => follows_pure _

theorem readMbinfo_follows (sizes : MessageSizes) :
    (SystemFrameContext.readMbinfo sizes : MemoryReader σ MbinfoMessage).Follows
      (mbinfoLayout sizes) := by
  have hnames : (SystemFrameContext.readDeviceNames sizes :
      MemoryReader σ (List UInt8 × List UInt8)).Follows
        ((stringLayout sizes.name).append (stringLayout sizes.networkName)) :=
    (msgGetstr_follows _).bind fun deviceName =>
      (msgGetstr_follows _).bind_done fun networkName => follows_pure _
  refine follows_byte_bind fun iflags => ?_
  refine (msgGetUint_follows _ _).bind fun deviceNr => ?_
  refine (msgGetUint_follows _ _).bind fun nbytes => ?_
  refine (msgGetUshort_follows _).bind fun flags => ?_
  refine (hnames.optional _ _).bind fun names => ?_
  exact ((msgGetstr_follows _).optional _ _).bind_done fun mblkName => follows_pure _

end Follows

section Frames

variable {ν : Type} (ctx : SystemFrameContext ν)

theorem SystemFrameContext.acceptUser_idle (user : ReceivedUser) : (ctx.acceptUser user).Idle := by
  have hauthorize : (ctx.authorizeUser user).Idle := by
    refine Idle.bind (fun _ _ _ => ⟨rfl, rfl⟩) fun _ => ?_
    cases (ctx.authorize user).1 with
    | false => exact fun _ _ _ => ⟨rfl, rfl⟩
    | true => exact fun _ _ _ => ⟨rfl, rfl⟩
  refine Idle.bind (fun _ _ _ => ⟨rfl, rfl⟩) fun s => ?_
  exact (optional_rule _ hauthorize fun _ _ _ => ⟨rfl, rfl⟩).bind fun _ _ _ _ => ⟨rfl, rfl⟩

theorem SystemFrameContext.processReceivedMbinfoFrame_boundedBy (mblkId : ℕ) :
    (ctx.processReceivedMbinfoFrame mblkId).BoundedBy (mbinfoLayout ctx.sizes) :=
  (readMbinfo_follows ctx.sizes).bind_idle fun _ _ _ _ => ⟨rfl, rfl⟩

theorem SystemFrameContext.processReceivedAuthenticationMessage_boundedBy (mblkId : ℕ) :
    (ctx.processReceivedAuthenticationMessage mblkId).BoundedBy
      (authenticationLayout ctx.sizes) := by
  refine byte_bind_boundedBy fun authFlags => ?_
  refine (follows_modifyState _).bind_boundedBy fun _ => ?_
  refine (msgGetstr_follows _).bind_boundedBy fun userName => ?_
  refine (msgGetUint_follows _ _).bind_boundedBy fun deviceNr => ?_
  refine ((follows_bytes _).optional _ _).bind_boundedBy fun uniqueId => ?_
  refine (follows_modifyState _).bind_boundedBy fun _ => ?_
  refine (msgGetstr_follows _).bind_boundedBy fun networkName => ?_
  refine (msgGetstr_follows _).bind_idle fun password => ?_
  exact Idle.bind (fun _ _ _ => ⟨rfl, rfl⟩) fun _ => ctx.acceptUser_idle _

theorem SystemFrameContext.processRemoveMblkReqs_follows (n : ℕ) :
    (ctx.processRemoveMblkReqs n).Follows (integersLayout ctx.code n) := by
  induction n with
  | zero => exact follows_pure ()
  | succ n ih =>
      refine (intserReader_follows ctx.code).bind fun id => ?_
      exact (follows_modifyState _).bind fun _ => ih

theorem SystemFrameContext.processRemoveMblkReqFrame_boundedBy (nRequests : ℕ) :
    (ctx.processRemoveMblkReqFrame nRequests).BoundedBy
      (removeRequestLayout ctx.code nRequests) := by
  unfold SystemFrameContext.processRemoveMblkReqFrame removeRequestLayout
  split_ifs
  · exact (follows_refuse 0).boundedBy
  · exact (ctx.processRemoveMblkReqs_follows nRequests).boundedBy

theorem SystemFrameContext.processReceivedSystemFrame_boundedBy (mblkId : ℕ) :
    (ctx.processReceivedSystemFrame mblkId).BoundedBy
      (systemFrameLayout ctx.sizes ctx.code mblkId) := by
  refine byte_bind_boundedBy fun type => ?_
  split_ifs
  · exact ctx.processReceivedMbinfoFrame_boundedBy mblkId
  · exact ctx.processReceivedAuthenticationMessage_boundedBy mblkId
  · exact ctx.processRemoveMblkReqFrame_boundedBy mblkId
  · exact (follows_pure ()).boundedBy

/-! ## Frames which claim more than there is -/

structure SystemFrameEnd.Unchanged (s t : SystemFrameEnd ν) : Prop where
  named : t.named = s.named
  security : t.con.security = s.con.security
  rootDeviceNr : t.rootDeviceNr = s.rootDeviceNr
  autoDeviceNr : t.autoDeviceNr = s.autoDeviceNr
  numbering : t.numbering = s.numbering

theorem SystemFrameEnd.Unchanged.refl (s : SystemFrameEnd ν) : s.Unchanged s :=
  ⟨rfl, rfl, rfl, rfl, rfl⟩

theorem SystemFrameEnd.Unchanged.trans (s t u : SystemFrameEnd ν) (hst : s.Unchanged t)
    (htu : t.Unchanged u) : s.Unchanged u where
  named := htu.named.trans hst.named
  security := htu.security.trans hst.security
  rootDeviceNr := htu.rootDeviceNr.trans hst.rootDeviceNr
  autoDeviceNr := htu.autoDeviceNr.trans hst.autoDeviceNr
  numbering := htu.numbering.trans hst.numbering

/-- The part of a parser so far has left everything as it was. -/
def Careful {α : Type} (r : MemoryReader (SystemFrameEnd ν) α) : Prop :=
  r.Guarded SystemFrameEnd.Unchanged

theorem Careful.bind {α β : Type} {r : MemoryReader (SystemFrameEnd ν) α}
    {f : α → MemoryReader (SystemFrameEnd ν) β} (hr : Careful r) (hf : ∀ a, Careful (f a)) :
    Careful (r >>= f) :=
  Guarded.bind SystemFrameEnd.Unchanged.trans hr hf

theorem Careful.bind_refuses {α β : Type} {r : MemoryReader (SystemFrameEnd ν) α}
    {f : α → MemoryReader (SystemFrameEnd ν) β} (hr : Careful r)
    (hf : ∀ a, (f a).Refuses SystemFrameEnd.Unchanged) :
    (r >>= f).Refuses SystemFrameEnd.Unchanged :=
  Refuses.bind SystemFrameEnd.Unchanged.trans hr.keeps hr.refuses hf

theorem careful_pure {α : Type} (a : α) : Careful (pure a : MemoryReader (SystemFrameEnd ν) α) :=
  Exact.guarded (fun _ _ _ => rfl) fun _ _ s => .refl s

theorem careful_byte : Careful (byte : MemoryReader (SystemFrameEnd ν) UInt8) :=
  Exact.guarded (fun _ _ _ => rfl) fun _ _ s => .refl s

theorem careful_bytes (n : ℕ) :
    Careful (bytes n : MemoryReader (SystemFrameEnd ν) (List UInt8)) :=
  Exact.guarded (fun _ _ _ => rfl) fun _ _ s => .refl s

theorem careful_modifyState {f : SystemFrameEnd ν → SystemFrameEnd ν}
    (hf : ∀ s : SystemFrameEnd ν, s.Unchanged (f s)) : Careful (modifyState f) :=
  Exact.guarded (fun _ _ _ => rfl) fun _ _ s => hf s

theorem msgGetstr_careful (strSz : ℕ) :
    Careful (msgGetstr strSz : MemoryReader (SystemFrameEnd ν) (List UInt8)) := by
  refine careful_byte.bind fun len => ?_
  split_ifs with hlen
  · exact ⟨fun _ _ s => .refl s, fun _ _ _ s _ _ => ⟨rfl, .refl s⟩⟩
  · exact careful_bytes len.toNat

theorem msgGetUshort_careful (twoBytes : Bool) :
    Careful (msgGetUshort twoBytes : MemoryReader (SystemFrameEnd ν) ℕ) := by
  refine careful_byte.bind fun li => ?_
  split_ifs
  · exact careful_byte.bind fun high => careful_pure _
  · exact careful_pure _

theorem msgGetUint_careful (twoBytes fourBytes : Bool) :
    Careful (msgGetUint twoBytes fourBytes : MemoryReader (SystemFrameEnd ν) ℕ) := by
  refine careful_byte.bind fun x => ?_
  cases twoBytes || fourBytes with
  | false => exact careful_pure _
  | true =>
      refine careful_byte.bind fun x1 => ?_
      cases fourBytes with
      | false => exact careful_pure _
      | true =>
          exact careful_byte.bind fun x2 => careful_byte.bind fun x3 => careful_pure _

theorem readMbinfo_careful (sizes : MessageSizes) :
    Careful (SystemFrameContext.readMbinfo sizes :
      MemoryReader (SystemFrameEnd ν) MbinfoMessage) := by
  have hnames : Careful (SystemFrameContext.readDeviceNames sizes :
      MemoryReader (SystemFrameEnd ν) (List UInt8 × List UInt8)) :=
    (msgGetstr_careful _).bind fun _ => (msgGetstr_careful _).bind fun _ => careful_pure _
  refine careful_byte.bind fun iflags => ?_
  refine (msgGetUint_careful _ _).bind fun deviceNr => ?_
  refine (msgGetUint_careful _ _).bind fun nbytes => ?_
  refine (msgGetUshort_careful _).bind fun flags => ?_
  refine (optional_rule _ hnames (careful_pure _)).bind fun names => ?_
  exact (optional_rule _ (msgGetstr_careful _) (careful_pure _)).bind fun _ => careful_pure _

theorem SystemFrameContext.setAuthFlags_unchanged (authFlags : UInt8) (s : SystemFrameEnd ν) :
    s.Unchanged (setAuthFlags authFlags s) :=
  ⟨rfl, rfl, rfl, rfl, rfl⟩

theorem SystemFrameContext.limitFrameSize_unchanged (mblkId : ℕ) (s : SystemFrameEnd ν) :
    s.Unchanged (limitFrameSize mblkId s) := by
  unfold limitFrameSize
  split_ifs <;> exact ⟨rfl, rfl, rfl, rfl, rfl⟩

theorem SystemFrameContext.processReceivedMbinfoFrame_refuses (mblkId : ℕ) :
    (ctx.processReceivedMbinfoFrame mblkId).Refuses SystemFrameEnd.Unchanged :=
  (readMbinfo_careful ctx.sizes).bind_refuses fun _ => Exact.refuses fun _ _ _ => rfl

theorem SystemFrameContext.acceptUser_exact (user : ReceivedUser) :
    (ctx.acceptUser user).Exact := by
  intro mem pos s
  obtain ⟨hreads, hclaims⟩ := ctx.acceptUser_idle user mem pos s
  rw [hreads, hclaims]

theorem SystemFrameContext.processReceivedAuthenticationMessage_refuses (mblkId : ℕ) :
    (ctx.processReceivedAuthenticationMessage mblkId).Refuses SystemFrameEnd.Unchanged := by
  refine careful_byte.bind_refuses fun authFlags => ?_
  refine (careful_modifyState (setAuthFlags_unchanged authFlags)).bind_refuses fun _ => ?_
  refine (msgGetstr_careful _).bind_refuses fun userName => ?_
  refine (msgGetUint_careful _ _).bind_refuses fun deviceNr => ?_
  refine (optional_rule _ (careful_bytes _) (careful_pure _)).bind_refuses fun uniqueId => ?_
  refine Careful.bind_refuses (careful_modifyState fun s => ⟨rfl, rfl, rfl, rfl, rfl⟩) fun _ => ?_
  refine (msgGetstr_careful _).bind_refuses fun networkName => ?_
  refine (msgGetstr_careful _).bind_refuses fun password => ?_
  refine (careful_modifyState (limitFrameSize_unchanged mblkId)).bind_refuses fun _ => ?_
  exact (ctx.acceptUser_exact _).refuses

theorem SystemFrameContext.processRemoveMblkReqs_exact (n : ℕ) :
    (ctx.processRemoveMblkReqs n).Exact := by
  induction n with
  | zero => exact fun _ _ _ => rfl
  | succ n ih =>
      refine Exact.bind (fun _ _ _ => rfl) fun id => ?_
      exact Exact.bind (fun _ _ _ => rfl) fun _ => ih

theorem SystemFrameContext.processReceivedSystemFrame_refuses (mblkId : ℕ) :
    (ctx.processReceivedSystemFrame mblkId).Refuses SystemFrameEnd.Unchanged := by
  refine careful_byte.bind_refuses fun type => ?_
  split_ifs
  · exact ctx.processReceivedMbinfoFrame_refuses mblkId
  · exact ctx.processReceivedAuthenticationMessage_refuses mblkId
  · unfold SystemFrameContext.processRemoveMblkReqFrame
    split_ifs
    · exact Exact.refuses fun _ _ _ => rfl
    · exact (ctx.processRemoveMblkReqs_exact mblkId).refuses
  · exact Exact.refuses fun _ _ _ => rfl

end Frames

def payloadMemory (payload : List UInt8) (behind : ℕ → UInt8) (i : ℕ) : UInt8 :=
  (payload[i]?).getD (behind i)

theorem payloadMemory_holds (payload : List UInt8) (behind : ℕ → UInt8) :
    HoldsMessage (payloadMemory payload behind) payload := by
  intro i hi
  unfold payloadMemory
  rw [List.getElem?_eq_getElem hi]
  rfl

/-- The frame is processed without a look behind its payload, and refused without
a change if it claims more. -/
def StaysInsideFrame {ν : Type} (ctx : SystemFrameContext ν) (mblkId : ℕ)
    (payload : List UInt8) (behind : ℕ → UInt8) (s : SystemFrameEnd ν) : Prop :=
  let reading :=
    (ctx.processReceivedSystemFrame mblkId).read (payloadMemory payload behind) 0 s
  (∀ i ∈ reading.reads, i < payload.length) ∧
    ((∃ i ∈ reading.claims, payload.length ≤ i) →
      reading.value = none ∧ s.Unchanged reading.state)

/-- System frames are processed inside their payload exactly if the payload has
room for all which its flags, counting bytes and number of requests announce. -/
theorem system_frame_stays_inside_iff_fit {ν : Type} (ctx : SystemFrameContext ν) (mblkId : ℕ)
    (payload : List UInt8) (behind : ℕ → UInt8) (s : SystemFrameEnd ν) :
    StaysInsideFrame ctx mblkId payload behind s ↔
      (systemFrameLayout ctx.sizes ctx.code mblkId).fit payload = true := by
  have hmem := payloadMemory_holds payload behind
  have hbounded :=
    @SystemFrameContext.processReceivedSystemFrame_boundedBy ν ctx mblkId payload
      (payloadMemory payload behind) 0 s hmem (Nat.zero_le _)
  rw [List.drop_zero] at hbounded
  rw [hbounded]
  constructor
  · exact fun hstays => hstays.1
  · exact fun hinside =>
      ⟨hinside, ctx.processReceivedSystemFrame_refuses mblkId _ _ _ _ hinside⟩

def emptyFrameEnd : SystemFrameEnd Unit where
  named := ⟨"cafenet", initializeRoot, fun _ => []⟩
  con := ⟨1, false, false, false, true, ⟨false, true, false, []⟩, true, true, true⟩
  noCertChain := false
  dstFrameSz := 1024
  rootDeviceNr := 1
  numbering := ()
  autoDeviceNr := 0
  uniqueIdBin := []

def plainFrameContext : SystemFrameContext Unit where
  sizes := ⟨16, 24, 64, 8⟩
  code := ⟨fun _ => 1, fun _ => 0⟩
  getAutomaticDeviceNr := fun _ _ => (10001, ())
  authorize := fun _ => (true, [])
  draws := []
  fresh := fun _ => 0
  newbuf := none

/-- An info whose name counts three bytes, none of which is in the payload, is
accepted with what lies behind as the name of the block. -/
theorem mbinfo_reads_behind_payload :
    ¬StaysInsideFrame plainFrameContext 7 [1, 128, 0, 0, 3, 3] (fun _ => 105) emptyFrameEnd ∧
      ((plainFrameContext.processReceivedSystemFrame 7).read
        (payloadMemory [1, 128, 0, 0, 3, 3] fun _ => 105) 0 emptyFrameEnd).value = some () := by
  refine ⟨fun hstays => ?_, rfl⟩
  have hread := hstays.1 6 (by decide)
  exact absurd hread (by decide)

end Iocom
