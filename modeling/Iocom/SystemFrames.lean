import Iocom.NetworkIsolation
import Iocom.Lib.MemoryReader

/-!
# Received system frames

Memory block infos, authentication messages and remove requests are parsed at the
address of their payload in the frame buffer; the parsers are not told where the
payload ends.  Numbers take one, two or four bytes as flags tell, strings begin
with their length, and remove requests are serialized integers.
-/

namespace Iocom

structure MessageSizes where
  name : ℕ
  networkName : ℕ
  password : ℕ
  uniqueIdBin : ℕ

/-- `IOC_DEVICE_ID_SZ`. -/
def MessageSizes.deviceId (sizes : MessageSizes) : ℕ := sizes.name + 10

/-- `osal_intser_reader`: the first byte tells how many bytes there are. -/
structure IntegerCode where
  size : UInt8 → ℕ
  value : List UInt8 → ℤ

def IntegerCode.intserReader {σ : Type} (code : IntegerCode) : MemoryReader σ ℤ := do
  let first ← .byte
  let rest ← .bytes (code.size first - 1)
  pure (code.value (first :: rest))

/-! ## Parts of a message -/

section Parts

variable {σ : Type}

/-- `ioc_msg_getstr`. -/
def msgGetstr (strSz : ℕ) : MemoryReader σ (List UInt8) := do
  let len ← .byte
  if strSz ≤ len.toNat then .refuse len.toNat else .bytes len.toNat

/-- `ioc_msg_get_ushort`. -/
def msgGetUshort (twoBytes : Bool) : MemoryReader σ ℕ := do
  let li ← .byte
  if twoBytes then do
    let high ← .byte
    pure (li.toNat + 0x100 * high.toNat)
  else pure li.toNat

/-- `ioc_msg_get_uint`. -/
def msgGetUint (twoBytes fourBytes : Bool) : MemoryReader σ ℕ := do
  let x ← .byte
  if twoBytes || fourBytes then do
    let x1 ← .byte
    if fourBytes then do
      let x2 ← .byte
      let x3 ← .byte
      pure (x.toNat + 0x100 * x1.toNat + 0x10000 * x2.toNat + 0x1000000 * x3.toNat)
    else pure (x.toNat + 0x100 * x1.toNat)
  else pure x.toNat

end Parts

def cStringText (str : List UInt8) : String :=
  String.ofList ((str.takeWhile fun c => decide (c ≠ 0)).map fun c => Char.ofNat c.toNat)

/-! ## Messages -/

/-- What `ioc_process_received_mbinfo_frame` reads. -/
structure MbinfoMessage where
  deviceNr : ℕ
  nbytes : ℕ
  flags : ℕ
  deviceName : List UInt8
  networkName : List UInt8
  mblkName : List UInt8
  deriving DecidableEq

/-- `iocUser`, with the received password. -/
structure ReceivedUser where
  userName : List UInt8
  networkName : List UInt8
  password : List UInt8
  flags : UInt8
  deriving DecidableEq

/-- The end which receives a system frame: the root, the connection and what they
keep for automatic device numbers, in `numbering` the reservations of the root. -/
structure SystemFrameEnd (ν : Type) where
  named : NamedRoot
  con : SecuredConnection
  noCertChain : Bool
  dstFrameSz : ℤ
  rootDeviceNr : ℕ
  numbering : ν
  autoDeviceNr : ℕ
  uniqueIdBin : List UInt8

/-- What a received frame meets besides the receiving end: what
`ioc_get_automatic_device_nr` reserves, what the authorization function returns,
and what creating and growing a memory block takes. -/
structure SystemFrameContext (ν : Type) where
  sizes : MessageSizes
  code : IntegerCode
  getAutomaticDeviceNr : ν → List UInt8 → ℕ × ν
  authorize : ReceivedUser → Bool × List AllowedNetwork
  draws : List ℕ
  fresh : Mem
  newbuf : Option Mem

/-- `IOC_AUTO_DEVICE_NR`. -/
def autoDeviceNumber : ℕ := 9000

/-- `IOC_TO_AUTO_DEVICE_NR`. -/
def toAutoDeviceNumber : ℕ := autoDeviceNumber - 1

namespace SystemFrameContext

variable {ν : Type} (ctx : SystemFrameContext ν)

/-! ## Memory block infos -/

def readDeviceNames {σ : Type} (sizes : MessageSizes) :
    MemoryReader σ (List UInt8 × List UInt8) := do
  let deviceName ← msgGetstr sizes.name
  let networkName ← msgGetstr sizes.networkName
  pure (deviceName, networkName)

/-- The beginning of `ioc_process_received_mbinfo_frame`. -/
def readMbinfo {σ : Type} (sizes : MessageSizes) : MemoryReader σ MbinfoMessage := do
  let iflags ← .byte
  let deviceNr ← msgGetUint (iflags.toNat.testBit 1) (iflags.toNat.testBit 2)
  let nbytes ← msgGetUint (iflags.toNat.testBit 3) (iflags.toNat.testBit 4)
  let flags ← msgGetUshort (iflags.toNat.testBit 5)
  let names ← .optional (iflags.toNat.testBit 6) (readDeviceNames sizes) ([], [])
  let mblkName ← .optional (iflags.toNat.testBit 7) (msgGetstr sizes.name) []
  pure ⟨deviceNr, nbytes, flags, names.1, names.2, mblkName⟩

def numbered (s : SystemFrameEnd ν) (deviceNr : ℕ) : SystemFrameEnd ν × ℕ :=
  if deviceNr = autoDeviceNumber then
    if s.autoDeviceNr = 0 then
      let reserved := ctx.getAutomaticDeviceNr s.numbering s.uniqueIdBin
      ({ s with autoDeviceNr := reserved.1, numbering := reserved.2 }, reserved.1)
    else (s, s.autoDeviceNr)
  else if deviceNr = toAutoDeviceNumber ∧ s.rootDeviceNr = autoDeviceNumber then
    (s, autoDeviceNumber)
  else (s, deviceNr)

/-- The end of `ioc_process_received_mbinfo_frame`. -/
def mbinfoReceived (mblkId : ℕ) (msg : MbinfoMessage) (s : SystemFrameEnd ν) :
    SystemFrameEnd ν :=
  let given := ctx.numbered s msg.deviceNr
  let info : MemoryBlockInfo :=
    { name :=
        { mblkName := cStringText msg.mblkName
          deviceName := cStringText msg.deviceName
          deviceNr := given.2
          networkName := cStringText msg.networkName }
      mblkId := mblkId
      nbytes := osInt msg.nbytes
      down := msg.flags.testBit 0
      up := msg.flags.testBit 1
      bidirectional := msg.flags.testBit 3 }
  { given.1 with
    named := given.1.named.mbinfoReceived given.1.con info ctx.draws ctx.fresh ctx.newbuf }

def processReceivedMbinfoFrame (mblkId : ℕ) : MemoryReader (SystemFrameEnd ν) Unit := do
  let msg ← readMbinfo ctx.sizes
  .modifyState (ctx.mbinfoReceived mblkId msg)

/-! ## Authentication messages -/

/-- The flags of the message change those of the connection before anything else
is read. -/
def setAuthFlags (authFlags : UInt8) (s : SystemFrameEnd ν) : SystemFrameEnd ν :=
  { s with
    con :=
      s.con.setFlags
        { connectUp := authFlags.toNat.testBit 4
          bidirectionalCom := authFlags.toNat.testBit 7
          cloudCon := authFlags.toNat.testBit 3
          networkName := ""
          complete := false }
    noCertChain := s.noCertChain || authFlags.toNat.testBit 2 }

def numberedUserName (userName : List UInt8) (deviceNr : ℕ) : List UInt8 :=
  if deviceNr = 0 then userName
  else
    ((userName.takeWhile fun c => decide (c ≠ 0)) ++
      (Nat.toDigits 10 deviceNr).map fun c => UInt8.ofNat c.toNat).take
        (ctx.sizes.deviceId - 1)

/-- The networks which the authorization function allows replace those of the
connection, also if it does not accept the user. -/
def authorizeUser (user : ReceivedUser) : MemoryReader (SystemFrameEnd ν) Unit := do
  let authorized := ctx.authorize user
  .modifyState fun s =>
    { s with
      con :=
        { s.con with
          security := { s.con.security with allowedNetworks := authorized.2 } } }
  if authorized.1 then pure () else .refuse 0

/-- The end of `ioc_process_received_authentication_message`. -/
def acceptUser (user : ReceivedUser) : MemoryReader (SystemFrameEnd ν) Unit := do
  let s ← .getState
  .optional
    (s.con.security.authorizationFunc && s.con.security.listener &&
      s.con.security.secureConnection) (ctx.authorizeUser user) ()
  .modifyState fun s =>
    { s with
      named :=
        s.named.acceptAuthentication
          { connectUp := user.flags.toNat.testBit 4
            bidirectionalCom := user.flags.toNat.testBit 7
            cloudCon := user.flags.toNat.testBit 3
            networkName := cStringText user.networkName
            complete := true }
      con := { s.con with authenticationReceived := true } }

def limitFrameSize (mblkId : ℕ) (s : SystemFrameEnd ν) : SystemFrameEnd ν :=
  if minFrameSz ≤ mblkId ∧ (mblkId : ℤ) ≤ maxFrameSz ∧ (mblkId : ℤ) < s.dstFrameSz then
    { s with dstFrameSz := mblkId }
  else s

def processReceivedAuthenticationMessage (mblkId : ℕ) :
    MemoryReader (SystemFrameEnd ν) Unit := do
  let authFlags ← .byte
  .modifyState (setAuthFlags authFlags)
  let userName ← msgGetstr ctx.sizes.deviceId
  let deviceNr ← msgGetUint (authFlags.toNat.testBit 5) (authFlags.toNat.testBit 6)
  let uniqueId ←
    .optional (authFlags.toNat.testBit 1) (.bytes ctx.sizes.uniqueIdBin)
      (List.replicate ctx.sizes.uniqueIdBin 0)
  .modifyState fun s => { s with uniqueIdBin := uniqueId }
  let networkName ← msgGetstr ctx.sizes.networkName
  let password ← msgGetstr ctx.sizes.password
  .modifyState (limitFrameSize mblkId)
  ctx.acceptUser
    ⟨ctx.numberedUserName userName deviceNr, networkName, password, authFlags⟩

/-! ## Remove requests -/

/-- One round of `ioc_process_remove_mblk_req_frame`. -/
def processRemoveMblkRequest (id : ℤ) (s : SystemFrameEnd ν) : SystemFrameEnd ν :=
  match s.named.root.requested s.con.id id with
  | none => s
  | some pos => { s with named := s.named.removeMblkByRequest s.con pos }

def processRemoveMblkReqs : ℕ → MemoryReader (SystemFrameEnd ν) Unit
  | 0 => pure ()
  | n + 1 => do
      let id ← ctx.code.intserReader
      .modifyState (processRemoveMblkRequest id)
      processRemoveMblkReqs n

def processRemoveMblkReqFrame (nRequests : ℕ) : MemoryReader (SystemFrameEnd ν) Unit :=
  if nRequests < 1 ∨ packAbsMaxRequests < nRequests then .refuse 0
  else ctx.processRemoveMblkReqs nRequests

/-! ## System frames -/

/-- `IOC_SYSFRAME_MBLK_INFO`, `IOC_AUTHENTICATION_DATA` and
`IOC_REMOVE_MBLK_REQUEST`; frames of other types are ignored. -/
def processReceivedSystemFrame (mblkId : ℕ) : MemoryReader (SystemFrameEnd ν) Unit := do
  let type ← .byte
  if type = 1 then ctx.processReceivedMbinfoFrame mblkId
  else if type = 2 then ctx.processReceivedAuthenticationMessage mblkId
  else if type = 3 then ctx.processRemoveMblkReqFrame mblkId
  else pure ()

end SystemFrameContext

end Iocom
