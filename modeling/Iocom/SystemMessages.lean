import Iocom.BlockIdentifiers
import Iocom.SwitchboxAuth

/-!
# System messages of a connection

The frames with which an end announces a memory block and authenticates itself.  A byte of
flags tells how many bytes the numbers take and which parts there are; strings begin with
their length.
-/

namespace Iocom

open SwitchboxAuth (msgSetstr)

/-- The string in a buffer of `sz` characters, without its terminating NUL. -/
structure BufferString (sz : ℕ) where
  chars : List UInt8
  fits : chars.length < sz
  nul_notMem : 0 ∉ chars

/-- What a build sets: `OSAL_MINIMALISTIC`, `OSAL_MICROCONTROLLER` and
`OSAL_UNIQUE_ID_BIN_SZ`. -/
structure MessageBuild where
  minimalistic : Bool
  microcontroller : Bool
  uniqueIdBinSz : ℕ

/-- `IOC_NAME_SZ`, `IOC_NETWORK_NAME_SZ`, `IOC_PASSWORD_SZ` and `OSAL_UNIQUE_ID_BIN_SZ`. -/
def MessageBuild.sizes (build : MessageBuild) : MessageSizes where
  name := if build.minimalistic then 8 else 16
  networkName := 24
  password := 46
  uniqueIdBin := build.uniqueIdBinSz

/-- `frame_sz` of a connection. -/
def MessageBuild.frameSz (build : MessageBuild) (socket : Bool) : ℕ :=
  if socket then if build.microcontroller then 464 else 1392 else 96

/-! ## Numbers -/

/-- `ioc_msg_set_ushort`: the stored bytes, and whether there are two. -/
def msgSetUshort (i : ℕ) : List UInt8 × Bool :=
  if i < 256 then ([UInt8.ofNat i], false)
  else ([UInt8.ofNat i, UInt8.ofNat (i / 0x100)], true)

/-- `ioc_msg_set_uint` with both of its flags in one byte. -/
def msgSetFlaggedUint (i : ℕ) (flags twoBytesFlag fourBytesFlag : UInt8) :
    List UInt8 × UInt8 :=
  let stored := msgSetUint i flags twoBytesFlag flags fourBytesFlag
  (stored.1, stored.2.1 ||| stored.2.2)

/-- A system frame in the frame buffer, with the number in the place of the identifier. -/
def finishSystemFrame (checksum : List UInt8 → ℕ) (socket : Bool) (frameNr mblkId : ℕ)
    (content : List UInt8) : List UInt8 :=
  completeFrame checksum (generateHeader socket frameNr mblkId 0)
    (contentFlags ⟨false, false, false⟩ true) content

/-! ## Memory block infos -/

variable {build : MessageBuild}

/-- What `ioc_make_mblk_info_frame` reads of a memory block; device number and names are
those of its root where blocks have no own ones. -/
structure DescribedMblk (build : MessageBuild) where
  mblkId : UInt32
  deviceNr : UInt32
  nbytes : Int32
  flags : Int16
  localAutoId : Bool
  deviceName : BufferString build.sizes.name
  networkName : BufferString build.sizes.networkName
  mblkName : BufferString build.sizes.name

namespace DescribedMblk

/-- A number which this process gave to a device is not sent back to the device. -/
def sentDeviceNr (mblk : DescribedMblk build) (autoDeviceNr : ℕ) : ℕ :=
  if autoDeviceNumber < mblk.deviceNr.toNat ∧ mblk.deviceNr.toNat = autoDeviceNr ∧
      mblk.localAutoId = true then toAutoDeviceNumber
  else mblk.deviceNr.toNat

def named (mblk : DescribedMblk build) : Bool := !mblk.deviceName.chars.isEmpty

def mblkNamed (mblk : DescribedMblk build) : Bool := !mblk.mblkName.chars.isEmpty

def iflags (mblk : DescribedMblk build) (autoDeviceNr : ℕ) : UInt8 :=
  let iflags := (msgSetFlaggedUint (mblk.sentDeviceNr autoDeviceNr) 0 2 4).2
  let iflags := (msgSetFlaggedUint mblk.nbytes.toUInt32.toNat iflags 8 16).2
  let iflags := if (msgSetUshort mblk.flags.toUInt16.toNat).2 then iflags ||| 32 else iflags
  let iflags := if mblk.named then iflags ||| 64 else iflags
  if mblk.mblkNamed then iflags ||| 128 else iflags

/-- The content of the frame, `IOC_SYSFRAME_MBLK_INFO` first. -/
def infoContent (mblk : DescribedMblk build) (autoDeviceNr : ℕ) : List UInt8 :=
  1 :: mblk.iflags autoDeviceNr ::
    ((msgSetFlaggedUint (mblk.sentDeviceNr autoDeviceNr) 0 2 4).1 ++
      ((msgSetFlaggedUint mblk.nbytes.toUInt32.toNat 0 8 16).1 ++
        ((msgSetUshort mblk.flags.toUInt16.toNat).1 ++
          ((if mblk.named then
              msgSetstr mblk.deviceName.chars ++ msgSetstr mblk.networkName.chars
            else []) ++
            if mblk.mblkNamed then msgSetstr mblk.mblkName.chars else []))))

/-- `ioc_make_mblk_info_frame`. -/
def makeMblkInfoFrame (checksum : List UInt8 → ℕ) (socket : Bool) (frameNr autoDeviceNr : ℕ)
    (mblk : DescribedMblk build) : List UInt8 :=
  finishSystemFrame checksum socket frameNr mblk.mblkId.toNat (mblk.infoContent autoDeviceNr)

def message (mblk : DescribedMblk build) (autoDeviceNr : ℕ) : MbinfoMessage where
  deviceNr := mblk.sentDeviceNr autoDeviceNr
  nbytes := mblk.nbytes.toUInt32.toNat
  flags := mblk.flags.toUInt16.toNat
  deviceName := mblk.deviceName.chars
  networkName := if mblk.named then mblk.networkName.chars else []
  mblkName := mblk.mblkName.chars

end DescribedMblk

/-! ## Authentication messages -/

/-- What `ioc_make_authentication_message` reads of the root and of the connection;
`uniqueId` is `unique_id_bin` where secrets are supported. -/
structure AuthenticatingEnd (build : MessageBuild) where
  deviceName : BufferString build.sizes.name
  deviceNr : Int32
  networkName : BufferString build.sizes.networkName
  password : BufferString build.sizes.password
  uniqueId : Option { id : List UInt8 // id.length = build.sizes.uniqueIdBin }
  noCertChain : Bool
  userOverride : BufferString (build.sizes.name + build.sizes.networkName)
  passwordOverride : BufferString build.sizes.password
  socket : Bool
  listener : Bool
  secureConnection : Bool
  connectUp : Bool
  bidirectionalMblks : Bool
  cloudConnection : Bool

namespace AuthenticatingEnd

variable (e : AuthenticatingEnd build)

def overridden : Bool := !e.userOverride.chars.isEmpty

def userName : List UInt8 :=
  if e.overridden then e.userOverride.chars.takeWhile fun c => decide (c ≠ 46)
  else e.deviceName.chars

def sentNetworkName : List UInt8 :=
  if e.overridden && e.userOverride.chars.contains 46 then
    (e.userOverride.chars.dropWhile fun c => decide (c ≠ 46)).drop 1
  else e.networkName.chars

def sentDeviceNr : ℕ :=
  if e.overridden then 0
  else if e.deviceNr.toInt < autoDeviceNumber then e.deviceNr.toUInt32.toNat else 0

def sentUniqueId : Option (List UInt8) :=
  if e.sentDeviceNr = 0 ∧ e.socket = true ∧ e.connectUp = true then e.uniqueId.map Subtype.val
  else none

def isClient : Bool := e.secureConnection && !e.listener

def sentPassword : List UInt8 :=
  if e.isClient then
    if e.passwordOverride.chars.isEmpty then e.password.chars else e.passwordOverride.chars
  else []

def requestsCertificate : Bool := e.isClient && e.noCertChain

def authFlags : UInt8 :=
  let authFlags := (msgSetFlaggedUint e.sentDeviceNr 0 32 64).2
  let authFlags := if e.sentUniqueId.isSome then authFlags ||| 2 else authFlags
  let authFlags := if e.requestsCertificate then authFlags ||| 4 else authFlags
  let authFlags := if e.connectUp then authFlags ||| 16 else authFlags
  let authFlags := if e.bidirectionalMblks then authFlags ||| 128 else authFlags
  if e.cloudConnection then authFlags ||| 8 else authFlags

/-- The content of the frame, `IOC_AUTHENTICATION_DATA` first. -/
def content : List UInt8 :=
  2 :: e.authFlags :: (msgSetstr e.userName ++
    ((msgSetFlaggedUint e.sentDeviceNr 0 32 64).1 ++ (e.sentUniqueId.getD [] ++
      (msgSetstr e.sentNetworkName ++ msgSetstr e.sentPassword))))

/-- `ioc_make_authentication_message`. -/
def makeAuthenticationMessage (checksum : List UInt8 → ℕ) (frameNr : ℕ) : List UInt8 :=
  finishSystemFrame checksum e.socket frameNr (build.frameSz e.socket) e.content

def user : ReceivedUser where
  userName :=
    if e.sentDeviceNr = 0 then e.userName
    else e.userName ++ (Nat.toDigits 10 e.sentDeviceNr).map fun c => UInt8.ofNat c.toNat
  networkName := e.sentNetworkName
  password := e.sentPassword
  flags := e.authFlags

end AuthenticatingEnd

end Iocom
