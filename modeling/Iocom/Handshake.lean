import Iocom.Lib.Overwrite
import Mathlib.Data.List.Basic
import Mathlib.Tactic.Ring

/-!
# The handshake of a socket

The client of a socket sends one byte with its type, or a message with the name of
a cloud network; the server may send back its trust certificate.  On a secured
socket the server first sends a mark byte.  Both ends are called again and again
until they are done; the streams take and give any number of bytes in each call.
-/

namespace Iocom

open Buffer

/-- Assigning a value to an `os_char` keeps its low 8 bits. -/
def osChar (n : ℤ) : ℤ := Int.bmod n 256

inductive HandshakeClientType where
  | networkService
  | client
  deriving DecidableEq

/-- `iocHandshakeClientType`. -/
def HandshakeClientType.code : HandshakeClientType → UInt8
  | .networkService => 0x12
  | .client => 0x13

def requestTrustCertificateBit : UInt8 := 0x80
def hasNetNameBit : UInt8 := 0x40
def handshakeTypeMask : UInt8 := 0x3F
def secureMarkByte : UInt8 := 0x5B

/-- `iocHandshakeState`; allocated memory is the list of its bytes. -/
structure HandshakeState where
  clientType : UInt8
  handShakeMessageDone : Bool
  copyTrustCertificate : Bool
  markByteDone : Bool
  cloudNetnamePos : ℤ
  cloudNetnameSz : ℤ
  cloudNetname : Option (List UInt8)
  cert : Option (List UInt8)
  certSz : ℕ
  certPos : ℕ
  deriving DecidableEq

/-- `ioc_initialize_handshake_state`. -/
def initializeHandshakeState : HandshakeState where
  clientType := 0
  handShakeMessageDone := false
  copyTrustCertificate := false
  markByteDone := false
  cloudNetnamePos := 0
  cloudNetnameSz := 0
  cloudNetname := none
  cert := none
  certSz := 0xFFFF
  certPos := 0

inductive HandshakeStatus where
  | success
  | pending
  | failed
  deriving DecidableEq

/-- What one call does: how many bytes it reads, what it writes, and with which
bytes and size it calls `save_trust_certificate_func`. -/
structure HandshakeCall where
  state : HandshakeState
  status : HandshakeStatus
  read : ℕ
  written : List UInt8
  saved : List (List UInt8 × ℕ)
  deriving DecidableEq

namespace HandshakeCall

def of (status : HandshakeStatus) (s : HandshakeState) : HandshakeCall :=
  ⟨s, status, 0, [], []⟩

def andThen (first : HandshakeCall) (input : List UInt8)
    (next : HandshakeState → List UInt8 → HandshakeCall) : HandshakeCall :=
  if first.status = .success then
    let rest := next first.state (input.drop first.read)
    ⟨rest.state, rest.status, first.read + rest.read, first.written ++ rest.written,
      first.saved ++ rest.saved⟩
  else first

theorem andThen_of_success {first : HandshakeCall} {input : List UInt8}
    {next : HandshakeState → List UInt8 → HandshakeCall} (h : first.status = .success) :
    first.andThen input next =
      ⟨(next first.state (input.drop first.read)).state,
        (next first.state (input.drop first.read)).status,
        first.read + (next first.state (input.drop first.read)).read,
        first.written ++ (next first.state (input.drop first.read)).written,
        first.saved ++ (next first.state (input.drop first.read)).saved⟩ := by
  unfold HandshakeCall.andThen
  rw [if_pos h]

theorem andThen_of_ne {first : HandshakeCall} {input : List UInt8}
    {next : HandshakeState → List UInt8 → HandshakeCall} (h : first.status ≠ .success) :
    first.andThen input next = first := by
  unfold HandshakeCall.andThen
  rw [if_neg h]

theorem of_success_andThen (s : HandshakeState) (input : List UInt8)
    (next : HandshakeState → List UInt8 → HandshakeCall) :
    (HandshakeCall.of .success s).andThen input next = next s input := by
  rw [andThen_of_success rfl]
  change (⟨_, _, 0 + (next s (input.drop 0)).read, [] ++ (next s (input.drop 0)).written,
    [] ++ (next s (input.drop 0)).saved⟩ : HandshakeCall) = _
  rw [List.drop_zero, Nat.zero_add, List.nil_append, List.nil_append]
  rfl

end HandshakeCall

/-- The parameters of both ends.  `networkNameSz` is `OSAL_NETWORK_NAME_SZ`, and
`fresh` the content of memory which has not been set.  The name is a string of the
client which fits a buffer of this size, and `certificate` what the server loads. -/
structure HandshakeParams where
  networkNameSz : ℕ
  networkNameSz_le : networkNameSz ≤ 125
  secure : Bool
  clientType : HandshakeClientType
  cloudNetname : List UInt8
  cloudNetname_noNul : 0 ∉ cloudNetname
  cloudNetname_fits : cloudNetname.length + 1 ≤ networkNameSz
  requestTrustCertificate : Bool
  switchbox : Bool
  certificate : Option (List UInt8)
  certificate_fits : ∀ content, certificate = some content → content.length ≤ 65532
  fresh : ℕ → UInt8

namespace HandshakeParams

variable (prm : HandshakeParams)

/-- `os_malloc`. -/
def malloc (n : ℕ) : List UInt8 := (List.range n).map prm.fresh

/-! ## The client -/

/-- How many bytes the stream gives or takes in one call of the client, for the
reads of the size of the certificate one after the other. -/
structure ClientLimits where
  mark : ℕ
  message : ℕ
  certSize : List ℕ
  cert : ℕ

/-- `ioc_process_TLS_secured_byte`, as the client calls it. -/
def processTLSSecuredByte (given : ℕ) (s : HandshakeState) (input : List UInt8) :
    HandshakeCall :=
  if prm.secure && !s.markByteDone then
    match input.take (min given 1) with
    | [] => .of .pending s
    | markbyte :: _ =>
        if markbyte = secureMarkByte then ⟨{ s with markByteDone := true }, .success, 1, [], []⟩
        else ⟨s, .failed, 1, [], []⟩
  else .of .success s

def oneByteHandshake : UInt8 :=
  prm.clientType.code |||
    if prm.requestTrustCertificate then requestTrustCertificateBit else 0

/-- The beginning of the message phase of `ioc_client_handshake`; `none` if the name
is too long.  `os_strlen` counts the terminating NUL. -/
def startClientMessage (s : HandshakeState) : Option HandshakeState :=
  let typed := { s with clientType := prm.clientType.code }
  let len := osChar (prm.cloudNetname.length + 1)
  if typed.cloudNetname = none ∧ 1 < len then
    if (prm.networkNameSz : ℤ) < len then none
    else
      some
        { typed with
          cloudNetnameSz := osChar (len + 2)
          cloudNetname :=
            some ([prm.oneByteHandshake ||| hasNetNameBit, UInt8.ofNat len.toNat] ++
              prm.cloudNetname ++ [0])
          copyTrustCertificate := prm.requestTrustCertificate }
  else some { typed with copyTrustCertificate := prm.requestTrustCertificate }

/-- `ioc_send_client_handshake_message`. -/
def sendClientHandshakeMessage (accepted : ℕ) (s : HandshakeState) : HandshakeCall :=
  let n := osChar (s.cloudNetnameSz - s.cloudNetnamePos)
  match s.cloudNetname with
  | some buf =>
      if 0 < n then
        let written := ((buf.drop s.cloudNetnamePos.toNat).take n.toNat).take accepted
        ⟨{ s with cloudNetnamePos := osChar (s.cloudNetnamePos + written.length) },
          if (written.length : ℤ) < n then .pending else .success, 0, written, []⟩
      else
        let written := [s.clientType ||| if s.copyTrustCertificate then
          requestTrustCertificateBit else 0].take accepted
        ⟨s, if written.length < 1 then .pending else .success, 0, written, []⟩
  | none =>
      let written := [s.clientType ||| if s.copyTrustCertificate then
        requestTrustCertificateBit else 0].take accepted
      ⟨s, if written.length < 1 then .pending else .success, 0, written, []⟩

def clientMessage (accepted : ℕ) (s : HandshakeState) : HandshakeCall :=
  if s.handShakeMessageDone then .of .success s
  else
    match prm.startClientMessage s with
    | none => .of .failed s
    | some started =>
        let call := sendClientHandshakeMessage accepted started
        if call.status = .success then
          { call with state := { call.state with handShakeMessageDone := true } }
        else call

/-- The loop of `ioc_process_trust_certificate` over the bytes of the size. -/
def readCertSize : List ℕ → HandshakeState → List UInt8 → HandshakeCall
  | [], s, _ => if s.certPos < 2 then .of .pending s else .of .success s
  | given :: rest, s, input =>
      if s.certPos < 2 then
        match input.take (min given 1) with
        | [] => .of .pending s
        | c :: _ =>
            let s' :=
              { s with
                certSz := if s.certPos = 0 then c.toNat else 0x100 * c.toNat
                certPos := s.certPos + 1 }
            let call := readCertSize rest s' (input.drop 1)
            { call with read := 1 + call.read }
      else .of .success s

/-- The rest of `ioc_process_trust_certificate`. -/
def readCert (given : ℕ) (s : HandshakeState) (input : List UInt8) : HandshakeCall :=
  if s.certSz = 0 then .of .success s
  else
    let buf := s.cert.getD (prm.malloc s.certSz)
    let pos := s.certPos - 2
    let n := s.certSz - pos
    let data := input.take (min given n)
    if data = [] then .of .pending { s with cert := some buf }
    else
      let s' :=
        { s with
          cert := some (overwrite buf pos data)
          certPos := (s.certPos + data.length) % 0x10000 }
      if data.length < n then ⟨s', .pending, data.length, [], []⟩
      else ⟨s', .success, data.length, [], [(overwrite buf pos data, s.certSz)]⟩

/-- `ioc_process_trust_certificate`, if the certificate was requested. -/
def processTrustCertificate (limits : ClientLimits) (s : HandshakeState)
    (input : List UInt8) : HandshakeCall :=
  if prm.requestTrustCertificate then
    (readCertSize limits.certSize s input).andThen input (prm.readCert limits.cert)
  else .of .success s

/-- `ioc_client_handshake`. -/
def clientHandshake (limits : ClientLimits) (s : HandshakeState) (input : List UInt8) :
    HandshakeCall :=
  (prm.processTLSSecuredByte limits.mark s input).andThen input fun s input =>
    (prm.clientMessage limits.message s).andThen input (prm.processTrustCertificate limits)

/-! ## The server -/

structure ServerLimits where
  mark : ℕ
  header : ℕ
  length : ℕ
  name : ℕ
  cert : ℕ

/-- `ioc_send_byte_to_secure_TLS`, as the server calls it. -/
def sendByteToSecureTLS (accepted : ℕ) (s : HandshakeState) : HandshakeCall :=
  if !s.markByteDone && prm.secure then
    match [secureMarkByte].take accepted with
    | [] => .of .pending s
    | written => ⟨{ s with markByteDone := true }, .success, 0, written, []⟩
  else .of .success s

def readHandshakeHeader (given : ℕ) (s : HandshakeState) (input : List UInt8) :
    HandshakeCall :=
  match input.take (min given 1) with
  | [] => .of .pending { s with clientType := prm.fresh 0 }
  | c :: _ =>
      if c &&& handshakeTypeMask ≠ 0x12 ∧ c &&& handshakeTypeMask ≠ 0x13 then
        ⟨{ s with clientType := c }, .failed, 1, [], []⟩
      else
        ⟨{ s with
            clientType := c
            copyTrustCertificate :=
              s.copyTrustCertificate || decide (c &&& requestTrustCertificateBit ≠ 0)
            cloudNetnamePos := 1 }, .success, 1, [], []⟩

/-- The length byte of the name, an `os_char`.  Only a switchbox keeps the name. -/
def readNetnameLength (given : ℕ) (s : HandshakeState) (input : List UInt8) :
    HandshakeCall :=
  match input.take (min given 1) with
  | [] => .of .pending s
  | c :: _ =>
      let len := osChar c.toNat
      if len ≤ 0 ∨ (prm.networkNameSz : ℤ) < len then ⟨s, .failed, 1, [], []⟩
      else
        ⟨{ s with
            cloudNetnameSz := len
            cloudNetname :=
              if prm.switchbox then some (prm.malloc len.toNat) else s.cloudNetname
            cloudNetnamePos := 2 }, .success, 1, [], []⟩

def readNetname (given : ℕ) (s : HandshakeState) (input : List UInt8) : HandshakeCall :=
  let c := osChar (s.cloudNetnamePos - 2)
  let n := osChar (s.cloudNetnameSz - c)
  let data := input.take (min given n.toNat)
  let s' :=
    { s with
      cloudNetname := s.cloudNetname.map fun buf => overwrite buf c.toNat data
      cloudNetnamePos := osChar (s.cloudNetnamePos + data.length) }
  ⟨s', if n ≤ (data.length : ℤ) then .success else .pending, data.length, [], []⟩

/-- `ioc_process_handshake_message`. -/
def processHandshakeMessage (limits : ServerLimits) (s : HandshakeState)
    (input : List UInt8) : HandshakeCall :=
  (if s.cloudNetnamePos = 0 then prm.readHandshakeHeader limits.header s input
    else .of .success s).andThen input fun header input =>
      if s.cloudNetnamePos = 0 ∧ header.clientType &&& hasNetNameBit = 0 then
        .of .success header
      else
        (if header.cloudNetnamePos = 1 then prm.readNetnameLength limits.length header input
          else .of .success header).andThen input (readNetname limits.name)

def serverMessage (limits : ServerLimits) (s : HandshakeState) (input : List UInt8) :
    HandshakeCall :=
  if s.handShakeMessageDone then .of .success s
  else
    let call := prm.processHandshakeMessage limits s input
    if call.status = .success then
      { call with state := { call.state with handShakeMessageDone := true } }
    else call

/-- The certificate is loaded once; its size is an `os_ushort`. -/
def loadCert (s : HandshakeState) : HandshakeState :=
  if s.certSz = 0xFFFF then
    match prm.certificate with
    | none => { s with certSz := 0 }
    | some content =>
        let certSz := content.length % 0x10000
        if 0 < certSz then
          { s with
            cert := some ([UInt8.ofNat certSz, UInt8.ofNat (certSz / 0x100)] ++
              content.take certSz)
            certSz := (certSz + 2) % 0x10000 }
        else { s with certSz := 0 }
  else s

/-- `ioc_send_trust_certificate`. -/
def sendTrustCertificate (accepted : ℕ) (s : HandshakeState) : HandshakeCall :=
  let loaded := prm.loadCert s
  if 2 ≤ loaded.certSz then
    let n := loaded.certSz - loaded.certPos
    let written := (((loaded.cert.getD []).drop loaded.certPos).take n).take accepted
    ⟨{ loaded with certPos := (loaded.certPos + written.length) % 0x10000 },
      if n ≤ written.length then .success else .pending, 0, written, []⟩
  else
    let n := 2 - loaded.certPos
    let written := (List.replicate n 0).take accepted
    ⟨{ loaded with certPos := (loaded.certPos + written.length) % 0x10000 },
      if n ≤ written.length then .success else .pending, 0, written, []⟩

/-- `ioc_server_handshake`. -/
def serverHandshake (limits : ServerLimits) (s : HandshakeState) (input : List UInt8) :
    HandshakeCall :=
  (prm.sendByteToSecureTLS limits.mark s).andThen input fun s input =>
    (prm.serverMessage limits s input).andThen input fun s _ =>
      if s.copyTrustCertificate then prm.sendTrustCertificate limits.cert s
      else .of .success s

end HandshakeParams

/-! ## Two ends -/

open HandshakeParams (ClientLimits ServerLimits)

/-- Both ends and what has been written to the socket; the counts tell how much of
it the other end has read. -/
structure HandshakePair where
  client : HandshakeState
  server : HandshakeState
  clientStatus : HandshakeStatus
  serverStatus : HandshakeStatus
  toServer : List UInt8
  toClient : List UInt8
  serverRead : ℕ
  clientRead : ℕ
  saved : List (List UInt8 × ℕ)
  deriving DecidableEq

def initialHandshakePair : HandshakePair where
  client := initializeHandshakeState
  server := initializeHandshakeState
  clientStatus := .pending
  serverStatus := .pending
  toServer := []
  toClient := []
  serverRead := 0
  clientRead := 0
  saved := []

/-- An end is called until it does not return `OSAL_PENDING`. -/
inductive HandshakeAction where
  | client (limits : ClientLimits)
  | server (limits : ServerLimits)

def HandshakePair.step (prm : HandshakeParams) (t : HandshakePair) :
    HandshakeAction → HandshakePair
  | .client limits =>
      if t.clientStatus = .pending then
        let call := prm.clientHandshake limits t.client (t.toClient.drop t.clientRead)
        { t with
          client := call.state
          clientStatus := call.status
          toServer := t.toServer ++ call.written
          clientRead := t.clientRead + call.read
          saved := t.saved ++ call.saved }
      else t
  | .server limits =>
      if t.serverStatus = .pending then
        let call := prm.serverHandshake limits t.server (t.toServer.drop t.serverRead)
        { t with
          server := call.state
          serverStatus := call.status
          toClient := t.toClient ++ call.written
          serverRead := t.serverRead + call.read }
      else t

def HandshakePair.run (prm : HandshakeParams) (t : HandshakePair)
    (actions : List HandshakeAction) : HandshakePair :=
  actions.foldl (HandshakePair.step prm) t

end Iocom
