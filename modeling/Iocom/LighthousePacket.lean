import Iocom.LighthouseText
import Iocom.Lib.TextWalk
import Mathlib.Data.Vector.Basic

/-!
# What a lighthouse client takes from a packet

The client receives a multicast into a buffer which keeps its earlier content behind the
received bytes.  It walks through the text with pointers, reports each item and remembers
the networks with the transport it looks for.
-/

namespace Iocom

open Separated TextWalk

/-- With `OSAL_IPADDR_SZ` and `LIGHTHOUSE_NRO_NETS`. -/
structure LighthouseClientParams extends LighthouseParams where
  ipaddrSz : ℕ
  nroNets : ℕ
  nroNets_pos : 0 < nroNets

/-- `iocTransportEnum`, as far as the client uses it. -/
inductive LighthouseTransport
  | defaultTransport
  | tcpSocket
  | tlsSocket
  deriving DecidableEq

structure LightHouseNetwork (networkNameSz : ℕ) where
  ipAddr : List Char
  portNr : ℕ
  transport : LighthouseTransport
  networkName : List Char
  networkName_fits : networkName.length < networkNameSz
  receivedTimer : ℤ

structure LighthouseClient (prm : LighthouseClientParams) where
  net : Vector (LightHouseNetwork prm.networkNameSz) prm.nroNets
  selectTls : Bool

/-- `os_has_elapsed_since`. -/
def osHasElapsedSince (startTimer nowTimer periodMs : ℤ) : Bool :=
  periodMs ≤ nowTimer - startTimer

namespace LighthouseClient

variable {prm : LighthouseClientParams}

def isLoopback (ipAddr : List Char) : Bool :=
  ipAddr = "127.0.0.1".toList ∨ ipAddr = "::1".toList

def oldestNet (c : LighthouseClient prm) : Fin prm.nroNets :=
  ((List.finRange prm.nroNets).drop 1).foldl
    (fun selected i =>
      if osHasElapsedSince c.net[selected].receivedTimer c.net[i].receivedTimer 1 then selected
      else i)
    ⟨0, prm.nroNets_pos⟩

def matchingNet (c : LighthouseClient prm) (transport : LighthouseTransport)
    (networkName : List Char) : Option (Fin prm.nroNets) :=
  c.net.findFinIdx? fun n => n.transport = transport ∧ n.networkName = networkName

def selectedNet (c : LighthouseClient prm) (transport : LighthouseTransport)
    (networkName : List Char) : Fin prm.nroNets :=
  match c.matchingNet transport networkName with
  | some i => i
  | none =>
      match c.net.findFinIdx? fun n => n.transport = .defaultTransport with
      | some i => i
      | none => c.oldestNet

/-- `ioc_add_lighthouse_net`.  The name is copied with the size of an address; there is no
result if it does not fit into its own buffer. -/
def addLighthouseNet (c : LighthouseClient prm) (ipAddr : List Char) (portNr : ℕ)
    (transport : LighthouseTransport) (networkName : List Char) (receivedTimer : ℤ) :
    Option (LighthouseClient prm) :=
  let selected := c.selectedNet transport networkName
  let n := c.net[selected]
  if (c.matchingNet transport networkName).isSome ∧ isLoopback n.ipAddr ∧
      n.networkName = networkName ∧ !isLoopback ipAddr ∧
      !osHasElapsedSince n.receivedTimer receivedTimer 10000 then
    some c
  else if h : (osStrncpy networkName prm.ipaddrSz).length < prm.networkNameSz then
    some { c with
      net := c.net.set selected
        { ipAddr := osStrncpy ipAddr prm.ipaddrSz
          portNr := portNr
          transport := transport
          networkName := osStrncpy networkName prm.ipaddrSz
          networkName_fits := h
          receivedTimer := receivedTimer } }
  else none

end LighthouseClient

/-! ## The message -/

/-- The size of `LighthouseMessageHdr`. -/
def lighthouseHdrSz : ℕ := 24

/-- `LighthouseMessage`. -/
abbrev LighthouseMessage :=
  { bytes : List UInt8 // bytes.length = lighthouseHdrSz + lighthousePublishSz }

namespace LighthouseMessage

def byteAt (bytes : List UInt8) (i : ℕ) : ℕ := (bytes.getD i 0).toNat

def msgId (bytes : List UInt8) : ℕ := byteAt bytes 8

def hdrSz (bytes : List UInt8) : ℕ := byteAt bytes 9

def checksum (bytes : List UInt8) : ℕ := byteAt bytes 11 * 0x100 + byteAt bytes 10

def tlsPortNr (bytes : List UInt8) : ℕ := byteAt bytes 13 * 0x100 + byteAt bytes 12

def publishSz (bytes : List UInt8) : ℕ := byteAt bytes 16

def tcpPortNr (bytes : List UInt8) : ℕ := byteAt bytes 19 * 0x100 + byteAt bytes 18

def counter (bytes : List UInt8) : ℕ := byteAt bytes 21 * 0x100 + byteAt bytes 20

def byteChar (b : UInt8) : Char := Char.ofNat b.toNat

/-- The memory from `msg.publish` on. -/
def publish (bytes : List UInt8) : List Char := (bytes.drop lighthouseHdrSz).map byteChar

/-- `osal_stream_receive_packet`: the number of bytes received, and the buffer. -/
def receivePacket (earlier : LighthouseMessage) (packet : List UInt8) : ℕ × List UInt8 :=
  let received := packet.take (lighthouseHdrSz + lighthousePublishSz)
  (received.length, received ++ earlier.1.drop received.length)

def terminate (bytes : List UInt8) : List UInt8 :=
  bytes.set (lighthouseHdrSz + (lighthousePublishSz - 1)) 0

def Valid (osChecksum : List UInt8 → UInt16) (nRead : ℕ) (bytes : List UInt8) : Prop :=
  msgId bytes = 0xB3 ∧ 1 ≤ publishSz bytes ∧ publishSz bytes ≤ lighthousePublishSz ∧
    hdrSz bytes = lighthouseHdrSz ∧ lighthouseHdrSz + publishSz bytes ≤ nRead ∧
    checksum bytes =
      (osChecksum (((bytes.set 11 0).set 10 0).take (lighthouseHdrSz + publishSz bytes))).toNat

instance (osChecksum : List UInt8 → UInt16) (nRead : ℕ) (bytes : List UInt8) :
    Decidable (Valid osChecksum nRead bytes) := by
  unfold Valid
  infer_instance

end LighthouseMessage

/-! ## The run over one packet -/

structure LighthouseCallbackData extends LighthouseReport where
  ipAddr : List Char
  nickname : List Char
  counter : ℕ
  deriving DecidableEq

/-- The calls of the callback function, the client afterwards, and how far the publish
bytes have been read. -/
structure LighthouseRun (prm : LighthouseClientParams) where
  calls : List LighthouseCallbackData
  client : LighthouseClient prm
  far : ℕ

namespace LighthouseClient

variable {prm : LighthouseClientParams}

def transport (c : LighthouseClient prm) : LighthouseTransport :=
  if c.selectTls then .tlsSocket else .tcpSocket

def selectPort (selectTls : Bool) (r : LighthouseReport) : ℕ :=
  if selectTls then r.tlsPortNr else r.tcpPortNr

/-- Only networks of the iocom protocol with the transport of the client are remembered. -/
def rememberNet (remoteAddr : List Char) (receivedTimer : ℤ) (c : LighthouseClient prm)
    (r : LighthouseReport) : Option (LighthouseClient prm) :=
  if selectPort c.selectTls r ≠ 0 ∧ r.protocol = ['i'] then
    c.addLighthouseNet remoteAddr (selectPort c.selectTls r) c.transport r.networkName
      receivedTimer
  else some c

/-- The part of `ioc_run_lighthouse_client` behind the checks.  There is no result if a
pointer leaves the memory of the message or a name its buffer. -/
def parsePublish (c : LighthouseClient prm) (bytes : List UInt8) (remoteAddr : List Char)
    (receivedTimer : ℤ) : Option (LighthouseRun prm) :=
  let tlsPortNr := LighthouseMessage.tlsPortNr bytes
  let tcpPortNr := LighthouseMessage.tcpPortNr bytes
  if tlsPortNr ≠ 0 ∨ tcpPortNr ≠ 0 then
    (readText ',' nul (LighthouseMessage.publish bytes)).bind fun (first, items, far) =>
      let n := if prm.nameSz < first.length + 1 then prm.nameSz else first.length + 1
      let reports := items.filterMap (prm.parseNetworkItem tlsPortNr tcpPortNr)
      (reports.foldlM (rememberNet remoteAddr receivedTimer) c).map fun c =>
        { calls := reports.map fun r =>
            { toLighthouseReport := r
              ipAddr := remoteAddr
              nickname := osStrncpy first n
              counter := LighthouseMessage.counter bytes }
          client := c
          far := far }
  else some ⟨[], c, 0⟩

/-- `ioc_run_lighthouse_client` for one packet. -/
def runLighthouseClient (osChecksum : List UInt8 → UInt16) (c : LighthouseClient prm)
    (earlier : LighthouseMessage) (packet : List UInt8) (remoteAddr : List Char)
    (receivedTimer : ℤ) : Option (LighthouseRun prm) :=
  let received := LighthouseMessage.receivePacket earlier packet
  let bytes := LighthouseMessage.terminate received.2
  if LighthouseMessage.Valid osChecksum received.1 bytes then
    c.parsePublish bytes remoteAddr receivedTimer
  else some ⟨[], c, 0⟩

end LighthouseClient

/-! ## What is remembered -/

namespace LighthouseClient

variable {prm : LighthouseClientParams} {c c' : LighthouseClient prm} {remoteAddr : List Char}
  {portNr : ℕ} {networkName : List Char} {transport : LighthouseTransport} {receivedTimer : ℤ}

theorem addLighthouseNet_isSome_iff :
    (c.addLighthouseNet remoteAddr portNr transport networkName receivedTimer).isSome ↔
      (osStrncpy networkName prm.ipaddrSz).length < prm.networkNameSz := by
  unfold addLighthouseNet
  dsimp only
  split_ifs with hkept hfits
  · have hname := hkept.2.2.1
    have hlength := (c.net[c.selectedNet transport networkName]).networkName_fits
    have hcopy : (osStrncpy networkName prm.ipaddrSz).length ≤ networkName.length := by
      simp [osStrncpy]
    rw [hname] at hlength
    simp
    omega
  · simp [hfits]
  · simp [hfits]

theorem addLighthouseNet_spec
    (h : c.addLighthouseNet remoteAddr portNr transport networkName receivedTimer = some c') :
    c'.selectTls = c.selectTls ∧
      ∀ n ∈ c'.net, n ∈ c.net ∨ n.networkName = osStrncpy networkName prm.ipaddrSz := by
  unfold addLighthouseNet at h
  dsimp only at h
  split_ifs at h with hkept hfits
  · obtain rfl := Option.some.inj h
    exact ⟨rfl, fun n hn => .inl hn⟩
  · obtain rfl := Option.some.inj h
    refine ⟨rfl, fun n hn => ?_⟩
    rcases @Vector.mem_or_eq_of_mem_set _ _ _ _ _ _ (c.selectedNet transport networkName).isLt hn
      with hold | rfl
    · exact .inl hold
    · exact .inr rfl

def StoredNameFits (prm : LighthouseClientParams) (selectTls : Bool) (r : LighthouseReport) :
    Prop :=
  selectPort selectTls r ≠ 0 → r.protocol = ['i'] →
    (r.networkName.take (prm.ipaddrSz - 1)).length < prm.networkNameSz

theorem rememberNet_isSome_iff {r : LighthouseReport} :
    (rememberNet remoteAddr receivedTimer c r).isSome ↔ StoredNameFits prm c.selectTls r := by
  unfold rememberNet StoredNameFits
  split_ifs with h
  · rw [addLighthouseNet_isSome_iff]
    exact ⟨fun hfits _ _ => hfits, fun hfits => hfits h.1 h.2⟩
  · simp only [Option.isSome_some, true_iff]
    exact fun hport hprotocol => absurd ⟨hport, hprotocol⟩ h

theorem rememberNet_spec {r : LighthouseReport}
    (h : rememberNet remoteAddr receivedTimer c r = some c') :
    c'.selectTls = c.selectTls ∧
      ∀ n ∈ c'.net, n ∈ c.net ∨ n.networkName = osStrncpy r.networkName prm.ipaddrSz := by
  unfold rememberNet at h
  split_ifs at h
  · exact addLighthouseNet_spec h
  · obtain rfl := Option.some.inj h
    exact ⟨rfl, fun n hn => .inl hn⟩

theorem rememberNets_isSome_iff {reports : List LighthouseReport} :
    (reports.foldlM (rememberNet remoteAddr receivedTimer) c).isSome ↔
      ∀ r ∈ reports, StoredNameFits prm c.selectTls r := by
  induction reports generalizing c with
  | nil => simp
  | cons r reports ih =>
      rw [List.foldlM_cons, List.forall_mem_cons,
        ← @rememberNet_isSome_iff prm c remoteAddr receivedTimer]
      cases hstep : rememberNet remoteAddr receivedTimer c r with
      | none => simp
      | some c' =>
          have hstored := (rememberNet_spec hstep).1
          have hrest := ih (c := c')
          rw [hstored] at hrest
          simpa using hrest

theorem rememberNets_spec {reports : List LighthouseReport}
    (h : reports.foldlM (rememberNet remoteAddr receivedTimer) c = some c') :
    ∀ n ∈ c'.net, n ∈ c.net ∨
      ∃ r ∈ reports, n.networkName = osStrncpy r.networkName prm.ipaddrSz := by
  induction reports generalizing c with
  | nil =>
      obtain rfl : c = c' := by simpa using h
      exact fun n hn => .inl hn
  | cons r reports ih =>
      rw [List.foldlM_cons] at h
      obtain ⟨next, hnext, hrest⟩ := Option.bind_eq_some_iff.mp h
      intro n hn
      rcases ih hrest n hn with hold | ⟨r', hr', hname⟩
      · rcases (rememberNet_spec hnext).2 n hold with hfirst | hname
        · exact .inl hfirst
        · exact .inr ⟨r, by simp, hname⟩
      · exact .inr ⟨r', by simp [hr'], hname⟩

end LighthouseClient

end Iocom
