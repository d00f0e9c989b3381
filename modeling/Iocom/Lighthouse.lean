import Iocom.Lib.Separated
import Mathlib.Data.Nat.Digits.Lemmas

/-!
# What a lighthouse publishes

The server appends the published networks to its nickname, each item as ports, protocol
and network name.  The client takes the text of a multicast apart again.  A string is the
list of its characters before the terminating NUL.
-/

namespace Iocom

open Separated

/-- `LIGHTHOUSE_PUBLISH_SZ`. -/
def lighthousePublishSz : ℕ := 24 * 5

def nul : Char := Char.ofNat 0

/-- `os_strncpy`. -/
def osStrncpy (src : List Char) (sz : ℕ) : List Char := src.take (sz - 1)

/-- `os_strncat`; what does not fit is left out. -/
def osStrncat (dst src : List Char) (sz : ℕ) : List Char :=
  dst ++ src.take (sz - 1 - dst.length)

/-- `osal_int_to_str`. -/
def osalIntToStr (n : ℕ) : List Char :=
  if n = 0 then ['0'] else (Nat.digits 10 n).reverse.map fun d => Char.ofNat (0x30 + d)

/-- `osal_str_to_int` for the digits at the beginning of a string. -/
def osalStrToInt (digits : List Char) : ℕ :=
  digits.foldl (fun x c => 10 * x + (c.toNat - 0x30)) 0

/-- `IOC_NETWORK_NAME_SZ`, `IOC_NAME_SZ`, and `LIGHTHOUSE_ITEM_SZ`, which is more than
the size of an IPv6 address with a port. -/
structure LighthouseParams where
  networkNameSz : ℕ
  nameSz : ℕ
  nameSz_ge : 8 ≤ nameSz
  itemSz : ℕ
  itemSz_ge : networkNameSz + 16 ≤ itemSz
  isIpv6 : Bool

/-! ## The server -/

/-- The fields of `LighthouseServerOne` which end up in a multicast. -/
structure LighthouseServerOne where
  publish : List Char
  tlsPortNr : ℕ
  tcpPortNr : ℕ
  publishSz : ℕ
  isConfigured : Bool
  deriving DecidableEq

/-- `ioc_lighthouse_start_endpoints`, after the server has been initialized. -/
def lighthouseStartEndpoints (nickname : List Char) : LighthouseServerOne where
  publish := osStrncpy nickname lighthousePublishSz
  tlsPortNr := 0
  tcpPortNr := 0
  publishSz := 0
  isConfigured := false

namespace LighthouseParams

variable (prm : LighthouseParams)

/-- The arguments of `ioc_lighthouse_add_endpoint`. -/
structure Endpoint where
  publish : List Char
  protocol : Char
  tlsPort : ℕ
  tcpPort : ℕ
  publish_noNul : nul ∉ publish
  publish_noColon : ':' ∉ publish
  publish_fits : ∀ name ∈ pieces ',' publish, name.length < prm.networkNameSz
  protocol_alpha : protocol.isAlpha = true
  tlsPort_le : tlsPort ≤ 65535
  tcpPort_le : tcpPort ≤ 65535

end LighthouseParams

/-- `ioc_lighthouse_try_set_default_ports` for TLS. -/
def LighthouseServerOne.trySetDefaultTlsPort (f : LighthouseServerOne) (port : ℕ) :
    LighthouseServerOne :=
  if port = 0 then f
  else if f.tlsPortNr ≠ 0 then f
  else { f with tlsPortNr := port % 0x10000, isConfigured := true }

/-- `ioc_lighthouse_try_set_default_ports` for TCP. -/
def LighthouseServerOne.trySetDefaultTcpPort (f : LighthouseServerOne) (port : ℕ) :
    LighthouseServerOne :=
  if port = 0 then f
  else if f.tcpPortNr ≠ 0 then f
  else { f with tcpPortNr := port % 0x10000, isConfigured := true }

namespace LighthouseParams

variable (prm : LighthouseParams)

/-- The mark of a transport, and the port unless it is the default. -/
def appendPort (mark : Char) (port default : ℕ) (buf : List Char) : List Char :=
  if port = 0 then buf
  else
    let buf := osStrncat buf [mark] prm.itemSz
    if port = default then buf else osStrncat buf (osalIntToStr port) prm.itemSz

variable {prm}

/-- The item for a name of the list; `sz` stops it at the end of the name. -/
def itemText (f : LighthouseServerOne) (endpoint : prm.Endpoint) (name : List Char) :
    List Char :=
  let buf := osStrncpy [','] prm.itemSz
  let buf := prm.appendPort (if prm.isIpv6 then 'T' else 't') endpoint.tlsPort f.tlsPortNr buf
  let buf := prm.appendPort (if prm.isIpv6 then 'S' else 's') endpoint.tcpPort f.tcpPortNr buf
  let buf := osStrncat buf [':'] prm.itemSz
  let buf := osStrncat buf [endpoint.protocol] prm.itemSz
  let buf := osStrncat buf [':'] prm.itemSz
  let sz := name.length + (buf.length + 1)
  osStrncat buf name (if prm.itemSz < sz then prm.itemSz else sz)

def appendItem (endpoint : prm.Endpoint) (f : LighthouseServerOne) (name : List Char) :
    LighthouseServerOne :=
  { f with publish := osStrncat f.publish (itemText f endpoint name) lighthousePublishSz }

/-- `ioc_lighthouse_add_endpoint` for one address family. -/
def lighthouseAddEndpoint (f : LighthouseServerOne) (endpoint : prm.Endpoint) :
    LighthouseServerOne :=
  if endpoint.tcpPort = 0 ∧ endpoint.tlsPort = 0 then f
  else
    let f := f.trySetDefaultTlsPort endpoint.tlsPort
    let f := f.trySetDefaultTcpPort endpoint.tcpPort
    let f := (pieces ',' endpoint.publish).foldl (appendItem endpoint) f
    { f with publishSz := (f.publish.length + 1) % 0x100 }

end LighthouseParams

/-! ## The client -/

/-- What the callback of the client gets; the address and the nickname are the same for
all items. -/
structure LighthouseReport where
  networkName : List Char
  protocol : List Char
  tlsPortNr : ℕ
  tcpPortNr : ℕ
  deriving DecidableEq

def readMarks (tlsDefault tcpDefault : ℕ) : ℕ → List Char → ℕ × ℕ → Option (ℕ × ℕ)
  | _, [], ports => some ports
  | 0, _ :: _, _ => none
  | fuel + 1, mark :: q, ports =>
      let portNr := osalStrToInt (q.takeWhile Char.isDigit) % 0x10000
      let rest := q.dropWhile Char.isDigit
      if mark = 'T' ∨ mark = 't' then
        readMarks tlsDefault tcpDefault fuel rest
          (if portNr ≠ 0 then portNr else tlsDefault, ports.2)
      else if mark = 'S' ∨ mark = 's' then
        readMarks tlsDefault tcpDefault fuel rest
          (ports.1, if portNr ≠ 0 then portNr else tcpDefault)
      else none

namespace LighthouseParams

variable (prm : LighthouseParams)

/-- The size of `network_item`. -/
def networkItemSz : ℕ := prm.networkNameSz + prm.nameSz + 10

def parseNetworkItem (tlsDefault tcpDefault : ℕ) (text : List Char) :
    Option LighthouseReport :=
  let networkItem := osStrncpy text
    (if prm.networkItemSz < text.length + 1 then prm.networkItemSz else text.length + 1)
  match networkItem.dropWhile (· ≠ ':') with
  | [] => none
  | _ :: protocol =>
      match protocol.dropWhile (· ≠ ':') with
      | [] => none
      | _ :: networkName =>
          let marks := networkItem.takeWhile (· ≠ ':')
          (readMarks tlsDefault tcpDefault marks.length marks (0, 0)).map fun ports =>
            { networkName := networkName.takeWhile (· ≠ ':')
              protocol := protocol.takeWhile (· ≠ ':')
              tlsPortNr := ports.1
              tcpPortNr := ports.2 }

end LighthouseParams

def cString (mem : List Char) : List Char := mem.takeWhile (· ≠ nul)

/-- The memory from `msg.publish` on, after a packet has been received: `leftover` is
what is behind the received bytes. -/
def publishMemory (f : LighthouseServerOne) (leftover : List Char) : List Char :=
  ((f.publish ++ [nul]).take f.publishSz ++ leftover).set (lighthousePublishSz - 1) nul

/-- The text after the nickname: `p` points to the first comma or, without a comma, to
the terminating NUL, and is moved on by one. -/
def networksText (mem : List Char) : List Char :=
  let publish := cString mem
  let p := publish.takeWhile (· ≠ ',')
  cString (mem.drop (p.length + 1))

/-- The part of `ioc_run_lighthouse_client` which takes a multicast of the server apart. -/
def LighthouseParams.lighthouseClient (prm : LighthouseParams) (f : LighthouseServerOne)
    (leftover : List Char) : List LighthouseReport :=
  if f.publishSz < 1 ∨ lighthousePublishSz < f.publishSz then []
  else if f.tlsPortNr ≠ 0 ∨ f.tcpPortNr ≠ 0 then
    (pieces ',' (networksText (publishMemory f leftover))).filterMap
      (prm.parseNetworkItem f.tlsPortNr f.tcpPortNr)
  else []

end Iocom
