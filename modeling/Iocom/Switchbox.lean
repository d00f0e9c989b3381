import Iocom.MemoryBlock
import Iocom.Lib.RoundWalk
import Mathlib.Algebra.BigOperators.Group.List.Basic

/-!
# Switchbox service

How `ioc_switchbox_run_shared_socket` and `ioc_switchbox_service_con_run` select the
client to serve first, and how they move the data of the clients to the shared socket.
-/

namespace Iocom

/-- `osalRingBuf`: the bytes which wait in it, and how many it can hold. -/
structure OsalRingBuf where
  capacity : ℕ
  bytes : List UInt8
  fits : bytes.length ≤ capacity

namespace OsalRingBuf

/-- `osal_ringbuf_space`. -/
def space (r : OsalRingBuf) : ℕ := r.capacity - r.bytes.length

/-- `osal_ringbuf_put`: what fits is stored. -/
def put (r : OsalRingBuf) (data : List UInt8) : OsalRingBuf where
  capacity := r.capacity
  bytes := r.bytes ++ data.take r.space
  fits := by
    have h := r.fits
    simp only [List.length_append, List.length_take, space]
    omega

/-- The bytes after the first `n`. -/
def drop (r : OsalRingBuf) (n : ℕ) : OsalRingBuf where
  capacity := r.capacity
  bytes := r.bytes.drop n
  fits := by
    have h := r.fits
    simp only [List.length_drop]
    omega

end OsalRingBuf

/-- `SBOX_HDR_SIZE`. -/
def sboxHdrSize : ℕ := 6

/-- `IOC_SWITCHBOX_NEW_CONNECTION`. -/
def iocSwitchboxNewConnection : ℤ := -1

def msgHeader (clientId : UInt16) (dataLen : ℤ) : List UInt8 :=
  [UInt8.ofNat (clientId.toNat % 256), UInt8.ofNat (clientId.toNat / 256),
    UInt8.ofNat (dataLen % 256).toNat, UInt8.ofNat (dataLen / 256 % 256).toNat,
    UInt8.ofNat (dataLen / 65536 % 256).toNat, UInt8.ofNat (dataLen / 16777216 % 256).toNat]

/-- `ioc_switchbox_store_msg_header_to_ringbuf`; `none` stands for `OSAL_PENDING`. -/
def storeMsgHeaderToRingbuf (r : OsalRingBuf) (clientId : UInt16) (dataLen : ℤ) :
    Option OsalRingBuf :=
  if r.space < sboxHdrSize then none else some (r.put (msgHeader clientId dataLen))

/-- `ioc_switchbox_ringbuf_move`: the destination and the source afterwards. -/
def switchboxRingbufMove (dst src : OsalRingBuf) (n : ℕ) : OsalRingBuf × OsalRingBuf :=
  let n := min (min n src.bytes.length) dst.space
  (dst.put (src.bytes.take n), src.drop n)

structure SwitchboxClient where
  clientId : UInt16
  incoming : OsalRingBuf
  newConnectionMsgSent : Bool

/-- The shared socket with its clients in the order of its list, and the counter
`current_individual_socket_ix` or `current_connection_ix`. -/
structure SwitchboxServer where
  clients : List SwitchboxClient
  outgoing : OsalRingBuf
  currentIx : ℤ

/-! ## The client to serve first -/

/-- The first loop of `ioc_switchbox_run_shared_socket`: the counter, and the position of
the selected client. -/
def selectIndividualSocket (s : SwitchboxServer) : SwitchboxServer × Option ℕ :=
  let ix := osInt (s.currentIx + 1)
  let found := (List.range s.clients.length).foldl
    (fun (found : Option ℕ) (i : ℕ) => if (i : ℤ) = ix then some i else found) none
  let current := found.or (if s.clients = [] then none else some 0)
  ({ s with currentIx := ix }, current)

/-- What the first loop of `ioc_switchbox_service_con_run` has gone through. -/
structure ServiceScan where
  clients : List SwitchboxClient
  outgoing : OsalRingBuf
  current : Option ℕ

/-- The first loop of `ioc_switchbox_service_con_run`: new connection messages are stored
as far as they fit, and the client in turn is selected. -/
def ServiceScan.visit (ix : ℤ) (scan : ServiceScan) (c : SwitchboxClient) : ServiceScan :=
  let i := scan.clients.length
  let select := fun scan : ServiceScan =>
    if (i : ℤ) ≤ ix ∧ scan.current = none then { scan with current := some i } else scan
  if c.newConnectionMsgSent then select { scan with clients := scan.clients ++ [c] }
  else
    match storeMsgHeaderToRingbuf scan.outgoing c.clientId iocSwitchboxNewConnection with
    | none => { scan with clients := scan.clients ++ [c] }
    | some outgoing =>
        select
          { scan with
            clients := scan.clients ++ [{ c with newConnectionMsgSent := true }]
            outgoing := outgoing }

/-- The selection in `ioc_switchbox_service_con_run`. -/
def selectConnection (s : SwitchboxServer) : SwitchboxServer × Option ℕ :=
  let ix := osInt (s.currentIx + 1)
  let scan := s.clients.foldl (ServiceScan.visit ix) ⟨[], s.outgoing, none⟩
  let scanned := { s with clients := scan.clients, outgoing := scan.outgoing, currentIx := ix }
  match scan.current with
  | some i => (scanned, some i)
  | none =>
      match scan.clients.findIdx? SwitchboxClient.newConnectionMsgSent with
      | none => (scanned, none)
      | some i => ({ scanned with currentIx := i }, some i)

/-! ## Moving data to the shared socket -/

/-- The clients and the outgoing buffer while clients are visited; `visited` holds the
positions in the order of the visits. -/
structure ServeState where
  clients : List SwitchboxClient
  outgoing : OsalRingBuf
  visited : List ℕ

/-- The client at `i` is visited. -/
def ServeState.visit (s : ServeState) (i : ℕ) : ServeState :=
  { s with visited := s.visited ++ [i] }

/-- The data of one client is moved, with a header, as far as it fits; `ready` tells of
which clients data is moved. -/
def ServeState.serve (ready : SwitchboxClient → Bool) (s : ServeState) (i : ℕ) : ServeState :=
  match s.clients[i]? with
  | none => s
  | some c =>
      if !ready c || c.incoming.bytes.isEmpty then s
      else
        let bytes := min c.incoming.bytes.length (s.outgoing.space - sboxHdrSize)
        let outgoing := (storeMsgHeaderToRingbuf s.outgoing c.clientId bytes).getD s.outgoing
        let moved := switchboxRingbufMove outgoing c.incoming bytes
        { s with
          clients := s.clients.set i { c with incoming := moved.2 }
          outgoing := moved.1 }

/-- The loop which moves the data, from the client at `i` on, in at most so many rounds;
`continue` goes on with the condition of the loop. -/
def serveLoop (ready : SwitchboxClient → Bool) (current : ℕ) :
    ℕ → ℕ → ServeState → Option ServeState
  | 0, _, _ => none
  | fuel + 1, i, s =>
      let s := s.visit i
      if s.outgoing.space < sboxHdrSize + 1 then
        if i ≠ current then serveLoop ready current fuel i s else some s
      else
        let next := RoundWalk.next s.clients.length i
        let s := s.serve ready i
        if next ≠ current then serveLoop ready current fuel next s else some s

/-- The second loop of `ioc_switchbox_run_shared_socket`. -/
def moveToSharedSocket (fuel current : ℕ) (s : SwitchboxServer) : Option ServeState :=
  serveLoop (fun _ => true) current fuel current ⟨s.clients, s.outgoing, []⟩

/-- The last loop of `ioc_switchbox_service_con_run` which moves data to the shared
socket. -/
def moveToService (fuel current : ℕ) (s : SwitchboxServer) : Option ServeState :=
  serveLoop SwitchboxClient.newConnectionMsgSent current fuel current
    ⟨s.clients, s.outgoing, []⟩

end Iocom
