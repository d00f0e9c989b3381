import Iocom.Switchbox

/-!
# The shared connection of the switchbox

Many clients reach an IO network service through one connection between the switchbox
and the service.  Both ends keep a list of clients: the switchbox the connections to
them, the service a socket for each which emulates the connection.  Data goes through
the shared connection in messages, with the client id and the length in a header.
-/

namespace Iocom

/-- `IOC_SWITCHBOX_CONNECTION_DROPPED`. -/
def iocSwitchboxConnectionDropped : ℤ := -2

/-- `IOC_SWITCHBOX_KEEPALIVE`. -/
def iocSwitchboxKeepalive : ℤ := -3

/-- `ioc_switchbox_get_msg_header_from_ringbuf`; `none` stands for `OSAL_PENDING`. -/
def getMsgHeaderFromRingbuf (r : OsalRingBuf) : Option (UInt16 × ℤ × OsalRingBuf) :=
  match r.bytes.take sboxHdrSize with
  | [id0, id1, len0, len1, len2, len3] =>
      some (UInt16.ofNat (id0.toNat + 256 * id1.toNat),
        osInt (len0.toNat + 256 * len1.toNat + 65536 * len2.toNat + 16777216 * len3.toNat),
        r.drop sboxHdrSize)
  | _ => none

def emptyRing (capacity : ℕ) : OsalRingBuf := ⟨capacity, [], Nat.zero_le _⟩

/-- The `switchboxConnection` of a client, or the `switchboxSocket` which emulates it at
the service.  `stopped` is `stop_thread`, or a status which is an error; an emulated
socket has neither of the flags for messages. -/
structure SwitchboxEntry extends SwitchboxClient where
  outgoing : OsalRingBuf
  stopped : Bool
  connectionDroppedMessageDone : Bool

/-- One end of the shared connection: the `switchboxConnection` of the service, or the
shared `switchboxSocket`.  While a message is received, `incomingBytes` are missing. -/
structure SwitchboxShared where
  list : List SwitchboxEntry
  incoming : OsalRingBuf
  outgoing : OsalRingBuf
  currentIx : ℤ
  incomingBytes : ℕ
  incomingClientId : UInt16

namespace SwitchboxShared

def server (s : SwitchboxShared) : SwitchboxServer :=
  ⟨s.list.map SwitchboxEntry.toSwitchboxClient, s.outgoing, s.currentIx⟩

/-- The clients have been served. -/
def withServer (s : SwitchboxShared) (server : SwitchboxServer) : SwitchboxShared :=
  { s with
    list := s.list.zipWith (fun c client => { c with toSwitchboxClient := client })
      server.clients
    outgoing := server.outgoing
    currentIx := server.currentIx }

/-- The client to serve first is selected, and data of the clients is moved.  A loop which
does not end in one round does not end at all: `none`. -/
def serve (select : SwitchboxServer → SwitchboxServer × Option ℕ)
    (move : ℕ → ℕ → SwitchboxServer → Option ServeState) (s : SwitchboxShared) :
    Option SwitchboxShared :=
  match select s.server with
  | (server, none) => some (s.withServer server)
  | (server, some current) =>
      (move s.list.length current server).map fun t =>
        s.withServer { server with clients := t.clients, outgoing := t.outgoing }

/-- The header of the next message, when nothing is missing of the one before. -/
def takeHeader (control : SwitchboxShared → UInt16 → ℤ → SwitchboxShared × Option UInt16)
    (s : SwitchboxShared) : SwitchboxShared × Option UInt16 :=
  if s.incomingBytes ≠ 0 then (s, none)
  else
    match getMsgHeaderFromRingbuf s.incoming with
    | none => (s, none)
    | some (clientId, bytes, incoming) =>
        let s := { s with incoming := incoming }
        if 0 < bytes then
          ({ s with incomingClientId := clientId, incomingBytes := bytes.toNat }, none)
        else control s clientId bytes

/-- The control codes in `ioc_switchbox_run_shared_socket`.  A dropped connection is
looked for with the client id of the last data. -/
def socketControl (s : SwitchboxShared) (clientId : UInt16) (bytes : ℤ) :
    SwitchboxShared × Option UInt16 :=
  if bytes = iocSwitchboxNewConnection then (s, some clientId)
  else if bytes = iocSwitchboxConnectionDropped then
    ({ s with
      list := s.list.map fun c =>
        if c.clientId = s.incomingClientId then { c with stopped := true } else c }, none)
  else (s, none)

/-- The control codes in `ioc_switchbox_service_con_run`. -/
def serviceControl (s : SwitchboxShared) (_clientId : UInt16) (bytes : ℤ) :
    SwitchboxShared × Option UInt16 :=
  if bytes = iocSwitchboxConnectionDropped then
    ({ s with
      list := s.list.map fun c =>
        if c.newConnectionMsgSent ∧ c.clientId = s.incomingClientId then
          { c with stopped := true, connectionDroppedMessageDone := true }
        else c }, none)
  else (s, none)

/-- The data which has come for a client goes to its outgoing buffer.  `skipData` is
`ioc_switchbox_ringbuf_skip_data`, for a client which is not there any more. -/
def moveData (skipData : OsalRingBuf → ℕ → OsalRingBuf) (present : SwitchboxEntry → Bool)
    (s : SwitchboxShared) : SwitchboxShared :=
  if s.incomingBytes = 0 then s
  else
    let bytes := min s.incoming.bytes.length s.incomingBytes
    match s.list.findIdx? fun c => present c && c.clientId == s.incomingClientId with
    | some i =>
        match s.list[i]? with
        | none => s
        | some c =>
            let bytes := min bytes c.outgoing.space
            let moved := switchboxRingbufMove c.outgoing s.incoming bytes
            { s with
              list := s.list.set i { c with outgoing := moved.1 }
              incoming := moved.2
              incomingBytes := s.incomingBytes - bytes }
    | none =>
        if bytes = 0 then s
        else
          { s with
            incoming := skipData s.incoming bytes
            incomingBytes := s.incomingBytes - bytes
            outgoing :=
              if s.incomingBytes - bytes = 0 then
                (storeMsgHeaderToRingbuf s.outgoing s.incomingClientId
                  iocSwitchboxConnectionDropped).getD s.outgoing
              else s.outgoing }

/-- `idle` tells that no work was done and `IOC_SOCKET_KEEPALIVE_MS` has elapsed. -/
def keepAlive (idle : Bool) (s : SwitchboxShared) : SwitchboxShared :=
  if idle && s.outgoing.bytes.isEmpty then
    { s with
      outgoing :=
        (storeMsgHeaderToRingbuf s.outgoing 0 iocSwitchboxKeepalive).getD s.outgoing }
  else s

/-- What `ioc_switchbox_run_shared_socket` does under `os_lock`, with the client id of the
new socket; `malloc` tells whether there is memory for it. -/
def runSharedSocket (skipData : OsalRingBuf → ℕ → OsalRingBuf) (idle malloc : Bool)
    (s : SwitchboxShared) : Option (SwitchboxShared × Option UInt16) :=
  (s.serve selectIndividualSocket moveToSharedSocket).map fun s =>
    let (s, newsocket) := s.takeHeader socketControl
    -- `OSAL_STATUS_MEMORY_ALLOCATION_FAILED` is returned, and the header is lost.
    if newsocket.isSome && !malloc then (s, none)
    else ((s.moveData skipData fun _ => true).keepAlive idle, newsocket)

/-- What `ioc_switchbox_service_con_run` does under `ioc_switchbox_lock`. -/
def serviceConRun (skipData : OsalRingBuf → ℕ → OsalRingBuf) (idle : Bool)
    (s : SwitchboxShared) : Option SwitchboxShared :=
  (s.serve selectConnection moveToService).map fun s =>
    let (s, _) := s.takeHeader serviceControl
    (s.moveData skipData fun c => c.newConnectionMsgSent).keepAlive idle

/-- `ioc_read_from_shared_switchbox_socket`, or `ioc_switchbox_read_socket` of the service,
when the stream gives so many bytes at most: what is left in the stream. -/
def readSocket (s : SwitchboxShared) (stream : List UInt8) (given : ℕ) :
    SwitchboxShared × List UInt8 :=
  let n := min given s.incoming.space
  ({ s with incoming := s.incoming.put (stream.take n) }, stream.drop n)

/-- `ioc_write_to_shared_switchbox_socket`, or `ioc_switchbox_write_socket` of the service,
when the stream takes so many bytes at most: what is written. -/
def writeSocket (s : SwitchboxShared) (accepted : ℕ) : SwitchboxShared × List UInt8 :=
  ({ s with outgoing := s.outgoing.drop accepted }, s.outgoing.bytes.take accepted)

end SwitchboxShared

/-! ## Client ids -/

/-- What `ioc_new_switchbox_client_id` uses of the root: `con` holds the client ids of the
client connections. -/
structure SwitchboxRoot where
  currentClientId : UInt16
  con : List UInt16

/-- `client_id++`, and once more where it comes to 0. -/
def incrementClientId (clientId : UInt16) : UInt16 :=
  if clientId + 1 = 0 then clientId + 1 + 1 else clientId + 1

def searchClientId (con : List UInt16) : ℕ → UInt16 → Option UInt16
  | 0, _ => none
  | rounds + 1, clientId =>
      let clientId := incrementClientId clientId
      if clientId ∈ con then searchClientId con rounds clientId else some clientId

/-- `ioc_new_switchbox_client_id`; after so many rounds it has tried all client ids. -/
def newSwitchboxClientId (root : SwitchboxRoot) : Option (UInt16 × SwitchboxRoot) :=
  (searchClientId root.con 65535 root.currentClientId).map fun clientId =>
    (clientId, { root with currentClientId := clientId })

/-! ## Both ends -/

/-- The switchbox and a service, with the streams from the switchbox (`down`) and to it
(`up`).  For each client id: what has been read from the client's socket and written to
it at the switchbox, and what the emulated socket has taken from the service and given
to it. -/
structure SwitchboxNet where
  root : SwitchboxRoot
  service : SwitchboxShared
  down : List UInt8
  up : List UInt8
  socket : SwitchboxShared
  fromClient : UInt16 → List UInt8
  toClient : UInt16 → List UInt8
  fromSocket : UInt16 → List UInt8
  toSocket : UInt16 → List UInt8

/-- The clients of the switchbox and the emulated sockets are given by their positions in
the lists. -/
inductive SwitchboxAction where
  | connect (capacity : ℕ)
  | connectOther
  | releaseOther (clientId : UInt16)
  | clientRead (i : ℕ) (data : List UInt8)
  | clientWrite (i accepted : ℕ)
  | drop (i : ℕ)
  | serviceRead (given : ℕ)
  | serviceRun (idle : Bool)
  | serviceWrite (accepted : ℕ)
  | sharedRead (given : ℕ)
  | sharedRun (idle malloc : Bool) (capacity : Option ℕ)
  | sharedWrite (accepted : ℕ)
  | socketWrite (i : ℕ) (data : List UInt8)
  | socketRead (i n : ℕ)
  | close (i : ℕ)

namespace SwitchboxNet

/-- More bytes of a client. -/
def addBytes (history : UInt16 → List UInt8) (clientId : UInt16) (bytes : List UInt8) :
    UInt16 → List UInt8 :=
  Function.update history clientId (history clientId ++ bytes)

/-- `ioc_switchbox_setup_client_connection` with a new ring buffer; `none` when no client
id is free. -/
def connect (s : SwitchboxNet) (capacity : ℕ) : Option SwitchboxNet :=
  (newSwitchboxClientId s.root).map fun (clientId, root) =>
    { s with
      root := { root with con := root.con ++ [clientId] }
      service :=
        { s.service with
          list := s.service.list ++
            [⟨⟨clientId, emptyRing capacity, false⟩, emptyRing capacity, false, false⟩] } }

def connectOther (s : SwitchboxNet) : Option SwitchboxNet :=
  (newSwitchboxClientId s.root).map fun (clientId, root) =>
    { s with root := { root with con := root.con ++ [clientId] } }

/-- `ioc_switchbox_read_socket` of a client connection. -/
def clientRead (s : SwitchboxNet) (i : ℕ) (data : List UInt8) : SwitchboxNet :=
  match s.service.list[i]? with
  | none => s
  | some c =>
      { s with
        service :=
          { s.service with
            list := s.service.list.set i { c with incoming := c.incoming.put data } }
        fromClient := addBytes s.fromClient c.clientId (data.take c.incoming.space) }

/-- `ioc_switchbox_write_socket` of a client connection. -/
def clientWrite (s : SwitchboxNet) (i accepted : ℕ) : SwitchboxNet :=
  match s.service.list[i]? with
  | none => s
  | some c =>
      { s with
        service :=
          { s.service with
            list := s.service.list.set i { c with outgoing := c.outgoing.drop accepted } }
        toClient := addBytes s.toClient c.clientId (c.outgoing.bytes.take accepted) }

/-- The end of the thread of a client connection: `ioc_switchbox_unlink_connection` and
`ioc_release_switchbox_connection`, after the message about it. -/
def drop (s : SwitchboxNet) (i : ℕ) : SwitchboxNet :=
  match s.service.list[i]? with
  | none => s
  | some c =>
      { s with
        root := { s.root with con := s.root.con.erase c.clientId }
        service :=
          { s.service with
            list := s.service.list.eraseIdx i
            outgoing :=
              if c.newConnectionMsgSent && !c.connectionDroppedMessageDone then
                (storeMsgHeaderToRingbuf s.service.outgoing c.clientId
                  iocSwitchboxConnectionDropped).getD s.service.outgoing
              else s.service.outgoing } }

/-- `ioc_switchbox_socket_link` of the new socket, when there is memory for its ring
buffers. -/
def link (s : SwitchboxShared) (newsocket : Option UInt16) (capacity : Option ℕ) :
    SwitchboxShared :=
  match newsocket, capacity with
  | some clientId, some capacity =>
      { s with
        list := s.list ++
          [⟨⟨clientId, emptyRing capacity, true⟩, emptyRing capacity, false, false⟩] }
  | _, _ => s

/-- `ioc_switchbox_socket_write`. -/
def socketWrite (s : SwitchboxNet) (i : ℕ) (data : List UInt8) : SwitchboxNet :=
  match s.socket.list[i]? with
  | none => s
  | some c =>
      if c.stopped then s
      else
        { s with
          socket :=
            { s.socket with
              list := s.socket.list.set i { c with incoming := c.incoming.put data } }
          fromSocket := addBytes s.fromSocket c.clientId (data.take c.incoming.space) }

/-- `ioc_switchbox_socket_read`. -/
def socketRead (s : SwitchboxNet) (i n : ℕ) : SwitchboxNet :=
  match s.socket.list[i]? with
  | none => s
  | some c =>
      if c.stopped then s
      else
        { s with
          socket :=
            { s.socket with
              list := s.socket.list.set i { c with outgoing := c.outgoing.drop n } }
          toSocket := addBytes s.toSocket c.clientId (c.outgoing.bytes.take n) }

/-- `ioc_switchbox_socket_close` of an emulated socket: it is unlinked. -/
def close (s : SwitchboxNet) (i : ℕ) : SwitchboxNet :=
  { s with socket := { s.socket with list := s.socket.list.eraseIdx i } }

def step (skipData : OsalRingBuf → ℕ → OsalRingBuf) (s : SwitchboxNet) :
    SwitchboxAction → Option SwitchboxNet
  | .connect capacity => s.connect capacity
  | .connectOther => s.connectOther
  | .releaseOther clientId =>
      some { s with root := { s.root with con := s.root.con.erase clientId } }
  | .clientRead i data => some (s.clientRead i data)
  | .clientWrite i accepted => some (s.clientWrite i accepted)
  | .drop i => some (s.drop i)
  | .serviceRead given =>
      let (service, up) := s.service.readSocket s.up given
      some { s with service := service, up := up }
  | .serviceRun idle =>
      (s.service.serviceConRun skipData idle).map fun service => { s with service := service }
  | .serviceWrite accepted =>
      let (service, written) := s.service.writeSocket accepted
      some { s with service := service, down := s.down ++ written }
  | .sharedRead given =>
      let (socket, down) := s.socket.readSocket s.down given
      some { s with socket := socket, down := down }
  | .sharedRun idle malloc capacity =>
      (s.socket.runSharedSocket skipData idle malloc).map fun (socket, newsocket) =>
        { s with socket := link socket newsocket capacity }
  | .sharedWrite accepted =>
      let (socket, written) := s.socket.writeSocket accepted
      some { s with socket := socket, up := s.up ++ written }
  | .socketWrite i data => some (s.socketWrite i data)
  | .socketRead i n => some (s.socketRead i n)
  | .close i => some (s.close i)

def run (skipData : OsalRingBuf → ℕ → OsalRingBuf) (s : SwitchboxNet)
    (actions : List SwitchboxAction) : Option SwitchboxNet :=
  actions.foldlM (step skipData) s

end SwitchboxNet

end Iocom
