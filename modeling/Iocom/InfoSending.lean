import Iocom.AllowedNetworks
import Iocom.Lib.ListCursor

/-!
# Sending memory block infos

The functions of `ioc_memory_block_info.c` which decide what memory block info
a connection sends next.  Cursors of a connection walk the list of memory
blocks of the root (`current_mblk` and `current_cloud_mblk`) and the lists of
source and target buffers of the connection (`mbinfo_down`).
-/

namespace Iocom

/-- What the functions read of a memory block; `ptr` tells blocks apart. -/
structure InfoBlock where
  ptr : ℕ
  networkName : String
  cloudOnly : Bool
  noCloud : Bool
  floor : Bool
  deriving DecidableEq

structure InfoBuffer where
  ptr : ℕ
  mblk : InfoBlock
  deriving DecidableEq

/-- A connection with the list of memory blocks of its root. -/
structure InfoConnection where
  connectUp : Bool
  cloudConnection : Bool
  security : ConnectionSecurity
  mblks : List InfoBlock
  sbufs : List InfoBuffer
  tbufs : List InfoBuffer
  currentMblk : Option InfoBlock
  currentCloudMblk : Option InfoBlock
  sbufMbinfoDown : Option InfoBuffer
  tbufMbinfoDown : Option InfoBuffer

def InfoConnection.cloudFlagsAllow (con : InfoConnection) (mblk : InfoBlock) : Bool :=
  if con.cloudConnection then !mblk.noCloud else !mblk.cloudOnly

/-- `ioc_is_network_authorized` for the network of a block. -/
def InfoConnection.authorizes (con : InfoConnection) (mblk : InfoBlock) : Bool :=
  con.security.isNetworkAuthorized mblk.networkName 0

/-- The loop body of `ioc_add_mblk_to_global_mbinfo`, for a block which is the
last one of the list. -/
def InfoConnection.addMblkToGlobalMbinfo (con : InfoConnection) (mblk : InfoBlock) :
    InfoConnection :=
  if !con.cloudFlagsAllow mblk then con
  else if con.connectUp then
    match con.currentMblk with
    | none => { con with currentMblk := some mblk }
    | some _ => con
  else if con.cloudConnection && mblk.cloudOnly && !mblk.noCloud then
    { con with currentCloudMblk := some mblk }
  else con

/-- `ioc_add_con_to_global_mbinfo`. -/
def InfoConnection.addConToGlobalMbinfo (con : InfoConnection) : InfoConnection :=
  if con.connectUp then { con with currentMblk := con.mblks.head? }
  else if con.cloudConnection then { con with currentCloudMblk := con.mblks.head? }
  else con

/-- `ioc_get_mbinfo_to_send2`. -/
def InfoConnection.getMbinfoToSend2 (con : InfoConnection) : Option InfoBlock :=
  if con.connectUp then con.currentMblk
  else
    match con.currentCloudMblk with
    | some mblk => some mblk
    | none =>
        match con.sbufMbinfoDown with
        | some sbuf => some sbuf.mblk
        | none => con.tbufMbinfoDown.map InfoBuffer.mblk

/-- A cursor on a buffer of the block moves to the next buffer. -/
def skipBuffer (bufs : List InfoBuffer) (mblk : InfoBlock) (cursor : Option InfoBuffer) :
    Option InfoBuffer :=
  match cursor with
  | none => none
  | some buf => if mblk = buf.mblk then ListCursor.next bufs buf else some buf

/-- `ioc_mbinfo_sent`. -/
def InfoConnection.mbinfoSent (con : InfoConnection) (mblk : InfoBlock) : InfoConnection :=
  if con.connectUp then { con with currentMblk := ListCursor.next con.mblks mblk }
  else
    { con with
      currentCloudMblk := ListCursor.skip con.mblks mblk con.currentCloudMblk
      tbufMbinfoDown := skipBuffer con.tbufs mblk con.tbufMbinfoDown
      sbufMbinfoDown := skipBuffer con.sbufs mblk con.sbufMbinfoDown }

/-- Blocks which `ioc_get_mbinfo_to_send` passes over. -/
def InfoConnection.skips (con : InfoConnection) (mblk : InfoBlock) : Bool :=
  !con.cloudFlagsAllow mblk || !con.authorizes mblk || (!con.connectUp && mblk.floor)

/-- `ioc_get_mbinfo_to_send`, with a bound on the number of blocks it looks at. -/
def InfoConnection.getMbinfoToSend : ℕ → InfoConnection → Option InfoBlock × InfoConnection
  | 0, con => (none, con)
  | bound + 1, con =>
      match con.getMbinfoToSend2 with
      | none => (none, con)
      | some mblk =>
          if con.skips mblk then getMbinfoToSend bound (con.mbinfoSent mblk)
          else (some mblk, con)

def InfoConnection.infoBound (con : InfoConnection) : ℕ :=
  con.mblks.length + con.sbufs.length + con.tbufs.length + 1

/-- `ioc_mbinfo_mblk_is_deleted`. -/
def InfoConnection.mbinfoMblkIsDeleted (con : InfoConnection) (mblk : InfoBlock) :
    InfoConnection :=
  { con with
    currentMblk := ListCursor.skip con.mblks mblk con.currentMblk
    currentCloudMblk := ListCursor.skip con.mblks mblk con.currentCloudMblk }

/-- What `ioc_release_source_buffer` does to the list of the connection. -/
def InfoConnection.releaseSourceBuffer (con : InfoConnection) (sbuf : InfoBuffer) :
    InfoConnection :=
  { con with
    sbufMbinfoDown := ListCursor.skip con.sbufs sbuf con.sbufMbinfoDown
    sbufs := con.sbufs.erase sbuf }

/-- What `ioc_release_target_buffer` does to the list of the connection. -/
def InfoConnection.releaseTargetBuffer (con : InfoConnection) (tbuf : InfoBuffer) :
    InfoConnection :=
  { con with
    tbufMbinfoDown := ListCursor.skip con.tbufs tbuf con.tbufMbinfoDown
    tbufs := con.tbufs.erase tbuf }

/-- What `ioc_initialize_memory_block` does to the list of blocks. -/
def InfoConnection.initializeMemoryBlock (con : InfoConnection) (mblk : InfoBlock) :
    InfoConnection :=
  { con with mblks := con.mblks ++ [mblk] }.addMblkToGlobalMbinfo mblk

/-- What `ioc_release_memory_block` does: the infos, the buffers and the list. -/
def InfoConnection.releaseMemoryBlock (con : InfoConnection) (mblk : InfoBlock) :
    InfoConnection :=
  let marked := con.mbinfoMblkIsDeleted mblk
  let sources := marked.sbufs.filter fun sbuf => decide (sbuf.mblk = mblk)
  let targets := marked.tbufs.filter fun tbuf => decide (tbuf.mblk = mblk)
  let released := sources.foldl InfoConnection.releaseSourceBuffer marked
  let detached := targets.foldl InfoConnection.releaseTargetBuffer released
  { detached with mblks := detached.mblks.erase mblk }

/-- The end of `ioc_mbinfo_new_sbuf` and `ioc_mbinfo_new_tbuf` on a connection
upwards. -/
def InfoConnection.markCloudMblk (con : InfoConnection) (mblk : InfoBlock) :
    InfoConnection :=
  if con.cloudConnection && mblk.cloudOnly && !mblk.noCloud then
    { con with currentCloudMblk := con.currentCloudMblk.or (some mblk) }
  else con

/-- `ioc_mbinfo_new_sbuf`. -/
def InfoConnection.mbinfoNewSbuf (con : InfoConnection) (sbuf : InfoBuffer) :
    InfoConnection :=
  if con.sbufs.any fun other => decide (sbuf.mblk = other.mblk) then con
  else
    let linked := { con with sbufs := con.sbufs ++ [sbuf] }
    if !con.connectUp then
      { linked with sbufMbinfoDown := con.sbufMbinfoDown.or (some sbuf) }
    else linked.markCloudMblk sbuf.mblk

/-- `ioc_mbinfo_new_tbuf`.  One directional buffers which it drops belong to
other connections. -/
def InfoConnection.mbinfoNewTbuf (con : InfoConnection) (tbuf : InfoBuffer) :
    InfoConnection :=
  if con.tbufs.any fun other => decide (tbuf.mblk = other.mblk) then con
  else
    let linked := { con with tbufs := con.tbufs ++ [tbuf] }
    if !con.connectUp then
      { linked with tbufMbinfoDown := con.tbufMbinfoDown.or (some tbuf) }
    else linked.markCloudMblk tbuf.mblk

end Iocom
