import Iocom.Lib.LinkedList
import Iocom.Lib.LoopFuel

/-!
# Memory blocks, connections, buffers and handles, linked by pointers

Objects are at addresses.  Each field of theirs is a function of the address, and a null
pointer is `none`.  The lists of a root hold its connections and memory blocks; a source or
target buffer is in a list of its connection and in one of its memory block; the handles of
a memory block form a ring.

A loop is given fuel, and has no result when there is not enough.
-/

namespace Iocom

open PointerChain LinkedList LoopFuel

/-! ## Handles -/

inductive Handle where
  | own (mblk : ℕ)
  | app (n : ℕ)
  deriving DecidableEq

structure HandleTable where
  hasRoot : Handle → Bool
  mblk : Handle → Option ℕ
  links : Links Handle

/-- `ioc_setup_handle`. -/
def HandleTable.setupHandle (t : HandleTable) (handle : Handle) (mblk : Option ℕ) :
    HandleTable where
  hasRoot := Function.update t.hasRoot handle true
  mblk := Function.update t.mblk handle mblk
  links :=
    match mblk with
    | none => t.links.single handle
    | some m =>
        if handle = .own m then t.links.single handle else t.links.insertBefore (.own m) handle

/-- `ioc_release_handle`. -/
def HandleTable.releaseHandle (t : HandleTable) (handle : Handle) : HandleTable :=
  if !t.hasRoot handle then t
  else
    { t with
      links := if t.links.next handle = some handle then t.links else t.links.bypass handle
      mblk := Function.update t.mblk handle none }

/-- `ioc_duplicate_handle`. -/
def HandleTable.duplicateHandle (t : HandleTable) (handle source : Handle) : HandleTable :=
  if t.hasRoot source then t.setupHandle handle (t.mblk source) else t

/-- One round of `ioc_terminate_handles`. -/
def HandleTable.terminateHandle (handle : Handle) (t : HandleTable) : HandleTable :=
  { t with
    links := t.links.single handle
    mblk := Function.update t.mblk handle none }

/-- `ioc_terminate_handles`. -/
def HandleTable.terminateHandles (fuel : ℕ) (t : HandleTable) (handle : Handle) :
    Option HandleTable :=
  forRing (fun t h => t.links.next h) HandleTable.terminateHandle handle fuel handle t

/-- `ioc_handle_lock_to_mblk`. -/
def HandleTable.lockToMblk (t : HandleTable) (handle : Handle) : Option ℕ :=
  if t.hasRoot handle then t.mblk handle else none

def HandleTable.clear (t : HandleTable) (handle : Handle) : HandleTable where
  hasRoot := Function.update t.hasRoot handle false
  mblk := Function.update t.mblk handle none
  links := t.links.clear handle

/-! ## Source and target buffers -/

/-- The fields of source buffers, or of target buffers, and what connections and memory blocks
keep about theirs. -/
structure BufferTable where
  isBuffer : ℕ → Bool
  con : ℕ → ℕ
  mblk : ℕ → ℕ
  bidirectional : ℕ → Bool
  clink : Links ℕ
  mlink : Links ℕ
  ofCon : ℕ → Ends ℕ
  ofMblk : ℕ → Ends ℕ
  mbinfoDown : ℕ → Option ℕ

/-- The buffer is set to zero, and is joined to the lists of the connection and of the
memory block. -/
def BufferTable.initializeBuffer (t : BufferTable) (buf con mblk : ℕ) (bidirectional : Bool) :
    BufferTable :=
  { t with
    isBuffer := Function.update t.isBuffer buf true
    con := Function.update t.con buf con
    mblk := Function.update t.mblk buf mblk
    bidirectional := Function.update t.bidirectional buf bidirectional
    clink := (t.clink.clear buf).join (t.ofCon con) buf
    mlink := (t.mlink.clear buf).join (t.ofMblk mblk) buf
    ofCon := Function.update t.ofCon con ((t.ofCon con).join buf)
    ofMblk := Function.update t.ofMblk mblk ((t.ofMblk mblk).join buf) }

/-- `mbinfo_down` moves on to the next buffer, and the buffer is taken out of its lists. -/
def BufferTable.releaseBuffer (t : BufferTable) (buf : ℕ) : BufferTable :=
  { t with
    isBuffer := Function.update t.isBuffer buf false
    mbinfoDown :=
      if t.mbinfoDown (t.con buf) = some buf then
        Function.update t.mbinfoDown (t.con buf) (t.clink.next buf)
      else t.mbinfoDown
    clink := t.clink.unlink buf
    mlink := t.mlink.unlink buf
    ofCon := Function.update t.ofCon (t.con buf) ((t.ofCon (t.con buf)).unlink t.clink buf)
    ofMblk := Function.update t.ofMblk (t.mblk buf) ((t.ofMblk (t.mblk buf)).unlink t.mlink buf) }

/-- What `ioc_mbinfo_sent` does for these buffers. -/
def BufferTable.mbinfoSent (t : BufferTable) (con mblk : ℕ) : BufferTable :=
  match t.mbinfoDown con with
  | none => t
  | some buf =>
      if mblk = t.mblk buf then
        { t with mbinfoDown := Function.update t.mbinfoDown con (t.clink.next buf) }
      else t

def BufferTable.clearCon (t : BufferTable) (con : ℕ) : BufferTable :=
  { t with
    ofCon := Function.update t.ofCon con .empty
    mbinfoDown := Function.update t.mbinfoDown con none }

def BufferTable.clearMblk (t : BufferTable) (mblk : ℕ) : BufferTable :=
  { t with ofMblk := Function.update t.ofMblk mblk .empty }

/-! ## The root -/

/-- `IOC_DYNAMIC`, `IOC_NO_CLOUD` and `IOC_CLOUD_ONLY`. -/
structure LinkedFlags where
  dynamic : Bool
  noCloud : Bool
  cloudOnly : Bool

structure LinkedRoot where
  con : Ends ℕ
  conLink : Links ℕ
  isCon : ℕ → Bool
  connectUp : ℕ → Bool
  cloudConnection : ℕ → Bool
  currentMblk : ℕ → Option ℕ
  currentCloudMblk : ℕ → Option ℕ
  sbufCurrent : ℕ → Option ℕ
  mblk : Ends ℕ
  mblkLink : Links ℕ
  isMblk : ℕ → Bool
  flags : ℕ → LinkedFlags
  sbuf : BufferTable
  tbuf : BufferTable
  handles : HandleTable

namespace LinkedRoot

/-- `ioc_initialize_source_buffer`. -/
def initializeSourceBuffer (s : LinkedRoot) (sbuf con mblk : ℕ) (bidirectional : Bool) :
    LinkedRoot :=
  { s with sbuf := s.sbuf.initializeBuffer sbuf con mblk bidirectional }

/-- `ioc_release_source_buffer`. -/
def releaseSourceBuffer (s : LinkedRoot) (sbuf : ℕ) : LinkedRoot :=
  { s with
    sbuf := s.sbuf.releaseBuffer sbuf
    sbufCurrent :=
      if s.sbufCurrent (s.sbuf.con sbuf) = some sbuf then
        Function.update s.sbufCurrent (s.sbuf.con sbuf) none
      else s.sbufCurrent }

/-- `ioc_initialize_target_buffer`. -/
def initializeTargetBuffer (s : LinkedRoot) (tbuf con mblk : ℕ) (bidirectional : Bool) :
    LinkedRoot :=
  { s with tbuf := s.tbuf.initializeBuffer tbuf con mblk bidirectional }

/-- `ioc_release_target_buffer`. -/
def releaseTargetBuffer (s : LinkedRoot) (tbuf : ℕ) : LinkedRoot :=
  { s with tbuf := s.tbuf.releaseBuffer tbuf }

/-! ## Memory block information -/

/-- One round of `ioc_add_mblk_to_global_mbinfo`. -/
def addMblkToMbinfo (mblk con : ℕ) (s : LinkedRoot) : LinkedRoot :=
  if s.cloudConnection con && (s.flags mblk).noCloud then s
  else if !s.cloudConnection con && (s.flags mblk).cloudOnly then s
  else if s.connectUp con then
    if s.currentMblk con = none then
      { s with currentMblk := Function.update s.currentMblk con (some mblk) }
    else s
  else if s.cloudConnection con && (s.flags mblk).cloudOnly && !(s.flags mblk).noCloud then
    { s with currentCloudMblk := Function.update s.currentCloudMblk con (some mblk) }
  else s

/-- `ioc_add_mblk_to_global_mbinfo`. -/
def addMblkToGlobalMbinfo (fuel : ℕ) (s : LinkedRoot) (mblk : ℕ) : Option LinkedRoot :=
  forEach (fun s con => s.conLink.next con) (addMblkToMbinfo mblk) fuel s.con.first s

/-- `ioc_add_con_to_global_mbinfo`. -/
def addConToGlobalMbinfo (s : LinkedRoot) (con : ℕ) : LinkedRoot :=
  if s.connectUp con then
    { s with currentMblk := Function.update s.currentMblk con s.mblk.first }
  else if s.cloudConnection con then
    { s with currentCloudMblk := Function.update s.currentCloudMblk con s.mblk.first }
  else s

/-- `ioc_mbinfo_con_is_closed`. -/
def mbinfoConIsClosed (s : LinkedRoot) (con : ℕ) : LinkedRoot :=
  { s with
    currentMblk := Function.update s.currentMblk con none
    currentCloudMblk := Function.update s.currentCloudMblk con none }

/-- `ioc_get_mbinfo_to_send2`. -/
def getMbinfoToSend2 (s : LinkedRoot) (con : ℕ) : Option ℕ :=
  if s.connectUp con then s.currentMblk con
  else
    (s.currentCloudMblk con).or
      (((s.sbuf.mbinfoDown con).map s.sbuf.mblk).or ((s.tbuf.mbinfoDown con).map s.tbuf.mblk))

/-- `ioc_mbinfo_sent`. -/
def mbinfoSent (s : LinkedRoot) (con mblk : ℕ) : LinkedRoot :=
  if s.connectUp con then
    { s with currentMblk := Function.update s.currentMblk con (s.mblkLink.next mblk) }
  else
    { s with
      currentCloudMblk :=
        if some mblk = s.currentCloudMblk con then
          Function.update s.currentCloudMblk con (s.mblkLink.next mblk)
        else s.currentCloudMblk
      tbuf := s.tbuf.mbinfoSent con mblk
      sbuf := s.sbuf.mbinfoSent con mblk }

/-- One round of `ioc_mbinfo_mblk_is_deleted`. -/
def mblkIsDeletedFrom (mblk con : ℕ) (s : LinkedRoot) : LinkedRoot :=
  { s with
    currentMblk :=
      if s.currentMblk con = some mblk then
        Function.update s.currentMblk con (s.mblkLink.next mblk)
      else s.currentMblk
    currentCloudMblk :=
      if s.currentCloudMblk con = some mblk then
        Function.update s.currentCloudMblk con (s.mblkLink.next mblk)
      else s.currentCloudMblk }

/-- `ioc_mbinfo_mblk_is_deleted`. -/
def mbinfoMblkIsDeleted (fuel : ℕ) (s : LinkedRoot) (mblk : ℕ) : Option LinkedRoot :=
  forEach (fun s con => s.conLink.next con) (mblkIsDeletedFrom mblk) fuel s.con.first s

/-! ## Memory blocks -/

/-- `os_memclear` of a memory block. -/
def clearMblk (s : LinkedRoot) (mblk : ℕ) : LinkedRoot :=
  { s with
    isMblk := Function.update s.isMblk mblk false
    flags := Function.update s.flags mblk ⟨false, false, false⟩
    mblkLink := s.mblkLink.clear mblk
    sbuf := s.sbuf.clearMblk mblk
    tbuf := s.tbuf.clearMblk mblk
    handles := s.handles.clear (.own mblk) }

/-- `ioc_initialize_memory_block`: the fields, the handles and the list of the root. -/
def linkMemoryBlock (s : LinkedRoot) (handle : Handle) (mblk : ℕ) (flags : LinkedFlags) :
    LinkedRoot :=
  let s := s.clearMblk mblk
  { s with
    isMblk := Function.update s.isMblk mblk true
    flags := Function.update s.flags mblk flags
    handles := (s.handles.setupHandle (.own mblk) (some mblk)).setupHandle handle (some mblk)
    mblkLink := s.mblkLink.join s.mblk mblk
    mblk := s.mblk.join mblk }

/-- `ioc_initialize_memory_block`. -/
def initializeMemoryBlock (fuel : ℕ) (s : LinkedRoot) (handle : Handle) (mblk : ℕ)
    (flags : LinkedFlags) : Option LinkedRoot :=
  (s.linkMemoryBlock handle mblk flags).addMblkToGlobalMbinfo fuel mblk

def unlinkMemoryBlock (s : LinkedRoot) (mblk : ℕ) : LinkedRoot :=
  { s with
    mblkLink := s.mblkLink.unlink mblk
    mblk := s.mblk.unlink s.mblkLink mblk }.clearMblk mblk

def releaseSourceBuffersOf (fuel : ℕ) (s : LinkedRoot) (mblk : ℕ) : Option LinkedRoot :=
  whileSome (fun s => (s.sbuf.ofMblk mblk).first) (fun sbuf s => some (s.releaseSourceBuffer sbuf))
    fuel s

def releaseTargetBuffersOf (fuel : ℕ) (s : LinkedRoot) (mblk : ℕ) : Option LinkedRoot :=
  whileSome (fun s => (s.tbuf.ofMblk mblk).first) (fun tbuf s => some (s.releaseTargetBuffer tbuf))
    fuel s

/-- `ioc_release_memory_block`. -/
def releaseMemoryBlock (fuel : ℕ) (s : LinkedRoot) (handle : Handle) : Option LinkedRoot :=
  match s.handles.lockToMblk handle with
  | none => some s
  | some mblk =>
      (s.mbinfoMblkIsDeleted fuel mblk).bind fun s =>
        (s.handles.terminateHandles fuel (.own mblk)).bind fun handles =>
          ({ s with handles := handles }.releaseSourceBuffersOf fuel mblk).bind fun s =>
            (s.releaseTargetBuffersOf fuel mblk).bind fun s => some (s.unlinkMemoryBlock mblk)

def servesDown (s : LinkedRoot) (t : BufferTable) (deletingCon buf : ℕ) : Bool :=
  decide (t.con buf ≠ deletingCon) && !s.connectUp (t.con buf)

/-- `ioc_release_dynamic_mblk_if_not_attached`, to delete really. -/
def releaseDynamicMblkIfNotAttached (fuel : ℕ) (s : LinkedRoot) (mblk deletingCon : ℕ) :
    Option LinkedRoot :=
  if !(s.flags mblk).dynamic then some s
  else
    (findNode s.sbuf.mlink.next (s.servesDown s.sbuf deletingCon) fuel none
      (s.sbuf.ofMblk mblk).first).bind fun
      | some _ => some s
      | none =>
          (findNode s.tbuf.mlink.next (s.servesDown s.tbuf deletingCon) fuel none
            (s.tbuf.ofMblk mblk).first).bind fun
            | some _ => some s
            | none => s.releaseMemoryBlock fuel (.own mblk)

/-! ## Connections -/

/-- `os_memclear` of a connection. -/
def clearCon (s : LinkedRoot) (con : ℕ) : LinkedRoot :=
  { s with
    isCon := Function.update s.isCon con false
    connectUp := Function.update s.connectUp con false
    cloudConnection := Function.update s.cloudConnection con false
    currentMblk := Function.update s.currentMblk con none
    currentCloudMblk := Function.update s.currentCloudMblk con none
    sbufCurrent := Function.update s.sbufCurrent con none
    conLink := s.conLink.clear con
    sbuf := s.sbuf.clearCon con
    tbuf := s.tbuf.clearCon con }

/-- `ioc_initialize_connection`. -/
def initializeConnection (s : LinkedRoot) (con : ℕ) : LinkedRoot :=
  let s := s.clearCon con
  { s with
    isCon := Function.update s.isCon con true
    conLink := s.conLink.join s.con con
    con := s.con.join con }

/-- The third pass of `ioc_free_source_and_target_bufs`, over source buffers. -/
def freeSourceBufs (fuel : ℕ) (s : LinkedRoot) (con : ℕ) : Option LinkedRoot :=
  whileSome (fun s => (s.sbuf.ofCon con).first)
    (fun sbuf s =>
      (s.releaseSourceBuffer sbuf).releaseDynamicMblkIfNotAttached fuel (s.sbuf.mblk sbuf) con)
    fuel s

/-- The third pass of `ioc_free_source_and_target_bufs`, over target buffers. -/
def freeTargetBufs (fuel : ℕ) (s : LinkedRoot) (con : ℕ) : Option LinkedRoot :=
  whileSome (fun s => (s.tbuf.ofCon con).first)
    (fun tbuf s =>
      (s.releaseTargetBuffer tbuf).releaseDynamicMblkIfNotAttached fuel (s.tbuf.mblk tbuf) con)
    fuel s

/-- `ioc_free_source_and_target_bufs`; marks and requests are not pointers. -/
def freeSourceAndTargetBufs (fuel : ℕ) (s : LinkedRoot) (con : ℕ) : Option LinkedRoot :=
  (s.freeSourceBufs fuel con).bind fun s => s.freeTargetBufs fuel con

def unlinkConnection (s : LinkedRoot) (con : ℕ) : LinkedRoot :=
  { s with
    conLink := s.conLink.unlink con
    con := s.con.unlink s.conLink con }.clearCon con

/-- `ioc_release_connection`. -/
def releaseConnection (fuel : ℕ) (s : LinkedRoot) (con : ℕ) : Option LinkedRoot :=
  ((s.mbinfoConIsClosed con).freeSourceAndTargetBufs fuel con).bind fun s =>
    some (s.unlinkConnection con)

/-- A connection is dropped, at the end of `ioc_run_connection`. -/
def dropConnection (fuel : ℕ) (s : LinkedRoot) (con : ℕ) : Option LinkedRoot :=
  (s.freeSourceAndTargetBufs fuel con).bind fun s => some (s.mbinfoConIsClosed con)

/-- `ioc_release_root`: the loops over connections and memory blocks. -/
def releaseRoot (fuel : ℕ) (s : LinkedRoot) : Option LinkedRoot :=
  (whileSome (fun s => s.con.first) (fun con s => s.releaseConnection fuel con) fuel s).bind
    fun s =>
      whileSome (fun s => s.mblk.first) (fun mblk s => s.releaseMemoryBlock fuel (.own mblk))
        fuel s

/-! ## Received memory block information -/

/-- What `ioc_mbinfo_new_sbuf` marks for a new source buffer. -/
def markSbufInfo (s : LinkedRoot) (con mblk sbuf : ℕ) : LinkedRoot :=
  if !s.connectUp con then
    if s.sbuf.mbinfoDown con = none then
      { s with sbuf := { s.sbuf with
          mbinfoDown := Function.update s.sbuf.mbinfoDown con (some sbuf) } }
    else s
  else if s.cloudConnection con && (s.flags mblk).cloudOnly && !(s.flags mblk).noCloud then
    if s.currentCloudMblk con = none then
      { s with currentCloudMblk := Function.update s.currentCloudMblk con (some mblk) }
    else s
  else s

/-- What `ioc_mbinfo_new_tbuf` marks for a new target buffer. -/
def markTbufInfo (s : LinkedRoot) (con mblk tbuf : ℕ) : LinkedRoot :=
  if !s.connectUp con then
    if s.tbuf.mbinfoDown con = none then
      { s with tbuf := { s.tbuf with
          mbinfoDown := Function.update s.tbuf.mbinfoDown con (some tbuf) } }
    else s
  else if s.cloudConnection con && (s.flags mblk).cloudOnly && !(s.flags mblk).noCloud then
    if s.currentCloudMblk con = none then
      { s with currentCloudMblk := Function.update s.currentCloudMblk con (some mblk) }
    else s
  else s

/-- `ioc_mbinfo_new_sbuf`. -/
def mbinfoNewSbuf (fuel : ℕ) (s : LinkedRoot) (con mblk sbuf : ℕ) (bidirectional : Bool) :
    Option LinkedRoot :=
  (findNode s.sbuf.clink.next (fun b => decide (mblk = s.sbuf.mblk b)) fuel none
    (s.sbuf.ofCon con).first).bind fun
    | some _ => some s
    | none =>
        some ((s.initializeSourceBuffer sbuf con mblk bidirectional).markSbufInfo con mblk sbuf)

def dropTargetBuffers (fuel : ℕ) (s : LinkedRoot) (mblk : ℕ) : Option LinkedRoot :=
  forEach (fun s tbuf => s.tbuf.mlink.next tbuf)
    (fun tbuf s => if !s.tbuf.bidirectional tbuf then s.releaseTargetBuffer tbuf else s)
    fuel (s.tbuf.ofMblk mblk).first s

/-- `ioc_mbinfo_new_tbuf`. -/
def mbinfoNewTbuf (fuel : ℕ) (s : LinkedRoot) (con mblk tbuf : ℕ) (bidirectional : Bool) :
    Option LinkedRoot :=
  (findNode s.tbuf.clink.next (fun b => decide (mblk = s.tbuf.mblk b)) fuel none
    (s.tbuf.ofCon con).first).bind fun
    | some _ => some s
    | none =>
        (if bidirectional then some s else s.dropTargetBuffers fuel mblk).bind fun s =>
          some ((s.initializeTargetBuffer tbuf con mblk bidirectional).markTbufInfo con mblk tbuf)

/-- `ioc_connection_send` continues after the source buffer which it has sent. -/
def sentFrom (s : LinkedRoot) (sbuf : ℕ) : LinkedRoot :=
  { s with sbufCurrent := Function.update s.sbufCurrent (s.sbuf.con sbuf) (s.sbuf.clink.next sbuf) }

end LinkedRoot

end Iocom
