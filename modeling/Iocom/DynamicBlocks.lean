import Iocom.NetworkIsolation

/-!
# Lifetime of dynamic memory blocks

What `ioc_free_source_and_target_bufs` does when a connection closes, pass by
pass: blocks to be deleted are marked, requests to remove them are queued for the
connections upwards, and the buffers of the connection are released one by one,
with the blocks which it served last.  Requests which arrive from the other end
remove blocks as well.

Source and target buffers are kept in the order of their creation; the lists of a
connection and of a memory block are what belongs to them.
-/

namespace Iocom

/-- A memory block; `key` is its address. -/
structure LifetimeBlock where
  key : ℕ
  mblkId : ℕ
  dynamic : Bool
  deriving DecidableEq

/-- A source or target buffer: what it links, and the identifier which the other
end has sent for its block. -/
structure BufferLink where
  con : ℕ
  mblk : ℕ
  peerMblkId : ℕ
  deriving DecidableEq

/-- `remote_mblk_id`, an `os_short`. -/
def BufferLink.remoteMblkId (link : BufferLink) : ℤ := osShort link.peerMblkId

/-- A root with its memory blocks, transfer buffers and connections.  For each
connection, `requests` is its list `del_mlk_req_list`, `sent` the request frames
put on the wire and `queued` the requests ever queued, since it was opened. -/
structure LifetimeRoot where
  mblks : List LifetimeBlock
  toBeDeleted : ℕ → Bool
  sbufs : List BufferLink
  tbufs : List BufferLink
  isOpen : ℕ → Bool
  connectUp : ℕ → Bool
  requests : ℕ → List (List ℤ)
  sent : ℕ → List (List ℤ)
  queued : ℕ → List ℤ

/-! ## Releasing -/

/-- `ioc_release_memory_block` with all its source and target buffers. -/
def LifetimeRoot.releaseMemoryBlock (s : LifetimeRoot) (key : ℕ) : LifetimeRoot :=
  { s with
    mblks := s.mblks.filter fun mblk => decide (mblk.key ≠ key)
    sbufs := s.sbufs.filter fun link => decide (link.mblk ≠ key)
    tbufs := s.tbufs.filter fun link => decide (link.mblk ≠ key) }

/-- The buffer belongs to the block, and a connection other than `con` leads down
from it. -/
def LifetimeRoot.servesDown (s : LifetimeRoot) (key con : ℕ) (link : BufferLink) : Bool :=
  decide (link.mblk = key) && decide (link.con ≠ con) && !s.connectUp link.con

def LifetimeRoot.servedDown (s : LifetimeRoot) (key con : ℕ) : Bool :=
  s.sbufs.any (s.servesDown key con) || s.tbufs.any (s.servesDown key con)

def LifetimeRoot.isDynamic (s : LifetimeRoot) (key : ℕ) : Bool :=
  match s.mblks.find? fun mblk => decide (mblk.key = key) with
  | none => false
  | some mblk => mblk.dynamic

/-- `ioc_release_dynamic_mblk_if_not_attached`. -/
def LifetimeRoot.releaseDynamicMblkIfNotAttached
    (s : LifetimeRoot) (key deletingCon : ℕ) (reallyDelete : Bool) : LifetimeRoot :=
  if !s.isDynamic key then s
  else if s.servedDown key deletingCon then s
  else if reallyDelete then s.releaseMemoryBlock key
  else { s with toBeDeleted := Function.update s.toBeDeleted key true }

/-! ## Requests to remove blocks -/

/-- `ioc_add_request_to_remove_mblk`. -/
def LifetimeRoot.addRequest (s : LifetimeRoot) (con : ℕ) (remoteMblkId : ℤ) : LifetimeRoot :=
  { s with
    requests :=
      Function.update s.requests con (addRequestToRemoveMblk (s.requests con) remoteMblkId)
    queued := Function.update s.queued con (s.queued con ++ [remoteMblkId]) }

/-- One round of the loops of `ioc_generate_del_mblk_request`. -/
def LifetimeRoot.requestRemoval
    (deletingCon : Option ℕ) (s : LifetimeRoot) (link : BufferLink) : LifetimeRoot :=
  if decide (some link.con ≠ deletingCon) && s.connectUp link.con then
    s.addRequest link.con link.remoteMblkId
  else s

def LifetimeRoot.linksOf (s : LifetimeRoot) (key : ℕ) : List BufferLink :=
  (s.sbufs.filter fun link => decide (link.mblk = key)) ++
    s.tbufs.filter fun link => decide (link.mblk = key)

/-- `ioc_generate_del_mblk_request`. -/
def LifetimeRoot.generateDelMblkRequest
    (s : LifetimeRoot) (deletingCon : Option ℕ) (key : ℕ) : LifetimeRoot :=
  if !s.toBeDeleted key then s
  else
    (s.linksOf key).foldl (LifetimeRoot.requestRemoval deletingCon)
      { s with toBeDeleted := Function.update s.toBeDeleted key false }

/-- `ioc_make_remove_mblk_req_frame`: the first item of the list becomes a frame,
unless flow control delays it. -/
def LifetimeRoot.makeRemoveMblkReqFrame (s : LifetimeRoot) (con : ℕ) (delayed : Bool) :
    LifetimeRoot :=
  match s.requests con with
  | [] => s
  | first :: rest =>
      if delayed then s
      else
        { s with
          requests := Function.update s.requests con rest
          sent := Function.update s.sent con (s.sent con ++ [first]) }

/-! ## A connection closes -/

def LifetimeRoot.blocksOf (s : LifetimeRoot) (con : ℕ) : List ℕ :=
  ((s.sbufs.filter fun link => decide (link.con = con)) ++
    s.tbufs.filter fun link => decide (link.con = con)).map BufferLink.mblk

/-- The first pass: `to_be_deleted` is set. -/
def LifetimeRoot.markBlocks (s : LifetimeRoot) (con : ℕ) : LifetimeRoot :=
  (s.blocksOf con).foldl (fun s key => s.releaseDynamicMblkIfNotAttached key con false) s

def LifetimeRoot.requestRemovals (s : LifetimeRoot) (con : ℕ) : LifetimeRoot :=
  (s.blocksOf con).foldl (fun s key => s.generateDelMblkRequest (some con) key) s

/-- The third pass, over source buffers: the first one is released as long as
there is one, and then its block if nothing else serves it. -/
def LifetimeRoot.releaseSourceBuffers (con : ℕ) : ℕ → LifetimeRoot → LifetimeRoot
  | 0, s => s
  | n + 1, s =>
      match s.sbufs.find? fun link => decide (link.con = con) with
      | none => s
      | some link =>
          releaseSourceBuffers con n
            ({ s with sbufs := s.sbufs.erase link }.releaseDynamicMblkIfNotAttached link.mblk
              con true)

def LifetimeRoot.releaseTargetBuffers (con : ℕ) : ℕ → LifetimeRoot → LifetimeRoot
  | 0, s => s
  | n + 1, s =>
      match s.tbufs.find? fun link => decide (link.con = con) with
      | none => s
      | some link =>
          releaseTargetBuffers con n
            ({ s with tbufs := s.tbufs.erase link }.releaseDynamicMblkIfNotAttached link.mblk
              con true)

/-- `ioc_free_source_and_target_bufs`. -/
def LifetimeRoot.freeSourceAndTargetBufs (s : LifetimeRoot) (con : ℕ) : LifetimeRoot :=
  let marked := s.markBlocks con
  let requested := marked.requestRemovals con
  let released := LifetimeRoot.releaseSourceBuffers con requested.sbufs.length requested
  LifetimeRoot.releaseTargetBuffers con released.tbufs.length released

def LifetimeRoot.closeConnection (s : LifetimeRoot) (con : ℕ) : LifetimeRoot :=
  { s.freeSourceAndTargetBufs con with isOpen := Function.update s.isOpen con false }

/-! ## Received requests -/

def LifetimeRoot.hasMblkId (s : LifetimeRoot) (key : ℕ) (id : ℤ) : Bool :=
  match s.mblks.find? fun mblk => decide (mblk.key = key) with
  | none => false
  | some mblk => decide (id = mblk.mblkId)

def LifetimeRoot.findRequested (s : LifetimeRoot) (con : ℕ) (id : ℤ) : Option BufferLink :=
  (s.tbufs.find? fun link => decide (link.con = con) && s.hasMblkId link.mblk id).or
    (s.sbufs.find? fun link => decide (link.con = con) && s.hasMblkId link.mblk id)

/-- `ioc_remove_mblk_by_request`; `authorizes` tells in the network of which block
the connection is authorized. -/
def LifetimeRoot.removeMblkByRequest (authorizes : ℕ → Bool) (s : LifetimeRoot) (key : ℕ) :
    LifetimeRoot :=
  if !authorizes key then s
  else
    LifetimeRoot.releaseMemoryBlock
      ({ s with
        toBeDeleted := Function.update s.toBeDeleted key true }.generateDelMblkRequest none key)
      key

/-- One round of `ioc_process_remove_mblk_req_frame`. -/
def LifetimeRoot.processRequest (authorizes : ℕ → Bool) (con : ℕ) (s : LifetimeRoot) (id : ℤ) :
    LifetimeRoot :=
  match s.findRequested con id with
  | none => s
  | some link => s.removeMblkByRequest authorizes link.mblk

/-- `ioc_process_remove_mblk_req_frame`, with the identifiers which are read from
the frame. -/
def LifetimeRoot.processRemoveMblkReqFrame (s : LifetimeRoot) (authorizes : ℕ → Bool)
    (con : ℕ) (ids : List ℤ) : LifetimeRoot :=
  if ids.length < 1 ∨ packAbsMaxRequests < ids.length then s
  else ids.foldl (LifetimeRoot.processRequest authorizes con) s

end Iocom
