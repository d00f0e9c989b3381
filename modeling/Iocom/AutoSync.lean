import Iocom.DataFrame
import Iocom.MemoryBlockAccess
import Iocom.FlowControl
import Mathlib.Data.List.Rotate
import Mathlib.Data.List.TakeWhile

/-!
# Deferred synchronisation

`ioc_mblk_auto_sync` takes a snapshot of the changes at once.  If the earlier
snapshot has not been sent yet, it sets the flag `immediate_sync_needed` instead,
and `ioc_connection_send` takes the snapshot when it comes by.  It looks at the
source buffers of the connection in turn until one has something to send.
-/

namespace Iocom

/-- `ioc_sbuf_synchronize` returns `OSAL_PENDING`. -/
def SourceBuffer.synchronizePending (sbuf : SourceBuffer) : Bool :=
  ((!sbuf.changed.rangeSet && !sbuf.syncbuf.makeKeyframe) || sbuf.syncbuf.used) &&
    sbuf.changed.rangeSet

/-- A source buffer of the connection with its memory block.  `deferred` is the
changed range of a request which was deferred and for which no snapshot has been
taken since; the program does not keep it. -/
structure AutoSyncBuffer where
  mblk : MemoryBlock
  sbuf : SourceBuffer
  immediateSyncNeeded : Bool
  deferred : Option (ℤ × ℤ)

def AutoSyncBuffer.isUsed (b : AutoSyncBuffer) : Bool := b.sbuf.syncbuf.used

/-- `ioc_sbuf_synchronize`. -/
def AutoSyncBuffer.synchronize (b : AutoSyncBuffer) : AutoSyncBuffer :=
  { b with
    sbuf := b.sbuf.synchronize b.mblk
    deferred := if b.isUsed then b.deferred else none }

/-- `ioc_write` to the memory block. -/
def AutoSyncBuffer.write (b : AutoSyncBuffer) (addr : ℤ) (data : List UInt8) :
    AutoSyncBuffer :=
  let written := Iocom.write b.mblk [b.sbuf] addr data
  { b with mblk := written.1, sbuf := written.2.headD b.sbuf }

/-- `ioc_mblk_auto_sync`. -/
def AutoSyncBuffer.mblkAutoSync (b : AutoSyncBuffer) : AutoSyncBuffer :=
  if b.sbuf.synchronizePending then
    { b.synchronize with
      immediateSyncNeeded := true
      deferred := some (b.sbuf.changed.startAddr, b.sbuf.changed.endAddr) }
  else b.synchronize

def AutoSyncBuffer.isLinked (b : AutoSyncBuffer) : Bool := decide (b.sbuf.remoteMblkId ≠ 0)

/-- The loop of `ioc_connection_send`, over the positions of the source buffers
from the current one on: the buffers, and the one to make a frame of. -/
def serveBuffers (buffers : List AutoSyncBuffer) : List ℕ → List AutoSyncBuffer × Option ℕ
  | [] => (buffers, none)
  | pos :: order =>
      match buffers[pos]? with
      | none => (buffers, none)
      | some b =>
          if b.isUsed && b.isLinked then (buffers, some pos)
          else if b.isLinked && b.immediateSyncNeeded then
            if b.sbuf.synchronizePending then
              (buffers.set pos { b.synchronize with immediateSyncNeeded := false }, some pos)
            else serveBuffers (buffers.set pos b.synchronize) order
          else serveBuffers buffers order

/-- A connection with its source buffers; `current` is where the next turn
begins. -/
structure AutoSyncConnection where
  con : Connection
  buffers : List AutoSyncBuffer
  current : Option ℕ

def AutoSyncConnection.order (s : AutoSyncConnection) : List ℕ :=
  (List.range s.buffers.length).rotate (s.current.getD 0)

/-- `ioc_make_data_frame`, of the buffer at a position. -/
def AutoSyncConnection.makeDataFrame (s : AutoSyncConnection) (pos : ℕ) : AutoSyncConnection :=
  match s.buffers[pos]? with
  | none => s
  | some b =>
      match Iocom.makeDataFrame s.con b.mblk b.sbuf with
      | none => s
      | some (con, sbuf, _) => { s with con := con, buffers := s.buffers.set pos { b with sbuf := sbuf } }

/-- `ioc_connection_send`.  It does not come to the source buffers while the frame
buffer is in use, or if there is something `other` to send or to wait for. -/
def AutoSyncConnection.connectionSend (s : AutoSyncConnection) (other : Bool) :
    AutoSyncConnection :=
  if decide (s.con.frameOutUsed ≠ 0) || other then s
  else
    let served := serveBuffers s.buffers s.order
    match served.2 with
    | none => { s with buffers := served.1 }
    | some pos =>
        { s with
          buffers := served.1
          current := if pos + 1 < s.buffers.length then some (pos + 1) else none
          }.makeDataFrame pos

/-- `connection` stands for what a received acknowledgement, another message or
the stream changes in the connection. -/
inductive AutoSyncAction where
  | write (pos : ℕ) (addr : ℤ) (data : List UInt8)
  | send (pos : ℕ)
  | mblkAutoSync (pos : ℕ)
  | connectionSend (other : Bool)
  | connection (con : Connection)

def AutoSyncConnection.step (s : AutoSyncConnection) : AutoSyncAction → AutoSyncConnection
  | .write pos addr data =>
      { s with buffers := s.buffers.modify pos fun b => b.write addr data }
  | .send pos => { s with buffers := s.buffers.modify pos AutoSyncBuffer.synchronize }
  | .mblkAutoSync pos => { s with buffers := s.buffers.modify pos AutoSyncBuffer.mblkAutoSync }
  | .connectionSend other => s.connectionSend other
  | .connection con => { s with con := con }

def initialAutoSync (con : Connection) (buffers : List (MemoryBlock × SourceBuffer)) :
    AutoSyncConnection where
  con := con
  buffers := buffers.map fun b => ⟨b.1, b.2, false, none⟩
  current := none

/-! ## The turn of a connection -/

/-- What the turn does to a buffer which it visits without stopping there. -/
def AutoSyncBuffer.serve (b : AutoSyncBuffer) : AutoSyncBuffer :=
  if b.isLinked && b.immediateSyncNeeded then b.synchronize else b

def stopsAt (buffers : List AutoSyncBuffer) (pos : ℕ) : Bool :=
  match buffers[pos]? with
  | none => true
  | some b => b.isUsed && b.isLinked

def AutoSyncConnection.visited (s : AutoSyncConnection) (other : Bool) : List ℕ :=
  if decide (s.con.frameOutUsed ≠ 0) || other then []
  else s.order.takeWhile fun pos => !stopsAt s.buffers pos

theorem synchronizePending_of_free {b : AutoSyncBuffer} (hfree : b.isUsed = false) :
    b.sbuf.synchronizePending = false := by
  unfold SourceBuffer.synchronizePending
  unfold AutoSyncBuffer.isUsed at hfree
  rw [hfree, Bool.or_false]
  cases b.sbuf.changed.rangeSet
  · exact Bool.and_false _
  · rfl

theorem stopsAt_set {buffers : List AutoSyncBuffer} {pos other : ℕ} {b : AutoSyncBuffer}
    (hne : pos ≠ other) : stopsAt (buffers.set pos b) other = stopsAt buffers other := by
  unfold stopsAt
  rw [List.getElem?_set_ne hne]

theorem takeWhile_congr_mem {α : Type*} {p q : α → Bool} {xs : List α}
    (h : ∀ x ∈ xs, p x = q x) : xs.takeWhile p = xs.takeWhile q := by
  induction xs with
  | nil => rfl
  | cons x xs ih =>
      obtain ⟨hx, hxs⟩ := List.forall_mem_cons.mp h
      rw [List.takeWhile_cons, List.takeWhile_cons, hx, ih hxs]

theorem serveBuffers_cons {buffers : List AutoSyncBuffer} {pos : ℕ} {b : AutoSyncBuffer}
    (hb : buffers[pos]? = some b) (hgo : (b.isUsed && b.isLinked) = false) (order : List ℕ) :
    serveBuffers buffers (pos :: order) = serveBuffers (buffers.set pos b.serve) order := by
  rw [serveBuffers, hb]
  dsimp only
  rw [hgo, if_neg (by decide)]
  unfold AutoSyncBuffer.serve
  cases hserve : b.isLinked && b.immediateSyncNeeded with
  | false =>
      obtain ⟨hlt, hget⟩ := List.getElem?_eq_some_iff.mp hb
      rw [if_neg (by decide), if_neg (by decide), ← hget, List.set_getElem_self]
  | true =>
      -- The sync buffer is free here, so the snapshot cannot be pending.
      have hfree : b.isUsed = false := by
        rw [Bool.and_eq_true] at hserve
        rwa [hserve.1, Bool.and_true] at hgo
      rw [if_pos rfl, if_pos rfl, synchronizePending_of_free hfree, if_neg (by decide)]

/-- The turn serves the buffers it visits, and leaves all others as they are. -/
theorem serveBuffers_getElem? {order : List ℕ} (hnodup : order.Nodup)
    (buffers : List AutoSyncBuffer) (i : ℕ) :
    (serveBuffers buffers order).1[i]? =
      if i ∈ order.takeWhile (fun pos => !stopsAt buffers pos) then
        (buffers[i]?).map AutoSyncBuffer.serve
      else buffers[i]? := by
  induction order generalizing buffers with
  | nil => rfl
  | cons pos order ih =>
      obtain ⟨hpos, hnodup⟩ := List.nodup_cons.mp hnodup
      cases hstop : stopsAt buffers pos with
      | true =>
          rw [List.takeWhile_cons_of_neg (by rw [hstop]; decide), if_neg List.not_mem_nil]
          unfold stopsAt at hstop
          rw [serveBuffers]
          cases hb : buffers[pos]? with
          | none => rfl
          | some b =>
              rw [hb] at hstop
              dsimp only at hstop ⊢
              rw [hstop, if_pos rfl]
      | false =>
          rw [List.takeWhile_cons_of_pos (by rw [hstop]; rfl)]
          unfold stopsAt at hstop
          cases hb : buffers[pos]? with
          | none =>
              rw [hb] at hstop
              cases hstop
          | some b =>
              rw [hb] at hstop
              rw [serveBuffers_cons hb hstop, ih hnodup]
              have hsame : (order.takeWhile fun p => !stopsAt (buffers.set pos b.serve) p) =
                  order.takeWhile fun p => !stopsAt buffers p := by
                apply takeWhile_congr_mem
                intro p hp
                rw [stopsAt_set]
                rintro rfl
                exact hpos hp
              rw [hsame]
              by_cases hi : i = pos
              · subst i
                have hout : pos ∉ order.takeWhile fun p => !stopsAt buffers p :=
                  fun hmem => hpos ((List.takeWhile_sublist _).subset hmem)
                obtain ⟨hlt, -⟩ := List.getElem?_eq_some_iff.mp hb
                rw [if_neg hout, if_pos List.mem_cons_self, hb, List.getElem?_set_self hlt]
                rfl
              · rw [List.getElem?_set_ne (Ne.symm hi)]
                simp only [List.mem_cons, hi, false_or]

theorem serveBuffers_stops {order : List ℕ} (hnodup : order.Nodup)
    {buffers : List AutoSyncBuffer} {pos : ℕ} (h : (serveBuffers buffers order).2 = some pos) :
    pos ∈ order ∧ stopsAt buffers pos = true := by
  induction order generalizing buffers with
  | nil => cases h
  | cons first order ih =>
      obtain ⟨hfirst, hnodup⟩ := List.nodup_cons.mp hnodup
      cases hb : buffers[first]? with
      | none =>
          rw [serveBuffers, hb] at h
          cases h
      | some b =>
          cases hstop : b.isUsed && b.isLinked with
          | true =>
              rw [serveBuffers, hb] at h
              dsimp only at h
              rw [hstop, if_pos rfl] at h
              cases h
              refine ⟨List.mem_cons_self, ?_⟩
              unfold stopsAt
              rw [hb]
              exact hstop
          | false =>
              rw [serveBuffers_cons hb hstop] at h
              obtain ⟨hmem, hrest⟩ := ih hnodup h
              have hpos : first ≠ pos := by
                rintro rfl
                exact hfirst hmem
              rw [stopsAt_set hpos] at hrest
              exact ⟨List.mem_cons_of_mem _ hmem, hrest⟩

structure AutoSyncBuffer.SameRequest (b b' : AutoSyncBuffer) : Prop where
  mblk : b'.mblk = b.mblk
  immediateSyncNeeded : b'.immediateSyncNeeded = b.immediateSyncNeeded
  deferred : b'.deferred = b.deferred
  changed : b'.sbuf.changed = b.sbuf.changed
  remoteMblkId : b'.sbuf.remoteMblkId = b.sbuf.remoteMblkId

theorem AutoSyncBuffer.SameRequest.refl (b : AutoSyncBuffer) : b.SameRequest b :=
  ⟨rfl, rfl, rfl, rfl, rfl⟩

theorem AutoSyncConnection.makeDataFrame_getElem? (s : AutoSyncConnection) (pos i : ℕ) :
    (i ≠ pos → (s.makeDataFrame pos).buffers[i]? = s.buffers[i]?) ∧
      ∀ b', (s.makeDataFrame pos).buffers[i]? = some b' →
        ∃ b, s.buffers[i]? = some b ∧ b.SameRequest b' := by
  have hsame : (∀ b', s.buffers[i]? = some b' → ∃ b, s.buffers[i]? = some b ∧ b.SameRequest b') :=
    fun b' hb' => ⟨b', hb', .refl b'⟩
  unfold AutoSyncConnection.makeDataFrame
  cases hb : s.buffers[pos]? with
  | none => exact ⟨fun _ => rfl, hsame⟩
  | some b =>
      dsimp only
      cases hmake : Iocom.makeDataFrame s.con b.mblk b.sbuf with
      | none => exact ⟨fun _ => rfl, hsame⟩
      | some made =>
          obtain ⟨con, sbuf, frame⟩ := made
          dsimp only
          refine ⟨fun hi => List.getElem?_set_ne (Ne.symm hi), fun b' hb' => ?_⟩
          by_cases hi : pos = i
          · subst i
            obtain ⟨hlt, -⟩ := List.getElem?_eq_some_iff.mp hb
            rw [List.getElem?_set_self hlt] at hb'
            cases hb'
            obtain ⟨count, hsbuf⟩ := makeDataFrame_sbuf hmake
            subst sbuf
            exact ⟨b, hb, rfl, rfl, rfl, rfl, rfl⟩
          · rw [List.getElem?_set_ne hi] at hb'
            exact hsame b' hb'

section ConnectionSend

variable {s : AutoSyncConnection} {other : Bool}

theorem AutoSyncConnection.order_nodup (s : AutoSyncConnection) : s.order.Nodup := by
  unfold AutoSyncConnection.order
  rw [List.nodup_rotate]
  exact List.nodup_range

/-- A step serves the buffers which it visits without stopping, and keeps the
requests of the others. -/
theorem AutoSyncConnection.connectionSend_getElem? (i : ℕ) :
    (i ∈ s.visited other →
      (s.connectionSend other).buffers[i]? = (s.buffers[i]?).map AutoSyncBuffer.serve) ∧
    (i ∉ s.visited other → ∀ b', (s.connectionSend other).buffers[i]? = some b' →
      ∃ b, s.buffers[i]? = some b ∧ b.SameRequest b') := by
  unfold AutoSyncConnection.connectionSend AutoSyncConnection.visited
  cases decide (s.con.frameOutUsed ≠ 0) || other with
  | true =>
      rw [if_pos rfl, if_pos rfl]
      exact ⟨fun hi => absurd hi List.not_mem_nil, fun _ b' hb' => ⟨b', hb', .refl b'⟩⟩
  | false =>
      rw [if_neg (by decide), if_neg (by decide)]
      have hget := serveBuffers_getElem? s.order_nodup s.buffers i
      dsimp only
      cases hstop : (serveBuffers s.buffers s.order).2 with
      | none =>
          dsimp only
          rw [hget]
          constructor
          · intro hi
            rw [if_pos hi]
          · intro hi b' hb'
            rw [if_neg hi] at hb'
            exact ⟨b', hb', .refl b'⟩
      | some pos =>
          dsimp only
          have hmake := AutoSyncConnection.makeDataFrame_getElem?
            { s with
              buffers := (serveBuffers s.buffers s.order).1
              current := if pos + 1 < s.buffers.length then some (pos + 1) else none } pos i
          dsimp only at hmake
          rw [hget] at hmake
          constructor
          · intro hi
            have hne : i ≠ pos := by
              rintro rfl
              have hgo := List.mem_takeWhile_imp hi
              rw [(serveBuffers_stops s.order_nodup hstop).2] at hgo
              cases hgo
            rw [hmake.1 hne, if_pos hi]
          · intro hi b' hb'
            obtain ⟨b, hb, hsame⟩ := hmake.2 b' hb'
            rw [if_neg hi] at hb
            exact ⟨b, hb, hsame⟩

end ConnectionSend

/-! ## Snapshots of deferred changes -/

/-- After the snapshot `sbuf'` nothing of the range `lo .. hi` is left to be sent:
the bytes are part of the snapshot, or have the value which the other end has. -/
structure SourceBuffer.TakesSnapshot (sbuf sbuf' : SourceBuffer) (mblk : MemoryBlock)
    (lo hi : ℤ) : Prop where
  taken : sbuf'.changed.rangeSet = false
  contains : ∀ i, 0 ≤ i → i < mblk.nbytes → lo ≤ i → i ≤ hi →
    (sbuf'.syncbuf.used = true ∧ sbuf'.syncbuf.startAddr ≤ i ∧ i ≤ sbuf'.syncbuf.endAddr) ∨
      sbuf.syncbuf.buf i = mblk.buf i

theorem SynchronizedSourceBuffer.load_range (sync : SynchronizedSourceBuffer)
    (mblk : MemoryBlock) (first last : ℤ) :
    (sync.load mblk first last).used = true ∧ (sync.load mblk first last).startAddr = first ∧
      (sync.load mblk first last).endAddr = last := by
  unfold SynchronizedSourceBuffer.load
  split_ifs <;> exact ⟨rfl, rfl, rfl⟩

theorem SourceBuffer.takesSnapshot_of_load (sbuf : SourceBuffer)
    (sync : SynchronizedSourceBuffer) {mblk : MemoryBlock} {first last lo hi : ℤ}
    (hrange : ∀ i, 0 ≤ i → i < mblk.nbytes → lo ≤ i → i ≤ hi →
      (first ≤ i ∧ i ≤ last) ∨ sbuf.syncbuf.buf i = mblk.buf i) :
    sbuf.TakesSnapshot
      { sbuf with changed.rangeSet := false, syncbuf := sync.load mblk first last } mblk lo hi where
  taken := rfl
  contains i h0 hn hlo hhi := by
    obtain ⟨hused, hstart, hend⟩ := sync.load_range mblk first last
    dsimp only
    rw [hused, hstart, hend]
    exact (hrange i h0 hn hlo hhi).imp_left fun h => ⟨rfl, h⟩

theorem SourceBuffer.synchronize_takesSnapshot {sbuf : SourceBuffer} (mblk : MemoryBlock)
    (hfree : sbuf.syncbuf.used = false) {lo hi : ℤ} (hset : sbuf.changed.rangeSet = true)
    (hlo : sbuf.changed.startAddr ≤ lo) (hhi : hi ≤ sbuf.changed.endAddr) :
    sbuf.TakesSnapshot (sbuf.synchronize mblk) mblk lo hi := by
  have hpart := sbuf.changedPart_spec mblk
  unfold SourceBuffer.synchronize
  dsimp only
  rw [hset, hfree, Bool.or_false, if_neg (by simp)]
  split_ifs with hkey hbuf hempty
  · apply sbuf.takesSnapshot_of_load
    intro i h0 hn _ _
    left
    omega
  · apply sbuf.takesSnapshot_of_load
    intro i _ _ hi1 hi2
    left
    omega
  · refine ⟨rfl, fun i _ _ hi1 hi2 => ?_⟩
    right
    exact hpart.2.2.2 i (by omega) (by omega) (by omega)
  · apply sbuf.takesSnapshot_of_load
    intro i _ _ hi1 hi2
    by_cases hin : (sbuf.changedPart mblk).1 ≤ i ∧ i ≤ (sbuf.changedPart mblk).2
    · exact Or.inl hin
    · exact Or.inr (hpart.2.2.2 i (by omega) (by omega) hin)

/-! ## Requests -/

/-- A deferred request has the flag set, and its changes are still marked. -/
structure AutoSyncBuffer.Waits (b : AutoSyncBuffer) : Prop where
  flagged : b.deferred ≠ none → b.immediateSyncNeeded = true
  covered : ∀ lo hi, b.deferred = some (lo, hi) →
    b.sbuf.changed.rangeSet = true ∧ b.sbuf.changed.startAddr ≤ lo ∧
      hi ≤ b.sbuf.changed.endAddr

theorem AutoSyncBuffer.Waits.of_none {b : AutoSyncBuffer} (h : b.deferred = none) : b.Waits where
  flagged hne := absurd h hne
  covered lo hi hb := by
    rw [h] at hb
    cases hb

theorem AutoSyncBuffer.synchronize_of_used {b : AutoSyncBuffer} (hused : b.isUsed = true) :
    b.synchronize = b := by
  have hsbuf : b.sbuf.synchronize b.mblk = b.sbuf := by
    unfold AutoSyncBuffer.isUsed at hused
    unfold SourceBuffer.synchronize
    dsimp only
    rw [hused, Bool.or_true, if_pos rfl]
  unfold AutoSyncBuffer.synchronize
  rw [hsbuf, hused, if_pos rfl]

theorem AutoSyncBuffer.synchronize_of_free {b : AutoSyncBuffer} (hfree : b.isUsed = false) :
    b.synchronize.deferred = none := by
  unfold AutoSyncBuffer.synchronize
  rw [hfree]
  rfl

/-- A pending snapshot: there are changes, and the sync buffer is in use. -/
theorem AutoSyncBuffer.pending_spec {b : AutoSyncBuffer}
    (h : b.sbuf.synchronizePending = true) :
    b.isUsed = true ∧ b.sbuf.changed.rangeSet = true := by
  unfold SourceBuffer.synchronizePending at h
  obtain ⟨hbusy, hset⟩ := (Bool.and_eq_true _ _).mp h
  rw [hset] at hbusy
  exact ⟨by simpa [AutoSyncBuffer.isUsed] using hbusy, hset⟩

theorem SourceBuffer.invalidate_changed (sbuf : SourceBuffer) (mblk : MemoryBlock)
    (startAddr endAddr : ℤ) (hset : sbuf.changed.rangeSet = true) :
    (sbuf.invalidate mblk startAddr endAddr).changed.rangeSet = true ∧
      (sbuf.invalidate mblk startAddr endAddr).changed.startAddr ≤ sbuf.changed.startAddr ∧
      sbuf.changed.endAddr ≤ (sbuf.invalidate mblk startAddr endAddr).changed.endAddr := by
  have hadd : ∀ first last, (sbuf.changed.add first last).rangeSet = true ∧
      (sbuf.changed.add first last).startAddr ≤ sbuf.changed.startAddr ∧
      sbuf.changed.endAddr ≤ (sbuf.changed.add first last).endAddr := by
    intro first last
    unfold InvalidatedRange.add
    rw [if_pos hset]
    exact ⟨hset, min_le_right _ _, le_max_right _ _⟩
  unfold SourceBuffer.invalidate
  cases sbuf.invalidatedPart mblk startAddr endAddr with
  | none => exact ⟨hset, le_rfl, le_rfl⟩
  | some part =>
      dsimp only
      split_ifs
      · unfold SourceBuffer.invalidateBytes
        split_ifs <;> exact hadd part.1 part.2
      · exact hadd part.1 part.2

theorem AutoSyncBuffer.Waits.write {b : AutoSyncBuffer} (hb : b.Waits) (addr : ℤ)
    (data : List UInt8) : (b.write addr data).Waits where
  flagged := hb.flagged
  covered lo hi hdeferred := by
    obtain ⟨hset, hlo, hhi⟩ := hb.covered lo hi hdeferred
    unfold AutoSyncBuffer.write Iocom.write
    split_ifs
    · exact ⟨hset, hlo, hhi⟩
    · obtain ⟨hset', hstart, hend⟩ := b.sbuf.invalidate_changed (b.mblk.store addr data) addr
        (addr + b.mblk.writeCount addr data.length - 1) hset
      exact ⟨hset', hstart.trans hlo, hhi.trans hend⟩

theorem AutoSyncBuffer.Waits.synchronize {b : AutoSyncBuffer} (hb : b.Waits) :
    b.synchronize.Waits := by
  cases hused : b.isUsed with
  | true =>
      rw [AutoSyncBuffer.synchronize_of_used hused]
      exact hb
  | false => exact .of_none (AutoSyncBuffer.synchronize_of_free hused)

theorem AutoSyncBuffer.Waits.mblkAutoSync {b : AutoSyncBuffer} (hb : b.Waits) :
    b.mblkAutoSync.Waits := by
  unfold AutoSyncBuffer.mblkAutoSync
  cases hpending : b.sbuf.synchronizePending with
  | false => exact hb.synchronize
  | true =>
      obtain ⟨hused, hset⟩ := AutoSyncBuffer.pending_spec hpending
      rw [if_pos rfl, AutoSyncBuffer.synchronize_of_used hused]
      refine ⟨fun _ => rfl, fun lo hi hdeferred => ?_⟩
      cases hdeferred
      exact ⟨hset, le_rfl, le_rfl⟩

theorem AutoSyncBuffer.Waits.serve {b : AutoSyncBuffer} (hb : b.Waits) : b.serve.Waits := by
  unfold AutoSyncBuffer.serve
  split_ifs
  · exact hb.synchronize
  · exact hb

theorem AutoSyncBuffer.Waits.sameRequest {b b' : AutoSyncBuffer} (hb : b.Waits)
    (hsame : b.SameRequest b') : b'.Waits where
  flagged hne := by
    rw [hsame.immediateSyncNeeded]
    exact hb.flagged (hsame.deferred ▸ hne)
  covered lo hi hdeferred := by
    rw [hsame.changed]
    exact hb.covered lo hi (hsame.deferred ▸ hdeferred)

/-! ## Runs -/

namespace AutoSyncConnection

def AllWait (s : AutoSyncConnection) : Prop :=
  ∀ (i : ℕ) b, s.buffers[i]? = some b → b.Waits

def FlagsClear (s : AutoSyncConnection) : Prop :=
  ∀ (i : ℕ) b, s.buffers[i]? = some b → b.immediateSyncNeeded = true → b.deferred ≠ none

/-- A deferred request is served when a step visits its buffer and the sync buffer
has become free. -/
def ServesVisited (s : AutoSyncConnection) : AutoSyncAction → Prop
  | .connectionSend other =>
      ∀ i ∈ s.visited other, ∀ b, s.buffers[i]? = some b → b.isLinked = true →
        ∀ lo hi, b.deferred = some (lo, hi) →
          b.isUsed = false ∧
            ∃ b', (s.connectionSend other).buffers[i]? = some b' ∧ b'.deferred = none ∧
              b'.mblk = b.mblk ∧ b.sbuf.TakesSnapshot b'.sbuf b.mblk lo hi
  | _ => True

def LeavesOthers (s : AutoSyncConnection) : AutoSyncAction → Prop
  | .connectionSend other =>
      ∀ i ∈ s.visited other, ∀ b, s.buffers[i]? = some b → b.deferred = none →
        (s.connectionSend other).buffers[i]? = some b
  | _ => True

/-- The step takes a snapshot for a deferred request, or after one: the flag is set
and the sync buffer free. -/
def Overdue (s : AutoSyncConnection) : AutoSyncAction → Prop
  | .send pos | .mblkAutoSync pos =>
      ∃ b, s.buffers[pos]? = some b ∧ b.immediateSyncNeeded = true ∧ b.isUsed = false
  | .connectionSend other =>
      ∃ i ∈ s.visited other, ∃ b, s.buffers[i]? = some b ∧ b.isLinked = true ∧
        b.immediateSyncNeeded = true ∧ b.isUsed = false
  | _ => False

variable {s : AutoSyncConnection}

theorem modify_getElem? {f : AutoSyncBuffer → AutoSyncBuffer} {buffers : List AutoSyncBuffer}
    {pos i : ℕ} {b' : AutoSyncBuffer} (h : (buffers.modify pos f)[i]? = some b') :
    ∃ b, buffers[i]? = some b ∧ (pos = i ∧ b' = f b ∨ pos ≠ i ∧ b' = b) := by
  rw [List.getElem?_modify] at h
  cases hb : buffers[i]? with
  | none =>
      rw [hb] at h
      cases h
  | some b =>
      rw [hb] at h
      simp only [Option.map_eq_map, Option.map_some, Option.some.injEq] at h
      by_cases hi : pos = i
      · rw [if_pos hi] at h
        exact ⟨b, rfl, Or.inl ⟨hi, h.symm⟩⟩
      · rw [if_neg hi] at h
        exact ⟨b, rfl, Or.inr ⟨hi, h.symm⟩⟩

theorem AllWait.modify (hs : s.AllWait) {f : AutoSyncBuffer → AutoSyncBuffer}
    (hf : ∀ b : AutoSyncBuffer, b.Waits → (f b).Waits) (pos i : ℕ) (b' : AutoSyncBuffer)
    (h : (s.buffers.modify pos f)[i]? = some b') : b'.Waits := by
  obtain ⟨b, hb, ⟨-, rfl⟩ | ⟨-, rfl⟩⟩ := modify_getElem? h
  · exact hf b (hs i b hb)
  · exact hs i b' hb

theorem AllWait.step (hs : s.AllWait) (action : AutoSyncAction) : (s.step action).AllWait := by
  cases action with
  | write pos addr data => exact hs.modify (fun b hb => hb.write addr data) pos
  | send pos => exact hs.modify (fun b hb => hb.synchronize) pos
  | mblkAutoSync pos => exact hs.modify (fun b hb => hb.mblkAutoSync) pos
  | connectionSend other =>
      intro i b' hb'
      obtain ⟨hvisited, hother⟩ := @connectionSend_getElem? s other i
      by_cases hi : i ∈ s.visited other
      · simp only [AutoSyncConnection.step, hvisited hi, Option.map_eq_some_iff] at hb'
        obtain ⟨b, hb, rfl⟩ := hb'
        exact (hs i b hb).serve
      · obtain ⟨b, hb, hsame⟩ := hother hi b' hb'
        exact (hs i b hb).sameRequest hsame
  | connection con => exact hs

/-- Where a turn goes on at a linked buffer, the sync buffer is free. -/
theorem visited_free {other : Bool} {i : ℕ} (hi : i ∈ s.visited other) {b : AutoSyncBuffer}
    (hb : s.buffers[i]? = some b) (hlinked : b.isLinked = true) : b.isUsed = false := by
  unfold visited at hi
  split_ifs at hi
  · cases hi
  · have hgo := List.mem_takeWhile_imp hi
    unfold stopsAt at hgo
    rw [hb] at hgo
    dsimp only at hgo
    rw [hlinked, Bool.and_true] at hgo
    simpa using hgo

theorem AllWait.servesVisited (hs : s.AllWait) (action : AutoSyncAction) :
    s.ServesVisited action := by
  cases action with
  | connectionSend other =>
      intro i hi b hb hlinked lo hi' hdeferred
      have hfree := visited_free hi hb hlinked
      have hflag := (hs i b hb).flagged (by rw [hdeferred]; exact Option.some_ne_none _)
      obtain ⟨hset, hlo, hhi⟩ := (hs i b hb).covered lo hi' hdeferred
      have hserve : b.serve = b.synchronize := by
        unfold AutoSyncBuffer.serve
        rw [hlinked, hflag]
        rfl
      refine ⟨hfree, b.serve, ?_, ?_, ?_, ?_⟩
      · rw [(s.connectionSend_getElem? i).1 hi, hb]
        rfl
      · rw [hserve]
        exact AutoSyncBuffer.synchronize_of_free hfree
      · rw [hserve]
        rfl
      · rw [hserve]
        exact SourceBuffer.synchronize_takesSnapshot b.mblk hfree hset hlo hhi
  | write pos addr data => trivial
  | send pos => trivial
  | mblkAutoSync pos => trivial
  | connection con => trivial

structure StepOnce (s : AutoSyncConnection) (action : AutoSyncAction) : Prop where
  served : s.ServesVisited action
  others : s.LeavesOthers action
  flagsClear : (s.step action).FlagsClear

/-- A buffer whose request would be overdue keeps its flag, without a request. -/
theorem not_flagsClear {i : ℕ} {b : AutoSyncBuffer} (hb : s.buffers[i]? = some b)
    (hflag : b.immediateSyncNeeded = true) (hnone : b.deferred = none) : ¬s.FlagsClear :=
  fun hclear => hclear i b hb hflag hnone

theorem Overdue.not_stepOnce {action : AutoSyncAction} (h : s.Overdue action) :
    ¬s.StepOnce action := by
  intro honce
  refine (?_ : ¬(s.step action).FlagsClear) honce.flagsClear
  have hmodified : ∀ (pos : ℕ) (f : AutoSyncBuffer → AutoSyncBuffer) (b : AutoSyncBuffer),
      s.buffers[pos]? = some b → (f b).immediateSyncNeeded = true → (f b).deferred = none →
        ¬({ s with buffers := s.buffers.modify pos f } : AutoSyncConnection).FlagsClear := by
    intro pos f b hb hflag hnone
    have hget : (s.buffers.modify pos f)[pos]? = some (f b) := by
      rw [List.getElem?_modify, hb]
      simp
    exact not_flagsClear hget hflag hnone
  cases action with
  | send pos =>
      obtain ⟨b, hb, hflag, hfree⟩ := h
      exact hmodified pos _ b hb hflag (AutoSyncBuffer.synchronize_of_free hfree)
  | mblkAutoSync pos =>
      obtain ⟨b, hb, hflag, hfree⟩ := h
      have hsync : b.mblkAutoSync = b.synchronize := by
        unfold AutoSyncBuffer.mblkAutoSync
        rw [synchronizePending_of_free hfree]
        rfl
      refine hmodified pos _ b hb ?_ ?_
      · rw [hsync]
        exact hflag
      · rw [hsync]
        exact AutoSyncBuffer.synchronize_of_free hfree
  | connectionSend other =>
      obtain ⟨i, hi, b, hb, hlinked, hflag, hfree⟩ := h
      have hserve : b.serve = b.synchronize := by
        unfold AutoSyncBuffer.serve
        rw [hlinked, hflag]
        rfl
      have hget : (s.connectionSend other).buffers[i]? = some b.synchronize := by
        rw [(s.connectionSend_getElem? i).1 hi, hb, Option.map_some, hserve]
      exact not_flagsClear hget hflag (AutoSyncBuffer.synchronize_of_free hfree)
  | write pos addr data => exact absurd h id
  | connection con => exact absurd h id

/-- A visited buffer is left alone, unless its request is overdue. -/
theorem serve_eq_self {other : Bool} {i : ℕ} (hi : i ∈ s.visited other) {b : AutoSyncBuffer}
    (hb : s.buffers[i]? = some b) (h : ¬s.Overdue (.connectionSend other)) : b.serve = b := by
  unfold AutoSyncBuffer.serve
  split_ifs with hserve
  · obtain ⟨hlinked, hflag⟩ := (Bool.and_eq_true _ _).mp hserve
    exact absurd ⟨i, hi, b, hb, hlinked, hflag, visited_free hi hb hlinked⟩ h
  · rfl

theorem FlagsClear.step (hs : s.FlagsClear) {action : AutoSyncAction}
    (h : ¬s.Overdue action) : (s.step action).FlagsClear := by
  have hsync : ∀ (i : ℕ) b, s.buffers[i]? = some b →
      ¬(b.immediateSyncNeeded = true ∧ b.isUsed = false) →
        b.synchronize.immediateSyncNeeded = true → b.synchronize.deferred ≠ none := by
    intro i b hb hoverdue hflag
    have hflag : b.immediateSyncNeeded = true := hflag
    cases hused : b.isUsed with
    | true =>
        rw [AutoSyncBuffer.synchronize_of_used hused]
        exact hs i b hb hflag
    | false => exact absurd ⟨hflag, hused⟩ hoverdue
  intro i b' hb'
  cases action with
  | write pos addr data =>
      obtain ⟨b, hb, ⟨-, rfl⟩ | ⟨-, rfl⟩⟩ := modify_getElem? hb'
      · exact hs i b hb
      · exact hs i b' hb
  | send pos =>
      obtain ⟨b, hb, ⟨hi, rfl⟩ | ⟨-, rfl⟩⟩ := modify_getElem? hb'
      · exact hsync i b hb fun hoverdue => h ⟨b, hi ▸ hb, hoverdue⟩
      · exact hs i b' hb
  | mblkAutoSync pos =>
      obtain ⟨b, hb, ⟨hi, rfl⟩ | ⟨-, rfl⟩⟩ := modify_getElem? hb'
      · unfold AutoSyncBuffer.mblkAutoSync
        split_ifs
        · exact fun _ => Option.some_ne_none _
        · exact hsync i b hb fun hoverdue => h ⟨b, hi ▸ hb, hoverdue⟩
      · exact hs i b' hb
  | connectionSend other =>
      obtain ⟨hvisited, hother⟩ := @connectionSend_getElem? s other i
      by_cases hi : i ∈ s.visited other
      · simp only [AutoSyncConnection.step, hvisited hi, Option.map_eq_some_iff] at hb'
        obtain ⟨b, hb, rfl⟩ := hb'
        rw [serve_eq_self hi hb h]
        exact hs i b hb
      · obtain ⟨b, hb, hsame⟩ := hother hi b' hb'
        rw [hsame.immediateSyncNeeded, hsame.deferred]
        exact hs i b hb
  | connection con => exact hs i b' hb'

theorem FlagsClear.leavesOthers (hs : s.FlagsClear) (action : AutoSyncAction) :
    s.LeavesOthers action := by
  cases action with
  | connectionSend other =>
      intro i hi b hb hnone
      have hserve : b.serve = b := by
        unfold AutoSyncBuffer.serve
        split_ifs with hflag
        · exact absurd hnone (hs i b hb ((Bool.and_eq_true _ _).mp hflag).2)
        · rfl
      rw [(s.connectionSend_getElem? i).1 hi, hb, Option.map_some, hserve]
  | write pos addr data => trivial
  | send pos => trivial
  | mblkAutoSync pos => trivial
  | connection con => trivial

/-- The step lemma: a step is as promised unless it finds a request overdue. -/
theorem stepOnce_iff (hwait : s.AllWait) (hclear : s.FlagsClear) (action : AutoSyncAction) :
    s.StepOnce action ↔ ¬s.Overdue action :=
  ⟨fun honce hoverdue => hoverdue.not_stepOnce honce,
    fun h => ⟨hwait.servesVisited action, hclear.leavesOthers action, hclear.step h⟩⟩

/-- Every step of a run meets `P`. -/
def AllSteps (P : AutoSyncConnection → AutoSyncAction → Prop) :
    AutoSyncConnection → List AutoSyncAction → Prop
  | _, [] => True
  | s, action :: actions => P s action ∧ AllSteps P (s.step action) actions

theorem AllWait.allSteps (hs : s.AllWait) (actions : List AutoSyncAction) :
    AllSteps ServesVisited s actions := by
  induction actions generalizing s with
  | nil => trivial
  | cons action actions ih => exact ⟨hs.servesVisited action, ih (hs.step action)⟩

theorem allSteps_stepOnce_iff (hwait : s.AllWait) (hclear : s.FlagsClear)
    (actions : List AutoSyncAction) :
    AllSteps StepOnce s actions ↔ AllSteps (fun s action => ¬s.Overdue action) s actions := by
  induction actions generalizing s with
  | nil => exact Iff.rfl
  | cons action actions ih =>
      rw [AllSteps, AllSteps, stepOnce_iff hwait hclear action]
      constructor
      · rintro ⟨hstep, hrest⟩
        exact ⟨hstep, (ih (hwait.step action) (hclear.step hstep)).mp hrest⟩
      · rintro ⟨hstep, hrest⟩
        exact ⟨hstep, (ih (hwait.step action) (hclear.step hstep)).mpr hrest⟩

end AutoSyncConnection

/-- In every run from the beginning of a connection, the first turn which visits a
buffer with a deferred request and a free sync buffer takes the snapshot.  The
request is done once, the flag clear and other buffers left alone after it, exactly
in the runs in which no step finds the flag set and the sync buffer free. -/
theorem deferred_sync_done_once_iff (con : Connection)
    (buffers : List (MemoryBlock × SourceBuffer)) (actions : List AutoSyncAction) :
    AutoSyncConnection.AllSteps AutoSyncConnection.ServesVisited
        (initialAutoSync con buffers) actions ∧
      (AutoSyncConnection.AllSteps AutoSyncConnection.StepOnce
          (initialAutoSync con buffers) actions ↔
        AutoSyncConnection.AllSteps (fun s action => ¬s.Overdue action)
          (initialAutoSync con buffers) actions) := by
  have hstart : ∀ (i : ℕ) b, (initialAutoSync con buffers).buffers[i]? = some b →
      b.immediateSyncNeeded = false ∧ b.deferred = none := by
    intro i b hb
    simp only [initialAutoSync, List.getElem?_map, Option.map_eq_some_iff] at hb
    obtain ⟨pair, -, rfl⟩ := hb
    exact ⟨rfl, rfl⟩
  have hwait : (initialAutoSync con buffers).AllWait :=
    fun i b hb => .of_none (hstart i b hb).2
  have hclear : (initialAutoSync con buffers).FlagsClear := by
    intro i b hb hflag
    rw [(hstart i b hb).1] at hflag
    cases hflag
  exact ⟨hwait.allSteps actions, AutoSyncConnection.allSteps_stepOnce_iff hwait hclear actions⟩

/-! ## A request which stays set -/

def autoSyncBlock : MemoryBlock where
  mblkId := 8
  flags := ⟨true, true, false, false, false⟩
  nbytes := 24
  bufAllocated := true
  buf := fun _ => 0

def idleConnection : Connection :=
  { initialConnection true true 1024 with
    authenticationSent := true
    authenticationReceived := true }

/-- The key frame waits to be sent when a write is synchronised, so that is deferred.
Then the key frame is sent, and a later turn finds the flag set. -/
def deferredRun : List AutoSyncAction :=
  [.mblkAutoSync 0, .write 0 0 [1], .mblkAutoSync 0, .connectionSend false,
    .connection idleConnection, .connectionSend false]

/-- The snapshot for the deferred request leaves the flag set. -/
theorem deferred_sync_is_not_done_once :
    ¬AutoSyncConnection.AllSteps AutoSyncConnection.StepOnce
      (initialAutoSync idleConnection
        [(autoSyncBlock, initializeSourceBuffer ⟨1, true⟩ autoSyncBlock 7 false)])
      deferredRun := by
  rintro ⟨-, -, -, -, -, hlast, -⟩
  refine AutoSyncConnection.Overdue.not_stepOnce ?_ hlast
  refine ⟨0, by decide, _, rfl, by decide, by decide, by decide⟩

end Iocom
