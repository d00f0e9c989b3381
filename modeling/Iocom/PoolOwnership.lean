import Iocom.PoolObjects
import Mathlib.Tactic.Abel

/-!
# What the objects of a root own

Each object owns what it will free, with the size it will give.  Every operation
keeps what is live equal to what the objects own together with what the function
running has in hand: one rule for each thing an operation does, then one lemma
for each operation.
-/

namespace Iocom

open MemoryLedger

/-- How memory is counted: the key of a block, which requests are permitted, and
what stays true of the heap as long as they are and only live blocks are freed. -/
structure LedgerTerms (H : Type) [IocHeap H] (sizes : PoolSizes) (κ : Type) [DecidableEq κ] where
  key : ℤ × ℤ → κ
  permitted : ℤ → Prop
  good : H → List Call → Prop
  permitted_of_le : ∀ n, sizes.freeBlk ≤ n → permitted n
  good_malloc : ∀ heap calls n, good heap calls → permitted n →
    good (IocHeap.malloc heap n).2 (.malloc n (IocHeap.malloc heap n).1 :: calls)
  good_free : ∀ heap calls block bytes, good heap calls → key (block, bytes) ∈ live key calls →
    good (IocHeap.free heap block bytes) (.free block bytes :: calls)
  good_touch : ∀ heap calls buf, good heap calls → good heap (.touch buf :: calls)
  /-- The size of a block which was allocated is an `os_int`. -/
  key_osInt : ∀ heap calls n block, good heap calls → permitted n →
    (IocHeap.malloc heap n).1 = some block → key (block, osInt n) = key (block, n)

section Own

variable {κ : Type} (key : ℤ × ℤ → κ) (sizes : PoolSizes)

def ownBlock (block : Option ℤ) (bytes : ℤ) : Multiset κ :=
  match block with
  | none => 0
  | some block => {key (block, bytes)}

def FrameBuffer.own (frame : FrameBuffer) (frameSz : ℤ) : Multiset κ :=
  if frame.allocated then ownBlock key frame.buf frameSz else 0

def PoolConnection.own (con : PoolConnection) : Multiset κ :=
  con.frameOut.own key con.frameSz + (con.frameIn.own key con.frameSz +
    ownBlock key con.object sizes.connection)

def PoolMblk.own (mblk : PoolMblk) : Multiset κ :=
  (if mblk.bufAllocated then ownBlock key mblk.buf mblk.nbytes else 0) +
    ownBlock key mblk.object sizes.memoryBlock

/-- A source buffer frees its buffer with the size as `os_int`. -/
def PoolBuffer.ownAsSource (sbuf : PoolBuffer) : Multiset κ :=
  ownBlock key sbuf.buf (osInt (2 * sbuf.nbytes)) +
    ownBlock key (some sbuf.object) sizes.sourceBuffer

def PoolBuffer.ownAsTarget (tbuf : PoolBuffer) : Multiset κ :=
  ownBlock key tbuf.buf (2 * tbuf.nbytes) + ownBlock key (some tbuf.object) sizes.targetBuffer

def PoolRoot.owned {H : Type} (root : PoolRoot H) : Multiset κ :=
  (root.con.map (PoolConnection.own key sizes)).sum +
    ((root.mblk.map (PoolMblk.own key sizes)).sum +
      ((root.sbuf.map (PoolBuffer.ownAsSource key sizes)).sum +
        (root.tbuf.map (PoolBuffer.ownAsTarget key sizes)).sum))

end Own

/-- A buffer which the block has allocated is large enough to be a free block later,
and one which it has not is the application's. -/
def PoolMblk.Sized (mblk : PoolMblk) : Prop :=
  (mblk.bufAllocated → minMblkSz ≤ mblk.nbytes) ∧ (mblk.bufAllocated = false → mblk.buf.isSome)

variable {H : Type} [IocHeap H] {sizes : PoolSizes} {κ : Type} [DecidableEq κ]

/-- The books of a root: `held` is what the function which runs has in hand. -/
structure LedgerTerms.Accounts (T : LedgerTerms H sizes κ) (root : PoolRoot H)
    (held : Multiset κ) : Prop where
  con : Registry.KeysBelow (root.con.map PoolConnection.id) root.nextId
  mblk : Registry.KeysBelow (root.mblk.map PoolMblk.id) root.nextId
  sbuf : Registry.KeysBelow (root.sbuf.map PoolBuffer.id) root.nextId
  tbuf : Registry.KeysBelow (root.tbuf.map PoolBuffer.id) root.nextId
  sized : ∀ mblk ∈ root.mblk, mblk.Sized
  holds : Holds T.key root.calls (root.owned T.key sizes + held)
  permitted : ∀ n result, Call.malloc n result ∈ root.calls → T.permitted n
  good : T.good root.heap root.calls

namespace LedgerTerms.Accounts

variable {T : LedgerTerms H sizes κ} {root root' : PoolRoot H} {held : Multiset κ} {n : ℤ}

theorem start (heap : H) (hgood : T.good heap []) :
    T.Accounts (PoolRoot.start heap) 0 where
  con := .nil
  mblk := .nil
  sbuf := .nil
  tbuf := .nil
  sized := by simp [PoolRoot.start]
  holds := .nil
  permitted := by simp [PoolRoot.start]
  good := hgood

/-! ## Memory -/

theorem malloc_some {block : ℤ} (h : T.Accounts root held) (hn : T.permitted n)
    (hm : root.malloc n = (some block, root')) :
    T.Accounts root' (ownBlock T.key (some block) n + held) := by
  obtain ⟨hblock, rfl⟩ := Prod.mk.inj hm
  have hgood := T.good_malloc _ _ n h.good hn
  have hholds := h.holds.malloc_some n block
  rw [← Multiset.add_cons] at hholds
  exact ⟨h.con, h.mblk, h.sbuf, h.tbuf, h.sized, by rw [hblock]; exact hholds,
    by rintro m result (_ | ⟨_, hmem⟩); exacts [hn, h.permitted m result hmem], hgood⟩

theorem malloc_none (h : T.Accounts root held) (hn : T.permitted n)
    (hm : root.malloc n = (none, root')) : T.Accounts root' held := by
  obtain ⟨hblock, rfl⟩ := Prod.mk.inj hm
  have hgood := T.good_malloc _ _ n h.good hn
  exact ⟨h.con, h.mblk, h.sbuf, h.tbuf, h.sized, by rw [hblock]; exact h.holds.malloc_none n,
    by rintro m result (_ | ⟨_, hmem⟩); exacts [hn, h.permitted m result hmem], hgood⟩

theorem touch (h : T.Accounts root held) (buf : Option ℤ) : T.Accounts (root.touch buf) held :=
  ⟨h.con, h.mblk, h.sbuf, h.tbuf, h.sized, h.holds.touch buf,
    by rintro m result (_ | ⟨_, hmem⟩); exact h.permitted m result hmem,
    T.good_touch _ _ buf h.good⟩

theorem free {block : Option ℤ} {bytes : ℤ}
    (h : T.Accounts root (ownBlock T.key block bytes + held)) :
    T.Accounts (root.free block bytes) held := by
  cases block with
  | none => simpa [ownBlock, PoolRoot.free] using h
  | some block =>
      have hholds := h.holds
      rw [ownBlock, Multiset.singleton_add, Multiset.add_cons] at hholds
      have hlive : T.key (block, bytes) ∈ live T.key root.calls := by
        rw [hholds.live]
        exact Multiset.mem_cons_self _ _
      exact ⟨h.con, h.mblk, h.sbuf, h.tbuf, h.sized, hholds.free,
        by rintro m result (_ | ⟨_, hmem⟩); exact h.permitted m result hmem,
        T.good_free _ _ _ _ h.good hlive⟩

/-! ## Objects which join a list, leave it or are changed -/

theorem joinCon {con : ℕ → PoolConnection}
    (h : T.Accounts root ((con root.nextId).own T.key sizes + held))
    (hid : (con root.nextId).id = root.nextId) : T.Accounts (root.joinCon con) held where
  con := by
    simp only [PoolRoot.joinCon, List.map_append, List.map_singleton, hid]
    exact h.con.append
  mblk := h.mblk.succ
  sbuf := h.sbuf.succ
  tbuf := h.tbuf.succ
  sized := h.sized
  holds := h.holds.of_eq (by
    simp only [PoolRoot.owned, PoolRoot.joinCon, List.map_append, List.map_singleton,
      List.sum_append, List.sum_singleton]
    abel)
  permitted := h.permitted
  good := h.good

theorem joinMblk {mblk : ℕ → PoolMblk}
    (h : T.Accounts root ((mblk root.nextId).own T.key sizes + held))
    (hid : (mblk root.nextId).id = root.nextId) (hsized : (mblk root.nextId).Sized) :
    T.Accounts (root.joinMblk mblk) held where
  con := h.con.succ
  mblk := by
    simp only [PoolRoot.joinMblk, List.map_append, List.map_singleton, hid]
    exact h.mblk.append
  sbuf := h.sbuf.succ
  tbuf := h.tbuf.succ
  sized := by
    intro m hm
    rcases List.mem_append.mp hm with hm | hm
    · exact h.sized m hm
    · rw [List.mem_singleton.mp hm]
      exact hsized
  holds := h.holds.of_eq (by
    simp only [PoolRoot.owned, PoolRoot.joinMblk, List.map_append, List.map_singleton,
      List.sum_append, List.sum_singleton]
    abel)
  permitted := h.permitted
  good := h.good

theorem joinSbuf {sbuf : ℕ → PoolBuffer}
    (h : T.Accounts root ((sbuf root.nextId).ownAsSource T.key sizes + held))
    (hid : (sbuf root.nextId).id = root.nextId) : T.Accounts (root.joinSbuf sbuf) held where
  con := h.con.succ
  mblk := h.mblk.succ
  sbuf := by
    simp only [PoolRoot.joinSbuf, List.map_append, List.map_singleton, hid]
    exact h.sbuf.append
  tbuf := h.tbuf.succ
  sized := h.sized
  holds := h.holds.of_eq (by
    simp only [PoolRoot.owned, PoolRoot.joinSbuf, List.map_append, List.map_singleton,
      List.sum_append, List.sum_singleton]
    abel)
  permitted := h.permitted
  good := h.good

theorem joinTbuf {tbuf : ℕ → PoolBuffer}
    (h : T.Accounts root ((tbuf root.nextId).ownAsTarget T.key sizes + held))
    (hid : (tbuf root.nextId).id = root.nextId) : T.Accounts (root.joinTbuf tbuf) held where
  con := h.con.succ
  mblk := h.mblk.succ
  sbuf := h.sbuf.succ
  tbuf := by
    simp only [PoolRoot.joinTbuf, List.map_append, List.map_singleton, hid]
    exact h.tbuf.append
  sized := h.sized
  holds := h.holds.of_eq (by
    simp only [PoolRoot.owned, PoolRoot.joinTbuf, List.map_append, List.map_singleton,
      List.sum_append, List.sum_singleton]
    abel)
  permitted := h.permitted
  good := h.good

theorem removeCon {k : ℕ} {con : PoolConnection} (h : T.Accounts root held)
    (hfind : root.findCon k = some con) :
    T.Accounts (root.removeCon k) (con.own T.key sizes + held) :=
  { h with
    con := h.con.sublist Registry.remove_sublist
    holds := h.holds.of_eq (by
      simp only [PoolRoot.owned, Registry.sum_remove _ h.con.nodup hfind, PoolRoot.removeCon]
      abel) }

theorem removeMblk {k : ℕ} {mblk : PoolMblk} (h : T.Accounts root held)
    (hfind : root.findMblk k = some mblk) :
    T.Accounts (root.removeMblk k) (mblk.own T.key sizes + held) :=
  { h with
    mblk := h.mblk.sublist Registry.remove_sublist
    sized := fun m hm => h.sized m (List.mem_of_mem_filter hm)
    holds := h.holds.of_eq (by
      simp only [PoolRoot.owned, Registry.sum_remove _ h.mblk.nodup hfind, PoolRoot.removeMblk]
      abel) }

theorem removeSbuf {k : ℕ} {sbuf : PoolBuffer} (h : T.Accounts root held)
    (hfind : Registry.lookup PoolBuffer.id k root.sbuf = some sbuf) :
    T.Accounts (root.removeSbuf k) (sbuf.ownAsSource T.key sizes + held) :=
  { h with
    sbuf := h.sbuf.sublist Registry.remove_sublist
    holds := h.holds.of_eq (by
      simp only [PoolRoot.owned, Registry.sum_remove _ h.sbuf.nodup hfind, PoolRoot.removeSbuf]
      abel) }

theorem removeTbuf {k : ℕ} {tbuf : PoolBuffer} (h : T.Accounts root held)
    (hfind : Registry.lookup PoolBuffer.id k root.tbuf = some tbuf) :
    T.Accounts (root.removeTbuf k) (tbuf.ownAsTarget T.key sizes + held) :=
  { h with
    tbuf := h.tbuf.sublist Registry.remove_sublist
    holds := h.holds.of_eq (by
      simp only [PoolRoot.owned, Registry.sum_remove _ h.tbuf.nodup hfind, PoolRoot.removeTbuf]
      abel) }

theorem modifyCon {k : ℕ} {con : PoolConnection} {f : PoolConnection → PoolConnection}
    {held' : Multiset κ} (h : T.Accounts root held) (hfind : root.findCon k = some con)
    (hid : ∀ con, (f con).id = con.id)
    (hown : con.own T.key sizes + held = (f con).own T.key sizes + held') :
    T.Accounts (root.modifyCon k f) held' :=
  { h with
    con := by
      simp only [PoolRoot.modifyCon, Registry.map_key_modify hid]
      exact h.con
    holds := h.holds.of_eq (by
      simp only [PoolRoot.owned, Registry.sum_remove _ h.con.nodup hfind, PoolRoot.modifyCon,
        Registry.sum_modify _ h.con.nodup hfind]
      exact exchange hown) }

theorem modifyMblk {k : ℕ} {mblk : PoolMblk} {f : PoolMblk → PoolMblk} {held' : Multiset κ}
    (h : T.Accounts root held) (hfind : root.findMblk k = some mblk)
    (hid : ∀ mblk, (f mblk).id = mblk.id) (hsized : (f mblk).Sized)
    (hown : mblk.own T.key sizes + held = (f mblk).own T.key sizes + held') :
    T.Accounts (root.modifyMblk k f) held' :=
  { h with
    mblk := by
      simp only [PoolRoot.modifyMblk, Registry.map_key_modify hid]
      exact h.mblk
    sized := by
      intro m hm
      rcases Registry.mem_modify h.mblk.nodup hfind hm with hm | rfl
      · exact h.sized m hm
      · exact hsized
    holds := h.holds.of_eq (by
      simp only [PoolRoot.owned, Registry.sum_remove _ h.mblk.nodup hfind, PoolRoot.modifyMblk,
        Registry.sum_modify _ h.mblk.nodup hfind]
      have hmoved := exchange
        (a := ((Registry.remove PoolMblk.id k root.mblk).map (PoolMblk.own T.key sizes)).sum)
        (b := (root.con.map (PoolConnection.own T.key sizes)).sum +
          ((root.sbuf.map (PoolBuffer.ownAsSource T.key sizes)).sum +
            (root.tbuf.map (PoolBuffer.ownAsTarget T.key sizes)).sum)) hown
      convert hmoved using 1 <;> abel) }

end LedgerTerms.Accounts

/-! ## What an operation leaves alone -/

namespace PoolRoot

variable {root root' : PoolRoot H} {n : ℤ} {r : Option ℤ}

theorem malloc_lists (hm : root.malloc n = (r, root')) :
    root'.con = root.con ∧ root'.mblk = root.mblk ∧ root'.sbuf = root.sbuf ∧
      root'.tbuf = root.tbuf ∧ root'.nextId = root.nextId := by
  obtain ⟨-, rfl⟩ := Prod.mk.inj hm
  exact ⟨rfl, rfl, rfl, rfl, rfl⟩

@[simp] theorem con_free (block : Option ℤ) (bytes : ℤ) :
    (root.free block bytes).con = root.con := by
  cases block <;> rfl

@[simp] theorem mblk_free (block : Option ℤ) (bytes : ℤ) :
    (root.free block bytes).mblk = root.mblk := by
  cases block <;> rfl

@[simp] theorem con_freeFrame (frame : FrameBuffer) (frameSz : ℤ) :
    (root.freeFrame frame frameSz).con = root.con := by
  unfold freeFrame
  split_ifs <;> simp

variable (sizes)

@[simp] theorem releaseSourceBuffer_lists (root : PoolRoot H) (k : ℕ) :
    (root.releaseSourceBuffer sizes k).con = root.con ∧
      (root.releaseSourceBuffer sizes k).mblk = root.mblk := by
  unfold releaseSourceBuffer
  split <;> simp [removeSbuf]

@[simp] theorem releaseTargetBuffer_lists (root : PoolRoot H) (k : ℕ) :
    (root.releaseTargetBuffer sizes k).con = root.con ∧
      (root.releaseTargetBuffer sizes k).mblk = root.mblk := by
  unfold releaseTargetBuffer
  split <;> simp [removeTbuf]

@[simp] theorem releaseSourceBuffers_lists (root : PoolRoot H) (buffers : List PoolBuffer) :
    (root.releaseSourceBuffers sizes buffers).con = root.con ∧
      (root.releaseSourceBuffers sizes buffers).mblk = root.mblk := by
  induction buffers generalizing root with
  | nil => exact ⟨rfl, rfl⟩
  | cons buffer buffers ih =>
      have hstep := root.releaseSourceBuffer_lists sizes buffer.id
      have hrest := ih (root.releaseSourceBuffer sizes buffer.id)
      exact ⟨hrest.1.trans hstep.1, hrest.2.trans hstep.2⟩

@[simp] theorem releaseTargetBuffers_lists (root : PoolRoot H) (buffers : List PoolBuffer) :
    (root.releaseTargetBuffers sizes buffers).con = root.con ∧
      (root.releaseTargetBuffers sizes buffers).mblk = root.mblk := by
  induction buffers generalizing root with
  | nil => exact ⟨rfl, rfl⟩
  | cons buffer buffers ih =>
      have hstep := root.releaseTargetBuffer_lists sizes buffer.id
      have hrest := ih (root.releaseTargetBuffer sizes buffer.id)
      exact ⟨hrest.1.trans hstep.1, hrest.2.trans hstep.2⟩

theorem releaseMblkBuffers_lists (root : PoolRoot H) (k : ℕ) :
    (root.releaseMblkBuffers sizes k).con = root.con ∧
      (root.releaseMblkBuffers sizes k).mblk = root.mblk := by
  simp [releaseMblkBuffers]

theorem con_releaseMemoryBlock (k : ℕ) : (root.releaseMemoryBlock sizes k).con = root.con := by
  have hlists := root.releaseMblkBuffers_lists sizes k
  unfold releaseMemoryBlock
  split
  · rfl
  · dsimp only
    split_ifs <;> simp [removeMblk, hlists.1]

theorem con_releaseDynamicMblkIfNotAttached (k deletingCon : ℕ) :
    (root.releaseDynamicMblkIfNotAttached sizes k deletingCon).con = root.con := by
  unfold releaseDynamicMblkIfNotAttached
  split
  · rfl
  · dsimp only
    split_ifs
    · rfl
    · rfl
    · exact con_releaseMemoryBlock sizes k

theorem con_freeSourceBufs (con fuel : ℕ) :
    (freeSourceBufs sizes con fuel root).con = root.con := by
  induction fuel generalizing root with
  | zero => rfl
  | succ fuel ih =>
      unfold freeSourceBufs
      split
      · rfl
      · rw [ih, con_releaseDynamicMblkIfNotAttached]
        simp

theorem con_freeTargetBufs (con fuel : ℕ) :
    (freeTargetBufs sizes con fuel root).con = root.con := by
  induction fuel generalizing root with
  | zero => rfl
  | succ fuel ih =>
      unfold freeTargetBufs
      split
      · rfl
      · rw [ih, con_releaseDynamicMblkIfNotAttached]
        simp

theorem con_freeSourceAndTargetBufs (con : ℕ) :
    (root.freeSourceAndTargetBufs sizes con).con = root.con := by
  simp only [freeSourceAndTargetBufs, con_freeTargetBufs, con_freeSourceBufs]

theorem con_takeFrame {static : Option ℤ} {frameSz : ℤ} {frame : Option FrameBuffer}
    (ht : root.takeFrame static frameSz = (frame, root')) : root'.con = root.con := by
  unfold takeFrame at ht
  split at ht
  · obtain ⟨-, rfl⟩ := Prod.mk.inj ht
    rfl
  · split at ht <;> obtain ⟨-, rfl⟩ := Prod.mk.inj ht
    · next hm => exact (malloc_lists hm).1
    · next hm => exact (malloc_lists hm).1

omit [IocHeap H] in
theorem findCon_modifyCon {k : ℕ} {con : PoolConnection} {f : PoolConnection → PoolConnection}
    (hid : ∀ con, (f con).id = con.id) (hfind : root.findCon k = some con) :
    (root.modifyCon k f).findCon k = some (f con) :=
  Registry.lookup_modify hid hfind

theorem findCon_freeConnectionBufs {k : ℕ} {con : PoolConnection}
    (hfind : root.findCon k = some con) :
    (root.freeConnectionBufs k).findCon k =
      some { con with frameOut := clearFrame con.frameOut, frameIn := clearFrame con.frameIn } := by
  unfold freeConnectionBufs
  rw [hfind]
  refine findCon_modifyCon (fun _ => rfl) ?_
  rw [findCon, con_freeFrame, con_freeFrame]
  exact hfind

/-! What is freed and what is changed in a list may be done in either order. -/

theorem modifyMblk_free (block : Option ℤ) (bytes : ℤ) (k : ℕ) (f : PoolMblk → PoolMblk) :
    (root.free block bytes).modifyMblk k f = (root.modifyMblk k f).free block bytes := by
  cases block <;> rfl

theorem modifyCon_freeFrame (frame : FrameBuffer) (frameSz : ℤ) (k : ℕ)
    (f : PoolConnection → PoolConnection) :
    (root.freeFrame frame frameSz).modifyCon k f =
      (root.modifyCon k f).freeFrame frame frameSz := by
  unfold freeFrame
  split_ifs
  · cases frame.buf <;> rfl
  · rfl

theorem own_clearFrame {κ : Type} (key : ℤ × ℤ → κ) (frame : FrameBuffer) (frameSz : ℤ) :
    (clearFrame frame).own key frameSz = 0 := by
  unfold clearFrame FrameBuffer.own
  split_ifs <;> simp_all

end PoolRoot

/-! ## Requests for synchronized buffers -/

namespace PoolRoot

variable (sizes)

/-- What `ioc_initialize_source_buffer` asks for the buffer, if it comes so far. -/
def sourceRequest (root : PoolRoot H) (mblk : PoolMblk) (bidirectional : Bool) : Option ℤ :=
  if (root.malloc sizes.sourceBuffer).1.isSome && !mblk.flags.static then
    some (2 * mblk.syncNbytes bidirectional)
  else none

def targetRequest (root : PoolRoot H) (mblk : PoolMblk) (bidirectional : Bool) : Option ℤ :=
  if (root.malloc sizes.targetBuffer).1.isSome then some (2 * mblk.syncNbytes bidirectional)
  else none

def syncbufRequest (root : PoolRoot H) : PoolOp → Option ℤ
  | .initializeSourceBuffer con k bidirectional =>
      match root.findCon con, root.findMblk k with
      | some _, some mblk => root.sourceRequest sizes mblk bidirectional
      | _, _ => none
  | .initializeTargetBuffer con k bidirectional =>
      match root.findCon con, root.findMblk k with
      | some _, some mblk => root.targetRequest sizes mblk bidirectional
      | _, _ => none
  | .mbinfoNewSbuf con k bdflags =>
      match root.findCon con, root.findMblk k with
      | some _, some mblk =>
          if links root.sbuf con mblk then none else root.sourceRequest sizes mblk bdflags
      | _, _ => none
  | .mbinfoNewTbuf con k bdflags =>
      match root.findCon con, root.findMblk k with
      | some _, some mblk =>
          if links root.tbuf con mblk then none
          else (root.dropTbufs sizes mblk bdflags).targetRequest sizes mblk bdflags
      | _, _ => none
  | _ => none

end PoolRoot

/-! ## The operations keep the books -/

namespace LedgerTerms.Accounts

variable {T : LedgerTerms H sizes κ} {root root' : PoolRoot H} {held : Multiset κ} {n : ℤ}

theorem takeObject_some {static : Bool} {object : Option ℤ} (h : T.Accounts root held)
    (hn : sizes.freeBlk ≤ n) (ht : root.takeObject static n = (some object, root')) :
    T.Accounts root' (ownBlock T.key object n + held) := by
  unfold PoolRoot.takeObject at ht
  split at ht
  · obtain ⟨hobject, rfl⟩ := Prod.mk.inj ht
    cases hobject
    simpa [ownBlock] using h
  · split at ht
    · cases ht
    · next hm =>
        obtain ⟨hobject, rfl⟩ := Prod.mk.inj ht
        cases hobject
        exact (h.malloc_some (T.permitted_of_le _ hn) hm).touch _

theorem takeObject_none {static : Bool} (h : T.Accounts root held)
    (hn : sizes.freeBlk ≤ n) (ht : root.takeObject static n = (none, root')) :
    T.Accounts root' held := by
  unfold PoolRoot.takeObject at ht
  split at ht
  · cases ht
  · split at ht
    · next hm =>
        obtain ⟨-, rfl⟩ := Prod.mk.inj ht
        exact h.malloc_none (T.permitted_of_le _ hn) hm
    · cases ht

theorem initializeSourceBuffer (h : T.Accounts root held) (con : ℕ) (mblk : PoolMblk)
    (bidirectional : Bool)
    (hrequest : ∀ n ∈ root.sourceRequest sizes mblk bidirectional, T.permitted n) :
    T.Accounts (root.initializeSourceBuffer sizes con mblk bidirectional).2 held := by
  have hsize := T.permitted_of_le _ sizes.freeBlk_le_object.2.2.1
  unfold PoolRoot.initializeSourceBuffer
  rcases hobject : root.malloc sizes.sourceBuffer with ⟨_ | object, root1⟩
  · exact h.malloc_none hsize hobject
  have h1 := (h.malloc_some hsize hobject).touch (some object)
  cases hstatic : mblk.flags.static with
  | true =>
      simp only [if_true]
      exact joinSbuf (by simpa [PoolBuffer.ownAsSource, ownBlock] using h1) rfl
  | false =>
      have hn : T.permitted (2 * mblk.syncNbytes bidirectional) := by
        refine hrequest _ ?_
        simp [PoolRoot.sourceRequest, hobject, hstatic]
      simp only [Bool.false_eq_true, if_false]
      rcases hbuf : (root1.touch (some object)).malloc
        (2 * mblk.syncNbytes bidirectional) with ⟨_ | buf, root2⟩
      · exact (h1.malloc_none hn hbuf).free
      have hkey := T.key_osInt _ _ _ buf h1.good hn (congrArg Prod.fst hbuf)
      have h2 := (h1.malloc_some hn hbuf).touch (some buf)
      dsimp only
      refine joinSbuf ?_ rfl
      simp only [PoolBuffer.ownAsSource, ownBlock, hkey, add_assoc] at h2 ⊢
      exact h2

theorem initializeTargetBuffer (h : T.Accounts root held) (con : ℕ) (mblk : PoolMblk)
    (bidirectional : Bool)
    (hrequest : ∀ n ∈ root.targetRequest sizes mblk bidirectional, T.permitted n) :
    T.Accounts (root.initializeTargetBuffer sizes con mblk bidirectional).2 held := by
  have hsize := T.permitted_of_le _ sizes.freeBlk_le_object.2.2.2
  unfold PoolRoot.initializeTargetBuffer
  rcases hobject : root.malloc sizes.targetBuffer with ⟨_ | object, root1⟩
  · exact h.malloc_none hsize hobject
  have h1 := (h.malloc_some hsize hobject).touch (some object)
  have hn : T.permitted (2 * mblk.syncNbytes bidirectional) := by
    refine hrequest _ ?_
    simp [PoolRoot.targetRequest, hobject]
  dsimp only
  rcases hbuf : (root1.touch (some object)).malloc
    (2 * mblk.syncNbytes bidirectional) with ⟨_ | buf, root2⟩
  · exact (h1.malloc_none hn hbuf).free
  have h2 := ((h1.malloc_some hn hbuf).touch (some buf)).touch mblk.buf
  dsimp only
  refine joinTbuf ?_ rfl
  simp only [PoolBuffer.ownAsTarget, ownBlock, add_assoc] at h2 ⊢
  exact h2

theorem releaseSourceBuffer (h : T.Accounts root held) (k : ℕ) :
    T.Accounts (root.releaseSourceBuffer sizes k) held := by
  unfold PoolRoot.releaseSourceBuffer
  split
  · exact h
  · next hfind =>
      have h1 := h.removeSbuf hfind
      rw [PoolBuffer.ownAsSource, add_assoc] at h1
      exact h1.free.free

theorem releaseTargetBuffer (h : T.Accounts root held) (k : ℕ) :
    T.Accounts (root.releaseTargetBuffer sizes k) held := by
  unfold PoolRoot.releaseTargetBuffer
  split
  · exact h
  · next hfind =>
      have h1 := h.removeTbuf hfind
      rw [PoolBuffer.ownAsTarget, add_assoc] at h1
      exact h1.free.free

theorem releaseSourceBuffers (h : T.Accounts root held) (buffers : List PoolBuffer) :
    T.Accounts (root.releaseSourceBuffers sizes buffers) held := by
  induction buffers generalizing root with
  | nil => exact h
  | cons buffer buffers ih => exact ih (h.releaseSourceBuffer buffer.id)

theorem releaseTargetBuffers (h : T.Accounts root held) (buffers : List PoolBuffer) :
    T.Accounts (root.releaseTargetBuffers sizes buffers) held := by
  induction buffers generalizing root with
  | nil => exact h
  | cons buffer buffers ih => exact ih (h.releaseTargetBuffer buffer.id)

theorem mbinfoNewSbuf (h : T.Accounts root held) (con : ℕ) (mblk : PoolMblk) (bdflags : Bool)
    (hrequest : PoolRoot.links root.sbuf con mblk = false →
      ∀ n ∈ root.sourceRequest sizes mblk bdflags, T.permitted n) :
    T.Accounts (root.mbinfoNewSbuf sizes con mblk bdflags) held := by
  unfold PoolRoot.mbinfoNewSbuf
  split_ifs with hlinks
  · exact h
  · exact h.initializeSourceBuffer con mblk bdflags (hrequest (by simpa using hlinks))

theorem mbinfoNewTbuf (h : T.Accounts root held) (con : ℕ) (mblk : PoolMblk) (bdflags : Bool)
    (hrequest : PoolRoot.links root.tbuf con mblk = false →
      ∀ n ∈ (root.dropTbufs sizes mblk bdflags).targetRequest sizes mblk bdflags,
        T.permitted n) :
    T.Accounts (root.mbinfoNewTbuf sizes con mblk bdflags) held := by
  unfold PoolRoot.mbinfoNewTbuf
  split_ifs with hlinks
  · exact h
  · exact initializeTargetBuffer (h.releaseTargetBuffers _) con mblk bdflags
      (hrequest (by simpa using hlinks))

theorem touchUnless (h : T.Accounts root held) (static : Bool) (buf : Option ℤ) :
    T.Accounts (if static then root else root.touch buf) held := by
  split_ifs
  · exact h
  · exact h.touch buf

theorem setupMemoryBlock {object : Option ℤ} (prm : PoolMblkParams)
    (h : T.Accounts root (ownBlock T.key object sizes.memoryBlock + held)) :
    T.Accounts (root.setupMemoryBlock object prm) held := by
  unfold PoolRoot.setupMemoryBlock
  cases prm.buf with
  | some given =>
      refine joinMblk ?_ rfl ⟨by simp, by simp⟩
      simpa [PoolMblk.own] using h.touchUnless prm.flags.static (some given.1)
  | none =>
      set nbytes := if prm.nbytes < minMblkSz then minMblkSz else prm.nbytes with hnbytes
      have hmin : minMblkSz ≤ nbytes := by
        rw [hnbytes]
        split_ifs <;> omega
      have hn := T.permitted_of_le nbytes (sizes.freeBlk_le_mblk.trans hmin)
      dsimp only
      rcases hbuf : root.malloc nbytes with ⟨buf, root1⟩
      have h1 : T.Accounts root1
          (ownBlock T.key buf nbytes + (ownBlock T.key object sizes.memoryBlock + held)) := by
        cases buf with
        | none => simpa [ownBlock] using h.malloc_none hn hbuf
        | some buf => exact h.malloc_some hn hbuf
      refine joinMblk ?_ rfl ⟨fun _ => hmin, by simp⟩
      rw [← add_assoc] at h1
      simpa [PoolMblk.own] using h1.touchUnless prm.flags.static buf

theorem initializeMemoryBlock (h : T.Accounts root held) (static : Bool)
    (prm : PoolMblkParams) :
    T.Accounts (root.initializeMemoryBlock sizes static prm).2 held := by
  unfold PoolRoot.initializeMemoryBlock
  rcases hobject : root.takeObject static sizes.memoryBlock with ⟨_ | object, root1⟩
  · exact h.takeObject_none sizes.freeBlk_le_object.2.1 hobject
  · exact (h.takeObject_some sizes.freeBlk_le_object.2.1 hobject).setupMemoryBlock prm

theorem releaseMblkBuffers (h : T.Accounts root held) (k : ℕ) :
    T.Accounts (root.releaseMblkBuffers sizes k) held :=
  (h.releaseSourceBuffers _).releaseTargetBuffers _

theorem releaseMemoryBlock (h : T.Accounts root held) (k : ℕ) :
    T.Accounts (root.releaseMemoryBlock sizes k) held := by
  unfold PoolRoot.releaseMemoryBlock
  split
  · exact h
  · next mblk hfind =>
      have hkept : (root.releaseMblkBuffers sizes k).findMblk k = some mblk := by
        rw [PoolRoot.findMblk, (root.releaseMblkBuffers_lists sizes k).2]
        exact hfind
      have h1 := (h.releaseMblkBuffers k).removeMblk hkept
      rw [PoolMblk.own, add_assoc] at h1
      cases hallocated : mblk.bufAllocated with
      | true =>
          simp only [hallocated, if_true] at h1 ⊢
          exact h1.free.free
      | false =>
          simp only [hallocated, Bool.false_eq_true, if_false, zero_add] at h1 ⊢
          exact h1.free

theorem resizeMblk {mblk : PoolMblk} (h : T.Accounts root held)
    (hfind : root.findMblk mblk.id = some mblk) (nbytes : ℤ) (disconnect : Bool) :
    T.Accounts (root.resizeMblk sizes mblk nbytes disconnect).2 held := by
  have hsized := h.sized mblk (Registry.lookup_mem hfind)
  unfold PoolRoot.resizeMblk
  by_cases hfits : nbytes ≤ mblk.nbytes
  · simpa [hfits] using h
  by_cases hallow : mblk.flags.allowResize = true
  swap
  · simpa [hfits, hallow] using h
  by_cases hstatic : (!mblk.bufAllocated && mblk.buf.isSome) = true
  · simpa [hfits, hallow, hstatic] using h
  simp only [if_neg hfits, hallow, Bool.not_true, Bool.false_eq_true, if_false, if_neg hstatic]
  have hallocated : mblk.bufAllocated = true := by
    by_contra hnot
    have hfalse : mblk.bufAllocated = false := by simpa using hnot
    exact hstatic (by simp [hfalse, hsized.2 hfalse])
  have hmin := hsized.1 hallocated
  have hn := T.permitted_of_le nbytes (sizes.freeBlk_le_mblk.trans (by omega))
  set root1 := if disconnect then root.releaseMblkBuffers sizes mblk.id else root with hroot1
  have h1 : T.Accounts root1 held := by
    rw [hroot1]
    split_ifs
    · exact h.releaseMblkBuffers _
    · exact h
  have hkept : root1.mblk = root.mblk := by
    rw [hroot1]
    split_ifs
    · exact (root.releaseMblkBuffers_lists sizes mblk.id).2
    · rfl
  rcases hbuf : root1.malloc nbytes with ⟨_ | newbuf, root2⟩
  · exact h1.malloc_none hn hbuf
  have h2 := (h1.malloc_some hn hbuf).touch (some newbuf)
  have hfind2 : (root2.touch (some newbuf)).findMblk mblk.id = some mblk := by
    change Registry.lookup PoolMblk.id mblk.id root2.mblk = some mblk
    rw [(PoolRoot.malloc_lists hbuf).2.1, hkept]
    exact hfind
  dsimp only
  rw [PoolRoot.modifyMblk_free]
  refine free (h2.modifyMblk hfind2 (fun _ => rfl) ⟨fun _ => by change minMblkSz ≤ nbytes; omega,
    by simp [PoolRoot.growMblk]⟩ ?_)
  simp only [PoolMblk.own, PoolRoot.growMblk, hallocated, if_true]
  abel

theorem resizeMemoryBlockByInfo {mblk : PoolMblk} (h : T.Accounts root held)
    (hfind : root.findMblk mblk.id = some mblk) (maxAddr : ℤ) :
    T.Accounts (root.resizeMemoryBlockByInfo mblk maxAddr) held := by
  unfold PoolRoot.resizeMemoryBlockByInfo
  set sz := if maxAddr < minMblkSz then minMblkSz else maxAddr with hsz
  have hmin : minMblkSz ≤ sz := by
    rw [hsz]
    split_ifs <;> omega
  have hn := T.permitted_of_le sz (sizes.freeBlk_le_mblk.trans hmin)
  dsimp only
  split_ifs with hgrow
  · rcases hbuf : root.malloc sz with ⟨_ | newbuf, root1⟩
    · exact h.malloc_none hn hbuf
    have h1 := ((h.malloc_some hn hbuf).touch (some newbuf)).touch mblk.buf
    have hfind1 : ((root1.touch (some newbuf)).touch mblk.buf).findMblk mblk.id = some mblk := by
      change Registry.lookup PoolMblk.id mblk.id root1.mblk = some mblk
      rw [(PoolRoot.malloc_lists hbuf).2.1]
      exact hfind
    dsimp only
    rw [PoolRoot.modifyMblk_free]
    refine free (h1.modifyMblk hfind1 (fun _ => rfl) ⟨fun _ => hmin, by simp⟩ ?_)
    simp only [PoolMblk.own, hgrow.2, if_true]
    abel
  · exact h

theorem initializeConnection (h : T.Accounts root held) (static : Bool) :
    T.Accounts (root.initializeConnection sizes static).2 held := by
  unfold PoolRoot.initializeConnection
  rcases hobject : root.takeObject static sizes.connection with ⟨_ | object, root1⟩
  · exact h.takeObject_none sizes.freeBlk_le_object.1 hobject
  · dsimp only
    refine joinCon ?_ rfl
    simpa [PoolConnection.own, FrameBuffer.own] using
      h.takeObject_some sizes.freeBlk_le_object.1 hobject

theorem freeFrame {frame : FrameBuffer} {frameSz : ℤ}
    (h : T.Accounts root (frame.own T.key frameSz + held)) :
    T.Accounts (root.freeFrame frame frameSz) held := by
  unfold PoolRoot.freeFrame
  unfold FrameBuffer.own at h
  split_ifs at h ⊢
  · exact h.free
  · simpa using h

theorem freeConnectionBufs (h : T.Accounts root held) (k : ℕ) :
    T.Accounts (root.freeConnectionBufs k) held := by
  unfold PoolRoot.freeConnectionBufs
  split
  · exact h
  · next con hfind =>
      rw [PoolRoot.modifyCon_freeFrame, PoolRoot.modifyCon_freeFrame]
      refine freeFrame (freeFrame (h.modifyCon hfind (fun _ => rfl) ?_))
      simp only [PoolConnection.own, PoolRoot.own_clearFrame]
      abel

theorem releaseDynamicMblkIfNotAttached (h : T.Accounts root held) (k deletingCon : ℕ) :
    T.Accounts (root.releaseDynamicMblkIfNotAttached sizes k deletingCon) held := by
  unfold PoolRoot.releaseDynamicMblkIfNotAttached
  split
  · exact h
  · dsimp only
    split_ifs
    · exact h
    · exact h
    · exact h.releaseMemoryBlock k

theorem freeSourceBufs (h : T.Accounts root held) (con fuel : ℕ) :
    T.Accounts (PoolRoot.freeSourceBufs sizes con fuel root) held := by
  induction fuel generalizing root with
  | zero => exact h
  | succ fuel ih =>
      unfold PoolRoot.freeSourceBufs
      split
      · exact h
      · exact ih ((h.releaseSourceBuffer _).releaseDynamicMblkIfNotAttached _ _)

theorem freeTargetBufs (h : T.Accounts root held) (con fuel : ℕ) :
    T.Accounts (PoolRoot.freeTargetBufs sizes con fuel root) held := by
  induction fuel generalizing root with
  | zero => exact h
  | succ fuel ih =>
      unfold PoolRoot.freeTargetBufs
      split
      · exact h
      · exact ih ((h.releaseTargetBuffer _).releaseDynamicMblkIfNotAttached _ _)

theorem freeSourceAndTargetBufs (h : T.Accounts root held) (con : ℕ) :
    T.Accounts (root.freeSourceAndTargetBufs sizes con) held :=
  (h.freeSourceBufs con _).freeTargetBufs con _

theorem releaseConnection (h : T.Accounts root held) (k : ℕ) :
    T.Accounts (root.releaseConnection sizes k) held := by
  unfold PoolRoot.releaseConnection
  split
  · exact h
  · next con hfind =>
      have hkept : (root.freeSourceAndTargetBufs sizes k).findCon k = some con := by
        rw [PoolRoot.findCon, PoolRoot.con_freeSourceAndTargetBufs]
        exact hfind
      have h1 := (h.freeSourceAndTargetBufs k).removeCon hkept
      rw [PoolConnection.own, add_assoc, add_assoc] at h1
      exact h1.freeFrame.freeFrame.free

theorem takeFrame_some {static : Option ℤ} {frame : FrameBuffer} (h : T.Accounts root held)
    (hn : T.permitted n) (ht : root.takeFrame static n = (some frame, root')) :
    T.Accounts root' (frame.own T.key n + held) := by
  unfold PoolRoot.takeFrame at ht
  split at ht
  · obtain ⟨hframe, rfl⟩ := Prod.mk.inj ht
    cases hframe
    simpa [FrameBuffer.own] using h
  · split at ht
    · cases ht
    · next hm =>
        obtain ⟨hframe, rfl⟩ := Prod.mk.inj ht
        cases hframe
        exact h.malloc_some hn hm

theorem takeFrame_none {static : Option ℤ} (h : T.Accounts root held) (hn : T.permitted n)
    (ht : root.takeFrame static n = (none, root')) : T.Accounts root' held := by
  unfold PoolRoot.takeFrame at ht
  split at ht
  · cases ht
  · split at ht
    · next hm =>
        obtain ⟨-, rfl⟩ := Prod.mk.inj ht
        exact h.malloc_none hn hm
    · cases ht

theorem connect {k : ℕ} {con : PoolConnection} (h : T.Accounts root held) (prm : ConnectParams)
    (hfind : root.findCon k = some con)
    (hout : con.frameOut.own T.key con.frameSz =
      con.frameOut.own T.key (sizes.frameSz prm.socket))
    (hin : con.frameIn.own T.key con.frameSz = con.frameIn.own T.key (sizes.frameSz prm.socket)) :
    T.Accounts (root.connect sizes k prm).2 held := by
  have hn : T.permitted (sizes.frameSz prm.socket) := by
    refine T.permitted_of_le _ ?_
    unfold PoolSizes.frameSz
    split_ifs
    exacts [sizes.freeBlk_le_frame.1, sizes.freeBlk_le_frame.2]
  unfold PoolRoot.connect
  dsimp only
  set frameSz := sizes.frameSz prm.socket with hframeSz
  set started := fun con : PoolConnection =>
    { con with frameSz := frameSz, connectUp := prm.connectUp, listener := false } with hstarted
  have h1 : T.Accounts (root.modifyCon k started) held := by
    refine h.modifyCon hfind (fun _ => rfl) ?_
    simp only [PoolConnection.own, hstarted, hout, hin]
  have hfind1 := PoolRoot.findCon_modifyCon (f := started) (fun _ => rfl) hfind
  have h2 := h1.freeConnectionBufs k
  have hfind2 := PoolRoot.findCon_freeConnectionBufs hfind1
  rcases hframeOut : ((root.modifyCon k started).freeConnectionBufs k).takeFrame prm.frameOutBuf
    frameSz with ⟨_ | frameOut, root3⟩
  · exact h2.takeFrame_none hn hframeOut
  have h3 := (h2.takeFrame_some hn hframeOut).touch frameOut.buf
  have hfind3 : (root3.touch frameOut.buf).findCon k = _ :=
    (congrArg (Registry.lookup PoolConnection.id k) (PoolRoot.con_takeFrame hframeOut)).trans hfind2
  dsimp only
  set withOut := fun con : PoolConnection => { con with frameOut := frameOut } with hwithOut
  have h4 : T.Accounts ((root3.touch frameOut.buf).modifyCon k withOut) held := by
    refine h3.modifyCon hfind3 (fun _ => rfl) ?_
    simp only [PoolConnection.own, hwithOut, hstarted, PoolRoot.own_clearFrame]
    abel
  have hfind4 := PoolRoot.findCon_modifyCon (f := withOut) (fun _ => rfl) hfind3
  rcases hframeIn : ((root3.touch frameOut.buf).modifyCon k withOut).takeFrame prm.frameInBuf
    frameSz with ⟨_ | frameIn, root5⟩
  · exact (h4.takeFrame_none hn hframeIn).freeConnectionBufs k
  have h5 := (h4.takeFrame_some hn hframeIn).touch frameIn.buf
  have hfind5 : (root5.touch frameIn.buf).findCon k = _ :=
    (congrArg (Registry.lookup PoolConnection.id k) (PoolRoot.con_takeFrame hframeIn)).trans hfind4
  dsimp only
  refine h5.modifyCon hfind5 (fun _ => rfl) ?_
  simp only [PoolConnection.own, hwithOut, hstarted, PoolRoot.own_clearFrame]
  abel

end LedgerTerms.Accounts

/-! ## Runs -/

/-- The frame buffers of a connection count the same with the frame size which
`ioc_connect` sets, and a source or target buffer asks for what is permitted. -/
def LedgerTerms.Countable (T : LedgerTerms H sizes κ) (root : PoolRoot H) : PoolOp → Prop
  | .connect k prm => ∀ con, root.findCon k = some con →
      con.frameOut.own T.key con.frameSz = con.frameOut.own T.key (sizes.frameSz prm.socket) ∧
      con.frameIn.own T.key con.frameSz = con.frameIn.own T.key (sizes.frameSz prm.socket)
  | op => ∀ n ∈ root.syncbufRequest sizes op, T.permitted n

namespace LedgerTerms.Accounts

variable {T : LedgerTerms H sizes κ} {root : PoolRoot H} {held : Multiset κ}

theorem linking {con k : ℕ} {op : PoolMblk → PoolRoot H} (h : T.Accounts root held)
    (hop : ∀ c mblk, root.findCon con = some c → root.findMblk k = some mblk →
      T.Accounts (op mblk) held) :
    T.Accounts (root.linking con k op) held := by
  unfold PoolRoot.linking
  split
  · next c mblk hcon hmblk => exact hop c mblk hcon hmblk
  · exact h

theorem apply (h : T.Accounts root held) (op : PoolOp) (hop : T.Countable root op) :
    T.Accounts (root.apply sizes op) held := by
  cases op with
  | initializeConnection static => exact h.initializeConnection static
  | connect k prm =>
      simp only [PoolRoot.apply]
      split_ifs with hfound
      · obtain ⟨con, hfind⟩ := Option.isSome_iff_exists.mp hfound
        have hframes := hop con hfind
        exact h.connect prm hfind hframes.1 hframes.2
      · exact h
  | closeConnection con => exact h.freeSourceAndTargetBufs con
  | releaseConnection con => exact h.releaseConnection con
  | initializeMemoryBlock static prm => exact h.initializeMemoryBlock static prm
  | releaseMemoryBlock k => exact h.releaseMemoryBlock k
  | resizeMblk k nbytes disconnect =>
      simp only [PoolRoot.apply]
      split
      · exact h
      · next mblk hfind =>
          have hk := Registry.lookup_key hfind
          exact h.resizeMblk (hk ▸ hfind) nbytes disconnect
  | resizeMemoryBlockByInfo k maxAddr =>
      simp only [PoolRoot.apply]
      split
      · exact h
      · next mblk hfind =>
          have hk := Registry.lookup_key hfind
          exact h.resizeMemoryBlockByInfo (hk ▸ hfind) maxAddr
  | initializeSourceBuffer con k bidirectional =>
      refine h.linking fun c mblk hcon hmblk => h.initializeSourceBuffer con mblk bidirectional ?_
      simpa [LedgerTerms.Countable, PoolRoot.syncbufRequest, hcon, hmblk] using hop
  | initializeTargetBuffer con k bidirectional =>
      refine h.linking fun c mblk hcon hmblk => h.initializeTargetBuffer con mblk bidirectional ?_
      simpa [LedgerTerms.Countable, PoolRoot.syncbufRequest, hcon, hmblk] using hop
  | mbinfoNewSbuf con k bdflags =>
      refine h.linking fun c mblk hcon hmblk => h.mbinfoNewSbuf con mblk bdflags fun hlinks => ?_
      simpa [LedgerTerms.Countable, PoolRoot.syncbufRequest, hcon, hmblk, hlinks] using hop
  | mbinfoNewTbuf con k bdflags =>
      refine h.linking fun c mblk hcon hmblk => h.mbinfoNewTbuf con mblk bdflags fun hlinks => ?_
      simpa [LedgerTerms.Countable, PoolRoot.syncbufRequest, hcon, hmblk, hlinks] using hop
  | releaseSourceBuffer k => exact h.releaseSourceBuffer k
  | releaseTargetBuffer k => exact h.releaseTargetBuffer k

theorem run {ops : List PoolOp} (h : T.Accounts root held)
    (hops : PoolRoot.EachStep sizes T.Countable root ops) :
    T.Accounts (root.run sizes ops) held := by
  induction ops generalizing root with
  | nil => exact h
  | cons op ops ih => exact ih (h.apply op hops.1) hops.2

end LedgerTerms.Accounts

end Iocom
