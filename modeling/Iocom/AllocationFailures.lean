import Iocom.PoolOwnership

/-!
# When memory runs out

The operations which allocate more than one block: what is left of them when
`ioc_malloc` fails at any place.  Which calls fail is up to the heap, so it may be
any pattern.
-/

namespace Iocom

open MemoryLedger

def addressTerms (H : Type) [IocHeap H] (sizes : PoolSizes) : LedgerTerms H sizes ℤ where
  key := Prod.fst
  permitted _ := True
  good _ _ := True
  permitted_of_le _ _ := trivial
  good_malloc _ _ _ _ _ := trivial
  good_free _ _ _ _ _ _ := trivial
  good_touch _ _ _ _ := trivial
  key_osInt _ _ _ _ _ _ _ := rfl

variable {H : Type} [IocHeap H] {sizes : PoolSizes}

theorem ownBlock_fst (block : Option ℤ) (m n : ℤ) :
    ownBlock Prod.fst block m = ownBlock Prod.fst block n := by
  cases block <;> rfl

theorem FrameBuffer.own_fst (frame : FrameBuffer) (m n : ℤ) :
    frame.own Prod.fst m = frame.own Prod.fst n := by
  unfold FrameBuffer.own
  split_ifs
  · exact ownBlock_fst _ _ _
  · rfl

theorem addressTerms_countable (root : PoolRoot H) (op : PoolOp) :
    (addressTerms H sizes).Countable root op := by
  cases op with
  | connect k prm =>
      intro con _
      exact ⟨FrameBuffer.own_fst _ _ _, FrameBuffer.own_fst _ _ _⟩
  | _ => exact fun _ _ => trivial

/-- Whatever is allocated has an owner, whichever allocations have failed. -/
theorem PoolRoot.run_accounts (sizes : PoolSizes) (heap : H) (ops : List PoolOp) :
    (addressTerms H sizes).Accounts ((PoolRoot.start heap).run sizes ops) 0 := by
  refine (LedgerTerms.Accounts.start heap trivial).run ?_
  generalize PoolRoot.start heap = root
  induction ops generalizing root with
  | nil => trivial
  | cons op ops ih => exact ⟨addressTerms_countable root op, ih _⟩

/-! ## What survives -/

inductive AllocatingOp where
  | initializeMemoryBlock (static : Bool) (prm : PoolMblkParams)
  | resizeMblk (mblk : ℕ) (nbytes : ℤ) (disconnect : Bool)
  | mbinfoNewSbuf (con mblk : ℕ) (bdflags : Bool)
  | mbinfoNewTbuf (con mblk : ℕ) (bdflags : Bool)
  | connect (con : ℕ) (prm : ConnectParams)

namespace AllocatingOp

def op : AllocatingOp → PoolOp
  | .initializeMemoryBlock static prm => .initializeMemoryBlock static prm
  | .resizeMblk mblk nbytes disconnect => .resizeMblk mblk nbytes disconnect
  | .mbinfoNewSbuf con mblk bdflags => .mbinfoNewSbuf con mblk bdflags
  | .mbinfoNewTbuf con mblk bdflags => .mbinfoNewTbuf con mblk bdflags
  | .connect con prm => .connect con prm

variable (sizes)

/-- The operation has done what it is for: a status which is no failure, or a link. -/
def Succeeds (root : PoolRoot H) : AllocatingOp → Prop
  | .initializeMemoryBlock static prm =>
      (root.initializeMemoryBlock sizes static prm).1 = .success
  | .resizeMblk k nbytes disconnect => ∀ mblk, root.findMblk k = some mblk →
      (root.resizeMblk sizes mblk nbytes disconnect).1 = .success ∨
      (root.resizeMblk sizes mblk nbytes disconnect).1 = .completed
  | .mbinfoNewSbuf con k bdflags => ∀ mblk, root.findMblk k = some mblk →
      PoolRoot.links (root.apply sizes (.mbinfoNewSbuf con k bdflags)).sbuf con mblk = true
  | .mbinfoNewTbuf con k bdflags => ∀ mblk, root.findMblk k = some mblk →
      PoolRoot.links (root.apply sizes (.mbinfoNewTbuf con k bdflags)).tbuf con mblk = true
  | .connect k prm => (root.connect sizes k prm).1 = .success

/-- What a failed operation may have freed: `ioc_connect` begins with the connection's
own frame buffers. -/
def released (root : PoolRoot H) : AllocatingOp → Multiset ℤ
  | .connect k _ =>
      match root.findCon k with
      | none => 0
      | some con =>
          con.frameOut.own Prod.fst con.frameSz + con.frameIn.own Prod.fst con.frameSz
  | _ => 0

end AllocatingOp

/-- Null buffers which were written to or read. -/
def nullUses (calls : List Call) : ℕ := calls.count (.touch none)

/-- An object of a list was there before or has its buffers; a source buffer of a static
block needs none. -/
structure PoolRoot.NoHalfBuilt (before after : PoolRoot H) : Prop where
  mblk : ∀ mblk ∈ after.mblk, mblk ∈ before.mblk ∨ mblk.buf.isSome
  sbuf : ∀ sbuf ∈ after.sbuf, sbuf ∈ before.sbuf ∨ sbuf.buf.isSome ∨
    ∃ mblk ∈ before.mblk, mblk.id = sbuf.mblk ∧ mblk.flags.static = true
  tbuf : ∀ tbuf ∈ after.tbuf, tbuf ∈ before.tbuf ∨ tbuf.buf.isSome
  con : ∀ con ∈ after.con, con ∈ before.con ∨
    (con.frameOut.allocated = true → con.frameOut.buf.isSome) ∧
      (con.frameIn.allocated = true → con.frameIn.buf.isSome)

structure PoolRoot.SameBlocks (before after : PoolRoot H) (released : Multiset ℤ) : Prop where
  mblk : after.mblk = before.mblk
  sbuf : after.sbuf = before.sbuf
  tbuf : after.tbuf = before.tbuf
  live : live Prod.fst after.calls = live Prod.fst before.calls - released

structure AllocatingOp.Survives (sizes : PoolSizes) (root : PoolRoot H) (a : AllocatingOp) :
    Prop where
  noNull : nullUses (root.apply sizes a.op).calls = nullUses root.calls
  built : root.NoHalfBuilt (root.apply sizes a.op)
  failed : ¬a.Succeeds sizes root → root.SameBlocks (root.apply sizes a.op) (a.released root)
  others : ∀ k, (∀ prm, a ≠ .connect k prm) → (root.apply sizes a.op).findCon k = root.findCon k

/-! ## When they survive -/

namespace PoolRoot

variable (sizes)

def mblkMemory (root : PoolRoot H) (static : Bool) (prm : PoolMblkParams) : Bool :=
  match root.takeObject static sizes.memoryBlock with
  | (none, _) => false
  | (some _, root) =>
      (root.malloc (if prm.nbytes < minMblkSz then minMblkSz else prm.nbytes)).1.isSome

def targetMemory (root : PoolRoot H) (mblk : PoolMblk) (bidirectional : Bool) : Bool :=
  match root.malloc sizes.targetBuffer with
  | (none, _) => false
  | (some object, root) =>
      ((root.touch (some object)).malloc (2 * mblk.syncNbytes bidirectional)).1.isSome

/-- `ioc_resize_mblk` comes to allocate a larger buffer. -/
def grows (mblk : PoolMblk) (nbytes : ℤ) : Bool :=
  decide (mblk.nbytes < nbytes) && mblk.flags.allowResize &&
    (mblk.bufAllocated || mblk.buf.isNone)

/-- The block is linked to a connection. -/
def isLinked (root : PoolRoot H) (k : ℕ) : Bool :=
  (root.sbuf.any fun sbuf => decide (sbuf.mblk = k)) ||
    root.tbuf.any fun tbuf => decide (tbuf.mblk = k)

end PoolRoot

/-- Memory does not run out where an operation has gone too far: after the structure of
a memory block, or when buffers have been released for a block to be resized or linked.
A block of which the content is copied has a buffer. -/
def AllocatingOp.Supplied (sizes : PoolSizes) (root : PoolRoot H) : AllocatingOp → Prop
  | .initializeMemoryBlock static prm =>
      prm.buf = none → (root.takeObject static sizes.memoryBlock).1.isSome = true →
        root.mblkMemory sizes static prm = true
  | .resizeMblk k nbytes disconnect => ∀ mblk, root.findMblk k = some mblk →
      PoolRoot.grows mblk nbytes = true → disconnect = true → root.isLinked k = true →
        ((root.releaseMblkBuffers sizes k).malloc nbytes).1.isSome = true
  | .mbinfoNewSbuf _ _ _ => True
  | .mbinfoNewTbuf con k bdflags => ∀ c mblk, root.findCon con = some c →
      root.findMblk k = some mblk → PoolRoot.links root.tbuf con mblk = false →
        if (root.dropTbufs sizes mblk bdflags).targetMemory sizes mblk bdflags then
          mblk.buf.isSome = true
        else root.droppedTbufs mblk bdflags = []
  | .connect _ _ => True

/-! ## Memory calls -/

namespace PoolRoot

variable {root root' : PoolRoot H} {n : ℤ}

theorem nullUses_malloc {r : Option ℤ} (hm : root.malloc n = (r, root')) :
    nullUses root'.calls = nullUses root.calls := by
  obtain ⟨-, rfl⟩ := Prod.mk.inj hm
  exact List.count_cons_of_ne (by simp)

omit [IocHeap H] in
@[simp] theorem nullUses_touch_some (buf : ℤ) :
    nullUses (root.touch (some buf)).calls = nullUses root.calls :=
  List.count_cons_of_ne (by simp)

omit [IocHeap H] in
@[simp] theorem nullUses_touch_none :
    nullUses (root.touch none).calls = nullUses root.calls + 1 :=
  List.count_cons_self

@[simp] theorem nullUses_free (block : Option ℤ) (bytes : ℤ) :
    nullUses (root.free block bytes).calls = nullUses root.calls := by
  cases block with
  | none => rfl
  | some block => exact List.count_cons_of_ne (by simp)

theorem live_malloc_some {block : ℤ} (hm : root.malloc n = (some block, root')) :
    live Prod.fst root'.calls = block ::ₘ live Prod.fst root.calls := by
  obtain ⟨hblock, rfl⟩ := Prod.mk.inj hm
  rw [hblock]
  rfl

theorem live_malloc_none (hm : root.malloc n = (none, root')) :
    live Prod.fst root'.calls = live Prod.fst root.calls := by
  obtain ⟨hblock, rfl⟩ := Prod.mk.inj hm
  rw [hblock]
  rfl

theorem live_free (block : Option ℤ) (bytes : ℤ) :
    live Prod.fst (root.free block bytes).calls =
      live Prod.fst root.calls - ownBlock Prod.fst block bytes := by
  cases block with
  | none => simp [free, ownBlock]
  | some block => exact (Multiset.sub_singleton _ _).symm

@[simp] theorem sbuf_free (block : Option ℤ) (bytes : ℤ) :
    (root.free block bytes).sbuf = root.sbuf := by
  cases block <;> rfl

@[simp] theorem tbuf_free (block : Option ℤ) (bytes : ℤ) :
    (root.free block bytes).tbuf = root.tbuf := by
  cases block <;> rfl

variable (sizes)

theorem nullUses_releaseSourceBuffer (k : ℕ) :
    nullUses (root.releaseSourceBuffer sizes k).calls = nullUses root.calls := by
  unfold releaseSourceBuffer
  split
  · rfl
  · simp [removeSbuf]

@[simp] theorem nullUses_releaseSourceBuffers (buffers : List PoolBuffer) :
    nullUses (root.releaseSourceBuffers sizes buffers).calls = nullUses root.calls := by
  induction buffers generalizing root with
  | nil => rfl
  | cons buffer buffers ih =>
      exact ih.trans (nullUses_releaseSourceBuffer sizes buffer.id)

theorem nullUses_releaseTargetBuffer (k : ℕ) :
    nullUses (root.releaseTargetBuffer sizes k).calls = nullUses root.calls := by
  unfold releaseTargetBuffer
  split
  · rfl
  · simp [removeTbuf]

@[simp] theorem nullUses_releaseTargetBuffers (buffers : List PoolBuffer) :
    nullUses (root.releaseTargetBuffers sizes buffers).calls = nullUses root.calls := by
  induction buffers generalizing root with
  | nil => rfl
  | cons buffer buffers ih =>
      exact ih.trans (nullUses_releaseTargetBuffer sizes buffer.id)

/-- The source buffers which are left have other identifiers. -/
theorem releaseSourceBuffers_buffers (root : PoolRoot H) (buffers : List PoolBuffer) :
    (∀ b, b ∈ (root.releaseSourceBuffers sizes buffers).sbuf ↔
      b ∈ root.sbuf ∧ ∀ c ∈ buffers, b.id ≠ c.id) ∧
    (root.releaseSourceBuffers sizes buffers).tbuf = root.tbuf := by
  induction buffers generalizing root with
  | nil => simp [releaseSourceBuffers]
  | cons buffer buffers ih =>
      have hone : (root.releaseSourceBuffer sizes buffer.id).sbuf =
          Registry.remove PoolBuffer.id buffer.id root.sbuf ∧
          (root.releaseSourceBuffer sizes buffer.id).tbuf = root.tbuf := by
        unfold releaseSourceBuffer
        split
        · next hnone => exact ⟨(Registry.remove_of_lookup_none hnone).symm, rfl⟩
        · simp [removeSbuf]
      obtain ⟨hmem, htbuf⟩ := ih (root.releaseSourceBuffer sizes buffer.id)
      refine ⟨fun b => (hmem b).trans ?_, htbuf.trans hone.2⟩
      rw [hone.1, Registry.mem_remove]
      simp [and_assoc]

theorem releaseTargetBuffers_buffers (root : PoolRoot H) (buffers : List PoolBuffer) :
    (∀ b, b ∈ (root.releaseTargetBuffers sizes buffers).tbuf ↔
      b ∈ root.tbuf ∧ ∀ c ∈ buffers, b.id ≠ c.id) ∧
    (root.releaseTargetBuffers sizes buffers).sbuf = root.sbuf := by
  induction buffers generalizing root with
  | nil => simp [releaseTargetBuffers]
  | cons buffer buffers ih =>
      have hone : (root.releaseTargetBuffer sizes buffer.id).tbuf =
          Registry.remove PoolBuffer.id buffer.id root.tbuf ∧
          (root.releaseTargetBuffer sizes buffer.id).sbuf = root.sbuf := by
        unfold releaseTargetBuffer
        split
        · next hnone => exact ⟨(Registry.remove_of_lookup_none hnone).symm, rfl⟩
        · simp [removeTbuf]
      obtain ⟨hmem, hsbuf⟩ := ih (root.releaseTargetBuffer sizes buffer.id)
      refine ⟨fun b => (hmem b).trans ?_, hsbuf.trans hone.2⟩
      rw [hone.1, Registry.mem_remove]
      simp [and_assoc]

/-! ## What stays as it was -/

structure Unchanged (before after : PoolRoot H) : Prop where
  con : after.con = before.con
  mblk : after.mblk = before.mblk
  sbuf : after.sbuf = before.sbuf
  tbuf : after.tbuf = before.tbuf
  live : live Prod.fst after.calls = live Prod.fst before.calls
  noNull : nullUses after.calls = nullUses before.calls

theorem takeObject_unchanged {static : Bool} {object : Option (Option ℤ)}
    (ht : root.takeObject static n = (object, root')) :
    root'.con = root.con ∧ root'.mblk = root.mblk ∧ root'.sbuf = root.sbuf ∧
      root'.tbuf = root.tbuf ∧ root'.nextId = root.nextId ∧
      nullUses root'.calls = nullUses root.calls ∧
      (object = none → live Prod.fst root'.calls = live Prod.fst root.calls) := by
  unfold takeObject at ht
  split at ht
  · obtain ⟨rfl, rfl⟩ := Prod.mk.inj ht
    simp
  · split at ht <;> obtain ⟨rfl, rfl⟩ := Prod.mk.inj ht
    · next hm =>
        obtain ⟨hcon, hmblk, hsbuf, htbuf, hid⟩ := malloc_lists hm
        exact ⟨hcon, hmblk, hsbuf, htbuf, hid, nullUses_malloc hm, fun _ => live_malloc_none hm⟩
    · next hm =>
        obtain ⟨hcon, hmblk, hsbuf, htbuf, hid⟩ := malloc_lists hm
        exact ⟨hcon, hmblk, hsbuf, htbuf, hid, (nullUses_touch_some _).trans (nullUses_malloc hm),
          fun hnone => by cases hnone⟩

theorem setupMemoryBlock_spec (root : PoolRoot H) (object : Option ℤ) (prm : PoolMblkParams) :
    ∃ mblk : PoolMblk, (root.setupMemoryBlock object prm).mblk = root.mblk ++ [mblk] ∧
      mblk.id = root.nextId ∧
      (mblk.buf.isSome = true ↔ (prm.buf = none →
        (root.malloc (if prm.nbytes < minMblkSz then minMblkSz else prm.nbytes)).1.isSome =
          true)) ∧
      (root.setupMemoryBlock object prm).con = root.con ∧
      (root.setupMemoryBlock object prm).sbuf = root.sbuf ∧
      (root.setupMemoryBlock object prm).tbuf = root.tbuf ∧
      (mblk.buf.isSome = true →
        nullUses (root.setupMemoryBlock object prm).calls = nullUses root.calls) := by
  unfold setupMemoryBlock
  cases hprm : prm.buf with
  | some given =>
      cases hstatic : prm.flags.static with
      | true => exact ⟨_, rfl, rfl, by simp, rfl, rfl, rfl, fun _ => rfl⟩
      | false => exact ⟨_, rfl, rfl, by simp, rfl, rfl, rfl, fun _ => nullUses_touch_some _⟩
  | none =>
      dsimp only
      rcases hbuf : root.malloc (if prm.nbytes < minMblkSz then minMblkSz else prm.nbytes) with
        ⟨buf, root1⟩
      obtain ⟨hcon, hmblk, hsbuf, htbuf, hid⟩ := malloc_lists hbuf
      have hnull := nullUses_malloc hbuf
      cases hstatic : prm.flags.static with
      | true =>
          refine ⟨_, congrArg (· ++ _) hmblk, hid, by simp, hcon, hsbuf, htbuf, fun _ => hnull⟩
      | false =>
          refine ⟨_, congrArg (· ++ _) hmblk, hid, by simp, hcon, hsbuf, htbuf, fun hsome => ?_⟩
          cases buf with
          | none => cases hsome
          | some buf => exact (nullUses_touch_some buf).trans hnull

/-- What is left when the buffers of a block have been released. -/
theorem releaseMblkBuffers_buffers (root : PoolRoot H) (k : ℕ) :
    (∀ b, b ∈ (root.releaseMblkBuffers sizes k).sbuf → b ∈ root.sbuf ∧ b.mblk ≠ k) ∧
    (∀ b, b ∈ (root.releaseMblkBuffers sizes k).tbuf → b ∈ root.tbuf ∧ b.mblk ≠ k) ∧
    nullUses (root.releaseMblkBuffers sizes k).calls = nullUses root.calls := by
  set sources := root.sbuf.filter fun sbuf => decide (sbuf.mblk = k) with hsources
  set released := root.releaseSourceBuffers sizes sources with hreleased
  obtain ⟨hsbuf, htbuf⟩ := root.releaseSourceBuffers_buffers sizes sources
  obtain ⟨htbuf2, hsbuf2⟩ := released.releaseTargetBuffers_buffers sizes
    (released.tbuf.filter fun tbuf => decide (tbuf.mblk = k))
  have hafter : root.releaseMblkBuffers sizes k = released.releaseTargetBuffers sizes
      (released.tbuf.filter fun tbuf => decide (tbuf.mblk = k)) := rfl
  rw [hafter]
  refine ⟨fun b hb => ?_, fun b hb => ?_, by simp [hreleased]⟩
  · rw [hsbuf2] at hb
    obtain ⟨hroot, hother⟩ := (hsbuf b).mp hb
    refine ⟨hroot, fun hk => hother b ?_ rfl⟩
    rw [hsources]
    simp [hroot, hk]
  · obtain ⟨hmid, hother⟩ := (htbuf2 b).mp hb
    refine ⟨htbuf ▸ hmid, fun hk => hother b ?_ rfl⟩
    simp [hmid, hk]

theorem releaseMblkBuffers_of_not_linked {k : ℕ} (h : root.isLinked k = false) :
    root.releaseMblkBuffers sizes k = root := by
  have hboth := h
  simp only [isLinked, Bool.or_eq_false_iff, List.any_eq_false, decide_eq_true_eq] at hboth
  have hsources : root.sbuf.filter (fun sbuf => decide (sbuf.mblk = k)) = [] :=
    List.filter_eq_nil_iff.mpr fun b hb => by simpa using hboth.1 b hb
  have htargets : root.tbuf.filter (fun tbuf => decide (tbuf.mblk = k)) = [] :=
    List.filter_eq_nil_iff.mpr fun b hb => by simpa using hboth.2 b hb
  simp [releaseMblkBuffers, hsources, htargets, releaseSourceBuffers, releaseTargetBuffers]

/-! ## New source and target buffers -/

theorem initializeSourceBuffer_cases (root : PoolRoot H) (con : ℕ) (mblk : PoolMblk)
    (bidirectional : Bool) :
    root.Unchanged (root.initializeSourceBuffer sizes con mblk bidirectional).2 ∨
    ∃ sbuf : PoolBuffer, sbuf.con = con ∧ sbuf.mblk = mblk.id ∧
      (sbuf.buf.isSome ∨ mblk.flags.static = true) ∧
      (root.initializeSourceBuffer sizes con mblk bidirectional).2.sbuf = root.sbuf ++ [sbuf] ∧
      (root.initializeSourceBuffer sizes con mblk bidirectional).2.con = root.con ∧
      (root.initializeSourceBuffer sizes con mblk bidirectional).2.mblk = root.mblk ∧
      (root.initializeSourceBuffer sizes con mblk bidirectional).2.tbuf = root.tbuf ∧
      nullUses (root.initializeSourceBuffer sizes con mblk bidirectional).2.calls =
        nullUses root.calls := by
  unfold initializeSourceBuffer
  rcases hobject : root.malloc sizes.sourceBuffer with ⟨_ | object, root1⟩
  · obtain ⟨hcon, hmblk, hsbuf, htbuf, -⟩ := malloc_lists hobject
    exact .inl ⟨hcon, hmblk, hsbuf, htbuf, live_malloc_none hobject, nullUses_malloc hobject⟩
  obtain ⟨hcon, hmblk, hsbuf, htbuf, -⟩ := malloc_lists hobject
  have hnull := nullUses_malloc hobject
  cases hstatic : mblk.flags.static with
  | true =>
      refine .inr ⟨⟨root1.nextId, con, mblk.id, object, none, mblk.nbytes, false⟩, rfl, rfl,
        .inr rfl, ?_, hcon, hmblk, htbuf, ?_⟩
      · simp [joinSbuf, touch, hsbuf]
      · simpa [joinSbuf] using hnull
  | false =>
      simp only [Bool.false_eq_true, if_false]
      rcases hbuf : (root1.touch (some object)).malloc
        (2 * mblk.syncNbytes bidirectional) with ⟨_ | buf, root2⟩
      · obtain ⟨hcon2, hmblk2, hsbuf2, htbuf2, -⟩ := malloc_lists hbuf
        refine .inl ⟨by simpa using hcon2.trans hcon, by simpa using hmblk2.trans hmblk,
          by simpa using hsbuf2.trans hsbuf, by simpa using htbuf2.trans htbuf, ?_, ?_⟩
        · have hlive := live_malloc_none hbuf
          change _ = live Prod.fst root1.calls at hlive
          rw [live_free, hlive, live_malloc_some hobject, ownBlock, Multiset.sub_singleton,
            Multiset.erase_cons_head]
        · simpa using (nullUses_malloc hbuf).trans (by simpa using hnull)
      · obtain ⟨hcon2, hmblk2, hsbuf2, htbuf2, -⟩ := malloc_lists hbuf
        refine .inr ⟨⟨root2.nextId, con, mblk.id, object, some buf, mblk.syncNbytes bidirectional,
          bidirectional⟩, rfl, rfl, .inl rfl, ?_, hcon2.trans hcon, hmblk2.trans hmblk,
          htbuf2.trans htbuf, ?_⟩
        · simpa [joinSbuf, touch] using hsbuf2.trans hsbuf
        · simpa [joinSbuf] using (nullUses_malloc hbuf).trans (by simpa using hnull)

theorem initializeTargetBuffer_failed {root : PoolRoot H} (con : ℕ) {mblk : PoolMblk}
    {bidirectional : Bool} (h : root.targetMemory sizes mblk bidirectional = false) :
    root.Unchanged (root.initializeTargetBuffer sizes con mblk bidirectional).2 := by
  unfold targetMemory at h
  unfold initializeTargetBuffer
  rcases hobject : root.malloc sizes.targetBuffer with ⟨_ | object, root1⟩
  · obtain ⟨hcon, hmblk, hsbuf, htbuf, -⟩ := malloc_lists hobject
    exact ⟨hcon, hmblk, hsbuf, htbuf, live_malloc_none hobject, nullUses_malloc hobject⟩
  obtain ⟨hcon, hmblk, hsbuf, htbuf, -⟩ := malloc_lists hobject
  have hnull := nullUses_malloc hobject
  dsimp only
  rcases hbuf : (root1.touch (some object)).malloc
    (2 * mblk.syncNbytes bidirectional) with ⟨_ | buf, root2⟩
  · obtain ⟨hcon2, hmblk2, hsbuf2, htbuf2, -⟩ := malloc_lists hbuf
    refine ⟨by simpa using hcon2.trans hcon, by simpa using hmblk2.trans hmblk,
      by simpa using hsbuf2.trans hsbuf, by simpa using htbuf2.trans htbuf, ?_, ?_⟩
    · have hlive := live_malloc_none hbuf
      change _ = live Prod.fst root1.calls at hlive
      rw [live_free, hlive, live_malloc_some hobject, ownBlock, Multiset.sub_singleton,
        Multiset.erase_cons_head]
    · simpa using (nullUses_malloc hbuf).trans (by simpa using hnull)
  · simp [hobject, hbuf] at h

theorem initializeTargetBuffer_linked {root : PoolRoot H} (con : ℕ) {mblk : PoolMblk}
    {bidirectional : Bool} (h : root.targetMemory sizes mblk bidirectional = true) :
    ∃ tbuf : PoolBuffer, tbuf.con = con ∧ tbuf.mblk = mblk.id ∧ tbuf.buf.isSome = true ∧
      (root.initializeTargetBuffer sizes con mblk bidirectional).2.tbuf = root.tbuf ++ [tbuf] ∧
      (root.initializeTargetBuffer sizes con mblk bidirectional).2.con = root.con ∧
      (root.initializeTargetBuffer sizes con mblk bidirectional).2.mblk = root.mblk ∧
      (root.initializeTargetBuffer sizes con mblk bidirectional).2.sbuf = root.sbuf ∧
      nullUses (root.initializeTargetBuffer sizes con mblk bidirectional).2.calls =
        nullUses root.calls + if mblk.buf.isSome then 0 else 1 := by
  unfold targetMemory at h
  unfold initializeTargetBuffer
  rcases hobject : root.malloc sizes.targetBuffer with ⟨_ | object, root1⟩
  · simp [hobject] at h
  obtain ⟨hcon, hmblk, hsbuf, htbuf, -⟩ := malloc_lists hobject
  have hnull := nullUses_malloc hobject
  dsimp only
  rcases hbuf : (root1.touch (some object)).malloc
    (2 * mblk.syncNbytes bidirectional) with ⟨_ | buf, root2⟩
  · simp [hobject, hbuf] at h
  obtain ⟨hcon2, hmblk2, hsbuf2, htbuf2, -⟩ := malloc_lists hbuf
  have hnull2 : nullUses root2.calls = nullUses root.calls :=
    (nullUses_malloc hbuf).trans (by simpa using hnull)
  refine ⟨⟨root2.nextId, con, mblk.id, object, some buf, mblk.syncNbytes bidirectional,
    bidirectional⟩, rfl, rfl, rfl, ?_, hcon2.trans hcon, hmblk2.trans hmblk,
    hsbuf2.trans hsbuf, ?_⟩
  · simpa [joinTbuf, touch] using htbuf2.trans htbuf
  · cases hmblkBuf : mblk.buf with
    | none => simpa [joinTbuf] using hnull2
    | some mblkBuf => simpa [joinTbuf] using hnull2

end PoolRoot

/-! ## Connecting -/

namespace PoolRoot

/-- Only the connection `k` may have changed, and what is allocated. -/
structure OnlyCon (k : ℕ) (before after : PoolRoot H) : Prop where
  mblk : after.mblk = before.mblk
  sbuf : after.sbuf = before.sbuf
  tbuf : after.tbuf = before.tbuf
  ids : after.con.map PoolConnection.id = before.con.map PoolConnection.id
  others : ∀ i, i ≠ k → after.findCon i = before.findCon i
  noNull : nullUses after.calls = nullUses before.calls

namespace OnlyCon

variable {k : ℕ} {root root' root'' : PoolRoot H} {n : ℤ}

omit [IocHeap H] in
theorem refl : OnlyCon k root root := ⟨rfl, rfl, rfl, rfl, fun _ _ => rfl, rfl⟩

omit [IocHeap H] in
theorem trans (h : OnlyCon k root root') (h' : OnlyCon k root' root'') : OnlyCon k root root'' :=
  ⟨h'.mblk.trans h.mblk, h'.sbuf.trans h.sbuf, h'.tbuf.trans h.tbuf, h'.ids.trans h.ids,
    fun i hi => (h'.others i hi).trans (h.others i hi), h'.noNull.trans h.noNull⟩

omit [IocHeap H] in
theorem modifyCon {f : PoolConnection → PoolConnection} (hid : ∀ con, (f con).id = con.id) :
    OnlyCon k root (root.modifyCon k f) :=
  ⟨rfl, rfl, rfl, Registry.map_key_modify hid,
    fun _ hi => Registry.lookup_modify_ne hid hi, rfl⟩

theorem malloc {r : Option ℤ} (hm : root.malloc n = (r, root')) : OnlyCon k root root' := by
  obtain ⟨hcon, hmblk, hsbuf, htbuf, -⟩ := malloc_lists hm
  exact ⟨hmblk, hsbuf, htbuf, congrArg _ hcon, fun i _ => congrArg _ hcon, nullUses_malloc hm⟩

omit [IocHeap H] in
theorem touch {buf : Option ℤ} (h : buf.isSome = true) : OnlyCon k root (root.touch buf) := by
  obtain ⟨buf, rfl⟩ := Option.isSome_iff_exists.mp h
  exact ⟨rfl, rfl, rfl, rfl, fun _ _ => rfl, nullUses_touch_some buf⟩

theorem freeFrame (frame : FrameBuffer) (frameSz : ℤ) :
    OnlyCon k root (root.freeFrame frame frameSz) := by
  unfold PoolRoot.freeFrame
  split_ifs
  · exact ⟨by simp, by simp, by simp, by simp, fun i _ => by simp [findCon], by simp⟩
  · exact refl

theorem freeConnectionBufs : OnlyCon k root (root.freeConnectionBufs k) := by
  unfold PoolRoot.freeConnectionBufs
  split
  · exact refl
  · exact ((freeFrame _ _).trans (freeFrame _ _)).trans (modifyCon fun _ => rfl)

theorem takeFrame {static : Option ℤ} {frame : Option FrameBuffer}
    (ht : root.takeFrame static n = (frame, root')) : OnlyCon k root root' := by
  unfold PoolRoot.takeFrame at ht
  split at ht
  · obtain ⟨-, rfl⟩ := Prod.mk.inj ht
    exact refl
  · split at ht <;> obtain ⟨-, rfl⟩ := Prod.mk.inj ht
    · next hm => exact malloc hm
    · next hm => exact malloc hm

end OnlyCon

variable {k : ℕ} {root root' : PoolRoot H} {n : ℤ} {con : PoolConnection}

theorem live_freeFrame (frame : FrameBuffer) (frameSz : ℤ) :
    live Prod.fst (root.freeFrame frame frameSz).calls =
      live Prod.fst root.calls - frame.own Prod.fst frameSz := by
  unfold freeFrame FrameBuffer.own
  split_ifs
  · exact live_free _ _
  · simp

theorem live_freeConnectionBufs (hfind : root.findCon k = some con) :
    live Prod.fst (root.freeConnectionBufs k).calls = live Prod.fst root.calls -
      (con.frameOut.own Prod.fst con.frameSz + con.frameIn.own Prod.fst con.frameSz) := by
  unfold freeConnectionBufs
  rw [hfind]
  rw [Multiset.sub_add_eq_sub_sub, ← live_freeFrame, ← live_freeFrame]
  rfl

theorem takeFrame_spec {static : Option ℤ} {frame : Option FrameBuffer}
    (ht : root.takeFrame static n = (frame, root')) :
    (frame = none ∧ live Prod.fst root'.calls = live Prod.fst root.calls) ∨
    ∃ taken : FrameBuffer, frame = some taken ∧ taken.buf.isSome = true ∧
      live Prod.fst root'.calls = taken.own Prod.fst n + live Prod.fst root.calls := by
  unfold takeFrame at ht
  split at ht
  · obtain ⟨rfl, rfl⟩ := Prod.mk.inj ht
    exact .inr ⟨_, rfl, rfl, by simp [FrameBuffer.own]⟩
  · split at ht <;> obtain ⟨rfl, rfl⟩ := Prod.mk.inj ht
    · next hm => exact .inl ⟨rfl, live_malloc_none hm⟩
    · next hm => exact .inr ⟨_, rfl, rfl, live_malloc_some hm⟩

theorem allocated_clearFrame (frame : FrameBuffer) : (clearFrame frame).allocated = false := by
  unfold clearFrame
  split_ifs <;> simp_all

/-- What `ioc_connect` does: with both frame buffers it succeeds, else the connection is
left without any of its own. -/
theorem connect_spec (sizes : PoolSizes) (prm : ConnectParams)
    (hfind : root.findCon k = some con) :
    OnlyCon k root (root.connect sizes k prm).2 ∧
    ∃ con', (root.connect sizes k prm).2.findCon k = some con' ∧
      (((root.connect sizes k prm).1 = .success ∧ con'.frameOut.buf.isSome = true ∧
          con'.frameIn.buf.isSome = true ∧
          con'.stream = if prm.newsocket.isSome then prm.newsocket else con.stream) ∨
        ((root.connect sizes k prm).1 = .memoryAllocationFailed ∧
          con'.frameOut.allocated = false ∧ con'.frameIn.allocated = false ∧
          con'.stream = con.stream ∧
          live Prod.fst (root.connect sizes k prm).2.calls = live Prod.fst root.calls -
            (con.frameOut.own Prod.fst con.frameSz + con.frameIn.own Prod.fst con.frameSz))) := by
  unfold connect
  dsimp only
  set frameSz := sizes.frameSz prm.socket with hframeSz
  set started := fun con : PoolConnection =>
    { con with frameSz := frameSz, connectUp := prm.connectUp, listener := false } with hstarted
  have h1 : OnlyCon k root (root.modifyCon k started) := .modifyCon fun _ => rfl
  have hfind1 := findCon_modifyCon (f := started) (fun _ => rfl) hfind
  have h2 := h1.trans .freeConnectionBufs
  have hfind2 := findCon_freeConnectionBufs hfind1
  have hlive2 := live_freeConnectionBufs hfind1
  rw [FrameBuffer.own_fst _ _ con.frameSz, FrameBuffer.own_fst _ _ con.frameSz] at hlive2
  rcases hframeOut : ((root.modifyCon k started).freeConnectionBufs k).takeFrame prm.frameOutBuf
    frameSz with ⟨_ | frameOut, root3⟩
  · have hfind3 : root3.findCon k = _ :=
      (congrArg (Registry.lookup PoolConnection.id k) (con_takeFrame hframeOut)).trans hfind2
    rcases takeFrame_spec hframeOut with ⟨-, hlive3⟩ | ⟨_, hnot, -⟩
    · exact ⟨h2.trans (.takeFrame hframeOut), _, hfind3, .inr ⟨rfl, allocated_clearFrame _,
        allocated_clearFrame _, rfl, hlive3.trans hlive2⟩⟩
    · cases hnot
  rcases takeFrame_spec hframeOut with ⟨hnot, -⟩ | ⟨_, hsame, hout, hlive3⟩
  · cases hnot
  cases hsame
  have hfind3 : (root3.touch frameOut.buf).findCon k = _ :=
    (congrArg (Registry.lookup PoolConnection.id k) (con_takeFrame hframeOut)).trans hfind2
  dsimp only
  set withOut := fun con : PoolConnection => { con with frameOut := frameOut } with hwithOut
  have h4 : OnlyCon k root ((root3.touch frameOut.buf).modifyCon k withOut) :=
    (h2.trans (.takeFrame hframeOut)).trans ((OnlyCon.touch hout).trans (.modifyCon fun _ => rfl))
  have hfind4 := findCon_modifyCon (f := withOut) (fun _ => rfl) hfind3
  rcases hframeIn : ((root3.touch frameOut.buf).modifyCon k withOut).takeFrame prm.frameInBuf
    frameSz with ⟨_ | frameIn, root5⟩
  · have hfind5 : root5.findCon k = _ :=
      (congrArg (Registry.lookup PoolConnection.id k) (con_takeFrame hframeIn)).trans hfind4
    rcases takeFrame_spec hframeIn with ⟨-, hlive5⟩ | ⟨_, hnot, -⟩
    · refine ⟨(h4.trans (.takeFrame hframeIn)).trans .freeConnectionBufs, _,
        findCon_freeConnectionBufs hfind5, .inr ⟨rfl, allocated_clearFrame _,
          allocated_clearFrame _, rfl, ?_⟩⟩
      -- the outgoing buffer, when it was allocated, is freed again
      have hcalls : live Prod.fst ((root3.touch frameOut.buf).modifyCon k withOut).calls =
        live Prod.fst root3.calls := rfl
      rw [live_freeConnectionBufs hfind5, hlive5, hcalls, hlive3]
      simp only [hwithOut, hstarted, own_clearFrame, add_zero]
      rw [add_tsub_cancel_left]
      exact hlive2
    · cases hnot
  rcases takeFrame_spec hframeIn with ⟨hnot, -⟩ | ⟨_, hsame, hin, -⟩
  · cases hnot
  cases hsame
  have hfind5 : (root5.touch frameIn.buf).findCon k = _ :=
    (congrArg (Registry.lookup PoolConnection.id k) (con_takeFrame hframeIn)).trans hfind4
  exact ⟨(h4.trans (.takeFrame hframeIn)).trans
    ((OnlyCon.touch hin).trans (.modifyCon fun _ => rfl)), _,
    findCon_modifyCon (fun _ => rfl) hfind5, .inl ⟨rfl, hout, hin, rfl⟩⟩

end PoolRoot

/-! ## Each operation -/

namespace AllocatingOp

variable {root : PoolRoot H}

theorem survives_of_unchanged {a : AllocatingOp} (h : root.Unchanged (root.apply sizes a.op))
    (hreleased : a.released root = 0) : a.Survives sizes root where
  noNull := h.noNull
  built :=
    { mblk := fun m hm => .inl (h.mblk ▸ hm)
      sbuf := fun b hb => .inl (h.sbuf ▸ hb)
      tbuf := fun b hb => .inl (h.tbuf ▸ hb)
      con := fun c hc => .inl (h.con ▸ hc) }
  failed _ := ⟨h.mblk, h.sbuf, h.tbuf, by rw [hreleased, h.live, tsub_zero]⟩
  others k _ := congrArg (Registry.lookup PoolConnection.id k) h.con

theorem survives_of_eq {a : AllocatingOp} (h : root.apply sizes a.op = root)
    (hreleased : a.released root = 0) : a.Survives sizes root := by
  refine survives_of_unchanged ?_ hreleased
  rw [h]
  exact ⟨rfl, rfl, rfl, rfl, rfl, rfl⟩

theorem mbinfoNewSbuf_survives (con k : ℕ) (bdflags : Bool) :
    (mbinfoNewSbuf con k bdflags).Survives sizes root := by
  cases hcon : root.findCon con with
  | none => exact survives_of_eq (by simp [op, PoolRoot.apply, PoolRoot.linking, hcon]) rfl
  | some c =>
  cases hmblk : root.findMblk k with
  | none => exact survives_of_eq (by simp [op, PoolRoot.apply, PoolRoot.linking, hcon, hmblk]) rfl
  | some mblk =>
  cases hlinks : PoolRoot.links root.sbuf con mblk with
  | true =>
      exact survives_of_eq (by simp [op, PoolRoot.apply, PoolRoot.linking, hcon, hmblk,
        PoolRoot.mbinfoNewSbuf, hlinks]) rfl
  | false =>
  have happly : root.apply sizes (op (mbinfoNewSbuf con k bdflags)) =
      (root.initializeSourceBuffer sizes con mblk bdflags).2 := by
    simp [op, PoolRoot.apply, PoolRoot.linking, hcon, hmblk, PoolRoot.mbinfoNewSbuf, hlinks]
  rcases root.initializeSourceBuffer_cases sizes con mblk bdflags with hsame |
    ⟨sbuf, hsbufCon, hsbufMblk, hbuf, hsbufs, hcons, hmblks, htbufs, hnull⟩
  · exact survives_of_unchanged (by rw [happly]; exact hsame) rfl
  refine ⟨by rw [happly]; exact hnull, ?_, fun hfailed => ?_, fun i _ => ?_⟩
  · rw [happly]
    refine ⟨fun m hm => .inl (hmblks ▸ hm), fun b hb => ?_, fun b hb => .inl (htbufs ▸ hb),
      fun c hc => .inl (hcons ▸ hc)⟩
    rw [hsbufs] at hb
    rcases List.mem_append.mp hb with hb | hb
    · exact .inl hb
    · rw [List.mem_singleton.mp hb]
      rcases hbuf with hbuf | hstatic
      · exact .inr (.inl hbuf)
      · exact .inr (.inr ⟨mblk, Registry.lookup_mem hmblk, hsbufMblk.symm, hstatic⟩)
  · refine absurd (fun m hm => ?_) hfailed
    rw [hmblk] at hm
    cases hm
    change PoolRoot.links (root.apply sizes (op (mbinfoNewSbuf con k bdflags))).sbuf con mblk = true
    rw [happly, hsbufs]
    simp [PoolRoot.links, hsbufCon, hsbufMblk]
  · rw [happly]
    exact congrArg (Registry.lookup PoolConnection.id i) hcons

/-- Linking a target buffer survives if nothing was dropped for a link which fails. -/
theorem mbinfoNewTbuf_survives_iff (con k : ℕ) (bdflags : Bool) :
    (mbinfoNewTbuf con k bdflags).Survives sizes root ↔
      (mbinfoNewTbuf con k bdflags).Supplied sizes root := by
  cases hcon : root.findCon con with
  | none =>
      exact iff_of_true (survives_of_eq (by simp [op, PoolRoot.apply, PoolRoot.linking, hcon]) rfl)
        (fun c mblk hc => by rw [hcon] at hc; cases hc)
  | some c =>
  cases hmblk : root.findMblk k with
  | none =>
      exact iff_of_true
        (survives_of_eq (by simp [op, PoolRoot.apply, PoolRoot.linking, hcon, hmblk]) rfl)
        (fun c mblk _ hm => by rw [hmblk] at hm; cases hm)
  | some mblk =>
  have hsupplied : (mbinfoNewTbuf con k bdflags).Supplied sizes root ↔
      (PoolRoot.links root.tbuf con mblk = false →
        if (root.dropTbufs sizes mblk bdflags).targetMemory sizes mblk bdflags then
          mblk.buf.isSome = true
        else root.droppedTbufs mblk bdflags = []) := by
    refine ⟨fun h => h c mblk hcon hmblk, fun h d m _ hm => ?_⟩
    rw [hmblk] at hm
    cases hm
    exact h
  rw [hsupplied]
  cases hlinks : PoolRoot.links root.tbuf con mblk with
  | true =>
      exact iff_of_true (survives_of_eq (by simp [op, PoolRoot.apply, PoolRoot.linking, hcon,
        hmblk, PoolRoot.mbinfoNewTbuf, hlinks]) rfl) (fun hnot => by cases hnot)
  | false =>
  set dropped := root.dropTbufs sizes mblk bdflags with hdropped
  have happly : root.apply sizes (op (mbinfoNewTbuf con k bdflags)) =
      (dropped.initializeTargetBuffer sizes con mblk bdflags).2 := by
    simp [op, PoolRoot.apply, PoolRoot.linking, hcon, hmblk, PoolRoot.mbinfoNewTbuf, hlinks,
      hdropped]
  have hlists := root.releaseTargetBuffers_lists sizes
    (root.droppedTbufs mblk bdflags)
  obtain ⟨hleft, hsbufs⟩ := root.releaseTargetBuffers_buffers sizes
    (root.droppedTbufs mblk bdflags)
  have hnull : nullUses dropped.calls = nullUses root.calls :=
    PoolRoot.nullUses_releaseTargetBuffers sizes _
  cases hmemory : dropped.targetMemory sizes mblk bdflags with
  | false =>
      have hsame := PoolRoot.initializeTargetBuffer_failed sizes con hmemory
      rw [← happly] at hsame
      simp only [forall_const, Bool.false_eq_true, if_false]
      cases hnone : root.droppedTbufs mblk bdflags with
      | nil =>
          have hroot : dropped = root := by
            rw [hdropped, PoolRoot.dropTbufs, hnone]
            rfl
          rw [hroot] at hsame
          exact iff_of_true (survives_of_unchanged hsame rfl) rfl
      | cons b rest =>
          refine iff_of_false (fun hsurvives => ?_) (List.cons_ne_nil _ _)
          have hfailed : ¬Succeeds sizes root (mbinfoNewTbuf con k bdflags) := by
            intro hsucceeds
            have hlinked := hsucceeds mblk hmblk
            change PoolRoot.links (root.apply sizes (op (mbinfoNewTbuf con k bdflags))).tbuf con
              mblk = true at hlinked
            rw [hsame.tbuf] at hlinked
            obtain ⟨d, hd, hdlinks⟩ := List.any_eq_true.mp hlinked
            have hmore : PoolRoot.links root.tbuf con mblk = true :=
              List.any_eq_true.mpr ⟨d, ((hleft d).mp hd).1, hdlinks⟩
            rw [hlinks] at hmore
            cases hmore
          have hkept := (hsurvives.failed hfailed).tbuf
          rw [hsame.tbuf] at hkept
          have hb : b ∈ root.droppedTbufs mblk bdflags := hnone ▸ List.mem_cons_self
          have hbroot : b ∈ root.tbuf := by
            unfold PoolRoot.droppedTbufs at hb
            split_ifs at hb
            · cases hb
            · exact List.mem_of_mem_filter hb
          rw [← hkept] at hbroot
          exact ((hleft b).mp hbroot).2 b hb rfl
  | true =>
      obtain ⟨tbuf, htbufCon, htbufMblk, hbuf, htbufs, hcons, hmblks, hsbufs', hnull'⟩ :=
        PoolRoot.initializeTargetBuffer_linked sizes con hmemory
      simp only [forall_const, if_true]
      refine ⟨fun hsurvives => ?_, fun hmblkBuf => ⟨?_, ?_, fun hfailed => ?_, fun i _ => ?_⟩⟩
      · have hsame := hsurvives.noNull
        rw [happly, hnull', hnull] at hsame
        by_contra hnot
        simp [hnot] at hsame
      · rw [happly, hnull', hnull, if_pos hmblkBuf, add_zero]
      · rw [happly]
        refine ⟨fun m hm => .inl ?_, fun b hb => .inl ?_, fun b hb => ?_, fun c hc => .inl ?_⟩
        · rw [hmblks] at hm
          exact hlists.2 ▸ hm
        · rw [hsbufs'] at hb
          exact hsbufs ▸ hb
        · rw [htbufs] at hb
          rcases List.mem_append.mp hb with hb | hb
          · exact .inl ((hleft b).mp hb).1
          · exact .inr (List.mem_singleton.mp hb ▸ hbuf)
        · rw [hcons] at hc
          exact hlists.1 ▸ hc
      · refine absurd (fun m hm => ?_) hfailed
        rw [hmblk] at hm
        cases hm
        change PoolRoot.links (root.apply sizes (op (mbinfoNewTbuf con k bdflags))).tbuf con mblk =
          true
        rw [happly, htbufs]
        simp [PoolRoot.links, htbufCon, htbufMblk]
      · rw [happly]
        exact congrArg (Registry.lookup PoolConnection.id i) (hcons.trans hlists.1)

/-- A memory block is initialized consistently if its buffer is there. -/
theorem initializeMemoryBlock_survives_iff (static : Bool) (prm : PoolMblkParams)
    (hids : Registry.KeysBelow (root.mblk.map PoolMblk.id) root.nextId) :
    (initializeMemoryBlock static prm).Survives sizes root ↔
      (initializeMemoryBlock static prm).Supplied sizes root := by
  have happly : root.apply sizes (op (initializeMemoryBlock static prm)) =
      (root.initializeMemoryBlock sizes static prm).2 := rfl
  rcases hobject : root.takeObject static sizes.memoryBlock with ⟨_ | object, root1⟩
  · obtain ⟨hcon, hmblk, hsbuf, htbuf, -, hnull, hlive⟩ := PoolRoot.takeObject_unchanged hobject
    have hsame : root.Unchanged (root.apply sizes (op (initializeMemoryBlock static prm))) := by
      rw [happly, PoolRoot.initializeMemoryBlock, hobject]
      exact ⟨hcon, hmblk, hsbuf, htbuf, hlive rfl, hnull⟩
    refine iff_of_true (survives_of_unchanged hsame rfl) fun _ hgot => ?_
    rw [hobject] at hgot
    cases hgot
  obtain ⟨hcon, hmblk, hsbuf, htbuf, hid, hnull, -⟩ := PoolRoot.takeObject_unchanged hobject
  have hafter : root.apply sizes (op (initializeMemoryBlock static prm)) =
      root1.setupMemoryBlock object prm := by
    rw [happly, PoolRoot.initializeMemoryBlock, hobject]
  have hsucceeds : (initializeMemoryBlock static prm).Succeeds sizes root := by
    simp [Succeeds, PoolRoot.initializeMemoryBlock, hobject]
  obtain ⟨mblk, hmblk1, hid1, hbuf, hcon1, hsbuf1, htbuf1, hnull1⟩ :=
    root1.setupMemoryBlock_spec object prm
  have hsupplied : (initializeMemoryBlock static prm).Supplied sizes root ↔
      mblk.buf.isSome = true := by
    rw [hbuf]
    simp [Supplied, PoolRoot.mblkMemory, hobject]
  rw [hsupplied]
  refine ⟨fun hsurvives => ?_, fun hbuf => ⟨?_, ?_, fun hnot => absurd hsucceeds hnot,
    fun k _ => ?_⟩⟩
  · have hmem : mblk ∈ (root.apply sizes (op (initializeMemoryBlock static prm))).mblk := by
      rw [hafter, hmblk1]
      exact List.mem_append_right _ List.mem_cons_self
    rcases hsurvives.built.mblk mblk hmem with hold | hbuf
    · have hlt := hids.lt mblk.id (List.mem_map_of_mem hold)
      rw [hid1, hid] at hlt
      exact absurd hlt (Nat.lt_irrefl _)
    · exact hbuf
  · rw [hafter, hnull1 hbuf, hnull]
  · rw [hafter]
    refine ⟨fun m hm => ?_, fun b hb => .inl ?_, fun b hb => .inl ?_, fun c hc => .inl ?_⟩
    · rw [hmblk1, hmblk] at hm
      rcases List.mem_append.mp hm with hm | hm
      · exact .inl hm
      · exact .inr (List.mem_singleton.mp hm ▸ hbuf)
    · rw [hsbuf1, hsbuf] at hb
      exact hb
    · rw [htbuf1, htbuf] at hb
      exact hb
    · rw [hcon1, hcon] at hc
      exact hc
  · rw [hafter]
    exact congrArg (Registry.lookup PoolConnection.id k) (hcon1.trans hcon)

/-- Resizing survives if no buffers were released for memory which is not there. -/
theorem resizeMblk_survives_iff (k : ℕ) (nbytes : ℤ) (disconnect : Bool)
    (hids : Registry.KeysBelow (root.mblk.map PoolMblk.id) root.nextId) :
    (resizeMblk k nbytes disconnect).Survives sizes root ↔
      (resizeMblk k nbytes disconnect).Supplied sizes root := by
  cases hmblk : root.findMblk k with
  | none =>
      exact iff_of_true (survives_of_eq (by simp [op, PoolRoot.apply, hmblk]) rfl)
        (fun mblk hm => by rw [hmblk] at hm; cases hm)
  | some mblk =>
  have hk : mblk.id = k := Registry.lookup_key hmblk
  have hafter : root.apply sizes (op (resizeMblk k nbytes disconnect)) =
      (root.resizeMblk sizes mblk nbytes disconnect).2 := by
    simp [op, PoolRoot.apply, hmblk]
  have hsupplied : (resizeMblk k nbytes disconnect).Supplied sizes root ↔
      (PoolRoot.grows mblk nbytes = true → disconnect = true → root.isLinked k = true →
        ((root.releaseMblkBuffers sizes k).malloc nbytes).1.isSome = true) := by
    refine ⟨fun h => h mblk hmblk, fun h m hm => ?_⟩
    rw [hmblk] at hm
    cases hm
    exact h
  rw [hsupplied]
  cases hgrows : PoolRoot.grows mblk nbytes with
  | false =>
      have hsame : (root.resizeMblk sizes mblk nbytes disconnect).2 = root := by
        unfold PoolRoot.resizeMblk
        split_ifs with hfits hallow hstatic hdisconnect
        · rfl
        · rfl
        · rfl
        all_goals
          exfalso
          have hgrowing : PoolRoot.grows mblk nbytes = true := by
            simp only [PoolRoot.grows, Bool.and_eq_true, decide_eq_true_eq]
            exact ⟨⟨by omega, by simpa using hallow⟩, by
              cases hallocated : mblk.bufAllocated <;> simp_all⟩
          rw [hgrows] at hgrowing
          cases hgrowing
      exact iff_of_true (survives_of_eq (hafter.trans hsame) rfl) (fun hnot => by cases hnot)
  | true =>
  set released := if disconnect then root.releaseMblkBuffers sizes mblk.id else root
    with hreleased
  have hresize : root.resizeMblk sizes mblk nbytes disconnect =
      match released.malloc nbytes with
      | (none, root) => (.memoryAllocationFailed, root)
      | (some newbuf, root) =>
          (.completed, ((root.touch (some newbuf)).free mblk.buf mblk.nbytes).modifyMblk mblk.id
            fun mblk => PoolRoot.growMblk mblk newbuf nbytes) := by
    simp only [PoolRoot.grows, Bool.and_eq_true, decide_eq_true_eq] at hgrows
    have hstatic : (!mblk.bufAllocated && mblk.buf.isSome) = false := by
      cases hallocated : mblk.bufAllocated <;> simp_all
    unfold PoolRoot.resizeMblk
    refine (if_neg (by omega)).trans ((if_neg (by simp [hgrows.1.2])).trans ?_)
    exact if_neg (by simp [hstatic])
  have hlists : released.con = root.con ∧ released.mblk = root.mblk := by
    rw [hreleased]
    split_ifs
    · exact root.releaseMblkBuffers_lists sizes _
    · exact ⟨rfl, rfl⟩
  have hbuffers : (∀ b ∈ released.sbuf, b ∈ root.sbuf) ∧ (∀ b ∈ released.tbuf, b ∈ root.tbuf) ∧
      nullUses released.calls = nullUses root.calls := by
    rw [hreleased]
    split_ifs
    · obtain ⟨hsbuf, htbuf, hnull⟩ :=
        root.releaseMblkBuffers_buffers sizes mblk.id
      exact ⟨fun b hb => (hsbuf b hb).1, fun b hb => (htbuf b hb).1, hnull⟩
    · exact ⟨fun _ hb => hb, fun _ hb => hb, rfl⟩
  rcases hbuf : released.malloc nbytes with ⟨_ | newbuf, root1⟩
  · -- no memory: nothing may have been released
    obtain ⟨hcon1, hmblk1, hsbuf1, htbuf1, -⟩ := PoolRoot.malloc_lists hbuf
    rw [hresize, hbuf] at hafter
    dsimp only at hafter
    by_cases hfreed : disconnect = true ∧ root.isLinked k = true
    · have hreleasedBy : released = root.releaseMblkBuffers sizes k := by
        rw [hreleased, if_pos hfreed.1, hk]
      refine iff_of_false (fun hsurvives => ?_) (fun hall => ?_)
      · have hfailed : ¬Succeeds sizes root (resizeMblk k nbytes disconnect) := by
          intro hsucceeds
          have hstatus := hsucceeds mblk hmblk
          rw [hresize, hbuf] at hstatus
          simp at hstatus
        have hkept := hsurvives.failed hfailed
        obtain ⟨hsbuf, htbuf, -⟩ := root.releaseMblkBuffers_buffers sizes k
        have hlinked := hfreed.2
        simp only [PoolRoot.isLinked, Bool.or_eq_true, List.any_eq_true,
          decide_eq_true_eq] at hlinked
        rcases hlinked with ⟨b, hb, hbk⟩ | ⟨b, hb, hbk⟩
        · rw [← hkept.sbuf, hafter, hsbuf1, hreleasedBy] at hb
          exact (hsbuf b hb).2 hbk
        · rw [← hkept.tbuf, hafter, htbuf1, hreleasedBy] at hb
          exact (htbuf b hb).2 hbk
      · have hmemory := hall rfl hfreed.1 hfreed.2
        rw [← hreleasedBy, hbuf] at hmemory
        cases hmemory
    · have hroot : released = root := by
        rw [hreleased]
        split_ifs with hdisconnect
        · rw [hk]
          exact PoolRoot.releaseMblkBuffers_of_not_linked sizes (by simp_all)
        · rfl
      rw [hroot] at hbuf hcon1 hmblk1 hsbuf1 htbuf1
      refine iff_of_true (survives_of_unchanged ?_ rfl)
        (fun _ hdisconnect hlinked => absurd ⟨hdisconnect, hlinked⟩ hfreed)
      rw [hafter]
      exact ⟨hcon1, hmblk1, hsbuf1, htbuf1, PoolRoot.live_malloc_none hbuf,
        PoolRoot.nullUses_malloc hbuf⟩
  · obtain ⟨hcon1, hmblk1, hsbuf1, htbuf1, -⟩ := PoolRoot.malloc_lists hbuf
    rw [hresize, hbuf] at hafter
    dsimp only at hafter
    have hmblks : (root1.touch (some newbuf)).mblk = root.mblk := hmblk1.trans hlists.2
    refine iff_of_true ⟨?_, ?_, fun hfailed => ?_, fun i _ => ?_⟩ fun _ hdisconnect _ => ?_
    · rw [hafter]
      simpa [PoolRoot.modifyMblk] using (PoolRoot.nullUses_malloc hbuf).trans hbuffers.2.2
    · rw [hafter]
      refine ⟨fun m hm => ?_, fun b hb => .inl ?_, fun b hb => .inl ?_, fun c hc => .inl ?_⟩
      · simp only [PoolRoot.modifyMblk, PoolRoot.mblk_free, hmblks, hk] at hm
        rcases Registry.mem_modify hids.nodup hmblk hm with hm | rfl
        · exact .inl hm
        · exact .inr rfl
      · simp only [PoolRoot.modifyMblk, PoolRoot.sbuf_free] at hb
        exact hbuffers.1 b (hsbuf1 ▸ hb)
      · simp only [PoolRoot.modifyMblk, PoolRoot.tbuf_free] at hb
        exact hbuffers.2.1 b (htbuf1 ▸ hb)
      · simp only [PoolRoot.modifyMblk, PoolRoot.con_free] at hc
        exact hlists.1 ▸ hcon1 ▸ hc
    · refine absurd (fun m hm => ?_) hfailed
      rw [hmblk] at hm
      cases hm
      rw [hresize, hbuf]
      exact .inr rfl
    · rw [hafter]
      refine congrArg (Registry.lookup PoolConnection.id i) ?_
      simpa [PoolRoot.modifyMblk, PoolRoot.touch] using hcon1.trans hlists.1
    · rw [show root.releaseMblkBuffers sizes k = released by rw [hreleased, if_pos hdisconnect, hk],
        hbuf]
      rfl

theorem connect_survives (k : ℕ) (prm : ConnectParams)
    (hids : Registry.KeysBelow (root.con.map PoolConnection.id) root.nextId) :
    (connect k prm).Survives sizes root := by
  cases hfind : root.findCon k with
  | none => exact survives_of_eq (by simp [op, PoolRoot.apply, hfind]) (by simp [released, hfind])
  | some con =>
  have hafter : root.apply sizes (op (connect k prm)) = (root.connect sizes k prm).2 := by
    simp [op, PoolRoot.apply, hfind]
  obtain ⟨honly, con', hfind', hend⟩ := PoolRoot.connect_spec sizes prm hfind
  refine ⟨?_, ?_, fun hfailed => ?_, fun i hi => ?_⟩
  · rw [hafter, honly.noNull]
  · rw [hafter]
    refine ⟨fun m hm => .inl (honly.mblk ▸ hm), fun b hb => .inl (honly.sbuf ▸ hb),
      fun b hb => .inl (honly.tbuf ▸ hb), fun c hc => ?_⟩
    have hnodup : ((root.connect sizes k prm).2.con.map PoolConnection.id).Nodup := by
      rw [honly.ids]
      exact hids.nodup
    have hlookup : (root.connect sizes k prm).2.findCon c.id = some c :=
      Registry.lookup_of_mem hnodup hc
    by_cases hck : c.id = k
    · rw [hck, hfind'] at hlookup
      cases hlookup
      rcases hend with ⟨-, hout, hin, -⟩ | ⟨-, hout, hin, -⟩
      · exact .inr ⟨fun _ => hout, fun _ => hin⟩
      · exact .inr ⟨fun h => absurd h (by simp [hout]), fun h => absurd h (by simp [hin])⟩
    · rw [honly.others _ hck] at hlookup
      exact .inl (Registry.lookup_mem hlookup)
  · rw [hafter]
    refine ⟨honly.mblk, honly.sbuf, honly.tbuf, ?_⟩
    rcases hend with ⟨hstatus, -⟩ | ⟨-, -, -, -, hlive⟩
    · exact absurd hstatus hfailed
    · rw [hlive]
      simp [released, hfind]
  · rw [hafter]
    exact honly.others i fun hik => hi prm (by rw [hik])

/-- An operation survives exactly when it is supplied, in a root as runs reach it. -/
theorem survives_iff {held : Multiset ℤ} (h : (addressTerms H sizes).Accounts root held)
    (a : AllocatingOp) : a.Survives sizes root ↔ a.Supplied sizes root := by
  cases a with
  | initializeMemoryBlock static prm => exact initializeMemoryBlock_survives_iff static prm h.mblk
  | resizeMblk k nbytes disconnect => exact resizeMblk_survives_iff k nbytes disconnect h.mblk
  | mbinfoNewSbuf con k bdflags => exact iff_of_true (mbinfoNewSbuf_survives con k bdflags) trivial
  | mbinfoNewTbuf con k bdflags => exact mbinfoNewTbuf_survives_iff con k bdflags
  | connect k prm => exact iff_of_true (connect_survives k prm h.con) trivial

end AllocatingOp

/-! ## Runs -/

theorem PoolRoot.EachStep.survives_iff {root : PoolRoot H}
    (h : (addressTerms H sizes).Accounts root 0) (ops : List PoolOp) :
    EachStep sizes (fun root op => ∀ a : AllocatingOp, a.op = op → a.Survives sizes root) root ops ↔
      EachStep sizes (fun root op => ∀ a : AllocatingOp, a.op = op → a.Supplied sizes root)
        root ops := by
  induction ops generalizing root with
  | nil => exact Iff.rfl
  | cons op ops ih =>
      have hstep : (∀ a : AllocatingOp, a.op = op → a.Survives sizes root) ↔
          ∀ a : AllocatingOp, a.op = op → a.Supplied sizes root :=
        forall_congr' fun a => imp_congr_right fun _ => a.survives_iff h
      exact and_congr hstep (ih (h.apply op (addressTerms_countable root op)))

/-- Whatever pattern the heap fails in, each
operation of a run leaves the root consistent exactly when memory does not run out where
it has gone too far to return; and whatever is allocated then has an owner. -/
theorem allocation_failures_survived (sizes : PoolSizes) (heap : H) (ops : List PoolOp) :
    (PoolRoot.EachStep sizes
        (fun root op => ∀ a : AllocatingOp, a.op = op → a.Survives sizes root)
        (PoolRoot.start heap) ops ↔
      PoolRoot.EachStep sizes
        (fun root op => ∀ a : AllocatingOp, a.op = op → a.Supplied sizes root)
        (PoolRoot.start heap) ops) ∧
    live Prod.fst ((PoolRoot.start heap).run sizes ops).calls =
      ((PoolRoot.start heap).run sizes ops).owned Prod.fst sizes := by
  refine ⟨PoolRoot.EachStep.survives_iff (.start heap trivial) ops, ?_⟩
  have hholds := (PoolRoot.run_accounts sizes heap ops).holds.live
  rwa [add_zero] at hholds

/-- A heap of which the next outcomes are given; from then on all is well. -/
structure ScriptedHeap where
  outcomes : List Bool
  next : ℤ

instance : IocHeap ScriptedHeap where
  malloc heap n :=
    if heap.outcomes.headD true then (some heap.next, ⟨heap.outcomes.tail, heap.next + n⟩)
    else (none, ⟨heap.outcomes.tail, heap.next⟩)
  free heap _ _ := heap

/-- A memory block of which the buffer cannot be allocated: it is cleared all the same. -/
theorem memory_block_without_buffer :
    ¬∀ (sizes : PoolSizes) (heap : ScriptedHeap) (ops : List PoolOp),
      PoolRoot.EachStep sizes
        (fun root op => ∀ a : AllocatingOp, a.op = op → a.Survives sizes root)
        (PoolRoot.start heap) ops := by
  intro hall
  let prm : PoolMblkParams := ⟨none, 100, ⟨true, false, false, false, false⟩, false⟩
  have hsurvives := (hall poolSizes64 ⟨[true, false], 1⟩ [.initializeMemoryBlock false prm]).1
    (.initializeMemoryBlock false prm) rfl
  have hmemory := (AllocatingOp.survives_iff (.start _ trivial) _).mp hsurvives rfl rfl
  revert hmemory
  decide

end Iocom
