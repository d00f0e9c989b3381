import Iocom.FrameCodec
import Iocom.Root

/-!
# Identifiers of memory blocks

A root hands out a new 32 bit identifier for each memory block.  The info frame
brings it to the other end, whose transfer buffers keep it in an `os_short`;
data frames and requests to remove the block carry it back.  The way through
these integer types keeps exactly the identifiers up to 32767.
-/

namespace Iocom

/-! ## Identifiers of one root -/

def Root.ids (root : Root) : List ℕ :=
  root.mblks.map fun block => block.mblk.mblkId

structure Root.DistinctIds (root : Root) : Prop where
  nodup : (root.ids.filter fun id => decide (minUniqueId ≤ id)).Nodup
  below : root.nextUniqueMblkId ≠ 0 → ∀ id ∈ root.ids, id < root.nextUniqueMblkId
  bound : root.nextUniqueMblkId < 0x100000000

theorem ids_modify
    {mblks : List LinkedBlock} {pos : ℕ} {f : LinkedBlock → LinkedBlock}
    (hf : ∀ block, (f block).mblk.mblkId = block.mblk.mblkId) :
    (mblks.modify pos f).map (fun block => block.mblk.mblkId) =
      mblks.map fun block => block.mblk.mblkId := by
  apply List.ext_getElem?
  intro i
  rw [List.getElem?_map, List.getElem?_map, List.getElem?_modify]
  cases hi : mblks[i]? with
  | none => rfl
  | some block =>
      by_cases hpos : pos = i
      · simp [hpos, hf]
      · simp [hpos]

theorem LinkedBlock.resizeMblk_mblkId
    (block : LinkedBlock) (nbytes : ℤ) (disconnect : Bool) (newbuf : Option Mem) :
    (block.resizeMblk nbytes disconnect newbuf).2.mblk.mblkId =
      block.mblk.mblkId := by
  unfold LinkedBlock.resizeMblk
  split
  · rfl
  split
  · rfl
  split
  · rfl
  cases newbuf <;> cases disconnect <;> rfl

theorem LinkedBlock.mbinfoNewSbuf_mblk
    (block : LinkedBlock) (con : ConnectionLink) (info : MemoryBlockInfo)
    (bidirectional : Bool) :
    (block.mbinfoNewSbuf con info bidirectional).mblk = block.mblk := by
  unfold LinkedBlock.mbinfoNewSbuf
  split <;> rfl

theorem LinkedBlock.mbinfoNewTbuf_mblk
    (block : LinkedBlock) (con : ConnectionLink) (info : MemoryBlockInfo)
    (bidirectional : Bool) :
    (block.mbinfoNewTbuf con info bidirectional).mblk = block.mblk := by
  unfold LinkedBlock.mbinfoNewTbuf
  split <;> rfl

theorem LinkedBlock.link_mblk
    (block : LinkedBlock) (con : ConnectionLink) (bidirectionalMblks : Bool)
    (info : MemoryBlockInfo) :
    (block.link con bidirectionalMblks info).mblk = block.mblk := by
  have hrule := @LinkedBlock.link_rule (fun b => b.mblk = block.mblk) block con
    bidirectionalMblks info rfl
  apply hrule
  · intro b flag hb
    rw [LinkedBlock.mbinfoNewSbuf_mblk, hb]
  · intro b flag hb
    rw [LinkedBlock.mbinfoNewTbuf_mblk, hb]

theorem receive_mblkId
    (mblk : MemoryBlock) (sbufs : List SourceBuffer) (tbufs : List TargetBuffer) :
    (Iocom.receive mblk sbufs tbufs).1.mblkId = mblk.mblkId := by
  induction tbufs generalizing mblk sbufs with
  | nil => rfl
  | cons tbuf tbufs ih =>
      unfold Iocom.receive
      split
      · rfl
      · dsimp only
        rw [ih]
        unfold receiveTargetBuffer
        split <;> rfl

/-- What one step does to the identifiers: some may be released, or the next
one is handed out. -/
theorem Root.step_ids (root : Root) (action : RootAction) :
    ((root.step action).ids.Sublist root.ids ∧
        (root.step action).nextUniqueMblkId = root.nextUniqueMblkId) ∨
      ∃ draws,
        (root.step action).ids = root.ids ++ [root.getUniqueMblkId draws] ∧
          (root.step action).nextUniqueMblkId =
            if root.nextUniqueMblkId ≠ 0 then
              (root.nextUniqueMblkId + 1) % 0x100000000
            else 0 := by
  have hsame : ∀ {pos : ℕ} {f : LinkedBlock → LinkedBlock},
      (∀ block, (f block).mblk.mblkId = block.mblk.mblkId) →
      (Root.ids { root with mblks := root.mblks.modify pos f }).Sublist root.ids := by
    intro pos f hf
    unfold Root.ids
    rw [ids_modify hf]
  cases action with
  | initializeMemoryBlock prm draws fresh =>
      right
      refine ⟨draws, ?_, rfl⟩
      simp [Root.step, Root.initializeMemoryBlock, Root.ids,
        MemoryBlockParams.block]
  | releaseMemoryBlock pos =>
      left
      exact ⟨(List.eraseIdx_sublist _ _).map _, rfl⟩
  | mbinfoReceived con permissions info draws fresh newbuf =>
      have hlinked : ∀ block : LinkedBlock,
          ((block.resizeMblk info.nbytes false newbuf).2.link con
            permissions.bidirectionalMblks info).mblk.mblkId =
          block.mblk.mblkId := fun block => by
        rw [LinkedBlock.link_mblk, LinkedBlock.resizeMblk_mblkId]
      simp only [Root.step, Root.mbinfoReceived]
      split
      · exact .inl ⟨List.Sublist.refl _, rfl⟩
      split
      · exact .inl ⟨hsame hlinked, rfl⟩
      split
      · right
        refine ⟨draws, ?_, rfl⟩
        unfold Root.ids
        dsimp only
        rw [ids_modify hlinked]
        simp [Root.initializeMemoryBlock, MemoryBlockParams.block]
      · exact .inl ⟨hsame hlinked, rfl⟩
  | resizeMemoryBlockByInfo deviceName deviceNr mblkName maxAddr newbuf =>
      left
      refine ⟨hsame fun block => ?_, rfl⟩
      unfold LinkedBlock.resizeByInfo
      dsimp only
      split
      · split
        · cases newbuf <;> rfl
        · rfl
      · rfl
  | write pos addr data =>
      left
      refine ⟨hsame fun block => ?_, rfl⟩
      unfold LinkedBlock.write Iocom.write
      split <;> rfl
  | send pos => exact .inl ⟨hsame fun _ => rfl, rfl⟩
  | makeDataFrame pos sbuf con => exact .inl ⟨hsame fun _ => rfl, rfl⟩
  | dataFrameReceived con authorized frame =>
      left
      simp only [Root.step, Root.processReceivedDataFrame]
      split
      · exact ⟨List.Sublist.refl _, rfl⟩
      · exact ⟨hsame fun _ => rfl, rfl⟩
  | receive pos =>
      exact .inl ⟨hsame fun block => receive_mblkId _ _ _, rfl⟩
  | connectionClosed con =>
      left
      refine ⟨?_, rfl⟩
      simp only [Root.step, Root.freeSourceAndTargetBufs, Root.ids, List.map_map]
      exact List.filter_sublist.map _

theorem Root.DistinctIds.step
    {root : Root} (h : root.DistinctIds) (action : RootAction) :
    (root.step action).DistinctIds := by
  rcases root.step_ids action with ⟨hsub, hnext⟩ | ⟨draws, hids, hnext⟩
  · exact
      { nodup := h.nodup.sublist (hsub.filter _)
        below := fun hne id hid => by
          rw [hnext] at hne ⊢
          exact h.below hne id (hsub.subset hid)
        bound := by
          rw [hnext]
          exact h.bound }
  · have hfresh : minUniqueId ≤ root.getUniqueMblkId draws →
        root.getUniqueMblkId draws ∉ root.ids := by
      unfold Root.getUniqueMblkId
      split
      · rename_i hne
        intro _ hmem
        exact lt_irrefl _ (h.below hne _ hmem)
      · intro hmin
        cases hfound : draws.find? (fun id =>
            root.mblks.all fun block => decide (block.mblk.mblkId ≠ id)) with
        | none =>
            rw [hfound] at hmin
            exact absurd hmin (by decide)
        | some id =>
            have hunused := List.find?_some hfound
            simp only [List.all_eq_true, decide_eq_true_eq] at hunused
            intro hmem
            obtain ⟨block, hblock, hid⟩ := List.mem_map.mp hmem
            exact hunused block hblock hid
    exact
      { nodup := by
          rw [hids, List.filter_append, List.nodup_append]
          refine ⟨h.nodup, ?_, ?_⟩
          · exact (List.nodup_cons.mpr ⟨List.not_mem_nil, List.nodup_nil⟩).sublist
              List.filter_sublist
          · intro a ha b hb heq
            subst b
            have hb' := List.mem_filter.mp hb
            obtain rfl := List.mem_singleton.mp hb'.1
            exact hfresh (by simpa using hb'.2) (List.mem_filter.mp ha).1
        below := fun hne id hid => by
          rw [hnext] at hne ⊢
          split at hne
          · rename_i hnonzero
            have hlt : root.nextUniqueMblkId + 1 < 0x100000000 := by
              have := h.bound
              by_contra hwrap
              have : root.nextUniqueMblkId + 1 = 0x100000000 := by omega
              simp [this] at hne
            rw [if_pos hnonzero, Nat.mod_eq_of_lt hlt]
            rw [hids] at hid
            rcases List.mem_append.mp hid with hold | hnew
            · exact Nat.lt_succ_of_lt (h.below hnonzero id hold)
            · obtain rfl := List.mem_singleton.mp hnew
              simp [Root.getUniqueMblkId, hnonzero]
          · exact absurd rfl hne
        bound := by
          rw [hnext]
          split
          · exact Nat.mod_lt _ (by decide)
          · decide }

theorem Root.ReachedBy.distinctIds
    {allowed : Root → RootAction → Prop} {root : Root}
    (hrun : Root.ReachedBy allowed root) : root.DistinctIds := by
  apply TransitionSystem.invariant_of_run Root.DistinctIds _ _ hrun
  · rintro s t hs ⟨action, -, rfl⟩
    exact hs.step action
  · exact ⟨List.nodup_nil, fun _ _ hid => by contradiction, by decide⟩

/-- Two positions of a list hold one value which is there only once. -/
theorem index_eq_of_nodup_filter
    {α : Type*} {p : α → Bool} {xs : List α} {i j : ℕ} {x : α}
    (hnodup : (xs.filter p).Nodup) (hi : xs[i]? = some x) (hj : xs[j]? = some x)
    (hx : p x = true) : i = j := by
  induction xs generalizing i j with
  | nil => simp at hi
  | cons y ys ih =>
      have hfilter : ∀ {k : ℕ}, ys[k]? = some x → x ∈ ys.filter p := fun hk =>
        List.mem_filter.mpr ⟨List.mem_of_getElem? hk, hx⟩
      have htail : (ys.filter p).Nodup :=
        hnodup.sublist ((List.sublist_cons_self y ys).filter _)
      have hhead : y = x → x ∉ ys.filter p := by
        rintro rfl
        rw [List.filter_cons_of_pos hx] at hnodup
        exact (List.nodup_cons.mp hnodup).1
      cases i with
      | zero =>
          cases j with
          | zero => rfl
          | succ j => exact absurd (hfilter hj) (hhead (by simpa using hi))
      | succ i =>
          cases j with
          | zero => exact absurd (hfilter hi) (hhead (by simpa using hj))
          | succ j => rw [ih htail hi hj]

/-- The block with an identifier which is handed out to blocks is the only one
with it. -/
theorem Root.DistinctIds.unique
    {root : Root} (h : root.DistinctIds) {i j : ℕ} {a b : LinkedBlock}
    (ha : root.mblks[i]? = some a) (hb : root.mblks[j]? = some b)
    (hid : a.mblk.mblkId = b.mblk.mblkId) (hmin : minUniqueId ≤ a.mblk.mblkId) :
    i = j := by
  have hia : root.ids[i]? = some a.mblk.mblkId := by
    unfold Root.ids
    rw [List.getElem?_map, ha]
    rfl
  have hjb : root.ids[j]? = some a.mblk.mblkId := by
    unfold Root.ids
    rw [List.getElem?_map, hb, hid]
    rfl
  exact index_eq_of_nodup_filter h.nodup hia hjb (by simpa using hmin)

/-- By creating and releasing blocks every identifier comes up. -/
theorem every_identifier_is_handed_out {id : ℕ}
    (hmin : minUniqueId ≤ id) (hmax : id < 0x100000000) (prm : MemoryBlockParams) :
    ∃ root, Root.ReachedBy (fun _ _ => True) root ∧
      ∀ draws, root.getUniqueMblkId draws = id := by
  have hcounted : ∀ n, minUniqueId + n < 0x100000000 →
      ∃ root, Root.ReachedBy (fun _ _ => True) root ∧ root.mblks = [] ∧
        root.nextUniqueMblkId = minUniqueId + n := by
    intro n
    induction n with
    | zero => exact fun _ => ⟨initializeRoot, .refl, rfl, rfl⟩
    | succ n ih =>
        intro hn
        obtain ⟨root, hrun, hempty, hnext⟩ := ih (by omega)
        refine ⟨(root.step (.initializeMemoryBlock prm [] fun _ => 0)).step
          (.releaseMemoryBlock 0),
          .tail (.tail hrun ⟨_, trivial, rfl⟩) ⟨_, trivial, rfl⟩, ?_, ?_⟩
        · simp [Root.step, Root.initializeMemoryBlock, Root.releaseMemoryBlock,
            hempty]
        · have hne : root.nextUniqueMblkId ≠ 0 := by
            unfold minUniqueId at hnext
            omega
          simp only [Root.step, Root.initializeMemoryBlock,
            Root.releaseMemoryBlock, if_pos hne]
          omega
  obtain ⟨root, hrun, -, hnext⟩ := hcounted (id - minUniqueId) (by omega)
  refine ⟨root, hrun, fun draws => ?_⟩
  have hid : root.nextUniqueMblkId = id := by omega
  have hne : root.nextUniqueMblkId ≠ 0 := by
    unfold minUniqueId at hmin
    omega
  unfold Root.getUniqueMblkId
  rw [if_pos hne, hid]

/-! ## Identifiers kept for the other end -/

/-- The links of a block: its name, the connection of a transfer buffer, and the
identifier kept there. -/
def LinkedBlock.RemoteIds (Q : BlockName → ℕ → ℤ → Prop) (block : LinkedBlock) :
    Prop :=
  (∀ sbuf ∈ block.sbufs, Q block.name sbuf.clink.con sbuf.remoteMblkId) ∧
    ∀ tbuf ∈ block.tbufs, Q block.name tbuf.clink.con tbuf.remoteMblkId

theorem initializeSourceBuffer_link
    (con : ConnectionLink) (mblk : MemoryBlock) (remoteMblkId : ℤ)
    (bidirectional : Bool) :
    (initializeSourceBuffer con mblk remoteMblkId bidirectional).remoteMblkId =
        remoteMblkId ∧
      (initializeSourceBuffer con mblk remoteMblkId bidirectional).clink = con :=
  ⟨rfl, rfl⟩

theorem initializeTargetBuffer_link
    (con : ConnectionLink) (mblk : MemoryBlock) (remoteMblkId : ℤ)
    (bidirectional : Bool) :
    (initializeTargetBuffer con mblk remoteMblkId bidirectional).remoteMblkId =
        remoteMblkId ∧
      (initializeTargetBuffer con mblk remoteMblkId bidirectional).clink = con :=
  ⟨rfl, rfl⟩

theorem SourceBuffer.invalidate_link
    (sbuf : SourceBuffer) (mblk : MemoryBlock) (first last : ℤ) :
    (sbuf.invalidate mblk first last).remoteMblkId = sbuf.remoteMblkId ∧
      (sbuf.invalidate mblk first last).clink = sbuf.clink := by
  unfold SourceBuffer.invalidate
  cases sbuf.invalidatedPart mblk first last with
  | none => exact ⟨rfl, rfl⟩
  | some part =>
      dsimp only
      split
      · unfold SourceBuffer.invalidateBytes
        split <;> exact ⟨rfl, rfl⟩
      · exact ⟨rfl, rfl⟩

theorem SourceBuffer.synchronize_link
    (sbuf : SourceBuffer) (mblk : MemoryBlock) :
    (sbuf.synchronize mblk).remoteMblkId = sbuf.remoteMblkId ∧
      (sbuf.synchronize mblk).clink = sbuf.clink := by
  unfold SourceBuffer.synchronize
  dsimp only
  split
  · exact ⟨rfl, rfl⟩
  split
  · exact ⟨rfl, rfl⟩
  split
  · exact ⟨rfl, rfl⟩
  split <;> exact ⟨rfl, rfl⟩

theorem echoBytes_link
    (changed : ℤ → Bool) (mblk : MemoryBlock) (n : ℕ) (first : ℤ)
    (sbuf : SourceBuffer) :
    (echoBytes changed mblk n first sbuf).remoteMblkId = sbuf.remoteMblkId ∧
      (echoBytes changed mblk n first sbuf).clink = sbuf.clink := by
  induction n generalizing first sbuf with
  | zero => exact ⟨rfl, rfl⟩
  | succ n ih =>
      unfold echoBytes
      rw [(ih _ _).1, (ih _ _).2]
      split
      · exact sbuf.invalidate_link mblk first first
      · exact ⟨rfl, rfl⟩

theorem SourceBuffer.echo_link
    (sbuf : SourceBuffer) (mblk : MemoryBlock) (tbuf : TargetBuffer) :
    (sbuf.echo mblk tbuf).remoteMblkId = sbuf.remoteMblkId ∧
      (sbuf.echo mblk tbuf).clink = sbuf.clink := by
  unfold SourceBuffer.echo
  dsimp only
  split
  · exact ⟨rfl, rfl⟩
  split
  · exact echoBytes_link _ _ _ _ _
  · exact sbuf.invalidate_link _ _ _

theorem TargetBuffer.storeFrame_link (tbuf : TargetBuffer) (frame : Frame) :
    (tbuf.storeFrame frame).2.remoteMblkId = tbuf.remoteMblkId ∧
      (tbuf.storeFrame frame).2.clink = tbuf.clink := by
  unfold TargetBuffer.storeFrame TargetBuffer.storeDataFrame
  dsimp only
  split
  · exact ⟨rfl, rfl⟩
  split
  · exact ⟨rfl, rfl⟩
  split <;> exact ⟨rfl, rfl⟩

variable {Q : BlockName → ℕ → ℤ → Prop}

theorem LinkedBlock.RemoteIds.map_sbufs
    {name : BlockName} {sbufs : List SourceBuffer} {f : SourceBuffer → SourceBuffer}
    (h : ∀ sbuf ∈ sbufs, Q name sbuf.clink.con sbuf.remoteMblkId)
    (hf : ∀ sbuf, (f sbuf).remoteMblkId = sbuf.remoteMblkId ∧
      (f sbuf).clink = sbuf.clink) :
    ∀ sbuf ∈ sbufs.map f, Q name sbuf.clink.con sbuf.remoteMblkId := by
  intro sbuf hsbuf
  obtain ⟨old, hold, rfl⟩ := List.mem_map.mp hsbuf
  rw [(hf old).1, (hf old).2]
  exact h old hold

theorem echoBytes_rule
    {P : SourceBuffer → Prop}
    (hinvalidate : ∀ sbuf mblk first last, P sbuf → P (sbuf.invalidate mblk first last))
    (changed : ℤ → Bool) (mblk : MemoryBlock) (n : ℕ) (first : ℤ)
    {sbuf : SourceBuffer} (h : P sbuf) : P (echoBytes changed mblk n first sbuf) := by
  induction n generalizing first sbuf with
  | zero => exact h
  | succ n ih =>
      unfold echoBytes
      apply ih
      split
      · exact hinvalidate sbuf mblk first first h
      · exact h

/-- What marking and finishing a receive keep, `ioc_receive` keeps. -/
theorem receive_rule
    {P : SourceBuffer → Prop} {R : TargetBuffer → Prop}
    (hinvalidate : ∀ sbuf mblk first last, P sbuf → P (sbuf.invalidate mblk first last))
    (hfinish : ∀ tbuf, R tbuf → R { tbuf with syncbuf := tbuf.syncbuf.finishReceive })
    (mblk : MemoryBlock) {sbufs : List SourceBuffer} {tbufs : List TargetBuffer}
    (hsbufs : ∀ sbuf ∈ sbufs, P sbuf) (htbufs : ∀ tbuf ∈ tbufs, R tbuf) :
    (∀ sbuf ∈ (Iocom.receive mblk sbufs tbufs).2.1, P sbuf) ∧
      ∀ tbuf ∈ (Iocom.receive mblk sbufs tbufs).2.2, R tbuf := by
  induction tbufs generalizing mblk sbufs with
  | nil => exact ⟨hsbufs, htbufs⟩
  | cons tbuf tbufs ih =>
      unfold Iocom.receive
      split
      · exact ⟨hsbufs, htbufs⟩
      · have htbuf := htbufs tbuf List.mem_cons_self
        have hturn : (∀ sbuf ∈ (receiveTargetBuffer mblk sbufs tbuf).2.1, P sbuf) ∧
            R (receiveTargetBuffer mblk sbufs tbuf).2.2 := by
          unfold receiveTargetBuffer
          split
          · refine ⟨fun sbuf hsbuf => ?_, hfinish tbuf htbuf⟩
            obtain ⟨old, hold, rfl⟩ := List.mem_map.mp hsbuf
            split
            · unfold SourceBuffer.echo
              dsimp only
              split
              · exact hsbufs old hold
              split
              · exact echoBytes_rule hinvalidate _ _ _ _ (hsbufs old hold)
              · exact hinvalidate _ _ _ _ (hsbufs old hold)
            · exact hinvalidate _ _ _ _ (hsbufs old hold)
          · exact ⟨hsbufs, htbuf⟩
        have hrest := ih (receiveTargetBuffer mblk sbufs tbuf).1 hturn.1
          (fun t ht => htbufs t (List.mem_cons_of_mem _ ht))
        refine ⟨hrest.1, fun t ht => ?_⟩
        rcases List.mem_cons.mp ht with rfl | ht
        · exact hturn.2
        · exact hrest.2 t ht

theorem receive_remoteIds
    {name : BlockName} (mblk : MemoryBlock) {sbufs : List SourceBuffer}
    {tbufs : List TargetBuffer}
    (hsbufs : ∀ sbuf ∈ sbufs, Q name sbuf.clink.con sbuf.remoteMblkId)
    (htbufs : ∀ tbuf ∈ tbufs, Q name tbuf.clink.con tbuf.remoteMblkId) :
    (∀ sbuf ∈ (Iocom.receive mblk sbufs tbufs).2.1,
        Q name sbuf.clink.con sbuf.remoteMblkId) ∧
      ∀ tbuf ∈ (Iocom.receive mblk sbufs tbufs).2.2,
        Q name tbuf.clink.con tbuf.remoteMblkId := by
  refine @receive_rule (fun sbuf => Q name sbuf.clink.con sbuf.remoteMblkId)
    (fun tbuf => Q name tbuf.clink.con tbuf.remoteMblkId) ?_ ?_ mblk sbufs tbufs hsbufs htbufs
  · intro sbuf mblk first last hsbuf
    rw [(sbuf.invalidate_link mblk first last).1, (sbuf.invalidate_link mblk first last).2]
    exact hsbuf
  · exact fun _ htbuf => htbuf

theorem LinkedBlock.RemoteIds.link
    {block : LinkedBlock} (h : block.RemoteIds Q) (con : ConnectionLink)
    (bidirectionalMblks : Bool) {info : MemoryBlockInfo}
    (hnew : Q block.name con.con (osShort info.mblkId)) :
    (block.link con bidirectionalMblks info).RemoteIds Q := by
  have hrule := @LinkedBlock.link_rule
    (fun b => b.name = block.name ∧ b.RemoteIds Q) block con bidirectionalMblks
    info ⟨rfl, h⟩
  refine (hrule ?_ ?_).2
  · rintro b flag ⟨hname, hb⟩
    unfold LinkedBlock.mbinfoNewSbuf
    split
    · exact ⟨hname, hb⟩
    · refine ⟨hname, fun sbuf hsbuf => ?_, hb.2⟩
      rcases List.mem_append.mp hsbuf with hold | hlinked
      · exact hb.1 sbuf hold
      · obtain rfl := List.mem_singleton.mp hlinked
        rw [(SourceBuffer.synchronize_link _ _).1,
          (SourceBuffer.synchronize_link _ _).2,
          (initializeSourceBuffer_link _ _ _ _).1,
          (initializeSourceBuffer_link _ _ _ _).2]
        dsimp only
        rw [hname]
        exact hnew
  · rintro b flag ⟨hname, hb⟩
    unfold LinkedBlock.mbinfoNewTbuf
    split
    · exact ⟨hname, hb⟩
    · refine ⟨hname, hb.1, fun tbuf htbuf => ?_⟩
      rcases List.mem_append.mp htbuf with hold | hlinked
      · apply hb.2 tbuf
        split at hold
        · exact hold
        · exact List.mem_of_mem_filter hold
      · obtain rfl := List.mem_singleton.mp hlinked
        rw [(initializeTargetBuffer_link _ _ _ _).1,
          (initializeTargetBuffer_link _ _ _ _).2]
        dsimp only
        rw [hname]
        exact hnew

theorem LinkedBlock.RemoteIds.resizeMblk
    {block : LinkedBlock} (h : block.RemoteIds Q) (nbytes : ℤ)
    (newbuf : Option Mem) :
    (block.resizeMblk nbytes false newbuf).2.RemoteIds Q ∧
      (block.resizeMblk nbytes false newbuf).2.name = block.name := by
  unfold LinkedBlock.resizeMblk
  split
  · exact ⟨h, rfl⟩
  split
  · exact ⟨h, rfl⟩
  split
  · exact ⟨h, rfl⟩
  cases newbuf <;> exact ⟨h, rfl⟩

theorem Root.findBlock_name
    {root : Root} {name : BlockName} {block : LinkedBlock}
    (h : root.mblks[root.findBlock name]? = some block) : block.name = name := by
  obtain ⟨hlt, hget⟩ := List.getElem?_eq_some_iff.mp h
  have hfound := List.findIdx_getElem (w := hlt)
  rw [← hget]
  unfold Root.findBlock
  simpa using hfound

/-- The links of the blocks come from infos: what holds of the links there are
and of the link of a received info holds after the step. -/
theorem Root.step_remoteIds
    {root : Root} (h : ∀ block ∈ root.mblks, block.RemoteIds Q)
    {action : RootAction}
    (hnew : ∀ con permissions info draws fresh newbuf,
      action = .mbinfoReceived con permissions info draws fresh newbuf →
        Q info.name con.con (osShort info.mblkId)) :
    ∀ block ∈ (root.step action).mblks, block.RemoteIds Q := by
  cases action with
  | initializeMemoryBlock prm draws fresh =>
      intro block hblock
      rcases List.mem_append.mp hblock with hold | hcreated
      · exact h block hold
      · obtain rfl := List.mem_singleton.mp hcreated
        exact ⟨fun _ hmem => by contradiction, fun _ hmem => by contradiction⟩
  | releaseMemoryBlock pos =>
      intro block hblock
      exact h block (List.mem_of_mem_eraseIdx hblock)
  | mbinfoReceived con permissions info draws fresh newbuf =>
      have hinfo := hnew con permissions info draws fresh newbuf rfl
      have hlink : ∀ block : LinkedBlock, block.RemoteIds Q →
          block.name = info.name →
          ((block.resizeMblk info.nbytes false newbuf).2.link con
            permissions.bidirectionalMblks info).RemoteIds Q := by
        intro block hblock hname
        obtain ⟨hresized, hsame⟩ := hblock.resizeMblk info.nbytes newbuf
        apply hresized.link
        rw [hsame, hname]
        exact hinfo
      simp only [Root.step, Root.mbinfoReceived]
      split
      · exact h
      split
      · apply forall_mem_modify h
        intro block hblock
        exact hlink block (h block (List.mem_of_getElem? hblock))
          (Root.findBlock_name hblock)
      rename_i hnone
      split
      · have hcreated : ∀ block ∈
            (root.initializeMemoryBlock info.params draws fresh).mblks,
            block.RemoteIds Q := by
          intro block hblock
          rcases List.mem_append.mp hblock with hold | hnew
          · exact h block hold
          · obtain rfl := List.mem_singleton.mp hnew
            exact ⟨fun _ hmem => by contradiction, fun _ hmem => by contradiction⟩
        apply forall_mem_modify hcreated
        intro block hblock
        apply hlink block (hcreated block (List.mem_of_getElem? hblock))
        have hlength : root.findBlock info.name = root.mblks.length := by
          have : root.findBlock info.name ≤ root.mblks.length :=
            List.findIdx_le_length
          omega
        rw [hlength] at hblock
        simp only [Root.initializeMemoryBlock, List.getElem?_append_right
          (Nat.le_refl _), Nat.sub_self, List.getElem?_cons_zero,
          Option.some.injEq] at hblock
        subst block
        rfl
      · apply forall_mem_modify h
        intro block hblock
        exact hlink block (h block (List.mem_of_getElem? hblock))
          (Root.findBlock_name hblock)
  | resizeMemoryBlockByInfo deviceName deviceNr mblkName maxAddr newbuf =>
      apply Root.step_modify h
      intro block hblock
      unfold LinkedBlock.resizeByInfo
      dsimp only
      split
      · split
        · cases newbuf <;> exact hblock
        · exact hblock
      · exact hblock
  | write pos addr data =>
      apply Root.step_modify h
      intro block hblock
      unfold LinkedBlock.write Iocom.write
      split
      · exact hblock
      · exact ⟨LinkedBlock.RemoteIds.map_sbufs hblock.1 fun sbuf =>
          sbuf.invalidate_link _ _ _, hblock.2⟩
  | send pos =>
      apply Root.step_modify h
      intro block hblock
      exact ⟨LinkedBlock.RemoteIds.map_sbufs hblock.1 fun sbuf =>
        sbuf.synchronize_link _, hblock.2⟩
  | makeDataFrame pos sbuf con =>
      apply Root.step_modify h
      intro block hblock
      refine ⟨forall_mem_modify hblock.1 fun old hold => ?_, hblock.2⟩
      have hlinked := hblock.1 old (List.mem_of_getElem? hold)
      cases hmake : Iocom.makeDataFrame con block.mblk old with
      | none => exact hlinked
      | some made =>
          obtain ⟨con', sbuf', frame⟩ := made
          obtain ⟨count, rfl⟩ := makeDataFrame_sbuf hmake
          exact hlinked
  | dataFrameReceived con authorized frame =>
      simp only [Root.step, Root.processReceivedDataFrame]
      split
      · exact h
      · apply Root.step_modify h
        intro block hblock
        refine ⟨hblock.1, forall_mem_modify hblock.2 fun old hold => ?_⟩
        rw [(old.storeFrame_link frame).1, (old.storeFrame_link frame).2]
        exact hblock.2 old (List.mem_of_getElem? hold)
  | receive pos =>
      apply Root.step_modify h
      intro block hblock
      exact receive_remoteIds block.mblk hblock.1 hblock.2
  | connectionClosed con =>
      intro block hblock
      obtain ⟨old, hold, rfl⟩ := List.mem_map.mp hblock
      have hlinked := h old (List.mem_of_mem_filter hold)
      exact
        ⟨fun sbuf hmem => hlinked.1 sbuf (List.mem_of_mem_filter hmem),
          fun tbuf hmem => hlinked.2 tbuf (List.mem_of_mem_filter hmem)⟩

def Root.run (actions : List RootAction) : Root :=
  actions.foldl Root.step initializeRoot

theorem Root.run_remoteIds
    {actions : List RootAction}
    (hnew : ∀ con permissions info draws fresh newbuf,
      RootAction.mbinfoReceived con permissions info draws fresh newbuf ∈ actions →
        Q info.name con.con (osShort info.mblkId)) :
    ∀ block ∈ (Root.run actions).mblks, block.RemoteIds Q := by
  have hrun : ∀ (actions : List RootAction) (root : Root),
      (∀ block ∈ root.mblks, block.RemoteIds Q) →
      (∀ con permissions info draws fresh newbuf,
        RootAction.mbinfoReceived con permissions info draws fresh newbuf ∈ actions →
          Q info.name con.con (osShort info.mblkId)) →
      ∀ block ∈ (actions.foldl Root.step root).mblks, block.RemoteIds Q := by
    intro actions
    induction actions with
    | nil => exact fun root hroot _ => hroot
    | cons action actions ih =>
        intro root hroot hnew
        apply ih
        · apply Root.step_remoteIds hroot
          rintro con permissions info draws fresh newbuf rfl
          exact hnew con permissions info draws fresh newbuf List.mem_cons_self
        · intro con permissions info draws fresh newbuf hmem
          exact hnew con permissions info draws fresh newbuf
            (List.mem_cons_of_mem _ hmem)
  exact hrun actions initializeRoot (fun _ hblock => by contradiction) hnew

/-! ## Addressing -/

/-- `IOC_PACK_N_REQUESTS`. -/
def packNRequests : ℕ := 12

/-- `ioc_add_request_to_remove_mblk`: requests are packed into one item of the
list as long as there is room. -/
def addRequestToRemoveMblk (requests : List (List ℤ)) (remoteMblkId : ℤ) :
    List (List ℤ) :=
  match requests.getLast? with
  | none => [[remoteMblkId]]
  | some last =>
      if last.length < packNRequests then
        requests.dropLast ++ [last ++ [remoteMblkId]]
      else requests ++ [[remoteMblkId]]

/-- The connections which `ioc_generate_del_mblk_request` asks to remove a block
at their other ends, with the identifiers it names. -/
def LinkedBlock.removeRequests
    (block : LinkedBlock) (deletingCon : Option ℕ) : List (ℕ × ℤ) :=
  ((block.sbufs.filter fun sbuf =>
      sbuf.clink.connectUp && decide (some sbuf.clink.con ≠ deletingCon)).map
    fun sbuf => (sbuf.clink.con, sbuf.remoteMblkId)) ++
  (block.tbufs.filter fun tbuf =>
      tbuf.clink.connectUp && decide (some tbuf.clink.con ≠ deletingCon)).map
    fun tbuf => (tbuf.clink.con, tbuf.remoteMblkId)

/-- `ioc_generate_del_mblk_request`, for the request lists of all connections. -/
def LinkedBlock.generateDelMblkRequest
    (block : LinkedBlock) (deletingCon : Option ℕ)
    (lists : ℕ → List (List ℤ)) : ℕ → List (List ℤ) :=
  (block.removeRequests deletingCon).foldl
    (fun lists request =>
      Function.update lists request.1
        (addRequestToRemoveMblk (lists request.1) request.2)) lists

theorem addRequestToRemoveMblk_flatten (requests : List (List ℤ)) (id : ℤ) :
    (addRequestToRemoveMblk requests id).flatten = requests.flatten ++ [id] := by
  unfold addRequestToRemoveMblk
  cases hlast : requests.getLast? with
  | none =>
      rw [List.getLast?_eq_none_iff.mp hlast]
      rfl
  | some last =>
      obtain ⟨front, rfl⟩ := List.getLast?_eq_some_iff.mp hlast
      dsimp only
      split
      · simp
      · simp

theorem LinkedBlock.generateDelMblkRequest_flatten
    (block : LinkedBlock) (deletingCon : Option ℕ) (lists : ℕ → List (List ℤ))
    (con : ℕ) :
    (block.generateDelMblkRequest deletingCon lists con).flatten =
      (lists con).flatten ++
        ((block.removeRequests deletingCon).filter fun request =>
          decide (request.1 = con)).map Prod.snd := by
  unfold LinkedBlock.generateDelMblkRequest
  generalize block.removeRequests deletingCon = requests
  induction requests generalizing lists with
  | nil => simp
  | cons request requests ih =>
      rw [List.foldl_cons, ih]
      by_cases hcon : request.1 = con
      · subst con
        rw [Function.update_self, addRequestToRemoveMblk_flatten,
          List.filter_cons_of_pos (by simp)]
        simp
      · rw [Function.update_of_ne (Ne.symm hcon),
          List.filter_cons_of_neg (by simpa using hcon)]

def systemFrame (frameNr mblkId : ℕ) (content : List UInt8) : Frame where
  frameNr := frameNr
  system := true
  flags := ⟨false, false, false⟩
  mblkId := mblkId
  addr := 0
  payload := content

theorem systemFrame_fields (frameNr mblkId : ℕ) (content : List UInt8) :
    (systemFrame frameNr mblkId content).mblkId = mblkId ∧
      (systemFrame frameNr mblkId content).addr = 0 := ⟨rfl, rfl⟩

/-- An info as the other end takes it out of the frame which
`ioc_make_mblk_info_frame` makes for a block. -/
def MemoryBlockInfo.Describes (info : MemoryBlockInfo) (mblkId : ℕ) : Prop :=
  ∃ isSocket frameNr content crc,
    info.mblkId =
      (parseFrame isSocket
        ((systemFrame frameNr (osUint (osInt mblkId)) content).encodeWith isSocket
          crc)).mblkId

/-- A data frame which arrives with this identifier is stored for the block `id`
and no other, at every end which has the block. -/
def FindsBlock (id mblkId : ℕ) : Prop :=
  mblkId = id ∧
    ∀ owner, Root.ReachedBy (fun _ _ => True) owner →
      ∀ (pos : ℕ) block, owner.mblks[pos]? = some block →
        block.mblk.mblkId = id →
          ∀ con, (block.tbufs.any fun tbuf => decide (tbuf.clink.con = con)) = true →
            owner.addressed con mblkId = pos

/-- What one end sends about a block which it has linked to a connection
addresses the block `id` of the other end. -/
structure LinkedBlock.Addresses (block : LinkedBlock) (con id : ℕ) : Prop where
  frames :
    ∀ sbuf ∈ block.sbufs, sbuf.clink.con = con → sbuf.remoteMblkId ≠ 0 →
      ∀ link link' sbuf' frame,
        Iocom.makeDataFrame link block.mblk sbuf = some (link', sbuf', frame) →
          ∀ crc, FindsBlock id
            (parseFrame link.isSocket (frame.encodeWith link.isSocket crc)).mblkId
  requests :
    ∀ deletingCon lists, ∃ n,
      (block.generateDelMblkRequest deletingCon lists con).flatten =
        (lists con).flatten ++ List.replicate n (id : ℤ)

/-- At every end, in every run in which the infos received for a block describe
the block `id` of the other end, what is sent addresses that block. -/
def AddressingWorks (id : ℕ) : Prop :=
  ∀ (actions : List RootAction) (con : ℕ) (name : BlockName),
    (∀ link permissions info draws fresh newbuf,
      RootAction.mbinfoReceived link permissions info draws fresh newbuf ∈ actions →
        link.con = con → info.name = name → info.Describes id) →
    ∀ block ∈ (Root.run actions).mblks, block.name = name →
      block.Addresses con id

theorem osUint_lt (n : ℤ) : osUint n < 0x100000000 := by
  unfold osUint
  omega

theorem osUint_osInt {n : ℕ} (hn : n < 0x100000000) : osUint (osInt n) = n := by
  unfold osUint osInt
  rw [Int.bmod_def]
  omega

theorem osShort_of_le {n : ℕ} (hn : n ≤ 0x7FFF) : osShort n = n := by
  unfold osShort
  rw [Int.bmod_def]
  omega

theorem osShort_le (n : ℤ) : osShort n ≤ 0x7FFF := by
  unfold osShort
  rw [Int.bmod_def]
  omega

theorem MemoryBlockInfo.Describes.mblkId
    {info : MemoryBlockInfo} {id : ℕ} (h : info.Describes id)
    (hid : id < 0x100000000) : info.mblkId = id := by
  obtain ⟨isSocket, frameNr, content, crc, hinfo⟩ := h
  obtain ⟨hmblk, haddr⟩ := systemFrame_fields frameNr (osUint (osInt id)) content
  rw [hinfo, (parseFrame_fields crc (by rw [hmblk]; exact osUint_lt _)
    (by rw [haddr]; decide)).1, hmblk]
  exact osUint_osInt hid

theorem makeDataFrame_address
    {con con' : Connection} {mblk : MemoryBlock} {sbuf sbuf' : SourceBuffer}
    {frame : Frame}
    (hmake : makeDataFrame con mblk sbuf = some (con', sbuf', frame)) :
    frame.mblkId = osUint sbuf.remoteMblkId ∧
      frame.addr = osUint sbuf.syncbuf.startAddr := by
  unfold makeDataFrame at hmake
  dsimp only at hmake
  split at hmake
  · contradiction
  simp only [Option.some.injEq, Prod.mk.injEq] at hmake
  obtain ⟨-, -, rfl⟩ := hmake
  exact ⟨rfl, rfl⟩

theorem findsBlock_self {id : ℕ} (hmin : minUniqueId ≤ id) : FindsBlock id id := by
  refine ⟨rfl, fun owner hrun pos block hblock hid con hlinked => ?_⟩
  have hpos : pos < owner.mblks.length := (List.getElem?_eq_some_iff.mp hblock).1
  have hmatch : (decide (block.mblk.mblkId = id) &&
      block.tbufs.any fun tbuf => decide (tbuf.clink.con = con)) = true := by
    rw [hlinked]
    simpa using hid
  have hfound : owner.addressed con id < owner.mblks.length :=
    List.findIdx_lt_length_of_exists
      ⟨block, List.mem_of_getElem? hblock, hmatch⟩
  have hother := List.findIdx_getElem (w := hfound)
  simp only [Bool.and_eq_true, decide_eq_true_eq] at hother
  have hget : owner.mblks[owner.addressed con id]? =
      some owner.mblks[owner.addressed con id] := List.getElem?_eq_getElem hfound
  refine hrun.distinctIds.unique hget hblock ?_ ?_
  · rw [hid]
    exact hother.1
  · exact hother.1.symm ▸ hmin

/-- Identifiers which fit an `os_short` come back unchanged. -/
theorem addressing_of_le {id : ℕ} (hmin : minUniqueId ≤ id) (hle : id ≤ 0x7FFF) :
    AddressingWorks id := by
  intro actions con name hinfos block hblock hname
  have hlinks : block.RemoteIds fun n c remote =>
      n = name → c = con → remote = (id : ℤ) := by
    apply Root.run_remoteIds _ block hblock
    intro link permissions info draws fresh newbuf hmem hn hc
    have hdescribes := hinfos link permissions info draws fresh newbuf hmem hc hn
    rw [hdescribes.mblkId (by omega)]
    exact osShort_of_le hle
  have hid : osUint (id : ℤ) = id := by
    unfold osUint
    omega
  constructor
  · intro sbuf hsbuf hcon _ link link' sbuf' frame hmake crc
    obtain ⟨hmblk, haddr⟩ := makeDataFrame_address hmake
    have hframe : frame.mblkId = id := by
      rw [hmblk, hlinks.1 sbuf hsbuf hname hcon, hid]
    rw [(parseFrame_fields crc (by omega) (by rw [haddr]; exact osUint_lt _)).1,
      hframe]
    exact findsBlock_self hmin
  · intro deletingCon lists
    refine ⟨((block.removeRequests deletingCon).filter fun request =>
      decide (request.1 = con)).length, ?_⟩
    rw [block.generateDelMblkRequest_flatten]
    congr 1
    apply List.eq_replicate_iff.mpr
    refine ⟨by rw [List.length_map], fun remote hremote => ?_⟩
    obtain ⟨request, hrequest, rfl⟩ := List.mem_map.mp hremote
    obtain ⟨hmem, hcon⟩ := List.mem_filter.mp hrequest
    have hcon : request.1 = con := by simpa using hcon
    rcases List.mem_append.mp hmem with hs | ht
    · obtain ⟨sbuf, hsbuf, rfl⟩ := List.mem_map.mp hs
      exact hlinks.1 sbuf (List.mem_of_mem_filter hsbuf) hname hcon
    · obtain ⟨tbuf, htbuf, rfl⟩ := List.mem_map.mp ht
      exact hlinks.2 tbuf (List.mem_of_mem_filter htbuf) hname hcon

theorem MemoryBlockInfo.describes
    {info : MemoryBlockInfo} {id : ℕ} (hinfo : info.mblkId = id)
    (hid : id < 0x100000000) : info.Describes id := by
  refine ⟨true, 0, [], 0, ?_⟩
  obtain ⟨hmblk, haddr⟩ := systemFrame_fields 0 (osUint (osInt id)) []
  rw [(parseFrame_fields 0 (by rw [hmblk]; exact osUint_lt _)
    (by rw [haddr]; decide)).1, hmblk, osUint_osInt hid, hinfo]

def uplinkName : BlockName := ⟨"exp", "gina", 1, "iocafenet"⟩

/-- An end which creates a block, and links it on receiving the info of the
block `id` of the other end. -/
def linkingActions (id : ℕ) : List RootAction :=
  [.initializeMemoryBlock
      ⟨uplinkName, false, ⟨false, true, false, false, false⟩, 24, none⟩ []
      fun _ => 0,
    .mbinfoReceived ⟨0, true⟩ ⟨true, false, false⟩
      ⟨uplinkName, id, 24, false, true, false⟩ [] (fun _ => 0) none]

theorem linkingActions_requests (id : ℕ) :
    ∃ block ∈ (Root.run (linkingActions id)).mblks,
      block.name = uplinkName ∧
        block.removeRequests none = [(0, osShort id)] := by
  simp [Root.run, linkingActions, Root.step, Root.initializeMemoryBlock,
    Root.mbinfoReceived, Root.findBlock, initializeRoot, MemoryBlockParams.block,
    LinkedBlock.resizeMblk, minMblkSz, LinkedBlock.link,
    LinkedBlock.mbinfoNewSbuf, LinkedBlock.removeRequests,
    SourceBuffer.synchronize_link, initializeSourceBuffer_link]

/-- Past the range of an `os_short` a request to remove the block names another
identifier. -/
theorem not_addressing_of_lt {id : ℕ} (hlt : 0x7FFF < id)
    (hmax : id < 0x100000000) : ¬AddressingWorks id := by
  intro h
  obtain ⟨block, hblock, hname, hrequests⟩ := linkingActions_requests id
  have hinfos : ∀ link permissions info draws fresh newbuf,
      RootAction.mbinfoReceived link permissions info draws fresh newbuf ∈
        linkingActions id →
      link.con = 0 → info.name = uplinkName → info.Describes id := by
    intro link permissions info draws fresh newbuf hmem _ _
    rcases List.mem_cons.mp hmem with heq | hmem
    · contradiction
    · have heq := List.mem_singleton.mp hmem
      injection heq with _ _ hinfo
      exact MemoryBlockInfo.describes (by rw [hinfo]) hmax
  obtain ⟨n, hn⟩ :=
    (h (linkingActions id) 0 uplinkName hinfos block hblock hname).requests none
      fun _ => []
  rw [block.generateDelMblkRequest_flatten, hrequests] at hn
  have hnamed : osShort id ∈ List.replicate n (id : ℤ) := by
    have hmem : osShort id ∈ ([] : List ℤ) ++ List.replicate n (id : ℤ) := by
      rw [← List.flatten_nil, ← hn]
      simp
    simpa using hmem
  have heq := List.eq_of_mem_replicate hnamed
  have := osShort_le id
  omega

/-- What is sent about a block addresses it exactly if its identifier fits the
`os_short` in which the other end keeps it. -/
theorem block_addressing_iff {id : ℕ} (hmin : minUniqueId ≤ id)
    (hmax : id < 0x100000000) : AddressingWorks id ↔ id ≤ 0x7FFF := by
  constructor
  · intro h
    by_contra hlt
    exact not_addressing_of_lt (by omega) hmax h
  · exact addressing_of_le hmin

theorem block_addressing_iff_first :
    AddressingWorks minUniqueId ↔ minUniqueId ≤ 0x7FFF :=
  block_addressing_iff le_rfl (by decide)

/-- Not every identifier which is handed out works: 32768 is one of them. -/
theorem block_addressing_fails :
    ¬∀ root, Root.ReachedBy (fun _ _ => True) root →
      ∀ draws, AddressingWorks (root.getUniqueMblkId draws) := by
  intro hall
  obtain ⟨root, hrun, hid⟩ := @every_identifier_is_handed_out 0x8000 (by decide)
    (by decide) ⟨uplinkName, false, ⟨false, true, false, false, false⟩, 24, none⟩
  have hworks := hall root hrun []
  rw [hid] at hworks
  exact not_addressing_of_lt (by decide) (by decide) hworks

end Iocom
