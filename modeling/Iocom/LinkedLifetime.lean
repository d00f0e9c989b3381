import Iocom.LinkedTables

/-!
# No dangling pointers

In every state which is reached, the lists of the root, of connections and of memory blocks
are well formed, what points to an object points to one which is alive, and the loops which
release objects end.
-/

namespace Iocom

open PointerChain LinkedList LoopFuel

/-- The objects which are alive, in the order of the lists of the root, and buffers in the
order in which they were created. -/
structure LinkedObjects where
  cons : List ℕ
  mblks : List ℕ
  sbufs : List ℕ
  tbufs : List ℕ

namespace LinkedRoot

structure Joined (s : LinkedRoot) (o : LinkedObjects) : Prop where
  con : Holds s.conLink s.con o.cons
  mblk : Holds s.mblkLink s.mblk o.mblks
  isCon : ∀ c, s.isCon c = true ↔ c ∈ o.cons
  isMblk : ∀ m, s.isMblk m = true ↔ m ∈ o.mblks
  sbuf : s.sbuf.Linked o.cons o.mblks o.sbufs
  tbuf : s.tbuf.Linked o.cons o.mblks o.tbufs
  sbufCurrent : ∀ c ∈ o.cons, ∀ b, s.sbufCurrent c = some b → b ∈ nodesOf s.sbuf.con c o.sbufs
  currentMblk : ∀ c ∈ o.cons, ∀ m, s.currentMblk c = some m → m ∈ o.mblks
  currentCloudMblk : ∀ c ∈ o.cons, ∀ m, s.currentCloudMblk c = some m → m ∈ o.mblks

/-- No cursor of the connection stands on the block. -/
def Avoids (s : LinkedRoot) (mblk con : ℕ) : Prop :=
  s.currentMblk con ≠ some mblk ∧ s.currentCloudMblk con ≠ some mblk

namespace Joined

variable {s : LinkedRoot} {o : LinkedObjects} {con mblk buf : ℕ} {cursor : Option ℕ}

/-! ## Cursors -/

theorem setCurrentMblk (h : s.Joined o) (con : ℕ) (hcursor : ∀ m, cursor = some m → m ∈ o.mblks) :
    { s with currentMblk := Function.update s.currentMblk con cursor }.Joined o where
  con := h.con
  mblk := h.mblk
  isCon := h.isCon
  isMblk := h.isMblk
  sbuf := h.sbuf
  tbuf := h.tbuf
  sbufCurrent := h.sbufCurrent
  currentCloudMblk := h.currentCloudMblk
  currentMblk c hc m hm := by
    dsimp only at hm
    rcases eq_or_ne c con with rfl | hne
    · rw [Function.update_self] at hm
      exact hcursor m hm
    · rw [Function.update_of_ne hne] at hm
      exact h.currentMblk c hc m hm

theorem setCurrentCloudMblk (h : s.Joined o) (con : ℕ)
    (hcursor : ∀ m, cursor = some m → m ∈ o.mblks) :
    { s with currentCloudMblk := Function.update s.currentCloudMblk con cursor }.Joined o where
  con := h.con
  mblk := h.mblk
  isCon := h.isCon
  isMblk := h.isMblk
  sbuf := h.sbuf
  tbuf := h.tbuf
  sbufCurrent := h.sbufCurrent
  currentMblk := h.currentMblk
  currentCloudMblk c hc m hm := by
    dsimp only at hm
    rcases eq_or_ne c con with rfl | hne
    · rw [Function.update_self] at hm
      exact hcursor m hm
    · rw [Function.update_of_ne hne] at hm
      exact h.currentCloudMblk c hc m hm

theorem nextMblk (h : s.Joined o) (hmblk : mblk ∈ o.mblks) {m : ℕ}
    (hnext : s.mblkLink.next mblk = some m) : m ∈ o.mblks ∧ m ≠ mblk :=
  h.mblk.next_mem hmblk hnext

theorem addConToGlobalMbinfo (h : s.Joined o) (con : ℕ) :
    (s.addConToGlobalMbinfo con).Joined o := by
  have hfirst : ∀ m, s.mblk.first = some m → m ∈ o.mblks := by
    intro m hm
    rw [h.mblk.first_eq] at hm
    exact List.mem_of_head? hm
  unfold LinkedRoot.addConToGlobalMbinfo
  split_ifs
  · exact h.setCurrentMblk con hfirst
  · exact h.setCurrentCloudMblk con hfirst
  · exact h

theorem mbinfoConIsClosed (h : s.Joined o) (con : ℕ) : (s.mbinfoConIsClosed con).Joined o :=
  (h.setCurrentMblk con (by simp)).setCurrentCloudMblk con (by simp)

theorem addMblkToMbinfo (h : s.Joined o) (hmblk : mblk ∈ o.mblks) (con : ℕ) :
    (LinkedRoot.addMblkToMbinfo mblk con s).Joined o := by
  have hsome : ∀ m, some mblk = some m → m ∈ o.mblks := fun m hm => Option.some.inj hm ▸ hmblk
  unfold LinkedRoot.addMblkToMbinfo
  split_ifs
  · exact h
  · exact h
  · exact h.setCurrentMblk con hsome
  · exact h
  · exact h.setCurrentCloudMblk con hsome
  · exact h

theorem setTables (h : s.Joined o) {sbuf tbuf : BufferTable}
    (hsbuf : sbuf.Linked o.cons o.mblks o.sbufs) (hsbufCon : sbuf.con = s.sbuf.con)
    (htbuf : tbuf.Linked o.cons o.mblks o.tbufs) :
    { s with sbuf := sbuf, tbuf := tbuf }.Joined o where
  con := h.con
  mblk := h.mblk
  isCon := h.isCon
  isMblk := h.isMblk
  sbuf := hsbuf
  tbuf := htbuf
  sbufCurrent c hc b hb := by
    rw [hsbufCon]
    exact h.sbufCurrent c hc b hb
  currentMblk := h.currentMblk
  currentCloudMblk := h.currentCloudMblk

theorem mbinfoSent (h : s.Joined o) (hcon : con ∈ o.cons) (hmblk : mblk ∈ o.mblks) :
    (s.mbinfoSent con mblk).Joined o := by
  have hnext : ∀ m, s.mblkLink.next mblk = some m → m ∈ o.mblks :=
    fun m hm => (h.nextMblk hmblk hm).1
  have hsbuf := h.sbuf.mbinfoSent hcon mblk
  have htbuf := h.tbuf.mbinfoSent hcon mblk
  have hsame := BufferTable.Linked.mbinfoSent_con s.sbuf con mblk
  unfold LinkedRoot.mbinfoSent
  split_ifs
  · exact h.setCurrentMblk con hnext
  · exact (h.setCurrentCloudMblk con hnext).setTables hsbuf hsame htbuf
  · exact h.setTables hsbuf hsame htbuf

theorem getMbinfoToSend2 (h : s.Joined o) (hcon : con ∈ o.cons)
    (hmblk : s.getMbinfoToSend2 con = some mblk) : mblk ∈ o.mblks := by
  unfold LinkedRoot.getMbinfoToSend2 at hmblk
  split_ifs at hmblk
  · exact h.currentMblk con hcon mblk hmblk
  · rw [Option.or_eq_some_iff, Option.or_eq_some_iff, Option.map_eq_some_iff,
      Option.map_eq_some_iff] at hmblk
    rcases hmblk with hmblk | ⟨-, ⟨b, hb, rfl⟩ | ⟨-, b, hb, rfl⟩⟩
    · exact h.currentCloudMblk con hcon mblk hmblk
    · exact h.sbuf.byMblk.owned b (mem_nodesOf.mp (h.sbuf.mbinfoDown con hcon b hb)).1
    · exact h.tbuf.byMblk.owned b (mem_nodesOf.mp (h.tbuf.mbinfoDown con hcon b hb)).1

theorem sentFrom (h : s.Joined o) (hbuf : buf ∈ o.sbufs) : (s.sentFrom buf).Joined o where
  con := h.con
  mblk := h.mblk
  isCon := h.isCon
  isMblk := h.isMblk
  sbuf := h.sbuf
  tbuf := h.tbuf
  currentMblk := h.currentMblk
  currentCloudMblk := h.currentCloudMblk
  sbufCurrent c hc b hb := by
    dsimp only [LinkedRoot.sentFrom] at hb ⊢
    rcases eq_or_ne c (s.sbuf.con buf) with rfl | hne
    · rw [Function.update_self] at hb
      obtain ⟨hmem, hown, -⟩ := h.sbuf.byCon.next_mem hbuf hb
      exact mem_nodesOf.mpr ⟨hmem, hown⟩
    · rw [Function.update_of_ne hne] at hb
      exact h.sbufCurrent c hc b hb

/-! ## Buffers -/

theorem initializeSourceBuffer (h : s.Joined o) (hbuf : buf ∉ o.sbufs) (hcon : con ∈ o.cons)
    (hmblk : mblk ∈ o.mblks) (bidirectional : Bool) :
    (s.initializeSourceBuffer buf con mblk bidirectional).Joined
      { o with sbufs := o.sbufs ++ [buf] } where
  con := h.con
  mblk := h.mblk
  isCon := h.isCon
  isMblk := h.isMblk
  sbuf := h.sbuf.initializeBuffer hbuf hcon hmblk bidirectional
  tbuf := h.tbuf
  currentMblk := h.currentMblk
  currentCloudMblk := h.currentCloudMblk
  sbufCurrent c hc b hb := by
    obtain ⟨hmem, hown⟩ := mem_nodesOf.mp (h.sbufCurrent c hc b hb)
    rw [mem_nodesOf]
    exact ⟨List.mem_append_left _ hmem,
      (Function.update_of_ne (ne_of_mem_of_not_mem hmem hbuf) ..).trans hown⟩

theorem initializeTargetBuffer (h : s.Joined o) (hbuf : buf ∉ o.tbufs) (hcon : con ∈ o.cons)
    (hmblk : mblk ∈ o.mblks) (bidirectional : Bool) :
    (s.initializeTargetBuffer buf con mblk bidirectional).Joined
      { o with tbufs := o.tbufs ++ [buf] } where
  con := h.con
  mblk := h.mblk
  isCon := h.isCon
  isMblk := h.isMblk
  sbuf := h.sbuf
  tbuf := h.tbuf.initializeBuffer hbuf hcon hmblk bidirectional
  currentMblk := h.currentMblk
  currentCloudMblk := h.currentCloudMblk
  sbufCurrent := h.sbufCurrent

theorem releaseSourceBuffer (h : s.Joined o) (hbuf : buf ∈ o.sbufs) :
    (s.releaseSourceBuffer buf).Joined { o with sbufs := o.sbufs.erase buf } where
  con := h.con
  mblk := h.mblk
  isCon := h.isCon
  isMblk := h.isMblk
  sbuf := h.sbuf.releaseBuffer hbuf
  tbuf := h.tbuf
  currentMblk := h.currentMblk
  currentCloudMblk := h.currentCloudMblk
  sbufCurrent c hc b hb := by
    have hkept : s.sbufCurrent c = some b ∧ b ≠ buf := by
      dsimp only [LinkedRoot.releaseSourceBuffer] at hb
      split_ifs at hb with hcurrent
      · rcases eq_or_ne c (s.sbuf.con buf) with rfl | hne
        · rw [Function.update_self] at hb
          cases hb
        · rw [Function.update_of_ne hne] at hb
          refine ⟨hb, ?_⟩
          rintro rfl
          exact hne (mem_nodesOf.mp (h.sbufCurrent c hc b hb)).2.symm
      · refine ⟨hb, ?_⟩
        rintro rfl
        rw [(mem_nodesOf.mp (h.sbufCurrent c hc b hb)).2] at hcurrent
        exact hcurrent hb
    obtain ⟨hmem, hown⟩ := mem_nodesOf.mp (h.sbufCurrent c hc b hkept.1)
    rw [mem_nodesOf]
    exact ⟨(List.mem_erase_of_ne hkept.2).mpr hmem, hown⟩

theorem releaseTargetBuffer (h : s.Joined o) (hbuf : buf ∈ o.tbufs) :
    (s.releaseTargetBuffer buf).Joined { o with tbufs := o.tbufs.erase buf } where
  con := h.con
  mblk := h.mblk
  isCon := h.isCon
  isMblk := h.isMblk
  sbuf := h.sbuf
  tbuf := h.tbuf.releaseBuffer hbuf
  currentMblk := h.currentMblk
  currentCloudMblk := h.currentCloudMblk
  sbufCurrent := h.sbufCurrent

/-! ## Memory blocks and connections -/

theorem unlinkMemoryBlock (h : s.Joined o) (hmblk : mblk ∈ o.mblks)
    (havoids : ∀ c ∈ o.cons, s.Avoids mblk c) (hsbuf : (s.sbuf.ofMblk mblk).first = none)
    (htbuf : (s.tbuf.ofMblk mblk).first = none) :
    (s.unlinkMemoryBlock mblk).Joined { o with mblks := o.mblks.erase mblk } where
  con := h.con
  mblk := (h.mblk.unlink hmblk).clear h.mblk.nodup.not_mem_erase
  isCon := h.isCon
  isMblk m := by
    dsimp only [LinkedRoot.unlinkMemoryBlock, clearMblk]
    rcases eq_or_ne m mblk with rfl | hne
    · simpa using h.mblk.nodup.not_mem_erase
    · rw [Function.update_of_ne hne, List.mem_erase_of_ne hne, h.isMblk]
  sbuf := h.sbuf.removeMblk h.mblk.nodup hsbuf hmblk
  tbuf := h.tbuf.removeMblk h.mblk.nodup htbuf hmblk
  sbufCurrent := h.sbufCurrent
  currentMblk c hc m hm := by
    have hne : m ≠ mblk := fun heq => (havoids c hc).1 (heq ▸ hm)
    exact (List.mem_erase_of_ne hne).mpr (h.currentMblk c hc m hm)
  currentCloudMblk c hc m hm := by
    have hne : m ≠ mblk := fun heq => (havoids c hc).2 (heq ▸ hm)
    exact (List.mem_erase_of_ne hne).mpr (h.currentCloudMblk c hc m hm)

theorem linkMemoryBlock (h : s.Joined o) (hmblk : mblk ∉ o.mblks) (handle : Handle)
    (flags : LinkedFlags) :
    (s.linkMemoryBlock handle mblk flags).Joined { o with mblks := o.mblks ++ [mblk] } where
  con := h.con
  mblk := (h.mblk.clear hmblk).join hmblk (Function.update_self ..)
  isCon := h.isCon
  isMblk m := by
    dsimp only [LinkedRoot.linkMemoryBlock, clearMblk]
    rcases eq_or_ne m mblk with rfl | hne
    · simp
    · simp [hne, h.isMblk]
  sbuf := h.sbuf.addMblk hmblk
  tbuf := h.tbuf.addMblk hmblk
  sbufCurrent := h.sbufCurrent
  currentMblk c hc m hm := List.mem_append_left _ (h.currentMblk c hc m hm)
  currentCloudMblk c hc m hm := List.mem_append_left _ (h.currentCloudMblk c hc m hm)

theorem unlinkConnection (h : s.Joined o) (hcon : con ∈ o.cons)
    (hsbuf : (s.sbuf.ofCon con).first = none) (htbuf : (s.tbuf.ofCon con).first = none) :
    (s.unlinkConnection con).Joined { o with cons := o.cons.erase con } := by
  have hother : ∀ c ∈ o.cons.erase con, c ∈ o.cons ∧ c ≠ con := by
    intro c hc
    exact ⟨List.mem_of_mem_erase hc, fun heq => h.con.nodup.not_mem_erase (heq ▸ hc)⟩
  refine ⟨(h.con.unlink hcon).clear h.con.nodup.not_mem_erase, h.mblk, fun c => ?_, h.isMblk,
    h.sbuf.removeCon h.con.nodup hsbuf hcon, h.tbuf.removeCon h.con.nodup htbuf hcon,
    fun c hc b hb => ?_, fun c hc m hm => ?_, fun c hc m hm => ?_⟩
  · dsimp only [LinkedRoot.unlinkConnection, clearCon]
    rcases eq_or_ne c con with rfl | hne
    · simpa using h.con.nodup.not_mem_erase
    · rw [Function.update_of_ne hne, List.mem_erase_of_ne hne, h.isCon]
  all_goals
    obtain ⟨hmem, hne⟩ := hother c hc
    dsimp only [LinkedRoot.unlinkConnection, clearCon] at *
  · rw [Function.update_of_ne hne] at hb
    exact h.sbufCurrent c hmem b hb
  · rw [Function.update_of_ne hne] at hm
    exact h.currentMblk c hmem m hm
  · rw [Function.update_of_ne hne] at hm
    exact h.currentCloudMblk c hmem m hm

theorem initializeConnection (h : s.Joined o) (hcon : con ∉ o.cons) :
    (s.initializeConnection con).Joined { o with cons := o.cons ++ [con] } := by
  refine ⟨(h.con.clear hcon).join hcon (Function.update_self ..), h.mblk, fun c => ?_, h.isMblk,
    h.sbuf.addCon hcon, h.tbuf.addCon hcon, fun c hc b hb => ?_, fun c hc m hm => ?_,
    fun c hc m hm => ?_⟩
  · dsimp only [LinkedRoot.initializeConnection, clearCon]
    rcases eq_or_ne c con with rfl | hne
    · simp
    · simp [hne, h.isCon]
  all_goals
    dsimp only [LinkedRoot.initializeConnection, clearCon] at *
    rcases eq_or_ne c con with rfl | hne
  · rw [Function.update_self] at hb
    cases hb
  · rw [Function.update_of_ne hne] at hb
    exact h.sbufCurrent c (by simpa [hne] using hc) b hb
  · rw [Function.update_self] at hm
    cases hm
  · rw [Function.update_of_ne hne] at hm
    exact h.currentMblk c (by simpa [hne] using hc) m hm
  · rw [Function.update_self] at hm
    cases hm
  · rw [Function.update_of_ne hne] at hm
    exact h.currentCloudMblk c (by simpa [hne] using hc) m hm

/-! ## Loops over connections -/

theorem addMblkToGlobalMbinfo (h : s.Joined o) (hmblk : mblk ∈ o.mblks) :
    Settles (fun fuel => s.addMblkToGlobalMbinfo fuel mblk)
      fun s' => s'.Joined o ∧ s'.handles = s.handles := by
  unfold LinkedRoot.addMblkToGlobalMbinfo
  rw [h.con.first_eq]
  refine (forEach_settles (fun left s' => (s'.Joined o ∧ s'.handles = s.handles) ∧
    ∃ before, o.cons = before ++ left) ?_ ?_ ⟨⟨h, rfl⟩, [], rfl⟩).imp fun s' hs' => hs'.1
  · rintro c left s' ⟨⟨hs', -⟩, before, hsplit⟩
    have hcon := hs'.con
    rw [hsplit] at hcon
    exact hcon.next_eq
  · rintro c left s' ⟨⟨hs', hhandles⟩, before, hsplit⟩
    refine ⟨⟨hs'.addMblkToMbinfo hmblk c, ?_⟩, before ++ [c], by simpa using hsplit⟩
    rw [← hhandles]
    unfold LinkedRoot.addMblkToMbinfo
    split_ifs <;> rfl

theorem mblkIsDeletedFrom (h : s.Joined o) (hmblk : mblk ∈ o.mblks) (con : ℕ) :
    (LinkedRoot.mblkIsDeletedFrom mblk con s).Joined o := by
  have hnext : ∀ m, s.mblkLink.next mblk = some m → m ∈ o.mblks :=
    fun m hm => (h.nextMblk hmblk hm).1
  unfold LinkedRoot.mblkIsDeletedFrom
  split_ifs
  · exact (h.setCurrentMblk con hnext).setCurrentCloudMblk con hnext
  · exact h.setCurrentMblk con hnext
  · exact h.setCurrentCloudMblk con hnext
  · exact h

/-- The cursors of a connection leave the block, and those of others do not come to it. -/
theorem mblkIsDeletedFrom_avoids (h : s.Joined o) (hmblk : mblk ∈ o.mblks) {c : ℕ}
    (hc : c = con ∨ s.Avoids mblk c) : (LinkedRoot.mblkIsDeletedFrom mblk con s).Avoids mblk c := by
  have hnext : s.mblkLink.next mblk ≠ some mblk := fun hnext => (h.nextMblk hmblk hnext).2 rfl
  have hcursor : ∀ cursor : ℕ → Option ℕ, c = con ∨ cursor c ≠ some mblk →
      (if cursor con = some mblk then Function.update cursor con (s.mblkLink.next mblk)
        else cursor) c ≠ some mblk := by
    intro cursor hcursor
    split_ifs with hstands
    · rcases eq_or_ne c con with rfl | hne
      · rwa [Function.update_self]
      · rw [Function.update_of_ne hne]
        exact hcursor.resolve_left hne
    · rcases hcursor with rfl | hcursor
      · exact hstands
      · exact hcursor
  exact ⟨hcursor s.currentMblk (hc.imp_right And.left),
    hcursor s.currentCloudMblk (hc.imp_right And.right)⟩

theorem mbinfoMblkIsDeleted (h : s.Joined o) (hmblk : mblk ∈ o.mblks) :
    Settles (fun fuel => s.mbinfoMblkIsDeleted fuel mblk) fun s' =>
      s'.Joined o ∧ s'.handles = s.handles ∧ s'.sbuf.con = s.sbuf.con ∧
        ∀ c ∈ o.cons, s'.Avoids mblk c := by
  unfold LinkedRoot.mbinfoMblkIsDeleted
  rw [h.con.first_eq]
  refine (forEach_settles (fun left s' => s'.Joined o ∧ s'.handles = s.handles ∧
    s'.sbuf.con = s.sbuf.con ∧ ∃ before, o.cons = before ++ left ∧
      ∀ c ∈ before, s'.Avoids mblk c) ?_ ?_ ⟨h, rfl, rfl, [], rfl, by simp⟩).imp ?_
  · rintro c left s' ⟨hs', -, -, before, hsplit, -⟩
    have hcon := hs'.con
    rw [hsplit] at hcon
    exact hcon.next_eq
  · rintro c left s' ⟨hs', hhandles, hsbuf, before, hsplit, havoids⟩
    refine ⟨hs'.mblkIsDeletedFrom hmblk c, hhandles, hsbuf, before ++ [c],
      by simpa using hsplit, fun c' hc' => hs'.mblkIsDeletedFrom_avoids hmblk ?_⟩
    rcases List.mem_append.mp hc' with hc' | hc'
    · exact .inr (havoids c' hc')
    · exact .inl (List.mem_singleton.mp hc')
  · rintro s' ⟨hs', hhandles, hsbuf, before, hsplit, havoids⟩
    rw [List.append_nil] at hsplit
    exact ⟨hs', hhandles, hsbuf, hsplit ▸ havoids⟩

end Joined

/-! ## Releasing memory blocks -/

structure Intact (s : LinkedRoot) (o : LinkedObjects) (rings : ℕ → List Handle) : Prop where
  joined : s.Joined o
  handles : s.handles.Linked o.mblks rings

structure Reduced (s : LinkedRoot) (o : LinkedObjects) (s' : LinkedRoot) (o' : LinkedObjects) :
    Prop where
  cons : o'.cons = o.cons
  sbufs : o'.sbufs.Sublist o.sbufs
  tbufs : o'.tbufs.Sublist o.tbufs
  sbufCon : s'.sbuf.con = s.sbuf.con

theorem Reduced.refl (s : LinkedRoot) (o : LinkedObjects) : Reduced s o s o :=
  ⟨rfl, .refl _, .refl _, rfl⟩

theorem Reduced.trans {s s₁ s₂ : LinkedRoot} {o o₁ o₂ : LinkedObjects} (h : Reduced s o s₁ o₁)
    (h' : Reduced s₁ o₁ s₂ o₂) : Reduced s o s₂ o₂ :=
  ⟨h'.cons.trans h.cons, h'.sbufs.trans h.sbufs, h'.tbufs.trans h.tbufs,
    h'.sbufCon.trans h.sbufCon⟩

structure Emptied (s : LinkedRoot) (o : LinkedObjects) (mblk : ℕ) (s' : LinkedRoot)
    (o' : LinkedObjects) : Prop where
  joined : s'.Joined o'
  reduced : Reduced s o s' o'
  mblks : o'.mblks = o.mblks
  handles : s'.handles = s.handles
  avoids : ∀ c ∈ o'.cons, s'.Avoids mblk c

theorem releaseSourceBuffersOf_settles {s s₁ : LinkedRoot} {o o₁ : LinkedObjects} {mblk : ℕ}
    (hmblk : mblk ∈ o.mblks) (h : Emptied s o mblk s₁ o₁) :
    Settles (fun fuel => s₁.releaseSourceBuffersOf fuel mblk) fun s' =>
      (∃ o', Emptied s o mblk s' o') ∧ (s'.sbuf.ofMblk mblk).first = none := by
  unfold releaseSourceBuffersOf
  refine (whileSome_settles (fun rank s' => ∃ o', Emptied s o mblk s' o' ∧
    o'.sbufs.length = rank) ?_ ⟨o₁, h, rfl⟩).imp ?_
  · rintro rank s' sbuf ⟨o', hs', rfl⟩ hfirst
    have hmem := (hs'.joined.sbuf.byMblk.first_mem (hs'.mblks ▸ hmblk) hfirst).1
    refine .of_eq (fun _ => rfl) ⟨_, ?_, _, ⟨hs'.joined.releaseSourceBuffer hmem, ?_, hs'.mblks,
      hs'.handles, hs'.avoids⟩, rfl⟩
    · have hlength := List.length_erase_of_mem hmem
      have hpos := List.length_pos_of_mem hmem
      dsimp only
      omega
    · exact hs'.reduced.trans ⟨rfl, List.erase_sublist, .refl _, rfl⟩
  · rintro s' ⟨⟨rank, o', hs', -⟩, hfirst⟩
    exact ⟨⟨o', hs'⟩, hfirst⟩

theorem releaseTargetBuffersOf_settles {s s₁ : LinkedRoot} {o o₁ : LinkedObjects} {mblk : ℕ}
    (hmblk : mblk ∈ o.mblks) (h : Emptied s o mblk s₁ o₁)
    (hsbuf : (s₁.sbuf.ofMblk mblk).first = none) :
    Settles (fun fuel => s₁.releaseTargetBuffersOf fuel mblk) fun s' =>
      (∃ o', Emptied s o mblk s' o') ∧ (s'.sbuf.ofMblk mblk).first = none ∧
        (s'.tbuf.ofMblk mblk).first = none := by
  unfold releaseTargetBuffersOf
  refine (whileSome_settles (fun rank s' => ∃ o', Emptied s o mblk s' o' ∧
    (s'.sbuf.ofMblk mblk).first = none ∧ o'.tbufs.length = rank) ?_ ⟨o₁, h, hsbuf, rfl⟩).imp ?_
  · rintro rank s' tbuf ⟨o', hs', hsbuf', rfl⟩ hfirst
    have hmem := (hs'.joined.tbuf.byMblk.first_mem (hs'.mblks ▸ hmblk) hfirst).1
    refine .of_eq (fun _ => rfl) ⟨_, ?_, _, ⟨hs'.joined.releaseTargetBuffer hmem, ?_, hs'.mblks,
      hs'.handles, hs'.avoids⟩, hsbuf', rfl⟩
    · have hlength := List.length_erase_of_mem hmem
      have hpos := List.length_pos_of_mem hmem
      dsimp only
      omega
    · exact hs'.reduced.trans ⟨rfl, .refl _, List.erase_sublist, rfl⟩
  · rintro s' ⟨⟨rank, o', hs', hsbuf', -⟩, hfirst⟩
    exact ⟨⟨o', hs'⟩, hsbuf', hfirst⟩

theorem releaseMemoryBlock_own {s : LinkedRoot} {o : LinkedObjects} {rings : ℕ → List Handle}
    (h : s.Intact o rings) {handle : Handle} {mblk : ℕ}
    (hhandle : s.handles.mblk handle = some mblk) :
    Settles (fun fuel => s.releaseMemoryBlock fuel handle) fun s' =>
      ∃ o', Reduced s o s' o' ∧ s'.Intact o' rings ∧ o'.mblks = o.mblks.erase mblk := by
  have hmblk := h.handles.alive handle mblk hhandle
  have hlock : s.handles.lockToMblk handle = some mblk := by
    rw [HandleTable.lockToMblk, if_pos (h.handles.rooted handle mblk hhandle), hhandle]
  unfold releaseMemoryBlock
  rw [hlock]
  refine (h.joined.mbinfoMblkIsDeleted hmblk).bind ?_
  rintro s₁ ⟨hs₁, hhandles, hsbufCon, havoids⟩
  rw [hhandles]
  refine (h.handles.terminateHandles hmblk).bind fun handles hterminated => ?_
  have hstart : Emptied { s with handles := handles } o mblk { s₁ with handles := handles } o :=
    ⟨⟨hs₁.con, hs₁.mblk, hs₁.isCon, hs₁.isMblk, hs₁.sbuf, hs₁.tbuf, hs₁.sbufCurrent,
      hs₁.currentMblk, hs₁.currentCloudMblk⟩, ⟨rfl, .refl _, .refl _, hsbufCon⟩, rfl, rfl, havoids⟩
  refine (releaseSourceBuffersOf_settles hmblk hstart).bind ?_
  rintro s₂ ⟨⟨o₂, hs₂⟩, hsbuf₂⟩
  refine (releaseTargetBuffersOf_settles hmblk hs₂ hsbuf₂).bind ?_
  rintro s₃ ⟨⟨o₃, hs₃⟩, hsbuf₃, htbuf₃⟩
  have hmblk₃ : mblk ∈ o₃.mblks := hs₃.mblks ▸ hmblk
  have herase : o₃.mblks.erase mblk = o.mblks.erase mblk := by rw [hs₃.mblks]
  refine .of_eq (fun _ => rfl) ⟨{ o₃ with mblks := o₃.mblks.erase mblk },
    ⟨hs₃.reduced.cons, hs₃.reduced.sbufs, hs₃.reduced.tbufs, hs₃.reduced.sbufCon⟩,
    ⟨hs₃.joined.unlinkMemoryBlock hmblk₃ hs₃.avoids hsbuf₃ htbuf₃, ?_⟩, herase⟩
  have hgone := h.handles.removeMblk h.joined.mblk.nodup hmblk hterminated
  dsimp only [unlinkMemoryBlock, clearMblk]
  rw [hs₃.handles, herase]
  exact hgone

theorem releaseMemoryBlock_settles {s : LinkedRoot} {o : LinkedObjects} {rings : ℕ → List Handle}
    (h : s.Intact o rings) (handle : Handle) :
    Settles (fun fuel => s.releaseMemoryBlock fuel handle) fun s' =>
      ∃ o', Reduced s o s' o' ∧ s'.Intact o' rings := by
  cases hhandle : s.handles.mblk handle with
  | some mblk =>
      refine (releaseMemoryBlock_own h hhandle).imp ?_
      rintro s' ⟨o', hreduced, hs', -⟩
      exact ⟨o', hreduced, hs'⟩
  | none =>
      have hlock : s.handles.lockToMblk handle = none := by
        unfold HandleTable.lockToMblk
        split_ifs
        · exact hhandle
        · rfl
      unfold releaseMemoryBlock
      rw [hlock]
      exact .of_eq (fun _ => rfl) ⟨o, .refl s o, h⟩

/-! ## Closing connections -/

theorem findNode_settles {e : Ends ℕ} {l : Links ℕ} {nodes : List ℕ}
    (h : Holds l e nodes) (good : ℕ → Bool) :
    Settles (fun fuel => findNode l.next good fuel none e.first) fun _ => True := by
  obtain ⟨found, hfound⟩ := @findNode_ends _ l.next good nodes e.first h.forward none
  exact ⟨found, trivial, nodes.length + 1, fun fuel hfuel => hfound fuel hfuel⟩

theorem releaseDynamicMblkIfNotAttached_settles {s : LinkedRoot} {o : LinkedObjects}
    {rings : ℕ → List Handle} (h : s.Intact o rings) {mblk : ℕ} (hmblk : mblk ∈ o.mblks)
    (con : ℕ) :
    Settles (fun fuel => s.releaseDynamicMblkIfNotAttached fuel mblk con) fun s' =>
      ∃ o', Reduced s o s' o' ∧ s'.Intact o' rings := by
  have hsame : ∃ o', Reduced s o s o' ∧ s.Intact o' rings := ⟨o, .refl s o, h⟩
  unfold releaseDynamicMblkIfNotAttached
  split_ifs
  · exact .of_eq (fun _ => rfl) hsame
  · refine (findNode_settles (h.joined.sbuf.byMblk.holds mblk hmblk) _).bind fun found _ => ?_
    cases found with
    | some _ => exact .of_eq (fun _ => rfl) hsame
    | none =>
        refine (findNode_settles (h.joined.tbuf.byMblk.holds mblk hmblk) _).bind fun found _ => ?_
        cases found with
        | some _ => exact .of_eq (fun _ => rfl) hsame
        | none => exact releaseMemoryBlock_settles h _

theorem freeSourceBufs_settles {s : LinkedRoot} {o : LinkedObjects} {rings : ℕ → List Handle}
    (h : s.Intact o rings) {con : ℕ} (hcon : con ∈ o.cons) :
    Settles (fun fuel => s.freeSourceBufs fuel con) fun s' =>
      ∃ o', Reduced s o s' o' ∧ s'.Intact o' rings ∧ nodesOf s'.sbuf.con con o'.sbufs = [] := by
  unfold freeSourceBufs
  refine (whileSome_settles (fun rank s' => ∃ o', Reduced s o s' o' ∧ s'.Intact o' rings ∧
    o'.sbufs.length = rank) ?_ ⟨o, .refl s o, h, rfl⟩).imp ?_
  · rintro rank s' sbuf ⟨o', hreduced, hs', rfl⟩ hfirst
    have hmem := (hs'.joined.sbuf.byCon.first_mem (hreduced.cons ▸ hcon) hfirst).1
    have hreleased : (s'.releaseSourceBuffer sbuf).Intact
        { o' with sbufs := o'.sbufs.erase sbuf } rings :=
      ⟨hs'.joined.releaseSourceBuffer hmem, hs'.handles⟩
    have hshorter : Reduced s' o' (s'.releaseSourceBuffer sbuf)
        { o' with sbufs := o'.sbufs.erase sbuf } :=
      ⟨rfl, List.erase_sublist, .refl _, rfl⟩
    refine (releaseDynamicMblkIfNotAttached_settles hreleased
      (hs'.joined.sbuf.byMblk.owned sbuf hmem) con).imp ?_
    rintro s'' ⟨o'', hreduced', hs''⟩
    refine ⟨_, ?_, o'', (hreduced.trans hshorter).trans hreduced', hs'', rfl⟩
    have hlength := List.length_erase_of_mem hmem
    have hpos := List.length_pos_of_mem hmem
    have hle := hreduced'.sbufs.length_le
    dsimp only at hle
    omega
  · rintro s' ⟨⟨rank, o', hreduced, hs', -⟩, hfirst⟩
    refine ⟨o', hreduced, hs', ?_⟩
    rw [(hs'.joined.sbuf.byCon.holds con (hreduced.cons ▸ hcon)).first_eq] at hfirst
    exact List.head?_eq_none_iff.mp hfirst

theorem freeTargetBufs_settles {s : LinkedRoot} {o : LinkedObjects} {rings : ℕ → List Handle}
    (h : s.Intact o rings) {con : ℕ} (hcon : con ∈ o.cons) :
    Settles (fun fuel => s.freeTargetBufs fuel con) fun s' =>
      ∃ o', Reduced s o s' o' ∧ s'.Intact o' rings ∧ (s'.tbuf.ofCon con).first = none := by
  unfold freeTargetBufs
  refine (whileSome_settles (fun rank s' => ∃ o', Reduced s o s' o' ∧ s'.Intact o' rings ∧
    o'.tbufs.length = rank) ?_ ⟨o, .refl s o, h, rfl⟩).imp ?_
  · rintro rank s' tbuf ⟨o', hreduced, hs', rfl⟩ hfirst
    have hmem := (hs'.joined.tbuf.byCon.first_mem (hreduced.cons ▸ hcon) hfirst).1
    have hreleased : (s'.releaseTargetBuffer tbuf).Intact
        { o' with tbufs := o'.tbufs.erase tbuf } rings :=
      ⟨hs'.joined.releaseTargetBuffer hmem, hs'.handles⟩
    have hshorter : Reduced s' o' (s'.releaseTargetBuffer tbuf)
        { o' with tbufs := o'.tbufs.erase tbuf } :=
      ⟨rfl, .refl _, List.erase_sublist, rfl⟩
    refine (releaseDynamicMblkIfNotAttached_settles hreleased
      (hs'.joined.tbuf.byMblk.owned tbuf hmem) con).imp ?_
    rintro s'' ⟨o'', hreduced', hs''⟩
    refine ⟨_, ?_, o'', (hreduced.trans hshorter).trans hreduced', hs'', rfl⟩
    have hlength := List.length_erase_of_mem hmem
    have hpos := List.length_pos_of_mem hmem
    have hle := hreduced'.tbufs.length_le
    dsimp only at hle
    omega
  · rintro s' ⟨⟨rank, o', hreduced, hs', -⟩, hfirst⟩
    exact ⟨o', hreduced, hs', hfirst⟩

theorem freeSourceAndTargetBufs_settles {s : LinkedRoot} {o : LinkedObjects}
    {rings : ℕ → List Handle} (h : s.Intact o rings) {con : ℕ} (hcon : con ∈ o.cons) :
    Settles (fun fuel => s.freeSourceAndTargetBufs fuel con) fun s' =>
      ∃ o', Reduced s o s' o' ∧ s'.Intact o' rings ∧ (s'.sbuf.ofCon con).first = none ∧
        (s'.tbuf.ofCon con).first = none := by
  unfold freeSourceAndTargetBufs
  refine (freeSourceBufs_settles h hcon).bind ?_
  rintro s₁ ⟨o₁, hreduced₁, hs₁, hnone⟩
  refine (freeTargetBufs_settles hs₁ (hreduced₁.cons ▸ hcon)).imp ?_
  rintro s₂ ⟨o₂, hreduced₂, hs₂, htbuf⟩
  refine ⟨o₂, hreduced₁.trans hreduced₂, hs₂, ?_, htbuf⟩
  -- releasing target buffers and blocks adds no source buffer
  have hcon₂ : con ∈ o₂.cons := (hreduced₁.trans hreduced₂).cons ▸ hcon
  have hsublist : (nodesOf s₂.sbuf.con con o₂.sbufs).Sublist [] := by
    rw [← hnone, hreduced₂.sbufCon]
    exact hreduced₂.sbufs.filter _
  rw [(hs₂.joined.sbuf.byCon.holds con hcon₂).first_eq, List.eq_nil_of_sublist_nil hsublist]
  rfl

theorem releaseConnection_settles {s : LinkedRoot} {o : LinkedObjects} {rings : ℕ → List Handle}
    (h : s.Intact o rings) {con : ℕ} (hcon : con ∈ o.cons) :
    Settles (fun fuel => s.releaseConnection fuel con) fun s' =>
      ∃ o', s'.Intact o' rings ∧ o'.cons = o.cons.erase con := by
  unfold releaseConnection
  have hclosed : (s.mbinfoConIsClosed con).Intact o rings :=
    ⟨h.joined.mbinfoConIsClosed con, h.handles⟩
  refine (freeSourceAndTargetBufs_settles hclosed hcon).bind ?_
  rintro s₁ ⟨o₁, hreduced, hs₁, hsbuf, htbuf⟩
  have hcon₁ : con ∈ o₁.cons := hreduced.cons ▸ hcon
  refine .of_eq (fun _ => rfl) ⟨_, ⟨hs₁.joined.unlinkConnection hcon₁ hsbuf htbuf, hs₁.handles⟩, ?_⟩
  rw [← hreduced.cons]

theorem dropConnection_settles {s : LinkedRoot} {o : LinkedObjects} {rings : ℕ → List Handle}
    (h : s.Intact o rings) {con : ℕ} (hcon : con ∈ o.cons) :
    Settles (fun fuel => s.dropConnection fuel con) fun s' => ∃ o', s'.Intact o' rings := by
  unfold dropConnection
  refine (freeSourceAndTargetBufs_settles h hcon).bind ?_
  rintro s₁ ⟨o₁, -, hs₁, -, -⟩
  exact .of_eq (fun _ => rfl) ⟨o₁, hs₁.joined.mbinfoConIsClosed con, hs₁.handles⟩

theorem releaseRoot_settles {s : LinkedRoot} {o : LinkedObjects} {rings : ℕ → List Handle}
    (h : s.Intact o rings) :
    Settles (fun fuel => s.releaseRoot fuel) fun s' => ∃ o', s'.Intact o' rings := by
  unfold releaseRoot
  refine (whileSome_settles (fun rank s' => ∃ o', s'.Intact o' rings ∧ o'.cons.length = rank) ?_
    ⟨o, h, rfl⟩).bind ?_
  · rintro rank s' con ⟨o', hs', rfl⟩ hfirst
    have hcon : con ∈ o'.cons := by
      rw [hs'.joined.con.first_eq] at hfirst
      exact List.mem_of_head? hfirst
    refine (releaseConnection_settles hs' hcon).imp ?_
    rintro s'' ⟨o'', hs'', herase⟩
    refine ⟨_, ?_, o'', hs'', rfl⟩
    have hpos := List.length_pos_of_mem hcon
    rw [herase, List.length_erase_of_mem hcon]
    omega
  · rintro s₁ ⟨⟨rank, o₁, hs₁, -⟩, -⟩
    refine (whileSome_settles (fun rank s' => ∃ o', s'.Intact o' rings ∧
      o'.mblks.length = rank) ?_ ⟨o₁, hs₁, rfl⟩).imp ?_
    · rintro rank s' mblk ⟨o', hs', rfl⟩ hfirst
      have hmblk : mblk ∈ o'.mblks := by
        rw [hs'.joined.mblk.first_eq] at hfirst
        exact List.mem_of_head? hfirst
      have hown : s'.handles.mblk (.own mblk) = some mblk :=
        (hs'.handles.pointing mblk hmblk _).mpr List.mem_cons_self
      refine (releaseMemoryBlock_own hs' hown).imp ?_
      rintro s'' ⟨o'', -, hs'', herase⟩
      refine ⟨_, ?_, o'', hs'', rfl⟩
      have hpos := List.length_pos_of_mem hmblk
      rw [herase, List.length_erase_of_mem hmblk]
      omega
    · rintro s' ⟨⟨rank, o', hs', -⟩, -⟩
      exact ⟨o', hs'⟩

end LinkedRoot

end Iocom
