import Iocom.LinkedObjects

/-!
# Buffers and handles stay linked

What each operation on the buffers and on the handles keeps: every buffer is in the list of
its connection and in the list of its memory block, and the handles which point to a memory
block are the ring of this block.
-/

namespace Iocom

open PointerChain LinkedList LoopFuel

/-! ## Buffers -/

structure BufferTable.Linked (t : BufferTable) (cons mblks bufs : List ℕ) : Prop where
  byCon : Filed t.clink t.ofCon t.con cons bufs
  byMblk : Filed t.mlink t.ofMblk t.mblk mblks bufs
  alive : ∀ b, t.isBuffer b = true ↔ b ∈ bufs
  mbinfoDown : ∀ c ∈ cons, ∀ b, t.mbinfoDown c = some b → b ∈ nodesOf t.con c bufs

namespace BufferTable.Linked

variable {t : BufferTable} {cons mblks bufs : List ℕ} {buf con mblk : ℕ}

theorem initializeBuffer (h : t.Linked cons mblks bufs) (hbuf : buf ∉ bufs) (hcon : con ∈ cons)
    (hmblk : mblk ∈ mblks) (bidirectional : Bool) :
    (t.initializeBuffer buf con mblk bidirectional).Linked cons mblks (bufs ++ [buf]) where
  byCon := (h.byCon.clear hbuf).join hbuf hcon (Function.update_self ..)
  byMblk := (h.byMblk.clear hbuf).join hbuf hmblk (Function.update_self ..)
  alive b := by
    rcases eq_or_ne b buf with rfl | hne
    · simp [BufferTable.initializeBuffer]
    · simp [BufferTable.initializeBuffer, hne, h.alive]
  mbinfoDown c hc b hb := by
    obtain ⟨hmem, hown⟩ := mem_nodesOf.mp (h.mbinfoDown c hc b hb)
    have hne := ne_of_mem_of_not_mem hmem hbuf
    rw [mem_nodesOf]
    exact ⟨List.mem_append_left _ hmem, (Function.update_of_ne hne ..).trans hown⟩

theorem releaseBuffer (h : t.Linked cons mblks bufs) (hbuf : buf ∈ bufs) :
    (t.releaseBuffer buf).Linked cons mblks (bufs.erase buf) where
  byCon := h.byCon.unlink hbuf
  byMblk := h.byMblk.unlink hbuf
  alive b := by
    rcases eq_or_ne b buf with rfl | hne
    · simpa [BufferTable.releaseBuffer] using h.byCon.nodup.not_mem_erase
    · simp [BufferTable.releaseBuffer, hne, h.alive, List.mem_erase_of_ne hne]
  mbinfoDown c hc b hb := by
    have hmem : b ∈ nodesOf t.con c bufs ∧ b ≠ buf := by
      dsimp only [BufferTable.releaseBuffer] at hb
      split_ifs at hb with hcursor
      · rcases eq_or_ne c (t.con buf) with rfl | hne
        · rw [Function.update_self] at hb
          obtain ⟨hmem, hown, hne⟩ := h.byCon.next_mem hbuf hb
          exact ⟨mem_nodesOf.mpr ⟨hmem, hown⟩, hne⟩
        · rw [Function.update_of_ne hne] at hb
          have hmem := h.mbinfoDown c hc b hb
          refine ⟨hmem, ?_⟩
          rintro rfl
          exact hne (mem_nodesOf.mp hmem).2.symm
      · have hmem := h.mbinfoDown c hc b hb
        refine ⟨hmem, ?_⟩
        rintro rfl
        rw [(mem_nodesOf.mp hmem).2] at hcursor
        exact hcursor hb
    obtain ⟨hnode, hne⟩ := hmem
    rw [mem_nodesOf] at hnode ⊢
    exact ⟨(List.mem_erase_of_ne hne).mpr hnode.1, hnode.2⟩

theorem addCon (h : t.Linked cons mblks bufs) (hcon : con ∉ cons) :
    (t.clearCon con).Linked (cons ++ [con]) mblks bufs where
  byCon := h.byCon.addOwner hcon
  byMblk := h.byMblk
  alive := h.alive
  mbinfoDown c hc b hb := by
    dsimp only [clearCon] at hb
    rcases eq_or_ne c con with rfl | hne
    · rw [Function.update_self] at hb
      cases hb
    · rw [Function.update_of_ne hne] at hb
      exact h.mbinfoDown c (by simpa [hne] using hc) b hb

theorem removeCon (h : t.Linked cons mblks bufs) (hcons : cons.Nodup)
    (hfirst : (t.ofCon con).first = none) (hcon : con ∈ cons) :
    (t.clearCon con).Linked (cons.erase con) mblks bufs where
  byCon := h.byCon.removeOwner hcons hfirst hcon
  byMblk := h.byMblk
  alive := h.alive
  mbinfoDown c hc b hb := by
    dsimp only [clearCon] at hb
    have hne : c ≠ con := fun heq => hcons.not_mem_erase (heq ▸ hc)
    rw [Function.update_of_ne hne] at hb
    exact h.mbinfoDown c (List.mem_of_mem_erase hc) b hb

theorem addMblk (h : t.Linked cons mblks bufs) (hmblk : mblk ∉ mblks) :
    (t.clearMblk mblk).Linked cons (mblks ++ [mblk]) bufs where
  byCon := h.byCon
  byMblk := h.byMblk.addOwner hmblk
  alive := h.alive
  mbinfoDown := h.mbinfoDown

theorem removeMblk (h : t.Linked cons mblks bufs) (hmblks : mblks.Nodup)
    (hfirst : (t.ofMblk mblk).first = none) (hmblk : mblk ∈ mblks) :
    (t.clearMblk mblk).Linked cons (mblks.erase mblk) bufs where
  byCon := h.byCon
  byMblk := h.byMblk.removeOwner hmblks hfirst hmblk
  alive := h.alive
  mbinfoDown := h.mbinfoDown

/-- `mbinfo_down` of a connection is set to one of its buffers, or to null. -/
theorem setMbinfoDown (h : t.Linked cons mblks bufs) {cursor : Option ℕ}
    (hcursor : ∀ b, cursor = some b → b ∈ nodesOf t.con con bufs) :
    { t with mbinfoDown := Function.update t.mbinfoDown con cursor }.Linked cons mblks bufs where
  byCon := h.byCon
  byMblk := h.byMblk
  alive := h.alive
  mbinfoDown c hc b hb := by
    dsimp only at hb
    rcases eq_or_ne c con with rfl | hne
    · rw [Function.update_self] at hb
      exact hcursor b hb
    · rw [Function.update_of_ne hne] at hb
      exact h.mbinfoDown c hc b hb

theorem mbinfoSent_con (t : BufferTable) (con mblk : ℕ) : (t.mbinfoSent con mblk).con = t.con := by
  unfold BufferTable.mbinfoSent
  split
  · rfl
  · split_ifs <;> rfl

theorem mbinfoSent (h : t.Linked cons mblks bufs) (hcon : con ∈ cons) (mblk : ℕ) :
    (t.mbinfoSent con mblk).Linked cons mblks bufs := by
  unfold BufferTable.mbinfoSent
  split
  · exact h
  · next buf hbuf =>
      split_ifs
      · obtain ⟨hmem, hown⟩ := mem_nodesOf.mp (h.mbinfoDown con hcon buf hbuf)
        refine h.setMbinfoDown fun b hb => ?_
        obtain ⟨hmem', hown', -⟩ := h.byCon.next_mem hmem hb
        exact mem_nodesOf.mpr ⟨hmem', hown'.trans hown⟩
      · exact h

end BufferTable.Linked

/-! ## Handles -/

/-- The handles which point to a block are its ring, and a handle which points to none is
not in a ring of others. -/
structure HandleTable.Linked (t : HandleTable) (mblks : List ℕ) (rings : ℕ → List Handle) :
    Prop where
  ring : ∀ m ∈ mblks, RingOf t.links (.own m) (rings m)
  pointing : ∀ m ∈ mblks, ∀ h, t.mblk h = some m ↔ h ∈ Handle.own m :: rings m
  alive : ∀ h m, t.mblk h = some m → m ∈ mblks
  rooted : ∀ h m, t.mblk h = some m → t.hasRoot h = true
  idle : ∀ h, t.mblk h = none → t.hasRoot h = true → t.links.next h = some h
  own : ∀ m m', t.mblk (.own m') = some m → m' = m

namespace HandleTable.Linked

variable {t : HandleTable} {mblks : List ℕ} {rings : ℕ → List Handle} {handle : Handle} {mblk : ℕ}

theorem not_mem_ring (h : t.Linked mblks rings) (hfree : t.mblk handle = none) {m : ℕ}
    (hm : m ∈ mblks) : handle ∉ Handle.own m :: rings m := by
  intro hmem
  rw [(h.pointing m hm handle).mpr hmem] at hfree
  cases hfree

theorem disjoint (h : t.Linked mblks rings) {m m' : ℕ} (hm : m ∈ mblks) (hm' : m' ∈ mblks)
    (hne : m ≠ m') {x : Handle} (hx : x ∈ Handle.own m :: rings m) :
    x ∉ Handle.own m' :: rings m' := by
  intro hx'
  rw [← h.pointing m hm] at hx
  rw [← h.pointing m' hm', hx] at hx'
  exact hne (Option.some.inj hx')

/-- A free handle becomes a ring by itself, and points to nothing. -/
theorem setupNone (h : t.Linked mblks rings) (hfree : t.mblk handle = none) :
    (t.setupHandle handle none).Linked mblks rings := by
  have hmblk : Function.update t.mblk handle none = t.mblk := by
    rw [← hfree, Function.update_eq_self]
  unfold HandleTable.setupHandle
  rw [hmblk]
  refine ⟨fun m hm => ?_, h.pointing, h.alive, fun x m hx => ?_, fun x hx hroot => ?_, h.own⟩
  · refine (h.ring m hm).congr fun x hx => RingOf.single_outside _ ?_
    rintro rfl
    exact h.not_mem_ring hfree hm hx
  · dsimp only at hx ⊢
    rcases eq_or_ne x handle with rfl | hne
    · exact Function.update_self ..
    · rw [Function.update_of_ne hne]
      exact h.rooted x m hx
  · dsimp only [Links.single] at hx hroot ⊢
    rcases eq_or_ne x handle with rfl | hne
    · exact Function.update_self ..
    · rw [Function.update_of_ne hne] at hroot ⊢
      exact h.idle x hx hroot

theorem setupSome (h : t.Linked mblks rings) {n : ℕ} (hfree : t.mblk (.app n) = none)
    (hmblk : mblk ∈ mblks) :
    (t.setupHandle (.app n) (some mblk)).Linked mblks
      (Function.update rings mblk (rings mblk ++ [.app n])) := by
  have hnot := h.not_mem_ring hfree hmblk
  have hlinks : (t.setupHandle (.app n) (some mblk)).links =
      t.links.insertBefore (.own mblk) (.app n) := by
    simp [HandleTable.setupHandle]
  refine ⟨fun m hm => ?_, fun m hm x => ?_, fun x m hx => ?_, fun x m hx => ?_,
    fun x hx hroot => ?_, fun m m' hm => ?_⟩
  · rw [hlinks]
    rcases eq_or_ne m mblk with rfl | hne
    · rw [Function.update_self]
      exact (h.ring m hm).insertBefore hnot
    · rw [Function.update_of_ne hne]
      refine (h.ring m hm).congr fun x hx => ?_
      refine (h.ring mblk hmblk).insertBefore_outside (h.disjoint hm hmblk hne hx) ?_
      rintro rfl
      exact h.not_mem_ring hfree hm hx
  · dsimp only [HandleTable.setupHandle]
    rcases eq_or_ne x (.app n) with rfl | hx
    · rw [Function.update_self]
      rcases eq_or_ne m mblk with rfl | hne
      · simp
      · rw [Function.update_of_ne hne]
        simp only [Option.some.injEq, hne.symm, false_iff]
        exact h.not_mem_ring hfree hm
    · rw [Function.update_of_ne hx, h.pointing m hm]
      rcases eq_or_ne m mblk with rfl | hne
      · simp [hx]
      · rw [Function.update_of_ne hne]
  · dsimp only [HandleTable.setupHandle] at hx
    rcases eq_or_ne x (.app n) with rfl | hne
    · rw [Function.update_self] at hx
      exact Option.some.inj hx ▸ hmblk
    · rw [Function.update_of_ne hne] at hx
      exact h.alive x m hx
  · dsimp only [HandleTable.setupHandle] at hx ⊢
    rcases eq_or_ne x (.app n) with rfl | hne
    · exact Function.update_self ..
    · rw [Function.update_of_ne hne] at hx ⊢
      exact h.rooted x m hx
  · rw [hlinks]
    dsimp only [HandleTable.setupHandle] at hx hroot
    rcases eq_or_ne x (.app n) with rfl | hne
    · rw [Function.update_self] at hx
      cases hx
    · rw [Function.update_of_ne hne] at hx hroot
      rw [((h.ring mblk hmblk).insertBefore_outside (h.not_mem_ring hx hmblk) hne).1]
      exact h.idle x hx hroot
  · dsimp only [HandleTable.setupHandle] at hm
    rw [Function.update_of_ne (by simp)] at hm
    exact h.own m m' hm

theorem releaseHandle (h : t.Linked mblks rings) (n : ℕ) :
    ∃ rings', (t.releaseHandle (.app n)).Linked mblks rings' := by
  unfold HandleTable.releaseHandle
  cases hroot : t.hasRoot (.app n) with
  | false => exact ⟨rings, h⟩
  | true =>
      rw [Bool.not_true, if_neg Bool.false_ne_true]
      cases hmblk : t.mblk (.app n) with
      | none =>
          have hsame : Function.update t.mblk (.app n) none = t.mblk := by
            rw [← hmblk, Function.update_eq_self]
          rw [if_pos (h.idle _ hmblk hroot), hsame]
          exact ⟨rings, h⟩
      | some m =>
          have hm := h.alive _ m hmblk
          have hmem : Handle.app n ∈ rings m := by
            simpa using (h.pointing m hm _).mp hmblk
          obtain ⟨c, -, hne, hnext⟩ := (h.ring m hm).exists_next hmem
          have hlink : t.links.next (.app n) ≠ some (.app n) := by
            rw [hnext]
            exact fun heq => hne (Option.some.inj heq)
          rw [if_neg hlink]
          refine ⟨Function.update rings m ((rings m).erase (.app n)), fun m' hm' => ?_,
            fun m' hm' x => ?_, fun x m' hx => ?_, fun x m' hx => ?_, fun x hx hx' => ?_,
            fun m₁ m₂ hm₁ => ?_⟩
          · rcases eq_or_ne m' m with rfl | hdiff
            · rw [Function.update_self]
              exact (h.ring m' hm').bypass hmem
            · rw [Function.update_of_ne hdiff]
              refine (h.ring m' hm').congr fun x hx => ?_
              exact (h.ring m hm).bypass_outside hmem (h.disjoint hm' hm hdiff hx)
          · dsimp only
            have hnodup := (List.nodup_cons.mp (h.ring m hm).nodup).2
            rcases eq_or_ne x (.app n) with rfl | hx
            · rw [Function.update_self]
              rcases eq_or_ne m' m with rfl | hdiff
              · rw [Function.update_self]
                simpa using hnodup.not_mem_erase
              · rw [Function.update_of_ne hdiff]
                simp only [reduceCtorEq, false_iff]
                exact h.disjoint hm hm' hdiff.symm (List.mem_cons_of_mem _ hmem)
            · rw [Function.update_of_ne hx, h.pointing m' hm']
              rcases eq_or_ne m' m with rfl | hdiff
              · rw [Function.update_self, List.mem_cons, List.mem_cons, List.mem_erase_of_ne hx]
              · rw [Function.update_of_ne hdiff]
          · dsimp only at hx
            rcases eq_or_ne x (.app n) with rfl | hxn
            · rw [Function.update_self] at hx
              cases hx
            · rw [Function.update_of_ne hxn] at hx
              exact h.alive x m' hx
          · dsimp only at hx ⊢
            rcases eq_or_ne x (.app n) with rfl | hxn
            · exact hroot
            · rw [Function.update_of_ne hxn] at hx
              exact h.rooted x m' hx
          · dsimp only at hx hx' ⊢
            rcases eq_or_ne x (.app n) with rfl | hxn
            · exact (h.ring m hm).bypass_self hmem
            · rw [Function.update_of_ne hxn] at hx
              rw [((h.ring m hm).bypass_outside hmem (h.not_mem_ring hx hm)).1]
              exact h.idle x hx hx'
          · dsimp only at hm₁
            rw [Function.update_of_ne (by simp)] at hm₁
            exact h.own m₁ m₂ hm₁

theorem setupOwn (h : t.Linked mblks rings) (hmblk : mblk ∉ mblks) :
    ((t.clear (.own mblk)).setupHandle (.own mblk) (some mblk)).Linked (mblks ++ [mblk])
      (Function.update rings mblk []) := by
  have hfree : t.mblk (.own mblk) = none := by
    cases hown : t.mblk (.own mblk) with
    | none => rfl
    | some m => exact absurd (h.own m mblk hown ▸ h.alive _ m hown) hmblk
  have hlinks : ((t.clear (.own mblk)).setupHandle (.own mblk) (some mblk)).links =
      (t.links.clear (.own mblk)).single (.own mblk) := by
    simp [HandleTable.setupHandle, HandleTable.clear]
  have houtside : ∀ x, x ≠ .own mblk →
      ((t.links.clear (.own mblk)).single (.own mblk)).next x = t.links.next x ∧
        ((t.links.clear (.own mblk)).single (.own mblk)).prev x = t.links.prev x := by
    intro x hx
    simp [Links.single, Links.clear, hx]
  have hmem : ∀ m ∈ mblks ++ [mblk], m ≠ mblk → m ∈ mblks := by
    intro m hm hne
    simpa [hne] using hm
  refine ⟨fun m hm => ?_, fun m hm x => ?_, fun x m hx => ?_, fun x m hx => ?_,
    fun x hx hroot => ?_, fun m m' hm => ?_⟩
  · rw [hlinks]
    rcases eq_or_ne m mblk with rfl | hne
    · rw [Function.update_self]
      exact RingOf.single _ _
    · rw [Function.update_of_ne hne]
      refine (h.ring m (hmem m hm hne)).congr fun x hx => houtside x ?_
      rintro rfl
      exact h.not_mem_ring hfree (hmem m hm hne) hx
  · dsimp only [HandleTable.setupHandle, HandleTable.clear]
    rcases eq_or_ne x (.own mblk) with rfl | hx
    · rw [Function.update_self]
      rcases eq_or_ne m mblk with rfl | hne
      · simp
      · rw [Function.update_of_ne hne]
        simp only [Option.some.injEq, hne.symm, false_iff]
        exact h.not_mem_ring hfree (hmem m hm hne)
    · rw [Function.update_of_ne hx, Function.update_of_ne hx]
      rcases eq_or_ne m mblk with rfl | hne
      · rw [Function.update_self, List.mem_singleton]
        simp only [hx, iff_false]
        exact fun hsome => hmblk (h.alive x m hsome)
      · rw [Function.update_of_ne hne]
        exact h.pointing m (hmem m hm hne) x
  · dsimp only [HandleTable.setupHandle, HandleTable.clear] at hx
    rcases eq_or_ne x (.own mblk) with rfl | hne
    · rw [Function.update_self] at hx
      exact Option.some.inj hx ▸ List.mem_append_right _ (List.mem_singleton_self _)
    · rw [Function.update_of_ne hne, Function.update_of_ne hne] at hx
      exact List.mem_append_left _ (h.alive x m hx)
  · dsimp only [HandleTable.setupHandle, HandleTable.clear] at hx ⊢
    rcases eq_or_ne x (.own mblk) with rfl | hne
    · exact Function.update_self ..
    · rw [Function.update_of_ne hne, Function.update_of_ne hne] at hx ⊢
      exact h.rooted x m hx
  · rw [hlinks]
    dsimp only [HandleTable.setupHandle, HandleTable.clear] at hx hroot
    rcases eq_or_ne x (.own mblk) with rfl | hne
    · rw [Function.update_self] at hx
      cases hx
    · rw [Function.update_of_ne hne, Function.update_of_ne hne] at hx hroot
      rw [(houtside x hne).1]
      exact h.idle x hx hroot
  · dsimp only [HandleTable.setupHandle, HandleTable.clear] at hm
    rcases eq_or_ne m' mblk with rfl | hne
    · rw [Function.update_self] at hm
      exact Option.some.inj hm
    · have hne' : Handle.own m' ≠ .own mblk := by simpa using hne
      rw [Function.update_of_ne hne', Function.update_of_ne hne'] at hm
      exact h.own m m' hm

/-- While the handles of a block are terminated: those which are done are rings by
themselves, and the others are as they were. -/
structure Terminating (t : HandleTable) (ring left : List Handle) (t' : HandleTable) : Prop where
  split : ∃ before, ring = before ++ left ∧
    (∀ x ∈ before, t'.links.next x = some x ∧ t'.mblk x = none) ∧
    ∀ x ∉ before, t'.links.next x = t.links.next x ∧ t'.links.prev x = t.links.prev x ∧
      t'.mblk x = t.mblk x
  hasRoot : t'.hasRoot = t.hasRoot

theorem Terminating.terminateHandle {ring left : List Handle} {t' : HandleTable}
    (h : Terminating t ring (handle :: left) t') :
    Terminating t ring left (HandleTable.terminateHandle handle t') := by
  obtain ⟨⟨before, hsplit, hdone, hkept⟩, hroot⟩ := h
  refine ⟨⟨before ++ [handle], by simpa using hsplit, fun x hx => ?_, fun x hx => ?_⟩, hroot⟩
  · dsimp only [HandleTable.terminateHandle, Links.single]
    rcases eq_or_ne x handle with rfl | hne
    · exact ⟨Function.update_self .., Function.update_self ..⟩
    · rw [Function.update_of_ne hne, Function.update_of_ne hne]
      exact hdone x (by simpa [hne] using hx)
  · rw [List.mem_append, List.mem_singleton, not_or] at hx
    dsimp only [HandleTable.terminateHandle, Links.single]
    rw [Function.update_of_ne hx.2, Function.update_of_ne hx.2, Function.update_of_ne hx.2]
    exact hkept x hx.1

theorem terminateHandles (h : t.Linked mblks rings) (hmblk : mblk ∈ mblks) :
    Settles (fun fuel => t.terminateHandles fuel (.own mblk))
      (Terminating t (Handle.own mblk :: rings mblk) []) := by
  have hring := h.ring mblk hmblk
  refine forRing_settles (Terminating t (Handle.own mblk :: rings mblk)) ?_ ?_
    (List.nodup_cons.mp hring.nodup).1 ?_
  · rintro x left t' ⟨⟨before, hsplit, -, hkept⟩, -⟩
    have hnodup := hring.nodup
    rw [hsplit] at hnodup
    have hx : x ∉ before := fun hmem =>
      (List.nodup_append.mp hnodup).2.2 x hmem x List.mem_cons_self rfl
    rw [(hkept x hx).1]
    exact hring.next_eq hsplit
  · exact fun x left t' hterminating => hterminating.terminateHandle
  · exact ⟨⟨[], rfl, by simp, by simp⟩, rfl⟩

theorem removeMblk {t' : HandleTable} (h : t.Linked mblks rings) (hmblks : mblks.Nodup)
    (hmblk : mblk ∈ mblks) (ht' : Terminating t (Handle.own mblk :: rings mblk) [] t') :
    (t'.clear (.own mblk)).Linked (mblks.erase mblk) rings := by
  obtain ⟨⟨before, hsplit, hdone, hkept⟩, hroot⟩ := ht'
  rw [List.append_nil] at hsplit
  rw [← hsplit] at hdone hkept
  have hmem : ∀ m ∈ mblks.erase mblk, m ∈ mblks ∧ m ≠ mblk := by
    intro m hm
    exact ⟨List.mem_of_mem_erase hm, fun heq => hmblks.not_mem_erase (heq ▸ hm)⟩
  have houtside : ∀ x, x ∉ Handle.own mblk :: rings mblk →
      (t'.clear (.own mblk)).links.next x = t.links.next x ∧
        (t'.clear (.own mblk)).links.prev x = t.links.prev x ∧
          (t'.clear (.own mblk)).mblk x = t.mblk x := by
    intro x hx
    have hne : x ≠ .own mblk := fun heq => hx (heq ▸ List.mem_cons_self)
    simpa [HandleTable.clear, Links.clear, hne] using hkept x hx
  have hinside : ∀ x ∈ Handle.own mblk :: rings mblk, (t'.clear (.own mblk)).mblk x = none := by
    intro x hx
    dsimp only [HandleTable.clear]
    rcases eq_or_ne x (.own mblk) with rfl | hne
    · exact Function.update_self ..
    · rw [Function.update_of_ne hne]
      exact (hdone x hx).2
  have hcases : ∀ x m, (t'.clear (.own mblk)).mblk x = some m →
      x ∉ Handle.own mblk :: rings mblk ∧ t.mblk x = some m := by
    intro x m hx
    have hout : x ∉ Handle.own mblk :: rings mblk := by
      intro hx'
      rw [hinside x hx'] at hx
      cases hx
    exact ⟨hout, (houtside x hout).2.2 ▸ hx⟩
  refine ⟨fun m hm => ?_, fun m hm x => ?_, fun x m hx => ?_, fun x m hx => ?_,
    fun x hx hx' => ?_, fun m m' hm => ?_⟩
  · obtain ⟨hm, hne⟩ := hmem m hm
    refine (h.ring m hm).congr fun x hx => ?_
    obtain ⟨hnext, hprev, -⟩ := houtside x (h.disjoint hm hmblk hne hx)
    exact ⟨hnext, hprev⟩
  · obtain ⟨hm, hne⟩ := hmem m hm
    by_cases hx : x ∈ Handle.own mblk :: rings mblk
    · rw [hinside x hx]
      simp only [reduceCtorEq, false_iff]
      exact h.disjoint hmblk hm hne.symm hx
    · rw [(houtside x hx).2.2]
      exact h.pointing m hm x
  · obtain ⟨hout, hpoints⟩ := hcases x m hx
    refine (List.mem_erase_of_ne ?_).mpr (h.alive x m hpoints)
    rintro rfl
    exact hout ((h.pointing m hmblk x).mp hpoints)
  · obtain ⟨hout, hx⟩ := hcases x m hx
    have hne : x ≠ .own mblk := fun heq => hout (heq ▸ List.mem_cons_self)
    dsimp only [HandleTable.clear]
    rw [Function.update_of_ne hne, hroot]
    exact h.rooted x m hx
  · dsimp only [HandleTable.clear] at hx'
    have hne : x ≠ .own mblk := by
      rintro rfl
      rw [Function.update_self] at hx'
      cases hx'
    rw [Function.update_of_ne hne, hroot] at hx'
    by_cases hmem : x ∈ Handle.own mblk :: rings mblk
    · dsimp only [HandleTable.clear, Links.clear]
      rw [Function.update_of_ne hne]
      exact (hdone x hmem).1
    · obtain ⟨hnext, -, hsame⟩ := houtside x hmem
      rw [hnext]
      exact h.idle x (hsame ▸ hx) hx'
  · exact h.own m m' (hcases _ m hm).2

end HandleTable.Linked

end Iocom
