import Iocom.LinkedLifetime

/-!
# Runs of calls

The calls of the library on memory blocks, connections, buffers and handles, and what holds
in every state which they reach.  A call names objects which are alive, or addresses where no
object is.
-/

namespace Iocom

open PointerChain LinkedList LoopFuel

namespace LinkedRoot

/-! ## New objects -/

section

variable {s : LinkedRoot} {o : LinkedObjects} {rings : ℕ → List Handle} {con mblk buf : ℕ}

theorem initializeMemoryBlock_settles (h : s.Intact o rings) (hmblk : mblk ∉ o.mblks) {n : ℕ}
    (hfree : s.handles.mblk (.app n) = none) (flags : LinkedFlags) :
    Settles (fun fuel => s.initializeMemoryBlock fuel (.app n) mblk flags) fun s' =>
      ∃ o' rings', s'.Intact o' rings' := by
  have hjoined := h.joined.linkMemoryBlock hmblk (.app n) flags
  have hmem : mblk ∈ o.mblks ++ [mblk] := List.mem_append_right _ (List.mem_singleton_self mblk)
  have hown := h.handles.setupOwn hmblk
  have hfree' : ((s.handles.clear (.own mblk)).setupHandle (.own mblk) (some mblk)).mblk (.app n) =
      none := by
    simp [HandleTable.setupHandle, HandleTable.clear, hfree]
  unfold initializeMemoryBlock
  refine (hjoined.addMblkToGlobalMbinfo hmem).imp ?_
  rintro s' ⟨hs', hhandles⟩
  have hlinked : (s.linkMemoryBlock (.app n) mblk flags).handles.Linked _ _ :=
    hown.setupSome hfree' hmem
  rw [← hhandles] at hlinked
  exact ⟨_, _, hs', hlinked⟩

theorem markSbufInfo_joined (h : s.Joined o) (hmblk : mblk ∈ o.mblks)
    (hbuf : buf ∈ nodesOf s.sbuf.con con o.sbufs) : (s.markSbufInfo con mblk buf).Joined o := by
  have hcursor : ∀ b, some buf = some b → b ∈ nodesOf s.sbuf.con con o.sbufs :=
    fun b hb => Option.some.inj hb ▸ hbuf
  have hcloud : ∀ m, some mblk = some m → m ∈ o.mblks := fun m hm => Option.some.inj hm ▸ hmblk
  unfold markSbufInfo
  split_ifs
  · exact h.setTables (h.sbuf.setMbinfoDown hcursor) rfl h.tbuf
  · exact h
  · exact h.setCurrentCloudMblk con hcloud
  · exact h
  · exact h

theorem markTbufInfo_joined (h : s.Joined o) (hmblk : mblk ∈ o.mblks)
    (hbuf : buf ∈ nodesOf s.tbuf.con con o.tbufs) : (s.markTbufInfo con mblk buf).Joined o := by
  have hcursor : ∀ b, some buf = some b → b ∈ nodesOf s.tbuf.con con o.tbufs :=
    fun b hb => Option.some.inj hb ▸ hbuf
  have hcloud : ∀ m, some mblk = some m → m ∈ o.mblks := fun m hm => Option.some.inj hm ▸ hmblk
  unfold markTbufInfo
  split_ifs
  · exact h.setTables h.sbuf rfl (h.tbuf.setMbinfoDown hcursor)
  · exact h
  · exact h.setCurrentCloudMblk con hcloud
  · exact h
  · exact h

/-- A buffer which has just been joined belongs to its connection. -/
theorem mem_nodesOf_initialized (t : BufferTable) (bufs : List ℕ) (bidirectional : Bool) :
    buf ∈ nodesOf (t.initializeBuffer buf con mblk bidirectional).con con (bufs ++ [buf]) := by
  simp [BufferTable.initializeBuffer]

theorem mbinfoNewSbuf_settles (h : s.Intact o rings) (hbuf : buf ∉ o.sbufs) (hcon : con ∈ o.cons)
    (hmblk : mblk ∈ o.mblks) (bidirectional : Bool) :
    Settles (fun fuel => s.mbinfoNewSbuf fuel con mblk buf bidirectional) fun s' =>
      ∃ o', s'.Intact o' rings := by
  unfold mbinfoNewSbuf
  refine (findNode_settles (h.joined.sbuf.byCon.holds con hcon) _).bind fun found _ => ?_
  cases found with
  | some _ => exact .of_eq (fun _ => rfl) ⟨o, h⟩
  | none =>
      have hnew := h.joined.initializeSourceBuffer hbuf hcon hmblk bidirectional
      have hmarked := markSbufInfo_joined hnew hmblk (mem_nodesOf_initialized ..)
      refine .of_eq (fun _ => rfl) ⟨_, hmarked, ?_⟩
      unfold markSbufInfo
      split_ifs <;> exact h.handles

theorem dropTargetBuffers_settles (h : s.Intact o rings) (hmblk : mblk ∈ o.mblks) :
    Settles (fun fuel => s.dropTargetBuffers fuel mblk) fun s' =>
      ∃ o', Reduced s o s' o' ∧ s'.Intact o' rings ∧ o'.mblks = o.mblks := by
  unfold dropTargetBuffers
  rw [(h.joined.tbuf.byMblk.holds mblk hmblk).first_eq]
  refine (forEach_settles (fun left s' => ∃ o', (Reduced s o s' o' ∧ s'.Intact o' rings ∧
    o'.mblks = o.mblks) ∧ ∃ before, nodesOf s'.tbuf.mblk mblk o'.tbufs = before ++ left)
    ?_ ?_ ⟨o, ⟨.refl s o, h, rfl⟩, [], rfl⟩).imp fun s' ⟨o', hs', _⟩ => ⟨o', hs'⟩
  · rintro tbuf left s' ⟨o', ⟨-, hs', hmblks⟩, before, hsplit⟩
    have hlist := hs'.joined.tbuf.byMblk.holds mblk (hmblks ▸ hmblk)
    rw [hsplit] at hlist
    exact hlist.next_eq
  · rintro tbuf left s' ⟨o', ⟨hreduced, hs', hmblks⟩, before, hsplit⟩
    split_ifs
    · have hmem : tbuf ∈ nodesOf s'.tbuf.mblk mblk o'.tbufs := by simp [hsplit]
      have hnodup := (hs'.joined.tbuf.byMblk.holds mblk (hmblks ▸ hmblk)).nodup
      have htbuf := (mem_nodesOf.mp hmem).1
      have hreleased : (s'.releaseTargetBuffer tbuf).Intact
          { o' with tbufs := o'.tbufs.erase tbuf } rings :=
        ⟨hs'.joined.releaseTargetBuffer htbuf, hs'.handles⟩
      refine ⟨{ o' with tbufs := o'.tbufs.erase tbuf },
        ⟨hreduced.trans ⟨rfl, .refl _, List.erase_sublist, rfl⟩, hreleased, hmblks⟩, before, ?_⟩
      change nodesOf s'.tbuf.mblk mblk (o'.tbufs.erase tbuf) = before ++ left
      rw [nodesOf, ← List.erase_filter]
      change (nodesOf s'.tbuf.mblk mblk o'.tbufs).erase tbuf = before ++ left
      rw [hsplit] at hnodup ⊢
      exact erase_middle hnodup
    · exact ⟨o', ⟨hreduced, hs', hmblks⟩, before ++ [tbuf], by simpa using hsplit⟩

theorem mbinfoNewTbuf_settles (h : s.Intact o rings) (hbuf : buf ∉ o.tbufs) (hcon : con ∈ o.cons)
    (hmblk : mblk ∈ o.mblks) (bidirectional : Bool) :
    Settles (fun fuel => s.mbinfoNewTbuf fuel con mblk buf bidirectional) fun s' =>
      ∃ o', s'.Intact o' rings := by
  unfold mbinfoNewTbuf
  refine (findNode_settles (h.joined.tbuf.byCon.holds con hcon) _).bind fun found _ => ?_
  cases found with
  | some _ => exact .of_eq (fun _ => rfl) ⟨o, h⟩
  | none =>
      have hdropped : Settles
          (fun fuel => if bidirectional then some s else s.dropTargetBuffers fuel mblk)
          fun s' => ∃ o', Reduced s o s' o' ∧ s'.Intact o' rings ∧ o'.mblks = o.mblks := by
        cases bidirectional with
        | true => exact .of_eq (fun _ => rfl) ⟨o, .refl s o, h, rfl⟩
        | false => exact dropTargetBuffers_settles h hmblk
      refine hdropped.bind ?_
      rintro s' ⟨o', hreduced, hs', hmblks⟩
      have hbuf' : buf ∉ o'.tbufs := fun hmem => hbuf (hreduced.tbufs.subset hmem)
      have hnew := hs'.joined.initializeTargetBuffer hbuf' (hreduced.cons ▸ hcon)
        (hmblks ▸ hmblk) bidirectional
      have hmarked := markTbufInfo_joined hnew (hmblks ▸ hmblk) (mem_nodesOf_initialized ..)
      refine .of_eq (fun _ => rfl) ⟨_, hmarked, ?_⟩
      unfold markTbufInfo
      split_ifs <;> exact hs'.handles

end

end LinkedRoot

/-! ## Calls -/

inductive LinkedCall where
  | initializeConnection (con : ℕ)
  | connect (con : ℕ) (connectUp cloudConnection : Bool)
  | releaseConnection (con : ℕ)
  | dropConnection (con : ℕ)
  | initializeMemoryBlock (handle mblk : ℕ) (flags : LinkedFlags)
  | releaseMemoryBlock (handle : ℕ)
  | initializeSourceBuffer (sbuf con mblk : ℕ) (bidirectional : Bool)
  | releaseSourceBuffer (sbuf : ℕ)
  | initializeTargetBuffer (tbuf con mblk : ℕ) (bidirectional : Bool)
  | releaseTargetBuffer (tbuf : ℕ)
  | mbinfoNewSbuf (con mblk sbuf : ℕ) (bidirectional : Bool)
  | mbinfoNewTbuf (con mblk tbuf : ℕ) (bidirectional : Bool)
  | addConToGlobalMbinfo (con : ℕ)
  | mbinfoSent (con : ℕ)
  | sentFrom (sbuf : ℕ)
  | setupHandle (handle : ℕ) (mblk : Option ℕ)
  | duplicateHandle (handle : ℕ) (source : Handle)
  | releaseHandle (handle : ℕ)
  | releaseRoot

namespace LinkedRoot

def exec (fuel : ℕ) (s : LinkedRoot) : LinkedCall → Option LinkedRoot
  | .initializeConnection con => some (s.initializeConnection con)
  | .connect con connectUp cloudConnection =>
      some { s with
        connectUp := Function.update s.connectUp con connectUp
        cloudConnection := Function.update s.cloudConnection con cloudConnection }
  | .releaseConnection con => s.releaseConnection fuel con
  | .dropConnection con => s.dropConnection fuel con
  | .initializeMemoryBlock handle mblk flags =>
      s.initializeMemoryBlock fuel (.app handle) mblk flags
  | .releaseMemoryBlock handle => s.releaseMemoryBlock fuel (.app handle)
  | .initializeSourceBuffer sbuf con mblk bidirectional =>
      some (s.initializeSourceBuffer sbuf con mblk bidirectional)
  | .releaseSourceBuffer sbuf => some (s.releaseSourceBuffer sbuf)
  | .initializeTargetBuffer tbuf con mblk bidirectional =>
      some (s.initializeTargetBuffer tbuf con mblk bidirectional)
  | .releaseTargetBuffer tbuf => some (s.releaseTargetBuffer tbuf)
  | .mbinfoNewSbuf con mblk sbuf bidirectional =>
      s.mbinfoNewSbuf fuel con mblk sbuf bidirectional
  | .mbinfoNewTbuf con mblk tbuf bidirectional =>
      s.mbinfoNewTbuf fuel con mblk tbuf bidirectional
  | .addConToGlobalMbinfo con => some (s.addConToGlobalMbinfo con)
  | .mbinfoSent con =>
      match s.getMbinfoToSend2 con with
      | none => some s
      | some mblk => some (s.mbinfoSent con mblk)
  | .sentFrom sbuf => some (s.sentFrom sbuf)
  | .setupHandle handle mblk =>
      some { s with handles := s.handles.setupHandle (.app handle) mblk }
  | .duplicateHandle handle source =>
      some { s with handles := s.handles.duplicateHandle (.app handle) source }
  | .releaseHandle handle => some { s with handles := s.handles.releaseHandle (.app handle) }
  | .releaseRoot => s.releaseRoot fuel

/-- The objects which the call names are alive, and at the address of a new one there is
none: what the debug identifiers of objects are for. -/
def Alive (s : LinkedRoot) : LinkedCall → Prop
  | .initializeConnection con => s.isCon con = false
  | .connect con _ _ => s.isCon con = true
  | .releaseConnection con => s.isCon con = true
  | .dropConnection con => s.isCon con = true
  | .initializeMemoryBlock _ mblk _ => s.isMblk mblk = false
  | .releaseMemoryBlock _ => True
  | .initializeSourceBuffer sbuf con mblk _ =>
      s.sbuf.isBuffer sbuf = false ∧ s.isCon con = true ∧ s.isMblk mblk = true
  | .releaseSourceBuffer sbuf => s.sbuf.isBuffer sbuf = true
  | .initializeTargetBuffer tbuf con mblk _ =>
      s.tbuf.isBuffer tbuf = false ∧ s.isCon con = true ∧ s.isMblk mblk = true
  | .releaseTargetBuffer tbuf => s.tbuf.isBuffer tbuf = true
  | .mbinfoNewSbuf con mblk sbuf _ =>
      s.sbuf.isBuffer sbuf = false ∧ s.isCon con = true ∧ s.isMblk mblk = true
  | .mbinfoNewTbuf con mblk tbuf _ =>
      s.tbuf.isBuffer tbuf = false ∧ s.isCon con = true ∧ s.isMblk mblk = true
  | .addConToGlobalMbinfo con => s.isCon con = true
  | .mbinfoSent con => s.isCon con = true
  | .sentFrom sbuf => s.sbuf.isBuffer sbuf = true
  | .setupHandle _ mblk => ∀ m, mblk = some m → s.isMblk m = true
  | .duplicateHandle _ _ => True
  | .releaseHandle _ => True
  | .releaseRoot => True

def HandleFree (s : LinkedRoot) : LinkedCall → Prop
  | .initializeMemoryBlock handle _ _ => s.handles.mblk (.app handle) = none
  | .setupHandle handle _ => s.handles.mblk (.app handle) = none
  | .duplicateHandle handle _ => s.handles.mblk (.app handle) = none
  | _ => True

def initial : LinkedRoot where
  con := .empty
  conLink := ⟨fun _ => none, fun _ => none⟩
  isCon := fun _ => false
  connectUp := fun _ => false
  cloudConnection := fun _ => false
  currentMblk := fun _ => none
  currentCloudMblk := fun _ => none
  sbufCurrent := fun _ => none
  mblk := .empty
  mblkLink := ⟨fun _ => none, fun _ => none⟩
  isMblk := fun _ => false
  flags := fun _ => ⟨false, false, false⟩
  sbuf := ⟨fun _ => false, fun _ => 0, fun _ => 0, fun _ => false, ⟨fun _ => none, fun _ => none⟩,
    ⟨fun _ => none, fun _ => none⟩, fun _ => .empty, fun _ => .empty, fun _ => none⟩
  tbuf := ⟨fun _ => false, fun _ => 0, fun _ => 0, fun _ => false, ⟨fun _ => none, fun _ => none⟩,
    ⟨fun _ => none, fun _ => none⟩, fun _ => .empty, fun _ => .empty, fun _ => none⟩
  handles := ⟨fun _ => false, fun _ => none, ⟨fun _ => none, fun _ => none⟩⟩

inductive ReachedBy (allowed : LinkedRoot → LinkedCall → Prop) : LinkedRoot → Prop
  | initial : ReachedBy allowed initial
  | call {s s' : LinkedRoot} (call : LinkedCall) (h : ReachedBy allowed s)
      (hallowed : allowed s call)
      (hrun : ∃ enough, ∀ fuel ≥ enough, s.exec fuel call = some s') : ReachedBy allowed s'

/-! ## Consistency -/

/-- Every list and ring is well formed, every pointer leads to an object which is alive, and
each buffer is in the list of exactly one connection and of exactly one memory block. -/
def Consistent (s : LinkedRoot) : Prop :=
  ∃ o rings, s.Intact o rings ∧
    (∀ b, s.sbuf.isBuffer b = true →
      (∃! c, c ∈ o.cons ∧ b ∈ nodesOf s.sbuf.con c o.sbufs) ∧
        ∃! m, m ∈ o.mblks ∧ b ∈ nodesOf s.sbuf.mblk m o.sbufs) ∧
    ∀ b, s.tbuf.isBuffer b = true →
      (∃! c, c ∈ o.cons ∧ b ∈ nodesOf s.tbuf.con c o.tbufs) ∧
        ∃! m, m ∈ o.mblks ∧ b ∈ nodesOf s.tbuf.mblk m o.tbufs

theorem linked_existsUnique {t : BufferTable} {cons mblks bufs : List ℕ}
    (h : t.Linked cons mblks bufs) {b : ℕ} (hb : t.isBuffer b = true) :
    (∃! c, c ∈ cons ∧ b ∈ nodesOf t.con c bufs) ∧ ∃! m, m ∈ mblks ∧ b ∈ nodesOf t.mblk m bufs := by
  have hmem := (h.alive b).mp hb
  constructor
  · refine ⟨t.con b, ⟨h.byCon.owned b hmem, mem_nodesOf.mpr ⟨hmem, rfl⟩⟩, ?_⟩
    rintro c ⟨-, hc⟩
    exact (mem_nodesOf.mp hc).2.symm
  · refine ⟨t.mblk b, ⟨h.byMblk.owned b hmem, mem_nodesOf.mpr ⟨hmem, rfl⟩⟩, ?_⟩
    rintro m ⟨-, hm⟩
    exact (mem_nodesOf.mp hm).2.symm

theorem Intact.consistent {s : LinkedRoot} {o : LinkedObjects} {rings : ℕ → List Handle}
    (h : s.Intact o rings) : s.Consistent :=
  ⟨o, rings, h, fun _ hb => linked_existsUnique h.joined.sbuf hb,
    fun _ hb => linked_existsUnique h.joined.tbuf hb⟩

theorem initial_intact : initial.Intact ⟨[], [], [], []⟩ fun _ => [] where
  joined :=
    { con := .empty _
      mblk := .empty _
      isCon := by simp [initial]
      isMblk := by simp [initial]
      sbuf := ⟨.nil .., .nil .., by simp [initial], by simp⟩
      tbuf := ⟨.nil .., .nil .., by simp [initial], by simp⟩
      sbufCurrent := by simp
      currentMblk := by simp
      currentCloudMblk := by simp }
  handles :=
    { ring := by simp
      pointing := by simp
      alive := by simp [initial]
      rooted := by simp [initial]
      idle := by simp [initial]
      own := by simp [initial] }

theorem Intact.setHandles {s : LinkedRoot} {o : LinkedObjects} {rings rings' : ℕ → List Handle}
    (h : s.Intact o rings) {handles : HandleTable} (hhandles : handles.Linked o.mblks rings') :
    { s with handles := handles }.Intact o rings' :=
  ⟨⟨h.joined.con, h.joined.mblk, h.joined.isCon, h.joined.isMblk, h.joined.sbuf, h.joined.tbuf,
    h.joined.sbufCurrent, h.joined.currentMblk, h.joined.currentCloudMblk⟩, hhandles⟩

theorem Intact.setupHandle {s : LinkedRoot} {o : LinkedObjects} {rings : ℕ → List Handle}
    (h : s.Intact o rings) {n : ℕ} (hfree : s.handles.mblk (.app n) = none) {mblk : Option ℕ}
    (hmblk : ∀ m, mblk = some m → m ∈ o.mblks) :
    ∃ rings', { s with handles := s.handles.setupHandle (.app n) mblk }.Intact o rings' := by
  cases mblk with
  | none => exact ⟨rings, h.setHandles (h.handles.setupNone hfree)⟩
  | some m => exact ⟨_, h.setHandles (h.handles.setupSome hfree (hmblk m rfl))⟩

theorem exec_settles {s : LinkedRoot} {o : LinkedObjects} {rings : ℕ → List Handle}
    (h : s.Intact o rings) {call : LinkedCall} (halive : s.Alive call)
    (hfree : s.HandleFree call) :
    Settles (fun fuel => s.exec fuel call) fun s' => ∃ o' rings', s'.Intact o' rings' := by
  have hjoined := h.joined
  have hcon : ∀ {c}, s.isCon c = true → c ∈ o.cons := fun hc => (hjoined.isCon _).mp hc
  have hmblk : ∀ {m}, s.isMblk m = true → m ∈ o.mblks := fun hm => (hjoined.isMblk _).mp hm
  have hsbuf : ∀ {b}, s.sbuf.isBuffer b = false → b ∉ o.sbufs := by
    intro b hb hmem
    rw [(hjoined.sbuf.alive b).mpr hmem] at hb
    cases hb
  have htbuf : ∀ {b}, s.tbuf.isBuffer b = false → b ∉ o.tbufs := by
    intro b hb hmem
    rw [(hjoined.tbuf.alive b).mpr hmem] at hb
    cases hb
  cases call with
  | initializeConnection con =>
      have hnew : con ∉ o.cons := by
        intro hmem
        rw [LinkedRoot.Alive, (hjoined.isCon con).mpr hmem] at halive
        cases halive
      exact .of_eq (fun _ => rfl) ⟨_, rings, hjoined.initializeConnection hnew, h.handles⟩
  | connect con connectUp cloudConnection =>
      exact .of_eq (fun _ => rfl) ⟨o, rings, ⟨hjoined.con, hjoined.mblk, hjoined.isCon,
        hjoined.isMblk, hjoined.sbuf, hjoined.tbuf, hjoined.sbufCurrent, hjoined.currentMblk,
        hjoined.currentCloudMblk⟩, h.handles⟩
  | releaseConnection con =>
      refine (releaseConnection_settles h (hcon halive)).imp ?_
      rintro s' ⟨o', hs', -⟩
      exact ⟨o', rings, hs'⟩
  | dropConnection con =>
      refine (dropConnection_settles h (hcon halive)).imp ?_
      rintro s' ⟨o', hs'⟩
      exact ⟨o', rings, hs'⟩
  | initializeMemoryBlock handle mblk flags =>
      have hnew : mblk ∉ o.mblks := by
        intro hmem
        rw [LinkedRoot.Alive, (hjoined.isMblk mblk).mpr hmem] at halive
        cases halive
      exact initializeMemoryBlock_settles h hnew hfree flags
  | releaseMemoryBlock handle =>
      refine (releaseMemoryBlock_settles h (.app handle)).imp ?_
      rintro s' ⟨o', -, hs'⟩
      exact ⟨o', rings, hs'⟩
  | initializeSourceBuffer sbuf con mblk bidirectional =>
      obtain ⟨hnew, hc, hm⟩ := halive
      exact .of_eq (fun _ => rfl) ⟨_, rings, hjoined.initializeSourceBuffer (hsbuf hnew) (hcon hc)
        (hmblk hm) bidirectional, h.handles⟩
  | releaseSourceBuffer sbuf =>
      have hmem := (hjoined.sbuf.alive sbuf).mp halive
      exact .of_eq (fun _ => rfl) ⟨_, rings, hjoined.releaseSourceBuffer hmem, h.handles⟩
  | initializeTargetBuffer tbuf con mblk bidirectional =>
      obtain ⟨hnew, hc, hm⟩ := halive
      exact .of_eq (fun _ => rfl) ⟨_, rings, hjoined.initializeTargetBuffer (htbuf hnew) (hcon hc)
        (hmblk hm) bidirectional, h.handles⟩
  | releaseTargetBuffer tbuf =>
      have hmem := (hjoined.tbuf.alive tbuf).mp halive
      exact .of_eq (fun _ => rfl) ⟨_, rings, hjoined.releaseTargetBuffer hmem, h.handles⟩
  | mbinfoNewSbuf con mblk sbuf bidirectional =>
      obtain ⟨hnew, hc, hm⟩ := halive
      refine (mbinfoNewSbuf_settles h (hsbuf hnew) (hcon hc) (hmblk hm) bidirectional).imp ?_
      rintro s' ⟨o', hs'⟩
      exact ⟨o', rings, hs'⟩
  | mbinfoNewTbuf con mblk tbuf bidirectional =>
      obtain ⟨hnew, hc, hm⟩ := halive
      refine (mbinfoNewTbuf_settles h (htbuf hnew) (hcon hc) (hmblk hm) bidirectional).imp ?_
      rintro s' ⟨o', hs'⟩
      exact ⟨o', rings, hs'⟩
  | addConToGlobalMbinfo con =>
      have hsame : (s.addConToGlobalMbinfo con).handles = s.handles := by
        unfold LinkedRoot.addConToGlobalMbinfo
        split_ifs <;> rfl
      exact .of_eq (fun _ => rfl)
        ⟨o, rings, hjoined.addConToGlobalMbinfo con, hsame ▸ h.handles⟩
  | mbinfoSent con =>
      cases hnext : s.getMbinfoToSend2 con with
      | none => exact .of_eq (fun _ => by rw [exec, hnext]) ⟨o, rings, h⟩
      | some mblk =>
          have hsame : (s.mbinfoSent con mblk).handles = s.handles := by
            unfold LinkedRoot.mbinfoSent
            split_ifs <;> rfl
          have hmem := hjoined.getMbinfoToSend2 (hcon halive) hnext
          exact .of_eq (fun _ => by rw [exec, hnext])
            ⟨o, rings, hjoined.mbinfoSent (hcon halive) hmem, hsame ▸ h.handles⟩
  | sentFrom sbuf =>
      have hmem := (hjoined.sbuf.alive sbuf).mp halive
      exact .of_eq (fun _ => rfl) ⟨o, rings, hjoined.sentFrom hmem, h.handles⟩
  | setupHandle handle mblk =>
      obtain ⟨rings', hs'⟩ := h.setupHandle hfree fun m hm => hmblk (halive m hm)
      exact .of_eq (fun _ => rfl) ⟨o, rings', hs'⟩
  | duplicateHandle handle source =>
      refine .of_eq (fun _ => rfl) ⟨o, ?_⟩
      unfold HandleTable.duplicateHandle
      split_ifs
      · exact h.setupHandle hfree fun m hm => h.handles.alive source m hm
      · exact ⟨rings, h⟩
  | releaseHandle handle =>
      obtain ⟨rings', hlinked⟩ := h.handles.releaseHandle handle
      exact .of_eq (fun _ => rfl) ⟨o, rings', h.setHandles hlinked⟩
  | releaseRoot =>
      refine (releaseRoot_settles h).imp ?_
      rintro s' ⟨o', hs'⟩
      exact ⟨o', rings, hs'⟩

def Allowed (s : LinkedRoot) (call : LinkedCall) : Prop := s.Alive call ∧ s.HandleFree call

theorem reachedBy_intact {s : LinkedRoot} (h : ReachedBy Allowed s) :
    ∃ o rings, s.Intact o rings := by
  induction h with
  | initial => exact ⟨_, _, initial_intact⟩
  | call call _ hallowed hrun ih =>
      obtain ⟨o, rings, hs⟩ := ih
      obtain ⟨enough, hrun⟩ := hrun
      exact (exec_settles hs hallowed.1 hallowed.2).post_of_eventually hrun

/-- Every state which is reached is consistent, and each call from there ends in one. -/
theorem linked_objects_consistent {s : LinkedRoot} (h : ReachedBy Allowed s) :
    s.Consistent ∧ ∀ call, Allowed s call →
      Settles (fun fuel => s.exec fuel call) Consistent := by
  obtain ⟨o, rings, hs⟩ := reachedBy_intact h
  refine ⟨hs.consistent, fun call hallowed => ?_⟩
  refine (exec_settles hs hallowed.1 hallowed.2).imp ?_
  rintro s' ⟨o', rings', hs'⟩
  exact hs'.consistent

/-! ## Runs on two blocks -/

def twoBlocks : LinkedRoot :=
  (initial.linkMemoryBlock (.app 1) 1 ⟨false, false, false⟩).linkMemoryBlock (.app 2) 2
    ⟨true, false, false⟩

theorem twoBlocks_reached : ReachedBy Allowed twoBlocks := by
  have hfirst : ReachedBy Allowed
      (initial.linkMemoryBlock (.app 1) 1 ⟨false, false, false⟩) := by
    refine .call (.initializeMemoryBlock 1 1 ⟨false, false, false⟩) .initial ⟨rfl, rfl⟩
      ⟨1, fun fuel hfuel => ?_⟩
    obtain ⟨fuel, rfl⟩ := Nat.exists_eq_add_of_le' hfuel
    rfl
  refine .call (.initializeMemoryBlock 2 2 ⟨true, false, false⟩) hfirst ⟨rfl, rfl⟩
    ⟨1, fun fuel hfuel => ?_⟩
  obtain ⟨fuel, rfl⟩ := Nat.exists_eq_add_of_le' hfuel
  rfl

def upwardBlocks : LinkedRoot :=
  let connected := twoBlocks.initializeConnection 1
  { connected with
    connectUp := Function.update connected.connectUp 1 true
    cloudConnection := Function.update connected.cloudConnection 1 false }

/-- The first block is sent to the connection and the second one received from it; the
memory block information is to be sent. -/
def connectedBlocks : LinkedRoot :=
  ((upwardBlocks.initializeSourceBuffer 1 1 1 false).initializeTargetBuffer 1 1 2
    true).addConToGlobalMbinfo 1

theorem connectedBlocks_reached : ReachedBy Allowed connectedBlocks := by
  have hcon : ReachedBy Allowed (twoBlocks.initializeConnection 1) :=
    .call (.initializeConnection 1) twoBlocks_reached ⟨rfl, trivial⟩ ⟨0, fun _ _ => rfl⟩
  have hup : ReachedBy Allowed upwardBlocks :=
    .call (.connect 1 true false) hcon ⟨rfl, trivial⟩ ⟨0, fun _ _ => rfl⟩
  have hsource : ReachedBy Allowed (upwardBlocks.initializeSourceBuffer 1 1 1 false) :=
    .call (.initializeSourceBuffer 1 1 1 false) hup ⟨⟨rfl, rfl, rfl⟩, trivial⟩
      ⟨0, fun _ _ => rfl⟩
  have htarget : ReachedBy Allowed
      ((upwardBlocks.initializeSourceBuffer 1 1 1 false).initializeTargetBuffer 1 1 2 true) :=
    .call (.initializeTargetBuffer 1 1 2 true) hsource ⟨⟨rfl, rfl, rfl⟩, trivial⟩
      ⟨0, fun _ _ => rfl⟩
  exact .call (.addConToGlobalMbinfo 1) htarget ⟨rfl, trivial⟩ ⟨0, fun _ _ => rfl⟩

theorem connectedBlocks_consistent :
    (connectedBlocks.sbuf.isBuffer 1 ∧ connectedBlocks.tbuf.isBuffer 1 ∧
      connectedBlocks.currentMblk 1 = some 1) ∧ connectedBlocks.Consistent ∧
    Settles (fun fuel => connectedBlocks.exec fuel (.releaseMemoryBlock 1)) Consistent ∧
    Settles (fun fuel => connectedBlocks.exec fuel (.dropConnection 1)) Consistent := by
  obtain ⟨hconsistent, hcalls⟩ := linked_objects_consistent connectedBlocks_reached
  exact ⟨⟨rfl, rfl, rfl⟩, hconsistent, hcalls (.releaseMemoryBlock 1) ⟨trivial, trivial⟩,
    hcalls (.dropConnection 1) ⟨rfl, trivial⟩⟩

theorem ReachedBy.mono {allowed allowed' : LinkedRoot → LinkedCall → Prop}
    (himp : ∀ s call, allowed s call → allowed' s call) {s : LinkedRoot}
    (h : ReachedBy allowed s) : ReachedBy allowed' s := by
  induction h with
  | initial => exact .initial
  | call call _ hallowed hrun ih => exact .call call ih (himp _ call hallowed) hrun

/-- The handle of the first block is duplicated from that of the second one, while it is in
the ring of the first. -/
theorem used_handle_breaks_ring : ¬∀ s, ReachedBy Alive s → s.Consistent := by
  intro hall
  have htwo : ReachedBy Alive twoBlocks := twoBlocks_reached.mono fun _ _ hallowed => hallowed.1
  obtain ⟨o, rings, hs, -⟩ := hall _ (.call (.duplicateHandle 1 (.app 2)) htwo trivial
    ⟨0, fun _ _ => rfl⟩)
  have hmblk : 1 ∈ o.mblks := (hs.joined.isMblk 1).mp rfl
  obtain ⟨rest, hring⟩ : ∃ rest, rings 1 = .app 1 :: rest := by
    have hnext := (hs.handles.ring 1 hmblk).next_eq (List.nil_append _).symm
    have hhead : (rings 1).head?.getD (.own 1) = .app 1 := (Option.some.inj hnext).symm
    cases hrest : rings 1 with
    | nil =>
        rw [hrest] at hhead
        cases hhead
    | cons x rest =>
        rw [hrest] at hhead
        exact ⟨rest, congrArg (· :: rest) hhead⟩
  have hpoints := (hs.handles.pointing 1 hmblk (.app 1)).mpr (by simp [hring])
  cases hpoints

end LinkedRoot

end Iocom
