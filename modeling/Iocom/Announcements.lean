import Iocom.InfoSending
import Iocom.Lib.TransitionSystem

/-!
# Announcing memory blocks

Blocks are created and deleted, buffers are linked and released, and infos are
sent, in any order.  A block which is to be announced on a connection has been
announced or lies ahead of a cursor, unless the cursor of the infos to a cloud
server was taken away from it.
-/

namespace Iocom

def InfoConnection.IsAhead (con : InfoConnection) (mblk : InfoBlock) : Prop :=
  if con.connectUp then mblk ∈ ListCursor.ahead con.mblks con.currentMblk
  else
    mblk ∈ ListCursor.ahead con.mblks con.currentCloudMblk ∨
      (∃ sbuf ∈ ListCursor.ahead con.sbufs con.sbufMbinfoDown, sbuf.mblk = mblk) ∨
      ∃ tbuf ∈ ListCursor.ahead con.tbufs con.tbufMbinfoDown, tbuf.mblk = mblk

def InfoConnection.IsLinked (con : InfoConnection) (mblk : InfoBlock) : Prop :=
  (∃ sbuf ∈ con.sbufs, sbuf.mblk = mblk) ∨ ∃ tbuf ∈ con.tbufs, tbuf.mblk = mblk

/-- A connection with its history: the blocks which existed when it was
established, those announced since, and those which were ahead of
`current_cloud_mblk` when a new block took it over.  A deleted block is
dropped from all of them. -/
structure Announcements where
  con : InfoConnection
  established : List InfoBlock
  announced : List InfoBlock
  overwritten : List InfoBlock

def InfoConnection.takesCloudCursor (con : InfoConnection) (mblk : InfoBlock) : Bool :=
  !con.connectUp && con.cloudConnection && mblk.cloudOnly && !mblk.noCloud

inductive AnnouncementStep : Announcements → Announcements → Prop
  | initializeMemoryBlock (s : Announcements) (mblk : InfoBlock)
      (hnew : ∀ other ∈ s.con.mblks, other.ptr ≠ mblk.ptr) :
      AnnouncementStep s
        { s with
          con := s.con.initializeMemoryBlock mblk
          overwritten :=
            if s.con.takesCloudCursor mblk then
              s.overwritten ++ ListCursor.ahead s.con.mblks s.con.currentCloudMblk
            else s.overwritten }
  | releaseMemoryBlock (s : Announcements) (mblk : InfoBlock) (hmem : mblk ∈ s.con.mblks) :
      AnnouncementStep s
        { con := s.con.releaseMemoryBlock mblk
          established := s.established.filter fun other => decide (other ≠ mblk)
          announced := s.announced.filter fun other => decide (other ≠ mblk)
          overwritten := s.overwritten.filter fun other => decide (other ≠ mblk) }
  | newSourceBuffer (s : Announcements) (sbuf : InfoBuffer)
      (hnew : ∀ other ∈ s.con.sbufs, other.ptr ≠ sbuf.ptr)
      (hmem : sbuf.mblk ∈ s.con.mblks) (hauthorized : s.con.authorizes sbuf.mblk = true) :
      AnnouncementStep s { s with con := s.con.mbinfoNewSbuf sbuf }
  | newTargetBuffer (s : Announcements) (tbuf : InfoBuffer)
      (hnew : ∀ other ∈ s.con.tbufs, other.ptr ≠ tbuf.ptr)
      (hmem : tbuf.mblk ∈ s.con.mblks) (hauthorized : s.con.authorizes tbuf.mblk = true) :
      AnnouncementStep s { s with con := s.con.mbinfoNewTbuf tbuf }
  | releaseSourceBuffer (s : Announcements) (sbuf : InfoBuffer) (hmem : sbuf ∈ s.con.sbufs) :
      AnnouncementStep s { s with con := s.con.releaseSourceBuffer sbuf }
  | releaseTargetBuffer (s : Announcements) (tbuf : InfoBuffer) (hmem : tbuf ∈ s.con.tbufs) :
      AnnouncementStep s { s with con := s.con.releaseTargetBuffer tbuf }
  | sendInfo (s : Announcements) (mblk : InfoBlock) (con : InfoConnection)
      (hget : InfoConnection.getMbinfoToSend s.con.infoBound s.con = (some mblk, con)) :
      AnnouncementStep s
        { s with con := con.mbinfoSent mblk, announced := s.announced ++ [mblk] }
  | delayInfo (s : Announcements) (mblk : Option InfoBlock) (con : InfoConnection)
      (hget : InfoConnection.getMbinfoToSend s.con.infoBound s.con = (mblk, con)) :
      AnnouncementStep s { s with con := con }

/-- The connection has just been established: the infos of the blocks linked
so far are still to be sent. -/
structure AnnouncementStart (s : Announcements) : Prop where
  established : ∃ con : InfoConnection,
    ListCursor.Valid con.mblks con.currentMblk ∧
      ListCursor.Valid con.mblks con.currentCloudMblk ∧ s.con = con.addConToGlobalMbinfo
  mblks : s.con.mblks.Nodup ∧ s.established = s.con.mblks
  sbufs : s.con.sbufs.Nodup ∧
    s.con.sbufMbinfoDown = (if s.con.connectUp then none else s.con.sbufs.head?) ∧
    ∀ sbuf ∈ s.con.sbufs, sbuf.mblk ∈ s.con.mblks ∧ s.con.authorizes sbuf.mblk = true
  tbufs : s.con.tbufs.Nodup ∧
    s.con.tbufMbinfoDown = (if s.con.connectUp then none else s.con.tbufs.head?) ∧
    ∀ tbuf ∈ s.con.tbufs, tbuf.mblk ∈ s.con.mblks ∧ s.con.authorizes tbuf.mblk = true

/-- The blocks whose info is to be sent through the connection. -/
def Announcements.MustAnnounce (s : Announcements) (mblk : InfoBlock) : Prop :=
  if s.con.connectUp then
    s.con.authorizes mblk = true ∧ s.con.cloudFlagsAllow mblk = true
  else
    mblk.floor = false ∧
      (s.con.cloudConnection = true ∧ s.con.authorizes mblk = true ∧ mblk.noCloud = false ∧
          (mblk ∈ s.established ∨ mblk.cloudOnly = true) ∨
        s.con.IsLinked mblk ∧ s.con.cloudFlagsAllow mblk = true)

/-! ## Lists and cursors -/

/-- The lists have no element twice, the cursors are null or in their lists,
and the buffers link existing, authorized blocks. -/
structure InfoConnection.WellFormed (con : InfoConnection) : Prop where
  mblks : con.mblks.Nodup
  sbufs : con.sbufs.Nodup
  tbufs : con.tbufs.Nodup
  currentMblk : ListCursor.Valid con.mblks con.currentMblk
  currentCloudMblk : ListCursor.Valid con.mblks con.currentCloudMblk
  sbufMbinfoDown : ListCursor.Valid con.sbufs con.sbufMbinfoDown
  tbufMbinfoDown : ListCursor.Valid con.tbufs con.tbufMbinfoDown
  sources : ∀ sbuf ∈ con.sbufs, sbuf.mblk ∈ con.mblks ∧ con.authorizes sbuf.mblk = true
  targets : ∀ tbuf ∈ con.tbufs, tbuf.mblk ∈ con.mblks ∧ con.authorizes tbuf.mblk = true

section Buffers

variable {bufs : List InfoBuffer} {cursor : Option InfoBuffer} {mblk : InfoBlock}

theorem skipBuffer_rule {motive : Option InfoBuffer → Prop} (hstay : motive cursor)
    (hmove : ∀ buf, mblk = buf.mblk → motive (ListCursor.skip bufs buf cursor)) :
    motive (skipBuffer bufs mblk cursor) := by
  unfold skipBuffer
  cases cursor with
  | none => exact hstay
  | some buf =>
      dsimp only
      split_ifs with hmblk
      · have hmoved := hmove buf hmblk
        rw [ListCursor.skip, if_pos rfl] at hmoved
        exact hmoved
      · exact hstay

theorem skipBuffer_valid (h : ListCursor.Valid bufs cursor) :
    ListCursor.Valid bufs (skipBuffer bufs mblk cursor) :=
  skipBuffer_rule h fun _ _ => ListCursor.skip_valid h

theorem skipBuffer_covers {P : InfoBlock → Prop}
    (h : ListCursor.Covers bufs cursor fun buf => P buf.mblk) (hnodup : bufs.Nodup)
    (hvalid : ListCursor.Valid bufs cursor) (hmblk : P mblk) :
    ListCursor.Covers bufs (skipBuffer bufs mblk cursor) fun buf => P buf.mblk :=
  skipBuffer_rule
    (motive := fun moved => ListCursor.Covers bufs moved fun buf => P buf.mblk) h
    fun buf hbuf => h.skip hnodup hvalid (by rw [← hbuf]; exact hmblk)

end Buffers

/-! ## Moving on to the next info -/

structure InfoConnection.Behind (con : InfoConnection) (P Q : InfoBlock → Prop) : Prop where
  blocks : con.connectUp = true → ListCursor.Covers con.mblks con.currentMblk P
  cloudBlocks : con.connectUp = false →
    ListCursor.Covers con.mblks con.currentCloudMblk Q
  sources : con.connectUp = false →
    ListCursor.Covers con.sbufs con.sbufMbinfoDown fun sbuf => P sbuf.mblk
  targets : con.connectUp = false →
    ListCursor.Covers con.tbufs con.tbufMbinfoDown fun tbuf => P tbuf.mblk

structure InfoConnection.SameLists (con con' : InfoConnection) : Prop where
  connectUp : con'.connectUp = con.connectUp
  cloudConnection : con'.cloudConnection = con.cloudConnection
  security : con'.security = con.security
  mblks : con'.mblks = con.mblks
  sbufs : con'.sbufs = con.sbufs
  tbufs : con'.tbufs = con.tbufs

section Passing

variable {con con' con'' : InfoConnection} {P Q P' Q' : InfoBlock → Prop} {mblk : InfoBlock}

theorem InfoConnection.SameLists.trans (h : con.SameLists con') (h' : con'.SameLists con'') :
    con.SameLists con'' where
  connectUp := h'.connectUp.trans h.connectUp
  cloudConnection := h'.cloudConnection.trans h.cloudConnection
  security := h'.security.trans h.security
  mblks := h'.mblks.trans h.mblks
  sbufs := h'.sbufs.trans h.sbufs
  tbufs := h'.tbufs.trans h.tbufs

theorem InfoConnection.skips_congr (hup : con'.connectUp = con.connectUp)
    (hcloud : con'.cloudConnection = con.cloudConnection)
    (hsecurity : con'.security = con.security) : con'.skips mblk = con.skips mblk := by
  unfold InfoConnection.skips InfoConnection.cloudFlagsAllow InfoConnection.authorizes
  rw [hup, hcloud, hsecurity]

theorem InfoConnection.Behind.mono (h : con.Behind P Q) (hP : ∀ mblk, P mblk → P' mblk)
    (hQ : ∀ mblk ∈ con.mblks, Q mblk → Q' mblk) : con.Behind P' Q' where
  blocks hup := (h.blocks hup).mono fun mblk _ => hP mblk
  cloudBlocks hup := (h.cloudBlocks hup).mono hQ
  sources hup := (h.sources hup).mono fun sbuf _ => hP sbuf.mblk
  targets hup := (h.targets hup).mono fun tbuf _ => hP tbuf.mblk

theorem InfoConnection.mbinfoSent_sameLists (con : InfoConnection) (mblk : InfoBlock) :
    con.SameLists (con.mbinfoSent mblk) := by
  unfold InfoConnection.mbinfoSent
  split <;> exact ⟨rfl, rfl, rfl, rfl, rfl, rfl⟩

theorem InfoConnection.WellFormed.mbinfoSent (h : con.WellFormed) :
    (con.mbinfoSent mblk).WellFormed := by
  unfold InfoConnection.mbinfoSent
  split
  · exact { h with currentMblk := ListCursor.next_valid }
  · exact
      { h with
        currentCloudMblk := ListCursor.skip_valid h.currentCloudMblk
        sbufMbinfoDown := skipBuffer_valid h.sbufMbinfoDown
        tbufMbinfoDown := skipBuffer_valid h.tbufMbinfoDown }

theorem InfoConnection.Behind.mbinfoSent (h : con.Behind P Q) (hwf : con.WellFormed)
    (hget : con.getMbinfoToSend2 = some mblk) (hP : P mblk) (hQ : Q mblk) :
    (con.mbinfoSent mblk).Behind P Q := by
  unfold InfoConnection.mbinfoSent
  unfold InfoConnection.getMbinfoToSend2 at hget
  split at hget
  next hup =>
    rw [if_pos hup]
    refine ⟨fun _ => ?_, fun hdown => ?_, fun hdown => ?_, fun hdown => ?_⟩
    · have hskip : ListCursor.next con.mblks mblk =
          ListCursor.skip con.mblks mblk con.currentMblk := by
        rw [hget, ListCursor.skip, if_pos rfl]
      dsimp only
      rw [hskip]
      exact (h.blocks hup).skip hwf.mblks hwf.currentMblk hP
    · cases hup.symm.trans hdown
    · cases hup.symm.trans hdown
    · cases hup.symm.trans hdown
  next hup =>
    rw [if_neg hup]
    refine ⟨fun hup' => absurd hup' hup, fun hdown => ?_, fun hdown => ?_, fun hdown => ?_⟩
    · exact (h.cloudBlocks hdown).skip hwf.mblks hwf.currentCloudMblk hQ
    · exact skipBuffer_covers (h.sources hdown) hwf.sbufs hwf.sbufMbinfoDown hP
    · exact skipBuffer_covers (h.targets hdown) hwf.tbufs hwf.tbufMbinfoDown hP

/-- Only blocks which are skipped are passed over on the way to the next info. -/
theorem InfoConnection.getMbinfoToSend_spec (bound : ℕ) (hwf : con.WellFormed)
    (h : con.Behind P Q) (hP : ∀ mblk, con.skips mblk = true → P mblk)
    (hQ : ∀ mblk, con.skips mblk = true → Q mblk) :
    con.SameLists (InfoConnection.getMbinfoToSend bound con).2 ∧
      (InfoConnection.getMbinfoToSend bound con).2.WellFormed ∧
      (InfoConnection.getMbinfoToSend bound con).2.Behind P Q ∧
      ∀ mblk, (InfoConnection.getMbinfoToSend bound con).1 = some mblk →
        (InfoConnection.getMbinfoToSend bound con).2.getMbinfoToSend2 = some mblk := by
  induction bound generalizing con with
  | zero => exact ⟨⟨rfl, rfl, rfl, rfl, rfl, rfl⟩, hwf, h, fun _ hnone => by cases hnone⟩
  | succ bound ih =>
      rw [InfoConnection.getMbinfoToSend]
      cases hget : con.getMbinfoToSend2 with
      | none => exact ⟨⟨rfl, rfl, rfl, rfl, rfl, rfl⟩, hwf, h, fun _ hnone => by cases hnone⟩
      | some mblk =>
          dsimp only
          split_ifs with hskip
          · have hsame := con.mbinfoSent_sameLists mblk
            have hskips : ∀ other, (con.mbinfoSent mblk).skips other = con.skips other :=
              fun _ => InfoConnection.skips_congr hsame.connectUp hsame.cloudConnection
                hsame.security
            obtain ⟨hlists, hrest⟩ := ih hwf.mbinfoSent
              (h.mbinfoSent hwf hget (hP mblk hskip) (hQ mblk hskip))
              (fun other hother => hP other ((hskips other).symm.trans hother))
              (fun other hother => hQ other ((hskips other).symm.trans hother))
            exact ⟨hsame.trans hlists, hrest⟩
          · refine ⟨⟨rfl, rfl, rfl, rfl, rfl, rfl⟩, hwf, h, fun other hsome => ?_⟩
            cases hsome
            exact hget

end Passing

theorem Announcements.MustAnnounce.not_skips {s : Announcements} {mblk : InfoBlock}
    (h : s.MustAnnounce mblk) (hwf : s.con.WellFormed) : s.con.skips mblk = false := by
  unfold Announcements.MustAnnounce at h
  unfold InfoConnection.skips
  split at h
  next hup =>
    rw [h.1, h.2, hup]
    rfl
  next hup =>
    obtain ⟨hfloor, ⟨hcloud, hauthorized, hflags, -⟩ | ⟨hlinked, hflags⟩⟩ := h
    · have hallow : s.con.cloudFlagsAllow mblk = true := by
        unfold InfoConnection.cloudFlagsAllow
        rw [if_pos hcloud, hflags]
        rfl
      rw [hauthorized, hallow, hfloor, Bool.and_false]
      rfl
    · have hauthorized : s.con.authorizes mblk = true := by
        rcases hlinked with ⟨sbuf, hsbuf, rfl⟩ | ⟨tbuf, htbuf, rfl⟩
        · exact (hwf.sources sbuf hsbuf).2
        · exact (hwf.targets tbuf htbuf).2
      rw [hauthorized, hflags, hfloor, Bool.and_false]
      rfl

/-! ## The invariant -/

/-- The info of the block is not sent, or it has been sent. -/
def Announcements.Done (s : Announcements) (mblk : InfoBlock) : Prop :=
  s.con.skips mblk = true ∨ mblk ∈ s.announced

/-- The same for the infos to a cloud server. -/
def Announcements.CloudDone (s : Announcements) (mblk : InfoBlock) : Prop :=
  s.Done mblk ∨ mblk ∈ s.overwritten ∨ s.con.cloudConnection = false ∨
    mblk ∉ s.established ∧ mblk.cloudOnly = false

structure Announcements.Invariant (s : Announcements) : Prop where
  wellFormed : s.con.WellFormed
  established : ∀ mblk ∈ s.established, mblk ∈ s.con.mblks
  behind : s.con.Behind s.Done s.CloudDone

section Steps

variable {s : Announcements} {mblk : InfoBlock}

theorem InfoConnection.takesCloudCursor_spec {con : InfoConnection}
    (h : con.takesCloudCursor mblk = true) :
    con.connectUp = false ∧ con.cloudConnection = true ∧ mblk.cloudOnly = true ∧
      mblk.noCloud = false := by
  unfold InfoConnection.takesCloudCursor at h
  simpa [and_assoc] using h

/-- The three things which creating a block does to a connection. -/
theorem InfoConnection.initializeMemoryBlock_cases (con : InfoConnection) (mblk : InfoBlock) :
    con.connectUp = true ∧ con.takesCloudCursor mblk = false ∧
        con.initializeMemoryBlock mblk =
          { con with
            mblks := con.mblks ++ [mblk]
            currentMblk := con.currentMblk.or (some mblk) } ∨
      con.takesCloudCursor mblk = true ∧
        con.initializeMemoryBlock mblk =
          { con with
            mblks := con.mblks ++ [mblk]
            currentCloudMblk := some mblk } ∨
      con.takesCloudCursor mblk = false ∧ (con.connectUp = true → con.skips mblk = true) ∧
        con.initializeMemoryBlock mblk = { con with mblks := con.mblks ++ [mblk] } := by
  unfold InfoConnection.initializeMemoryBlock InfoConnection.addMblkToGlobalMbinfo
    InfoConnection.takesCloudCursor InfoConnection.skips InfoConnection.cloudFlagsAllow
  obtain ⟨connectUp, cloud, security, mblks, sbufs, tbufs, current, currentCloud, sdown,
    tdown⟩ := con
  cases connectUp <;> cases cloud <;> cases mblk.cloudOnly <;> cases mblk.noCloud <;>
    cases current <;> simp

theorem Announcements.Invariant.initializeMemoryBlock (h : s.Invariant)
    (hnew : mblk ∉ s.con.mblks) :
    Announcements.Invariant
      { s with
        con := s.con.initializeMemoryBlock mblk
        overwritten :=
          if s.con.takesCloudCursor mblk then
            s.overwritten ++ ListCursor.ahead s.con.mblks s.con.currentCloudMblk
          else s.overwritten } := by
  have hwf := h.wellFormed
  have hnodup : (s.con.mblks ++ [mblk]).Nodup := by
    rw [← List.concat_eq_append]
    exact hwf.mblks.concat hnew
  have hsources : ∀ sbuf ∈ s.con.sbufs,
      sbuf.mblk ∈ s.con.mblks ++ [mblk] ∧ s.con.authorizes sbuf.mblk = true :=
    fun sbuf hsbuf => (hwf.sources sbuf hsbuf).imp_left (List.mem_append_left _)
  have htargets : ∀ tbuf ∈ s.con.tbufs,
      tbuf.mblk ∈ s.con.mblks ++ [mblk] ∧ s.con.authorizes tbuf.mblk = true :=
    fun tbuf htbuf => (hwf.targets tbuf htbuf).imp_left (List.mem_append_left _)
  have hestablished : ∀ other ∈ s.established, other ∈ s.con.mblks ++ [mblk] :=
    fun other hother => List.mem_append_left _ (h.established other hother)
  rcases s.con.initializeMemoryBlock_cases mblk with
    ⟨hup, htakes, hcon⟩ | ⟨htakes, hcon⟩ | ⟨htakes, hskips, hcon⟩
  · rw [hcon, htakes]
    refine ⟨?_, hestablished, fun _ => ?_, fun hdown => ?_, fun hdown => ?_, fun hdown => ?_⟩
    · exact
        { hwf with
          mblks := hnodup
          currentMblk := hwf.currentMblk.append_or
          currentCloudMblk := hwf.currentCloudMblk.append
          sources := hsources
          targets := htargets }
    · exact (h.behind.blocks hup).append_or hwf.currentMblk
    · cases hup.symm.trans hdown
    · cases hup.symm.trans hdown
    · cases hup.symm.trans hdown
  · rw [hcon, htakes]
    obtain ⟨hdown, -⟩ := InfoConnection.takesCloudCursor_spec htakes
    refine ⟨?_, hestablished, fun hup => ?_, fun _ => ?_, h.behind.sources, h.behind.targets⟩
    · exact
        { hwf with
          mblks := hnodup
          currentMblk := hwf.currentMblk.append
          currentCloudMblk := .some (List.mem_append_right _ List.mem_cons_self)
          sources := hsources
          targets := htargets }
    · cases hdown.symm.trans hup
    · apply ListCursor.Covers.restart
      intro other hother
      rcases h.behind.cloudBlocks hdown other hother with
        (hdone | hoverwritten | hrest) | hahead
      · exact .inl hdone
      · exact .inr (.inl (List.mem_append_left _ hoverwritten))
      · exact .inr (.inr hrest)
      · exact .inr (.inl (List.mem_append_right _ hahead))
  · rw [hcon, htakes]
    refine ⟨?_, hestablished, fun hup => ?_, fun hdown => ?_, h.behind.sources,
      h.behind.targets⟩
    · exact
        { hwf with
          mblks := hnodup
          currentMblk := hwf.currentMblk.append
          currentCloudMblk := hwf.currentCloudMblk.append
          sources := hsources
          targets := htargets }
    · exact (h.behind.blocks hup).append hwf.currentMblk (.inl (hskips hup))
    · apply (h.behind.cloudBlocks hdown).append hwf.currentCloudMblk
      -- A block which does not take the cursor is not announced for being new.
      unfold InfoConnection.takesCloudCursor at htakes
      change s.con.connectUp = false at hdown
      rw [hdown] at htakes
      cases hcloud : s.con.cloudConnection with
      | false => exact .inr (.inr (.inl hcloud))
      | true =>
          cases honly : mblk.cloudOnly with
          | false =>
              exact .inr (.inr (.inr ⟨fun hmem => hnew (h.established mblk hmem), honly⟩))
          | true =>
              rw [hcloud, honly] at htakes
              have hno : mblk.noCloud = true := by simpa using htakes
              refine .inl (.inl ?_)
              have hallow : s.con.cloudFlagsAllow mblk = false := by
                unfold InfoConnection.cloudFlagsAllow
                rw [if_pos hcloud, hno]
                rfl
              change s.con.skips mblk = true
              unfold InfoConnection.skips
              rw [hallow]
              rfl

theorem InfoConnection.foldl_releaseSourceBuffer (sbufs : List InfoBuffer)
    (con : InfoConnection) :
    sbufs.foldl InfoConnection.releaseSourceBuffer con =
      { con with
        sbufs := (ListCursor.eraseAll sbufs con.sbufs con.sbufMbinfoDown).1
        sbufMbinfoDown := (ListCursor.eraseAll sbufs con.sbufs con.sbufMbinfoDown).2 } := by
  induction sbufs generalizing con with
  | nil => rfl
  | cons sbuf sbufs ih =>
      rw [List.foldl_cons, ih]
      rfl

theorem InfoConnection.foldl_releaseTargetBuffer (tbufs : List InfoBuffer)
    (con : InfoConnection) :
    tbufs.foldl InfoConnection.releaseTargetBuffer con =
      { con with
        tbufs := (ListCursor.eraseAll tbufs con.tbufs con.tbufMbinfoDown).1
        tbufMbinfoDown := (ListCursor.eraseAll tbufs con.tbufs con.tbufMbinfoDown).2 } := by
  induction tbufs generalizing con with
  | nil => rfl
  | cons tbuf tbufs ih =>
      rw [List.foldl_cons, ih]
      rfl

/-- No buffer of the block is left when all of them have been released. -/
theorem mem_eraseAll_filter {bufs : List InfoBuffer} {cursor : Option InfoBuffer}
    {buf : InfoBuffer} (hnodup : bufs.Nodup)
    (hbuf : buf ∈ (ListCursor.eraseAll (bufs.filter fun buf => decide (buf.mblk = mblk)) bufs
      cursor).1) : buf ∈ bufs ∧ buf.mblk ≠ mblk := by
  rw [ListCursor.eraseAll_fst, hnodup.mem_sdiff_iff, List.mem_filter] at hbuf
  refine ⟨hbuf.1, fun hmblk => hbuf.2 ⟨hbuf.1, ?_⟩⟩
  rw [decide_eq_true_eq]
  exact hmblk

theorem Announcements.Invariant.releaseMemoryBlock (h : s.Invariant) :
    Announcements.Invariant
      { con := s.con.releaseMemoryBlock mblk
        established := s.established.filter fun other => decide (other ≠ mblk)
        announced := s.announced.filter fun other => decide (other ≠ mblk)
        overwritten := s.overwritten.filter fun other => decide (other ≠ mblk) } := by
  have hwf := h.wellFormed
  have hkept : ∀ {other : InfoBlock} {others : List InfoBlock}, other ≠ mblk →
      other ∈ others → other ∈ others.filter fun other => decide (other ≠ mblk) := by
    intro other others hne hother
    rw [List.mem_filter, decide_eq_true_eq]
    exact ⟨hother, hne⟩
  have hdone : ∀ other, other ≠ mblk → s.Done other →
      s.con.skips other = true ∨
        other ∈ s.announced.filter fun other => decide (other ≠ mblk) :=
    fun other hne hother => hother.imp_right (hkept hne)
  unfold InfoConnection.releaseMemoryBlock
  dsimp only
  rw [InfoConnection.foldl_releaseSourceBuffer, InfoConnection.foldl_releaseTargetBuffer]
  unfold InfoConnection.mbinfoMblkIsDeleted
  dsimp only
  refine ⟨?_, fun other hother => ?_, fun hup => ?_, fun hdown => ?_, fun hdown => ?_,
    fun hdown => ?_⟩
  · exact
      { mblks := hwf.mblks.erase mblk
        sbufs := by
          dsimp only
          rw [ListCursor.eraseAll_fst]
          exact hwf.sbufs.diff
        tbufs := by
          dsimp only
          rw [ListCursor.eraseAll_fst]
          exact hwf.tbufs.diff
        currentMblk := ListCursor.skip_valid_erase hwf.mblks hwf.currentMblk
        currentCloudMblk := ListCursor.skip_valid_erase hwf.mblks hwf.currentCloudMblk
        sbufMbinfoDown := ListCursor.eraseAll_valid hwf.sbufs hwf.sbufMbinfoDown
        tbufMbinfoDown := ListCursor.eraseAll_valid hwf.tbufs hwf.tbufMbinfoDown
        sources := by
          intro sbuf hsbuf
          obtain ⟨hmem, hne⟩ := mem_eraseAll_filter hwf.sbufs hsbuf
          obtain ⟨hmblk, hauthorized⟩ := hwf.sources sbuf hmem
          exact ⟨(List.mem_erase_of_ne hne).mpr hmblk, hauthorized⟩
        targets := by
          intro tbuf htbuf
          obtain ⟨hmem, hne⟩ := mem_eraseAll_filter hwf.tbufs htbuf
          obtain ⟨hmblk, hauthorized⟩ := hwf.targets tbuf hmem
          exact ⟨(List.mem_erase_of_ne hne).mpr hmblk, hauthorized⟩ }
  · obtain ⟨hmem, hne⟩ := List.mem_filter.mp hother
    rw [decide_eq_true_eq] at hne
    exact (List.mem_erase_of_ne hne).mpr (h.established other hmem)
  · apply ((h.behind.blocks hup).erase hwf.mblks hwf.currentMblk).mono
    intro other hother
    exact hdone other (hwf.mblks.mem_erase_iff.mp hother).1
  · apply ((h.behind.cloudBlocks hdown).erase hwf.mblks hwf.currentCloudMblk).mono
    intro other hother hcloud
    have hne := (hwf.mblks.mem_erase_iff.mp hother).1
    rcases hcloud with hother | hoverwritten | hrest | ⟨hold, honly⟩
    · exact .inl (hdone other hne hother)
    · exact .inr (.inl (hkept hne hoverwritten))
    · exact .inr (.inr (.inl hrest))
    · exact .inr (.inr (.inr ⟨fun hmem => hold (List.mem_filter.mp hmem).1, honly⟩))
  · apply ((h.behind.sources hdown).eraseAll hwf.sbufs hwf.sbufMbinfoDown).mono
    intro sbuf hsbuf
    exact hdone sbuf.mblk (mem_eraseAll_filter hwf.sbufs hsbuf).2
  · apply ((h.behind.targets hdown).eraseAll hwf.tbufs hwf.tbufMbinfoDown).mono
    intro tbuf htbuf
    exact hdone tbuf.mblk (mem_eraseAll_filter hwf.tbufs htbuf).2

theorem InfoConnection.markCloudMblk_valid (con : InfoConnection) (hmem : mblk ∈ con.mblks)
    (h : ListCursor.Valid con.mblks con.currentCloudMblk) :
    ListCursor.Valid con.mblks (con.markCloudMblk mblk).currentCloudMblk := by
  unfold InfoConnection.markCloudMblk
  split_ifs
  · cases hcursor : con.currentCloudMblk with
    | none => exact .some hmem
    | some other =>
        rw [hcursor] at h
        exact h
  · exact h

theorem InfoConnection.markCloudMblk_eq (con : InfoConnection) (mblk : InfoBlock) :
    con.markCloudMblk mblk =
      { con with currentCloudMblk := (con.markCloudMblk mblk).currentCloudMblk } := by
  unfold InfoConnection.markCloudMblk
  split_ifs <;> rfl

theorem Announcements.Invariant.newSourceBuffer (h : s.Invariant) {sbuf : InfoBuffer}
    (hnew : sbuf ∉ s.con.sbufs) (hmem : sbuf.mblk ∈ s.con.mblks)
    (hauthorized : s.con.authorizes sbuf.mblk = true) :
    Announcements.Invariant { s with con := s.con.mbinfoNewSbuf sbuf } := by
  have hwf := h.wellFormed
  have hnodup : (s.con.sbufs ++ [sbuf]).Nodup := by
    rw [← List.concat_eq_append]
    exact hwf.sbufs.concat hnew
  have hsources : ∀ other ∈ s.con.sbufs ++ [sbuf],
      other.mblk ∈ s.con.mblks ∧ s.con.authorizes other.mblk = true := by
    intro other hother
    rcases List.mem_append.mp hother with hother | hother
    · exact hwf.sources other hother
    · rw [List.mem_singleton.mp hother]
      exact ⟨hmem, hauthorized⟩
  unfold InfoConnection.mbinfoNewSbuf
  split_ifs with hlinked hup
  · exact h
  · refine ⟨?_, h.established, h.behind.blocks, h.behind.cloudBlocks, fun hdown => ?_,
      h.behind.targets⟩
    · exact
        { hwf with
          sbufs := hnodup
          sbufMbinfoDown := hwf.sbufMbinfoDown.append_or
          sources := hsources }
    · exact (h.behind.sources hdown).append_or hwf.sbufMbinfoDown
  · have hconnectUp : s.con.connectUp = true := by simpa using hup
    dsimp only
    rw [InfoConnection.markCloudMblk_eq]
    refine ⟨?_, h.established, h.behind.blocks, fun hdown => ?_, fun hdown => ?_,
      fun hdown => ?_⟩
    · exact
        { hwf with
          sbufs := hnodup
          currentCloudMblk :=
            InfoConnection.markCloudMblk_valid { s.con with sbufs := s.con.sbufs ++ [sbuf] } hmem
              hwf.currentCloudMblk
          sbufMbinfoDown := hwf.sbufMbinfoDown.append
          sources := hsources }
    · cases hconnectUp.symm.trans hdown
    · cases hconnectUp.symm.trans hdown
    · cases hconnectUp.symm.trans hdown

theorem Announcements.Invariant.newTargetBuffer (h : s.Invariant) {tbuf : InfoBuffer}
    (hnew : tbuf ∉ s.con.tbufs) (hmem : tbuf.mblk ∈ s.con.mblks)
    (hauthorized : s.con.authorizes tbuf.mblk = true) :
    Announcements.Invariant { s with con := s.con.mbinfoNewTbuf tbuf } := by
  have hwf := h.wellFormed
  have hnodup : (s.con.tbufs ++ [tbuf]).Nodup := by
    rw [← List.concat_eq_append]
    exact hwf.tbufs.concat hnew
  have htargets : ∀ other ∈ s.con.tbufs ++ [tbuf],
      other.mblk ∈ s.con.mblks ∧ s.con.authorizes other.mblk = true := by
    intro other hother
    rcases List.mem_append.mp hother with hother | hother
    · exact hwf.targets other hother
    · rw [List.mem_singleton.mp hother]
      exact ⟨hmem, hauthorized⟩
  unfold InfoConnection.mbinfoNewTbuf
  split_ifs with hlinked hup
  · exact h
  · refine ⟨?_, h.established, h.behind.blocks, h.behind.cloudBlocks, h.behind.sources,
      fun hdown => ?_⟩
    · exact
        { hwf with
          tbufs := hnodup
          tbufMbinfoDown := hwf.tbufMbinfoDown.append_or
          targets := htargets }
    · exact (h.behind.targets hdown).append_or hwf.tbufMbinfoDown
  · have hconnectUp : s.con.connectUp = true := by simpa using hup
    dsimp only
    rw [InfoConnection.markCloudMblk_eq]
    refine ⟨?_, h.established, h.behind.blocks, fun hdown => ?_, fun hdown => ?_,
      fun hdown => ?_⟩
    · exact
        { hwf with
          tbufs := hnodup
          currentCloudMblk :=
            InfoConnection.markCloudMblk_valid { s.con with tbufs := s.con.tbufs ++ [tbuf] } hmem
              hwf.currentCloudMblk
          tbufMbinfoDown := hwf.tbufMbinfoDown.append
          targets := htargets }
    · cases hconnectUp.symm.trans hdown
    · cases hconnectUp.symm.trans hdown
    · cases hconnectUp.symm.trans hdown

theorem Announcements.Invariant.releaseSourceBuffer (h : s.Invariant) {sbuf : InfoBuffer} :
    Announcements.Invariant { s with con := s.con.releaseSourceBuffer sbuf } := by
  have hwf := h.wellFormed
  refine ⟨?_, h.established, h.behind.blocks, h.behind.cloudBlocks, fun hdown => ?_,
    h.behind.targets⟩
  · exact
      { hwf with
        sbufs := hwf.sbufs.erase sbuf
        sbufMbinfoDown := ListCursor.skip_valid_erase hwf.sbufs hwf.sbufMbinfoDown
        sources := fun other hother => hwf.sources other (List.mem_of_mem_erase hother) }
  · exact (h.behind.sources hdown).erase hwf.sbufs hwf.sbufMbinfoDown

theorem Announcements.Invariant.releaseTargetBuffer (h : s.Invariant) {tbuf : InfoBuffer} :
    Announcements.Invariant { s with con := s.con.releaseTargetBuffer tbuf } := by
  have hwf := h.wellFormed
  refine ⟨?_, h.established, h.behind.blocks, h.behind.cloudBlocks, h.behind.sources,
    fun hdown => ?_⟩
  · exact
      { hwf with
        tbufs := hwf.tbufs.erase tbuf
        tbufMbinfoDown := ListCursor.skip_valid_erase hwf.tbufs hwf.tbufMbinfoDown
        targets := fun other hother => hwf.targets other (List.mem_of_mem_erase hother) }
  · exact (h.behind.targets hdown).erase hwf.tbufs hwf.tbufMbinfoDown

/-- Looking for the next info, whether it is sent then or not. -/
theorem Announcements.Invariant.getMbinfoToSend (h : s.Invariant) {found : Option InfoBlock}
    {con : InfoConnection}
    (hget : InfoConnection.getMbinfoToSend s.con.infoBound s.con = (found, con)) :
    s.con.SameLists con ∧ Announcements.Invariant { s with con := con } ∧
      ∀ mblk, found = some mblk → con.getMbinfoToSend2 = some mblk := by
  obtain ⟨hsame, hwf, hbehind, hfound⟩ :=
    InfoConnection.getMbinfoToSend_spec s.con.infoBound h.wellFormed h.behind
      (fun _ hskips => .inl hskips) (fun _ hskips => .inl (.inl hskips))
  rw [hget] at hsame hwf hbehind hfound
  refine ⟨hsame, ⟨hwf, fun mblk hmem => ?_, ?_⟩, hfound⟩
  · dsimp only
    rw [hsame.mblks]
    exact h.established mblk hmem
  · have hskips : ∀ mblk, con.skips mblk = s.con.skips mblk := fun _ =>
      InfoConnection.skips_congr hsame.connectUp hsame.cloudConnection hsame.security
    have hdone : ∀ mblk, s.Done mblk → Announcements.Done { s with con := con } mblk := by
      intro mblk hdone
      exact hdone.imp_left fun hskip => (hskips mblk).trans hskip
    apply hbehind.mono hdone
    intro mblk _ hcloud
    rcases hcloud with hother | hoverwritten | hrest | hold
    · exact .inl (hdone mblk hother)
    · exact .inr (.inl hoverwritten)
    · exact .inr (.inr (.inl (hsame.cloudConnection.trans hrest)))
    · exact .inr (.inr (.inr hold))

theorem Announcements.Invariant.mbinfoSent (h : s.Invariant)
    (hget : s.con.getMbinfoToSend2 = some mblk) :
    Announcements.Invariant
      { s with con := s.con.mbinfoSent mblk, announced := s.announced ++ [mblk] } := by
  have hsame := s.con.mbinfoSent_sameLists mblk
  have hskips : ∀ other, (s.con.mbinfoSent mblk).skips other = s.con.skips other := fun _ =>
    InfoConnection.skips_congr hsame.connectUp hsame.cloudConnection hsame.security
  have hdone : ∀ other, s.Done other ∨ other = mblk →
      Announcements.Done
        { s with con := s.con.mbinfoSent mblk, announced := s.announced ++ [mblk] } other := by
    intro other hother
    rcases hother with (hskip | hannounced) | rfl
    · exact .inl ((hskips other).trans hskip)
    · exact .inr (List.mem_append_left _ hannounced)
    · exact .inr (List.mem_append_right _ List.mem_cons_self)
  refine ⟨h.wellFormed.mbinfoSent, fun other hmem => ?_, ?_⟩
  · dsimp only
    rw [hsame.mblks]
    exact h.established other hmem
  · have hbehind : s.con.Behind (fun other => s.Done other ∨ other = mblk)
        (fun other => s.CloudDone other ∨ other = mblk) :=
      h.behind.mono (fun _ => .inl) (fun _ _ => .inl)
    apply (hbehind.mbinfoSent h.wellFormed hget (.inr rfl) (.inr rfl)).mono hdone
    intro other _ hcloud
    rcases hcloud with (hother | hoverwritten | hrest | hold) | hself
    · exact .inl (hdone other (.inl hother))
    · exact .inr (.inl hoverwritten)
    · exact .inr (.inr (.inl (hsame.cloudConnection.trans hrest)))
    · exact .inr (.inr (.inr hold))
    · exact .inl (hdone other (.inr hself))

end Steps

theorem Announcements.Invariant.step {s t : Announcements} (h : s.Invariant)
    (hstep : AnnouncementStep s t) : t.Invariant := by
  cases hstep with
  | initializeMemoryBlock mblk hnew =>
      exact h.initializeMemoryBlock fun hmem => hnew mblk hmem rfl
  | releaseMemoryBlock mblk hmem => exact h.releaseMemoryBlock
  | newSourceBuffer sbuf hnew hmem hauthorized =>
      exact h.newSourceBuffer (fun hold => hnew sbuf hold rfl) hmem hauthorized
  | newTargetBuffer tbuf hnew hmem hauthorized =>
      exact h.newTargetBuffer (fun hold => hnew tbuf hold rfl) hmem hauthorized
  | releaseSourceBuffer sbuf hmem => exact h.releaseSourceBuffer
  | releaseTargetBuffer tbuf hmem => exact h.releaseTargetBuffer
  | sendInfo mblk con hget =>
      obtain ⟨-, hfound, hnext⟩ := h.getMbinfoToSend hget
      exact hfound.mbinfoSent (hnext mblk rfl)
  | delayInfo mblk con hget => exact (h.getMbinfoToSend hget).2.1

theorem AnnouncementStart.invariant {s : Announcements} (h : AnnouncementStart s) :
    s.Invariant := by
  obtain ⟨con, hcurrent, hcloud, hcon⟩ := h.established
  obtain ⟨hmblks, hestablished⟩ := h.mblks
  obtain ⟨hsbufs, hsdown, hsources⟩ := h.sbufs
  obtain ⟨htbufs, htdown, htargets⟩ := h.tbufs
  have hvalid : ∀ {bufs : List InfoBuffer} {cursor : Option InfoBuffer},
      cursor = (if s.con.connectUp then none else bufs.head?) →
        ListCursor.Valid bufs cursor := by
    intro bufs cursor hcursor
    rw [hcursor]
    split_ifs
    · exact .none
    · exact .head
  have hcovers : ∀ {bufs : List InfoBuffer} {cursor : Option InfoBuffer},
      cursor = (if s.con.connectUp then none else bufs.head?) → s.con.connectUp = false →
        ListCursor.Covers bufs cursor fun buf => s.Done buf.mblk := by
    intro bufs cursor hcursor hdown
    rw [hdown] at hcursor
    rw [hcursor]
    exact .head
  have hcursors : ListCursor.Valid s.con.mblks s.con.currentMblk ∧
      ListCursor.Valid s.con.mblks s.con.currentCloudMblk ∧
      (s.con.connectUp = true → s.con.currentMblk = s.con.mblks.head?) ∧
      (s.con.connectUp = false → s.con.cloudConnection = true →
        s.con.currentCloudMblk = s.con.mblks.head?) := by
    rw [hcon]
    unfold InfoConnection.addConToGlobalMbinfo
    split_ifs with hup hcloudCon
    · exact ⟨.head, hcloud, fun _ => rfl, fun hdown => by cases hup.symm.trans hdown⟩
    · exact ⟨hcurrent, .head, fun hup' => absurd hup' hup, fun _ _ => rfl⟩
    · exact ⟨hcurrent, hcloud, fun hup' => absurd hup' hup,
        fun _ hcloudCon' => absurd hcloudCon' hcloudCon⟩
  obtain ⟨hvalidMblk, hvalidCloud, hfirst, hcloudFirst⟩ := hcursors
  refine ⟨?_, fun mblk hmem => ?_, fun hup => ?_, fun hdown => ?_, hcovers hsdown,
    hcovers htdown⟩
  · exact
      { mblks := hmblks
        sbufs := hsbufs
        tbufs := htbufs
        currentMblk := hvalidMblk
        currentCloudMblk := hvalidCloud
        sbufMbinfoDown := hvalid hsdown
        tbufMbinfoDown := hvalid htdown
        sources := hsources
        targets := htargets }
  · rw [← hestablished]
    exact hmem
  · rw [hfirst hup]
    exact .head
  · cases hcloudCon : s.con.cloudConnection with
    | true =>
        rw [hcloudFirst hdown hcloudCon]
        exact .head
    | false => exact fun _ _ => .inl (.inr (.inr (.inl hcloudCon)))

theorem Announcements.Invariant.announced {s : Announcements} (h : s.Invariant)
    {mblk : InfoBlock} (hmem : mblk ∈ s.con.mblks) (hmust : s.MustAnnounce mblk) :
    mblk ∈ s.announced ∨ s.con.IsAhead mblk ∨ mblk ∈ s.overwritten := by
  have hskips := hmust.not_skips h.wellFormed
  have hdone : s.Done mblk → mblk ∈ s.announced := by
    intro hdone
    refine hdone.resolve_left fun hskip => ?_
    rw [hskips] at hskip
    cases hskip
  unfold InfoConnection.IsAhead
  cases hup : s.con.connectUp with
  | true =>
      rw [if_pos rfl]
      exact (h.behind.blocks hup mblk hmem).imp hdone .inl
  | false =>
      rw [if_neg Bool.false_ne_true]
      unfold Announcements.MustAnnounce at hmust
      rw [hup, if_neg Bool.false_ne_true] at hmust
      obtain ⟨-, ⟨hcloud, -, -, hold⟩ | ⟨⟨sbuf, hsbuf, rfl⟩ | ⟨tbuf, htbuf, rfl⟩, -⟩⟩ := hmust
      · rcases h.behind.cloudBlocks hup mblk hmem with
          (hother | hoverwritten | hrest | ⟨hnew, honly⟩) | hahead
        · exact .inl (hdone hother)
        · exact .inr (.inr hoverwritten)
        · cases hcloud.symm.trans hrest
        · rcases hold with hold | hold
          · exact absurd hold hnew
          · cases hold.symm.trans honly
        · exact .inr (.inl (.inl hahead))
      · exact (h.behind.sources hup sbuf hsbuf).imp hdone
          fun hahead => .inl (.inr (.inl ⟨sbuf, hahead, rfl⟩))
      · exact (h.behind.targets hup tbuf htbuf).imp hdone
          fun hahead => .inl (.inr (.inr ⟨tbuf, hahead, rfl⟩))

/-- In every run, a block which is to be announced has been announced since
the connection was established, or is ahead of a cursor, or was ahead of the
cursor which a new block took over. -/
theorem memory_blocks_announced {start s : Announcements} (hstart : AnnouncementStart start)
    (hrun : Relation.ReflTransGen AnnouncementStep start s) {mblk : InfoBlock}
    (hmem : mblk ∈ s.con.mblks) (hmust : s.MustAnnounce mblk) :
    mblk ∈ s.announced ∨ s.con.IsAhead mblk ∨ mblk ∈ s.overwritten := by
  have h := TransitionSystem.invariant_of_run _ (fun _ _ h hstep => h.step hstep)
    hstart.invariant hrun
  exact h.announced hmem hmust

/-! ## Nothing left to announce -/

def InfoConnection.infosAhead (con : InfoConnection) : ℕ :=
  if con.connectUp then (ListCursor.ahead con.mblks con.currentMblk).length
  else
    (ListCursor.ahead con.mblks con.currentCloudMblk).length +
      (ListCursor.ahead con.sbufs con.sbufMbinfoDown).length +
      (ListCursor.ahead con.tbufs con.tbufMbinfoDown).length

theorem length_ahead_skipBuffer_le {bufs : List InfoBuffer} {cursor : Option InfoBuffer}
    (mblk : InfoBlock) (hnodup : bufs.Nodup) (hvalid : ListCursor.Valid bufs cursor) :
    (ListCursor.ahead bufs (skipBuffer bufs mblk cursor)).length ≤
      (ListCursor.ahead bufs cursor).length :=
  skipBuffer_rule
    (motive := fun moved =>
      (ListCursor.ahead bufs moved).length ≤ (ListCursor.ahead bufs cursor).length)
    (Nat.le_refl _) fun _ _ => ListCursor.length_ahead_skip_le hnodup hvalid

theorem length_ahead_skipBuffer_lt {bufs : List InfoBuffer} {buf : InfoBuffer}
    (hnodup : bufs.Nodup) (hmem : buf ∈ bufs) :
    (ListCursor.ahead bufs (skipBuffer bufs buf.mblk (some buf))).length <
      (ListCursor.ahead bufs (some buf)).length := by
  have hlen := ListCursor.length_ahead_next hnodup hmem
  unfold skipBuffer
  dsimp only
  rw [if_pos rfl]
  omega

theorem InfoConnection.infosAhead_mbinfoSent {con : InfoConnection} {mblk : InfoBlock}
    (h : con.WellFormed) (hget : con.getMbinfoToSend2 = some mblk) :
    (con.mbinfoSent mblk).infosAhead < con.infosAhead := by
  unfold InfoConnection.mbinfoSent InfoConnection.infosAhead
  unfold InfoConnection.getMbinfoToSend2 at hget
  split at hget
  next hup =>
    have hlen := ListCursor.length_ahead_next h.mblks (h.currentMblk mblk hget)
    rw [if_pos hup, if_pos hup, if_pos hup, hget]
    dsimp only
    omega
  next hup =>
    rw [if_neg hup, if_neg hup, if_neg hup]
    have hcloud := ListCursor.length_ahead_skip_le (a := mblk) h.mblks h.currentCloudMblk
    have hsource := length_ahead_skipBuffer_le mblk h.sbufs h.sbufMbinfoDown
    have htarget := length_ahead_skipBuffer_le mblk h.tbufs h.tbufMbinfoDown
    dsimp only
    split at hget
    next other hcursor =>
      cases hget
      have hlen := ListCursor.length_ahead_next h.mblks (h.currentCloudMblk mblk hcursor)
      have hskip : ListCursor.skip con.mblks mblk con.currentCloudMblk =
          ListCursor.next con.mblks mblk := by
        rw [ListCursor.skip, if_pos hcursor]
      rw [hskip, hcursor]
      omega
    next =>
      split at hget
      next sbuf hcursor =>
        cases hget
        have hlen := length_ahead_skipBuffer_lt h.sbufs (h.sbufMbinfoDown sbuf hcursor)
        rw [hcursor]
        omega
      next =>
        obtain ⟨tbuf, hcursor, rfl⟩ := Option.map_eq_some_iff.mp hget
        have hlen := length_ahead_skipBuffer_lt h.tbufs (h.tbufMbinfoDown tbuf hcursor)
        rw [hcursor]
        omega

/-- The bound on the search is large enough: it ends with an info to send or
at the end of all lists. -/
theorem InfoConnection.getMbinfoToSend_none {bound : ℕ} {con : InfoConnection}
    (h : con.WellFormed) (hbound : con.infosAhead < bound)
    (hnone : (InfoConnection.getMbinfoToSend bound con).1 = none) :
    (InfoConnection.getMbinfoToSend bound con).2.getMbinfoToSend2 = none := by
  induction bound generalizing con with
  | zero => exact absurd hbound (Nat.not_lt_zero _)
  | succ bound ih =>
      rw [InfoConnection.getMbinfoToSend] at hnone ⊢
      cases hget : con.getMbinfoToSend2 with
      | none => exact hget
      | some mblk =>
          rw [hget] at hnone
          dsimp only at hnone ⊢
          split_ifs at hnone ⊢ with hskip
          have hless := InfoConnection.infosAhead_mbinfoSent h hget
          exact ih h.mbinfoSent (by omega) hnone

theorem InfoConnection.infosAhead_lt_infoBound (con : InfoConnection) :
    con.infosAhead < con.infoBound := by
  have hcurrent := ListCursor.length_ahead_le con.mblks con.currentMblk
  have hcloud := ListCursor.length_ahead_le con.mblks con.currentCloudMblk
  have hsource := ListCursor.length_ahead_le con.sbufs con.sbufMbinfoDown
  have htarget := ListCursor.length_ahead_le con.tbufs con.tbufMbinfoDown
  unfold InfoConnection.infosAhead InfoConnection.infoBound
  split_ifs <;> omega

theorem InfoConnection.not_isAhead {con : InfoConnection} {mblk : InfoBlock}
    (hget : con.getMbinfoToSend2 = none) : ¬con.IsAhead mblk := by
  unfold InfoConnection.IsAhead
  unfold InfoConnection.getMbinfoToSend2 at hget
  split at hget
  next hup =>
    rw [if_pos hup, hget]
    exact List.not_mem_nil
  next hup =>
    rw [if_neg hup]
    split at hget
    · cases hget
    next hcloud =>
      split at hget
      · cases hget
      next hsource =>
        rw [hcloud, hsource, Option.map_eq_none_iff.mp hget]
        rintro (hmem | ⟨sbuf, hmem, -⟩ | ⟨tbuf, hmem, -⟩) <;> cases hmem

/-- When there is no info to send, all blocks have been announced but for those
which lost the cursor. -/
theorem memory_blocks_all_announced {start s : Announcements} {con : InfoConnection}
    (hstart : AnnouncementStart start)
    (hrun : Relation.ReflTransGen AnnouncementStep start s)
    (hget : InfoConnection.getMbinfoToSend s.con.infoBound s.con = (none, con))
    {mblk : InfoBlock} (hmem : mblk ∈ s.con.mblks) (hmust : s.MustAnnounce mblk) :
    mblk ∈ s.announced ∨ mblk ∈ s.overwritten := by
  have h := TransitionSystem.invariant_of_run _ (fun _ _ h hstep => h.step hstep)
    hstart.invariant hrun
  obtain ⟨hsame, hafter, -⟩ := h.getMbinfoToSend hget
  have hnone := InfoConnection.getMbinfoToSend_none h.wellFormed s.con.infosAhead_lt_infoBound
    (congrArg Prod.fst hget)
  rw [hget] at hnone
  have hmust' : Announcements.MustAnnounce { s with con := con } mblk := by
    unfold Announcements.MustAnnounce InfoConnection.authorizes
      InfoConnection.cloudFlagsAllow InfoConnection.IsLinked at hmust ⊢
    dsimp only
    rw [hsame.connectUp, hsame.cloudConnection, hsame.security, hsame.sbufs, hsame.tbufs]
    exact hmust
  have hmem' : mblk ∈ con.mblks := by
    rw [hsame.mblks]
    exact hmem
  rcases hafter.announced hmem' hmust' with hannounced | hahead | hoverwritten
  · exact .inl hannounced
  · exact absurd hahead (InfoConnection.not_isAhead hnone)
  · exact .inr hoverwritten

/-- A connection downwards, without security and without buffers, which has
been established when one block existed. -/
def downwardAnnouncements (cloudConnection : Bool) (mblk : InfoBlock) : Announcements where
  con :=
    { connectUp := false
      cloudConnection := cloudConnection
      security := ⟨false, false, false, []⟩
      mblks := [mblk]
      sbufs := []
      tbufs := []
      currentMblk := none
      currentCloudMblk := if cloudConnection then some mblk else none
      sbufMbinfoDown := none
      tbufMbinfoDown := none }
  established := [mblk]
  announced := []
  overwritten := []

theorem downwardAnnouncements_start (cloudConnection : Bool) (mblk : InfoBlock) :
    AnnouncementStart (downwardAnnouncements cloudConnection mblk) where
  established := by
    refine ⟨{ (downwardAnnouncements cloudConnection mblk).con with currentCloudMblk := none },
      .none, .none, ?_⟩
    cases cloudConnection <;> rfl
  mblks := ⟨List.nodup_singleton mblk, rfl⟩
  sbufs := ⟨List.nodup_nil, rfl, (fun _ hmem => by cases hmem)⟩
  tbufs := ⟨List.nodup_nil, rfl, (fun _ hmem => by cases hmem)⟩

inductive AnnouncementAction where
  | initializeMemoryBlock (mblk : InfoBlock)
  | newSourceBuffer (sbuf : InfoBuffer)
  | newTargetBuffer (tbuf : InfoBuffer)
  | sendInfo

def Announcements.play (s : Announcements) : AnnouncementAction → Option Announcements
  | .initializeMemoryBlock mblk =>
      if ∀ other ∈ s.con.mblks, other.ptr ≠ mblk.ptr then
        some { s with
          con := s.con.initializeMemoryBlock mblk
          overwritten :=
            if s.con.takesCloudCursor mblk then
              s.overwritten ++ ListCursor.ahead s.con.mblks s.con.currentCloudMblk
            else s.overwritten }
      else none
  | .newSourceBuffer sbuf =>
      if (∀ other ∈ s.con.sbufs, other.ptr ≠ sbuf.ptr) ∧ sbuf.mblk ∈ s.con.mblks ∧
          s.con.authorizes sbuf.mblk = true then
        some { s with con := s.con.mbinfoNewSbuf sbuf }
      else none
  | .newTargetBuffer tbuf =>
      if (∀ other ∈ s.con.tbufs, other.ptr ≠ tbuf.ptr) ∧ tbuf.mblk ∈ s.con.mblks ∧
          s.con.authorizes tbuf.mblk = true then
        some { s with con := s.con.mbinfoNewTbuf tbuf }
      else none
  | .sendInfo =>
      match InfoConnection.getMbinfoToSend s.con.infoBound s.con with
      | (some mblk, con) =>
          some { s with con := con.mbinfoSent mblk, announced := s.announced ++ [mblk] }
      | (none, _) => none

theorem Announcements.play_step {s t : Announcements} {action : AnnouncementAction}
    (h : s.play action = some t) : AnnouncementStep s t := by
  cases action with
  | initializeMemoryBlock mblk =>
      simp only [Announcements.play, Option.ite_none_right_eq_some] at h
      obtain rfl := Option.some.inj h.2
      exact .initializeMemoryBlock s mblk h.1
  | newSourceBuffer sbuf =>
      simp only [Announcements.play] at h
      split_ifs at h with hall
      obtain rfl := Option.some.inj h
      exact .newSourceBuffer s sbuf hall.1 hall.2.1 hall.2.2
  | newTargetBuffer tbuf =>
      simp only [Announcements.play] at h
      split_ifs at h with hall
      obtain rfl := Option.some.inj h
      exact .newTargetBuffer s tbuf hall.1 hall.2.1 hall.2.2
  | sendInfo =>
      simp only [Announcements.play] at h
      split at h
      next mblk con hget =>
        obtain rfl := Option.some.inj h
        exact .sendInfo s mblk con hget
      · cases h

/-- Two blocks come to be linked, one to the device and one from it, and one of the infos
is sent. -/
def linkTwoBlocks : List AnnouncementAction :=
  [.sendInfo, .initializeMemoryBlock ⟨2, "iocafenet", false, false, false⟩,
    .initializeMemoryBlock ⟨3, "iocafenet", false, false, false⟩,
    .newSourceBuffer ⟨2, ⟨2, "iocafenet", false, false, false⟩⟩,
    .newTargetBuffer ⟨3, ⟨3, "iocafenet", false, false, false⟩⟩, .sendInfo]

theorem memory_blocks_announced_downward :
    let mblk (ptr : ℕ) : InfoBlock := ⟨ptr, "iocafenet", false, false, false⟩
    ∃ s : Announcements, s.announced = [mblk 1, mblk 2] ∧
      (∀ ptr ∈ [1, 2, 3],
        mblk ptr ∈ s.announced ∨ s.con.IsAhead (mblk ptr) ∨ mblk ptr ∈ s.overwritten) := by
  intro mblk
  obtain ⟨s, hs, hannounced, hmblks, hmust⟩ : ∃ s : Announcements,
      linkTwoBlocks.foldlM Announcements.play (downwardAnnouncements true (mblk 1)) = some s ∧
        s.announced = [mblk 1, mblk 2] ∧ s.con.mblks = [mblk 1, mblk 2, mblk 3] ∧
        ∀ ptr ∈ [1, 2, 3], s.MustAnnounce (mblk ptr) := by
    refine ⟨_, rfl, rfl, rfl, fun ptr hptr => ?_⟩
    simp only [List.mem_cons, List.not_mem_nil, or_false] at hptr
    rcases hptr with rfl | rfl | rfl
    · exact ⟨rfl, .inl ⟨rfl, rfl, rfl, .inl List.mem_cons_self⟩⟩
    · exact ⟨rfl, .inr ⟨.inl ⟨_, List.mem_cons_self, rfl⟩, rfl⟩⟩
    · exact ⟨rfl, .inr ⟨.inr ⟨_, List.mem_cons_self, rfl⟩, rfl⟩⟩
  refine ⟨s, hannounced, fun ptr hptr => ?_⟩
  refine memory_blocks_announced (downwardAnnouncements_start true (mblk 1))
    (TransitionSystem.run_of_play (fun _ _ _ => Announcements.play_step) hs) ?_ (hmust ptr hptr)
  rw [hmblks]
  exact List.mem_map_of_mem hptr

/-- A linked block for the cloud only is not announced on another connection
downwards, and a block which is ahead of the cursor of the infos to a cloud
server is lost when a block for the cloud only is created. -/
theorem memory_block_not_announced :
    (¬∀ (start s : Announcements) (mblk : InfoBlock), AnnouncementStart start →
        Relation.ReflTransGen AnnouncementStep start s → mblk ∈ s.con.mblks →
        s.con.connectUp = false → mblk.floor = false → s.con.IsLinked mblk →
        mblk ∈ s.announced ∨ s.con.IsAhead mblk) ∧
      ¬∀ (start s : Announcements) (mblk : InfoBlock), AnnouncementStart start →
        Relation.ReflTransGen AnnouncementStep start s → mblk ∈ s.con.mblks →
        s.con.connectUp = false → s.con.cloudConnection = true → mblk.floor = false →
        s.con.authorizes mblk = true → mblk.noCloud = false → mblk ∈ s.established →
        mblk ∈ s.announced ∨ s.con.IsAhead mblk := by
  constructor
  · intro hannounced
    have hlinked := hannounced _ _ ⟨1, "iocafenet", true, false, false⟩
      (downwardAnnouncements_start false _)
      (.tail (.single (.newSourceBuffer _ ⟨2, ⟨1, "iocafenet", true, false, false⟩⟩
          (fun _ hmem => by cases hmem) List.mem_cons_self rfl))
        (.delayInfo _ _ _ rfl))
      List.mem_cons_self rfl rfl (.inl ⟨_, List.mem_cons_self, rfl⟩)
    rcases hlinked with hmem | hmem | ⟨sbuf, hmem, -⟩ | ⟨tbuf, hmem, -⟩ <;> cases hmem
  · intro hannounced
    have hcloud := hannounced _ _ ⟨1, "iocafenet", false, false, false⟩
      (downwardAnnouncements_start true _)
      (.single (.initializeMemoryBlock _ ⟨2, "iocafenet", true, false, false⟩
        (fun other hmem => by rw [List.mem_singleton.mp hmem]; decide)))
      List.mem_cons_self rfl rfl rfl rfl rfl List.mem_cons_self
    rcases hcloud with hmem | hmem | ⟨sbuf, hmem, -⟩ | ⟨tbuf, hmem, -⟩
    · cases hmem
    · exact absurd hmem (by decide)
    · cases hmem
    · cases hmem

end Iocom
