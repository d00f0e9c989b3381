import Iocom.DynamicBlockRelease

/-!
# Runs with dynamic blocks

Connections are closed, requests to remove blocks are received, and requests are sent
whenever flow control allows it.  A received request is carried out whatever the block is.
-/

namespace Iocom

namespace LifetimeRoot

/-! ## Received requests -/

structure NamedBy (s : LifetimeRoot) (con : ℕ) (authorizes : ℕ → Bool) (id : ℤ) (key : ℕ) :
    Prop where
  linked : ∃ link ∈ s.links, link.con = con ∧ link.mblk = key
  hasId : s.hasMblkId key id = true
  authorized : authorizes key = true

def Named (s : LifetimeRoot) (con : ℕ) (authorizes : ℕ → Bool) (ids : List ℤ) (key : ℕ) : Prop :=
  ∃ id ∈ ids, s.NamedBy con authorizes id key

theorem exists_of_hasMblkId {s : LifetimeRoot} {key : ℕ} {id : ℤ}
    (h : s.hasMblkId key id = true) : ∃ mblk ∈ s.mblks, mblk.key = key ∧ id = mblk.mblkId := by
  unfold hasMblkId at h
  cases hfind : s.mblks.find? fun mblk => decide (mblk.key = key) with
  | none => rw [hfind] at h; cases h
  | some mblk =>
      rw [hfind] at h
      exact ⟨mblk, List.mem_of_find?_eq_some hfind, by simpa using List.find?_some hfind,
        by simpa using h⟩

theorem WellFormed.key_unique {s : LifetimeRoot} (hs : s.WellFormed) {key key' : ℕ} {id : ℤ}
    (h : s.hasMblkId key id = true) (h' : s.hasMblkId key' id = true) : key = key' := by
  obtain ⟨mblk, hmblk, rfl, hid⟩ := exists_of_hasMblkId h
  obtain ⟨mblk', hmblk', rfl, hid'⟩ := exists_of_hasMblkId h'
  have hsame : mblk = mblk' := hs.unique mblk hmblk mblk' hmblk' (by omega)
  rw [hsame]

structure Serving (s u : LifetimeRoot) (removed : List ℕ) (added : List (ℕ × ℤ)) : Prop where
  mblks : u.mblks = s.mblks.filter fun mblk => decide (mblk.key ∉ removed)
  sbufs : u.sbufs = s.sbufs.filter fun link => decide (link.mblk ∉ removed)
  tbufs : u.tbufs = s.tbufs.filter fun link => decide (link.mblk ∉ removed)
  isOpen : u.isOpen = s.isOpen
  connectUp : u.connectUp = s.connectUp
  queues : Queues s u added
  generates : s.Generates none (· ∈ removed) added
  unmarked : ∀ key, u.toBeDeleted key = false

namespace Serving

variable {s u : LifetimeRoot} {removed : List ℕ} {added : List (ℕ × ℤ)}

theorem start (hs : s.WellFormed) : Serving s s [] [] where
  mblks := by simp
  sbufs := by simp
  tbufs := by simp
  isOpen := rfl
  connectUp := rfl
  queues := .nothing s
  generates := by simp [Generates]
  unmarked := hs.unmarked

theorem mem_links (h : Serving s u removed added) {link : BufferLink} :
    link ∈ u.links ↔ link ∈ s.links ∧ link.mblk ∉ removed := by
  simp only [links, h.sbufs, h.tbufs, List.mem_append, List.mem_filter, decide_eq_true_eq]
  tauto

theorem hasMblkId_eq (h : Serving s u removed added) {key : ℕ} (hkey : key ∉ removed) (id : ℤ) :
    u.hasMblkId key id = s.hasMblkId key id := by
  unfold hasMblkId
  rw [find?_filter_key h.mblks hkey]

theorem findRequested_none (h : Serving s u removed added) {con : ℕ} {authorizes : ℕ → Bool}
    {id : ℤ} (hfind : u.findRequested con id = none) {key : ℕ}
    (hnamed : s.NamedBy con authorizes id key) : key ∈ removed := by
  obtain ⟨link, hlink, hcon, rfl⟩ := hnamed.linked
  by_contra hkey
  have hmem := h.mem_links.mpr ⟨hlink, hkey⟩
  have hid := h.hasMblkId_eq hkey id ▸ hnamed.hasId
  rw [findRequested, Option.or_eq_none_iff, List.find?_eq_none, List.find?_eq_none] at hfind
  rcases List.mem_append.mp hmem with hmem | hmem
  · exact hfind.2 link hmem (by simp [hcon, hid])
  · exact hfind.1 link hmem (by simp [hcon, hid])

theorem findRequested_some (h : Serving s u removed added) {con : ℕ} {id : ℤ} {link : BufferLink}
    (hfind : u.findRequested con id = some link) :
    link ∈ s.links ∧ link.con = con ∧ link.mblk ∉ removed ∧
      s.hasMblkId link.mblk id = true := by
  have hfound : link ∈ u.links ∧ link.con = con ∧ u.hasMblkId link.mblk id = true := by
    rw [findRequested, Option.or_eq_some_iff] at hfind
    rcases hfind with hfind | ⟨-, hfind⟩
    · have hprop := List.find?_some hfind
      rw [Bool.and_eq_true, decide_eq_true_eq] at hprop
      exact ⟨List.mem_append_right _ (List.mem_of_find?_eq_some hfind), hprop⟩
    · have hprop := List.find?_some hfind
      rw [Bool.and_eq_true, decide_eq_true_eq] at hprop
      exact ⟨List.mem_append_left _ (List.mem_of_find?_eq_some hfind), hprop⟩
  obtain ⟨hmem, hcon, hid⟩ := hfound
  obtain ⟨hlink, hkey⟩ := h.mem_links.mp hmem
  exact ⟨hlink, hcon, hkey, h.hasMblkId_eq hkey id ▸ hid⟩

theorem removeMblkByRequest (h : Serving s u removed added) {authorizes : ℕ → Bool} {key : ℕ}
    (hkey : key ∉ removed) (hauthorized : authorizes key = true) :
    ∃ added', Serving s (u.removeMblkByRequest authorizes key) (key :: removed) added' := by
  obtain ⟨hrequested, hmarks⟩ := generateDelMblkRequest_requested
    { u with toBeDeleted := Function.update u.toBeDeleted key true } none key
  have hmark : Function.update u.toBeDeleted key true key = true := Function.update_self ..
  rw [if_pos hmark] at hrequested
  refine ⟨added ++ u.removalRequests none key, ?_⟩
  rw [LifetimeRoot.removeMblkByRequest, hauthorized, Bool.not_true, if_neg Bool.false_ne_true,
    releaseMemoryBlock]
  refine ⟨?_, ?_, ?_, ?_, ?_, h.queues.trans ⟨hrequested.sent, hrequested.queued,
    hrequested.requests, hrequested.sized⟩, fun p => ?_, fun k => ?_⟩
  · dsimp only
    rw [hrequested.mblks, h.mblks, filter_notMem_cons LifetimeBlock.key]
  · dsimp only
    rw [hrequested.sbufs, h.sbufs, filter_notMem_cons BufferLink.mblk]
  · dsimp only
    rw [hrequested.tbufs, h.tbufs, filter_notMem_cons BufferLink.mblk]
  · exact hrequested.isOpen.trans h.isOpen
  · exact hrequested.connectUp.trans h.connectUp
  · rw [List.mem_append, h.generates, mem_removalRequests]
    simp only [h.mem_links, h.connectUp, List.mem_cons]
    constructor
    · rintro (⟨link, hlink, hskip, hup, hgone, hpair⟩ |
        ⟨link, ⟨hlink, -⟩, hskip, hup, hgone, hpair⟩)
      · exact ⟨link, hlink, hskip, hup, .inr hgone, hpair⟩
      · exact ⟨link, hlink, hskip, hup, .inl hgone, hpair⟩
    · rintro ⟨link, hlink, hskip, hup, hgone | hgone, hpair⟩
      · exact .inr ⟨link, ⟨hlink, hgone ▸ hkey⟩, hskip, hup, hgone, hpair⟩
      · exact .inl ⟨link, hlink, hskip, hup, hgone, hpair⟩
  · dsimp only
    rw [hmarks]
    rcases eq_or_ne k key with rfl | hne
    · exact Function.update_self ..
    · rw [Function.update_of_ne hne]
      dsimp only
      rw [Function.update_of_ne hne, h.unmarked]

theorem processRequest (h : Serving s u removed added) (hs : s.WellFormed) (con : ℕ)
    (authorizes : ℕ → Bool) (id : ℤ) :
    ∃ removed' added', Serving s (LifetimeRoot.processRequest authorizes con u id) removed' added' ∧
      ∀ key, key ∈ removed' ↔ key ∈ removed ∨ s.NamedBy con authorizes id key := by
  unfold LifetimeRoot.processRequest
  cases hfind : u.findRequested con id with
  | none =>
      refine ⟨removed, added, h, fun key => ⟨.inl, ?_⟩⟩
      rintro (hkey | hnamed)
      · exact hkey
      · exact h.findRequested_none hfind hnamed
  | some link =>
      obtain ⟨hlink, hcon, hkey, hid⟩ := h.findRequested_some hfind
      have hunique : ∀ key, s.NamedBy con authorizes id key → key = link.mblk :=
        fun key hnamed => hs.key_unique hnamed.hasId hid
      cases hauthorized : authorizes link.mblk with
      | false =>
          have hsame : u.removeMblkByRequest authorizes link.mblk = u := by
            rw [LifetimeRoot.removeMblkByRequest, hauthorized, Bool.not_false, if_pos rfl]
          dsimp only
          rw [hsame]
          refine ⟨removed, added, h, fun key => ⟨.inl, ?_⟩⟩
          rintro (hkey | hnamed)
          · exact hkey
          · rw [← hunique key hnamed, hnamed.authorized] at hauthorized
            cases hauthorized
      | true =>
          obtain ⟨added', hserving⟩ := h.removeMblkByRequest hkey hauthorized
          refine ⟨link.mblk :: removed, added', hserving, fun key => ?_⟩
          rw [List.mem_cons, or_comm]
          refine or_congr_right ⟨?_, hunique key⟩
          rintro rfl
          exact ⟨⟨link, hlink, hcon, rfl⟩, hid, hauthorized⟩

theorem foldl_processRequest (h : Serving s u removed added) (hs : s.WellFormed) (con : ℕ)
    (authorizes : ℕ → Bool) (ids : List ℤ) :
    ∃ removed' added',
      Serving s (ids.foldl (LifetimeRoot.processRequest authorizes con) u) removed' added' ∧
        ∀ key, key ∈ removed' ↔ key ∈ removed ∨ s.Named con authorizes ids key := by
  induction ids generalizing u removed added with
  | nil => exact ⟨removed, added, h, fun key => by simp [Named]⟩
  | cons id ids ih =>
      obtain ⟨removed₁, added₁, hfirst, hmem₁⟩ := h.processRequest hs con authorizes id
      obtain ⟨removed₂, added₂, hrest, hmem₂⟩ := ih hfirst
      refine ⟨removed₂, added₂, hrest, fun key => ?_⟩
      rw [hmem₂, hmem₁, or_assoc]
      simp only [Named, List.mem_cons, exists_eq_or_imp]

end Serving

def acceptedIds (ids : List ℤ) : List ℤ :=
  if ids.length < 1 ∨ packAbsMaxRequests < ids.length then [] else ids

theorem processRemoveMblkReqFrame_serving {s : LifetimeRoot} (hs : s.WellFormed) (con : ℕ)
    (authorizes : ℕ → Bool) (ids : List ℤ) :
    ∃ removed added,
      Serving s (s.processRemoveMblkReqFrame authorizes con ids) removed added ∧
        ∀ key, key ∈ removed ↔ s.Named con authorizes (acceptedIds ids) key := by
  have hframe : s.processRemoveMblkReqFrame authorizes con ids =
      (acceptedIds ids).foldl (LifetimeRoot.processRequest authorizes con) s := by
    unfold processRemoveMblkReqFrame acceptedIds
    split_ifs <;> rfl
  obtain ⟨removed, added, hserving, hmem⟩ :=
    (Serving.start hs).foldl_processRequest hs con authorizes (acceptedIds ids)
  rw [hframe]
  exact ⟨removed, added, hserving, fun key => (hmem key).trans (or_iff_right List.not_mem_nil)⟩

theorem processRemoveMblkReqFrame_wellFormed {s : LifetimeRoot} (hs : s.WellFormed) (con : ℕ)
    (authorizes : ℕ → Bool) (ids : List ℤ) :
    (s.processRemoveMblkReqFrame authorizes con ids).WellFormed := by
  obtain ⟨removed, added, hserving, -⟩ := processRemoveMblkReqFrame_serving hs con authorizes ids
  refine hs.queues hserving.queues ?_ hserving.unmarked
  rw [hserving.mblks]
  exact List.filter_subset_self _

def Removed (s s' : LifetimeRoot) (key : ℕ) : Prop :=
  ∃ mblk ∈ s.mblks, mblk.key = key ∧ mblk ∉ s'.mblks

structure RemovesRightly (s s' : LifetimeRoot) (con : ℕ) : Prop where
  goes : ∀ key, s.Removed s' key → s.Goes con key
  asked : Asks s s' none (s.Removed s')

theorem Serving.removed_iff {s u : LifetimeRoot} {removed : List ℕ} {added : List (ℕ × ℤ)}
    (h : Serving s u removed added) {key : ℕ} :
    s.Removed u key ↔ key ∈ removed ∧ ∃ mblk ∈ s.mblks, mblk.key = key := by
  unfold Removed
  constructor
  · rintro ⟨mblk, hmblk, rfl, hgone⟩
    rw [h.mblks, List.mem_filter, decide_eq_true_eq, not_and_not_right] at hgone
    exact ⟨hgone hmblk, mblk, hmblk, rfl⟩
  · rintro ⟨hkey, mblk, hmblk, rfl⟩
    refine ⟨mblk, hmblk, rfl, fun hmem => ?_⟩
    rw [h.mblks, List.mem_filter, decide_eq_true_eq] at hmem
    exact hmem.2 hkey

theorem processRemoveMblkReqFrame_exact_iff {s : LifetimeRoot} (hs : s.WellFormed) (con : ℕ)
    (authorizes : ℕ → Bool) (ids : List ℤ) :
    RemovesRightly s (s.processRemoveMblkReqFrame authorizes con ids) con ↔
      (∀ key, s.Named con authorizes (acceptedIds ids) key → s.Goes con key) ∧
        s.PeersFit none (s.Named con authorizes (acceptedIds ids)) := by
  obtain ⟨removed, added, hserving, hmem⟩ :=
    processRemoveMblkReqFrame_serving hs con authorizes ids
  have hremoved : s.Removed (s.processRemoveMblkReqFrame authorizes con ids) =
      s.Named con authorizes (acceptedIds ids) := by
    funext key
    rw [eq_iff_iff, hserving.removed_iff, hmem, and_iff_left_iff_imp]
    rintro ⟨id, -, hnamed⟩
    obtain ⟨mblk, hmblk, hkey, -⟩ := exists_of_hasMblkId hnamed.hasId
    exact ⟨mblk, hmblk, hkey⟩
  have hgenerates : s.Generates none (s.Named con authorizes (acceptedIds ids)) added := by
    intro p
    rw [hserving.generates p]
    simp only [hmem]
  have hasks := hserving.queues.asks_iff hgenerates
  constructor
  · rintro ⟨hgoes, hasked⟩
    rw [hremoved] at hgoes hasked
    exact ⟨hgoes, hasks.mp hasked⟩
  · rintro ⟨hgoes, hfit⟩
    rw [← hremoved] at hgoes
    exact ⟨hgoes, by rw [hremoved]; exact hasks.mpr hfit⟩

/-! ## Sending -/

theorem makeRemoveMblkReqFrame_wellFormed {s : LifetimeRoot} (hs : s.WellFormed) (con : ℕ)
    (delayed : Bool) : (s.makeRemoveMblkReqFrame con delayed).WellFormed := by
  unfold makeRemoveMblkReqFrame
  split
  · exact hs
  · next first rest hrequests =>
      have hsized := hs.sized con
      rw [hrequests] at hsized
      have hrest : Sized rest := fun item hitem => hsized item (List.mem_cons_of_mem first hitem)
      have hframes : Sized (s.sent con ++ [first]) := by
        intro item hitem
        rcases List.mem_append.mp hitem with hitem | hitem
        · exact hs.framed con item hitem
        · exact hsized item (List.mem_singleton.mp hitem ▸ List.mem_cons_self)
      split_ifs
      · exact hs
      · refine ⟨hs.unmarked, hs.unique, fun c => ?_, fun c => ?_, fun c => ?_⟩
        · rcases eq_or_ne c con with rfl | hne
          · simp [← hs.inOrder c, hrequests]
          · simp [hne, hs.inOrder c]
        · rcases eq_or_ne c con with rfl | hne
          · simpa using hrest
          · simpa [hne] using hs.sized c
        · rcases eq_or_ne c con with rfl | hne
          · simpa using hframes
          · simpa [hne] using hs.framed c

theorem makeRemoveMblkReqFrame_keeps (s : LifetimeRoot) (con : ℕ) (delayed : Bool) :
    (s.makeRemoveMblkReqFrame con delayed).mblks = s.mblks ∧
      (s.makeRemoveMblkReqFrame con delayed).queued = s.queued ∧
      (s.makeRemoveMblkReqFrame con delayed).isOpen = s.isOpen := by
  unfold makeRemoveMblkReqFrame
  split
  · exact ⟨rfl, rfl, rfl⟩
  · split_ifs
    · exact ⟨rfl, rfl, rfl⟩
    · exact ⟨rfl, rfl, rfl⟩

theorem makeRemoveMblkReqFrame_requests (s : LifetimeRoot) (con : ℕ) :
    (s.makeRemoveMblkReqFrame con false).requests con = (s.requests con).tail := by
  unfold makeRemoveMblkReqFrame
  split
  · next hrequests => rw [hrequests, List.tail_nil]
  · next first rest hrequests => simp [hrequests]

end LifetimeRoot

/-! ## Runs -/

/-- What happens to a connection: it closes, a frame of requests arrives through it, or it
is asked to send, maybe while flow control delays it. -/
inductive LifetimeAction where
  | close (con : ℕ)
  | receive (con : ℕ) (authorizes : ℕ → Bool) (ids : List ℤ)
  | send (con : ℕ) (delayed : Bool)

def LifetimeAction.con : LifetimeAction → ℕ
  | .close con => con
  | .receive con _ _ => con
  | .send con _ => con

namespace LifetimeRoot

def apply (s : LifetimeRoot) (action : LifetimeAction) : LifetimeRoot :=
  if s.isOpen action.con then
    match action with
    | .close con => s.closeConnection con
    | .receive con authorizes ids => s.processRemoveMblkReqFrame authorizes con ids
    | .send con delayed => s.makeRemoveMblkReqFrame con delayed
  else s

def run (s : LifetimeRoot) (actions : List LifetimeAction) : LifetimeRoot :=
  actions.foldl apply s

def EachStep (holds : LifetimeRoot → LifetimeAction → Prop) :
    LifetimeRoot → List LifetimeAction → Prop
  | _, [] => True
  | s, action :: actions => holds s action ∧ EachStep holds (s.apply action) actions

def Right (s : LifetimeRoot) (action : LifetimeAction) : Prop :=
  s.isOpen action.con = true →
    match action with
    | .close con => ClosesExactly s (s.apply action) con
    | .receive con _ _ => RemovesRightly s (s.apply action) con
    | .send _ _ => (s.apply action).mblks = s.mblks ∧ (s.apply action).queued = s.queued

/-- The blocks which requests name are dynamic, and nothing else serves them; and the other
ends know the blocks which are released by identifiers which fit in an `os_short`. -/
def Meets (s : LifetimeRoot) (action : LifetimeAction) : Prop :=
  s.isOpen action.con = true →
    match action with
    | .close con => s.PeersFit (some con) (s.Goes con)
    | .receive con authorizes ids =>
        (∀ key, s.Named con authorizes (acceptedIds ids) key → s.Goes con key) ∧
          s.PeersFit none (s.Named con authorizes (acceptedIds ids))
    | .send _ _ => True

theorem apply_wellFormed {s : LifetimeRoot} (hs : s.WellFormed) (action : LifetimeAction) :
    (s.apply action).WellFormed := by
  unfold apply
  split_ifs
  · cases action with
    | close con => exact closeConnection_wellFormed hs con
    | receive con authorizes ids =>
        exact processRemoveMblkReqFrame_wellFormed hs con authorizes ids
    | send con delayed => exact makeRemoveMblkReqFrame_wellFormed hs con delayed
  · exact hs

theorem right_iff_meets {s : LifetimeRoot} (hs : s.WellFormed) (action : LifetimeAction) :
    s.Right action ↔ s.Meets action := by
  unfold Right Meets
  refine imp_congr_right fun hopen => ?_
  cases action with
  | close con =>
      have happly : s.apply (.close con) = s.closeConnection con := if_pos hopen
      rw [happly]
      exact closeConnection_exact_iff hs con
  | receive con authorizes ids =>
      have happly : s.apply (.receive con authorizes ids) =
          s.processRemoveMblkReqFrame authorizes con ids := if_pos hopen
      rw [happly]
      exact processRemoveMblkReqFrame_exact_iff hs con authorizes ids
  | send con delayed =>
      have happly : s.apply (.send con delayed) = s.makeRemoveMblkReqFrame con delayed :=
        if_pos hopen
      rw [happly]
      obtain ⟨hmblks, hqueued, -⟩ := s.makeRemoveMblkReqFrame_keeps con delayed
      exact iff_true_intro ⟨hmblks, hqueued⟩

theorem run_wellFormed {s : LifetimeRoot} (hs : s.WellFormed) (actions : List LifetimeAction) :
    (s.run actions).WellFormed := by
  induction actions generalizing s with
  | nil => exact hs
  | cons action actions ih => exact ih (apply_wellFormed hs action)

theorem eachStep_right_iff {s : LifetimeRoot} (hs : s.WellFormed)
    (actions : List LifetimeAction) :
    EachStep Right s actions ↔ EachStep Meets s actions := by
  induction actions generalizing s with
  | nil => exact Iff.rfl
  | cons action actions ih =>
      exact and_congr (right_iff_meets hs action) (ih (apply_wellFormed hs action))

/-- Each request which was ever queued for a connection was sent, in frames of a valid size, or
it waits behind those; and once the connection may send they are all sent. -/
structure Transmitted (s : LifetimeRoot) : Prop where
  inOrder : ∀ con, (s.sent con).flatten ++ (s.requests con).flatten = s.queued con
  framed : ∀ con, ∀ frame ∈ s.sent con, 1 ≤ frame.length ∧ frame.length ≤ packNRequests
  drained : ∀ con, s.isOpen con = true →
    ((s.run (List.replicate (s.requests con).length (.send con false))).sent con).flatten =
      s.queued con

theorem run_sends {s : LifetimeRoot} (hs : s.WellFormed) {con : ℕ} (hopen : s.isOpen con = true)
    (n : ℕ) (hn : (s.requests con).length = n) :
    ((s.run (List.replicate n (.send con false))).sent con).flatten = s.queued con := by
  induction n generalizing s with
  | zero =>
      have hnil : s.requests con = [] := List.length_eq_zero_iff.mp hn
      have horder := hs.inOrder con
      rwa [hnil, List.flatten_nil, List.append_nil] at horder
  | succ n ih =>
      have happly : s.apply (.send con false) = s.makeRemoveMblkReqFrame con false := if_pos hopen
      obtain ⟨-, hqueued, hkept⟩ := s.makeRemoveMblkReqFrame_keeps con false
      have hlength : ((s.makeRemoveMblkReqFrame con false).requests con).length = n := by
        rw [makeRemoveMblkReqFrame_requests, List.length_tail]
        omega
      have hrest := ih (makeRemoveMblkReqFrame_wellFormed hs con false) (hkept ▸ hopen) hlength
      rw [hqueued] at hrest
      rw [List.replicate_succ, run, List.foldl_cons, happly]
      exact hrest

theorem WellFormed.transmitted {s : LifetimeRoot} (hs : s.WellFormed) : s.Transmitted where
  inOrder := hs.inOrder
  framed := hs.framed
  drained _ hopen := run_sends hs hopen _ rfl

/-- Every step of a run does what it ought to exactly if each meets its condition; requests
are sent once and in order in any case. -/
theorem dynamic_blocks_lifetime {s : LifetimeRoot} (hs : s.WellFormed)
    (actions : List LifetimeAction) :
    (EachStep Right s actions ↔ EachStep Meets s actions) ∧ (s.run actions).Transmitted :=
  ⟨eachStep_right_iff hs actions, (run_wellFormed hs actions).transmitted⟩

/-- A root with one block, which connection 1 serves from below and connection 2 takes
upwards. -/
def gatewayRoot (dynamic : Bool) : LifetimeRoot where
  mblks := [⟨1, 20, dynamic⟩]
  toBeDeleted := fun _ => false
  sbufs := [⟨2, 1, 35⟩]
  tbufs := [⟨1, 1, 16⟩]
  isOpen := fun _ => true
  connectUp := fun con => decide (con = 2)
  requests := fun _ => []
  sent := fun _ => []
  queued := fun _ => []

theorem gatewayRoot_wellFormed (dynamic : Bool) : (gatewayRoot dynamic).WellFormed := by
  constructor <;> simp [gatewayRoot, Sized]

theorem served_block_closed_and_reported :
    EachStep Right (gatewayRoot true) [.close 1, .send 2 true, .send 2 false] ∧
      (run (gatewayRoot true) [.close 1, .send 2 true, .send 2 false]).Transmitted ∧
      (run (gatewayRoot true) [.close 1, .send 2 true, .send 2 false]).sent 2 = [[35]] := by
  obtain ⟨hiff, hsent⟩ := dynamic_blocks_lifetime (gatewayRoot_wellFormed true)
    [.close 1, .send 2 true, .send 2 false]
  refine ⟨hiff.mpr ⟨fun _ => ?_, fun _ => trivial, fun _ => trivial, trivial⟩, hsent, rfl⟩
  simp [PeersFit, links, gatewayRoot]

/-- A request removes a static block. -/
theorem static_block_removed_by_request :
    ¬∀ s : LifetimeRoot, s.WellFormed → ∀ actions, EachStep Right s actions := by
  intro h
  obtain ⟨hright, -⟩ := h (gatewayRoot false) (gatewayRoot_wellFormed false)
    [.receive 1 (fun _ => true) [20]]
  have hremoved : (gatewayRoot false).Removed
      ((gatewayRoot false).apply (.receive 1 (fun _ => true) [20])) 1 :=
    ⟨⟨1, 20, false⟩, List.mem_cons_self, rfl, List.not_mem_nil⟩
  have hdynamic := ((hright rfl).goes 1 hremoved).dynamic
  cases hdynamic

end LifetimeRoot

end Iocom
