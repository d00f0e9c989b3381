import Iocom.DynamicBlocks

/-!
# Which dynamic blocks are removed

Closing a connection releases the dynamic blocks which nothing else serves downwards, and
asks the connections upwards to remove them.  A received request is carried out whatever
the block is.
-/

namespace Iocom

namespace LifetimeRoot

def links (s : LifetimeRoot) : List BufferLink := s.sbufs ++ s.tbufs

/-- A dynamic block which is linked to the connection, and which no other connection
serves from below. -/
structure Goes (s : LifetimeRoot) (con key : ℕ) : Prop where
  linked : ∃ link ∈ s.links, link.con = con ∧ link.mblk = key
  dynamic : s.isDynamic key = true
  unserved : s.servedDown key con = false

theorem mem_blocksOf {s : LifetimeRoot} {con key : ℕ} :
    key ∈ s.blocksOf con ↔ ∃ link ∈ s.links, link.con = con ∧ link.mblk = key := by
  simp [blocksOf, links, or_and_right, and_assoc, exists_or]

/-! ## The first pass -/

theorem foldl_mark (s : LifetimeRoot) (con : ℕ) (keys : List ℕ) :
    keys.foldl (fun s key => s.releaseDynamicMblkIfNotAttached key con false) s =
      { s with toBeDeleted := fun key => s.toBeDeleted key ||
          (decide (key ∈ keys) && s.isDynamic key && !s.servedDown key con) } := by
  induction keys generalizing s with
  | nil => simp
  | cons k keys ih =>
      rw [List.foldl_cons, ih, releaseDynamicMblkIfNotAttached]
      cases hdynamic : s.isDynamic k with
      | false =>
          rw [Bool.not_false, if_pos rfl]
          congr 1
          funext key
          rcases eq_or_ne key k with rfl | hne
          · simp [hdynamic]
          · simp [hne]
      | true =>
          cases hserved : s.servedDown k con with
          | true =>
              rw [Bool.not_true, if_neg Bool.false_ne_true, if_pos rfl]
              congr 1
              funext key
              rcases eq_or_ne key k with rfl | hne
              · simp [hserved]
              · simp [hne]
          | false =>
              rw [Bool.not_true, if_neg Bool.false_ne_true, if_neg Bool.false_ne_true,
                if_neg Bool.false_ne_true]
              congr 1
              funext key
              change (Function.update s.toBeDeleted k true key || (decide (key ∈ keys) &&
                s.isDynamic key && !s.servedDown key con)) = _
              rcases eq_or_ne key k with rfl | hne
              · simp [hdynamic, hserved]
              · simp [hne]

theorem markBlocks_eq {s : LifetimeRoot} (hunmarked : ∀ key, s.toBeDeleted key = false) (con : ℕ) :
    ∃ marks : ℕ → Bool, s.markBlocks con = { s with toBeDeleted := marks } ∧
      ∀ key, marks key = true ↔ s.Goes con key := by
  refine ⟨_, foldl_mark s con _, fun key => ?_⟩
  simp only [hunmarked, Bool.false_or, Bool.and_eq_true, decide_eq_true_eq, Bool.not_eq_true',
    mem_blocksOf]
  exact ⟨fun h => ⟨h.1.1, h.1.2, h.2⟩, fun h => ⟨⟨h.linked, h.dynamic⟩, h.unserved⟩⟩

/-! ## The second pass -/

def requestsTo (con : ℕ) (added : List (ℕ × ℤ)) : List ℤ :=
  (added.filter fun p => decide (p.1 = con)).map Prod.snd

/-- Each item of a list holds a request, and no more than go to one frame. -/
def Sized (items : List (List ℤ)) : Prop :=
  ∀ item ∈ items, 1 ≤ item.length ∧ item.length ≤ packNRequests

theorem Sized.addRequest {items : List (List ℤ)} (h : Sized items) (id : ℤ) :
    Sized (addRequestToRemoveMblk items id) := by
  have hroom : 1 ≤ packNRequests := by decide
  have hone : Sized [[id]] := by simpa [Sized] using hroom
  unfold addRequestToRemoveMblk
  split
  · exact hone
  · next last hlast =>
      split_ifs with hlt
      · intro item hitem
        rcases List.mem_append.mp hitem with hitem | hitem
        · exact h item (List.dropLast_subset items hitem)
        · rw [List.mem_singleton.mp hitem, List.length_append, List.length_singleton]
          omega
      · intro item hitem
        exact (List.mem_append.mp hitem).elim (h item) (hone item)

structure Queues (s s' : LifetimeRoot) (added : List (ℕ × ℤ)) : Prop where
  sent : s'.sent = s.sent
  queued : ∀ con, s'.queued con = s.queued con ++ requestsTo con added
  requests : ∀ con, (s'.requests con).flatten = (s.requests con).flatten ++ requestsTo con added
  sized : ∀ con, Sized (s.requests con) → Sized (s'.requests con)

structure Requested (s s' : LifetimeRoot) (added : List (ℕ × ℤ)) : Prop
    extends Queues s s' added where
  mblks : s'.mblks = s.mblks
  sbufs : s'.sbufs = s.sbufs
  tbufs : s'.tbufs = s.tbufs
  isOpen : s'.isOpen = s.isOpen
  connectUp : s'.connectUp = s.connectUp

theorem Queues.nothing (s : LifetimeRoot) : Queues s s [] := by
  constructor <;> simp [requestsTo]

theorem Queues.trans {s s₁ s₂ : LifetimeRoot} {added added' : List (ℕ × ℤ)}
    (h : Queues s s₁ added) (h' : Queues s₁ s₂ added') : Queues s s₂ (added ++ added') where
  sent := h'.sent.trans h.sent
  queued con := by simp [h'.queued, h.queued, requestsTo]
  requests con := by simp [h'.requests, h.requests, requestsTo]
  sized con hsized := h'.sized con (h.sized con hsized)

namespace Requested

variable {s s₁ s₂ : LifetimeRoot} {added added' : List (ℕ × ℤ)}

theorem nothing (s : LifetimeRoot) : Requested s s [] where
  toQueues := .nothing s
  mblks := rfl
  sbufs := rfl
  tbufs := rfl
  isOpen := rfl
  connectUp := rfl

theorem trans (h : Requested s s₁ added) (h' : Requested s₁ s₂ added') :
    Requested s s₂ (added ++ added') where
  toQueues := h.toQueues.trans h'.toQueues
  mblks := h'.mblks.trans h.mblks
  sbufs := h'.sbufs.trans h.sbufs
  tbufs := h'.tbufs.trans h.tbufs
  isOpen := h'.isOpen.trans h.isOpen
  connectUp := h'.connectUp.trans h.connectUp

theorem ofMarked {marks : ℕ → Bool} (h : Requested { s with toBeDeleted := marks } s₁ added) :
    Requested s s₁ added where
  sent := h.sent
  queued := h.queued
  requests := h.requests
  sized := h.sized
  mblks := h.mblks
  sbufs := h.sbufs
  tbufs := h.tbufs
  isOpen := h.isOpen
  connectUp := h.connectUp

theorem addRequest (s : LifetimeRoot) (con : ℕ) (id : ℤ) :
    Requested s (s.addRequest con id) [(con, id)] where
  mblks := rfl
  sbufs := rfl
  tbufs := rfl
  isOpen := rfl
  connectUp := rfl
  sent := rfl
  queued c := by
    rcases eq_or_ne c con with rfl | hne
    · simp [LifetimeRoot.addRequest, requestsTo]
    · simp [LifetimeRoot.addRequest, requestsTo, hne, hne.symm]
  requests c := by
    rcases eq_or_ne c con with rfl | hne
    · simp [LifetimeRoot.addRequest, requestsTo, addRequestToRemoveMblk_flatten]
    · simp [LifetimeRoot.addRequest, requestsTo, hne, hne.symm]
  sized c hsized := by
    rcases eq_or_ne c con with rfl | hne
    · simpa [LifetimeRoot.addRequest] using hsized.addRequest id
    · simpa [LifetimeRoot.addRequest, hne] using hsized

end Requested

/-- The requests for one block: to the connections upwards, but the one which closes. -/
def removalRequests (s : LifetimeRoot) (deletingCon : Option ℕ) (key : ℕ) : List (ℕ × ℤ) :=
  ((s.linksOf key).filter fun link =>
    decide (some link.con ≠ deletingCon) && s.connectUp link.con).map
      fun link => (link.con, link.remoteMblkId)

theorem foldl_requestRemoval (deletingCon : Option ℕ) (links : List BufferLink)
    (s : LifetimeRoot) :
    Requested s (links.foldl (requestRemoval deletingCon) s)
        ((links.filter fun link =>
          decide (some link.con ≠ deletingCon) && s.connectUp link.con).map
            fun link => (link.con, link.remoteMblkId)) ∧
      (links.foldl (requestRemoval deletingCon) s).toBeDeleted = s.toBeDeleted := by
  induction links generalizing s with
  | nil => exact ⟨.nothing s, rfl⟩
  | cons link links ih =>
      rw [List.foldl_cons, requestRemoval]
      split_ifs with hgoes
      · have hfirst := Requested.addRequest s link.con link.remoteMblkId
        obtain ⟨hrest, hmarks⟩ := ih (s.addRequest link.con link.remoteMblkId)
        rw [hfirst.connectUp] at hrest
        rw [List.filter_cons, if_pos hgoes, List.map_cons]
        exact ⟨hfirst.trans hrest, hmarks⟩
      · rw [List.filter_cons, if_neg hgoes]
        exact ih s

theorem generateDelMblkRequest_requested (s : LifetimeRoot) (deletingCon : Option ℕ) (key : ℕ) :
    Requested s (s.generateDelMblkRequest deletingCon key)
        (if s.toBeDeleted key then s.removalRequests deletingCon key else []) ∧
      (s.generateDelMblkRequest deletingCon key).toBeDeleted =
        Function.update s.toBeDeleted key false := by
  unfold generateDelMblkRequest
  cases hmark : s.toBeDeleted key with
  | false =>
      have hsame : Function.update s.toBeDeleted key false = s.toBeDeleted := by
        rw [← hmark, Function.update_eq_self]
      rw [hsame]
      exact ⟨.nothing s, rfl⟩
  | true =>
      obtain ⟨hrequested, hmarks⟩ := foldl_requestRemoval deletingCon (s.linksOf key)
        { s with toBeDeleted := Function.update s.toBeDeleted key false }
      exact ⟨hrequested.ofMarked, hmarks⟩

/-- The second pass queues the requests for the blocks which are marked, and clears the
marks. -/
theorem foldl_generate (deletingCon : Option ℕ) (keys : List ℕ) (s : LifetimeRoot) :
    ∃ added, Requested s (keys.foldl (fun s key => s.generateDelMblkRequest deletingCon key) s)
        added ∧
      (∀ key, (keys.foldl (fun s key => s.generateDelMblkRequest deletingCon key) s).toBeDeleted
        key = (s.toBeDeleted key && !decide (key ∈ keys))) ∧
      ∀ p, p ∈ added ↔ ∃ key ∈ keys, s.toBeDeleted key = true ∧
        p ∈ s.removalRequests deletingCon key := by
  induction keys generalizing s with
  | nil => exact ⟨[], .nothing s, by simp, by simp⟩
  | cons k keys ih =>
      obtain ⟨hfirst, hmarks⟩ := s.generateDelMblkRequest_requested deletingCon k
      obtain ⟨added, hrest, hmarks', hadded⟩ := ih (s.generateDelMblkRequest deletingCon k)
      rw [List.foldl_cons]
      refine ⟨_, hfirst.trans hrest, fun key => ?_, fun p => ?_⟩
      · rw [hmarks', hmarks]
        rcases eq_or_ne key k with rfl | hne
        · simp
        · simp [hne]
      · have hsame : ∀ key,
            (s.generateDelMblkRequest deletingCon k).removalRequests deletingCon key =
              s.removalRequests deletingCon key := by
          intro key
          simp only [removalRequests, linksOf, hfirst.sbufs, hfirst.tbufs, hfirst.connectUp]
        have hmarked : ∀ key, (s.generateDelMblkRequest deletingCon k).toBeDeleted key = true ↔
            key ≠ k ∧ s.toBeDeleted key = true := by
          intro key
          rw [hmarks]
          rcases eq_or_ne key k with rfl | hne
          · simp
          · simp [hne]
        simp only [List.mem_append, hadded, hsame, hmarked, List.mem_cons, exists_eq_or_imp]
        constructor
        · rintro (hp | ⟨key, hkey, ⟨-, hmark⟩, hp⟩)
          · split_ifs at hp with hmark
            · exact .inl ⟨hmark, hp⟩
            · cases hp
          · exact .inr ⟨key, hkey, hmark, hp⟩
        · rintro (⟨hmark, hp⟩ | ⟨key, hkey, hmark, hp⟩)
          · exact .inl (by rwa [if_pos hmark])
          · rcases eq_or_ne key k with rfl | hne
            · exact .inl (by rwa [if_pos hmark])
            · exact .inr ⟨key, hkey, ⟨hne, hmark⟩, hp⟩

/-! ## The third pass -/

def others (con : ℕ) (links : List BufferLink) : List BufferLink :=
  links.filter fun link => decide (link.con ≠ con)

theorem servedDown_eq_false_iff {s : LifetimeRoot} {key con : ℕ} :
    s.servedDown key con = false ↔
      ∀ link ∈ s.links, link.mblk = key → link.con ≠ con → s.connectUp link.con = true := by
  simp only [servedDown, Bool.or_eq_false_iff, List.any_eq_false, servesDown, links,
    List.mem_append, or_imp, forall_and, Bool.and_eq_true, decide_eq_true_eq, Bool.not_eq_true',
    not_and, Bool.not_eq_false, and_imp]

theorem find?_filter_key {s u : LifetimeRoot} {removed : List ℕ} {key : ℕ}
    (hmblks : u.mblks = s.mblks.filter fun mblk => decide (mblk.key ∉ removed))
    (hkey : key ∉ removed) : (u.mblks.find? fun mblk => decide (mblk.key = key)) =
      s.mblks.find? fun mblk => decide (mblk.key = key) := by
  rw [hmblks, List.find?_filter]
  congr 1
  funext mblk
  by_cases hmblk : mblk.key = key
  · simp [hmblk, hkey]
  · simp [hmblk]

theorem isDynamic_filter {s u : LifetimeRoot} {removed : List ℕ} {key : ℕ}
    (hmblks : u.mblks = s.mblks.filter fun mblk => decide (mblk.key ∉ removed))
    (hkey : key ∉ removed) : u.isDynamic key = s.isDynamic key := by
  unfold isDynamic
  rw [find?_filter_key hmblks hkey]

theorem mem_links_filter {s u : LifetimeRoot} {con : ℕ} {removed : List ℕ}
    (hsbufs : others con u.sbufs = (others con s.sbufs).filter fun link =>
      decide (link.mblk ∉ removed))
    (htbufs : others con u.tbufs = (others con s.tbufs).filter fun link =>
      decide (link.mblk ∉ removed)) {link : BufferLink} (hcon : link.con ≠ con) :
    link ∈ u.links ↔ link ∈ s.links ∧ link.mblk ∉ removed := by
  have hmem : ∀ links : List BufferLink, link ∈ links ↔ link ∈ others con links := by
    intro links
    simp [others, hcon]
  simp only [links, List.mem_append]
  rw [hmem u.sbufs, hmem u.tbufs, hsbufs, htbufs, hmem s.sbufs, hmem s.tbufs, List.mem_filter,
    List.mem_filter, decide_eq_true_eq]
  tauto

theorem servedDown_filter {s u : LifetimeRoot} {con key : ℕ} {removed : List ℕ}
    (hsbufs : others con u.sbufs = (others con s.sbufs).filter fun link =>
      decide (link.mblk ∉ removed))
    (htbufs : others con u.tbufs = (others con s.tbufs).filter fun link =>
      decide (link.mblk ∉ removed))
    (hup : u.connectUp = s.connectUp) (hkey : key ∉ removed) :
    u.servedDown key con = s.servedDown key con := by
  rw [Bool.eq_iff_iff, ← not_iff_not, Bool.not_eq_true, Bool.not_eq_true, servedDown_eq_false_iff,
    servedDown_eq_false_iff, hup]
  constructor
  · rintro hall link hlink rfl hcon
    exact hall link ((mem_links_filter hsbufs htbufs hcon).mpr ⟨hlink, hkey⟩) rfl hcon
  · rintro hall link hlink rfl hcon
    exact hall link ((mem_links_filter hsbufs htbufs hcon).mp hlink).1 rfl hcon

theorem filter_notMem_cons {α : Type*} (f : α → ℕ) (key : ℕ) (removed : List ℕ) (l : List α) :
    (l.filter fun a => decide (f a ∉ removed)).filter (fun a => decide (f a ≠ key)) =
      l.filter fun a => decide (f a ∉ key :: removed) := by
  rw [List.filter_filter]
  congr 1
  funext a
  rw [← Bool.decide_and]
  congr 1
  rw [List.mem_cons, not_or]

theorem others_filter (con key : ℕ) (l : List BufferLink) :
    others con (l.filter fun link => decide (link.mblk ≠ key)) =
      (others con l).filter fun link => decide (link.mblk ≠ key) := by
  simp only [others, List.filter_filter, Bool.and_comm]

theorem others_erase {con : ℕ} {link : BufferLink} (hcon : link.con = con) (l : List BufferLink) :
    others con (l.erase link) = others con l := by
  unfold others
  rw [← List.erase_filter, List.erase_of_not_mem]
  simp [hcon]

theorem mem_erase_of_mblk_ne {l : List BufferLink} {link link' : BufferLink} (h : link' ∈ l)
    (hne : link'.mblk ≠ link.mblk) : link' ∈ l.erase link :=
  (List.mem_erase_of_ne fun heq => hne (congrArg BufferLink.mblk heq)).mpr h

/-- While the buffers of a connection are released: the blocks which are gone, and
those which will go with a buffer that is left. -/
structure Releasing (con : ℕ) (s u : LifetimeRoot) (removed : List ℕ) : Prop where
  mblks : u.mblks = s.mblks.filter fun mblk => decide (mblk.key ∉ removed)
  sbufs : others con u.sbufs = (others con s.sbufs).filter fun link => decide (link.mblk ∉ removed)
  tbufs : others con u.tbufs = (others con s.tbufs).filter fun link => decide (link.mblk ∉ removed)
  kept : u = { s with mblks := u.mblks, sbufs := u.sbufs, tbufs := u.tbufs }
  goes : ∀ key ∈ removed, s.Goes con key
  left : ∀ link ∈ u.links, link ∈ s.links ∧ link.mblk ∉ removed
  pending : ∀ key, s.Goes con key →
    key ∈ removed ∨ ∃ link ∈ u.links, link.con = con ∧ link.mblk = key

namespace Releasing

variable {con key : ℕ} {s u u' : LifetimeRoot} {removed : List ℕ}

theorem start (con : ℕ) (s : LifetimeRoot) : Releasing con s s [] where
  mblks := by simp
  sbufs := by simp
  tbufs := by simp
  kept := rfl
  goes := by simp
  left := by simp
  pending _ hgoes := .inr hgoes.linked

/-- A buffer of the connection is released, and then its block if nothing else serves it. -/
theorem step (h : Releasing con s u removed)
    (hkey : ∃ link ∈ u.links, link.con = con ∧ link.mblk = key)
    (hsbufs : others con u'.sbufs = others con u.sbufs)
    (htbufs : others con u'.tbufs = others con u.tbufs)
    (hkept : u' = { u with sbufs := u'.sbufs, tbufs := u'.tbufs })
    (hleft : ∀ link ∈ u'.links, link ∈ u.links)
    (hpending : ∀ link ∈ u.links, link.mblk ≠ key → link ∈ u'.links) :
    ∃ removed', Releasing con s (u'.releaseDynamicMblkIfNotAttached key con true) removed' := by
  obtain ⟨link, hlink, hcon, hmblk⟩ := hkey
  have hnot : key ∉ removed := hmblk ▸ (h.left link hlink).2
  have hlinked : ∃ link ∈ s.links, link.con = con ∧ link.mblk = key :=
    ⟨link, (h.left link hlink).1, hcon, hmblk⟩
  have hreleasing : ¬s.Goes con key → Releasing con s u' removed := by
    intro hstays
    refine ⟨?_, hsbufs.trans h.sbufs, htbufs.trans h.tbufs, ?_, h.goes,
      fun l hl => h.left l (hleft l hl), fun k hk => ?_⟩
    · rw [hkept]
      exact h.mblks
    · rw [hkept, h.kept]
    · have hne : k ≠ key := fun heq => hstays (heq ▸ hk)
      refine (h.pending k hk).imp_right ?_
      rintro ⟨l, hl, hlcon, rfl⟩
      exact ⟨l, hpending l hl hne, hlcon, rfl⟩
  have hmblks : u'.mblks = s.mblks.filter fun mblk => decide (mblk.key ∉ removed) := by
    rw [hkept]
    exact h.mblks
  have hdynamic : u'.isDynamic key = s.isDynamic key := isDynamic_filter hmblks hnot
  have hserved : u'.servedDown key con = s.servedDown key con := by
    refine servedDown_filter (hsbufs.trans h.sbufs) (htbufs.trans h.tbufs) ?_ hnot
    rw [hkept, h.kept]
  unfold releaseDynamicMblkIfNotAttached
  simp only [hdynamic, hserved, if_true]
  by_cases hgoes : s.Goes con key
  · refine ⟨key :: removed, ?_⟩
    rw [hgoes.dynamic, hgoes.unserved, Bool.not_true, if_neg Bool.false_ne_true,
      if_neg Bool.false_ne_true]
    unfold releaseMemoryBlock
    refine ⟨?_, ?_, ?_, ?_, ?_, ?_, ?_⟩
    · dsimp only
      rw [hmblks, filter_notMem_cons LifetimeBlock.key]
    · dsimp only
      rw [others_filter, hsbufs, h.sbufs, filter_notMem_cons BufferLink.mblk]
    · dsimp only
      rw [others_filter, htbufs, h.tbufs, filter_notMem_cons BufferLink.mblk]
    · dsimp only
      rw [hkept, h.kept]
    · simpa [hgoes] using h.goes
    · intro l hl
      simp only [links, List.mem_append, List.mem_filter, decide_eq_true_eq] at hl
      have hl' : l ∈ u'.links ∧ l.mblk ≠ key := by
        rw [links, List.mem_append]
        tauto
      obtain ⟨hmem, hremoved⟩ := h.left l (hleft l hl'.1)
      exact ⟨hmem, by simp [hremoved, hl'.2]⟩
    · intro k hk
      rcases eq_or_ne k key with rfl | hne
      · exact .inl List.mem_cons_self
      · refine (h.pending k hk).imp (List.mem_cons_of_mem key) ?_
        rintro ⟨l, hl, hlcon, rfl⟩
        refine ⟨l, ?_, hlcon, rfl⟩
        have hl' := hpending l hl hne
        simp only [links, List.mem_append, List.mem_filter, decide_eq_true_eq] at hl' ⊢
        tauto
  · refine ⟨removed, ?_⟩
    have hstays := hreleasing hgoes
    split_ifs with hstatic hdown
    · exact hstays
    · exact hstays
    · refine absurd ⟨hlinked, ?_, ?_⟩ hgoes
      · simpa using hstatic
      · simpa using hdown

theorem releaseSource (h : Releasing con s u removed) {link : BufferLink} (hmem : link ∈ u.sbufs)
    (hcon : link.con = con) :
    ∃ removed', Releasing con s
      ({ u with sbufs := u.sbufs.erase link }.releaseDynamicMblkIfNotAttached link.mblk con true)
      removed' := by
  refine h.step ⟨link, List.mem_append_left _ hmem, hcon, rfl⟩ (others_erase hcon _) rfl rfl ?_ ?_
  · intro l hl
    rcases List.mem_append.mp hl with hl | hl
    · exact List.mem_append_left _ (List.mem_of_mem_erase hl)
    · exact List.mem_append_right _ hl
  · intro l hl hne
    rcases List.mem_append.mp hl with hl | hl
    · exact List.mem_append_left _ (mem_erase_of_mblk_ne hl hne)
    · exact List.mem_append_right _ hl

theorem releaseTarget (h : Releasing con s u removed) {link : BufferLink} (hmem : link ∈ u.tbufs)
    (hcon : link.con = con) :
    ∃ removed', Releasing con s
      ({ u with tbufs := u.tbufs.erase link }.releaseDynamicMblkIfNotAttached link.mblk con true)
      removed' := by
  refine h.step ⟨link, List.mem_append_right _ hmem, hcon, rfl⟩ rfl (others_erase hcon _) rfl ?_ ?_
  · intro l hl
    rcases List.mem_append.mp hl with hl | hl
    · exact List.mem_append_left _ hl
    · exact List.mem_append_right _ (List.mem_of_mem_erase hl)
  · intro l hl hne
    rcases List.mem_append.mp hl with hl | hl
    · exact List.mem_append_left _ hl
    · exact List.mem_append_right _ (mem_erase_of_mblk_ne hl hne)

end Releasing

/-- What is released is no longer in the lists, whichever block goes. -/
theorem releaseDynamic_subset (s : LifetimeRoot) (key con : ℕ) :
    (s.releaseDynamicMblkIfNotAttached key con true).sbufs.Sublist s.sbufs ∧
      (s.releaseDynamicMblkIfNotAttached key con true).tbufs.Sublist s.tbufs := by
  unfold releaseDynamicMblkIfNotAttached
  split_ifs
  · exact ⟨.refl _, .refl _⟩
  · exact ⟨.refl _, .refl _⟩
  · exact ⟨List.filter_sublist, List.filter_sublist⟩
  · contradiction

/-- The loop over source buffers leaves none of the connection. -/
theorem releaseSourceBuffers_spec {con : ℕ} {s : LifetimeRoot} (n : ℕ) {u : LifetimeRoot}
    {removed : List ℕ} (h : Releasing con s u removed) (hn : u.sbufs.length ≤ n) :
    (∃ removed', Releasing con s (releaseSourceBuffers con n u) removed') ∧
      ∀ link ∈ (releaseSourceBuffers con n u).sbufs, link.con ≠ con := by
  induction n generalizing u removed with
  | zero =>
      have hnil : u.sbufs = [] := List.length_eq_zero_iff.mp (Nat.le_zero.mp hn)
      exact ⟨⟨removed, h⟩, by simp [releaseSourceBuffers, hnil]⟩
  | succ n ih =>
      rw [releaseSourceBuffers]
      cases hfind : u.sbufs.find? fun link => decide (link.con = con) with
      | none => exact ⟨⟨removed, h⟩, by simpa using List.find?_eq_none.mp hfind⟩
      | some link =>
          have hmem := List.mem_of_find?_eq_some hfind
          have hcon : link.con = con := by simpa using List.find?_some hfind
          obtain ⟨removed', hstep⟩ := h.releaseSource hmem hcon
          refine ih hstep ((releaseDynamic_subset _ _ _).1.length_le.trans ?_)
          have hlength := List.length_erase_of_mem hmem
          dsimp only
          omega

/-- The loop over target buffers leaves none of the connection either. -/
theorem releaseTargetBuffers_spec {con : ℕ} {s : LifetimeRoot} (n : ℕ) {u : LifetimeRoot}
    {removed : List ℕ} (h : Releasing con s u removed) (hn : u.tbufs.length ≤ n)
    (hsbufs : ∀ link ∈ u.sbufs, link.con ≠ con) :
    (∃ removed', Releasing con s (releaseTargetBuffers con n u) removed') ∧
      ∀ link ∈ (releaseTargetBuffers con n u).links, link.con ≠ con := by
  induction n generalizing u removed with
  | zero =>
      have hnil : u.tbufs = [] := List.length_eq_zero_iff.mp (Nat.le_zero.mp hn)
      refine ⟨⟨removed, h⟩, fun link hlink => ?_⟩
      rw [releaseTargetBuffers, links, hnil, List.append_nil] at hlink
      exact hsbufs link hlink
  | succ n ih =>
      rw [releaseTargetBuffers]
      cases hfind : u.tbufs.find? fun link => decide (link.con = con) with
      | none =>
          refine ⟨⟨removed, h⟩, fun link hlink => ?_⟩
          rcases List.mem_append.mp hlink with hlink | hlink
          · exact hsbufs link hlink
          · simpa using List.find?_eq_none.mp hfind link hlink
      | some link =>
          have hmem := List.mem_of_find?_eq_some hfind
          have hcon : link.con = con := by simpa using List.find?_some hfind
          obtain ⟨removed', hstep⟩ := h.releaseTarget hmem hcon
          refine ih hstep ((releaseDynamic_subset _ _ _).2.length_le.trans ?_) ?_
          · have hlength := List.length_erase_of_mem hmem
            dsimp only
            omega
          · intro l hl
            have hsublist :=
              releaseDynamic_subset { u with tbufs := u.tbufs.erase link } link.mblk con
            exact hsbufs l (hsublist.1.subset hl)

structure SameQueues (s u : LifetimeRoot) : Prop where
  toBeDeleted : u.toBeDeleted = s.toBeDeleted
  requests : u.requests = s.requests
  sent : u.sent = s.sent
  queued : u.queued = s.queued

theorem Releasing.sameQueues {con : ℕ} {s u : LifetimeRoot} {removed : List ℕ}
    (h : Releasing con s u removed) : SameQueues s u := by
  constructor <;> rw [h.kept]

/-- The third pass releases the blocks which go and the buffers of the connection. -/
theorem freeSourceAndTargetBufs_released (s : LifetimeRoot) (con : ℕ) :
    (∀ mblk, mblk ∈ (s.freeSourceAndTargetBufs con).mblks ↔
      mblk ∈ ((s.markBlocks con).requestRemovals con).mblks ∧
        ¬((s.markBlocks con).requestRemovals con).Goes con mblk.key) ∧
      SameQueues ((s.markBlocks con).requestRemovals con) (s.freeSourceAndTargetBufs con) := by
  obtain ⟨⟨removed, hfirst⟩, hsbufs⟩ := releaseSourceBuffers_spec
    ((s.markBlocks con).requestRemovals con).sbufs.length (Releasing.start con _) le_rfl
  obtain ⟨⟨removed', hrest⟩, hlinks⟩ :=
    releaseTargetBuffers_spec _ hfirst le_rfl hsbufs
  refine ⟨fun mblk => ?_, hrest.sameQueues⟩
  have hgoes : mblk.key ∈ removed' ↔
      ((s.markBlocks con).requestRemovals con).Goes con mblk.key := by
    refine ⟨hrest.goes _, fun hgoes => (hrest.pending _ hgoes).resolve_right ?_⟩
    rintro ⟨link, hlink, hcon, -⟩
    exact hlinks link hlink hcon
  rw [← hgoes, freeSourceAndTargetBufs, hrest.mblks, List.mem_filter, decide_eq_true_eq]

/-! ## Closing a connection -/

/-- A root between two actions: no block is marked, identifiers are unique, and each request
which was ever queued for a connection was sent or waits, in this order. -/
structure WellFormed (s : LifetimeRoot) : Prop where
  unmarked : ∀ key, s.toBeDeleted key = false
  unique : ∀ a ∈ s.mblks, ∀ b ∈ s.mblks, a.mblkId = b.mblkId → a = b
  inOrder : ∀ con, (s.sent con).flatten ++ (s.requests con).flatten = s.queued con
  sized : ∀ con, Sized (s.requests con)
  framed : ∀ con, Sized (s.sent con)

theorem WellFormed.queues {s s' : LifetimeRoot} {added : List (ℕ × ℤ)} (hs : s.WellFormed)
    (h : Queues s s' added) (hmblks : s'.mblks ⊆ s.mblks)
    (hunmarked : ∀ key, s'.toBeDeleted key = false) : s'.WellFormed where
  unmarked := hunmarked
  unique a ha b hb := hs.unique a (hmblks ha) b (hmblks hb)
  inOrder con := by rw [h.sent, h.requests, h.queued, ← List.append_assoc, hs.inOrder]
  sized con := h.sized con (hs.sized con)
  framed con := by
    rw [h.sent]
    exact hs.framed con

theorem goes_congr {s s' : LifetimeRoot} {con key : ℕ} (hmblks : s'.mblks = s.mblks)
    (hsbufs : s'.sbufs = s.sbufs) (htbufs : s'.tbufs = s.tbufs)
    (hup : s'.connectUp = s.connectUp) : s'.Goes con key ↔ s.Goes con key := by
  have hlinks : s'.links = s.links := by rw [links, links, hsbufs, htbufs]
  have hdynamic : s'.isDynamic key = s.isDynamic key := by rw [isDynamic, isDynamic, hmblks]
  have hserved : s'.servedDown key con = false ↔ s.servedDown key con = false := by
    rw [servedDown_eq_false_iff, servedDown_eq_false_iff, hlinks, hup]
  constructor
  · exact fun h => ⟨hlinks ▸ h.linked, hdynamic ▸ h.dynamic, hserved.mp h.unserved⟩
  · exact fun h => ⟨hlinks ▸ h.linked, hdynamic ▸ h.dynamic, hserved.mpr h.unserved⟩

/-- Removal of the blocks in `gone`, by the identifiers of the other ends, is queued for each
connection upwards but `skip`; and of no other blocks. -/
structure Asks (s s' : LifetimeRoot) (skip : Option ℕ) (gone : ℕ → Prop) : Prop where
  upwards : ∀ up, some up ≠ skip → s.connectUp up = true →
    ∃ ids, s'.queued up = s.queued up ++ ids ∧ ∀ id : ℤ, id ∈ ids ↔
      ∃ link ∈ s.links, link.con = up ∧ gone link.mblk ∧ id = link.peerMblkId
  others : ∀ other, some other = skip ∨ s.connectUp other = false →
    s'.queued other = s.queued other

/-- The other ends know the blocks in `gone` by identifiers which fit in an `os_short`. -/
def PeersFit (s : LifetimeRoot) (skip : Option ℕ) (gone : ℕ → Prop) : Prop :=
  ∀ link ∈ s.links, some link.con ≠ skip → s.connectUp link.con = true → gone link.mblk →
    link.peerMblkId ≤ 32767

/-- The requests which the code generates for the blocks in `gone`. -/
def Generates (s : LifetimeRoot) (skip : Option ℕ) (gone : ℕ → Prop) (added : List (ℕ × ℤ)) :
    Prop :=
  ∀ p, p ∈ added ↔ ∃ link ∈ s.links, some link.con ≠ skip ∧ s.connectUp link.con = true ∧
    gone link.mblk ∧ (link.con, link.remoteMblkId) = p

theorem mem_removalRequests {s : LifetimeRoot} {skip : Option ℕ} {key : ℕ} {p : ℕ × ℤ} :
    p ∈ s.removalRequests skip key ↔ ∃ link ∈ s.links, some link.con ≠ skip ∧
      s.connectUp link.con = true ∧ link.mblk = key ∧ (link.con, link.remoteMblkId) = p := by
  simp [removalRequests, linksOf, links, and_assoc, or_and_right, exists_or]

theorem mem_requestsTo {con : ℕ} {added : List (ℕ × ℤ)} {id : ℤ} :
    id ∈ requestsTo con added ↔ (con, id) ∈ added := by
  simp only [requestsTo, List.mem_map, List.mem_filter, decide_eq_true_eq]
  constructor
  · rintro ⟨⟨c, i⟩, ⟨hmem, rfl⟩, rfl⟩
    exact hmem
  · exact fun h => ⟨(con, id), ⟨h, rfl⟩, rfl⟩

theorem remoteMblkId_of_le {link : BufferLink} (h : link.peerMblkId ≤ 32767) :
    link.remoteMblkId = link.peerMblkId := by
  unfold BufferLink.remoteMblkId osShort
  rw [Int.bmod_def]
  omega

theorem remoteMblkId_le (link : BufferLink) : link.remoteMblkId ≤ 32767 := by
  unfold BufferLink.remoteMblkId osShort
  rw [Int.bmod_def]
  omega

/-- The right removals are asked exactly if the identifiers fit. -/
theorem Queues.asks_iff {s s' : LifetimeRoot} {added : List (ℕ × ℤ)} {skip : Option ℕ}
    {gone : ℕ → Prop} (h : Queues s s' added) (hadded : s.Generates skip gone added) :
    Asks s s' skip gone ↔ s.PeersFit skip gone := by
  constructor
  · intro hasks link hlink hcon hup hgone
    obtain ⟨ids, hids, hmem⟩ := hasks.upwards link.con hcon hup
    rw [h.queued, List.append_cancel_left_eq] at hids
    have hasked : (link.peerMblkId : ℤ) ∈ requestsTo link.con added := by
      rw [hids, hmem]
      exact ⟨link, hlink, rfl, hgone, rfl⟩
    obtain ⟨link', -, -, -, -, hpair⟩ := (hadded _).mp (mem_requestsTo.mp hasked)
    have hremote : link'.remoteMblkId = link.peerMblkId := (Prod.mk.inj hpair).2
    have hle := remoteMblkId_le link'
    omega
  · intro hpeers
    refine ⟨fun up hup hconnect => ?_, fun other hother => ?_⟩
    · refine ⟨requestsTo up added, h.queued up, fun id => ?_⟩
      rw [mem_requestsTo, hadded]
      constructor
      · rintro ⟨link, hlink, hcon, hlinkUp, hgone, hpair⟩
        obtain ⟨rfl, rfl⟩ := Prod.mk.inj hpair
        have hfits := hpeers link hlink hcon hlinkUp hgone
        exact ⟨link, hlink, rfl, hgone, remoteMblkId_of_le hfits⟩
      · rintro ⟨link, hlink, rfl, hgone, rfl⟩
        have hfits := hpeers link hlink hup hconnect hgone
        exact ⟨link, hlink, hup, hconnect, hgone, by rw [remoteMblkId_of_le hfits]⟩
    · have hnone : requestsTo other added = [] := by
        refine List.eq_nil_iff_forall_not_mem.mpr fun id hid => ?_
        obtain ⟨link, -, hcon, hlinkUp, -, hpair⟩ := (hadded _).mp (mem_requestsTo.mp hid)
        obtain ⟨rfl, -⟩ := Prod.mk.inj hpair
        rcases hother with hother | hother
        · exact hcon hother
        · rw [hlinkUp] at hother
          cases hother
      rw [h.queued, hnone, List.append_nil]

/-- The first two passes queue the requests for the blocks which go. -/
theorem requestRemovals_exact {s : LifetimeRoot} (hs : s.WellFormed) (con : ℕ) :
    ∃ added, Requested s ((s.markBlocks con).requestRemovals con) added ∧
      (∀ key, ((s.markBlocks con).requestRemovals con).toBeDeleted key = false) ∧
      s.Generates (some con) (s.Goes con) added := by
  obtain ⟨marks, hmarked, hmarks⟩ := markBlocks_eq hs.unmarked con
  rw [hmarked]
  obtain ⟨added, hrequested, hcleared, hadded⟩ := foldl_generate (some con)
    (s.blocksOf con) { s with toBeDeleted := marks }
  refine ⟨added, hrequested.ofMarked, fun key => ?_, fun p => ?_⟩
  · refine (hcleared key).trans ?_
    rw [Bool.and_eq_false_iff, Bool.not_eq_false', decide_eq_true_eq]
    by_cases hmark : marks key = true
    · exact .inr (mem_blocksOf.mpr ((hmarks key).mp hmark).linked)
    · exact .inl (by simpa using hmark)
  · rw [hadded]
    constructor
    · rintro ⟨key, -, hmark, hp⟩
      obtain ⟨link, hlink, hcon, hup, rfl, hpair⟩ := mem_removalRequests.mp hp
      exact ⟨link, hlink, hcon, hup, (hmarks _).mp hmark, hpair⟩
    · rintro ⟨link, hlink, hcon, hup, hgoes, hpair⟩
      exact ⟨link.mblk, mem_blocksOf.mpr hgoes.linked, (hmarks _).mpr hgoes,
        mem_removalRequests.mpr ⟨link, hlink, hcon, hup, rfl, hpair⟩⟩

theorem closeConnection_released {s : LifetimeRoot} (hs : s.WellFormed) (con : ℕ) :
    (∀ mblk, mblk ∈ (s.closeConnection con).mblks ↔ mblk ∈ s.mblks ∧ ¬s.Goes con mblk.key) ∧
      (∃ added, Queues s (s.closeConnection con) added ∧
        s.Generates (some con) (s.Goes con) added) ∧
      ∀ key, (s.closeConnection con).toBeDeleted key = false := by
  obtain ⟨added, hrequested, hunmarked, hadded⟩ := requestRemovals_exact hs con
  obtain ⟨hmblks, hsame⟩ := s.freeSourceAndTargetBufs_released con
  unfold closeConnection
  refine ⟨fun mblk => ?_, ⟨added, ⟨?_, ?_, ?_, ?_⟩, hadded⟩, ?_⟩
  · have hgoes : ((s.markBlocks con).requestRemovals con).Goes con mblk.key ↔
        s.Goes con mblk.key :=
      goes_congr hrequested.mblks hrequested.sbufs hrequested.tbufs hrequested.connectUp
    refine (hmblks mblk).trans ?_
    rw [hgoes, hrequested.mblks]
  · dsimp only
    rw [hsame.sent, hrequested.sent]
  · dsimp only
    rw [hsame.queued]
    exact hrequested.queued
  · dsimp only
    rw [hsame.requests]
    exact hrequested.requests
  · dsimp only
    rw [hsame.requests]
    exact hrequested.sized
  · dsimp only
    rw [hsame.toBeDeleted]
    exact hunmarked

theorem closeConnection_wellFormed {s : LifetimeRoot} (hs : s.WellFormed) (con : ℕ) :
    (s.closeConnection con).WellFormed := by
  obtain ⟨hmblks, ⟨added, hqueues, -⟩, hunmarked⟩ := closeConnection_released hs con
  exact hs.queues hqueues (fun mblk hmblk => ((hmblks mblk).mp hmblk).1) hunmarked

structure ClosesExactly (s s' : LifetimeRoot) (con : ℕ) : Prop where
  released : ∀ mblk, mblk ∈ s'.mblks ↔ mblk ∈ s.mblks ∧ ¬s.Goes con mblk.key
  asked : Asks s s' (some con) (s.Goes con)

theorem closeConnection_exact_iff {s : LifetimeRoot} (hs : s.WellFormed) (con : ℕ) :
    ClosesExactly s (s.closeConnection con) con ↔ s.PeersFit (some con) (s.Goes con) := by
  obtain ⟨hmblks, ⟨added, hqueues, hadded⟩, -⟩ := closeConnection_released hs con
  rw [← hqueues.asks_iff hadded]
  exact ⟨ClosesExactly.asked, fun hasks => ⟨hmblks, hasks⟩⟩

end LifetimeRoot

end Iocom
