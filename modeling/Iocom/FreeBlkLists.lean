import Iocom.FreeBlkMemory

/-!
# The lists of free blocks

The free structure is a list of lists: the main list links one block of each size, and
from each of these the other blocks of its size are linked.  What the assignments of
`ioc_malloc` and `ioc_free` to the link fields do to the chains.
-/

namespace Iocom

open PointerChain

/-! ## The free structure -/

def listedBlks (chains : List FreeChain) : List ℤ :=
  chains.flatMap fun b => b.first :: b.rest

structure Lists (blks : ℤ → IocFreeBlk) (poolfree : Option ℤ) (chains : List FreeChain) :
    Prop where
  main : Leads (fun a => (blks a).nextDiffsz) poolfree (chains.map FreeChain.first) none
  sizes : ∀ b ∈ chains, (blks b.first).sz = b.sz
  same : ∀ b ∈ chains,
    Leads (fun a => (blks a).nextSamesz) (blks b.first).nextSamesz b.rest none

theorem mem_listedBlks {chains : List FreeChain} {b : FreeChain} (hb : b ∈ chains) {a : ℤ}
    (ha : a ∈ b.first :: b.rest) : a ∈ listedBlks chains :=
  List.mem_flatMap.mpr ⟨b, hb, ha⟩

theorem first_mem_listedBlks {chains : List FreeChain} {b : FreeChain} (hb : b ∈ chains) :
    b.first ∈ listedBlks chains :=
  mem_listedBlks hb List.mem_cons_self

@[simp] theorem listedBlks_append (before after : List FreeChain) :
    listedBlks (before ++ after) = listedBlks before ++ listedBlks after :=
  List.flatMap_append

@[simp] theorem listedBlks_cons (b : FreeChain) (chains : List FreeChain) :
    listedBlks (b :: chains) = b.first :: (b.rest ++ listedBlks chains) := rfl

section Lists

variable {blks blks' : ℤ → IocFreeBlk} {poolfree : Option ℤ} {chains before after : List FreeChain}
  {b b' : FreeChain}

theorem Lists.congr (h : Lists blks poolfree chains)
    (hsame : ∀ a ∈ listedBlks chains, blks' a = blks a) : Lists blks' poolfree chains where
  main := by
    apply h.main.congr
    intro a ha
    obtain ⟨b, hb, rfl⟩ := List.mem_map.mp ha
    rw [hsame _ (first_mem_listedBlks hb)]
  sizes b hb := by rw [hsame _ (first_mem_listedBlks hb), h.sizes b hb]
  same b hb := by
    rw [hsame _ (first_mem_listedBlks hb)]
    apply (h.same b hb).congr
    intro a ha
    rw [hsame a (mem_listedBlks hb (List.mem_cons_of_mem _ ha))]

/-- The assignment to `next_samesz` of the structure at `a`. -/
def setNextSamesz (blks : ℤ → IocFreeBlk) (a : ℤ) (p : Option ℤ) : ℤ → IocFreeBlk :=
  Function.update blks a { blks a with nextSamesz := p }

/-- The assignment to `next_diffsz` of the structure at `a`. -/
def setNextDiffsz (blks : ℤ → IocFreeBlk) (a : ℤ) (p : Option ℤ) : ℤ → IocFreeBlk :=
  Function.update blks a { blks a with nextDiffsz := p }

@[simp] theorem setNextSamesz_samesz (a : ℤ) (p : Option ℤ) (c : ℤ) :
    (setNextSamesz blks a p c).nextSamesz =
      Function.update (fun c => (blks c).nextSamesz) a p c := by
  unfold setNextSamesz
  rcases eq_or_ne c a with rfl | hne
  · simp
  · simp [hne]

@[simp] theorem setNextSamesz_diffsz (a : ℤ) (p : Option ℤ) (c : ℤ) :
    (setNextSamesz blks a p c).nextDiffsz = (blks c).nextDiffsz := by
  unfold setNextSamesz
  rcases eq_or_ne c a with rfl | hne
  · simp
  · simp [hne]

@[simp] theorem setNextSamesz_sz (a : ℤ) (p : Option ℤ) (c : ℤ) :
    (setNextSamesz blks a p c).sz = (blks c).sz := by
  unfold setNextSamesz
  rcases eq_or_ne c a with rfl | hne
  · simp
  · simp [hne]

@[simp] theorem setNextDiffsz_samesz (a : ℤ) (p : Option ℤ) (c : ℤ) :
    (setNextDiffsz blks a p c).nextSamesz = (blks c).nextSamesz := by
  unfold setNextDiffsz
  rcases eq_or_ne c a with rfl | hne
  · simp
  · simp [hne]

@[simp] theorem setNextDiffsz_diffsz (a : ℤ) (p : Option ℤ) (c : ℤ) :
    (setNextDiffsz blks a p c).nextDiffsz =
      Function.update (fun c => (blks c).nextDiffsz) a p c := by
  unfold setNextDiffsz
  rcases eq_or_ne c a with rfl | hne
  · simp
  · simp [hne]

@[simp] theorem setNextDiffsz_sz (a : ℤ) (p : Option ℤ) (c : ℤ) :
    (setNextDiffsz blks a p c).sz = (blks c).sz := by
  unfold setNextDiffsz
  rcases eq_or_ne c a with rfl | hne
  · simp
  · simp [hne]

/-! ## Blocks are taken and joined -/

theorem listedBlks_middle (before after : List FreeChain) (b : FreeChain) :
    (listedBlks (before ++ b :: after)).Perm
      (b.first :: (b.rest ++ listedBlks (before ++ after))) := by
  rw [listedBlks_append, listedBlks_append, listedBlks_cons]
  exact List.perm_middle.trans ((List.perm_append_comm_assoc _ _ _).cons _)

theorem firsts_sublist (chains : List FreeChain) :
    (chains.map FreeChain.first).Sublist (listedBlks chains) := by
  induction chains with
  | nil => exact .refl _
  | cons b chains ih =>
      exact (ih.trans (List.sublist_append_right _ _)).cons_cons _

/-- What is listed under other sizes is not the first block of a size. -/
theorem first_ne_of_nodup (hnodup : (listedBlks (before ++ b :: after)).Nodup) {a : ℤ}
    (ha : a ∈ listedBlks (before ++ after)) : a ≠ b.first := by
  have hparts := List.nodup_cons.mp ((listedBlks_middle before after b).nodup_iff.mp hnodup)
  rintro rfl
  exact hparts.1 (List.mem_append_right _ ha)

theorem mem_replaced {c : FreeChain} (hc : c ∈ before ++ b' :: after) :
    c = b' ∨ c ∈ before ++ after := by
  simp only [List.mem_append, List.mem_cons] at hc ⊢
  tauto

theorem mem_of_others {c : FreeChain} (hc : c ∈ before ++ after) : c ∈ before ++ b :: after := by
  simp only [List.mem_append, List.mem_cons] at hc ⊢
  tauto

theorem Lists.popSecond {r : ℤ} {rest : List ℤ} (h : Lists blks poolfree (before ++ b :: after))
    (hnodup : (listedBlks (before ++ b :: after)).Nodup) (hrest : b.rest = r :: rest) :
    Lists (setNextSamesz blks b.first (blks r).nextSamesz) poolfree
      (before ++ { b with rest := rest } :: after) where
  main := by simpa using h.main
  sizes c hc := by
    rw [setNextSamesz_sz]
    rcases mem_replaced hc with rfl | hc
    · exact h.sizes b (by simp)
    · exact h.sizes c (mem_of_others hc)
  same c hc := by
    simp only [setNextSamesz_samesz]
    rcases mem_replaced hc with rfl | hc
    · have hsame := h.same b (by simp)
      have hfirst := (List.nodup_cons.mp ((listedBlks_middle before after b).nodup_iff.mp hnodup)).1
      rw [hrest] at hsame hfirst
      rw [Function.update_self]
      exact hsame.2.update (fun hmem => hfirst (by simp [hmem])) _
    · have hne := fun a ha => first_ne_of_nodup hnodup (@mem_listedBlks _ c hc a ha)
      rw [Function.update_of_ne (hne _ List.mem_cons_self)]
      exact (h.same c (mem_of_others hc)).update
        (fun hmem => hne _ (List.mem_cons_of_mem _ hmem) rfl) _

/-- The first block of all is taken, the only one of its size. -/
theorem Lists.popFirst (h : Lists blks poolfree (b :: after)) :
    Lists blks (blks b.first).nextDiffsz after where
  main := h.main.2
  sizes c hc := h.sizes c (List.mem_cons_of_mem b hc)
  same c hc := h.same c (List.mem_cons_of_mem b hc)

/-- The only block of a size is taken, behind that of another size. -/
theorem Lists.popOnly {prev : FreeChain} (h : Lists blks poolfree (before ++ prev :: b :: after))
    (hnodup : (listedBlks (before ++ prev :: b :: after)).Nodup) :
    Lists (setNextDiffsz blks prev.first (blks b.first).nextDiffsz) poolfree
      (before ++ prev :: after) where
  main := by
    have hmain := h.main
    have hfirsts := hnodup.sublist (firsts_sublist _)
    simp only [List.map_append, List.map_cons] at hmain hfirsts
    simpa using hmain.unlink hfirsts
  sizes c hc := by
    rw [setNextDiffsz_sz]
    exact h.sizes c (by simp only [List.mem_append, List.mem_cons] at hc ⊢; tauto)
  same c hc := by
    simp only [setNextDiffsz_samesz]
    exact h.same c (by simp only [List.mem_append, List.mem_cons] at hc ⊢; tauto)

theorem Lists.pushSecond {r : ℤ} (h : Lists blks poolfree (before ++ b :: after))
    (hnodup : (listedBlks (before ++ b :: after)).Nodup)
    (hr : r ∉ listedBlks (before ++ b :: after)) :
    Lists (setNextSamesz (setNextSamesz blks r (blks b.first).nextSamesz) b.first (some r)) poolfree
      (before ++ { b with rest := r :: b.rest } :: after) where
  main := by simpa using h.main
  sizes c hc := by
    rw [setNextSamesz_sz, setNextSamesz_sz]
    rcases mem_replaced hc with rfl | hc
    · exact h.sizes b (by simp)
    · exact h.sizes c (mem_of_others hc)
  same c hc := by
    simp only [setNextSamesz_samesz]
    rcases mem_replaced hc with rfl | hc
    · have hb : b ∈ before ++ b :: after := by simp
      have hfirst := (List.nodup_cons.mp ((listedBlks_middle before after b).nodup_iff.mp hnodup)).1
      have hne : r ≠ b.first := by
        rintro rfl
        exact hr (first_mem_listedBlks hb)
      refine ⟨by rw [Function.update_self], ?_⟩
      simp only [Function.update_of_ne hne, Function.update_self]
      refine ((h.same b hb).update ?_ _).update ?_ _
      · exact fun hmem => hr (mem_listedBlks hb (List.mem_cons_of_mem _ hmem))
      · exact fun hmem => hfirst (List.mem_append_left _ hmem)
    · have hne := fun a ha => first_ne_of_nodup hnodup (@mem_listedBlks _ c hc a ha)
      have hc' := @mem_of_others before after b c hc
      have hr' : ∀ a ∈ c.first :: c.rest, a ≠ r := by
        rintro a ha rfl
        exact hr (mem_listedBlks hc' ha)
      rw [Function.update_of_ne (hne _ List.mem_cons_self),
        Function.update_of_ne (hr' _ List.mem_cons_self)]
      refine ((h.same c hc').update ?_ _).update ?_ _
      · exact fun hmem => hr' r (List.mem_cons_of_mem _ hmem) rfl
      · exact fun hmem => hne _ (List.mem_cons_of_mem _ hmem) rfl

theorem Lists.pushFirst {r : ℤ} (h : Lists blks poolfree chains) (hr : r ∉ listedBlks chains)
    (hsame : (blks r).nextSamesz = none) :
    Lists (setNextDiffsz blks r poolfree) (some r) (⟨(blks r).sz, r, []⟩ :: chains) where
  main := by
    refine ⟨rfl, ?_⟩
    simp only [setNextDiffsz_diffsz]
    rw [Function.update_self]
    exact h.main.update (fun hmem => hr ((firsts_sublist chains).subset hmem)) _
  sizes c hc := by
    rw [setNextDiffsz_sz]
    rcases List.mem_cons.mp hc with rfl | hc
    · rfl
    · exact h.sizes c hc
  same c hc := by
    simp only [setNextDiffsz_samesz]
    rcases List.mem_cons.mp hc with rfl | hc
    · exact hsame
    · exact h.same c hc

end Lists

end Iocom
