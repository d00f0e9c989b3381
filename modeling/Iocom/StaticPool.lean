import Iocom.FreeBlkLists
import Iocom.Lib.TransitionSystem
import Mathlib.Data.Int.Interval

/-!
# The static pool in memory

As long as no two blocks overlap, the bytes of the pool hold the chains of free blocks,
and `ioc_malloc` and `ioc_free` do to the bytes what `MemoryPool.malloc` and
`MemoryPool.free` do to the chains.
-/

namespace Iocom

open MemoryLedger PointerChain

/-- Blocks which were freed and not allocated again. -/
def freed : List Call → Multiset (ℤ × ℤ)
  | [] => 0
  | .malloc request (some block) :: calls => (freed calls).erase (block, request)
  | .malloc _ none :: calls => freed calls
  | .free block bytes :: calls => (block, bytes) ::ₘ freed calls
  | .touch _ :: calls => freed calls

def BlocksApart (b c : ℤ × ℤ) : Prop := b.1 + b.2 ≤ c.1 ∨ c.1 + c.2 ≤ b.1

/-! ## Chains -/

theorem chain_cases (n : ℤ) (chains : List FreeChain) :
    (∀ b ∈ chains, b.sz ≠ n) ∨ ∃ before b after, chains = before ++ b :: after ∧
      (∀ c ∈ before, c.sz ≠ n) ∧ b.sz = n := by
  induction chains with
  | nil => exact .inl (by simp)
  | cons c chains ih =>
      by_cases hc : c.sz = n
      · exact .inr ⟨[], c, chains, rfl, by simp, hc⟩
      · obtain hnone | ⟨before, b, after, rfl, hbefore, hb⟩ := ih
        · exact .inl (by simpa [hc] using hnone)
        · exact .inr ⟨c :: before, b, after, rfl, by simpa [hc] using hbefore, hb⟩

section Chains

variable {n r : ℤ} {chains before after : List FreeChain} {b : FreeChain}

theorem takeFreeBlk_none (h : ∀ b ∈ chains, b.sz ≠ n) : takeFreeBlk n chains = none := by
  induction chains with
  | nil => rfl
  | cons b chains ih =>
      simp only [List.mem_cons, forall_eq_or_imp] at h
      simp [takeFreeBlk, h.1, ih h.2]

theorem takeFreeBlk_middle (hbefore : ∀ c ∈ before, c.sz ≠ n) (hb : b.sz = n) :
    takeFreeBlk n (before ++ b :: after) = some (match b.rest with
      | r :: rest => (r, before ++ { b with rest := rest } :: after)
      | [] => (b.first, before ++ after)) := by
  induction before with
  | nil =>
      simp only [List.nil_append, takeFreeBlk, hb, if_true]
      cases b.rest <;> rfl
  | cons c before ih =>
      simp only [List.mem_cons, forall_eq_or_imp] at hbefore
      simp only [List.cons_append, takeFreeBlk, hbefore.1, if_false, ih hbefore.2, Option.map_some]
      cases b.rest <;> rfl

theorem joinFreeBlk_none (h : ∀ b ∈ chains, b.sz ≠ n) : joinFreeBlk r n chains = none := by
  induction chains with
  | nil => rfl
  | cons b chains ih =>
      simp only [List.mem_cons, forall_eq_or_imp] at h
      simp [joinFreeBlk, h.1, ih h.2]

theorem joinFreeBlk_middle (hbefore : ∀ c ∈ before, c.sz ≠ n) (hb : b.sz = n) :
    joinFreeBlk r n (before ++ b :: after) =
      some (before ++ { b with rest := r :: b.rest } :: after) := by
  induction before with
  | nil => simp [joinFreeBlk, hb]
  | cons c before ih =>
      simp only [List.mem_cons, forall_eq_or_imp] at hbefore
      simp [joinFreeBlk, hbefore.1, ih hbefore.2]

theorem takeFreeBlk_sizes {left : List FreeChain} (h : takeFreeBlk n chains = some (r, left)) :
    (left.map FreeChain.sz).Sublist (chains.map FreeChain.sz) := by
  obtain hnone | ⟨before, b, after, rfl, hbefore, hb⟩ := chain_cases n chains
  · rw [takeFreeBlk_none hnone] at h
    cases h
  · rw [takeFreeBlk_middle hbefore hb] at h
    cases hrest : b.rest with
    | nil =>
        rw [hrest] at h
        cases h
        simp
    | cons r' rest =>
        rw [hrest] at h
        cases h
        simp

theorem joinFreeBlk_sizes {joined : List FreeChain} (h : joinFreeBlk r n chains = some joined) :
    joined.map FreeChain.sz = chains.map FreeChain.sz := by
  obtain hnone | ⟨before, b, after, rfl, hbefore, hb⟩ := chain_cases n chains
  · rw [joinFreeBlk_none hnone] at h
    cases h
  · rw [joinFreeBlk_middle hbefore hb] at h
    cases h
    simp

theorem sz_ne_of_joinFreeBlk (h : joinFreeBlk r n chains = none) : ∀ b ∈ chains, b.sz ≠ n := by
  obtain hnone | ⟨before, b, after, rfl, hbefore, hb⟩ := chain_cases n chains
  · exact hnone
  · rw [joinFreeBlk_middle hbefore hb] at h
    cases h

theorem sz_of_mem_freeBlocks {a : ℤ} (h : (a, n) ∈ freeBlocks chains) :
    ∃ b ∈ chains, b.sz = n ∧ a ∈ b.first :: b.rest := by
  induction chains with
  | nil => simp [freeBlocks] at h
  | cons b chains ih =>
      rw [freeBlocks_cons, Multiset.mem_add, Multiset.mem_coe, List.mem_map] at h
      obtain ⟨a', ha', heq⟩ | h := h
      · cases heq
        exact ⟨b, List.mem_cons_self, rfl, ha'⟩
      · obtain ⟨c, hc, hsz, ha⟩ := ih h
        exact ⟨c, List.mem_cons_of_mem b hc, hsz, ha⟩

theorem map_fst_freeBlocks (chains : List FreeChain) :
    (freeBlocks chains).map Prod.fst = ↑(listedBlks chains) := by
  induction chains with
  | nil => rfl
  | cons b chains ih =>
      have hfst : (Prod.fst ∘ fun r : ℤ => (r, b.sz)) = id := rfl
      rw [freeBlocks_cons, Multiset.map_add, ih, Multiset.map_coe, List.map_map, hfst, List.map_id]
      rfl

theorem mem_freeBlocks {a : ℤ} (hb : b ∈ chains) (ha : a ∈ b.first :: b.rest) :
    (a, b.sz) ∈ freeBlocks chains := by
  induction chains with
  | nil => cases hb
  | cons c chains ih =>
      rw [freeBlocks_cons, Multiset.mem_add]
      rcases List.mem_cons.mp hb with rfl | hb
      · exact .inl (Multiset.mem_coe.mpr (List.mem_map.mpr ⟨a, ha, rfl⟩))
      · exact .inr (ih hb)

theorem mem_freeBlocks_of_listed {a : ℤ} (h : a ∈ listedBlks chains) :
    ∃ n, (a, n) ∈ freeBlocks chains := by
  obtain ⟨b, hb, ha⟩ := List.mem_flatMap.mp h
  exact ⟨b.sz, mem_freeBlocks hb ha⟩

end Chains

/-! ## What holds of the chains -/

namespace MemoryPool

section Apart

variable {pool : MemoryPool} {blocks : Multiset (ℤ × ℤ)}

theorem Apart.blocksApart (h : pool.Apart blocks) (hsizes : ∀ b ∈ blocks, 0 < b.2)
    {b c : ℤ × ℤ} (hb : b ∈ blocks) (hc : c ∈ blocks.erase b) : BlocksApart b c := by
  have hboth : {b, c} ≤ blocks := by
    rw [← Multiset.cons_erase hb, Multiset.insert_eq_cons, Multiset.cons_le_cons_iff,
      Multiset.singleton_le]
    exact hc
  exact h.disjoint hboth (hsizes b hb) (hsizes c (Multiset.mem_of_mem_erase hc))

theorem Apart.nodup_fst (h : pool.Apart blocks) (hsizes : ∀ b ∈ blocks, 0 < b.2) :
    (blocks.map Prod.fst).Nodup := by
  refine Multiset.Nodup.map_on (fun b hb c hc hfst => ?_) ?_
  · by_contra hne
    have hapart := h.blocksApart hsizes hb ((Multiset.mem_erase_of_ne (Ne.symm hne)).mpr hc)
    have hsizeB := hsizes b hb
    have hsizeC := hsizes c hc
    unfold BlocksApart at hapart
    omega
  · rw [Multiset.nodup_iff_ne_cons_cons]
    rintro b rest rfl
    have hapart := @blocksApart _ _ h hsizes b b (by simp) (by simp)
    have hsize := hsizes b (by simp)
    unfold BlocksApart at hapart
    omega

end Apart

/-- The pool with what was allocated and freed: blocks are apart and no smaller than
`iocFreeBlk`, the chains list what was freed, with one chain for each size. -/
structure Sound (size : ℤ) (calls : List Call) (pool : MemoryPool) : Prop where
  apart : pool.Apart (live id calls + freeBlocks pool.poolfree)
  large : ∀ b ∈ live id calls + freeBlocks pool.poolfree, size ≤ b.2
  listed : freeBlocks pool.poolfree = freed calls
  sizes : (pool.poolfree.map FreeChain.sz).Nodup
  fits : pool.poolpos = 0 ∨ pool.poolpos ≤ pool.poolsz

namespace Sound

variable {size n r : ℤ} {calls : List Call} {pool : MemoryPool}

theorem malloc (h : pool.Sound size calls) (hpos : 0 < size) (hn : size ≤ n) :
    Sound size (.malloc n (pool.malloc n).1 :: calls) (pool.malloc n).2 := by
  have hapart := h.apart.malloc (lt_of_lt_of_le hpos hn)
  have hlarge := h.large
  have hlisted := h.listed
  unfold MemoryPool.malloc at hapart ⊢
  cases htake : takeFreeBlk n pool.poolfree with
  | some taken =>
      obtain ⟨r, left⟩ := taken
      simp only [htake] at hapart ⊢
      rw [freeBlocks_take htake] at hlarge hlisted
      refine ⟨hapart, ?_, ?_, h.sizes.sublist (takeFreeBlk_sizes htake), h.fits⟩
      · rwa [Multiset.add_cons, ← Multiset.cons_add] at hlarge
      · simp only [freed, ← hlisted, Multiset.erase_cons_head]
  | none =>
      simp only [htake] at hapart ⊢
      split_ifs at hapart ⊢ with hfits
      · refine ⟨hapart, ?_, ?_, h.sizes, .inr (by dsimp only; omega)⟩
        · intro b hb
          simp only [live, id_eq, Multiset.cons_add, Multiset.mem_cons] at hb
          rcases hb with rfl | hb
          · exact hn
          · exact hlarge b hb
        · -- the new block lies above all others
          have hnew : (pool.poolpos, n) ∉ freed calls := by
            intro hmem
            rw [← hlisted] at hmem
            have hinside := h.apart.inside _ (Multiset.mem_add.mpr (.inr hmem))
            dsimp only at hinside
            omega
          simp only [freed, Multiset.erase_of_notMem hnew]
          exact hlisted
      · exact ⟨hapart, hlarge, hlisted, h.sizes, h.fits⟩

theorem free (h : pool.Sound size calls) (hlive : (r, n) ∈ live id calls) :
    Sound size (.free r n :: calls) (pool.free r n) := by
  have hblocks := freeBlocks_free pool r n
  refine ⟨h.apart.free hlive, ?_, ?_, ?_, h.fits⟩
  · intro b hb
    rw [hblocks, Multiset.add_cons, ← Multiset.cons_add] at hb
    simp only [live, id_eq] at hb
    rw [Multiset.cons_erase hlive] at hb
    exact h.large b hb
  · rw [hblocks, h.listed, freed]
  · unfold MemoryPool.free
    cases hjoin : joinFreeBlk r n pool.poolfree with
    | none =>
        refine List.nodup_cons.mpr ⟨?_, h.sizes⟩
        intro hmem
        obtain ⟨b, hb, hsz⟩ := List.mem_map.mp hmem
        exact sz_ne_of_joinFreeBlk hjoin b hb hsz
    | some joined =>
        rw [Option.getD_some, joinFreeBlk_sizes hjoin]
        exact h.sizes

theorem malloc_none (h : pool.Sound size calls) (hmalloc : (pool.malloc n).1 = none) :
    (∀ a, (a, n) ∉ freed calls) ∧ pool.poolsz - pool.poolpos < n := by
  obtain hnone | ⟨before, b, after, hchains, hbefore, hb⟩ := chain_cases n pool.poolfree
  · refine ⟨fun a ha => ?_, ?_⟩
    · rw [← h.listed] at ha
      obtain ⟨b, hb, hsz, -⟩ := sz_of_mem_freeBlocks ha
      exact hnone b hb hsz
    · unfold MemoryPool.malloc at hmalloc
      rw [takeFreeBlk_none hnone] at hmalloc
      split_ifs at hmalloc with hfits
      exact not_le.mp hfits
  · unfold MemoryPool.malloc at hmalloc
    rw [hchains, takeFreeBlk_middle hbefore hb] at hmalloc
    cases hmalloc

end Sound

end MemoryPool

/-! ## Where blocks lie -/

section Places

variable {layout : FreeBlkLayout} {calls : List Call} {pool : MemoryPool}

def MemoryPool.blocks (pool : MemoryPool) (calls : List Call) : Multiset (ℤ × ℤ) :=
  live id calls + freeBlocks pool.poolfree

theorem MemoryPool.Sound.size_pos (h : pool.Sound layout.size calls) :
    ∀ b ∈ pool.blocks calls, 0 < b.2 := by
  intro b hb
  have hsize := h.large b hb
  have hpos := layout.size_pos
  omega

theorem MemoryPool.Sound.range (h : pool.Sound layout.size calls) {b : ℤ × ℤ}
    (hb : b ∈ pool.blocks calls) : 0 ≤ b.1 ∧ b.1 < pool.poolpos ∧ b.1 + b.2 ≤ 2147483647 := by
  have hinside := h.apart.inside b hb
  have hpos := h.size_pos b hb
  have hpoolpos := h.apart.poolpos
  omega

theorem mem_blocks_of_listed {a : ℤ} (ha : a ∈ listedBlks pool.poolfree) :
    ∃ n, (a, n) ∈ pool.blocks calls := by
  obtain ⟨n, hn⟩ := mem_freeBlocks_of_listed ha
  exact ⟨n, Multiset.mem_add.mpr (.inr hn)⟩

theorem MemoryPool.Sound.nodup_listed (h : pool.Sound layout.size calls) :
    (listedBlks pool.poolfree).Nodup := by
  have hnodup := h.apart.nodup_fst h.size_pos
  rw [Multiset.map_add, map_fst_freeBlocks] at hnodup
  exact Multiset.coe_nodup.mp (Multiset.nodup_of_le (Multiset.le_add_left _ _) hnodup)

theorem MemoryPool.Sound.notMem_listed (h : pool.Sound layout.size calls) {r n : ℤ}
    (hlive : (r, n) ∈ live id calls) : r ∉ listedBlks pool.poolfree := by
  have hnodup := h.apart.nodup_fst h.size_pos
  rw [Multiset.map_add, map_fst_freeBlocks] at hnodup
  intro hr
  exact Multiset.disjoint_left.mp (Multiset.nodup_add.mp hnodup).2.2
    (Multiset.mem_map_of_mem Prod.fst hlive) (Multiset.mem_coe.mpr hr)

theorem MemoryPool.Sound.length_le (h : pool.Sound layout.size calls) :
    pool.poolfree.length ≤ pool.poolpos.toNat := by
  have hnodup := h.nodup_listed.sublist (firsts_sublist pool.poolfree)
  have hsub : (pool.poolfree.map FreeChain.first).toFinset ⊆ Finset.Ico 0 pool.poolpos := by
    intro a ha
    obtain ⟨n, hn⟩ := @mem_blocks_of_listed calls pool a
      ((firsts_sublist pool.poolfree).subset (List.mem_toFinset.mp ha))
    have hrange := h.range hn
    exact Finset.mem_Ico.mpr ⟨hrange.1, hrange.2.1⟩
  have hcard := Finset.card_le_card hsub
  rw [List.toFinset_card_of_nodup hnodup, Int.card_Ico, List.length_map, sub_zero] at hcard
  exact hcard

/-- Storing the structure of one block leaves those of other blocks alone. -/
theorem MemoryPool.Sound.load_store (h : pool.Sound layout.size calls) {a c n m : ℤ}
    (ha : (a, n) ∈ pool.blocks calls) (hc : (c, m) ∈ pool.blocks calls) {blk : IocFreeBlk}
    (hblk : blk.Storable) (mem : ℤ → UInt8) :
    layout.load (layout.store mem a blk) c = Function.update (layout.load mem) a blk c := by
  rcases eq_or_ne c a with rfl | hne
  · rw [Function.update_self, FreeBlkLayout.load_store hblk]
  · rw [Function.update_of_ne hne]
    apply FreeBlkLayout.load_store_apart
    have hpair : (c, m) ≠ (a, n) := fun heq => hne (congrArg Prod.fst heq)
    have hapart := h.apart.blocksApart h.size_pos ha ((Multiset.mem_erase_of_ne hpair).mpr hc)
    have hsizeA := h.large _ ha
    have hsizeC := h.large _ hc
    unfold BlocksApart at hapart
    dsimp only at *
    omega

/-- A list of listed blocks begins with a pointer into the pool. -/
theorem MemoryPool.Sound.head_pointer (h : pool.Sound layout.size calls) {nodes : List ℤ}
    (hnodes : ∀ a ∈ nodes, a ∈ listedBlks pool.poolfree) : PoolPointer nodes.head? := by
  intro a ha
  obtain ⟨n, hn⟩ := @mem_blocks_of_listed calls pool a (hnodes a (List.mem_of_head? ha))
  have hrange := h.range hn
  have hsize := h.size_pos _ hn
  dsimp only at hrange hsize
  omega

end Places

/-! ## The pool in bytes refines the chains -/

section Refinement

variable {layout : FreeBlkLayout} {calls : List Call} {pool : MemoryPool} {root : IocPool} {n r : ℤ}

structure Represents (layout : FreeBlkLayout) (root : IocPool) (pool : MemoryPool) : Prop where
  poolsz : root.poolsz = pool.poolsz
  poolpos : root.poolpos = pool.poolpos
  lists : Lists (layout.load root.mem) root.poolfree pool.poolfree

theorem Lists.next_eq {blks : ℤ → IocFreeBlk} {poolfree : Option ℤ} {before after : List FreeChain}
    {b : FreeChain} (h : Lists blks poolfree (before ++ b :: after)) :
    (blks b.first).nextSamesz = b.rest.head? ∧
      (blks b.first).nextDiffsz = (after.map FreeChain.first).head? := by
  have hmain := h.main
  rw [List.map_append, List.map_cons] at hmain
  exact ⟨(h.same b (by simp)).eq_head?, hmain.next_eq⟩

theorem findFreeBlk_none (h : Represents layout root pool) (hsound : pool.Sound layout.size calls)
    (hnone : ∀ b ∈ pool.poolfree, b.sz ≠ n) : layout.findFreeBlk root n = some none := by
  have hlength := hsound.length_le
  refine PointerChain.findNode_none h.lists.main ?_ ?_
  · intro a ha
    obtain ⟨b, hb, rfl⟩ := List.mem_map.mp ha
    rw [h.lists.sizes b hb]
    exact decide_eq_false (hnone b hb)
  · rw [h.poolpos, List.length_map]
    omega

theorem findFreeBlk_some (h : Represents layout root pool) (hsound : pool.Sound layout.size calls)
    {before after : List FreeChain} {b : FreeChain} (hchains : pool.poolfree = before ++ b :: after)
    (hbefore : ∀ c ∈ before, c.sz ≠ n) (hb : b.sz = n) :
    layout.findFreeBlk root n =
      some (some ((before.map FreeChain.first).getLast?, b.first)) := by
  have hlength := hsound.length_le
  have hlists := h.lists
  rw [hchains] at hlength hlists
  have hmain := hlists.main
  rw [List.map_append, List.map_cons] at hmain
  unfold FreeBlkLayout.findFreeBlk
  rw [PointerChain.findNode_some hmain, Option.or_none]
  · intro a ha
    obtain ⟨c, hc, rfl⟩ := List.mem_map.mp ha
    rw [hlists.sizes c (List.mem_append_left _ hc)]
    exact decide_eq_false (hbefore c hc)
  · rw [hlists.sizes b (by simp)]
    exact decide_eq_true hb
  · rw [h.poolpos, List.length_map]
    rw [List.length_append, List.length_cons] at hlength
    omega

/-- The first block of a chain holds values which can be stored. -/
theorem Lists.storable {blks : ℤ → IocFreeBlk} {poolfree : Option ℤ}
    (h : Lists blks poolfree pool.poolfree) (hsound : pool.Sound layout.size calls)
    {before after : List FreeChain} {b : FreeChain}
    (hchains : pool.poolfree = before ++ b :: after) : (blks b.first).Storable := by
  have hb : b ∈ pool.poolfree := by rw [hchains]; simp
  have hsz := h.sizes b hb
  rw [hchains] at h
  obtain ⟨hsame, hdiff⟩ := h.next_eq
  refine ⟨?_, ?_, ?_⟩
  · rw [hsame]
    exact hsound.head_pointer fun a ha => mem_listedBlks hb (List.mem_cons_of_mem _ ha)
  · rw [hdiff]
    refine hsound.head_pointer fun a ha => ?_
    obtain ⟨c, hc, rfl⟩ := List.mem_map.mp ha
    exact first_mem_listedBlks (by rw [hchains]; simp [hc])
  · have hrange := hsound.range (Multiset.mem_add.mpr (.inr (mem_freeBlocks hb List.mem_cons_self)))
    have hsize := hsound.large _
      (Multiset.mem_add.mpr (.inr (mem_freeBlocks hb List.mem_cons_self)))
    dsimp only at hrange hsize
    rw [hsz]
    omega

/-- What an assignment does to the structures is done by storing one of them. -/
theorem Lists.stored {mem : ℤ → UInt8} {blk : IocFreeBlk} {a : ℤ} {poolfree : Option ℤ}
    {chains : List FreeChain} (h : Lists (Function.update (layout.load mem) a blk) poolfree chains)
    (hsound : pool.Sound layout.size calls) (ha : ∃ n, (a, n) ∈ pool.blocks calls)
    (hblk : blk.Storable)
    (hchains : ∀ c ∈ listedBlks chains, ∃ m, (c, m) ∈ pool.blocks calls) :
    Lists (layout.load (layout.store mem a blk)) poolfree chains := by
  obtain ⟨n, ha⟩ := ha
  apply h.congr
  intro c hc
  obtain ⟨m, hm⟩ := hchains c hc
  exact hsound.load_store ha hm hblk mem

/-- `ioc_malloc` on the bytes of the pool ends, returns what it returns for the chains, and
the bytes hold the chains which are left. -/
theorem Represents.malloc (h : Represents layout root pool) (hsound : pool.Sound layout.size calls)
    (hn : 0 < n) :
    ∃ root', layout.iocMalloc root n = some ((pool.malloc n).1, root') ∧
      Represents layout root' (pool.malloc n).2 := by
  obtain hnone | ⟨before, b, after, hchains, hbefore, hb⟩ := chain_cases n pool.poolfree
  · unfold FreeBlkLayout.iocMalloc MemoryPool.malloc
    rw [findFreeBlk_none h hsound hnone, takeFreeBlk_none hnone]
    dsimp only
    rw [h.poolsz, h.poolpos]
    split_ifs with hfits
    · have hpoolsz := hsound.apart.poolsz
      have hpoolpos := hsound.apart.poolpos
      refine ⟨_, rfl, rfl, ?_, h.lists⟩
      dsimp only
      rw [osInt_of_range (by omega) (by omega)]
    · exact ⟨root, rfl, h⟩
  · have hstorable := h.lists.storable hsound hchains
    have hlists := h.lists
    have hnodup := hsound.nodup_listed
    rw [hchains] at hlists hnodup
    unfold FreeBlkLayout.iocMalloc MemoryPool.malloc
    rw [findFreeBlk_some h hsound hchains hbefore hb, hchains, takeFreeBlk_middle hbefore hb]
    dsimp only
    rw [hlists.next_eq.1]
    cases hrest : b.rest with
    | cons r rest =>
        have hfirst : b.first ∈ listedBlks pool.poolfree := by simp [hchains]
        have hsame := hlists.same b (by simp)
        rw [hrest] at hsame
        have hnext : (layout.load root.mem r).nextSamesz = rest.head? := hsame.2.eq_head?
        refine ⟨_, rfl, h.poolsz, h.poolpos, ?_⟩
        refine (hlists.popSecond hnodup hrest).stored hsound (mem_blocks_of_listed hfirst)
          ⟨?_, hstorable.nextDiffsz, hstorable.sz⟩ fun a ha => mem_blocks_of_listed ?_
        · dsimp only
          rw [hnext]
          exact hsound.head_pointer fun a ha => by simp [hchains, hrest, ha]
        · rw [hchains, listedBlks_append, listedBlks_cons, hrest]
          simp only [listedBlks_append, listedBlks_cons, List.mem_append, List.mem_cons] at ha ⊢
          tauto
    | nil =>
        obtain rfl | ⟨before, prev, rfl⟩ := before.eq_nil_or_concat'
        · exact ⟨_, rfl, h.poolsz, h.poolpos, hlists.popFirst⟩
        · have hprev : prev.first ∈ listedBlks pool.poolfree := by simp [hchains]
          rw [List.append_assoc, List.singleton_append] at hchains hlists hnodup
          have hstorablePrev := h.lists.storable hsound hchains
          rw [List.map_append, List.map_cons, List.map_nil, List.getLast?_concat]
          refine ⟨_, rfl, h.poolsz, h.poolpos, ?_⟩
          dsimp only
          rw [List.append_assoc, List.singleton_append]
          refine (hlists.popOnly hnodup).stored hsound (mem_blocks_of_listed hprev)
            ⟨hstorablePrev.nextSamesz, hstorable.nextDiffsz, hstorablePrev.sz⟩
            fun a ha => mem_blocks_of_listed ?_
          rw [hchains]
          simp only [listedBlks_append, listedBlks_cons, List.mem_append, List.mem_cons] at ha ⊢
          tauto

/-- Storing a structure into a live block leaves the lists as they are. -/
theorem Represents.storeLive (h : Represents layout root pool)
    (hsound : pool.Sound layout.size calls) (hlive : (r, n) ∈ live id calls) {blk : IocFreeBlk}
    (hblk : blk.Storable) :
    Represents layout { root with mem := layout.store root.mem r blk } pool := by
  refine ⟨h.poolsz, h.poolpos, h.lists.congr fun a ha => ?_⟩
  have hr := hsound.notMem_listed hlive
  obtain ⟨m, hm⟩ := @mem_blocks_of_listed calls pool a ha
  rw [hsound.load_store (Multiset.mem_add.mpr (.inl hlive)) hm hblk, Function.update_of_ne]
  rintro rfl
  exact hr ha

/-- The two assignments by which a block joins those of its size: first its own link, then
that of the first block. -/
theorem Represents.joinSecond (h : Represents layout root pool)
    (hsound : pool.Sound layout.size calls) (hlive : (r, n) ∈ live id calls)
    (hblk : (layout.load root.mem r).Storable) {before after : List FreeChain} {b : FreeChain}
    (hchains : pool.poolfree = before ++ b :: after) :
    let mem := layout.store root.mem r { layout.load root.mem r with
      nextSamesz := (layout.load root.mem b.first).nextSamesz }
    Lists (layout.load (layout.store mem b.first { layout.load mem b.first with
      nextSamesz := some r })) root.poolfree
        (before ++ { b with rest := r :: b.rest } :: after) := by
  intro mem
  have hblock : (r, n) ∈ pool.blocks calls := Multiset.mem_add.mpr (.inl hlive)
  have hr := hsound.notMem_listed hlive
  have hstorable := h.lists.storable hsound hchains
  have hfirst : b.first ∈ listedBlks pool.poolfree := by simp [hchains]
  have hfirstBlock := @mem_blocks_of_listed calls pool _ hfirst
  have hlists := h.lists
  have hnodup := hsound.nodup_listed
  rw [hchains] at hlists hnodup
  have hlink : IocFreeBlk.Storable { layout.load root.mem r with
      nextSamesz := (layout.load root.mem b.first).nextSamesz } :=
    ⟨hstorable.nextSamesz, hblk.nextDiffsz, hblk.sz⟩
  have hmem : ∀ c, (∃ m, (c, m) ∈ pool.blocks calls) → layout.load mem c =
      setNextSamesz (layout.load root.mem) r (layout.load root.mem b.first).nextSamesz c :=
    fun c ⟨m, hm⟩ => hsound.load_store hblock hm hlink root.mem
  have hne : b.first ≠ r := fun heq => hr (heq ▸ hfirst)
  have hlisted : ∀ c ∈ listedBlks (before ++ { b with rest := r :: b.rest } :: after),
      ∃ m, (c, m) ∈ pool.blocks calls := by
    intro c hc
    rcases eq_or_ne c r with rfl | hcr
    · exact ⟨n, hblock⟩
    · apply mem_blocks_of_listed
      rw [hchains]
      simp only [listedBlks_append, listedBlks_cons, List.mem_append, List.mem_cons, hcr,
        false_or] at hc ⊢
      exact hc
  have hfirstLoad : layout.load mem b.first = layout.load root.mem b.first := by
    rw [hmem _ hfirstBlock, setNextSamesz, Function.update_of_ne hne]
  have hpointer : PoolPointer (some r) := by
    have hrange := hsound.range hblock
    have hsize := hsound.size_pos _ hblock
    rintro a ⟨⟩
    dsimp only at hrange hsize
    omega
  refine Lists.stored (Lists.congr (hlists.pushSecond hnodup (hchains ▸ hr)) fun c hc => ?_)
    hsound hfirstBlock ?_ hlisted
  · rw [setNextSamesz, setNextSamesz]
    rcases eq_or_ne c b.first with rfl | hcb
    · rw [Function.update_self, Function.update_self, hfirstLoad, Function.update_of_ne hne]
    · rw [Function.update_of_ne hcb, Function.update_of_ne hcb, hmem c (hlisted c hc)]
      rfl
  · rw [hfirstLoad]
    exact ⟨hpointer, hstorable.nextDiffsz, hstorable.sz⟩

/-- `ioc_free` on the bytes of the pool. -/
theorem Represents.free (h : Represents layout root pool) (hsound : pool.Sound layout.size calls)
    (hlive : (r, n) ∈ live id calls) :
    ∃ root', layout.iocFree root (some r) n = some root' ∧
      Represents layout root' (pool.free r n) := by
  have hblock : (r, n) ∈ pool.blocks calls := Multiset.mem_add.mpr (.inl hlive)
  have hr := hsound.notMem_listed hlive
  have hrange := hsound.range hblock
  have hsize := hsound.size_pos _ hblock
  dsimp only at hrange hsize
  have hpointer : PoolPointer (some r) := by
    rintro a ⟨⟩
    omega
  have hnull : PoolPointer none := fun a ha => nomatch ha
  have hblk : IocFreeBlk.Storable ⟨none, none, n⟩ := ⟨hnull, hnull, by dsimp only; omega⟩
  have h₁ := h.storeLive hsound hlive hblk
  have hload : layout.load (layout.store root.mem r ⟨none, none, n⟩) r = ⟨none, none, n⟩ :=
    FreeBlkLayout.load_store hblk
  unfold FreeBlkLayout.iocFree MemoryPool.free
  rw [osInt_of_range (by omega) (by omega)]
  dsimp only
  obtain hnone | ⟨before, b, after, hchains, hbefore, hb⟩ := chain_cases n pool.poolfree
  · rw [findFreeBlk_none h₁ hsound hnone, joinFreeBlk_none hnone, hload]
    refine ⟨_, rfl, h.poolsz, h.poolpos, ?_⟩
    have hpush := h₁.lists.pushFirst hr (by rw [hload])
    rw [setNextDiffsz, hload] at hpush
    refine hpush.stored hsound ⟨n, hblock⟩ ⟨hnull, ?_, hblk.sz⟩ fun c hc => ?_
    · dsimp only
      rw [h.lists.main.eq_head?]
      exact hsound.head_pointer fun a ha => (firsts_sublist _).subset ha
    · rcases List.mem_cons.mp hc with rfl | hc
      · exact ⟨n, hblock⟩
      · exact mem_blocks_of_listed hc
  · rw [findFreeBlk_some h₁ hsound hchains hbefore hb, hchains, joinFreeBlk_middle hbefore hb]
    refine ⟨_, rfl, h.poolsz, h.poolpos, h₁.joinSecond hsound hlive ?_ hchains⟩
    rw [hload]
    exact hblk

/-- What is written to a live block leaves the lists as they are. -/
theorem Represents.write (h : Represents layout root pool)
    (hsound : pool.Sound layout.size calls) {b : ℤ × ℤ} (hlive : b ∈ live id calls) {a : ℤ}
    (ha : Covers a b) (byte : UInt8) :
    Represents layout { root with mem := Function.update root.mem a byte } pool := by
  refine ⟨h.poolsz, h.poolpos, h.lists.congr fun c hc => ?_⟩
  have hblock : b ∈ pool.blocks calls := Multiset.mem_add.mpr (.inl hlive)
  obtain ⟨m, hm⟩ := @mem_blocks_of_listed calls pool c hc
  have hne : (c, m) ≠ b := by
    rintro rfl
    exact hsound.notMem_listed hlive hc
  have hapart := hsound.apart.blocksApart hsound.size_pos hblock
    ((Multiset.mem_erase_of_ne hne).mpr hm)
  have hlarge := hsound.large _ hm
  unfold BlocksApart at hapart
  unfold Covers at ha
  apply FreeBlkLayout.load_congr
  intro i hlow hhigh
  apply Function.update_of_ne
  dsimp only at *
  omega

end Refinement

/-! ## Runs -/

/-- The pool as `ioc_set_memory_pool` sets it up. -/
def iocSetMemoryPool (bufsz : ℤ) (buf : ℤ → UInt8) : IocPool := ⟨osInt bufsz, 0, none, buf⟩

structure StaticPool where
  root : IocPool
  calls : List Call

inductive StaticPoolAction
  | malloc (requestBytes : ℤ)
  | free (memoryBlock bytes : ℤ)
  | write (a : ℤ) (byte : UInt8)

namespace StaticPoolAction

variable (layout : FreeBlkLayout) (s : StaticPool)

def run : StaticPoolAction → Option StaticPool
  | .malloc n => (layout.iocMalloc s.root n).map fun (r, root) => ⟨root, .malloc n r :: s.calls⟩
  | .free b n => (layout.iocFree s.root (some b) n).map fun root => ⟨root, .free b n :: s.calls⟩
  | .write a byte => some { s with root.mem := Function.update s.root.mem a byte }

/-- A request is at least `sizeof(iocFreeBlk)`, a free gives the requested size of a live
block, and owners write to their blocks. -/
def Permitted : StaticPoolAction → Prop
  | .malloc n => layout.size ≤ n
  | .free b n => (b, n) ∈ live id s.calls
  | .write a _ => ∃ b ∈ live id s.calls, Covers a b

end StaticPoolAction

/-- The calls and writes of users who keep to the rules. -/
def StaticPool.Step (layout : FreeBlkLayout) (s s' : StaticPool) : Prop :=
  ∃ action : StaticPoolAction, action.Permitted layout s ∧ action.run layout s = some s'

def StaticPool.Start (s : StaticPool) : Prop :=
  ∃ bufsz buf, s = ⟨iocSetMemoryPool bufsz buf, []⟩

def StaticPool.Kept (layout : FreeBlkLayout) (s : StaticPool) : Prop :=
  ∃ pool : MemoryPool, Represents layout s.root pool ∧ pool.Sound layout.size s.calls

section Runs

variable {layout : FreeBlkLayout} {s : StaticPool}

theorem StaticPool.Kept.start (h : s.Start) : s.Kept layout := by
  obtain ⟨bufsz, buf, rfl⟩ := h
  have hbounds := osInt_bounds bufsz
  refine ⟨setMemoryPool bufsz, ⟨rfl, rfl, rfl, by simp [setMemoryPool], by simp [setMemoryPool]⟩,
    ⟨?_, ?_, ?_, by simp [setMemoryPool], .inl rfl⟩⟩
  · refine ⟨?_, by simp [setMemoryPool], ?_, ?_⟩
    · change osInt bufsz ≤ 2147483647
      omega
    · simp [setMemoryPool, live, freeBlocks]
    · simp [setMemoryPool, live, freeBlocks]
  · simp [setMemoryPool, live, freeBlocks]
  · simp [setMemoryPool, freed, freeBlocks]

theorem StaticPool.Kept.run (h : s.Kept layout) {action : StaticPoolAction}
    (haction : action.Permitted layout s) :
    ∃ s', action.run layout s = some s' ∧ s'.Kept layout := by
  obtain ⟨pool, hrep, hsound⟩ := h
  have hpos : (0 : ℤ) < layout.size := by exact_mod_cast layout.size_pos
  cases action with
  | malloc n =>
      obtain ⟨root', hmalloc, hrep'⟩ := hrep.malloc hsound (lt_of_lt_of_le hpos haction)
      simp only [StaticPoolAction.run, hmalloc, Option.map_some]
      exact ⟨_, rfl, _, hrep', hsound.malloc hpos haction⟩
  | free b n =>
      obtain ⟨root', hfree, hrep'⟩ := hrep.free hsound haction
      simp only [StaticPoolAction.run, hfree, Option.map_some]
      exact ⟨_, rfl, _, hrep', hsound.free haction⟩
  | write a byte =>
      obtain ⟨b, hlive, ha⟩ := haction
      exact ⟨_, rfl, pool, hrep.write hsound hlive ha byte, hsound⟩

theorem StaticPool.reachable_kept
    (h : TransitionSystem.Reachable StaticPool.Start (StaticPool.Step layout) s) :
    s.Kept layout := by
  refine h.invariant _ (fun _ hstart => .start hstart) ?_
  rintro s s' hkept ⟨action, hpermitted, hrun⟩
  obtain ⟨s'', hrun', hkept'⟩ := hkept.run hpermitted
  rw [hrun] at hrun'
  cases hrun'
  exact hkept'

end Runs

/-- What a static pool is for. -/
structure StaticPool.Sound (layout : FreeBlkLayout) (s : StaticPool) : Prop where
  live_apart : ∀ b ∈ live id s.calls, ∀ c ∈ (live id s.calls).erase b, BlocksApart b c
  free_apart : ∀ b ∈ live id s.calls, ∀ c ∈ freed s.calls, BlocksApart b c
  inside : ∀ b ∈ live id s.calls, 0 ≤ b.1 ∧ b.1 + b.2 ≤ s.root.poolsz
  lists : ∃ chains, Lists (layout.load s.root.mem) s.root.poolfree chains ∧
    freeBlocks chains = freed s.calls ∧ (freed s.calls).Nodup ∧
    (chains.map FreeChain.sz).Nodup
  allocates : ∀ n : ℤ, layout.size ≤ n → ∃ r root', layout.iocMalloc s.root n = some (r, root') ∧
    (r = none → (∀ a, (a, n) ∉ freed s.calls) ∧ s.root.poolsz - s.root.poolpos < n)
  releases : ∀ b n, (b, n) ∈ live id s.calls →
    ∃ root', layout.iocFree s.root (some b) n = some root'

/-- The pool is sound in every state which any number of calls reach, with requests of at
least `sizeof(iocFreeBlk)` and blocks freed with the size they were requested with,
whatever their owners write to them. -/
theorem static_pool_sound (layout : FreeBlkLayout) (s : StaticPool)
    (h : TransitionSystem.Reachable StaticPool.Start (StaticPool.Step layout) s) :
    s.Sound layout := by
  obtain ⟨pool, hrep, hsound⟩ := StaticPool.reachable_kept h
  have hpos : (0 : ℤ) < layout.size := by exact_mod_cast layout.size_pos
  have hlisted := hsound.listed
  have hblocks : pool.blocks s.calls = live id s.calls + freed s.calls := by
    rw [← hlisted]
    rfl
  have happart : ∀ b ∈ live id s.calls, ∀ c ∈ (live id s.calls).erase b + freed s.calls,
      BlocksApart b c := by
    intro b hb c hc
    rw [← Multiset.erase_add_left_pos _ hb, ← hblocks] at hc
    exact hsound.apart.blocksApart hsound.size_pos (Multiset.mem_add.mpr (.inl hb)) hc
  refine ⟨?_, ?_, ?_, ⟨pool.poolfree, hrep.lists, hlisted, ?_, hsound.sizes⟩, ?_, ?_⟩
  · exact fun b hb c hc => happart b hb c (Multiset.mem_add.mpr (.inl hc))
  · exact fun b hb c hc => happart b hb c (Multiset.mem_add.mpr (.inr hc))
  · intro b hb
    have hmem : b ∈ pool.blocks s.calls := Multiset.mem_add.mpr (.inl hb)
    have hinside := hsound.apart.inside b hmem
    have hsize := hsound.size_pos b hmem
    have hfits := hsound.fits
    rw [hrep.poolsz]
    omega
  · have hnodup := Multiset.Nodup.of_map _ (hsound.apart.nodup_fst hsound.size_pos)
    rw [hlisted] at hnodup
    exact Multiset.nodup_of_le (Multiset.le_add_left _ _) hnodup
  · intro n hn
    obtain ⟨root', hmalloc, -⟩ := hrep.malloc hsound (lt_of_lt_of_le hpos hn)
    refine ⟨_, root', hmalloc, fun hnone => ?_⟩
    rw [hrep.poolsz, hrep.poolpos]
    exact hsound.malloc_none hnone
  · intro b n hlive
    obtain ⟨root', hfree, -⟩ := hrep.free hsound hlive
    exact ⟨root', hfree⟩

/-- Two blocks from a pool of a hundred bytes, of which the first is freed. -/
theorem static_pool_two_blocks : ∃ root, StaticPool.Sound layout32
    ⟨root, [.free 0 24, .malloc 48 (some 24), .malloc 24 (some 0)]⟩ :=
  ⟨_, static_pool_sound layout32 _ <|
    .next (.next (.next (.start ⟨100, fun _ => 0, rfl⟩)
      ⟨.malloc 24, by simp [StaticPoolAction.Permitted, layout32], rfl⟩)
      ⟨.malloc 48, by simp [StaticPoolAction.Permitted, layout32], rfl⟩)
      ⟨.free 0 24, by simp [StaticPoolAction.Permitted, live, iocSetMemoryPool], rfl⟩⟩

end Iocom
