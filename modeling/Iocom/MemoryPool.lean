import Iocom.PoolOwnership

/-!
# The static memory pool

A root with a pool takes memory from blocks which were freed with the very size
asked for, else from the unused end of the pool.  A freed block becomes a structure
`iocFreeBlk` with the size which `ioc_free` was given: what is live and what is
free do not overlap as long as sizes are right.
-/

namespace Iocom

open MemoryLedger

/-- Free blocks of one size: the first, and those linked to it by `next_samesz`. -/
structure FreeChain where
  sz : ℤ
  first : ℤ
  rest : List ℤ
  deriving DecidableEq

/-- The pool of a root; addresses count from its start. -/
structure MemoryPool where
  poolsz : ℤ
  poolpos : ℤ
  poolfree : List FreeChain
  deriving DecidableEq

/-- `ioc_set_memory_pool`. -/
def setMemoryPool (bufsz : ℤ) : MemoryPool := ⟨osInt bufsz, 0, []⟩

def takeFreeBlk (request : ℤ) : List FreeChain → Option (ℤ × List FreeChain)
  | [] => none
  | b :: chains =>
      if b.sz = request then
        match b.rest with
        | r :: rest => some (r, { b with rest := rest } :: chains)
        | [] => some (b.first, chains)
      else (takeFreeBlk request chains).map fun (r, chains) => (r, b :: chains)

/-- The chains with a block joined to those of its size, if there are any. -/
def joinFreeBlk (block bytes : ℤ) : List FreeChain → Option (List FreeChain)
  | [] => none
  | b :: chains =>
      if b.sz = bytes then some ({ b with rest := block :: b.rest } :: chains)
      else (joinFreeBlk block bytes chains).map (b :: ·)

namespace MemoryPool

/-- `ioc_malloc` with a static pool. -/
def malloc (pool : MemoryPool) (request : ℤ) : Option ℤ × MemoryPool :=
  match takeFreeBlk request pool.poolfree with
  | some (r, poolfree) => (some r, { pool with poolfree := poolfree })
  | none =>
      if request ≤ pool.poolsz - pool.poolpos then
        (some pool.poolpos, { pool with poolpos := pool.poolpos + request })
      else (none, pool)

/-- `ioc_free` with a static pool. -/
def free (pool : MemoryPool) (block bytes : ℤ) : MemoryPool :=
  { pool with
    poolfree :=
      (joinFreeBlk block bytes pool.poolfree).getD (⟨bytes, block, []⟩ :: pool.poolfree) }

end MemoryPool

instance : IocHeap MemoryPool := ⟨MemoryPool.malloc, MemoryPool.free⟩

/-! ## Blocks do not overlap -/

def freeBlocks (chains : List FreeChain) : Multiset (ℤ × ℤ) :=
  (chains.map fun b => (↑((b.first :: b.rest).map fun r => (r, b.sz)) : Multiset (ℤ × ℤ))).sum

theorem freeBlocks_cons (b : FreeChain) (chains : List FreeChain) :
    freeBlocks (b :: chains) =
      ↑((b.first :: b.rest).map fun r => (r, b.sz)) + freeBlocks chains := by
  simp [freeBlocks]

theorem freeBlocks_take {request r : ℤ} {chains left : List FreeChain}
    (h : takeFreeBlk request chains = some (r, left)) :
    freeBlocks chains = (r, request) ::ₘ freeBlocks left := by
  induction chains generalizing left with
  | nil => cases h
  | cons b chains ih =>
      simp only [takeFreeBlk] at h
      split_ifs at h with hsz
      · split at h <;> cases h
        · next hrest =>
            rw [freeBlocks_cons, freeBlocks_cons, hrest, ← hsz, ← Multiset.cons_add]
            congr 1
            exact Multiset.coe_eq_coe.mpr (List.Perm.swap _ _ _)
        · next hrest =>
            rw [freeBlocks_cons, hrest, ← hsz]
            simp
      · obtain ⟨⟨r', left'⟩, htake, hboth⟩ := Option.map_eq_some_iff.mp h
        cases hboth
        rw [freeBlocks_cons, freeBlocks_cons, ih htake, Multiset.add_cons]

theorem freeBlocks_join {block bytes : ℤ} {chains joined : List FreeChain}
    (h : joinFreeBlk block bytes chains = some joined) :
    freeBlocks joined = (block, bytes) ::ₘ freeBlocks chains := by
  induction chains generalizing joined with
  | nil => cases h
  | cons b chains ih =>
      simp only [joinFreeBlk] at h
      split_ifs at h with hsz
      · cases h
        rw [freeBlocks_cons, freeBlocks_cons, ← hsz, ← Multiset.cons_add]
        congr 1
        exact Multiset.coe_eq_coe.mpr (List.Perm.swap _ _ _)
      · obtain ⟨joined', hjoin, rfl⟩ := Option.map_eq_some_iff.mp h
        rw [freeBlocks_cons, freeBlocks_cons, ih hjoin, Multiset.add_cons]

theorem freeBlocks_free (pool : MemoryPool) (block bytes : ℤ) :
    freeBlocks (pool.free block bytes).poolfree = (block, bytes) ::ₘ freeBlocks pool.poolfree := by
  unfold MemoryPool.free
  cases h : joinFreeBlk block bytes pool.poolfree with
  | none =>
      simp only [Option.getD_none, freeBlocks_cons, List.map_cons, List.map_nil]
      rfl
  | some joined => exact freeBlocks_join h

def Covers (a : ℤ) (b : ℤ × ℤ) : Prop := b.1 ≤ a ∧ a < b.1 + b.2

instance (a : ℤ) : DecidablePred (Covers a) := fun _ => inferInstanceAs (Decidable (_ ∧ _))

structure MemoryPool.Apart (pool : MemoryPool) (blocks : Multiset (ℤ × ℤ)) : Prop where
  poolsz : pool.poolsz ≤ 2147483647
  poolpos : 0 ≤ pool.poolpos ∧ pool.poolpos ≤ 2147483647
  inside : ∀ b ∈ blocks, 0 ≤ b.1 ∧ b.1 + b.2 ≤ pool.poolpos
  apart : ∀ a, blocks.countP (Covers a) ≤ 1

namespace MemoryPool.Apart

variable {pool : MemoryPool} {blocks : Multiset (ℤ × ℤ)}

theorem extend {n : ℤ} (h : pool.Apart blocks) (hn : 0 < n)
    (hfits : n ≤ pool.poolsz - pool.poolpos) :
    Apart { pool with poolpos := pool.poolpos + n } ((pool.poolpos, n) ::ₘ blocks) where
  poolsz := h.poolsz
  poolpos := by
    have hpos := h.poolpos
    have hsz := h.poolsz
    constructor <;> dsimp only <;> omega
  inside := by
    have hpos := h.poolpos
    intro b hb
    rcases Multiset.mem_cons.mp hb with rfl | hb
    · exact ⟨hpos.1, le_rfl⟩
    · have hinside := h.inside b hb
      exact ⟨hinside.1, by dsimp only; omega⟩
  apart := by
    intro a
    by_cases ha : Covers a (pool.poolpos, n)
    · have hnone : blocks.countP (Covers a) = 0 := by
        refine Multiset.countP_eq_zero.mpr fun b hb hcovers => ?_
        have hinside := h.inside b hb
        have hlow : pool.poolpos ≤ a := ha.1
        have hhigh : a < b.1 + b.2 := hcovers.2
        omega
      rw [Multiset.countP_cons_of_pos _ ha, hnone]
    · rw [Multiset.countP_cons_of_neg _ ha]
      exact h.apart a

theorem disjoint {b c : ℤ × ℤ} (h : pool.Apart blocks) (hboth : {b, c} ≤ blocks)
    (hb : 0 < b.2) (hc : 0 < c.2) : b.1 + b.2 ≤ c.1 ∨ c.1 + c.2 ≤ b.1 := by
  by_contra hover
  rw [not_or] at hover
  have hcoversB : Covers (max b.1 c.1) b := ⟨le_max_left _ _, by omega⟩
  have hcoversC : Covers (max b.1 c.1) c := ⟨le_max_right _ _, by omega⟩
  have htwo : ({b, c} : Multiset (ℤ × ℤ)).countP (Covers (max b.1 c.1)) = 2 := by
    rw [Multiset.insert_eq_cons, Multiset.countP_cons_of_pos _ hcoversB,
      ← Multiset.cons_zero, Multiset.countP_cons_of_pos _ hcoversC, Multiset.countP_zero]
  have hle := Multiset.countP_le_of_le (Covers (max b.1 c.1)) hboth
  have hone := h.apart (max b.1 c.1)
  omega

/-- Memory is taken from the free blocks or from the unused end. -/
theorem malloc {calls : List Call} {n : ℤ}
    (h : pool.Apart (live id calls + freeBlocks pool.poolfree)) (hn : 0 < n) :
    MemoryPool.Apart (pool.malloc n).2
      (live id (.malloc n (pool.malloc n).1 :: calls) + freeBlocks (pool.malloc n).2.poolfree) := by
  unfold MemoryPool.malloc
  split
  · next r poolfree htake =>
      rw [freeBlocks_take htake, Multiset.add_cons, ← Multiset.cons_add] at h
      exact ⟨h.poolsz, h.poolpos, h.inside, h.apart⟩
  · split_ifs with hfits
    · have hmore := h.extend hn hfits
      rw [← Multiset.cons_add] at hmore
      exact hmore
    · exact h

theorem free {calls : List Call} {block bytes : ℤ}
    (h : pool.Apart (live id calls + freeBlocks pool.poolfree))
    (hmem : (block, bytes) ∈ live id calls) :
    MemoryPool.Apart (pool.free block bytes)
      ((live id calls).erase (block, bytes) + freeBlocks (pool.free block bytes).poolfree) := by
  have hsame : (live id calls).erase (block, bytes) +
      freeBlocks (pool.free block bytes).poolfree = live id calls + freeBlocks pool.poolfree := by
    rw [freeBlocks_free, Multiset.add_cons, ← Multiset.cons_add, Multiset.cons_erase hmem]
  rw [hsame]
  exact ⟨h.poolsz, h.poolpos, h.inside, h.apart⟩

end MemoryPool.Apart

/-! ## Counting with sizes -/

/-- The block is asked for and freed with one size, which is permitted from that of
`iocFreeBlk` on; what is live or free stays apart. -/
def poolTerms (sizes : PoolSizes) : LedgerTerms MemoryPool sizes (ℤ × ℤ) where
  key := id
  permitted n := sizes.freeBlk ≤ n
  good pool calls := pool.Apart (live id calls + freeBlocks pool.poolfree)
  permitted_of_le _ hn := hn
  good_malloc _ _ _ hgood hn := hgood.malloc (lt_of_lt_of_le sizes.freeBlk_pos hn)
  good_free _ _ _ _ hgood hlive := hgood.free hlive
  good_touch _ _ _ hgood := hgood
  key_osInt := by
    intro pool calls n block hgood hn hmalloc
    have hpos := sizes.freeBlk_pos
    have hle : n ≤ 2147483647 := by
      change (pool.malloc n).1 = some block at hmalloc
      unfold MemoryPool.malloc at hmalloc
      split at hmalloc
      · next r poolfree htake =>
          have hinside := hgood.inside (r, n) (by
            rw [freeBlocks_take htake, Multiset.add_cons]
            exact Multiset.mem_cons_self _ _)
          have hpoolpos := hgood.poolpos
          omega
      · split_ifs at hmalloc with hfits
        have hpoolsz := hgood.poolsz
        have hpoolpos := hgood.poolpos
        omega
    rw [osInt_of_range (by omega) (by omega)]

/-! ## Runs -/

/-- Each block is freed with the size it was allocated with, no request is smaller
than a free block, and no two live blocks overlap. -/
structure PoolDiscipline (sizes : PoolSizes) (calls : List Call) : Prop where
  frees : ∀ newer older block bytes, calls = newer ++ .free block bytes :: older →
    (block, bytes) ∈ live id older
  requests : ∀ n result, Call.malloc n result ∈ calls → sizes.freeBlk ≤ n
  disjoint : ∀ b c, {b, c} ≤ live id calls → b.1 + b.2 ≤ c.1 ∨ c.1 + c.2 ≤ b.1

/-- A connection with frame buffers of its own is connected with its frame size, and a
source or target buffer asks for no less than a free block. -/
def PoolOp.KeepsSizes (sizes : PoolSizes) (root : PoolRoot MemoryPool) : PoolOp → Prop
  | .connect k prm => ∀ con, root.findCon k = some con →
      con.frameOut.allocated = true ∨ con.frameIn.allocated = true →
      con.frameSz = sizes.frameSz prm.socket
  | op => ∀ n ∈ root.syncbufRequest sizes op, sizes.freeBlk ≤ n

theorem PoolOp.KeepsSizes.countable {sizes : PoolSizes} {root : PoolRoot MemoryPool} {op : PoolOp}
    (h : op.KeepsSizes sizes root) : (poolTerms sizes).Countable root op := by
  cases op with
  | connect k prm =>
      intro con hfind
      have hsame := h con hfind
      unfold FrameBuffer.own
      constructor
      · split_ifs with hallocated
        · rw [hsame (.inl hallocated)]
        · rfl
      · split_ifs with hallocated
        · rw [hsame (.inr hallocated)]
        · rfl
  | _ => exact h

theorem PoolRoot.EachStep.countable {sizes : PoolSizes} {root : PoolRoot MemoryPool}
    {ops : List PoolOp} (h : EachStep sizes (fun root op => op.KeepsSizes sizes root) root ops) :
    EachStep sizes (poolTerms sizes).Countable root ops := by
  induction ops generalizing root with
  | nil => trivial
  | cons op ops ih => exact ⟨h.1.countable, ih h.2⟩

theorem poolTerms_start (sizes : PoolSizes) (bufsz : ℤ) :
    (poolTerms sizes).Accounts (PoolRoot.start (setMemoryPool bufsz)) 0 := by
  refine .start _ ⟨?_, ⟨le_rfl, Int.natCast_nonneg 2147483647⟩, fun b hb => ?_, fun a => ?_⟩
  · have hbounds := osInt_bounds bufsz
    change osInt bufsz ≤ 2147483647
    omega
  · exact absurd hb (Multiset.notMem_zero b)
  · exact Nat.zero_le 1

/-- In a run in which
no connection changes its frame size while it owns frame buffers, and no source or target
buffer is made for a block so small that its request is below a free block, each block is
freed with its own size, and live blocks do not overlap. -/
theorem pool_blocks_freed_as_allocated (sizes : PoolSizes) (bufsz : ℤ) (ops : List PoolOp)
    (hops : PoolRoot.EachStep sizes (fun root op => op.KeepsSizes sizes root)
      (PoolRoot.start (setMemoryPool bufsz)) ops) :
    PoolDiscipline sizes ((PoolRoot.start (setMemoryPool bufsz)).run sizes ops).calls := by
  have hbooks := (poolTerms_start sizes bufsz).run hops.countable
  have hrequests := hbooks.permitted
  refine ⟨fun newer older block bytes hcalls => ?_, hrequests, fun b c hboth => ?_⟩
  · have hfrees := hbooks.holds.frees
    rw [hcalls] at hfrees
    exact hfrees.of_append.1
  · have hpos := sizes.freeBlk_pos
    have hsize : ∀ d ∈ ({b, c} : Multiset (ℤ × ℤ)), 0 < d.2 := fun d hd => by
      have hrequest := hrequests _ _ (malloc_of_mem_live (Multiset.mem_of_le hboth hd))
      change sizes.freeBlk ≤ d.2 at hrequest
      omega
    exact hbooks.good.disjoint (hboth.trans (Multiset.le_add_right _ _)) (hsize b (by simp))
      (hsize c (by simp))

def connectParams (socket : Bool) : ConnectParams := ⟨socket, true, none, none, none⟩

/-- A socket connection which is connected twice, and released. -/
theorem pool_reconnected_discipline :
    PoolDiscipline poolSizes64 ((PoolRoot.start (setMemoryPool 20000)).run poolSizes64
      [.initializeConnection false, .connect 0 (connectParams true),
        .connect 0 (connectParams true), .releaseConnection 0]).calls := by
  refine pool_blocks_freed_as_allocated poolSizes64 20000 _ ⟨?_, ?_, ?_, ?_, trivial⟩
  · intro n hn
    cases hn
  · intro con hfind
    have hcon : con.frameOut.allocated = false ∧ con.frameIn.allocated = false := by
      cases hfind
      decide
    simp [hcon]
  · intro con hfind _
    cases hfind
    decide
  · intro n hn
    cases hn

/-- Connected to a serial port after a socket, it frees its frame buffers with the size
of the new ones. -/
theorem pool_reconnected_other_size :
    ¬∀ (sizes : PoolSizes) (bufsz : ℤ) (ops : List PoolOp),
      PoolDiscipline sizes ((PoolRoot.start (setMemoryPool bufsz)).run sizes ops).calls := by
  intro hall
  have hdiscipline := hall poolSizes64 20000 [.initializeConnection false,
    .connect 0 (connectParams true), .connect 0 (connectParams false)]
  have hcalls : ((PoolRoot.start (setMemoryPool 20000)).run poolSizes64
      [.initializeConnection false, .connect 0 (connectParams true),
        .connect 0 (connectParams false)]).calls =
      [.touch (some 2000), .malloc 96 (some 2000), .touch (some 3392), .malloc 96 (some 3392)] ++
        .free 3392 96 :: .free 2000 96 :: .touch (some 3392) :: .malloc 1392 (some 3392) ::
        .touch (some 2000) :: .malloc 1392 (some 2000) :: .touch (some 0) ::
        [.malloc 2000 (some 0)] := by
    decide
  have hlive := hdiscipline.frees [.touch (some 2000), .malloc 96 (some 2000),
    .touch (some 3392), .malloc 96 (some 3392), .free 3392 96] _ _ _ hcalls
  revert hlive
  decide

end Iocom
