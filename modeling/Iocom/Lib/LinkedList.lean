import Iocom.Lib.PointerChain

/-!
# Doubly linked lists

Nodes have two fields, `next` and `prev`, and a list has pointers to its first and its last
node.  A list is well formed if the chain of `next` leads over its nodes from the first one,
and the chain of `prev` over the same nodes backwards from the last one.
-/

namespace LinkedList

open PointerChain

variable {α κ : Type*}

structure Links (α : Type*) where
  next : α → Option α
  prev : α → Option α

structure Ends (α : Type*) where
  first : Option α
  last : Option α

structure Holds (l : Links α) (e : Ends α) (nodes : List α) : Prop where
  nodup : nodes.Nodup
  forward : Leads l.next e.first nodes none
  backward : Leads l.prev e.last nodes.reverse none

def Ends.empty : Ends α := ⟨none, none⟩

def Links.swap (l : Links α) : Links α := ⟨l.prev, l.next⟩

def Ends.swap (e : Ends α) : Ends α := ⟨e.last, e.first⟩

namespace Holds

variable {l l' : Links α} {e : Ends α} {nodes : List α} {a b : α}

theorem empty (l : Links α) : Holds l .empty [] := ⟨List.nodup_nil, rfl, rfl⟩

theorem swap (h : Holds l e nodes) : Holds l.swap e.swap nodes.reverse where
  nodup := List.nodup_reverse.mpr h.nodup
  forward := h.backward
  backward := by
    rw [List.reverse_reverse]
    exact h.forward

theorem first_eq (h : Holds l e nodes) : e.first = nodes.head? := h.forward.eq_head?

theorem last_eq (h : Holds l e nodes) : e.last = nodes.getLast? := by
  rw [h.backward.eq_head?, List.head?_reverse]

theorem next_eq {before after : List α} (h : Holds l e (before ++ a :: after)) :
    l.next a = after.head? :=
  h.forward.next_eq

theorem prev_eq {before after : List α} (h : Holds l e (before ++ a :: after)) :
    l.prev a = before.getLast? := by
  have hback := h.backward
  rw [List.reverse_append, List.reverse_cons, List.append_assoc, List.singleton_append] at hback
  rw [hback.next_eq, List.head?_reverse]

theorem next_mem (h : Holds l e nodes) (ha : a ∈ nodes) (hnext : l.next a = some b) :
    b ∈ nodes ∧ b ≠ a := by
  obtain ⟨before, after, rfl⟩ := List.append_of_mem ha
  rw [h.next_eq] at hnext
  obtain ⟨rest, rfl⟩ := List.head?_eq_some_iff.mp hnext
  obtain ⟨-, hnodup, -⟩ := List.nodup_append.mp h.nodup
  refine ⟨by simp, ?_⟩
  rintro rfl
  exact (List.nodup_cons.mp hnodup).1 List.mem_cons_self

theorem prev_mem (h : Holds l e nodes) (ha : a ∈ nodes) (hprev : l.prev a = some b) :
    b ∈ nodes ∧ b ≠ a := by
  obtain ⟨hmem, hne⟩ := h.swap.next_mem (List.mem_reverse.mpr ha) hprev
  exact ⟨List.mem_reverse.mp hmem, hne⟩

theorem congr (h : Holds l e nodes)
    (hsame : ∀ a ∈ nodes, l'.next a = l.next a ∧ l'.prev a = l.prev a) :
    Holds l' e nodes where
  nodup := h.nodup
  forward := h.forward.congr fun a ha => (hsame a ha).1
  backward := h.backward.congr fun a ha => (hsame a (List.mem_reverse.mp ha)).2

end Holds

section

variable [DecidableEq α]

/-! ## Joining -/

/-- The fields of a node are set to null. -/
def Links.clear (l : Links α) (a : α) : Links α where
  next := Function.update l.next a none
  prev := Function.update l.prev a none

/-- `a` is joined to the list as its last node. -/
def Links.join (l : Links α) (e : Ends α) (a : α) : Links α where
  next :=
    match e.last with
    | some b => Function.update l.next b (some a)
    | none => l.next
  prev := Function.update l.prev a e.last

def Ends.join (e : Ends α) (a : α) : Ends α where
  first :=
    match e.last with
    | some _ => e.first
    | none => some a
  last := some a

theorem leads_concat {next : α → Option α} {p q : Option α} {before : List α} {a b : α}
    (h : Leads next p (before ++ [b]) q) (hnodup : (before ++ [b]).Nodup) (ha : a ∉ before ++ [b])
    (hnext : next a = q) :
    Leads (Function.update next b (some a)) p (before ++ [b] ++ [a]) q := by
  obtain ⟨r, hbefore, rfl, -⟩ := leads_append.mp h
  have hb : b ∉ before := fun hmem =>
    (List.nodup_append.mp hnodup).2.2 b hmem b List.mem_cons_self rfl
  have hne : a ≠ b := fun heq => ha (by simp [heq])
  rw [List.append_assoc]
  refine leads_append.mpr ⟨some b, hbefore.update hb _, rfl, ?_, ?_⟩
  · exact Function.update_self ..
  · rw [Function.update_of_ne hne]
    exact hnext

theorem Holds.clear {l : Links α} {e : Ends α} {nodes : List α} {a : α} (h : Holds l e nodes)
    (ha : a ∉ nodes) : Holds (l.clear a) e nodes := by
  apply h.congr
  intro b hb
  have hne := ne_of_mem_of_not_mem hb ha
  exact ⟨Function.update_of_ne hne .., Function.update_of_ne hne ..⟩

theorem Holds.join {l : Links α} {e : Ends α} {nodes : List α} {a : α} (h : Holds l e nodes)
    (ha : a ∉ nodes) (hnext : l.next a = none) :
    Holds (l.join e a) (e.join a) (nodes ++ [a]) := by
  refine ⟨?_, ?_, ?_⟩
  · exact List.nodup_append.mpr ⟨h.nodup, List.nodup_singleton a, by
      rintro b hb c hc rfl
      exact ha (List.mem_singleton.mp hc ▸ hb)⟩
  · have hlast := h.last_eq
    rcases List.eq_nil_or_concat nodes with rfl | ⟨before, b, rfl⟩
    · rw [List.getLast?_nil] at hlast
      simp [Links.join, Ends.join, hlast, Leads, hnext]
    · rw [List.concat_eq_append] at h ha hlast ⊢
      rw [List.getLast?_concat] at hlast
      simp only [Links.join, Ends.join, hlast]
      exact leads_concat h.forward h.nodup ha hnext
  · rw [List.reverse_append, List.reverse_singleton, List.singleton_append]
    refine ⟨rfl, ?_⟩
    dsimp only [Links.join]
    rw [Function.update_self]
    exact h.backward.update (fun hmem => ha (List.mem_reverse.mp hmem)) _

/-- Joining a node does not reach a list which does not meet this one. -/
theorem Holds.join_other {l : Links α} {e e' : Ends α} {nodes others : List α} {a : α}
    (h : Holds l e nodes) (hother : Holds l e' others) (hdisjoint : nodes.Disjoint others)
    (ha : a ∉ others) : Holds (l.join e a) e' others := by
  apply hother.congr
  intro b hb
  have hne := ne_of_mem_of_not_mem hb ha
  refine ⟨?_, Function.update_of_ne hne ..⟩
  unfold Links.join
  cases hlast : e.last with
  | none => rfl
  | some c =>
      rw [h.last_eq] at hlast
      have hne' : b ≠ c := fun heq => hdisjoint (List.mem_of_getLast? hlast) (heq ▸ hb)
      exact Function.update_of_ne hne' ..

/-! ## Taking out -/

/-- The nodes beside `a` are linked with each other. -/
def Links.unlink (l : Links α) (a : α) : Links α where
  next :=
    match l.prev a with
    | some b => Function.update l.next b (l.next a)
    | none => l.next
  prev :=
    match l.next a with
    | some b => Function.update l.prev b (l.prev a)
    | none => l.prev

def Ends.unlink (e : Ends α) (l : Links α) (a : α) : Ends α where
  first :=
    match l.prev a with
    | some _ => e.first
    | none => l.next a
  last :=
    match l.next a with
    | some _ => e.last
    | none => l.prev a

theorem erase_middle {before after : List α} {a : α} (hnodup : (before ++ a :: after).Nodup) :
    (before ++ a :: after).erase a = before ++ after := by
  obtain ⟨-, -, hdisjoint⟩ := List.nodup_append.mp hnodup
  have hbefore : a ∉ before := fun hmem => hdisjoint a hmem a List.mem_cons_self rfl
  rw [List.erase_append_right _ hbefore, List.erase_cons_head]

theorem Holds.unlink_forward {l : Links α} {e : Ends α} {before after : List α} {a : α}
    (h : Holds l e (before ++ a :: after)) :
    Leads (l.unlink a).next (e.unlink l a).first (before ++ after) none := by
  have hprev := h.prev_eq
  rcases List.eq_nil_or_concat before with rfl | ⟨before, b, rfl⟩
  · rw [List.getLast?_nil] at hprev
    simp only [Links.unlink, Ends.unlink, hprev]
    exact h.forward.2
  · rw [List.concat_eq_append] at h hprev ⊢
    rw [List.getLast?_concat] at hprev
    simp only [Links.unlink, Ends.unlink, hprev]
    have hforward := h.forward
    have hnodup := h.nodup
    rw [List.append_assoc, List.singleton_append] at hforward hnodup ⊢
    exact hforward.unlink hnodup

theorem Holds.unlink {l : Links α} {e : Ends α} {nodes : List α} {a : α} (h : Holds l e nodes)
    (ha : a ∈ nodes) : Holds (l.unlink a) (e.unlink l a) (nodes.erase a) := by
  obtain ⟨before, after, rfl⟩ := List.append_of_mem ha
  have herase := erase_middle h.nodup
  refine ⟨h.nodup.erase a, ?_, ?_⟩
  · rw [herase]
    exact h.unlink_forward
  · have hswap := h.swap
    rw [List.reverse_append, List.reverse_cons, List.append_assoc,
      List.singleton_append] at hswap
    rw [herase, List.reverse_append]
    exact hswap.unlink_forward

/-- Taking out a node does not reach a list which does not meet this one. -/
theorem Holds.unlink_other {l : Links α} {e e' : Ends α} {nodes others : List α} {a : α}
    (h : Holds l e nodes) (hother : Holds l e' others) (hdisjoint : nodes.Disjoint others)
    (ha : a ∈ nodes) : Holds (l.unlink a) e' others := by
  apply hother.congr
  intro b hb
  constructor
  · unfold Links.unlink
    cases hprev : l.prev a with
    | none => rfl
    | some c =>
        have hne : b ≠ c := fun heq => hdisjoint (h.prev_mem ha hprev).1 (heq ▸ hb)
        exact Function.update_of_ne hne ..
  · unfold Links.unlink
    cases hnext : l.next a with
    | none => rfl
    | some c =>
        have hne : b ≠ c := fun heq => hdisjoint (h.next_mem ha hnext).1 (heq ▸ hb)
        exact Function.update_of_ne hne ..

end

/-! ## Nodes filed under their owners -/

variable [DecidableEq κ]

/-- The nodes which belong to `k`. -/
def nodesOf (owner : α → κ) (k : κ) (nodes : List α) : List α :=
  nodes.filter fun a => decide (owner a = k)

@[simp]
theorem mem_nodesOf {owner : α → κ} {k : κ} {nodes : List α} {a : α} :
    a ∈ nodesOf owner k nodes ↔ a ∈ nodes ∧ owner a = k := by
  simp [nodesOf]

/-- Each node has an owner, and is in the list of its owner. -/
structure Filed (l : Links α) (ends : κ → Ends α) (owner : α → κ) (live : List κ)
    (nodes : List α) : Prop where
  nodup : nodes.Nodup
  owned : ∀ a ∈ nodes, owner a ∈ live
  holds : ∀ k ∈ live, Holds l (ends k) (nodesOf owner k nodes)

namespace Filed

variable {l : Links α} {ends : κ → Ends α} {owner : α → κ} {live : List κ}
  {nodes : List α} {a : α} {k : κ}

theorem nil (l : Links α) (ends : κ → Ends α) (owner : α → κ) : Filed l ends owner [] [] where
  nodup := List.nodup_nil
  owned := by simp
  holds := by simp

theorem disjoint {k' : κ} (hne : k ≠ k') :
    (nodesOf owner k nodes).Disjoint (nodesOf owner k' nodes) := by
  intro a ha ha'
  exact hne ((mem_nodesOf.mp ha).2.symm.trans (mem_nodesOf.mp ha').2)

theorem addOwner (h : Filed l ends owner live nodes) (hk : k ∉ live) :
    Filed l (Function.update ends k .empty) owner (live ++ [k]) nodes where
  nodup := h.nodup
  owned a ha := List.mem_append_left _ (h.owned a ha)
  holds k' hk' := by
    rcases List.mem_append.mp hk' with hk' | hk'
    · rw [Function.update_of_ne (ne_of_mem_of_not_mem hk' hk)]
      exact h.holds k' hk'
    · rw [List.mem_singleton.mp hk', Function.update_self]
      have hnone : nodesOf owner k nodes = [] := by
        refine List.eq_nil_iff_forall_not_mem.mpr fun a ha => ?_
        obtain ⟨hmem, rfl⟩ := mem_nodesOf.mp ha
        exact hk (h.owned a hmem)
      rw [hnone]
      exact Holds.empty l

theorem removeOwner (h : Filed l ends owner live nodes) (hlive : live.Nodup)
    (hfirst : (ends k).first = none) (hk : k ∈ live) :
    Filed l (Function.update ends k .empty) owner (live.erase k) nodes := by
  have hnone : nodesOf owner k nodes = [] := by
    rw [(h.holds k hk).first_eq] at hfirst
    exact List.head?_eq_none_iff.mp hfirst
  have hnot : ∀ a ∈ nodes, owner a ≠ k := by
    rintro a ha rfl
    exact List.not_mem_nil (hnone ▸ mem_nodesOf.mpr ⟨ha, rfl⟩)
  refine ⟨h.nodup, fun a ha => ?_, fun k' hk' => ?_⟩
  · exact (List.mem_erase_of_ne (hnot a ha)).mpr (h.owned a ha)
  · have hne : k' ≠ k := fun heq => hlive.not_mem_erase (heq ▸ hk')
    rw [Function.update_of_ne hne]
    exact h.holds k' (List.mem_of_mem_erase hk')

theorem next_mem {b : α} (h : Filed l ends owner live nodes) (ha : a ∈ nodes)
    (hnext : l.next a = some b) : b ∈ nodes ∧ owner b = owner a ∧ b ≠ a := by
  obtain ⟨hmem, hne⟩ := (h.holds (owner a) (h.owned a ha)).next_mem
    (mem_nodesOf.mpr ⟨ha, rfl⟩) hnext
  exact ⟨(mem_nodesOf.mp hmem).1, (mem_nodesOf.mp hmem).2, hne⟩

theorem first_mem (h : Filed l ends owner live nodes) (hk : k ∈ live)
    (hfirst : (ends k).first = some a) : a ∈ nodes ∧ owner a = k := by
  rw [(h.holds k hk).first_eq] at hfirst
  exact mem_nodesOf.mp (List.mem_of_head? hfirst)

variable [DecidableEq α]

theorem clear (h : Filed l ends owner live nodes) (ha : a ∉ nodes) :
    Filed (l.clear a) ends owner live nodes where
  nodup := h.nodup
  owned := h.owned
  holds k hk := (h.holds k hk).clear fun hmem => ha (mem_nodesOf.mp hmem).1

theorem join (h : Filed l ends owner live nodes) (ha : a ∉ nodes) (hk : k ∈ live)
    (hnext : l.next a = none) :
    Filed (l.join (ends k) a) (Function.update ends k ((ends k).join a))
      (Function.update owner a k) live (nodes ++ [a]) := by
  have howner : ∀ k', nodesOf (Function.update owner a k) k' nodes = nodesOf owner k' nodes := by
    intro k'
    refine List.filter_congr fun b hb => ?_
    rw [Function.update_of_ne (ne_of_mem_of_not_mem hb ha)]
  have hnot : ∀ k', a ∉ nodesOf owner k' nodes := fun k' hmem => ha (mem_nodesOf.mp hmem).1
  refine ⟨?_, ?_, fun k' hk' => ?_⟩
  · exact List.nodup_append.mpr ⟨h.nodup, List.nodup_singleton a, by
      rintro b hb c hc rfl
      exact ha (List.mem_singleton.mp hc ▸ hb)⟩
  · intro b hb
    rcases List.mem_append.mp hb with hb | hb
    · rw [Function.update_of_ne (ne_of_mem_of_not_mem hb ha)]
      exact h.owned b hb
    · rw [List.mem_singleton.mp hb, Function.update_self]
      exact hk
  · have hsplit : nodesOf (Function.update owner a k) k' (nodes ++ [a]) =
        nodesOf owner k' nodes ++ if k = k' then [a] else [] := by
      rw [nodesOf, List.filter_append]
      refine congrArg₂ _ (howner k') ?_
      simp [List.filter_cons]
    rw [hsplit]
    rcases eq_or_ne k k' with rfl | hne
    · rw [Function.update_self, if_pos rfl]
      exact (h.holds k hk).join (hnot k) hnext
    · rw [Function.update_of_ne hne.symm, if_neg hne, List.append_nil]
      exact (h.holds k hk).join_other (h.holds k' hk') (disjoint hne) (hnot k')

theorem unlink (h : Filed l ends owner live nodes) (ha : a ∈ nodes) :
    Filed (l.unlink a) (Function.update ends (owner a) ((ends (owner a)).unlink l a)) owner live
      (nodes.erase a) := by
  have hk := h.owned a ha
  have hown : a ∈ nodesOf owner (owner a) nodes := mem_nodesOf.mpr ⟨ha, rfl⟩
  refine ⟨h.nodup.erase a, fun b hb => h.owned b (List.mem_of_mem_erase hb), fun k hk' => ?_⟩
  have herase : nodesOf owner k (nodes.erase a) = (nodesOf owner k nodes).erase a := by
    rw [nodesOf, nodesOf, List.erase_filter]
  rw [herase]
  rcases eq_or_ne (owner a) k with rfl | hne
  · rw [Function.update_self]
    exact (h.holds _ hk).unlink hown
  · rw [Function.update_of_ne hne.symm,
      List.erase_of_not_mem fun hmem => hne (mem_nodesOf.mp hmem).2]
    exact (h.holds _ hk).unlink_other (h.holds k hk') (disjoint hne) hown

end Filed

/-! ## Rings -/

/-- The nodes form a ring from `a` over the others back to `a`. -/
structure RingOf (l : Links α) (a : α) (others : List α) : Prop where
  nodup : (a :: others).Nodup
  forward : Leads l.next (some a) (a :: others) (some a)
  backward : Leads l.prev (some a) (a :: others.reverse) (some a)

namespace RingOf

variable {l l' : Links α} {a b : α} {others : List α}

theorem swap (h : RingOf l a others) : RingOf l.swap a others.reverse where
  nodup := by simpa using h.nodup
  forward := h.backward
  backward := by
    rw [List.reverse_reverse]
    exact h.forward

theorem congr (h : RingOf l a others)
    (hsame : ∀ b ∈ a :: others, l'.next b = l.next b ∧ l'.prev b = l.prev b) :
    RingOf l' a others where
  nodup := h.nodup
  forward := h.forward.congr fun b hb => (hsame b hb).1
  backward := h.backward.congr fun b hb => (hsame b (by simpa using hb)).2

/-- The chain of `prev` from the node before `a`, all the way round. -/
theorem backward_cycle (h : RingOf l a others) :
    Leads l.prev (l.prev a) (a :: others).reverse (l.prev a) := by
  rw [List.reverse_cons]
  exact leads_append.mpr ⟨some a, h.backward.2, rfl, rfl⟩

theorem prev_head {before : List α} {c : α} (h : RingOf l a others)
    (hlast : a :: others = before ++ [c]) : l.prev a = some c := by
  have hcycle := h.backward_cycle
  rw [hlast, List.reverse_append, List.reverse_singleton, List.singleton_append] at hcycle
  exact hcycle.1

theorem prev_eq {before after : List α} {c : α} (h : RingOf l a others)
    (hsplit : a :: others = before ++ c :: b :: after) : l.prev b = some c := by
  have hcycle := h.backward_cycle
  rw [hsplit, List.reverse_append, List.reverse_cons, List.reverse_cons, List.append_assoc,
    List.append_assoc] at hcycle
  obtain ⟨r, -, hrest⟩ := leads_append.mp hcycle
  exact hrest.2.1

/-- The node after `b`, or `a` again. -/
theorem next_eq {before after : List α} (h : RingOf l a others)
    (hsplit : a :: others = before ++ b :: after) : l.next b = some (after.head?.getD a) := by
  have hforward := h.forward
  rw [hsplit] at hforward
  obtain ⟨r, -, rfl, hrest⟩ := leads_append.mp hforward
  cases after with
  | nil => exact hrest
  | cons c after => exact hrest.1

theorem exists_before (h : RingOf l a others) (hb : b ∈ others) :
    ∃ before c after, a :: others = before ++ c :: b :: after ∧ l.prev b = some c := by
  obtain ⟨before, after, rfl⟩ := List.append_of_mem hb
  obtain ⟨before', c, hlast⟩ : ∃ before' c, a :: before = before' ++ [c] :=
    ⟨_, _, (List.dropLast_append_getLast (List.cons_ne_nil a before)).symm⟩
  have hsplit : a :: (before ++ b :: after) = before' ++ c :: b :: after := by
    rw [← List.cons_append, hlast, List.append_assoc, List.singleton_append]
  exact ⟨before', c, after, hsplit, h.prev_eq hsplit⟩

/-- The nodes beside a node are in the ring, and none of them is the node itself. -/
theorem exists_prev (h : RingOf l a others) (hb : b ∈ others) :
    ∃ c ∈ a :: others, c ≠ b ∧ l.prev b = some c := by
  obtain ⟨before, c, after, hsplit, hprev⟩ := h.exists_before hb
  have hnodup := h.nodup
  rw [hsplit] at hnodup ⊢
  obtain ⟨-, hrest, -⟩ := List.nodup_append.mp hnodup
  exact ⟨c, by simp, fun heq => (List.nodup_cons.mp hrest).1 (heq ▸ List.mem_cons_self), hprev⟩

theorem exists_next (h : RingOf l a others) (hb : b ∈ others) :
    ∃ c ∈ a :: others, c ≠ b ∧ l.next b = some c := by
  obtain ⟨c, hc, hne, hnext⟩ := h.swap.exists_prev (List.mem_reverse.mpr hb)
  exact ⟨c, by simpa using hc, hne, hnext⟩

end RingOf

variable [DecidableEq α]

/-- A node is a ring by itself. -/
def Links.single (l : Links α) (a : α) : Links α where
  next := Function.update l.next a (some a)
  prev := Function.update l.prev a (some a)

/-- `b` is put into the ring before `a`. -/
def Links.insertBefore (l : Links α) (a b : α) : Links α where
  next :=
    match l.prev a with
    | some c => Function.update (Function.update l.next b (some a)) c (some b)
    | none => Function.update l.next b (some a)
  prev := Function.update (Function.update l.prev b (l.prev a)) a (some b)

/-- The nodes beside `b` are linked with each other, and `b` with itself. -/
def Links.bypass (l : Links α) (b : α) : Links α where
  next :=
    match l.prev b with
    | some c => Function.update (Function.update l.next c (l.next b)) b (some b)
    | none => l.next
  prev :=
    match l.next b with
    | some c => Function.update (Function.update l.prev c (l.prev b)) b (some b)
    | none => l.prev

namespace RingOf

variable {l : Links α} {a b : α} {others : List α}

theorem single (l : Links α) (a : α) : RingOf (l.single a) a [] where
  nodup := List.nodup_singleton a
  forward := ⟨rfl, Function.update_self ..⟩
  backward := ⟨rfl, Function.update_self ..⟩

theorem insertBefore (h : RingOf l a others) (hb : b ∉ a :: others) :
    RingOf (l.insertBefore a b) a (others ++ [b]) := by
  have hne : b ≠ a := fun heq => hb (heq ▸ List.mem_cons_self)
  obtain ⟨before, c, hlast⟩ : ∃ before c, a :: others = before ++ [c] :=
    ⟨_, _, (List.dropLast_append_getLast (List.cons_ne_nil a others)).symm⟩
  have hprev := h.prev_head hlast
  refine ⟨?_, ?_, ?_⟩
  · rw [← List.cons_append]
    exact List.nodup_append.mpr ⟨h.nodup, List.nodup_singleton b, by
      rintro x hx y hy rfl
      exact hb (List.mem_singleton.mp hy ▸ hx)⟩
  · have hforward :
        Leads (Function.update l.next b (some a)) (some a) (before ++ [c]) (some a) := by
      rw [← hlast]
      exact h.forward.update hb _
    have hnodup := h.nodup
    rw [hlast] at hb hnodup
    simp only [Links.insertBefore, hprev]
    rw [← List.cons_append, hlast]
    exact leads_concat hforward hnodup hb (Function.update_self ..)
  · rw [List.reverse_append, List.reverse_singleton, List.singleton_append]
    dsimp only [Links.insertBefore]
    refine ⟨rfl, ?_⟩
    rw [Function.update_self]
    refine ⟨rfl, ?_⟩
    rw [Function.update_of_ne hne, Function.update_self]
    have ha : a ∉ others.reverse := fun hmem =>
      (List.nodup_cons.mp h.nodup).1 (List.mem_reverse.mp hmem)
    have hb' : b ∉ others.reverse := fun hmem =>
      hb (List.mem_cons_of_mem a (List.mem_reverse.mp hmem))
    exact (h.backward.2.update hb' _).update ha _

theorem bypass_forward (h : RingOf l a others) (hb : b ∈ others) :
    Leads (l.bypass b).next (some a) (a :: others.erase b) (some a) := by
  obtain ⟨before, c, after, hsplit, hprev⟩ := h.exists_before hb
  have hnodup := h.nodup
  have hne : b ≠ a := fun heq => (List.nodup_cons.mp hnodup).1 (heq ▸ hb)
  have herase : a :: others.erase b = before ++ c :: after := by
    rw [hsplit, List.append_cons] at hnodup
    rw [← List.erase_cons_tail (by simpa using hne.symm), hsplit, List.append_cons,
      erase_middle hnodup, ← List.append_cons]
  have hforward := h.forward
  have hnot : b ∉ a :: others.erase b :=
    List.not_mem_cons_of_ne_of_not_mem hne (List.nodup_cons.mp hnodup).2.not_mem_erase
  rw [herase] at hnot ⊢
  rw [hsplit] at hforward hnodup
  simp only [Links.bypass, hprev]
  exact (hforward.unlink hnodup).update hnot _

theorem bypass (h : RingOf l a others) (hb : b ∈ others) :
    RingOf (l.bypass b) a (others.erase b) where
  nodup := by
    obtain ⟨ha, hnodup⟩ := List.nodup_cons.mp h.nodup
    exact List.nodup_cons.mpr ⟨fun hmem => ha (List.mem_of_mem_erase hmem), hnodup.erase b⟩
  forward := h.bypass_forward hb
  backward := by
    have hswap := h.swap.bypass_forward (List.mem_reverse.mpr hb)
    have hnodup := (List.nodup_cons.mp h.nodup).2
    rw [(List.nodup_reverse.mpr hnodup).erase_eq_filter, List.filter_reverse,
      ← hnodup.erase_eq_filter] at hswap
    exact hswap

theorem single_outside (l : Links α) {x : α} (hx : x ≠ a) :
    (l.single a).next x = l.next x ∧ (l.single a).prev x = l.prev x :=
  ⟨Function.update_of_ne hx .., Function.update_of_ne hx ..⟩

theorem insertBefore_outside (h : RingOf l a others) {x : α} (hx : x ∉ a :: others) (hne : x ≠ b) :
    (l.insertBefore a b).next x = l.next x ∧ (l.insertBefore a b).prev x = l.prev x := by
  obtain ⟨before, c, hlast⟩ : ∃ before c, a :: others = before ++ [c] :=
    ⟨_, _, (List.dropLast_append_getLast (List.cons_ne_nil a others)).symm⟩
  have hxa : x ≠ a := fun heq => hx (heq ▸ List.mem_cons_self)
  have hxc : x ≠ c := fun heq => hx (by simp [hlast, heq])
  simp [Links.insertBefore, h.prev_head hlast, hne, hxa, hxc]

theorem bypass_outside (h : RingOf l a others) (hb : b ∈ others) {x : α} (hx : x ∉ a :: others) :
    (l.bypass b).next x = l.next x ∧ (l.bypass b).prev x = l.prev x := by
  obtain ⟨c, hc, -, hprev⟩ := h.exists_prev hb
  obtain ⟨d, hd, -, hnext⟩ := h.exists_next hb
  have hxb : x ≠ b := fun heq => hx (heq ▸ List.mem_cons_of_mem a hb)
  have hxc : x ≠ c := fun heq => hx (heq ▸ hc)
  have hxd : x ≠ d := fun heq => hx (heq ▸ hd)
  simp [Links.bypass, hprev, hnext, hxb, hxc, hxd]

theorem bypass_self (h : RingOf l a others) (hb : b ∈ others) :
    (l.bypass b).next b = some b := by
  obtain ⟨c, -, -, hprev⟩ := h.exists_prev hb
  simp [Links.bypass, hprev]

end RingOf

end LinkedList
