import Mathlib.Data.List.Basic
import Mathlib.Data.List.Nodup
import Mathlib.Logic.Function.Basic

/-!
# Chains of pointers

Nodes which lie in memory and are linked by a field of theirs: `next` reads the field,
`none` is the null pointer.  A chain is described by the list of its nodes, and changing
the field of a node by `Function.update`.
-/

namespace PointerChain

variable {α : Type*}

/-- From the pointer `p` the links lead over the nodes of the list to the pointer `q`. -/
def Leads (next : α → Option α) : Option α → List α → Option α → Prop
  | p, [], q => p = q
  | p, a :: nodes, q => p = some a ∧ Leads next (next a) nodes q

section

variable {next next' : α → Option α} {p q : Option α}

theorem Leads.congr {nodes : List α} (h : Leads next p nodes q)
    (hsame : ∀ a ∈ nodes, next' a = next a) : Leads next' p nodes q := by
  induction nodes generalizing p with
  | nil => exact h
  | cons a nodes ih =>
      refine ⟨h.1, ?_⟩
      rw [hsame a List.mem_cons_self]
      exact ih h.2 fun b hb => hsame b (List.mem_cons_of_mem a hb)

theorem leads_append {before after : List α} :
    Leads next p (before ++ after) q ↔ ∃ r, Leads next p before r ∧ Leads next r after q := by
  induction before generalizing p with
  | nil => simp [Leads]
  | cons a before ih => simp [Leads, ih, and_assoc]

/-- A chain which ends with a null pointer begins with a pointer to its first node. -/
theorem Leads.eq_head? {nodes : List α} (h : Leads next p nodes none) : p = nodes.head? := by
  cases nodes with
  | nil => exact h
  | cons a nodes => exact h.1

theorem Leads.next_eq {before after : List α} {a : α}
    (h : Leads next p (before ++ a :: after) none) : next a = after.head? := by
  obtain ⟨r, -, hafter⟩ := leads_append.mp h
  exact hafter.2.eq_head?

variable [DecidableEq α]

theorem Leads.update {nodes : List α} {a : α} (h : Leads next p nodes q) (ha : a ∉ nodes)
    (link : Option α) : Leads (Function.update next a link) p nodes q := by
  apply h.congr
  intro b hb
  apply Function.update_of_ne
  rintro rfl
  exact ha hb

theorem Leads.unlink {before after : List α} {a b : α}
    (h : Leads next p (before ++ a :: b :: after) q) (hnodup : (before ++ a :: b :: after).Nodup) :
    Leads (Function.update next a (next b)) p (before ++ a :: after) q := by
  obtain ⟨r, hbefore, rfl, -, hafter⟩ := leads_append.mp h
  obtain ⟨-, hnodup', hdisjoint⟩ := List.nodup_append.mp hnodup
  have ha : a ∉ before := fun hmem => hdisjoint a hmem a List.mem_cons_self rfl
  have ha' : a ∉ after := fun hmem =>
    (List.nodup_cons.mp hnodup').1 (List.mem_cons_of_mem b hmem)
  refine leads_append.mpr ⟨some a, hbefore.update ha _, rfl, ?_⟩
  rw [Function.update_self]
  exact hafter.update ha' _

end

/-! ## Looking for a node -/

/-- The loop which follows the links until a node is good: with it the node before it, or
`none` at the end of the chain.  Without a result, it has not ended in `fuel` rounds. -/
def findNode (next : α → Option α) (good : α → Bool) :
    ℕ → Option α → Option α → Option (Option (Option α × α))
  | 0, _, _ => none
  | _ + 1, _, none => some none
  | fuel + 1, prev, some a =>
      if good a then some (some (prev, a)) else findNode next good fuel (some a) (next a)

section Find

variable {next : α → Option α} {good : α → Bool}

theorem findNode_none {nodes : List α} {fuel : ℕ} {prev p : Option α}
    (h : Leads next p nodes none) (hgood : ∀ a ∈ nodes, good a = false)
    (hfuel : nodes.length < fuel) : findNode next good fuel prev p = some none := by
  induction nodes generalizing fuel prev p with
  | nil =>
      obtain ⟨fuel, rfl⟩ := Nat.exists_eq_add_of_lt hfuel
      cases h
      rfl
  | cons a nodes ih =>
      obtain ⟨rfl, hrest⟩ := h
      obtain ⟨fuel, rfl⟩ : ∃ n, fuel = n + 1 := ⟨fuel - 1, by omega⟩
      have hfirst := hgood a List.mem_cons_self
      simp only [findNode, hfirst, Bool.false_eq_true, if_false]
      exact ih hrest (fun b hb => hgood b (List.mem_cons_of_mem a hb)) (by simpa using hfuel)

theorem findNode_some {before after : List α} {a : α} {fuel : ℕ} {prev p : Option α}
    (h : Leads next p (before ++ a :: after) none) (hbefore : ∀ b ∈ before, good b = false)
    (hgood : good a = true) (hfuel : before.length < fuel) :
    findNode next good fuel prev p = some (some (before.getLast?.or prev, a)) := by
  induction before generalizing fuel prev p with
  | nil =>
      obtain ⟨rfl, -⟩ := h
      obtain ⟨fuel, rfl⟩ : ∃ n, fuel = n + 1 := ⟨fuel - 1, by omega⟩
      simp [findNode, hgood]
  | cons b before ih =>
      obtain ⟨rfl, hrest⟩ := h
      obtain ⟨fuel, rfl⟩ : ∃ n, fuel = n + 1 := ⟨fuel - 1, by omega⟩
      have hfirst := hbefore b List.mem_cons_self
      simp only [findNode, hfirst, Bool.false_eq_true, if_false]
      rw [ih hrest (fun c hc => hbefore c (List.mem_cons_of_mem b hc)) (by simpa using hfuel)]
      cases before with
      | nil => rfl
      | cons c before => simp [List.getLast?_cons]

theorem findNode_ends {nodes : List α} {p : Option α} (h : Leads next p nodes none)
    (prev : Option α) :
    ∃ found, ∀ fuel > nodes.length, findNode next good fuel prev p = some found := by
  induction nodes generalizing prev p with
  | nil =>
      cases h
      refine ⟨none, fun fuel hfuel => ?_⟩
      obtain ⟨fuel, rfl⟩ := Nat.exists_eq_add_of_lt hfuel
      rfl
  | cons a nodes ih =>
      obtain ⟨rfl, hrest⟩ := h
      obtain ⟨found, hfound⟩ := ih hrest (some a)
      cases hgood : good a with
      | true =>
          refine ⟨some (prev, a), fun fuel hfuel => ?_⟩
          obtain ⟨fuel, rfl⟩ : ∃ n, fuel = n + 1 := ⟨fuel - 1, by omega⟩
          simp [findNode, hgood]
      | false =>
          refine ⟨found, fun fuel hfuel => ?_⟩
          obtain ⟨fuel, rfl⟩ : ∃ n, fuel = n + 1 := ⟨fuel - 1, by omega⟩
          simp only [findNode, hgood, Bool.false_eq_true, if_false]
          exact hfound fuel (by simpa using hfuel)

end Find

end PointerChain
