import Mathlib.Data.List.Forall2
import Mathlib.Logic.Function.Basic

/-!
# The chains of a hash table

A table has a chain for each hash index.  It represents a list when every chain has the
objects of the list with its index, in the order of the list; what is in the chain may be
another object which is related to the one of the list.
-/

namespace HashChains

variable {ι α β : Type*} [DecidableEq ι]

/-- The first object with the property is changed. -/
def updateFirst (p : α → Bool) (f : α → α) : List α → List α
  | [] => []
  | a :: rest => if p a then f a :: rest else a :: updateFirst p f rest

def Represents (R : α → β → Prop) (index : β → ι) (chains : ι → List α) (list : List β) :
    Prop :=
  ∀ i, List.Forall₂ R (chains i) (list.filter fun b => index b = i)

/-- The object which is found is the one which has been changed. -/
theorem find_updateFirst {p : α → Bool} {f : α → α} (hf : ∀ a, p (f a) = p a) (chain : List α) :
    (updateFirst p f chain).find? p = (chain.find? p).map f := by
  induction chain with
  | nil => rfl
  | cons a rest ih =>
      rw [updateFirst]
      cases ha : p a with
      | true => simp [hf, ha]
      | false => simpa [ha] using ih

theorem find_updateFirst_other {p p' : α → Bool} {f : α → α}
    (hother : ∀ a, p a = true → p' a = false ∧ p' (f a) = false) (chain : List α) :
    (updateFirst p f chain).find? p' = chain.find? p' := by
  induction chain with
  | nil => rfl
  | cons a rest ih =>
      rw [updateFirst]
      cases ha : p a with
      | true => simp [hother a ha]
      | false => simp [List.find?_cons, ih]

theorem find_eraseP_other {p p' : α → Bool} (hother : ∀ a, p a = true → p' a = false)
    (chain : List α) : (chain.eraseP p).find? p' = chain.find? p' := by
  induction chain with
  | nil => rfl
  | cons a rest ih =>
      rw [List.eraseP_cons]
      cases ha : p a with
      | true => simp [hother a ha]
      | false => simp [List.find?_cons, ih]

/-! ## Chains of related objects -/

theorem rel_cases {R : α → β → Prop} {a : Option α} {b : Option β} (h : Option.Rel R a b) :
    a = none ∧ b = none ∨ ∃ x y, a = some x ∧ b = some y ∧ R x y := by
  cases h with
  | none => exact .inl ⟨rfl, rfl⟩
  | some hxy => exact .inr ⟨_, _, rfl, rfl, hxy⟩

theorem find_related {R : α → β → Prop} {p : α → Bool} {q : β → Bool}
    (hpq : ∀ a b, R a b → p a = q b) {chain : List α} {list : List β}
    (h : List.Forall₂ R chain list) : Option.Rel R (chain.find? p) (list.find? q) := by
  induction h with
  | nil => exact .none
  | @cons a b chain list hab _ ih =>
      rw [List.find?_cons, List.find?_cons, hpq a b hab]
      cases q b with
      | true => exact .some hab
      | false => exact ih

theorem updateFirst_related {R : α → β → Prop} {p : α → Bool} {q : β → Bool} {f : α → α}
    {g : β → β} (hpq : ∀ a b, R a b → p a = q b)
    (hfg : ∀ a b, R a b → q b = true → R (f a) (g b)) {chain : List α} {list : List β}
    (h : List.Forall₂ R chain list) :
    List.Forall₂ R (updateFirst p f chain) (updateFirst q g list) := by
  induction h with
  | nil => exact .nil
  | @cons a b chain list hab hrest ih =>
      rw [updateFirst, updateFirst, hpq a b hab]
      cases hq : q b with
      | true => exact .cons (hfg a b hab hq) hrest
      | false => exact .cons hab ih

theorem eraseP_related {R : α → β → Prop} {p : α → Bool} {q : β → Bool}
    (hpq : ∀ a b, R a b → p a = q b) {chain : List α} {list : List β}
    (h : List.Forall₂ R chain list) : List.Forall₂ R (chain.eraseP p) (list.eraseP q) := by
  induction h with
  | nil => exact .nil
  | @cons a b chain list hab hrest ih =>
      rw [List.eraseP_cons, List.eraseP_cons, hpq a b hab]
      cases q b with
      | true => exact hrest
      | false => exact .cons hab ih

theorem filter_related {R : α → β → Prop} {p : α → Bool} {q : β → Bool}
    (hpq : ∀ a b, R a b → p a = q b) {chain : List α} {list : List β}
    (h : List.Forall₂ R chain list) : List.Forall₂ R (chain.filter p) (list.filter q) := by
  induction h with
  | nil => exact .nil
  | @cons a b chain list hab hrest ih =>
      rw [List.filter_cons, List.filter_cons, hpq a b hab]
      cases q b with
      | true => exact .cons hab ih
      | false => exact ih

/-! ## One index of a list -/

variable {index : β → ι} {i : ι} {q : β → Bool}

/-- A search for objects of one index may leave out the others. -/
theorem find_filter (hq : ∀ b, q b = true → index b = i) (list : List β) :
    (list.filter fun b => index b = i).find? q = list.find? q := by
  rw [List.find?_filter]
  congr 1
  funext b
  cases hb : q b with
  | true => simp [hq b hb]
  | false => simp

theorem filter_updateFirst {g : β → β}
    (hq : ∀ b, q b = true → index b = i ∧ index (g b) = i) (list : List β) (j : ι) :
    (updateFirst q g list).filter (fun b => index b = j) =
      if j = i then updateFirst q g (list.filter fun b => index b = j)
      else list.filter fun b => index b = j := by
  induction list with
  | nil => simp [updateFirst]
  | cons b rest ih =>
      rw [updateFirst]
      cases hb : q b with
      | true =>
          obtain ⟨hindex, hindex'⟩ := hq b hb
          rw [if_pos rfl, List.filter_cons, List.filter_cons, hindex, hindex']
          by_cases hj : j = i
          · simp [hj, updateFirst, hb]
          · simp [hj, Ne.symm hj]
      | false =>
          rw [if_neg Bool.false_ne_true, List.filter_cons, List.filter_cons, ih]
          split_ifs <;> simp_all [updateFirst]

theorem filter_eraseP (hq : ∀ b, q b = true → index b = i) (list : List β) (j : ι) :
    (list.eraseP q).filter (fun b => index b = j) =
      if j = i then (list.filter fun b => index b = j).eraseP q
      else list.filter fun b => index b = j := by
  induction list with
  | nil => simp
  | cons b rest ih =>
      rw [List.eraseP_cons]
      cases hb : q b with
      | true =>
          rw [List.filter_cons, hq b hb]
          by_cases hj : j = i
          · simp [hj, hb]
          · simp [hj, Ne.symm hj]
      | false =>
          rw [cond_false, List.filter_cons, List.filter_cons, ih]
          split_ifs <;> simp_all

/-! ## Tables -/

variable {R : α → β → Prop} {chains : ι → List α} {list : List β} {p : α → Bool}

theorem Represents.nil : Represents R index (fun _ => []) [] := fun _ => .nil

theorem Represents.find (h : Represents R index chains list) (hpq : ∀ a b, R a b → p a = q b)
    (hq : ∀ b, q b = true → index b = i) :
    Option.Rel R ((chains i).find? p) (list.find? q) := by
  rw [← find_filter hq]
  exact find_related hpq (h i)

theorem Represents.find_eq {chains : ι → List β} (h : Represents Eq index chains list)
    (hq : ∀ b, q b = true → index b = i) : (chains i).find? q = list.find? q := by
  have hchains : chains i = list.filter fun b => index b = i := List.forall₂_eq_eq_eq ▸ h i
  rw [hchains, find_filter hq]

theorem Represents.any (h : Represents R index chains list) (hpq : ∀ a b, R a b → p a = q b)
    (hq : ∀ b, q b = true → index b = i) : (chains i).any p = list.any q := by
  rw [← List.isSome_find?, ← List.isSome_find?]
  rcases rel_cases (h.find hpq hq) with ⟨hchain, hlist⟩ | ⟨a, b, hchain, hlist, -⟩
  · rw [hchain, hlist]
    rfl
  · rw [hchain, hlist]
    rfl

theorem Represents.append (h : Represents R index chains list) {a : α} {b : β} (hab : R a b) :
    Represents R index (Function.update chains (index b) (chains (index b) ++ [a]))
      (list ++ [b]) := by
  intro j
  rw [List.filter_append]
  obtain rfl | hne := eq_or_ne j (index b)
  · rw [Function.update_self]
    simpa using List.rel_append (h (index b)) (.cons hab .nil)
  · rw [Function.update_of_ne hne]
    simpa [Ne.symm hne] using h j

theorem Represents.cons (h : Represents R index chains list) {a : α} {b : β} (hab : R a b) :
    Represents R index (Function.update chains (index b) (a :: chains (index b)))
      (b :: list) := by
  intro j
  rw [List.filter_cons]
  obtain rfl | hne := eq_or_ne j (index b)
  · rw [Function.update_self]
    simpa using ⟨hab, h (index b)⟩
  · rw [Function.update_of_ne hne]
    simpa [Ne.symm hne] using h j

theorem Represents.updateFirst (h : Represents R index chains list)
    (hpq : ∀ a b, R a b → p a = q b) {f : α → α} {g : β → β}
    (hfg : ∀ a b, R a b → q b = true → R (f a) (g b))
    (hq : ∀ b, q b = true → index b = i ∧ index (g b) = i) :
    Represents R index (Function.update chains i (updateFirst p f (chains i)))
      (HashChains.updateFirst q g list) := by
  intro j
  rw [filter_updateFirst hq]
  obtain rfl | hne := eq_or_ne j i
  · rw [Function.update_self, if_pos rfl]
    exact updateFirst_related hpq hfg (h j)
  · rw [Function.update_of_ne hne, if_neg hne]
    exact h j

theorem Represents.eraseP (h : Represents R index chains list)
    (hpq : ∀ a b, R a b → p a = q b) (hq : ∀ b, q b = true → index b = i) :
    Represents R index (Function.update chains i ((chains i).eraseP p)) (list.eraseP q) := by
  intro j
  rw [filter_eraseP hq]
  obtain rfl | hne := eq_or_ne j i
  · rw [Function.update_self, if_pos rfl]
    exact eraseP_related hpq (h j)
  · rw [Function.update_of_ne hne, if_neg hne]
    exact h j

theorem Represents.filter (h : Represents R index chains list)
    (hpq : ∀ a b, R a b → p a = q b) :
    Represents R index (fun i => (chains i).filter p) (list.filter q) := by
  intro j
  rw [List.filter_filter]
  simp only [Bool.and_comm]
  rw [← List.filter_filter]
  exact filter_related hpq (h j)

end HashChains
