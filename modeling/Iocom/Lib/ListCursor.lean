import Mathlib.Data.List.Basic
import Mathlib.Data.List.Nodup

/-!
# Cursors of a list

A cursor of a list of distinct elements is one of them, or null at the end.  A
walk visits the elements `ahead` of its cursor.  The rules say what an append,
a removal and a move to the next element do to them, when the cursor is
repaired as the owner of a linked list repairs it.
-/

namespace ListCursor

section Valid

variable {α : Type*} {xs : List α} {cursor : Option α} {a b : α}

/-- A cursor is null or an element of the list. -/
def Valid (xs : List α) (cursor : Option α) : Prop :=
  ∀ a, cursor = some a → a ∈ xs

theorem Valid.none : Valid xs none :=
  fun _ h => by cases h

theorem Valid.some (h : a ∈ xs) : Valid xs (some a) := by
  intro b hb
  cases hb
  exact h

theorem Valid.head : Valid xs xs.head? :=
  fun _ h => List.mem_of_mem_head? h

theorem Valid.append (h : Valid xs cursor) : Valid (xs ++ [b]) cursor :=
  fun a ha => List.mem_append_left _ (h a ha)

theorem Valid.append_or (h : Valid xs cursor) :
    Valid (xs ++ [b]) (cursor.or (Option.some b)) := by
  cases cursor with
  | none => exact .some (List.mem_append_right _ List.mem_cons_self)
  | some a => exact h.append

end Valid

variable {α : Type*} [DecidableEq α]

/-- The elements which a walk from the cursor visits. -/
def ahead (xs : List α) : Option α → List α
  | none => []
  | some a => xs.dropWhile fun x => decide (x ≠ a)

/-- The element after `a`. -/
def next (xs : List α) (a : α) : Option α :=
  (ahead xs (some a)).tail.head?

variable {xs : List α} {cursor : Option α} {a b x : α}

@[simp] theorem ahead_none : ahead xs none = [] := rfl

theorem ahead_some : ahead xs (some a) = xs.dropWhile fun x => decide (x ≠ a) := rfl

theorem ahead_split (h : a ∈ xs) :
    ∃ before after, xs = before ++ a :: after ∧ a ∉ before ∧
      ahead xs (some a) = a :: after := by
  induction xs with
  | nil => cases h
  | cons y ys ih =>
      by_cases hy : y = a
      · subst y
        refine ⟨[], ys, rfl, List.not_mem_nil, ?_⟩
        rw [ahead_some, List.dropWhile_cons_of_neg (by simp)]
      · have hys : a ∈ ys := (List.mem_cons.mp h).resolve_left (Ne.symm hy)
        obtain ⟨before, after, rfl, hnot, hahead⟩ := ih hys
        refine ⟨y :: before, after, rfl, ?_, ?_⟩
        · rw [List.mem_cons, not_or]
          exact ⟨Ne.symm hy, hnot⟩
        · rw [ahead_some] at hahead ⊢
          rw [List.dropWhile_cons_of_pos (by simpa using hy), hahead]

theorem mem_of_mem_ahead (h : x ∈ ahead xs cursor) : x ∈ xs := by
  cases cursor with
  | none => cases h
  | some a => exact (List.dropWhile_sublist _).mem h

theorem mem_ahead_self (h : a ∈ xs) : a ∈ ahead xs (some a) := by
  obtain ⟨before, after, -, -, hahead⟩ := ahead_split h
  rw [hahead]
  exact List.mem_cons_self

theorem ahead_head : ahead xs xs.head? = xs := by
  cases xs with
  | nil => rfl
  | cons y ys =>
      rw [List.head?_cons, ahead_some, List.dropWhile_cons_of_neg (by simp)]

theorem ahead_of_split {before after : List α} (hxs : xs = before ++ a :: after)
    (hnot : a ∉ before) : ahead xs (some a) = a :: after := by
  subst hxs
  rw [ahead_some, List.dropWhile_append_of_pos, List.dropWhile_cons_of_neg (by simp)]
  intro y hy
  rw [decide_eq_true_eq]
  rintro rfl
  exact hnot hy

/-- Moving to the next element leaves out just the first one. -/
theorem ahead_next (hnodup : xs.Nodup) (ha : a ∈ xs) :
    ahead xs (next xs a) = (ahead xs (some a)).tail := by
  obtain ⟨before, after, hxs, -, hahead⟩ := ahead_split ha
  unfold next
  rw [hahead, List.tail_cons]
  cases after with
  | nil => rfl
  | cons y ys =>
      have hsplit : xs = (before ++ [a]) ++ y :: ys := by
        rw [hxs, List.append_assoc]
        rfl
      have hy : y ∉ before ++ [a] := by
        rw [hsplit] at hnodup
        intro hmem
        exact (List.nodup_append.mp hnodup).2.2 y hmem y List.mem_cons_self rfl
      exact ahead_of_split hsplit hy

theorem next_valid : Valid xs (next xs a) := by
  intro b hb
  unfold next at hb
  exact mem_of_mem_ahead (List.mem_of_mem_tail (List.mem_of_mem_head? hb))

/-- A cursor on `a` moves on; any other one stays. -/
def skip (xs : List α) (a : α) (cursor : Option α) : Option α :=
  if cursor = some a then next xs a else cursor

theorem skip_valid (h : Valid xs cursor) : Valid xs (skip xs a cursor) := by
  unfold skip
  split_ifs
  · exact next_valid
  · exact h

theorem mem_ahead_skip (hnodup : xs.Nodup) (hvalid : Valid xs cursor)
    (hx : x ∈ ahead xs cursor) (hne : x ≠ a) : x ∈ ahead xs (skip xs a cursor) := by
  unfold skip
  split_ifs with ha
  · subst ha
    obtain ⟨before, after, -, -, hahead⟩ := ahead_split (hvalid a rfl)
    rw [ahead_next hnodup (hvalid a rfl), hahead]
    rw [hahead] at hx
    exact (List.mem_cons.mp hx).resolve_left hne
  · exact hx

theorem length_ahead_next (hnodup : xs.Nodup) (ha : a ∈ xs) :
    (ahead xs (next xs a)).length + 1 = (ahead xs (some a)).length := by
  obtain ⟨before, after, -, -, hahead⟩ := ahead_split ha
  rw [ahead_next hnodup ha, hahead, List.tail_cons, List.length_cons]

theorem length_ahead_le (xs : List α) (cursor : Option α) :
    (ahead xs cursor).length ≤ xs.length := by
  cases cursor with
  | none => exact Nat.zero_le _
  | some a => exact (List.dropWhile_sublist _).length_le

theorem length_ahead_skip_le (hnodup : xs.Nodup) (hvalid : Valid xs cursor) :
    (ahead xs (skip xs a cursor)).length ≤ (ahead xs cursor).length := by
  unfold skip
  split_ifs with ha
  · subst ha
    have hlen := length_ahead_next hnodup (hvalid a rfl)
    omega
  · exact Nat.le_refl _

/-! ## Append -/

theorem ahead_append (hvalid : Valid xs cursor) (hcursor : cursor.isSome) :
    ahead (xs ++ [b]) cursor = ahead xs cursor ++ [b] := by
  cases cursor with
  | none => cases hcursor
  | some a =>
      obtain ⟨before, after, hxs, hnot, hahead⟩ := ahead_split (hvalid a rfl)
      rw [hahead]
      exact ahead_of_split (by rw [hxs, List.append_assoc]; rfl) hnot

theorem mem_ahead_append (hvalid : Valid xs cursor) (hx : x ∈ ahead xs cursor) :
    x ∈ ahead (xs ++ [b]) (cursor.or (some b)) := by
  cases cursor with
  | none => cases hx
  | some a =>
      rw [Option.some_or, ahead_append hvalid rfl]
      exact List.mem_append_left _ hx

/-- What is appended is ahead of a cursor which was not null, or is on it. -/
theorem appended_mem_ahead (hvalid : Valid xs cursor) :
    b ∈ ahead (xs ++ [b]) (cursor.or (some b)) := by
  cases cursor with
  | none => exact mem_ahead_self (List.mem_append_right _ List.mem_cons_self)
  | some a =>
      rw [Option.some_or, ahead_append hvalid rfl]
      exact List.mem_append_right _ List.mem_cons_self

/-! ## Removal -/

theorem ahead_erase (hnodup : xs.Nodup) (hvalid : Valid xs cursor) (hcursor : cursor ≠ some a) :
    ahead (xs.erase a) cursor = (ahead xs cursor).erase a := by
  cases cursor with
  | none => rfl
  | some c =>
      have hne : c ≠ a := fun h => hcursor (congrArg some h)
      obtain ⟨before, after, hxs, hnot, hahead⟩ := ahead_split (hvalid c rfl)
      have hsplit : xs.erase a = before.erase a ++ (c :: after).erase a := by
        rw [hxs, List.erase_append]
        split_ifs with ha
        · rw [hxs] at hnodup
          have hout : a ∉ c :: after :=
            fun hmem => (List.nodup_append.mp hnodup).2.2 a ha a hmem rfl
          rw [List.erase_of_not_mem hout]
        · rw [List.erase_of_not_mem ha]
      have hcons : (c :: after).erase a = c :: after.erase a :=
        List.erase_cons_tail (by simpa using hne)
      rw [hahead, hcons]
      rw [hcons] at hsplit
      exact ahead_of_split hsplit fun hmem => hnot (List.mem_of_mem_erase hmem)

/-- A removed element is skipped: everything else ahead stays ahead. -/
theorem mem_ahead_erase (hnodup : xs.Nodup) (hvalid : Valid xs cursor)
    (hx : x ∈ ahead xs cursor) (hne : x ≠ a) :
    x ∈ ahead (xs.erase a) (skip xs a cursor) := by
  have hskipped := mem_ahead_skip hnodup hvalid hx hne
  have hcursor : skip xs a cursor ≠ some a := by
    unfold skip
    split_ifs with ha
    · subst ha
      intro hself
      have hmem := mem_ahead_self (hvalid a rfl)
      obtain ⟨before, after, hxs, -, hahead⟩ := ahead_split (hvalid a rfl)
      have hnext := ahead_next hnodup (hvalid a rfl)
      rw [hself, hahead, List.tail_cons] at hnext
      have hlen := congrArg List.length hnext
      rw [List.length_cons] at hlen
      omega
    · exact ha
  rw [ahead_erase hnodup (skip_valid hvalid) hcursor]
  exact (List.mem_erase_of_ne hne).mpr hskipped

theorem skip_valid_erase (hnodup : xs.Nodup) (hvalid : Valid xs cursor) :
    Valid (xs.erase a) (skip xs a cursor) := by
  intro c hc
  have hmem := skip_valid hvalid c hc
  by_cases hne : c = a
  · subst c
    exfalso
    unfold skip at hc
    split_ifs at hc with ha
    · subst ha
      obtain ⟨before, after, -, -, hahead⟩ := ahead_split (hvalid a rfl)
      have hnext := ahead_next hnodup (hvalid a rfl)
      rw [hc, hahead, List.tail_cons] at hnext
      have hlen := congrArg List.length hnext
      rw [List.length_cons] at hlen
      omega
    · exact ha hc
  · exact (List.mem_erase_of_ne hne).mpr hmem

/-! ## What is behind a cursor -/

/-- Every element which is not ahead of the cursor has the property. -/
def Covers (xs : List α) (cursor : Option α) (P : α → Prop) : Prop :=
  ∀ x ∈ xs, P x ∨ x ∈ ahead xs cursor

variable {P Q : α → Prop}

theorem Covers.head : Covers xs xs.head? P := by
  intro x hx
  rw [ahead_head]
  exact .inr hx

theorem Covers.mono (h : Covers xs cursor P) (hPQ : ∀ x ∈ xs, P x → Q x) :
    Covers xs cursor Q :=
  fun x hx => (h x hx).imp_left (hPQ x hx)

theorem Covers.skip (h : Covers xs cursor P) (hnodup : xs.Nodup) (hvalid : Valid xs cursor)
    (ha : P a) : Covers xs (skip xs a cursor) P := by
  intro x hx
  by_cases hxa : x = a
  · rw [hxa]
    exact .inl ha
  · exact (h x hx).imp_right fun hahead => mem_ahead_skip hnodup hvalid hahead hxa

theorem Covers.append_or (h : Covers xs cursor P) (hvalid : Valid xs cursor) :
    Covers (xs ++ [b]) (cursor.or (some b)) P := by
  intro x hx
  rcases List.mem_append.mp hx with hx | hx
  · exact (h x hx).imp_right (mem_ahead_append hvalid)
  · rw [List.mem_singleton.mp hx]
    exact .inr (appended_mem_ahead hvalid)

theorem Covers.append (h : Covers xs cursor P) (hvalid : Valid xs cursor) (hb : P b) :
    Covers (xs ++ [b]) cursor P := by
  intro x hx
  rcases List.mem_append.mp hx with hx | hx
  · refine (h x hx).imp_right fun hahead => ?_
    have hsome : cursor.isSome := by
      cases cursor with
      | none => cases hahead
      | some a => rfl
    rw [ahead_append hvalid hsome]
    exact List.mem_append_left _ hahead
  · rw [List.mem_singleton.mp hx]
    exact .inl hb

/-- A cursor which is set to the appended element has everything else behind. -/
theorem Covers.restart (h : ∀ x ∈ xs, P x) : Covers (xs ++ [b]) (some b) P := by
  intro x hx
  rcases List.mem_append.mp hx with hx | hx
  · exact .inl (h x hx)
  · rw [List.mem_singleton.mp hx]
    exact .inr (mem_ahead_self (List.mem_append_right _ List.mem_cons_self))

theorem Covers.erase (h : Covers xs cursor P) (hnodup : xs.Nodup) (hvalid : Valid xs cursor) :
    Covers (xs.erase a) (ListCursor.skip xs a cursor) P := by
  intro x hx
  obtain ⟨hne, hmem⟩ := hnodup.mem_erase_iff.mp hx
  exact (h x hmem).imp_right fun hahead => mem_ahead_erase hnodup hvalid hahead hne

/-! ## Removal of several elements -/

/-- Elements are removed one after the other, and the cursor is repaired each
time. -/
def eraseAll : List α → List α → Option α → List α × Option α
  | [], xs, cursor => (xs, cursor)
  | a :: as, xs, cursor => eraseAll as (xs.erase a) (skip xs a cursor)

variable {as : List α}

theorem eraseAll_fst (as : List α) (xs : List α) (cursor : Option α) :
    (eraseAll as xs cursor).1 = xs.diff as := by
  induction as generalizing xs cursor with
  | nil => rfl
  | cons a as ih => rw [eraseAll, ih, List.diff_cons]

theorem eraseAll_valid (hnodup : xs.Nodup) (hvalid : Valid xs cursor) :
    Valid (eraseAll as xs cursor).1 (eraseAll as xs cursor).2 := by
  induction as generalizing xs cursor with
  | nil => exact hvalid
  | cons a as ih => exact ih (hnodup.erase a) (skip_valid_erase hnodup hvalid)

theorem Covers.eraseAll (h : Covers xs cursor P) (hnodup : xs.Nodup)
    (hvalid : Valid xs cursor) :
    Covers (ListCursor.eraseAll as xs cursor).1
      (ListCursor.eraseAll as xs cursor).2 P := by
  induction as generalizing xs cursor with
  | nil => exact h
  | cons a as ih =>
      exact ih (h.erase hnodup hvalid) (hnodup.erase a) (skip_valid_erase hnodup hvalid)

end ListCursor
