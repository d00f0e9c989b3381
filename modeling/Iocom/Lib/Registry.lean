import Mathlib.Algebra.BigOperators.Group.List.Basic
import Mathlib.Data.List.Nodup
import Mathlib.Tactic.Common

/-!
# Lists of objects with keys

Objects are found, changed and removed by a key which no other object of the list
has.  What they own is a sum over the list.
-/

namespace Registry

variable {α ι M : Type*} [DecidableEq ι] (key : α → ι)

/-- The object with the key. -/
def lookup (k : ι) (l : List α) : Option α := l.find? fun a => decide (key a = k)

/-- The object with the key changed. -/
def modify (k : ι) (f : α → α) (l : List α) : List α :=
  l.map fun a => if key a = k then f a else a

/-- The object with the key removed. -/
def remove (k : ι) (l : List α) : List α := l.filter fun a => decide (key a ≠ k)

variable {key} {k : ι} {l : List α} {a : α} {f : α → α}

theorem lookup_mem (h : lookup key k l = some a) : a ∈ l := List.mem_of_find?_eq_some h

theorem lookup_key (h : lookup key k l = some a) : key a = k := by
  simpa using List.find?_some h

theorem eq_of_lookup (hnodup : (l.map key).Nodup) (h : lookup key k l = some a) {b : α}
    (hb : b ∈ l) (hbk : key b = k) : b = a :=
  List.inj_on_of_nodup_map hnodup hb (lookup_mem h) (hbk.trans (lookup_key h).symm)

theorem lookup_of_mem (hnodup : (l.map key).Nodup) (h : a ∈ l) : lookup key (key a) l = some a := by
  have hfound : (lookup key (key a) l).isSome := by
    rw [lookup, List.find?_isSome]
    exact ⟨a, h, decide_eq_true rfl⟩
  obtain ⟨b, hb⟩ := Option.isSome_iff_exists.mp hfound
  rw [hb, eq_of_lookup hnodup hb h rfl]

theorem map_key_modify (hf : ∀ b, key (f b) = key b) :
    (modify key k f l).map key = l.map key := by
  rw [modify, List.map_map]
  refine List.map_congr_left fun b _ => ?_
  simp only [Function.comp]
  split_ifs
  · exact hf b
  · rfl

theorem mem_modify (hnodup : (l.map key).Nodup) (h : lookup key k l = some a) {b : α}
    (hb : b ∈ modify key k f l) : b ∈ l ∨ b = f a := by
  obtain ⟨c, hc, rfl⟩ := List.mem_map.mp hb
  split_ifs with hk
  · exact .inr (congrArg f (eq_of_lookup hnodup h hc hk))
  · exact .inl hc

theorem exists_split (hnodup : (l.map key).Nodup) (h : lookup key k l = some a) :
    ∃ before after, l = before ++ a :: after ∧ remove key k l = before ++ after ∧
      ∀ f, modify key k f l = before ++ f a :: after := by
  obtain ⟨before, after, rfl⟩ := List.append_of_mem (lookup_mem h)
  have hka := lookup_key h
  rw [List.map_append, List.map_cons, List.nodup_append, List.nodup_cons, hka] at hnodup
  obtain ⟨-, ⟨hafter, -⟩, hbefore⟩ := hnodup
  have hb : ∀ b ∈ before, key b ≠ k := fun b hb =>
    hbefore _ (List.mem_map_of_mem hb) _ (List.mem_cons_self ..)
  have ha : ∀ b ∈ after, key b ≠ k := fun b hb heq =>
    hafter (heq ▸ List.mem_map_of_mem hb)
  refine ⟨before, after, rfl, ?_, fun f => ?_⟩
  · have hkeepBefore : before.filter (fun b => decide (key b ≠ k)) = before :=
      List.filter_eq_self.mpr fun b h => decide_eq_true (hb b h)
    have hkeepAfter : after.filter (fun b => decide (key b ≠ k)) = after :=
      List.filter_eq_self.mpr fun b h => decide_eq_true (ha b h)
    simp only [remove, List.filter_append, List.filter_cons, hkeepBefore, hkeepAfter, hka]
    simp
  · have hkeepBefore : before.map (fun b => if key b = k then f b else b) = before :=
      (List.map_congr_left fun b h => if_neg (hb b h)).trans (List.map_id' before)
    have hkeepAfter : after.map (fun b => if key b = k then f b else b) = after :=
      (List.map_congr_left fun b h => if_neg (ha b h)).trans (List.map_id' after)
    simp [modify, hkeepBefore, hkeepAfter, hka]

theorem lookup_modify (hf : ∀ b, key (f b) = key b) (h : lookup key k l = some a) :
    lookup key k (modify key k f l) = some (f a) := by
  induction l with
  | nil => simp [lookup] at h
  | cons b l ih =>
      by_cases hb : key b = k
      · have hab : b = a := by simpa [lookup, hb] using h
        subst hab
        have hfb : key (f b) = k := by rw [hf, hb]
        simp only [lookup, modify, List.map_cons, if_pos hb]
        exact List.find?_cons_of_pos (decide_eq_true hfb)
      · have hrest : lookup key k l = some a := by simpa [lookup, hb] using h
        simp only [lookup, modify, List.map_cons, if_neg hb]
        rw [List.find?_cons_of_neg (by simpa using hb)]
        exact ih hrest

theorem lookup_modify_ne {i : ι} (hf : ∀ b, key (f b) = key b) (hi : i ≠ k) :
    lookup key i (modify key k f l) = lookup key i l := by
  induction l with
  | nil => rfl
  | cons b l ih =>
      simp only [lookup, modify] at ih ⊢
      by_cases hb : key b = k
      · have hbi : key b ≠ i := hb ▸ hi.symm
        simp only [List.map_cons, if_pos hb]
        rw [List.find?_cons_of_neg (by simpa [hf] using hbi),
          List.find?_cons_of_neg (by simpa using hbi)]
        exact ih
      · simp only [List.map_cons, if_neg hb, List.find?_cons, ih]

theorem remove_of_lookup_none (h : lookup key k l = none) : remove key k l = l :=
  List.filter_eq_self.mpr fun b hb => decide_eq_true fun hk =>
    List.find?_eq_none.mp h b hb (decide_eq_true hk)

theorem mem_remove {b : α} : b ∈ remove key k l ↔ b ∈ l ∧ key b ≠ k := by
  simp [remove]

omit [DecidableEq ι] in
/-- The object at a position is replaced by one with the same key. -/
theorem mem_set (hnodup : (l.map key).Nodup) {i : ℕ} (hi : l[i]? = some a) {b : α}
    (hb : key b = key a) {c : α} (hc : c ∈ l.set i b) : c = b ∨ c ∈ l ∧ key c ≠ key a := by
  obtain ⟨hlt, rfl⟩ := List.getElem?_eq_some_iff.mp hi
  obtain ⟨j, hj, rfl⟩ := List.getElem_of_mem hc
  rw [List.length_set] at hj
  by_cases hij : i = j
  · exact .inl (by simp [hij])
  · right
    rw [List.getElem_set_of_ne hij]
    refine ⟨List.getElem_mem hj, fun hkey => hij ?_⟩
    have hi' : i < (l.map key).length := by simpa using hlt
    have hj' : j < (l.map key).length := by simpa using hj
    have hinj : (l.map key)[i] = (l.map key)[j] ↔ i = j := hnodup.getElem_inj_iff
    rw [List.getElem_map, List.getElem_map] at hinj
    exact hinj.mp hkey.symm

omit [DecidableEq ι] in
theorem mem_eraseIdx (hnodup : (l.map key).Nodup) {i : ℕ} (hi : l[i]? = some a) {c : α}
    (hc : c ∈ l.eraseIdx i) : c ∈ l ∧ key c ≠ key a := by
  obtain ⟨hlt, rfl⟩ := List.getElem?_eq_some_iff.mp hi
  obtain ⟨j, hj, hji, rfl⟩ := List.mem_eraseIdx_iff_getElem.mp hc
  refine ⟨List.getElem_mem hj, fun hkey => hji ?_⟩
  have hi' : i < (l.map key).length := by simpa using hlt
  have hj' : j < (l.map key).length := by simpa using hj
  have hinj : (l.map key)[j] = (l.map key)[i] ↔ j = i := hnodup.getElem_inj_iff
  rw [List.getElem_map, List.getElem_map] at hinj
  exact hinj.mp hkey

omit [DecidableEq ι] in
theorem mem_eraseIdx_of_ne (key : α → ι) {i : ℕ} (hi : l[i]? = some a) {c : α} (hc : c ∈ l)
    (hne : key c ≠ key a) : c ∈ l.eraseIdx i := by
  obtain ⟨hlt, rfl⟩ := List.getElem?_eq_some_iff.mp hi
  obtain ⟨j, hj, rfl⟩ := List.getElem_of_mem hc
  refine List.mem_eraseIdx_iff_getElem.mpr ⟨j, hj, ?_, rfl⟩
  rintro rfl
  exact hne rfl

omit [DecidableEq ι] in
theorem mem_set_of_ne (key : α → ι) {i : ℕ} (hi : l[i]? = some a) {b c : α} (hc : c ∈ l)
    (hne : key c ≠ key a) : c ∈ l.set i b := by
  obtain ⟨hlt, rfl⟩ := List.getElem?_eq_some_iff.mp hi
  obtain ⟨j, hj, rfl⟩ := List.getElem_of_mem hc
  have hij : i ≠ j := by
    rintro rfl
    exact hne rfl
  rw [← List.getElem_set_of_ne hij (a := b) (by simpa using hj)]
  exact List.getElem_mem _

omit [DecidableEq ι] in
theorem map_key_set {i : ℕ} (hi : l[i]? = some a) {b : α} (hb : key b = key a) :
    (l.set i b).map key = l.map key := by
  obtain ⟨hlt, rfl⟩ := List.getElem?_eq_some_iff.mp hi
  have hi' : i < (l.map key).length := by simpa using hlt
  have hself : (l.map key).set i (l.map key)[i] = l.map key := List.set_getElem_self hi'
  rw [List.map_set, hb, ← hself, List.getElem_map, List.set_set]

/-! ## Keys given one after the other -/

/-- The keys differ, and are below the next one. -/
structure KeysBelow (keys : List ℕ) (next : ℕ) : Prop where
  nodup : keys.Nodup
  lt : ∀ k ∈ keys, k < next

namespace KeysBelow

variable {keys : List ℕ} {next : ℕ}

theorem nil : KeysBelow [] next := ⟨List.nodup_nil, fun _ h => absurd h List.not_mem_nil⟩

theorem succ (h : KeysBelow keys next) : KeysBelow keys (next + 1) :=
  ⟨h.nodup, fun k hk => Nat.lt_succ_of_lt (h.lt k hk)⟩

theorem append (h : KeysBelow keys next) : KeysBelow (keys ++ [next]) (next + 1) where
  nodup := by
    refine List.nodup_append.mpr ⟨h.nodup, by simp, fun a ha b hb => ?_⟩
    rw [List.mem_singleton.mp hb]
    exact Nat.ne_of_lt (h.lt a ha)
  lt := by
    intro k hk
    rcases List.mem_append.mp hk with hk | hk
    · exact Nat.lt_succ_of_lt (h.lt k hk)
    · rw [List.mem_singleton.mp hk]
      exact Nat.lt_succ_self _

theorem sublist {fewer : List ℕ} (h : KeysBelow keys next) (hsub : fewer.Sublist keys) :
    KeysBelow fewer next :=
  ⟨hsub.nodup h.nodup, fun k hk => h.lt k (hsub.subset hk)⟩

end KeysBelow

theorem remove_sublist : ((remove key k l).map key).Sublist (l.map key) :=
  (List.filter_sublist).map key

/-! ## What the objects own -/

variable [AddCommMonoid M] (own : α → M)

theorem sum_remove (hnodup : (l.map key).Nodup) (h : lookup key k l = some a) :
    (l.map own).sum = own a + ((remove key k l).map own).sum := by
  obtain ⟨before, after, hl, hremove, -⟩ := exists_split hnodup h
  rw [hremove, hl]
  simp only [List.map_append, List.map_cons, List.sum_append, List.sum_cons]
  exact add_left_comm _ _ _

theorem sum_modify (hnodup : (l.map key).Nodup) (h : lookup key k l = some a) :
    ((modify key k f l).map own).sum = own (f a) + ((remove key k l).map own).sum := by
  obtain ⟨before, after, -, hremove, hmodify⟩ := exists_split hnodup h
  rw [hremove, hmodify]
  simp only [List.map_append, List.map_cons, List.sum_append, List.sum_cons]
  exact add_left_comm _ _ _

end Registry
