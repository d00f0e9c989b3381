import Mathlib.Order.Basic
import Mathlib.Order.Lattice
import Mathlib.Data.Nat.Basic

/-!
# Loops with fuel

A loop of a program is a recursive function with a bound of its rounds, which has no
result when the bound is too small.  It ends if there is one result for every bound that
is large enough.
-/

namespace LoopFuel

variable {α σ τ : Type*}

/-- With enough fuel there is always the same result, of which `post` holds. -/
def Settles (run : ℕ → Option σ) (post : σ → Prop) : Prop :=
  ∃ result, post result ∧ ∃ enough, ∀ fuel ≥ enough, run fuel = some result

section

variable {run : ℕ → Option σ} {post post' : σ → Prop}

theorem Settles.of_eq {result : σ} (h : ∀ fuel, run fuel = some result) (hpost : post result) :
    Settles run post :=
  ⟨result, hpost, 0, fun fuel _ => h fuel⟩

theorem Settles.imp (h : Settles run post) (himp : ∀ s, post s → post' s) :
    Settles run post' := by
  obtain ⟨result, hpost, hrun⟩ := h
  exact ⟨result, himp result hpost, hrun⟩

theorem Settles.bind {next : ℕ → σ → Option τ} {post' : τ → Prop} (h : Settles run post)
    (hnext : ∀ s, post s → Settles (fun fuel => next fuel s) post') :
    Settles (fun fuel => (run fuel).bind (next fuel)) post' := by
  obtain ⟨s, hpost, enough, hrun⟩ := h
  obtain ⟨result, hpost', enough', hrun'⟩ := hnext s hpost
  refine ⟨result, hpost', max enough enough', fun fuel hfuel => ?_⟩
  dsimp only
  rw [hrun fuel ((le_max_left ..).trans hfuel), Option.bind_some]
  exact hrun' fuel ((le_max_right ..).trans hfuel)

theorem Settles.post_of_eventually (h : Settles run post) {result : σ} {enough : ℕ}
    (hrun : ∀ fuel ≥ enough, run fuel = some result) : post result := by
  obtain ⟨result', hpost, enough', hrun'⟩ := h
  have hfirst := hrun (max enough enough') (le_max_left ..)
  rw [hrun' _ (le_max_right ..)] at hfirst
  exact Option.some.inj hfirst ▸ hpost

end

/-! ## Loops -/

/-- `while ((a = first())) body(a)`. -/
def whileSome (first : σ → Option α) (body : α → σ → Option σ) : ℕ → σ → Option σ
  | 0, _ => none
  | rounds + 1, s =>
      match first s with
      | none => some s
      | some a => (body a s).bind (whileSome first body rounds)

/-- A loop ends if each round lowers the rank in its invariant. -/
theorem whileSome_settles {first : σ → Option α} {body : ℕ → α → σ → Option σ}
    (inv : ℕ → σ → Prop)
    (hbody : ∀ rank s a, inv rank s → first s = some a →
      Settles (fun fuel => body fuel a s) fun s' => ∃ rank' < rank, inv rank' s')
    {rank : ℕ} {s : σ} (hinv : inv rank s) :
    Settles (fun fuel => whileSome first (body fuel) fuel s)
      fun s' => (∃ rank', inv rank' s') ∧ first s' = none := by
  suffices h : ∃ result, ((∃ rank', inv rank' result) ∧ first result = none) ∧
      ∃ enough, ∀ fuel ≥ enough, ∀ rounds ≥ enough,
        whileSome first (body fuel) rounds s = some result by
    obtain ⟨result, hpost, enough, hrun⟩ := h
    exact ⟨result, hpost, enough, fun fuel hfuel => hrun fuel hfuel fuel hfuel⟩
  induction rank using Nat.strong_induction_on generalizing s with
  | _ rank ih =>
      cases hfirst : first s with
      | none =>
          refine ⟨s, ⟨⟨rank, hinv⟩, hfirst⟩, 1, fun fuel _ rounds hrounds => ?_⟩
          obtain ⟨rounds, rfl⟩ := Nat.exists_eq_add_of_le' hrounds
          rw [whileSome, hfirst]
      | some a =>
          obtain ⟨s', ⟨rank', hlt, hinv'⟩, enough, hrun⟩ := hbody rank s a hinv hfirst
          obtain ⟨result, hpost, enough', hrest⟩ := ih rank' hlt hinv'
          refine ⟨result, hpost, max enough enough' + 1, fun fuel hfuel rounds hrounds => ?_⟩
          have hleft := le_max_left enough enough'
          have hright := le_max_right enough enough'
          obtain ⟨rounds, rfl⟩ : ∃ n, rounds = n + 1 := ⟨rounds - 1, by omega⟩
          rw [whileSome, hfirst]
          have hround : body fuel a s = some s' := hrun fuel (by omega)
          dsimp only
          rw [hround, Option.bind_some]
          exact hrest fuel (by omega) rounds (by omega)

/-- `for (a = p; a; a = next) { next = a->next; body(a); }`. -/
def forEach (next : σ → α → Option α) (body : α → σ → σ) : ℕ → Option α → σ → Option σ
  | 0, _, _ => none
  | _ + 1, none, s => some s
  | rounds + 1, some a, s => forEach next body rounds (next s a) (body a s)

/-- The pointer goes over a list of nodes, and an invariant tells which ones are left. -/
theorem forEach_settles {next : σ → α → Option α} {body : α → σ → σ} (inv : List α → σ → Prop)
    (hnext : ∀ a rest s, inv (a :: rest) s → next s a = rest.head?)
    (hbody : ∀ a rest s, inv (a :: rest) s → inv rest (body a s))
    {nodes : List α} {s : σ} (hinv : inv nodes s) :
    Settles (fun fuel => forEach next body fuel nodes.head? s) (inv []) := by
  induction nodes generalizing s with
  | nil =>
      refine ⟨s, hinv, 1, fun fuel hfuel => ?_⟩
      obtain ⟨fuel, rfl⟩ := Nat.exists_eq_add_of_le' hfuel
      rfl
  | cons a nodes ih =>
      obtain ⟨result, hpost, enough, hrun⟩ := ih (hbody a nodes s hinv)
      refine ⟨result, hpost, enough + 1, fun fuel hfuel => ?_⟩
      obtain ⟨fuel, rfl⟩ : ∃ n, fuel = n + 1 := ⟨fuel - 1, by omega⟩
      dsimp only [List.head?_cons, forEach]
      rw [hnext a nodes s hinv]
      exact hrun fuel (by omega)

/-- `a = start; do { next = a->next; body(a); a = next; } while (a != start)`. -/
def forRing [DecidableEq α] (next : σ → α → Option α) (body : α → σ → σ) (start : α) :
    ℕ → α → σ → Option σ
  | 0, _, _ => none
  | rounds + 1, a, s =>
      match next s a with
      | none => none
      | some b => if b = start then some (body a s) else forRing next body start rounds b (body a s)

theorem forRing_settles [DecidableEq α] {next : σ → α → Option α} {body : α → σ → σ} {start : α}
    (inv : List α → σ → Prop)
    (hnext : ∀ a rest s, inv (a :: rest) s → next s a = some (rest.head?.getD start))
    (hbody : ∀ a rest s, inv (a :: rest) s → inv rest (body a s))
    {a : α} {nodes : List α} {s : σ} (hstart : start ∉ nodes) (hinv : inv (a :: nodes) s) :
    Settles (fun fuel => forRing next body start fuel a s) (inv []) := by
  induction nodes generalizing a s with
  | nil =>
      refine ⟨body a s, hbody a [] s hinv, 1, fun fuel hfuel => ?_⟩
      obtain ⟨fuel, rfl⟩ := Nat.exists_eq_add_of_le' hfuel
      dsimp only [forRing]
      rw [hnext a [] s hinv]
      exact if_pos rfl
  | cons b nodes ih =>
      rw [List.mem_cons, not_or] at hstart
      obtain ⟨hne, hrest⟩ := hstart
      obtain ⟨result, hpost, enough, hrun⟩ := ih hrest (hbody a (b :: nodes) s hinv)
      refine ⟨result, hpost, enough + 1, fun fuel hfuel => ?_⟩
      obtain ⟨fuel, rfl⟩ : ∃ n, fuel = n + 1 := ⟨fuel - 1, by omega⟩
      dsimp only [forRing]
      rw [hnext a (b :: nodes) s hinv]
      exact (if_neg (Ne.symm hne)).trans (hrun fuel (by omega))

end LoopFuel
