import Mathlib.Data.List.Basic

/-!
# In-order channels

A receiver handles messages one at a time, may reject one, and may produce
outputs.  `Pending` relates a receiver, the messages on their way to it and
the sender, through the state the receiver will be in once the channel has
drained.  Its rules say what a delivery, a send and a new obligation of the
sender change; none of them looks at the messages already on their way.
-/

namespace OrderedChannel

variable {σ φ ω ρ : Type*}

/-- Deliver all messages of a channel, collecting the outputs. -/
def drain (recv : σ → φ → Option (σ × List ω)) : σ → List φ → Option (σ × List ω)
  | s, [] => some (s, [])
  | s, f :: fs =>
      match recv s f with
      | none => none
      | some (s', out) => (drain recv s' fs).map fun r => (r.1, out ++ r.2)

/-- Once the channel has drained, the receiver has produced the first of the
expected outputs, and it stands in the relation `P` to the sender with the
remaining ones. -/
def Pending (recv : σ → φ → Option (σ × List ω)) (P : σ → List ω → ρ → Prop)
    (s : σ) (fs : List φ) (expected : List ω) (r : ρ) : Prop :=
  ∃ s' out rest, drain recv s fs = some (s', out) ∧
    expected = out ++ rest ∧ P s' rest r

variable {recv : σ → φ → Option (σ × List ω)} {P : σ → List ω → ρ → Prop}

theorem drain_append (s : σ) (fs gs : List φ) :
    drain recv s (fs ++ gs) =
      (drain recv s fs).bind fun r =>
        (drain recv r.1 gs).map fun q => (q.1, r.2 ++ q.2) := by
  induction fs generalizing s with
  | nil => simp [drain]
  | cons f fs ih =>
      simp only [List.cons_append, drain]
      cases hf : recv s f with
      | none => rfl
      | some r =>
          obtain ⟨s', out⟩ := r
          simp only [ih]
          cases hfs : drain recv s' fs with
          | none => rfl
          | some r =>
              simp only [Option.map_some, Option.bind_some]
              cases hgs : drain recv r.1 gs with
              | none => rfl
              | some q => simp

theorem Pending.empty {s : σ} {expected : List ω} {r : ρ} (h : P s expected r) :
    Pending recv P s [] expected r :=
  ⟨s, [], expected, rfl, rfl, h⟩

theorem Pending.of_empty {s : σ} {expected : List ω} {r : ρ}
    (h : Pending recv P s [] expected r) : P s expected r := by
  obtain ⟨s', out, rest, hdrain, rfl, hP⟩ := h
  simp only [drain, Option.some.injEq, Prod.mk.injEq] at hdrain
  obtain ⟨rfl, rfl⟩ := hdrain
  exact hP

/-- The next message is accepted, and its outputs come off the expected ones. -/
theorem Pending.deliver {s : σ} {f : φ} {fs : List φ} {expected : List ω} {r : ρ}
    (h : Pending recv P s (f :: fs) expected r) :
    ∃ s' out rest, recv s f = some (s', out) ∧ expected = out ++ rest ∧
      Pending recv P s' fs rest r := by
  obtain ⟨s'', out, rest, hdrain, hexp, hP⟩ := h
  simp only [drain] at hdrain
  cases hf : recv s f with
  | none => simp [hf] at hdrain
  | some q =>
      obtain ⟨s', out₁⟩ := q
      simp only [hf] at hdrain
      cases hfs : drain recv s' fs with
      | none => simp [hfs] at hdrain
      | some q =>
          obtain ⟨t, out₂⟩ := q
          simp only [hfs, Option.map_some, Option.some.injEq, Prod.mk.injEq] at hdrain
          obtain ⟨rfl, rfl⟩ := hdrain
          refine ⟨s', out₁, out₂ ++ rest, rfl, ?_, t, out₂, rest, hfs, rfl, hP⟩
          rw [hexp, List.append_assoc]

/-- Sending a message: it is enough to deliver it to a drained receiver. -/
theorem Pending.send {s : σ} {fs : List φ} {expected : List ω} {r r' : ρ} {f : φ}
    (h : Pending recv P s fs expected r)
    (hsend : ∀ t rest, P t rest r →
      ∃ t' out rest', recv t f = some (t', out) ∧ rest = out ++ rest' ∧
        P t' rest' r') :
    Pending recv P s (fs ++ [f]) expected r' := by
  obtain ⟨t, out, rest, hdrain, hexp, hP⟩ := h
  obtain ⟨t', out', rest', hrecv, hrest, hP'⟩ := hsend t rest hP
  refine ⟨t', out ++ out', rest', ?_, ?_, hP'⟩
  · rw [drain_append, hdrain]
    simp [drain, hrecv]
  · rw [hexp, hrest, List.append_assoc]

/-- A step of the sender which sends nothing but may add expected outputs. -/
theorem Pending.extend {s : σ} {fs : List φ} {expected : List ω} {r r' : ρ}
    (new : List ω) (h : Pending recv P s fs expected r)
    (hextend : ∀ t rest, P t rest r → P t (rest ++ new) r') :
    Pending recv P s fs (expected ++ new) r' := by
  obtain ⟨t, out, rest, hdrain, hexp, hP⟩ := h
  refine ⟨t, out, rest ++ new, hdrain, ?_, hextend t rest hP⟩
  rw [hexp, List.append_assoc]

theorem Pending.mono {s : σ} {fs : List φ} {expected : List ω} {r r' : ρ}
    (h : Pending recv P s fs expected r)
    (hmono : ∀ t rest, P t rest r → P t rest r') :
    Pending recv P s fs expected r' := by
  obtain ⟨t, out, rest, hdrain, hexp, hP⟩ := h
  exact ⟨t, out, rest, hdrain, hexp, hmono t rest hP⟩

end OrderedChannel
