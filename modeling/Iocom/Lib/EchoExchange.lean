import Mathlib.Logic.Function.Basic
import Mathlib.Data.List.Basic

/-!
# A cell shared by two writers, one of which echoes

Both ends hold a copy of a cell and may write it at any time.  An end marks a
cell it has written, sends snapshots of its copy with the mark, and takes over
a marked value it has received.  Only one end, the echoing one, marks a cell
again when it takes a value over.  The invariant is that an unmarked cell is
the same at both ends, and it only needs the marks on their way to the echoing
end to be tracked together with the ones on their way back.
-/

namespace EchoExchange

/-- The two ends; `echoing` sends back what it takes over. -/
inductive Side where
  | plain
  | echoing
  deriving DecidableEq

def Side.other : Side → Side
  | .plain => .echoing
  | .echoing => .plain

@[simp] theorem Side.other_other (side : Side) : side.other.other = side := by
  cases side <;> rfl

@[simp] theorem Side.other_ne (side : Side) : side.other ≠ side := by
  cases side <;> simp [Side.other]

variable {α : Type*}

/-- One end's view of the cell: the value and whether it has been written since
the last snapshot, the value of the last snapshot, and the value which arrived
last with the mark of what has not been taken over. -/
structure CellEnd (α : Type*) where
  value : α
  dirty : Bool
  sent : α
  arrived : α
  mark : Bool

/-- Both ends and the snapshots on their way, by the side which sent them. -/
structure Cell (α : Type*) where
  ends : Side → CellEnd α
  jobs : Side → List (α × Bool)

inductive Step : Cell α → Cell α → Prop
  | write (c : Cell α) (side : Side) (v : α) :
      Step c
        { c with
          ends := Function.update c.ends side
            { c.ends side with value := v, dirty := true } }
  | snapshot (c : Cell α) (side : Side) (v : α)
      (hv : v = (c.ends side).value ∨
        ((c.ends side).dirty = false ∧ v = (c.ends side).sent)) :
      Step c
        { ends := Function.update c.ends side
            { c.ends side with sent := v, dirty := false }
          jobs := Function.update c.jobs side
            (c.jobs side ++ [(v, (c.ends side).dirty)]) }
  | arrive (c : Cell α) (side : Side) (v : α) (m : Bool) (rest : List (α × Bool))
      (hjobs : c.jobs side = (v, m) :: rest) :
      Step c
        { ends := Function.update c.ends side.other
            { c.ends side.other with
              arrived := v
              mark := (c.ends side.other).mark || m }
          jobs := Function.update c.jobs side rest }
  | takeOver (c : Cell α) (side : Side) :
      Step c
        { c with
          ends := Function.update c.ends side
            { c.ends side with
              value :=
                if (c.ends side).mark then (c.ends side).arrived
                else (c.ends side).value
              dirty :=
                (c.ends side).dirty ||
                  (decide (side = .echoing) && (c.ends side).mark)
              mark := false } }

/-- The cell is marked somewhere on its way from a side to the other. -/
def Cell.Marked (c : Cell α) (side : Side) : Prop :=
  (c.ends side).dirty = true ∨ (∃ job ∈ c.jobs side, job.2 = true) ∨
    (c.ends side.other).mark = true

/-- Snapshots which are not marked repeat the value before them. -/
def Chain : α → List (α × Bool) → α → Prop
  | v, [], w => v = w
  | v, (u, m) :: rest, w => (m = false → u = v) ∧ Chain u rest w

structure Cell.Invariant (c : Cell α) : Prop where
  /-- The echoing end has sent what it holds, unless it is going to. -/
  sent : (c.ends .echoing).dirty = false →
    (c.ends .echoing).sent = (c.ends .echoing).value
  chain : Chain (c.ends .plain).arrived (c.jobs .echoing) (c.ends .echoing).sent
  agree : ¬c.Marked .plain →
    c.Marked .echoing ∨ (c.ends .plain).value = (c.ends .echoing).value

theorem Chain.append {v w u : α} {m : Bool} {jobs : List (α × Bool)}
    (h : Chain v jobs w) (hu : m = false → u = w) :
    Chain v (jobs ++ [(u, m)]) u := by
  induction jobs generalizing v with
  | nil =>
      refine ⟨fun hm => ?_, rfl⟩
      rw [hu hm]
      exact h.symm
  | cons job rest ih =>
      exact ⟨h.1, ih h.2⟩

theorem Chain.eq_of_unmarked {v w : α} {jobs : List (α × Bool)}
    (h : Chain v jobs w) (hunmarked : ∀ job ∈ jobs, job.2 = false) : v = w := by
  induction jobs generalizing v with
  | nil => exact h
  | cons job rest ih =>
      have hhead := h.1 (hunmarked job List.mem_cons_self)
      rw [← hhead]
      exact ih h.2 fun job' hjob' => hunmarked job' (List.mem_cons_of_mem _ hjob')

theorem Cell.Invariant.write {c : Cell α} (h : c.Invariant) (side : Side) (v : α) :
    Cell.Invariant
      { c with
        ends := Function.update c.ends side
          { c.ends side with value := v, dirty := true } } := by
  cases side with
  | plain =>
      exact
        { sent := by simpa using h.sent
          chain := by simpa using h.chain
          agree := fun hunmarked => absurd (.inl (by simp)) hunmarked }
  | echoing =>
      exact
        { sent := by simp
          chain := by simpa using h.chain
          agree := fun _ => .inl (.inl (by simp)) }

theorem Cell.Invariant.snapshot {c : Cell α} (h : c.Invariant) (side : Side) (v : α)
    (hv : v = (c.ends side).value ∨
      ((c.ends side).dirty = false ∧ v = (c.ends side).sent)) :
    Cell.Invariant
      { ends := Function.update c.ends side
          { c.ends side with sent := v, dirty := false }
        jobs := Function.update c.jobs side
          (c.jobs side ++ [(v, (c.ends side).dirty)]) } := by
  -- The mark moves over to the new snapshot.
  have hmoved : ∀ side', Cell.Marked
      { ends := Function.update c.ends side
          { c.ends side with sent := v, dirty := false }
        jobs := Function.update c.jobs side
          (c.jobs side ++ [(v, (c.ends side).dirty)]) } side' ↔
      c.Marked side' := by
    intro side'
    cases side <;> cases side' <;>
      simp [Cell.Marked, Side.other, or_and_right, exists_or, or_comm, or_left_comm]
  cases side with
  | plain =>
      exact
        { sent := by simpa using h.sent
          chain := by simpa using h.chain
          agree := by
            rw [hmoved, hmoved]
            simpa using h.agree }
  | echoing =>
      have hvalue : (c.ends .echoing).dirty = false →
          v = (c.ends .echoing).sent := by
        intro hclean
        rcases hv with hval | hsent
        · rw [hval, h.sent hclean]
        · exact hsent.2
      exact
        { sent := fun _ => by
            rcases hv with hval | ⟨hclean, hsent⟩
            · simpa using hval
            · simpa [hsent] using h.sent hclean
          chain := by simpa using h.chain.append hvalue
          agree := by
            rw [hmoved, hmoved]
            simpa using h.agree }

theorem Cell.Invariant.arrive {c : Cell α} (h : c.Invariant) (side : Side) {v : α}
    {m : Bool} {rest : List (α × Bool)} (hjobs : c.jobs side = (v, m) :: rest) :
    Cell.Invariant
      { ends := Function.update c.ends side.other
          { c.ends side.other with
            arrived := v
            mark := (c.ends side.other).mark || m }
        jobs := Function.update c.jobs side rest } := by
  -- The mark moves over to the other end.
  have hmoved : ∀ side', Cell.Marked
      { ends := Function.update c.ends side.other
          { c.ends side.other with
            arrived := v
            mark := (c.ends side.other).mark || m }
        jobs := Function.update c.jobs side rest } side' ↔
      c.Marked side' := by
    intro side'
    cases side <;> cases side' <;>
      simp [Cell.Marked, Side.other, hjobs, or_comm, or_left_comm, or_assoc]
  cases side with
  | plain =>
      exact
        { sent := by simpa [Side.other] using h.sent
          chain := by simpa [Side.other] using h.chain
          agree := by
            rw [hmoved, hmoved]
            simpa [Side.other] using h.agree }
  | echoing =>
      have hchain := h.chain
      rw [hjobs] at hchain
      exact
        { sent := by simpa [Side.other] using h.sent
          chain := by simpa [Side.other] using hchain.2
          agree := by
            rw [hmoved, hmoved]
            simpa [Side.other] using h.agree }

theorem Cell.Invariant.takeOver {c : Cell α} (h : c.Invariant) (side : Side) :
    Cell.Invariant
      { c with
        ends := Function.update c.ends side
          { c.ends side with
            value :=
              if (c.ends side).mark then (c.ends side).arrived
              else (c.ends side).value
            dirty :=
              (c.ends side).dirty ||
                (decide (side = .echoing) && (c.ends side).mark)
            mark := false } } := by
  cases hmark : (c.ends side).mark with
  | false =>
      have hsame : Function.update c.ends side
          { c.ends side with
            value :=
              if false = true then (c.ends side).arrived else (c.ends side).value
            dirty := (c.ends side).dirty || (decide (side = .echoing) && false)
            mark := false } = c.ends := by
        rw [Function.update_eq_self_iff]
        cases hend : c.ends side with
        | mk value dirty sent arrived mark =>
            rw [hend] at hmark
            simp [show mark = false from hmark]
      rw [hsame]
      exact h
  | true =>
      cases side with
      | echoing =>
          -- What it takes over is marked again, on its way back.
          exact
            { sent := by simp
              chain := by simpa using h.chain
              agree := fun _ => .inl (.inl (by simp)) }
      | plain =>
          refine
            { sent := by simpa using h.sent
              chain := by simpa using h.chain
              agree := ?_ }
          intro hunmarked
          by_cases hback : (c.ends .echoing).dirty = true ∨
              ∃ job ∈ c.jobs .echoing, job.2 = true
          · left
            rcases hback with hdirty | hjob
            · exact .inl (by simpa using hdirty)
            · exact .inr (.inl (by simpa using hjob))
          · -- Nothing else is on its way: the value is the other end's.
            right
            push Not at hback
            obtain ⟨hclean, hjobs⟩ := hback
            have harrived := h.chain.eq_of_unmarked
              (fun job hjob => by simpa using hjobs job hjob)
            have hvalue := h.sent (by simpa using hclean)
            simp [harrived, hvalue]

theorem Cell.Invariant.step {c c' : Cell α} (h : c.Invariant) (hstep : Step c c') :
    c'.Invariant := by
  cases hstep with
  | write side v => exact h.write side v
  | snapshot side v hv => exact h.snapshot side v hv
  | arrive side v m rest hjobs => exact h.arrive side hjobs
  | takeOver side => exact h.takeOver side

theorem Cell.Invariant.value_eq {c : Cell α} (h : c.Invariant)
    (hclean : ∀ side, (c.ends side).dirty = false)
    (hempty : ∀ side, c.jobs side = [])
    (hunmarked : ∀ side, (c.ends side).mark = false) :
    (c.ends .plain).value = (c.ends .echoing).value := by
  have hnone : ∀ side, ¬c.Marked side := by
    intro side hmarked
    rcases hmarked with hdirty | ⟨job, hjob, -⟩ | hmark
    · simp [hclean] at hdirty
    · simp [hempty] at hjob
    · simp [hunmarked] at hmark
  rcases h.agree (hnone .plain) with hmarked | heq
  · exact absurd hmarked (hnone .echoing)
  · exact heq

end EchoExchange
