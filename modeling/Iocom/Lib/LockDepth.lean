import Mathlib.Algebra.Group.Int.Defs

/-!
# Programs which take a lock

The holder of a lock may take it again, so a lock has a depth.  A program does not see
the depth; it changes a state, gives a value and leaves the lock deeper by some number.
-/

/-- What a program has done when it returns; `net` is by how much the lock is deeper
than before. -/
structure LockOutcome (σ α : Type) where
  value : α
  state : σ
  net : ℤ
  deriving DecidableEq

/-- A program over the states `σ`. -/
structure LockProgram (σ α : Type) where
  run : σ → LockOutcome σ α

namespace LockProgram

variable {σ τ α β : Type}

instance : Monad (LockProgram σ) where
  pure a := ⟨fun s => ⟨a, s, 0⟩⟩
  bind x f :=
    ⟨fun s =>
      let first := x.run s
      let last := (f first.value).run first.state
      ⟨last.value, last.state, first.net + last.net⟩⟩

def lock : LockProgram σ Unit := ⟨fun s => ⟨(), s, 1⟩⟩

def unlock : LockProgram σ Unit := ⟨fun s => ⟨(), s, -1⟩⟩

def read : LockProgram σ σ := ⟨fun s => ⟨s, s, 0⟩⟩

def change (f : σ → σ) : LockProgram σ Unit := ⟨fun s => ⟨(), f s, 0⟩⟩

/-- A program over a part of the state, which `put` puts back. -/
def part (x : LockProgram τ α) (t : τ) (put : τ → σ → σ) : LockProgram σ α :=
  ⟨fun s => ⟨(x.run t).value, put (x.run t).state s, (x.run t).net⟩⟩

/-- The program leaves the lock as deep as it has been. -/
def Balanced (x : LockProgram σ α) : Prop := ∀ s, (x.run s).net = 0

@[simp] theorem run_pure (a : α) (s : σ) : (pure a : LockProgram σ α).run s = ⟨a, s, 0⟩ := rfl

@[simp] theorem run_lock (s : σ) : lock.run s = ⟨(), s, 1⟩ := rfl

@[simp] theorem run_unlock (s : σ) : unlock.run s = ⟨(), s, -1⟩ := rfl

@[simp] theorem run_read (s : σ) : read.run s = ⟨s, s, 0⟩ := rfl

@[simp] theorem run_change (f : σ → σ) (s : σ) : (change f).run s = ⟨(), f s, 0⟩ := rfl

@[simp] theorem run_part (x : LockProgram τ α) (t : τ) (put : τ → σ → σ) (s : σ) :
    (part x t put).run s = ⟨(x.run t).value, put (x.run t).state s, (x.run t).net⟩ := rfl

@[simp] theorem run_bind (x : LockProgram σ α) (f : α → LockProgram σ β) (s : σ) :
    (x >>= f).run s =
      ⟨((f (x.run s).value).run (x.run s).state).value,
        ((f (x.run s).value).run (x.run s).state).state,
        (x.run s).net + ((f (x.run s).value).run (x.run s).state).net⟩ := rfl

end LockProgram
