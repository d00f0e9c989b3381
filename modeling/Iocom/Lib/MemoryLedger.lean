import Mathlib.Algebra.Order.Group.Multiset
import Mathlib.Tactic.Abel
import Mathlib.Tactic.Common

/-!
# What a program holds of its allocator

The calls a program has made of its memory functions are kept, the latest first.
What is live after them is a multiset; a program which knows what it holds proves
that each block it frees is live.  Blocks are compared under a `key`: with the
address alone, or with the address and the size which was asked for.
-/

namespace MemoryLedger

/-- A call of the allocator, or a buffer which is written to or read. -/
inductive Call where
  | malloc (request : ℤ) (result : Option ℤ)
  | free (block bytes : ℤ)
  | touch (buf : Option ℤ)
  deriving DecidableEq

variable {κ : Type*}

theorem exchange {x y p q a b : Multiset κ} (h : x + p = y + q) :
    x + a + b + p = y + a + b + q :=
  calc x + a + b + p = x + p + (a + b) := by abel
    _ = y + q + (a + b) := by rw [h]
    _ = y + a + b + q := by abel

variable [DecidableEq κ] (key : ℤ × ℤ → κ)

/-- What is allocated after the calls. -/
def live : List Call → Multiset κ
  | [] => 0
  | .malloc request (some block) :: calls => key (block, request) ::ₘ live calls
  | .malloc _ none :: calls => live calls
  | .free block bytes :: calls => (live calls).erase (key (block, bytes))
  | .touch _ :: calls => live calls

/-- What was freed was live. -/
def FreesLive : List Call → Prop
  | [] => True
  | .free block bytes :: calls => key (block, bytes) ∈ live key calls ∧ FreesLive calls
  | .malloc _ _ :: calls => FreesLive calls
  | .touch _ :: calls => FreesLive calls

/-- The program holds just what is live, and has freed nothing else. -/
structure Holds (calls : List Call) (held : Multiset κ) : Prop where
  live : live key calls = held
  frees : FreesLive key calls

variable {key} {calls : List Call} {held : Multiset κ}

namespace Holds

theorem nil : Holds key [] 0 := ⟨rfl, trivial⟩

theorem of_eq {held' : Multiset κ} (h : Holds key calls held) (heq : held = held') :
    Holds key calls held' := heq ▸ h

theorem malloc_some (h : Holds key calls held) (request block : ℤ) :
    Holds key (.malloc request (some block) :: calls) (key (block, request) ::ₘ held) :=
  ⟨congrArg _ h.live, h.frees⟩

theorem malloc_none (h : Holds key calls held) (request : ℤ) :
    Holds key (.malloc request none :: calls) held := ⟨h.live, h.frees⟩

theorem touch (h : Holds key calls held) (buf : Option ℤ) :
    Holds key (.touch buf :: calls) held := ⟨h.live, h.frees⟩

theorem free {block bytes : ℤ} (h : Holds key calls (key (block, bytes) ::ₘ held)) :
    Holds key (.free block bytes :: calls) held where
  live := by
    change (MemoryLedger.live key calls).erase (key (block, bytes)) = held
    rw [h.live, Multiset.erase_cons_head]
  frees := by
    refine ⟨?_, h.frees⟩
    rw [h.live]
    exact Multiset.mem_cons_self _ _

end Holds

theorem FreesLive.of_append {newer : List Call} (h : FreesLive key (newer ++ calls)) :
    FreesLive key calls := by
  induction newer with
  | nil => exact h
  | cons call newer ih =>
      cases call with
      | malloc request result => exact ih h
      | free block bytes => exact ih h.2
      | touch buf => exact ih h

theorem malloc_of_mem_live {block bytes : ℤ} (h : (block, bytes) ∈ MemoryLedger.live id calls) :
    Call.malloc bytes (some block) ∈ calls := by
  induction calls with
  | nil => exact absurd h (Multiset.notMem_zero _)
  | cons call calls ih =>
      cases call with
      | malloc request result =>
          cases result with
          | none => exact List.mem_cons_of_mem _ (ih h)
          | some other =>
              rcases Multiset.mem_cons.mp h with heq | h
              · cases heq
                exact List.mem_cons_self
              · exact List.mem_cons_of_mem _ (ih h)
      | free other size => exact List.mem_cons_of_mem _ (ih (Multiset.mem_of_mem_erase h))
      | touch buf => exact List.mem_cons_of_mem _ (ih h)

end MemoryLedger
