import Mathlib.Data.List.Basic
import Mathlib.Tactic.Ring

/-!
# Reading a message out of memory

A parser which is given only the address of a message reads one part after the
other from there on.  A reader records which addresses it reads and which ones
the message claims to fill, so that one can tell whether it stayed inside the
message.  It may change a state while it reads, and refuse to go on.
-/

namespace Iocom

/-- What a reader leaves: there is no value when it has refused.  Each address
which was read is claimed, and so is what a refused part would have filled. -/
structure Reading (σ α : Type) where
  value : Option α
  state : σ
  next : ℕ
  reads : List ℕ
  claims : List ℕ

/-- A reader takes the memory, the position in it and the state. -/
structure MemoryReader (σ α : Type) where
  read : (ℕ → UInt8) → ℕ → σ → Reading σ α

namespace MemoryReader

variable {σ α β : Type}

protected def pure (a : α) : MemoryReader σ α :=
  ⟨fun _ pos s => ⟨some a, s, pos, [], []⟩⟩

protected def bind (r : MemoryReader σ α) (f : α → MemoryReader σ β) : MemoryReader σ β :=
  ⟨fun mem pos s =>
    let first := r.read mem pos s
    match first.value with
    | none => ⟨none, first.state, first.next, first.reads, first.claims⟩
    | some a =>
        let rest := (f a).read mem first.next first.state
        ⟨rest.value, rest.state, rest.next, first.reads ++ rest.reads,
          first.claims ++ rest.claims⟩⟩

instance : Monad (MemoryReader σ) where
  pure := MemoryReader.pure
  bind := MemoryReader.bind

def byte : MemoryReader σ UInt8 :=
  ⟨fun mem pos s => ⟨some (mem pos), s, pos + 1, [pos], [pos]⟩⟩

def bytes (n : ℕ) : MemoryReader σ (List UInt8) :=
  ⟨fun mem pos s =>
    ⟨some ((List.range' pos n).map mem), s, pos + n, List.range' pos n, List.range' pos n⟩⟩

/-- Nothing more is read; the message claims some more bytes. -/
def refuse (claimed : ℕ) : MemoryReader σ α :=
  ⟨fun _ pos s => ⟨none, s, pos, [], List.range' pos claimed⟩⟩

/-- A part which the message may leave out. -/
def optional (present : Bool) (r : MemoryReader σ α) (absent : α) : MemoryReader σ α :=
  if present then r else pure absent

def getState : MemoryReader σ σ := ⟨fun _ pos s => ⟨some s, s, pos, [], []⟩⟩

def modifyState (f : σ → σ) : MemoryReader σ Unit :=
  ⟨fun _ pos s => ⟨some (), f s, pos, [], []⟩⟩

/-- Every address which is read comes before `size`. -/
def Inside (r : MemoryReader σ α) (size : ℕ) (mem : ℕ → UInt8) (pos : ℕ) (s : σ) : Prop :=
  ∀ i ∈ (r.read mem pos s).reads, i < size

section Inside

variable {size pos : ℕ} {mem : ℕ → UInt8} {s : σ}

theorem bind_of_none {r : MemoryReader σ α} (f : α → MemoryReader σ β)
    (h : (r.read mem pos s).value = none) :
    (r >>= f).read mem pos s =
      ⟨none, (r.read mem pos s).state, (r.read mem pos s).next, (r.read mem pos s).reads,
        (r.read mem pos s).claims⟩ := by
  change (MemoryReader.bind r f).read mem pos s = _
  unfold MemoryReader.bind
  dsimp only
  rw [h]

theorem bind_of_some {r : MemoryReader σ α} (f : α → MemoryReader σ β) {a : α}
    (h : (r.read mem pos s).value = some a) :
    (r >>= f).read mem pos s =
      ⟨((f a).read mem (r.read mem pos s).next (r.read mem pos s).state).value,
        ((f a).read mem (r.read mem pos s).next (r.read mem pos s).state).state,
        ((f a).read mem (r.read mem pos s).next (r.read mem pos s).state).next,
        (r.read mem pos s).reads ++ ((f a).read mem (r.read mem pos s).next (r.read mem pos s).state).reads,
        (r.read mem pos s).claims ++ ((f a).read mem (r.read mem pos s).next (r.read mem pos s).state).claims⟩ := by
  change (MemoryReader.bind r f).read mem pos s = _
  unfold MemoryReader.bind
  dsimp only
  rw [h]

theorem inside_bind {r : MemoryReader σ α} {f : α → MemoryReader σ β} :
    (r >>= f).Inside size mem pos s ↔
      r.Inside size mem pos s ∧
        ∀ a, (r.read mem pos s).value = some a →
          (f a).Inside size mem (r.read mem pos s).next (r.read mem pos s).state := by
  unfold Inside
  cases h : (r.read mem pos s).value with
  | none =>
      rw [bind_of_none f h]
      constructor
      · exact fun hreads => ⟨hreads, fun a ha => (by cases ha)⟩
      · exact fun hreads => hreads.1
  | some a =>
      rw [bind_of_some f h]
      simp only [List.mem_append, Option.some.injEq]
      constructor
      · intro hreads
        refine ⟨fun i hi => hreads i (Or.inl hi), ?_⟩
        rintro _ rfl i hi
        exact hreads i (Or.inr hi)
      · rintro ⟨hfirst, hrest⟩ i (hi | hi)
        · exact hfirst i hi
        · exact hrest a rfl i hi

theorem inside_pure (a : α) : (pure a : MemoryReader σ α).Inside size mem pos s :=
  fun _ hi => (by cases hi)

theorem inside_byte : (byte : MemoryReader σ UInt8).Inside size mem pos s ↔ pos < size := by
  unfold Inside byte
  simp only [List.mem_singleton, forall_eq]

theorem inside_bytes {n : ℕ} (hpos : pos ≤ size) :
    (bytes n : MemoryReader σ (List UInt8)).Inside size mem pos s ↔ pos + n ≤ size := by
  unfold Inside bytes
  simp only [List.mem_range'_1]
  constructor
  · intro hreads
    cases n with
    | zero => exact hpos
    | succ n =>
        have hlast := hreads (pos + n) ⟨by omega, by omega⟩
        omega
  · intro hle i hi
    omega

theorem inside_refuse (n : ℕ) : (refuse n : MemoryReader σ α).Inside size mem pos s :=
  fun _ hi => (by cases hi)

theorem inside_modifyState (f : σ → σ) : (modifyState f).Inside size mem pos s :=
  fun _ hi => (by cases hi)

end Inside

/-! ## Messages which claim more than there is -/

/-- What the reader leaves of the state, whether it refuses or not. -/
def Keeps (R : σ → σ → Prop) (r : MemoryReader σ α) : Prop :=
  ∀ mem pos s, R s (r.read mem pos s).state

/-- As long as the reader stays inside, a message which claims more is refused,
and leaves of the state what `R` tells. -/
def Refuses (R : σ → σ → Prop) (r : MemoryReader σ α) : Prop :=
  ∀ size mem pos s, r.Inside size mem pos s →
    (∃ i ∈ (r.read mem pos s).claims, size ≤ i) →
      (r.read mem pos s).value = none ∧ R s (r.read mem pos s).state

section Refuses

variable {R : σ → σ → Prop}

theorem optional_rule {P : MemoryReader σ α → Prop} {r : MemoryReader σ α} (present : Bool)
    {absent : α} (hr : P r) (habsent : P (pure absent)) :
    P (MemoryReader.optional present r absent) := by
  cases present with
  | false => exact habsent
  | true => exact hr

/-- The message claims only what is read. -/
def Exact (r : MemoryReader σ α) : Prop :=
  ∀ mem pos s, (r.read mem pos s).claims = (r.read mem pos s).reads

theorem Exact.refuses {r : MemoryReader σ α} (h : r.Exact) : r.Refuses R := by
  rintro size mem pos s hinside ⟨i, hi, hsize⟩
  rw [h] at hi
  have hlt := hinside i hi
  omega

theorem Exact.bind {r : MemoryReader σ α} {f : α → MemoryReader σ β} (hr : r.Exact)
    (hf : ∀ a, (f a).Exact) : (r >>= f).Exact := by
  intro mem pos s
  cases h : (r.read mem pos s).value with
  | none =>
      rw [bind_of_none f h]
      exact hr mem pos s
  | some a =>
      rw [bind_of_some f h]
      dsimp only
      rw [hr, hf a]

/-- The reader takes nothing from the message. -/
def Idle (r : MemoryReader σ α) : Prop :=
  ∀ mem pos s, (r.read mem pos s).reads = [] ∧ (r.read mem pos s).claims = []

theorem Idle.bind {r : MemoryReader σ α} {f : α → MemoryReader σ β} (hr : r.Idle)
    (hf : ∀ a, (f a).Idle) : (r >>= f).Idle := by
  intro mem pos s
  obtain ⟨hreads, hclaims⟩ := hr mem pos s
  cases h : (r.read mem pos s).value with
  | none =>
      rw [bind_of_none f h]
      exact ⟨hreads, hclaims⟩
  | some a =>
      obtain ⟨hreads', hclaims'⟩ := hf a mem (r.read mem pos s).next (r.read mem pos s).state
      rw [bind_of_some f h]
      dsimp only
      rw [hreads, hclaims, hreads', hclaims']
      exact ⟨rfl, rfl⟩

theorem Keeps.bind {r : MemoryReader σ α} {f : α → MemoryReader σ β}
    (htrans : ∀ s t u, R s t → R t u → R s u) (hr : r.Keeps R) (hf : ∀ a, (f a).Keeps R) :
    (r >>= f).Keeps R := by
  intro mem pos s
  cases h : (r.read mem pos s).value with
  | none =>
      rw [bind_of_none f h]
      exact hr mem pos s
  | some a =>
      rw [bind_of_some f h]
      exact htrans _ _ _ (hr mem pos s) (hf a _ _ _)

theorem Refuses.bind {r : MemoryReader σ α} {f : α → MemoryReader σ β}
    (htrans : ∀ s t u, R s t → R t u → R s u) (hkeeps : r.Keeps R) (hr : r.Refuses R)
    (hf : ∀ a, (f a).Refuses R) : (r >>= f).Refuses R := by
  intro size mem pos s hinside hclaims
  obtain ⟨hfirst, hrest⟩ := inside_bind.mp hinside
  cases h : (r.read mem pos s).value with
  | none =>
      rw [bind_of_none f h] at hclaims ⊢
      exact ⟨rfl, hkeeps mem pos s⟩
  | some a =>
      rw [bind_of_some f h] at hclaims ⊢
      obtain ⟨i, hi, hsize⟩ := hclaims
      rcases List.mem_append.mp hi with hi | hi
      · -- A part which was accepted claims nothing which it does not read.
        have hrefused := hr size mem pos s hfirst ⟨i, hi, hsize⟩
        rw [h] at hrefused
        exact absurd hrefused.1 (by simp)
      · obtain ⟨hvalue, hstate⟩ := hf a size mem _ _ (hrest a h) ⟨i, hi, hsize⟩
        exact ⟨hvalue, htrans _ _ _ (hkeeps mem pos s) hstate⟩

/-- The reader keeps the state as `R` tells, and refuses what claims too much. -/
structure Guarded (R : σ → σ → Prop) (r : MemoryReader σ α) : Prop where
  keeps : r.Keeps R
  refuses : r.Refuses R

theorem Guarded.bind {r : MemoryReader σ α} {f : α → MemoryReader σ β}
    (htrans : ∀ s t u, R s t → R t u → R s u) (hr : r.Guarded R)
    (hf : ∀ a, (f a).Guarded R) : (r >>= f).Guarded R where
  keeps := hr.keeps.bind htrans fun a => (hf a).keeps
  refuses := hr.refuses.bind htrans hr.keeps fun a => (hf a).refuses

theorem Exact.guarded {r : MemoryReader σ α} (h : r.Exact) (hkeeps : r.Keeps R) :
    r.Guarded R where
  keeps := hkeeps
  refuses := h.refuses

end Refuses

end MemoryReader

end Iocom
