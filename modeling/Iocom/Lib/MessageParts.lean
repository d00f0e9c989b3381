import Iocom.Lib.MessageLayout

/-!
# Reading back what was written

A reader takes some bytes if it finds their value wherever the memory holds them and goes
on behind them.  What takes the parts of a message one after the other takes the message.
A reading comes down to another one if the two have the same outcome.
-/

namespace Iocom

/-- The memory holds the bytes from an address on. -/
def HoldsFrom (mem : ℕ → UInt8) (pos : ℕ) (bytes : List UInt8) : Prop :=
  (List.range' pos bytes.length).map mem = bytes

variable {mem : ℕ → UInt8} {pos : ℕ}

@[simp] theorem holdsFrom_cons {b : UInt8} {bytes : List UInt8} :
    HoldsFrom mem pos (b :: bytes) ↔ mem pos = b ∧ HoldsFrom mem (pos + 1) bytes := by
  simp [HoldsFrom, List.range'_succ]

@[simp] theorem holdsFrom_append {first rest : List UInt8} :
    HoldsFrom mem pos (first ++ rest) ↔
      HoldsFrom mem pos first ∧ HoldsFrom mem (pos + first.length) rest := by
  unfold HoldsFrom
  rw [List.length_append, ← List.range'_append_1, List.map_append]
  constructor
  · exact fun h => List.append_inj h (by simp)
  · rintro ⟨hfirst, hrest⟩
    rw [hfirst, hrest]

theorem HoldsMessage.holdsFrom {message : List UInt8} (h : HoldsMessage mem message) :
    HoldsFrom mem 0 message := by
  refine List.ext_get (by simp) fun i _ hi => ?_
  simpa using h i hi

namespace MemoryReader

variable {σ α β : Type} {s : σ} {a : α} {b : β} {bytes rest : List UInt8}

/-- The reader finds the value of the bytes and goes on behind them. -/
def Takes (r : MemoryReader σ α) (bytes : List UInt8) (a : α) : Prop :=
  ∀ mem pos s, HoldsFrom mem pos bytes →
    (r.read mem pos s).value = some a ∧ (r.read mem pos s).state = s ∧
      (r.read mem pos s).next = pos + bytes.length

/-- The first reading has the outcome of the second one. -/
structure Reaches (mem : ℕ → UInt8) (r : MemoryReader σ α) (pos : ℕ) (s : σ)
    (r' : MemoryReader σ α) (pos' : ℕ) (s' : σ) : Prop where
  value : (r.read mem pos s).value = (r'.read mem pos' s').value
  state : (r.read mem pos s).state = (r'.read mem pos' s').state
  next : (r.read mem pos s).next = (r'.read mem pos' s').next

theorem Reaches.trans {r r' r'' : MemoryReader σ α} {pos' pos'' : ℕ} {s' s'' : σ}
    (h : Reaches mem r pos s r' pos' s') (h' : Reaches mem r' pos' s' r'' pos'' s'') :
    Reaches mem r pos s r'' pos'' s'' where
  value := h.value.trans h'.value
  state := h.state.trans h'.state
  next := h.next.trans h'.next

/-- Behind a part which is taken, the rest of the message is read. -/
theorem Takes.reaches {r : MemoryReader σ α} (h : r.Takes bytes a)
    (hmem : HoldsFrom mem pos bytes) (f : α → MemoryReader σ β) :
    Reaches mem (r >>= f) pos s (f a) (pos + bytes.length) s := by
  obtain ⟨hvalue, hstate, hnext⟩ := h mem pos s hmem
  have hread := bind_of_some f hvalue
  rw [hstate, hnext] at hread
  constructor <;> rw [hread]

theorem reaches_modifyState (g : σ → σ) (f : Unit → MemoryReader σ β) :
    Reaches mem (modifyState g >>= f) pos s (f ()) pos (g s) := by
  constructor <;> rfl

theorem Takes.bind {r : MemoryReader σ α} {f : α → MemoryReader σ β} (hr : r.Takes bytes a)
    (hf : (f a).Takes rest b) : (r >>= f).Takes (bytes ++ rest) b := by
  intro mem pos s hmem
  obtain ⟨hbytes, hrest⟩ := holdsFrom_append.mp hmem
  have hreach := hr.reaches (s := s) hbytes f
  obtain ⟨hvalue, hstate, hnext⟩ := hf mem _ s hrest
  rw [hreach.value, hreach.state, hreach.next, List.length_append, ← Nat.add_assoc]
  exact ⟨hvalue, hstate, hnext⟩

theorem takes_pure (a : α) : (pure a : MemoryReader σ α).Takes [] a :=
  fun _ _ _ _ => ⟨rfl, rfl, rfl⟩

theorem Takes.bind_pure {r : MemoryReader σ α} (hr : r.Takes bytes a) (f : α → β) :
    (r >>= fun a => pure (f a)).Takes bytes (f a) := by
  have hbind := hr.bind (f := fun a => pure (f a)) (takes_pure (f a))
  rwa [List.append_nil] at hbind

theorem takes_byte (c : UInt8) : (byte : MemoryReader σ UInt8).Takes [c] c := by
  intro mem pos s hmem
  exact ⟨congrArg some (holdsFrom_cons.mp hmem).1, rfl, rfl⟩

theorem takes_bytes (bytes : List UInt8) :
    (MemoryReader.bytes bytes.length : MemoryReader σ (List UInt8)).Takes bytes bytes :=
  fun _ _ _ hmem => ⟨congrArg some hmem, rfl, rfl⟩

/-- A part which may be left out is there exactly if it is announced. -/
theorem Takes.optional {r : MemoryReader σ α} {absent : α} (present : Bool)
    (h : present = true → r.Takes bytes a) :
    (MemoryReader.optional present r absent).Takes (if present then bytes else [])
      (if present then a else absent) := by
  cases present with
  | false => exact takes_pure absent
  | true => exact h rfl

theorem value_bind_of_none {r : MemoryReader σ α} (f : α → MemoryReader σ β)
    (h : (r.read mem pos s).value = none) : ((r >>= f).read mem pos s).value = none := by
  rw [bind_of_none f h]

end MemoryReader

end Iocom
