import Iocom.Lib.MemoryReader

/-!
# Layouts of messages

A layout describes the parts of a message one after the other: a byte, on which
the layout of what follows may depend, and any number of bytes.  A reader which
follows the layout stays inside the message exactly when the message has room for
the parts, up to where it is refused.
-/

namespace Iocom

inductive MessageLayout where
  | done
  | refused
  | byte (rest : UInt8 → MessageLayout)
  | bytes (n : ℕ) (rest : MessageLayout)

namespace MessageLayout

def append : MessageLayout → MessageLayout → MessageLayout
  | done, layout => layout
  | refused, _ => refused
  | byte rest, layout => byte fun b => (rest b).append layout
  | bytes n rest, layout => bytes n (rest.append layout)

theorem append_done (layout : MessageLayout) : layout.append done = layout := by
  induction layout with
  | done => rfl
  | refused => rfl
  | byte rest ih => exact congrArg byte (funext ih)
  | bytes n rest ih => exact congrArg (bytes n) ih

theorem append_assoc (first second third : MessageLayout) :
    (first.append second).append third = first.append (second.append third) := by
  induction first with
  | done => rfl
  | refused => rfl
  | byte rest ih => exact congrArg byte (funext ih)
  | bytes n rest ih => exact congrArg (bytes n) ih

/-- The message has room for its parts, up to where it is refused. -/
def fit : MessageLayout → List UInt8 → Bool
  | done, _ => true
  | refused, _ => true
  | byte _, [] => false
  | byte rest, first :: message => (rest first).fit message
  | bytes n rest, message => decide (n ≤ message.length) && rest.fit (message.drop n)

theorem fit_bytes_succ (n : ℕ) (rest : MessageLayout) (message : List UInt8) :
    (bytes (n + 1) rest).fit message = (byte fun _ => bytes n rest).fit message := by
  cases message with
  | nil => rfl
  | cons first message =>
      simp only [fit, List.length_cons, List.drop_succ_cons, Nat.add_le_add_iff_right]

end MessageLayout

/-- The memory holds the message at its beginning. -/
def HoldsMessage (mem : ℕ → UInt8) (message : List UInt8) : Prop :=
  ∀ i (h : i < message.length), mem i = message.get ⟨i, h⟩

theorem HoldsMessage.drop {mem : ℕ → UInt8} {message : List UInt8}
    (hmem : HoldsMessage mem message) {pos : ℕ} (hpos : pos < message.length) :
    message.drop pos = mem pos :: message.drop (pos + 1) := by
  rw [hmem pos hpos]
  exact List.drop_eq_getElem_cons hpos

namespace MemoryReader

variable {σ α β : Type}

/-- The reader takes the parts of the layout from the memory. -/
structure Follows (r : MemoryReader σ α) (layout : MessageLayout) : Prop where
  next_le : ∀ {size mem pos s a}, pos ≤ size → r.Inside size mem pos s →
    (r.read mem pos s).value = some a → (r.read mem pos s).next ≤ size
  fit_iff : ∀ {message : List UInt8} {mem pos s} (rest : MessageLayout),
    HoldsMessage mem message → pos ≤ message.length →
      ((layout.append rest).fit (message.drop pos) = true ↔
        r.Inside message.length mem pos s ∧
          ∀ a, (r.read mem pos s).value = some a →
            rest.fit (message.drop (r.read mem pos s).next) = true)

/-- Layouts which the same messages fit are followed by the same readers. -/
theorem Follows.congr {r : MemoryReader σ α} {layout layout' : MessageLayout}
    (h : r.Follows layout)
    (hfit : ∀ rest message, (layout'.append rest).fit message = (layout.append rest).fit message) :
    r.Follows layout' where
  next_le := h.next_le
  fit_iff rest hmem hpos := by
    rw [hfit]
    exact h.fit_iff rest hmem hpos

theorem follows_pure (a : α) : (pure a : MemoryReader σ α).Follows .done where
  next_le hpos _ _ := hpos
  fit_iff rest hmem hpos := by
    constructor
    · exact fun hfit => ⟨inside_pure a, fun b _ => hfit⟩
    · exact fun hfit => hfit.2 a rfl

theorem follows_refuse (n : ℕ) : (refuse n : MemoryReader σ α).Follows .refused where
  next_le _ _ hvalue := by cases hvalue
  fit_iff rest hmem hpos := by
    constructor
    · exact fun hfit => ⟨inside_refuse n, fun b hb => (by cases hb)⟩
    · exact fun _ => rfl

theorem follows_modifyState (f : σ → σ) : (modifyState f).Follows .done where
  next_le hpos _ _ := hpos
  fit_iff rest hmem hpos := by
    constructor
    · exact fun hfit => ⟨inside_modifyState f, fun b _ => hfit⟩
    · exact fun hfit => hfit.2 () rfl

theorem follows_bytes (n : ℕ) : (bytes n : MemoryReader σ (List UInt8)).Follows (.bytes n .done) where
  next_le hpos hinside _ := (inside_bytes hpos).mp hinside
  fit_iff {message mem pos s} rest hmem hpos := by
    rw [inside_bytes hpos, MessageLayout.append, MessageLayout.append, MessageLayout.fit,
      List.length_drop, List.drop_drop, Bool.and_eq_true, decide_eq_true_eq]
    constructor
    · rintro ⟨hn, hfit⟩
      exact ⟨by omega, fun a _ => hfit⟩
    · rintro ⟨hn, hfit⟩
      exact ⟨by omega, hfit _ rfl⟩

theorem Follows.bind {r : MemoryReader σ α} {f : α → MemoryReader σ β}
    {first second : MessageLayout} (hr : r.Follows first) (hf : ∀ a, (f a).Follows second) :
    (r >>= f).Follows (first.append second) where
  next_le {size mem pos s b} hpos hinside hvalue := by
    obtain ⟨hfirst, hsecond⟩ := inside_bind.mp hinside
    cases h : (r.read mem pos s).value with
    | none =>
        rw [bind_of_none f h] at hvalue
        cases hvalue
    | some a =>
        rw [bind_of_some f h] at hvalue ⊢
        exact (hf a).next_le (hr.next_le hpos hfirst h) (hsecond a h) hvalue
  fit_iff {message mem pos s} rest hmem hpos := by
    rw [MessageLayout.append_assoc, hr.fit_iff (s := s) _ hmem hpos, inside_bind]
    cases h : (r.read mem pos s).value with
    | none =>
        rw [bind_of_none f h]
        simp
    | some a =>
        rw [bind_of_some f h]
        simp only [Option.some.injEq, forall_eq']
        rw [and_assoc, and_congr_right_iff]
        intro hinside
        exact (hf a).fit_iff rest hmem (hr.next_le hpos hinside h)

theorem follows_byte_bind {f : UInt8 → MemoryReader σ β} {layout : UInt8 → MessageLayout}
    (hf : ∀ b, (f b).Follows (layout b)) : (byte >>= f).Follows (.byte layout) where
  next_le {size mem pos s b} hpos hinside hvalue := by
    obtain ⟨hfirst, hsecond⟩ := inside_bind.mp hinside
    have hbyte : (byte.read mem pos s).value = some (mem pos) := rfl
    rw [bind_of_some f hbyte] at hvalue ⊢
    exact (hf _).next_le (inside_byte.mp hfirst) (hsecond _ hbyte) hvalue
  fit_iff {message mem pos s} rest hmem hpos := by
    have hbyte : (byte.read mem pos s).value = some (mem pos) := rfl
    rw [inside_bind, inside_byte, bind_of_some f hbyte, hbyte]
    simp only [Option.some.injEq, forall_eq']
    by_cases hlt : pos < message.length
    · have hiff := (hf (mem pos)).fit_iff (s := s) rest hmem (Nat.succ_le_of_lt hlt)
      rw [hmem.drop hlt, MessageLayout.append, MessageLayout.fit]
      rw [hiff]
      exact ⟨fun h => ⟨⟨hlt, h.1⟩, h.2⟩, fun h => ⟨h.1.2, h.2⟩⟩
    · rw [List.drop_eq_nil_of_le (by omega), MessageLayout.append, MessageLayout.fit]
      constructor
      · exact fun h => absurd h (by decide)
      · exact fun h => absurd h.1.1 hlt

/-- What is computed at the end takes nothing from the message. -/
theorem Follows.bind_done {r : MemoryReader σ α} {f : α → MemoryReader σ β}
    {layout : MessageLayout} (hr : r.Follows layout) (hf : ∀ a, (f a).Follows .done) :
    (r >>= f).Follows layout := by
  have hbind := hr.bind hf
  rwa [MessageLayout.append_done] at hbind

theorem Follows.optional {r : MemoryReader σ α} {layout : MessageLayout} (present : Bool)
    (hr : r.Follows layout) (absent : α) :
    (MemoryReader.optional present r absent).Follows (if present then layout else .done) := by
  cases present with
  | false => exact follows_pure absent
  | true => exact hr

/-! ## Whole messages -/

/-- The reader stays inside a message exactly when the message fits the layout. -/
def BoundedBy (r : MemoryReader σ α) (layout : MessageLayout) : Prop :=
  ∀ ⦃message : List UInt8⦄ ⦃mem pos s⦄, HoldsMessage mem message → pos ≤ message.length →
    (layout.fit (message.drop pos) = true ↔ r.Inside message.length mem pos s)

theorem Follows.boundedBy {r : MemoryReader σ α} {layout : MessageLayout}
    (h : r.Follows layout) : r.BoundedBy layout := by
  intro message mem pos s hmem hpos
  have hiff := h.fit_iff (s := s) .done hmem hpos
  rw [MessageLayout.append_done] at hiff
  rw [hiff]
  constructor
  · exact fun hinside => hinside.1
  · exact fun hinside => ⟨hinside, fun a _ => rfl⟩

theorem Idle.boundedBy {r : MemoryReader σ α} (h : r.Idle) : r.BoundedBy .done := by
  intro message mem pos s hmem hpos
  constructor
  · intro _ i hi
    rw [(h mem pos s).1] at hi
    cases hi
  · exact fun _ => rfl

theorem Follows.bind_boundedBy {r : MemoryReader σ α} {f : α → MemoryReader σ β}
    {first second : MessageLayout} (hr : r.Follows first)
    (hf : ∀ a, (f a).BoundedBy second) : (r >>= f).BoundedBy (first.append second) := by
  intro message mem pos s hmem hpos
  rw [hr.fit_iff (s := s) _ hmem hpos, inside_bind, and_congr_right_iff]
  intro hinside
  constructor
  · exact fun hfit a ha => (hf a hmem (hr.next_le hpos hinside ha)).mp (hfit a ha)
  · exact fun hrest a ha => (hf a hmem (hr.next_le hpos hinside ha)).mpr (hrest a ha)

theorem Follows.bind_idle {r : MemoryReader σ α} {f : α → MemoryReader σ β}
    {layout : MessageLayout} (hr : r.Follows layout) (hf : ∀ a, (f a).Idle) :
    (r >>= f).BoundedBy layout := by
  have hbind := hr.bind_boundedBy fun a => (hf a).boundedBy
  rwa [MessageLayout.append_done] at hbind

theorem byte_bind_boundedBy {f : UInt8 → MemoryReader σ β} {layout : UInt8 → MessageLayout}
    (hf : ∀ b, (f b).BoundedBy (layout b)) : (byte >>= f).BoundedBy (.byte layout) := by
  intro message mem pos s hmem hpos
  have hbyte : (byte.read mem pos s).value = some (mem pos) := rfl
  rw [inside_bind, inside_byte, hbyte]
  simp only [Option.some.injEq, forall_eq']
  by_cases hlt : pos < message.length
  · rw [hmem.drop hlt, MessageLayout.fit, hf (mem pos) hmem (Nat.succ_le_of_lt hlt)]
    exact ⟨fun h => ⟨hlt, h⟩, fun h => h.2⟩
  · rw [List.drop_eq_nil_of_le (by omega), MessageLayout.fit]
    constructor
    · exact fun h => absurd h (by decide)
    · exact fun h => absurd h.1 hlt

end MemoryReader

end Iocom
