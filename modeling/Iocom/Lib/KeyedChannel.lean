import Mathlib.Data.List.Infix
import Mathlib.Data.List.Nodup
import Mathlib.Logic.Function.Basic
import Mathlib.Tactic.Common

/-!
# Channels shared by keys

Parcels for many keys go through one queue.  A parcel is taken from the queue as a
whole, and its content is handed over in pieces to the port of its key.  A port opens
once, because a parcel says so or by itself, and what comes for a port which is not
open is lost.
-/

variable {κ β γ : Type*}

inductive KeyedChannel.Parcel (κ β γ : Type*) where
  | content (k : κ) (data : List β)
  | opening (k : κ)
  | note (n : γ)

inductive KeyedChannel.Port where
  | unopened
  | opened
  | closed
  deriving DecidableEq

open KeyedChannel (Parcel Port)

/-- What has been sent for each key and what has reached its port; `rest` is what has
not been handed over of the parcel for `target`, which was taken last. -/
structure KeyedChannel (κ β γ : Type*) where
  sent : κ → List β
  queue : List (Parcel κ β γ)
  target : κ
  rest : List β
  received : κ → List β
  port : κ → Port

namespace KeyedChannel

variable [DecidableEq κ]

/-- The content for a key in some parcels. -/
def contentFor (k : κ) : List (Parcel κ β γ) → List β
  | [] => []
  | .content j data :: queue =>
      if j = k then data ++ contentFor k queue else contentFor k queue
  | _ :: queue => contentFor k queue

/-- No content for the key comes before the parcel which opens its port. -/
def Announced (k : κ) : List (Parcel κ β γ) → Prop
  | [] => True
  | .content j _ :: queue => j ≠ k ∧ Announced k queue
  | .opening j :: queue => j = k ∨ Announced k queue
  | .note _ :: queue => Announced k queue

def openings : List (Parcel κ β γ) → List κ
  | [] => []
  | .opening j :: queue => j :: openings queue
  | _ :: queue => openings queue

variable {k : κ} {queue more : List (Parcel κ β γ)} {data : List β}

@[simp] theorem contentFor_append :
    contentFor k (queue ++ more) = contentFor k queue ++ contentFor k more := by
  induction queue with
  | nil => rfl
  | cons p queue ih =>
      cases p with
      | content j data =>
          simp only [List.cons_append, contentFor]
          split_ifs <;> simp [ih]
      | opening j => simpa [contentFor] using ih
      | note n => simpa [contentFor] using ih

omit [DecidableEq κ] in
@[simp] theorem openings_append :
    openings (queue ++ more) = openings queue ++ openings more := by
  induction queue with
  | nil => rfl
  | cons p queue ih =>
      cases p <;> simpa [openings] using ih

omit [DecidableEq κ] in
theorem Announced.append_of_mem (h : Announced k queue) (hmem : k ∈ openings queue) :
    Announced k (queue ++ more) := by
  induction queue with
  | nil => simp [openings] at hmem
  | cons p queue ih =>
      cases p with
      | content j data => exact ⟨h.1, ih h.2 hmem⟩
      | opening j =>
          rcases h with rfl | h
          · exact .inl rfl
          · rcases List.mem_cons.mp hmem with rfl | hmem
            · exact .inl rfl
            · exact .inr (ih h hmem)
      | note n => exact ih h hmem

omit [DecidableEq κ] in
theorem Announced.append (h : Announced k queue) (hmore : Announced k more) :
    Announced k (queue ++ more) := by
  induction queue with
  | nil => exact hmore
  | cons p queue ih =>
      cases p with
      | content j data => exact ⟨h.1, ih h.2⟩
      | opening j => exact h.imp_right ih
      | note n => exact ih h

/-! ## The operations -/

variable (c : KeyedChannel κ β γ)

/-- What is on its way to a port. -/
def underway (k : κ) : List β :=
  (if c.target = k then c.rest else []) ++ contentFor k c.queue

def send (k : κ) (data : List β) : KeyedChannel κ β γ :=
  { c with
    sent := Function.update c.sent k (c.sent k ++ data)
    queue := c.queue ++ [.content k data] }

def announce (k : κ) : KeyedChannel κ β γ :=
  { c with queue := c.queue ++ [.opening k] }

def put (n : γ) : KeyedChannel κ β γ :=
  { c with queue := c.queue ++ [.note n] }

/-- The next parcel comes; it replaces what is left of the one before. -/
def take : KeyedChannel κ β γ :=
  match c.queue with
  | [] => c
  | .content k data :: queue => { c with queue := queue, target := k, rest := data }
  | .opening k :: queue =>
      { c with queue := queue, port := Function.update c.port k .opened }
  | .note _ :: queue => { c with queue := queue }

/-- Some of the parcel is handed over, or lost. -/
def deliver (n : ℕ) : KeyedChannel κ β γ :=
  { c with
    rest := c.rest.drop n
    received :=
      if c.port c.target = .opened then
        Function.update c.received c.target (c.received c.target ++ c.rest.take n)
      else c.received }

def openPort (k : κ) : KeyedChannel κ β γ :=
  { c with port := Function.update c.port k .opened }

def closePort (k : κ) : KeyedChannel κ β γ :=
  { c with port := Function.update c.port k .closed }

/-! ## What they keep -/

structure Unopened (k : κ) : Prop where
  received : c.received k = []
  rest : c.target = k → c.rest = []
  sent : c.sent k = contentFor k c.queue
  announced : Announced k c.queue

/-- Each key gets its own content in order, as long as its port is open. -/
structure Consistent : Prop where
  unopened : ∀ k, c.port k = .unopened → c.Unopened k
  opened : ∀ k, c.port k = .opened → c.received k ++ c.underway k = c.sent k
  closed : ∀ k, c.port k = .closed → c.received k <+: c.sent k
  fresh : ∀ k ∈ openings c.queue, c.port k = .unopened
  once : (openings c.queue).Nodup
  queued : ∀ k, contentFor k c.queue <:+ c.sent k

variable {c}

theorem underway_append {sent : κ → List β} :
    underway { c with sent := sent, queue := c.queue ++ more } k =
      c.underway k ++ contentFor k more := by
  unfold underway
  rw [contentFor_append, List.append_assoc]

theorem Unopened.setPort (h : c.Unopened k) {port : κ → Port} :
    Unopened { c with port := port } k :=
  ⟨h.received, h.rest, h.sent, h.announced⟩

theorem Unopened.opened (h : c.Unopened k) {queue : List (Parcel κ β γ)}
    (hqueue : contentFor k queue = contentFor k c.queue) :
    c.received k ++ ((if c.target = k then c.rest else []) ++ contentFor k queue) =
      c.sent k := by
  rw [h.received, h.sent, hqueue]
  split_ifs with htarget
  · simp [h.rest htarget]
  · simp

namespace Consistent

/-- More parcels are sent, none of them for a port which has not been told to open. -/
theorem append (h : c.Consistent) {sent : κ → List β}
    (hsent : ∀ j, sent j = c.sent j ++ contentFor j more)
    (hannounced : ∀ j, c.port j = .unopened → Announced j more ∨ j ∈ openings c.queue)
    (hfresh : ∀ j ∈ openings more, c.port j = .unopened)
    (honce : (openings c.queue ++ openings more).Nodup) :
    Consistent { c with sent := sent, queue := c.queue ++ more } where
  unopened j hj := by
    have hj' := h.unopened j hj
    refine ⟨hj'.received, hj'.rest, ?_, ?_⟩
    · simp [hsent, hj'.sent]
    · exact (hannounced j hj).elim hj'.announced.append hj'.announced.append_of_mem
  opened j hj := by
    dsimp only
    rw [hsent, ← h.opened j hj, underway_append, List.append_assoc]
  closed j hj := (h.closed j hj).trans ⟨_, (hsent j).symm⟩
  fresh j hj := by
    rw [openings_append, List.mem_append] at hj
    exact hj.elim (h.fresh j) (hfresh j)
  once := by
    rw [openings_append]
    exact honce
  queued j := by
    dsimp only
    rw [contentFor_append, hsent]
    obtain ⟨before, hbefore⟩ := h.queued j
    exact ⟨before, by rw [← List.append_assoc, hbefore]⟩

theorem send (h : c.Consistent) (hk : c.port k = .unopened → k ∈ openings c.queue) :
    (c.send k data).Consistent := by
  refine h.append (fun j => ?_) (fun j hj => ?_) (by simp [openings])
    (by simpa [openings] using h.once)
  · obtain rfl | hjk := eq_or_ne k j
    · simp [contentFor]
    · simp [contentFor, hjk, Function.update_of_ne hjk.symm]
  · obtain rfl | hjk := eq_or_ne k j
    · exact .inr (hk hj)
    · exact .inl ⟨hjk, trivial⟩

theorem announce (h : c.Consistent) (hk : c.port k = .unopened) (hnew : k ∉ openings c.queue) :
    (c.announce k).Consistent := by
  refine h.append (fun j => by simp [contentFor]) (fun j _ => .inl (.inr trivial))
    (by simpa [openings] using hk) ?_
  simp only [openings]
  exact List.nodup_append.mpr ⟨h.once, by simp, fun a ha b hb hab =>
    hnew (List.mem_singleton.mp hb ▸ hab ▸ ha)⟩

theorem put (h : c.Consistent) (n : γ) : (c.put n).Consistent :=
  h.append (fun j => by simp [contentFor]) (fun _ _ => .inl trivial) (by simp [openings])
    (by simpa [openings] using h.once)

theorem openPort (h : c.Consistent) (hk : c.port k = .unopened) (hnew : k ∉ openings c.queue) :
    (c.openPort k).Consistent := by
  refine ⟨fun j hj => ?_, fun j hj => ?_, fun j hj => ?_, fun j hj => ?_, h.once, h.queued⟩
  · obtain rfl | hjk := eq_or_ne j k
    · simp [KeyedChannel.openPort] at hj
    · exact (h.unopened j (by simpa [KeyedChannel.openPort, hjk] using hj)).setPort
  · obtain rfl | hjk := eq_or_ne j k
    · exact (h.unopened j hk).opened rfl
    · exact h.opened j (by simpa [KeyedChannel.openPort, hjk] using hj)
  · obtain rfl | hjk := eq_or_ne j k
    · simp [KeyedChannel.openPort] at hj
    · exact h.closed j (by simpa [KeyedChannel.openPort, hjk] using hj)
  · have hjk : j ≠ k := fun hjk => hnew (hjk ▸ hj)
    simpa [KeyedChannel.openPort, hjk] using h.fresh j hj

theorem closePort (h : c.Consistent) (hk : c.port k = .opened) :
    (c.closePort k).Consistent := by
  refine ⟨fun j hj => ?_, fun j hj => ?_, fun j hj => ?_, fun j hj => ?_, h.once, h.queued⟩
  · obtain rfl | hjk := eq_or_ne j k
    · simp [KeyedChannel.closePort] at hj
    · exact (h.unopened j (by simpa [KeyedChannel.closePort, hjk] using hj)).setPort
  · obtain rfl | hjk := eq_or_ne j k
    · simp [KeyedChannel.closePort] at hj
    · exact h.opened j (by simpa [KeyedChannel.closePort, hjk] using hj)
  · obtain rfl | hjk := eq_or_ne j k
    · exact ⟨_, h.opened j hk⟩
    · exact h.closed j (by simpa [KeyedChannel.closePort, hjk] using hj)
  · have hfresh := h.fresh j hj
    have hjk : j ≠ k := by
      rintro rfl
      rw [hk] at hfresh
      cases hfresh
    simpa [KeyedChannel.closePort, hjk] using hfresh

/-- The next parcel is taken when the one before has been handed over. -/
theorem take (h : c.Consistent) (hrest : c.rest = []) : c.take.Consistent := by
  unfold KeyedChannel.take
  cases hqueue : c.queue with
  | nil => exact h
  | cons p queue =>
      have htail : ∀ j, contentFor j queue <:+ c.sent j := by
        intro j
        refine List.IsSuffix.trans ?_ (hqueue ▸ h.queued j)
        rw [← List.singleton_append, contentFor_append]
        exact List.suffix_append _ _
      cases p with
      | content k data =>
          refine ⟨fun j hj => ?_, fun j hj => ?_, h.closed, fun j hj => ?_, ?_, htail⟩
          · have hj' := h.unopened j hj
            have hannounced := hj'.announced
            have hsent := hj'.sent
            rw [hqueue] at hannounced hsent
            exact ⟨hj'.received, fun htarget => absurd htarget hannounced.1,
              by rw [hsent, contentFor, if_neg hannounced.1], hannounced.2⟩
          · have hall := h.opened j hj
            simp only [underway, hrest, hqueue, contentFor, ite_self, List.nil_append] at hall ⊢
            rw [← hall]
            split_ifs <;> rfl
          · exact h.fresh j (by simpa [hqueue, openings] using hj)
          · simpa [hqueue, openings] using h.once
      | opening k =>
          have honce := h.once
          have hfresh := h.fresh
          rw [hqueue, openings, List.nodup_cons] at honce
          rw [hqueue, openings] at hfresh
          have hk : c.port k = .unopened := hfresh k (List.mem_cons_self ..)
          refine ⟨fun j hj => ?_, fun j hj => ?_, fun j hj => ?_, fun j hj => ?_, honce.2, htail⟩
          · obtain rfl | hjk := eq_or_ne j k
            · simp at hj
            · have hj' := h.unopened j (by simpa [hjk] using hj)
              have hannounced := hj'.announced
              have hsent := hj'.sent
              rw [hqueue] at hannounced hsent
              exact ⟨hj'.received, hj'.rest, hsent, hannounced.resolve_left hjk.symm⟩
          · obtain rfl | hjk := eq_or_ne j k
            · exact (h.unopened j hk).opened (by rw [hqueue]; rfl)
            · have hall := h.opened j (by simpa [hjk] using hj)
              rw [underway, hqueue] at hall
              exact hall
          · obtain rfl | hjk := eq_or_ne j k
            · simp at hj
            · exact h.closed j (by simpa [hjk] using hj)
          · have hjk : j ≠ k := fun hjk => honce.1 (hjk ▸ hj)
            simpa [hjk] using hfresh j (List.mem_cons_of_mem _ hj)
      | note n =>
          refine ⟨fun j hj => ?_, fun j hj => ?_, h.closed, fun j hj => ?_, ?_, htail⟩
          · have hj' := h.unopened j hj
            have hannounced := hj'.announced
            have hsent := hj'.sent
            rw [hqueue] at hannounced hsent
            exact ⟨hj'.received, hj'.rest, hsent, hannounced⟩
          · have hall := h.opened j hj
            rw [underway, hqueue] at hall
            exact hall
          · exact h.fresh j (by simpa [hqueue, openings] using hj)
          · simpa [hqueue, openings] using h.once

theorem deliver (h : c.Consistent) (n : ℕ) : (c.deliver n).Consistent := by
  unfold KeyedChannel.deliver
  refine ⟨fun j hj => ?_, fun j hj => ?_, fun j hj => ?_, h.fresh, h.once, h.queued⟩
  · have hj' := h.unopened j hj
    refine ⟨?_, fun htarget => ?_, hj'.sent, hj'.announced⟩
    · dsimp only
      split_ifs with hopen
      · have hne : j ≠ c.target := by
          rintro rfl
          rw [hopen] at hj
          cases hj
        rw [Function.update_of_ne hne]
        exact hj'.received
      · exact hj'.received
    · simp [hj'.rest htarget]
  · have hall := h.opened j hj
    dsimp only [underway] at hall hj ⊢
    by_cases hjt : c.target = j
    · subst hjt
      rw [if_pos hj, Function.update_self, if_pos rfl, ← hall, if_pos rfl, List.append_assoc,
        ← List.append_assoc (c.rest.take n), List.take_append_drop]
    · rw [if_neg hjt] at hall ⊢
      split_ifs with hopen
      · rw [Function.update_of_ne (Ne.symm hjt)]
        exact hall
      · exact hall
  · dsimp only at hj ⊢
    split_ifs with hopen
    · have hne : j ≠ c.target := by
        rintro rfl
        rw [hopen] at hj
        cases hj
      rw [Function.update_of_ne hne]
      exact h.closed j hj
    · exact h.closed j hj

theorem received_prefix (h : c.Consistent) (k : κ) : c.received k <+: c.sent k := by
  cases hport : c.port k with
  | unopened =>
      rw [(h.unopened k hport).received]
      exact List.nil_prefix
  | opened => exact ⟨_, h.opened k hport⟩
  | closed => exact h.closed k hport

theorem mem_sent (h : c.Consistent) {p : β} (hmem : .content k data ∈ c.queue) (hp : p ∈ data) :
    p ∈ c.sent k := by
  obtain ⟨before, after, hqueue⟩ := List.append_of_mem hmem
  refine (h.queued k).subset ?_
  rw [hqueue, contentFor_append, contentFor, if_pos rfl]
  simp [hp]

theorem received_all (h : c.Consistent) (hk : c.port k = .opened) (hqueue : c.queue = [])
    (hrest : c.rest = []) : c.received k = c.sent k := by
  rw [← h.opened k hk, underway, hqueue, hrest]
  simp [contentFor]

end Consistent

end KeyedChannel
