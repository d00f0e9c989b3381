import Mathlib.Data.List.Basic
import Mathlib.Data.List.TakeWhile

/-!
# Pieces between separators

A loop which goes from separator to separator and stops at the end of the text sees its
pieces in order; it does not see an empty piece behind a separator at the end.
-/

namespace Separated

variable {α β : Type*}

theorem takeWhile_dropWhile_append {p : α → Bool} {text rest : List α}
    (htext : ∀ c ∈ text, p c = true) (hrest : ∀ c ∈ rest.head?, p c = false) :
    (text ++ rest).takeWhile p = text ∧ (text ++ rest).dropWhile p = rest := by
  rw [List.takeWhile_append_of_pos htext, List.dropWhile_append_of_pos htext]
  cases rest with
  | nil => exact ⟨List.append_nil _, rfl⟩
  | cons c rest =>
      have hc : ¬ p c = true := by rw [hrest c rfl]; exact Bool.false_ne_true
      rw [List.takeWhile_cons_of_neg hc, List.dropWhile_cons_of_neg hc, List.append_nil]
      exact ⟨rfl, rfl⟩

theorem head_dropWhile {p : α → Bool} {text : List α} :
    ∀ c ∈ (text.dropWhile p).head?, p c = false := by
  intro c hc
  induction text with
  | nil => cases hc
  | cons first text ih =>
      by_cases hfirst : p first = true
      · rw [List.dropWhile_cons_of_pos hfirst] at hc
        exact ih hc
      · rw [List.dropWhile_cons_of_neg hfirst] at hc
        obtain rfl : first = c := Option.some.inj hc
        exact Bool.eq_false_iff.mpr hfirst

section Loop

variable [DecidableEq α]

/-- The pieces which such a loop sees. -/
def pieces (sep : α) : List α → List (List α)
  | [] => []
  | c :: text =>
      if c = sep then [] :: pieces sep text
      else
        match pieces sep text with
        | [] => [[c]]
        | piece :: rest => (c :: piece) :: rest

variable {sep : α}

theorem pieces_nil : pieces sep [] = [] := rfl

theorem pieces_cons (c : α) (text : List α) :
    pieces sep (c :: text) =
      if c = sep then [] :: pieces sep text
      else
        match pieces sep text with
        | [] => [[c]]
        | piece :: rest => (c :: piece) :: rest := rfl

/-- The text before the first separator, and the rest from the separator on. -/
theorem before_sep {text rest : List α} (htext : sep ∉ text)
    (hrest : ∀ c ∈ rest.head?, c = sep) :
    (text ++ rest).takeWhile (· ≠ sep) = text ∧ (text ++ rest).dropWhile (· ≠ sep) = rest :=
  takeWhile_dropWhile_append (fun _ hc => decide_eq_true fun heq => htext (heq ▸ hc))
    fun c hc => decide_eq_false fun hne => hne (hrest c hc)

theorem before_sep_cons {text : List α} (htext : sep ∉ text) (rest : List α) :
    (text ++ sep :: rest).takeWhile (· ≠ sep) = text ∧
      (text ++ sep :: rest).dropWhile (· ≠ sep) = sep :: rest :=
  before_sep htext fun _ hc => (Option.mem_some_iff.mp hc).symm

theorem pieces_sep : pieces sep [sep] = [[]] := by
  rw [pieces_cons, if_pos rfl, pieces_nil]

theorem pieces_ne_nil {text : List α} (h : text ≠ []) : pieces sep text ≠ [] := by
  cases text with
  | nil => exact absurd rfl h
  | cons c text =>
      rw [pieces_cons]
      split_ifs
      · exact List.cons_ne_nil _ _
      · split <;> exact List.cons_ne_nil _ _

theorem pieces_turn {text : List α} (h : text ≠ []) :
    pieces sep text = text.takeWhile (· ≠ sep) ::
      pieces sep ((text.dropWhile (· ≠ sep)).drop 1) := by
  induction text with
  | nil => exact absurd rfl h
  | cons c text ih =>
      rw [pieces_cons]
      by_cases hc : c = sep
      · rw [if_pos hc, List.takeWhile_cons_of_neg (by simpa using hc),
          List.dropWhile_cons_of_neg (by simpa using hc)]
        rfl
      · rw [if_neg hc, List.takeWhile_cons_of_pos (by simpa using hc),
          List.dropWhile_cons_of_pos (by simpa using hc)]
        by_cases htext : text = []
        · rw [htext]
          rfl
        · rw [ih htext]

theorem pieces_of_notMem {text : List α} (h : sep ∉ text) :
    pieces sep text = if text = [] then [] else [text] := by
  by_cases htext : text = []
  · rw [htext, if_pos rfl, pieces_nil]
  · have hall : ∀ c ∈ text, decide (c ≠ sep) = true := fun c hc =>
      decide_eq_true fun heq => h (heq ▸ hc)
    rw [if_neg htext, pieces_turn htext, List.takeWhile_eq_self_iff.mpr hall,
      List.dropWhile_eq_nil_iff.mpr hall]
    rfl

theorem sep_notMem_of_mem_pieces {text piece : List α} (h : piece ∈ pieces sep text) :
    sep ∉ piece ∧ ∀ c ∈ piece, c ∈ text := by
  induction text generalizing piece with
  | nil => cases h
  | cons c text ih =>
      rw [pieces_cons] at h
      split_ifs at h with hc
      · rcases List.mem_cons.mp h with rfl | hmem
        · exact ⟨List.not_mem_nil, fun _ hnil => absurd hnil List.not_mem_nil⟩
        · exact ⟨(ih hmem).1, fun d hd => List.mem_cons_of_mem _ ((ih hmem).2 d hd)⟩
      · cases hpieces : pieces sep text with
        | nil =>
            rw [hpieces] at h
            obtain rfl := List.mem_singleton.mp h
            exact ⟨fun hsep => hc (List.mem_singleton.mp hsep).symm, fun d hd => by
              rw [List.mem_singleton.mp hd]
              exact List.mem_cons_self⟩
        | cons first others =>
            rw [hpieces] at h ih
            rcases List.mem_cons.mp h with rfl | hmem
            · obtain ⟨hsep, hin⟩ := ih List.mem_cons_self
              refine ⟨fun hmem => ?_, fun d hd => ?_⟩
              · rcases List.mem_cons.mp hmem with heq | htail
                · exact hc heq.symm
                · exact hsep htail
              · rcases List.mem_cons.mp hd with rfl | htail
                · exact List.mem_cons_self
                · exact List.mem_cons_of_mem _ (hin d htail)
            · obtain ⟨hsep, hin⟩ := ih (List.mem_cons_of_mem _ hmem)
              exact ⟨hsep, fun d hd => List.mem_cons_of_mem _ (hin d hd)⟩

theorem pieces_append {text rest : List α} :
    pieces sep (text ++ sep :: rest) = pieces sep (text ++ [sep]) ++ pieces sep rest := by
  induction text with
  | nil =>
      rw [List.nil_append, List.nil_append, pieces_cons, if_pos rfl, pieces_cons, if_pos rfl,
        pieces_nil]
      rfl
  | cons c text ih =>
      rw [List.cons_append, List.cons_append, pieces_cons, pieces_cons, ih]
      split_ifs with hc
      · rfl
      · have hne : pieces sep (text ++ [sep]) ≠ [] := pieces_ne_nil (by simp)
        cases hpieces : pieces sep (text ++ [sep]) with
        | nil => exact absurd hpieces hne
        | cons piece others => rfl

theorem pieces_append_sep (sep : α) (text : List α) :
    pieces sep (text ++ [sep]) = pieces sep text ∨
      pieces sep (text ++ [sep]) = pieces sep text ++ [[]] := by
  induction text with
  | nil =>
      right
      rw [List.nil_append, pieces_sep]
      rfl
  | cons c text ih =>
      rw [List.cons_append, pieces_cons, pieces_cons]
      by_cases hc : c = sep
      · rw [if_pos hc, if_pos hc]
        rcases ih with hsame | hmore
        · exact Or.inl (by rw [hsame])
        · exact Or.inr (by rw [hmore]; rfl)
      · rw [if_neg hc, if_neg hc]
        by_cases htext : text = []
        · left
          rw [htext, List.nil_append, pieces_sep]
          rfl
        · have hne : pieces sep text ≠ [] := pieces_ne_nil htext
          cases hpieces : pieces sep text with
          | nil => exact absurd hpieces hne
          | cons piece others =>
              rw [hpieces] at ih
              rcases ih with hsame | hmore
              · exact Or.inl (by rw [hsame])
              · exact Or.inr (by rw [hmore]; rfl)

end Loop

/-- Each piece with a separator before it. -/
def joined (sep : α) : List (List α) → List α
  | [] => []
  | piece :: rest => sep :: (piece ++ joined sep rest)

variable {sep : α}

section Reading

variable [DecidableEq α] {f : List α → Option β} (hempty : f [] = none)
include hempty

theorem filterMap_pieces_append (text rest : List α) :
    (pieces sep (text ++ sep :: rest)).filterMap f =
      (pieces sep text).filterMap f ++ (pieces sep rest).filterMap f := by
  rw [pieces_append, List.filterMap_append]
  rcases pieces_append_sep sep text with hsame | hmore
  · rw [hsame]
  · rw [hmore, List.filterMap_append, List.filterMap_cons, hempty]
    simp

theorem filterMap_pieces_joined (text : List α) {rest : List (List α)}
    (hrest : ∀ piece ∈ rest, sep ∉ piece) :
    (pieces sep (text ++ joined sep rest)).filterMap f =
      (pieces sep text).filterMap f ++ rest.filterMap f := by
  induction rest generalizing text with
  | nil => rw [joined, List.append_nil, List.filterMap_nil, List.append_nil]
  | cons piece rest ih =>
      have hpiece := pieces_of_notMem (hrest piece List.mem_cons_self)
      rw [joined, filterMap_pieces_append hempty,
        ih piece fun other hother => hrest other (List.mem_cons_of_mem _ hother), hpiece]
      by_cases hnil : piece = []
      · rw [if_pos hnil, hnil, List.filterMap_cons, hempty]
        rfl
      · rw [if_neg hnil, List.filterMap_cons, List.filterMap_cons]
        cases f piece <;> rfl

end Reading

/-! ## What fits -/

/-- The pieces which have room with their separators; the last one may be cut. -/
def fitted : ℕ → List (List α) → List (List α)
  | _, [] => []
  | room, piece :: rest =>
      if piece.length < room then piece :: fitted (room - (piece.length + 1)) rest
      else if room = 0 then []
      else [piece.take (room - 1)]

theorem joined_take (room : ℕ) (rest : List (List α)) :
    (joined sep rest).take room = joined sep (fitted room rest) := by
  induction rest generalizing room with
  | nil => rw [joined, fitted, List.take_nil, joined]
  | cons piece rest ih =>
      rw [joined, fitted]
      split_ifs with hfits hroom
      · obtain ⟨more, rfl⟩ : ∃ more, room = more + 1 := ⟨room - 1, by omega⟩
        rw [List.take_succ_cons, List.take_append, List.take_of_length_le (by omega), ih, joined,
          Nat.add_sub_add_right]
      · rw [hroom, List.take_zero, joined]
      · obtain ⟨more, rfl⟩ : ∃ more, room = more + 1 := ⟨room - 1, by omega⟩
        rw [List.take_succ_cons, List.take_append_of_le_length (by omega), Nat.add_sub_cancel,
          joined, joined, List.append_nil]

theorem joined_append (first rest : List (List α)) :
    joined sep (first ++ rest) = joined sep first ++ joined sep rest := by
  induction first with
  | nil => rfl
  | cons piece first ih =>
      rw [List.cons_append, joined, joined, ih, List.cons_append, List.append_assoc]

theorem fitted_of_fits {room : ℕ} {rest : List (List α)}
    (h : (joined sep rest).length ≤ room) : fitted room rest = rest := by
  induction rest generalizing room with
  | nil => rw [fitted]
  | cons piece rest ih =>
      rw [joined, List.length_cons, List.length_append] at h
      rw [fitted, if_pos (by omega), ih (by omega)]

theorem fitted_eq_nil_iff {room : ℕ} {rest : List (List α)} :
    fitted room rest = [] ↔ rest = [] ∨ room = 0 := by
  cases rest with
  | nil => exact ⟨fun _ => Or.inl rfl, fun _ => by rw [fitted]⟩
  | cons piece rest =>
      constructor
      · intro h
        by_cases hroom : room = 0
        · exact Or.inr hroom
        · rw [fitted, if_neg hroom] at h
          split_ifs at h
      · rintro (h | rfl)
        · cases h
        · rw [fitted, if_neg (Nat.not_lt_zero _), if_pos rfl]

theorem mem_fitted {room : ℕ} {rest : List (List α)} {piece : List α}
    (h : piece ∈ fitted room rest) : ∃ whole ∈ rest, piece <+: whole := by
  induction rest generalizing room with
  | nil => cases h
  | cons first rest ih =>
      rw [fitted] at h
      split_ifs at h with hfits hroom
      · rcases List.mem_cons.mp h with rfl | hmem
        · exact ⟨_, List.mem_cons_self, List.prefix_refl _⟩
        · obtain ⟨whole, hwhole, hstarts⟩ := ih hmem
          exact ⟨whole, List.mem_cons_of_mem _ hwhole, hstarts⟩
      · cases h
      · obtain rfl := List.mem_singleton.mp h
        exact ⟨first, List.mem_cons_self, List.take_prefix _ _⟩

end Separated
