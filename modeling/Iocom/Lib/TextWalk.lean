import Iocom.Lib.Separated
import Mathlib.Tactic.SplitIfs

/-!
# Walking through a text in memory

A text ends at the first terminator.  A loop which goes from separator to separator by
position reads the memory up to there, wherever the memory of the text ends.
-/

namespace TextWalk

open Separated

variable {α : Type*} [DecidableEq α]

def plain (sep term c : α) : Bool := decide (c ≠ sep) && decide (c ≠ term)

/-- Where the first separator or terminator from `p` on is; there is none if the search
leaves the memory. -/
def scan (sep term : α) (mem : List α) (p : ℕ) : Option ℕ :=
  let e := p + ((mem.drop p).takeWhile (plain sep term)).length
  if e < mem.length then some e else none

/-- The items between separators from `p` on, and how far the loop reads. -/
def walk (sep term : α) (mem : List α) : ℕ → ℕ → Option (List (List α) × ℕ)
  | 0, _ => none
  | fuel + 1, p =>
      match mem[p]? with
      | none => none
      | some first =>
          if first = term then some ([], p + 1)
          else
            match scan sep term mem p with
            | none => none
            | some e =>
                let item := (mem.drop p).take (e - p)
                if mem[e]? = some term then some ([item], e + 1)
                else (walk sep term mem fuel (e + 1)).map fun rest => (item :: rest.1, rest.2)

variable {sep term : α}

@[simp] theorem plain_eq_true_iff {c : α} : plain sep term c = true ↔ c ≠ sep ∧ c ≠ term := by
  simp [plain]

theorem plain_of_mem {text : List α} (hsep : sep ∉ text) (hterm : term ∉ text) :
    ∀ c ∈ text, plain sep term c = true := by
  intro c hc
  rw [plain_eq_true_iff]
  exact ⟨fun h => hsep (h ▸ hc), fun h => hterm (h ▸ hc)⟩

theorem takeWhile_plain {text rest : List α} {c : α} (hsep : sep ∉ text) (hterm : term ∉ text)
    (hc : c = sep ∨ c = term) : (text ++ c :: rest).takeWhile (plain sep term) = text := by
  have hstop : ∀ d ∈ (c :: rest).head?, plain sep term d = false := by
    intro d hd
    obtain rfl : c = d := Option.some.inj hd
    rcases hc with rfl | rfl <;> simp [plain]
  exact (takeWhile_dropWhile_append (plain_of_mem hsep hterm) hstop).1

/-- A text is plain, or goes on behind its first separator or terminator. -/
theorem plain_or_stop (sep term : α) (mem : List α) : sep ∉ mem ∧ term ∉ mem ∨
    ∃ first c behind, mem = first ++ c :: behind ∧ sep ∉ first ∧ term ∉ first ∧
      (c = sep ∨ c = term) := by
  induction mem with
  | nil => simp
  | cons d mem ih =>
      by_cases hd : d = sep ∨ d = term
      · exact .inr ⟨[], d, mem, by simp [hd]⟩
      · rw [not_or] at hd
        rcases ih with ⟨hsep, hterm⟩ | ⟨first, c, behind, rfl, hsep, hterm, hc⟩
        · left
          simp [hsep, hterm, Ne.symm hd.1, Ne.symm hd.2]
        · refine .inr ⟨d :: first, c, behind, rfl, ?_, ?_, hc⟩
          · simp [hsep, Ne.symm hd.1]
          · simp [hterm, Ne.symm hd.2]

theorem scan_append (before rest : List α) {text : List α} {c : α} (hsep : sep ∉ text)
    (hterm : term ∉ text) (hc : c = sep ∨ c = term) :
    scan sep term (before ++ (text ++ c :: rest)) before.length =
      some (before.length + text.length) := by
  unfold scan
  rw [List.drop_left, takeWhile_plain hsep hterm hc]
  simp

/-- The search leaves a memory without separator and terminator. -/
theorem scan_none (before : List α) {text : List α} (hsep : sep ∉ text) (hterm : term ∉ text) :
    scan sep term (before ++ text) before.length = none := by
  unfold scan
  rw [List.drop_left, List.takeWhile_eq_self_iff.mpr (plain_of_mem hsep hterm)]
  simp

omit [DecidableEq α] in
/-- The text of a loop at `before`, and what stands behind the text. -/
theorem take_text (before text rest : List α) :
    ((before ++ (text ++ rest)).drop before.length).take
      (before.length + text.length - before.length) = text := by
  simp

omit [DecidableEq α] in
theorem getElem?_behind (before text rest : List α) (c : α) :
    (before ++ (text ++ c :: rest))[before.length + text.length]? = some c := by
  simp

theorem pieces_behind_sep {item : List α} (hitem : sep ∉ item) (more : List α) :
    pieces sep (item ++ sep :: more) = item :: pieces sep more := by
  obtain ⟨htake, hdrop⟩ := before_sep_cons hitem more
  rw [pieces_turn (by simp), htake, hdrop]
  rfl

/-- The loop sees the pieces of the text, and reads its terminator last. -/
theorem walk_append (hne : sep ≠ term) (before rest : List α) {text : List α} (hterm : term ∉ text)
    {fuel : ℕ} (hfuel : text.length < fuel) :
    walk sep term (before ++ (text ++ term :: rest)) fuel before.length =
      some (pieces sep text, before.length + text.length + 1) := by
  induction fuel generalizing before text with
  | zero => omega
  | succ fuel ih =>
      by_cases hsep : sep ∈ text
      · obtain ⟨item, more, rfl, hitem⟩ := List.eq_append_cons_of_mem hsep
        have hmore : term ∉ more := fun h => hterm (by simp [h])
        have hfirst : ∃ first, first ≠ term ∧
            (before ++ (item ++ sep :: more ++ term :: rest))[before.length]? = some first := by
          cases item with
          | nil => exact ⟨sep, hne, by simp⟩
          | cons c item => exact ⟨c, fun h => hterm (by simp [h]), by simp⟩
        obtain ⟨first, hfirst, hread⟩ := hfirst
        have hitem' : term ∉ item := fun h => hterm (by simp [h])
        have hmem : before ++ (item ++ sep :: more ++ term :: rest) =
            before ++ (item ++ sep :: (more ++ term :: rest)) := by simp
        have hnext : before ++ (item ++ sep :: (more ++ term :: rest)) =
            (before ++ item ++ [sep]) ++ (more ++ term :: rest) := by simp
        have hlen : (before ++ item ++ [sep]).length = before.length + item.length + 1 := by
          simp [Nat.add_assoc]
        have hrun := ih (before ++ item ++ [sep]) hmore
          (by simp only [List.length_append, List.length_cons] at hfuel; omega)
        rw [← hnext, hlen] at hrun
        rw [hmem] at hread ⊢
        rw [walk, hread]
        dsimp only
        rw [if_neg hfirst, scan_append _ _ hitem hitem' (.inl rfl)]
        dsimp only
        rw [getElem?_behind, if_neg (by simpa using hne), take_text, hrun,
          pieces_behind_sep hitem]
        simp only [Option.map_some, List.length_append, List.length_cons]
        congr 2
        omega
      · cases text with
        | nil => simp [walk, pieces_nil]
        | cons first text =>
            have hfirst : first ≠ term := fun h => hterm (by simp [h])
            have hread : (before ++ (first :: text ++ term :: rest))[before.length]? =
                some first := by simp
            rw [walk, hread]
            dsimp only
            rw [if_neg hfirst, scan_append _ _ hsep hterm (.inr rfl)]
            dsimp only
            rw [getElem?_behind, if_pos rfl, take_text, pieces_of_notMem hsep,
              if_neg (List.cons_ne_nil _ _)]

theorem walk_none (before : List α) {text : List α} (hterm : term ∉ text) (fuel : ℕ) :
    walk sep term (before ++ text) fuel before.length = none := by
  induction fuel generalizing before text with
  | zero => rfl
  | succ fuel ih =>
      cases text with
      | nil => simp [walk]
      | cons first text =>
          have hfirst : first ≠ term := fun h => hterm (by simp [h])
          have hread : (before ++ first :: text)[before.length]? = some first := by simp
          rw [walk, hread]
          dsimp only
          rw [if_neg hfirst]
          by_cases hsep : sep ∈ first :: text
          · obtain ⟨item, more, hsplit, hitem⟩ := List.eq_append_cons_of_mem hsep
            rw [hsplit] at hterm ⊢
            have hitem' : term ∉ item := fun h => hterm (by simp [h])
            have hne : sep ≠ term := fun h => hterm (by simp [h])
            have hrun := @ih (before ++ item ++ [sep]) more fun h => hterm (by simp [h])
            have hnext : before ++ (item ++ sep :: more) = (before ++ item ++ [sep]) ++ more := by
              simp
            have hlen : (before ++ item ++ [sep]).length = before.length + item.length + 1 := by
              simp [Nat.add_assoc]
            rw [← hnext, hlen] at hrun
            rw [scan_append _ _ hitem hitem' (.inl rfl)]
            dsimp only
            rw [getElem?_behind, if_neg (by simpa using hne), hrun]
            rfl
          · rw [scan_none _ hsep hterm]

/-! ## A word and the items behind it -/

/-- The text before the first separator or terminator, the items behind that, and how
far is read. -/
def readText (sep term : α) (mem : List α) : Option (List α × List (List α) × ℕ) :=
  (scan sep term mem 0).bind fun q =>
    (walk sep term mem (mem.length + 1) (q + 1)).map fun items => (mem.take q, items)

/-- A memory where `readText` comes to an end. -/
structure Ends (sep term : α) (mem first text rest : List α) (c : α) : Prop where
  eq : mem = first ++ c :: (text ++ term :: rest)
  sep_notMem : sep ∉ first
  term_notMem : term ∉ first
  stop : c = sep ∨ c = term
  text_notMem : term ∉ text

theorem Ends.readText_eq (hne : sep ≠ term) {mem first text rest : List α} {c : α}
    (h : Ends sep term mem first text rest c) :
    readText sep term mem = some (first, pieces sep text, first.length + text.length + 2) := by
  have hscan := scan_append [] (text ++ term :: rest) h.sep_notMem
    h.term_notMem h.stop
  have hmem : first ++ c :: (text ++ term :: rest) =
      (first ++ [c]) ++ (text ++ term :: rest) := by simp
  have hlen : (first ++ [c]).length = first.length + 1 := by simp
  have hwalk := walk_append hne (first ++ [c]) rest h.text_notMem
    (show text.length < mem.length + 1 by rw [h.eq]; simp; omega)
  rw [← hmem, hlen, ← h.eq] at hwalk
  rw [List.nil_append, List.length_nil, Nat.zero_add, ← h.eq] at hscan
  have hfar : first.length + 1 + text.length + 1 = first.length + text.length + 2 := by omega
  rw [readText, hscan, Option.bind_some, hwalk, hfar, h.eq]
  simp

theorem ends_of_readText {mem : List α} {r : List α × List (List α) × ℕ}
    (h : readText sep term mem = some r) : ∃ first text rest c,
      Ends sep term mem first text rest c := by
  rcases plain_or_stop sep term mem with ⟨hsep, hterm⟩ | ⟨first, c, behind, hmem, hsep, hterm, hc⟩
  · have hscan := scan_none [] hsep hterm
    rw [List.nil_append, List.length_nil] at hscan
    rw [readText, hscan] at h
    cases h
  · by_cases hmore : term ∈ behind
    · obtain ⟨text, rest, rfl, htext⟩ := List.eq_append_cons_of_mem hmore
      exact ⟨first, text, rest, c, hmem, hsep, hterm, hc, htext⟩
    · have hscan := scan_append [] behind hsep hterm hc
      rw [List.nil_append, List.length_nil, Nat.zero_add, ← hmem] at hscan
      have hsplit : mem = (first ++ [c]) ++ behind := by rw [hmem]; simp
      have hlen : (first ++ [c]).length = first.length + 1 := by simp
      have hwalk := @walk_none _ _ sep term (first ++ [c]) _ hmore (mem.length + 1)
      rw [hlen, ← hsplit] at hwalk
      rw [readText, hscan, Option.bind_some, hwalk] at h
      cases h

/-- The terminator is looked for behind the first separator or terminator. -/
theorem exists_ends_iff {mem : List α} : (∃ first text rest c,
      Ends sep term mem first text rest c) ↔
    term ∈ mem.drop ((mem.takeWhile (plain sep term)).length + 1) := by
  constructor
  · rintro ⟨first, text, rest, c, h⟩
    rw [h.eq, takeWhile_plain h.sep_notMem h.term_notMem h.stop]
    simp
  · intro h
    rcases plain_or_stop sep term mem with ⟨hsep, hterm⟩ | ⟨first, c, behind, rfl, hsep, hterm, hc⟩
    · exact absurd (List.mem_of_mem_drop h) hterm
    · rw [takeWhile_plain hsep hterm hc, ← List.drop_drop, List.drop_left] at h
      obtain ⟨text, rest, rfl, htext⟩ := List.eq_append_cons_of_mem (show term ∈ behind from h)
      exact ⟨first, text, rest, c, rfl, hsep, hterm, hc, htext⟩

omit [DecidableEq α] in
/-- What comes to an end within the first part of a memory does not depend on the rest. -/
theorem Ends.append {mem first text rest : List α} {c : α}
    (h : Ends sep term mem first text rest c) (behind : List α) :
    Ends sep term (mem ++ behind) first text (rest ++ behind) c :=
  { h with eq := by rw [h.eq]; simp }

omit [DecidableEq α] in
/-- It ends within the first part if no more than that is read. -/
theorem Ends.of_append {mem behind first text rest : List α} {c : α}
    (h : Ends sep term (mem ++ behind) first text rest c)
    (hfar : first.length + text.length + 2 ≤ mem.length) :
    ∃ rest', Ends sep term mem first text rest' c := by
  have hread : (first ++ c :: (text ++ [term])).length ≤ mem.length := by
    simp
    omega
  have hhead : first ++ c :: (text ++ [term]) <+: mem := by
    have hwhole : first ++ c :: (text ++ [term]) <+: mem ++ behind := ⟨rest, by rw [h.eq]; simp⟩
    exact List.prefix_of_prefix_length_le hwhole (List.prefix_append _ _) hread
  obtain ⟨rest', hrest⟩ := hhead
  exact ⟨rest', { h with eq := by rw [← hrest]; simp }⟩

end TextWalk
