import Mathlib.Data.UInt
import Mathlib.Data.List.Basic
import Iocom.Lib.Overwrite

/-!
# Configuration items of a Gazerbeam message

`gazerbeam_get_config_item`: a message is a chain of items, each an identifier, the
length of the value and the value.  The length is taken from the message as it is, so
the item which is looked for may reach beyond the end of the message.
-/

namespace Iocom

open Buffer

/-- What `gazerbeam_get_config_item` returns. -/
inductive ConfigItemStatus
  | success
  | nothingToDo
  | failed
  deriving DecidableEq

structure ConfigMessage where
  bytes : List UInt8
  behind : ℕ → UInt8

/-- `message[i]`. -/
def ConfigMessage.byte (message : ConfigMessage) (i : ℕ) : UInt8 :=
  message.bytes.getD i (message.behind (i - message.bytes.length))

structure ConfigField where
  bytes : List UInt8
  nonempty : 0 < bytes.length

/-- What a call returns, the field it leaves, and the places of the message it reads. -/
structure ConfigItemRun where
  status : ConfigItemStatus
  field : List UInt8
  reads : List ℕ

def ConfigItemRun.after (run : ConfigItemRun) (reads : List ℕ) : ConfigItemRun :=
  { run with reads := reads ++ run.reads }

/-- `'*'` -/
def clearMark : UInt8 := 42

/-- The body of the loop for the item at `p`, when it has the identifier. -/
def setConfigField (field : List UInt8) (message : ConfigMessage) (p : ℕ) : ConfigItemRun :=
  let len := (message.byte (p + 1)).toNat
  let cut := if field.length ≤ len then field.length - 1 else len
  let sz := if message.byte (p + 2) = clearMark ∧ cut = 1 then 0 else cut
  let value := (List.range sz).map fun i => message.byte (p + 2 + i)
  let reads := (p + 2) :: (List.range sz).map (p + 2 + ·)
  if sz ≠ 0 then
    if field.take sz = value ∧ field[sz]? = some 0 then ⟨.nothingToDo, field, reads⟩
    else ⟨.success, overwrite (overwrite field 0 value) sz [0], reads⟩
  else if field[sz]? = some 0 then ⟨.nothingToDo, field, reads⟩
  else ⟨.success, overwrite field sz [0], reads⟩

/-- The loop of `gazerbeam_get_config_item` from `p` on. -/
def walkConfigItems (id : ℕ) (field : List UInt8) (message : ConfigMessage) (p : ℕ) :
    ConfigItemRun :=
  if p + 2 < message.bytes.length then
    if (message.byte p).toNat = id then
      (setConfigField field message p).after [p + 1, p]
    else
      (walkConfigItems id field message (p + (message.byte (p + 1)).toNat + 2)).after
        [p + 1, p]
  else ⟨.failed, field, []⟩
termination_by message.bytes.length - p
decreasing_by omega

/-- `gazerbeam_get_config_item`. -/
def gazerbeamGetConfigItem (id : ℕ) (field : ConfigField) (message : ConfigMessage) :
    ConfigItemRun :=
  walkConfigItems id field.bytes message 0

/-! ## The chain of items -/

/-- What a search for an identifier finds in a chain of items: the value and what
follows it, or the item whose length points past the end, or neither. -/
inductive ChainSearch
  | found (value rest : List UInt8)
  | cutShort (kind : UInt8) (rest : List UInt8)
  | ended

def searchChain (id : ℕ) : List UInt8 → ChainSearch
  | kind :: len :: rest =>
      if rest.length < len.toNat then .cutShort kind rest
      else if kind.toNat = id then .found (rest.take len.toNat) (rest.drop len.toNat)
      else searchChain id (rest.drop len.toNat)
  | _ => .ended
termination_by chain => chain.length
decreasing_by
  rw [List.length_drop, List.length_cons, List.length_cons]
  omega

def ConfigField.put (field : ConfigField) (value : List UInt8) : List UInt8 :=
  value ++ 0 :: field.bytes.drop (value.length + 1)

/-- The value a field is set to: cut to the size of the field, empty for the mark. -/
def ConfigField.valueOf (field : ConfigField) (value : List UInt8) : List UInt8 :=
  if value = [clearMark] then [] else value.take (field.bytes.length - 1)

/-- Configuration items are read only from the message: the first item with the
identifier which lies inside the message decides. -/
structure ReadsConfigItem (id : ℕ) (field : ConfigField) (message : ConfigMessage)
    (run : ConfigItemRun) : Prop where
  inside : ∀ i ∈ run.reads, i < message.bytes.length
  decided : ∀ value rest, searchChain id message.bytes = .found value rest →
    run.field = field.put (field.valueOf value) ∧
      run.status = if run.field = field.bytes then .nothingToDo else .success
  missing : (∀ value rest, searchChain id message.bytes ≠ .found value rest) →
    run.field = field.bytes ∧ run.status = .failed

/-- The item which decides is not an empty one at the very end, its value does not
become the clearing mark by being cut, and an item of the identifier which reaches beyond
the end has nothing behind its length. -/
def ConfigItemFits (id : ℕ) (field : ConfigField) (message : ConfigMessage) : Prop :=
  match searchChain id message.bytes with
  | .found value rest => (value ≠ [] ∨ rest ≠ []) ∧
      ¬(field.bytes.length = 2 ∧ 2 ≤ value.length ∧ value.head? = some clearMark)
  | .cutShort kind rest => kind.toNat = id → rest = []
  | .ended => True

/-! ## One item -/

section Item

variable {field : ConfigField} {message : ConfigMessage} {p : ℕ}

theorem ConfigMessage.byte_eq {chain : List UInt8} (hdrop : message.bytes.drop p = chain)
    (i : ℕ) {c : UInt8} (hc : chain[i]? = some c) : message.byte (p + i) = c := by
  rw [← hdrop, List.getElem?_drop] at hc
  simp [ConfigMessage.byte, hc]

/-- The bytes the pointer passes are the data which stands there. -/
theorem ConfigMessage.bytes_eq {data rest : List UInt8}
    (hdrop : message.bytes.drop p = data ++ rest) :
    ((List.range data.length).map fun i => message.byte (p + i)) = data := by
  apply List.ext_getElem (by simp)
  intro i hi hi'
  simp only [List.getElem_map, List.getElem_range]
  apply message.byte_eq hdrop i
  rw [List.getElem?_append_left hi', List.getElem?_eq_getElem hi']

theorem ConfigMessage.lt_of_drop {chain : List UInt8} (hdrop : message.bytes.drop p = chain)
    {i : ℕ} (hi : i < chain.length) : p + i < message.bytes.length := by
  rw [← hdrop, List.length_drop] at hi
  omega

theorem ConfigField.put_eq_iff {value : List UInt8}
    (hvalue : value.length < field.bytes.length) :
    field.put value = field.bytes ↔
      field.bytes.take value.length = value ∧ field.bytes[value.length]? = some 0 := by
  constructor
  · intro h
    rw [← h]
    simp [ConfigField.put]
  · rintro ⟨htake, hzero⟩
    have hsplit := List.take_append_drop value.length field.bytes
    rw [List.getElem?_eq_getElem hvalue, Option.some.injEq] at hzero
    rw [htake, List.drop_eq_getElem_cons hvalue, hzero] at hsplit
    exact hsplit

/-- What the code keeps of a value: the mark is looked for after the value is cut. -/
def ConfigField.keptOf (field : ConfigField) (value : List UInt8) : List UInt8 :=
  if value.head? = some clearMark ∧ (value.take (field.bytes.length - 1)).length = 1 then []
  else value.take (field.bytes.length - 1)

theorem ConfigField.keptOf_lt (field : ConfigField) (value : List UInt8) :
    (field.keptOf value).length < field.bytes.length := by
  have hpos := field.nonempty
  unfold ConfigField.keptOf
  split_ifs
  · simpa using hpos
  · rw [List.length_take]
    omega

theorem ConfigField.keptOf_append (field : ConfigField) (value : List UInt8) :
    ∃ more, value = field.keptOf value ++ more := by
  unfold ConfigField.keptOf
  split_ifs
  · exact ⟨value, rfl⟩
  · exact ⟨_, (List.take_append_drop _ _).symm⟩

theorem ConfigField.overwrite_put (value : List UInt8) :
    overwrite (overwrite field.bytes 0 value) value.length [0] = field.put value := by
  simp [overwrite, ConfigField.put, List.drop_append, List.drop_drop]

theorem setConfigField_status (field : List UInt8) (message : ConfigMessage) (p : ℕ) :
    (setConfigField field message p).status ≠ .failed := by
  unfold setConfigField
  dsimp only
  split_ifs <;> simp

/-- An item which is inside the message sets the field to what is kept of its value. -/
theorem setConfigField_eq {kind len : UInt8} {value rest : List UInt8}
    (hdrop : message.bytes.drop p = kind :: len :: (value ++ rest))
    (hlen : len.toNat = value.length) (hmore : value ++ rest ≠ []) :
    ∃ reads, (∀ i ∈ reads, i < message.bytes.length) ∧
      setConfigField field.bytes message p =
        ⟨if field.put (field.keptOf value) = field.bytes then .nothingToDo else .success,
          field.put (field.keptOf value), reads⟩ := by
  have hpos := field.nonempty
  have hbytes : message.bytes.drop (p + 2) = value ++ rest := by
    rw [← List.drop_drop, hdrop]
    rfl
  have hlength : (message.byte (p + 1)).toNat = value.length := by
    rw [ConfigMessage.byte_eq hdrop 1 rfl, hlen]
  have hcut : (if field.bytes.length ≤ value.length then field.bytes.length - 1
      else value.length) = (value.take (field.bytes.length - 1)).length := by
    rw [List.length_take]
    split_ifs <;> omega
  have hsz : (if message.byte (p + 2) = clearMark ∧
      (value.take (field.bytes.length - 1)).length = 1 then 0
      else (value.take (field.bytes.length - 1)).length) = (field.keptOf value).length := by
    unfold ConfigField.keptOf
    cases value with
    | nil => simp
    | cons c value =>
        have hc : message.byte (p + 2) = c := ConfigMessage.byte_eq hbytes 0 rfl
        simp only [hc, List.head?_cons, Option.some.injEq]
        split_ifs <;> rfl
  obtain ⟨more, hhead⟩ := field.keptOf_append value
  have hvalue : ((List.range (field.keptOf value).length).map fun i =>
      message.byte (p + 2 + i)) = field.keptOf value := by
    apply ConfigMessage.bytes_eq
    rw [hbytes, ← List.append_assoc, ← hhead]
  have hshort := field.keptOf_lt value
  refine ⟨(p + 2) :: (List.range (field.keptOf value).length).map (p + 2 + ·), ?_, ?_⟩
  · have hlast : (field.keptOf value).length ≤ (value ++ rest).length := by
      conv_rhs => rw [hhead, List.append_assoc, List.length_append]
      omega
    have hfirst := List.length_pos_of_ne_nil hmore
    intro i hi
    rcases List.mem_cons.mp hi with rfl | hi
    · exact ConfigMessage.lt_of_drop hbytes hfirst
    · obtain ⟨j, hj, rfl⟩ := List.mem_map.mp hi
      rw [List.mem_range] at hj
      exact ConfigMessage.lt_of_drop hbytes (by omega)
  · have hiff := field.put_eq_iff hshort
    unfold setConfigField
    simp only [hlength, hcut, hsz, hvalue, ← hiff, field.overwrite_put]
    by_cases hempty : field.keptOf value = []
    · have hput := field.overwrite_put []
      have hnothing : overwrite field.bytes 0 [] = field.bytes := rfl
      rw [hempty, List.length_nil] at hiff
      rw [hnothing, List.length_nil] at hput
      simp only [hempty, List.length_nil, ne_eq, not_true_eq_false, if_false, hput, hiff,
        List.take_zero, true_and]
      split_ifs with hzero
      · rw [hiff.mpr ⟨rfl, hzero⟩]
      · rfl
    · have hne : (field.keptOf value).length ≠ 0 := by simpa using hempty
      rw [if_pos hne]
      split_ifs with hsame
      · rw [hsame]
      · rfl

end Item

/-! ## The walk -/

def ChainSearch.Unread (id : ℕ) : ChainSearch → Prop
  | .found value rest => value = [] ∧ rest = []
  | .cutShort kind rest => kind.toNat = id → rest = []
  | .ended => True

theorem ConfigMessage.item_at (message : ConfigMessage) {p : ℕ}
    (hmore : p + 2 < message.bytes.length) :
    ∃ kind len tail, message.bytes.drop p = kind :: len :: tail ∧ tail ≠ [] := by
  refine ⟨message.bytes[p], message.bytes[p + 1], message.bytes.drop (p + 2), ?_, ?_⟩
  · rw [List.drop_eq_getElem_cons (by omega), List.drop_eq_getElem_cons (by omega)]
  · rw [ne_eq, List.drop_eq_nil_iff]
    omega

theorem ConfigMessage.header_inside (message : ConfigMessage) {p : ℕ}
    (hmore : p + 2 < message.bytes.length) : ∀ i ∈ [p + 1, p], i < message.bytes.length := by
  simp only [List.mem_cons, List.not_mem_nil, or_false, forall_eq_or_imp, forall_eq]
  omega

/-- The walk stops at the item the chain is searched for, or finds none. -/
theorem walkConfigItems_eq (id : ℕ) (field : List UInt8) (message : ConfigMessage) (p : ℕ) :
    ∃ reads, (∀ i ∈ reads, i < message.bytes.length) ∧
      ((∃ q kind len tail, message.bytes.drop q = kind :: len :: tail ∧ tail ≠ [] ∧
          kind.toNat = id ∧
          searchChain id (message.bytes.drop p) = searchChain id (message.bytes.drop q) ∧
          walkConfigItems id field message p =
            (setConfigField field message q).after reads) ∨
        (searchChain id (message.bytes.drop p)).Unread id ∧
          walkConfigItems id field message p = ⟨.failed, field, reads⟩) := by
  fun_induction walkConfigItems id field message p with
  | case1 p hmore hid =>
      obtain ⟨kind, len, tail, hdrop, htail⟩ := message.item_at hmore
      have hkind : message.byte p = kind := ConfigMessage.byte_eq hdrop 0 rfl
      rw [hkind] at hid
      exact ⟨[p + 1, p], message.header_inside hmore, .inl ⟨p, kind, len, tail, hdrop, htail,
        hid, rfl, rfl⟩⟩
  | case2 p hmore hid ih =>
      obtain ⟨kind, len, tail, hdrop, htail⟩ := message.item_at hmore
      have hkind : message.byte p = kind := ConfigMessage.byte_eq hdrop 0 rfl
      rw [hkind] at hid
      rw [ConfigMessage.byte_eq hdrop 1 rfl] at ih ⊢
      have hinside : ∀ reads : List ℕ, (∀ i ∈ reads, i < message.bytes.length) →
          ∀ i ∈ [p + 1, p] ++ reads, i < message.bytes.length := by
        intro reads hreads i hi
        exact (List.mem_append.mp hi).elim (message.header_inside hmore i) (hreads i)
      by_cases hshort : tail.length < len.toNat
      · -- the length points past the end, and with it the next item
        have hlength := congrArg List.length hdrop
        simp only [List.length_drop, List.length_cons] at hlength
        have hstop : walkConfigItems id field message (p + len.toNat + 2) =
            ⟨.failed, field, []⟩ := by
          rw [walkConfigItems, if_neg (by omega)]
        refine ⟨[p + 1, p], message.header_inside hmore, .inr ⟨?_, by rw [hstop]; rfl⟩⟩
        rw [hdrop, searchChain, if_pos hshort]
        exact fun hkind => absurd hkind hid
      · have hnext : message.bytes.drop (p + len.toNat + 2) = tail.drop len.toNat := by
          rw [show p + len.toNat + 2 = p + (2 + len.toNat) by omega, ← List.drop_drop, hdrop,
            ← List.drop_drop]
          rfl
        have hsearch : searchChain id (message.bytes.drop p) =
            searchChain id (message.bytes.drop (p + len.toNat + 2)) := by
          rw [hnext, hdrop, searchChain, if_neg hshort, if_neg hid]
        obtain ⟨reads, hreads, ⟨q, kind', len', tail', hq, htail', hid', hsame, hwalk⟩ |
          ⟨hunread, hwalk⟩⟩ := ih
        · refine ⟨[p + 1, p] ++ reads, hinside reads hreads, .inl ⟨q, kind', len', tail', hq,
            htail', hid', hsearch.trans hsame, ?_⟩⟩
          rw [hwalk]
          rfl
        · refine ⟨[p + 1, p] ++ reads, hinside reads hreads, .inr ⟨hsearch ▸ hunread, ?_⟩⟩
          rw [hwalk]
          rfl
  | case3 p hend =>
      refine ⟨[], by simp, .inr ⟨?_, rfl⟩⟩
      have hlength : (message.bytes.drop p).length ≤ 2 := by
        rw [List.length_drop]
        omega
      generalize message.bytes.drop p = chain at hlength
      match chain with
      | [] => simp [searchChain, ChainSearch.Unread]
      | [kind] => simp [searchChain, ChainSearch.Unread]
      | [kind, len] =>
          simp only [searchChain, List.length_nil]
          split_ifs <;> simp_all [ChainSearch.Unread, searchChain]
      | _ :: _ :: _ :: _ =>
          simp only [List.length_cons] at hlength
          omega

/-! ## When the item decides -/

theorem ConfigField.put_ne {field : ConfigField} {c : UInt8} (hc : c ≠ 0) :
    field.put [c] ≠ field.put [] := by
  simp [ConfigField.put, hc]

/-- Looking for the mark in what is kept makes a difference when a longer value which
begins with it is cut to it. -/
theorem ConfigField.put_keptOf_iff (field : ConfigField) (value : List UInt8) :
    field.put (field.keptOf value) = field.put (field.valueOf value) ↔
      ¬(field.bytes.length = 2 ∧ 2 ≤ value.length ∧ value.head? = some clearMark) := by
  have hpos := field.nonempty
  unfold ConfigField.keptOf ConfigField.valueOf
  rw [List.length_take]
  cases value with
  | nil => simp
  | cons c value =>
      simp only [List.head?_cons, Option.some.injEq, List.length_cons, List.cons.injEq]
      by_cases hc : c = clearMark
      · by_cases hvalue : value = []
        · simp only [hc, hvalue, true_and, and_self, if_true, List.length_nil]
          split_ifs with hlength
          · simp
          · have hone : field.bytes.length - 1 = 0 := by omega
            simp [hone]
        · have hmore := List.length_pos_of_ne_nil hvalue
          simp only [hc, hvalue, true_and, and_false, if_false, and_true]
          split_ifs with hlength
          · have htwo : field.bytes.length = 2 := by omega
            have hne := field.put_ne (show clearMark ≠ 0 by decide)
            simp only [htwo, Nat.add_one_sub_one, List.take_succ_cons, List.take_zero]
            constructor
            · exact fun h => absurd h.symm hne
            · intro h
              exact absurd ⟨trivial, by omega⟩ h
          · simp only [true_iff]
            omega
      · simp [hc]

/-- The status which a field that is set to a value goes with. -/
theorem setConfigField_reads {id : ℕ} {field : ConfigField} {message : ConfigMessage}
    {value rest : List UInt8} {run : ConfigItemRun}
    (hsearch : searchChain id message.bytes = .found value rest)
    (hreads : ∀ i ∈ run.reads, i < message.bytes.length)
    (hfield : run.field = field.put (field.keptOf value))
    (hstatus : run.status = if run.field = field.bytes then .nothingToDo else .success) :
    ReadsConfigItem id field message run ↔
      ¬(field.bytes.length = 2 ∧ 2 ≤ value.length ∧ value.head? = some clearMark) := by
  rw [← field.put_keptOf_iff, ← hfield]
  constructor
  · intro h
    exact (h.decided value rest hsearch).1
  · intro h
    refine ⟨hreads, fun value' rest' hfound => ?_, fun hnone => absurd hsearch (hnone _ _)⟩
    rw [hsearch] at hfound
    cases hfound
    exact ⟨h, hstatus⟩

theorem failed_reads {id : ℕ} {field : ConfigField} {message : ConfigMessage} {reads : List ℕ}
    (hreads : ∀ i ∈ reads, i < message.bytes.length) :
    ReadsConfigItem id field message ⟨.failed, field.bytes, reads⟩ ↔
      ∀ value rest, searchChain id message.bytes ≠ .found value rest := by
  constructor
  · intro h value rest hfound
    have hstatus := (h.decided value rest hfound).2
    simp at hstatus
  · intro hnone
    exact ⟨hreads, fun value rest hfound => absurd hfound (hnone value rest),
      fun _ => ⟨rfl, rfl⟩⟩

/-- The first item with the
identifier which lies inside the message decides, exactly when it is not an empty item at
the very end and not cut to the mark, and no item with the identifier and a length which
points past the end has a byte behind its length. -/
theorem config_item_read_from_message (id : ℕ) (field : ConfigField)
    (message : ConfigMessage) :
    ReadsConfigItem id field message (gazerbeamGetConfigItem id field message) ↔
      ConfigItemFits id field message := by
  obtain ⟨reads, hreads, hwalk⟩ := walkConfigItems_eq id field.bytes message 0
  rw [List.drop_zero] at hwalk
  unfold gazerbeamGetConfigItem ConfigItemFits
  obtain ⟨q, kind, len, tail, hdrop, htail, hid, hsearch, hrun⟩ | ⟨hunread, hrun⟩ := hwalk
  · rw [hdrop, searchChain] at hsearch
    by_cases hshort : tail.length < len.toNat
    · rw [if_pos hshort] at hsearch
      have hstatus := setConfigField_status field.bytes message q
      rw [hrun, hsearch]
      refine iff_of_false (fun h => hstatus (h.missing ?_).2) (fun h => htail (h hid))
      intro value rest hfound
      rw [hsearch] at hfound
      cases hfound
    · rw [if_neg hshort, if_pos hid] at hsearch
      have hparts := List.take_append_drop len.toNat tail
      rw [← hparts] at hdrop htail
      obtain ⟨reads', hreads', hset⟩ := @setConfigField_eq field message q kind len _ _ hdrop
        (by rw [List.length_take]; omega) htail
      rw [hrun, hset, hsearch]
      refine (setConfigField_reads hsearch ?_ rfl rfl).trans ?_
      · intro i hi
        exact (List.mem_append.mp hi).elim (hreads i) (hreads' i)
      · rw [ne_eq, List.append_eq_nil_iff, not_and_or] at htail
        simp only [ne_eq, htail, true_and]
  · rw [hrun, failed_reads hreads]
    cases hsearch : searchChain id message.bytes with
    | found value rest =>
        rw [hsearch] at hunread
        obtain ⟨rfl, rfl⟩ := hunread
        simp
    | cutShort kind rest =>
        rw [hsearch] at hunread
        exact iff_of_true (fun _ _ h => nomatch h) hunread
    | ended => simp

/-- An item for a field, two bytes of its value received: the third is taken from what
the memory has there. -/
theorem damaged_item_reads_neighbour :
    ¬∀ (id : ℕ) (field : ConfigField) (message : ConfigMessage),
      ReadsConfigItem id field message (gazerbeamGetConfigItem id field message) := by
  intro hall
  have hinside := (hall 2 ⟨[0, 0, 0, 0, 0], Nat.succ_pos 4⟩
    ⟨[2, 3, 97, 98], fun _ => 99⟩).inside 4
  rw [gazerbeamGetConfigItem, walkConfigItems, if_pos (by decide), if_pos (by decide)] at hinside
  exact absurd (hinside (by decide)) (by decide)

end Iocom
