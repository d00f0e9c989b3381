import Iocom.Accounts
import Mathlib.Tactic.Ring
import Mathlib.Data.List.Infix

/-!
# What decides about a user

An entry of the accounts or of the white list is meant to decide by its own
fields.  The parser keeps the fields of earlier objects, since they are
cleared only at the beginning of a block inside a block, and it stops at the
first integer value of an object.  Here is what it decides on every document,
and exactly when that is the decision of the entries.
-/

namespace Iocom

/-! ## Documents -/

structure AccountsEntry where
  arrayTag : String
  fields : List (String × JsonValue)
  deriving DecidableEq

inductive AccountsElement where
  | entry (fields : List (String × JsonValue))
  | value (v : JsonValue)

inductive AccountsMember where
  | value (tag : String) (v : JsonValue)
  | array (tag : String) (elements : List AccountsElement)

structure AccountsDocument where
  enclosing : List String
  members : List AccountsMember

def AccountsElement.items : AccountsElement → List JsonItem
  | .entry fields => ⟨"-", .startBlock⟩ :: (fieldItems fields ++ [⟨"", .endBlock⟩])
  | .value v => [⟨"-", .value v⟩]

def AccountsMember.items : AccountsMember → List JsonItem
  | .value tag v => [⟨tag, .value v⟩]
  | .array tag elements =>
      ⟨tag, .startArray⟩ :: (elements.flatMap AccountsElement.items ++ [⟨"", .endArray⟩])

def closing (n : ℕ) : List JsonItem := List.replicate n ⟨"", .endBlock⟩

def AccountsDocument.items (doc : AccountsDocument) : List JsonItem :=
  doc.enclosing.map (fun tag => ⟨tag, .startBlock⟩) ++
    (doc.members.flatMap AccountsMember.items ++ closing doc.enclosing.length)

/-- What the parser reads of a document, in order: a value beside the arrays,
or an entry. -/
inductive AccountsPiece where
  | value (tag : String) (v : JsonValue)
  | entry (e : AccountsEntry)

def AccountsElement.pieces (tag : String) : AccountsElement → List AccountsPiece
  | .entry fields => [.entry ⟨tag, fields⟩]
  | .value _ => []

def AccountsMember.pieces : AccountsMember → List AccountsPiece
  | .value tag v => [.value tag v]
  | .array tag elements =>
      elements.flatMap (AccountsElement.pieces (arrayTagOf tag))

def AccountsDocument.pieces (doc : AccountsDocument) : List AccountsPiece :=
  doc.members.flatMap AccountsMember.pieces

/-! ## Reading fields -/

def AccountFields.readValue (fields : AccountFields) (tag : String) :
    JsonValue → AccountFields
  | .string s => fields.set tag s
  | _ => fields

def AccountFields.read (fields : AccountFields) (values : List (String × JsonValue)) :
    AccountFields :=
  values.foldl (fun fields field => fields.readValue field.1 field.2) fields

/-- The fields set here, and those left over where none is set. -/
def AccountFields.completedBy (own leftOver : AccountFields) : AccountFields where
  userName := own.userName <|> leftOver.userName
  password := own.password <|> leftOver.password
  privileges := own.privileges <|> leftOver.privileges
  ipStart := own.ipStart <|> leftOver.ipStart
  ipEnd := own.ipEnd <|> leftOver.ipEnd

def hasInteger (values : List (String × JsonValue)) : Bool :=
  values.any fun field => field.2.isInteger

theorem noFields_completedBy (leftOver : AccountFields) :
    noFields.completedBy leftOver = leftOver := rfl

theorem AccountFields.set_completedBy (own leftOver : AccountFields) (tag s : String) :
    (own.completedBy leftOver).set tag s = (own.set tag s).completedBy leftOver := by
  unfold AccountFields.set
  split
  · rfl
  split
  · rfl
  split
  · rfl
  split
  · rfl
  split
  · rfl
  · rfl

theorem AccountFields.read_completedBy
    (own leftOver : AccountFields) (values : List (String × JsonValue)) :
    (own.completedBy leftOver).read values =
      (own.read values).completedBy leftOver := by
  induction values generalizing own with
  | nil => rfl
  | cons field values ih =>
      have hvalue : (own.completedBy leftOver).readValue field.1 field.2 =
          (own.readValue field.1 field.2).completedBy leftOver := by
        cases hv : field.2 with
        | string s => exact AccountFields.set_completedBy own leftOver field.1 s
        | integer l => rfl
        | float => rfl
        | null => rfl
        | boolean b => rfl
      unfold AccountFields.read
      rw [List.foldl_cons, List.foldl_cons, hvalue]
      exact ih (own.readValue field.1 field.2)

/-- What an entry leaves is its own fields, completed by those left over. -/
theorem AccountFields.read_eq
    (leftOver : AccountFields) (values : List (String × JsonValue)) :
    leftOver.read values = (noFields.read values).completedBy leftOver := by
  have h := noFields.read_completedBy leftOver values
  rwa [noFields_completedBy] at h

/-! ## The parser on a document -/

variable {check : AccountsCheck}

/-- The pieces read one after the other: whether all were read, and the
resulting state. -/
def AccountsCheck.readPieces (check : AccountsCheck) :
    AccountsParserState → List AccountsPiece → Bool × AccountsParserState
  | state, [] => (true, state)
  | state, .value tag v :: pieces =>
      if v.isInteger then (false, state)
      else
        check.readPieces { state with fields := state.fields.readValue tag v } pieces
  | state, .entry e :: pieces =>
      let filled := { state with fields := state.fields.read e.fields }
      if hasInteger e.fields then (false, filled)
      else check.readPieces (check.endOfBlock filled e.arrayTag) pieces

/-- Parsing succeeds with the state, or fails where the pieces stop being
read; then the fields do not matter any more. -/
def Parsed.Agrees
    (parsed : Parsed) (found : Bool × AccountsParserState) (rest : List JsonItem) :
    Prop :=
  (found.1 = true → parsed = ⟨.success, found.2, rest⟩) ∧
    (found.1 = false → parsed.status = .failed ∧
      ∃ fields, parsed.state = { found.2 with fields := fields })

theorem processBlock_entry
    {fuel : ℕ} {state : AccountsParserState} {arrayTag : String}
    {fields : List (String × JsonValue)} {rest : List JsonItem}
    (hfuel : fields.length < fuel) :
    (check.processBlock fuel state arrayTag
      (fieldItems fields ++ ⟨"", .endBlock⟩ :: rest)).Agrees
      (check.readPieces state [.entry ⟨arrayTag, fields⟩]) rest := by
  induction fields generalizing fuel state with
  | nil =>
      obtain ⟨fuel, rfl⟩ : ∃ n, fuel = n + 1 := ⟨fuel - 1, by
        simp only [List.length_nil] at hfuel
        omega⟩
      exact ⟨fun _ => rfl, (fun h => by cases h)⟩
  | cons field fields ih =>
      obtain ⟨fuel, rfl⟩ : ∃ n, fuel = n + 1 := ⟨fuel - 1, by omega⟩
      have hrest : fields.length < fuel := by
        rw [List.length_cons] at hfuel
        omega
      obtain ⟨tag, value⟩ := field
      cases value with
      | integer l => exact ⟨(fun h => by cases h), fun _ => ⟨rfl, state.fields, rfl⟩⟩
      | string s =>
          have h := @ih fuel { state with fields := state.fields.set tag s } hrest
          exact h
      | float =>
          have h := @ih fuel state hrest
          exact h
      | null =>
          have h := @ih fuel state hrest
          exact h
      | boolean b =>
          have h := @ih fuel state hrest
          exact h

theorem AccountsCheck.readPieces_append
    (state : AccountsParserState) (pieces more : List AccountsPiece) :
    check.readPieces state (pieces ++ more) =
      if (check.readPieces state pieces).1 then
        check.readPieces (check.readPieces state pieces).2 more
      else check.readPieces state pieces := by
  induction pieces generalizing state with
  | nil => rfl
  | cons piece pieces ih =>
      cases piece with
      | value tag v =>
          cases hv : v.isInteger with
          | true => simp only [List.cons_append, readPieces, hv, if_true]; rfl
          | false =>
              simp only [List.cons_append, readPieces, hv, Bool.false_eq_true, if_false]
              exact ih _
      | entry e =>
          cases he : hasInteger e.fields with
          | true => simp only [List.cons_append, readPieces, he, if_true]; rfl
          | false =>
              simp only [List.cons_append, readPieces, he, Bool.false_eq_true, if_false]
              exact ih _

/-- Parsing goes on after a nested block or array which was read. -/
theorem Parsed.Agrees.followedBy
    {parsed : Parsed} {state : AccountsParserState} {pieces more : List AccountsPiece}
    {rest final : List JsonItem} {next : AccountsParserState → List JsonItem → Parsed}
    (hparsed : parsed.Agrees (check.readPieces state pieces) rest)
    (hnext : ∀ between, (next between rest).Agrees (check.readPieces between more) final) :
    (if parsed.status = .success then next parsed.state parsed.rest else parsed).Agrees
      (check.readPieces state (pieces ++ more)) final := by
  rw [AccountsCheck.readPieces_append]
  cases hread : (check.readPieces state pieces).1 with
  | true =>
      have hdone := hparsed.1 hread
      rw [if_pos rfl, hdone, if_pos rfl]
      exact hnext _
  | false =>
      obtain ⟨hstatus, hfields⟩ := hparsed.2 hread
      have hfailed : ¬parsed.status = .success := by
        rw [hstatus]
        decide
      rw [if_neg hfailed, if_neg Bool.false_ne_true]
      exact ⟨(fun h => by rw [hread] at h; cases h), fun _ => ⟨hstatus, hfields⟩⟩

theorem processArray_elements
    {fuel : ℕ} {state : AccountsParserState} {arrayTag : String}
    {elements : List AccountsElement} {rest : List JsonItem}
    (hfuel : (elements.flatMap AccountsElement.items).length < fuel) :
    (check.processArray fuel state arrayTag
      (elements.flatMap AccountsElement.items ++ ⟨"", .endArray⟩ :: rest)).Agrees
      (check.readPieces state (elements.flatMap (AccountsElement.pieces arrayTag)))
      rest := by
  induction elements generalizing fuel state with
  | nil =>
      obtain ⟨fuel, rfl⟩ : ∃ n, fuel = n + 1 := ⟨fuel - 1, by
        simp only [List.flatMap_nil, List.length_nil] at hfuel
        omega⟩
      exact ⟨fun _ => rfl, (fun h => by cases h)⟩
  | cons element elements ih =>
      obtain ⟨fuel, rfl⟩ : ∃ n, fuel = n + 1 := ⟨fuel - 1, by omega⟩
      rw [List.flatMap_cons, List.length_append] at hfuel
      rw [List.flatMap_cons, List.flatMap_cons]
      cases element with
      | value v =>
          have hrest : (elements.flatMap AccountsElement.items).length < fuel := by
            simp only [AccountsElement.items, List.length_singleton] at hfuel
            omega
          have h := @ih fuel state hrest
          exact h
      | entry fields =>
          simp only [AccountsElement.items, List.length_cons, List.length_append,
            fieldItems, List.length_map, List.length_nil] at hfuel
          have hentry : fields.length < fuel := by omega
          have hrest : (elements.flatMap AccountsElement.items).length < fuel := by omega
          rw [AccountsElement.items, AccountsElement.pieces]
          simp only [List.cons_append, List.append_assoc, List.nil_append]
          exact (processBlock_entry hentry).followedBy fun between =>
            @ih fuel between hrest

theorem processBlock_members
    {fuel : ℕ} {state : AccountsParserState} {members : List AccountsMember} {n : ℕ}
    (hfuel : (members.flatMap AccountsMember.items).length < fuel) :
    (check.processBlock fuel state ""
      (members.flatMap AccountsMember.items ++ closing n)).Agrees
      (check.readPieces state (members.flatMap AccountsMember.pieces))
      (closing (n - 1)) := by
  induction members generalizing fuel state with
  | nil =>
      obtain ⟨fuel, rfl⟩ : ∃ n, fuel = n + 1 := ⟨fuel - 1, by
        simp only [List.flatMap_nil, List.length_nil] at hfuel
        omega⟩
      cases n with
      | zero => exact ⟨fun _ => rfl, (fun h => by cases h)⟩
      | succ n => exact ⟨fun _ => rfl, (fun h => by cases h)⟩
  | cons member members ih =>
      obtain ⟨fuel, rfl⟩ : ∃ n, fuel = n + 1 := ⟨fuel - 1, by omega⟩
      rw [List.flatMap_cons, List.length_append] at hfuel
      rw [List.flatMap_cons, List.flatMap_cons]
      cases member with
      | value tag v =>
          have hrest : (members.flatMap AccountsMember.items).length < fuel := by
            simp only [AccountsMember.items, List.length_singleton] at hfuel
            omega
          cases v with
          | integer l => exact ⟨(fun h => by cases h), fun _ => ⟨rfl, state.fields, rfl⟩⟩
          | string s =>
              have h := @ih fuel { state with fields := state.fields.set tag s } hrest
              exact h
          | float =>
              have h := @ih fuel state hrest
              exact h
          | null =>
              have h := @ih fuel state hrest
              exact h
          | boolean b =>
              have h := @ih fuel state hrest
              exact h
      | array tag elements =>
          simp only [AccountsMember.items, List.length_cons, List.length_append,
            List.length_nil] at hfuel
          have helements : (elements.flatMap AccountsElement.items).length < fuel := by
            omega
          have hrest : (members.flatMap AccountsMember.items).length < fuel := by omega
          rw [AccountsMember.items, AccountsMember.pieces]
          simp only [List.cons_append, List.append_assoc, List.nil_append]
          exact (processArray_elements helements).followedBy fun between =>
            @ih fuel between hrest

theorem processBlock_document
    {fuel : ℕ} {state : AccountsParserState} (doc : AccountsDocument) {n : ℕ}
    (hstate : state.fields = noFields) (hfuel : doc.items.length < fuel) :
    (check.processBlock fuel state "" (doc.items ++ closing n)).Agrees
      (check.readPieces state doc.pieces) (closing (n - 1)) := by
  obtain ⟨enclosing, members⟩ := doc
  induction enclosing generalizing fuel n with
  | nil =>
      have hmembers : (members.flatMap AccountsMember.items).length < fuel := by
        simpa [AccountsDocument.items, closing] using hfuel
      have h := @processBlock_members check fuel state members n hmembers
      simpa [AccountsDocument.items, AccountsDocument.pieces, closing] using h
  | cons tag enclosing ih =>
      obtain ⟨fuel, rfl⟩ : ∃ n, fuel = n + 1 := ⟨fuel - 1, by omega⟩
      have hitems : AccountsDocument.items ⟨tag :: enclosing, members⟩ ++ closing n =
          ⟨tag, .startBlock⟩ ::
            (AccountsDocument.items ⟨enclosing, members⟩ ++ closing (n + 1)) := by
        unfold AccountsDocument.items closing
        rw [List.map_cons, List.length_cons]
        have hcount : enclosing.length + 1 + n = enclosing.length + (n + 1) := by omega
        simp only [List.cons_append, List.append_assoc,
          List.replicate_append_replicate, hcount]
      have hinner : (AccountsDocument.items ⟨enclosing, members⟩).length < fuel := by
        have hlength := congrArg List.length hitems
        simp only [List.length_append, List.length_cons, closing,
          List.length_replicate] at hlength
        omega
      have hcleared : { state with fields := noFields } = state := by
        rw [← hstate]
      have hblock := ih (n := n + 1) hinner
      have hclosed : ∀ between, (check.processBlock fuel between "" (closing n)).Agrees
          (check.readPieces between []) (closing (n - 1)) := by
        intro between
        obtain ⟨fuel, rfl⟩ : ∃ n, fuel = n + 1 := ⟨fuel - 1, by omega⟩
        cases n with
        | zero => exact ⟨fun _ => rfl, (fun h => by cases h)⟩
        | succ n => exact ⟨fun _ => rfl, (fun h => by cases h)⟩
      rw [hitems, AccountsCheck.processBlock]
      dsimp only
      rw [hcleared]
      have hfollowed := @Parsed.Agrees.followedBy check _ _ _ [] _ _
        (fun between rest => check.processBlock fuel between "" rest) hblock hclosed
      rw [List.append_nil] at hfollowed
      exact hfollowed

theorem parseAccounts_document
    (check : AccountsCheck) (allowedNetworks : List AllowedNetwork)
    (doc : AccountsDocument) :
    let final := (check.readPieces (parserStart allowedNetworks) doc.pieces).2
    (check.parseAccounts allowedNetworks (some doc.items)).isValidUser =
        final.validUser ∧
      (check.parseAccounts allowedNetworks (some doc.items)).allowedNetworks =
        final.allowedNetworks := by
  have hagrees := @processBlock_document check (doc.items.length + 1)
    (parserStart allowedNetworks) doc 0 rfl (Nat.lt_succ_self _)
  have hitems : doc.items ++ closing 0 = doc.items := List.append_nil _
  rw [hitems] at hagrees
  intro final
  cases hread : (check.readPieces (parserStart allowedNetworks) doc.pieces).1 with
  | true =>
      have hparsed := hagrees.1 hread
      have hstate : (check.processBlock (doc.items.length + 1)
          (parserStart allowedNetworks) "" doc.items).state = final := by
        rw [hparsed]
      exact ⟨congrArg AccountsParserState.validUser hstate,
        congrArg AccountsParserState.allowedNetworks hstate⟩
  | false =>
      obtain ⟨-, fields, hstate⟩ := hagrees.2 hread
      have hvalid := congrArg AccountsParserState.validUser hstate
      have hallowed := congrArg AccountsParserState.allowedNetworks hstate
      exact ⟨hvalid, hallowed⟩

/-! ## The entries which are read -/

structure ReadEntry where
  entry : AccountsEntry
  leftOver : AccountFields

def ReadEntry.completed (e : ReadEntry) : AccountFields :=
  e.leftOver.read e.entry.fields

def AccountsEntry.own (e : AccountsEntry) : AccountFields :=
  noFields.read e.fields

/-- The entries before the first integer value. -/
def readEntries : AccountFields → List AccountsPiece → List ReadEntry
  | _, [] => []
  | leftOver, .value tag v :: pieces =>
      if v.isInteger then [] else readEntries (leftOver.readValue tag v) pieces
  | leftOver, .entry e :: pieces =>
      if hasInteger e.fields then []
      else ⟨e, leftOver⟩ :: readEntries (leftOver.read e.fields) pieces

def AccountsPiece.toEntry : AccountsPiece → Option AccountsEntry
  | .entry e => some e
  | .value _ _ => none

/-- The entries from the first integer value on. -/
def unreadEntries : List AccountsPiece → List AccountsEntry
  | [] => []
  | .value _ v :: pieces =>
      if v.isInteger then pieces.filterMap AccountsPiece.toEntry
      else unreadEntries pieces
  | .entry e :: pieces =>
      if hasInteger e.fields then e :: pieces.filterMap AccountsPiece.toEntry
      else unreadEntries pieces

def AccountsDocument.entries (doc : AccountsDocument) : List AccountsEntry :=
  doc.pieces.filterMap AccountsPiece.toEntry

def AccountsDocument.read (doc : AccountsDocument) : List ReadEntry :=
  readEntries noFields doc.pieces

def AccountsDocument.unread (doc : AccountsDocument) : List AccountsEntry :=
  unreadEntries doc.pieces

def AccountsCheck.passes (check : AccountsCheck) (arrayTag : String)
    (fields : AccountFields) : Bool :=
  if arrayTag = "whitelist" then check.checkWhitelist fields
  else if arrayTag = "accounts" then check.checkAccount fields
  else false

def AccountsCheck.passesAsAdministrator (check : AccountsCheck) (arrayTag : String)
    (fields : AccountFields) : Bool :=
  decide (arrayTag = "accounts") && check.checkAccount fields &&
    check.osal.equals fields.privileges "admin"

theorem filterMap_toEntry_eq (leftOver : AccountFields) (pieces : List AccountsPiece) :
    pieces.filterMap AccountsPiece.toEntry =
      (readEntries leftOver pieces).map ReadEntry.entry ++ unreadEntries pieces := by
  induction pieces generalizing leftOver with
  | nil => rfl
  | cons piece pieces ih =>
      cases piece with
      | value tag v =>
          rw [List.filterMap_cons, readEntries, unreadEntries]
          dsimp only [AccountsPiece.toEntry]
          split
          · rfl
          · exact ih _
      | entry e =>
          rw [List.filterMap_cons, readEntries, unreadEntries]
          dsimp only [AccountsPiece.toEntry]
          split
          · rfl
          · rw [List.map_cons, List.cons_append, ih (leftOver.read e.fields)]

theorem AccountsDocument.mem_entries {doc : AccountsDocument} {e : AccountsEntry} :
    e ∈ doc.entries ↔ (∃ r ∈ doc.read, r.entry = e) ∨ e ∈ doc.unread := by
  unfold AccountsDocument.entries AccountsDocument.read AccountsDocument.unread
  rw [filterMap_toEntry_eq noFields, List.mem_append, List.mem_map]

theorem endOfBlock_fields (state : AccountsParserState) (arrayTag : String) :
    (check.endOfBlock state arrayTag).fields = state.fields := by
  unfold AccountsCheck.endOfBlock
  split
  · split <;> rfl
  split
  · dsimp only
    split <;> rfl
  · rfl

theorem endOfBlock_validUser (state : AccountsParserState) (arrayTag : String) :
    (check.endOfBlock state arrayTag).validUser =
      (state.validUser || check.passes arrayTag state.fields) := by
  unfold AccountsCheck.endOfBlock AccountsCheck.passes
  split
  · cases hvalid : state.validUser with
    | true =>
        rw [Bool.not_true, Bool.false_and, if_neg Bool.false_ne_true]
        exact hvalid
    | false =>
        rw [Bool.not_false, Bool.true_and, Bool.false_or]
        cases hlisted : check.checkWhitelist state.fields with
        | true => rfl
        | false => exact hvalid
  split
  · dsimp only
    cases hmatch : check.checkAccount state.fields with
    | true => exact (Bool.or_true _).symm
    | false => exact (Bool.or_false _).symm
  · exact (Bool.or_false _).symm

theorem accountFlags_testBit (fields : AccountFields) :
    (check.accountFlags fields).testBit 0 = check.osal.equals fields.privileges "admin" := by
  unfold AccountsCheck.accountFlags
  cases check.osal.equals fields.privileges "admin" <;> rfl

theorem endOfBlock_isAdministrator (state : AccountsParserState) (arrayTag : String) :
    isAdministrator (check.endOfBlock state arrayTag).allowedNetworks
        check.mblkNetworkName =
      (isAdministrator state.allowedNetworks check.mblkNetworkName ||
        check.passesAsAdministrator arrayTag state.fields) := by
  unfold AccountsCheck.endOfBlock AccountsCheck.passesAsAdministrator
  split
  next hwhitelist =>
      have hother : decide (arrayTag = "accounts") = false := by
        rw [hwhitelist]
        rfl
      rw [hother, Bool.false_and, Bool.false_and, Bool.or_false]
      split
      · exact (isAdministrator_addAllowedNetwork _ _ _).trans (Bool.or_false _)
      · rfl
  split
  next haccounts =>
      rw [decide_eq_true haccounts, Bool.true_and]
      dsimp only
      cases hmatch : check.checkAccount state.fields with
      | true =>
          rw [if_pos rfl, isAdministrator_addAllowedNetwork, accountFlags_testBit,
            Bool.true_and]
      | false =>
          rw [if_neg Bool.false_ne_true, Bool.false_and, Bool.or_false]
  next haccounts =>
      rw [decide_eq_false haccounts, Bool.false_and, Bool.false_and, Bool.or_false]

theorem readPieces_validUser (state : AccountsParserState) (pieces : List AccountsPiece) :
    (check.readPieces state pieces).2.validUser =
      (state.validUser ||
        (readEntries state.fields pieces).any fun e =>
          check.passes e.entry.arrayTag e.completed) := by
  induction pieces generalizing state with
  | nil => exact (Bool.or_false _).symm
  | cons piece pieces ih =>
      cases piece with
      | value tag v =>
          rw [AccountsCheck.readPieces, readEntries]
          split
          · exact (Bool.or_false _).symm
          · exact ih _
      | entry e =>
          rw [AccountsCheck.readPieces, readEntries]
          split
          · exact (Bool.or_false _).symm
          · rw [ih, endOfBlock_fields, endOfBlock_validUser, List.any_cons, Bool.or_assoc]
            rfl

theorem readPieces_isAdministrator
    (state : AccountsParserState) (pieces : List AccountsPiece) :
    isAdministrator (check.readPieces state pieces).2.allowedNetworks
        check.mblkNetworkName =
      (isAdministrator state.allowedNetworks check.mblkNetworkName ||
        (readEntries state.fields pieces).any fun e =>
          check.passesAsAdministrator e.entry.arrayTag e.completed) := by
  induction pieces generalizing state with
  | nil => exact (Bool.or_false _).symm
  | cons piece pieces ih =>
      cases piece with
      | value tag v =>
          rw [AccountsCheck.readPieces, readEntries]
          split
          · exact (Bool.or_false _).symm
          · exact ih _
      | entry e =>
          rw [AccountsCheck.readPieces, readEntries]
          split
          · exact (Bool.or_false _).symm
          · rw [ih, endOfBlock_fields, endOfBlock_isAdministrator, List.any_cons,
              Bool.or_assoc]
            rfl

/-! ## Address ranges -/

def ipValue : List UInt8 → ℕ
  | [] => 0
  | byte :: bytes => byte.toNat * 256 ^ bytes.length + ipValue bytes

theorem ipValue_lt (bytes : List UInt8) : ipValue bytes < 256 ^ bytes.length := by
  induction bytes with
  | nil => exact Nat.one_pos
  | cons byte bytes ih =>
      have hbyte : byte.toNat + 1 ≤ 256 := byte.toNat_lt
      calc ipValue (byte :: bytes)
          < byte.toNat * 256 ^ bytes.length + 256 ^ bytes.length :=
            Nat.add_lt_add_left ih _
        _ = (byte.toNat + 1) * 256 ^ bytes.length := by ring
        _ ≤ 256 * 256 ^ bytes.length := Nat.mul_le_mul_right _ hbyte
        _ = 256 ^ (byte :: bytes).length := by
            rw [List.length_cons]
            ring

theorem ipValue_cons_lt
    {a b : UInt8} {as bs : List UInt8} (hlength : as.length = bs.length) (hab : a < b) :
    ipValue (a :: as) < ipValue (b :: bs) := by
  have hnat : a.toNat + 1 ≤ b.toNat := UInt8.lt_iff_toNat_lt.mp hab
  have htail := ipValue_lt as
  calc ipValue (a :: as)
      < a.toNat * 256 ^ as.length + 256 ^ as.length := Nat.add_lt_add_left htail _
    _ = (a.toNat + 1) * 256 ^ as.length := by ring
    _ ≤ b.toNat * 256 ^ as.length := Nat.mul_le_mul_right _ hnat
    _ ≤ ipValue (b :: bs) := by
        rw [hlength]
        exact Nat.le_add_right _ _

theorem compareIp_iff {as bs : List UInt8} (hlength : as.length = bs.length) :
    (compareIp as bs < 0 ↔ ipValue as < ipValue bs) ∧
      (0 < compareIp as bs ↔ ipValue bs < ipValue as) := by
  induction as generalizing bs with
  | nil =>
      obtain rfl : bs = [] := List.length_eq_zero_iff.mp hlength.symm
      exact ⟨by decide, by decide⟩
  | cons a as ih =>
      cases bs with
      | nil => cases hlength
      | cons b bs =>
          have htail : as.length = bs.length := Nat.succ.inj hlength
          rw [compareIp]
          split
          next hab =>
              have hlt := ipValue_cons_lt htail hab
              exact ⟨⟨fun _ => hlt, fun _ => by decide⟩,
                ⟨fun h => absurd h (by decide), fun h => absurd h hlt.asymm⟩⟩
          next hab =>
              split
              next hba =>
                  have hlt := ipValue_cons_lt htail.symm hba
                  exact ⟨⟨fun h => absurd h (by decide), fun h => absurd h hlt.asymm⟩,
                    ⟨fun _ => hlt, fun _ => by decide⟩⟩
              next hba =>
                  have heq : a = b := UInt8.le_antisymm (UInt8.not_lt.mp hba)
                    (UInt8.not_lt.mp hab)
                  obtain ⟨hneg, hpos⟩ := ih htail
                  rw [hneg, hpos, heq, ipValue, ipValue, htail]
                  constructor <;> omega

/-! ## Decision by the fields of an entry -/

/-- The `user` pattern of the entry matches, and its `password` is `*` or the
one received. -/
structure AccountsCheck.MatchesAccount (check : AccountsCheck) (own : AccountFields) :
    Prop where
  user : ∃ pattern, own.userName = some pattern ∧
    check.osal.patternMatch check.checkedUserName (some pattern) = true
  password : own.password = some "*" ∨ own.password = some check.user.password

/-- The address is from `ip` to `last_ip` of the entry. -/
def AccountsCheck.InRange (check : AccountsCheck) (own : AccountFields) : Prop :=
  ∃ first last, own.ipStart = some first ∧ own.ipEnd = some last ∧
    ∃ firstIp lastIp receivedIp,
      check.osal.ipFromStr (some first) = some firstIp ∧
      check.osal.ipFromStr (some last) = some lastIp ∧
      check.osal.ipFromStr (some check.receivedIp) = some receivedIp ∧
      ipValue firstIp.val ≤ ipValue receivedIp.val ∧
      ipValue receivedIp.val ≤ ipValue lastIp.val

def AccountsCheck.LetsIn (check : AccountsCheck) (e : AccountsEntry) : Prop :=
  e.arrayTag = "accounts" ∧ check.MatchesAccount e.own ∨
    e.arrayTag = "whitelist" ∧ check.InRange e.own

def AccountsCheck.LetsInAdministrator (check : AccountsCheck) (e : AccountsEntry) : Prop :=
  e.arrayTag = "accounts" ∧ check.MatchesAccount e.own ∧ e.own.privileges = some "admin"

theorem AccountsCheck.checkWhitelist_of_inRange
    {own leftOver : AccountFields} (h : check.InRange own) :
    check.checkWhitelist (own.completedBy leftOver) = true := by
  obtain ⟨first, last, hfirst, hlast, firstIp, lastIp, receivedIp, hfirstIp, hlastIp,
    hreceivedIp, hlower, hupper⟩ := h
  have hstart : (own.completedBy leftOver).ipStart = some first := by
    unfold AccountFields.completedBy
    rw [hfirst]
    rfl
  have hend : (own.completedBy leftOver).ipEnd = some last := by
    unfold AccountFields.completedBy
    rw [hlast]
    rfl
  have hbelow := (compareIp_iff (receivedIp.property.trans firstIp.property.symm)).1
  have habove := (compareIp_iff (receivedIp.property.trans lastIp.property.symm)).2
  unfold checkWhitelist
  rw [hstart, hend, hfirstIp, hlastIp, hreceivedIp]
  dsimp only
  rw [if_neg (fun h => absurd (hbelow.mp h) (Nat.not_lt.mpr hlower)),
    if_neg (fun h => absurd (habove.mp h) (Nat.not_lt.mpr hupper))]

theorem AccountsCheck.checkAccount_of_matchesAccount
    {own leftOver : AccountFields} (h : check.MatchesAccount own) :
    check.checkAccount (own.completedBy leftOver) = true := by
  obtain ⟨⟨pattern, huser, hpattern⟩, hpassword⟩ := h
  have hname : (own.completedBy leftOver).userName = some pattern := by
    unfold AccountFields.completedBy
    rw [huser]
    rfl
  unfold checkAccount
  rw [hname, hpattern, Bool.true_and, Bool.or_eq_true]
  rcases hpassword with hpassword | hpassword
  · left
    unfold AccountFields.completedBy
    rw [hpassword]
    rfl
  · right
    unfold AccountFields.completedBy
    rw [hpassword]
    exact decide_eq_true rfl

/-- What is left over does not keep out a user whom an entry lets in. -/
theorem AccountsCheck.LetsIn.passes {r : ReadEntry} (h : check.LetsIn r.entry) :
    check.passes r.entry.arrayTag r.completed = true := by
  unfold AccountsCheck.passes ReadEntry.completed
  rw [AccountFields.read_eq]
  rcases h with ⟨htag, hmatch⟩ | ⟨htag, hrange⟩
  · rw [htag, if_neg (by decide), if_pos rfl]
    exact checkAccount_of_matchesAccount hmatch
  · rw [htag, if_pos rfl]
    exact checkWhitelist_of_inRange hrange

/-- The parser accepts the user exactly when an entry of the document lets the
user in, and it gives administrator privileges only if an entry does. -/
structure AccountsCheck.DecidesByOwnFields
    (check : AccountsCheck) (doc : AccountsDocument) : Prop where
  validUser : ∀ allowedNetworks,
    (check.parseAccounts allowedNetworks (some doc.items)).isValidUser = true ↔
      ∃ e ∈ doc.entries, check.LetsIn e
  administrator : ∀ allowedNetworks,
    isAdministrator allowedNetworks check.mblkNetworkName = false →
    isAdministrator
      (check.parseAccounts allowedNetworks (some doc.items)).allowedNetworks
      check.mblkNetworkName = true →
    ∃ e ∈ doc.entries, check.LetsInAdministrator e

/-- The unread entries and the fields left over make no difference. -/
structure AccountsCheck.ReadsOwnFields
    (check : AccountsCheck) (doc : AccountsDocument) : Prop where
  unread : (∃ e ∈ doc.unread, check.LetsIn e) →
    ∃ r ∈ doc.read, check.passes r.entry.arrayTag r.completed = true
  leftOver : (∃ r ∈ doc.read, check.passes r.entry.arrayTag r.completed = true ∧
      ¬check.LetsIn r.entry) →
    ∃ e ∈ doc.entries, check.LetsIn e
  privileges : (∃ r ∈ doc.read,
      check.passesAsAdministrator r.entry.arrayTag r.completed = true ∧
        ¬check.LetsInAdministrator r.entry) →
    ∃ e ∈ doc.entries, check.LetsInAdministrator e

theorem parseAccounts_isValidUser
    (allowedNetworks : List AllowedNetwork) (doc : AccountsDocument) :
    (check.parseAccounts allowedNetworks (some doc.items)).isValidUser = true ↔
      ∃ r ∈ doc.read, check.passes r.entry.arrayTag r.completed = true := by
  rw [(parseAccounts_document check allowedNetworks doc).1, readPieces_validUser]
  exact List.any_eq_true

theorem parseAccounts_isAdministrator_or
    (allowedNetworks : List AllowedNetwork) (doc : AccountsDocument) :
    isAdministrator
        (check.parseAccounts allowedNetworks (some doc.items)).allowedNetworks
        check.mblkNetworkName = true ↔
      isAdministrator allowedNetworks check.mblkNetworkName = true ∨
        ∃ r ∈ doc.read,
          check.passesAsAdministrator r.entry.arrayTag r.completed = true := by
  have hstart : (parserStart allowedNetworks).allowedNetworks = allowedNetworks := rfl
  rw [(parseAccounts_document check allowedNetworks doc).2, readPieces_isAdministrator,
    hstart, Bool.or_eq_true]
  exact or_congr_right List.any_eq_true

theorem parseAccounts_isAdministrator
    (allowedNetworks : List AllowedNetwork) (doc : AccountsDocument)
    (hbefore : isAdministrator allowedNetworks check.mblkNetworkName = false) :
    isAdministrator
        (check.parseAccounts allowedNetworks (some doc.items)).allowedNetworks
        check.mblkNetworkName = true ↔
      ∃ r ∈ doc.read,
        check.passesAsAdministrator r.entry.arrayTag r.completed = true := by
  rw [parseAccounts_isAdministrator_or, hbefore, or_iff_right Bool.false_ne_true]

/-- The decision is that of the entries exactly when neither the entries after
an integer value nor the fields left over from earlier objects make a
difference. -/
theorem accounts_decide_by_own_fields (check : AccountsCheck) (doc : AccountsDocument) :
    check.DecidesByOwnFields doc ↔ check.ReadsOwnFields doc := by
  constructor
  · intro h
    refine ⟨?_, ?_, ?_⟩
    · rintro ⟨e, he, hlets⟩
      have hentry : e ∈ doc.entries := AccountsDocument.mem_entries.mpr (.inr he)
      exact (parseAccounts_isValidUser [] doc).mp
        ((h.validUser []).mpr ⟨e, hentry, hlets⟩)
    · rintro ⟨r, hr, hpasses, -⟩
      exact (h.validUser []).mp
        ((parseAccounts_isValidUser [] doc).mpr ⟨r, hr, hpasses⟩)
    · rintro ⟨r, hr, hpasses, -⟩
      exact h.administrator [] rfl
        ((parseAccounts_isAdministrator [] doc rfl).mpr ⟨r, hr, hpasses⟩)
  · intro h
    refine ⟨fun allowedNetworks => ?_, fun allowedNetworks hbefore hafter => ?_⟩
    · rw [parseAccounts_isValidUser]
      constructor
      · rintro ⟨r, hr, hpasses⟩
        by_cases hlets : check.LetsIn r.entry
        · exact ⟨r.entry, AccountsDocument.mem_entries.mpr (.inl ⟨r, hr, rfl⟩), hlets⟩
        · exact h.leftOver ⟨r, hr, hpasses, hlets⟩
      · rintro ⟨e, he, hlets⟩
        rcases AccountsDocument.mem_entries.mp he with ⟨r, hr, rfl⟩ | he
        · exact ⟨r, hr, hlets.passes⟩
        · exact h.unread ⟨e, he, hlets⟩
    · obtain ⟨r, hr, hpasses⟩ :=
        (parseAccounts_isAdministrator allowedNetworks doc hbefore).mp hafter
      by_cases hlets : check.LetsInAdministrator r.entry
      · exact ⟨r.entry, AccountsDocument.mem_entries.mpr (.inl ⟨r, hr, rfl⟩), hlets⟩
      · exact h.privileges ⟨r, hr, hpasses, hlets⟩

/-- Entries which do not let the user in may come, go and change place. -/
theorem AccountsCheck.DecidesByOwnFields.same_validUser
    {doc doc' : AccountsDocument} {allowedNetworks : List AllowedNetwork}
    (h : check.DecidesByOwnFields doc) (h' : check.DecidesByOwnFields doc')
    (hsame : ∀ e, check.LetsIn e → (e ∈ doc.entries ↔ e ∈ doc'.entries)) :
    (check.parseAccounts allowedNetworks (some doc.items)).isValidUser =
      (check.parseAccounts allowedNetworks (some doc'.items)).isValidUser := by
  apply Bool.eq_iff_iff.mpr
  rw [h.validUser, h'.validUser]
  constructor
  · rintro ⟨e, he, hlets⟩
    exact ⟨e, (hsame e hlets).mp he, hlets⟩
  · rintro ⟨e, he, hlets⟩
    exact ⟨e, (hsame e hlets).mpr he, hlets⟩

/-- An accounts array in which the second user has a plain account. -/
def twoAccounts : AccountsDocument where
  enclosing := ["", "accounts"]
  members :=
    [.array "accounts"
      [.entry [("user", .string "alice"), ("password", .string "apple"),
        ("privileges", .string "admin")],
      .entry [("user", .string "bob"), ("password", .string "pear")]]]

/-- The second user logs in; names without wildcards match themselves only. -/
def bobChecked : AccountsCheck where
  osal :=
    { patternMatch := fun name pattern => decide (pattern = some name)
      nullEquals := fun s => decide (s = "")
      ipFromStr := fun _ => none }
  user := ⟨"bob", "cafenet", "pear"⟩
  checkedUserName := "bob"
  mblkNetworkName := "cafenet"
  receivedIp := ""

/-- The user without privileges becomes an administrator. -/
theorem accounts_privileges_leak : ¬bobChecked.DecidesByOwnFields twoAccounts := by
  intro h
  obtain ⟨e, he, hlets⟩ := h.administrator [] rfl (by decide +kernel)
  obtain ⟨-, ⟨⟨pattern, huser, hpattern⟩, -⟩, hprivileges⟩ := hlets
  have hentries : twoAccounts.entries =
      [⟨"accounts", [("user", .string "alice"), ("password", .string "apple"),
        ("privileges", .string "admin")]⟩,
      ⟨"accounts", [("user", .string "bob"), ("password", .string "pear")]⟩] := by
    decide +kernel
  rw [hentries, List.mem_cons, List.mem_singleton] at he
  rcases he with rfl | rfl
  · have hname : some "alice" = some pattern := huser
    rw [← hname] at hpattern
    exact absurd hpattern (by decide)
  · exact absurd hprivileges (by decide)

/-! ## Authorization by the memory blocks -/

section Authorization

variable (request : AuthorizeRequest) (documentOf : AccountsBlock → Option AccountsDocument)

/-- Both names are needed to check anything. -/
def AuthorizeRequest.Named : Prop :=
  request.user.userName ≠ "" ∧ request.user.networkName ≠ ""

/-- `n_to_check`: the own network of the root is checked alone. -/
def AuthorizeRequest.nToCheck : ℕ := if request.checkRootNetwork.isNone then 1 else 2

variable {request documentOf}

end Authorization

end Iocom
