import Iocom.Lib.Placement
import Iocom.SignalsReading
import Iocom.SignalsToC
import Mathlib.Data.List.Induction

/-!
# Where the signals are

The code generator and the run-time information place the signals of a memory
block in the same way, one after another: the addresses, the types, the number
of elements and the sizes of the memory blocks are those of one placement.
-/

namespace Iocom

open Placement

/-! ## Types and sizes -/

def TypeId.name : TypeId → String
  | .undefined => "undef"
  | .boolean => "boolean"
  | .char => "char"
  | .uchar => "uchar"
  | .short => "short"
  | .ushort => "ushort"
  | .int => "int"
  | .uint => "uint"
  | .int64 => "int64"
  | .long => "long"
  | .float => "float"
  | .double => "double"
  | .dec01 => "dec01"
  | .dec001 => "dec001"
  | .str => "str"
  | .object => "object"
  | .pointer => "pointer"

def typeIds : List TypeId :=
  [.undefined, .boolean, .char, .uchar, .short, .ushort, .int, .uint, .int64, .long, .float,
    .double, .dec01, .dec001, .str, .object, .pointer]

def typeOfName (name : String) : Option TypeId := typeIds.find? fun typeId => typeId.name = name

theorem typeOfName_name (typeId : TypeId) : typeOfName typeId.name = some typeId := by
  cases typeId <;> rfl

theorem osalTypeinfo_eq :
    osalTypeinfo = typeIds.map fun typeId => (typeId.name, typeSize typeId) :=
  rfl

theorem osalTypeinfo_lookup (typeId : TypeId) :
    osalTypeinfo.lookup typeId.name = some (typeSize typeId) := by
  cases typeId <;> rfl

theorem exists_typeId_of_lookup {type : String} {typeSz : ℕ}
    (h : osalTypeinfo.lookup type = some typeSz) : ∃ typeId : TypeId, typeId.name = type := by
  obtain ⟨before, behind, hsplit, -⟩ := List.lookup_eq_some_iff.mp h
  have hmem : (type, typeSz) ∈ osalTypeinfo := by
    rw [hsplit]
    exact List.mem_append_right _ List.mem_cons_self
  rw [osalTypeinfo_eq] at hmem
  obtain ⟨typeId, -, htype⟩ := List.mem_map.mp hmem
  exact ⟨typeId, congrArg Prod.fst htype⟩

theorem TypeId.name_eq_boolean {typeId : TypeId} :
    typeId.name = "boolean" ↔ typeId = .boolean := by
  cases typeId <;> simp [TypeId.name]

/-- `ioc_nro_signal_bytes` of a signal of a type with a number of elements. -/
def signalBytes (typeId : TypeId) (n : ℤ) : ℤ :=
  ((⟨0, n.toNat, typeId⟩ : Signal).nroSignalBytes : ℕ)

theorem signalBytes_eq {n : ℤ} (hn : 1 ≤ n) (typeId : TypeId) :
    signalBytes typeId n =
      if typeId = .boolean then (if n ≤ 1 then 1 else (n + 7) / 8 + 1)
      else n * typeSize typeId + 1 := by
  obtain ⟨k, rfl⟩ := Int.eq_ofNat_of_zero_le (show 0 ≤ n by omega)
  have hk : ¬k < 1 := by omega
  unfold signalBytes Signal.nroSignalBytes
  rw [Int.toNat_natCast]
  dsimp only
  rw [if_neg hk]
  cases typeId <;> simp [typeSize]
  split_ifs <;> omega

theorem signalBytes_nonneg (typeId : TypeId) (n : ℤ) : 0 ≤ signalBytes typeId n :=
  Int.natCast_nonneg _

theorem calcSignalMemorySz_name {n : ℤ} (hn : 1 ≤ n) (typeId : TypeId) :
    calcSignalMemorySz typeId.name n = some (signalBytes typeId n) := by
  rw [signalBytes_eq hn]
  unfold calcSignalMemorySz
  by_cases hboolean : typeId = .boolean
  · rw [if_pos (TypeId.name_eq_boolean.mpr hboolean), if_pos hboolean]
    split_ifs <;> rfl
  · rw [if_neg (fun h => hboolean (TypeId.name_eq_boolean.mp h)), if_neg hboolean,
      osalTypeinfo_lookup]

theorem dinfoSignalBytes_eq {n : ℤ} (hn : 1 ≤ n) (hlast : n < 2147483641) {typeId : TypeId}
    (hfit : signalBytes typeId n < 2147483648) :
    dinfoSignalBytes typeId n = signalBytes typeId n := by
  rw [signalBytes_eq hn] at hfit ⊢
  by_cases hboolean : typeId = .boolean
  · subst hboolean
    unfold dinfoSignalBytes
    rw [if_pos rfl]
    by_cases hone : n = 1
    · rw [if_pos hone, if_pos (by omega)]
    · rw [if_neg hone, if_neg (by omega), osInt_of_range (by omega) (by omega)]
      rw [Int.tdiv_eq_ediv_of_nonneg (by omega)]
  · rw [if_neg hboolean] at hfit ⊢
    have hsize : 0 ≤ n * (typeSize typeId : ℤ) := by
      apply Int.mul_nonneg (by omega) (Int.natCast_nonneg _)
    have hrange : osInt (n * typeSize typeId + 1) = n * typeSize typeId + 1 :=
      osInt_of_range (by omega) hfit
    cases typeId <;> first
      | exact absurd rfl hboolean
      | simpa [dinfoSignalBytes, typeSize] using hrange

/-! ## Requests -/

def SignalObject.request (signal : SignalObject) : Request TypeId ℤ where
  address :=
    match signal.get "addr" with
    | some (.integer l) => some l
    | _ => none
  kind :=
    match signal.get "type" with
    | some (.string s) => typeOfName s
    | _ => none
  amount :=
    match signal.get "array" with
    | some (.integer l) => if l < 1 then 1 else l
    | _ => 1

def SignalObject.name (signal : SignalObject) : String :=
  match signal.get "name" with
  | some (.string s) => s
  | _ => ""

/-- An explicit address is a number from 0 on, and an array has no more
elements than an integer of the run-time can count. -/
structure SignalObject.InRange (signal : SignalObject) : Prop where
  addr : ∀ v, signal.get "addr" = some v → ∃ l : ℤ, v = .integer l ∧ 0 ≤ l
  array : ∀ l, signal.get "array" = some (.integer l) →
    -2147483648 ≤ l ∧ l < 2147483641

structure SignalObject.Typed (signal : SignalObject) : Prop where
  name : signal.get "name" = some (.string signal.name)
  type : ∀ v, signal.get "type" = some v → ∃ typeId : TypeId, v = .string typeId.name

theorem SignalObject.one_le_amount (signal : SignalObject) : 1 ≤ signal.request.amount := by
  unfold SignalObject.request
  dsimp only
  split
  · split_ifs <;> omega
  · exact le_refl _

theorem SignalObject.InRange.amount_lt {signal : SignalObject} (h : signal.InRange) :
    signal.request.amount < 2147483641 := by
  unfold SignalObject.request
  dsimp only
  split
  · rename_i l hl
    have hrange := h.array l hl
    split_ifs <;> omega
  · omega

theorem SignalObject.InRange.address_nonneg {signal : SignalObject} (h : signal.InRange) :
    ∀ address ∈ signal.request.address, 0 ≤ address := by
  intro address haddress
  unfold SignalObject.request at haddress
  dsimp only at haddress
  split at haddress
  · rename_i l hl
    obtain ⟨l', hl', hpos⟩ := h.addr _ hl
    rw [FieldValue.integer.injEq] at hl'
    rw [Option.mem_some_iff] at haddress
    omega
  · cases haddress

/-! ## The script -/

structure ScriptState.At (state : ScriptState) (cursor : Cursor TypeId) : Prop where
  type : state.currentType = cursor.kind.name
  addr : state.currentAddr = cursor.address
  maxAddr : state.maxAddr = cursor.extent

def SignalObject.generated (signal : SignalObject) (placed : Allotment TypeId ℤ) : PSignal :=
  ⟨signal.name, placed.address, placed.kind.name, placed.amount⟩

theorem scriptAddr_eq {signal : SignalObject} (h : signal.InRange) {currentAddr addr : ℤ}
    (haddr : scriptAddr currentAddr (signal.get "addr") = some addr) :
    addr = signal.request.address.getD currentAddr := by
  unfold SignalObject.request
  dsimp only
  cases hget : signal.get "addr" with
  | none =>
      rw [hget] at haddr
      exact (Option.some.inj haddr).symm
  | some v =>
      obtain ⟨l, rfl, -⟩ := h.addr v hget
      rw [hget] at haddr
      exact (Option.some.inj haddr).symm

theorem scriptArrayN_eq {signal : SignalObject} {type : String} {arrayN : ℤ}
    (harray : scriptArrayN type (signal.fields.lookup "array") = some arrayN) :
    arrayN = signal.request.amount := by
  unfold SignalObject.request SignalObject.get
  dsimp only
  cases hlookup : signal.fields.lookup "array" with
  | none =>
      rw [hlookup] at harray
      exact (Option.some.inj harray).symm
  | some v =>
      rw [hlookup] at harray
      cases v with
      | string s => cases harray
      | null => cases harray
      | integer l => exact (Option.some.inj harray).symm
      | boolean b => exact (Option.some.inj harray).symm
      | float o =>
          cases o with
          | lt => exact (Option.some.inj harray).symm
          | gt => cases harray
          | eq =>
              unfold scriptArrayN at harray
              split_ifs at harray
              exact (Option.some.inj harray).symm

theorem scriptType_eq {signal : SignalObject} {type : String} {arrayN memSzBytes : ℤ}
    {kind : TypeId} (htype : scriptType kind.name (signal.get "type") = some type)
    (hsize : calcSignalMemorySz type arrayN = some memSzBytes) :
    type = (signal.request.kind.getD kind).name ∧
      ∀ v, signal.get "type" = some v → ∃ typeId : TypeId, v = .string typeId.name := by
  have hknown : ∃ typeId : TypeId, typeId.name = type := by
    unfold calcSignalMemorySz at hsize
    by_cases hboolean : type = "boolean"
    · exact ⟨.boolean, hboolean.symm⟩
    · rw [if_neg hboolean] at hsize
      cases hlookup : osalTypeinfo.lookup type with
      | none => rw [hlookup] at hsize; cases hsize
      | some typeSz => exact exists_typeId_of_lookup hlookup
  unfold SignalObject.request
  dsimp only
  cases hget : signal.get "type" with
  | none =>
      rw [hget] at htype
      exact ⟨(Option.some.inj htype).symm, fun v hv => by cases hv⟩
  | some v =>
      rw [hget] at htype
      cases v with
      | string s =>
          obtain ⟨typeId, hname⟩ := hknown
          have hs : s = type := Option.some.inj htype
          subst hs hname
          dsimp only
          rw [typeOfName_name]
          refine ⟨rfl, fun v hv => ⟨typeId, (Option.some.inj hv).symm⟩⟩
      | integer l => cases htype
      | float o => cases htype
      | null => cases htype
      | boolean b => cases htype

theorem preprocessSignal_eq
    {state state' : ScriptState} {cursor : Cursor TypeId} {signal : SignalObject}
    (hcursor : state.At cursor) (hrange : signal.InRange)
    (h : state.preprocessSignal signal = some state') :
    signal.Typed ∧ state'.At (cursor.next signalBytes signal.request) ∧
      state'.pSignals = assignKey state.pSignals (cursor.place signal.request).address
        (signal.generated (cursor.place signal.request)) := by
  unfold ScriptState.preprocessSignal at h
  simp only [Option.bind_eq_bind, Option.bind_eq_some_iff] at h
  obtain ⟨addr, haddr, type, htype, arrayN, harray, memSzBytes, hsize, name, hname, hstate⟩ := h
  rw [hcursor.type] at htype
  obtain ⟨htypeName, htyped⟩ := scriptType_eq htype hsize
  have haddress := scriptAddr_eq hrange haddr
  have hamount := scriptArrayN_eq harray
  rw [hcursor.addr] at haddress
  have hget : signal.get "name" = some (.string name) := by
    cases hget : signal.get "name" with
    | none => rw [hget] at hname; cases hname
    | some v =>
        rw [hget] at hname
        cases v with
        | string s => rw [Option.some.inj hname]
        | integer l => cases hname
        | float o => cases hname
        | null => cases hname
        | boolean b => cases hname
  have hsignalName : signal.name = name := by
    unfold SignalObject.name
    rw [hget]
  rw [htypeName, hamount, calcSignalMemorySz_name signal.one_le_amount,
    Option.some.injEq] at hsize
  have hmax : ∀ a b : ℤ, (if a > b then a else b) = max b a := by
    intro a b
    split_ifs <;> omega
  rw [← Option.some.inj hstate]
  subst hsize haddress hamount htypeName hsignalName
  refine ⟨⟨hget, htyped⟩, ⟨rfl, rfl, ?_⟩, rfl⟩
  dsimp only
  rw [hmax, hcursor.maxAddr]
  rfl

def placesOf (cursor : Cursor TypeId) (signals : List SignalObject) :
    List (Allotment TypeId ℤ) :=
  cursor.placeAll signalBytes (signals.map SignalObject.request)

def cursorAfter (cursor : Cursor TypeId) (signals : List SignalObject) : Cursor TypeId :=
  cursor.after signalBytes (signals.map SignalObject.request)

/-- `p_signals[p_signal['addr']] = p_signal` for several signals. -/
def assignAll (dictionary : List (ℤ × PSignal)) (pSignals : List PSignal) :
    List (ℤ × PSignal) :=
  pSignals.foldl (fun dictionary p => assignKey dictionary p.addr p) dictionary

theorem preprocessSignals_eq
    {state state' : ScriptState} {cursor : Cursor TypeId} {signals : List SignalObject}
    (hcursor : state.At cursor) (hrange : ∀ signal ∈ signals, signal.InRange)
    (h : signals.foldlM ScriptState.preprocessSignal state = some state') :
    (∀ signal ∈ signals, signal.Typed) ∧ state'.At (cursorAfter cursor signals) ∧
      state'.pSignals = assignAll state.pSignals
        (List.zipWith SignalObject.generated signals (placesOf cursor signals)) := by
  induction signals generalizing state cursor with
  | nil =>
      rw [List.foldlM_nil] at h
      obtain rfl := Option.some.inj h
      exact ⟨(fun signal hsignal => by cases hsignal), hcursor, rfl⟩
  | cons signal signals ih =>
      rw [List.foldlM_cons, Option.bind_eq_bind, Option.bind_eq_some_iff] at h
      obtain ⟨next, hnext, h⟩ := h
      obtain ⟨htyped, hat, hsignals⟩ :=
        preprocessSignal_eq hcursor (hrange signal List.mem_cons_self) hnext
      obtain ⟨htypedRest, hatRest, hrest⟩ :=
        ih hat (fun s hs => hrange s (List.mem_cons_of_mem _ hs)) h
      refine ⟨fun s hs => ?_, hatRest, ?_⟩
      · rcases List.mem_cons.mp hs with rfl | hs
        · exact htyped
        · exact htypedRest s hs
      · rw [hrest, hsignals]
        rfl

theorem mem_assignAll {pSignals : List PSignal} {key : ℤ} {p : PSignal} :
    (key, p) ∈ assignAll [] pSignals ↔ key = p.addr ∧
      ∃ before behind, pSignals = before ++ p :: behind ∧
        ∀ later ∈ behind, later.addr ≠ p.addr := by
  induction pSignals using List.reverseRecOn with
  | nil =>
      constructor
      · intro h
        cases h
      · rintro ⟨-, before, behind, hsplit, -⟩
        cases before <;> cases hsplit
  | append_singleton pSignals q ih =>
      have hstep : assignAll [] (pSignals ++ [q]) =
          assignKey (assignAll [] pSignals) q.addr q := List.foldl_append
      rw [hstep, assignKey, List.mem_append, List.mem_filter, ih, List.mem_singleton]
      constructor
      · rintro (⟨⟨hkey, before, behind, rfl, hlater⟩, hne⟩ | hlast)
        · refine ⟨hkey, before, behind ++ [q], by rw [List.append_assoc]; rfl, ?_⟩
          intro later hmem
          rcases List.mem_append.mp hmem with hmem | hmem
          · exact hlater later hmem
          · rw [List.mem_singleton.mp hmem, ← hkey]
            exact (of_decide_eq_true hne).symm
        · obtain ⟨rfl, rfl⟩ := Prod.mk.inj hlast
          exact ⟨rfl, pSignals, [], rfl, fun later hmem => by cases hmem⟩
      · rintro ⟨hkey, before, behind, hsplit, hlater⟩
        rcases List.eq_nil_or_concat behind with rfl | ⟨behind', last, rfl⟩
        · right
          obtain ⟨rfl, hq⟩ := List.append_inj' hsplit rfl
          obtain rfl := List.singleton_inj.mp hq
          rw [hkey]
        · left
          have hsplit' : pSignals ++ [q] = (before ++ p :: behind') ++ [last] := by
            rw [hsplit, List.concat_eq_append, List.append_assoc, List.cons_append]
          obtain ⟨rfl, hq⟩ := List.append_inj' hsplit' rfl
          obtain rfl := List.singleton_inj.mp hq
          rw [List.concat_eq_append] at hlater
          refine ⟨⟨hkey, before, behind', rfl, fun later hmem =>
            hlater later (List.mem_append_left _ hmem)⟩, ?_⟩
          rw [decide_eq_true_iff, hkey]
          exact (hlater q (List.mem_append_right _ List.mem_cons_self)).symm

theorem mem_sortedValues {α : Type} {dictionary : List (ℤ × α)} {value : α} :
    value ∈ sortedValues dictionary ↔ ∃ key, (key, value) ∈ dictionary := by
  unfold sortedValues
  rw [List.mem_map]
  constructor
  · rintro ⟨⟨key, v⟩, hmem, rfl⟩
    exact ⟨key, List.mem_mergeSort.mp hmem⟩
  · rintro ⟨key, hmem⟩
    exact ⟨(key, value), List.mem_mergeSort.mpr hmem, rfl⟩

/-! ## The run-time -/

def SignalObject.call (mblkName : String) (signal : SignalObject)
    (placed : Allotment TypeId ℤ) : DynamicSignal :=
  ⟨some signal.name, mblkName, placed.address, placed.amount, signal.info.ncolumns,
    placed.kind⟩

def MblkInfo.cursor (mblk : MblkInfo) : Cursor TypeId :=
  ⟨mblk.currentTypeId, mblk.currentAddr, mblk.maxAddr⟩

def MblkInfo.moved (mblk : MblkInfo) (cursor : Cursor TypeId)
    (calls : List DynamicSignal) : MblkInfo :=
  { mblk with
    currentTypeId := cursor.kind
    currentAddr := cursor.address
    maxAddr := cursor.extent
    dynamicSignals := mblk.dynamicSignals ++ calls }

theorem SignalObject.get_eq_some {signal : SignalObject} {tag : String} {v : FieldValue}
    (h : signal.get tag = some v) : signal.fields.lookup tag = some v := by
  unfold SignalObject.get at h
  split at h
  · cases h
  · exact h

theorem SignalObject.get_eq_none {signal : SignalObject} {tag : String}
    (h : signal.get tag = none) :
    signal.fields.lookup tag = none ∨ signal.fields.lookup tag = some .null := by
  unfold SignalObject.get at h
  split at h
  · exact Or.inr (by assumption)
  · exact Or.inl h

variable {setup : DinfoSetup}

theorem SignalObject.Typed.typeId
    (hnames : ∀ typeId : TypeId, setup.typeIdFromName typeId.name = typeId)
    {signal : SignalObject} (htyped : signal.Typed) (current : TypeId) :
    setup.signalTypeId signal.info current = signal.request.kind.getD current := by
  unfold DinfoSetup.signalTypeId SignalObject.request
  rw [SignalObject.info_signalTypeStr]
  dsimp only
  cases hget : signal.get "type" with
  | none =>
      rcases SignalObject.get_eq_none hget with hlookup | hlookup
      · rw [hlookup]
        rfl
      · rw [hlookup]
        rfl
  | some v =>
      obtain ⟨typeId, rfl⟩ := htyped.type v hget
      rw [SignalObject.get_eq_some hget]
      dsimp only [Option.bind_some, Option.getD_some]
      rw [hnames, typeOfName_name, Option.getD_some]

theorem SignalObject.InRange.signalAddr
    {signal : SignalObject} (hrange : signal.InRange) {current : ℤ}
    (hfit : signal.request.address.getD current < 2147483648) :
    (if 0 ≤ signal.info.signalAddr then signal.info.signalAddr else current) =
      signal.request.address.getD current := by
  rw [SignalObject.info_signalAddr]
  unfold SignalObject.request at hfit ⊢
  dsimp only at hfit ⊢
  cases hget : signal.get "addr" with
  | none =>
      rcases SignalObject.get_eq_none hget with hlookup | hlookup
      · rw [hlookup]
        rfl
      · rw [hlookup]
        rfl
  | some v =>
      obtain ⟨l, rfl, hpositive⟩ := hrange.addr v hget
      rw [hget] at hfit
      dsimp only [Option.getD_some] at hfit
      rw [SignalObject.get_eq_some hget]
      change (if 0 ≤ osInt l then osInt l else current) = l
      rw [osInt_of_range (by omega) hfit, if_pos hpositive]

theorem SignalObject.InRange.signalArrayN
    {signal : SignalObject} (hrange : signal.InRange) :
    (if signal.info.signalArrayN < 1 then 1 else signal.info.signalArrayN) =
      signal.request.amount := by
  rw [SignalObject.info_signalArrayN]
  unfold SignalObject.request
  dsimp only
  cases hget : signal.get "array" with
  | none =>
      rcases SignalObject.get_eq_none hget with hlookup | hlookup
      · rw [hlookup]
        rfl
      · rw [hlookup]
        rfl
  | some v =>
      rw [SignalObject.get_eq_some hget]
      cases v with
      | integer l =>
          obtain ⟨hlow, hhigh⟩ := hrange.array l hget
          change (if osInt l < 1 then 1 else osInt l) = if l < 1 then 1 else l
          rw [osInt_of_range hlow (by omega)]
      | string s => rfl
      | float o => rfl
      | null => rfl
      | boolean b => rfl

theorem SignalObject.Typed.signalName {signal : SignalObject} (htyped : signal.Typed) :
    signal.info.signalName = some signal.name := by
  rw [SignalObject.info_signalName, SignalObject.get_eq_some htyped.name]
  rfl

theorem newSignalByInfo_eq
    (hnames : ∀ typeId : TypeId, setup.typeIdFromName typeId.name = typeId)
    {signal : SignalObject} (hrange : signal.InRange) (htyped : signal.Typed)
    {mblk : MblkInfo} (mblkName : String) (haddr : 0 ≤ mblk.currentAddr)
    (hfit : (mblk.cursor.next signalBytes signal.request).extent < 2147483648) :
    setup.newSignalByInfo signal.info mblkName mblk =
      mblk.moved (mblk.cursor.next signalBytes signal.request)
        [signal.call mblkName (mblk.cursor.place signal.request)] := by
  have hstop : (mblk.cursor.place signal.request).stop signalBytes < 2147483648 :=
    lt_of_le_of_lt (le_max_right _ _) hfit
  have haddress : 0 ≤ (mblk.cursor.place signal.request).address := by
    unfold Cursor.place
    cases hrequest : signal.request.address with
    | none => exact haddr
    | some address => exact hrange.address_nonneg address hrequest
  have hbytes := signalBytes_nonneg (mblk.cursor.place signal.request).kind
    (mblk.cursor.place signal.request).amount
  have hplaced : (mblk.cursor.place signal.request).address < 2147483648 := by
    unfold Allotment.stop at hstop
    omega
  have hsize : signalBytes (mblk.cursor.place signal.request).kind
      (mblk.cursor.place signal.request).amount < 2147483648 := by
    unfold Allotment.stop at hstop
    omega
  have hmoved := dinfoSignalBytes_eq signal.one_le_amount hrange.amount_lt hsize
  have hmax : ∀ a b : ℤ, (if a < b then b else a) = max a b := by
    intro a b
    split_ifs <;> omega
  have haddr' : (if 0 ≤ signal.info.signalAddr then signal.info.signalAddr
      else mblk.currentAddr) = signal.request.address.getD mblk.currentAddr :=
    hrange.signalAddr hplaced
  unfold DinfoSetup.newSignalByInfo MblkInfo.moved
  dsimp only
  rw [htyped.typeId hnames, haddr', hrange.signalArrayN, htyped.signalName, hmax]
  have haddressNext : osInt (signal.request.address.getD mblk.currentAddr +
      dinfoSignalBytes (signal.request.kind.getD mblk.currentTypeId) signal.request.amount) =
      (mblk.cursor.next signalBytes signal.request).address := by
    have hsum : signal.request.address.getD mblk.currentAddr +
        dinfoSignalBytes (signal.request.kind.getD mblk.currentTypeId) signal.request.amount =
        (mblk.cursor.place signal.request).stop signalBytes := by
      exact congrArg (fun bytes => signal.request.address.getD mblk.currentAddr + bytes) hmoved
    rw [hsum, osInt_of_range _ hstop]
    · rfl
    · unfold Allotment.stop
      omega
  rw [haddressNext]
  rfl

/-- Reading the signals of a memory block moves the cursor through their
places. -/
theorem takeSignals_eq
    (hnames : ∀ typeId : TypeId, setup.typeIdFromName typeId.name = typeId)
    {signals : List SignalObject} (hrange : ∀ signal ∈ signals, signal.InRange)
    (htyped : ∀ signal ∈ signals, signal.Typed) {mblk : MblkInfo} {mblkName : String}
    (hname : mblk.mblkName = some mblkName) (haddr : 0 ≤ mblk.currentAddr)
    (hfit : (cursorAfter mblk.cursor signals).extent < 2147483648) :
    signals.foldl setup.takeSignal mblk =
      mblk.moved (cursorAfter mblk.cursor signals)
        (List.zipWith (SignalObject.call mblkName) signals (placesOf mblk.cursor signals)) := by
  induction signals generalizing mblk with
  | nil =>
      unfold MblkInfo.moved
      rw [List.zipWith_nil_left, List.append_nil]
      rfl
  | cons signal signals ih =>
      have hsignal : signal ∈ signal :: signals := List.mem_cons_self
      have hextent : (mblk.cursor.next signalBytes signal.request).extent < 2147483648 :=
        lt_of_le_of_lt (Cursor.extent_le_after _ _) hfit
      have hmoved := newSignalByInfo_eq hnames (hrange signal hsignal)
        (htyped signal hsignal) mblkName haddr hextent
      have htaken : setup.takeSignal mblk signal = mblk.moved
          (mblk.cursor.next signalBytes signal.request)
          [signal.call mblkName (mblk.cursor.place signal.request)] := by
        unfold DinfoSetup.takeSignal
        rw [hname]
        exact hmoved
      have hnext : 0 ≤ (mblk.cursor.next signalBytes signal.request).address := by
        have hplaced : 0 ≤ (mblk.cursor.place signal.request).address := by
          unfold Cursor.place
          cases hrequest : signal.request.address with
          | none => exact haddr
          | some address => exact (hrange signal hsignal).address_nonneg address hrequest
        exact add_nonneg hplaced (signalBytes_nonneg _ _)
      rw [List.foldl_cons, htaken]
      have hrest := @ih (fun s hs => hrange s (List.mem_cons_of_mem _ hs))
        (fun s hs => htyped s (List.mem_cons_of_mem _ hs))
        (mblk.moved (mblk.cursor.next signalBytes signal.request)
          [signal.call mblkName (mblk.cursor.place signal.request)]) hname hnext hfit
      rw [hrest]
      unfold MblkInfo.moved
      rw [List.append_assoc]
      rfl

/-! ## Both -/

def DynamicSignal.nroSignalBytes (call : DynamicSignal) : ℤ :=
  signalBytes call.typeId call.n

structure DynamicSignal.Generates (call : DynamicSignal) (p : PSignal) : Prop where
  name : call.signalName = some p.name
  addr : call.addr = p.addr
  type : call.typeId.name = p.type
  arrayN : call.n = p.arrayN

def DynamicSignal.toPSignal (call : DynamicSignal) : PSignal :=
  ⟨call.signalName.getD "", call.addr, call.typeId.name, call.n⟩

theorem DynamicSignal.Generates.toPSignal_eq {call : DynamicSignal} {p : PSignal}
    (h : call.Generates p) : call.toPSignal = p := by
  obtain ⟨name, addr, type, arrayN⟩ := p
  unfold DynamicSignal.toPSignal
  rw [h.name, h.addr, h.type, h.arrayN]
  rfl

/-- A memory block of a document, as it is generated, and the signals which are
added for it. -/
structure MblkLayout where
  mblk : MblkObject
  pMblk : PMblk
  calls : List DynamicSignal

/-- The layout is one.  In the dictionary of the script a signal takes the
place of an earlier one with the same address. -/
structure MblkLayout.Agrees (layout : MblkLayout) : Prop where
  names : layout.calls.map DynamicSignal.signalName =
    layout.mblk.signals.map fun signal => scriptName (signal.get "name")
  mblkName : ∀ call ∈ layout.calls, call.mblkName = layout.pMblk.name
  same : ∀ p, p ∈ layout.pMblk.signals ↔ ∃ before call behind,
    layout.calls = before ++ call :: behind ∧ call.Generates p ∧
      ∀ later ∈ behind, later.addr ≠ call.addr
  bytes : ∀ call ∈ layout.calls,
    calcSignalMemorySz call.typeId.name call.n = some call.nroSignalBytes ∧
      dinfoSignalBytes call.typeId call.n = call.nroSignalBytes
  separate : ∀ i j (hi : i < layout.calls.length) (hj : j < layout.calls.length), i < j →
    (∀ k (hk : k < layout.mblk.signals.length), i < k → k ≤ j →
      layout.mblk.signals[k].get "addr" = none) →
    layout.calls[i].addr + layout.calls[i].nroSignalBytes ≤ layout.calls[j].addr
  inside : ∀ call ∈ layout.calls,
    0 ≤ call.addr ∧ call.addr + call.nroSignalBytes ≤ layout.pMblk.maxAddr

def CodeGeneratorAgrees (setup : DinfoSetup) (doc : SignalsDocument) : Prop :=
  ∀ pMblks, preprocessJson doc = some pMblks →
    ∃ layouts : List MblkLayout,
      layouts.map MblkLayout.mblk = doc.mblks ∧
      layouts.map MblkLayout.pMblk = pMblks ∧
      (setup.addDynamicInfo doc.items).status = .success ∧
      (setup.addDynamicInfo doc.items).state.mblk.dynamicSignals =
        layouts.flatMap MblkLayout.calls ∧
      (setup.resizeMblks → (setup.addDynamicInfo doc.items).state.mblk.resized =
        pMblks.map fun pMblk => (some pMblk.name, pMblk.maxAddr)) ∧
      ∀ layout ∈ layouts, layout.Agrees

/-- Where the parser starts in a memory block; the script starts there with
the least size of a memory block as extent. -/
def mblkStart : Cursor TypeId := ⟨.ushort, 0, 0⟩

def NestingObject.calls (mblk : MblkObject) : List DynamicSignal :=
  List.zipWith (SignalObject.call mblk.mblkName) mblk.signals (placesOf mblkStart mblk.signals)

structure PMblk.Describes (pMblk : PMblk) (mblk : MblkObject) : Prop where
  name : pMblk.name = mblk.mblkName
  typed : ∀ signal ∈ mblk.signals, signal.Typed
  signals : pMblk.signals = sortedValues (assignAll []
    (List.zipWith SignalObject.generated mblk.signals (placesOf mblkStart mblk.signals)))
  maxAddr : pMblk.maxAddr = max iocMinMblkSz (cursorAfter mblkStart mblk.signals).extent

theorem preprocessMblk_describes
    {mblk : MblkObject} {pMblk : PMblk}
    (hname : ∃ s, mblk.fields.lookup "name" = some (.string s))
    (hrange : ∀ signal ∈ mblk.signals, signal.InRange)
    (h : preprocessMblk mblk = some pMblk) : pMblk.Describes mblk := by
  unfold preprocessMblk at h
  simp only [Option.bind_eq_bind, Option.bind_eq_some_iff] at h
  obtain ⟨_, -, state, hstate, name, hscript, hpMblk⟩ := h
  obtain ⟨s, hs⟩ := hname
  have hmblkName : name = mblk.mblkName := by
    unfold scriptMblkName at hscript
    rw [hs] at hscript
    unfold NestingObject.mblkName
    rw [hs]
    exact (Option.some.inj hscript).symm
  have hstart : scriptStart.At (Cursor.mk .ushort 0 (max 24 0)) := ⟨rfl, rfl, rfl⟩
  obtain ⟨htyped, hat, hsignals⟩ := preprocessSignals_eq hstart hrange hstate
  obtain rfl := Option.some.inj hpMblk
  refine ⟨hmblkName, htyped, ?_, ?_⟩
  · dsimp only
    rw [hsignals]
    unfold placesOf
    rw [Cursor.placeAll_extent _ _ _ 0]
    rfl
  · dsimp only
    rw [hat.maxAddr]
    unfold cursorAfter
    rw [Cursor.after_extent]
    rfl

theorem length_placesOf (cursor : Cursor TypeId) (signals : List SignalObject) :
    (placesOf cursor signals).length = signals.length := by
  unfold placesOf
  rw [Cursor.length_placeAll, List.length_map]

theorem length_calls (mblk : MblkObject) : mblk.calls.length = mblk.signals.length := by
  unfold NestingObject.calls
  rw [List.length_zipWith, length_placesOf, Nat.min_self]

theorem getElem_calls (mblk : MblkObject) {i : ℕ} (hi : i < mblk.calls.length)
    (hsignal : i < mblk.signals.length)
    (hplaced : i < (placesOf mblkStart mblk.signals).length) :
    mblk.calls[i] = SignalObject.call mblk.mblkName mblk.signals[i]
      (placesOf mblkStart mblk.signals)[i] :=
  List.getElem_zipWith

theorem mem_calls {mblk : MblkObject} {call : DynamicSignal} (hcall : call ∈ mblk.calls) :
    ∃ signal ∈ mblk.signals, ∃ placed ∈ placesOf mblkStart mblk.signals,
      call = signal.call mblk.mblkName placed := by
  obtain ⟨i, hi, rfl⟩ := List.mem_iff_getElem.mp hcall
  have hsignal : i < mblk.signals.length := by rwa [length_calls] at hi
  have hplaced : i < (placesOf mblkStart mblk.signals).length := by rwa [length_placesOf]
  exact ⟨_, List.getElem_mem hsignal, _, List.getElem_mem hplaced,
    getElem_calls mblk hi hsignal hplaced⟩

/-- The signals which the script generates, as the calls give them. -/
theorem generated_eq_map (mblk : MblkObject) :
    List.zipWith SignalObject.generated mblk.signals (placesOf mblkStart mblk.signals) =
      mblk.calls.map DynamicSignal.toPSignal := by
  unfold NestingObject.calls
  rw [List.map_zipWith]
  rfl

theorem amount_of_mem_placeAll
    {cursor : Cursor TypeId} {signals : List SignalObject} {placed : Allotment TypeId ℤ}
    (hplaced : placed ∈ placesOf cursor signals) :
    ∃ signal ∈ signals, placed.amount = signal.request.amount := by
  induction signals generalizing cursor with
  | nil => cases hplaced
  | cons signal signals ih =>
      rcases List.mem_cons.mp hplaced with rfl | hplaced
      · exact ⟨signal, List.mem_cons_self, rfl⟩
      · obtain ⟨other, hother, hamount⟩ := ih hplaced
        exact ⟨other, List.mem_cons_of_mem _ hother, hamount⟩

theorem request_address_eq_none {signal : SignalObject} (h : signal.get "addr" = none) :
    signal.request.address = none := by
  unfold SignalObject.request
  dsimp only
  rw [h]

/-- One layout for the memory block which the script describes. -/
theorem PMblk.Describes.agrees
    {pMblk : PMblk} {mblk : MblkObject} (h : pMblk.Describes mblk)
    (hrange : ∀ signal ∈ mblk.signals, signal.InRange) (hfit : pMblk.maxAddr < 2147483648) :
    MblkLayout.Agrees ⟨mblk, pMblk, mblk.calls⟩ := by
  have hinside : ∀ placed ∈ placesOf mblkStart mblk.signals,
      0 ≤ placed.address ∧ placed.stop signalBytes ≤ pMblk.maxAddr := by
    intro placed hplaced
    constructor
    · apply Cursor.address_nonneg signalBytes_nonneg (le_refl _) _ hplaced
      intro request hrequest
      obtain ⟨signal, hsignal, rfl⟩ := List.mem_map.mp hrequest
      exact (hrange signal hsignal).address_nonneg
    · rw [h.maxAddr]
      exact le_trans (Cursor.stop_le_extent hplaced) (le_max_right _ _)
  have hname : ∀ call ∈ mblk.calls, ∃ name, call.signalName = some name := by
    intro call hcall
    obtain ⟨signal, -, placed, -, rfl⟩ := mem_calls hcall
    exact ⟨signal.name, rfl⟩
  constructor
  case names =>
    apply List.ext_getElem
    · rw [List.length_map, List.length_map, length_calls]
    · intro i hi hi'
      rw [List.length_map] at hi hi'
      have hplaced : i < (placesOf mblkStart mblk.signals).length := by rwa [length_placesOf]
      rw [List.getElem_map, List.getElem_map, getElem_calls mblk hi hi' hplaced,
        (h.typed _ (List.getElem_mem hi')).name]
      rfl
  case mblkName =>
    intro call hcall
    obtain ⟨signal, -, placed, -, rfl⟩ := mem_calls hcall
    exact h.name.symm
  case same =>
    intro p
    rw [h.signals, mem_sortedValues, generated_eq_map]
    constructor
    · rintro ⟨key, hkey⟩
      obtain ⟨-, before, behind, hsplit, hlater⟩ := mem_assignAll.mp hkey
      obtain ⟨before', rest, hcalls, rfl, hrest⟩ := List.map_eq_append_iff.mp hsplit
      obtain ⟨call, behind', rfl, rfl, rfl⟩ := List.map_eq_cons_iff.mp hrest
      have hcall : call ∈ mblk.calls := by
        rw [hcalls]
        exact List.mem_append_right _ List.mem_cons_self
      obtain ⟨name, hsignalName⟩ := hname call hcall
      refine ⟨before', call, behind', hcalls, ⟨?_, rfl, rfl, rfl⟩, ?_⟩
      · unfold DynamicSignal.toPSignal
        rw [hsignalName]
        rfl
      · intro later hmem
        exact hlater _ (List.mem_map.mpr ⟨later, hmem, rfl⟩)
    · rintro ⟨before, call, behind, hcalls, hgenerates, hlater⟩
      refine ⟨p.addr, mem_assignAll.mpr ⟨rfl, ?_⟩⟩
      dsimp only at hcalls
      rw [hcalls, List.map_append, List.map_cons, hgenerates.toPSignal_eq]
      refine ⟨_, _, rfl, ?_⟩
      intro later hmem
      obtain ⟨other, hother, rfl⟩ := List.mem_map.mp hmem
      rw [← hgenerates.addr]
      exact hlater other hother
  case bytes =>
    intro call hcall
    obtain ⟨signal, hsignal, placed, hplaced, rfl⟩ := mem_calls hcall
    obtain ⟨other, hother, hamount⟩ := amount_of_mem_placeAll hplaced
    obtain ⟨haddress, hstop⟩ := hinside placed hplaced
    have hone : 1 ≤ placed.amount := by
      rw [hamount]
      exact other.one_le_amount
    have hlt : placed.amount < 2147483641 := by
      rw [hamount]
      exact (hrange other hother).amount_lt
    have hbytes : signalBytes placed.kind placed.amount < 2147483648 := by
      unfold Allotment.stop at hstop
      omega
    exact ⟨calcSignalMemorySz_name hone placed.kind, dinfoSignalBytes_eq hone hlt hbytes⟩
  case separate =>
    intro i j hi hj hij himplicit
    dsimp only at hi hj himplicit ⊢
    have hsignals := length_calls mblk
    have hplaces := length_placesOf mblkStart mblk.signals
    rw [getElem_calls mblk hi (by omega) (by omega), getElem_calls mblk hj (by omega) (by omega)]
    apply Cursor.stop_le_address signalBytes_nonneg hij
    · intro k hk hik hkj
      rw [List.getElem_map]
      rw [List.length_map] at hk
      exact request_address_eq_none (himplicit k hk hik hkj)
  case inside =>
    intro call hcall
    obtain ⟨signal, -, placed, hplaced, rfl⟩ := mem_calls hcall
    exact hinside placed hplaced

theorem resizeByInfo_moved (mblk : MblkInfo) (cursor : Cursor TypeId)
    (calls : List DynamicSignal) :
    (mblk.moved cursor calls).resizeByInfo.resized =
      mblk.resized ++ [(mblk.mblkName, max iocMinMblkSz cursor.extent)] := by
  have hmax : (if cursor.extent < iocMinMblkSz then iocMinMblkSz else cursor.extent) =
      max iocMinMblkSz cursor.extent := by
    split_ifs <;> omega
  unfold MblkInfo.resizeByInfo MblkInfo.moved
  dsimp only
  rw [hmax]

/-- What reading a memory block adds, when the script describes it. -/
theorem readMblk_adds
    (hnames : ∀ typeId : TypeId, setup.typeIdFromName typeId.name = typeId)
    {pMblk : PMblk} {mblk : MblkObject} (h : pMblk.Describes mblk)
    (hrange : ∀ signal ∈ mblk.signals, signal.InRange) (hfit : pMblk.maxAddr < 2147483648)
    (info : MblkInfo) :
    (setup.readMblk info mblk mblk.mblkName).dynamicSignals =
        info.dynamicSignals ++ mblk.calls ∧
      (setup.resizeMblks = true → (setup.readMblk info mblk mblk.mblkName).resized =
        info.resized ++ [(some pMblk.name, pMblk.maxAddr)]) := by
  have hextent : (cursorAfter mblkStart mblk.signals).extent < 2147483648 :=
    lt_of_le_of_lt (le_max_right _ _) (h.maxAddr ▸ hfit)
  have htaken := @takeSignals_eq setup hnames mblk.signals hrange h.typed
    (info.named mblk.mblkName) mblk.mblkName rfl (le_refl _) hextent
  unfold DinfoSetup.readMblk
  dsimp only
  rw [htaken]
  constructor
  · cases setup.resizeMblks with
    | true => rfl
    | false => rfl
  · intro hresize
    rw [if_pos hresize, resizeByInfo_moved, h.name, h.maxAddr]
    rfl

/-- The documents about which both agree: the memory blocks have names, and the
numbers in the signals are those of addresses and of elements. -/
structure SignalsDocument.InRange (doc : SignalsDocument) : Prop where
  named : doc.Named
  signals : ∀ mblk ∈ doc.mblks, ∀ signal ∈ mblk.signals, signal.InRange

theorem readMblks_agrees
    (hnames : ∀ typeId : TypeId, setup.typeIdFromName typeId.name = typeId)
    {mblks : List MblkObject} {pMblks : List PMblk}
    (hnamed : ∀ mblk ∈ mblks, ∃ s, mblk.fields.lookup "name" = some (.string s))
    (hrange : ∀ mblk ∈ mblks, ∀ signal ∈ mblk.signals, signal.InRange)
    (hscript : mblks.mapM preprocessMblk = some pMblks)
    (hfit : ∀ pMblk ∈ pMblks, pMblk.maxAddr < 2147483648) (info : MblkInfo) :
    ∃ layouts : List MblkLayout,
      layouts.map MblkLayout.mblk = mblks ∧
      layouts.map MblkLayout.pMblk = pMblks ∧
      (setup.readMblks info mblks).dynamicSignals =
        info.dynamicSignals ++ layouts.flatMap MblkLayout.calls ∧
      (setup.resizeMblks = true → (setup.readMblks info mblks).resized =
        info.resized ++ pMblks.map fun pMblk => (some pMblk.name, pMblk.maxAddr)) ∧
      ∀ layout ∈ layouts, layout.Agrees := by
  induction mblks generalizing pMblks info with
  | nil =>
      rw [List.mapM_nil] at hscript
      obtain rfl := Option.some.inj hscript
      refine ⟨[], rfl, rfl, (List.append_nil _).symm, fun _ => (List.append_nil _).symm, ?_⟩
      intro layout hlayout
      cases hlayout
  | cons mblk mblks ih =>
      simp only [List.mapM_cons, Option.bind_eq_bind, Option.bind_eq_some_iff] at hscript
      obtain ⟨pMblk, hpMblk, rest, hrest, hpMblks⟩ := hscript
      obtain rfl := Option.some.inj hpMblks
      have hmblk : mblk ∈ mblk :: mblks := List.mem_cons_self
      have hpMblkFit := hfit pMblk List.mem_cons_self
      have hdescribes := preprocessMblk_describes (hnamed mblk hmblk) (hrange mblk hmblk) hpMblk
      obtain ⟨hcalls, hresized⟩ :=
        readMblk_adds hnames hdescribes (hrange mblk hmblk) hpMblkFit info
      obtain ⟨layouts, hmblks, hpMblks, hsignals, hresizedRest, hagrees⟩ :=
        ih (fun m hm => hnamed m (List.mem_cons_of_mem _ hm))
          (fun m hm => hrange m (List.mem_cons_of_mem _ hm)) hrest
          (fun p hp => hfit p (List.mem_cons_of_mem _ hp))
          (setup.readMblk info mblk mblk.mblkName)
      refine ⟨⟨mblk, pMblk, mblk.calls⟩ :: layouts, ?_, ?_, ?_, ?_, ?_⟩
      · rw [List.map_cons, hmblks]
      · rw [List.map_cons, hpMblks]
      · rw [List.flatMap_cons, ← List.append_assoc, ← hcalls]
        exact hsignals
      · intro hresize
        have hfirst := hresized hresize
        have hlast := hresizedRest hresize
        rw [hfirst, List.append_assoc] at hlast
        exact hlast
      · intro layout hlayout
        rcases List.mem_cons.mp hlayout with rfl | hlayout
        · exact hdescribes.agrees (hrange mblk hmblk) hpMblkFit
        · exact hagrees layout hlayout

/-- The code generator and the run-time agree about every document whose
numbers are in range and whose memory blocks fit the run-time. -/
theorem signal_addresses_agree (setup : DinfoSetup) (doc : SignalsDocument)
    (hnames : ∀ typeId : TypeId, setup.typeIdFromName typeId.name = typeId)
    (hdoc : doc.InRange)
    (hfit : ∀ pMblks, preprocessJson doc = some pMblks →
      ∀ pMblk ∈ pMblks, pMblk.maxAddr < 2147483648) :
    CodeGeneratorAgrees setup doc := by
  intro pMblks hscript
  have htakes := addDynamicInfo_document setup hdoc.named
  obtain ⟨layouts, hmblks, hpMblks, hsignals, hresized, hagrees⟩ :=
    readMblks_agrees hnames hdoc.named hdoc.signals hscript (hfit pMblks hscript)
      dinfoStart.mblk
  refine ⟨layouts, hmblks, hpMblks, htakes.status, ?_, ?_, hagrees⟩
  · rw [htakes.mblk, hsignals]
    rfl
  · intro hresize
    rw [htakes.mblk, hresized hresize]
    rfl

/-- Each generated signal is also added, for the memory block of that name. -/
theorem CodeGeneratorAgrees.added {doc : SignalsDocument} (h : CodeGeneratorAgrees setup doc)
    {pMblks : List PMblk} (hscript : preprocessJson doc = some pMblks)
    {pMblk : PMblk} (hpMblk : pMblk ∈ pMblks) {p : PSignal} (hp : p ∈ pMblk.signals) :
    ∃ call ∈ (setup.addDynamicInfo doc.items).state.mblk.dynamicSignals,
      call.mblkName = pMblk.name ∧ call.Generates p := by
  obtain ⟨layouts, -, hpMblks, -, hsignals, -, hagrees⟩ := h pMblks hscript
  rw [← hpMblks] at hpMblk
  obtain ⟨layout, hlayout, rfl⟩ := List.mem_map.mp hpMblk
  have hagree := hagrees layout hlayout
  obtain ⟨before, call, behind, hcalls, hgenerates, -⟩ := (hagree.same p).mp hp
  have hcall : call ∈ layout.calls := by
    rw [hcalls]
    exact List.mem_append_right _ List.mem_cons_self
  refine ⟨call, ?_, hagree.mblkName call hcall, hgenerates⟩
  rw [hsignals]
  exact List.mem_flatMap.mpr ⟨layout, hlayout, hcall⟩

/-! ## Documents -/

def namedTypes : DinfoSetup where
  typeIdFromName name := (typeOfName name).getD .undefined
  resizeMblks := true

theorem namedTypes_name (typeId : TypeId) :
    namedTypes.typeIdFromName typeId.name = typeId := by
  unfold namedTypes
  dsimp only
  rw [typeOfName_name]
  rfl

def signalWith (name tag : String) (htag : tag ≠ "name") (v : FieldValue) : SignalObject where
  fields := [("name", .string name), (tag, v)]
  distinct := by simpa using Ne.symm htag

def oneGroup (signals : List SignalObject) (behind : List Field)
    (hbehind : (behind.map Prod.fst).Nodup)
    (hfresh : ∀ field ∈ behind, field.1 ≠ "groups" ∧ field.1 ≠ "signals") :
    SignalsDocument where
  enclosing := [""]
  before := [.value "name" (.string "device")]
  mblks :=
    [{ before := []
       elements := some
        [{ before := []
           elements := some signals
           behind := []
           distinct := List.nodup_nil
           fresh := fun _ h => by cases h }]
       behind := behind
       distinct := hbehind
       fresh := hfresh }]
  behind := []
  fresh := by
    intro m hm
    rw [List.append_nil, List.mem_singleton] at hm
    subst hm
    exact ⟨by decide, by decide⟩

def mblkFields : List Field := [("flags", .string "up"), ("name", .string "exp")]

def namedGroup (signals : List SignalObject) : SignalsDocument :=
  oneGroup signals mblkFields (by decide) (by decide)

def forceSignals : List SignalObject :=
  [signalWith "force_x" "type" (by decide) (.string "short"),
    ⟨[("name", .string "samples"), ("addr", .integer 10), ("array", .integer 8)],
      by decide⟩]

theorem signal_addresses_agree_forceSignals :
    CodeGeneratorAgrees namedTypes (namedGroup forceSignals) := by
  apply signal_addresses_agree namedTypes (namedGroup forceSignals) namedTypes_name
  · constructor
    · intro mblk hmblk
      obtain rfl := List.mem_singleton.mp hmblk
      exact ⟨"exp", rfl⟩
    · intro mblk hmblk signal hsignal
      obtain rfl := List.mem_singleton.mp hmblk
      have hcases : signal ∈ forceSignals := by
        simpa [NestingObject.signals, NestingObject.array, namedGroup, oneGroup] using hsignal
      rcases List.mem_pair.mp hcases with rfl | rfl
      · exact ⟨(fun v h => by cases h), (fun l h => by cases h)⟩
      · constructor
        · intro v h
          obtain rfl := Option.some.inj h
          exact ⟨10, rfl, by decide⟩
        · intro l h
          obtain rfl := FieldValue.integer.inj (Option.some.inj h)
          exact ⟨by decide, by decide⟩
  · intro pMblks hscript pMblk hpMblk
    have hone : preprocessJson (namedGroup forceSignals) = some
        [⟨"exp", sortedValues [(0, ⟨"force_x", 0, "short", 1⟩),
          (10, ⟨"samples", 10, "short", 8⟩)], 27⟩] := rfl
    rw [hone] at hscript
    obtain rfl := Option.some.inj hscript
    obtain rfl := List.mem_singleton.mp hpMblk
    decide

theorem not_agrees_of_generated {doc : SignalsDocument} {pMblk : PMblk} {p : PSignal}
    {key : ℤ} {dictionary : List (ℤ × PSignal)}
    (hscript : preprocessJson doc = some [pMblk])
    (hsignals : pMblk.signals = sortedValues dictionary) (hp : (key, p) ∈ dictionary)
    (hcalls : ∀ call ∈ (setup.addDynamicInfo doc.items).state.mblk.dynamicSignals,
      call.toPSignal ≠ p) : ¬CodeGeneratorAgrees setup doc := by
  intro h
  have hmem : p ∈ pMblk.signals := by
    rw [hsignals]
    exact mem_sortedValues.mpr ⟨key, hp⟩
  obtain ⟨call, hcall, -, hgenerates⟩ := h.added hscript List.mem_cons_self hmem
  exact hcalls call hcall hgenerates.toPSignal_eq

/-- The script takes a negative address and the parser does not; an array or an
address can be more than the parser counts to; and the script has a name for a
memory block without one. -/
theorem signal_addresses_disagree :
    ¬CodeGeneratorAgrees namedTypes
        (namedGroup [signalWith "a" "addr" (by decide) (.integer (-1))]) ∧
      ¬CodeGeneratorAgrees namedTypes
        (namedGroup [signalWith "a" "array" (by decide) (.integer 4294967297)]) ∧
      ¬CodeGeneratorAgrees namedTypes
        (namedGroup [signalWith "a" "addr" (by decide) (.integer 2147483647),
          signalWith "b" "type" (by decide) (.string "char")]) ∧
      ¬CodeGeneratorAgrees namedTypes
        (oneGroup [signalWith "a" "type" (by decide) (.string "char")] [] (by decide)
          (by decide)) := by
  refine ⟨?_, ?_, ?_, ?_⟩
  · apply @not_agrees_of_generated _ _
      ⟨"exp", sortedValues [(-1, ⟨"a", -1, "ushort", 1⟩)], 24⟩ ⟨"a", -1, "ushort", 1⟩ (-1)
      [(-1, ⟨"a", -1, "ushort", 1⟩)] rfl rfl List.mem_cons_self
    decide
  · apply @not_agrees_of_generated _ _
      ⟨"exp", sortedValues [(0, ⟨"a", 0, "ushort", 4294967297⟩)], 8589934595⟩
      ⟨"a", 0, "ushort", 4294967297⟩ 0 [(0, ⟨"a", 0, "ushort", 4294967297⟩)] rfl rfl
      List.mem_cons_self
    decide
  · apply @not_agrees_of_generated _ _
      ⟨"exp", sortedValues [(2147483647, ⟨"a", 2147483647, "ushort", 1⟩),
        (2147483650, ⟨"b", 2147483650, "char", 1⟩)], 2147483652⟩
      ⟨"b", 2147483650, "char", 1⟩ 2147483650
      [(2147483647, ⟨"a", 2147483647, "ushort", 1⟩),
        (2147483650, ⟨"b", 2147483650, "char", 1⟩)] rfl rfl
      (List.mem_cons_of_mem _ List.mem_cons_self)
    decide
  · apply @not_agrees_of_generated _ _
      ⟨"MBLK", sortedValues [(0, ⟨"a", 0, "char", 1⟩)], 24⟩ ⟨"a", 0, "char", 1⟩ 0
      [(0, ⟨"a", 0, "char", 1⟩)] rfl rfl List.mem_cons_self
    decide

end Iocom
