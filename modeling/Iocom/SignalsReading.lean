import Iocom.DynamicInfo
import Iocom.SignalsDocument

/-!
# Reading signals JSON

What `ioc_add_dynamic_info` does with a document, as a fold through its memory
blocks and their signals: the items between do not matter, nor on which side of
the groups the name of a memory block is.
-/

namespace Iocom

/-! ## The fields of a signal -/

/-- A field of a block of the array `signals`. -/
def SignalInfo.readField (info : SignalInfo) : Field → SignalInfo
  | (tag, .string s) =>
      if tag = "name" then { info with signalName := some s } else info.setType tag s
  | (tag, .integer l) => info.setInteger "signals" tag l
  | _ => info

def SignalObject.info (signal : SignalObject) : SignalInfo :=
  signal.fields.foldl SignalInfo.readField signalStart

/-- A member of the signal information which one key sets is set by the field
of that name. -/
theorem readFields_lookup
    {β : Type} (member : SignalInfo → β) (key : String) (pick : FieldValue → Option β)
    (hread : ∀ info tag v, member (info.readField (tag, v)) =
      if tag = key then (pick v).getD (member info) else member info)
    {fields : List Field} (hdistinct : (fields.map Prod.fst).Nodup) (info : SignalInfo) :
    member (fields.foldl SignalInfo.readField info) =
      ((fields.lookup key).bind pick).getD (member info) := by
  induction fields generalizing info with
  | nil => rfl
  | cons field fields ih =>
      obtain ⟨tag, v⟩ := field
      rw [List.map_cons, List.nodup_cons] at hdistinct
      rw [List.foldl_cons, ih hdistinct.2, hread]
      by_cases htag : tag = key
      · subst htag
        have habsent : fields.lookup tag = none := by
          rw [List.lookup_eq_none_iff]
          intro p hp
          have hmem : p.1 ∈ fields.map Prod.fst := List.mem_map.mpr ⟨p, hp, rfl⟩
          exact bne_iff_ne.mpr fun h => hdistinct.1 (h ▸ hmem)
        rw [habsent, if_pos rfl, List.lookup_cons_self]
        rfl
      · have hskip : (key == tag) = false := beq_false_of_ne (Ne.symm htag)
        rw [if_neg htag, List.lookup_cons, hskip]

theorem SignalObject.info_signalName (signal : SignalObject) :
    signal.info.signalName =
      ((signal.fields.lookup "name").bind fun v =>
        match v with
        | .string s => some (some s)
        | _ => none).getD none := by
  apply readFields_lookup SignalInfo.signalName "name" _ _ signal.distinct signalStart
  intro info tag v
  cases v <;> simp only [SignalInfo.readField, SignalInfo.setType, SignalInfo.setInteger] <;>
    split_ifs <;> rfl

theorem SignalObject.info_signalTypeStr (signal : SignalObject) :
    signal.info.signalTypeStr =
      ((signal.fields.lookup "type").bind fun v =>
        match v with
        | .string s => some (some s)
        | _ => none).getD none := by
  apply readFields_lookup SignalInfo.signalTypeStr "type" _ _ signal.distinct signalStart
  intro info tag v
  cases v <;> simp only [SignalInfo.readField, SignalInfo.setType, SignalInfo.setInteger] <;>
    split_ifs <;> simp_all

theorem SignalObject.info_signalAddr (signal : SignalObject) :
    signal.info.signalAddr =
      ((signal.fields.lookup "addr").bind fun v =>
        match v with
        | .integer l => some (osInt l)
        | _ => none).getD (-1) := by
  apply readFields_lookup SignalInfo.signalAddr "addr" _ _ signal.distinct signalStart
  intro info tag v
  cases v <;> simp only [SignalInfo.readField, SignalInfo.setType, SignalInfo.setInteger] <;>
    split_ifs <;> simp_all

theorem SignalObject.info_signalArrayN (signal : SignalObject) :
    signal.info.signalArrayN =
      ((signal.fields.lookup "array").bind fun v =>
        match v with
        | .integer l => some (osInt l)
        | _ => none).getD 1 := by
  apply readFields_lookup SignalInfo.signalArrayN "array" _ _ signal.distinct signalStart
  intro info tag v
  cases v <;> simp only [SignalInfo.readField, SignalInfo.setType, SignalInfo.setInteger] <;>
    split_ifs <;> simp_all

/-! ## Blocks and arrays -/

variable (setup : DinfoSetup)

def DinfoSetup.takeSignal (mblk : MblkInfo) (signal : SignalObject) : MblkInfo :=
  match mblk.mblkName with
  | none => mblk
  | some mblkName => setup.newSignalByInfo signal.info mblkName mblk

/-- Parsing succeeds with the memory block information and leaves the rest; the
position of the groups is kept. -/
structure DinfoParsed.Reads
    (parsed : DinfoParsed) (groups : Option (List JsonItem)) (mblk : MblkInfo)
    (rest : List JsonItem) : Prop where
  status : parsed.status = .success
  mblk : parsed.state.mblk = mblk
  mblkGroups : parsed.state.mblkGroups = groups
  rest : parsed.rest = rest

variable {setup}

theorem DinfoParsed.Reads.followedBy
    {parsed : DinfoParsed} {groups : Option (List JsonItem)} {mblk final : MblkInfo}
    {between rest : List JsonItem} {next : DinfoState → List JsonItem → DinfoParsed}
    (hparsed : parsed.Reads groups mblk between)
    (hnext : ∀ state, state.mblk = mblk →
      (next state between).Reads state.mblkGroups final rest) :
    (if parsed.status = .success then next parsed.state parsed.rest else parsed).Reads
      groups final rest := by
  have hdone := hnext parsed.state hparsed.mblk
  rw [if_pos hparsed.status, hparsed.rest]
  exact ⟨hdone.status, hdone.mblk, hdone.mblkGroups.trans hparsed.mblkGroups, hdone.rest⟩

theorem dinfoBlock_signal
    {fuel : ℕ} {state : DinfoState} {fields : List Field} {rest : List JsonItem}
    (hfuel : fields.length < fuel) :
    (setup.processBlock fuel state "signals" .signal
      (valueItems fields ++ ⟨"", .endBlock⟩ :: rest)).Reads state.mblkGroups
      (match state.mblk.mblkName with
        | none => state.mblk
        | some mblkName =>
            setup.newSignalByInfo (fields.foldl SignalInfo.readField state.signal)
              mblkName state.mblk) rest := by
  induction fields generalizing fuel state with
  | nil =>
      obtain ⟨fuel, rfl⟩ : ∃ n, fuel = n + 1 := ⟨fuel - 1, by
        rw [List.length_nil] at hfuel
        omega⟩
      simp only [valueItems, fieldItems, List.map_nil, List.nil_append, List.foldl_nil,
        DinfoSetup.processBlock, DinfoSetup.endBlock]
      cases hname : state.mblk.mblkName with
      | none => exact ⟨rfl, rfl, rfl, rfl⟩
      | some mblkName => exact ⟨rfl, rfl, rfl, rfl⟩
  | cons field fields ih =>
      obtain ⟨fuel, rfl⟩ : ∃ n, fuel = n + 1 := ⟨fuel - 1, by omega⟩
      have hrest : fields.length < fuel := by
        rw [List.length_cons] at hfuel
        omega
      obtain ⟨tag, value⟩ := field
      have hitems : valueItems ((tag, value) :: fields) =
          ⟨tag, .value value.toJson⟩ :: valueItems fields := rfl
      rw [hitems, List.cons_append, List.foldl_cons]
      cases value with
      | string s =>
          simp only [FieldValue.toJson, DinfoSetup.processBlock]
          by_cases hname : tag = "name"
          · have h := @ih fuel { state with
                tag := tag
                signal := { state.signal with signalName := some s } } hrest
            rw [if_neg (by simp), if_pos (by simp [hname])]
            rw [SignalInfo.readField, if_pos hname]
            exact ⟨h.status, h.mblk, h.mblkGroups, h.rest⟩
          · have h := @ih fuel { state with
                tag := tag
                signal := state.signal.setType tag s } hrest
            rw [if_neg (by simp), if_neg (fun h => hname h.1)]
            rw [SignalInfo.readField, if_neg hname]
            exact ⟨h.status, h.mblk, h.mblkGroups, h.rest⟩
      | integer l =>
          have h := @ih fuel { state with
              tag := tag
              signal := state.signal.setInteger "signals" tag l } hrest
          exact ⟨h.status, h.mblk, h.mblkGroups, h.rest⟩
      | float o =>
          have h := @ih fuel { state with tag := tag } hrest
          exact ⟨h.status, h.mblk, h.mblkGroups, h.rest⟩
      | null =>
          have h := @ih fuel { state with tag := tag } hrest
          exact ⟨h.status, h.mblk, h.mblkGroups, h.rest⟩
      | boolean b =>
          have h := @ih fuel { state with tag := tag } hrest
          exact ⟨h.status, h.mblk, h.mblkGroups, h.rest⟩

theorem dinfoArray_startBlock
    {arrayTag : String} (hmblk : arrayTag ≠ "mblk")
    (fuel : ℕ) (state : DinfoState) (tag : String) (items : List JsonItem) :
    setup.processArray (fuel + 1) state arrayTag (⟨tag, .startBlock⟩ :: items) =
      let kind := blockKind tag arrayTag
      let parsed := setup.processBlock fuel
        (DinfoState.beginBlock { state with tag := tag } kind) arrayTag kind items
      if parsed.status = .success then
        setup.processArray fuel parsed.state arrayTag parsed.rest
      else parsed := by
  rw [DinfoSetup.processArray]
  dsimp only
  rw [if_neg hmblk]

theorem dinfoArray_signals
    {fuel : ℕ} {state : DinfoState} {signals : List SignalObject} {rest : List JsonItem}
    (hfuel : (signals.flatMap SignalObject.items).length < fuel) :
    (setup.processArray fuel state "signals"
      (signals.flatMap SignalObject.items ++ ⟨"", .endArray⟩ :: rest)).Reads state.mblkGroups
      (signals.foldl setup.takeSignal state.mblk) rest := by
  induction signals generalizing fuel state with
  | nil =>
      obtain ⟨fuel, rfl⟩ : ∃ n, fuel = n + 1 := ⟨fuel - 1, by
        rw [List.flatMap_nil, List.length_nil] at hfuel
        omega⟩
      exact ⟨rfl, rfl, rfl, rfl⟩
  | cons signal signals ih =>
      obtain ⟨fuel, rfl⟩ : ∃ n, fuel = n + 1 := ⟨fuel - 1, by omega⟩
      have hlength : (signal :: signals).flatMap SignalObject.items =
          ⟨"-", .startBlock⟩ :: (valueItems signal.fields ++ ⟨"", .endBlock⟩ ::
            signals.flatMap SignalObject.items) := by
        rw [List.flatMap_cons, SignalObject.items, blockItems, List.cons_append,
          List.append_assoc]
        rfl
      rw [hlength] at hfuel ⊢
      rw [List.length_cons, List.length_append, List.length_cons, valueItems, fieldItems,
        List.length_map, List.length_map] at hfuel
      have hblock := @dinfoBlock_signal setup fuel
        { state with tag := "-", signal := signalStart } signal.fields
        (signals.flatMap SignalObject.items ++ ⟨"", .endArray⟩ :: rest) (by omega)
      rw [List.cons_append, List.append_assoc, List.cons_append, List.foldl_cons]
      rw [dinfoArray_startBlock (by decide)]
      have hkind : blockKind "-" "signals" = .signal := rfl
      dsimp only
      rw [hkind, DinfoState.beginBlock]
      apply @DinfoParsed.Reads.followedBy _ _ _ _ _ _
        (fun state rest => setup.processArray fuel state "signals" rest) hblock
      intro between hbetween
      have hnext := @ih fuel between (by omega)
      rw [hbetween] at hnext
      exact hnext

/-- Fields which are not of a signal, nor the name of a memory block, change
only what is read of the next signal. -/
theorem dinfoBlock_fields
    {arrayTag : String} {kind : BlockKind} {fields : List Field} (fuel : ℕ)
    (hname : arrayTag = "mblk" → ∀ field ∈ fields, field.1 ≠ "name")
    (state : DinfoState) (rest : List JsonItem) :
    ∃ tag info,
      setup.processBlock (fields.length + fuel) state arrayTag kind
          (valueItems fields ++ rest) =
        setup.processBlock fuel { state with tag := tag, signal := info } arrayTag kind
          rest := by
  induction fields generalizing state with
  | nil =>
      refine ⟨state.tag, state.signal, ?_⟩
      rw [List.length_nil, Nat.zero_add]
      rfl
  | cons field fields ih =>
      obtain ⟨tag, value⟩ := field
      have hrest : arrayTag = "mblk" → ∀ field ∈ fields, field.1 ≠ "name" :=
        fun h field hfield => hname h field (List.mem_cons_of_mem _ hfield)
      have hitems : valueItems ((tag, value) :: fields) =
          ⟨tag, .value value.toJson⟩ :: valueItems fields := rfl
      have hcount : ((tag, value) :: fields).length + fuel = (fields.length + fuel) + 1 := by
        rw [List.length_cons]
        omega
      have hnotNamed : ¬(tag = "name" ∧ arrayTag = "mblk") := by
        rintro ⟨htag, harray⟩
        exact hname harray _ List.mem_cons_self htag
      rw [hitems, hcount, List.cons_append]
      cases value with
      | string s =>
          simp only [FieldValue.toJson, DinfoSetup.processBlock]
          rw [if_neg hnotNamed]
          by_cases hsignal : tag = "name" ∧ arrayTag = "signals"
          · rw [if_pos hsignal]
            exact ih hrest { state with
              tag := tag
              signal := { state.signal with signalName := some s } }
          · rw [if_neg hsignal]
            exact ih hrest { state with
              tag := tag
              signal := state.signal.setType tag s }
      | integer l =>
          exact ih hrest { state with
            tag := tag
            signal := state.signal.setInteger arrayTag tag l }
      | float o => exact ih hrest { state with tag := tag }
      | null => exact ih hrest { state with tag := tag }
      | boolean b => exact ih hrest { state with tag := tag }

/-- An array in a block, when the position of the groups is not to be kept. -/
theorem dinfoBlock_startArray
    {tag : String} {state : DinfoState}
    (hgroups : ¬(arrayTagOf tag = "groups" ∧ state.mblk.mblkName = none))
    (fuel : ℕ) (arrayTag : String) (kind : BlockKind) (items : List JsonItem) :
    setup.processBlock (fuel + 1) state arrayTag kind (⟨tag, .startArray⟩ :: items) =
      let parsed := setup.processArray fuel { state with tag := tag } (arrayTagOf tag) items
      if parsed.status = .success then
        setup.processBlock fuel parsed.state arrayTag kind parsed.rest
      else parsed := by
  rw [DinfoSetup.processBlock]
  dsimp only
  rw [if_neg hgroups]

theorem length_content {α : Type} (tag : String) (elementItems : α → List JsonItem)
    (object : NestingObject α) :
    (object.content tag elementItems).length =
      object.before.length + (nestedItems tag elementItems object.elements).length +
        object.behind.length := by
  unfold NestingObject.content valueItems fieldItems
  simp only [List.length_append, List.length_map]
  omega

theorem dinfoBlock_group
    {fuel : ℕ} {state : DinfoState} {group : GroupObject} {rest : List JsonItem}
    (hfuel : (group.content "signals" SignalObject.items).length < fuel) :
    (setup.processBlock fuel state "groups" .other
      (group.content "signals" SignalObject.items ++ ⟨"", .endBlock⟩ :: rest)).Reads state.mblkGroups
      (group.array.foldl setup.takeSignal state.mblk) rest := by
  obtain ⟨before, elements, behind, hdistinct, hfresh⟩ := group
  rw [length_content] at hfuel
  dsimp only at hfuel
  unfold NestingObject.content NestingObject.array
  rw [List.append_assoc, List.append_assoc]
  have hother : ∀ fields : List Field, "groups" = "mblk" →
      ∀ field ∈ fields, field.1 ≠ "name" := fun _ h => absurd h (by decide)
  obtain ⟨n, rfl⟩ : ∃ n, fuel = before.length + n :=
    ⟨fuel - before.length, by omega⟩
  obtain ⟨tag, info, hbefore⟩ := @dinfoBlock_fields setup "groups" .other before n
    (hother before) state (nestedItems "signals" SignalObject.items elements ++
      (valueItems behind ++ ⟨"", .endBlock⟩ :: rest))
  rw [hbefore]
  have hend : ∀ (m : ℕ) (between : DinfoState), behind.length < m →
      (setup.processBlock m between "groups" .other
        (valueItems behind ++ ⟨"", .endBlock⟩ :: rest)).Reads between.mblkGroups between.mblk
          rest := by
    intro m between hm
    obtain ⟨k, rfl⟩ : ∃ k, m = behind.length + (k + 1) := ⟨m - behind.length - 1, by omega⟩
    obtain ⟨tag, info, hbehind⟩ := @dinfoBlock_fields setup "groups" .other behind (k + 1)
      (hother behind) between (⟨"", .endBlock⟩ :: rest)
    rw [hbehind]
    exact ⟨rfl, rfl, rfl, rfl⟩
  cases elements with
  | none =>
      have h := hend n { state with tag := tag, signal := info } (by omega)
      exact ⟨h.status, h.mblk, h.mblkGroups, h.rest⟩
  | some signals =>
      simp only [nestedItems, arrayItems, List.length_cons, List.length_append,
        List.length_nil] at hfuel
      obtain ⟨m, rfl⟩ : ∃ m, n = m + 1 := ⟨n - 1, by omega⟩
      have harray := @dinfoArray_signals setup m
        { state with tag := "signals", signal := info } signals
        (valueItems behind ++ ⟨"", .endBlock⟩ :: rest) (by omega)
      simp only [nestedItems, arrayItems, List.cons_append, List.append_assoc,
        List.nil_append]
      rw [dinfoBlock_startArray (fun h => absurd h.1 (by decide))]
      have htag : arrayTagOf "signals" = "signals" := by decide
      dsimp only
      rw [htag]
      apply @DinfoParsed.Reads.followedBy _ _ _ _ _ _
        (fun state rest => setup.processBlock m state "groups" .other rest) harray
      intro between hbetween
      have h := hend m between (by omega)
      rw [hbetween] at h
      exact h

theorem dinfoArray_groups
    {fuel : ℕ} {state : DinfoState} {groups : List GroupObject} {rest : List JsonItem}
    (hfuel : (groups.flatMap groupItems).length < fuel) :
    (setup.processArray fuel state "groups"
      (groups.flatMap groupItems ++ ⟨"", .endArray⟩ :: rest)).Reads state.mblkGroups
      ((groups.flatMap NestingObject.array).foldl setup.takeSignal state.mblk) rest := by
  induction groups generalizing fuel state with
  | nil =>
      obtain ⟨fuel, rfl⟩ : ∃ n, fuel = n + 1 := ⟨fuel - 1, by
        rw [List.flatMap_nil, List.length_nil] at hfuel
        omega⟩
      exact ⟨rfl, rfl, rfl, rfl⟩
  | cons group groups ih =>
      obtain ⟨fuel, rfl⟩ : ∃ n, fuel = n + 1 := ⟨fuel - 1, by omega⟩
      have hitems : (group :: groups).flatMap groupItems =
          ⟨"-", .startBlock⟩ :: (group.content "signals" SignalObject.items ++
            ⟨"", .endBlock⟩ :: groups.flatMap groupItems) := by
        rw [List.flatMap_cons, groupItems, NestingObject.items, blockItems,
          List.cons_append, List.append_assoc]
        rfl
      rw [hitems] at hfuel ⊢
      rw [List.length_cons, List.length_append, List.length_cons] at hfuel
      have hblock := @dinfoBlock_group setup fuel { state with tag := "-" } group
        (groups.flatMap groupItems ++ ⟨"", .endArray⟩ :: rest) (by omega)
      rw [List.cons_append, List.append_assoc, List.cons_append, List.flatMap_cons,
        List.foldl_append]
      rw [dinfoArray_startBlock (by decide)]
      have hkind : blockKind "-" "groups" = .other := rfl
      dsimp only
      rw [hkind, DinfoState.beginBlock]
      apply @DinfoParsed.Reads.followedBy _ _ _ _ _ _
        (fun state rest => setup.processArray fuel state "groups" rest) hblock
      intro between hbetween
      have hnext := @ih fuel between (by omega)
      rw [hbetween] at hnext
      exact hnext

/-! ## Memory blocks -/

def MblkInfo.named (mblk : MblkInfo) (mblkName : String) : MblkInfo :=
  { mblk with
    mblkName := some mblkName
    currentTypeId := .ushort
    currentAddr := 0
    maxAddr := 0 }

def DinfoSetup.readMblk
    (setup : DinfoSetup) (info : MblkInfo) (mblk : MblkObject) (mblkName : String) :
    MblkInfo :=
  let filled := mblk.signals.foldl setup.takeSignal (info.named mblkName)
  if setup.resizeMblks then filled.resizeByInfo else filled

theorem takeSignal_unnamed {mblk : MblkInfo} (hname : mblk.mblkName = none)
    (signals : List SignalObject) : signals.foldl setup.takeSignal mblk = mblk := by
  induction signals with
  | nil => rfl
  | cons signal signals ih =>
      have hsignal : setup.takeSignal mblk signal = mblk := by
        unfold DinfoSetup.takeSignal
        rw [hname]
      rw [List.foldl_cons, hsignal, ih]

theorem exists_split_of_lookup {fields : List Field} {key : String} {v : FieldValue}
    (hlookup : fields.lookup key = some v) (hdistinct : (fields.map Prod.fst).Nodup) :
    ∃ before behind, fields = before ++ (key, v) :: behind ∧
      (∀ field ∈ before, field.1 ≠ key) ∧ ∀ field ∈ behind, field.1 ≠ key := by
  obtain ⟨before, behind, rfl, hbefore⟩ := List.lookup_eq_some_iff.mp hlookup
  refine ⟨before, behind, rfl, fun field hfield h => ?_, fun field hfield h => ?_⟩
  · have hne := bne_iff_ne.mp (hbefore field hfield)
    exact hne h.symm
  · rw [List.map_append, List.map_cons, List.nodup_append] at hdistinct
    have htail := (List.nodup_cons.mp hdistinct.2.1).1
    exact htail (List.mem_map.mpr ⟨field, hfield, h⟩)

structure DinfoParsed.Takes
    (parsed : DinfoParsed) (mblk : MblkInfo) (rest : List JsonItem) : Prop where
  status : parsed.status = .success
  mblk : parsed.state.mblk = mblk
  rest : parsed.rest = rest

theorem DinfoParsed.Reads.takes
    {parsed : DinfoParsed} {groups : Option (List JsonItem)} {mblk : MblkInfo}
    {rest : List JsonItem} (h : parsed.Reads groups mblk rest) : parsed.Takes mblk rest :=
  ⟨h.status, h.mblk, h.rest⟩

theorem DinfoParsed.Takes.followedBy
    {parsed : DinfoParsed} {mblk final : MblkInfo} {between rest : List JsonItem}
    {next : DinfoState → List JsonItem → DinfoParsed} (hparsed : parsed.Takes mblk between)
    (hnext : ∀ state, state.mblk = mblk → (next state between).Takes final rest) :
    (if parsed.status = .success then next parsed.state parsed.rest else parsed).Takes
      final rest := by
  rw [if_pos hparsed.status, hparsed.rest]
  exact hnext parsed.state hparsed.mblk

section Mblk

variable {state : DinfoState} {final : MblkInfo} {items rest : List JsonItem}

theorem dinfoBlock_mblkFields
    {fields : List Field} {fuel : ℕ} (hname : ∀ field ∈ fields, field.1 ≠ "name")
    (hfuel : fields.length ≤ fuel)
    (hnext : ∀ n between, fuel = fields.length + n → between.mblk = state.mblk →
      between.mblkGroups = state.mblkGroups →
      (setup.processBlock n between "mblk" .mblk items).Takes final rest) :
    (setup.processBlock fuel state "mblk" .mblk (valueItems fields ++ items)).Takes final
      rest := by
  obtain ⟨n, rfl⟩ : ∃ n, fuel = fields.length + n := ⟨fuel - fields.length, by omega⟩
  obtain ⟨tag, info, hfields⟩ := @dinfoBlock_fields setup "mblk" .mblk fields n
    (fun _ => hname) state items
  rw [hfields]
  exact hnext n _ rfl rfl rfl

/-- The end of a memory block behind its name and its groups. -/
theorem dinfoBlock_mblkEnd
    {fields : List Field} {fuel : ℕ} (hname : ∀ field ∈ fields, field.1 ≠ "name")
    (hfuel : fields.length < fuel) :
    (setup.processBlock fuel state "mblk" .mblk
      (valueItems fields ++ ⟨"", .endBlock⟩ :: rest)).Takes
      (if setup.resizeMblks then state.mblk.resizeByInfo else state.mblk) rest := by
  apply dinfoBlock_mblkFields hname (Nat.le_of_lt hfuel)
  intro n between hn hbetween _
  obtain ⟨k, rfl⟩ : ∃ k, n = k + 1 := ⟨n - 1, by omega⟩
  simp only [DinfoSetup.processBlock, DinfoSetup.endBlock]
  rw [← hbetween]
  cases setup.resizeMblks with
  | false => exact ⟨rfl, rfl, rfl⟩
  | true => exact ⟨rfl, rfl, rfl⟩

/-- The name of a memory block, when no groups came before it. -/
theorem dinfoBlock_mblkName
    {fuel : ℕ} {s : String} (hgroups : state.mblkGroups = none)
    (hnext : ∀ between : DinfoState,
      between.mblk = { state.mblk with mblkName := some s } →
      (setup.processBlock fuel between "mblk" .mblk items).Takes final rest) :
    (setup.processBlock (fuel + 1) state "mblk" .mblk
      (⟨"name", .value (.string s)⟩ :: items)).Takes final rest := by
  simp only [DinfoSetup.processBlock]
  rw [if_pos (by simp), hgroups]
  exact hnext _ rfl

/-- The name of a memory block, when it comes after the groups. -/
theorem dinfoBlock_lateName
    {fuel : ℕ} {groups : List GroupObject} {s : String} {behind : List JsonItem}
    (hgroups : state.mblkGroups = some (groups.flatMap groupItems ++ ⟨"", .endArray⟩ :: behind))
    (hfuel : (groups.flatMap groupItems).length < fuel)
    (hnext : ∀ between : DinfoState,
      between.mblk = (groups.flatMap NestingObject.array).foldl setup.takeSignal
        { state.mblk with mblkName := some s } →
      (setup.processBlock fuel between "mblk" .mblk items).Takes final rest) :
    (setup.processBlock (fuel + 1) state "mblk" .mblk
      (⟨"name", .value (.string s)⟩ :: items)).Takes final rest := by
  obtain ⟨tag, signal, info, kept⟩ := state
  subst hgroups
  have harray := @dinfoArray_groups setup fuel
    ⟨"name", signal, { info with mblkName := some s },
      some (groups.flatMap groupItems ++ ⟨"", .endArray⟩ :: behind)⟩ groups behind hfuel
  simp only [DinfoSetup.processBlock]
  rw [if_pos (by simp), if_pos harray.status]
  exact hnext _ harray.mblk

/-- The groups of a memory block, when its name came before them. -/
theorem dinfoBlock_mblkGroups
    {fuel : ℕ} {elements : Option (List GroupObject)}
    (hname : state.mblk.mblkName ≠ none)
    (hfuel : (nestedItems "groups" groupItems elements).length < fuel)
    (hnext : ∀ n between, fuel ≤ n + (nestedItems "groups" groupItems elements).length →
      between.mblk = ((elements.getD []).flatMap NestingObject.array).foldl
        setup.takeSignal state.mblk →
      (setup.processBlock n between "mblk" .mblk items).Takes final rest) :
    (setup.processBlock fuel state "mblk" .mblk
      (nestedItems "groups" groupItems elements ++ items)).Takes final rest := by
  cases elements with
  | none => exact hnext fuel state (Nat.le_add_right _ _) rfl
  | some groups =>
      simp only [nestedItems, arrayItems, List.length_cons, List.length_append,
        List.length_nil] at hfuel hnext
      obtain ⟨m, rfl⟩ : ∃ m, fuel = m + 1 := ⟨fuel - 1, by omega⟩
      have harray := @dinfoArray_groups setup m { state with tag := "groups" } groups
        items (by omega)
      simp only [nestedItems, arrayItems, List.cons_append, List.append_assoc,
        List.nil_append]
      rw [dinfoBlock_startArray (fun h => hname h.2)]
      have htag : arrayTagOf "groups" = "groups" := by decide
      dsimp only
      rw [htag]
      apply @DinfoParsed.Takes.followedBy _ _ _ _ _
        (fun state rest => setup.processBlock m state "mblk" .mblk rest) harray.takes
      intro between hbetween
      exact hnext m between (by omega) hbetween

/-- Without a name the groups have no effect, and their position is kept. -/
theorem dinfoBlock_unnamedGroups
    {fuel : ℕ} {groups : List GroupObject}
    (hname : state.mblk.mblkName = none)
    (hfuel : (groups.flatMap groupItems).length < fuel)
    (hnext : ∀ between : DinfoState, between.mblk = state.mblk →
      between.mblkGroups = some (groups.flatMap groupItems ++ ⟨"", .endArray⟩ :: items) →
      (setup.processBlock fuel between "mblk" .mblk items).Takes final rest) :
    (setup.processBlock (fuel + 1) state "mblk" .mblk
      (nestedItems "groups" groupItems (some groups) ++ items)).Takes final rest := by
  have harray := @dinfoArray_groups setup fuel
    ⟨"groups", state.signal, state.mblk,
      some (groups.flatMap groupItems ++ ⟨"", .endArray⟩ :: items)⟩ groups items hfuel
  rw [takeSignal_unnamed hname] at harray
  have htag : arrayTagOf "groups" = "groups" := by decide
  simp only [nestedItems, arrayItems, List.cons_append, List.append_assoc, List.nil_append,
    DinfoSetup.processBlock, htag, true_and]
  rw [if_pos hname, if_pos harray.status, harray.rest]
  exact hnext _ harray.mblk harray.mblkGroups

end Mblk

theorem valueItems_append_cons (first second : List Field) (tag : String) (v : FieldValue) :
    valueItems (first ++ (tag, v) :: second) =
      valueItems first ++ ⟨tag, .value v.toJson⟩ :: valueItems second := by
  unfold valueItems fieldItems
  rw [List.map_append, List.map_append]
  rfl

/-- A memory block is read in the same way on whichever side of the groups its
name is. -/
theorem dinfoBlock_mblk
    {fuel : ℕ} {state : DinfoState} {mblk : MblkObject} {s : String} {rest : List JsonItem}
    (info : MblkInfo) (hname : mblk.fields.lookup "name" = some (.string s))
    (hstate : state.mblk = { info.named s with mblkName := none })
    (hgroups : state.mblkGroups = none)
    (hfuel : (mblk.content "groups" groupItems).length < fuel) :
    (setup.processBlock fuel state "mblk" .mblk
      (mblk.content "groups" groupItems ++ ⟨"", .endBlock⟩ :: rest)).Takes
      (setup.readMblk info mblk s) rest := by
  obtain ⟨before, elements, behind, hdistinct, hfresh⟩ := mblk
  have hnamed : { state.mblk with mblkName := some s } = info.named s := by
    rw [hstate]
    rfl
  rw [length_content] at hfuel
  dsimp only at hfuel
  unfold NestingObject.content DinfoSetup.readMblk NestingObject.signals NestingObject.array
  dsimp only
  rw [List.append_assoc, List.append_assoc]
  unfold NestingObject.fields at hname
  dsimp only at hname
  rw [List.lookup_append] at hname
  rw [List.map_append, List.nodup_append] at hdistinct
  cases hbefore : before.lookup "name" with
  | some v =>
      -- The name is known when the groups are read.
      rw [hbefore, Option.some_or, Option.some.injEq] at hname
      subst hname
      obtain ⟨first, second, rfl, hfirst, hsecond⟩ :=
        exists_split_of_lookup hbefore hdistinct.1
      have hbehind : ∀ field ∈ behind, field.1 ≠ "name" := by
        intro field hfield h
        have hmem : "name" ∈ (first ++ ("name", FieldValue.string s) :: second).map Prod.fst :=
          List.mem_map.mpr ⟨_, List.mem_append_right _ List.mem_cons_self, rfl⟩
        exact hdistinct.2.2 _ hmem _ (List.mem_map.mpr ⟨field, hfield, rfl⟩) h.symm
      rw [List.length_append, List.length_cons] at hfuel
      rw [valueItems_append_cons, List.append_assoc, List.cons_append]
      apply dinfoBlock_mblkFields hfirst (by omega)
      intro n state₁ hn hmblk₁ hgroups₁
      obtain ⟨n, rfl⟩ : ∃ m, n = m + 1 := ⟨n - 1, by omega⟩
      apply dinfoBlock_mblkName (hgroups₁.trans hgroups)
      intro state₂ hmblk₂
      rw [hmblk₁, hnamed] at hmblk₂
      apply dinfoBlock_mblkFields hsecond (by omega)
      intro m state₃ hm hmblk₃ _
      rw [hmblk₂] at hmblk₃
      apply dinfoBlock_mblkGroups (by rw [hmblk₃]; exact Option.some_ne_none s) (by omega)
      intro k state₄ hk hmblk₄
      rw [hmblk₃] at hmblk₄
      have hend := @dinfoBlock_mblkEnd setup state₄ rest behind k hbehind (by omega)
      rw [hmblk₄] at hend
      exact hend
  | none =>
      rw [hbefore, Option.none_or] at hname
      obtain ⟨first, second, rfl, hfirst, hsecond⟩ :=
        exists_split_of_lookup hname hdistinct.2.1
      have hno : ∀ field ∈ before, field.1 ≠ "name" := by
        intro field hfield h
        have hne := bne_iff_ne.mp (List.lookup_eq_none_iff.mp hbefore field hfield)
        exact hne h.symm
      rw [List.length_append, List.length_cons] at hfuel
      rw [valueItems_append_cons, List.append_assoc, List.cons_append]
      apply dinfoBlock_mblkFields hno (by omega)
      intro n state₁ hn hmblk₁ hgroups₁
      have hend : ∀ (k : ℕ) (between : DinfoState) (mblk : MblkInfo), second.length < k →
          between.mblk = mblk →
          (setup.processBlock k between "mblk" .mblk
            (valueItems second ++ ⟨"", .endBlock⟩ :: rest)).Takes
            (if setup.resizeMblks then mblk.resizeByInfo else mblk) rest := by
        intro k between mblk hk hbetween
        have h := @dinfoBlock_mblkEnd setup between rest second k hsecond hk
        rw [hbetween] at h
        exact h
      cases elements with
      | none =>
          rw [nestedItems, List.nil_append]
          apply dinfoBlock_mblkFields hfirst (by omega)
          intro m state₂ hm hmblk₂ hgroups₂
          obtain ⟨m, rfl⟩ : ∃ k, m = k + 1 := ⟨m - 1, by omega⟩
          apply dinfoBlock_mblkName (hgroups₂.trans (hgroups₁.trans hgroups))
          intro state₃ hmblk₃
          rw [hmblk₂, hmblk₁, hnamed] at hmblk₃
          exact hend m state₃ _ (by omega) hmblk₃
      | some groups =>
          simp only [nestedItems, arrayItems, List.length_cons, List.length_append,
            List.length_nil] at hfuel
          obtain ⟨n, rfl⟩ : ∃ m, n = m + 1 := ⟨n - 1, by omega⟩
          apply dinfoBlock_unnamedGroups (by rw [hmblk₁, hstate]) (by omega)
          intro state₂ hmblk₂ hgroups₂
          apply dinfoBlock_mblkFields hfirst (by omega)
          intro m state₃ hm hmblk₃ hgroups₃
          obtain ⟨m, rfl⟩ : ∃ k, m = k + 1 := ⟨m - 1, by omega⟩
          apply dinfoBlock_lateName (hgroups₃.trans hgroups₂) (by omega)
          intro state₄ hmblk₄
          rw [hmblk₃, hmblk₂, hmblk₁, hnamed] at hmblk₄
          exact hend m state₄ _ (by omega) hmblk₄

/-! ## The document -/

def SignalsDocument.Named (doc : SignalsDocument) : Prop :=
  ∀ mblk ∈ doc.mblks, ∃ s, mblk.fields.lookup "name" = some (.string s)

def NestingObject.mblkName (mblk : MblkObject) : String :=
  match mblk.fields.lookup "name" with
  | some (.string s) => s
  | _ => ""

def DinfoSetup.readMblks (setup : DinfoSetup) (info : MblkInfo) (mblks : List MblkObject) :
    MblkInfo :=
  mblks.foldl (fun info mblk => setup.readMblk info mblk mblk.mblkName) info

theorem dinfoArray_mblks
    {fuel : ℕ} {state : DinfoState} {mblks : List MblkObject} {rest : List JsonItem}
    (hnames : ∀ mblk ∈ mblks, ∃ s, mblk.fields.lookup "name" = some (.string s))
    (hfuel : (mblks.flatMap mblkItems).length < fuel) :
    (setup.processArray fuel state "mblk"
      (mblks.flatMap mblkItems ++ ⟨"", .endArray⟩ :: rest)).Takes
      (setup.readMblks state.mblk mblks) rest := by
  induction mblks generalizing fuel state with
  | nil =>
      obtain ⟨fuel, rfl⟩ : ∃ n, fuel = n + 1 := ⟨fuel - 1, by
        rw [List.flatMap_nil, List.length_nil] at hfuel
        omega⟩
      exact ⟨rfl, rfl, rfl⟩
  | cons mblk mblks ih =>
      obtain ⟨fuel, rfl⟩ : ∃ n, fuel = n + 1 := ⟨fuel - 1, by omega⟩
      obtain ⟨s, hname⟩ := hnames mblk List.mem_cons_self
      have hmblkName : mblk.mblkName = s := by
        unfold NestingObject.mblkName
        rw [hname]
      have hitems : (mblk :: mblks).flatMap mblkItems =
          ⟨"-", .startBlock⟩ :: (mblk.content "groups" groupItems ++
            ⟨"", .endBlock⟩ :: mblks.flatMap mblkItems) := by
        rw [List.flatMap_cons, mblkItems, NestingObject.items, blockItems,
          List.cons_append, List.append_assoc]
        rfl
      rw [hitems] at hfuel ⊢
      rw [List.length_cons, List.length_append, List.length_cons] at hfuel
      rw [List.cons_append, List.append_assoc, List.cons_append]
      rw [DinfoSetup.processArray]
      dsimp only
      have hkind : blockKind "-" "mblk" = .mblk := rfl
      rw [if_pos rfl, hkind]
      have hblock := @dinfoBlock_mblk setup fuel
        (DinfoState.beginBlock ⟨"-", state.signal, { state.mblk with mblkName := none }, none⟩
          .mblk) mblk s
        (mblks.flatMap mblkItems ++ ⟨"", .endArray⟩ :: rest) state.mblk hname rfl rfl (by omega)
      apply @DinfoParsed.Takes.followedBy _ _ _ _ _
        (fun state rest => setup.processArray fuel state "mblk" rest) hblock
      intro between hbetween
      have hnext := @ih fuel between
        (fun mblk hmblk => hnames mblk (List.mem_cons_of_mem _ hmblk)) (by omega)
      rw [hbetween] at hnext
      rw [DinfoSetup.readMblks, List.foldl_cons, hmblkName]
      exact hnext

/-- Objects which are neither signals nor memory blocks have no effect. -/
theorem dinfoArray_otherObjects
    {fuel : ℕ} {state : DinfoState} {arrayTag : String} {objects : List (List Field)}
    {rest : List JsonItem} (hmblk : arrayTag ≠ "mblk") (hsignals : arrayTag ≠ "signals")
    (hfuel : (objects.flatMap fun fields => blockItems (valueItems fields)).length < fuel) :
    (setup.processArray fuel state arrayTag
      ((objects.flatMap fun fields => blockItems (valueItems fields)) ++
        ⟨"", .endArray⟩ :: rest)).Takes state.mblk rest := by
  induction objects generalizing fuel state with
  | nil =>
      obtain ⟨fuel, rfl⟩ : ∃ n, fuel = n + 1 := ⟨fuel - 1, by
        rw [List.flatMap_nil, List.length_nil] at hfuel
        omega⟩
      exact ⟨rfl, rfl, rfl⟩
  | cons fields objects ih =>
      obtain ⟨fuel, rfl⟩ : ∃ n, fuel = n + 1 := ⟨fuel - 1, by omega⟩
      have hitems : ((fields :: objects).flatMap fun fields => blockItems (valueItems fields)) =
          ⟨"-", .startBlock⟩ :: (valueItems fields ++ ⟨"", .endBlock⟩ ::
            objects.flatMap fun fields => blockItems (valueItems fields)) := by
        rw [List.flatMap_cons, blockItems, List.cons_append, List.append_assoc]
        rfl
      rw [hitems] at hfuel ⊢
      rw [List.length_cons, List.length_append, List.length_cons, valueItems, fieldItems,
        List.length_map, List.length_map] at hfuel
      obtain ⟨n, rfl⟩ : ∃ n, fuel = fields.length + (n + 1) :=
        ⟨fuel - fields.length - 1, by omega⟩
      rw [List.cons_append, List.append_assoc, List.cons_append,
        dinfoArray_startBlock hmblk]
      have hkind : blockKind "-" arrayTag = .other := by
        unfold blockKind
        rw [if_pos rfl, if_neg hsignals, if_neg hmblk]
      obtain ⟨tag, info, hfields⟩ := @dinfoBlock_fields setup arrayTag .other fields (n + 1)
        (fun h => absurd h hmblk) { state with tag := "-" }
        (⟨"", .endBlock⟩ :: ((objects.flatMap fun fields => blockItems (valueItems fields)) ++
          ⟨"", .endArray⟩ :: rest))
      dsimp only
      rw [hkind, DinfoState.beginBlock, hfields]
      exact @ih (fields.length + (n + 1)) { state with tag := tag, signal := info } (by omega)

theorem dinfoBlock_members
    {fuel : ℕ} {state : DinfoState} {members : List TopMember}
    {items rest : List JsonItem} {final : MblkInfo}
    (hfresh : ∀ m ∈ members, m.tag ≠ "mblk" ∧ m.tag ≠ "signals")
    (hfuel : (members.flatMap TopMember.items).length ≤ fuel)
    (hnext : ∀ n between, fuel ≤ n + (members.flatMap TopMember.items).length →
      between.mblk = state.mblk →
      (setup.processBlock n between "" .other items).Takes final rest) :
    (setup.processBlock fuel state "" .other
      (members.flatMap TopMember.items ++ items)).Takes final rest := by
  induction members generalizing fuel state with
  | nil => exact hnext fuel state (Nat.le_add_right _ _) rfl
  | cons member members ih =>
      have hrest : ∀ m ∈ members, m.tag ≠ "mblk" ∧ m.tag ≠ "signals" :=
        fun m hm => hfresh m (List.mem_cons_of_mem _ hm)
      rw [List.flatMap_cons, List.length_append] at hfuel hnext
      rw [List.flatMap_cons, List.append_assoc]
      cases member with
      | value tag v =>
          have hone : TopMember.items (.value tag v) = valueItems [(tag, v)] := rfl
          rw [hone] at hfuel hnext ⊢
          have hlength : (valueItems [(tag, v)]).length = 1 := rfl
          rw [hlength] at hfuel hnext
          obtain ⟨n, rfl⟩ : ∃ n, fuel = [(tag, v)].length + n := ⟨fuel - 1, by
            rw [List.length_singleton]
            omega⟩
          obtain ⟨tag', info, hfields⟩ := @dinfoBlock_fields setup "" .other [(tag, v)] n
            (fun h => absurd h (by decide)) state
            (members.flatMap TopMember.items ++ items)
          rw [hfields]
          rw [List.length_singleton] at hfuel hnext
          apply ih hrest (by omega)
          intro m between hm hbetween
          exact hnext m between (by omega) hbetween
      | array tag objects =>
          have htag := hfresh _ List.mem_cons_self
          have hmblk : arrayTagOf tag ≠ "mblk" :=
            fun h => htag.1 ((arrayTagOf_eq_iff (by decide)).mp h)
          have hsignals : arrayTagOf tag ≠ "signals" :=
            fun h => htag.2 ((arrayTagOf_eq_iff (by decide)).mp h)
          simp only [TopMember.items, arrayItems, List.length_cons, List.length_append,
            List.length_nil] at hfuel hnext
          obtain ⟨n, rfl⟩ : ∃ n, fuel = n + 1 := ⟨fuel - 1, by omega⟩
          simp only [TopMember.items, arrayItems, List.cons_append, List.append_assoc,
            List.nil_append, DinfoSetup.processBlock]
          have hmarked : ∀ marked : DinfoState, marked.mblk = state.mblk →
              (setup.processArray n marked (arrayTagOf tag)
                ((objects.flatMap fun fields => blockItems (valueItems fields)) ++
                  ⟨"", .endArray⟩ :: (members.flatMap TopMember.items ++ items))).Takes
                state.mblk (members.flatMap TopMember.items ++ items) := by
            intro marked hmarked
            have h := @dinfoArray_otherObjects setup n marked (arrayTagOf tag) objects
              (members.flatMap TopMember.items ++ items) hmblk hsignals (by omega)
            rw [hmarked] at h
            exact h
          apply @DinfoParsed.Takes.followedBy _ _ _ _ _
            (fun state rest => setup.processBlock n state "" .other rest)
            (hmarked _ (by split_ifs <;> rfl))
          intro between hbetween
          apply ih hrest (by omega)
          intro m last hm hlast
          exact hnext m last (by omega) (hlast.trans hbetween)

def SignalsDocument.members (doc : SignalsDocument) : List JsonItem :=
  doc.before.flatMap TopMember.items ++
    (arrayItems "mblk" (doc.mblks.flatMap mblkItems) ++ doc.behind.flatMap TopMember.items)

theorem dinfoBlock_closing {fuel : ℕ} {state : DinfoState} {n : ℕ} :
    (setup.processBlock (fuel + 1) state "" .other
      (List.replicate n ⟨"", .endBlock⟩)).Takes state.mblk
      (List.replicate (n - 1) ⟨"", .endBlock⟩) := by
  cases n with
  | zero => exact ⟨rfl, rfl, rfl⟩
  | succ n => exact ⟨rfl, rfl, rfl⟩

theorem dinfoBlock_documentMembers
    {fuel : ℕ} {state : DinfoState} {doc : SignalsDocument} {n : ℕ} (hnames : doc.Named)
    (hfuel : doc.members.length < fuel) :
    (setup.processBlock fuel state "" .other
      (doc.members ++ List.replicate n ⟨"", .endBlock⟩)).Takes
      (setup.readMblks state.mblk doc.mblks) (List.replicate (n - 1) ⟨"", .endBlock⟩) := by
  simp only [SignalsDocument.members, arrayItems, List.length_cons, List.length_append,
    List.length_nil] at hfuel
  simp only [SignalsDocument.members, arrayItems, List.cons_append, List.append_assoc,
    List.nil_append]
  apply dinfoBlock_members
    (fun m hm => doc.fresh m (List.mem_append_left _ hm)) (by omega)
  intro k between hk hbetween
  obtain ⟨k, rfl⟩ : ∃ m, k = m + 1 := ⟨k - 1, by omega⟩
  have htag : arrayTagOf "mblk" = "mblk" := by decide
  rw [dinfoBlock_startArray (by
    rw [htag]
    exact fun h => absurd h.1 (by decide)), htag]
  have harray := @dinfoArray_mblks setup k { between with tag := "mblk" } doc.mblks
    (doc.behind.flatMap TopMember.items ++ List.replicate n ⟨"", .endBlock⟩) hnames (by omega)
  rw [← hbetween]
  apply @DinfoParsed.Takes.followedBy _ _ _ _ _
    (fun state rest => setup.processBlock k state "" .other rest) harray
  intro behind hbehind
  apply dinfoBlock_members
    (fun m hm => doc.fresh m (List.mem_append_right _ hm)) (by omega)
  intro j last hj hlast
  obtain ⟨j, rfl⟩ : ∃ m, j = m + 1 := ⟨j - 1, by omega⟩
  have hclosing := @dinfoBlock_closing setup j last n
  rw [hlast, hbehind] at hclosing
  exact hclosing

theorem dinfoBlock_document
    {fuel : ℕ} {state : DinfoState} {enclosing : List String} {doc : SignalsDocument} {n : ℕ}
    (hnames : doc.Named) (hfuel : doc.members.length + 2 * enclosing.length < fuel) :
    (setup.processBlock fuel state "" .other
      (enclosing.map (fun tag => ⟨tag, .startBlock⟩) ++
        (doc.members ++ List.replicate (enclosing.length + n) ⟨"", .endBlock⟩))).Takes
      (setup.readMblks state.mblk doc.mblks) (List.replicate (n - 1) ⟨"", .endBlock⟩) := by
  induction enclosing generalizing fuel state n with
  | nil =>
      rw [List.length_nil, Nat.zero_add]
      exact dinfoBlock_documentMembers hnames (by simpa using hfuel)
  | cons tag enclosing ih =>
      rw [List.length_cons] at hfuel ⊢
      obtain ⟨fuel, rfl⟩ : ∃ m, fuel = m + 1 + 1 := ⟨fuel - 2, by omega⟩
      have hcount : enclosing.length + 1 + n = enclosing.length + (n + 1) := by omega
      rw [hcount, List.map_cons, List.cons_append, DinfoSetup.processBlock]
      dsimp only
      have hkind : blockKind tag "" = .other := by
        unfold blockKind
        split_ifs with h₁ h₂ h₃
        · exact absurd h₂ (by decide)
        · exact absurd h₃ (by decide)
        · rfl
        · rfl
      rw [hkind, DinfoState.beginBlock]
      have hinner := @ih (fuel + 1) { state with tag := tag } (n + 1) (by omega)
      apply @DinfoParsed.Takes.followedBy _ _ _ _ _
        (fun state rest => setup.processBlock (fuel + 1) state "" .other rest) hinner
      intro between hbetween
      have hclosing := @dinfoBlock_closing setup fuel between n
      rw [hbetween] at hclosing
      exact hclosing

theorem addDynamicInfo_document (setup : DinfoSetup) {doc : SignalsDocument}
    (hnames : doc.Named) :
    (setup.addDynamicInfo doc.items).Takes
      (setup.readMblks dinfoStart.mblk doc.mblks) [] := by
  have hitems : doc.items = doc.enclosing.map (fun tag => ⟨tag, .startBlock⟩) ++
      (doc.members ++ List.replicate (doc.enclosing.length + 0) ⟨"", .endBlock⟩) := by
    unfold SignalsDocument.items SignalsDocument.members
    simp only [List.append_assoc, Nat.add_zero]
  have hfuel : doc.members.length + 2 * doc.enclosing.length < doc.items.length + 1 := by
    rw [hitems]
    simp only [List.length_append, List.length_map, List.length_replicate]
    omega
  have h := @dinfoBlock_document setup _ dinfoStart _ doc 0 hnames hfuel
  rw [← hitems] at h
  exact h

end Iocom
