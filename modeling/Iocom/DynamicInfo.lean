import Iocom.MemoryBlock
import Iocom.PackedJson
import Iocom.Signal

/-!
# Dynamic signal information

How `ioc_add_dynamic_info` reads the packed JSON of an info block: which
signals it adds, and to which size it resizes the memory blocks.
-/

namespace Iocom

/-- A call of `ioc_add_dynamic_signal`; the network and the device are the same
in all calls. -/
structure DynamicSignal where
  signalName : Option String
  mblkName : String
  addr : ℤ
  n : ℤ
  ncolumns : ℤ
  typeId : TypeId
  deriving DecidableEq

structure SignalInfo where
  signalName : Option String
  signalTypeStr : Option String
  signalAddr : ℤ
  signalArrayN : ℤ
  ncolumns : ℤ

structure MblkInfo where
  mblkName : Option String
  currentTypeId : TypeId
  currentAddr : ℤ
  maxAddr : ℤ
  dynamicSignals : List DynamicSignal
  /-- Block names and sizes of `ioc_resize_memory_block_by_info`. -/
  resized : List (Option String × ℤ)

/-- `iocAddDinfoState`. -/
structure DinfoState where
  tag : String
  signal : SignalInfo
  mblk : MblkInfo
  /-- `mblk_groups_jindex`, when it is set. -/
  mblkGroups : Option (List JsonItem)

structure DinfoSetup where
  /-- `osal_typeid_from_name`. -/
  typeIdFromName : String → TypeId
  resizeMblks : Bool

def iocMinMblkSz : ℤ := 24

/-- The bytes by which `ioc_new_signal_by_info` moves the current address. -/
def dinfoSignalBytes (typeId : TypeId) (n : ℤ) : ℤ :=
  match typeId with
  | .boolean => if n = 1 then 1 else (osInt (n + 7)).tdiv 8 + 1
  | .str => osInt (n + 1)
  | typeId => osInt (n * typeSize typeId + 1)

def DinfoSetup.signalTypeId
    (setup : DinfoSetup) (info : SignalInfo) (currentTypeId : TypeId) : TypeId :=
  match info.signalTypeStr with
  | some name => setup.typeIdFromName name
  | none => currentTypeId

/-- `ioc_new_signal_by_info`. -/
def DinfoSetup.newSignalByInfo
    (setup : DinfoSetup) (info : SignalInfo) (mblkName : String) (mblk : MblkInfo) :
    MblkInfo :=
  let typeId := setup.signalTypeId info mblk.currentTypeId
  let addr := if 0 ≤ info.signalAddr then info.signalAddr else mblk.currentAddr
  let n := if info.signalArrayN < 1 then 1 else info.signalArrayN
  let currentAddr := osInt (addr + dinfoSignalBytes typeId n)
  { mblk with
    currentTypeId := typeId
    currentAddr := currentAddr
    maxAddr := if mblk.maxAddr < currentAddr then currentAddr else mblk.maxAddr
    dynamicSignals :=
      mblk.dynamicSignals ++
        [⟨info.signalName, mblkName, addr, n, info.ncolumns, typeId⟩] }

/-- The size used by `ioc_resize_memory_block_by_info`. -/
def MblkInfo.resizeByInfo (mblk : MblkInfo) : MblkInfo :=
  let sz := if mblk.maxAddr < iocMinMblkSz then iocMinMblkSz else mblk.maxAddr
  { mblk with resized := mblk.resized ++ [(mblk.mblkName, sz)] }

/-- `is_signal_block` and `is_mblk_block`. -/
inductive BlockKind where
  | signal
  | mblk
  | other
  deriving DecidableEq

def blockKind (tag arrayTag : String) : BlockKind :=
  if tag = "-" then
    if arrayTag = "signals" then .signal
    else if arrayTag = "mblk" then .mblk
    else .other
  else .other

def signalStart : SignalInfo where
  signalName := none
  signalTypeStr := none
  signalAddr := -1
  signalArrayN := 1
  ncolumns := 1

/-- The beginning of `ioc_dinfo_process_block`. -/
def DinfoState.beginBlock (state : DinfoState) : BlockKind → DinfoState
  | .signal => { state with signal := signalStart }
  | .mblk =>
      { state with
        mblk :=
          { state.mblk with
            currentAddr := 0
            maxAddr := 0
            currentTypeId := .ushort } }
  | .other => state

/-- The end of `ioc_dinfo_process_block`. -/
def DinfoSetup.endBlock
    (setup : DinfoSetup) (state : DinfoState) : BlockKind → DinfoState
  | .signal =>
      match state.mblk.mblkName with
      | none => state
      | some mblkName =>
          { state with mblk := setup.newSignalByInfo state.signal mblkName state.mblk }
  | .mblk =>
      if setup.resizeMblks then { state with mblk := state.mblk.resizeByInfo } else state
  | .other => state

def SignalInfo.setInteger (info : SignalInfo) (arrayTag tag : String) (l : ℤ) : SignalInfo :=
  if arrayTag = "signals" then
    if tag = "addr" then { info with signalAddr := osInt l }
    else if tag = "array" then { info with signalArrayN := osInt l }
    else if tag = "ncolumns" then { info with ncolumns := osInt l }
    else info
  else info

def SignalInfo.setType (info : SignalInfo) (tag s : String) : SignalInfo :=
  if tag = "type" then { info with signalTypeStr := some s } else info

structure DinfoParsed where
  status : ParseStatus
  state : DinfoState
  rest : List JsonItem

mutual

/-- `ioc_dinfo_process_array`. -/
def DinfoSetup.processArray
    (setup : DinfoSetup) (fuel : ℕ) (state : DinfoState) (arrayTag : String)
    (items : List JsonItem) : DinfoParsed :=
  match fuel, items with
  | 0, items => ⟨.outOfFuel, state, items⟩
  | _ + 1, [] => ⟨.success, state, []⟩
  | fuel + 1, item :: items =>
      let cleared :=
        if arrayTag = "mblk" then
          { state with mblk := { state.mblk with mblkName := none }, mblkGroups := none }
        else state
      let tagged := { cleared with tag := item.tagName }
      match item.code with
      | .endBlock => ⟨.failed, state, items⟩
      | .endArray => ⟨.success, state, items⟩
      | .startBlock =>
          let kind := blockKind tagged.tag arrayTag
          let parsed := setup.processBlock fuel (tagged.beginBlock kind) arrayTag kind items
          if parsed.status = .success then
            setup.processArray fuel parsed.state arrayTag parsed.rest
          else parsed
      | .startArray =>
          let parsed := setup.processArray fuel tagged arrayTag items
          if parsed.status = .success then
            setup.processArray fuel parsed.state arrayTag parsed.rest
          else parsed
      | .value _ => setup.processArray fuel tagged arrayTag items

/-- `ioc_dinfo_process_block` after the beginning of the block. -/
def DinfoSetup.processBlock
    (setup : DinfoSetup) (fuel : ℕ) (state : DinfoState) (arrayTag : String)
    (kind : BlockKind) (items : List JsonItem) : DinfoParsed :=
  match fuel, items with
  | 0, items => ⟨.outOfFuel, state, items⟩
  | _ + 1, [] => ⟨.success, state, []⟩
  | fuel + 1, item :: items =>
      let tagged := { state with tag := item.tagName }
      match item.code with
      | .endBlock => ⟨.success, setup.endBlock state kind, items⟩
      | .endArray => ⟨.failed, state, items⟩
      | .startBlock =>
          let inner := blockKind tagged.tag arrayTag
          let parsed := setup.processBlock fuel (tagged.beginBlock inner) arrayTag inner items
          if parsed.status = .success then
            setup.processBlock fuel parsed.state arrayTag kind parsed.rest
          else parsed
      | .startArray =>
          let arrayTagBuf := arrayTagOf item.tagName
          let marked :=
            if arrayTagBuf = "groups" ∧ tagged.mblk.mblkName = none then
              { tagged with mblkGroups := some items }
            else tagged
          let parsed := setup.processArray fuel marked arrayTagBuf items
          if parsed.status = .success then
            setup.processBlock fuel parsed.state arrayTag kind parsed.rest
          else parsed
      | .value (.string s) =>
          if item.tagName = "name" ∧ arrayTag = "mblk" then
            let named := { tagged with mblk := { tagged.mblk with mblkName := some s } }
            match named.mblkGroups with
            | none => setup.processBlock fuel named arrayTag kind items
            | some groups =>
                -- Back to the groups which came before the name.
                let parsed := setup.processArray fuel named "groups" groups
                if parsed.status = .success then
                  let returned :=
                    { parsed.state with
                      mblkGroups := some parsed.rest
                      signal := parsed.state.signal.setType parsed.state.tag s }
                  setup.processBlock fuel returned arrayTag kind items
                else parsed
          else if item.tagName = "name" ∧ arrayTag = "signals" then
            let named := { tagged with signal := { tagged.signal with signalName := some s } }
            setup.processBlock fuel named arrayTag kind items
          else
            let typed := { tagged with signal := tagged.signal.setType item.tagName s }
            setup.processBlock fuel typed arrayTag kind items
      | .value (.integer l) =>
          let set :=
            { tagged with signal := tagged.signal.setInteger arrayTag item.tagName l }
          setup.processBlock fuel set arrayTag kind items
      | .value .float | .value .null | .value (.boolean _) =>
          setup.processBlock fuel tagged arrayTag kind items

end

def dinfoStart : DinfoState where
  tag := ""
  signal := ⟨none, none, 0, 0, 0⟩
  mblk := ⟨none, .undefined, 0, 0, [], []⟩
  mblkGroups := none

/-- `ioc_add_dynamic_info`, from the items of the info block on. -/
def DinfoSetup.addDynamicInfo (setup : DinfoSetup) (items : List JsonItem) : DinfoParsed :=
  setup.processBlock (items.length + 1) dinfoStart "" .other items

end Iocom
