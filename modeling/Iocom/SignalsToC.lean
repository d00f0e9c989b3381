import Iocom.SignalsDocument
import Mathlib.Data.List.Sort

/-!
# The code generator

How `signals_to_c.py` gives addresses to the signals of a document.  A step is
`none` where the script ends with an error.
-/

namespace Iocom

/-- `osal_typeinfo`. -/
def osalTypeinfo : List (String × ℕ) :=
  [("undef", 0), ("boolean", 1), ("char", 1), ("uchar", 1), ("short", 2), ("ushort", 2),
    ("int", 4), ("uint", 4), ("int64", 8), ("long", 8), ("float", 4), ("double", 8),
    ("dec01", 2), ("dec001", 2), ("str", 1), ("object", 0), ("pointer", 0)]

/-- `calc_signal_memory_sz`. -/
def calcSignalMemorySz (type : String) (arrayN : ℤ) : Option ℤ :=
  if type = "boolean" then
    if arrayN ≤ 1 then some 1 else some ((arrayN + 7) / 8 + 1)
  else
    match osalTypeinfo.lookup type with
    | none => none
    | some typeSz => some (arrayN * typeSz + 1)

structure PSignal where
  name : String
  addr : ℤ
  type : String
  arrayN : ℤ
  deriving DecidableEq

structure ScriptState where
  currentType : String
  currentAddr : ℤ
  maxAddr : ℤ
  /-- The dictionary of signals by address. -/
  pSignals : List (ℤ × PSignal)

/-- `current_addr`, when it is a number which `range` takes. -/
def scriptAddr (currentAddr : ℤ) : Option FieldValue → Option ℤ
  | none => some currentAddr
  | some (.integer l) => some l
  | some (.boolean b) => some (if b then 1 else 0)
  | some _ => none

/-- `current_type`, when it is a string. -/
def scriptType (currentType : String) : Option FieldValue → Option String
  | none => some currentType
  | some (.string s) => some s
  | some _ => none

/-- `array_n`.  Of the floats from 1 on, `calc_signal_memory_sz` gives an
integer only for 1 and the type boolean. -/
def scriptArrayN (type : String) : Option FieldValue → Option ℤ
  | none => some 1
  | some (.integer l) => some (if l < 1 then 1 else l)
  | some (.boolean _) => some 1
  | some (.float .lt) => some 1
  | some (.float .eq) => if type = "boolean" then some 1 else none
  | some _ => none

def scriptName : Option FieldValue → Option String
  | some (.string s) => some s
  | _ => none

/-- `p_signals[addr] = p_signal`. -/
def assignKey {α : Type} (dictionary : List (ℤ × α)) (key : ℤ) (value : α) : List (ℤ × α) :=
  dictionary.filter (fun entry => entry.1 ≠ key) ++ [(key, value)]

/-- `preprocess_signal`. -/
def ScriptState.preprocessSignal (state : ScriptState) (signal : SignalObject) :
    Option ScriptState := do
  let addr ← scriptAddr state.currentAddr (signal.get "addr")
  let type ← scriptType state.currentType (signal.get "type")
  let arrayN ← scriptArrayN type (signal.fields.lookup "array")
  let memSzBytes ← calcSignalMemorySz type arrayN
  let name ← scriptName (signal.get "name")
  let currentAddr := addr + memSzBytes
  return {
    currentType := type
    currentAddr := currentAddr
    maxAddr := if currentAddr > state.maxAddr then currentAddr else state.maxAddr
    pSignals := assignKey state.pSignals addr ⟨name, addr, type, arrayN⟩ }

/-- A memory block as it is generated; `maxAddr` is its `_MBLK_SZ`. -/
structure PMblk where
  name : String
  signals : List PSignal
  maxAddr : ℤ

/-- The state in which `preprocess_mblk` starts. -/
def scriptStart : ScriptState where
  currentType := "ushort"
  currentAddr := 0
  maxAddr := 24
  pSignals := []

def sortedValues {α : Type} (dictionary : List (ℤ × α)) : List α :=
  (dictionary.mergeSort fun a b => decide (a.1 ≤ b.1)).map Prod.snd

/-- The name of a memory block; without one it is `MBLK`. -/
def scriptMblkName (mblk : MblkObject) : Option String :=
  match mblk.fields.lookup "name" with
  | none => some "MBLK"
  | value => scriptName value

/-- `preprocess_mblk`, and the name and the signals which `process_mblk`
requires. -/
def preprocessMblk (mblk : MblkObject) : Option PMblk := do
  let _ ← mblk.elements
  let state ← mblk.signals.foldlM ScriptState.preprocessSignal scriptStart
  let name ← scriptMblkName mblk
  return ⟨name, sortedValues state.pSignals, state.maxAddr⟩

/-- `preprocess_json`. -/
def preprocessJson (doc : SignalsDocument) : Option (List PMblk) :=
  doc.mblks.mapM preprocessMblk

end Iocom
