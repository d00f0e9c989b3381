import Iocom.PackedJson

/-!
# Signals JSON

Memory blocks which have groups of signals, as the tree which `json.load`
makes of the text and as the items of the packed JSON.
-/

namespace Iocom

inductive FieldValue where
  | string (s : String)
  | integer (l : ℤ)
  | float (toOne : Ordering)
  | null
  | boolean (b : Bool)
  deriving DecidableEq

def FieldValue.toJson : FieldValue → JsonValue
  | .string s => .string s
  | .integer l => .integer l
  | .float _ => .float
  | .null => .null
  | .boolean b => .boolean b

abbrev Field := String × FieldValue

def valueItems (fields : List Field) : List JsonItem :=
  fieldItems (fields.map fun field => (field.1, field.2.toJson))

structure SignalObject where
  fields : List Field
  distinct : (fields.map Prod.fst).Nodup

structure NestingObject (α : Type) where
  before : List Field
  elements : Option (List α)
  behind : List Field
  distinct : ((before ++ behind).map Prod.fst).Nodup
  fresh : ∀ field ∈ before ++ behind, field.1 ≠ "groups" ∧ field.1 ≠ "signals"

abbrev GroupObject := NestingObject SignalObject

abbrev MblkObject := NestingObject GroupObject

inductive TopMember where
  | value (tag : String) (v : FieldValue)
  | array (tag : String) (objects : List (List Field))

def TopMember.tag : TopMember → String
  | .value tag _ => tag
  | .array tag _ => tag

structure SignalsDocument where
  enclosing : List String
  before : List TopMember
  mblks : List MblkObject
  behind : List TopMember
  fresh : ∀ m ∈ before ++ behind, m.tag ≠ "mblk" ∧ m.tag ≠ "signals"

/-! ## As a tree -/

/-- `signal.get`; a null is as good as a field which is not there. -/
def SignalObject.get (signal : SignalObject) (tag : String) : Option FieldValue :=
  match signal.fields.lookup tag with
  | some .null => none
  | value => value

def NestingObject.fields {α : Type} (object : NestingObject α) : List Field :=
  object.before ++ object.behind

/-- The elements of the array of an object, none when it is not there. -/
def NestingObject.array {α : Type} (object : NestingObject α) : List α :=
  object.elements.getD []

def NestingObject.signals (mblk : MblkObject) : List SignalObject :=
  mblk.array.flatMap NestingObject.array

/-! ## As items -/

def blockItems (items : List JsonItem) : List JsonItem :=
  ⟨"-", .startBlock⟩ :: (items ++ [⟨"", .endBlock⟩])

def arrayItems (tag : String) (items : List JsonItem) : List JsonItem :=
  ⟨tag, .startArray⟩ :: (items ++ [⟨"", .endArray⟩])

def SignalObject.items (signal : SignalObject) : List JsonItem :=
  blockItems (valueItems signal.fields)

variable {α : Type} (tag : String) (elementItems : α → List JsonItem)

def nestedItems : Option (List α) → List JsonItem
  | none => []
  | some elements => arrayItems tag (elements.flatMap elementItems)

def NestingObject.content (object : NestingObject α) : List JsonItem :=
  valueItems object.before ++
    (nestedItems tag elementItems object.elements ++ valueItems object.behind)

def NestingObject.items (object : NestingObject α) : List JsonItem :=
  blockItems (object.content tag elementItems)

def groupItems : GroupObject → List JsonItem :=
  NestingObject.items "signals" SignalObject.items

def mblkItems : MblkObject → List JsonItem :=
  NestingObject.items "groups" groupItems

def TopMember.items : TopMember → List JsonItem
  | .value tag v => [⟨tag, .value v.toJson⟩]
  | .array tag objects =>
      arrayItems tag (objects.flatMap fun fields => blockItems (valueItems fields))

def SignalsDocument.items (doc : SignalsDocument) : List JsonItem :=
  doc.enclosing.map (fun tag => ⟨tag, .startBlock⟩) ++
    (doc.before.flatMap TopMember.items ++
      (arrayItems "mblk" (doc.mblks.flatMap mblkItems) ++
        (doc.behind.flatMap TopMember.items ++
          List.replicate doc.enclosing.length ⟨"", .endBlock⟩)))

end Iocom
