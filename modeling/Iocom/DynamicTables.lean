import Iocom.DynamicNetworks
import Iocom.EventQueue
import Iocom.Lib.HashChains
import Mathlib.Data.Fin.Basic

/-!
# The hash tables of the dynamic information

The root keeps its networks, and a network its signals, in chains of hash tables.  The
application is told when a network and its devices come and go.
-/

namespace Iocom

open HashChains

/-- The factors of `ioc_hash`, which are used in turn. -/
def hashPrimes : List UInt32 := [47, 2, 43, 3, 41, 5, 37, 7, 31, 11, 29, 13, 23, 17, 19]

/-- The loop of `ioc_hash`. -/
def hashLoop : ℕ → UInt32 → List Char → UInt32
  | _, hashSum, [] => hashSum
  | primeIx, hashSum, c :: keyStr =>
      hashLoop (if hashPrimes.length ≤ primeIx + 1 then 0 else primeIx + 1)
        (hashSum + UInt32.ofNat (c.toNat % 0x100) * hashPrimes.getD primeIx 0) keyStr

/-- `ioc_hash`. -/
def iocHash (keyStr : List Char) : UInt32 := hashLoop 0 0 keyStr

/-- An index of `IOC_DNETWORK_HASH_TAB_SZ`. -/
def signalHashIx (signalName : List Char) : Fin 64 := Fin.ofNat 64 (iocHash signalName).toNat

/-- An index of `IOC_DROOT_HASH_TAB_SZ`. -/
def networkHashIx (networkName : List Char) : Fin 128 :=
  Fin.ofNat 128 (iocHash networkName).toNat

/-- `iocDynamicNetwork` with its hash table. -/
structure HashedNetwork where
  networkName : List Char
  hash : Fin 64 → List NetworkSignal
  shortcuts : List ℕ
  newNetwork : Bool

/-- The arguments of `ioc_new_root_event`; a network is given by its name. -/
structure RootEvent where
  event : Event
  dnetwork : Option (List Char)
  mblk : Option NamedMblk
  deriving DecidableEq

/-- The memory blocks of a root, the hash table of its `droot`, and the events which the
application has got. -/
structure HashedRoot where
  networkName : List Char
  mblks : List NamedMblk
  nextId : ℕ
  droot : Option (Fin 128 → List HashedNetwork)
  events : List RootEvent

namespace HashedNetwork

/-- `ioc_initialize_dynamic_network`, for a network which has just been found. -/
def initial (networkName : List Char) : HashedNetwork := ⟨networkName, fun _ => [], [], true⟩

/-- `ioc_find_dynamic_signal` in the chain of the signal name. -/
def findSignal (dnetwork : HashedNetwork) (ids : IoIdentifiers) : Option NetworkSignal :=
  (dnetwork.hash (signalHashIx ids.signalName)).find? fun dsignal =>
    decide (ids.signalName = dsignal.signalName ∧
      (ids.mblkName ≠ [] → ids.mblkName = dsignal.mblkName) ∧
      (ids.deviceName ≠ [] → ids.deviceName = dsignal.deviceName) ∧
      (ids.deviceNr ≠ 0 → ids.deviceNr = dsignal.deviceNr))

/-- `ioc_add_dynamic_signal`, last in the chain of the signal name. -/
def addSignal (dnetwork : HashedNetwork) (dsignal : NetworkSignal) : HashedNetwork :=
  let hashIx := signalHashIx dsignal.signalName
  if (dnetwork.hash hashIx).any fun other =>
      decide (dsignal.signalName = other.signalName ∧ dsignal.mblkName = other.mblkName ∧
        dsignal.deviceName = other.deviceName ∧ dsignal.deviceNr = other.deviceNr) then
    dnetwork
  else
    { dnetwork with
      hash := Function.update dnetwork.hash hashIx (dnetwork.hash hashIx ++ [dsignal]) }

/-- `ioc_find_mblk_shortcut` and `ioc_add_mblk_shortcut`. -/
def shortcutTo (mblks : List NamedMblk) (mblk : NamedMblk) (dnetwork : HashedNetwork) :
    HashedNetwork :=
  let found := findMblkShortcut mblks mblk.names.mblkName mblk.names.deviceName
    mblk.names.deviceNr dnetwork.shortcuts
  { dnetwork with
    shortcuts := if found.1 = none then found.2 ++ [mblk.id] else found.2 }

/-- The signals of an info block, and the shortcut to it if the JSON is read to its end. -/
def addInfo (mblks : List NamedMblk) (mblk : NamedMblk) (signals : List NetworkSignal)
    (complete : Bool) (dnetwork : HashedNetwork) : HashedNetwork :=
  let dnetwork := signals.foldl addSignal dnetwork
  if complete then shortcutTo mblks mblk dnetwork else dnetwork

/-- The chains and the shortcuts after `ioc_network_mblk_is_deleted`. -/
def mblkIsDeleted (mblks : List NamedMblk) (mblk : NamedMblk) (dnetwork : HashedNetwork) :
    HashedNetwork :=
  { dnetwork with
    hash := fun i => (dnetwork.hash i).filter fun dsignal =>
      decide ¬mblk.Matches dsignal.mblkName dsignal.deviceName dsignal.deviceNr
    shortcuts := dnetwork.shortcuts.filter fun item =>
      decide (item ≠ mblk.id ∧ ∃ other ∈ mblks, other.id = item) }

end HashedNetwork

/-! ## The networks -/

/-- `ioc_find_dynamic_network`. -/
def findNetwork (name : List Char) (hash : Fin 128 → List HashedNetwork) :
    Option HashedNetwork :=
  (hash (networkHashIx name)).find? fun dnetwork => decide (dnetwork.networkName = name)

/-- Changing the network which `ioc_find_dynamic_network` finds. -/
def changeNetwork (name : List Char) (f : HashedNetwork → HashedNetwork)
    (hash : Fin 128 → List HashedNetwork) : Fin 128 → List HashedNetwork :=
  Function.update hash (networkHashIx name)
    (updateFirst (fun dnetwork => decide (dnetwork.networkName = name)) f
      (hash (networkHashIx name)))

/-- `ioc_add_dynamic_network`, first in the chain of the network name. -/
def addNetwork (name : List Char) (hash : Fin 128 → List HashedNetwork) :
    Fin 128 → List HashedNetwork :=
  if (findNetwork name hash).isSome then hash
  else
    Function.update hash (networkHashIx name)
      (HashedNetwork.initial name :: hash (networkHashIx name))

/-- `ioc_remove_dynamic_network` for the network which has been found. -/
def removeNetwork (name : List Char) (hash : Fin 128 → List HashedNetwork) :
    Fin 128 → List HashedNetwork :=
  Function.update hash (networkHashIx name)
    ((hash (networkHashIx name)).eraseP fun dnetwork => decide (dnetwork.networkName = name))

namespace HashedRoot

def initial (networkName : List Char) : HashedRoot where
  networkName := networkName
  mblks := []
  nextId := 0
  droot := none
  events := []

/-- `ioc_setup_signal_by_identifiers`. -/
def setupSignalByIdentifiers (root : HashedRoot) (ids : IoIdentifiers) (signal : BoundSignal) :
    HashedRoot × BoundSignal :=
  match root.droot with
  | none => (root, signal)
  | some hash =>
      match findNetwork ids.networkName hash with
      | none => (root, signal)
      | some dnetwork =>
          match dnetwork.findSignal ids with
          | none => (root, signal)
          | some dsignal =>
              let signal := { signal with
                addr := dsignal.addr
                n := dsignal.n
                flags := dsignal.flags }
              if root.mblks.any fun mblk => decide (some mblk.id = signal.handle) then
                (root, signal)
              else
                let found := findMblkShortcut root.mblks dsignal.mblkName dsignal.deviceName
                  dsignal.deviceNr dnetwork.shortcuts
                let withShortcuts := fun shortcuts => { root with
                  droot := some (changeNetwork ids.networkName
                    (fun dnetwork => { dnetwork with shortcuts := shortcuts }) hash) }
                match found.1 with
                | some id => (withShortcuts found.2, { signal with handle := some id })
                | none =>
                    match root.mblks.find? fun mblk =>
                        decide (mblk.names.networkName = ids.networkName ∧
                          mblk.Matches dsignal.mblkName dsignal.deviceName dsignal.deviceNr) with
                    | some mblk =>
                        (withShortcuts (found.2 ++ [mblk.id]),
                          { signal with handle := some mblk.id })
                    | none => (withShortcuts found.2, signal)

/-- `ioc_find_mblk`, and the block to which it sets the handle. -/
def findMblk (root : HashedRoot) (names : MblkNames) : HashedRoot × Option ℕ :=
  match root.droot with
  | none => (root, none)
  | some hash =>
      match findNetwork names.networkName hash with
      | none => (root, none)
      | some dnetwork =>
          let found := findMblkShortcut root.mblks names.mblkName names.deviceName names.deviceNr
            dnetwork.shortcuts
          ({ root with
              droot := some (changeNetwork names.networkName
                (fun dnetwork => { dnetwork with shortcuts := found.2 }) hash) }, found.1)

def newMblk (root : HashedRoot) (names : MblkNames) : HashedRoot :=
  { root with mblks := root.mblks ++ [⟨root.nextId, names⟩], nextId := root.nextId + 1 }

/-- `ioc_new_root_event`. -/
def newRootEvent (root : HashedRoot) (event : Event) (dnetwork : Option (List Char))
    (mblk : Option NamedMblk) : HashedRoot :=
  { root with events := root.events ++ [⟨event, dnetwork, mblk⟩] }

/-- `ioc_mbinfo_received`, which allocates a dynamic memory block. -/
def mbinfoReceived (root : HashedRoot) (names : MblkNames) : HashedRoot :=
  let mblk : NamedMblk := ⟨root.nextId, names⟩
  let root := root.newMblk names
  let root := { root with
    droot := root.droot.map fun hash =>
      changeNetwork names.networkName (HashedNetwork.shortcutTo root.mblks mblk)
        (addNetwork names.networkName hash) }
  root.newRootEvent .newMemoryBlock none (some mblk)

/-- `ioc_add_dynamic_info` for an info block of a root with a `droot`; there are no events
where the JSON fails. -/
def addDynamicInfo (root : HashedRoot) (mblk : NamedMblk) (signals : List NetworkSignal)
    (complete : Bool) (hash : Fin 128 → List HashedNetwork) : HashedRoot :=
  let name := mblk.names.networkName
  let hash := changeNetwork name (HashedNetwork.addInfo root.mblks mblk signals complete)
    (addNetwork name hash)
  if !complete then { root with droot := some hash }
  else
    let isNew := (findNetwork name hash).any (·.newNetwork)
    let root := if isNew then root.newRootEvent .newNetwork (some name) none else root
    let root := { root with
      droot := some (changeNetwork name (fun dnetwork => { dnetwork with newNetwork := false })
        hash) }
    root.newRootEvent .newDevice (some name) (some mblk)

/-- `ioc_network_mblk_is_deleted` for the network which has been found. -/
def networkMblkIsDeleted (root : HashedRoot) (mblk : NamedMblk)
    (hash : Fin 128 → List HashedNetwork) (dnetwork : HashedNetwork) : HashedRoot :=
  let name := mblk.names.networkName
  let root :=
    if mblk.names.mblkName = "info".toList then
      root.newRootEvent .deviceDisconnected (some name) (some mblk)
    else root
  let hash := changeNetwork name (HashedNetwork.mblkIsDeleted root.mblks mblk) hash
  if (HashedNetwork.mblkIsDeleted root.mblks mblk dnetwork).shortcuts = [] then
    let root := root.newRootEvent .networkDisconnected (some name) none
    { root with droot := some (removeNetwork name hash) }
  else { root with droot := some hash }

/-- `ioc_dynamic_mblk_is_deleted`. -/
def dynamicMblkIsDeleted (root : HashedRoot) (mblk : NamedMblk) : HashedRoot :=
  match root.droot with
  | none => root
  | some hash =>
      match findNetwork mblk.names.networkName hash with
      | none => root
      | some dnetwork => root.networkMblkIsDeleted mblk hash dnetwork

/-- `ioc_release_memory_block`, as far as the dynamic information goes. -/
def releaseMblk (root : HashedRoot) (mblk : NamedMblk) : HashedRoot :=
  let root := root.dynamicMblkIsDeleted mblk
  let root := root.newRootEvent .memoryBlockDeleted none (some mblk)
  { root with mblks := root.mblks.filter fun other => decide (other.id ≠ mblk.id) }

def step (root : HashedRoot) : DynamicAction → HashedRoot
  | .initializeDroot => { root with droot := some fun _ => [] }
  | .newMblk names => root.newMblk names
  | .mbinfoReceived names => root.mbinfoReceived names
  | .addDynamicInfo id signals complete =>
      match root.mblks.find? fun mblk => decide (mblk.id = id) with
      | none => root
      | some mblk =>
          match root.droot with
          | none => root
          | some hash => root.addDynamicInfo mblk signals complete hash
  | .setupSignal ids signal => (root.setupSignalByIdentifiers ids signal).1
  | .findMblk names => (root.findMblk names).1
  | .releaseMblk id =>
      match root.mblks.find? fun mblk => decide (mblk.id = id) with
      | none => root
      | some mblk => root.releaseMblk mblk
  | .setNetworkName networkName =>
      { root with
        networkName := networkName
        mblks := root.mblks.map fun mblk =>
          if DynamicIoRoot.unnamed mblk.names.networkName then
            { mblk with names.networkName := networkName }
          else mblk }

end HashedRoot

end Iocom
