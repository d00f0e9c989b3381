import Iocom.IoPath

/-!
# Signals by name

The dynamic information of a root: its networks, their signals and their shortcuts to memory
blocks, and how `ioc_setup_signal` binds a signal to a block by an IO path.  A handle is the
identifier of its block; it is `OS_NULL` once the block has been deleted, and identifiers are
not used again.
-/

namespace Iocom

/-- The names of an `iocMemoryBlock`, as they are in their buffers. -/
structure MblkNames where
  networkName : List Char
  deviceName : List Char
  deviceNr : ℕ
  mblkName : List Char
  deriving DecidableEq

structure NamedMblk where
  id : ℕ
  names : MblkNames
  deriving DecidableEq

/-- `iocDynamicSignal`. -/
structure NetworkSignal where
  signalName : List Char
  mblkName : List Char
  deviceName : List Char
  deviceNr : ℕ
  addr : ℤ
  n : ℤ
  flags : ℕ
  deriving DecidableEq

/-- `iocDynamicNetwork`. -/
structure DynamicNetwork where
  networkName : List Char
  signals : List NetworkSignal
  shortcuts : List ℕ
  deriving DecidableEq

/-- The memory blocks of a root, and the networks of its `droot`, if there is one. -/
structure DynamicIoRoot where
  networkName : List Char
  mblks : List NamedMblk
  nextId : ℕ
  droot : Option (List DynamicNetwork)

/-- An `iocSignal` with its own handle. -/
structure BoundSignal where
  addr : ℤ
  n : ℤ
  flags : ℕ
  handle : Option ℕ
  deriving DecidableEq

namespace DynamicNetwork

/-- `ioc_find_dynamic_signal`; an empty name and the number 0 fit all. -/
def findSignal (dnetwork : DynamicNetwork) (ids : IoIdentifiers) : Option NetworkSignal :=
  dnetwork.signals.find? fun dsignal =>
    decide (ids.signalName = dsignal.signalName ∧
      (ids.mblkName ≠ [] → ids.mblkName = dsignal.mblkName) ∧
      (ids.deviceName ≠ [] → ids.deviceName = dsignal.deviceName) ∧
      (ids.deviceNr ≠ 0 → ids.deviceNr = dsignal.deviceNr))

/-- `ioc_add_dynamic_signal`. -/
def addSignal (dnetwork : DynamicNetwork) (dsignal : NetworkSignal) : DynamicNetwork :=
  if dnetwork.signals.any fun other =>
      decide (dsignal.signalName = other.signalName ∧ dsignal.mblkName = other.mblkName ∧
        dsignal.deviceName = other.deviceName ∧ dsignal.deviceNr = other.deviceNr) then
    dnetwork
  else { dnetwork with signals := dnetwork.signals ++ [dsignal] }

end DynamicNetwork

def NamedMblk.Matches (mblk : NamedMblk) (mblkName deviceName : List Char) (deviceNr : ℕ) :
    Prop :=
  mblk.names.deviceNr = deviceNr ∧ mblk.names.mblkName = mblkName ∧
    mblk.names.deviceName = deviceName

instance (mblk : NamedMblk) (mblkName deviceName : List Char) (deviceNr : ℕ) :
    Decidable (mblk.Matches mblkName deviceName deviceNr) :=
  inferInstanceAs (Decidable (_ ∧ _))

/-- `ioc_find_mblk_shortcut`: the block which is found, and the shortcuts without those
before it which no longer point to a block. -/
def findMblkShortcut (mblks : List NamedMblk) (mblkName deviceName : List Char)
    (deviceNr : ℕ) : List ℕ → Option ℕ × List ℕ
  | [] => (none, [])
  | item :: rest =>
      match mblks.find? fun mblk => decide (mblk.id = item) with
      | none => findMblkShortcut mblks mblkName deviceName deviceNr rest
      | some mblk =>
          if mblk.Matches mblkName deviceName deviceNr then (some item, item :: rest)
          else
            let found := findMblkShortcut mblks mblkName deviceName deviceNr rest
            (found.1, item :: found.2)

/-- Changing the network which `ioc_find_dynamic_network` finds. -/
def updateNetwork (name : List Char) (f : DynamicNetwork → DynamicNetwork) :
    List DynamicNetwork → List DynamicNetwork
  | [] => []
  | dnetwork :: rest =>
      if dnetwork.networkName = name then f dnetwork :: rest
      else dnetwork :: updateNetwork name f rest

/-- `ioc_add_dynamic_network`. -/
def addDynamicNetwork (name : List Char) (networks : List DynamicNetwork) :
    List DynamicNetwork :=
  if networks.any fun dnetwork => decide (dnetwork.networkName = name) then networks
  else ⟨name, [], []⟩ :: networks

namespace DynamicIoRoot

/-- The shortcut to a block, unless the network has one; the search drops shortcuts. -/
def shortcutTo (mblks : List NamedMblk) (mblk : NamedMblk) (dnetwork : DynamicNetwork) :
    DynamicNetwork :=
  let found := findMblkShortcut mblks mblk.names.mblkName mblk.names.deviceName
    mblk.names.deviceNr dnetwork.shortcuts
  { dnetwork with
    shortcuts := if found.1 = none then found.2 ++ [mblk.id] else found.2 }

/-- `ioc_setup_signal_by_identifiers`. -/
def setupSignalByIdentifiers (root : DynamicIoRoot) (ids : IoIdentifiers)
    (signal : BoundSignal) : DynamicIoRoot × BoundSignal :=
  match root.droot with
  | none => (root, signal)
  | some networks =>
      match networks.find? fun dnetwork => decide (dnetwork.networkName = ids.networkName) with
      | none => (root, signal)
      | some dnetwork =>
          match dnetwork.findSignal ids with
          | none => (root, signal)
          | some dsignal =>
              let signal := { signal with
                addr := dsignal.addr
                n := dsignal.n
                flags := dsignal.flags }
              if root.mblks.any fun mblk => decide (some mblk.id = signal.handle) then
                (root, signal)
              else
                let found := findMblkShortcut root.mblks dsignal.mblkName dsignal.deviceName
                  dsignal.deviceNr dnetwork.shortcuts
                match found.1 with
                | some id =>
                    ({ root with
                        droot := some (updateNetwork ids.networkName
                          (fun dnetwork => { dnetwork with shortcuts := found.2 }) networks) },
                      { signal with handle := some id })
                | none =>
                    match root.mblks.find? fun mblk =>
                        decide (mblk.names.networkName = ids.networkName ∧
                          mblk.Matches dsignal.mblkName dsignal.deviceName dsignal.deviceNr) with
                    | some mblk =>
                        ({ root with
                            droot := some (updateNetwork ids.networkName
                              (fun dnetwork =>
                                { dnetwork with shortcuts := found.2 ++ [mblk.id] }) networks) },
                          { signal with handle := some mblk.id })
                    | none =>
                        ({ root with
                            droot := some (updateNetwork ids.networkName
                              (fun dnetwork => { dnetwork with shortcuts := found.2 })
                              networks) },
                          signal)

end DynamicIoRoot

/-- What is behind the first dot, `none` without a dot. -/
def behindDot (name : List Char) : Option (List Char) :=
  match name.dropWhile (· ≠ '.') with
  | [] => none
  | _ :: rest => some rest

/-- `topnet`. -/
def topnet (networkName : List Char) : List Char := (behindDot networkName).getD networkName

/-- The identifiers with which `ioc_setup_signal` searches.  `equalsNull` tells whether
`os_strcmp` finds a string equal to `OS_NULL`, which `req_topnet` is without a dot. -/
def confineNetwork (equalsNull : List Char → Bool) (sizes : IoNameSizes)
    (networkName : List Char) (ids : IoIdentifiers) : IoIdentifiers :=
  if networkName = [] then ids
  else
    let equal :=
      match behindDot ids.networkName with
      | none => equalsNull (topnet networkName)
      | some reqTopnet => decide (topnet networkName = reqTopnet)
    if equal then ids
    else { ids with networkName := osStrncpy networkName sizes.networkName }

/-- `ioc_setup_signal`. -/
def DynamicIoRoot.setupSignal (equalsNull : List Char → Bool) (sizes : IoNameSizes)
    (root : DynamicIoRoot) (iopath : Option (List Char)) (networkName : List Char)
    (signal : BoundSignal) : DynamicIoRoot × BoundSignal :=
  root.setupSignalByIdentifiers (confineNetwork equalsNull sizes networkName
    (ioPathToIdentifiers sizes root.networkName iopath .signal)) signal

/-! ## Changes of the dynamic information -/

inductive DynamicAction where
  /-- `ioc_initialize_dynamic_root`. -/
  | initializeDroot
  /-- `ioc_initialize_memory_block`. -/
  | newMblk (names : MblkNames)
  /-- `ioc_mbinfo_received`, which allocates a dynamic memory block. -/
  | mbinfoReceived (names : MblkNames)
  /-- `ioc_add_dynamic_info` for an info block: the signals which its JSON adds, and whether
  the JSON is read to its end. -/
  | addDynamicInfo (id : ℕ) (signals : List NetworkSignal) (complete : Bool)
  /-- `ioc_setup_signal_by_identifiers`, for any signal. -/
  | setupSignal (ids : IoIdentifiers) (signal : BoundSignal)
  /-- `ioc_find_mblk`. -/
  | findMblk (names : MblkNames)
  /-- `ioc_release_memory_block`. -/
  | releaseMblk (id : ℕ)
  /-- `ioc_set_network_name`, after the network name of the root has changed. -/
  | setNetworkName (networkName : List Char)

namespace DynamicIoRoot

def newMblk (root : DynamicIoRoot) (names : MblkNames) : DynamicIoRoot :=
  { root with mblks := root.mblks ++ [⟨root.nextId, names⟩], nextId := root.nextId + 1 }

/-- Making sure that there is a network, and changing it. -/
def withNetwork (root : DynamicIoRoot) (name : List Char)
    (f : DynamicNetwork → DynamicNetwork) : DynamicIoRoot :=
  { root with
    droot := root.droot.map fun networks =>
      updateNetwork name f (addDynamicNetwork name networks) }

/-- The signals of an info block, and the shortcut to it.  Where the JSON fails, the signals
before stay and there is no shortcut. -/
def addInfo (mblks : List NamedMblk) (mblk : NamedMblk) (signals : List NetworkSignal)
    (complete : Bool) (dnetwork : DynamicNetwork) : DynamicNetwork :=
  let dnetwork := signals.foldl DynamicNetwork.addSignal dnetwork
  if complete then shortcutTo mblks mblk dnetwork else dnetwork

/-- `ioc_network_mblk_is_deleted`, for the network as it stays. -/
def mblkIsDeleted (mblks : List NamedMblk) (mblk : NamedMblk) (dnetwork : DynamicNetwork) :
    DynamicNetwork :=
  { dnetwork with
    signals := dnetwork.signals.filter fun dsignal =>
      decide ¬mblk.Matches dsignal.mblkName dsignal.deviceName dsignal.deviceNr
    shortcuts := dnetwork.shortcuts.filter fun item =>
      decide (item ≠ mblk.id ∧ ∃ other ∈ mblks, other.id = item) }

def removeEmpty (name : List Char) (networks : List DynamicNetwork) : List DynamicNetwork :=
  networks.eraseP fun dnetwork =>
    decide (dnetwork.networkName = name ∧ dnetwork.shortcuts = [])

/-- The names of blocks without a network name. -/
def unnamed (networkName : List Char) : Prop := networkName = ['*'] ∨ networkName = []

instance (networkName : List Char) : Decidable (unnamed networkName) :=
  inferInstanceAs (Decidable (_ ∨ _))

def step (root : DynamicIoRoot) : DynamicAction → DynamicIoRoot
  | .initializeDroot => { root with droot := some [] }
  | .newMblk names => root.newMblk names
  | .mbinfoReceived names =>
      let root' := root.newMblk names
      root'.withNetwork names.networkName (shortcutTo root'.mblks ⟨root.nextId, names⟩)
  | .addDynamicInfo id signals complete =>
      match root.mblks.find? fun mblk => decide (mblk.id = id) with
      | none => root
      | some mblk =>
          root.withNetwork mblk.names.networkName (addInfo root.mblks mblk signals complete)
  | .setupSignal ids signal => (root.setupSignalByIdentifiers ids signal).1
  | .findMblk names =>
      { root with
        droot := root.droot.map (updateNetwork names.networkName fun dnetwork =>
          { dnetwork with
            shortcuts := (findMblkShortcut root.mblks names.mblkName names.deviceName
              names.deviceNr dnetwork.shortcuts).2 }) }
  | .releaseMblk id =>
      match root.mblks.find? fun mblk => decide (mblk.id = id) with
      | none => root
      | some mblk =>
          { root with
            mblks := root.mblks.filter fun other => decide (other.id ≠ id)
            droot := root.droot.map fun networks =>
              removeEmpty mblk.names.networkName
                (updateNetwork mblk.names.networkName (mblkIsDeleted root.mblks mblk) networks) }
  | .setNetworkName networkName =>
      { root with
        networkName := networkName
        mblks := root.mblks.map fun mblk =>
          if unnamed mblk.names.networkName then
            { mblk with names.networkName := networkName }
          else mblk }

def initial (networkName : List Char) : DynamicIoRoot where
  networkName := networkName
  mblks := []
  nextId := 0
  droot := none

end DynamicIoRoot

end Iocom
