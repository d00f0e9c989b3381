import Iocom.DynamicTables
import Iocom.SignalConfinement

/-!
# Searching by hash tables

Whatever happens to a root, its hash tables have the networks and the signals which plain
lists would have, and a signal is bound to the same block.
-/

namespace Iocom

open HashChains

structure SameNetwork (hashed : HashedNetwork) (dnetwork : DynamicNetwork) : Prop where
  networkName : hashed.networkName = dnetwork.networkName
  shortcuts : hashed.shortcuts = dnetwork.shortcuts
  signals : Represents Eq (fun dsignal => signalHashIx dsignal.signalName) hashed.hash
    dnetwork.signals

structure SameNetworks (hash : Fin 128 → List HashedNetwork) (networks : List DynamicNetwork) :
    Prop where
  chains : Represents SameNetwork (fun dnetwork => networkHashIx dnetwork.networkName) hash
    networks
  nodup : (networks.map DynamicNetwork.networkName).Nodup

structure SameRoot (hashed : HashedRoot) (root : DynamicIoRoot) : Prop where
  networkName : hashed.networkName = root.networkName
  mblks : hashed.mblks = root.mblks
  nextId : hashed.nextId = root.nextId
  droot : Option.Rel SameNetworks hashed.droot root.droot

/-! ## Signals -/

section Signals

variable {hashed : HashedNetwork} {dnetwork : DynamicNetwork}

theorem SameNetwork.initial (name : List Char) :
    SameNetwork (HashedNetwork.initial name) ⟨name, [], []⟩ :=
  ⟨rfl, rfl, .nil⟩

theorem SameNetwork.findSignal (h : SameNetwork hashed dnetwork) (ids : IoIdentifiers) :
    hashed.findSignal ids = dnetwork.findSignal ids := by
  refine h.signals.find_eq fun dsignal hmatches => ?_
  rw [← (of_decide_eq_true hmatches).1]

theorem SameNetwork.addSignal (h : SameNetwork hashed dnetwork) (dsignal : NetworkSignal) :
    SameNetwork (hashed.addSignal dsignal) (dnetwork.addSignal dsignal) := by
  have hany : (hashed.hash (signalHashIx dsignal.signalName)).any (fun other =>
        decide (dsignal.signalName = other.signalName ∧ dsignal.mblkName = other.mblkName ∧
          dsignal.deviceName = other.deviceName ∧ dsignal.deviceNr = other.deviceNr)) =
      dnetwork.signals.any fun other =>
        decide (dsignal.signalName = other.signalName ∧ dsignal.mblkName = other.mblkName ∧
          dsignal.deviceName = other.deviceName ∧ dsignal.deviceNr = other.deviceNr) := by
    refine h.signals.any (fun a b hab => by rw [hab]) fun other hsame => ?_
    rw [← (of_decide_eq_true hsame).1]
  unfold HashedNetwork.addSignal DynamicNetwork.addSignal
  dsimp only
  rw [hany]
  split_ifs
  · exact h
  · exact ⟨h.networkName, h.shortcuts, h.signals.append rfl⟩

theorem SameNetwork.addSignals (h : SameNetwork hashed dnetwork) (signals : List NetworkSignal) :
    SameNetwork (signals.foldl HashedNetwork.addSignal hashed)
      (signals.foldl DynamicNetwork.addSignal dnetwork) := by
  induction signals generalizing hashed dnetwork with
  | nil => exact h
  | cons dsignal signals ih => exact ih (h.addSignal dsignal)

theorem SameNetwork.shortcutTo (h : SameNetwork hashed dnetwork) (mblks : List NamedMblk)
    (mblk : NamedMblk) :
    SameNetwork (hashed.shortcutTo mblks mblk) (DynamicIoRoot.shortcutTo mblks mblk dnetwork) := by
  refine ⟨h.networkName, ?_, h.signals⟩
  rw [HashedNetwork.shortcutTo, DynamicIoRoot.shortcutTo, h.shortcuts]

theorem SameNetwork.mblkIsDeleted (h : SameNetwork hashed dnetwork) (mblks : List NamedMblk)
    (mblk : NamedMblk) :
    SameNetwork (hashed.mblkIsDeleted mblks mblk)
      (DynamicIoRoot.mblkIsDeleted mblks mblk dnetwork) := by
  refine ⟨h.networkName, ?_, h.signals.filter fun a b hab => by rw [hab]⟩
  rw [HashedNetwork.mblkIsDeleted, DynamicIoRoot.mblkIsDeleted, h.shortcuts]

theorem SameNetwork.withShortcuts (h : SameNetwork hashed dnetwork) (shortcuts : List ℕ) :
    SameNetwork { hashed with shortcuts := shortcuts }
      { dnetwork with shortcuts := shortcuts } :=
  ⟨h.networkName, rfl, h.signals⟩

end Signals

/-! ## Networks -/

theorem updateNetwork_eq (name : List Char) (f : DynamicNetwork → DynamicNetwork)
    (networks : List DynamicNetwork) :
    updateNetwork name f networks =
      updateFirst (fun dnetwork => decide (dnetwork.networkName = name)) f networks := by
  induction networks with
  | nil => rfl
  | cons dnetwork rest ih =>
      rw [updateNetwork, updateFirst, ih]
      simp only [decide_eq_true_eq]

theorem map_updateNetwork {name : List Char} {f : DynamicNetwork → DynamicNetwork}
    (hf : ∀ dnetwork, (f dnetwork).networkName = dnetwork.networkName)
    (networks : List DynamicNetwork) :
    (updateNetwork name f networks).map DynamicNetwork.networkName =
      networks.map DynamicNetwork.networkName := by
  induction networks with
  | nil => rfl
  | cons dnetwork rest ih =>
      rw [updateNetwork]
      split_ifs
      · rw [List.map_cons, List.map_cons, hf]
      · rw [List.map_cons, List.map_cons, ih]

theorem find_updateNetwork {name : List Char} {f : DynamicNetwork → DynamicNetwork}
    (hf : ∀ dnetwork, (f dnetwork).networkName = dnetwork.networkName)
    (networks : List DynamicNetwork) :
    (updateNetwork name f networks).find? (fun dnetwork => decide (dnetwork.networkName = name)) =
      (networks.find? fun dnetwork => decide (dnetwork.networkName = name)).map f := by
  induction networks with
  | nil => rfl
  | cons dnetwork rest ih =>
      rw [updateNetwork]
      split_ifs with hname
      · simp [hf, hname]
      · simpa [hname] using ih

theorem updateNetwork_of_find_none {name : List Char} {f : DynamicNetwork → DynamicNetwork}
    {networks : List DynamicNetwork}
    (h : networks.find? (fun dnetwork => decide (dnetwork.networkName = name)) = none) :
    updateNetwork name f networks = networks := by
  induction networks with
  | nil => rfl
  | cons dnetwork rest ih =>
      rw [List.find?_cons] at h
      by_cases hname : dnetwork.networkName = name
      · simp [hname] at h
      · rw [updateNetwork, if_neg hname]
        simp only [hname, decide_false] at h
        rw [ih h]

theorem updateNetwork_congr {name : List Char} {f g : DynamicNetwork → DynamicNetwork}
    {networks : List DynamicNetwork} {found : DynamicNetwork}
    (h : networks.find? (fun dnetwork => decide (dnetwork.networkName = name)) = some found)
    (hfg : f found = g found) : updateNetwork name f networks = updateNetwork name g networks := by
  induction networks with
  | nil => rfl
  | cons dnetwork rest ih =>
      rw [List.find?_cons] at h
      rw [updateNetwork, updateNetwork]
      split_ifs with hname
      · simp only [hname, decide_true, Option.some.injEq] at h
        rw [h, hfg]
      · simp only [hname, decide_false] at h
        rw [ih h]

theorem updateNetwork_id (name : List Char) (networks : List DynamicNetwork) :
    updateNetwork name id networks = networks := by
  induction networks with
  | nil => rfl
  | cons dnetwork rest ih =>
      rw [updateNetwork, ih]
      split_ifs <;> rfl

/-- The network which is found is removed when it has no shortcuts. -/
theorem removeEmpty_eq {name : List Char} {networks : List DynamicNetwork}
    (hnodup : (networks.map DynamicNetwork.networkName).Nodup) :
    DynamicIoRoot.removeEmpty name networks =
      match networks.find? fun dnetwork => decide (dnetwork.networkName = name) with
      | none => networks
      | some dnetwork =>
          if dnetwork.shortcuts = [] then
            networks.eraseP fun dnetwork => decide (dnetwork.networkName = name)
          else networks := by
  induction networks with
  | nil => rfl
  | cons dnetwork rest ih =>
      rw [List.map_cons, List.nodup_cons] at hnodup
      have hrest := ih hnodup.2
      unfold DynamicIoRoot.removeEmpty at hrest ⊢
      rw [List.find?_cons, List.eraseP_cons, List.eraseP_cons]
      by_cases hname : dnetwork.networkName = name
      · have hnone : rest.find? (fun dnetwork => decide (dnetwork.networkName = name)) = none := by
          rw [List.find?_eq_none]
          intro other hother hsame
          rw [decide_eq_true_eq] at hsame
          exact hnodup.1 (List.mem_map.mpr ⟨other, hother, hsame.trans hname.symm⟩)
        rw [hnone] at hrest
        by_cases hempty : dnetwork.shortcuts = []
        · simp [hname, hempty]
        · simpa [hname, hempty] using hrest
      · simp only [hname, false_and, decide_false, cond_false, hrest]
        cases rest.find? fun dnetwork => decide (dnetwork.networkName = name) with
        | none => rfl
        | some found =>
            dsimp only
            split_ifs <;> rfl

section Networks

variable {hash : Fin 128 → List HashedNetwork} {networks : List DynamicNetwork}

theorem sameName {name : List Char} (hashed : HashedNetwork) (dnetwork : DynamicNetwork)
    (h : SameNetwork hashed dnetwork) :
    decide (hashed.networkName = name) = decide (dnetwork.networkName = name) := by
  rw [h.networkName]

theorem hashIx_of_name {name : List Char} (dnetwork : DynamicNetwork)
    (h : decide (dnetwork.networkName = name) = true) :
    networkHashIx dnetwork.networkName = networkHashIx name := by
  rw [of_decide_eq_true h]

theorem SameNetworks.nil : SameNetworks (fun _ => []) [] := ⟨.nil, List.nodup_nil⟩

theorem SameNetworks.find (h : SameNetworks hash networks) (name : List Char) :
    Option.Rel SameNetwork (findNetwork name hash)
      (networks.find? fun dnetwork => decide (dnetwork.networkName = name)) :=
  h.chains.find sameName hashIx_of_name

theorem SameNetworks.change (h : SameNetworks hash networks) {name : List Char}
    {f : HashedNetwork → HashedNetwork} {g : DynamicNetwork → DynamicNetwork}
    (hg : ∀ dnetwork, (g dnetwork).networkName = dnetwork.networkName)
    (hfg : ∀ hashed dnetwork, SameNetwork hashed dnetwork →
      SameNetwork (f hashed) (g dnetwork)) :
    SameNetworks (changeNetwork name f hash) (updateNetwork name g networks) := by
  constructor
  · rw [updateNetwork_eq]
    refine h.chains.updateFirst sameName (fun hashed dnetwork hsame _ => hfg hashed dnetwork hsame)
      fun dnetwork hname => ?_
    rw [hg]
    exact ⟨hashIx_of_name dnetwork hname, hashIx_of_name dnetwork hname⟩
  · rw [map_updateNetwork hg]
    exact h.nodup

theorem SameNetworks.add (h : SameNetworks hash networks) (name : List Char) :
    SameNetworks (addNetwork name hash) (addDynamicNetwork name networks) := by
  have hany : (findNetwork name hash).isSome =
      networks.any fun dnetwork => decide (dnetwork.networkName = name) := by
    rw [findNetwork, List.isSome_find?]
    exact h.chains.any sameName hashIx_of_name
  unfold addNetwork addDynamicNetwork
  rw [hany]
  split_ifs with hfound
  · exact h
  · refine ⟨h.chains.cons (SameNetwork.initial name), ?_⟩
    rw [List.map_cons, List.nodup_cons]
    refine ⟨fun hmem => hfound ?_, h.nodup⟩
    obtain ⟨dnetwork, hdnetwork, hname⟩ := List.mem_map.mp hmem
    exact List.any_eq_true.mpr ⟨dnetwork, hdnetwork, decide_eq_true hname⟩

theorem SameNetworks.remove (h : SameNetworks hash networks) (name : List Char) :
    SameNetworks (removeNetwork name hash)
      (networks.eraseP fun dnetwork => decide (dnetwork.networkName = name)) :=
  ⟨h.chains.eraseP sameName hashIx_of_name,
    h.nodup.sublist (List.eraseP_sublist.map DynamicNetwork.networkName)⟩

end Networks

/-! ## The root -/

section Root

variable {hashed : HashedRoot} {root : DynamicIoRoot}

theorem SameRoot.initial (networkName : List Char) :
    SameRoot (HashedRoot.initial networkName) (DynamicIoRoot.initial networkName) :=
  ⟨rfl, rfl, rfl, .none⟩

theorem SameRoot.newRootEvent (h : SameRoot hashed root) (event : Event)
    (dnetwork : Option (List Char)) (mblk : Option NamedMblk) :
    SameRoot (hashed.newRootEvent event dnetwork mblk) root :=
  ⟨h.networkName, h.mblks, h.nextId, h.droot⟩

theorem SameRoot.withDroot (h : SameRoot hashed root) {hash : Fin 128 → List HashedNetwork}
    {networks : List DynamicNetwork} (hsame : SameNetworks hash networks) :
    SameRoot { hashed with droot := some hash } { root with droot := some networks } :=
  ⟨h.networkName, h.mblks, h.nextId, .some hsame⟩

theorem SameRoot.newMblk (h : SameRoot hashed root) (names : MblkNames) :
    SameRoot (hashed.newMblk names) (root.newMblk names) := by
  refine ⟨h.networkName, ?_, ?_, h.droot⟩
  · rw [HashedRoot.newMblk, DynamicIoRoot.newMblk, h.mblks, h.nextId]
  · rw [HashedRoot.newMblk, DynamicIoRoot.newMblk, h.nextId]

theorem SameRoot.setupSignalByIdentifiers (h : SameRoot hashed root) (ids : IoIdentifiers)
    (signal : BoundSignal) :
    SameRoot (hashed.setupSignalByIdentifiers ids signal).1
        (root.setupSignalByIdentifiers ids signal).1 ∧
      (hashed.setupSignalByIdentifiers ids signal).2 =
        (root.setupSignalByIdentifiers ids signal).2 := by
  have hsame := h
  obtain ⟨networkName, mblks, nextId, droot, events⟩ := hashed
  obtain ⟨_, _, _, networks⟩ := root
  obtain ⟨rfl, rfl, rfl, hdroot⟩ := h
  unfold HashedRoot.setupSignalByIdentifiers DynamicIoRoot.setupSignalByIdentifiers
  dsimp only at hdroot ⊢
  rcases rel_cases hdroot with ⟨rfl, rfl⟩ | ⟨hash, networks, rfl, rfl, hnetworks⟩
  · exact ⟨hsame, rfl⟩
  dsimp only
  rcases rel_cases (hnetworks.find ids.networkName) with
    ⟨hfound, hfound'⟩ | ⟨dnetwork, dnetwork', hfound, hfound', hnetwork⟩
  · rw [hfound, hfound']
    exact ⟨hsame, rfl⟩
  rw [hfound, hfound']
  dsimp only
  rw [hnetwork.findSignal ids, hnetwork.shortcuts]
  have hshortcuts : ∀ shortcuts, SameNetworks
      (changeNetwork ids.networkName (fun dnetwork => { dnetwork with shortcuts := shortcuts })
        hash)
      (updateNetwork ids.networkName (fun dnetwork => { dnetwork with shortcuts := shortcuts })
        networks) := fun shortcuts =>
    hnetworks.change (fun _ => rfl) fun _ _ hsame => hsame.withShortcuts shortcuts
  cases dnetwork'.findSignal ids with
  | none => exact ⟨hsame, rfl⟩
  | some dsignal =>
      dsimp only
      split_ifs with hbound
      · exact ⟨hsame, rfl⟩
      · generalize findMblkShortcut mblks dsignal.mblkName dsignal.deviceName
          dsignal.deviceNr dnetwork'.shortcuts = found
        obtain ⟨id, shortcuts⟩ := found
        cases id with
        | some id => exact ⟨hsame.withDroot (hshortcuts shortcuts), rfl⟩
        | none =>
            dsimp only
            cases mblks.find? fun mblk =>
                decide (mblk.names.networkName = ids.networkName ∧
                  mblk.Matches dsignal.mblkName dsignal.deviceName dsignal.deviceNr) with
            | some mblk => exact ⟨hsame.withDroot (hshortcuts (shortcuts ++ [mblk.id])), rfl⟩
            | none => exact ⟨hsame.withDroot (hshortcuts shortcuts), rfl⟩

theorem SameRoot.findMblk (h : SameRoot hashed root) (names : MblkNames) :
    SameRoot (hashed.findMblk names).1 (root.step (.findMblk names)) := by
  have hsame := h
  obtain ⟨networkName, mblks, nextId, droot, events⟩ := hashed
  obtain ⟨_, _, _, networks⟩ := root
  obtain ⟨rfl, rfl, rfl, hdroot⟩ := h
  unfold HashedRoot.findMblk DynamicIoRoot.step
  dsimp only at hdroot ⊢
  rcases rel_cases hdroot with ⟨rfl, rfl⟩ | ⟨hash, networks, rfl, rfl, hnetworks⟩
  · exact hsame
  dsimp only
  rw [Option.map_some]
  rcases rel_cases (hnetworks.find names.networkName) with
    ⟨hfound, hfound'⟩ | ⟨dnetwork, dnetwork', hfound, hfound', hnetwork⟩
  · rw [hfound, updateNetwork_of_find_none hfound']
    exact hsame
  · rw [hfound, updateNetwork_congr hfound'
      (g := fun dnetwork => { dnetwork with
        shortcuts := (findMblkShortcut mblks names.mblkName names.deviceName names.deviceNr
          dnetwork'.shortcuts).2 }) rfl]
    dsimp only
    rw [hnetwork.shortcuts]
    exact hsame.withDroot (hnetworks.change (fun _ => rfl) fun _ _ hsame =>
      hsame.withShortcuts _)

theorem SameRoot.mbinfoReceived (h : SameRoot hashed root) (names : MblkNames) :
    SameRoot (hashed.mbinfoReceived names) (root.step (.mbinfoReceived names)) := by
  have hnew := h.newMblk names
  refine ⟨hnew.networkName, hnew.mblks, hnew.nextId, ?_⟩
  have hmblks := hnew.mblks
  unfold HashedRoot.mbinfoReceived DynamicIoRoot.step DynamicIoRoot.withNetwork
  dsimp only [HashedRoot.newRootEvent]
  rw [hmblks, h.nextId]
  rcases rel_cases h.droot with ⟨hhash, hnetworks⟩ | ⟨hash, networks, hhash, hnetworks, hsame⟩
  · rw [show (hashed.newMblk names).droot = none from hhash,
      show (root.newMblk names).droot = none from hnetworks]
    exact .none
  · rw [show (hashed.newMblk names).droot = some hash from hhash,
      show (root.newMblk names).droot = some networks from hnetworks]
    exact .some ((hsame.add names.networkName).change (fun _ => rfl)
      fun _ _ hsame => hsame.shortcutTo _ _)

theorem addInfo_networkName (mblks : List NamedMblk) (mblk : NamedMblk)
    (signals : List NetworkSignal) (complete : Bool) (dnetwork : DynamicNetwork) :
    (DynamicIoRoot.addInfo mblks mblk signals complete dnetwork).networkName =
      dnetwork.networkName := by
  have hsignals := (addSignals_keep signals dnetwork).1
  cases complete with
  | false => exact hsignals
  | true => exact hsignals

theorem SameNetwork.addInfo (h : SameNetwork dnetwork dnetwork') (mblks : List NamedMblk)
    (mblk : NamedMblk) (signals : List NetworkSignal) (complete : Bool) :
    SameNetwork (HashedNetwork.addInfo mblks mblk signals complete dnetwork)
      (DynamicIoRoot.addInfo mblks mblk signals complete dnetwork') := by
  have hsignals := h.addSignals signals
  cases complete with
  | false => exact hsignals
  | true => exact hsignals.shortcutTo mblks mblk

theorem SameRoot.addDynamicInfo (h : SameRoot hashed root) {mblk : NamedMblk}
    {signals : List NetworkSignal} {complete : Bool} {hash : Fin 128 → List HashedNetwork}
    {networks : List DynamicNetwork} (hnetworks : root.droot = some networks)
    (hsame : SameNetworks hash networks) :
    SameRoot (hashed.addDynamicInfo mblk signals complete hash)
      (root.withNetwork mblk.names.networkName
        (DynamicIoRoot.addInfo root.mblks mblk signals complete)) := by
  have hchanged : SameNetworks
      (changeNetwork mblk.names.networkName
        (HashedNetwork.addInfo hashed.mblks mblk signals complete)
        (addNetwork mblk.names.networkName hash))
      (updateNetwork mblk.names.networkName
        (DynamicIoRoot.addInfo root.mblks mblk signals complete)
        (addDynamicNetwork mblk.names.networkName networks)) := by
    rw [h.mblks]
    exact (hsame.add mblk.names.networkName).change
      (addInfo_networkName root.mblks mblk signals complete)
      fun _ _ hsame => hsame.addInfo root.mblks mblk signals complete
  have hseen : SameNetworks
      (changeNetwork mblk.names.networkName (fun dnetwork => { dnetwork with newNetwork := false })
        (changeNetwork mblk.names.networkName
          (HashedNetwork.addInfo hashed.mblks mblk signals complete)
          (addNetwork mblk.names.networkName hash)))
      (updateNetwork mblk.names.networkName id
        (updateNetwork mblk.names.networkName
          (DynamicIoRoot.addInfo root.mblks mblk signals complete)
          (addDynamicNetwork mblk.names.networkName networks))) :=
    hchanged.change (fun _ => rfl)
      fun _ _ hsame => ⟨hsame.networkName, hsame.shortcuts, hsame.signals⟩
  rw [updateNetwork_id] at hseen
  unfold HashedRoot.addDynamicInfo DynamicIoRoot.withNetwork
  dsimp only
  rw [hnetworks, Option.map_some]
  cases complete with
  | false => exact h.withDroot hchanged
  | true =>
      rw [Bool.not_true, if_neg Bool.false_ne_true]
      refine SameRoot.newRootEvent ?_ _ _ _
      split_ifs
      · exact (h.newRootEvent _ _ _).withDroot hseen
      · exact h.withDroot hseen

theorem SameRoot.networkMblkIsDeleted (h : SameRoot hashed root) (mblk : NamedMblk)
    {hash : Fin 128 → List HashedNetwork} {networks : List DynamicNetwork}
    (hchanged : SameNetworks
      (changeNetwork mblk.names.networkName (HashedNetwork.mblkIsDeleted root.mblks mblk) hash)
      networks)
    {dnetwork : HashedNetwork} {dnetwork' : DynamicNetwork} (hnetwork : SameNetwork dnetwork dnetwork')
    (hfound : networks.find? (fun dnetwork => decide (dnetwork.networkName =
      mblk.names.networkName)) = some (DynamicIoRoot.mblkIsDeleted root.mblks mblk dnetwork')) :
    SameRoot (hashed.networkMblkIsDeleted mblk hash dnetwork)
      { root with
        droot := some (DynamicIoRoot.removeEmpty mblk.names.networkName networks) } := by
  have htold : SameRoot
      (if mblk.names.mblkName = "info".toList then
        hashed.newRootEvent .deviceDisconnected (some mblk.names.networkName) (some mblk)
      else hashed) root := by
    split_ifs
    · exact h.newRootEvent _ _ _
    · exact h
  rw [removeEmpty_eq hchanged.nodup, hfound]
  unfold HashedRoot.networkMblkIsDeleted
  dsimp only
  generalize (if mblk.names.mblkName = "info".toList then
      hashed.newRootEvent .deviceDisconnected (some mblk.names.networkName) (some mblk)
    else hashed) = told at htold ⊢
  have hshortcuts := (hnetwork.mblkIsDeleted root.mblks mblk).shortcuts
  have hempty : (HashedNetwork.mblkIsDeleted told.mblks mblk dnetwork).shortcuts = [] ↔
      (DynamicIoRoot.mblkIsDeleted root.mblks mblk dnetwork').shortcuts = [] := by
    rw [htold.mblks, hshortcuts]
  simp only [hempty]
  rw [← htold.mblks] at hchanged
  split_ifs
  · exact (htold.newRootEvent _ _ _).withDroot (hchanged.remove _)
  · exact htold.withDroot hchanged

theorem SameRoot.dynamicMblkIsDeleted (h : SameRoot hashed root) (mblk : NamedMblk) :
    SameRoot (hashed.dynamicMblkIsDeleted mblk)
      { root with
        droot := root.droot.map fun networks =>
          DynamicIoRoot.removeEmpty mblk.names.networkName
            (updateNetwork mblk.names.networkName (DynamicIoRoot.mblkIsDeleted root.mblks mblk)
              networks) } := by
  unfold HashedRoot.dynamicMblkIsDeleted
  rcases rel_cases h.droot with ⟨hhash, hnetworks⟩ | ⟨hash, networks, hhash, hnetworks, hsame⟩
  · rw [hhash, hnetworks]
    exact ⟨h.networkName, h.mblks, h.nextId, by rw [hhash]; exact .none⟩
  rw [hhash, hnetworks, Option.map_some]
  dsimp only
  have hchanged : SameNetworks
      (changeNetwork mblk.names.networkName (HashedNetwork.mblkIsDeleted root.mblks mblk) hash)
      (updateNetwork mblk.names.networkName (DynamicIoRoot.mblkIsDeleted root.mblks mblk)
        networks) :=
    hsame.change (fun _ => rfl) fun _ _ hsame => hsame.mblkIsDeleted root.mblks mblk
  have hname : ∀ dnetwork : DynamicNetwork,
      (DynamicIoRoot.mblkIsDeleted root.mblks mblk dnetwork).networkName =
        dnetwork.networkName := fun _ => rfl
  have hafter := @find_updateNetwork mblk.names.networkName _ hname networks
  rcases rel_cases (hsame.find mblk.names.networkName) with
    ⟨hfound, hfound'⟩ | ⟨dnetwork, dnetwork', hfound, hfound', hnetwork⟩
  · rw [hfound, removeEmpty_eq hchanged.nodup, hafter, hfound', Option.map_none,
      updateNetwork_of_find_none hfound']
    exact ⟨h.networkName, h.mblks, h.nextId, by rw [hhash]; exact .some hsame⟩
  · rw [hfound', Option.map_some] at hafter
    rw [hfound]
    exact h.networkMblkIsDeleted mblk hchanged hnetwork hafter

theorem SameRoot.releaseMblk (h : SameRoot hashed root) {mblk : NamedMblk}
    (hmblk : root.mblks.find? (fun other => decide (other.id = mblk.id)) = some mblk) :
    SameRoot (hashed.releaseMblk mblk) (root.step (.releaseMblk mblk.id)) := by
  have hdeleted := h.dynamicMblkIsDeleted mblk
  unfold DynamicIoRoot.step
  dsimp only
  rw [hmblk]
  exact ⟨hdeleted.networkName, congrArg _ hdeleted.mblks, hdeleted.nextId, hdeleted.droot⟩

theorem SameRoot.step (h : SameRoot hashed root) (action : DynamicAction) :
    SameRoot (hashed.step action) (root.step action) := by
  cases action with
  | initializeDroot => exact h.withDroot .nil
  | newMblk names => exact h.newMblk names
  | mbinfoReceived names => exact h.mbinfoReceived names
  | addDynamicInfo id signals complete =>
      unfold HashedRoot.step DynamicIoRoot.step
      dsimp only
      rw [h.mblks]
      cases root.mblks.find? fun mblk => decide (mblk.id = id) with
      | none => exact h
      | some mblk =>
          dsimp only
          rcases rel_cases h.droot with
            ⟨hhash, hnetworks⟩ | ⟨hash, networks, hhash, hnetworks, hsame⟩
          · rw [hhash]
            refine ⟨h.networkName, h.mblks, h.nextId, ?_⟩
            rw [hhash, DynamicIoRoot.withNetwork, hnetworks]
            exact .none
          · rw [hhash]
            exact h.addDynamicInfo hnetworks hsame
  | setupSignal ids signal => exact (h.setupSignalByIdentifiers ids signal).1
  | findMblk names => exact h.findMblk names
  | releaseMblk id =>
      unfold HashedRoot.step
      dsimp only
      rw [h.mblks]
      cases hmblk : root.mblks.find? fun mblk => decide (mblk.id = id) with
      | none =>
          unfold DynamicIoRoot.step
          dsimp only
          rw [hmblk]
          exact h
      | some mblk =>
          have hid : decide (mblk.id = id) = true := by simpa using List.find?_some hmblk
          rw [← of_decide_eq_true hid] at hmblk ⊢
          exact h.releaseMblk hmblk
  | setNetworkName networkName =>
      exact ⟨rfl, congrArg _ h.mblks, h.nextId, h.droot⟩

theorem SameRoot.run (h : SameRoot hashed root) (actions : List DynamicAction) :
    SameRoot (actions.foldl HashedRoot.step hashed) (actions.foldl DynamicIoRoot.step root) := by
  induction actions generalizing hashed root with
  | nil => exact h
  | cons action actions ih => exact ih (h.step action)

end Root

/-- After any changes of a root, a search for a signal in the hash tables
finds what a search through all networks and signals would find, and leaves the root as it
would. -/
theorem hash_tables_agree (networkName : List Char) (actions : List DynamicAction)
    (ids : IoIdentifiers) (signal : BoundSignal) :
    let hashed := actions.foldl HashedRoot.step (HashedRoot.initial networkName)
    let root := actions.foldl DynamicIoRoot.step (DynamicIoRoot.initial networkName)
    SameRoot (hashed.setupSignalByIdentifiers ids signal).1
        (root.setupSignalByIdentifiers ids signal).1 ∧
      (hashed.setupSignalByIdentifiers ids signal).2 =
        (root.setupSignalByIdentifiers ids signal).2 :=
  ((SameRoot.initial networkName).run actions).setupSignalByIdentifiers ids signal

end Iocom
