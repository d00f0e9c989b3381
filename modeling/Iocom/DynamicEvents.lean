import Iocom.DynamicTableRuns

/-!
# Networks come and go

An application which follows the events of a root knows which networks there are, as soon
as the information of one of their devices has arrived.
-/

namespace Iocom

open HashChains

def networkTold (name : List Char) (known : Bool) (told : RootEvent) : Bool :=
  if told.dnetwork = some name then
    match told.event with
    | .newNetwork => true
    | .networkDisconnected => false
    | _ => known
  else known

/-- Whether the application knows the network. -/
def networkKnown (events : List RootEvent) (name : List Char) : Bool :=
  events.foldl (networkTold name) false

/-- The information of a device of the network has been received. -/
def announced (droot : Option (Fin 128 → List HashedNetwork)) (name : List Char) : Bool :=
  droot.any fun hash => (findNetwork name hash).any fun dnetwork => !dnetwork.newNetwork

/-- A network is not new to the application when it is known. -/
def NewOnce (events : List RootEvent) : Prop :=
  ∀ name before after, events = before ++ ⟨.newNetwork, some name, none⟩ :: after →
    networkKnown before name = false

structure HashedRoot.TellsNetworks (root : HashedRoot) : Prop where
  known : ∀ name, networkKnown root.events name = announced root.droot name
  newOnce : NewOnce root.events

/-! ## Searches after a change -/

section Searches

variable {hash : Fin 128 → List HashedNetwork} {name other : List Char}

theorem findNetwork_change {f : HashedNetwork → HashedNetwork}
    (hf : ∀ dnetwork, (f dnetwork).networkName = dnetwork.networkName) :
    findNetwork name (changeNetwork name f hash) = (findNetwork name hash).map f := by
  unfold findNetwork changeNetwork
  rw [Function.update_self]
  exact find_updateFirst (fun dnetwork => by rw [hf]) _

theorem findNetwork_change_other {f : HashedNetwork → HashedNetwork}
    (hf : ∀ dnetwork, (f dnetwork).networkName = dnetwork.networkName) (hne : other ≠ name) :
    findNetwork other (changeNetwork name f hash) = findNetwork other hash := by
  unfold findNetwork changeNetwork
  by_cases hix : networkHashIx other = networkHashIx name
  · rw [hix, Function.update_self]
    refine find_updateFirst_other (fun dnetwork hname => ?_) _
    rw [hf, of_decide_eq_true hname]
    simp [Ne.symm hne]
  · rw [Function.update_of_ne hix]

theorem findNetwork_add :
    findNetwork name (addNetwork name hash) =
      some ((findNetwork name hash).getD (HashedNetwork.initial name)) := by
  unfold addNetwork
  cases hfound : findNetwork name hash with
  | some dnetwork => simpa using hfound
  | none =>
      rw [Option.isSome_none, if_neg Bool.false_ne_true]
      unfold findNetwork
      rw [Function.update_self]
      simp [HashedNetwork.initial]

theorem findNetwork_add_other (hne : other ≠ name) :
    findNetwork other (addNetwork name hash) = findNetwork other hash := by
  unfold addNetwork
  split_ifs
  · rfl
  · unfold findNetwork
    by_cases hix : networkHashIx other = networkHashIx name
    · rw [hix, Function.update_self]
      simp [HashedNetwork.initial, Ne.symm hne]
    · rw [Function.update_of_ne hix]

theorem findNetwork_remove_other (hne : other ≠ name) :
    findNetwork other (removeNetwork name hash) = findNetwork other hash := by
  unfold findNetwork removeNetwork
  by_cases hix : networkHashIx other = networkHashIx name
  · rw [hix, Function.update_self]
    refine find_eraseP_other (fun dnetwork hname => ?_) _
    rw [of_decide_eq_true hname]
    simp [Ne.symm hne]
  · rw [Function.update_of_ne hix]

theorem networkName_ne_of_mem_eraseP {networks : List DynamicNetwork} {dnetwork : DynamicNetwork}
    (hnodup : (networks.map DynamicNetwork.networkName).Nodup)
    (hmem : dnetwork ∈ networks.eraseP fun dnetwork => decide (dnetwork.networkName = name)) :
    dnetwork.networkName ≠ name := by
  induction networks with
  | nil => cases hmem
  | cons first rest ih =>
      rw [List.map_cons, List.nodup_cons] at hnodup
      rw [List.eraseP_cons] at hmem
      by_cases hname : first.networkName = name
      · simp only [hname, decide_true, cond_true] at hmem
        rintro rfl
        exact hnodup.1 (hname ▸ List.mem_map_of_mem hmem)
      · simp only [hname, decide_false, cond_false] at hmem
        rcases List.mem_cons.mp hmem with rfl | hmem
        · exact hname
        · exact ih hnodup.2 hmem

theorem SameNetworks.findNetwork_remove {networks : List DynamicNetwork}
    (h : SameNetworks hash networks) : findNetwork name (removeNetwork name hash) = none := by
  rcases rel_cases ((h.remove name).find name) with ⟨hnone, -⟩ | ⟨-, dnetwork, -, hfound, -⟩
  · exact hnone
  · have hname : dnetwork.networkName = name := by simpa using List.find?_some hfound
    exact absurd hname
      (networkName_ne_of_mem_eraseP h.nodup (List.mem_of_find?_eq_some hfound))

end Searches

/-! ## What is announced -/

section Announced

variable {droot : Option (Fin 128 → List HashedNetwork)} {hash : Fin 128 → List HashedNetwork}
  {name other : List Char}

theorem announced_some : announced (some hash) name =
    (findNetwork name hash).any fun dnetwork => !dnetwork.newNetwork := rfl

/-- A change which leaves alone whether the network has been announced. -/
theorem announced_change {f : HashedNetwork → HashedNetwork}
    (hf : ∀ dnetwork, (f dnetwork).networkName = dnetwork.networkName)
    (hnew : ∀ dnetwork, (f dnetwork).newNetwork = dnetwork.newNetwork) :
    announced (some (changeNetwork name f hash)) other = announced (some hash) other := by
  rw [announced_some, announced_some]
  obtain rfl | hne := eq_or_ne other name
  · rw [findNetwork_change hf, Option.any_map]
    simp [hnew]
  · rw [findNetwork_change_other hf hne]

theorem announced_add : announced (some (addNetwork name hash)) other =
    announced (some hash) other := by
  rw [announced_some, announced_some]
  obtain rfl | hne := eq_or_ne other name
  · rw [findNetwork_add]
    cases findNetwork other hash with
    | none => rfl
    | some dnetwork => rfl
  · rw [findNetwork_add_other hne]

end Announced

/-! ## Events -/

theorem networkKnown_append (events : List RootEvent) (told : RootEvent) (name : List Char) :
    networkKnown (events ++ [told]) name =
      networkTold name (networkKnown events name) told := by
  rw [networkKnown, networkKnown, List.foldl_append]
  rfl

theorem NewOnce.append {events : List RootEvent} (h : NewOnce events) {told : RootEvent}
    (hnew : ∀ name, told = ⟨.newNetwork, some name, none⟩ → networkKnown events name = false) :
    NewOnce (events ++ [told]) := by
  intro name before after hsplit
  rcases List.eq_nil_or_concat after with rfl | ⟨init, last, rfl⟩
  · obtain ⟨rfl, hlast⟩ := List.append_inj' hsplit rfl
    exact hnew name (List.singleton_inj.mp hlast)
  · have hsplit' : events ++ [told] =
        (before ++ ⟨.newNetwork, some name, none⟩ :: init) ++ [last] := by
      simpa using hsplit
    exact h name before init (List.append_inj' hsplit' rfl).1

namespace HashedRoot

variable {root : HashedRoot}

theorem TellsNetworks.initial (networkName : List Char) :
    (HashedRoot.initial networkName).TellsNetworks where
  known _ := rfl
  newOnce name before after hsplit := by simp [HashedRoot.initial] at hsplit

theorem TellsNetworks.same (h : root.TellsNetworks) {root' : HashedRoot}
    (hevents : root'.events = root.events)
    (hannounced : ∀ name, announced root'.droot name = announced root.droot name) :
    root'.TellsNetworks where
  known name := by rw [hevents, hannounced, h.known]
  newOnce := hevents ▸ h.newOnce

theorem TellsNetworks.event (h : root.TellsNetworks) {event : Event}
    (hnew : event ≠ .newNetwork) (hdisconnected : event ≠ .networkDisconnected)
    (dnetwork : Option (List Char)) (mblk : Option NamedMblk) :
    (root.newRootEvent event dnetwork mblk).TellsNetworks where
  known name := by
    have hsame : networkTold name (networkKnown root.events name) ⟨event, dnetwork, mblk⟩ =
        networkKnown root.events name := by
      unfold networkTold
      split_ifs
      · cases event <;> simp_all
      · rfl
    rw [newRootEvent, networkKnown_append, hsame]
    exact h.known name
  newOnce := h.newOnce.append fun name htold => by
    rw [RootEvent.mk.injEq] at htold
    exact absurd htold.1 hnew

theorem TellsNetworks.shortcuts (h : root.TellsNetworks) {hash : Fin 128 → List HashedNetwork}
    (hhash : root.droot = some hash) (name : List Char) (shortcuts : List ℕ) :
    { root with
      droot := some (changeNetwork name
        (fun dnetwork => { dnetwork with shortcuts := shortcuts }) hash) }.TellsNetworks :=
  h.same rfl fun name => by
    rw [hhash]
    exact announced_change (fun _ => rfl) fun _ => rfl

theorem TellsNetworks.setupSignal (h : root.TellsNetworks) (ids : IoIdentifiers)
    (signal : BoundSignal) : (root.setupSignalByIdentifiers ids signal).1.TellsNetworks := by
  unfold setupSignalByIdentifiers
  cases hhash : root.droot with
  | none => exact h
  | some hash =>
      dsimp only
      cases findNetwork ids.networkName hash with
      | none => exact h
      | some dnetwork =>
          dsimp only
          cases dnetwork.findSignal ids with
          | none => exact h
          | some dsignal =>
              dsimp only
              split_ifs
              · exact h
              · split
                · exact h.shortcuts hhash _ _
                · split
                  · exact h.shortcuts hhash _ _
                  · exact h.shortcuts hhash _ _

theorem TellsNetworks.findMblk (h : root.TellsNetworks) (names : MblkNames) :
    (root.findMblk names).1.TellsNetworks := by
  unfold HashedRoot.findMblk
  cases hhash : root.droot with
  | none => exact h
  | some hash =>
      dsimp only
      cases findNetwork names.networkName hash with
      | none => exact h
      | some dnetwork => exact h.shortcuts hhash _ _

theorem TellsNetworks.mbinfoReceived (h : root.TellsNetworks) (names : MblkNames) :
    (root.mbinfoReceived names).TellsNetworks := by
  refine TellsNetworks.event ?_ (by simp) (by simp) _ _
  refine h.same rfl fun name => ?_
  cases hhash : root.droot with
  | none =>
      rw [newMblk, hhash]
      rfl
  | some hash =>
      rw [newMblk, hhash, Option.map_some]
      dsimp only
      rw [announced_change, announced_add]
      · exact fun _ => rfl
      · exact fun _ => rfl

theorem addSignals_same (signals : List NetworkSignal) (dnetwork : HashedNetwork) :
    (signals.foldl HashedNetwork.addSignal dnetwork).networkName = dnetwork.networkName ∧
      (signals.foldl HashedNetwork.addSignal dnetwork).newNetwork = dnetwork.newNetwork := by
  induction signals generalizing dnetwork with
  | nil => exact ⟨rfl, rfl⟩
  | cons dsignal signals ih =>
      have hfirst : (dnetwork.addSignal dsignal).networkName = dnetwork.networkName ∧
          (dnetwork.addSignal dsignal).newNetwork = dnetwork.newNetwork := by
        unfold HashedNetwork.addSignal
        dsimp only
        split_ifs <;> exact ⟨rfl, rfl⟩
      exact ⟨(ih _).1.trans hfirst.1, (ih _).2.trans hfirst.2⟩

theorem addInfo_same (mblks : List NamedMblk) (mblk : NamedMblk) (signals : List NetworkSignal)
    (complete : Bool) (dnetwork : HashedNetwork) :
    (HashedNetwork.addInfo mblks mblk signals complete dnetwork).networkName =
        dnetwork.networkName ∧
      (HashedNetwork.addInfo mblks mblk signals complete dnetwork).newNetwork =
        dnetwork.newNetwork := by
  have hsignals := addSignals_same signals dnetwork
  cases complete with
  | false => exact hsignals
  | true => exact hsignals

/-- The information of a device has been received: a network which was not known is new,
unless the JSON has failed. -/
theorem TellsNetworks.addDynamicInfo (h : root.TellsNetworks) (mblk : NamedMblk)
    (signals : List NetworkSignal) (complete : Bool) {hash : Fin 128 → List HashedNetwork}
    (hhash : root.droot = some hash) :
    (root.addDynamicInfo mblk signals complete hash).TellsNetworks := by
  unfold HashedRoot.addDynamicInfo
  dsimp only
  generalize hname : mblk.names.networkName = name
  generalize hadded : changeNetwork name
    (HashedNetwork.addInfo root.mblks mblk signals complete) (addNetwork name hash) = added
  have hsame : ∀ other, announced (some added) other = networkKnown root.events other := by
    intro other
    rw [h.known, hhash, ← hadded, announced_change, announced_add]
    · exact fun dnetwork => (addInfo_same root.mblks mblk signals complete dnetwork).1
    · exact fun dnetwork => (addInfo_same root.mblks mblk signals complete dnetwork).2
  rcases Bool.eq_false_or_eq_true complete with rfl | rfl
  swap
  · exact h.same rfl fun other => (hsame other).trans (h.known other)
  rw [Bool.not_true, if_neg Bool.false_ne_true]
  obtain ⟨dnetwork, hfound⟩ : ∃ dnetwork, findNetwork name added = some dnetwork := by
    rw [← hadded, findNetwork_change, findNetwork_add]
    · exact ⟨_, rfl⟩
    · exact fun dnetwork => (addInfo_same root.mblks mblk signals true dnetwork).1
  have hseen : announced (some (changeNetwork name
      (fun dnetwork => { dnetwork with newNetwork := false }) added)) name = true := by
    rw [announced_some, findNetwork_change, hfound]
    · rfl
    · exact fun _ => rfl
  have hothers : ∀ other, other ≠ name →
      announced (some (changeNetwork name
        (fun dnetwork => { dnetwork with newNetwork := false }) added)) other =
        networkKnown root.events other := by
    intro other hne
    rw [← hsame other, announced_some, findNetwork_change_other _ hne]
    · rfl
    · exact fun _ => rfl
  have hbefore : networkKnown root.events name = !dnetwork.newNetwork := by
    rw [← hsame name, announced_some, hfound]
    rfl
  refine TellsNetworks.event ?_ (by simp) (by simp) _ _
  rw [hfound, Option.any_some]
  cases hnew : dnetwork.newNetwork with
  | true =>
      rw [if_pos rfl]
      rw [hnew, Bool.not_true] at hbefore
      constructor
      · intro other
        rw [newRootEvent, networkKnown_append]
        obtain rfl | hne := eq_or_ne other name
        · rw [hseen]
          simp [networkTold]
        · rw [hothers other hne]
          simp [networkTold, Ne.symm hne]
      · refine h.newOnce.append fun other htold => ?_
        rw [RootEvent.mk.injEq, Option.some.injEq] at htold
        rw [← htold.2.1, hbefore]
  | false =>
      rw [if_neg Bool.false_ne_true]
      rw [hnew, Bool.not_false] at hbefore
      refine ⟨fun other => ?_, h.newOnce⟩
      obtain rfl | hne := eq_or_ne other name
      · rw [hseen]
        exact hbefore
      · exact (hothers other hne).symm

theorem TellsNetworks.networkMblkIsDeleted (h : root.TellsNetworks) (mblk : NamedMblk)
    {hash : Fin 128 → List HashedNetwork} {networks : List DynamicNetwork}
    (hhash : root.droot = some hash) (hsame : SameNetworks hash networks)
    (dnetwork : HashedNetwork) : (root.networkMblkIsDeleted mblk hash dnetwork).TellsNetworks := by
  have htold : (if mblk.names.mblkName = "info".toList then
      root.newRootEvent .deviceDisconnected (some mblk.names.networkName) (some mblk)
    else root).TellsNetworks := by
    split_ifs
    · exact h.event (by simp) (by simp) _ _
    · exact h
  have hdroot : (if mblk.names.mblkName = "info".toList then
      root.newRootEvent .deviceDisconnected (some mblk.names.networkName) (some mblk)
    else root).droot = some hash := by
    split_ifs
    · exact hhash
    · exact hhash
  unfold HashedRoot.networkMblkIsDeleted
  dsimp only
  generalize (if mblk.names.mblkName = "info".toList then
      root.newRootEvent .deviceDisconnected (some mblk.names.networkName) (some mblk)
    else root) = told at htold hdroot ⊢
  generalize mblk.names.networkName = name
  have hchanged : ∀ other, announced
      (some (changeNetwork name (HashedNetwork.mblkIsDeleted told.mblks mblk) hash)) other =
        networkKnown told.events other := by
    intro other
    rw [announced_change, htold.known, hdroot]
    · exact fun _ => rfl
    · exact fun _ => rfl
  have hremaining : SameNetworks
      (changeNetwork name (HashedNetwork.mblkIsDeleted told.mblks mblk) hash)
      (updateNetwork name (DynamicIoRoot.mblkIsDeleted told.mblks mblk) networks) :=
    hsame.change (fun _ => rfl) fun _ _ hsame => hsame.mblkIsDeleted told.mblks mblk
  split_ifs
  · constructor
    · intro other
      rw [newRootEvent, networkKnown_append]
      obtain rfl | hne := eq_or_ne other name
      · rw [announced_some, hremaining.findNetwork_remove]
        simp [networkTold]
      · rw [announced_some, findNetwork_remove_other hne, ← announced_some, hchanged other]
        simp [networkTold, Ne.symm hne]
    · exact htold.newOnce.append fun other hevent => by simp at hevent
  · exact ⟨fun other => (hchanged other).symm, htold.newOnce⟩

theorem TellsNetworks.releaseMblk (h : root.TellsNetworks) {plain : DynamicIoRoot}
    (hplain : SameRoot root plain) (mblk : NamedMblk) : (root.releaseMblk mblk).TellsNetworks := by
  have hdeleted : (root.dynamicMblkIsDeleted mblk).TellsNetworks := by
    unfold HashedRoot.dynamicMblkIsDeleted
    rcases rel_cases hplain.droot with ⟨hhash, -⟩ | ⟨hash, networks, hhash, -, hsame⟩
    · rw [hhash]
      exact h
    · rw [hhash]
      dsimp only
      cases findNetwork mblk.names.networkName hash with
      | none => exact h
      | some dnetwork => exact h.networkMblkIsDeleted mblk hhash hsame dnetwork
  have htold : ((root.dynamicMblkIsDeleted mblk).newRootEvent .memoryBlockDeleted none
      (some mblk)).TellsNetworks := hdeleted.event (by simp) (by simp) none (some mblk)
  exact htold.same rfl fun _ => rfl

/-! ## Runs -/

def Initial (root : HashedRoot) : Prop := ∃ networkName, root = initial networkName

def Next (root root' : HashedRoot) : Prop :=
  ∃ action, (action = .initializeDroot → root.droot = none) ∧ root' = root.step action

theorem TellsNetworks.step (h : root.TellsNetworks) {plain : DynamicIoRoot}
    (hplain : SameRoot root plain) {action : DynamicAction}
    (honce : action = .initializeDroot → root.droot = none) :
    (root.step action).TellsNetworks := by
  cases action with
  | initializeDroot =>
      refine h.same rfl fun name => ?_
      rw [honce rfl]
      rfl
  | newMblk names => exact h.same rfl fun _ => rfl
  | mbinfoReceived names => exact h.mbinfoReceived names
  | addDynamicInfo id signals complete =>
      unfold HashedRoot.step
      dsimp only
      cases root.mblks.find? fun mblk => decide (mblk.id = id) with
      | none => exact h
      | some mblk =>
          dsimp only
          cases hhash : root.droot with
          | none => exact h
          | some hash => exact h.addDynamicInfo mblk signals complete hhash
  | setupSignal ids signal => exact h.setupSignal ids signal
  | findMblk names => exact h.findMblk names
  | releaseMblk id =>
      unfold HashedRoot.step
      dsimp only
      cases root.mblks.find? fun mblk => decide (mblk.id = id) with
      | none => exact h
      | some mblk => exact h.releaseMblk hplain mblk
  | setNetworkName networkName => exact h.same rfl fun _ => rfl

end HashedRoot

end Iocom
