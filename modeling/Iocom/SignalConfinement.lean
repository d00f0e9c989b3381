import Iocom.DynamicNetworks
import Iocom.Lib.TransitionSystem

/-!
# Signals stay in their top level network

The shortcuts of a network lead to its own memory blocks, so that a signal is bound to a
block of the network which has been chosen by names alone.
-/

namespace Iocom

open Separated

/-! ## Networks and shortcuts -/

/-- The shortcuts of a network lead to blocks of the network, or to none. -/
def DynamicNetwork.LeadsHome (dnetwork : DynamicNetwork) (mblks : List NamedMblk)
    (nextId : ℕ) : Prop :=
  ∀ id ∈ dnetwork.shortcuts, id < nextId ∧
    ∀ mblk ∈ mblks, mblk.id = id → mblk.names.networkName = dnetwork.networkName

theorem DynamicNetwork.LeadsHome.of_subset {dnetwork other : DynamicNetwork}
    {mblks : List NamedMblk} {nextId : ℕ} (h : dnetwork.LeadsHome mblks nextId)
    (hname : other.networkName = dnetwork.networkName)
    (hsubset : ∀ id ∈ other.shortcuts, id ∈ dnetwork.shortcuts) :
    other.LeadsHome mblks nextId := by
  intro id hid
  rw [hname]
  exact h id (hsubset id hid)

theorem mem_updateNetwork {name : List Char} {f : DynamicNetwork → DynamicNetwork}
    {networks : List DynamicNetwork} {dnetwork : DynamicNetwork}
    (h : dnetwork ∈ updateNetwork name f networks) :
    dnetwork ∈ networks ∨ ∃ old ∈ networks, old.networkName = name ∧ dnetwork = f old := by
  induction networks with
  | nil => cases h
  | cons first rest ih =>
      rw [updateNetwork] at h
      split_ifs at h with hname
      · rcases List.mem_cons.mp h with rfl | hrest
        · exact Or.inr ⟨first, List.mem_cons_self, hname, rfl⟩
        · exact Or.inl (List.mem_cons_of_mem _ hrest)
      · rcases List.mem_cons.mp h with rfl | hrest
        · exact Or.inl List.mem_cons_self
        · rcases ih hrest with hsame | ⟨old, hold, hname', rfl⟩
          · exact Or.inl (List.mem_cons_of_mem _ hsame)
          · exact Or.inr ⟨old, List.mem_cons_of_mem _ hold, hname', rfl⟩

theorem mem_addDynamicNetwork {name : List Char} {networks : List DynamicNetwork}
    {dnetwork : DynamicNetwork} (h : dnetwork ∈ addDynamicNetwork name networks) :
    dnetwork ∈ networks ∨ dnetwork = ⟨name, [], []⟩ := by
  unfold addDynamicNetwork at h
  split_ifs at h
  · exact Or.inl h
  · exact (List.mem_cons.mp h).symm

theorem findMblkShortcut_spec (mblks : List NamedMblk) (mblkName deviceName : List Char)
    (deviceNr : ℕ) (shortcuts : List ℕ) :
    (∀ id ∈ (findMblkShortcut mblks mblkName deviceName deviceNr shortcuts).2,
        id ∈ shortcuts) ∧
      ∀ id, (findMblkShortcut mblks mblkName deviceName deviceNr shortcuts).1 = some id →
        id ∈ shortcuts ∧ ∃ mblk ∈ mblks, mblk.id = id := by
  induction shortcuts with
  | nil => exact ⟨fun id hid => hid, fun id hid => by cases hid⟩
  | cons item rest ih =>
      rw [findMblkShortcut]
      cases hitem : mblks.find? fun mblk => decide (mblk.id = item) with
      | none =>
          exact ⟨fun id hid => List.mem_cons_of_mem _ (ih.1 id hid),
            fun id hid => ⟨List.mem_cons_of_mem _ (ih.2 id hid).1, (ih.2 id hid).2⟩⟩
      | some mblk =>
          dsimp only
          split_ifs
          · refine ⟨fun id hid => hid, fun id hid => ?_⟩
            obtain rfl : item = id := Option.some.inj hid
            have hmatch : decide (mblk.id = item) = true := by
              simpa using List.find?_some hitem
            exact ⟨List.mem_cons_self, mblk, List.mem_of_find?_eq_some hitem,
              of_decide_eq_true hmatch⟩
          · refine ⟨fun id hid => ?_, fun id hid =>
              ⟨List.mem_cons_of_mem _ (ih.2 id hid).1, (ih.2 id hid).2⟩⟩
            rcases List.mem_cons.mp hid with rfl | hrest
            · exact List.mem_cons_self
            · exact List.mem_cons_of_mem _ (ih.1 id hrest)

theorem addSignals_keep (signals : List NetworkSignal) (dnetwork : DynamicNetwork) :
    (signals.foldl DynamicNetwork.addSignal dnetwork).networkName = dnetwork.networkName ∧
      (signals.foldl DynamicNetwork.addSignal dnetwork).shortcuts = dnetwork.shortcuts := by
  induction signals generalizing dnetwork with
  | nil => exact ⟨rfl, rfl⟩
  | cons dsignal signals ih =>
      have hone : (dnetwork.addSignal dsignal).networkName = dnetwork.networkName ∧
          (dnetwork.addSignal dsignal).shortcuts = dnetwork.shortcuts := by
        unfold DynamicNetwork.addSignal
        split_ifs <;> exact ⟨rfl, rfl⟩
      exact ⟨(ih _).1.trans hone.1, (ih _).2.trans hone.2⟩

namespace DynamicIoRoot

structure Valid (root : DynamicIoRoot) : Prop where
  lt_nextId : ∀ mblk ∈ root.mblks, mblk.id < root.nextId
  unique : ∀ mblk ∈ root.mblks, ∀ other ∈ root.mblks, mblk.id = other.id → mblk = other
  leadsHome : ∀ networks, root.droot = some networks → ∀ dnetwork ∈ networks,
    dnetwork.LeadsHome root.mblks root.nextId

variable {root : DynamicIoRoot}

theorem initial_valid (networkName : List Char) : (initial networkName).Valid where
  lt_nextId _ hmem := absurd hmem List.not_mem_nil
  unique _ hmem := absurd hmem List.not_mem_nil
  leadsHome networks hdroot := by cases hdroot

theorem shortcutTo_leadsHome {mblks : List NamedMblk} {nextId : ℕ} {mblk : NamedMblk}
    {dnetwork : DynamicNetwork} (hlt : mblk.id < nextId)
    (hunique : ∀ other ∈ mblks, other.id = mblk.id → other = mblk)
    (hname : mblk.names.networkName = dnetwork.networkName)
    (h : dnetwork.LeadsHome mblks nextId) :
    (shortcutTo mblks mblk dnetwork).LeadsHome mblks nextId := by
  have hkept := (findMblkShortcut_spec mblks mblk.names.mblkName mblk.names.deviceName
    mblk.names.deviceNr dnetwork.shortcuts).1
  intro id hid
  unfold shortcutTo at hid ⊢
  dsimp only at hid ⊢
  split_ifs at hid
  · rcases List.mem_append.mp hid with hold | hnew
    · exact h id (hkept id hold)
    · rw [List.mem_singleton.mp hnew]
      exact ⟨hlt, fun other hother hsame => by rw [hunique other hother hsame, hname]⟩
  · exact h id (hkept id hid)

/-- Changing one network, if the change keeps its shortcuts at home. -/
theorem leadsHome_updateNetwork {mblks : List NamedMblk} {nextId : ℕ}
    {networks : List DynamicNetwork} {name : List Char} {f : DynamicNetwork → DynamicNetwork}
    (h : ∀ dnetwork ∈ networks, dnetwork.LeadsHome mblks nextId)
    (hf : ∀ dnetwork : DynamicNetwork, dnetwork.networkName = name →
      dnetwork.LeadsHome mblks nextId → (f dnetwork).LeadsHome mblks nextId) :
    ∀ dnetwork ∈ updateNetwork name f networks, dnetwork.LeadsHome mblks nextId := by
  intro dnetwork hmem
  rcases mem_updateNetwork hmem with hsame | ⟨old, hold, hname, rfl⟩
  · exact h dnetwork hsame
  · exact hf old hname (h old hold)

theorem Valid.withNetwork (h : root.Valid) {name : List Char}
    {f : DynamicNetwork → DynamicNetwork}
    (hf : ∀ dnetwork : DynamicNetwork, dnetwork.networkName = name →
      dnetwork.LeadsHome root.mblks root.nextId → (f dnetwork).LeadsHome root.mblks root.nextId) :
    (root.withNetwork name f).Valid where
  lt_nextId := h.lt_nextId
  unique := h.unique
  leadsHome networks hdroot := by
    obtain ⟨before, hbefore, rfl⟩ := Option.map_eq_some_iff.mp hdroot
    refine leadsHome_updateNetwork (fun dnetwork hmem => ?_) hf
    rcases mem_addDynamicNetwork hmem with hold | rfl
    · exact h.leadsHome before hbefore dnetwork hold
    · exact fun id hid => absurd hid List.not_mem_nil

theorem Valid.newMblk (h : root.Valid) (names : MblkNames) : (root.newMblk names).Valid where
  lt_nextId mblk hmem := by
    rcases List.mem_append.mp hmem with hold | hnew
    · exact Nat.lt_succ_of_lt (h.lt_nextId mblk hold)
    · rw [List.mem_singleton.mp hnew]
      exact Nat.lt_succ_self _
  unique mblk hmem other hother hsame := by
    rcases List.mem_append.mp hmem with hold | hnew
    · rcases List.mem_append.mp hother with hold' | hnew'
      · exact h.unique mblk hold other hold' hsame
      · rw [List.mem_singleton.mp hnew'] at hsame
        exact absurd hsame (h.lt_nextId mblk hold).ne
    · rw [List.mem_singleton.mp hnew] at hsame ⊢
      rcases List.mem_append.mp hother with hold' | hnew'
      · exact absurd hsame.symm (h.lt_nextId other hold').ne
      · rw [List.mem_singleton.mp hnew']
  leadsHome networks hdroot dnetwork hmem id hid := by
    have hbefore := h.leadsHome networks hdroot dnetwork hmem id hid
    refine ⟨Nat.lt_succ_of_lt hbefore.1, fun mblk hmblk hsame => ?_⟩
    rcases List.mem_append.mp hmblk with hold | hnew
    · exact hbefore.2 mblk hold hsame
    · rw [List.mem_singleton.mp hnew] at hsame
      exact absurd hsame.symm hbefore.1.ne

theorem Valid.updateShortcuts (h : root.Valid) {networks : List DynamicNetwork}
    (hdroot : root.droot = some networks) {name : List Char}
    {f : DynamicNetwork → DynamicNetwork}
    (hf : ∀ dnetwork : DynamicNetwork, dnetwork.networkName = name →
      dnetwork.LeadsHome root.mblks root.nextId → (f dnetwork).LeadsHome root.mblks root.nextId) :
    Valid { root with droot := some (updateNetwork name f networks) } where
  lt_nextId := h.lt_nextId
  unique := h.unique
  leadsHome networks' hdroot' := by
    obtain rfl := Option.some.inj hdroot'
    exact leadsHome_updateNetwork (h.leadsHome networks hdroot) hf

/-- What a search has kept of the shortcuts of a network leads home. -/
theorem leadsHome_kept {mblks : List NamedMblk} {nextId : ℕ} {name : List Char}
    {dnetwork : DynamicNetwork} (hname : dnetwork.networkName = name)
    (hhome : dnetwork.LeadsHome mblks nextId) {kept : List ℕ}
    (hkept : ∀ id ∈ kept, id ∈ dnetwork.shortcuts) (other : DynamicNetwork)
    (hother : other.networkName = name) :
    DynamicNetwork.LeadsHome { other with shortcuts := kept } mblks nextId := by
  intro id hid
  have hlead := hhome id (hkept id hid)
  rw [hname, ← hother] at hlead
  exact hlead

/-- What a signal is bound to by its identifiers: a block of their network. -/
theorem Valid.setupSignalByIdentifiers (h : root.Valid) (ids : IoIdentifiers)
    (signal : BoundSignal) :
    (root.setupSignalByIdentifiers ids signal).1.Valid ∧
      ((root.setupSignalByIdentifiers ids signal).2.handle = signal.handle ∨
        ∃ mblk ∈ root.mblks,
          (root.setupSignalByIdentifiers ids signal).2.handle = some mblk.id ∧
          mblk.names.networkName = ids.networkName) := by
  unfold DynamicIoRoot.setupSignalByIdentifiers
  cases hdroot : root.droot with
  | none => exact ⟨h, Or.inl rfl⟩
  | some networks =>
      dsimp only
      cases hnetwork : networks.find? fun dnetwork =>
          decide (dnetwork.networkName = ids.networkName) with
      | none => exact ⟨h, Or.inl rfl⟩
      | some dnetwork =>
          have hfits : decide (dnetwork.networkName = ids.networkName) = true := by
            simpa using List.find?_some hnetwork
          have hname := of_decide_eq_true hfits
          have hhome := h.leadsHome networks hdroot dnetwork (List.mem_of_find?_eq_some hnetwork)
          dsimp only
          cases dnetwork.findSignal ids with
          | none => exact ⟨h, Or.inl rfl⟩
          | some dsignal =>
              have hsearch := findMblkShortcut_spec root.mblks dsignal.mblkName
                dsignal.deviceName dsignal.deviceNr dnetwork.shortcuts
              dsimp only
              split_ifs
              · exact ⟨h, Or.inl rfl⟩
              · generalize findMblkShortcut root.mblks dsignal.mblkName dsignal.deviceName
                  dsignal.deviceNr dnetwork.shortcuts = found at hsearch
                obtain ⟨shortcut, kept⟩ := found
                have hkept : ∀ other : DynamicNetwork, other.networkName = ids.networkName →
                    other.LeadsHome root.mblks root.nextId →
                    DynamicNetwork.LeadsHome { other with shortcuts := kept } root.mblks
                      root.nextId := fun other hother _ =>
                  leadsHome_kept hname hhome hsearch.1 other hother
                cases shortcut with
                | some id =>
                    obtain ⟨hmem, mblk, hmblk, rfl⟩ := hsearch.2 id rfl
                    have hnetworkName := (hhome mblk.id hmem).2 mblk hmblk rfl
                    exact ⟨h.updateShortcuts hdroot hkept,
                      Or.inr ⟨mblk, hmblk, rfl, hnetworkName.trans hname⟩⟩
                | none =>
                    dsimp only
                    split
                    next mblk hfull =>
                      have hmatch : decide (mblk.names.networkName = ids.networkName ∧
                          mblk.Matches dsignal.mblkName dsignal.deviceName
                            dsignal.deviceNr) = true := by
                        simpa using List.find?_some hfull
                      have hmblk := List.mem_of_find?_eq_some hfull
                      have hnetworkName := (of_decide_eq_true hmatch).1
                      refine ⟨h.updateShortcuts hdroot fun other hother hbefore id hid => ?_,
                        Or.inr ⟨mblk, hmblk, rfl, hnetworkName⟩⟩
                      rcases List.mem_append.mp hid with hold | hnew
                      · exact hkept other hother hbefore id hold
                      · rw [List.mem_singleton.mp hnew]
                        refine ⟨h.lt_nextId mblk hmblk, fun mblk' hmblk' hsame => ?_⟩
                        rw [h.unique mblk' hmblk' mblk hmblk hsame]
                        exact hnetworkName.trans hother.symm
                    next => exact ⟨h.updateShortcuts hdroot hkept, Or.inl rfl⟩

/-! ## Runs -/

/-- No shortcut leads to a block without a network name when the network name is set: a root
with dynamic signals cannot change it on the fly. -/
def Allowed (root : DynamicIoRoot) : DynamicAction → Prop
  | .setNetworkName _ => ∀ networks, root.droot = some networks → ∀ dnetwork ∈ networks,
      ∀ mblk ∈ root.mblks, mblk.id ∈ dnetwork.shortcuts → ¬unnamed mblk.names.networkName
  | _ => True

theorem Valid.releaseMblk (h : root.Valid) (mblk : NamedMblk) :
    Valid { root with
      mblks := root.mblks.filter fun other => decide (other.id ≠ mblk.id)
      droot := root.droot.map fun networks =>
        removeEmpty mblk.names.networkName
          (updateNetwork mblk.names.networkName (mblkIsDeleted root.mblks mblk) networks) } where
  lt_nextId other hmem := h.lt_nextId other (List.mem_of_mem_filter hmem)
  unique other hmem other' hmem' hsame :=
    h.unique other (List.mem_of_mem_filter hmem) other' (List.mem_of_mem_filter hmem') hsame
  leadsHome networks hdroot dnetwork hmem := by
    obtain ⟨before, hbefore, rfl⟩ := Option.map_eq_some_iff.mp hdroot
    have hhome : dnetwork.LeadsHome root.mblks root.nextId := by
      refine leadsHome_updateNetwork (h.leadsHome before hbefore) (fun old _ hold => ?_)
        dnetwork (List.mem_of_mem_eraseP hmem)
      exact hold.of_subset rfl fun id hid => List.mem_of_mem_filter hid
    exact fun id hid => ⟨(hhome id hid).1, fun other hother hsame =>
      (hhome id hid).2 other (List.mem_of_mem_filter hother) hsame⟩

theorem Valid.setNetworkName (h : root.Valid) {networkName : List Char}
    (hallowed : root.Allowed (.setNetworkName networkName)) :
    (root.step (.setNetworkName networkName)).Valid := by
  have hback : ∀ mblk ∈ (root.step (.setNetworkName networkName)).mblks,
      ∃ old ∈ root.mblks, mblk.id = old.id ∧
        (mblk = if unnamed old.names.networkName then
          { old with names.networkName := networkName } else old) := by
    intro mblk hmem
    obtain ⟨old, hold, rfl⟩ := List.mem_map.mp hmem
    refine ⟨old, hold, ?_, rfl⟩
    split_ifs <;> rfl
  refine ⟨fun mblk hmem => ?_, fun mblk hmem other hother hsame => ?_,
    fun networks hdroot dnetwork hdnetwork id hid => ?_⟩
  · obtain ⟨old, hold, hid, -⟩ := hback mblk hmem
    rw [hid]
    exact h.lt_nextId old hold
  · obtain ⟨old, hold, hid, rfl⟩ := hback mblk hmem
    obtain ⟨old', hold', hid', rfl⟩ := hback other hother
    rw [h.unique old hold old' hold' (hid.symm.trans (hsame.trans hid'))]
  · have hhome := h.leadsHome networks hdroot dnetwork hdnetwork id hid
    refine ⟨hhome.1, fun mblk hmem hsame => ?_⟩
    obtain ⟨old, hold, hsame', rfl⟩ := hback mblk hmem
    have hold_id : old.id = id := hsame'.symm.trans hsame
    have hnamed := hallowed networks hdroot dnetwork hdnetwork old hold (hold_id ▸ hid)
    rw [if_neg hnamed]
    exact hhome.2 old hold hold_id

theorem Valid.step (h : root.Valid) {action : DynamicAction} (hallowed : root.Allowed action) :
    (root.step action).Valid := by
  cases action with
  | initializeDroot =>
      exact ⟨h.lt_nextId, h.unique, fun networks hdroot dnetwork hmem => by
        obtain rfl := Option.some.inj hdroot
        cases hmem⟩
  | newMblk names => exact h.newMblk names
  | mbinfoReceived names =>
      have hnew := h.newMblk names
      have hself : (⟨root.nextId, names⟩ : NamedMblk) ∈ (root.newMblk names).mblks :=
        List.mem_append_right _ (List.mem_singleton_self _)
      exact hnew.withNetwork fun dnetwork hname hhome =>
        shortcutTo_leadsHome (hnew.lt_nextId _ hself)
          (fun other hother hsame => hnew.unique other hother _ hself hsame) hname.symm hhome
  | addDynamicInfo id signals complete =>
      unfold DynamicIoRoot.step
      dsimp only
      split
      · exact h
      next mblk hfind =>
        have hmblk := List.mem_of_find?_eq_some hfind
        refine h.withNetwork fun dnetwork hname hhome => ?_
        obtain ⟨hsignals, hshortcuts⟩ := addSignals_keep signals dnetwork
        have hadded := hhome.of_subset hsignals fun id hid => hshortcuts ▸ hid
        cases complete with
        | false => exact hadded
        | true =>
            exact shortcutTo_leadsHome (h.lt_nextId mblk hmblk)
              (fun other hother hsame => h.unique other hother mblk hmblk hsame)
              (hname.symm.trans hsignals.symm) hadded
  | setupSignal ids signal => exact (h.setupSignalByIdentifiers ids signal).1
  | findMblk names =>
      refine ⟨h.lt_nextId, h.unique, fun networks hdroot => ?_⟩
      obtain ⟨before, hbefore, rfl⟩ := Option.map_eq_some_iff.mp hdroot
      refine leadsHome_updateNetwork (h.leadsHome before hbefore) fun dnetwork _ hhome => ?_
      exact hhome.of_subset rfl (findMblkShortcut_spec root.mblks names.mblkName
        names.deviceName names.deviceNr dnetwork.shortcuts).1
  | releaseMblk id =>
      unfold DynamicIoRoot.step
      dsimp only
      split
      · exact h
      next mblk hfind =>
        have hid : decide (mblk.id = id) = true := by simpa using List.find?_some hfind
        rw [← of_decide_eq_true hid]
        exact h.releaseMblk mblk
  | setNetworkName networkName => exact h.setNetworkName hallowed

def Next (root root' : DynamicIoRoot) : Prop :=
  ∃ action, root.Allowed action ∧ root' = root.step action

def Initial (root : DynamicIoRoot) : Prop := ∃ networkName, root = initial networkName

theorem valid_of_reachable (h : TransitionSystem.Reachable Initial Next root) : root.Valid := by
  refine h.invariant _ ?_ ?_
  · rintro _ ⟨networkName, rfl⟩
    exact initial_valid networkName
  · rintro root _ hvalid ⟨action, hallowed, rfl⟩
    exact hvalid.step hallowed

end DynamicIoRoot

/-! ## The network which is searched -/

section

variable (equalsNull : List Char → Bool) (sizes : IoNameSizes) (networkName : List Char)

/-- The network which is requested if it has the same top level network, and otherwise the
one of the caller. -/
def confinedTo (requested : List Char) : List Char :=
  if topnet requested = topnet networkName then requested else networkName

/-- When the comparison of the top level networks works: a requested network without a dot
has no `req_topnet`. -/
def ComparesTopnet (requested : List Char) : Prop :=
  if topnet requested = topnet networkName then
    '.' ∈ requested ∨ equalsNull (topnet networkName) = true ∨
      osStrncpy networkName sizes.networkName = requested
  else
    networkName.length < sizes.networkName ∧
      ('.' ∈ requested ∨ equalsNull (topnet networkName) = false)

variable {equalsNull sizes networkName}

theorem behindDot_eq_none_iff {name : List Char} : behindDot name = none ↔ '.' ∉ name := by
  unfold behindDot
  cases hrest : name.dropWhile (· ≠ '.') with
  | nil =>
      refine iff_of_true rfl fun hmem => ?_
      exact absurd (List.dropWhile_eq_nil_iff.mp hrest '.' hmem) (by decide)
  | cons c rest =>
      refine iff_of_false (Option.some_ne_none rest) fun hnot => ?_
      have hall : ∀ d ∈ name, decide (d ≠ '.') = true := fun d hd =>
        decide_eq_true fun heq => hnot (heq ▸ hd)
      rw [List.dropWhile_eq_nil_iff.mpr hall] at hrest
      cases hrest

theorem osStrncpy_eq_self_iff {src : List Char} {sz : ℕ} (hne : src ≠ []) :
    osStrncpy src sz = src ↔ src.length < sz := by
  unfold osStrncpy
  rw [List.take_eq_self_iff]
  have hpos := List.length_pos_of_ne_nil hne
  omega

theorem confineNetwork_eq_iff (hne : networkName ≠ []) (ids : IoIdentifiers) :
    (confineNetwork equalsNull sizes networkName ids).networkName =
        confinedTo networkName ids.networkName ↔
      ComparesTopnet equalsNull sizes networkName ids.networkName := by
  unfold confineNetwork confinedTo ComparesTopnet
  rw [if_neg hne]
  cases hdot : behindDot ids.networkName with
  | some reqTopnet =>
      have hmem : '.' ∈ ids.networkName := by
        by_contra hnot
        rw [behindDot_eq_none_iff.mpr hnot] at hdot
        cases hdot
      have htop : topnet ids.networkName = reqTopnet := by
        unfold topnet
        rw [hdot, Option.getD_some]
      rw [htop]
      dsimp only
      by_cases hsame : reqTopnet = topnet networkName
      · rw [if_pos hsame, if_pos hsame, decide_eq_true hsame.symm]
        exact iff_of_true rfl (Or.inl hmem)
      · rw [if_neg hsame, if_neg hsame, decide_eq_false (Ne.symm hsame)]
        exact (osStrncpy_eq_self_iff hne).trans ⟨fun h => ⟨h, Or.inl hmem⟩, fun h => h.1⟩
  | none =>
      have hmem := behindDot_eq_none_iff.mp hdot
      have htop : topnet ids.networkName = ids.networkName := by
        unfold topnet
        rw [hdot, Option.getD_none]
      rw [htop]
      dsimp only
      cases hnull : equalsNull (topnet networkName) with
      | true =>
          rw [if_pos rfl]
          by_cases hsame : ids.networkName = topnet networkName
          · rw [if_pos hsame, if_pos hsame]
            exact iff_of_true rfl (Or.inr (Or.inl rfl))
          · rw [if_neg hsame, if_neg hsame]
            refine iff_of_false (fun heq => ?_) fun h => ?_
            · -- without a dot the name of the caller would be its own top level network
              rw [heq] at htop hsame
              exact hsame htop.symm
            · rcases h.2 with h | h
              · exact hmem h
              · cases h
      | false =>
          rw [if_neg Bool.false_ne_true]
          by_cases hsame : ids.networkName = topnet networkName
          · rw [if_pos hsame, if_pos hsame]
            refine ⟨fun h => Or.inr (Or.inr h), fun h => ?_⟩
            rcases h with h | h | h
            · exact absurd h hmem
            · cases h
            · exact h
          · rw [if_neg hsame, if_neg hsame]
            exact (osStrncpy_eq_self_iff hne).trans ⟨fun h => ⟨h, Or.inr rfl⟩, fun h => h.1⟩

theorem topnet_confinedTo (requested : List Char) :
    topnet (confinedTo networkName requested) = topnet networkName := by
  unfold confinedTo
  split_ifs with hsame
  · exact hsame
  · rfl

/-- In every reachable state `ioc_setup_signal` searches the network to which the path is
confined, and binds the signal to a block of this network only, if and only if it compares
the top level networks rightly. -/
theorem setupSignal_confined_iff {root : DynamicIoRoot}
    (hroot : TransitionSystem.Reachable DynamicIoRoot.Initial DynamicIoRoot.Next root)
    (hne : networkName ≠ []) (iopath : Option (List Char)) (signal : BoundSignal) :
    let ids := ioPathToIdentifiers sizes root.networkName iopath .signal
    let after := (root.setupSignal equalsNull sizes iopath networkName signal).2
    ((confineNetwork equalsNull sizes networkName ids).networkName =
        confinedTo networkName ids.networkName ∧
      (after.handle = signal.handle ∨ ∃ mblk ∈ root.mblks, after.handle = some mblk.id ∧
        mblk.names.networkName = confinedTo networkName ids.networkName ∧
        topnet mblk.names.networkName = topnet networkName)) ↔
      ComparesTopnet equalsNull sizes networkName ids.networkName := by
  intro ids after
  rw [confineNetwork_eq_iff hne]
  refine ⟨fun h => h.1, fun hcompares => ⟨hcompares, ?_⟩⟩
  have hsearched := (confineNetwork_eq_iff hne ids).mpr hcompares
  have hbound := ((DynamicIoRoot.valid_of_reachable hroot).setupSignalByIdentifiers
    (confineNetwork equalsNull sizes networkName ids) signal).2
  rcases hbound with hsame | ⟨mblk, hmblk, hhandle, hname⟩
  · exact Or.inl hsame
  · rw [hsearched] at hname
    exact Or.inr ⟨mblk, hmblk, hhandle, hname, by rw [hname, topnet_confinedTo]⟩

end

/-- An `os_strcmp` to which `OS_NULL` is an empty string. -/
def nullIsEmpty (text : List Char) : Bool := decide (text = [])

def lampNames : MblkNames where
  networkName := "lab.cafenet".toList
  deviceName := "tea".toList
  deviceNr := 1
  mblkName := "exp".toList

def lampSignal : NetworkSignal where
  signalName := "light".toList
  mblkName := "exp".toList
  deviceName := "tea".toList
  deviceNr := 1
  addr := 0
  n := 1
  flags := 0

def lampRoot : DynamicIoRoot :=
  (((DynamicIoRoot.initial "cafenet".toList).step .initializeDroot).step
    (.mbinfoReceived lampNames)).step (.addDynamicInfo 0 [lampSignal] true)

theorem lampRoot_reachable :
    TransitionSystem.Reachable DynamicIoRoot.Initial DynamicIoRoot.Next lampRoot := by
  have hstart : TransitionSystem.Reachable DynamicIoRoot.Initial DynamicIoRoot.Next
      (DynamicIoRoot.initial "cafenet".toList) := .start ⟨_, rfl⟩
  have hdroot := hstart.next ⟨.initializeDroot, trivial, rfl⟩
  have hmblk := hdroot.next ⟨.mbinfoReceived lampNames, trivial, rfl⟩
  exact hmblk.next ⟨.addDynamicInfo 0 [lampSignal] true, trivial, rfl⟩

def newSignal : BoundSignal where
  addr := 0
  n := 0
  flags := 0
  handle := none

/-- The top level network itself is requested from one of its networks, and not used. -/
theorem requested_topnet_not_used :
    let ids := ioPathToIdentifiers ioNameSizes lampRoot.networkName
      (some "light.exp.tea1.cafenet".toList) .signal
    topnet ids.networkName = topnet "lab.cafenet".toList ∧
      (confineNetwork nullIsEmpty ioNameSizes "lab.cafenet".toList ids).networkName ≠
        ids.networkName ∧
      (lampRoot.setupSignal nullIsEmpty ioNameSizes (some "light.exp.tea1.cafenet".toList)
        "lab.cafenet".toList newSignal).2.handle = some 0 ∧
      lampRoot.mblks = [⟨0, lampNames⟩] ∧ lampNames.networkName ≠ ids.networkName := by
  decide +kernel

/-- A network of the same top level network, and one of another. -/
theorem setupSignal_confined_lab :
    (lampRoot.setupSignal nullIsEmpty ioNameSizes (some "light.exp.tea1.lab.cafenet".toList)
        "shop.cafenet".toList newSignal).2.handle = some 0 ∧
      let ids := ioPathToIdentifiers ioNameSizes lampRoot.networkName
        (some "light.exp.tea1.lab.cafenet".toList) .signal
      let after := (lampRoot.setupSignal nullIsEmpty ioNameSizes
        (some "light.exp.tea1.lab.cafenet".toList) "shop.cafenet".toList newSignal).2
      (confineNetwork nullIsEmpty ioNameSizes "shop.cafenet".toList ids).networkName =
          confinedTo "shop.cafenet".toList ids.networkName ∧
        (after.handle = newSignal.handle ∨ ∃ mblk ∈ lampRoot.mblks,
          after.handle = some mblk.id ∧
          mblk.names.networkName = confinedTo "shop.cafenet".toList ids.networkName ∧
          topnet mblk.names.networkName = topnet "shop.cafenet".toList) :=
  ⟨by decide +kernel,
    (setupSignal_confined_iff lampRoot_reachable (by decide) _ newSignal).mpr (by
      unfold ComparesTopnet
      decide +kernel)⟩

end Iocom
