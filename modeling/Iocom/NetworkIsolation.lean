import Iocom.BlockIdentifiers
import Iocom.InfoSending

/-!
# Isolation of networks

A listening, secured connection of a root with an authorization function.  Its
user may access the networks in the list of allowed networks, which every
authentication message sets anew.  What a received frame changes, and what is
sent, is to belong to these networks.
-/

namespace Iocom

structure NamedRoot where
  networkName : String
  root : Root
  requests : ℕ → List (List ℤ)

structure SecuredConnection where
  id : ℕ
  connectUp : Bool
  cloudConnection : Bool
  bidirectionalMblks : Bool
  dynamicMblks : Bool
  security : ConnectionSecurity
  authenticationSent : Bool
  authenticationReceived : Bool
  isOpen : Bool

def SecuredConnection.link (con : SecuredConnection) : ConnectionLink :=
  ⟨con.id, con.connectUp⟩

def SecuredConnection.authorizes (con : SecuredConnection) (networkName : String) : Bool :=
  con.security.isNetworkAuthorized networkName 0

/-! ## Received frames -/

/-- What `ioc_process_received_authentication_message` reads from a message;
`complete` if its strings could be read. -/
structure AuthenticationMessage where
  connectUp : Bool
  bidirectionalCom : Bool
  cloudCon : Bool
  networkName : String
  complete : Bool

/-- `ioc_set_network_name`. -/
def Root.setNetworkName (root : Root) (networkName : String) : Root :=
  { root with
    mblks := root.mblks.map fun block =>
      if block.name.networkName = "*" ∨ block.name.networkName = "" then
        { block with name := { block.name with networkName := networkName } }
      else block }

def SecuredConnection.setFlags (con : SecuredConnection) (msg : AuthenticationMessage) :
    SecuredConnection :=
  { con with
    connectUp := if con.security.listener then !msg.connectUp else con.connectUp
    bidirectionalMblks :=
      if con.security.listener then msg.bidirectionalCom else con.bidirectionalMblks
    cloudConnection := con.cloudConnection || msg.cloudCon }

/-- The end of `ioc_process_received_authentication_message`. -/
def NamedRoot.acceptAuthentication (s : NamedRoot) (msg : AuthenticationMessage) :
    NamedRoot :=
  if s.networkName = "*" ∨ s.networkName = "" then
    { s with networkName := msg.networkName, root := s.root.setNetworkName msg.networkName }
  else s

/-- `ioc_process_received_authentication_message`, with what the authorization
function returns: whether the user is accepted, and the allowed networks.  A
message which is not accepted closes the connection. -/
def processReceivedAuthenticationMessage (s : NamedRoot) (con : SecuredConnection)
    (msg : AuthenticationMessage) (accepted : Bool) (networks : List AllowedNetwork) :
    NamedRoot × SecuredConnection :=
  let flagged := con.setFlags msg
  if !msg.complete then (s, { flagged with isOpen := false })
  else if con.security.authorizationFunc && con.security.listener &&
      con.security.secureConnection then
    let authorized :=
      { flagged with security := { con.security with allowedNetworks := networks } }
    if !accepted then (s, { authorized with isOpen := false })
    else (s.acceptAuthentication msg, { authorized with authenticationReceived := true })
  else (s.acceptAuthentication msg, { flagged with authenticationReceived := true })

/-- The position of the block which a remove request from the connection names:
its target buffers are searched first. -/
def Root.requested (root : Root) (con : ℕ) (mblkId : ℤ) : Option ℕ :=
  (root.mblks.findIdx? fun block =>
      decide (mblkId = block.mblk.mblkId) &&
        block.tbufs.any fun tbuf => decide (tbuf.clink.con = con)).or
    (root.mblks.findIdx? fun block =>
      decide (mblkId = block.mblk.mblkId) &&
        block.sbufs.any fun sbuf => decide (sbuf.clink.con = con))

/-- `ioc_remove_mblk_by_request`. -/
def NamedRoot.removeMblkByRequest (s : NamedRoot) (con : SecuredConnection) (pos : ℕ) :
    NamedRoot :=
  match s.root.mblks[pos]? with
  | none => s
  | some block =>
      if !con.authorizes block.name.networkName then s
      else
        { s with
          root := s.root.releaseMemoryBlock pos
          requests := block.generateDelMblkRequest none s.requests }

/-- `IOC_PACK_ABS_MAX_REQUESTS`. -/
def packAbsMaxRequests : ℕ := 16

/-- `ioc_process_remove_mblk_req_frame`, with the identifiers which are read from
the frame. -/
def NamedRoot.processRemoveMblkReqFrame (s : NamedRoot) (con : SecuredConnection)
    (ids : List ℤ) : NamedRoot :=
  if ids.length < 1 ∨ packAbsMaxRequests < ids.length then s
  else
    ids.foldl
      (fun s id =>
        match s.root.requested con.id id with
        | none => s
        | some pos => s.removeMblkByRequest con pos) s

/-- `ioc_process_received_data_frame`: the network of the block is checked
before the data is stored. -/
def NamedRoot.processReceivedDataFrame (s : NamedRoot) (con : SecuredConnection)
    (frame : Frame) : NamedRoot :=
  match s.root.mblks[s.root.addressed con.id frame.mblkId]? with
  | none => s
  | some block =>
      { s with
        root :=
          s.root.processReceivedDataFrame con.id (con.authorizes block.name.networkName)
            frame }

/-- `ioc_mbinfo_received`. -/
def NamedRoot.mbinfoReceived (s : NamedRoot) (con : SecuredConnection)
    (info : MemoryBlockInfo) (draws : List ℕ) (fresh : Mem) (newbuf : Option Mem) :
    NamedRoot :=
  { s with
    root :=
      s.root.mbinfoReceived con.link
        { authorized := con.authorizes info.name.networkName
          dynamicMblks := con.dynamicMblks
          bidirectionalMblks := con.bidirectionalMblks } info draws fresh newbuf }

/-- Frames by what they are processed as; `other` is an acknowledgement, a
system frame of unknown type or a frame which cannot be decoded. -/
inductive ReceivedContent where
  | mbinfo (info : MemoryBlockInfo) (draws : List ℕ) (fresh : Mem) (newbuf : Option Mem)
  | authentication (msg : AuthenticationMessage) (accepted : Bool)
      (networks : List AllowedNetwork)
  | removeMblkReq (ids : List ℤ)
  | data (frame : Frame)
  | other

def processReceivedFrame (s : NamedRoot) (con : SecuredConnection) :
    ReceivedContent → NamedRoot × SecuredConnection
  | .mbinfo info draws fresh newbuf => (s.mbinfoReceived con info draws fresh newbuf, con)
  | .authentication msg accepted networks =>
      processReceivedAuthenticationMessage s con msg accepted networks
  | .removeMblkReq ids => (s.processRemoveMblkReqFrame con ids, con)
  | .data frame => (s.processReceivedDataFrame con frame, con)
  | .other => (s, con)

/-! ## What a frame may change -/

structure LinkedBlock.Unchanged (block block' : LinkedBlock) : Prop where
  mblk : block'.mblk = block.mblk
  dynamic : block'.dynamic = block.dynamic
  sbufs : block'.sbufs = block.sbufs
  tbufs : block'.tbufs = block.tbufs

/-- The blocks in networks which the user of the connection may not access. -/
def NamedRoot.outside (s : NamedRoot) (con : SecuredConnection) : List LinkedBlock :=
  s.root.mblks.filter fun block => !con.authorizes block.name.networkName

section Outside

variable {α : Type*} {p : α → Bool}

theorem filter_modify_of_not {xs : List α} {pos : ℕ} {f : α → α}
    (h : ∀ x, xs[pos]? = some x → p x = false ∧ p (f x) = false) :
    (xs.modify pos f).filter p = xs.filter p := by
  induction xs generalizing pos with
  | nil => rw [List.modify_nil]
  | cons x xs ih =>
      cases pos with
      | zero =>
          obtain ⟨hx, hfx⟩ := h x rfl
          rw [List.modify_zero_cons, List.filter_cons_of_neg (by rw [hfx]; decide),
            List.filter_cons_of_neg (by rw [hx]; decide)]
      | succ pos =>
          have hrest := @ih pos fun y hy => h y hy
          rw [List.modify_succ_cons, List.filter_cons, List.filter_cons, hrest]

theorem filter_eraseIdx_of_not {xs : List α} {pos : ℕ}
    (h : ∀ x, xs[pos]? = some x → p x = false) :
    (xs.eraseIdx pos).filter p = xs.filter p := by
  induction xs generalizing pos with
  | nil => rw [List.eraseIdx_nil]
  | cons x xs ih =>
      cases pos with
      | zero => rw [List.eraseIdx_cons_zero, List.filter_cons_of_neg (by rw [h x rfl]; decide)]
      | succ pos =>
          have hrest := @ih pos fun y hy => h y hy
          rw [List.eraseIdx_cons_succ, List.filter_cons, List.filter_cons, hrest]

end Outside

section Received

variable {s : NamedRoot} {con : SecuredConnection}

theorem LinkedBlock.resizeMblk_name (block : LinkedBlock) (nbytes : ℤ) (disconnect : Bool)
    (newbuf : Option Mem) : (block.resizeMblk nbytes disconnect newbuf).2.name = block.name := by
  unfold LinkedBlock.resizeMblk
  split_ifs
  · rfl
  · rfl
  · rfl
  · cases newbuf <;> rfl
  · cases newbuf <;> rfl

theorem LinkedBlock.link_name (block : LinkedBlock) (con : ConnectionLink)
    (bidirectionalMblks : Bool) (info : MemoryBlockInfo) :
    (block.link con bidirectionalMblks info).name = block.name := by
  have hrule := @LinkedBlock.link_rule (fun b => b.name = block.name) block con
    bidirectionalMblks info rfl
  refine hrule (fun b flag hb => ?_) (fun b flag hb => ?_)
  · unfold LinkedBlock.mbinfoNewSbuf
    split_ifs <;> exact hb
  · unfold LinkedBlock.mbinfoNewTbuf
    split_ifs <;> exact hb

/-- A block which a received info creates is found by its name. -/
theorem Root.created_name {root : Root} {info : MemoryBlockInfo} {draws : List ℕ}
    {fresh : Mem} {block : LinkedBlock}
    (hnone : ¬root.findBlock info.name < root.mblks.length)
    (hblock : (root.initializeMemoryBlock info.params draws fresh).mblks[
      root.findBlock info.name]? = some block) : block.name = info.name := by
  have hlength : root.findBlock info.name = root.mblks.length := by
    have hle : root.findBlock info.name ≤ root.mblks.length := List.findIdx_le_length
    omega
  rw [hlength] at hblock
  simp only [Root.initializeMemoryBlock, List.getElem?_append_right (Nat.le_refl _),
    Nat.sub_self, List.getElem?_cons_zero, Option.some.injEq] at hblock
  subst block
  rfl

theorem NamedRoot.mbinfoReceived_outside (info : MemoryBlockInfo) (draws : List ℕ)
    (fresh : Mem) (newbuf : Option Mem) :
    (s.mbinfoReceived con info draws fresh newbuf).outside con = s.outside con := by
  unfold NamedRoot.mbinfoReceived Root.mbinfoReceived NamedRoot.outside
  cases hauthorized : con.authorizes info.name.networkName with
  | false => rfl
  | true =>
      dsimp only
      rw [if_neg (by decide)]
      -- The block with the name of the info is in an authorized network.
      have hmodify : ∀ blocks : List LinkedBlock,
          (∀ block, blocks[s.root.findBlock info.name]? = some block →
            block.name = info.name) →
          ((blocks.modify (s.root.findBlock info.name) fun block =>
              (block.resizeMblk info.nbytes false newbuf).2.link con.link
                con.bidirectionalMblks info).filter fun block =>
                  !con.authorizes block.name.networkName) =
            blocks.filter fun block => !con.authorizes block.name.networkName := by
        intro blocks hnamed
        apply filter_modify_of_not
        intro block hblock
        rw [LinkedBlock.link_name, LinkedBlock.resizeMblk_name, hnamed block hblock,
          hauthorized]
        exact ⟨rfl, rfl⟩
      by_cases hfound : s.root.findBlock info.name < s.root.mblks.length
      · rw [if_pos hfound]
        exact hmodify s.root.mblks fun block hblock => Root.findBlock_name hblock
      · rw [if_neg hfound]
        cases con.dynamicMblks with
        | false => exact hmodify s.root.mblks fun block hblock => Root.findBlock_name hblock
        | true =>
            rw [if_pos rfl, hmodify]
            · unfold Root.initializeMemoryBlock
              dsimp only
              rw [List.filter_append, List.filter_cons_of_neg, List.filter_nil,
                List.append_nil]
              change ¬(!con.authorizes info.name.networkName) = true
              rw [hauthorized]
              decide
            · exact fun block hblock => Root.created_name hfound hblock

theorem NamedRoot.removeMblkByRequest_outside (pos : ℕ) :
    (s.removeMblkByRequest con pos).outside con = s.outside con := by
  unfold NamedRoot.removeMblkByRequest
  cases hblock : s.root.mblks[pos]? with
  | none => rfl
  | some block =>
      dsimp only
      cases hauthorized : con.authorizes block.name.networkName with
      | false => rfl
      | true =>
          rw [if_neg (by decide)]
          apply filter_eraseIdx_of_not
          intro other hother
          rw [hblock] at hother
          cases hother
          rw [hauthorized]
          rfl

theorem NamedRoot.processRemoveMblkReqFrame_outside (ids : List ℤ) :
    (s.processRemoveMblkReqFrame con ids).outside con = s.outside con := by
  unfold NamedRoot.processRemoveMblkReqFrame
  split_ifs with hlength
  · rfl
  · clear hlength
    induction ids generalizing s with
    | nil => rfl
    | cons id ids ih =>
        rw [List.foldl_cons, ih]
        cases s.root.requested con.id id with
        | none => rfl
        | some pos => exact NamedRoot.removeMblkByRequest_outside pos

theorem NamedRoot.processReceivedDataFrame_outside (frame : Frame) :
    (s.processReceivedDataFrame con frame).outside con = s.outside con := by
  unfold NamedRoot.processReceivedDataFrame
  cases hblock : s.root.mblks[s.root.addressed con.id frame.mblkId]? with
  | none => rfl
  | some block =>
      dsimp only
      unfold Root.processReceivedDataFrame
      cases hauthorized : con.authorizes block.name.networkName with
      | false => rfl
      | true =>
          rw [if_neg (by decide)]
          apply filter_modify_of_not
          intro other hother
          rw [hblock] at hother
          cases hother
          rw [hauthorized]
          exact ⟨rfl, rfl⟩

/-- An authentication message changes nothing but names of the blocks. -/
theorem processReceivedAuthenticationMessage_unchanged (msg : AuthenticationMessage)
    (accepted : Bool) (networks : List AllowedNetwork) :
    List.Forall₂ LinkedBlock.Unchanged s.root.mblks
      (processReceivedAuthenticationMessage s con msg accepted networks).1.root.mblks := by
  have hsame : ∀ blocks : List LinkedBlock,
      List.Forall₂ LinkedBlock.Unchanged blocks blocks :=
    fun blocks => List.forall₂_same.mpr fun _ _ => ⟨rfl, rfl, rfl, rfl⟩
  have haccept : List.Forall₂ LinkedBlock.Unchanged s.root.mblks
      (s.acceptAuthentication msg).root.mblks := by
    unfold NamedRoot.acceptAuthentication Root.setNetworkName
    split_ifs
    · rw [List.forall₂_map_right_iff]
      refine List.forall₂_same.mpr fun block _ => ?_
      split_ifs <;> exact ⟨rfl, rfl, rfl, rfl⟩
    · exact hsame _
  unfold processReceivedAuthenticationMessage
  dsimp only
  split_ifs
  · exact hsame _
  · exact hsame _
  · exact haccept
  · exact haccept

end Received

/-! ## Runs -/

/-- What happens on the connection, with the network of the block of which a
frame has been made. -/
inductive IsolationEvent where
  | received (content : ReceivedContent)
  | infoMade (networkName : String)
  | dataMade (networkName : String)
  | environment

def RootAction.IsForeign (id : ℕ) : RootAction → Prop
  | .mbinfoReceived con _ _ _ _ _ => con.con ≠ id
  | .dataFrameReceived con _ _ => con ≠ id
  | .connectionClosed con => con ≠ id
  | _ => True

inductive IsolationStep :
    NamedRoot × SecuredConnection → IsolationEvent → NamedRoot × SecuredConnection → Prop
  | receive (s : NamedRoot) (con : SecuredConnection) (content : ReceivedContent)
      (hopen : con.isOpen = true) :
      IsolationStep (s, con) (.received content) (processReceivedFrame s con content)
  | makeAuthentication (s : NamedRoot) (con : SecuredConnection) (hopen : con.isOpen = true) :
      IsolationStep (s, con) .environment (s, { con with authenticationSent := true })
  | makeInfo (s : NamedRoot) (con : SecuredConnection) (cursors : InfoConnection)
      (mblk : InfoBlock) (hopen : con.isOpen = true)
      (hauthenticated : con.authenticationSent = true ∧ con.authenticationReceived = true)
      (hsecurity : cursors.security = con.security)
      (hget : (InfoConnection.getMbinfoToSend cursors.infoBound cursors).1 = some mblk) :
      IsolationStep (s, con) (.infoMade mblk.networkName) (s, con)
  | makeData (s : NamedRoot) (con : SecuredConnection) (pos index : ℕ) (block : LinkedBlock)
      (sbuf : SourceBuffer) (frameCon : Connection)
      (hopen : con.isOpen = true)
      (hauthenticated : con.authenticationSent = true ∧ con.authenticationReceived = true)
      (hblock : s.root.mblks[pos]? = some block) (hsbuf : block.sbufs[index]? = some sbuf)
      (hcon : sbuf.clink.con = con.id)
      (hused : sbuf.syncbuf.used = true ∧ sbuf.remoteMblkId ≠ 0)
      (hmake : (Iocom.makeDataFrame frameCon block.mblk sbuf).isSome = true) :
      IsolationStep (s, con) (.dataMade block.name.networkName)
        ({ s with root := s.root.step (.makeDataFrame pos index frameCon) }, con)
  | environment (s : NamedRoot) (con : SecuredConnection) (action : RootAction)
      (hforeign : action.IsForeign con.id) :
      IsolationStep (s, con) .environment ({ s with root := s.root.step action }, con)
  | close (s : NamedRoot) (con : SecuredConnection) :
      IsolationStep (s, con) .environment
        ({ s with root := s.root.freeSourceAndTargetBufs con.id },
          { con with isOpen := false })

/-- What an event changes and sends belongs to the networks which the user of
the connection may access. -/
def Isolated (s : NamedRoot) (con : SecuredConnection) (s' : NamedRoot) : IsolationEvent → Prop
  | .received _ =>
      s'.outside con = s.outside con ∨
        List.Forall₂ LinkedBlock.Unchanged s.root.mblks s'.root.mblks
  | .infoMade networkName => con.authorizes networkName = true
  | .dataMade networkName => con.authorizes networkName = true
  | .environment => True

/-- A secured connection has been opened. -/
structure IsolationStart (s : NamedRoot) (con : SecuredConnection) : Prop where
  secured : con.security.authorizationFunc = true ∧ con.security.listener = true ∧
    con.security.secureConnection = true
  unlinked : ∀ block ∈ s.root.mblks,
    (∀ sbuf ∈ block.sbufs, sbuf.clink.con ≠ con.id) ∧
      ∀ tbuf ∈ block.tbufs, tbuf.clink.con ≠ con.id

/-- An accepted authentication message takes no network away of which the
connection has a source buffer. -/
def IsolationEvent.KeepsSources (s : NamedRoot) (con : SecuredConnection) :
    IsolationEvent → Prop
  | .received (.authentication msg accepted networks) =>
      msg.complete = true → accepted = true →
        ∀ block ∈ (s.acceptAuthentication msg).root.mblks, ∀ sbuf ∈ block.sbufs,
          sbuf.clink.con = con.id → isNetworkAllowed networks block.name.networkName 0 = true
  | _ => True

def CarefulStep (x y : NamedRoot × SecuredConnection) : Prop :=
  ∃ e : IsolationEvent, IsolationStep x e y ∧ e.KeepsSources x.1 x.2

/-! ## Source buffers of a connection -/

def Root.SourcesIn (P : BlockName → ℕ → Prop) (root : Root) : Prop :=
  ∀ block ∈ root.mblks, ∀ sbuf ∈ block.sbufs, P block.name sbuf.clink.con

section Sources

variable {P : BlockName → ℕ → Prop}

theorem sources_map {name : BlockName} {sbufs : List SourceBuffer}
    {f : SourceBuffer → SourceBuffer} (h : ∀ sbuf ∈ sbufs, P name sbuf.clink.con)
    (hf : ∀ sbuf, (f sbuf).clink = sbuf.clink) :
    ∀ sbuf ∈ sbufs.map f, P name sbuf.clink.con := by
  intro sbuf hsbuf
  obtain ⟨old, hold, rfl⟩ := List.mem_map.mp hsbuf
  rw [hf old]
  exact h old hold

theorem sources_receive {name : BlockName} (mblk : MemoryBlock) {sbufs : List SourceBuffer}
    (tbufs : List TargetBuffer) (h : ∀ sbuf ∈ sbufs, P name sbuf.clink.con) :
    ∀ sbuf ∈ (Iocom.receive mblk sbufs tbufs).2.1, P name sbuf.clink.con := by
  induction tbufs generalizing mblk sbufs with
  | nil => exact h
  | cons tbuf tbufs ih =>
      unfold Iocom.receive
      split
      · exact h
      · apply ih
        unfold receiveTargetBuffer
        split
        · apply sources_map h
          intro sbuf
          split
          · exact (sbuf.echo_link _ _).2
          · exact (sbuf.invalidate_link _ _ _).2
        · exact h

theorem sources_link {block : LinkedBlock}
    (h : ∀ sbuf ∈ block.sbufs, P block.name sbuf.clink.con) (con : ConnectionLink)
    (bidirectionalMblks : Bool) {info : MemoryBlockInfo} (hnew : P block.name con.con) :
    ∀ sbuf ∈ (block.link con bidirectionalMblks info).sbufs,
      P (block.link con bidirectionalMblks info).name sbuf.clink.con := by
  have hrule := @LinkedBlock.link_rule
    (fun b => b.name = block.name ∧ ∀ sbuf ∈ b.sbufs, P b.name sbuf.clink.con) block con
    bidirectionalMblks info ⟨rfl, h⟩
  refine (hrule ?_ ?_).2
  · rintro b flag ⟨hname, hb⟩
    unfold LinkedBlock.mbinfoNewSbuf
    split
    · exact ⟨hname, hb⟩
    · refine ⟨hname, fun sbuf hsbuf => ?_⟩
      rcases List.mem_append.mp hsbuf with hold | hlinked
      · exact hb sbuf hold
      · obtain rfl := List.mem_singleton.mp hlinked
        rw [(SourceBuffer.synchronize_link _ _).2, (initializeSourceBuffer_link _ _ _ _).2]
        dsimp only
        rw [hname]
        exact hnew
  · rintro b flag ⟨hname, hb⟩
    unfold LinkedBlock.mbinfoNewTbuf
    split
    · exact ⟨hname, hb⟩
    · exact ⟨hname, hb⟩

theorem sources_resizeMblk {block : LinkedBlock}
    (h : ∀ sbuf ∈ block.sbufs, P block.name sbuf.clink.con) (nbytes : ℤ)
    (newbuf : Option Mem) :
    ∀ sbuf ∈ (block.resizeMblk nbytes false newbuf).2.sbufs,
      P (block.resizeMblk nbytes false newbuf).2.name sbuf.clink.con := by
  unfold LinkedBlock.resizeMblk
  split
  · exact h
  split
  · exact h
  split
  · exact h
  cases newbuf <;> exact h

/-- Links come from infos which are not refused; no other step makes one. -/
theorem Root.SourcesIn.step {root : Root} (h : root.SourcesIn P) {action : RootAction}
    (hnew : ∀ con permissions info draws fresh newbuf,
      action = .mbinfoReceived con permissions info draws fresh newbuf →
        permissions.authorized = true → P info.name con.con) :
    (root.step action).SourcesIn P := by
  cases action with
  | initializeMemoryBlock prm draws fresh =>
      intro block hblock
      rcases List.mem_append.mp hblock with hold | hcreated
      · exact h block hold
      · obtain rfl := List.mem_singleton.mp hcreated
        exact fun _ hmem => by cases hmem
  | releaseMemoryBlock pos =>
      intro block hblock
      exact h block (List.mem_of_mem_eraseIdx hblock)
  | mbinfoReceived con permissions info draws fresh newbuf =>
      have hinfo := hnew con permissions info draws fresh newbuf rfl
      simp only [Root.step, Root.mbinfoReceived]
      split
      · exact h
      next hauthorized =>
        have hlink : ∀ block : LinkedBlock,
            (∀ sbuf ∈ block.sbufs, P block.name sbuf.clink.con) → block.name = info.name →
            ∀ sbuf ∈ ((block.resizeMblk info.nbytes false newbuf).2.link con
                permissions.bidirectionalMblks info).sbufs,
              P ((block.resizeMblk info.nbytes false newbuf).2.link con
                permissions.bidirectionalMblks info).name sbuf.clink.con := by
          intro block hblock hname
          apply sources_link (sources_resizeMblk hblock info.nbytes newbuf)
          rw [LinkedBlock.resizeMblk_name, hname]
          exact hinfo (by simpa using hauthorized)
        split
        · apply forall_mem_modify h
          intro block hblock
          exact hlink block (h block (List.mem_of_getElem? hblock))
            (Root.findBlock_name hblock)
        next hnone =>
          split
          · have hcreated : ∀ block ∈
                (root.initializeMemoryBlock info.params draws fresh).mblks,
                ∀ sbuf ∈ block.sbufs, P block.name sbuf.clink.con := by
              intro block hblock
              rcases List.mem_append.mp hblock with hold | hnew
              · exact h block hold
              · obtain rfl := List.mem_singleton.mp hnew
                exact fun _ hmem => by cases hmem
            apply forall_mem_modify hcreated
            intro block hblock
            apply hlink block (hcreated block (List.mem_of_getElem? hblock))
            exact Root.created_name hnone hblock
          · apply forall_mem_modify h
            intro block hblock
            exact hlink block (h block (List.mem_of_getElem? hblock))
              (Root.findBlock_name hblock)
  | resizeMemoryBlockByInfo deviceName deviceNr mblkName maxAddr newbuf =>
      apply Root.step_modify h
      intro block hblock
      unfold LinkedBlock.resizeByInfo
      dsimp only
      split
      · split
        · cases newbuf <;> exact hblock
        · exact hblock
      · exact hblock
  | write pos addr data =>
      apply Root.step_modify h
      intro block hblock
      unfold LinkedBlock.write Iocom.write
      split
      · exact hblock
      · exact sources_map hblock fun sbuf => (sbuf.invalidate_link _ _ _).2
  | send pos =>
      apply Root.step_modify h
      intro block hblock
      exact sources_map hblock fun sbuf => (sbuf.synchronize_link _).2
  | makeDataFrame pos sbuf con =>
      apply Root.step_modify h
      intro block hblock
      refine forall_mem_modify hblock fun old hold => ?_
      have hlinked := hblock old (List.mem_of_getElem? hold)
      cases hmake : Iocom.makeDataFrame con block.mblk old with
      | none => exact hlinked
      | some made =>
          obtain ⟨con', sbuf', frame⟩ := made
          obtain ⟨count, rfl⟩ := makeDataFrame_sbuf hmake
          exact hlinked
  | dataFrameReceived con authorized frame =>
      simp only [Root.step, Root.processReceivedDataFrame]
      split
      · exact h
      · apply Root.step_modify h
        intro block hblock
        exact hblock
  | receive pos =>
      apply Root.step_modify h
      intro block hblock
      exact sources_receive block.mblk block.tbufs hblock
  | connectionClosed con =>
      intro block hblock
      obtain ⟨old, hold, rfl⟩ := List.mem_map.mp hblock
      intro sbuf hmem
      exact h old (List.mem_of_mem_filter hold) sbuf (List.mem_of_mem_filter hmem)

end Sources

/-! ## Isolation -/

structure IsolationInvariant (s : NamedRoot) (con : SecuredConnection) : Prop where
  secured : con.security.authorizationFunc = true ∧ con.security.listener = true ∧
    con.security.secureConnection = true
  sources : con.isOpen = true →
    s.root.SourcesIn fun name id => id = con.id → con.authorizes name.networkName = true

section Invariant

variable {s : NamedRoot} {con : SecuredConnection}

theorem NamedRoot.processRemoveMblkReqFrame_sources {P : BlockName → ℕ → Prop}
    (h : s.root.SourcesIn P) (ids : List ℤ) :
    (s.processRemoveMblkReqFrame con ids).root.SourcesIn P := by
  unfold NamedRoot.processRemoveMblkReqFrame
  split_ifs with hlength
  · exact h
  · clear hlength
    induction ids generalizing s with
    | nil => exact h
    | cons id ids ih =>
        rw [List.foldl_cons]
        apply ih
        cases s.root.requested con.id id with
        | none => exact h
        | some pos =>
            dsimp only
            unfold NamedRoot.removeMblkByRequest
            cases s.root.mblks[pos]? with
            | none => exact h
            | some block =>
                dsimp only
                split_ifs
                · exact h
                · exact fun other hother => h other (List.mem_of_mem_eraseIdx hother)

theorem IsolationInvariant.processReceivedFrame (h : IsolationInvariant s con)
    {content : ReceivedContent} (hopen : con.isOpen = true)
    (hkeeps : (IsolationEvent.received content).KeepsSources s con) :
    IsolationInvariant (processReceivedFrame s con content).1
      (processReceivedFrame s con content).2 := by
  have hsources := h.sources hopen
  cases content with
  | mbinfo info draws fresh newbuf =>
      refine ⟨h.secured, fun _ => ?_⟩
      change (s.root.step (.mbinfoReceived con.link
        { authorized := con.authorizes info.name.networkName
          dynamicMblks := con.dynamicMblks
          bidirectionalMblks := con.bidirectionalMblks } info draws fresh newbuf)).SourcesIn _
      apply hsources.step
      rintro _ _ _ _ _ _ haction hauthorized -
      cases haction
      exact hauthorized
  | authentication msg accepted networks =>
      unfold Iocom.processReceivedFrame processReceivedAuthenticationMessage
      dsimp only
      cases hcomplete : msg.complete with
      | false => exact ⟨h.secured, fun hclosed => by cases hclosed⟩
      | true =>
          rw [h.secured.1, h.secured.2.1, h.secured.2.2]
          cases haccepted : accepted with
          | false => exact ⟨⟨rfl, rfl, rfl⟩, fun hclosed => by cases hclosed⟩
          | true =>
              refine ⟨⟨rfl, rfl, rfl⟩, fun _ block hblock sbuf hsbuf hid => ?_⟩
              exact hkeeps hcomplete haccepted block hblock sbuf hsbuf hid
  | removeMblkReq ids =>
      exact ⟨h.secured, fun _ => NamedRoot.processRemoveMblkReqFrame_sources hsources ids⟩
  | data frame =>
      refine ⟨h.secured, fun _ => ?_⟩
      change (s.processReceivedDataFrame con frame).root.SourcesIn _
      unfold NamedRoot.processReceivedDataFrame
      cases s.root.mblks[s.root.addressed con.id frame.mblkId]? with
      | none => exact hsources
      | some block =>
          change (s.root.step (.dataFrameReceived con.id
            (con.authorizes block.name.networkName) frame)).SourcesIn _
          apply hsources.step
          rintro _ _ _ _ _ _ haction -
          cases haction
  | other => exact h

theorem IsolationInvariant.step {x y : NamedRoot × SecuredConnection}
    (h : IsolationInvariant x.1 x.2) (hstep : CarefulStep x y) :
    IsolationInvariant y.1 y.2 := by
  obtain ⟨e, hstep, hkeeps⟩ := hstep
  cases hstep with
  | receive s con content hopen => exact h.processReceivedFrame hopen hkeeps
  | makeAuthentication s con hopen => exact ⟨h.secured, h.sources⟩
  | makeInfo s con cursors mblk hopen hauthenticated hsecurity hget => exact h
  | makeData s con pos index block sbuf frameCon hopen =>
      refine ⟨h.secured, fun _ => ?_⟩
      apply (h.sources hopen).step
      rintro _ _ _ _ _ _ haction -
      cases haction
  | environment s con action hforeign =>
      refine ⟨h.secured, fun hopen => ?_⟩
      apply (h.sources hopen).step
      rintro _ _ _ _ _ _ rfl - hid
      exact absurd hid hforeign
  | close s con => exact ⟨h.secured, fun hclosed => by cases hclosed⟩

end Invariant

theorem InfoConnection.getMbinfoToSend_authorizes {bound : ℕ} {cursors : InfoConnection}
    {mblk : InfoBlock}
    (hget : (InfoConnection.getMbinfoToSend bound cursors).1 = some mblk) :
    cursors.security.isNetworkAuthorized mblk.networkName 0 = true := by
  induction bound generalizing cursors with
  | zero => cases hget
  | succ bound ih =>
      rw [InfoConnection.getMbinfoToSend] at hget
      cases hnext : cursors.getMbinfoToSend2 with
      | none =>
          rw [hnext] at hget
          cases hget
      | some other =>
          rw [hnext] at hget
          dsimp only at hget
          split_ifs at hget with hskips
          · have hrest := ih hget
            have hsecurity : (cursors.mbinfoSent other).security = cursors.security := by
              unfold InfoConnection.mbinfoSent
              split <;> rfl
            rw [hsecurity] at hrest
            exact hrest
          · cases hget
            unfold InfoConnection.skips InfoConnection.authorizes at hskips
            simp only [Bool.or_eq_true, Bool.not_eq_true', not_or, Bool.not_eq_false] at hskips
            exact hskips.1.2

/-- In every run in which no authentication message takes a network away of
which the connection has a source buffer, received frames change and frames
contain only blocks in networks which the user of the connection may access. -/
theorem networks_isolated {start x y : NamedRoot × SecuredConnection} {e : IsolationEvent}
    (hstart : IsolationStart start.1 start.2)
    (hrun : Relation.ReflTransGen CarefulStep start x) (hstep : IsolationStep x e y) :
    Isolated x.1 x.2 y.1 e := by
  have hfirst : IsolationInvariant start.1 start.2 :=
    ⟨hstart.secured, fun _ block hblock sbuf hsbuf hid =>
      absurd hid ((hstart.unlinked block hblock).1 sbuf hsbuf)⟩
  have h : IsolationInvariant x.1 x.2 :=
    TransitionSystem.invariant_of_run (fun x => IsolationInvariant x.1 x.2)
      (fun _ _ h hstep => h.step hstep) hfirst hrun
  cases hstep with
  | receive s con content hopen =>
      cases content with
      | mbinfo info draws fresh newbuf =>
          exact .inl (NamedRoot.mbinfoReceived_outside info draws fresh newbuf)
      | authentication msg accepted networks =>
          exact .inr (processReceivedAuthenticationMessage_unchanged msg accepted networks)
      | removeMblkReq ids => exact .inl (NamedRoot.processRemoveMblkReqFrame_outside ids)
      | data frame => exact .inl (NamedRoot.processReceivedDataFrame_outside frame)
      | other => exact .inl rfl
  | makeAuthentication s con hopen => trivial
  | makeInfo s con cursors mblk hopen hauthenticated hsecurity hget =>
      have hauthorized := InfoConnection.getMbinfoToSend_authorizes hget
      rw [hsecurity] at hauthorized
      exact hauthorized
  | makeData s con pos index block sbuf frameCon hopen hauthenticated hblock hsbuf hcon =>
      exact h.sources hopen block (List.mem_of_getElem? hblock) sbuf
        (List.mem_of_getElem? hsbuf) hcon
  | environment s con action hforeign => trivial
  | close s con => trivial

def isolatedBlock : LinkedBlock where
  name := ⟨"exp", "gina", 1, "anet"⟩
  dynamic := false
  mblk := ⟨8, ⟨true, false, true, false, false⟩, 2, true, fun _ => 7⟩
  sbufs := []
  tbufs := []

def isolatedRoot : NamedRoot where
  networkName := "anet"
  root := ⟨9, [isolatedBlock]⟩
  requests := fun _ => []

def openedConnection : SecuredConnection where
  id := 0
  connectUp := false
  cloudConnection := false
  bidirectionalMblks := false
  dynamicMblks := false
  security := ⟨true, true, true, []⟩
  authenticationSent := false
  authenticationReceived := false
  isOpen := true

theorem isolatedRoot_start : IsolationStart isolatedRoot openedConnection where
  secured := ⟨rfl, rfl, rfl⟩
  unlinked := by
    intro block hblock
    obtain rfl := List.mem_singleton.mp hblock
    exact ⟨(fun _ hmem => by cases hmem), (fun _ hmem => by cases hmem)⟩

def acceptedFor (networkName : String) : ReceivedContent :=
  .authentication ⟨true, false, false, "anet", true⟩ true [⟨networkName, 0⟩]

def isolatedInfo : MemoryBlockInfo :=
  ⟨⟨"exp", "gina", 1, "anet"⟩, 10, 2, true, false, false⟩

def acceptedConnection : SecuredConnection :=
  { (processReceivedFrame isolatedRoot openedConnection (acceptedFor "anet")).2 with
    authenticationSent := true }

def linkedRoot : NamedRoot :=
  (processReceivedFrame isolatedRoot acceptedConnection
    (.mbinfo isolatedInfo [] (fun _ => 0) none)).1

theorem linkedRoot_run :
    Relation.ReflTransGen CarefulStep (isolatedRoot, openedConnection)
      (linkedRoot, acceptedConnection) :=
  .tail (.tail (.tail .refl
    ⟨_, .receive isolatedRoot openedConnection (acceptedFor "anet") rfl,
      (fun _ _ block hblock sbuf hsbuf => by
        obtain rfl := List.mem_singleton.mp hblock
        cases hsbuf)⟩)
    ⟨_, .makeAuthentication _ _ rfl, trivial⟩)
    ⟨_, .receive isolatedRoot acceptedConnection (.mbinfo isolatedInfo [] (fun _ => 0) none) rfl,
      trivial⟩

def isolatedFrames : Connection where
  isSocket := true
  connectUp := false
  frameSz := 600
  dstFrameSz := 600
  maxInAir := 6000
  maxAckInAir := 6000
  unacknowledgedLimit := 600
  bytesSent := 0
  processedBytes := 0
  bytesReceived := 0
  bytesAcknowledged := 0
  frameOutUsed := 0
  frameOutPos := 0
  frameOutNr := 1
  authenticationSent := true
  authenticationReceived := true

def isolatedSource : SourceBuffer :=
  (isolatedBlock.link ⟨0, false⟩ false isolatedInfo).sbufs.head (by decide)

theorem linkedRoot_makeData (con : SecuredConnection) (hid : con.id = 0)
    (hopen : con.isOpen = true)
    (hauthenticated : con.authenticationSent = true ∧ con.authenticationReceived = true) :
    IsolationStep (linkedRoot, con) (.dataMade "anet")
      ({ linkedRoot with root := linkedRoot.root.step (.makeDataFrame 0 0 isolatedFrames) },
        con) :=
  .makeData linkedRoot con 0 0 (isolatedBlock.link ⟨0, false⟩ false isolatedInfo)
    isolatedSource isolatedFrames hopen hauthenticated rfl
    (by rw [← List.head?_eq_getElem?]; exact List.head?_eq_some_head _)
    ((show isolatedSource.clink.con = 0 by decide).trans hid.symm)
    ⟨by decide, by decide⟩ (by decide)

theorem networks_isolated_linkedRoot :
    Isolated linkedRoot acceptedConnection
      { linkedRoot with root := linkedRoot.root.step (.makeDataFrame 0 0 isolatedFrames) }
      (.dataMade "anet") := by
  have hmade := linkedRoot_makeData acceptedConnection rfl rfl ⟨rfl, rfl⟩
  have hisolated := networks_isolated isolatedRoot_start linkedRoot_run hmade
  exact hisolated

/-- After the user of another network has been accepted on the connection, the
data of the linked block is still sent. -/
theorem network_not_isolated :
    ¬∀ (start x y : NamedRoot × SecuredConnection) (e : IsolationEvent),
      IsolationStart start.1 start.2 →
      Relation.ReflTransGen (fun x y => ∃ e, IsolationStep x e y) start x →
      IsolationStep x e y → Isolated x.1 x.2 y.1 e := by
  intro hisolated
  have hrun : Relation.ReflTransGen (fun x y => ∃ e, IsolationStep x e y)
      (isolatedRoot, openedConnection) (linkedRoot, acceptedConnection) :=
    Relation.ReflTransGen.mono (fun _ _ ⟨e, hstep, _⟩ => ⟨e, hstep⟩) _ _ linkedRoot_run
  have hreplaced := hrun.tail
    ⟨_, .receive linkedRoot acceptedConnection (acceptedFor "bnet") rfl⟩
  have hsent := hisolated (isolatedRoot, openedConnection) _ _ _ isolatedRoot_start hreplaced
    (linkedRoot_makeData _ rfl rfl ⟨rfl, rfl⟩)
  have hrefused : (processReceivedFrame linkedRoot acceptedConnection
      (acceptedFor "bnet")).2.authorizes "anet" = false := by decide
  cases hrefused.symm.trans hsent

end Iocom
