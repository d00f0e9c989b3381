import Iocom.SharedConnection

/-!
# Replicas of the links which share a connection

The frames of one link which are under way are those of all frames under way
which carry the identifier of its block at the receiving end.  Every step of the
shared connection is then a step of one link, or of none, and no frame is refused.
-/

namespace Iocom

variable {ι : Type*} {checksum : List UInt8 → ℕ}

def framesFor (mblkId : ℕ) (queue : List Message) : List Frame :=
  (framesOf queue).filter fun frame => !frame.system && decide (frame.mblkId = mblkId)

theorem framesFor_append (mblkId : ℕ) (queue later : List Message) :
    framesFor mblkId (queue ++ later) = framesFor mblkId queue ++ framesFor mblkId later := by
  simp [framesFor, framesOf_append]

@[simp] theorem framesFor_acknowledge (mblkId rbytes : ℕ) :
    framesFor mblkId [.acknowledge rbytes] = [] := rfl

theorem framesFor_cons (mblkId : ℕ) (message : Message) (queue : List Message) :
    framesFor mblkId (message :: queue) = framesFor mblkId [message] ++ framesFor mblkId queue :=
  framesFor_append mblkId [message] queue

theorem framesFor_frame (mblkId : ℕ) (frame : Frame) :
    framesFor mblkId [.frame frame] =
      if frame.system = false ∧ frame.mblkId = mblkId then [frame] else [] := by
  simp only [framesFor, framesOf, List.filterMap_cons, List.filterMap_nil, List.filter_cons,
    List.filter_nil]
  cases frame.system <;> simp

/-! ## The links -/

structure LinksFollow (links₀ links : ι → LinkEnds) (order : List ι) (queue : List Message) :
    Prop where
  listed : ∀ i, i ∈ order
  distinct : Function.Injective fun i => (links₀ i).receiver.mblkId
  authorized : ∀ i, (links i).authorized = true
  mblkId : ∀ i, (links i).receiver.mblkId = (links₀ i).receiver.mblkId
  addressed : ∀ i, osUint (links i).sbuf.remoteMblkId = (links₀ i).receiver.mblkId
  reached : ∀ i, Relation.ReflTransGen ReplicationStep ((links₀ i).withChannel [])
    ((links i).withChannel (framesFor (links₀ i).receiver.mblkId queue))

namespace LinksFollow

variable {links₀ links : ι → LinkEnds} {order : List ι} {queue queue' : List Message}

theorem of_frames (h : LinksFollow links₀ links order queue)
    (hframes : ∀ i, framesFor (links₀ i).receiver.mblkId queue' =
      framesFor (links₀ i).receiver.mblkId queue) :
    LinksFollow links₀ links order queue' :=
  { h with
    reached := fun i => by
      rw [hframes i]
      exact h.reached i }

theorem step [DecidableEq ι] (h : LinksFollow links₀ links order queue) {i : ι} {e : LinkEnds}
    (hauthorized : e.authorized = (links i).authorized)
    (hmblkId : e.receiver.mblkId = (links i).receiver.mblkId)
    (haddressed : e.sbuf.remoteMblkId = (links i).sbuf.remoteMblkId)
    (hstep : ReplicationStep
      ((links i).withChannel (framesFor (links₀ i).receiver.mblkId queue))
      (e.withChannel (framesFor (links₀ i).receiver.mblkId queue')))
    (hothers : ∀ j, j ≠ i → framesFor (links₀ j).receiver.mblkId queue' =
      framesFor (links₀ j).receiver.mblkId queue) :
    LinksFollow links₀ (Function.update links i e) order queue' where
  listed := h.listed
  distinct := h.distinct
  authorized j := by
    by_cases hj : j = i
    · rw [hj, Function.update_self, hauthorized]
      exact h.authorized i
    · rw [Function.update_of_ne hj]
      exact h.authorized j
  mblkId j := by
    by_cases hj : j = i
    · rw [hj, Function.update_self, hmblkId]
      exact h.mblkId i
    · rw [Function.update_of_ne hj]
      exact h.mblkId j
  addressed j := by
    by_cases hj : j = i
    · rw [hj, Function.update_self, haddressed]
      exact h.addressed i
    · rw [Function.update_of_ne hj]
      exact h.addressed j
  reached j := by
    by_cases hj : j = i
    · subst hj
      rw [Function.update_self]
      exact (h.reached j).tail hstep
    · rw [Function.update_of_ne hj, hothers j hj]
      exact h.reached j

theorem invariant (h : LinksFollow links₀ links order queue)
    (hstart : ∀ i, ReplicationStart ((links₀ i).withChannel [])) (i : ι) :
    ReplicationInvariant (links₀ i).receiver.contents
      ((links i).withChannel (framesFor (links₀ i).receiver.mblkId queue)) :=
  (hstart i).run_invariant (h.reached i)

end LinksFollow

/-! ## The steps of the links -/

/-- What the application and the rest of the program may do: addresses are not
negative, system frames fit the frame buffer, and no second authentication message
comes from the other end. -/
def SharedAction.Valid (con : Connection) : SharedAction ι → Prop
  | .write _ addr data => 0 ≤ addr ∧ data ≠ []
  | .systemFrame mblkId content =>
      ((headerSize con.isSocket (osUint mblkId) 0 + content.length : ℕ) : ℤ) ≤ con.dstFrameSz
  | .handle message _ => ∀ sz size, message ≠ .authentication sz size
  | _ => True

structure Carries (checksum : List UInt8 → ℕ) (s₀ s : SharedConnection ι)
    (queue : List Message) : Prop where
  transports : Transports checksum s.con s.frameOut s.stream s.peer s.frameIn queue
  isSocket : s.con.isSocket = s₀.con.isSocket
  dstFrameSz : s.con.dstFrameSz = s₀.con.dstFrameSz
  links : LinksFollow s₀.links s.links s.order queue

/-- What `ioc_make_data_frame` does to the connection, and how large its frames are. -/
theorem makeDataFrame_placed {con con' : Connection} {mblk : MemoryBlock}
    {sbuf sbuf' : SourceBuffer} {frame : Frame}
    (hmake : makeDataFrame con mblk sbuf = some (con', sbuf', frame)) :
    con' =
        { con with
          frameOutUsed := headerSize con.isSocket frame.mblkId frame.addr + frame.payload.length
          frameOutPos := 0
          frameOutNr := nextFrameNr con.frameOutNr } ∧
      sbuf'.remoteMblkId = sbuf.remoteMblkId ∧ frame.system = false ∧
      frame.payload.length ≤
        (con.dstFrameSz - headerSize con.isSocket frame.mblkId frame.addr).toNat := by
  unfold makeDataFrame at hmake
  dsimp only at hmake
  split at hmake
  · contradiction
  · simp only [Option.some.injEq, Prod.mk.injEq] at hmake
    obtain ⟨rfl, rfl, rfl⟩ := hmake
    refine ⟨?_, rfl, rfl, (sbuf.nextPayload_spec mblk _).2.1⟩
    rw [Nat.add_comm]

namespace Carries

variable {s₀ s : SharedConnection ι} {queue : List Message}

/-- A message is put into the frame buffer which belongs to none of the links. -/
theorem put (h : Carries checksum s₀ s queue) (message : Message) {con : Connection}
    (hfree : s.con.frameOutUsed = 0)
    (hwf : message.WellFormed s.peer.isSocket s.peer.frameSz)
    (hnr : ∀ sent, message = .frame sent → sent.frameNr = s.con.frameOutNr)
    (hsame : con =
      { s.con with
        frameOutUsed := (message.encode checksum s.con.isSocket).length
        frameOutNr := message.nextNr s.con.frameOutNr
        bytesAcknowledged := con.bytesAcknowledged })
    (hframes : ∀ mblkId, framesFor mblkId [message] = []) :
    Carries checksum s₀
      { s with con := con, frameOut := message.encode checksum s.con.isSocket }
      (queue ++ [message]) where
  transports := h.transports.put hfree hwf hnr hsame
  isSocket := by rw [hsame]; exact h.isSocket
  dstFrameSz := by rw [hsame]; exact h.dstFrameSz
  links := h.links.of_frames fun i => by rw [framesFor_append, hframes, List.append_nil]

theorem acknowledge (h : Carries checksum s₀ s queue) :
    ∃ queue', Carries checksum s₀ s.acknowledge queue' := by
  unfold SharedConnection.acknowledge
  split
  · exact ⟨queue, h⟩
  next hfree =>
    rw [not_ne_iff] at hfree
    have hbytes : s.con.bytesReceived % s.con.ackModulus < ackModulusOf s.peer.isSocket := by
      rw [h.transports.isSocket]
      apply Nat.mod_lt
      unfold Connection.ackModulus
      split <;> decide
    have hlength := acknowledgeBytes_length s.con.isSocket
      (s.con.bytesReceived % s.con.ackModulus)
    refine ⟨_, h.put (.acknowledge (s.con.bytesReceived % s.con.ackModulus)) hfree
      hbytes (fun sent hsent => by cases hsent) ?_ fun _ => rfl⟩
    simp only [Message.encode, hlength, Message.nextNr, Connection.putAcknowledge]
    rfl

theorem systemFrame (h : Carries checksum s₀ s queue) {mblkId : ℤ} {content : List UInt8}
    (hfits : ((headerSize s₀.con.isSocket (osUint mblkId) 0 + content.length : ℕ) : ℤ) ≤
      s₀.con.dstFrameSz) :
    ∃ queue', Carries checksum s₀ (s.systemFrame checksum mblkId content) queue' := by
  unfold SharedConnection.systemFrame
  split
  · exact ⟨queue, h⟩
  next hfree =>
    rw [not_ne_iff] at hfree
    cases hmake : makeSystemFrame s.con mblkId content with
    | none => exact ⟨queue, h⟩
    | some made =>
        obtain ⟨con, frame⟩ := made
        obtain ⟨rfl, -, -⟩ := makeSystemFrame_number hmake
        have hwf : (Message.frame (Iocom.systemFrame s.con.frameOutNr (osUint mblkId)
            content)).WellFormed s.peer.isSocket s.peer.frameSz := by
          refine ⟨h.transports.number_le, osUint_lt _, Nat.zero_lt_succ _, ?_⟩
          rw [h.transports.isSocket, h.isSocket]
          have hle := h.transports.dstFrameSz_le
          rw [h.dstFrameSz] at hle
          exact hfits.trans hle
        refine ⟨_, h.put _ hfree hwf (fun sent hsent => ?_) ?_ fun id => ?_⟩
        · obtain rfl := Message.frame.inj hsent
          rfl
        · unfold makeSystemFrame Connection.finishFrame at hmake
          split at hmake
          · cases hmake
          · simp only [Option.map_some, Option.some.injEq, Prod.mk.injEq] at hmake
            rw [← hmake.1, Message.encode, Frame.encode_length]
            rfl
        · rw [framesFor_frame]
          exact if_neg fun hnot => by cases hnot.1

theorem writeToStream (h : Carries checksum s₀ s queue) (accepted : ℕ) :
    Carries checksum s₀ (s.writeToStream accepted) queue where
  transports := h.transports.write accepted
  isSocket := by
    rw [← h.isSocket]
    change (s.con.writeToStream accepted).isSocket = _
    rw [Connection.writeToStream_same]
  dstFrameSz := by
    rw [← h.dstFrameSz]
    change (s.con.writeToStream accepted).dstFrameSz = _
    rw [Connection.writeToStream_same]
  links := h.links

theorem handle (h : Carries checksum s₀ s queue) {message : FlowMessage}
    (hmessage : ∀ sz size, message ≠ .authentication sz size) (bytes : ℕ) :
    Carries checksum s₀ (s.handle message bytes) queue where
  transports := h.transports.handle hmessage
  isSocket := by
    rw [← h.isSocket]
    change (s.con.handle message).isSocket = _
    rw [Connection.handle_same]
  dstFrameSz := by
    rw [← h.dstFrameSz]
    cases message with
    | authentication sz size => exact absurd rfl (hmessage sz size)
    | acknowledge => rfl
    | frame => rfl
  links := h.links

variable [DecidableEq ι]

/-- One link takes a step and the messages under way stay as they are. -/
theorem setLink (h : Carries checksum s₀ s queue) {i : ι} {e : LinkEnds}
    (hauthorized : e.authorized = (s.links i).authorized)
    (hmblkId : e.receiver.mblkId = (s.links i).receiver.mblkId)
    (haddressed : e.sbuf.remoteMblkId = (s.links i).sbuf.remoteMblkId)
    (hstep : ReplicationStep
      ((s.links i).withChannel (framesFor (s₀.links i).receiver.mblkId queue))
      (e.withChannel (framesFor (s₀.links i).receiver.mblkId queue))) :
    Carries checksum s₀ (s.setLink i e) queue :=
  { h with links := h.links.step hauthorized hmblkId haddressed hstep fun _ _ => rfl }

theorem write (h : Carries checksum s₀ s queue) {i : ι} {addr : ℤ} {data : List UInt8}
    (haddr : 0 ≤ addr) (hdata : data ≠ []) :
    Carries checksum s₀ (s.write i addr data) queue := by
  unfold SharedConnection.write
  dsimp only
  split
  next sender sbuf hwrite =>
    have hlink : sbuf.remoteMblkId = (s.links i).sbuf.remoteMblkId := by
      unfold Iocom.write at hwrite
      split at hwrite
      · simp only [Prod.mk.injEq, List.cons.injEq, and_true] at hwrite
        rw [hwrite.2]
      · simp only [List.map_cons, List.map_nil, Prod.mk.injEq, List.cons.injEq, and_true]
          at hwrite
        rw [← hwrite.2]
        exact ((s.links i).sbuf.invalidate_link _ _ _).1
    exact h.setLink rfl rfl hlink (.write _ addr data sender sbuf haddr hdata hwrite)
  · exact h

theorem synchronize (h : Carries checksum s₀ s queue) (i : ι) :
    Carries checksum s₀ (s.synchronize i) queue :=
  h.setLink rfl rfl ((s.links i).sbuf.synchronize_link _).1 (.synchronize _)

theorem receive (h : Carries checksum s₀ s queue) (i : ι) :
    Carries checksum s₀ (s.receive i) queue := by
  unfold SharedConnection.receive
  dsimp only
  split
  next receiver tbuf hreceive =>
    have hmblkId : receiver.mblkId = (s.links i).receiver.mblkId := by
      have hid := receive_mblkId (s.links i).receiver [] [(s.links i).tbuf]
      rw [hreceive] at hid
      exact hid
    exact h.setLink rfl hmblkId rfl (.receive _ receiver tbuf hreceive)
  · exact h

/-- A data frame is put into the frame buffer, and its link has sent it. -/
theorem dataFrame (h : Carries checksum s₀ s queue) (i : ι) :
    ∃ queue', Carries checksum s₀ (s.dataFrame checksum i) queue' := by
  unfold SharedConnection.dataFrame
  dsimp only
  split
  · exact ⟨queue, h⟩
  next hready =>
    rw [not_or, not_ne_iff, Bool.not_eq_false] at hready
    cases hmake : makeDataFrame s.con (s.links i).sender (s.links i).sbuf with
    | none => exact ⟨queue, h⟩
    | some made =>
        obtain ⟨con, sbuf, frame⟩ := made
        obtain ⟨hcon, hlink, hsystem, hsize⟩ := makeDataFrame_placed hmake
        obtain ⟨hnr, -, -⟩ := makeDataFrame_number hmake
        obtain ⟨hid, haddr⟩ := makeDataFrame_address hmake
        have hpos := h.transports.pos hready.1
        have hheader : (headerSize s.con.isSocket frame.mblkId frame.addr : ℤ) ≤
            s.con.dstFrameSz := by
          have hle := headerSize_le s.con.isSocket frame.mblkId frame.addr
          have hmin := h.transports.minFrameSz_le
          unfold minFrameSz at hmin
          omega
        have hwf : (Message.frame frame).WellFormed s.peer.isSocket s.peer.frameSz := by
          refine ⟨hnr.trans_le h.transports.number_le, ?_, ?_, ?_⟩
          · rw [hid]
            exact osUint_lt _
          · rw [haddr]
            exact osUint_lt _
          · have hle := h.transports.dstFrameSz_le
            rw [h.transports.isSocket]
            omega
        rw [h.links.addressed i] at hid
        have hput := h.transports.put hready.1 hwf
          (fun sent hsent => by rw [← Message.frame.inj hsent, hnr]) (show con = _ by
            rw [hcon, Message.encode, Frame.encode_length]
            simp [hpos, Message.nextNr, hnr])
        refine ⟨_, hput, by rw [hcon]; exact h.isSocket, by rw [hcon]; exact h.dstFrameSz, ?_⟩
        refine h.links.step rfl rfl hlink ?_ fun j hj => ?_
        · have hchannel : framesFor (s₀.links i).receiver.mblkId (queue ++ [.frame frame]) =
              framesFor (s₀.links i).receiver.mblkId queue ++ [frame] := by
            rw [framesFor_append, framesFor_frame, if_pos ⟨hsystem, hid⟩]
          rw [hchannel]
          refine .sendFrame _ s.con con sbuf frame hready.2 ?_ hmake
          rw [haddr, hid, ← h.links.addressed i] at hheader
          exact hheader
        · have hother : ¬(frame.system = false ∧ frame.mblkId = (s₀.links j).receiver.mblkId) :=
            fun hboth => hj (h.links.distinct (hboth.2.symm.trans hid))
          rw [framesFor_append, framesFor_frame, if_neg hother, List.append_nil]

/-- A call of `ioc_connection_receive` makes no error. -/
theorem connectionReceive (h : Carries checksum s₀ s queue)
    (hstart : ∀ i, ReplicationStart ((s₀.links i).withChannel [])) (reads : List ℕ) :
    ∃ s' queue', s.connectionReceive checksum reads = some s' ∧
      Carries checksum s₀ s' queue' := by
  obtain ⟨received, peer, frameIn, stream, rest, hrun, rfl, htransports⟩ :=
    h.transports.receive reads
  have hcarries : ∀ links, LinksFollow s₀.links links s.order rest →
      Carries checksum s₀
        { s with links := links, peer := peer, frameIn := frameIn, stream := stream } rest :=
    fun links hlinks => ⟨htransports, h.isSocket, h.dstFrameSz, hlinks⟩
  have hlinks := h.links
  unfold SharedConnection.connectionReceive
  rw [hrun]
  dsimp only
  cases received with
  | none => exact ⟨_, rest, rfl, hcarries s.links hlinks⟩
  | some message =>
      rw [Option.toList_some, List.singleton_append] at hlinks
      cases message with
      | acknowledge rbytes =>
          exact ⟨_, rest, rfl, hcarries s.links (hlinks.of_frames fun _ => rfl)⟩
      | frame frame =>
          simp only [SharedConnection.process]
          split
          next hsystem =>
            refine ⟨_, rest, rfl, hcarries s.links (hlinks.of_frames fun i => ?_)⟩
            rw [framesFor_cons, framesFor_frame, if_neg (by simp [hsystem]), List.nil_append]
          next hsystem =>
            rw [Bool.not_eq_true] at hsystem
            unfold SharedConnection.processReceivedDataFrame SharedConnection.findLink
            dsimp only
            cases hfind : s.order.find? fun i =>
                decide ((s.links i).receiver.mblkId = frame.mblkId) with
            | none =>
                refine ⟨_, rest, rfl, hcarries s.links (hlinks.of_frames fun i => ?_)⟩
                have hnot := List.find?_eq_none.mp hfind i (hlinks.listed i)
                rw [decide_eq_true_eq, hlinks.mblkId i] at hnot
                rw [framesFor_cons, framesFor_frame, if_neg fun hboth => hnot hboth.2.symm,
                  List.nil_append]
            | some i =>
                have hid := List.find?_some hfind
                rw [decide_eq_true_eq, hlinks.mblkId i] at hid
                have hchannel : framesFor (s₀.links i).receiver.mblkId (.frame frame :: rest) =
                    frame :: framesFor (s₀.links i).receiver.mblkId rest := by
                  rw [framesFor_cons, framesFor_frame, if_pos ⟨hsystem, hid.symm⟩]
                  rfl
                have haccepted : ((s.links i).tbuf.storeFrame frame).1 = true :=
                  ((hlinks.invariant hstart i).deliver hchannel).1
                have hstore : (s.links i).tbuf.storeFrame frame =
                    (true, ((s.links i).tbuf.storeFrame frame).2) :=
                  Prod.ext haccepted rfl
                dsimp only
                rw [if_neg (by simp [hlinks.authorized i]), hstore]
                refine ⟨_, rest, rfl, hcarries _ (hlinks.step rfl rfl rfl ?_ fun j hj => ?_)⟩
                · exact .deliver _ frame _ hchannel
                · have hother :
                      ¬(frame.system = false ∧ frame.mblkId = (s₀.links j).receiver.mblkId) :=
                    fun hboth => hj (hlinks.distinct (hboth.2.symm.trans hid.symm))
                  rw [framesFor_cons, framesFor_frame, if_neg hother, List.nil_append]

theorem step (h : Carries checksum s₀ s queue)
    (hstart : ∀ i, ReplicationStart ((s₀.links i).withChannel []))
    {action : SharedAction ι} (hvalid : action.Valid s₀.con) :
    ∃ s' queue', s.step checksum action = some s' ∧ Carries checksum s₀ s' queue' := by
  cases action with
  | write i addr data => exact ⟨_, queue, rfl, h.write hvalid.1 hvalid.2⟩
  | synchronize i => exact ⟨_, queue, rfl, h.synchronize i⟩
  | dataFrame i =>
      obtain ⟨queue', h'⟩ := h.dataFrame i
      exact ⟨_, queue', rfl, h'⟩
  | systemFrame mblkId content =>
      obtain ⟨queue', h'⟩ := h.systemFrame hvalid
      exact ⟨_, queue', rfl, h'⟩
  | acknowledge =>
      obtain ⟨queue', h'⟩ := h.acknowledge
      exact ⟨_, queue', rfl, h'⟩
  | writeToStream accepted => exact ⟨_, queue, rfl, h.writeToStream accepted⟩
  | handle message bytes => exact ⟨_, queue, rfl, h.handle hvalid bytes⟩
  | connectionReceive reads => exact h.connectionReceive hstart reads
  | receive i => exact ⟨_, queue, rfl, h.receive i⟩

theorem run (h : Carries checksum s₀ s queue)
    (hstart : ∀ i, ReplicationStart ((s₀.links i).withChannel []))
    {actions : List (SharedAction ι)} (hvalid : ∀ action ∈ actions, action.Valid s₀.con) :
    ∃ s' queue', s.run checksum actions = some s' ∧ Carries checksum s₀ s' queue' := by
  induction actions generalizing s queue with
  | nil => exact ⟨s, queue, rfl, h⟩
  | cons action actions ih =>
      obtain ⟨s₁, queue₁, hstep, h₁⟩ := h.step hstart (hvalid action (List.mem_cons_self ..))
      obtain ⟨s₂, queue₂, hrun, h₂⟩ :=
        ih h₁ fun later hmem => hvalid later (List.mem_cons_of_mem _ hmem)
      refine ⟨s₂, queue₂, ?_, h₂⟩
      unfold SharedConnection.run at hrun ⊢
      rw [List.foldlM_cons, hstep]
      exact hrun

end Carries

/-! ## The replicas -/

/-- What the connection promises for each of its links: the receiver's block
holds a whole snapshot or its first content, the results of `ioc_receive` are
versions in order, and once nothing is under way the last snapshot has arrived, and
shows when no data waits for `ioc_receive`. -/
structure SharedConsistent (s₀ s : SharedConnection ι) : Prop where
  whole : ∀ i, (s.links i).receiver.contents = (s₀.links i).receiver.contents ∨
    (s.links i).receiver.contents ∈ (s.links i).snapshots
  ordered : ∀ i, ∃ indexes : List ℕ, indexes.Pairwise (· ≤ ·) ∧
    List.Forall₂
      (fun result k => k ≤ result.1 ∧
        ((s₀.links i).receiver.contents :: (s.links i).snapshots)[k]? = some result.2)
      (s.links i).results indexes
  drained : s.stream = [] → s.frameOut = [] → ∀ i,
    (s.links i).sbuf.syncbuf.used = false →
      ((s₀.links i).receiver.contents :: (s.links i).snapshots).getLast? =
          some (Segment.segment (s.links i).tbuf.syncbuf.buf 0
            (s.links i).receiver.nbytes.toNat) ∧
        ((s.links i).snapshots ≠ [] → ∀ a, 0 ≤ a → a < (s.links i).receiver.nbytes →
          (s.links i).tbuf.syncbuf.buf a = (s.links i).sbuf.syncbuf.buf a)
  received : s.stream = [] → s.frameOut = [] → ∀ i,
    (s.links i).sbuf.syncbuf.used = false → (s.links i).tbuf.syncbuf.bufUsed = false →
      ((s₀.links i).receiver.contents :: (s.links i).snapshots).getLast? =
        some (s.links i).receiver.contents

theorem Carries.drained {s₀ s : SharedConnection ι} {queue : List Message}
    (h : Carries checksum s₀ s queue) (hstream : s.stream = []) (hframeOut : s.frameOut = []) :
    queue = [] := by
  have hreceiving := h.transports.receiving
  rw [hstream, hframeOut, List.append_nil] at hreceiving
  exact hreceiving.done

theorem Carries.consistent {s₀ s : SharedConnection ι} {queue : List Message}
    (h : Carries checksum s₀ s queue)
    (hstart : ∀ i, ReplicationStart ((s₀.links i).withChannel [])) : SharedConsistent s₀ s where
  whole i := (h.links.invariant hstart i).whole
  ordered i := by
    obtain ⟨_, _, _, _, _, _, _, _, indexes, hsorted, _, hall⟩ :=
      (h.links.invariant hstart i).transfer
    exact ⟨indexes, hsorted, hall⟩
  drained hstream hframeOut i hunused := by
    obtain rfl := h.drained hstream hframeOut
    exact (h.links.invariant hstart i).drained hunused rfl
  received hstream hframeOut i hunused hreceived := by
    obtain rfl := h.drained hstream hframeOut
    have hlink := h.links.invariant hstart i
    exact (hlink.drained hunused rfl).1.trans
      (congrArg some (hlink.contents_eq hreceived).symm)

end Iocom
