import Iocom.HandshakeProgress

/-!
# The handshake message arrives

Between the two ends of this code the server ends with what the client has sent.  A
server does not look for a terminating NUL in the name: with another peer, the name
which a switchbox keeps is terminated only if the peer has sent a NUL in it.
-/

namespace Iocom

open HandshakeParams

/-- `ioc_get_handshake_client_type`. -/
def getHandshakeClientType (s : HandshakeState) : UInt8 := s.clientType &&& handshakeTypeMask

/-- `ioc_get_handshake_cloud_netname`. -/
def getHandshakeCloudNetname (s : HandshakeState) : Option (List UInt8) := s.cloudNetname

structure HandshakePair.MessageArrived (prm : HandshakeParams) (t : HandshakePair) : Prop where
  serverRead : t.serverRead = t.toServer.length
  clientType : getHandshakeClientType t.server = prm.clientType.code
  request : t.server.copyTrustCertificate = prm.requestTrustCertificate
  cloudNetname : getHandshakeCloudNetname t.server = prm.keptNetname

namespace HandshakeParams

variable {prm : HandshakeParams} {t : HandshakePair} {gotten part : List UInt8}

def CertificateRead (prm : HandshakeParams) : Prop :=
  prm.requestTrustCertificate = true → 0x100 ∣ prm.certContent.length

theorem PairAt.all_read_iff (h : PairAt prm t gotten part) (hfinished : t.Finished) :
    t.clientRead = t.toClient.length ↔ prm.CertificateRead := by
  obtain ⟨hclient, hmessage, -⟩ := h.clientSuccess_iff.mp hfinished.1
  obtain ⟨hserver, hdone, hcert⟩ := h.serverSuccess_iff.mp hfinished.2
  have hunread := h.unread_length hclient hserver
  unfold CertificateRead
  by_cases hrequest : prm.requestTrustCertificate = true
  · have hpart := congrArg List.length (hcert ((h.copy_eq hdone).trans hrequest))
    have hgotten := (h.certificate hrequest hfinished.1).1
    have hle := h.gotten_isPrefix.length_le
    rw [certMessage_eq] at hpart
    simp only [List.length_append, List.length_cons, List.length_nil] at hpart
    constructor
    · intro hread _
      omega
    · intro hdvd
      obtain ⟨k, hk⟩ := hdvd hrequest
      omega
  · have hnothing := h.part_nil (Bool.eq_false_iff.mpr hrequest)
    rw [hnothing, List.length_nil, Nat.zero_sub] at hunread
    exact ⟨fun _ hyes => absurd hyes hrequest, fun _ => hunread⟩

theorem PairAt.messageArrived (h : PairAt prm t gotten part) (hfinished : t.Finished) :
    t.MessageArrived prm := by
  have hdone := (h.serverSuccess_iff.mp hfinished.2).message
  obtain ⟨hsent, hread⟩ := h.server_message hdone
  have hreceives := h.server.message
  rw [hread, List.take_length, hsent] at hreceives
  obtain ⟨htype, hcopy, hname⟩ := hreceives.data
  exact ⟨hread, htype, hcopy, hname⟩

end HandshakeParams

/-! ## A server and any peer -/

inductive PeerAction where
  | send (bytes : List UInt8)
  | server (limits : ServerLimits)

def HandshakePair.peerStep (prm : HandshakeParams) (t : HandshakePair) :
    PeerAction → HandshakePair
  | .send bytes => { t with toServer := t.toServer ++ bytes }
  | .server limits => t.step prm (.server limits)

def HandshakePair.peerRun (prm : HandshakeParams) (t : HandshakePair)
    (actions : List PeerAction) : HandshakePair :=
  actions.foldl (HandshakePair.peerStep prm) t

def peerNetname (sent : List UInt8) : List UInt8 :=
  (sent.drop 2).take ((sent.drop 1).headD 0).toNat

namespace HandshakeParams

variable {prm : HandshakeParams} {t : HandshakePair} {part : List UInt8}

structure PeerAt (prm : HandshakeParams) (t : HandshakePair) (part : List UInt8) : Prop where
  server : prm.ServerAt t.server (t.toServer.take t.serverRead) part
  serverRead_le : t.serverRead ≤ t.toServer.length
  success : t.serverStatus = .success → prm.ServerDone t.server part

theorem PeerAt.step (h : t.serverStatus ≠ .failed → ∃ part, PeerAt prm t part)
    (action : PeerAction) :
    (t.peerStep prm action).serverStatus ≠ .failed →
      ∃ part, PeerAt prm (t.peerStep prm action) part := by
  cases action with
  | send bytes =>
      intro hfailed
      obtain ⟨part, hpart⟩ := h hfailed
      exact ⟨part,
        { server := by
            change prm.ServerAt t.server ((t.toServer ++ bytes).take t.serverRead) part
            rw [List.take_append_of_le_length hpart.serverRead_le]
            exact hpart.server
          serverRead_le := by
            have hle := hpart.serverRead_le
            change t.serverRead ≤ (t.toServer ++ bytes).length
            rw [List.length_append]
            omega
          success := hpart.success }⟩
  | server limits =>
      simp only [HandshakePair.peerStep, HandshakePair.step]
      split_ifs with hpending
      · intro hfailed
        obtain ⟨part, hpart⟩ := h (by rw [hpending]; decide)
        obtain ⟨part', hcall⟩ := hpart.server.serverHandshake limits
          (t.toServer.drop t.serverRead)
        generalize prm.serverHandshake limits t.server (t.toServer.drop t.serverRead) = call
          at hcall hfailed ⊢
        have hread := hcall.read_le
        have hle := hpart.serverRead_le
        rw [List.length_drop] at hread
        exact ⟨part',
          { server := by
              rw [List.take_add]
              exact hcall.serverAt hfailed
            serverRead_le := by
              dsimp only
              omega
            success := (hcall.success_iff hfailed).mp }⟩
      · exact h

theorem PeerAt.run (prm : HandshakeParams) (h : t.serverStatus ≠ .failed → ∃ part, PeerAt prm t part)
    (actions : List PeerAction) :
    (t.peerRun prm actions).serverStatus ≠ .failed →
      ∃ part, PeerAt prm (t.peerRun prm actions) part := by
  induction actions generalizing t with
  | nil => exact h
  | cons action actions ih => exact ih (PeerAt.step h action)

/-- The name which a switchbox keeps is what the peer has sent for it. -/
theorem PeerAt.cloudNetname (h : PeerAt prm t part) (hswitchbox : prm.switchbox = true)
    (hname : t.server.clientType &&& hasNetNameBit ≠ 0) (hdone : t.serverStatus = .success) :
    getHandshakeCloudNetname t.server = some (peerNetname t.toServer) := by
  have hmessage := h.server.done_iff.mp (h.success hdone).message
  have hreceives := h.server.message
  have hsent := List.take_append_drop t.serverRead t.toServer
  generalize t.toServer.take t.serverRead = got at hmessage hreceives hsent
  cases hreceives with
  | start => cases hmessage
  | header htype hc =>
      cases hmessage with
      | oneByte hbit =>
          rw [hc] at hname
          exact absurd hbit hname
  | @name c len name htype hbit hc hcopy hlen hpart hsz hpos hbuffer =>
      cases hmessage with
      | named _ hlength =>
          unfold NetnameBuffer at hbuffer
          rw [if_pos hswitchbox] at hbuffer
          obtain ⟨buf, hsome, hbuflen, htake⟩ := hbuffer
          have hpeer : peerNetname t.toServer = name := by
            unfold peerNetname
            rw [← hsent]
            change (name ++ t.toServer.drop t.serverRead).take len.toNat = name
            rw [← hlength, List.take_left]
          rw [hlength, ← hbuflen, List.take_length] at htake
          unfold getHandshakeCloudNetname
          rw [hsome, hpeer, htake]

theorem PeerAt.initial : PeerAt prm initialHandshakePair [] where
  server := PairAt.initial.server
  serverRead_le := Nat.le_refl 0
  success h := by cases h

end HandshakeParams

def HandshakePair.NetnameTerminated (t : HandshakePair) : Prop :=
  ∃ name, getHandshakeCloudNetname t.server = some name ∧ 0 ∈ name

/-- Both ends of this code never fail, finish when they are called often enough, and
then the message has arrived; the client has read all which the server has sent
exactly if it did not request a certificate or the size of the certificate is a
multiple of 256.  With any peer, the name is terminated exactly if the peer has sent
a NUL in it. -/
theorem handshake_round_trip_iff (prm : HandshakeParams) :
    (∀ actions,
      (initialHandshakePair.run prm actions).clientStatus ≠ .failed ∧
        (initialHandshakePair.run prm actions).serverStatus ≠ .failed) ∧
    (∀ (actions : List HandshakeAction) (rounds : List (List HandshakeAction)),
      (∀ round ∈ rounds, HandshakePair.IsRound round) →
      HandshakePair.handshakeWork prm ≤ rounds.length →
        (initialHandshakePair.run prm (actions ++ rounds.flatten)).Finished) ∧
    (∀ actions, (initialHandshakePair.run prm actions).Finished →
      (initialHandshakePair.run prm actions).MessageArrived prm ∧
        ((initialHandshakePair.run prm actions).clientRead =
            (initialHandshakePair.run prm actions).toClient.length ↔
          prm.CertificateRead)) ∧
    ∀ actions, prm.switchbox = true →
      (initialHandshakePair.peerRun prm actions).serverStatus = .success →
      (initialHandshakePair.peerRun prm actions).server.clientType &&& hasNetNameBit ≠ 0 →
        ((initialHandshakePair.peerRun prm actions).NetnameTerminated ↔
          0 ∈ peerNetname (initialHandshakePair.peerRun prm actions).toServer) := by
  refine ⟨fun actions => ?_, fun actions rounds hrounds hwork => ?_,
    fun actions hfinished => ?_, fun actions hswitchbox hdone hname => ?_⟩
  · obtain ⟨gotten, part, h⟩ := (PairAt.initial : PairAt prm initialHandshakePair [] []).run actions
    exact ⟨h.clientNotFailed, h.serverNotFailed⟩
  · obtain ⟨gotten, part, h⟩ := (PairAt.initial : PairAt prm initialHandshakePair [] []).run actions
    rw [HandshakePair.run_append]
    exact HandshakePair.rounds_finish h rounds hrounds
      (HandshakePair.remainingWork_le.trans hwork)
  · obtain ⟨gotten, part, h⟩ := (PairAt.initial : PairAt prm initialHandshakePair [] []).run actions
    exact ⟨h.messageArrived hfinished, h.all_read_iff hfinished⟩
  · obtain ⟨part, h⟩ := PeerAt.run prm (fun _ => ⟨[], .initial⟩) actions
      (by rw [hdone]; decide)
    have hkept := h.cloudNetname hswitchbox hname hdone
    constructor
    · rintro ⟨name, hsome, hnul⟩
      rw [hkept] at hsome
      cases hsome
      exact hnul
    · exact fun hnul => ⟨_, hkept, hnul⟩

def namedClient : HandshakeParams where
  networkNameSz := 32
  networkNameSz_le := by decide
  secure := false
  clientType := .networkService
  cloudNetname := [0x61]
  cloudNetname_noNul := by
    rw [List.mem_singleton]
    decide
  cloudNetname_fits := by decide
  requestTrustCertificate := false
  switchbox := true
  certificate := none
  certificate_fits _ h := by cases h
  fresh _ := 0

theorem unlimitedRound_isRound : HandshakePair.IsRound unlimitedRound := by
  constructor
  · refine ⟨⟨1, 128, [1, 1], 0xFFFF⟩, by simp [unlimitedRound], ?_⟩
    exact ⟨by decide, by decide, ⟨1, [1], rfl, by decide⟩, by decide⟩
  · refine ⟨⟨1, 1, 1, 128, 0xFFFF⟩, by simp [unlimitedRound], ?_⟩
    exact ⟨by decide, by decide, by decide, by decide, by decide⟩

theorem handshake_round_trip_named :
    (initialHandshakePair.run namedClient (unlimitedRounds 10)).Finished ∧
      (initialHandshakePair.run namedClient (unlimitedRounds 2)).MessageArrived namedClient ∧
      (initialHandshakePair.run namedClient (unlimitedRounds 2)).clientRead =
        (initialHandshakePair.run namedClient (unlimitedRounds 2)).toClient.length ∧
      (initialHandshakePair.peerRun namedClient
        [.send [0x52, 2, 0x61, 0], .server ⟨1, 1, 1, 128, 0⟩]).NetnameTerminated := by
  obtain ⟨-, hfinish, harrive, hpeer⟩ := handshake_round_trip_iff namedClient
  refine ⟨?_, ?_, ?_, ?_⟩
  · refine hfinish [] (List.replicate 10 unlimitedRound) ?_ (by decide)
    intro round hround
    rw [(List.mem_replicate.mp hround).2]
    exact unlimitedRound_isRound
  · exact (harrive (unlimitedRounds 2) (by decide)).1
  · exact (harrive (unlimitedRounds 2) (by decide)).2.mpr fun h => (by cases h)
  · exact (hpeer _ rfl (by decide) (by decide)).mpr (by decide)

/-- A peer whose name has no NUL. -/
theorem netname_of_peer_not_terminated :
    ¬∀ (prm : HandshakeParams) (actions : List PeerAction), prm.switchbox = true →
      (initialHandshakePair.peerRun prm actions).serverStatus = .success →
      (initialHandshakePair.peerRun prm actions).server.clientType &&& hasNetNameBit ≠ 0 →
        (initialHandshakePair.peerRun prm actions).NetnameTerminated := by
  intro hall
  obtain ⟨name, hname, hnul⟩ := hall namedClient
    [.send [0x52, 1, 0x61], .server ⟨1, 1, 1, 128, 0⟩] rfl (by decide) (by decide)
  have hkept : getHandshakeCloudNetname (initialHandshakePair.peerRun namedClient
      [.send [0x52, 1, 0x61], .server ⟨1, 1, 1, 128, 0⟩]).server = some [0x61] := by decide
  rw [hkept] at hname
  cases hname
  exact absurd hnul (by decide)

end Iocom
