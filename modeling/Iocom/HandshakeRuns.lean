import Iocom.HandshakeCalls

/-!
# Runs of the handshake

Both ends are called in any order, and the streams split the bytes in any way.  The
work which is left is counted in bytes: no call adds to it, and unless both ends have
finished, a call which may read and write takes from it.
-/

namespace Iocom

namespace HandshakeParams

variable {prm : HandshakeParams}

/-! ## Both ends of one socket -/

/-- Both ends, where the client has received `gotten` and the server has sent `part`
of the certificate. -/
structure PairAt (prm : HandshakeParams) (t : HandshakePair) (gotten part : List UInt8) :
    Prop where
  client : prm.ClientAt t.client t.toServer gotten
  server : prm.ServerAt t.server (t.toServer.take t.serverRead) part
  serverRead_le : t.serverRead ≤ t.toServer.length
  clientRead_le : t.clientRead ≤ t.toClient.length
  toClient : t.toClient = prm.markBytes t.server ++ part
  received : t.toClient.take t.clientRead = prm.markBytes t.client ++ gotten
  clientNotFailed : t.clientStatus ≠ .failed
  clientSuccess_iff : t.clientStatus = .success ↔ prm.ClientDone t.client gotten
  serverNotFailed : t.serverStatus ≠ .failed
  serverSuccess_iff : t.serverStatus = .success ↔ prm.ServerDone t.server part
  saved : t.saved = if prm.requestTrustCertificate then savedCert gotten else []

theorem ClientAt.not_complete {s : HandshakeState} {sent part : List UInt8}
    (h : prm.ClientAt s sent part) (hnotDone : ¬prm.ClientDone s part) :
    prm.requestTrustCertificate = true → ¬CertComplete part := by
  intro hrequest hcomplete
  have hne : part ≠ [] := by
    rintro rfl
    exact absurd hcomplete.two_le_length (by decide)
  refine hnotDone ⟨?_, ?_, fun _ => hcomplete⟩
  · by_contra hno
    exact hne (h.unmarked hno).2
  · rw [← Bool.not_eq_false]
    exact fun hno => hne (h.waiting hno)

/-- The first byte of the message carries the client type and both flags. -/
theorem header_flags (prm : HandshakeParams) (name : Bool) {c : UInt8}
    (hc : c = prm.oneByteHandshake ||| if name then hasNetNameBit else 0) :
    isClientType c ∧ c &&& handshakeTypeMask = prm.clientType.code ∧
      decide (c &&& requestTrustCertificateBit ≠ 0) = prm.requestTrustCertificate ∧
      (c &&& hasNetNameBit ≠ 0 ↔ name = true) := by
  subst hc
  unfold oneByteHandshake
  cases prm.clientType <;> cases prm.requestTrustCertificate <;> cases name <;> decide

theorem clientMessageBytes_cases (prm : HandshakeParams) :
    (prm.cloudNetname = [] ∧ prm.clientMessageBytes =
        [prm.oneByteHandshake ||| if false then hasNetNameBit else 0]) ∨
      (prm.cloudNetname ≠ [] ∧ ∃ len, len.toNat = prm.cloudNetname.length + 1 ∧
        prm.clientMessageBytes =
          (prm.oneByteHandshake ||| if true then hasNetNameBit else 0) :: len ::
            (prm.cloudNetname ++ [0])) := by
  have hle := prm.cloudNetname_length_le
  by_cases hname : prm.cloudNetname = []
  · refine Or.inl ⟨hname, ?_⟩
    change _ = [prm.oneByteHandshake ||| 0]
    rw [UInt8.or_zero]
    exact if_pos hname
  · refine Or.inr ⟨hname, UInt8.ofNat (prm.cloudNetname.length + 1), ?_, if_neg hname⟩
    rw [UInt8.toNat_ofNat']
    exact Nat.mod_eq_of_lt (by omega)

/-- What the client sends is accepted, however far the server has read. -/
theorem not_isRefused {got : List UInt8} (hstarts : got <+: prm.clientMessageBytes) :
    ¬IsRefused prm got := by
  have hfits := prm.cloudNetname_fits
  intro hrefused
  rcases prm.clientMessageBytes_cases with ⟨-, hbytes⟩ | ⟨-, len, hlen, hbytes⟩
  · rw [hbytes] at hstarts
    cases hrefused with
    | type htype => exact htype (header_flags prm false (List.cons_prefix_cons.mp hstarts).1).1
    | length _ =>
        have hshort := hstarts.length_le
        simp only [List.length_cons, List.length_nil] at hshort
        omega
  · rw [hbytes] at hstarts
    cases hrefused with
    | type htype => exact htype (header_flags prm true (List.cons_prefix_cons.mp hstarts).1).1
    | length hrefused =>
        refine hrefused ?_
        rw [List.cons_prefix_cons, List.cons_prefix_cons] at hstarts
        rw [hstarts.2.1]
        unfold IsNameLength
        omega

theorem PairAt.initial : PairAt prm initialHandshakePair [] [] where
  client :=
    { message :=
        { isPrefix := List.nil_prefix
          done_iff := ⟨fun h => (by cases h), fun h => absurd h.symm clientMessageBytes_ne_nil⟩
          buffer := Or.inl ⟨rfl, rfl, fun _ => rfl, fun h => (by cases h)⟩ }
      cert := .start rfl rfl
      unmarked := fun _ => ⟨rfl, rfl⟩
      waiting := fun _ => rfl
      noRequest := fun _ => rfl }
  server :=
    { message := .start rfl rfl rfl
      done_iff := ⟨fun h => (by cases h), fun h => (by cases h)⟩
      cert := ⟨List.nil_prefix, rfl, Or.inl ⟨rfl, rfl⟩⟩
      unmarked := fun _ => ⟨rfl, rfl⟩
      waiting := fun _ => rfl
      noCopy := fun _ => rfl }
  serverRead_le := Nat.le_refl 0
  clientRead_le := Nat.le_refl 0
  toClient := by
    unfold markBytes
    rw [if_neg (by simp [initialHandshakePair, initializeHandshakeState])]
    rfl
  received := by
    unfold markBytes
    rw [if_neg (by simp [initialHandshakePair, initializeHandshakeState])]
    rfl
  clientNotFailed := by decide
  clientSuccess_iff := ⟨fun h => (by cases h), fun h => absurd h.message (by decide)⟩
  serverNotFailed := by decide
  serverSuccess_iff := ⟨fun h => (by cases h), fun h => absurd h.message (by decide)⟩
  saved := by split_ifs <;> rfl

theorem PairAt.unread_mark {t : HandshakePair} {gotten part : List UInt8}
    (h : PairAt prm t gotten part) (hmarked : ¬prm.Marked t.client) (c : UInt8)
    (rest : List UInt8) (hinput : t.toClient.drop t.clientRead = c :: rest) :
    c = secureMarkByte := by
  obtain ⟨hmark, hsecure, -⟩ := markBytes_of_not_marked hmarked
  obtain ⟨-, rfl⟩ := h.client.unmarked hmarked
  have hread : t.clientRead = 0 := by
    have hlength := congrArg List.length h.received
    have hle := h.clientRead_le
    rw [hmark, List.length_take, List.append_nil, List.length_nil] at hlength
    omega
  rw [hread, List.drop_zero, h.toClient] at hinput
  by_cases hserver : prm.Marked t.server
  · have hbytes : prm.markBytes t.server = [secureMarkByte] := by
      unfold markBytes
      rw [hsecure, hserver hsecure]
      rfl
    rw [hbytes] at hinput
    cases hinput
    rfl
  · rw [(markBytes_of_not_marked hserver).1, (h.server.unmarked hserver).2] at hinput
    cases hinput

theorem PairAt.clientCall {t : HandshakePair} {gotten part : List UInt8}
    (h : PairAt prm t gotten part) (hpending : t.clientStatus = .pending)
    (limits : ClientLimits) :
    ∃ gotten', prm.ClientCall limits t.client t.toServer gotten
      (t.toClient.drop t.clientRead)
      (prm.clientHandshake limits t.client (t.toClient.drop t.clientRead)) gotten' := by
  have hnotDone : ¬prm.ClientDone t.client gotten := by
    rw [← h.clientSuccess_iff, hpending]
    decide
  exact h.client.clientHandshake hnotDone limits h.unread_mark

theorem PairAt.client_step {t : HandshakePair} {gotten part : List UInt8}
    (h : PairAt prm t gotten part) (limits : ClientLimits) :
    ∃ gotten', PairAt prm (t.step prm (.client limits)) gotten' part := by
  simp only [HandshakePair.step]
  split_ifs with hpending
  · have hnotDone : ¬prm.ClientDone t.client gotten := by
      rw [← h.clientSuccess_iff, hpending]
      decide
    obtain ⟨gotten', hcall⟩ := h.clientCall hpending limits
    generalize prm.clientHandshake limits t.client (t.toClient.drop t.clientRead) = call
      at hcall ⊢
    have hread := hcall.read_le
    rw [List.length_drop] at hread
    have hle := h.clientRead_le
    exact ⟨gotten',
      { client := hcall.clientAt
        server := by
          rw [List.take_append_of_le_length h.serverRead_le]
          exact h.server
        serverRead_le := by
          have hle' := h.serverRead_le
          dsimp only
          rw [List.length_append]
          omega
        clientRead_le := by
          dsimp only
          omega
        toClient := h.toClient
        received := by
          rw [List.take_add, h.received]
          exact hcall.received
        clientNotFailed := hcall.notFailed
        clientSuccess_iff := hcall.success_iff
        serverNotFailed := h.serverNotFailed
        serverSuccess_iff := h.serverSuccess_iff
        saved := by
          have hbefore : t.saved = [] := by
            rw [h.saved]
            split_ifs with hrequest
            · exact savedCert_of_not_complete (h.client.not_complete hnotDone hrequest)
            · rfl
          rw [hbefore, List.nil_append]
          exact hcall.saved }⟩
  · exact ⟨gotten, h⟩

theorem PairAt.serverCall {t : HandshakePair} {gotten part : List UInt8}
    (h : PairAt prm t gotten part) (limits : ServerLimits) :
    ∃ part', prm.ServerCall limits t.server (t.toServer.take t.serverRead) part
        (t.toServer.drop t.serverRead)
        (prm.serverHandshake limits t.server (t.toServer.drop t.serverRead)) part' ∧
      (prm.serverHandshake limits t.server (t.toServer.drop t.serverRead)).status ≠ .failed := by
  obtain ⟨part', hcall⟩ := h.server.serverHandshake limits (t.toServer.drop t.serverRead)
  refine ⟨part', hcall, fun hfailed => ?_⟩
  have hrefused := hcall.refused hfailed
  rw [← List.take_add] at hrefused
  exact not_isRefused ((List.take_prefix _ _).trans h.client.message.isPrefix) hrefused

theorem PairAt.server_step {t : HandshakePair} {gotten part : List UInt8}
    (h : PairAt prm t gotten part) (limits : ServerLimits) :
    ∃ part', PairAt prm (t.step prm (.server limits)) gotten part' := by
  simp only [HandshakePair.step]
  split_ifs with hpending
  · obtain ⟨part', hcall, hfailed⟩ := h.serverCall limits
    generalize prm.serverHandshake limits t.server (t.toServer.drop t.serverRead) = call
      at hcall hfailed ⊢
    have hread := hcall.read_le
    rw [List.length_drop] at hread
    have hle := h.serverRead_le
    exact ⟨part',
      { client := h.client
        server := by
          rw [List.take_add]
          exact hcall.serverAt hfailed
        serverRead_le := by
          dsimp only
          omega
        clientRead_le := by
          have hle' := h.clientRead_le
          dsimp only
          rw [List.length_append]
          omega
        toClient := by
          rw [h.toClient]
          exact hcall.written
        received := by
          rw [List.take_append_of_le_length h.clientRead_le]
          exact h.received
        clientNotFailed := h.clientNotFailed
        clientSuccess_iff := h.clientSuccess_iff
        serverNotFailed := hfailed
        serverSuccess_iff := hcall.success_iff hfailed
        saved := h.saved }⟩
  · exact ⟨part, h⟩

theorem PairAt.run {t : HandshakePair} {gotten part : List UInt8} (h : PairAt prm t gotten part)
    (actions : List HandshakeAction) :
    ∃ gotten' part', PairAt prm (t.run prm actions) gotten' part' := by
  induction actions generalizing t gotten part with
  | nil => exact ⟨gotten, part, h⟩
  | cons action actions ih =>
      cases action with
      | client limits =>
          obtain ⟨gotten', hstep⟩ := h.client_step limits
          exact ih hstep
      | server limits =>
          obtain ⟨part', hstep⟩ := h.server_step limits
          exact ih hstep

/-! ## What has been transferred -/

theorem IsHandshakeMessage.eq_clientMessageBytes {got : List UInt8}
    (h : IsHandshakeMessage got) (hstarts : got <+: prm.clientMessageBytes) :
    got = prm.clientMessageBytes := by
  refine hstarts.eq_of_length ?_
  rcases prm.clientMessageBytes_cases with ⟨-, hbytes⟩ | ⟨-, len, hlen, hbytes⟩
  · rw [hbytes] at hstarts ⊢
    cases h with
    | oneByte => rfl
    | named =>
        have hshort := hstarts.length_le
        simp only [List.length_cons, List.length_nil] at hshort
        omega
  · rw [hbytes] at hstarts ⊢
    have hhead := header_flags prm true rfl
    cases h with
    | oneByte hbit =>
        rw [(List.cons_prefix_cons.mp hstarts).1] at hbit
        exact absurd hbit (hhead.2.2.2.mpr rfl)
    | named _ hname =>
        rw [List.cons_prefix_cons, List.cons_prefix_cons] at hstarts
        rw [List.length_cons, List.length_cons, hname, hstarts.2.1, hlen, List.length_cons,
          List.length_cons, List.length_append, List.length_singleton]

theorem PairAt.server_message {t : HandshakePair} {gotten part : List UInt8}
    (h : PairAt prm t gotten part) (hdone : t.server.handShakeMessageDone = true) :
    t.toServer = prm.clientMessageBytes ∧ t.serverRead = t.toServer.length := by
  have hgot := (h.server.done_iff.mp hdone).eq_clientMessageBytes
    ((List.take_prefix _ _).trans h.client.message.isPrefix)
  have hsent : t.toServer = prm.clientMessageBytes := by
    refine h.client.message.isPrefix.eq_of_length_le ?_
    rw [← hgot]
    exact (List.take_prefix _ _).length_le
  refine ⟨hsent, Nat.le_antisymm h.serverRead_le ?_⟩
  have hlength := congrArg List.length hgot
  rw [← hsent, List.length_take] at hlength
  omega

def keptNetname (prm : HandshakeParams) : Option (List UInt8) :=
  if prm.switchbox ∧ prm.cloudNetname ≠ [] then some (prm.cloudNetname ++ [0]) else none

theorem ServerReceives.data {s : HandshakeState}
    (h : ServerReceives prm s prm.clientMessageBytes) :
    s.clientType &&& handshakeTypeMask = prm.clientType.code ∧
      s.copyTrustCertificate = prm.requestTrustCertificate ∧
      s.cloudNetname = prm.keptNetname := by
  unfold keptNetname
  rcases prm.clientMessageBytes_cases with ⟨hname, hbytes⟩ | ⟨hname, len, hlen, hbytes⟩
  · rw [hbytes] at h
    rw [if_neg fun hkept => hkept.2 hname]
    cases h with
    | header htype hc hcopy hpos hnone =>
        obtain ⟨-, hmask, hrequest, -⟩ := header_flags prm false rfl
        rw [hc]
        exact ⟨hmask, hcopy.trans hrequest, hnone⟩
  · rw [hbytes] at h
    cases h with
    | name htype hbit hc hcopy hlen' hpart hsz hpos hbuf =>
        obtain ⟨-, hmask, hrequest, -⟩ := header_flags prm true rfl
        rw [hc]
        refine ⟨hmask, hcopy.trans hrequest, ?_⟩
        unfold NetnameBuffer at hbuf
        split_ifs at hbuf with hswitchbox
        · obtain ⟨buf, hsome, hbuflen, htake⟩ := hbuf
          rw [if_pos ⟨hswitchbox, hname⟩, hsome, ← htake]
          refine congrArg some (List.take_of_length_le ?_).symm
          rw [hbuflen, hlen, List.length_append, List.length_singleton]
        · rw [if_neg fun hkept => hswitchbox hkept.1, hbuf]

theorem PairAt.marked {t : HandshakePair} {gotten part : List UInt8}
    (h : PairAt prm t gotten part) (hclient : prm.Marked t.client) (hread : t.toClient ≠ []) :
    prm.markBytes t.client = prm.markBytes t.server := by
  by_cases hserver : prm.Marked t.server
  · unfold markBytes
    cases hsecure : prm.secure with
    | false => rfl
    | true => rw [hclient hsecure, hserver hsecure]
  · refine absurd ?_ hread
    rw [h.toClient, (markBytes_of_not_marked hserver).1, (h.server.unmarked hserver).2]
    rfl

/-- The client has received the beginning of what the server has sent. -/
theorem PairAt.gotten_isPrefix {t : HandshakePair} {gotten part : List UInt8}
    (h : PairAt prm t gotten part) : gotten <+: part := by
  by_cases hempty : gotten = []
  · rw [hempty]
    exact List.nil_prefix
  · have hclient : prm.Marked t.client := by
      by_contra hno
      exact hempty (h.client.unmarked hno).2
    have hne : t.toClient ≠ [] := by
      intro hnothing
      have hreceived := h.received
      rw [hnothing, List.take_nil] at hreceived
      exact hempty (List.append_eq_nil_iff.mp hreceived.symm).2
    have hstarts : prm.markBytes t.client ++ gotten <+: prm.markBytes t.server ++ part := by
      rw [← h.received, ← h.toClient]
      exact List.take_prefix _ _
    rw [h.marked hclient hne] at hstarts
    exact (List.prefix_append_right_inj _).mp hstarts

/-- A client which is done has read as much more as the server has sent more. -/
theorem PairAt.unread_length {t : HandshakePair} {gotten part : List UInt8}
    (h : PairAt prm t gotten part) (hclient : prm.Marked t.client)
    (hserver : prm.Marked t.server) :
    t.clientRead + (part.length - gotten.length) = t.toClient.length := by
  have hread := congrArg List.length h.received
  have hsent := congrArg List.length h.toClient
  have hle := h.clientRead_le
  have hstarts := h.gotten_isPrefix.length_le
  have hmark : prm.markBytes t.client = prm.markBytes t.server := by
    unfold markBytes
    cases hsecure : prm.secure with
    | false => rfl
    | true => rw [hclient hsecure, hserver hsecure]
  rw [List.length_take, List.length_append, hmark] at hread
  rw [List.length_append] at hsent
  omega

theorem certComplete_content {content gotten : List UInt8} (hfits : content.length ≤ 65532)
    (hcomplete : CertComplete gotten)
    (hstarts : gotten <+: [UInt8.ofNat content.length, UInt8.ofNat (content.length / 0x100)] ++
      content) :
    gotten.length = 2 + 0x100 * (content.length / 0x100) ∧
      savedCert gotten =
        if content.length / 0x100 = 0 then []
        else [(content.take (0x100 * (content.length / 0x100)),
          0x100 * (content.length / 0x100))] := by
  cases hcomplete with
  | @intro lo hi body hbody =>
      have hlength : (UInt8.ofNat (content.length / 0x100)).toNat = content.length / 0x100 := by
        rw [UInt8.toNat_ofNat']
        exact Nat.mod_eq_of_lt (by omega)
      simp only [List.cons_append, List.nil_append, List.cons_prefix_cons] at hstarts
      obtain ⟨-, rfl, htail⟩ := hstarts
      rw [hlength] at hbody
      refine ⟨by rw [List.length_cons, List.length_cons, hbody]; omega, ?_⟩
      unfold savedCert
      dsimp only
      rw [hlength, List.prefix_iff_eq_take.mp htail, hbody]
      have hzero : UInt8.ofNat (content.length / 0x100) = 0 ↔ content.length / 0x100 = 0 := by
        rw [← UInt8.toNat_inj, hlength]
        rfl
      have htaken : (content.take (0x100 * (content.length / 0x100))).length =
          0x100 * (content.length / 0x100) := by
        rw [List.length_take]
        omega
      by_cases h0 : content.length / 0x100 = 0
      · rw [if_pos h0, if_neg fun hsaved => hsaved.1 (hzero.mpr h0)]
      · rw [if_neg h0, if_pos ⟨fun hsaved => h0 (hzero.mp hsaved), htaken⟩]

def certContent (prm : HandshakeParams) : List UInt8 := prm.certificate.getD []

theorem certContent_length_le (prm : HandshakeParams) : prm.certContent.length ≤ 65532 := by
  unfold certContent
  cases hcertificate : prm.certificate with
  | none => exact Nat.zero_le _
  | some content => exact prm.certificate_fits content hcertificate

theorem certMessage_eq : prm.certMessage =
    [UInt8.ofNat prm.certContent.length, UInt8.ofNat (prm.certContent.length / 0x100)] ++
      prm.certContent := by
  unfold certMessage certContent
  cases prm.certificate with
  | none => rfl
  | some content =>
      dsimp only [Option.getD_some]
      split_ifs with hempty
      · rw [hempty]
        rfl
      · rfl

/-- What a client has received and saved which has completed. -/
theorem PairAt.certificate {t : HandshakePair} {gotten part : List UInt8}
    (h : PairAt prm t gotten part) (hrequest : prm.requestTrustCertificate = true)
    (hdone : t.clientStatus = .success) :
    gotten.length = 2 + 0x100 * (prm.certContent.length / 0x100) ∧
      t.saved =
        if prm.certContent.length / 0x100 = 0 then []
        else [(prm.certContent.take (0x100 * (prm.certContent.length / 0x100)),
          0x100 * (prm.certContent.length / 0x100))] := by
  have hcomplete := (h.clientSuccess_iff.mp hdone).cert hrequest
  have hstarts := h.gotten_isPrefix.trans h.server.cert.isPrefix
  rw [certMessage_eq] at hstarts
  obtain ⟨hlength, hsaved⟩ := certComplete_content prm.certContent_length_le hcomplete hstarts
  rw [h.saved, if_pos hrequest]
  exact ⟨hlength, hsaved⟩

/-- The server is marked when the client has received anything from it. -/
theorem PairAt.server_marked {t : HandshakePair} {gotten part : List UInt8}
    (h : PairAt prm t gotten part) (hclient : prm.Marked t.client) : prm.Marked t.server := by
  intro hsecure
  by_contra hno
  have hserver : ¬prm.Marked t.server := fun hmarked => hno (hmarked hsecure)
  have hnothing : t.toClient = [] := by
    rw [h.toClient, (markBytes_of_not_marked hserver).1, (h.server.unmarked hserver).2]
    rfl
  have hreceived := h.received
  have hmark : prm.markBytes t.client = [secureMarkByte] := by
    unfold markBytes
    rw [hsecure, hclient hsecure]
    rfl
  rw [hnothing, hmark, List.take_nil] at hreceived
  cases hreceived

end HandshakeParams

open HandshakeParams

/-- When the client has completed, it has saved what the server loaded, and has read
all which the server sent, exactly if the size is a multiple of 256. -/
theorem certificate_transfer_iff (prm : HandshakeParams) (content : List UInt8)
    (hrequest : prm.requestTrustCertificate = true)
    (hcertificate : prm.certificate = some content) (hsize : 1 ≤ content.length)
    (actions : List HandshakeAction)
    (hdone : (initialHandshakePair.run prm actions).clientStatus = .success) :
    ((initialHandshakePair.run prm actions).saved = [(content, content.length)] ∧
        (initialHandshakePair.run prm actions).clientRead =
          (initialHandshakePair.run prm actions).toClient.length) ↔
      0x100 ∣ content.length := by
  obtain ⟨gotten, part, h⟩ := (PairAt.initial : PairAt prm initialHandshakePair [] []).run actions
  generalize initialHandshakePair.run prm actions = t at h hdone ⊢
  have hcontent : prm.certContent = content := by
    unfold certContent
    rw [hcertificate]
    rfl
  obtain ⟨hlength, hsaved⟩ := h.certificate hrequest hdone
  have hclient := (h.clientSuccess_iff.mp hdone).marked
  have hunread := h.unread_length hclient (h.server_marked hclient)
  have hpart := h.server.cert.isPrefix.length_le
  have hgotten := h.gotten_isPrefix.length_le
  rw [certMessage_eq, hcontent] at hpart
  rw [hcontent] at hlength hsaved
  simp only [List.length_append, List.length_cons, List.length_nil] at hpart
  rw [hsaved]
  constructor
  · rintro ⟨hcalled, -⟩
    split_ifs at hcalled with hzero
    rw [List.cons.injEq, Prod.mk.injEq] at hcalled
    exact ⟨_, hcalled.1.2.symm⟩
  · rintro ⟨k, hk⟩
    have hdiv : content.length / 0x100 = k := by omega
    have hwhole : content.take (0x100 * k) = content := List.take_of_length_le hk.le
    rw [hdiv, if_neg (by omega), hwhole, hk]
    refine ⟨rfl, ?_⟩
    omega

/-! ## Certificates of 256 bytes and of one byte -/

/-- A client of a switchbox, without a name, which requests this certificate. -/
def requestingClient (certificate : List UInt8) (hfits : certificate.length ≤ 65532) :
    HandshakeParams where
  networkNameSz := 24
  networkNameSz_le := by decide
  secure := true
  clientType := .client
  cloudNetname := []
  cloudNetname_noNul := List.not_mem_nil
  cloudNetname_fits := by decide
  requestTrustCertificate := true
  switchbox := true
  certificate := some certificate
  certificate_fits := by
    rintro _ ⟨⟩
    exact hfits
  fresh _ := 0

def unlimitedRound : List HandshakeAction :=
  [.server ⟨1, 1, 1, 128, 0xFFFF⟩, .client ⟨1, 128, [1, 1], 0xFFFF⟩]

def unlimitedRounds (n : ℕ) : List HandshakeAction := (List.replicate n unlimitedRound).flatten

/-- A certificate of 256 bytes, whose size fills the high size byte only. -/
def wholeCertificate : List UInt8 := List.replicate 0x100 7

theorem wholeCertificate_length : wholeCertificate.length = 0x100 := List.length_replicate

def requestingWhole : HandshakeParams :=
  requestingClient wholeCertificate (by rw [wholeCertificate_length]; decide)

theorem certificate_transfer_wholeCertificate :
    (initialHandshakePair.run requestingWhole (unlimitedRounds 2)).saved =
        [(wholeCertificate, wholeCertificate.length)] ∧
      (initialHandshakePair.run requestingWhole (unlimitedRounds 2)).clientRead =
        (initialHandshakePair.run requestingWhole (unlimitedRounds 2)).toClient.length :=
  (certificate_transfer_iff requestingWhole wholeCertificate rfl rfl
    (by rw [wholeCertificate_length]; decide) (unlimitedRounds 2) (by decide +kernel)).mpr
      (by rw [wholeCertificate_length])

/-- The certificate is not saved, although its transfer has completed. -/
theorem certificate_of_one_byte_not_saved :
    ¬∀ (prm : HandshakeParams) (content : List UInt8) (actions : List HandshakeAction),
      prm.requestTrustCertificate = true → prm.certificate = some content →
      1 ≤ content.length →
      (initialHandshakePair.run prm actions).clientStatus = .success →
      (initialHandshakePair.run prm actions).saved = [(content, content.length)] ∧
        (initialHandshakePair.run prm actions).clientRead =
          (initialHandshakePair.run prm actions).toClient.length := by
  intro hall
  have hsaved := (hall (requestingClient [7] (by decide)) [7] (unlimitedRounds 2) rfl rfl
    (by decide) (by decide)).1
  exact absurd hsaved (by decide)

end Iocom
