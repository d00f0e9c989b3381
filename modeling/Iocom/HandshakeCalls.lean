import Iocom.TrustCertificate

/-!
# One call of each end

Each end goes through the mark byte, the handshake message and the certificate in
this order, and a later call goes on where the one before it stopped.
-/

namespace Iocom

namespace HandshakeParams

variable (prm : HandshakeParams)

def markBytes (s : HandshakeState) : List UInt8 :=
  if prm.secure && s.markByteDone then [secureMarkByte] else []

/-- The mark byte is through, or the socket has none. -/
def Marked (s : HandshakeState) : Prop :=
  prm.secure = true → s.markByteDone = true

instance (s : HandshakeState) : Decidable (prm.Marked s) := by
  unfold Marked
  infer_instance

variable {prm}

theorem Marked.congr {s s' : HandshakeState} (h : prm.Marked s)
    (hsame : s'.markByteDone = s.markByteDone) : prm.Marked s' :=
  fun hsecure => hsame.trans (h hsecure)

theorem markBytes_congr {s s' : HandshakeState} (hsame : s'.markByteDone = s.markByteDone) :
    prm.markBytes s' = prm.markBytes s := by
  unfold markBytes
  rw [hsame]

theorem markBytes_of_not_marked {s : HandshakeState} (h : ¬prm.Marked s) :
    prm.markBytes s = [] ∧ prm.secure = true ∧ s.markByteDone = false := by
  unfold Marked at h
  unfold markBytes
  cases hsecure : prm.secure <;> cases hmark : s.markByteDone <;> simp_all

variable (prm)

/-! ## The client -/

/-- The client has sent its message as far as `sent`, and received `part` of the
certificate. -/
structure ClientAt (s : HandshakeState) (sent part : List UInt8) : Prop where
  message : prm.ClientSends s sent
  cert : ReceivedCert s part
  unmarked : ¬prm.Marked s → sent = [] ∧ part = []
  waiting : s.handShakeMessageDone = false → part = []
  noRequest : prm.requestTrustCertificate = false → part = []

structure ClientDone (s : HandshakeState) (part : List UInt8) : Prop where
  marked : prm.Marked s
  message : s.handShakeMessageDone = true
  cert : prm.requestTrustCertificate = true → CertComplete part

def ClientCanMove (s : HandshakeState) (input : List UInt8) : Prop :=
  (prm.Marked s ∧ s.handShakeMessageDone = false) ∨ input ≠ []

/-- What one call does to a client at `sent` and `part`. -/
structure ClientCall (limits : ClientLimits) (s : HandshakeState)
    (sent part input : List UInt8) (call : HandshakeCall) (part' : List UInt8) : Prop where
  clientAt : prm.ClientAt call.state (sent ++ call.written) part'
  received : prm.markBytes s ++ part ++ input.take call.read =
    prm.markBytes call.state ++ part'
  read_le : call.read ≤ input.length
  notFailed : call.status ≠ .failed
  success_iff : call.status = .success ↔ prm.ClientDone call.state part'
  saved : call.saved = if prm.requestTrustCertificate then savedCert part' else []
  moves : limits.Positive → prm.ClientCanMove s input → call.status = .pending →
    0 < call.read + call.written.length

variable {prm}

theorem ClientAt.processTrustCertificate {s : HandshakeState} {sent part : List UInt8}
    (h : prm.ClientAt s sent part) (hmarked : prm.Marked s)
    (hmessage : s.handShakeMessageDone = true)
    (hincomplete : prm.requestTrustCertificate = true → ¬CertComplete part)
    (limits : ClientLimits) (input : List UInt8) :
    ∃ part', prm.ClientCall limits s sent part input
      (prm.processTrustCertificate limits s input) part' := by
  unfold HandshakeParams.processTrustCertificate
  cases hrequest : prm.requestTrustCertificate with
  | false =>
      rw [if_neg (by decide)]
      exact ⟨part,
        { clientAt := by
            change prm.ClientAt s (sent ++ []) part
            rwa [List.append_nil]
          received := List.append_nil _
          read_le := Nat.zero_le _
          notFailed := fun hfailed => (by cases hfailed)
          success_iff := ⟨fun _ => ⟨hmarked, hmessage, fun h => by rw [hrequest] at h; cases h⟩,
            fun _ => rfl⟩
          saved := by
            rw [hrequest]
            rfl
          moves := fun _ _ hpending => (by cases hpending) }⟩
  | true =>
      have hcall := h.cert.readCert prm limits (hincomplete hrequest) input
      rw [if_pos rfl]
      generalize (HandshakeParams.readCertSize limits.certSize s input).andThen input
        (prm.readCert limits.cert) = call at hcall ⊢
      have hmarked' := hmarked.congr hcall.mark
      have hmessage' := hcall.message.handShakeMessageDone.trans hmessage
      exact ⟨part ++ input.take call.read,
        { clientAt :=
            { message := by
                rw [hcall.nothingWritten, List.append_nil]
                exact h.message.sameMessage hcall.message
              cert := hcall.received
              unmarked := fun hno => absurd hmarked' hno
              waiting := fun hno => by
                rw [hmessage'] at hno
                cases hno
              noRequest := fun hno => by
                rw [hrequest] at hno
                cases hno }
          received := by rw [markBytes_congr hcall.mark, List.append_assoc]
          read_le := hcall.read_le
          notFailed := hcall.notFailed
          success_iff := by
            rw [hcall.success_iff]
            exact ⟨fun hcomplete => ⟨hmarked', hmessage', fun _ => hcomplete⟩,
              fun hdone => hdone.cert hrequest⟩
          saved := by rw [hcall.saved, if_pos hrequest]
          moves := fun hpositive hmove hpending => by
            rcases hmove with ⟨-, hno⟩ | hinput
            · rw [hmessage] at hno
              cases hno
            · have hread := hcall.moves hpositive hinput hpending
              omega }⟩

/-- The certificate does not depend on the handshake message. -/
theorem ReceivedCert.sameCertificate {s s' : HandshakeState} {part : List UInt8}
    (h : ReceivedCert s part) (hsame : SameCertificate s s') : ReceivedCert s' part :=
  h.congr hsame.certPos hsame.certSz hsame.cert

theorem ClientAt.clientMessage {s : HandshakeState} {sent part : List UInt8}
    (h : prm.ClientAt s sent part) (hmarked : prm.Marked s)
    (hnotDone : ¬prm.ClientDone s part) (limits : ClientLimits) (input : List UInt8) :
    ∃ part', prm.ClientCall limits s sent part input
      ((prm.clientMessage limits.message s).andThen input (prm.processTrustCertificate limits))
      part' := by
  have hwrites := h.message.clientMessage limits.message
  -- A message which is complete stays so, and is not written again.
  have hold : s.handShakeMessageDone = true → sent = prm.clientMessageBytes :=
    h.message.done_iff.mp
  generalize prm.clientMessage limits.message s = call at hwrites ⊢
  have hmarked' := hmarked.congr hwrites.certificate.markByteDone
  have hdone_iff := hwrites.success_iff.trans hwrites.sends.done_iff.symm
  have hclientAt : prm.ClientAt call.state (sent ++ call.written) part :=
    { message := hwrites.sends
      cert := h.cert.sameCertificate hwrites.certificate
      unmarked := fun hno => absurd hmarked' hno
      waiting := fun hno => by
        refine h.waiting ?_
        cases hdone : s.handShakeMessageDone with
        | false => rfl
        | true =>
            have hempty : call.written = [] := by
              rw [hwrites.written, hold hdone, List.drop_length, List.take_nil]
            rw [hwrites.sends.done_iff.mpr (by rw [hempty, hold hdone, List.append_nil])] at hno
            cases hno
      noRequest := h.noRequest }
  by_cases hstatus : call.status = .success
  · have hmessage := hdone_iff.mp hstatus
    have hincomplete : prm.requestTrustCertificate = true → ¬CertComplete part := by
      intro hrequest hcomplete
      cases hdone : s.handShakeMessageDone with
      | false =>
          have hlong := hcomplete.two_le_length
          rw [h.waiting hdone] at hlong
          exact absurd hlong (by decide)
      | true => exact hnotDone ⟨hmarked, hdone, fun _ => hcomplete⟩
    obtain ⟨part', hcall⟩ := hclientAt.processTrustCertificate hmarked' hmessage hincomplete
      limits input
    rw [HandshakeCall.andThen_of_success hstatus, hwrites.nothingRead, List.drop_zero]
    generalize prm.processTrustCertificate limits call.state input = second at hcall ⊢
    exact ⟨part',
      { clientAt := by
          rw [← List.append_assoc]
          exact hcall.clientAt
        received := by
          dsimp only
          rw [Nat.zero_add, ← markBytes_congr hwrites.certificate.markByteDone]
          exact hcall.received
        read_le := by
          dsimp only
          rw [Nat.zero_add]
          exact hcall.read_le
        notFailed := hcall.notFailed
        success_iff := hcall.success_iff
        saved := by
          rw [hwrites.nothingSaved]
          exact hcall.saved
        moves := fun hpositive hmove hpending => by
          dsimp only
          rw [List.length_append]
          rcases hmove with ⟨-, hno⟩ | hinput
          · have hwritten : call.written ≠ [] := by
              intro hempty
              have hsent := hwrites.success_iff.mp hstatus
              rw [hempty, List.append_nil] at hsent
              rw [h.message.done_iff.mpr hsent] at hno
              cases hno
            have hpos := List.length_pos_iff.mpr hwritten
            omega
          · have hmoves := hcall.moves hpositive (Or.inr hinput) hpending
            omega }⟩
  · have hnotSent : call.state.handShakeMessageDone ≠ true := fun hdone =>
      hstatus (hdone_iff.mpr hdone)
    have hpart : part = [] := hclientAt.waiting (Bool.eq_false_iff.mpr hnotSent)
    rw [HandshakeCall.andThen_of_ne hstatus]
    exact ⟨part,
      { clientAt := hclientAt
        received := by
          rw [hwrites.nothingRead, List.take_zero, List.append_nil,
            markBytes_congr hwrites.certificate.markByteDone]
        read_le := by
          rw [hwrites.nothingRead]
          exact Nat.zero_le _
        notFailed := hwrites.notFailed
        success_iff := ⟨fun h => absurd h hstatus, fun h => absurd h.message hnotSent⟩
        saved := by
          rw [hwrites.nothingSaved, hpart]
          split_ifs <;> rfl
        moves := fun hpositive _ _ => by
          have hne : prm.clientMessageBytes.drop sent.length ≠ [] := by
            intro hempty
            refine hstatus (hwrites.success_iff.mpr ?_)
            rw [hwrites.written, hempty, List.take_nil, List.append_nil]
            refine h.message.isPrefix.eq_of_length_le ?_
            exact List.drop_eq_nil_iff.mp hempty
          have hpos := List.length_pos_iff.mpr hne
          have hmessage := hpositive.2.1
          rw [hwrites.written, List.length_take]
          omega }⟩

theorem ClientAt.clientHandshake {s : HandshakeState} {sent part : List UInt8}
    (h : prm.ClientAt s sent part) (hnotDone : ¬prm.ClientDone s part) (limits : ClientLimits)
    {input : List UInt8}
    (hinput : ¬prm.Marked s → ∀ c rest, input = c :: rest → c = secureMarkByte) :
    ∃ part', prm.ClientCall limits s sent part input (prm.clientHandshake limits s input)
      part' := by
  unfold HandshakeParams.clientHandshake
  by_cases hmarked : prm.Marked s
  · have hnothing : prm.processTLSSecuredByte limits.mark s input = .of .success s := by
      unfold processTLSSecuredByte
      refine if_neg ?_
      rw [Bool.and_eq_true, Bool.not_eq_true']
      rintro ⟨hsecure, hmark⟩
      rw [hmarked hsecure] at hmark
      cases hmark
    rw [hnothing, HandshakeCall.of_success_andThen]
    exact h.clientMessage hmarked hnotDone limits input
  · obtain ⟨hmark, hsecure, hflag⟩ := markBytes_of_not_marked hmarked
    obtain ⟨rfl, rfl⟩ := h.unmarked hmarked
    unfold processTLSSecuredByte
    rw [if_pos (by rw [hsecure, hflag]; rfl)]
    rcases take_byte_cases limits.mark input with ⟨htake, hempty⟩ | ⟨c, rest, rfl, htake⟩
    · rw [htake]
      dsimp only
      rw [HandshakeCall.andThen_of_ne fun hsuccess => (by cases hsuccess)]
      exact ⟨[],
        { clientAt := h
          received := List.append_nil _
          read_le := Nat.zero_le _
          notFailed := fun hfailed => (by cases hfailed)
          success_iff := ⟨fun hsuccess => (by cases hsuccess), fun hdone => absurd hdone hnotDone⟩
          saved := by split_ifs <;> rfl
          moves := fun hpositive hmove _ => by
            rcases hmove with ⟨hno, -⟩ | hne
            · exact absurd hno hmarked
            · exact absurd (hempty hpositive.1) hne }⟩
    · obtain rfl := hinput hmarked c rest rfl
      rw [htake]
      dsimp only
      rw [if_pos rfl, HandshakeCall.andThen_of_success rfl]
      dsimp only
      rw [List.drop_one, List.tail_cons]
      have hsent : s.handShakeMessageDone = false := by
        rw [Bool.eq_false_iff]
        intro hdone
        exact clientMessageBytes_ne_nil (h.message.done_iff.mp hdone).symm
      have hclientAt : prm.ClientAt { s with markByteDone := true } [] [] :=
        { message := h.message.sameMessage ⟨rfl, rfl, rfl, rfl, rfl, rfl⟩
          cert := h.cert.congr rfl rfl rfl
          unmarked := fun _ => ⟨rfl, rfl⟩
          waiting := fun _ => rfl
          noRequest := fun _ => rfl }
      have hnotDone' : ¬prm.ClientDone { s with markByteDone := true } [] := by
        intro hdone
        have hmessage : s.handShakeMessageDone = true := hdone.message
        rw [hsent] at hmessage
        cases hmessage
      have hmarkBytes : prm.markBytes { s with markByteDone := true } = [secureMarkByte] := by
        unfold markBytes
        rw [hsecure]
        rfl
      obtain ⟨part', hcall⟩ := hclientAt.clientMessage (fun _ => rfl) hnotDone' limits rest
      generalize (prm.clientMessage limits.message { s with markByteDone := true }).andThen rest
        (prm.processTrustCertificate limits) = second at hcall ⊢
      exact ⟨part',
        { clientAt := hcall.clientAt
          received := by
            dsimp only
            rw [hmark, Nat.add_comm, List.take_succ_cons, ← hcall.received, hmarkBytes]
            rfl
          read_le := by
            have hle := hcall.read_le
            simp only [List.length_cons]
            omega
          notFailed := hcall.notFailed
          success_iff := hcall.success_iff
          saved := hcall.saved
          moves := fun _ _ _ => by
            dsimp only
            omega }⟩

variable (prm)

/-! ## The server -/

/-- The server has received `got` and sent `part` of the certificate. -/
structure ServerAt (s : HandshakeState) (got part : List UInt8) : Prop where
  message : ServerReceives prm s got
  done_iff : s.handShakeMessageDone = true ↔ IsHandshakeMessage got
  cert : prm.SendsCert s part
  unmarked : ¬prm.Marked s → got = [] ∧ part = []
  waiting : s.handShakeMessageDone = false → part = []
  noCopy : s.copyTrustCertificate = false → part = []

structure ServerDone (s : HandshakeState) (part : List UInt8) : Prop where
  marked : prm.Marked s
  message : s.handShakeMessageDone = true
  cert : s.copyTrustCertificate = true → part = prm.certMessage

def ServerCanMove (s : HandshakeState) (input : List UInt8) : Prop :=
  ¬prm.Marked s ∨ s.handShakeMessageDone = true ∨ input ≠ []

/-- What one call does to a server at `got` and `part`. -/
structure ServerCall (limits : ServerLimits) (s : HandshakeState)
    (got part input : List UInt8) (call : HandshakeCall) (part' : List UInt8) : Prop where
  serverAt : call.status ≠ .failed → prm.ServerAt call.state (got ++ input.take call.read) part'
  written : prm.markBytes s ++ part ++ call.written = prm.markBytes call.state ++ part'
  read_le : call.read ≤ input.length
  nothingSaved : call.saved = []
  refused : call.status = .failed → IsRefused prm (got ++ input.take call.read)
  success_iff : call.status ≠ .failed →
    (call.status = .success ↔ prm.ServerDone call.state part')
  moves : limits.Positive → prm.ServerCanMove s input → call.status = .pending →
    0 < call.read + call.written.length

variable {prm}

theorem SendsCert.sameCertificate {s s' : HandshakeState} {part : List UInt8}
    (h : prm.SendsCert s part) (hsame : SameCertificate s s') : prm.SendsCert s' part where
  isPrefix := h.isPrefix
  certPos := hsame.certPos.trans h.certPos
  loaded := by
    unfold CertLoaded
    rw [hsame.certSz, hsame.cert]
    exact h.loaded

theorem ServerReceives.sameMessage {s s' : HandshakeState} {got : List UInt8}
    (h : ServerReceives prm s got) (hsame : SameMessage s s') : ServerReceives prm s' got :=
  h.congr hsame.clientType hsame.copyTrustCertificate hsame.cloudNetnamePos
    hsame.cloudNetnameSz hsame.cloudNetname

def sendRequestedCert (prm : HandshakeParams) (limits : ServerLimits) (s : HandshakeState)
    (_input : List UInt8) : HandshakeCall :=
  if s.copyTrustCertificate then prm.sendTrustCertificate limits.cert s else .of .success s

theorem ServerAt.sendRequestedCert {s : HandshakeState} {got part : List UInt8}
    (h : prm.ServerAt s got part) (hmarked : prm.Marked s)
    (hmessage : s.handShakeMessageDone = true) (limits : ServerLimits) (input : List UInt8) :
    ∃ part', prm.ServerCall limits s got part input (prm.sendRequestedCert limits s input)
        part' ∧ (prm.sendRequestedCert limits s input).read = 0 := by
  unfold HandshakeParams.sendRequestedCert
  have hgot : got ++ input.take 0 = got := by rw [List.take_zero, List.append_nil]
  cases hcopy : s.copyTrustCertificate with
  | false =>
      rw [if_neg (by decide)]
      exact ⟨part,
        { serverAt := fun _ => by
            change prm.ServerAt s (got ++ input.take 0) part
            rwa [hgot]
          written := List.append_nil _
          read_le := Nat.zero_le _
          nothingSaved := rfl
          refused := fun hfailed => (by cases hfailed)
          success_iff := fun _ => ⟨fun _ => ⟨hmarked, hmessage, fun h => by
            change s.copyTrustCertificate = true at h
            rw [hcopy] at h
            cases h⟩, fun _ => rfl⟩
          moves := fun _ _ hpending => (by cases hpending) }, rfl⟩
  | true =>
      have hcall := h.cert.sendTrustCertificate limits.cert
      rw [if_pos rfl]
      generalize prm.sendTrustCertificate limits.cert s = call at hcall ⊢
      have hmarked' := hmarked.congr hcall.mark
      have hmessage' := hcall.message.handShakeMessageDone.trans hmessage
      have hcopy' := hcall.message.copyTrustCertificate.trans hcopy
      exact ⟨part ++ call.written,
        { serverAt := fun _ => by
            rw [hcall.nothingRead, hgot]
            exact
              { message := h.message.sameMessage hcall.message
                done_iff := by
                  rw [hcall.message.handShakeMessageDone]
                  exact h.done_iff
                cert := hcall.sends
                unmarked := fun hno => absurd hmarked' hno
                waiting := fun hno => by
                  rw [hmessage'] at hno
                  cases hno
                noCopy := fun hno => by
                  rw [hcopy'] at hno
                  cases hno }
          written := by rw [markBytes_congr hcall.mark, List.append_assoc]
          read_le := by
            rw [hcall.nothingRead]
            exact Nat.zero_le _
          nothingSaved := hcall.nothingSaved
          refused := fun hfailed => absurd hfailed hcall.notFailed
          success_iff := fun _ => by
            rw [hcall.success_iff]
            exact ⟨fun hall => ⟨hmarked', hmessage', fun _ => hall⟩, fun hdone => hdone.cert hcopy'⟩
          moves := fun hpositive _ hpending => by
            have hnotAll : part ++ call.written ≠ prm.certMessage := by
              intro hall
              rw [hcall.success_iff.mpr hall] at hpending
              cases hpending
            have hne : prm.certMessage.drop part.length ≠ [] := by
              intro hempty
              refine hnotAll ?_
              rw [hcall.written, hempty, List.take_nil, List.append_nil]
              exact h.cert.isPrefix.eq_of_length_le (List.drop_eq_nil_iff.mp hempty)
            have hpos := List.length_pos_iff.mpr hne
            have hcert := hpositive.2.2.2.2
            rw [hcall.written, List.length_take]
            omega }, hcall.nothingRead⟩

theorem ServerAt.serverMessage {s : HandshakeState} {got part : List UInt8}
    (h : prm.ServerAt s got part) (hmarked : prm.Marked s) (limits : ServerLimits)
    (input : List UInt8) :
    ∃ part', prm.ServerCall limits s got part input
      ((prm.serverMessage limits s input).andThen input (prm.sendRequestedCert limits)) part' := by
  cases hdone : s.handShakeMessageDone with
  | true =>
      have hnothing : prm.serverMessage limits s input = .of .success s := if_pos hdone
      rw [hnothing, HandshakeCall.of_success_andThen]
      obtain ⟨part', hcall, -⟩ := h.sendRequestedCert hmarked hdone limits input
      exact ⟨part', hcall⟩
  | false =>
      obtain rfl := h.waiting hdone
      have hreads := h.message.serverMessage h.done_iff limits input
      generalize prm.serverMessage limits s input = call at hreads ⊢
      have hmarked' := hmarked.congr hreads.certificate.markByteDone
      have hserverAt : call.status ≠ .failed →
          prm.ServerAt call.state (got ++ input.take call.read) [] := fun hfailed =>
        { message := hreads.receives hfailed
          done_iff := hreads.done_iff hfailed
          cert := h.cert.sameCertificate hreads.certificate
          unmarked := fun hno => absurd hmarked' hno
          waiting := fun _ => rfl
          noCopy := fun _ => rfl }
      by_cases hstatus : call.status = .success
      · have hfailed : call.status ≠ .failed := by
          rw [hstatus]
          decide
        have hmessage : call.state.handShakeMessageDone = true :=
          (hreads.done_iff hfailed).mpr ((hreads.success_iff hfailed).mp hstatus)
        obtain ⟨part', hcall, hread⟩ := (hserverAt hfailed).sendRequestedCert hmarked' hmessage
          limits (input.drop call.read)
        rw [HandshakeCall.andThen_of_success hstatus]
        generalize prm.sendRequestedCert limits call.state (input.drop call.read) = second
          at hcall hread ⊢
        have hgot : got ++ input.take call.read ++ (input.drop call.read).take second.read =
            got ++ input.take (call.read + second.read) := by
          rw [hread, Nat.add_zero, List.take_zero, List.append_nil]
        exact ⟨part',
          { serverAt := by
              rw [← hgot]
              exact hcall.serverAt
            written := by
              rw [hreads.nothingWritten, ← markBytes_congr hreads.certificate.markByteDone]
              exact hcall.written
            read_le := by
              rw [hread]
              exact hreads.read_le
            nothingSaved := by rw [hreads.nothingSaved, hcall.nothingSaved, List.append_nil]
            refused := by
              rw [← hgot]
              exact hcall.refused
            success_iff := hcall.success_iff
            moves := fun hpositive _ hpending => by
              have hmoves := hcall.moves hpositive (Or.inr (Or.inl hmessage)) hpending
              rw [hreads.nothingWritten, List.nil_append]
              dsimp only
              omega }⟩
      · rw [HandshakeCall.andThen_of_ne hstatus]
        exact ⟨[],
          { serverAt := hserverAt
            written := by
              rw [hreads.nothingWritten, markBytes_congr hreads.certificate.markByteDone,
                List.append_nil]
            read_le := hreads.read_le
            nothingSaved := hreads.nothingSaved
            refused := hreads.refused
            success_iff := fun hfailed => by
              refine ⟨fun hsuccess => absurd hsuccess hstatus, fun hall => absurd ?_ hstatus⟩
              exact (hreads.success_iff hfailed).mpr ((hreads.done_iff hfailed).mp hall.message)
            moves := fun hpositive hmove hpending => by
              rcases hmove with hno | hno | hinput
              · exact absurd hmarked hno
              · rw [hdone] at hno
                cases hno
              · have hread := hreads.moves hpositive hinput hpending
                omega }⟩

theorem ServerAt.serverHandshake {s : HandshakeState} {got part : List UInt8}
    (h : prm.ServerAt s got part) (limits : ServerLimits) (input : List UInt8) :
    ∃ part', prm.ServerCall limits s got part input (prm.serverHandshake limits s input)
      part' := by
  have hcalls : prm.serverHandshake limits s input =
      (prm.sendByteToSecureTLS limits.mark s).andThen input fun s input =>
        (prm.serverMessage limits s input).andThen input (prm.sendRequestedCert limits) := rfl
  rw [hcalls]
  by_cases hmarked : prm.Marked s
  · have hnothing : prm.sendByteToSecureTLS limits.mark s = .of .success s := by
      unfold sendByteToSecureTLS
      refine if_neg ?_
      rw [Bool.and_eq_true, Bool.not_eq_true']
      rintro ⟨hmark, hsecure⟩
      rw [hmarked hsecure] at hmark
      cases hmark
    rw [hnothing, HandshakeCall.of_success_andThen]
    exact h.serverMessage hmarked limits input
  · obtain ⟨hmark, hsecure, hflag⟩ := markBytes_of_not_marked hmarked
    obtain ⟨rfl, rfl⟩ := h.unmarked hmarked
    unfold sendByteToSecureTLS
    rw [if_pos (by rw [hsecure, hflag]; rfl)]
    rcases Nat.eq_zero_or_pos limits.mark with hzero | hpos
    · rw [hzero, List.take_zero]
      dsimp only
      rw [HandshakeCall.andThen_of_ne fun hsuccess => (by cases hsuccess)]
      exact ⟨[],
        { serverAt := fun _ => by
            change prm.ServerAt s ([] ++ input.take 0) []
            rwa [List.take_zero]
          written := List.append_nil _
          read_le := Nat.zero_le _
          nothingSaved := rfl
          refused := fun hfailed => (by cases hfailed)
          success_iff := fun _ =>
            ⟨fun hsuccess => (by cases hsuccess), fun hdone => absurd hdone.marked hmarked⟩
          moves := fun hpositive _ _ => by
            have hpos := hpositive.1
            omega }⟩
    · have htake : [secureMarkByte].take limits.mark = [secureMarkByte] :=
        List.take_of_length_le hpos
      rw [htake]
      dsimp only
      rw [HandshakeCall.andThen_of_success rfl]
      dsimp only
      rw [List.drop_zero]
      have hserverAt : prm.ServerAt { s with markByteDone := true } [] [] :=
        { message := h.message.sameMessage ⟨rfl, rfl, rfl, rfl, rfl, rfl⟩
          done_iff := h.done_iff
          cert := ⟨h.cert.isPrefix, h.cert.certPos, h.cert.loaded⟩
          unmarked := fun _ => ⟨rfl, rfl⟩
          waiting := fun _ => rfl
          noCopy := fun _ => rfl }
      have hmarkBytes : prm.markBytes { s with markByteDone := true } = [secureMarkByte] := by
        unfold markBytes
        rw [hsecure]
        rfl
      obtain ⟨part', hcall⟩ := hserverAt.serverMessage (fun _ => rfl) limits input
      generalize (prm.serverMessage limits { s with markByteDone := true } input).andThen input
        (prm.sendRequestedCert limits) = second at hcall ⊢
      exact ⟨part',
        { serverAt := by
            rw [Nat.zero_add]
            exact hcall.serverAt
          written := by
            rw [hmark, ← hcall.written, hmarkBytes]
            rfl
          read_le := by
            rw [Nat.zero_add]
            exact hcall.read_le
          nothingSaved := hcall.nothingSaved
          refused := by
            rw [Nat.zero_add]
            exact hcall.refused
          success_iff := hcall.success_iff
          moves := fun _ _ _ => by
            dsimp only
            rw [List.length_append, List.length_singleton]
            omega }⟩

end HandshakeParams

end Iocom
