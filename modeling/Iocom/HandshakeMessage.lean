import Iocom.Handshake

/-!
# The handshake message

The client writes its message piecemeal, and the server reads it piecemeal: what
either end has done so far depends only on the bytes, not on how they were split.
A server takes the name of a cloud network as the peer sends it, with whatever the
peer puts where the client puts the terminating NUL.
-/

namespace Iocom

open Buffer

theorem osChar_of_range {n : ℤ} (hlo : -128 ≤ n) (hhi : n < 128) : osChar n = n := by
  unfold osChar
  rw [Int.bmod_def]
  omega

namespace HandshakeParams

variable (prm : HandshakeParams)

def clientMessageBytes : List UInt8 :=
  if prm.cloudNetname = [] then [prm.oneByteHandshake]
  else
    [prm.oneByteHandshake ||| hasNetNameBit, UInt8.ofNat (prm.cloudNetname.length + 1)] ++
      prm.cloudNetname ++ [0]

theorem cloudNetname_length_le : prm.cloudNetname.length ≤ 124 := by
  have hfits := prm.cloudNetname_fits
  have hle := prm.networkNameSz_le
  omega

/-! ## What the client has sent -/

/-- The client `s` has sent the bytes `sent`. -/
structure ClientSends (s : HandshakeState) (sent : List UInt8) : Prop where
  isPrefix : sent <+: prm.clientMessageBytes
  done_iff : s.handShakeMessageDone = true ↔ sent = prm.clientMessageBytes
  buffer :
    (s.cloudNetname = none ∧ s.cloudNetnamePos = 0 ∧
        (s.handShakeMessageDone = false → sent = []) ∧
        (s.handShakeMessageDone = true → prm.cloudNetname = [])) ∨
      (prm.cloudNetname ≠ [] ∧ s.cloudNetname = some prm.clientMessageBytes ∧
        s.cloudNetnameSz = prm.clientMessageBytes.length ∧ s.cloudNetnamePos = sent.length)

structure SameCertificate (s s' : HandshakeState) : Prop where
  markByteDone : s'.markByteDone = s.markByteDone
  cert : s'.cert = s.cert
  certSz : s'.certSz = s.certSz
  certPos : s'.certPos = s.certPos

theorem SameCertificate.refl (s : HandshakeState) : SameCertificate s s :=
  ⟨rfl, rfl, rfl, rfl⟩

structure SameMessage (s s' : HandshakeState) : Prop where
  clientType : s'.clientType = s.clientType
  handShakeMessageDone : s'.handShakeMessageDone = s.handShakeMessageDone
  copyTrustCertificate : s'.copyTrustCertificate = s.copyTrustCertificate
  cloudNetnamePos : s'.cloudNetnamePos = s.cloudNetnamePos
  cloudNetnameSz : s'.cloudNetnameSz = s.cloudNetnameSz
  cloudNetname : s'.cloudNetname = s.cloudNetname

theorem SameMessage.refl (s : HandshakeState) : SameMessage s s :=
  ⟨rfl, rfl, rfl, rfl, rfl, rfl⟩

theorem SameMessage.trans {s t u : HandshakeState} (hst : SameMessage s t)
    (htu : SameMessage t u) : SameMessage s u where
  clientType := htu.clientType.trans hst.clientType
  handShakeMessageDone := htu.handShakeMessageDone.trans hst.handShakeMessageDone
  copyTrustCertificate := htu.copyTrustCertificate.trans hst.copyTrustCertificate
  cloudNetnamePos := htu.cloudNetnamePos.trans hst.cloudNetnamePos
  cloudNetnameSz := htu.cloudNetnameSz.trans hst.cloudNetnameSz
  cloudNetname := htu.cloudNetname.trans hst.cloudNetname

variable {prm}

theorem ClientSends.sameMessage {s s' : HandshakeState} {sent : List UInt8}
    (h : prm.ClientSends s sent) (hsame : SameMessage s s') : prm.ClientSends s' sent where
  isPrefix := h.isPrefix
  done_iff := by
    rw [hsame.handShakeMessageDone]
    exact h.done_iff
  buffer := by
    rw [hsame.handShakeMessageDone, hsame.cloudNetname, hsame.cloudNetnamePos,
      hsame.cloudNetnameSz]
    exact h.buffer

structure ClientReady (prm : HandshakeParams) (s : HandshakeState) (sent : List UInt8) :
    Prop where
  clientType : s.clientType = prm.clientType.code
  copyTrustCertificate : s.copyTrustCertificate = prm.requestTrustCertificate
  notDone : s.handShakeMessageDone = false
  buffer :
    (prm.cloudNetname = [] ∧ s.cloudNetname = none ∧ s.cloudNetnamePos = 0 ∧ sent = []) ∨
      (prm.cloudNetname ≠ [] ∧ s.cloudNetname = some prm.clientMessageBytes ∧
        s.cloudNetnameSz = prm.clientMessageBytes.length ∧ s.cloudNetnamePos = sent.length)

theorem startClientMessage_ready {s : HandshakeState} {sent : List UInt8}
    (h : prm.ClientSends s sent) (hdone : s.handShakeMessageDone = false) :
    ∃ started, prm.startClientMessage s = some started ∧ ClientReady prm started sent ∧
      SameCertificate s started := by
  have hle := prm.cloudNetname_length_le
  have hfits := prm.cloudNetname_fits
  have hlen : osChar (prm.cloudNetname.length + 1) = prm.cloudNetname.length + 1 :=
    osChar_of_range (by omega) (by omega)
  unfold startClientMessage
  dsimp only
  rw [hlen]
  rcases h.buffer with ⟨hnone, hpos, hempty, -⟩ | ⟨hname, hsome, hsz, hpos⟩
  · by_cases hname : prm.cloudNetname = []
    · have hshort : ¬(s.cloudNetname = none ∧ (1 : ℤ) < prm.cloudNetname.length + 1) := by
        rw [hname]
        simp
      rw [if_neg hshort]
      exact ⟨_, rfl, ⟨rfl, rfl, hdone, Or.inl ⟨hname, hnone, hpos, hempty hdone⟩⟩,
        ⟨rfl, rfl, rfl, rfl⟩⟩
    · have hpositive : 0 < prm.cloudNetname.length := List.length_pos_iff.mpr hname
      rw [if_pos ⟨hnone, by omega⟩, if_neg (by omega)]
      have hbuf : [prm.oneByteHandshake ||| hasNetNameBit,
          UInt8.ofNat (((prm.cloudNetname.length : ℤ) + 1).toNat)] ++ prm.cloudNetname ++ [0] =
          prm.clientMessageBytes := by
        unfold clientMessageBytes
        rw [if_neg hname]
        rfl
      have hsz : osChar (((prm.cloudNetname.length : ℤ) + 1) + 2) =
          prm.clientMessageBytes.length := by
        rw [osChar_of_range (by omega) (by omega)]
        unfold clientMessageBytes
        rw [if_neg hname]
        simp
        omega
      rw [hbuf, hsz]
      refine ⟨_, rfl, ⟨rfl, rfl, hdone, Or.inr ⟨hname, rfl, rfl, ?_⟩⟩, ⟨rfl, rfl, rfl, rfl⟩⟩
      rw [hempty hdone]
      exact hpos
  · rw [if_neg (by rw [hsome]; simp)]
    exact ⟨_, rfl, ⟨rfl, rfl, hdone, Or.inr ⟨hname, hsome, hsz, hpos⟩⟩, ⟨rfl, rfl, rfl, rfl⟩⟩

structure ClientWrites (prm : HandshakeParams) (s : HandshakeState) (sent : List UInt8)
    (accepted : ℕ) (call : HandshakeCall) : Prop where
  written : call.written = (prm.clientMessageBytes.drop sent.length).take accepted
  notFailed : call.status ≠ .failed
  success_iff : call.status = .success ↔ sent ++ call.written = prm.clientMessageBytes
  nothingRead : call.read = 0
  nothingSaved : call.saved = []
  certificate : SameCertificate s call.state
  sends : prm.ClientSends call.state (sent ++ call.written)

theorem clientMessageBytes_ne_nil : prm.clientMessageBytes ≠ [] := by
  unfold clientMessageBytes
  split_ifs <;> simp

theorem append_next_isPrefix {sent message : List UInt8} (h : sent <+: message) (k : ℕ) :
    sent ++ (message.drop sent.length).take k <+: message ∧
      (sent ++ (message.drop sent.length).take k = message ↔
        message.length - sent.length ≤ ((message.drop sent.length).take k).length) := by
  obtain ⟨rest, rfl⟩ := h
  rw [List.drop_left]
  constructor
  · exact (List.prefix_append_right_inj sent).mpr (List.take_prefix k rest)
  · rw [List.append_cancel_left_eq, List.length_append, Nat.add_sub_cancel_left]
    constructor
    · intro heq
      rw [heq]
    · intro hle
      exact (List.take_prefix k rest).eq_of_length_le hle

theorem sendClientHandshakeMessage_oneByte {s : HandshakeState} (hready : ClientReady prm s [])
    (hname : prm.cloudNetname = []) (hnone : s.cloudNetname = none) (accepted : ℕ) :
    sendClientHandshakeMessage accepted s =
      ⟨s, if (prm.clientMessageBytes.take accepted).length < 1 then .pending else .success, 0,
        prm.clientMessageBytes.take accepted, []⟩ := by
  have hbyte : [s.clientType ||| if s.copyTrustCertificate then requestTrustCertificateBit
      else 0] = prm.clientMessageBytes := by
    unfold clientMessageBytes
    rw [if_pos hname, hready.clientType, hready.copyTrustCertificate]
    rfl
  unfold sendClientHandshakeMessage
  rw [hnone]
  dsimp only
  rw [hbyte]

theorem sendClientHandshakeMessage_named {s : HandshakeState} {sent : List UInt8}
    (hsome : s.cloudNetname = some prm.clientMessageBytes)
    (hsz : s.cloudNetnameSz = prm.clientMessageBytes.length)
    (hpos : s.cloudNetnamePos = sent.length)
    (hlt : sent.length < prm.clientMessageBytes.length) (accepted : ℕ) :
    sendClientHandshakeMessage accepted s =
      ⟨{ s with
          cloudNetnamePos := (sent ++
            (prm.clientMessageBytes.drop sent.length).take accepted).length },
        if ((prm.clientMessageBytes.drop sent.length).take accepted).length <
          prm.clientMessageBytes.length - sent.length then .pending else .success, 0,
        (prm.clientMessageBytes.drop sent.length).take accepted, []⟩ := by
  have hle : prm.clientMessageBytes.length ≤ 127 := by
    have hname := prm.cloudNetname_length_le
    unfold clientMessageBytes
    split_ifs
    · simp
    · simp
      omega
  have hn : osChar (s.cloudNetnameSz - s.cloudNetnamePos) =
      prm.clientMessageBytes.length - sent.length := by
    rw [hsz, hpos]
    exact osChar_of_range (by omega) (by omega)
  have hall : ((prm.clientMessageBytes.drop sent.length).take
      ((prm.clientMessageBytes.length : ℤ) - sent.length).toNat) =
        prm.clientMessageBytes.drop sent.length := by
    apply List.take_of_length_le
    rw [List.length_drop]
    omega
  unfold sendClientHandshakeMessage
  dsimp only
  rw [hn, hsome]
  dsimp only
  rw [if_pos (by omega), hpos, Int.toNat_natCast, hall]
  have hwritten : ((prm.clientMessageBytes.drop sent.length).take accepted).length ≤
      prm.clientMessageBytes.length - sent.length := by
    rw [List.length_take, List.length_drop]
    omega
  rw [osChar_of_range (by omega) (by omega), List.length_append, Nat.cast_add]
  congr 1
  exact if_congr (by omega) rfl rfl

/-- What writing leaves, as long as the message is not complete before. -/
theorem sendClientHandshakeMessage_spec {s : HandshakeState} {sent : List UInt8}
    (hready : ClientReady prm s sent) (hstarts : sent <+: prm.clientMessageBytes)
    (hne : sent ≠ prm.clientMessageBytes) (accepted : ℕ) :
    ∃ s' status, sendClientHandshakeMessage accepted s =
        ⟨s', status, 0, (prm.clientMessageBytes.drop sent.length).take accepted, []⟩ ∧
      status ≠ .failed ∧
      (status = .success ↔ sent ++ (prm.clientMessageBytes.drop sent.length).take accepted =
        prm.clientMessageBytes) ∧
      SameCertificate s s' ∧ s'.handShakeMessageDone = false ∧
      ((prm.cloudNetname = [] ∧ s'.cloudNetname = none ∧ s'.cloudNetnamePos = 0 ∧
          (status ≠ .success →
            sent ++ (prm.clientMessageBytes.drop sent.length).take accepted = [])) ∨
        (prm.cloudNetname ≠ [] ∧ s'.cloudNetname = some prm.clientMessageBytes ∧
          s'.cloudNetnameSz = prm.clientMessageBytes.length ∧
          s'.cloudNetnamePos =
            (sent ++ (prm.clientMessageBytes.drop sent.length).take accepted).length)) := by
  have hcomplete := (append_next_isPrefix hstarts accepted).2
  rcases hready.buffer with ⟨hname, hnone, hpos, rfl⟩ | ⟨hname, hsome, hsz, hpos⟩
  · have hlength : prm.clientMessageBytes.length = 1 := by
      unfold clientMessageBytes
      rw [if_pos hname]
      rfl
    rw [sendClientHandshakeMessage_oneByte hready hname hnone]
    simp only [List.length_nil, List.drop_zero, List.nil_append, hlength] at hcomplete ⊢
    refine ⟨_, _, rfl, ?_, ?_, .refl s, hready.notDone, Or.inl ⟨hname, hnone, hpos, ?_⟩⟩
    · split_ifs <;> decide
    · rw [hcomplete]
      split_ifs with hshort
      · simp only [false_iff]
        omega
      · simp only [true_iff]
        omega
    · split_ifs with hshort
      · exact fun _ => List.length_eq_zero_iff.mp (by omega)
      · exact fun h => absurd rfl h
  · have hlt : sent.length < prm.clientMessageBytes.length := by
      refine lt_of_le_of_ne hstarts.length_le fun heq => hne ?_
      exact hstarts.eq_of_length heq
    rw [sendClientHandshakeMessage_named hsome hsz hpos hlt]
    refine ⟨_, _, rfl, ?_, ?_, ⟨rfl, rfl, rfl, rfl⟩, hready.notDone,
      Or.inr ⟨hname, hsome, hsz, rfl⟩⟩
    · split_ifs <;> decide
    · rw [hcomplete]
      split_ifs with hshort
      · simp only [false_iff]
        omega
      · simp only [true_iff]
        omega

theorem ClientSends.clientMessage {s : HandshakeState} {sent : List UInt8}
    (h : prm.ClientSends s sent) (accepted : ℕ) :
    ClientWrites prm s sent accepted (prm.clientMessage accepted s) := by
  unfold HandshakeParams.clientMessage
  cases hdone : s.handShakeMessageDone with
  | true =>
      have hsent := h.done_iff.mp hdone
      have hnothing : (prm.clientMessageBytes.drop sent.length).take accepted = [] := by
        rw [hsent, List.drop_length, List.take_nil]
      rw [if_pos rfl]
      exact
        { written := hnothing.symm
          notFailed := fun hfailed => by cases hfailed
          success_iff := by
            change _ ↔ sent ++ [] = _
            rw [List.append_nil]
            exact ⟨fun _ => hsent, fun _ => rfl⟩
          nothingRead := rfl
          nothingSaved := rfl
          certificate := .refl s
          sends := by
            change prm.ClientSends s (sent ++ [])
            rw [List.append_nil]
            exact h }
  | false =>
      have hne : sent ≠ prm.clientMessageBytes := by
        intro hsent
        rw [h.done_iff.mpr hsent] at hdone
        cases hdone
      obtain ⟨started, hstart, hready, hsame⟩ := startClientMessage_ready h hdone
      obtain ⟨s', status, hcall, hfailed, hsuccess, hsame', hnotDone, hbuffer⟩ :=
        sendClientHandshakeMessage_spec hready h.isPrefix hne accepted
      have hstarts := (append_next_isPrefix h.isPrefix accepted).1
      have hcertificate : SameCertificate s s' :=
        ⟨hsame'.markByteDone.trans hsame.markByteDone, hsame'.cert.trans hsame.cert,
          hsame'.certSz.trans hsame.certSz, hsame'.certPos.trans hsame.certPos⟩
      rw [if_neg (by decide), hstart]
      dsimp only
      rw [hcall]
      dsimp only
      split_ifs with hstatus
      · exact
          { written := rfl
            notFailed := hfailed
            success_iff := hsuccess
            nothingRead := rfl
            nothingSaved := rfl
            certificate := ⟨hcertificate.1, hcertificate.2, hcertificate.3, hcertificate.4⟩
            sends :=
              { isPrefix := hstarts
                done_iff := ⟨fun _ => hsuccess.mp hstatus, fun _ => rfl⟩
                buffer := by
                  rcases hbuffer with ⟨hname, hnone, hpos, -⟩ | hnamed
                  · exact Or.inl ⟨hnone, hpos, fun h => (by cases h), fun _ => hname⟩
                  · exact Or.inr hnamed } }
      · exact
          { written := rfl
            notFailed := hfailed
            success_iff := hsuccess
            nothingRead := rfl
            nothingSaved := rfl
            certificate := hcertificate
            sends :=
              { isPrefix := hstarts
                done_iff := by
                  rw [hnotDone]
                  exact ⟨fun h => (by cases h), fun h => absurd (hsuccess.mpr h) hstatus⟩
                buffer := by
                  rcases hbuffer with ⟨hname, hnone, hpos, hempty⟩ | hnamed
                  · exact Or.inl ⟨hnone, hpos, fun _ => hempty hstatus, fun _ => hname⟩
                  · exact Or.inr hnamed } }

/-! ## What the server has received -/

def isClientType (c : UInt8) : Prop :=
  c &&& handshakeTypeMask = 0x12 ∨ c &&& handshakeTypeMask = 0x13

instance (c : UInt8) : Decidable (isClientType c) := by
  unfold isClientType
  infer_instance

def IsNameLength (prm : HandshakeParams) (len : UInt8) : Prop :=
  0 < len.toNat ∧ len.toNat ≤ prm.networkNameSz

def NetnameBuffer (prm : HandshakeParams) (s : HandshakeState) (len : UInt8)
    (part : List UInt8) : Prop :=
  if prm.switchbox then
    ∃ buf, s.cloudNetname = some buf ∧ buf.length = len.toNat ∧ buf.take part.length = part
  else s.cloudNetname = none

/-- The server `s` has received these bytes of any peer. -/
inductive ServerReceives (prm : HandshakeParams) : HandshakeState → List UInt8 → Prop
  | start {s : HandshakeState} (hpos : s.cloudNetnamePos = 0) (hname : s.cloudNetname = none)
      (hcopy : s.copyTrustCertificate = false) : ServerReceives prm s []
  | header {s : HandshakeState} {c : UInt8} (htype : isClientType c) (hc : s.clientType = c)
      (hcopy : s.copyTrustCertificate = decide (c &&& requestTrustCertificateBit ≠ 0))
      (hpos : s.cloudNetnamePos = 1) (hname : s.cloudNetname = none) :
      ServerReceives prm s [c]
  | name {s : HandshakeState} {c len : UInt8} {part : List UInt8} (htype : isClientType c)
      (hbit : c &&& hasNetNameBit ≠ 0) (hc : s.clientType = c)
      (hcopy : s.copyTrustCertificate = decide (c &&& requestTrustCertificateBit ≠ 0))
      (hlen : IsNameLength prm len) (hpart : part.length ≤ len.toNat)
      (hsz : s.cloudNetnameSz = len.toNat) (hpos : s.cloudNetnamePos = 2 + part.length)
      (hname : NetnameBuffer prm s len part) : ServerReceives prm s (c :: len :: part)

inductive IsHandshakeMessage : List UInt8 → Prop
  | oneByte {c : UInt8} (hbit : c &&& hasNetNameBit = 0) : IsHandshakeMessage [c]
  | named {c len : UInt8} {name : List UInt8} (hbit : c &&& hasNetNameBit ≠ 0)
      (hname : name.length = len.toNat) : IsHandshakeMessage (c :: len :: name)

inductive IsRefused (prm : HandshakeParams) : List UInt8 → Prop
  | type {c : UInt8} (htype : ¬isClientType c) : IsRefused prm [c]
  | length {c len : UInt8} (hlen : ¬IsNameLength prm len) : IsRefused prm [c, len]

def ServerLimits.Positive (limits : ServerLimits) : Prop :=
  0 < limits.mark ∧ 0 < limits.header ∧ 0 < limits.length ∧ 0 < limits.name ∧ 0 < limits.cert

/-- What a call of the server does which has received `got` and finds `input`. -/
structure ReceivesMessage (prm : HandshakeParams) (limits : ServerLimits) (s : HandshakeState)
    (got input : List UInt8) (call : HandshakeCall) : Prop where
  read_le : call.read ≤ input.length
  nothingWritten : call.written = []
  nothingSaved : call.saved = []
  certificate : SameCertificate s call.state
  sameDone : call.state.handShakeMessageDone = s.handShakeMessageDone
  receives : call.status ≠ .failed →
    ServerReceives prm call.state (got ++ input.take call.read)
  success_iff : call.status ≠ .failed →
    (call.status = .success ↔ IsHandshakeMessage (got ++ input.take call.read))
  refused : call.status = .failed → IsRefused prm (got ++ input.take call.read)
  moves : limits.Positive → input ≠ [] → call.status = .pending → 0 < call.read

theorem ReceivesMessage.andThen {limits : ServerLimits} {s : HandshakeState}
    {got rest : List UInt8} {c : UInt8} {first : HandshakeCall}
    {next : HandshakeState → List UInt8 → HandshakeCall}
    (hfirst : first = ⟨first.state, .success, 1, [], []⟩)
    (hsame : SameCertificate s first.state)
    (hdone : first.state.handShakeMessageDone = s.handShakeMessageDone)
    (hnext : ReceivesMessage prm limits first.state (got ++ [c]) rest (next first.state rest)) :
    ReceivesMessage prm limits s got (c :: rest) (first.andThen (c :: rest) next) := by
  have hcall : first.andThen (c :: rest) next =
      ⟨(next first.state rest).state, (next first.state rest).status,
        1 + (next first.state rest).read, (next first.state rest).written,
        (next first.state rest).saved⟩ := by
    rw [hfirst, HandshakeCall.andThen_of_success rfl]
    rfl
  have hgot : got ++ (c :: rest).take (1 + (next first.state rest).read) =
      got ++ [c] ++ rest.take (next first.state rest).read := by
    rw [Nat.add_comm, List.take_succ_cons, List.append_assoc, List.singleton_append]
  rw [hcall]
  exact
    { read_le := by
        have hle := hnext.read_le
        simp only [List.length_cons]
        omega
      nothingWritten := hnext.nothingWritten
      nothingSaved := hnext.nothingSaved
      certificate :=
        ⟨hnext.certificate.1.trans hsame.1, hnext.certificate.2.trans hsame.2,
          hnext.certificate.3.trans hsame.3, hnext.certificate.4.trans hsame.4⟩
      sameDone := hnext.sameDone.trans hdone
      receives := by
        rw [hgot]
        exact hnext.receives
      success_iff := by
        rw [hgot]
        exact hnext.success_iff
      refused := by
        rw [hgot]
        exact hnext.refused
      moves := fun _ _ _ => by
        dsimp only
        omega }

theorem isNameLength_iff (len : UInt8) :
    ¬(osChar len.toNat ≤ 0 ∨ (prm.networkNameSz : ℤ) < osChar len.toNat) ↔
      IsNameLength prm len := by
  have hlt := len.toNat_lt
  have hle := prm.networkNameSz_le
  unfold osChar IsNameLength
  rw [Int.bmod_def]
  omega

theorem IsNameLength.osChar_eq {len : UInt8} (h : IsNameLength prm len) :
    osChar len.toNat = len.toNat := by
  have hle := prm.networkNameSz_le
  unfold IsNameLength at h
  exact osChar_of_range (by omega) (by omega)

theorem NetnameBuffer.overwrite {s s' : HandshakeState} {len : UInt8} {part data : List UInt8}
    (h : NetnameBuffer prm s len part) (hdata : part.length + data.length ≤ len.toNat)
    (hs' : s'.cloudNetname =
      s.cloudNetname.map fun buf => Buffer.overwrite buf part.length data) :
    NetnameBuffer prm s' len (part ++ data) := by
  unfold NetnameBuffer at h ⊢
  split_ifs at h ⊢
  · obtain ⟨buf, hbuf, hlength, htake⟩ := h
    rw [hbuf] at hs'
    exact ⟨_, hs', by rw [overwrite_length (by omega), hlength], overwrite_take htake _⟩
  · rw [hs', h]
    rfl

theorem readNetname_receives {limits : ServerLimits} {s : HandshakeState} {c len : UInt8}
    (part : List UInt8) (htype : isClientType c) (hbit : c &&& hasNetNameBit ≠ 0)
    (hc : s.clientType = c)
    (hcopy : s.copyTrustCertificate = decide (c &&& requestTrustCertificateBit ≠ 0))
    (hlen : IsNameLength prm len) (hpart : part.length < len.toNat)
    (hsz : s.cloudNetnameSz = len.toNat) (hpos : s.cloudNetnamePos = 2 + part.length)
    (hname : NetnameBuffer prm s len part) (input : List UInt8) :
    ReceivesMessage prm limits s (c :: len :: part) input (readNetname limits.name s input) := by
  have hle : len.toNat ≤ 125 := hlen.2.trans prm.networkNameSz_le
  have hc' : osChar (s.cloudNetnamePos - 2) = part.length := by
    rw [hpos, osChar_of_range (by omega) (by omega)]
    omega
  have hn : osChar (s.cloudNetnameSz - part.length) = (len.toNat - part.length : ℕ) := by
    rw [hsz, osChar_of_range (by omega) (by omega)]
    omega
  have hlength : (input.take (min limits.name (len.toNat - part.length))).length =
      min (min limits.name (len.toNat - part.length)) input.length := List.length_take
  unfold readNetname
  dsimp only
  rw [hc', hn, Int.toNat_natCast, Int.toNat_natCast]
  generalize hdata : input.take (min limits.name (len.toNat - part.length)) = data at hlength ⊢
  have htaken : input.take data.length = data :=
    (List.prefix_iff_eq_take.mp (hdata ▸ List.take_prefix _ _)).symm
  have hpos' : osChar (s.cloudNetnamePos + data.length) = 2 + (part ++ data).length := by
    rw [hpos, osChar_of_range (by omega) (by omega), List.length_append]
    omega
  have hgot : c :: len :: part ++ data = c :: len :: (part ++ data) := rfl
  have hcomplete : IsHandshakeMessage (c :: len :: (part ++ data)) ↔
      (part ++ data).length = len.toNat := by
    constructor
    · intro h
      cases h with
      | named _ hname => exact hname
    · exact fun h => .named hbit h
  exact
    { read_le := by
        dsimp only
        omega
      nothingWritten := rfl
      nothingSaved := rfl
      certificate := ⟨rfl, rfl, rfl, rfl⟩
      sameDone := rfl
      receives := fun _ => by
        dsimp only
        rw [htaken, hgot]
        refine .name htype hbit hc hcopy hlen ?_ hsz hpos' (hname.overwrite (by omega) rfl)
        rw [List.length_append]
        omega
      success_iff := fun _ => by
        dsimp only
        rw [htaken, hgot, hcomplete, List.length_append]
        split_ifs with hall
        · simp only [true_iff]
          omega
        · simp only [false_iff]
          omega
      refused := fun h => by
        dsimp only at h
        split_ifs at h
      moves := fun hpositive hinput _ => by
        have hinput' := List.length_pos_iff.mpr hinput
        have hname' := hpositive.2.2.2.1
        dsimp only
        omega }

theorem receivesMessage_nothing {limits : ServerLimits} {s s' : HandshakeState}
    {got input : List UInt8} (hreceives : ServerReceives prm s' got)
    (hsame : SameCertificate s s')
    (hdone : s'.handShakeMessageDone = s.handShakeMessageDone)
    (hmessage : ¬IsHandshakeMessage got)
    (hmoves : limits.Positive → input = []) :
    ReceivesMessage prm limits s got input (.of .pending s') where
  read_le := Nat.zero_le _
  nothingWritten := rfl
  nothingSaved := rfl
  certificate := hsame
  sameDone := hdone
  receives _ := by
    change ServerReceives prm s' (got ++ [])
    rwa [List.append_nil]
  success_iff _ := by
    change HandshakeStatus.pending = .success ↔ IsHandshakeMessage (got ++ [])
    rw [List.append_nil]
    exact ⟨fun h => (by cases h), fun h => absurd h hmessage⟩
  refused h := by cases h
  moves hpositive hinput _ := absurd (hmoves hpositive) hinput

theorem receivesMessage_refused {limits : ServerLimits} {s s' : HandshakeState}
    {got rest : List UInt8} {c : UInt8} (hrefused : IsRefused prm (got ++ [c]))
    (hsame : SameCertificate s s')
    (hdone : s'.handShakeMessageDone = s.handShakeMessageDone) :
    ReceivesMessage prm limits s got (c :: rest) ⟨s', .failed, 1, [], []⟩ where
  read_le := Nat.succ_le_succ (Nat.zero_le _)
  nothingWritten := rfl
  nothingSaved := rfl
  certificate := hsame
  sameDone := hdone
  receives h := absurd rfl h
  success_iff h := absurd rfl h
  refused _ := hrefused
  moves _ _ _ := Nat.one_pos

theorem take_byte_cases (given : ℕ) (input : List UInt8) :
    (input.take (min given 1) = [] ∧ (0 < given → input = [])) ∨
      ∃ c rest, input = c :: rest ∧ input.take (min given 1) = [c] := by
  cases input with
  | nil => exact Or.inl ⟨List.take_nil, fun _ => rfl⟩
  | cons c rest =>
      cases given with
      | zero => exact Or.inl ⟨rfl, fun h => absurd h (Nat.lt_irrefl 0)⟩
      | succ given =>
          right
          refine ⟨c, rest, rfl, ?_⟩
          rw [Nat.min_eq_right (by omega)]
          rfl

theorem readNetnameLength_receives {limits : ServerLimits} {s : HandshakeState} {c : UInt8}
    (htype : isClientType c) (hbit : c &&& hasNetNameBit ≠ 0) (hc : s.clientType = c)
    (hcopy : s.copyTrustCertificate = decide (c &&& requestTrustCertificateBit ≠ 0))
    (hpos : s.cloudNetnamePos = 1) (hname : s.cloudNetname = none) (input : List UInt8) :
    ReceivesMessage prm limits s [c] input
      ((prm.readNetnameLength limits.length s input).andThen input (readNetname limits.name)) := by
  have hmessage : ¬IsHandshakeMessage [c] := by
    intro h
    cases h with
    | oneByte hno => exact hbit hno
  unfold readNetnameLength
  rcases take_byte_cases limits.length input with ⟨htake, hempty⟩ | ⟨len, rest, rfl, htake⟩
  · rw [htake]
    exact receivesMessage_nothing (.header htype hc hcopy hpos hname) (.refl s) rfl hmessage
      fun hpositive => hempty hpositive.2.2.1
  · rw [htake]
    dsimp only
    by_cases hrefused : osChar len.toNat ≤ 0 ∨ (prm.networkNameSz : ℤ) < osChar len.toNat
    · rw [if_pos hrefused]
      refine receivesMessage_refused (.length ?_) (.refl s) rfl
      rw [← isNameLength_iff, not_not]
      exact hrefused
    · have hlen := (isNameLength_iff len).mp hrefused
      rw [if_neg hrefused]
      have hnext : ∀ t : HandshakeState, t.clientType = c →
          t.copyTrustCertificate = decide (c &&& requestTrustCertificateBit ≠ 0) →
          t.cloudNetnameSz = len.toNat → t.cloudNetnamePos = 2 → NetnameBuffer prm t len [] →
          ReceivesMessage prm limits t ([c] ++ [len]) rest (readNetname limits.name t rest) :=
        fun t hc hcopy hsz hpos hname =>
          readNetname_receives [] htype hbit hc hcopy hlen hlen.1 hsz hpos hname rest
      rw [hlen.osChar_eq]
      refine ReceivesMessage.andThen rfl ⟨rfl, rfl, rfl, rfl⟩ rfl ?_
      refine hnext _ hc hcopy rfl rfl ?_
      unfold NetnameBuffer
      split_ifs with hswitchbox
      · refine ⟨prm.malloc len.toNat, ?_, ?_, rfl⟩
        · dsimp only
          rw [Int.toNat_natCast]
        · unfold malloc
          rw [List.length_map, List.length_range]
      · exact hname

theorem ServerReceives.processHandshakeMessage {s : HandshakeState} {got : List UInt8}
    (h : ServerReceives prm s got) (hmessage : ¬IsHandshakeMessage got)
    (limits : ServerLimits) (input : List UInt8) :
    ReceivesMessage prm limits s got input (prm.processHandshakeMessage limits s input) := by
  unfold HandshakeParams.processHandshakeMessage
  cases h with
  | start hpos hname hcopy =>
      rw [if_pos hpos]
      unfold readHandshakeHeader
      rcases take_byte_cases limits.header input with ⟨htake, hempty⟩ | ⟨c, rest, rfl, htake⟩
      · rw [htake]
        exact receivesMessage_nothing (.start hpos hname hcopy) ⟨rfl, rfl, rfl, rfl⟩ rfl hmessage
          fun hpositive => hempty hpositive.2.1
      · rw [htake]
        dsimp only
        split_ifs with htype
        · refine receivesMessage_refused (.type ?_) ⟨rfl, rfl, rfl, rfl⟩ rfl
          exact not_or.mpr htype
        · have htype : isClientType c := by
            unfold isClientType
            tauto
          have hheader : ∀ t : HandshakeState, t.clientType = c →
              t.copyTrustCertificate = decide (c &&& requestTrustCertificateBit ≠ 0) →
              t.cloudNetnamePos = 1 → t.cloudNetname = none →
              ReceivesMessage prm limits t [c] rest
                (if s.cloudNetnamePos = 0 ∧ t.clientType &&& hasNetNameBit = 0 then
                  .of .success t
                else
                  (if t.cloudNetnamePos = 1 then prm.readNetnameLength limits.length t rest
                    else .of .success t).andThen rest (readNetname limits.name)) := by
            intro t hc hcopy' hpos' hname'
            by_cases hbit : c &&& hasNetNameBit = 0
            · rw [hc, if_pos ⟨hpos, hbit⟩]
              exact
                { read_le := Nat.zero_le _
                  nothingWritten := rfl
                  nothingSaved := rfl
                  certificate := .refl t
                  sameDone := rfl
                  receives := fun _ => .header htype hc hcopy' hpos' hname'
                  success_iff := fun _ => ⟨fun _ => .oneByte hbit, fun _ => rfl⟩
                  refused := fun h => (by cases h)
                  moves := fun _ _ h => (by cases h) }
            · rw [if_neg (by rw [hc]; exact fun h => hbit h.2), if_pos hpos']
              exact readNetnameLength_receives htype hbit hc hcopy' hpos' hname' rest
          refine ReceivesMessage.andThen rfl ⟨rfl, rfl, rfl, rfl⟩ rfl ?_
          refine hheader _ rfl ?_ rfl hname
          dsimp only
          rw [hcopy, Bool.false_or]
  | header htype hc hcopy hpos hname =>
      rw [if_neg (by rw [hpos]; decide), HandshakeCall.of_success_andThen,
        if_neg (by rw [hpos]; simp), if_pos hpos]
      refine readNetnameLength_receives htype ?_ hc hcopy hpos hname input
      exact fun hno => hmessage (.oneByte hno)
  | name htype hbit hc hcopy hlen hpart hsz hpos hname =>
      rw [if_neg (by rw [hpos]; omega), HandshakeCall.of_success_andThen,
        if_neg (by rw [hpos]; omega), if_neg (by rw [hpos]; omega),
        HandshakeCall.of_success_andThen]
      refine readNetname_receives _ htype hbit hc hcopy hlen ?_ hsz hpos hname input
      exact lt_of_le_of_ne hpart fun heq => hmessage (.named hbit heq)

/-- What the server has received does not depend on the flag. -/
theorem ServerReceives.congr {s s' : HandshakeState} {got : List UInt8}
    (h : ServerReceives prm s got) (htype : s'.clientType = s.clientType)
    (hcopy : s'.copyTrustCertificate = s.copyTrustCertificate)
    (hpos : s'.cloudNetnamePos = s.cloudNetnamePos)
    (hsz : s'.cloudNetnameSz = s.cloudNetnameSz)
    (hname : s'.cloudNetname = s.cloudNetname) : ServerReceives prm s' got := by
  cases h with
  | start hpos' hname' hcopy' =>
      exact .start (hpos.trans hpos') (hname.trans hname') (hcopy.trans hcopy')
  | header htype' hc' hcopy' hpos' hname' =>
      exact .header htype' (htype.trans hc') (hcopy.trans hcopy') (hpos.trans hpos')
        (hname.trans hname')
  | name htype' hbit hc' hcopy' hlen hpart hsz' hpos' hname' =>
      refine .name htype' hbit (htype.trans hc') (hcopy.trans hcopy') hlen hpart
        (hsz.trans hsz') (hpos.trans hpos') ?_
      unfold NetnameBuffer at hname' ⊢
      rw [hname]
      exact hname'

structure ServerReads (prm : HandshakeParams) (limits : ServerLimits) (s : HandshakeState)
    (got input : List UInt8) (call : HandshakeCall) : Prop where
  read_le : call.read ≤ input.length
  nothingWritten : call.written = []
  nothingSaved : call.saved = []
  certificate : SameCertificate s call.state
  receives : call.status ≠ .failed →
    ServerReceives prm call.state (got ++ input.take call.read)
  done_iff : call.status ≠ .failed →
    (call.state.handShakeMessageDone = true ↔ IsHandshakeMessage (got ++ input.take call.read))
  success_iff : call.status ≠ .failed →
    (call.status = .success ↔ IsHandshakeMessage (got ++ input.take call.read))
  refused : call.status = .failed → IsRefused prm (got ++ input.take call.read)
  moves : limits.Positive → input ≠ [] → call.status = .pending → 0 < call.read

theorem ServerReceives.serverMessage {s : HandshakeState} {got : List UInt8}
    (h : ServerReceives prm s got)
    (hdone : s.handShakeMessageDone = true ↔ IsHandshakeMessage got) (limits : ServerLimits)
    (input : List UInt8) :
    ServerReads prm limits s got input (prm.serverMessage limits s input) := by
  unfold HandshakeParams.serverMessage
  cases hflag : s.handShakeMessageDone with
  | true =>
      have hmessage := hdone.mp hflag
      rw [if_pos rfl]
      have hgot : got ++ input.take (HandshakeCall.of .success s).read = got :=
        List.append_nil got
      exact
        { read_le := Nat.zero_le _
          nothingWritten := rfl
          nothingSaved := rfl
          certificate := .refl s
          receives := fun _ => by
            rw [hgot]
            exact h
          done_iff := fun _ => by
            rw [hgot]
            exact hdone
          success_iff := fun _ => by
            rw [hgot]
            exact ⟨fun _ => hmessage, fun _ => rfl⟩
          refused := fun hfailed => (by cases hfailed)
          moves := fun _ _ hpending => (by cases hpending) }
  | false =>
      have hmessage : ¬IsHandshakeMessage got := by
        rw [← hdone, hflag]
        decide
      have hcall := h.processHandshakeMessage hmessage limits input
      rw [if_neg (by decide)]
      dsimp only
      generalize prm.processHandshakeMessage limits s input = call at hcall ⊢
      split_ifs with hstatus
      · exact
          { read_le := hcall.read_le
            nothingWritten := hcall.nothingWritten
            nothingSaved := hcall.nothingSaved
            certificate :=
              ⟨hcall.certificate.1, hcall.certificate.2, hcall.certificate.3,
                hcall.certificate.4⟩
            receives := fun hfailed => (hcall.receives hfailed).congr rfl rfl rfl rfl rfl
            done_iff := fun hfailed =>
              ⟨fun _ => (hcall.success_iff hfailed).mp hstatus, fun _ => rfl⟩
            success_iff := hcall.success_iff
            refused := hcall.refused
            moves := hcall.moves }
      · exact
          { read_le := hcall.read_le
            nothingWritten := hcall.nothingWritten
            nothingSaved := hcall.nothingSaved
            certificate := hcall.certificate
            receives := hcall.receives
            done_iff := fun hfailed => by
              rw [hcall.sameDone, hflag, ← hcall.success_iff hfailed]
              exact ⟨fun h => (by cases h), fun h => absurd h hstatus⟩
            success_iff := hcall.success_iff
            refused := hcall.refused
            moves := hcall.moves }

end HandshakeParams

end Iocom
