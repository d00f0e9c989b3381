import Iocom.HandshakeMessage

/-!
# The trust certificate

The server sends the size of the certificate in two bytes, low byte first, and then
the certificate.  The client takes one byte after the other as the size and keeps
the last one only: the second byte replaces the first instead of being added to it.
-/

namespace Iocom

open Buffer

namespace HandshakeParams

variable (prm : HandshakeParams)

def certMessage : List UInt8 :=
  match prm.certificate with
  | none => [0, 0]
  | some content =>
      if content = [] then [0, 0]
      else
        [UInt8.ofNat content.length, UInt8.ofNat (content.length / 0x100)] ++ content

theorem certMessage_length_le : prm.certMessage.length ≤ 65534 := by
  unfold certMessage
  cases hcertificate : prm.certificate with
  | none => decide
  | some content =>
      have hfits := prm.certificate_fits content hcertificate
      dsimp only
      split_ifs
      · decide
      · simp only [List.length_append, List.length_cons, List.length_nil]
        omega

/-! ## What the server has sent -/

def CertLoaded (s : HandshakeState) : Prop :=
  (s.certSz = 0 ∧ prm.certMessage = [0, 0]) ∨
    (2 ≤ s.certSz ∧ s.certSz = prm.certMessage.length ∧ s.cert = some prm.certMessage)

structure SendsCert (s : HandshakeState) (part : List UInt8) : Prop where
  isPrefix : part <+: prm.certMessage
  certPos : s.certPos = part.length
  loaded : (s.certSz = 0xFFFF ∧ part = []) ∨ prm.CertLoaded s

variable {prm}

theorem SendsCert.loadCert {s : HandshakeState} {part : List UInt8}
    (h : prm.SendsCert s part) :
    prm.CertLoaded (prm.loadCert s) ∧ (prm.loadCert s).certPos = s.certPos ∧
      (prm.loadCert s).markByteDone = s.markByteDone ∧ SameMessage s (prm.loadCert s) := by
  unfold HandshakeParams.loadCert
  by_cases hsz : s.certSz = 0xFFFF
  · rw [if_pos hsz]
    unfold CertLoaded certMessage
    cases hcertificate : prm.certificate with
    | none => exact ⟨Or.inl ⟨rfl, rfl⟩, rfl, rfl, ⟨rfl, rfl, rfl, rfl, rfl, rfl⟩⟩
    | some content =>
        have hfits := prm.certificate_fits content hcertificate
        have hmod : content.length % 0x10000 = content.length := Nat.mod_eq_of_lt (by omega)
        have hmod' : (content.length + 2) % 0x10000 = content.length + 2 :=
          Nat.mod_eq_of_lt (by omega)
        dsimp only
        rw [hmod]
        by_cases hempty : content = []
        · rw [if_neg (by rw [hempty]; decide), if_pos hempty]
          exact ⟨Or.inl ⟨rfl, rfl⟩, rfl, rfl, ⟨rfl, rfl, rfl, rfl, rfl, rfl⟩⟩
        · rw [if_pos (List.length_pos_iff.mpr hempty), if_neg hempty, hmod', List.take_length]
          refine ⟨Or.inr ⟨Nat.le_add_left _ _, ?_, rfl⟩, rfl, rfl, ⟨rfl, rfl, rfl, rfl, rfl, rfl⟩⟩
          simp only [List.length_append, List.length_cons, List.length_nil]
          omega
  · rw [if_neg hsz]
    rcases h.loaded with ⟨hsz', -⟩ | hloaded
    · exact absurd hsz' hsz
    · exact ⟨hloaded, rfl, rfl, .refl s⟩

structure WritesCert (prm : HandshakeParams) (s : HandshakeState) (part : List UInt8)
    (accepted : ℕ) (call : HandshakeCall) : Prop where
  written : call.written = (prm.certMessage.drop part.length).take accepted
  nothingRead : call.read = 0
  nothingSaved : call.saved = []
  notFailed : call.status ≠ .failed
  success_iff : call.status = .success ↔ part ++ call.written = prm.certMessage
  sends : prm.SendsCert call.state (part ++ call.written)
  message : SameMessage s call.state
  mark : call.state.markByteDone = s.markByteDone

theorem SendsCert.sendTrustCertificate {s : HandshakeState} {part : List UInt8}
    (h : prm.SendsCert s part) (accepted : ℕ) :
    WritesCert prm s part accepted (prm.sendTrustCertificate accepted s) := by
  obtain ⟨hloaded, hpos, hmark, hmessage⟩ := h.loadCert
  obtain ⟨hstarts, hcomplete⟩ := append_next_isPrefix h.isPrefix accepted
  have hle := prm.certMessage_length_le
  have hpart := h.isPrefix.length_le
  rw [h.certPos] at hpos
  unfold HandshakeParams.sendTrustCertificate
  dsimp only
  generalize prm.loadCert s = loaded at hloaded hpos hmark hmessage ⊢
  have hlength : ((prm.certMessage.drop part.length).take accepted).length ≤
      prm.certMessage.length - part.length := by
    rw [List.length_take, List.length_drop]
    omega
  have hpos' : (part.length + ((prm.certMessage.drop part.length).take accepted).length) %
      0x10000 = (part ++ (prm.certMessage.drop part.length).take accepted).length := by
    rw [List.length_append]
    exact Nat.mod_eq_of_lt (by omega)
  -- Both branches write the next bytes of the certificate message.
  have hwrites : ∀ written n, written = (prm.certMessage.drop part.length).take accepted →
      n = prm.certMessage.length - part.length →
      WritesCert prm s part accepted
        ⟨{ loaded with certPos := (loaded.certPos + written.length) % 0x10000 },
          if n ≤ written.length then .success else .pending, 0, written, []⟩ := by
    rintro _ _ rfl rfl
    exact
      { written := rfl
        nothingRead := rfl
        nothingSaved := rfl
        notFailed := by
          dsimp only
          split_ifs <;> decide
        success_iff := by
          dsimp only
          rw [hcomplete]
          split_ifs with hall
          · exact ⟨fun _ => hall, fun _ => rfl⟩
          · exact ⟨fun h => (by cases h), fun h => absurd h hall⟩
        sends :=
          { isPrefix := hstarts
            certPos := by
              dsimp only
              rw [hpos, hpos']
            loaded := Or.inr hloaded }
        message :=
          ⟨hmessage.1, hmessage.2, hmessage.3, hmessage.4, hmessage.5, hmessage.6⟩
        mark := hmark }
  rcases hloaded with ⟨hsz, hzero⟩ | ⟨hsz, hsz', hcert⟩
  · rw [if_neg (by omega)]
    refine hwrites _ _ ?_ ?_
    · rw [hpos, hzero]
      have hcases : part.length = 0 ∨ part.length = 1 ∨ part.length = 2 := by
        rw [hzero] at hpart
        simp only [List.length_cons, List.length_nil] at hpart
        omega
      rcases hcases with h0 | h1 | h2
      · rw [h0]
        rfl
      · rw [h1]
        rfl
      · rw [h2]
        rfl
    · rw [hpos, hzero]
      rfl
  · rw [if_pos hsz]
    refine hwrites _ _ ?_ ?_
    · rw [hcert, hpos, hsz', Option.getD_some]
      congr 1
      apply List.take_of_length_le
      rw [List.length_drop]
    · rw [hpos, hsz']

/-! ## What the client has received -/

def ClientLimits.Positive (limits : ClientLimits) : Prop :=
  0 < limits.mark ∧ 0 < limits.message ∧
    (∃ given rest, limits.certSize = given :: rest ∧ 0 < given) ∧ 0 < limits.cert

def CertBuffer (s : HandshakeState) (body : List UInt8) : Prop :=
  (s.cert = none ∧ body = []) ∨
    ∃ buf, s.cert = some buf ∧ buf.length = s.certSz ∧ buf.take body.length = body

inductive ReceivedCert (s : HandshakeState) : List UInt8 → Prop
  | start (hpos : s.certPos = 0) (hcert : s.cert = none) : ReceivedCert s []
  | low {lo : UInt8} (hpos : s.certPos = 1) (hcert : s.cert = none) : ReceivedCert s [lo]
  | body {lo hi : UInt8} {body : List UInt8} (hpos : s.certPos = 2 + body.length)
      (hsz : s.certSz = 0x100 * hi.toNat) (hle : body.length ≤ 0x100 * hi.toNat)
      (hbuffer : CertBuffer s body) : ReceivedCert s (lo :: hi :: body)

inductive CertComplete : List UInt8 → Prop
  | intro {lo hi : UInt8} {body : List UInt8} (h : body.length = 0x100 * hi.toNat) :
      CertComplete (lo :: hi :: body)

def savedCert : List UInt8 → List (List UInt8 × ℕ)
  | _ :: hi :: body =>
      if hi ≠ 0 ∧ body.length = 0x100 * hi.toNat then [(body, 0x100 * hi.toNat)] else []
  | _ => []

theorem certComplete_iff {lo hi : UInt8} {body : List UInt8} :
    CertComplete (lo :: hi :: body) ↔ body.length = 0x100 * hi.toNat := by
  constructor
  · intro h
    cases h with
    | intro h => exact h
  · exact .intro

theorem CertComplete.two_le_length {part : List UInt8} (h : CertComplete part) :
    2 ≤ part.length := by
  cases h with
  | intro => exact Nat.le_add_left _ _

theorem savedCert_of_not_complete {part : List UInt8} (h : ¬CertComplete part) :
    savedCert part = [] := by
  match part with
  | [] => rfl
  | [_] => rfl
  | lo :: hi :: body =>
      unfold savedCert
      exact if_neg fun hbody => h (certComplete_iff.mpr hbody.2)

theorem ReceivedCert.congr {s s' : HandshakeState} {part : List UInt8} (h : ReceivedCert s part)
    (hpos : s'.certPos = s.certPos) (hsz : s'.certSz = s.certSz) (hcert : s'.cert = s.cert) :
    ReceivedCert s' part := by
  cases h with
  | start hpos' hcert' => exact .start (hpos.trans hpos') (hcert.trans hcert')
  | low hpos' hcert' => exact .low (hpos.trans hpos') (hcert.trans hcert')
  | body hpos' hsz' hle hbuffer =>
      refine .body (hpos.trans hpos') (hsz.trans hsz') hle ?_
      unfold CertBuffer at hbuffer ⊢
      rw [hcert, hsz]
      exact hbuffer

/-- What the reads of the size do to a client which has received `part`. -/
structure ReadsCertSize (limits : List ℕ) (s : HandshakeState) (part input : List UInt8)
    (call : HandshakeCall) : Prop where
  read_le : call.read ≤ input.length
  nothingWritten : call.written = []
  nothingSaved : call.saved = []
  notFailed : call.status ≠ .failed
  success_iff : call.status = .success ↔ 2 ≤ (part ++ input.take call.read).length
  received : ReceivedCert call.state (part ++ input.take call.read)
  short : call.read = 0 ∨ (part ++ input.take call.read).length ≤ 2
  message : SameMessage s call.state
  mark : call.state.markByteDone = s.markByteDone
  moves : part.length < 2 → (∃ given rest, limits = given :: rest ∧ 0 < given) →
    input ≠ [] → 0 < call.read

theorem ReceivedCert.certPos_lt_iff {s : HandshakeState} {part : List UInt8}
    (h : ReceivedCert s part) : s.certPos < 2 ↔ part.length < 2 := by
  cases h with
  | start hpos => simp [hpos]
  | low hpos => simp [hpos]
  | body hpos =>
      rw [hpos, List.length_cons, List.length_cons]
      omega

theorem readsCertSize_nothing {limits : List ℕ} {s : HandshakeState} {part input : List UInt8}
    (h : ReceivedCert s part) (status : HandshakeStatus) (hfailed : status ≠ .failed)
    (hstatus : status = .success ↔ 2 ≤ part.length)
    (hmoves : part.length < 2 → (∃ given rest, limits = given :: rest ∧ 0 < given) →
      input = []) :
    ReadsCertSize limits s part input (.of status s) where
  read_le := Nat.zero_le _
  nothingWritten := rfl
  nothingSaved := rfl
  notFailed := hfailed
  success_iff := by
    change status = .success ↔ 2 ≤ (part ++ []).length
    rw [List.append_nil]
    exact hstatus
  received := by
    change ReceivedCert s (part ++ [])
    rwa [List.append_nil]
  short := Or.inl rfl
  message := .refl s
  mark := rfl
  moves hshort hlimits hinput := absurd (hmoves hshort hlimits) hinput

theorem ReceivedCert.readByte {s s' : HandshakeState} {part : List UInt8}
    (h : ReceivedCert s part) (hshort : part.length < 2) (c : UInt8)
    (hpos : s'.certPos = s.certPos + 1)
    (hsz : s'.certSz = if s.certPos = 0 then c.toNat else 0x100 * c.toNat)
    (hcert : s'.cert = s.cert) : ReceivedCert s' (part ++ [c]) := by
  cases h with
  | start hpos' hcert' => exact .low (by rw [hpos, hpos']) (hcert.trans hcert')
  | low hpos' hcert' =>
      refine .body (by rw [hpos, hpos']; rfl) ?_ (Nat.zero_le _) (Or.inl ⟨hcert.trans hcert', rfl⟩)
      rw [hsz, hpos', if_neg (by decide)]
  | body =>
      simp only [List.length_cons] at hshort
      omega

theorem ReadsCertSize.afterByte {limits rest : List ℕ} {s s' : HandshakeState}
    {part input : List UInt8} {c : UInt8} {call : HandshakeCall}
    (hnext : ReadsCertSize rest s' (part ++ [c]) input call) (hshort : part.length < 2)
    (hsame : SameMessage s s') (hmark : s'.markByteDone = s.markByteDone) :
    ReadsCertSize limits s part (c :: input) { call with read := 1 + call.read } := by
  have hgot : part ++ (c :: input).take (1 + call.read) =
      part ++ [c] ++ input.take call.read := by
    rw [Nat.add_comm, List.take_succ_cons, List.append_assoc, List.singleton_append]
  exact
    { read_le := by
        have hle := hnext.read_le
        simp only [List.length_cons]
        omega
      nothingWritten := hnext.nothingWritten
      nothingSaved := hnext.nothingSaved
      notFailed := hnext.notFailed
      success_iff := by
        rw [hgot]
        exact hnext.success_iff
      received := by
        rw [hgot]
        exact hnext.received
      short := by
        right
        dsimp only
        rw [hgot]
        rcases hnext.short with hread | hle
        · rw [hread, List.take_zero, List.append_nil, List.length_append]
          simp only [List.length_cons, List.length_nil]
          omega
        · exact hle
      message := hsame.trans hnext.message
      mark := hnext.mark.trans hmark
      moves := fun _ _ _ => by
        dsimp only
        omega }

theorem ReceivedCert.readCertSize (limits : List ℕ) {s : HandshakeState} {part : List UInt8}
    (h : ReceivedCert s part) (input : List UInt8) :
    ReadsCertSize limits s part input (readCertSize limits s input) := by
  induction limits generalizing s part input with
  | nil =>
      unfold HandshakeParams.readCertSize
      split_ifs with hpos
      · have hshort := h.certPos_lt_iff.mp hpos
        refine readsCertSize_nothing h _ (by decide) ?_ ?_
        · simp only [reduceCtorEq, false_iff]
          omega
        · rintro - ⟨given, rest, hlimits, -⟩
          cases hlimits
      · have hlong := h.certPos_lt_iff.not.mp hpos
        refine readsCertSize_nothing h _ (by decide) ?_ fun hshort => absurd hshort hlong
        simp only [true_iff]
        omega
  | cons given rest ih =>
      unfold HandshakeParams.readCertSize
      by_cases hpos : s.certPos < 2
      · have hshort := h.certPos_lt_iff.mp hpos
        rw [if_pos hpos]
        rcases take_byte_cases given input with ⟨htake, hempty⟩ | ⟨c, input', rfl, htake⟩
        · rw [htake]
          refine readsCertSize_nothing h _ (by decide) ?_ ?_
          · simp only [reduceCtorEq, false_iff]
            omega
          · rintro - ⟨given', rest', hlimits, hgiven⟩
            cases hlimits
            exact hempty hgiven
        · rw [htake]
          refine ReadsCertSize.afterByte (ih ?_ input') hshort ⟨rfl, rfl, rfl, rfl, rfl, rfl⟩ rfl
          exact h.readByte hshort c rfl rfl rfl
      · have hlong := h.certPos_lt_iff.not.mp hpos
        rw [if_neg hpos]
        refine readsCertSize_nothing h _ (by decide) ?_ fun hshort => absurd hshort hlong
        simp only [true_iff]
        omega

structure ReadsCert (limits : ClientLimits) (s : HandshakeState)
    (part input : List UInt8) (call : HandshakeCall) : Prop where
  read_le : call.read ≤ input.length
  nothingWritten : call.written = []
  notFailed : call.status ≠ .failed
  received : ReceivedCert call.state (part ++ input.take call.read)
  success_iff : call.status = .success ↔ CertComplete (part ++ input.take call.read)
  saved : call.saved = savedCert (part ++ input.take call.read)
  message : SameMessage s call.state
  mark : call.state.markByteDone = s.markByteDone
  moves : limits.Positive → input ≠ [] → call.status = .pending → 0 < call.read

theorem CertBuffer.getD_malloc (prm : HandshakeParams) {s : HandshakeState} {body : List UInt8}
    (h : CertBuffer s body) :
    (s.cert.getD (prm.malloc s.certSz)).length = s.certSz ∧
      (s.cert.getD (prm.malloc s.certSz)).take body.length = body := by
  rcases h with ⟨hnone, rfl⟩ | ⟨buf, hbuf, hlength, htake⟩
  · rw [hnone, Option.getD_none]
    refine ⟨?_, rfl⟩
    unfold malloc
    rw [List.length_map, List.length_range]
  · rw [hbuf, Option.getD_some]
    exact ⟨hlength, htake⟩

theorem readCert_reads {limits : ClientLimits} {s : HandshakeState} {lo hi : UInt8}
    {body : List UInt8} (hpos : s.certPos = 2 + body.length)
    (hsz : s.certSz = 0x100 * hi.toNat) (hlt : hi ≠ 0 → body.length < 0x100 * hi.toNat)
    (hzero : hi = 0 → body = []) (hbuffer : CertBuffer s body) (input : List UInt8) :
    ReadsCert limits s (lo :: hi :: body) input (prm.readCert limits.cert s input) := by
  have hhi := hi.toNat_lt
  unfold readCert
  by_cases hhi0 : hi = 0
  · have hbody := hzero hhi0
    subst hhi0 hbody
    rw [if_pos (by rw [hsz]; rfl)]
    exact
      { read_le := Nat.zero_le _
        nothingWritten := rfl
        notFailed := fun h => (by cases h)
        received := .body hpos hsz (Nat.zero_le _) hbuffer
        success_iff := ⟨fun _ => .intro rfl, fun _ => rfl⟩
        saved := rfl
        message := .refl s
        mark := rfl
        moves := fun _ _ h => (by cases h) }
  · have hlt := hlt hhi0
    obtain ⟨hbuflen, hbuftake⟩ := hbuffer.getD_malloc prm
    have hpos' : s.certPos - 2 = body.length := by omega
    rw [hsz] at hbuflen hbuftake
    rw [if_neg (by omega)]
    dsimp only
    rw [hpos', hsz]
    generalize s.cert.getD (prm.malloc (0x100 * hi.toNat)) = buf at hbuflen hbuftake ⊢
    have hlength : (input.take (min limits.cert (0x100 * hi.toNat - body.length))).length =
        min (min limits.cert (0x100 * hi.toNat - body.length)) input.length := List.length_take
    generalize hdata : input.take (min limits.cert (0x100 * hi.toNat - body.length)) = data
      at hlength ⊢
    have htaken : input.take data.length = data :=
      (List.prefix_iff_eq_take.mp (hdata ▸ List.take_prefix _ _)).symm
    have hcertPos : (body ++ data).length ≤ 0x100 * hi.toNat →
        (s.certPos + data.length) % 0x10000 = 2 + (body ++ data).length := by
      rw [List.length_append, hpos]
      omega
    have hbuffer' : ∀ {t : HandshakeState}, (body ++ data).length ≤ 0x100 * hi.toNat →
        t.certSz = 0x100 * hi.toNat → t.cert = some (overwrite buf body.length data) →
        CertBuffer t (body ++ data) := by
      intro t hle htsz htcert
      rw [List.length_append] at hle
      refine Or.inr ⟨_, htcert, ?_, overwrite_take hbuftake _⟩
      rw [overwrite_length (by omega), hbuflen, htsz]
    split_ifs with hnothing hshort
    · -- The buffer has been allocated, although there was nothing to read.
      have hincomplete : ¬CertComplete (lo :: hi :: body) := by
        rw [certComplete_iff]
        omega
      have hgot : (lo :: hi :: body) ++ input.take 0 = lo :: hi :: body := by
        rw [List.take_zero, List.append_nil]
      rw [hnothing, List.length_nil] at hlength
      exact
        { read_le := Nat.zero_le _
          nothingWritten := rfl
          notFailed := fun h => (by cases h)
          received := by
            change ReceivedCert _ ((lo :: hi :: body) ++ input.take 0)
            rw [hgot]
            exact .body hpos rfl hlt.le (Or.inr ⟨buf, rfl, hbuflen, hbuftake⟩)
          success_iff := by
            change _ ↔ CertComplete ((lo :: hi :: body) ++ input.take 0)
            rw [hgot]
            exact ⟨fun h => (by cases h), fun h => absurd h hincomplete⟩
          saved := by
            change [] = savedCert ((lo :: hi :: body) ++ input.take 0)
            rw [hgot, savedCert_of_not_complete hincomplete]
          message := ⟨rfl, rfl, rfl, rfl, rfl, rfl⟩
          mark := rfl
          moves := fun hpositive hinput _ => by
            have hinput' := List.length_pos_iff.mpr hinput
            have hcert := hpositive.2.2.2
            omega }
    · have hle : (body ++ data).length ≤ 0x100 * hi.toNat := by
        rw [List.length_append]
        omega
      have hincomplete : ¬CertComplete (lo :: hi :: (body ++ data)) := by
        rw [certComplete_iff, List.length_append]
        omega
      exact
        { read_le := by
            dsimp only
            omega
          nothingWritten := rfl
          notFailed := fun h => (by cases h)
          received := by
            dsimp only
            rw [htaken]
            exact .body (hcertPos hle) rfl hle (hbuffer' hle rfl rfl)
          success_iff := by
            dsimp only
            rw [htaken]
            exact ⟨fun h => (by cases h), fun h => absurd h hincomplete⟩
          saved := by
            dsimp only
            rw [htaken]
            exact (savedCert_of_not_complete hincomplete).symm
          message := ⟨rfl, rfl, rfl, rfl, rfl, rfl⟩
          mark := rfl
          moves := fun _ _ _ => List.length_pos_iff.mpr hnothing }
    · have hall : (body ++ data).length = 0x100 * hi.toNat := by
        rw [List.length_append]
        omega
      exact
        { read_le := by
            dsimp only
            omega
          nothingWritten := rfl
          notFailed := fun h => (by cases h)
          received := by
            dsimp only
            rw [htaken]
            exact .body (hcertPos hall.le) rfl hall.le (hbuffer' hall.le rfl rfl)
          success_iff := by
            dsimp only
            rw [htaken]
            exact ⟨fun _ => .intro hall, fun _ => rfl⟩
          saved := by
            dsimp only
            rw [htaken]
            have hwhole : overwrite buf body.length data = body ++ data := by
              rw [← overwrite_take hbuftake data]
              symm
              apply List.take_of_length_le
              rw [overwrite_length (by omega)]
              omega
            have hsaved : savedCert (lo :: hi :: (body ++ data)) =
                [(body ++ data, 0x100 * hi.toNat)] := if_pos ⟨hhi0, hall⟩
            rw [hwhole]
            exact hsaved.symm
          message := ⟨rfl, rfl, rfl, rfl, rfl, rfl⟩
          mark := rfl
          moves := fun _ _ _ => List.length_pos_iff.mpr hnothing }

theorem readsCert_pending {limits : ClientLimits} {s : HandshakeState} {part input : List UInt8}
    {call : HandshakeCall} (hsize : ReadsCertSize limits.certSize s part input call)
    (hstatus : call.status ≠ .success) : ReadsCert limits s part input call := by
  have hshort : (part ++ input.take call.read).length < 2 :=
    Nat.lt_of_not_le (hsize.success_iff.not.mp hstatus)
  have hincomplete : ¬CertComplete (part ++ input.take call.read) := by
    intro hcomplete
    have hlong := hcomplete.two_le_length
    omega
  exact
    { read_le := hsize.read_le
      nothingWritten := hsize.nothingWritten
      notFailed := hsize.notFailed
      received := hsize.received
      success_iff := ⟨fun h => absurd h hstatus, fun h => absurd h hincomplete⟩
      saved := by rw [hsize.nothingSaved, savedCert_of_not_complete hincomplete]
      message := hsize.message
      mark := hsize.mark
      moves := fun hpositive hinput _ => by
        rw [List.length_append] at hshort
        exact hsize.moves (by omega) hpositive.2.2.1 hinput }

theorem ReceivedCert.readCert (prm : HandshakeParams) (limits : ClientLimits) {s : HandshakeState}
    {part : List UInt8} (h : ReceivedCert s part) (hincomplete : ¬CertComplete part)
    (input : List UInt8) :
    ReadsCert limits s part input
      ((HandshakeParams.readCertSize limits.certSize s input).andThen input
        (prm.readCert limits.cert)) := by
  have hsize := h.readCertSize limits.certSize input
  generalize HandshakeParams.readCertSize limits.certSize s input = call at hsize ⊢
  by_cases hstatus : call.status = .success
  · have hlong := hsize.success_iff.mp hstatus
    have hsecond : ReadsCert limits call.state (part ++ input.take call.read)
        (input.drop call.read)
        (prm.readCert limits.cert call.state (input.drop call.read)) := by
      have hreceived := hsize.received
      have hshort := hsize.short
      have hsame : call.read = 0 → part ++ input.take call.read = part := by
        intro hread
        rw [hread, List.take_zero, List.append_nil]
      generalize part ++ input.take call.read = got at hlong hreceived hshort hsame
      cases hreceived with
      | start => exact absurd hlong (by decide)
      | low => exact absurd hlong (by simp)
      | @body lo hi body hpos hsz hle hbuffer =>
          refine readCert_reads hpos hsz ?_ ?_ hbuffer _
          · intro hhi0
            have hhi : 0 < hi.toNat := Nat.pos_of_ne_zero fun h0 =>
              hhi0 (UInt8.toNat_inj.mp h0)
            rcases hshort with hread | hshort
            · rw [← hsame hread, certComplete_iff] at hincomplete
              omega
            · simp only [List.length_cons] at hshort
              omega
          · rintro rfl
            exact List.length_eq_zero_iff.mp (Nat.le_zero.mp hle)
    have hgot : ∀ k, part ++ input.take (call.read + k) =
        part ++ input.take call.read ++ (input.drop call.read).take k := by
      intro k
      rw [List.append_assoc, ← List.take_add]
    rw [HandshakeCall.andThen_of_success hstatus]
    generalize prm.readCert limits.cert call.state (input.drop call.read) = second
      at hsecond ⊢
    exact
      { read_le := by
          have hle := hsize.read_le
          have hle' := hsecond.read_le
          rw [List.length_drop] at hle'
          dsimp only
          omega
        nothingWritten := by
          dsimp only
          rw [hsize.nothingWritten, hsecond.nothingWritten]
          rfl
        notFailed := hsecond.notFailed
        received := by
          dsimp only
          rw [hgot]
          exact hsecond.received
        success_iff := by
          dsimp only
          rw [hgot]
          exact hsecond.success_iff
        saved := by
          dsimp only
          rw [hgot, hsize.nothingSaved, hsecond.saved]
          rfl
        message := hsize.message.trans hsecond.message
        mark := hsecond.mark.trans hsize.mark
        moves := fun hpositive hinput hpending => by
          dsimp only
          rcases Nat.eq_zero_or_pos call.read with hread | hread
          · have hmoves := hsecond.moves hpositive (by rwa [hread, List.drop_zero]) hpending
            omega
          · omega }
  · rw [HandshakeCall.andThen_of_ne hstatus]
    exact readsCert_pending hsize hstatus

end HandshakeParams

end Iocom
