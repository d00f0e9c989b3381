import Iocom.HandshakeRuns
import Iocom.Lib.FairRounds

/-!
# The handshake finishes

The work which is left is counted in bytes which are to be written or read, and in
ends which have not returned.  No call adds to it.  As long as an end has not
finished, one of both ends does not have to wait for the other, and its next call
takes from the work if the streams take or give at least a byte.
-/

namespace Iocom

open HandshakeParams

namespace HandshakePair

variable {prm : HandshakeParams} {t t' : HandshakePair}

def Finished (t : HandshakePair) : Prop :=
  t.clientStatus = .success ∧ t.serverStatus = .success

instance (t : HandshakePair) : Decidable t.Finished := by
  unfold Finished
  infer_instance

def serverBytesLength (prm : HandshakeParams) : ℕ :=
  (if prm.secure then 1 else 0) +
    if prm.requestTrustCertificate then prm.certMessage.length else 0

def statusWork : HandshakeStatus → ℕ
  | .pending => 1
  | _ => 0

def remainingWork (prm : HandshakeParams) (t : HandshakePair) : ℕ :=
  (prm.clientMessageBytes.length - t.toServer.length) +
    (prm.clientMessageBytes.length - t.serverRead) +
    (serverBytesLength prm - t.toClient.length) + (serverBytesLength prm - t.clientRead) +
    statusWork t.clientStatus + statusWork t.serverStatus

def handshakeWork (prm : HandshakeParams) : ℕ :=
  2 * prm.clientMessageBytes.length + 2 * serverBytesLength prm + 2

theorem statusWork_le_one (status : HandshakeStatus) : statusWork status ≤ 1 := by
  cases status <;> decide

theorem statusWork_of_ne {status : HandshakeStatus} (h : status ≠ .pending) :
    statusWork status = 0 := by
  cases status with
  | success => rfl
  | pending => exact absurd rfl h
  | failed => rfl

theorem remainingWork_le : t.remainingWork prm ≤ handshakeWork prm := by
  have hclient := statusWork_le_one t.clientStatus
  have hserver := statusWork_le_one t.serverStatus
  unfold remainingWork handshakeWork
  omega

structure Advances (t t' : HandshakePair) : Prop where
  toServer : t.toServer.length ≤ t'.toServer.length
  serverRead : t.serverRead ≤ t'.serverRead
  toClient : t.toClient.length ≤ t'.toClient.length
  clientRead : t.clientRead ≤ t'.clientRead
  clientStatus : t'.clientStatus = t.clientStatus ∨ t.clientStatus = .pending
  serverStatus : t'.serverStatus = t.serverStatus ∨ t.serverStatus = .pending

theorem Advances.refl (t : HandshakePair) : Advances t t :=
  ⟨Nat.le_refl _, Nat.le_refl _, Nat.le_refl _, Nat.le_refl _, Or.inl rfl, Or.inl rfl⟩

theorem Advances.trans {t'' : HandshakePair} (h : Advances t t') (h' : Advances t' t'') :
    Advances t t'' where
  toServer := h.toServer.trans h'.toServer
  serverRead := h.serverRead.trans h'.serverRead
  toClient := h.toClient.trans h'.toClient
  clientRead := h.clientRead.trans h'.clientRead
  clientStatus := by
    rcases h.clientStatus with hsame | hpending
    · rw [← hsame]
      exact h'.clientStatus
    · exact Or.inr hpending
  serverStatus := by
    rcases h.serverStatus with hsame | hpending
    · rw [← hsame]
      exact h'.serverStatus
    · exact Or.inr hpending

theorem step_advances (action : HandshakeAction) : Advances t (t.step prm action) := by
  cases action with
  | client limits =>
      simp only [HandshakePair.step]
      split_ifs with hpending
      · exact
          { toServer := by
              dsimp only
              rw [List.length_append]
              omega
            serverRead := Nat.le_refl _
            toClient := Nat.le_refl _
            clientRead := Nat.le_add_right _ _
            clientStatus := Or.inr hpending
            serverStatus := Or.inl rfl }
      · exact .refl t
  | server limits =>
      simp only [HandshakePair.step]
      split_ifs with hpending
      · exact
          { toServer := Nat.le_refl _
            serverRead := Nat.le_add_right _ _
            toClient := by
              dsimp only
              rw [List.length_append]
              omega
            clientRead := Nat.le_refl _
            clientStatus := Or.inl rfl
            serverStatus := Or.inr hpending }
      · exact .refl t

theorem run_advances (actions : List HandshakeAction) : Advances t (t.run prm actions) := by
  induction actions generalizing t with
  | nil => exact .refl t
  | cons action actions ih => exact (step_advances action).trans ih

theorem Advances.finished (h : Advances t t') (hfinished : t.Finished) : t'.Finished := by
  obtain ⟨hclient, hserver⟩ := hfinished
  constructor
  · rcases h.clientStatus with hsame | hpending
    · rw [hsame, hclient]
    · rw [hclient] at hpending
      cases hpending
  · rcases h.serverStatus with hsame | hpending
    · rw [hsame, hserver]
    · rw [hserver] at hpending
      cases hpending

theorem Advances.statusWork_le (h : Advances t t') :
    statusWork t'.clientStatus ≤ statusWork t.clientStatus ∧
      statusWork t'.serverStatus ≤ statusWork t.serverStatus := by
  constructor
  · rcases h.clientStatus with hsame | hpending
    · rw [hsame]
    · rw [hpending]
      exact statusWork_le_one _
  · rcases h.serverStatus with hsame | hpending
    · rw [hsame]
    · rw [hpending]
      exact statusWork_le_one _

theorem Advances.remainingWork_le (h : Advances t t') :
    t'.remainingWork prm ≤ t.remainingWork prm := by
  obtain ⟨hclient, hserver⟩ := h.statusWork_le
  have h1 := h.toServer
  have h2 := h.serverRead
  have h3 := h.toClient
  have h4 := h.clientRead
  unfold remainingWork
  omega

/-! ## Who can move -/

def ClientMoves (prm : HandshakeParams) (t : HandshakePair) : Prop :=
  t.clientStatus = .pending ∧
    (((prm.secure = true → 0 < t.clientRead) ∧
        t.toServer.length < prm.clientMessageBytes.length) ∨
      t.clientRead < t.toClient.length)

def ServerMoves (prm : HandshakeParams) (t : HandshakePair) : Prop :=
  t.serverStatus = .pending ∧
    ((prm.secure = true ∧ t.toClient.length = 0) ∨
      t.serverRead = prm.clientMessageBytes.length ∨ t.serverRead < t.toServer.length)

end HandshakePair

namespace HandshakeParams

variable {prm : HandshakeParams} {t : HandshakePair} {gotten part : List UInt8}

theorem markBytes_of_marked {s : HandshakeState} (h : prm.Marked s) :
    prm.markBytes s = if prm.secure then [secureMarkByte] else [] := by
  unfold markBytes
  cases hsecure : prm.secure with
  | false => rfl
  | true => rw [h hsecure]; rfl

theorem markBytes_length_le (s : HandshakeState) :
    (prm.markBytes s).length ≤ if prm.secure then 1 else 0 := by
  unfold markBytes
  cases prm.secure <;> cases s.markByteDone <;> decide

theorem PairAt.client_marked_iff (h : PairAt prm t gotten part) :
    prm.Marked t.client ↔ (prm.secure = true → 0 < t.clientRead) := by
  have hlength := congrArg List.length h.received
  have hle := h.clientRead_le
  rw [List.length_take, List.length_append] at hlength
  constructor
  · intro hmarked hsecure
    rw [markBytes_of_marked hmarked, hsecure, if_pos rfl, List.length_singleton] at hlength
    omega
  · intro hread
    by_contra hmarked
    obtain ⟨hmark, hsecure, -⟩ := markBytes_of_not_marked hmarked
    have hpos := hread hsecure
    rw [hmark, (h.client.unmarked hmarked).2, List.length_nil] at hlength
    omega

theorem PairAt.server_marked_iff (h : PairAt prm t gotten part) :
    prm.Marked t.server ↔ ¬(prm.secure = true ∧ t.toClient.length = 0) := by
  constructor
  · rintro hmarked ⟨hsecure, hnothing⟩
    rw [h.toClient, markBytes_of_marked hmarked, hsecure, if_pos rfl] at hnothing
    simp only [List.length_append, List.length_singleton] at hnothing
    omega
  · intro hsent
    by_contra hmarked
    obtain ⟨hmark, hsecure, -⟩ := markBytes_of_not_marked hmarked
    refine hsent ⟨hsecure, ?_⟩
    rw [h.toClient, hmark, (h.server.unmarked hmarked).2]
    rfl

theorem PairAt.client_sending_iff (h : PairAt prm t gotten part) :
    t.client.handShakeMessageDone = false ↔
      t.toServer.length < prm.clientMessageBytes.length := by
  have hstarts := h.client.message.isPrefix
  rw [← Bool.not_eq_true, h.client.message.done_iff]
  constructor
  · intro hne
    exact lt_of_le_of_ne hstarts.length_le fun heq => hne (hstarts.eq_of_length heq)
  · intro hlt heq
    rw [heq] at hlt
    exact Nat.lt_irrefl _ hlt

theorem isHandshakeMessage_clientMessageBytes : IsHandshakeMessage prm.clientMessageBytes := by
  rcases prm.clientMessageBytes_cases with ⟨-, hbytes⟩ | ⟨-, len, hlen, hbytes⟩
  · rw [hbytes]
    refine .oneByte ?_
    have hflag := (header_flags prm false rfl).2.2.2
    by_contra hbit
    exact absurd (hflag.mp hbit) (by decide)
  · rw [hbytes]
    refine .named ((header_flags prm true rfl).2.2.2.mpr rfl) ?_
    rw [hlen, List.length_append, List.length_singleton]

theorem PairAt.server_done_iff (h : PairAt prm t gotten part) :
    t.server.handShakeMessageDone = true ↔ t.serverRead = prm.clientMessageBytes.length := by
  constructor
  · intro hdone
    obtain ⟨hsent, hread⟩ := h.server_message hdone
    rw [hread, hsent]
  · intro hread
    have hle := h.serverRead_le
    have hstarts := h.client.message.isPrefix
    have hsent : t.toServer = prm.clientMessageBytes :=
      hstarts.eq_of_length_le (by omega)
    rw [h.server.done_iff, hread, hsent, List.take_length]
    exact isHandshakeMessage_clientMessageBytes

theorem PairAt.copy_eq (h : PairAt prm t gotten part)
    (hdone : t.server.handShakeMessageDone = true) :
    t.server.copyTrustCertificate = prm.requestTrustCertificate := by
  obtain ⟨hsent, hread⟩ := h.server_message hdone
  have hreceives := h.server.message
  rw [hread, List.take_length, hsent] at hreceives
  exact hreceives.data.2.1

theorem PairAt.part_nil (h : PairAt prm t gotten part)
    (hrequest : prm.requestTrustCertificate = false) : part = [] := by
  cases hdone : t.server.handShakeMessageDone with
  | false => exact h.server.waiting hdone
  | true => exact h.server.noCopy ((h.copy_eq hdone).trans hrequest)

theorem PairAt.length_le (h : PairAt prm t gotten part) :
    t.toServer.length ≤ prm.clientMessageBytes.length ∧
      t.toClient.length ≤ HandshakePair.serverBytesLength prm := by
  refine ⟨h.client.message.isPrefix.length_le, ?_⟩
  unfold HandshakePair.serverBytesLength
  rw [h.toClient, List.length_append]
  refine Nat.add_le_add (markBytes_length_le t.server) ?_
  split_ifs with hrequest
  · exact h.server.cert.isPrefix.length_le
  · rw [h.part_nil (Bool.eq_false_iff.mpr hrequest)]
    exact Nat.le_refl 0

theorem PairAt.client_progress (h : PairAt prm t gotten part) {limits : ClientLimits}
    (hpositive : limits.Positive) (hmoves : t.ClientMoves prm) :
    (t.step prm (.client limits)).remainingWork prm < t.remainingWork prm := by
  obtain ⟨hpending, hmove⟩ := hmoves
  obtain ⟨gotten', hcall⟩ := h.clientCall hpending limits
  obtain ⟨gotten'', hafter⟩ := h.client_step limits
  have hcan : prm.ClientCanMove t.client (t.toClient.drop t.clientRead) := by
    unfold ClientCanMove
    rw [h.client_marked_iff, h.client_sending_iff, Ne, List.drop_eq_nil_iff]
    rcases hmove with hsend | hread
    · exact Or.inl hsend
    · exact Or.inr (by omega)
  have hprogress := hcall.moves hpositive hcan
  obtain ⟨hserverLength, hclientLength⟩ := hafter.length_le
  have hread := hafter.clientRead_le
  simp only [HandshakePair.step, if_pos hpending, List.length_append] at *
  generalize prm.clientHandshake limits t.client (t.toClient.drop t.clientRead) = call at *
  unfold HandshakePair.remainingWork
  simp only [List.length_append, hpending]
  by_cases hstatus : call.status = .pending
  · have hpos := hprogress hstatus
    rw [hstatus]
    omega
  · rw [HandshakePair.statusWork_of_ne hstatus]
    simp only [HandshakePair.statusWork]
    omega

theorem PairAt.server_progress (h : PairAt prm t gotten part) {limits : ServerLimits}
    (hpositive : limits.Positive) (hmoves : t.ServerMoves prm) :
    (t.step prm (.server limits)).remainingWork prm < t.remainingWork prm := by
  obtain ⟨hpending, hmove⟩ := hmoves
  obtain ⟨part', hcall, -⟩ := h.serverCall limits
  obtain ⟨part'', hafter⟩ := h.server_step limits
  have hcan : prm.ServerCanMove t.server (t.toServer.drop t.serverRead) := by
    unfold ServerCanMove
    rw [h.server_marked_iff, not_not, h.server_done_iff, Ne, List.drop_eq_nil_iff, Nat.not_le]
    exact hmove
  have hprogress := hcall.moves hpositive hcan
  obtain ⟨hserverLength, hclientLength⟩ := hafter.length_le
  have hread := hafter.serverRead_le
  simp only [HandshakePair.step, if_pos hpending, List.length_append] at *
  generalize prm.serverHandshake limits t.server (t.toServer.drop t.serverRead) = call at *
  unfold HandshakePair.remainingWork
  simp only [List.length_append, hpending]
  by_cases hstatus : call.status = .pending
  · have hpos := hprogress hstatus
    rw [hstatus]
    omega
  · rw [HandshakePair.statusWork_of_ne hstatus]
    simp only [HandshakePair.statusWork]
    omega

theorem status_pending {status : HandshakeStatus} (hfailed : status ≠ .failed)
    (hsuccess : status ≠ .success) : status = .pending := by
  cases status with
  | success => exact absurd rfl hsuccess
  | pending => rfl
  | failed => exact absurd rfl hfailed

theorem status_success {status : HandshakeStatus} (hfailed : status ≠ .failed)
    (hwork : HandshakePair.statusWork status = 0) : status = .success := by
  cases status with
  | success => rfl
  | pending => cases hwork
  | failed => exact absurd rfl hfailed

/-- A client which has read a whole certificate message has completed. -/
theorem ReceivedCert.certComplete {s : HandshakeState}
    (h : ReceivedCert s prm.certMessage) : CertComplete prm.certMessage := by
  have hle := prm.certContent_length_le
  have hlength : (UInt8.ofNat (prm.certContent.length / 0x100)).toNat =
      prm.certContent.length / 0x100 := by
    rw [UInt8.toNat_ofNat']
    exact Nat.mod_eq_of_lt (by omega)
  rw [certMessage_eq] at h ⊢
  simp only [List.cons_append, List.nil_append] at h ⊢
  cases h with
  | body hpos hsz hbody hbuffer =>
      refine .intro ?_
      rw [hlength] at hbody ⊢
      omega

/-- As long as an end has not finished, one of both can move. -/
theorem PairAt.exists_moves (h : PairAt prm t gotten part) (hnot : ¬t.Finished) :
    t.ClientMoves prm ∨ t.ServerMoves prm := by
  by_cases hserver : t.serverStatus = .success
  · left
    have hclient : t.clientStatus ≠ .success := fun hclient => hnot ⟨hclient, hserver⟩
    refine ⟨status_pending h.clientNotFailed hclient, ?_⟩
    by_contra hstuck
    rw [not_or, Nat.not_lt] at hstuck
    obtain ⟨hmarked, hdone, hcert⟩ := h.serverSuccess_iff.mp hserver
    obtain ⟨hsent, -⟩ := h.server_message hdone
    have hclientMarked : prm.Marked t.client := by
      rw [h.client_marked_iff]
      intro hsecure
      by_contra hread
      exact h.server_marked_iff.mp hmarked ⟨hsecure, by omega⟩
    refine hclient (h.clientSuccess_iff.mpr ⟨hclientMarked, ?_, fun hrequest => ?_⟩)
    · rw [h.client.message.done_iff]
      exact hsent
    · have hunread := h.unread_length hclientMarked hmarked
      have hall : gotten = part := h.gotten_isPrefix.eq_of_length_le (by omega)
      have hreceived := h.client.cert
      rw [hall, hcert ((h.copy_eq hdone).trans hrequest)] at hreceived ⊢
      exact hreceived.certComplete
  · have hserver := status_pending h.serverNotFailed hserver
    by_cases hserverMoves : t.ServerMoves prm
    · exact Or.inr hserverMoves
    · left
      unfold HandshakePair.ServerMoves at hserverMoves
      rw [not_and, not_or, not_or, Nat.not_lt] at hserverMoves
      obtain ⟨hmark, hread, hall⟩ := hserverMoves hserver
      have hsent := h.length_le.1
      have hread_le := h.serverRead_le
      have hsending : t.toServer.length < prm.clientMessageBytes.length := by omega
      refine ⟨status_pending h.clientNotFailed fun hclient => ?_, ?_⟩
      · have hdone := (h.clientSuccess_iff.mp hclient).message
        rw [h.client_sending_iff.mpr hsending] at hdone
        cases hdone
      · by_cases hclientMark : prm.secure = true → 0 < t.clientRead
        · exact Or.inl ⟨hclientMark, hsending⟩
        · rw [Classical.not_imp] at hclientMark
          have hmarkSent : t.toClient.length ≠ 0 := fun h0 => hmark ⟨hclientMark.1, h0⟩
          exact Or.inr (by omega)

end HandshakeParams

namespace HandshakePair

variable {prm : HandshakeParams} {t : HandshakePair} {gotten part : List UInt8}

/-- A part of a run in which each end is called once where the streams take and give
at least a byte. -/
def IsRound (actions : List HandshakeAction) : Prop :=
  (∃ limits, .client limits ∈ actions ∧ limits.Positive) ∧
    ∃ limits, .server limits ∈ actions ∧ limits.Positive

theorem run_append (t : HandshakePair) (first second : List HandshakeAction) :
    t.run prm (first ++ second) = (t.run prm first).run prm second :=
  List.foldl_append

theorem Advances.same {t' : HandshakePair} (h : Advances t t')
    (hserverRead : t'.serverRead ≤ prm.clientMessageBytes.length)
    (htoServer : t'.toServer.length ≤ prm.clientMessageBytes.length)
    (hclientRead : t'.clientRead ≤ serverBytesLength prm)
    (htoClient : t'.toClient.length ≤ serverBytesLength prm)
    (hwork : t.remainingWork prm ≤ t'.remainingWork prm) :
    (t.ClientMoves prm → t'.ClientMoves prm) ∧ (t.ServerMoves prm → t'.ServerMoves prm) := by
  obtain ⟨hclient, hserver⟩ := h.statusWork_le
  have h1 := h.toServer
  have h2 := h.serverRead
  have h3 := h.toClient
  have h4 := h.clientRead
  unfold remainingWork at hwork
  have e1 : t'.toServer.length = t.toServer.length := by omega
  have e2 : t'.serverRead = t.serverRead := by omega
  have e3 : t'.toClient.length = t.toClient.length := by omega
  have e4 : t'.clientRead = t.clientRead := by omega
  have hstatus : ∀ {status status' : HandshakeStatus}, status = .pending →
      statusWork status ≤ statusWork status' → status' = .pending := by
    rintro _ status' rfl hle
    cases status' with
    | pending => rfl
    | success => exact absurd hle (by decide)
    | failed => exact absurd hle (by decide)
  unfold ClientMoves ServerMoves
  rw [e1, e2, e3, e4]
  exact ⟨fun hmoves => ⟨hstatus hmoves.1 (by omega), hmoves.2⟩,
    fun hmoves => ⟨hstatus hmoves.1 (by omega), hmoves.2⟩⟩

def Between (prm : HandshakeParams) (t : HandshakePair) : Prop :=
  ∃ gotten part, PairAt prm t gotten part

theorem settles : FairRounds.Settles (HandshakePair.step prm) (Between prm)
    (remainingWork prm) where
  inv_step t action := by
    rintro ⟨gotten, part, h⟩
    exact h.run [action]
  work_step _ action _ := (step_advances action).remainingWork_le

theorem round_progress (h : PairAt prm t gotten part) {actions : List HandshakeAction}
    (hround : IsRound actions) (hnot : ¬t.Finished) :
    (t.run prm actions).remainingWork prm < t.remainingWork prm := by
  obtain ⟨⟨clientLimits, hclientMem, hclient⟩, serverLimits, hserverMem, hserver⟩ := hround
  have hsame : ∀ before : List HandshakeAction,
      t.remainingWork prm ≤ (t.run prm before).remainingWork prm →
        ∃ gotten' part', PairAt prm (t.run prm before) gotten' part' ∧
          (t.ClientMoves prm → (t.run prm before).ClientMoves prm) ∧
          (t.ServerMoves prm → (t.run prm before).ServerMoves prm) := by
    intro before hwork
    obtain ⟨gotten', part', h'⟩ := h.run before
    obtain ⟨hsent, hsent'⟩ := h'.length_le
    exact ⟨gotten', part', h', (run_advances before).same (h'.serverRead_le.trans hsent) hsent
      (h'.clientRead_le.trans hsent') hsent' hwork⟩
  rcases h.exists_moves hnot with hmoves | hmoves
  · refine settles.foldl_lt ⟨gotten, part, h⟩ hclientMem fun before hwork => ?_
    obtain ⟨gotten', part', h', hkeeps, -⟩ := hsame before hwork
    exact h'.client_progress hclient (hkeeps hmoves)
  · refine settles.foldl_lt ⟨gotten, part, h⟩ hserverMem fun before hwork => ?_
    obtain ⟨gotten', part', h', -, hkeeps⟩ := hsame before hwork
    exact h'.server_progress hserver (hkeeps hmoves)

theorem rounds_finish (h : PairAt prm t gotten part) (rounds : List (List HandshakeAction))
    (hrounds : ∀ actions ∈ rounds, IsRound actions)
    (hwork : t.remainingWork prm ≤ rounds.length) : (t.run prm rounds.flatten).Finished := by
  refine settles.finish HandshakePair.Finished ?_ ?_ rounds ?_ ⟨gotten, part, h⟩ hwork
  · rintro t' ⟨gotten', part', h'⟩ hzero
    unfold remainingWork at hzero
    exact ⟨status_success h'.clientNotFailed (by omega),
      status_success h'.serverNotFailed (by omega)⟩
  · exact fun _ action _ hfinished => (step_advances action).finished hfinished
  · rintro round hround t' ⟨gotten', part', h'⟩ hnot
    exact round_progress h' (hrounds round hround) hnot

end HandshakePair

end Iocom
