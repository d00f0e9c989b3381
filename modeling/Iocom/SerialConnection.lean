import Iocom.Lib.TransitionSystem
import Mathlib.Data.List.TakeDrop

/-!
# The beginning of a serial connection

The ends of a serial line exchange control characters until both know where the data of
the other end begins.  A client which waits for too long starts over; as long as it does
not so while its confirmation is under way, or after the server has taken it, no
character of the exchange gets into the data, and no data gets lost in the exchange.
-/

namespace Iocom

/-- `iocSerialConnectionState`. -/
inductive SerialConnectionState
  | init1
  | init2
  | init3
  | init4
  | connected5
  deriving DecidableEq

/-- `iocSerialCtrlChar`. -/
def iocSerialConnect : UInt8 := 253

def iocSerialConnectReply : UInt8 := 252

def iocSerialConfirm : UInt8 := 251

def iocSerialConfirmReply : UInt8 := 250

def iocSerialDisconnect : UInt8 := 249

/-- What a call gets from outside: whether `os_has_elapsed`, how many bytes have arrived,
how many of them a flush clears, and how many of the written bytes it keeps because they
have been transmitted. -/
structure SerialCall where
  elapsed : Bool
  arrived : ℕ
  cleared : ℕ
  kept : ℕ

/-- The bytes which an end has not read yet, and those which it has written and the other
end has not read. -/
structure SerialPort where
  incoming : List UInt8
  outgoing : List UInt8

/-- An end with the data which it has sent and taken since its connection state has been
reset. -/
structure SerialEnd where
  serconState : SerialConnectionState
  sent : List UInt8
  taken : List UInt8

/-- `osal_stream_flush` with the flags which clear both buffers. -/
def SerialPort.flush (p : SerialPort) (call : SerialCall) : SerialPort :=
  ⟨p.incoming.drop call.cleared, p.outgoing.take call.kept⟩

def SerialPort.write (p : SerialPort) (c : UInt8) : SerialPort :=
  { p with outgoing := p.outgoing ++ [c] }

/-- `osal_stream_read` of at most `n` bytes. -/
def SerialPort.read (p : SerialPort) (call : SerialCall) (n : ℕ) : List UInt8 × SerialPort :=
  (p.incoming.take (min call.arrived n), { p with incoming := p.incoming.drop (min call.arrived n) })

/-- The size of `buf`. -/
def serialBufSz : ℕ := 32

/-- The last of the characters is `c`, and there are fewer than the buffer has room for. -/
def EndsWithChar (buf : List UInt8) (c : UInt8) : Prop :=
  buf.length < serialBufSz ∧ buf.getLast? = some c

instance (buf : List UInt8) (c : UInt8) : Decidable (EndsWithChar buf c) :=
  inferInstanceAs (Decidable (_ ∧ _))

namespace SerialEnd

/-- `ioc_reset_connection_state`, at the end of the exchange. -/
def connect (_ : SerialEnd) : SerialEnd := ⟨.connected5, [], []⟩

def goTo (e : SerialEnd) (state : SerialConnectionState) : SerialEnd :=
  { e with serconState := state }

/-- A client which waits for nothing any more starts over when the time is up. -/
def wait (e : SerialEnd) (call : SerialCall) : SerialEnd :=
  if call.elapsed then e.goTo .init1 else e

/-- `ioc_establish_serial_connection` without `IOC_LISTENER`. -/
def establishClient (e : SerialEnd) (p : SerialPort) (call : SerialCall) :
    SerialEnd × SerialPort :=
  match e.serconState with
  | .connected5 => (e, p)
  | .init2 =>
      let (buf, p') := p.read call serialBufSz
      if EndsWithChar buf iocSerialConnectReply then (e.goTo .init3, p'.write iocSerialConfirm)
      else (e.wait call, p')
  | .init3 =>
      let (buf, p') := p.read call 1
      if buf = [iocSerialConfirmReply] then (e.connect, p') else (e.wait call, p')
  | _ => (e.goTo .init2, (p.flush call).write iocSerialConnect)

/-- `ioc_establish_serial_connection` with `IOC_LISTENER`. -/
def establishServer (e : SerialEnd) (p : SerialPort) (call : SerialCall) :
    SerialEnd × SerialPort :=
  match e.serconState with
  | .connected5 => (e, p)
  | .init2 => (e.goTo .init3, p.flush call)
  | .init3 =>
      let (buf, p') := p.read call serialBufSz
      if EndsWithChar buf iocSerialConnect then (e.goTo .init4, p'.write iocSerialConnectReply)
      else (e, p')
  | .init4 =>
      let (buf, p') := p.read call serialBufSz
      if buf = [iocSerialConfirm] then (e.connect, p'.write iocSerialConfirmReply)
      else if buf = [] then (e, p')
      else (e.goTo .init3, p')
  | .init1 => (e.goTo .init2, p.write iocSerialDisconnect)

end SerialEnd

structure SerialLine where
  client : SerialEnd
  server : SerialEnd
  toServer : List UInt8
  toClient : List UInt8

/-- Calls of `ioc_run_connection` do what they do for both ends in any order: an end goes
on with the exchange, or, when it is connected, sends and takes data.  No call fails, so
that neither end closes its stream. -/
inductive SerialAction
  | client (call : SerialCall)
  | server (call : SerialCall)
  | clientSend (data : List UInt8)
  | serverSend (data : List UInt8)
  | clientTake (n : ℕ)
  | serverTake (n : ℕ)

namespace SerialLine

def step (s : SerialLine) : SerialAction → SerialLine
  | .client call =>
      let (e, p) := s.client.establishClient ⟨s.toClient, s.toServer⟩ call
      { s with client := e, toServer := p.outgoing, toClient := p.incoming }
  | .server call =>
      let (e, p) := s.server.establishServer ⟨s.toServer, s.toClient⟩ call
      { s with server := e, toServer := p.incoming, toClient := p.outgoing }
  | .clientSend data =>
      if s.client.serconState = .connected5 then
        { s with
          client := { s.client with sent := s.client.sent ++ data }
          toServer := s.toServer ++ data }
      else s
  | .serverSend data =>
      if s.server.serconState = .connected5 then
        { s with
          server := { s.server with sent := s.server.sent ++ data }
          toClient := s.toClient ++ data }
      else s
  | .clientTake n =>
      if s.client.serconState = .connected5 then
        { s with
          client := { s.client with taken := s.client.taken ++ s.toClient.take n }
          toClient := s.toClient.drop n }
      else s
  | .serverTake n =>
      if s.server.serconState = .connected5 then
        { s with
          server := { s.server with taken := s.server.taken ++ s.toServer.take n }
          toServer := s.toServer.drop n }
      else s

/-- The client does not start over while its confirmation is under way, nor after the
server has taken it. -/
def Patient (s : SerialLine) : SerialAction → Prop
  | .client call =>
      s.client.serconState = .init3 → call.elapsed = true →
        s.server.serconState ≠ .connected5 ∧ iocSerialConfirm ∉ s.toServer
  | _ => True

instance (s : SerialLine) : DecidablePred s.Patient
  | .client call =>
      inferInstanceAs (Decidable (s.client.serconState = .init3 → call.elapsed = true →
        s.server.serconState ≠ .connected5 ∧ iocSerialConfirm ∉ s.toServer))
  | .server _ | .clientSend _ | .serverSend _ | .clientTake _ | .serverTake _ =>
      inferInstanceAs (Decidable True)

def play (s : SerialLine) (action : SerialAction) : Option SerialLine :=
  if s.Patient action then some (s.step action) else none

end SerialLine

inductive SerialStep (s : SerialLine) : SerialLine → Prop
  | step (action : SerialAction) (hpatient : s.Patient action) : SerialStep s (s.step action)

/-- The streams have been opened; what is left on the line confirms nothing. -/
structure SerialStart (s : SerialLine) : Prop where
  client : s.client.serconState = .init1
  server : s.server.serconState = .init1
  toServer : iocSerialConfirm ∉ s.toServer
  toClient : iocSerialConfirmReply ∉ s.toClient

namespace SerialLine

/-! ## The phases -/

/-- The server waits for a confirmation; there is one on the line at most, behind all
other characters. -/
structure Opening (s : SerialLine) : Prop where
  client : s.client.serconState ≠ .connected5
  server : s.server.serconState ≠ .connected5
  toClient : iocSerialConfirmReply ∉ s.toClient
  last : iocSerialConfirm ∉ s.toServer.dropLast
  confirms : iocSerialConfirm ∈ s.toServer → s.client.serconState = .init3

/-- The server has taken the confirmation; behind its reply there is its data. -/
structure Confirmed (s : SerialLine) : Prop where
  client : s.client.serconState = .init3
  server : s.server.serconState = .connected5
  toServer : s.toServer = []
  taken : s.server.taken = []
  toClient : ∃ before, iocSerialConfirmReply ∉ before ∧
    s.toClient = before ++ iocSerialConfirmReply :: s.server.sent

structure Joined (s : SerialLine) : Prop where
  client : s.client.serconState = .connected5
  server : s.server.serconState = .connected5
  fromServer : s.client.taken ++ s.toClient = s.server.sent
  fromClient : s.server.taken ++ s.toServer = s.client.sent

def Invariant (s : SerialLine) : Prop := s.Opening ∨ s.Confirmed ∨ s.Joined

variable {s : SerialLine}

/-! ## A connected end -/

/-- What is sent behind a line which begins where the data begins. -/
theorem append_sent {taken line sent : List UInt8} (h : taken ++ line = sent)
    (data : List UInt8) : taken ++ (line ++ data) = sent ++ data := by
  rw [← List.append_assoc, h]

theorem append_taken {taken line sent : List UInt8} (h : taken ++ line = sent) (n : ℕ) :
    taken ++ line.take n ++ line.drop n = sent := by
  rw [List.append_assoc, List.take_append_drop, h]

theorem Joined.step (h : s.Joined) (action : SerialAction) : (s.step action).Joined := by
  cases action with
  | client call =>
      simp only [SerialLine.step, SerialEnd.establishClient, h.client]
      exact h
  | server call =>
      simp only [SerialLine.step, SerialEnd.establishServer, h.server]
      exact h
  | clientSend data =>
      rw [SerialLine.step, if_pos h.client]
      exact { h with fromClient := append_sent h.fromClient data }
  | serverSend data =>
      rw [SerialLine.step, if_pos h.server]
      exact { h with fromServer := append_sent h.fromServer data }
  | clientTake n =>
      rw [SerialLine.step, if_pos h.client]
      exact { h with fromServer := append_taken h.fromServer n }
  | serverTake n =>
      rw [SerialLine.step, if_pos h.server]
      exact { h with fromClient := append_taken h.fromClient n }

/-! ## The confirmation -/

/-- A client which waits for the reply takes one character at a time. -/
theorem step_waiting (h : s.client.serconState = .init3) (call : SerialCall) :
    s.step (.client call) = { s with
      client := if s.toClient.take (min call.arrived 1) = [iocSerialConfirmReply] then
          s.client.connect
        else s.client.wait call
      toClient := s.toClient.drop (min call.arrived 1) } := by
  simp only [SerialLine.step, SerialEnd.establishClient, h, SerialPort.read]
  by_cases hread : s.toClient.take (min call.arrived 1) = [iocSerialConfirmReply] <;>
    simp only [hread, if_true, if_false]

theorem Confirmed.clientCall (h : s.Confirmed) {call : SerialCall}
    (hpatient : s.Patient (.client call)) :
    (s.step (.client call)).Confirmed ∨ (s.step (.client call)).Joined := by
  obtain ⟨before, hbefore, hline⟩ := h.toClient
  have hwait : s.client.wait call = s.client := by
    rw [SerialEnd.wait, if_neg fun helapsed => (hpatient h.client helapsed).1 h.server]
  rw [step_waiting h.client, hwait, hline]
  obtain hnone | hone : min call.arrived 1 = 0 ∨ min call.arrived 1 = 1 := by omega
  · rw [hnone, List.take_zero, List.drop_zero, if_neg (by simp)]
    exact .inl { h with toClient := ⟨before, hbefore, rfl⟩ }
  rw [hone]
  cases before with
  | nil =>
      right
      rw [List.nil_append, List.take_succ_cons, List.take_zero, if_pos rfl]
      exact ⟨rfl, h.server, rfl, by rw [h.taken, h.toServer]; rfl⟩
  | cons c later =>
      obtain ⟨hc, hlater⟩ := not_or.mp (List.mem_cons.not.mp hbefore)
      rw [List.cons_append, List.take_succ_cons, List.take_zero,
        if_neg fun hread => hc (List.cons.inj hread).1.symm]
      exact .inl { h with toClient := ⟨later, hlater, rfl⟩ }

theorem Confirmed.step (h : s.Confirmed) {action : SerialAction} (hpatient : s.Patient action) :
    (s.step action).Confirmed ∨ (s.step action).Joined := by
  have hclient : s.client.serconState ≠ .connected5 := by simp [h.client]
  cases action with
  | client call => exact h.clientCall hpatient
  | server call =>
      simp only [SerialLine.step, SerialEnd.establishServer, h.server]
      exact .inl h
  | clientSend data =>
      rw [SerialLine.step, if_neg hclient]
      exact .inl h
  | serverSend data =>
      rw [SerialLine.step, if_pos h.server]
      obtain ⟨before, hbefore, hline⟩ := h.toClient
      exact .inl { h with toClient := ⟨before, hbefore, by simp [hline]⟩ }
  | clientTake n =>
      rw [SerialLine.step, if_neg hclient]
      exact .inl h
  | serverTake n =>
      rw [SerialLine.step, if_pos h.server]
      exact .inl { h with
        toServer := by simp [h.toServer]
        taken := by simp [h.taken, h.toServer] }

/-! ## Before the confirmation -/

theorem dropLast_drop_subset (l : List UInt8) (n : ℕ) : (l.drop n).dropLast ⊆ l.dropLast := by
  rw [List.dropLast_drop_eq_drop_dropLast]
  exact List.drop_subset n l.dropLast

/-- A confirmation which is read alone was the last character. -/
theorem eq_of_take_confirm {line : List UInt8} {n : ℕ}
    (hlast : iocSerialConfirm ∉ line.dropLast) (hread : line.take n = [iocSerialConfirm]) :
    line.drop n = [] := by
  by_contra hmore
  refine hlast ?_
  rw [← List.take_append_drop n line, List.dropLast_append_of_ne_nil hmore, hread]
  exact List.mem_append_left _ List.mem_cons_self

theorem step_asking (h : s.client.serconState = .init2) (call : SerialCall) :
    s.step (.client call) =
      if EndsWithChar (s.toClient.take (min call.arrived serialBufSz)) iocSerialConnectReply then
        { s with
          client := s.client.goTo .init3
          toServer := s.toServer ++ [iocSerialConfirm]
          toClient := s.toClient.drop (min call.arrived serialBufSz) }
      else
        { s with
          client := s.client.wait call
          toClient := s.toClient.drop (min call.arrived serialBufSz) } := by
  simp only [SerialLine.step, SerialEnd.establishClient, h, SerialPort.read]
  split_ifs with hread
  · simp only [hread, SerialPort.write, if_true]
  · simp only [hread, if_false]

theorem step_listening (h : s.server.serconState = .init3) (call : SerialCall) :
    s.step (.server call) =
      if EndsWithChar (s.toServer.take (min call.arrived serialBufSz)) iocSerialConnect then
        { s with
          server := s.server.goTo .init4
          toServer := s.toServer.drop (min call.arrived serialBufSz)
          toClient := s.toClient ++ [iocSerialConnectReply] }
      else { s with toServer := s.toServer.drop (min call.arrived serialBufSz) } := by
  simp only [SerialLine.step, SerialEnd.establishServer, h, SerialPort.read]
  split_ifs with hread
  · simp only [hread, SerialPort.write, if_true]
  · simp only [hread, if_false]

theorem step_replied (h : s.server.serconState = .init4) (call : SerialCall) :
    s.step (.server call) =
      if s.toServer.take (min call.arrived serialBufSz) = [iocSerialConfirm] then
        { s with
          server := s.server.connect
          toServer := s.toServer.drop (min call.arrived serialBufSz)
          toClient := s.toClient ++ [iocSerialConfirmReply] }
      else
        { s with
          server :=
            if s.toServer.take (min call.arrived serialBufSz) = [] then s.server
            else s.server.goTo .init3
          toServer := s.toServer.drop (min call.arrived serialBufSz) } := by
  simp only [SerialLine.step, SerialEnd.establishServer, h, SerialPort.read]
  split_ifs with hconfirm
  · simp only [hconfirm, SerialPort.write, if_true]
  · by_cases hnothing : s.toServer.take (min call.arrived serialBufSz) = []
    · simp [hnothing]
    · simp only [hconfirm, hnothing, if_false]

/-- Waiting goes on, or starts over when no confirmation is on the line. -/
theorem Opening.wait (h : s.Opening) {call : SerialCall} (n : ℕ)
    (hpatient : call.elapsed = true → iocSerialConfirm ∉ s.toServer) :
    ({ s with client := s.client.wait call, toClient := s.toClient.drop n } :
      SerialLine).Opening where
  client := by
    unfold SerialEnd.wait
    split_ifs
    · simp [SerialEnd.goTo]
    · exact h.client
  server := h.server
  toClient := fun hmem => h.toClient (List.mem_of_mem_drop hmem)
  last := h.last
  confirms := fun hmem => by
    unfold SerialEnd.wait
    split_ifs with helapsed
    · exact absurd hmem (hpatient helapsed)
    · exact h.confirms hmem

theorem Opening.startOver (h : s.Opening) (hclient : s.client.serconState ≠ .init3)
    (call : SerialCall) :
    ({ s with
      client := s.client.goTo .init2
      toServer := s.toServer.take call.kept ++ [iocSerialConnect]
      toClient := s.toClient.drop call.cleared } : SerialLine).Opening := by
  have hnone : iocSerialConfirm ∉ s.toServer.take call.kept := fun hmem =>
    hclient (h.confirms (List.mem_of_mem_take hmem))
  exact
    { client := by simp [SerialEnd.goTo]
      server := h.server
      toClient := fun hmem => h.toClient (List.mem_of_mem_drop hmem)
      last := by rwa [List.dropLast_concat]
      confirms := fun hmem => by
        rcases List.mem_append.mp hmem with hmem | hmem
        · exact absurd hmem hnone
        · exact absurd (List.mem_singleton.mp hmem) (by decide) }

theorem Opening.clientCall (h : s.Opening) {call : SerialCall}
    (hpatient : s.Patient (.client call)) : (s.step (.client call)).Opening := by
  have hnone : s.client.serconState ≠ .init3 → iocSerialConfirm ∉ s.toServer :=
    fun hclient hmem => hclient (h.confirms hmem)
  cases hstate : s.client.serconState with
  | connected5 => exact absurd hstate h.client
  | init3 =>
      rw [step_waiting hstate, if_neg fun hread => ?_]
      · exact h.wait _ fun helapsed => (hpatient hstate helapsed).2
      · refine h.toClient (List.mem_of_mem_take (i := min call.arrived 1) ?_)
        rw [hread]
        exact List.mem_singleton_self _
  | init2 =>
      have hconfirm := hnone (by simp [hstate])
      rw [step_asking hstate]
      split_ifs
      · exact
          { client := by simp [SerialEnd.goTo]
            server := h.server
            toClient := fun hmem => h.toClient (List.mem_of_mem_drop hmem)
            last := by rwa [List.dropLast_concat]
            confirms := fun _ => rfl }
      · exact h.wait _ fun _ => hconfirm
  | init1 =>
      simp only [SerialLine.step, SerialEnd.establishClient, hstate]
      exact h.startOver (by simp [hstate]) call
  | init4 =>
      simp only [SerialLine.step, SerialEnd.establishClient, hstate]
      exact h.startOver (by simp [hstate]) call

/-- The server reads or clears a part of the line, and writes something else than a
reply to a confirmation. -/
theorem Opening.serverReads (h : s.Opening) (n : ℕ) {state : SerialConnectionState}
    (hstate : state ≠ .connected5) {toClient : List UInt8}
    (hreply : iocSerialConfirmReply ∉ toClient) :
    ({ s with
      server := s.server.goTo state
      toServer := s.toServer.drop n
      toClient := toClient } : SerialLine).Opening where
  client := h.client
  server := hstate
  toClient := hreply
  last := fun hmem => h.last (dropLast_drop_subset s.toServer n hmem)
  confirms := fun hmem => h.confirms (List.mem_of_mem_drop hmem)

theorem Opening.serverCall (h : s.Opening) (call : SerialCall) :
    (s.step (.server call)).Opening ∨ (s.step (.server call)).Confirmed := by
  have hwrite : ∀ {c : UInt8}, c ≠ iocSerialConfirmReply →
      iocSerialConfirmReply ∉ s.toClient ++ [c] := by
    intro c hc hmem
    rcases List.mem_append.mp hmem with hmem | hmem
    · exact h.toClient hmem
    · exact hc (List.mem_singleton.mp hmem).symm
  cases hstate : s.server.serconState with
  | connected5 => exact absurd hstate h.server
  | init1 =>
      simp only [SerialLine.step, SerialEnd.establishServer, hstate]
      exact .inl (h.serverReads 0 (by decide) (hwrite (by decide)))
  | init2 =>
      simp only [SerialLine.step, SerialEnd.establishServer, hstate]
      exact .inl (h.serverReads call.cleared (by decide)
        fun hmem => h.toClient (List.mem_of_mem_take hmem))
  | init3 =>
      rw [step_listening hstate]
      left
      split_ifs
      · exact h.serverReads _ (by decide) (hwrite (by decide))
      · exact h.serverReads (min call.arrived serialBufSz) h.server h.toClient
  | init4 =>
      rw [step_replied hstate]
      split_ifs with hconfirm hnothing
      · right
        have hmem : iocSerialConfirm ∈ s.toServer := by
          refine List.mem_of_mem_take (i := min call.arrived serialBufSz) ?_
          rw [hconfirm]
          exact List.mem_singleton_self _
        exact
          { client := h.confirms hmem
            server := rfl
            toServer := eq_of_take_confirm h.last hconfirm
            taken := rfl
            toClient := ⟨s.toClient, h.toClient, rfl⟩ }
      · exact .inl (h.serverReads (min call.arrived serialBufSz) h.server h.toClient)
      · exact .inl (h.serverReads _ (by decide) h.toClient)

theorem Opening.step (h : s.Opening) {action : SerialAction} (hpatient : s.Patient action) :
    (s.step action).Opening ∨ (s.step action).Confirmed := by
  cases action with
  | client call => exact .inl (h.clientCall hpatient)
  | server call => exact h.serverCall call
  | clientSend data | clientTake n =>
      rw [SerialLine.step, if_neg h.client]
      exact .inl h
  | serverSend data | serverTake n =>
      rw [SerialLine.step, if_neg h.server]
      exact .inl h

/-! ## Runs -/

theorem Invariant.step (h : s.Invariant) {action : SerialAction} (hpatient : s.Patient action) :
    (s.step action).Invariant := by
  rcases h with hopening | hconfirmed | hjoined
  · exact (hopening.step hpatient).imp_right .inl
  · exact .inr (hconfirmed.step hpatient)
  · exact .inr (.inr (hjoined.step action))

/-- Where the data of the other end begins.  When the client is connected, the server is;
what an end has taken are the first bytes which the other end has sent, and the rest is on
the line.  Until the client is connected, all which the server has sent is on the line. -/
structure BeginsTogether (s : SerialLine) : Prop where
  serverFirst : s.client.serconState = .connected5 → s.server.serconState = .connected5
  fromServer : s.client.serconState = .connected5 →
    s.client.taken ++ s.toClient = s.server.sent
  fromClient : s.client.serconState = .connected5 →
    s.server.taken ++ s.toServer = s.client.sent
  waiting : s.server.serconState = .connected5 → s.client.serconState ≠ .connected5 →
    s.server.taken = [] ∧ s.toServer = [] ∧ s.server.sent <:+ s.toClient

theorem Invariant.beginsTogether (h : s.Invariant) : s.BeginsTogether := by
  rcases h with hopening | hconfirmed | hjoined
  · exact
      { serverFirst := fun hclient => absurd hclient hopening.client
        fromServer := fun hclient => absurd hclient hopening.client
        fromClient := fun hclient => absurd hclient hopening.client
        waiting := fun hserver => absurd hserver hopening.server }
  · have hclient : s.client.serconState ≠ .connected5 := by simp [hconfirmed.client]
    obtain ⟨before, -, hline⟩ := hconfirmed.toClient
    exact
      { serverFirst := fun hconnected => absurd hconnected hclient
        fromServer := fun hconnected => absurd hconnected hclient
        fromClient := fun hconnected => absurd hconnected hclient
        waiting := fun _ _ =>
          ⟨hconfirmed.taken, hconfirmed.toServer, before ++ [iocSerialConfirmReply],
            by simp [hline]⟩ }
  · exact
      { serverFirst := fun _ => hjoined.server
        fromServer := fun _ => hjoined.fromServer
        fromClient := fun _ => hjoined.fromClient
        waiting := fun _ hnot => absurd hjoined.client hnot }

end SerialLine

theorem SerialStart.opening {s : SerialLine} (h : SerialStart s) : s.Opening where
  client := by simp [h.client]
  server := by simp [h.server]
  toClient := h.toClient
  last := fun hmem => h.toServer (List.dropLast_subset _ hmem)
  confirms := fun hmem => absurd hmem h.toServer

theorem serial_invariant {s : SerialLine}
    (hreachable : TransitionSystem.Reachable SerialStart SerialStep s) : s.Invariant :=
  TransitionSystem.Reachable.invariant SerialLine.Invariant (fun _ hstart => .inl hstart.opening)
    (fun _ _ h hstep => by
      obtain ⟨action, hpatient⟩ := hstep
      exact h.step hpatient) hreachable

/-- However the calls of both
ends and the bytes on the line follow each other, and whatever times out, flushes clear
and reads give, with a patient client the data of each end comes to the other one from
its first byte on. -/
theorem serial_ends_begin_together (s : SerialLine)
    (hreachable : TransitionSystem.Reachable SerialStart SerialStep s) : s.BeginsTogether :=
  (serial_invariant hreachable).beginsTogether

theorem SerialLine.play_step {s t : SerialLine} {action : SerialAction}
    (h : s.play action = some t) : SerialStep s t := by
  unfold SerialLine.play at h
  split_ifs at h with hpatient
  exact Option.some.inj h ▸ .step action hpatient

/-- A line which has just been opened, with a character which is left from before. -/
def openedLine : SerialLine := ⟨⟨.init1, [], []⟩, ⟨.init1, [], []⟩, [7], []⟩

theorem openedLine_start : SerialStart openedLine := ⟨rfl, rfl, by decide, by decide⟩

/-- The server sends data before the client has read the reply. -/
def serialExchange : List SerialAction :=
  [.server ⟨false, 0, 0, 0⟩, .server ⟨false, 0, 9, 0⟩, .client ⟨false, 0, 0, 9⟩,
    .server ⟨false, 1, 0, 0⟩, .client ⟨false, 1, 0, 0⟩, .server ⟨false, 1, 0, 0⟩,
    .serverSend [1, 250, 2], .client ⟨false, 9, 0, 0⟩, .clientSend [251], .clientTake 2]

theorem serial_ends_begin_together_exchange :
    ∃ s : SerialLine, s.BeginsTogether ∧ s.client.serconState = .connected5 ∧
      s.server.sent = [1, 250, 2] ∧ s.client.taken = [1, 250] := by
  obtain ⟨s, hs, hfacts⟩ : ∃ s, serialExchange.foldlM SerialLine.play openedLine = some s ∧
      s.client.serconState = .connected5 ∧ s.server.sent = [1, 250, 2] ∧
        s.client.taken = [1, 250] := ⟨_, rfl, rfl, rfl, rfl⟩
  exact ⟨s, serial_ends_begin_together s
    (.play (fun _ _ _ => SerialLine.play_step) (.start openedLine_start) hs), hfacts⟩

/-- A client which starts over although its confirmation is under way can get connected
with characters of the exchange in front of its data: the server has replied to two of
its questions. -/
theorem serial_impatient_client :
    ∃ actions : List SerialAction, ∃ s, s = actions.foldl SerialLine.step openedLine ∧
      s.client.serconState = .connected5 ∧ s.server.serconState = .connected5 ∧
      s.server.taken ++ s.toServer = [253, 251, 9] ∧ s.client.sent = [9] :=
  ⟨[.server ⟨false, 0, 0, 0⟩, .server ⟨false, 0, 9, 0⟩, .client ⟨false, 0, 0, 9⟩,
      .server ⟨false, 1, 0, 0⟩, .client ⟨true, 0, 0, 0⟩, .client ⟨false, 0, 0, 9⟩,
      .server ⟨false, 1, 0, 0⟩, .client ⟨true, 0, 0, 0⟩, .client ⟨false, 0, 0, 9⟩,
      .server ⟨false, 1, 0, 0⟩, .client ⟨false, 1, 0, 0⟩, .client ⟨true, 0, 0, 0⟩,
      .server ⟨false, 1, 0, 0⟩, .client ⟨false, 0, 0, 9⟩, .client ⟨false, 1, 0, 0⟩,
      .client ⟨false, 1, 0, 0⟩, .clientSend [9]], _, rfl, rfl, rfl, rfl, rfl⟩

/-! ## Getting connected -/

namespace SerialLine

/-- A patient client can go on so that both ends get connected. -/
def CanJoin (s : SerialLine) : Prop := ∃ t, Relation.ReflTransGen SerialStep s t ∧ t.Joined

variable {s : SerialLine}

theorem CanJoin.of_step (action : SerialAction) (hpatient : s.Patient action)
    (h : (s.step action).CanJoin) : s.CanJoin := by
  obtain ⟨t, hrun, hjoined⟩ := h
  exact ⟨t, .head (.step action hpatient) hrun, hjoined⟩

def oneChar : SerialCall := ⟨false, 1, 0, 0⟩

theorem patient_oneChar : s.Patient (.client oneChar) := fun _ helapsed => by cases helapsed

theorem Confirmed.canJoin (h : s.Confirmed) : s.CanJoin := by
  induction hlength : s.toClient.length generalizing s with
  | zero =>
      obtain ⟨before, -, hline⟩ := h.toClient
      simp [hline] at hlength
  | succ n ih =>
      refine .of_step (.client oneChar) patient_oneChar ?_
      rcases h.clientCall patient_oneChar with hconfirmed | hjoined
      · refine ih hconfirmed ?_
        rw [step_waiting h.client]
        simp [oneChar, hlength]
      · exact ⟨_, .refl, hjoined⟩

theorem Opening.canJoin_of_drained (h : s.Opening)
    (hserver : s.server.serconState = .init3 ∨ s.server.serconState = .init4)
    (hdrained : ∀ t : SerialLine, t.Opening → t.toServer = [] →
      t.server.serconState = .init3 ∨ t.server.serconState = .init4 → t.CanJoin) :
    s.CanJoin := by
  induction hlength : s.toServer.length generalizing s with
  | zero => exact hdrained s h (List.length_eq_zero_iff.mp hlength) hserver
  | succ n ih =>
      refine .of_step (.server oneChar) trivial ?_
      rcases h.serverCall oneChar with hopening | hconfirmed
      · have hnext : ((s.step (.server oneChar)).server.serconState = .init3 ∨
            (s.step (.server oneChar)).server.serconState = .init4) ∧
            (s.step (.server oneChar)).toServer.length = n := by
          have hnot := hopening.server
          rcases hserver with hstate | hstate
          · rw [step_listening hstate]
            split_ifs <;> simp [SerialEnd.goTo, oneChar, serialBufSz, hstate, hlength]
          · rw [step_replied hstate] at hnot ⊢
            split_ifs at hnot ⊢
            · exact absurd rfl hnot
            · simp [oneChar, serialBufSz, hstate, hlength]
            · simp [SerialEnd.goTo, oneChar, serialBufSz, hlength]
        exact ih hopening hnext.1 hnext.2
      · exact hconfirmed.canJoin

theorem canJoin_of_asks (hclient : s.client.serconState ≠ .connected5)
    (hserver : s.server.serconState ≠ .connected5) (hempty : s.toServer = [])
    (hasks : ({ client := s.client.goTo .init2, server := s.server
                toServer := [iocSerialConnect], toClient := [] } : SerialLine).CanJoin) :
    s.CanJoin := by
  -- The client asks when it starts over.
  have hover : ∀ client : SerialEnd, client = s.client.goTo .init1 ∨ client = s.client →
      client.serconState = .init1 ∨ client.serconState = .init4 →
        ({ s with client := client } : SerialLine).CanJoin := by
    intro client hsame hclient
    refine .of_step (.client ⟨false, 0, s.toClient.length, 0⟩) (fun _ helapsed => by cases helapsed)
      ?_
    have hstep : ({ s with client := client } : SerialLine).step
        (.client ⟨false, 0, s.toClient.length, 0⟩) =
        { client := s.client.goTo .init2, server := s.server
          toServer := [iocSerialConnect], toClient := [] } := by
      have hgoTo : client.goTo .init2 = s.client.goTo .init2 := by
        rcases hsame with rfl | rfl <;> rfl
      rcases hclient with hclient | hclient <;>
        simp [SerialLine.step, SerialEnd.establishClient, hclient, SerialPort.flush,
          SerialPort.write, hgoTo]
    rw [hstep]
    exact hasks
  have htimeout : s.Patient (.client ⟨true, 0, 0, 0⟩) := fun _ _ => ⟨hserver, by simp [hempty]⟩
  cases hstate : s.client.serconState with
  | connected5 => exact absurd hstate hclient
  | init1 => exact hover s.client (.inr rfl) (.inl hstate)
  | init4 => exact hover s.client (.inr rfl) (.inr hstate)
  | init2 =>
      refine .of_step _ htimeout ?_
      rw [step_asking hstate]
      simpa [EndsWithChar, SerialEnd.wait] using hover (s.client.goTo .init1) (.inl rfl) (.inl rfl)
  | init3 =>
      refine .of_step _ htimeout ?_
      rw [step_waiting hstate]
      simpa [SerialEnd.wait] using hover (s.client.goTo .init1) (.inl rfl) (.inl rfl)

theorem canJoin_of_asked {client server : SerialEnd} (hclient : client.serconState = .init2)
    (hserver : server.serconState = .init3) :
    ({ client := client, server := server
       toServer := [iocSerialConnect], toClient := [] } : SerialLine).CanJoin := by
  have hasked : EndsWithChar [iocSerialConnect] iocSerialConnect := by decide
  have hreplied : EndsWithChar [iocSerialConnectReply] iocSerialConnectReply := by decide
  refine .of_step (.server oneChar) trivial ?_
  rw [step_listening hserver, if_pos (by exact hasked)]
  refine .of_step (.client oneChar) patient_oneChar ?_
  rw [step_asking hclient, if_pos (by exact hreplied)]
  refine .of_step (.server oneChar) trivial ?_
  rw [step_replied rfl, if_pos (by rfl)]
  exact Confirmed.canJoin ⟨rfl, rfl, rfl, rfl, [], by simp, rfl⟩

theorem canJoin_of_empty (hclient : s.client.serconState ≠ .connected5)
    (hserver : s.server.serconState = .init3 ∨ s.server.serconState = .init4)
    (hempty : s.toServer = []) : s.CanJoin := by
  refine canJoin_of_asks hclient (by rcases hserver with h | h <;> simp [h]) hempty ?_
  rcases hserver with hlistens | hreplied
  · exact canJoin_of_asked rfl hlistens
  · -- The server takes the question for a wrong confirmation, and listens to the next one.
    have hwrong : ¬[iocSerialConnect] = [iocSerialConfirm] := by decide
    refine .of_step (.server oneChar) trivial ?_
    rw [step_replied (by exact hreplied), if_neg (by exact hwrong),
      if_neg (by simp [oneChar, serialBufSz])]
    exact canJoin_of_asks (by simp [SerialEnd.goTo]) (by simp [SerialEnd.goTo]) rfl
      (canJoin_of_asked rfl rfl)

theorem Opening.canJoin (h : s.Opening) : s.CanJoin := by
  have hready : ∀ t : SerialLine, t.Opening →
      t.server.serconState = .init3 ∨ t.server.serconState = .init4 → t.CanJoin :=
    fun t ht hserver => ht.canJoin_of_drained hserver fun u hu hempty huserver =>
      canJoin_of_empty hu.client huserver hempty
  have hcleared : ∀ t : SerialLine, t.Opening → t.server.serconState = .init2 → t.CanJoin := by
    intro t ht hstate
    refine .of_step (.server oneChar) trivial ?_
    rcases ht.serverCall oneChar with hopening | hconfirmed
    · refine hready _ hopening (.inl ?_)
      simp [SerialLine.step, SerialEnd.establishServer, hstate, SerialEnd.goTo]
    · exact hconfirmed.canJoin
  cases hstate : s.server.serconState with
  | connected5 => exact absurd hstate h.server
  | init1 =>
      refine .of_step (.server oneChar) trivial ?_
      rcases h.serverCall oneChar with hopening | hconfirmed
      · refine hcleared _ hopening ?_
        simp [SerialLine.step, SerialEnd.establishServer, hstate, SerialEnd.goTo]
      · exact hconfirmed.canJoin
  | init2 => exact hcleared s h hstate
  | init3 => exact hready s h (.inl hstate)
  | init4 => exact hready s h (.inr hstate)

end SerialLine

/-- Whatever is on the line and whatever has timed
out, both ends can go on, with a patient client, so that both get connected. -/
theorem serial_can_connect (s : SerialLine)
    (hreachable : TransitionSystem.Reachable SerialStart SerialStep s) :
    ∃ t, Relation.ReflTransGen SerialStep s t ∧ t.client.serconState = .connected5 ∧
      t.server.serconState = .connected5 := by
  have hjoin : s.CanJoin := by
    rcases serial_invariant hreachable with hopening | hconfirmed | hjoined
    · exact hopening.canJoin
    · exact hconfirmed.canJoin
    · exact ⟨s, .refl, hjoined⟩
  obtain ⟨t, hrun, hjoined⟩ := hjoin
  exact ⟨t, hrun, hjoined.client, hjoined.server⟩

/-- The client starts over when the server has replied to it, while the server waits for a
confirmation. -/
def serialFallBack : List SerialAction :=
  [.server ⟨false, 0, 0, 0⟩, .server ⟨false, 0, 9, 0⟩, .client ⟨false, 0, 0, 9⟩,
    .server ⟨false, 1, 0, 0⟩, .client ⟨true, 0, 0, 0⟩, .client ⟨false, 0, 0, 0⟩]

theorem serial_can_connect_fallenBack :
    ∃ s : SerialLine, s.server.serconState = .init4 ∧ s.toClient = [iocSerialConnectReply] ∧
      s.toServer = [iocSerialConnect] ∧
      ∃ t, Relation.ReflTransGen SerialStep s t ∧ t.client.serconState = .connected5 ∧
        t.server.serconState = .connected5 := by
  obtain ⟨s, hs, hfacts⟩ : ∃ s, serialFallBack.foldlM SerialLine.play openedLine = some s ∧
      s.server.serconState = .init4 ∧ s.toClient = [iocSerialConnectReply] ∧
        s.toServer = [iocSerialConnect] := ⟨_, rfl, rfl, rfl, rfl⟩
  have hjoins := serial_can_connect s
    (.play (fun _ _ _ => SerialLine.play_step) (.start openedLine_start) hs)
  exact ⟨s, hfacts.1, hfacts.2.1, hfacts.2.2, hjoins⟩

end Iocom
