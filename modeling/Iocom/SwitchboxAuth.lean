import Iocom.FrameHeader
import Iocom.SystemFrameBounds

/-!
# Switchbox authentication messages

The frame with the names of the user and the network is made in a buffer, and written
piece by piece to a stream.  The other end collects a frame from its stream and takes the
names out of it.
-/

namespace Iocom

open MemoryReader

/-- `IOC_MAX_AUTHENTICATION_FRAME_SZ`. -/
def maxAuthenticationFrameSz : ℕ := 128

inductive AuthenticationStatus where
  | completed
  | pending
  | failed
  deriving DecidableEq

namespace SwitchboxAuth

/-! ## The sending end -/

/-- `iocSwitchboxAuthenticationParameters`; the password is not used. -/
structure AuthenticationParameters where
  userName : List UInt8
  networkName : List UInt8

/-- `iocSwitchboxAuthenticationFrameBuffer`. -/
structure AuthenticationBuffer where
  buf : List UInt8
  bufUsed : ℕ
  bufPos : ℕ
  deriving DecidableEq

/-- `ioc_msg_setstr`. -/
def msgSetstr (str : List UInt8) : List UInt8 := UInt8.ofNat str.length :: str

/-- The content of the frame; `uniqueId` is `unique_id_bin` where secrets are supported. -/
def authenticationContent (prm : AuthenticationParameters) (uniqueId : Option (List UInt8)) :
    List UInt8 :=
  let deviceNr := msgSetUint 0 0 32 0 64
  let flags := if uniqueId.isSome then deviceNr.2.1 ||| 2 else deviceNr.2.1
  [2, flags] ++ msgSetstr prm.userName ++ deviceNr.1 ++ uniqueId.getD [] ++
    msgSetstr prm.networkName ++ msgSetstr []

/-- The bytes which `ioc_make_switchbox_authentication_message` stores; the header of a
socket frame has no checksum. -/
def authenticationFrame (prm : AuthenticationParameters) (uniqueId : Option (List UInt8)) :
    List UInt8 :=
  completeFrame (fun _ => 0) (generateHeader true 0 0 0) (contentFlags ⟨false, false, false⟩ true)
    (authenticationContent prm uniqueId)

def authenticationMessage (prm : AuthenticationParameters) (uniqueId : Option (List UInt8)) :
    Frame :=
  ⟨0, true, ⟨false, false, false⟩, 0, 0, authenticationContent prm uniqueId⟩

theorem authenticationFrame_eq_encode (prm : AuthenticationParameters)
    (uniqueId : Option (List UInt8)) :
    authenticationFrame prm uniqueId =
      (authenticationMessage prm uniqueId).encode (fun _ => 0) true :=
  completeFrame_eq_encode true (authenticationMessage prm uniqueId)

theorem authenticationFrame_length (prm : AuthenticationParameters)
    (uniqueId : Option (List UInt8)) :
    (authenticationFrame prm uniqueId).length =
      12 + prm.userName.length + (uniqueId.getD []).length + prm.networkName.length := by
  rw [authenticationFrame_eq_encode, Frame.encode_length]
  simp [authenticationMessage, authenticationContent, msgSetstr, msgSetUint, headerSize,
    needsExtraFlags, uintSize]
  omega

/-- `ioc_make_switchbox_authentication_message`; there is no buffer where the frame is
longer than it. -/
def makeAuthenticationMessage (prm : AuthenticationParameters) (uniqueId : Option (List UInt8)) :
    Option AuthenticationBuffer :=
  let frame := authenticationFrame prm uniqueId
  if frame.length ≤ maxAuthenticationFrameSz then some ⟨frame, frame.length, 0⟩ else none

/-- What a call gets from outside: how many bytes the stream accepts, unless it is broken,
and whether the time is over. -/
structure SendCall where
  accepts : Option ℕ
  elapsed : Bool

/-- The rest of `ioc_send_switchbox_authentication_message`, with the frame in the buffer:
the status, the buffer and the bytes which are put on the stream. -/
def writeFrame (abuf : AuthenticationBuffer) (call : SendCall) :
    AuthenticationStatus × AuthenticationBuffer × List UInt8 :=
  let n := abuf.bufUsed - abuf.bufPos
  match if 0 < n then call.accepts else some 0 with
  | none => (.failed, abuf, [])
  | some accepted =>
      let written := (abuf.buf.take n).take accepted
      let abuf := { abuf with bufPos := abuf.bufPos + written.length }
      (if abuf.bufUsed ≤ abuf.bufPos then .completed else if call.elapsed then .failed
        else .pending, abuf, written)

/-- `ioc_send_switchbox_authentication_message`. -/
def sendAuthenticationMessage (prm : AuthenticationParameters) (uniqueId : Option (List UInt8))
    (abuf : AuthenticationBuffer) (call : SendCall) :
    Option (AuthenticationStatus × AuthenticationBuffer × List UInt8) :=
  if abuf.bufUsed = 0 then
    (makeAuthenticationMessage prm uniqueId).map fun abuf => writeFrame abuf call
  else some (writeFrame abuf call)

/-- Repeated calls, until one does not return `OSAL_PENDING`: its status, and all which has
been put on the stream. -/
def sendCalls (prm : AuthenticationParameters) (uniqueId : Option (List UInt8)) :
    AuthenticationBuffer → List SendCall → Option (AuthenticationStatus × List UInt8)
  | _, [] => some (.pending, [])
  | abuf, call :: calls =>
      match sendAuthenticationMessage prm uniqueId abuf call with
      | none => none
      | some (.pending, abuf, written) =>
          (sendCalls prm uniqueId abuf calls).map fun sent => (sent.1, written ++ sent.2)
      | some (status, _, written) => some (status, written)

/-! ## The receiving end -/

/-- `ioc_switchbox_parse_authentication_message`: what it reads of the user.  The type of
the message is skipped. -/
def parseAuthenticationMessage (sizes : MessageSizes) :
    MemoryReader Unit (List UInt8 × ℕ × List UInt8) := do
  let _ ← .byte
  let authFlags ← .byte
  let userName ← msgGetstr sizes.deviceId
  let deviceNr ← msgGetUint (authFlags.toNat.testBit 5) (authFlags.toNat.testBit 6)
  let _ ← .optional (authFlags.toNat.testBit 1) (.bytes sizes.uniqueIdBin) []
  let networkName ← msgGetstr sizes.networkName
  pure (userName, deviceNr, networkName)

def readFrameContent (sizes : MessageSizes) (flags extraFlags : ℕ) :
    MemoryReader Unit (List UInt8 × ℕ × List UInt8) := do
  let _ ← msgGetUint (flags.testBit 3) (extraFlags.testBit 1)
  let _ ← msgGetUint (flags.testBit 2) (extraFlags.testBit 0)
  parseAuthenticationMessage sizes

def frameNumbersAt (extraFlags : ℕ) : ℕ := if extraFlags ≠ 0 then 5 else 4

/-- What a call gets from outside: the numbers of bytes which the stream gives, and whether
the time is over. -/
structure ReceiveCall where
  reads : List ℕ
  elapsed : Bool

/-- `icom_switchbox_process_authentication_message`: the status, the received bytes and the
rest of the stream.  Behind the received bytes of the buffer is what has been there. -/
def processAuthenticationMessage (sizes : MessageSizes) (behind : ℕ → UInt8)
    (received stream : List UInt8) (call : ReceiveCall) :
    AuthenticationStatus × List UInt8 × List UInt8 :=
  match readFrameLoop ⟨true, maxAuthenticationFrameSz, 0, received, 0, 0, 0, 0, 0⟩ stream
      call.reads with
  | none => (.failed, received, stream)
  | some (rfs, stream) =>
      if rfs.buf.length < rfs.needed then
        (if call.elapsed then .failed else .pending, rfs.buf, stream)
      else
        let reading := (readFrameContent sizes rfs.flags rfs.extraFlags).read
          (payloadMemory rfs.buf behind) (frameNumbersAt rfs.extraFlags) ()
        (if reading.value.isSome then .completed else .failed, rfs.buf, stream)

/-- Repeated calls, until one does not return `OSAL_PENDING`. -/
def processCalls (sizes : MessageSizes) (behind : ℕ → UInt8) :
    List UInt8 → List UInt8 → List ReceiveCall → AuthenticationStatus × List UInt8 × List UInt8
  | received, stream, [] => (.pending, received, stream)
  | received, stream, call :: calls =>
      match processAuthenticationMessage sizes behind received stream call with
      | (.pending, received, stream) => processCalls sizes behind received stream calls
      | outcome => outcome

/-! ## What is put on the stream -/

section Sending

variable {prm : AuthenticationParameters} {uniqueId : Option (List UInt8)} {frame : List UInt8}

/-- The bytes which the stream accepts at each call are the first ones of the frame; they
are those which are due at the position. -/
def SendsDue (frame : List UInt8) : ℕ → List SendCall → Prop
  | _, [] => True
  | pos, call :: calls =>
      match call.accepts with
      | none => True
      | some accepted =>
          let k := min accepted (frame.length - pos)
          frame.take k = (frame.drop pos).take k ∧
            (call.elapsed = false → pos + k < frame.length → SendsDue frame (pos + k) calls)

theorem send_broken (prm : AuthenticationParameters) (uniqueId : Option (List UInt8)) {pos : ℕ}
    (hpos : pos < frame.length) {call : SendCall} (haccepts : call.accepts = none) :
    sendAuthenticationMessage prm uniqueId ⟨frame, frame.length, pos⟩ call =
      some (.failed, ⟨frame, frame.length, pos⟩, []) := by
  have hn : 0 < frame.length - pos := by omega
  have hused : frame.length ≠ 0 := by omega
  simp [sendAuthenticationMessage, hused, writeFrame, hn, haccepts]

theorem send_accepts (prm : AuthenticationParameters) (uniqueId : Option (List UInt8)) {pos : ℕ}
    (hpos : pos < frame.length) {call : SendCall} {accepted k : ℕ}
    (haccepts : call.accepts = some accepted) (hk : min accepted (frame.length - pos) = k) :
    sendAuthenticationMessage prm uniqueId ⟨frame, frame.length, pos⟩ call =
      some (if frame.length ≤ pos + k then .completed else if call.elapsed then .failed
        else .pending, ⟨frame, frame.length, pos + k⟩, frame.take k) := by
  have hn : 0 < frame.length - pos := by omega
  have hused : frame.length ≠ 0 := by omega
  have hlength : (frame.take k).length = k := by
    rw [List.length_take]
    omega
  simp only [sendAuthenticationMessage, hused, if_false, writeFrame, if_pos hn, haccepts,
    List.take_take, hk, hlength]

/-- The bytes of a run are the ones from the position on exactly if every call sends what
is due. -/
theorem sendCalls_in_order (prm : AuthenticationParameters) (uniqueId : Option (List UInt8))
    {pos : ℕ} (hpos : pos < frame.length) (calls : List SendCall) :
    ∃ status sent, sendCalls prm uniqueId ⟨frame, frame.length, pos⟩ calls =
        some (status, sent) ∧
      (status = .completed → pos + sent.length = frame.length) ∧
      (sent = (frame.drop pos).take sent.length ↔ SendsDue frame pos calls) := by
  induction calls generalizing pos with
  | nil => exact ⟨.pending, [], rfl, by simp, by simp [SendsDue]⟩
  | cons call calls ih =>
      cases haccepts : call.accepts with
      | none =>
          have hsend := send_broken prm uniqueId hpos haccepts
          refine ⟨.failed, [], ?_, by simp, by simp [SendsDue, haccepts]⟩
          simp only [sendCalls, hsend]
      | some accepted =>
          simp only [SendsDue, haccepts]
          generalize hk : min accepted (frame.length - pos) = k
          have hsend := send_accepts prm uniqueId hpos haccepts hk
          have hlength : (frame.take k).length = k := by
            rw [List.length_take]
            omega
          by_cases hdone : frame.length ≤ pos + k
          · have hrest : ¬ pos + k < frame.length := by omega
            rw [if_pos hdone] at hsend
            refine ⟨.completed, frame.take k, ?_, fun _ => by omega, ?_⟩
            · simp only [sendCalls, hsend]
            · rw [hlength]
              simp [hrest]
          · have hrest : pos + k < frame.length := by omega
            rw [if_neg hdone] at hsend
            cases helapsed : call.elapsed with
            | true =>
                rw [helapsed, if_pos rfl] at hsend
                refine ⟨.failed, frame.take k, ?_, fun h => by simp at h, ?_⟩
                · simp only [sendCalls, hsend]
                · rw [hlength]
                  simp
            | false =>
                rw [helapsed] at hsend
                obtain ⟨status, sent, hsent, hcompleted, hdue⟩ := ih hrest
                refine ⟨status, frame.take k ++ sent, ?_, ?_, ?_⟩
                · simp only [sendCalls, hsend, hsent, Option.map_some, Bool.false_eq_true,
                    if_false]
                · intro h
                  rw [List.length_append, hlength, ← hcompleted h]
                  omega
                · have hpiece : (frame.take k).length = ((frame.drop pos).take k).length := by
                    rw [hlength, List.length_take, List.length_drop]
                    omega
                  rw [List.length_append, hlength, List.take_add, List.drop_drop]
                  simp only [hrest, true_implies]
                  rw [← hdue]
                  constructor
                  · exact fun h => List.append_inj h hpiece
                  · rintro ⟨hfirst, hlast⟩
                    rw [← hfirst, ← hlast]

end Sending

end SwitchboxAuth

end Iocom
