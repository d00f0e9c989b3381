import Iocom.BrickTransfer

/-!
# Runs with one brick and with several

As long as one brick has been stored, the receiving end has either taken nothing, or a
part of the brick, or all of it.  The bytes of every further brick which stand before
`pos` are missing in the stream, so that the bricks cannot all arrive.
-/

namespace Iocom

open BrickParams

namespace BrickTransfer

variable {prm : BrickParams} {t : BrickTransfer}

/-! ## The counts of bytes -/

/-- How many bytes have been stored, sent and received. -/
structure Accounts (prm : BrickParams) (t : BrickTransfer) : Prop where
  delivered_le : t.delivered ≤ t.written.length
  taken_le : t.taken ≤ t.delivered
  buf_length : t.sender.buf.length = prm.bufSz
  nothing : t.stored = [] → t.written = [] ∧ t.sender.pos = 0 ∧ t.sender.bufN = 0
  started : t.stored ≠ [] → t.sender.bufN = 0 → 0 < t.sender.pos
  sent_le : t.stored ≠ [] →
    t.written.length + (t.sender.bufN - t.sender.pos) + (t.stored.length - 1) ≤
      (t.stored.map List.length).sum
  received_le : (t.received.map List.length).sum + t.receiver.pos ≤ t.taken

theorem Accounts.initial : Accounts prm (initialBrickTransfer prm) where
  delivered_le := Nat.le_refl 0
  taken_le := Nat.le_refl 0
  buf_length := List.length_replicate
  nothing _ := ⟨rfl, rfl, rfl⟩
  started h := absurd rfl h
  sent_le h := absurd rfl h
  received_le := Nat.le_refl 0

/-- What `ioc_run_brick_send` leaves. -/
theorem runBrickSend_spec (accepted : ℕ) (b : BrickSender) :
    (runBrickSend accepted b).1.buf = b.buf ∧
      (runBrickSend accepted b).2 =
        ((b.buf.drop b.pos).take (b.bufN - b.pos)).take accepted ∧
      (runBrickSend accepted b).1.pos = b.pos + (runBrickSend accepted b).2.length ∧
      (runBrickSend accepted b).1.bufN =
        if b.pos < b.bufN ∧ b.bufN ≤ b.pos + (runBrickSend accepted b).2.length then 0
        else b.bufN := by
  unfold runBrickSend
  by_cases hmore : b.pos < b.bufN
  · rw [if_pos hmore]
    unfold sendBrickData
    dsimp only
    rw [if_pos hmore]
    refine ⟨rfl, rfl, rfl, ?_⟩
    exact if_congr (by rw [and_iff_right hmore]) rfl rfl
  · rw [if_neg hmore, if_neg fun h => hmore h.1, Nat.sub_eq_zero_of_le (by omega), List.take_zero,
      List.take_nil]
    exact ⟨rfl, rfl, rfl, rfl⟩

theorem Accounts.send (h : Accounts prm t) (accepted : ℕ) :
    Accounts prm (t.transport prm (.send accepted)) := by
  obtain ⟨hbuf, hwritten, hpos, hbufN⟩ := runBrickSend_spec accepted t.sender
  have hlength : (runBrickSend accepted t.sender).2.length ≤ t.sender.bufN - t.sender.pos := by
    rw [hwritten, List.length_take, List.length_take]
    omega
  simp only [BrickTransfer.transport]
  generalize runBrickSend accepted t.sender = sent at hbuf hwritten hpos hbufN hlength ⊢
  exact
    { delivered_le := by
        have hle := h.delivered_le
        dsimp only
        rw [List.length_append]
        omega
      taken_le := h.taken_le
      buf_length := by
        dsimp only
        rw [hbuf]
        exact h.buf_length
      nothing := fun hstored => by
        obtain ⟨hnone, hpos0, hbufN0⟩ := h.nothing hstored
        rw [hpos0, hbufN0] at hlength
        have hempty : sent.2 = [] := List.length_eq_zero_iff.mp (by omega)
        dsimp only
        rw [hpos, hbufN, hnone, hempty, hpos0, hbufN0, ite_self]
        exact ⟨rfl, rfl, rfl⟩
      started := fun hstored hzero => by
        have hbefore := h.started hstored
        dsimp only at hzero ⊢
        rw [hbufN] at hzero
        rw [hpos]
        split_ifs at hzero with hall
        · omega
        · have hpos0 := hbefore hzero
          omega
      sent_le := fun hstored => by
        have hbefore := h.sent_le hstored
        dsimp only
        rw [List.length_append, hpos, hbufN]
        split_ifs <;> omega
      received_le := h.received_le }

theorem Accounts.deliver (h : Accounts prm t) (n : ℕ) :
    Accounts prm (t.transport prm (.deliver n)) where
  delivered_le := Nat.min_le_right _ _
  taken_le := by
    have hle := h.delivered_le
    have htaken := h.taken_le
    simp only [BrickTransfer.transport]
    omega
  buf_length := h.buf_length
  nothing := h.nothing
  started := h.started
  sent_le := h.sent_le
  received_le := h.received_le

/-- A call takes no more than there is, and gives no longer bricks to the callback than
it has taken. -/
theorem readBrick_accounts (b : BrickReceiver) (stream : List UInt8) :
    (prm.readBrick b stream).read ≤ stream.length ∧
      ((prm.readBrick b stream).received.map List.length).sum +
          (prm.readBrick b stream).receiver.pos ≤
        b.pos + (prm.readBrick b stream).read := by
  have hread : (stream.take (b.bufSz - b.pos)).length ≤ stream.length :=
    List.length_take_le' _ _
  unfold readBrick
  dsimp only
  split_ifs with hmore hsum
  · exact ⟨hread, (Nat.zero_add _).le⟩
  · exact ⟨hread, (Nat.zero_add _).le⟩
  · refine ⟨hread, ?_⟩
    simp only [List.map_cons, List.map_nil, List.sum_cons, List.sum_nil, List.length_take] at *
    omega

theorem receiveRingBrickData_accounts (prm : BrickParams) (b : BrickReceiver) (stream : List UInt8) :
    (prm.receiveRingBrickData b stream).read ≤ stream.length ∧
      ((prm.receiveRingBrickData b stream).received.map List.length).sum +
          (prm.receiveRingBrickData b stream).receiver.pos ≤
        b.pos + (prm.receiveRingBrickData b stream).read := by
  unfold receiveRingBrickData
  dsimp only
  split_ifs
  · exact ⟨Nat.zero_le _, (Nat.zero_add _).le⟩
  · exact ⟨Nat.zero_le _, (Nat.zero_add _).le⟩
  · exact readBrick_accounts _ stream
  · exact readBrick_accounts b stream

theorem Accounts.receive (h : Accounts prm t) : Accounts prm (t.transport prm .receive) := by
  simp only [BrickTransfer.transport]
  split_ifs
  · exact h
  · obtain ⟨hread, hreceived⟩ := receiveRingBrickData_accounts prm t.receiver
      ((t.written.take t.delivered).drop t.taken)
    generalize prm.receiveRingBrickData t.receiver ((t.written.take t.delivered).drop t.taken) =
      call at hread hreceived ⊢
    have hle := h.taken_le
    have hbefore := h.received_le
    rw [List.length_drop, List.length_take] at hread
    exact
      { delivered_le := h.delivered_le
        taken_le := by
          dsimp only
          omega
        buf_length := h.buf_length
        nothing := h.nothing
        started := h.started
        sent_le := h.sent_le
        received_le := by
          dsimp only
          rw [List.map_append, List.sum_append]
          omega }

theorem Accounts.transport (h : Accounts prm t) (action : TransportAction) :
    Accounts prm (t.transport prm action) := by
  cases action with
  | send accepted => exact h.send accepted
  | deliver n => exact h.deliver n
  | receive => exact h.receive

theorem Accounts.store (h : Accounts prm t) (brick : prm.Brick) :
    Accounts prm (t.step (.store brick)) := by
  simp only [BrickTransfer.step]
  split_ifs with hready
  · have hempty : t.sender.bufN = 0 := of_decide_eq_true hready
    obtain ⟨hbuf, hbufN, hpos, -, hbrick⟩ := compressBrickRing_spec t.sender h.buf_length brick
    generalize compressBrickRing t.sender brick = sender at hbuf hbufN hpos hbrick ⊢
    have hsent := brick.sent_length
    have hlength : sender.brick.length = brick.sent.length := by
      rw [hbrick, brick.bytes_length, hsent]
    exact
      { delivered_le := h.delivered_le
        taken_le := h.taken_le
        buf_length := hbuf
        nothing := fun hstored => absurd hstored (by simp)
        started := fun _ hzero => by
          dsimp only at hzero
          omega
        sent_le := fun _ => by
          dsimp only
          rw [List.map_append, List.sum_append, List.length_append, hbufN, hpos]
          simp only [List.map_cons, List.map_nil, List.sum_cons, List.sum_nil, hlength,
            List.length_cons, List.length_nil]
          by_cases hstored : t.stored = []
          · obtain ⟨hnone, hpos0, -⟩ := h.nothing hstored
            rw [hnone, hpos0, hstored]
            simp
          · have hbefore := h.sent_le hstored
            have hstarted := h.started hstored hempty
            have hsome := List.length_pos_iff.mpr hstored
            omega
        received_le := h.received_le }
  · exact h

theorem Accounts.run (h : Accounts prm t) (actions : List (BrickAction prm)) :
    Accounts prm (t.run actions) := by
  induction actions generalizing t with
  | nil => exact h
  | cons action actions ih =>
      cases action with
      | store brick => exact ih (h.store brick)
      | transport action => exact ih (h.transport action)

theorem transport_stored (action : TransportAction) :
    (t.transport prm action).stored = t.stored := by
  cases action with
  | send accepted => rfl
  | deliver n => rfl
  | receive =>
      simp only [BrickTransfer.transport]
      split_ifs <;> rfl

theorem Accounts.foldl (h : Accounts prm t) (actions : List TransportAction) :
    Accounts prm (actions.foldl (BrickTransfer.transport prm) t) ∧
      (actions.foldl (BrickTransfer.transport prm) t).stored = t.stored := by
  induction actions generalizing t with
  | nil => exact ⟨h, rfl⟩
  | cons action actions ih =>
      obtain ⟨hend, hstored⟩ := ih (h.transport action)
      exact ⟨hend, hstored.trans (transport_stored action)⟩

theorem Accounts.received_ne (h : Accounts prm t) (hstored : 2 ≤ t.stored.length) :
    t.received ≠ t.stored := by
  intro hall
  have hne : t.stored ≠ [] := List.length_pos_iff.mp (by omega)
  have hsent := h.sent_le hne
  have hreceived := h.received_le
  have hdelivered := h.delivered_le
  have htaken := h.taken_le
  rw [hall] at hreceived
  omega

/-! ## One brick -/

structure NoBrick (t : BrickTransfer) : Prop where
  stored : t.stored = []
  received : t.received = []
  failed : t.failed = false
  pos : t.receiver.pos = 0
  written : t.written = []

inductive Receives (brick : prm.Brick) (t : BrickTransfer) : Prop
  | start (hreceived : t.received = []) (hpos : t.receiver.pos = 0) (htaken : t.taken = 0)
  | collects (hreceived : t.received = []) (hlong : 24 ≤ t.taken)
      (hmore : t.taken < brick.sent.length) (hcollects : brick.Collects t.receiver t.taken)
  | done (hreceived : t.received = [brick.bytes 0]) (hpos : t.receiver.pos = 0)
      (htaken : t.taken = brick.sent.length)

structure OneBrick (brick : prm.Brick) (t : BrickTransfer) : Prop where
  stored : t.stored = [brick.bytes 0]
  buf : t.sender.buf.take brick.sent.length = brick.sent
  written : t.written = brick.sent.take t.sender.pos
  pos_le : t.sender.pos ≤ brick.sent.length
  bufN : t.sender.bufN = if t.sender.pos = brick.sent.length then 0 else brick.sent.length
  delivered_le : t.delivered ≤ t.sender.pos
  failed : t.failed = false
  receives : Receives brick t

theorem NoBrick.initial : NoBrick (initialBrickTransfer prm) := ⟨rfl, rfl, rfl, rfl, rfl⟩

theorem NoBrick.transport (h : NoBrick t) (haccounts : Accounts prm t)
    (action : TransportAction) : NoBrick (t.transport prm action) := by
  obtain ⟨-, hpos, hbufN⟩ := haccounts.nothing h.stored
  cases action with
  | send accepted =>
      have hnothing : runBrickSend accepted t.sender = (t.sender, []) :=
        if_neg (by rw [hpos, hbufN]; exact Nat.lt_irrefl 0)
      simp only [BrickTransfer.transport, hnothing, List.append_nil]
      exact h
  | deliver n => exact ⟨h.stored, h.received, h.failed, h.pos, h.written⟩
  | receive =>
      have hcall : prm.receiveRingBrickData t.receiver [] = ⟨t.receiver, .success, 0, []⟩ := by
        unfold receiveRingBrickData
        rw [if_pos (by rw [h.pos]; decide)]
        rfl
      simp only [BrickTransfer.transport]
      rw [h.failed, if_neg (by decide), h.written, List.take_nil, List.drop_nil, hcall]
      exact ⟨h.stored, by rw [h.received]; rfl, rfl, h.pos, rfl⟩

theorem NoBrick.foldl (h : NoBrick t) (haccounts : Accounts prm t)
    (actions : List TransportAction) :
    NoBrick (actions.foldl (BrickTransfer.transport prm) t) := by
  induction actions generalizing t with
  | nil => exact h
  | cons action actions ih =>
      exact ih (h.transport haccounts action) (haccounts.transport action)

theorem OneBrick.written_take {brick : prm.Brick} (h : OneBrick brick t) :
    t.written.take t.delivered = brick.sent.take t.delivered := by
  rw [h.written, List.take_take, Nat.min_eq_left h.delivered_le]

theorem OneBrick.send {brick : prm.Brick} (h : OneBrick brick t) (accepted : ℕ) :
    OneBrick brick (t.transport prm (.send accepted)) := by
  obtain ⟨hbuf, hwritten, hpos, hbufN⟩ := runBrickSend_spec accepted t.sender
  have hle := h.pos_le
  have hnext : (runBrickSend accepted t.sender).2 =
      (brick.sent.drop t.sender.pos).take accepted := by
    rw [hwritten, h.bufN]
    split_ifs with hall
    · rw [hall, Nat.zero_sub, List.take_zero, List.take_nil, List.drop_length, List.take_nil]
    · rw [← List.drop_take, h.buf]
  have hlength : (runBrickSend accepted t.sender).2.length ≤
      brick.sent.length - t.sender.pos := by
    rw [hnext, List.length_take, List.length_drop]
    omega
  simp only [BrickTransfer.transport]
  generalize runBrickSend accepted t.sender = sent at hbuf hpos hbufN hnext hlength ⊢
  exact
    { stored := h.stored
      buf := by
        dsimp only
        rw [hbuf]
        exact h.buf
      written := by
        have htaken : (brick.sent.drop t.sender.pos).take sent.2.length = sent.2 := by
          rw [hnext]
          exact (List.prefix_iff_eq_take.mp (List.take_prefix _ _)).symm
        dsimp only
        rw [h.written, hpos, List.take_add, htaken]
      pos_le := by
        dsimp only
        omega
      bufN := by
        have hbefore := h.bufN
        dsimp only
        rw [hbufN, hpos]
        by_cases hall : t.sender.pos = brick.sent.length
        · rw [if_pos hall] at hbefore
          have hnone : sent.2.length = 0 := by omega
          rw [if_neg (by omega), hbefore, hnone, Nat.add_zero, if_pos hall]
        · rw [if_neg hall] at hbefore
          rw [hbefore]
          split_ifs <;> omega
      delivered_le := by
        have hdelivered := h.delivered_le
        dsimp only
        omega
      failed := h.failed
      receives := by
        cases h.receives with
        | start hreceived hpos htaken => exact .start hreceived hpos htaken
        | collects hreceived hlong hmore hcollects =>
            exact .collects hreceived hlong hmore hcollects
        | done hreceived hpos htaken => exact .done hreceived hpos htaken }

theorem OneBrick.deliver {brick : prm.Brick} (h : OneBrick brick t) (n : ℕ) :
    OneBrick brick (t.transport prm (.deliver n)) where
  stored := h.stored
  buf := h.buf
  written := h.written
  pos_le := h.pos_le
  bufN := h.bufN
  delivered_le := by
    have hlength := congrArg List.length h.written
    rw [List.length_take] at hlength
    simp only [BrickTransfer.transport]
    omega
  failed := h.failed
  receives := by
    cases h.receives with
    | start hreceived hpos htaken => exact .start hreceived hpos htaken
    | collects hreceived hlong hmore hcollects => exact .collects hreceived hlong hmore hcollects
    | done hreceived hpos htaken => exact .done hreceived hpos htaken

structure CallKeeps (brick : prm.Brick) (t : BrickTransfer) (call : BrickCall) : Prop where
  status : ¬(call.status = .failed ∨ call.status = .checksumError)
  taken : 24 ≤ t.delivered → t.taken + call.read = t.delivered
  receives : Receives brick
    { t with
      receiver := call.receiver
      taken := t.taken + call.read
      received := t.received ++ call.received }

theorem callKeeps_of_collects {brick : prm.Brick} {b : BrickReceiver}
    (hb : brick.Collects b t.taken) (hnone : t.received = []) (hlong : 24 ≤ t.delivered)
    (htaken : t.taken ≤ t.delivered) (hdelivered : t.delivered ≤ brick.sent.length) :
    CallKeeps brick t (prm.readBrick b ((brick.sent.take t.delivered).drop t.taken)) := by
  obtain ⟨b', ⟨hmore, hb', hread⟩ | ⟨hall, hpos, hread⟩⟩ := hb.readBrick htaken hdelivered
  · rw [hread]
    have hsum : t.taken + (t.delivered - t.taken) = t.delivered := Nat.add_sub_cancel' htaken
    refine ⟨by simp, fun _ => hsum, ?_⟩
    dsimp only
    rw [hsum]
    exact .collects (by rw [hnone]; rfl) hlong hmore hb'
  · rw [hread]
    have hsum : t.taken + (t.delivered - t.taken) = t.delivered := Nat.add_sub_cancel' htaken
    refine ⟨by simp, fun _ => hsum, ?_⟩
    dsimp only
    rw [hsum]
    exact .done (by rw [hnone]; rfl) hpos hall

theorem OneBrick.callKeeps {brick : prm.Brick} (h : OneBrick brick t)
    (htaken_le : t.taken ≤ t.delivered) :
    CallKeeps brick t (prm.receiveRingBrickData t.receiver
      ((brick.sent.take t.delivered).drop t.taken)) := by
  have hdelivered := h.delivered_le.trans h.pos_le
  cases h.receives with
  | start hreceived hpos htaken =>
      rcases brick.receive_start hpos hdelivered with ⟨hshort, hcall⟩ | ⟨hlong, b, hb, hcall⟩
      · rw [htaken, List.drop_zero, hcall]
        refine ⟨by simp, fun hlong => absurd hlong (by omega), ?_⟩
        exact .start (by rw [hreceived]; rfl) hpos htaken
      · have hkeeps := callKeeps_of_collects (htaken.symm ▸ hb) hreceived hlong htaken_le
          hdelivered
        rw [htaken, List.drop_zero] at hkeeps ⊢
        rw [hcall]
        exact hkeeps
  | collects hreceived hlong hmore hcollects =>
      have hcall : prm.receiveRingBrickData t.receiver
          ((brick.sent.take t.delivered).drop t.taken) =
            prm.readBrick t.receiver ((brick.sent.take t.delivered).drop t.taken) := by
        unfold receiveRingBrickData
        rw [if_neg (by rw [hcollects.pos]; omega)]
      rw [hcall]
      exact callKeeps_of_collects hcollects hreceived (hlong.trans htaken_le) htaken_le hdelivered
  | done hreceived hpos htaken =>
      have hstream : (brick.sent.take t.delivered).drop t.taken = [] := by
        apply List.drop_eq_nil_of_le
        rw [List.length_take, htaken]
        omega
      have hcall : prm.receiveRingBrickData t.receiver [] = ⟨t.receiver, .success, 0, []⟩ := by
        unfold receiveRingBrickData
        rw [if_pos (by rw [hpos]; decide)]
        rfl
      rw [hstream, hcall]
      refine ⟨by simp, fun _ => ?_, .done (by rw [hreceived]; rfl) hpos htaken⟩
      dsimp only
      omega

theorem OneBrick.receive {brick : prm.Brick} (h : OneBrick brick t)
    (htaken_le : t.taken ≤ t.delivered) :
    OneBrick brick (t.transport prm .receive) ∧
      (24 ≤ t.delivered → (t.transport prm .receive).taken = t.delivered) := by
  have hkeeps := h.callKeeps htaken_le
  simp only [BrickTransfer.transport]
  rw [h.failed, if_neg (by decide), h.written_take]
  generalize prm.receiveRingBrickData t.receiver
    ((brick.sent.take t.delivered).drop t.taken) = call at hkeeps ⊢
  refine ⟨⟨h.stored, h.buf, h.written, h.pos_le, h.bufN, h.delivered_le,
    decide_eq_false hkeeps.status, ?_⟩, hkeeps.taken⟩
  cases hkeeps.receives with
  | start hreceived hpos htaken => exact .start hreceived hpos htaken
  | collects hreceived hlong hmore hcollects => exact .collects hreceived hlong hmore hcollects
  | done hreceived hpos htaken => exact .done hreceived hpos htaken

theorem OneBrick.transport {brick : prm.Brick} (h : OneBrick brick t)
    (htaken_le : t.taken ≤ t.delivered) (action : TransportAction) :
    OneBrick brick (t.transport prm action) := by
  cases action with
  | send accepted => exact h.send accepted
  | deliver n => exact h.deliver n
  | receive => exact (h.receive htaken_le).1

inductive Stage (prm : BrickParams) (t : BrickTransfer) : Prop
  | none (h : NoBrick t)
  | one {brick : prm.Brick} (h : OneBrick brick t)
  | several (h : 2 ≤ t.stored.length)

theorem Stage.transport (h : Stage prm t) (haccounts : Accounts prm t)
    (action : TransportAction) : Stage prm (t.transport prm action) := by
  cases h with
  | none h => exact .none (h.transport haccounts action)
  | one h => exact .one (h.transport haccounts.taken_le action)
  | several h => exact .several ((transport_stored action).symm ▸ h)

theorem Stage.store (h : Stage prm t) (haccounts : Accounts prm t) (brick : prm.Brick) :
    Stage prm (t.step (.store brick)) := by
  have hspec := compressBrickRing_spec t.sender haccounts.buf_length brick
  simp only [BrickTransfer.step]
  split_ifs with hready
  · obtain ⟨hbuf, hbufN, hpos, htake, hbrick⟩ := hspec
    generalize compressBrickRing t.sender brick = sender at hbuf hbufN hpos htake hbrick ⊢
    have hsent := brick.sent_length
    cases h with
    | none h =>
        obtain ⟨hwritten, hpos0, -⟩ := haccounts.nothing h.stored
        have hdelivered := haccounts.delivered_le
        have htaken := haccounts.taken_le
        rw [hwritten, List.length_nil] at hdelivered
        refine Stage.one (?_ : OneBrick brick _)
        exact
          { stored := by
              dsimp only
              rw [h.stored, hbrick]
              rfl
            buf := htake
            written := by
              dsimp only
              rw [hpos, hpos0, hwritten, List.take_zero]
            pos_le := by
              dsimp only
              omega
            bufN := by
              dsimp only
              rw [hbufN, if_neg (by omega)]
            delivered_le := by
              dsimp only
              omega
            failed := h.failed
            receives := .start h.received h.pos (by dsimp only; omega) }
    | one h =>
        refine .several ?_
        rw [List.length_append, h.stored]
        exact Nat.le_refl 2
    | several h =>
        refine .several ?_
        rw [List.length_append]
        omega
  · exact h

theorem Stage.run (h : Stage prm t) (haccounts : Accounts prm t)
    (actions : List (BrickAction prm)) : Stage prm (t.run actions) := by
  induction actions generalizing t with
  | nil => exact h
  | cons action actions ih =>
      cases action with
      | store brick => exact ih (h.store haccounts brick) (haccounts.store brick)
      | transport action => exact ih (h.transport haccounts action) (haccounts.transport action)

/-! ## The end of a transfer -/

def OnTheWay (brick : prm.Brick) (t : BrickTransfer) : Prop :=
  OneBrick brick t ∧ Accounts prm t

def brickWork (brick : prm.Brick) (t : BrickTransfer) : ℕ :=
  (brick.sent.length - t.sender.pos) + (brick.sent.length - t.delivered) +
    (brick.sent.length - t.taken)

structure GoesOn (t t' : BrickTransfer) : Prop where
  pos : t.sender.pos ≤ t'.sender.pos
  delivered : t.delivered ≤ t'.delivered
  taken : t.taken ≤ t'.taken

theorem transport_goesOn (haccounts : Accounts prm t) (action : TransportAction) :
    GoesOn t (t.transport prm action) := by
  have hle := haccounts.delivered_le
  cases action with
  | send accepted =>
      refine ⟨?_, Nat.le_refl _, Nat.le_refl _⟩
      simp only [BrickTransfer.transport]
      rw [(runBrickSend_spec accepted t.sender).2.2.1]
      exact Nat.le_add_right _ _
  | deliver n =>
      refine ⟨Nat.le_refl _, ?_, Nat.le_refl _⟩
      simp only [BrickTransfer.transport]
      omega
  | receive =>
      simp only [BrickTransfer.transport]
      split_ifs
      · exact ⟨Nat.le_refl _, Nat.le_refl _, Nat.le_refl _⟩
      · exact ⟨Nat.le_refl _, Nat.le_refl _, Nat.le_add_right _ _⟩

theorem settles (brick : prm.Brick) :
    FairRounds.Settles (BrickTransfer.transport prm) (OnTheWay brick) (brickWork brick) where
  inv_step t action := by
    rintro ⟨h, haccounts⟩
    exact ⟨h.transport haccounts.taken_le action, haccounts.transport action⟩
  work_step t action := by
    rintro ⟨-, haccounts⟩
    obtain ⟨hpos, hdelivered, htaken⟩ := transport_goesOn haccounts action
    unfold brickWork
    omega

theorem foldl_goesOn {t : BrickTransfer} (haccounts : Accounts prm t)
    (actions : List TransportAction) :
    GoesOn t (actions.foldl (BrickTransfer.transport prm) t) := by
  induction actions generalizing t with
  | nil => exact ⟨Nat.le_refl _, Nat.le_refl _, Nat.le_refl _⟩
  | cons action actions ih =>
      have hfirst := transport_goesOn haccounts action
      have hrest := ih (haccounts.transport action)
      exact ⟨hfirst.pos.trans hrest.pos, hfirst.delivered.trans hrest.delivered,
        hfirst.taken.trans hrest.taken⟩

/-- A part of a run in which at least a byte can be written and delivered, and the
receiving end is called. -/
def IsRound (actions : List TransportAction) : Prop :=
  (∃ accepted, .send accepted ∈ actions ∧ 0 < accepted) ∧
    (∃ n, .deliver n ∈ actions ∧ 0 < n) ∧ .receive ∈ actions

/-- As long as the brick has not arrived, a round takes from the work. -/
theorem OnTheWay.round {brick : prm.Brick} (h : OnTheWay brick t)
    {actions : List TransportAction} (hround : IsRound actions)
    (hnot : t.received ≠ [brick.bytes 0]) :
    brickWork brick (actions.foldl (BrickTransfer.transport prm) t) < brickWork brick t := by
  obtain ⟨⟨accepted, hsend, haccepted⟩, ⟨n, hdeliver, hn⟩, hreceive⟩ := hround
  obtain ⟨hone, haccounts⟩ := h
  have hsent := brick.sent_length
  have hdata := brick.data_pos
  have hle := hone.pos_le
  have htaken_lt : t.taken < brick.sent.length := by
    cases hone.receives with
    | start _ _ htaken => omega
    | collects _ _ hmore _ => exact hmore
    | done hreceived _ _ => exact absurd hreceived hnot
  -- Before the first action which takes from the work, the counts are the same.
  have hsame : ∀ before : List TransportAction,
      brickWork brick t ≤ brickWork brick (before.foldl (BrickTransfer.transport prm) t) →
        ∀ t', before.foldl (BrickTransfer.transport prm) t = t' →
          OneBrick brick t' ∧ Accounts prm t' ∧ t'.sender.pos = t.sender.pos ∧
            t'.delivered = t.delivered ∧ t'.taken = t.taken := by
    rintro before hwork _ rfl
    obtain ⟨hone', haccounts'⟩ := (settles brick).inv_foldl before ⟨hone, haccounts⟩
    obtain ⟨hpos, hdelivered, htaken⟩ := foldl_goesOn haccounts before
    have hpos' := hone'.pos_le
    have hdelivered' := hone'.delivered_le
    have htaken' := haccounts'.taken_le
    unfold brickWork at hwork
    exact ⟨hone', haccounts', by omega, by omega, by omega⟩
  by_cases hwrite : t.sender.pos < brick.sent.length
  · refine (settles brick).foldl_lt ⟨hone, haccounts⟩ hsend fun before hwork => ?_
    obtain ⟨hone', -, hpos, -, -⟩ := hsame before hwork _ rfl
    generalize before.foldl (BrickTransfer.transport prm) t = t' at hone' hpos ⊢
    obtain ⟨-, hwritten, hnext, -⟩ := runBrickSend_spec accepted t'.sender
    have hbufN := hone'.bufN
    have hbuf := congrArg List.length hone'.buf
    rw [if_neg (by omega)] at hbufN
    rw [List.length_take] at hbuf
    have hlength : 0 < (runBrickSend accepted t'.sender).2.length := by
      rw [hwritten, List.length_take, List.length_take, List.length_drop]
      omega
    unfold brickWork
    simp only [BrickTransfer.transport]
    rw [hnext]
    omega
  · by_cases hmore : t.delivered < brick.sent.length
    · refine (settles brick).foldl_lt ⟨hone, haccounts⟩ hdeliver fun before hwork => ?_
      obtain ⟨hone', -, hpos, hdelivered, -⟩ := hsame before hwork _ rfl
      generalize before.foldl (BrickTransfer.transport prm) t = t' at hone' hpos hdelivered ⊢
      have hlength := congrArg List.length hone'.written
      rw [List.length_take] at hlength
      unfold brickWork
      simp only [BrickTransfer.transport]
      omega
    · refine (settles brick).foldl_lt ⟨hone, haccounts⟩ hreceive fun before hwork => ?_
      obtain ⟨hone', haccounts', hpos, hdelivered, htaken⟩ := hsame before hwork _ rfl
      generalize before.foldl (BrickTransfer.transport prm) t = t' at *
      have hnext := (hone'.receive haccounts'.taken_le).2 (by omega)
      obtain ⟨hpos', hdelivered', -⟩ := transport_goesOn haccounts' .receive
      unfold brickWork
      omega

theorem OnTheWay.arrives {brick : prm.Brick} (h : OnTheWay brick t)
    (rounds : List (List TransportAction)) (hrounds : ∀ round ∈ rounds, IsRound round)
    (hwork : brickWork brick t ≤ rounds.length) :
    (rounds.flatten.foldl (BrickTransfer.transport prm) t).received = [brick.bytes 0] := by
  refine (settles brick).finish (fun t' => t'.received = [brick.bytes 0]) ?_ ?_ rounds ?_
    h hwork
  · rintro t' ⟨hone, -⟩ hzero
    unfold brickWork at hzero
    cases hone.receives with
    | start _ _ htaken =>
        have hsent := brick.sent_length
        omega
    | collects _ _ hmore _ => omega
    | done hreceived _ _ => exact hreceived
  · rintro t' action ⟨hone, haccounts⟩ hdone
    have hnext := hone.transport haccounts.taken_le action
    have htaken := (transport_goesOn haccounts action).taken
    have hall : t'.taken = brick.sent.length := by
      cases hone.receives with
      | start hnone _ _ => rw [hnone] at hdone; cases hdone
      | collects hnone _ _ _ => rw [hnone] at hdone; cases hdone
      | done _ _ htaken => exact htaken
    cases hnext.receives with
    | start _ _ hzero =>
        have hsent := brick.sent_length
        omega
    | collects _ _ hmore _ => omega
    | done hreceived _ _ => exact hreceived
  · exact fun round hround t' h' hnot => h'.round (hrounds round hround) hnot

end BrickTransfer

open BrickTransfer

/-- The receiving end has reported no error, and has given its callback the first bricks
in order; after enough rounds it has given it all of them. -/
structure BrickTransfer.Transfers (prm : BrickParams) (t : BrickTransfer) : Prop where
  noError : t.failed = false
  inOrder : t.received <+: t.stored
  arrives : ∀ rounds : List (List TransportAction), (∀ round ∈ rounds, IsRound round) →
    3 * prm.bufSz ≤ rounds.length →
      (rounds.flatten.foldl (BrickTransfer.transport prm) t).failed = false ∧
        (rounds.flatten.foldl (BrickTransfer.transport prm) t).received = t.stored

theorem BrickTransfer.NoBrick.transfers {prm : BrickParams} {t : BrickTransfer}
    (h : NoBrick t) (haccounts : Accounts prm t) : t.Transfers prm where
  noError := h.failed
  inOrder := by
    rw [h.received]
    exact List.nil_prefix
  arrives rounds _ _ := by
    have hend := h.foldl haccounts rounds.flatten
    exact ⟨hend.failed, hend.received.trans h.stored.symm⟩

theorem BrickTransfer.OneBrick.transfers {prm : BrickParams} {t : BrickTransfer}
    {brick : prm.Brick} (h : OneBrick brick t) (haccounts : Accounts prm t) :
    t.Transfers prm where
  noError := h.failed
  inOrder := by
    rw [h.stored]
    cases h.receives with
    | start hreceived _ _ => rw [hreceived]; exact List.nil_prefix
    | collects hreceived _ _ _ => rw [hreceived]; exact List.nil_prefix
    | done hreceived _ _ => exact hreceived.symm ▸ List.prefix_refl _
  arrives rounds hrounds henough := by
    have hfits := brick.fits
    have hsent := brick.sent_length
    have hwork : brickWork brick t ≤ rounds.length := by
      unfold brickWork
      omega
    have hway : OnTheWay brick t := ⟨h, haccounts⟩
    obtain ⟨hend, -⟩ := (settles brick).inv_foldl rounds.flatten hway
    exact ⟨hend.failed, (hway.arrives rounds hrounds hwork).trans h.stored.symm⟩

theorem BrickTransfer.Accounts.not_transfers {prm : BrickParams} {t : BrickTransfer}
    (h : Accounts prm t) (hseveral : 2 ≤ t.stored.length) : ¬t.Transfers prm := by
  intro htransfers
  have hround : IsRound [.send 1, .deliver 1, .receive] :=
    ⟨⟨1, by simp, by decide⟩, ⟨1, by simp, by decide⟩, by simp⟩
  have harrives := (htransfers.arrives
    (List.replicate (3 * prm.bufSz) [.send 1, .deliver 1, .receive])
    (fun round hmem => (List.mem_replicate.mp hmem).2 ▸ hround)
    (List.length_replicate).symm.le).2
  obtain ⟨hend, hstored⟩ := h.foldl
    (List.replicate (3 * prm.bufSz) [.send 1, .deliver 1, .receive]).flatten
  exact hend.received_ne (hstored.symm ▸ hseveral) (harrives.trans hstored.symm)

/-- In every run, the bricks which have been stored arrive exactly if it is at most one:
from the second on they never do. -/
theorem brick_transfer_iff (prm : BrickParams) (actions : List (BrickAction prm)) :
    ((initialBrickTransfer prm).run actions).Transfers prm ↔
      ((initialBrickTransfer prm).run actions).stored.length ≤ 1 := by
  have haccounts := (Accounts.initial : Accounts prm (initialBrickTransfer prm)).run actions
  have hstage := (Stage.none NoBrick.initial : Stage prm (initialBrickTransfer prm)).run .initial actions
  generalize (initialBrickTransfer prm).run actions = t at haccounts hstage ⊢
  constructor
  · intro htransfers
    by_contra hseveral
    exact haccounts.not_transfers (by omega) htransfers
  · intro hone
    cases hstage with
    | none h => exact h.transfers haccounts
    | one h => exact h.transfers haccounts
    | several h => omega

/-! ## A second brick -/

def smallBrickParams : BrickParams where
  bufSz := 25
  bufSz_gt := by decide
  bufSz_le := by decide
  formatCode
    | .grayscale8 => 8
    | .grayscale16 => 16
    | .rgb24 => 24
    | .rgba32 => 32
  formatCode_ne_zero format := by cases format <;> decide
  bytesPerPix code := code.toNat / 8
  bytesPerPix_pos format := by cases format <;> decide
  bytesPerPix_le format := by cases format <;> decide
  checksum bytes := (bytes.map UInt8.toNat).sum % 0x10000
  checksum_lt bytes := Nat.mod_lt _ (by decide)
  granted n := n
  le_granted _ := Nat.le_refl _

def onePixelBrick (pixel : UInt8) : smallBrickParams.Brick where
  format := .grayscale8
  w := 1
  h := 1
  w_pos := by decide
  w_le := by decide
  h_pos := by decide
  h_le := by decide
  data := [pixel]
  data_length := rfl
  fits := Nat.le_refl _
  hdr := ⟨0, 0, 0, 0, 0, 0, 25, 0⟩
  allocSz_pos := Nat.le_add_left 1 24
  allocSz_le := by decide
  time := 0

/-- The second brick is stored when the first one has been sent. -/
def twoBricks : List (BrickAction smallBrickParams) :=
  [.store (onePixelBrick 7), .transport (.send 25), .store (onePixelBrick 8)]

theorem second_brick_does_not_arrive :
    ¬∀ (prm : BrickParams) (actions : List (BrickAction prm)),
      ((initialBrickTransfer prm).run actions).Transfers prm := by
  intro hall
  have haccounts := (Accounts.initial : Accounts smallBrickParams _).run twoBricks
  exact haccounts.not_transfers (by decide) (hall smallBrickParams twoBricks)

end Iocom
