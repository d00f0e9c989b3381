import Iocom.MemoryBlockAccess

/-!
# Marking bytes of a bidirectional source buffer

Local writes mark a range of bytes, and the echo of received data marks the
bytes whose change bit was received.  Both are described by the set of marked
bytes, so that a write and an echo are used in the same way.
-/

namespace Iocom

/-- The bytes where `p` holds have been marked as changed. -/
structure SourceBuffer.MarksWhere
    (sbuf sbuf' : SourceBuffer) (n : ℤ) (p : ℤ → Bool) : Prop where
  remoteMblkId : sbuf'.remoteMblkId = sbuf.remoteMblkId
  clink : sbuf'.clink = sbuf.clink
  syncbuf : sbuf'.syncbuf = { sbuf.syncbuf with buf := sbuf'.syncbuf.buf }
  data : ∀ i, i < sbuf.syncbuf.ndata → sbuf'.syncbuf.buf i = sbuf.syncbuf.buf i
  within : sbuf.changed.Within n → sbuf'.changed.Within n
  stillCovered : ∀ i, sbuf.changed.Covers i → sbuf'.changed.Covers i
  nowCovered : ∀ i, p i = true → sbuf'.changed.Covers i
  changeBits :
    ∀ i, changeBit sbuf'.syncbuf.buf sbuf.syncbuf.ndata i =
      (changeBit sbuf.syncbuf.buf sbuf.syncbuf.ndata i || p i)

theorem SourceBuffer.MarksWhere.none (sbuf : SourceBuffer) (n : ℤ) :
    sbuf.MarksWhere sbuf n (fun _ => false) where
  remoteMblkId := rfl
  clink := rfl
  syncbuf := rfl
  data := fun _ _ => rfl
  within := fun h => h
  stillCovered := fun _ h => h
  nowCovered := fun _ h => by simp at h
  changeBits := fun _ => by simp

theorem SourceBuffer.MarksWhere.congr
    {sbuf sbuf' : SourceBuffer} {n : ℤ} {p q : ℤ → Bool}
    (h : sbuf.MarksWhere sbuf' n p) (hpq : ∀ i, p i = q i) :
    sbuf.MarksWhere sbuf' n q := by
  rw [show q = p from funext fun i => (hpq i).symm]
  exact h

theorem SourceBuffer.MarksWhere.trans
    {sbuf sbuf' sbuf'' : SourceBuffer} {n : ℤ} {p q : ℤ → Bool}
    (h : sbuf.MarksWhere sbuf' n p) (h' : sbuf'.MarksWhere sbuf'' n q) :
    sbuf.MarksWhere sbuf'' n (fun i => p i || q i) := by
  have hndata : sbuf'.syncbuf.ndata = sbuf.syncbuf.ndata := by rw [h.syncbuf]
  exact
    { remoteMblkId := h'.remoteMblkId.trans h.remoteMblkId
      clink := h'.clink.trans h.clink
      syncbuf := by rw [h'.syncbuf, h.syncbuf]
      data := fun i hi => by
        rw [h'.data i (by omega), h.data i hi]
      within := fun hw => h'.within (h.within hw)
      stillCovered := fun i hi => h'.stillCovered i (h.stillCovered i hi)
      nowCovered := fun i hi => by
        rw [Bool.or_eq_true] at hi
        rcases hi with hp | hq
        · exact h'.stillCovered i (h.nowCovered i hp)
        · exact h'.nowCovered i hq
      changeBits := fun i => by
        have hq := h'.changeBits i
        rw [hndata] at hq
        rw [hq, h.changeBits i, Bool.or_assoc] }

theorem SourceBuffer.invalidate_marksWhere
    (sbuf : SourceBuffer) (mblk : MemoryBlock) {n startAddr endAddr : ℤ}
    (hbuf : sbuf.syncbuf.hasBuf = true)
    (hbidir : sbuf.syncbuf.bidirectional = true)
    (hstart : 0 ≤ startAddr) (hle : startAddr ≤ endAddr) (hend : endAddr < n) :
    sbuf.MarksWhere (sbuf.invalidate mblk startAddr endAddr) n
      (fun i => decide (startAddr ≤ i ∧ i ≤ endAddr)) := by
  have h := sbuf.invalidate_marks mblk hbuf hstart hle
  exact
    { remoteMblkId := h.remoteMblkId
      clink := h.clink
      syncbuf := h.syncbuf
      data := h.data
      within := h.within n hend
      stillCovered := h.stillCovered
      nowCovered := fun i hi => by
        have hin := of_decide_eq_true hi
        exact h.nowCovered i hin.1 hin.2 (.inl hbidir)
      changeBits := h.changeBits hbidir }

/-- The echo loop marks exactly the bytes which were received as changed. -/
theorem echoBytes_marksWhere
    (changed : ℤ → Bool) (mblk : MemoryBlock) {n : ℤ} (count : ℕ) {start : ℤ}
    (sbuf : SourceBuffer)
    (hbuf : sbuf.syncbuf.hasBuf = true)
    (hbidir : sbuf.syncbuf.bidirectional = true)
    (hstart : 0 ≤ start) (hend : start + count ≤ n) :
    sbuf.MarksWhere (echoBytes changed mblk count start sbuf) n
      (fun i => decide (start ≤ i ∧ i < start + count) && changed i) := by
  induction count generalizing start sbuf with
  | zero =>
      refine (SourceBuffer.MarksWhere.none sbuf n).congr fun i => ?_
      rw [show decide (start ≤ i ∧ i < start + ((0 : ℕ) : ℤ)) = false by
        simp only [decide_eq_false_iff_not]
        omega, Bool.false_and]
  | succ count ih =>
      have hfirst : sbuf.MarksWhere
          (if changed start then sbuf.invalidate mblk start start else sbuf) n
          (fun i => decide (i = start) && changed i) := by
        split
        · rename_i hchanged
          refine (sbuf.invalidate_marksWhere mblk hbuf hbidir hstart le_rfl
            (by omega)).congr fun i => ?_
          by_cases hi : i = start
          · simp [hi, hchanged]
          · rw [show decide (start ≤ i ∧ i ≤ start) = false by
              simp only [decide_eq_false_iff_not]
              omega]
            simp [hi]
        · rename_i hchanged
          refine (SourceBuffer.MarksWhere.none sbuf n).congr fun i => ?_
          by_cases hi : i = start
          · simp [hi, hchanged]
          · simp [hi]
      change sbuf.MarksWhere
        (echoBytes changed mblk count (start + 1)
          (if changed start then sbuf.invalidate mblk start start else sbuf)) n _
      generalize (if changed start then sbuf.invalidate mblk start start
        else sbuf) = marked at *
      have hrest : marked.MarksWhere
          (echoBytes changed mblk count (start + 1) marked) n
          (fun i => decide (start + 1 ≤ i ∧ i < start + 1 + count) && changed i) :=
        ih marked (by rw [hfirst.syncbuf]; exact hbuf)
          (by rw [hfirst.syncbuf]; exact hbidir) (by omega)
          (by push_cast at hend; omega)
      refine (hfirst.trans hrest).congr fun i => ?_
      rw [← Bool.and_or_distrib_right]
      congr 1
      rw [← Bool.decide_or, decide_eq_decide]
      push_cast
      omega

/-- What one source buffer does with the echo of a target buffer. -/
theorem SourceBuffer.echo_marksWhere
    (sbuf : SourceBuffer) (mblk : MemoryBlock) (tbuf : TargetBuffer) {n : ℤ}
    (hbuf : sbuf.syncbuf.hasBuf = true)
    (hbidir : sbuf.syncbuf.bidirectional = true)
    (hstart : 0 ≤ tbuf.syncbuf.bufStartAddr)
    (hle : tbuf.syncbuf.bufStartAddr ≤ tbuf.syncbuf.bufEndAddr)
    (hend : tbuf.syncbuf.bufEndAddr < n) :
    sbuf.MarksWhere (sbuf.echo mblk tbuf) n
      (fun i => !sbuf.skipsEcho tbuf &&
        (decide (tbuf.syncbuf.bufStartAddr ≤ i ∧ i ≤ tbuf.syncbuf.bufEndAddr) &&
          changeBit tbuf.syncbuf.buf tbuf.syncbuf.ndata i)) := by
  unfold SourceBuffer.echo
  dsimp only
  cases hskip : sbuf.skipsEcho tbuf with
  | true =>
      exact (SourceBuffer.MarksWhere.none sbuf n).congr fun i => by simp
  | false =>
      rw [if_neg (by simp), if_pos hbidir]
      refine (echoBytes_marksWhere _ mblk _ sbuf hbuf hbidir hstart
        (by omega)).congr fun i => ?_
      rw [Bool.not_false, Bool.true_and]
      congr 1
      rw [decide_eq_decide]
      omega

end Iocom
