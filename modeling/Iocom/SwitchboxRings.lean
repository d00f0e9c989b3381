import Iocom.Switchbox
import Iocom.Lib.RingBuffer

/-!
# Ring buffers of the switchbox

`ioc_switchbox_ringbuf_move` and the functions which write a ring buffer to the shared
socket and read from the socket to one, on the cells of the ring buffers.
-/

namespace Iocom

open RingBuffer

/-! ## Moving from ring to ring -/

/-- The loop of `ioc_switchbox_ringbuf_move`; the variables `head` and `tail` are kept in
the ring buffers. -/
def ringbufMoveLoop (dst src : RingBuffer UInt8) (nLeft : ℕ) :
    RingBuffer UInt8 × RingBuffer UInt8 :=
  if nLeft = 0 then (dst, src)
  else
    let smaller := min (min nLeft (dst.buf.length - dst.head)) (src.buf.length - src.tail)
    have hrun : dst.head + (src.run smaller).length ≤ dst.buf.length := by
      have hlength := List.length_take_le smaller (src.buf.drop src.tail)
      have hhead := dst.head_lt
      unfold run
      omega
    ringbufMoveLoop (dst.store (src.run smaller) hrun) (src.advance smaller) (nLeft - smaller)
termination_by nLeft
decreasing_by
  have hhead := dst.head_lt
  have htail := src.tail_lt
  omega

/-- `ioc_switchbox_ringbuf_move`: what it returns, the destination and the source. -/
def iocSwitchboxRingbufMove (dst src : RingBuffer UInt8) (n : ℤ) :
    ℤ × RingBuffer UInt8 × RingBuffer UInt8 :=
  let n := if (src.count : ℤ) < n then (src.count : ℤ) else n
  let n := if (dst.space : ℤ) < n then (dst.space : ℤ) else n
  if 0 < n then (n, ringbufMoveLoop dst src n.toNat) else (n, dst, src)

/-! ## Between ring and socket -/

/-- What a helper returns; `failed` is the status of a broken socket. -/
inductive RingStatus
  | success
  | workDone
  | failed (s : ℤ)
  deriving DecidableEq

/-- The status, the ring buffer afterwards, and the bytes which passed the socket. -/
structure RingTransfer where
  status : RingStatus
  ring : RingBuffer UInt8
  passed : List UInt8

/-- The first `m` bytes of one ring buffer have gone to the end of another one, and
nothing else has changed. -/
structure Moved (m : ℕ) (dst src dst' src' : RingBuffer UInt8) : Prop where
  appended : dst'.contents = dst.contents ++ src.contents.take m
  removed : src'.contents = src.contents.drop m
  length : dst'.buf.length = dst.buf.length
  head : dst'.head = (dst.head + m) % dst.buf.length
  dst_tail : dst'.tail = dst.tail
  cells : ∀ i < dst.buf.length, (∀ j < m, i ≠ (dst.head + j) % dst.buf.length) →
    dst'.buf[i]? = dst.buf[i]?
  src_tail : src'.tail = (src.tail + m) % src.buf.length
  src_buf : src'.buf = src.buf
  src_head : src'.head = src.head

namespace Moved

variable {dst src dst₁ src₁ dst₂ src₂ : RingBuffer UInt8} {m k : ℕ}

theorem nothing (dst src : RingBuffer UInt8) : Moved 0 dst src dst src where
  appended := by simp
  removed := rfl
  length := rfl
  head := (Nat.mod_eq_of_lt dst.head_lt).symm
  dst_tail := rfl
  cells _ _ _ := rfl
  src_tail := (Nat.mod_eq_of_lt src.tail_lt).symm
  src_buf := rfl
  src_head := rfl

theorem trans (h : Moved k dst src dst₁ src₁) (h' : Moved m dst₁ src₁ dst₂ src₂) :
    Moved (k + m) dst src dst₂ src₂ where
  appended := by
    rw [h'.appended, h.appended, h.removed, List.append_assoc, ← List.take_add]
  removed := by rw [h'.removed, h.removed, List.drop_drop]
  length := h'.length.trans h.length
  head := by rw [h'.head, h.head, h.length, Nat.mod_add_mod, Nat.add_assoc]
  dst_tail := h'.dst_tail.trans h.dst_tail
  cells := by
    intro i hi hother
    rw [h'.cells i (by rwa [h.length]), h.cells i hi fun j hj => hother j (by omega)]
    intro j hj
    rw [h.length, h.head, Nat.mod_add_mod, Nat.add_assoc]
    exact hother (k + j) (by omega)
  src_tail := by rw [h'.src_tail, h.src_tail, h.src_buf, Nat.mod_add_mod, Nat.add_assoc]
  src_buf := h'.src_buf.trans h.src_buf
  src_head := h'.src_head.trans h.src_head

theorem chunk (hcount : k ≤ src.count) (hspace : k ≤ dst.space)
    (hsrc : src.tail + k ≤ src.buf.length)
    (hdst : dst.head + (src.run k).length ≤ dst.buf.length) :
    Moved k dst src (dst.store (src.run k) hdst) (src.advance k) := by
  have hlength := run_length hsrc
  refine ⟨?_, advance_contents hcount hsrc, Buffer.overwrite_length hdst, ?_, rfl, ?_, ?_, rfl, rfl⟩
  · rw [store_contents (by rwa [hlength]), run_eq hcount hsrc]
  · refine (wrapped_eq hdst).trans ?_
    rw [hlength]
  · intro i hi hother
    refine (Buffer.overwrite_getElem? hdst i).trans (if_neg ?_)
    rintro ⟨hlow, hhigh⟩
    rw [hlength] at hhigh
    refine hother (i - dst.head) (by omega) ?_
    rw [Nat.add_sub_cancel' hlow, Nat.mod_eq_of_lt hi]
  · exact wrapped_eq hsrc

end Moved

theorem ringbufMoveLoop_moved {dst src : RingBuffer UInt8} {n : ℕ} (hcount : n ≤ src.count)
    (hspace : n ≤ dst.space) :
    Moved n dst src (ringbufMoveLoop dst src n).1 (ringbufMoveLoop dst src n).2 := by
  fun_induction ringbufMoveLoop dst src n with
  | case1 dst src => exact .nothing dst src
  | case2 dst src n hn smaller hrun ih =>
      have hhead := dst.head_lt
      have htail := src.tail_lt
      have hleft : smaller ≤ n := by omega
      have hsrc : src.tail + smaller ≤ src.buf.length := by omega
      have hlength := run_length hsrc
      have hchunk := Moved.chunk (hleft.trans hcount) (hleft.trans hspace) hsrc hrun
      have hrest := hchunk.trans (ih ?_ ?_)
      · rwa [Nat.add_sub_cancel' hleft] at hrest
      · rw [advance_count (hleft.trans hcount) hsrc]
        omega
      · rw [store_space (by omega), hlength]
        omega

/-- `ioc_switchbox_ringbuf_move` moves as many bytes as there are and as fit. -/
structure MovesBytes (dst src : RingBuffer UInt8) (n : ℤ)
    (result : ℤ × RingBuffer UInt8 × RingBuffer UInt8) : Prop where
  moved : Moved (min (min n.toNat src.count) dst.space) dst src result.2.1 result.2.2
  returned : 0 ≤ n → result.1 = (min (min n.toNat src.count) dst.space : ℕ)

theorem iocSwitchboxRingbufMove_moves (dst src : RingBuffer UInt8) (n : ℤ) :
    MovesBytes dst src n (iocSwitchboxRingbufMove dst src n) := by
  have hn : (if (dst.space : ℤ) < (if (src.count : ℤ) < n then (src.count : ℤ) else n) then
      (dst.space : ℤ) else (if (src.count : ℤ) < n then (src.count : ℤ) else n)) =
      min (min n src.count) dst.space := by
    split_ifs <;> omega
  unfold iocSwitchboxRingbufMove
  simp only [hn]
  have hmin : min (min n.toNat src.count) dst.space =
      (min (min n src.count) dst.space).toNat := by omega
  split_ifs with hpos
  · refine ⟨?_, fun _ => by dsimp only; omega⟩
    rw [hmin]
    exact ringbufMoveLoop_moved (by omega) (by omega)
  · refine ⟨?_, fun _ => by dsimp only; omega⟩
    rw [hmin, Int.toNat_of_nonpos (not_lt.mp hpos)]
    exact .nothing dst src

/-! ## What passes the socket -/

structure RemovesWritten (r : RingBuffer UInt8) (t : RingTransfer) : Prop where
  contents : r.contents = t.passed ++ t.ring.contents
  buf : t.ring.buf = r.buf
  head : t.ring.head = r.head

structure AppendsRead (r : RingBuffer UInt8) (t : RingTransfer) : Prop where
  contents : t.ring.contents = r.contents ++ t.passed
  length : t.ring.buf.length = r.buf.length
  tail : t.ring.tail = r.tail

section Socket

variable {r r' : RingBuffer UInt8} {passed : List UInt8}

theorem RemovesWritten.start (r : RingBuffer UInt8) (status : RingStatus) :
    RemovesWritten r ⟨status, r, []⟩ :=
  ⟨rfl, rfl, rfl⟩

theorem RemovesWritten.advance {status : RingStatus} {k : ℕ}
    (h : RemovesWritten r ⟨status, r', passed⟩) (hcount : k ≤ r'.count)
    (hend : r'.tail + k ≤ r'.buf.length) :
    RemovesWritten r ⟨status, r'.advance k, passed ++ r'.run k⟩ := by
  have hcontents := h.contents
  dsimp only at hcontents
  refine ⟨?_, h.buf, h.head⟩
  dsimp only
  rw [hcontents, advance_contents hcount hend, run_eq hcount hend, List.append_assoc,
    List.take_append_drop]

theorem AppendsRead.start (r : RingBuffer UInt8) (status : RingStatus) :
    AppendsRead r ⟨status, r, []⟩ :=
  ⟨(List.append_nil _).symm, rfl, rfl⟩

theorem AppendsRead.store {status : RingStatus} {data : List UInt8}
    (h : AppendsRead r ⟨status, r', passed⟩) (hspace : data.length ≤ r'.space)
    (hend : r'.head + data.length ≤ r'.buf.length) :
    AppendsRead r ⟨status, r'.store data hend, passed ++ data⟩ := by
  have hcontents := h.contents
  dsimp only at hcontents
  refine ⟨?_, (Buffer.overwrite_length hend).trans h.length, h.tail⟩
  dsimp only
  rw [store_contents hspace, hcontents, List.append_assoc]

end Socket

/-! ## The ring buffers as sequences -/

def toOsalRingBuf (r : RingBuffer UInt8) : OsalRingBuf where
  capacity := r.buf.length - 1
  bytes := r.contents
  fits := by
    rw [contents_length]
    exact Nat.le_sub_one_of_lt r.count_lt

@[simp] theorem toOsalRingBuf_space (r : RingBuffer UInt8) : (toOsalRingBuf r).space = r.space := by
  simp [toOsalRingBuf, OsalRingBuf.space, RingBuffer.space]

theorem osalRingBuf_ext {a b : OsalRingBuf} (hcapacity : a.capacity = b.capacity)
    (hbytes : a.bytes = b.bytes) : a = b := by
  cases a
  cases b
  congr

/-- Moving bytes from cell to cell is moving them between the sequences. -/
theorem iocSwitchboxRingbufMove_refines (dst src : RingBuffer UInt8) (n : ℤ) :
    (toOsalRingBuf (iocSwitchboxRingbufMove dst src n).2.1,
      toOsalRingBuf (iocSwitchboxRingbufMove dst src n).2.2) =
      switchboxRingbufMove (toOsalRingBuf dst) (toOsalRingBuf src) n.toNat := by
  have hmoved := (iocSwitchboxRingbufMove_moves dst src n).moved
  have hlength : (toOsalRingBuf src).bytes.length = src.count := contents_length src
  unfold switchboxRingbufMove
  rw [hlength, toOsalRingBuf_space]
  refine Prod.ext (osalRingBuf_ext ?_ ?_) (osalRingBuf_ext ?_ ?_)
  · exact congrArg (· - 1) hmoved.length
  · change _ = dst.contents ++ (src.contents.take _).take (toOsalRingBuf dst).space
    rw [toOsalRingBuf_space, List.take_take, Nat.min_eq_right (Nat.min_le_right _ _)]
    exact hmoved.appended
  · exact congrArg (fun buf => buf.length - 1) hmoved.src_buf
  · exact hmoved.removed

/-! ## The byte sequence is kept -/

end Iocom
