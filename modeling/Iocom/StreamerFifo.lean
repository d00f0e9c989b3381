import Iocom.Streamer
import Iocom.Lib.History
import Iocom.Lib.TransitionSystem

/-!
# The ring buffer of a streamer

The writer and the reader see each other's tail and head late.  The bytes which
were written and not read are in the ring all the same, so the reader gets what
was written, in order.
-/

namespace Iocom

variable {sz : ℕ}

/-! ## One write -/

/-- The first `k` of the bytes have been stored behind those which were written
before. -/
structure RingWriter.Progress
    (sz : ℕ) (buffer : Mem) (written bytes : List UInt8) (writer : RingWriter) (k : ℕ) :
    Prop where
  le : k ≤ bytes.length
  nbytes : writer.nbytes = k
  moved : writer.moved = bytes.take k
  rest : writer.rest = bytes.drop k
  head : writer.head = ((written.length + k) % sz : ℕ)
  holds : ∀ first, written.length + k ≤ first + sz →
    Ring.Holds sz buffer written first written.length →
    Ring.Holds sz writer.buffer (written ++ bytes.take k) first (written.length + k)
  outside : ∀ i, i < 0 ∨ (sz : ℤ) ≤ i → writer.buffer i = buffer i

theorem RingWriter.progress_start {buffer : Mem} (written bytes : List UInt8) :
    RingWriter.Progress sz buffer written bytes
      ⟨buffer, ((written.length % sz : ℕ) : ℤ), bytes, [], 0⟩ 0 where
  le := Nat.zero_le _
  nbytes := rfl
  moved := rfl
  rest := rfl
  head := rfl
  holds first _ h := by
    rw [List.take_zero, List.append_nil, Nat.add_zero]
    exact h
  outside _ _ := rfl

/-- Moving a run of bytes, with the head where it belongs behind them. -/
theorem RingWriter.Progress.move
    {buffer : Mem} {written bytes : List UInt8} {writer : RingWriter} {k j : ℕ}
    (h : writer.Progress sz buffer written bytes k) (hj : k + j ≤ bytes.length)
    (hrun : (written.length + k) % sz + j ≤ sz) :
    RingWriter.Progress sz buffer written bytes
      { writer.move j with head := ((written.length + (k + j)) % sz : ℕ) } (k + j) := by
  have htake : writer.rest.take (j : ℤ).toNat = (bytes.drop k).take j := by
    rw [h.rest, Int.toNat_natCast]
  have hlength : ((bytes.drop k).take j).length = j := by
    rw [List.length_take, List.length_drop]
    omega
  have happend : bytes.take k ++ (bytes.drop k).take j = bytes.take (k + j) :=
    List.take_add.symm
  have hsofar : (written ++ bytes.take k).length = written.length + k := by
    rw [List.length_append, List.length_take]
    have := h.le
    omega
  have hstored : (writer.move j).buffer =
      Ring.store sz writer.buffer (written ++ bytes.take k).length
        ((bytes.drop k).take j) := by
    unfold RingWriter.move Ring.store
    dsimp only
    rw [htake, h.head, hsofar]
  constructor
  case le => exact hj
  case nbytes =>
    unfold RingWriter.move
    dsimp only
    rw [h.nbytes, Nat.cast_add]
  case moved =>
    unfold RingWriter.move
    dsimp only
    rw [htake, h.moved, happend]
  case rest =>
    unfold RingWriter.move
    dsimp only
    rw [h.rest, Int.toNat_natCast, List.drop_drop]
  case head => rfl
  case holds =>
    intro first hfirst hbefore
    dsimp only
    rw [hstored, ← happend, ← List.append_assoc]
    have hheld := h.holds first (by omega) hbefore
    have hnow := @Ring.Holds.store _ sz writer.buffer (written ++ bytes.take k)
      ((bytes.drop k).take j) first (by rw [hsofar]; exact hheld)
      (by rw [hsofar, hlength]; exact hrun) (by rw [hsofar, hlength]; omega)
    have hcount : ((written ++ bytes.take k) ++ (bytes.drop k).take j).length =
        written.length + (k + j) := by
      rw [List.length_append, hsofar, hlength, Nat.add_assoc]
    rw [hcount] at hnow
    exact hnow
  case outside =>
    intro i hi
    dsimp only
    rw [← h.outside i hi, hstored]
    apply Segment.combineAt_of_outside
    rw [hsofar, hlength]
    omega

theorem RingWriter.Progress.length_rest
    {buffer : Mem} {written bytes : List UInt8} {writer : RingWriter} {k : ℕ}
    (h : writer.Progress sz buffer written bytes k) :
    (writer.rest.length : ℤ) = ((bytes.length - k : ℕ) : ℤ) := by
  rw [h.rest, List.length_drop]

def spaceToEnd (sz head tail : ℕ) : ℕ :=
  if tail ≤ head then (if tail = 0 then sz - head - 1 else sz - head) else 0

def spaceToTail (head tail : ℕ) : ℕ :=
  if head < tail then tail - head - 1 else 0

theorem RingWriter.Progress.writeToEnd
    {buffer : Mem} {written bytes : List UInt8} {writer : RingWriter} {k : ℕ}
    (h : writer.Progress sz buffer written bytes k) (hsz : 0 < sz) (tail : ℕ) :
    (writer.writeToEnd sz tail).Progress sz buffer written bytes
      (k + min (spaceToEnd sz ((written.length + k) % sz) tail) (bytes.length - k)) := by
  have hlt := Nat.mod_lt (written.length + k) hsz
  unfold RingWriter.writeToEnd spaceToEnd
  rw [h.head, h.length_rest]
  generalize hspace : (if tail = 0 then sz - (written.length + k) % sz - 1
    else sz - (written.length + k) % sz) = space
  have hcast : (if (tail : ℤ) = 0 then (sz : ℤ) - (((written.length + k) % sz : ℕ) : ℤ) - 1
      else (sz : ℤ) - (((written.length + k) % sz : ℕ) : ℤ)) = (space : ℤ) := by
    rw [← hspace]
    split_ifs <;> omega
  have hfits : space ≤ sz - (written.length + k) % sz := by
    rw [← hspace]
    split_ifs <;> omega
  by_cases horder : tail ≤ (written.length + k) % sz
  · rw [if_pos (by exact_mod_cast horder), if_pos horder]
    dsimp only
    rw [hcast]
    have hmin : min (space : ℤ) ((bytes.length - k : ℕ) : ℤ) =
        ((min space (bytes.length - k) : ℕ) : ℤ) := by
      omega
    rw [hmin]
    by_cases hpos : 0 < min space (bytes.length - k)
    · rw [if_pos (by exact_mod_cast hpos)]
      have hle := h.le
      have hmoved := h.move (show k + min space (bytes.length - k) ≤ bytes.length by omega)
        (by omega)
      have hhead : (if (sz : ℤ) ≤ (writer.move (min space (bytes.length - k) : ℕ)).head then 0
          else (writer.move (min space (bytes.length - k) : ℕ)).head) =
          (((written.length + (k + min space (bytes.length - k))) % sz : ℕ) : ℤ) := by
        unfold RingWriter.move
        dsimp only
        rw [h.head, ← Nat.add_assoc]
        by_cases hwrap : sz ≤ (written.length + k) % sz + min space (bytes.length - k)
        · rw [if_pos (by exact_mod_cast hwrap), Ring.mod_add_of_wrap hwrap (by omega)]
          omega
        · have hnext := @Ring.mod_add_of_lt sz (written.length + k)
            (min space (bytes.length - k)) (by omega)
          rw [if_neg (by exact_mod_cast hwrap), hnext, Nat.cast_add]
      rw [hhead]
      exact hmoved
    · rw [if_neg (by exact_mod_cast hpos)]
      have hzero : min space (bytes.length - k) = 0 := by omega
      rw [hzero, Nat.add_zero]
      exact h
  · rw [if_neg (by exact_mod_cast horder), if_neg horder, Nat.zero_min, Nat.add_zero]
    exact h

theorem RingWriter.Progress.writeToTail
    {buffer : Mem} {written bytes : List UInt8} {writer : RingWriter} {k : ℕ}
    (h : writer.Progress sz buffer written bytes k) {tail : ℕ} (htail : tail < sz) :
    (writer.writeToTail tail).Progress sz buffer written bytes
      (k + min (spaceToTail ((written.length + k) % sz) tail) (bytes.length - k)) := by
  unfold RingWriter.writeToTail spaceToTail
  rw [h.head, h.length_rest]
  by_cases horder : (written.length + k) % sz < tail
  · rw [if_pos (by exact_mod_cast horder), if_pos horder]
    have hmin : min ((tail : ℤ) - (((written.length + k) % sz : ℕ) : ℤ) - 1)
        ((bytes.length - k : ℕ) : ℤ) =
        ((min (tail - (written.length + k) % sz - 1) (bytes.length - k) : ℕ) : ℤ) := by
      omega
    dsimp only
    rw [hmin]
    by_cases hpos : 0 < min (tail - (written.length + k) % sz - 1) (bytes.length - k)
    · rw [if_pos (by exact_mod_cast hpos)]
      have hle := h.le
      have hmoved := h.move (show k + min (tail - (written.length + k) % sz - 1)
        (bytes.length - k) ≤ bytes.length by omega) (by omega)
      have hhead : (writer.move (min (tail - (written.length + k) % sz - 1)
            (bytes.length - k) : ℕ)).head =
          (((written.length + (k + min (tail - (written.length + k) % sz - 1)
            (bytes.length - k))) % sz : ℕ) : ℤ) := by
        have hnext := @Ring.mod_add_of_lt sz (written.length + k)
          (min (tail - (written.length + k) % sz - 1) (bytes.length - k)) (by omega)
        unfold RingWriter.move
        dsimp only
        rw [h.head, ← Nat.add_assoc, hnext, Nat.cast_add]
      rw [← hhead] at hmoved
      exact hmoved
    · rw [if_neg (by exact_mod_cast hpos)]
      have hzero : min (tail - (written.length + k) % sz - 1) (bytes.length - k) = 0 := by
        omega
      rw [hzero, Nat.add_zero]
      exact h
  · rw [if_neg (by exact_mod_cast horder), if_neg horder, Nat.zero_min, Nat.add_zero]
    exact h

def writeCount (sz nBytes written tail : ℕ) : ℕ := min nBytes (tail + sz - 1 - written)

/-- `ioc_streamer_write_internal` with a tail which was published: it stores as
many bytes as fit behind the unread ones. -/
theorem streamerWriteInternal_progress
    (buffer : Mem) (written bytes : List UInt8) {tail : ℕ} (hsz : 0 < sz)
    (htail : tail ≤ written.length) (hspace : written.length < tail + sz) :
    (streamerWriteInternal buffer bytes sz ((written.length % sz : ℕ) : ℤ)
      ((tail % sz : ℕ) : ℤ)).Progress sz buffer written bytes
      (writeCount sz bytes.length written.length tail) := by
  have hstart := @RingWriter.progress_start sz buffer written bytes
  have hheadLt := Nat.mod_lt written.length hsz
  have htailLt := Nat.mod_lt tail hsz
  have hdone := (hstart.writeToEnd hsz (tail % sz)).writeToTail htailLt
  have hcount : ∀ k, k = 0 + min (spaceToEnd sz ((written.length + 0) % sz) (tail % sz))
        (bytes.length - 0) →
      k + min (spaceToTail ((written.length + k) % sz) (tail % sz)) (bytes.length - k) =
        writeCount sz bytes.length written.length tail := by
    intro k hk
    rw [Nat.zero_add, Nat.sub_zero, Nat.add_zero] at hk
    unfold writeCount
    by_cases horder : tail % sz ≤ written.length % sz
    · have hdistance := Ring.sub_of_mod_le hsz htail hspace horder
      unfold spaceToEnd at hk
      rw [if_pos horder] at hk
      by_cases hzero : tail % sz = 0
      · rw [if_pos hzero] at hk
        unfold spaceToTail
        rw [hzero, if_neg (Nat.not_lt_zero _)]
        omega
      · rw [if_neg hzero] at hk
        unfold spaceToTail
        by_cases hwrap : sz ≤ written.length % sz + k
        · rw [Ring.mod_add_of_wrap hwrap (by omega)]
          have hfirst : written.length % sz + k - sz = 0 := by omega
          rw [hfirst, if_pos (by omega)]
          omega
        · rw [Ring.mod_add_of_lt (by omega), if_neg (by omega)]
          omega
    · have hdistance := Ring.sub_of_lt_mod hsz htail hspace (Nat.lt_of_not_le horder)
      unfold spaceToEnd at hk
      rw [if_neg horder, Nat.zero_min] at hk
      subst hk
      unfold spaceToTail
      rw [Nat.add_zero, if_pos (Nat.lt_of_not_le horder)]
      omega
  rw [hcount _ rfl] at hdone
  exact hdone

/-! ## One read -/

/-- The `k` bytes which come next have been read. -/
structure RingReader.Progress
    (sz : ℕ) (written : List UInt8) (tail : ℕ) (n : ℤ) (reader : RingReader) (k : ℕ) :
    Prop where
  le : k ≤ n.toNat
  n : reader.n = n - k
  nbytes : reader.nbytes = k
  moved : reader.moved = (written.drop tail).take k
  ltail : reader.ltail = ((tail + k) % sz : ℕ)

theorem RingReader.progress_start (written : List UInt8) (tail : ℕ) (n : ℤ) :
    RingReader.Progress sz written tail n ⟨((tail % sz : ℕ) : ℤ), n, [], 0⟩ 0 where
  le := Nat.zero_le _
  n := (sub_zero n).symm
  nbytes := rfl
  moved := rfl
  ltail := rfl

section Reading

variable {view : Mem} {written : List UInt8} {tail head : ℕ} {n : ℤ} {reader : RingReader}
  {k : ℕ}

/-- Reading a run of bytes, with the tail where it belongs behind them. -/
theorem RingReader.Progress.move {j : ℕ}
    (h : reader.Progress sz written tail n k)
    (hview : Ring.Holds sz view written tail head) (hj : k + j ≤ n.toNat)
    (hhead : tail + (k + j) ≤ head) (hrun : (tail + k) % sz + j ≤ sz) :
    RingReader.Progress sz written tail n
      { reader.move view j with ltail := ((tail + (k + j)) % sz : ℕ) } (k + j) := by
  have hsegment := @Ring.Holds.segment _ sz view written (tail + k) head j
    (hview.mono (Nat.le_add_right _ _) (le_refl _)) hrun (by omega)
  unfold RingReader.move
  constructor
  case le => exact hj
  case n =>
    dsimp only
    rw [h.n, Nat.cast_add]
    omega
  case nbytes =>
    dsimp only
    rw [h.nbytes, Nat.cast_add]
  case moved =>
    dsimp only
    rw [h.moved, h.ltail, Int.toNat_natCast, hsegment, ← List.drop_drop]
    exact List.take_add.symm
  case ltail => rfl

/-- The bytes from a tail on to the end of the ring, when the head is before. -/
def bytesToEnd (sz head tail : ℕ) : ℕ :=
  if head < tail then sz - tail else 0

def bytesToHead (head tail : ℕ) : ℕ :=
  if tail < head then head - tail else 0

theorem RingReader.Progress.length_rest (h : reader.Progress sz written tail n k)
    (bound : ℕ) :
    0 < min (bound : ℤ) reader.n ↔ 0 < min bound (n.toNat - k) := by
  have hn := h.n
  omega

theorem RingReader.Progress.min_rest (h : reader.Progress sz written tail n k)
    {bound : ℕ} (hpos : 0 < min bound (n.toNat - k)) :
    min (bound : ℤ) reader.n = ((min bound (n.toNat - k) : ℕ) : ℤ) := by
  have hn := h.n
  have hle := h.le
  omega

theorem RingReader.Progress.readToEnd
    (h : reader.Progress sz written tail n k) (hsz : 0 < sz)
    (hview : Ring.Holds sz view written tail head) {index : ℕ}
    (hhead : tail + (k + bytesToEnd sz index ((tail + k) % sz)) ≤ head)
    {connected : Bool} {after : RingReader}
    (hread : reader.readToEnd view sz index connected = some after) :
    after.Progress sz written tail n
      (k + min (bytesToEnd sz index ((tail + k) % sz)) (n.toNat - k)) := by
  have hlt := Nat.mod_lt (tail + k) hsz
  unfold RingReader.readToEnd at hread
  unfold bytesToEnd at hhead ⊢
  rw [h.ltail] at hread
  by_cases horder : index < (tail + k) % sz
  · rw [if_pos (by exact_mod_cast horder)] at hread
    rw [if_pos horder] at hhead ⊢
    have hspace : (sz : ℤ) - (((tail + k) % sz : ℕ) : ℤ) = ((sz - (tail + k) % sz : ℕ) : ℤ) := by
      omega
    dsimp only at hread
    rw [hspace] at hread
    by_cases hpos : 0 < min (sz - (tail + k) % sz) (n.toNat - k)
    · rw [if_pos ((h.length_rest _).mpr hpos), h.min_rest hpos] at hread
      have hle := h.le
      have hmoved := h.move hview
        (show k + min (sz - (tail + k) % sz) (n.toNat - k) ≤ n.toNat by omega) (by omega)
        (by omega)
      cases connected with
      | false => cases hread
      | true =>
          obtain rfl := Option.some.inj hread
          have hwrapped : (if (sz : ℤ) ≤
                (reader.move view (min (sz - (tail + k) % sz) (n.toNat - k) : ℕ)).ltail then 0
              else (reader.move view (min (sz - (tail + k) % sz) (n.toNat - k) : ℕ)).ltail) =
              (((tail + (k + min (sz - (tail + k) % sz) (n.toNat - k))) % sz : ℕ) : ℤ) := by
            unfold RingReader.move
            dsimp only
            rw [h.ltail, ← Nat.add_assoc]
            by_cases hwrap : sz ≤ (tail + k) % sz + min (sz - (tail + k) % sz) (n.toNat - k)
            · rw [if_pos (by exact_mod_cast hwrap), Ring.mod_add_of_wrap hwrap (by omega)]
              omega
            · have hnext := @Ring.mod_add_of_lt sz (tail + k)
                (min (sz - (tail + k) % sz) (n.toNat - k)) (by omega)
              rw [if_neg (by exact_mod_cast hwrap), hnext, Nat.cast_add]
          rw [hwrapped]
          exact hmoved
    · rw [if_neg (fun hlt => hpos ((h.length_rest _).mp hlt))] at hread
      obtain rfl := Option.some.inj hread
      have hzero : min (sz - (tail + k) % sz) (n.toNat - k) = 0 := by omega
      rw [hzero, Nat.add_zero]
      exact h
  · rw [if_neg (by exact_mod_cast horder)] at hread
    obtain rfl := Option.some.inj hread
    rw [if_neg horder, Nat.zero_min, Nat.add_zero]
    exact h

theorem RingReader.Progress.readToHead
    (h : reader.Progress sz written tail n k)
    (hview : Ring.Holds sz view written tail head) {index : ℕ} (hindex : index < sz)
    (hhead : tail + (k + bytesToHead index ((tail + k) % sz)) ≤ head)
    {connected : Bool} {after : RingReader}
    (hread : reader.readToHead view index connected = some after) :
    after.Progress sz written tail n
      (k + min (bytesToHead index ((tail + k) % sz)) (n.toNat - k)) := by
  unfold RingReader.readToHead at hread
  unfold bytesToHead at hhead ⊢
  rw [h.ltail] at hread
  by_cases horder : (tail + k) % sz < index
  · rw [if_pos (by exact_mod_cast horder)] at hread
    rw [if_pos horder] at hhead ⊢
    have hspace : (index : ℤ) - (((tail + k) % sz : ℕ) : ℤ) =
        ((index - (tail + k) % sz : ℕ) : ℤ) := by
      omega
    dsimp only at hread
    rw [hspace] at hread
    by_cases hpos : 0 < min (index - (tail + k) % sz) (n.toNat - k)
    · rw [if_pos ((h.length_rest _).mpr hpos), h.min_rest hpos] at hread
      have hle := h.le
      have hmoved := h.move hview
        (show k + min (index - (tail + k) % sz) (n.toNat - k) ≤ n.toNat by omega) (by omega)
        (by omega)
      cases connected with
      | false => cases hread
      | true =>
          obtain rfl := Option.some.inj hread
          have hltail : (reader.move view (min (index - (tail + k) % sz) (n.toNat - k) : ℕ)).ltail =
              (((tail + (k + min (index - (tail + k) % sz) (n.toNat - k))) % sz : ℕ) : ℤ) := by
            have hnext := @Ring.mod_add_of_lt sz (tail + k)
              (min (index - (tail + k) % sz) (n.toNat - k)) (by omega)
            unfold RingReader.move
            dsimp only
            rw [h.ltail, ← Nat.add_assoc, hnext, Nat.cast_add]
          rw [← hltail] at hmoved
          exact hmoved
    · rw [if_neg (fun hlt => hpos ((h.length_rest _).mp hlt))] at hread
      obtain rfl := Option.some.inj hread
      have hzero : min (index - (tail + k) % sz) (n.toNat - k) = 0 := by omega
      rw [hzero, Nat.add_zero]
      exact h
  · rw [if_neg (by exact_mod_cast horder)] at hread
    obtain rfl := Option.some.inj hread
    rw [if_neg horder, Nat.zero_min, Nat.add_zero]
    exact h

def readCount (n : ℤ) (head tail : ℕ) : ℕ := min n.toNat (head - tail)

/-- `ioc_streamer_read_internal` with a head which was published: it reads as
many of the unread bytes as are asked for. -/
theorem streamerReadInternal_progress
    (hsz : 0 < sz) (hview : Ring.Holds sz view written tail head) (htail : tail ≤ head)
    (hspace : head < tail + sz) {connected : Bool × Bool} {after : RingReader}
    (hread : streamerReadInternal view sz n ((head % sz : ℕ) : ℤ) ((tail % sz : ℕ) : ℤ)
      connected = some after) :
    after.Progress sz written tail n (readCount n head tail) := by
  have hstart := @RingReader.progress_start sz written tail n
  have hheadLt := Nat.mod_lt head hsz
  have htailLt := Nat.mod_lt tail hsz
  unfold streamerReadInternal at hread
  rw [Option.bind_eq_bind, Option.bind_eq_some_iff] at hread
  obtain ⟨between, hend, hfinish⟩ := hread
  unfold readCount
  by_cases horder : tail % sz ≤ head % sz
  · have hdistance := Ring.sub_of_mod_le hsz htail hspace horder
    have hnone : bytesToEnd sz (head % sz) ((tail + 0) % sz) = 0 := by
      unfold bytesToEnd
      rw [if_neg (by rw [Nat.add_zero]; omega)]
    have hbetween := hstart.readToEnd hsz hview (by rw [hnone]; omega) hend
    rw [hnone, Nat.zero_min] at hbetween
    have hrest : bytesToHead (head % sz) ((tail + (0 + 0)) % sz) = head - tail := by
      unfold bytesToHead
      rw [Nat.add_zero]
      split_ifs <;> omega
    have hafter := hbetween.readToHead hview hheadLt (by rw [hrest]; omega) hfinish
    rw [hrest] at hafter
    have hcount : 0 + 0 + min (head - tail) (n.toNat - (0 + 0)) = min n.toNat (head - tail) := by
      omega
    rw [hcount] at hafter
    exact hafter
  · have hdistance := Ring.sub_of_lt_mod hsz htail hspace (Nat.lt_of_not_le horder)
    have hfirst : bytesToEnd sz (head % sz) ((tail + 0) % sz) = sz - tail % sz := by
      unfold bytesToEnd
      rw [Nat.add_zero, if_pos (Nat.lt_of_not_le horder)]
    have hbetween := hstart.readToEnd hsz hview (by rw [hfirst]; omega) hend
    rw [hfirst, Nat.zero_add, Nat.sub_zero] at hbetween
    generalize hk : min (sz - tail % sz) n.toNat = k at hbetween
    by_cases hwrap : sz ≤ tail % sz + k
    · have hindex := @Ring.mod_add_of_wrap sz tail k hwrap (by omega)
      have hrest : bytesToHead (head % sz) ((tail + k) % sz) = head % sz := by
        unfold bytesToHead
        rw [hindex]
        split_ifs <;> omega
      have hafter := hbetween.readToHead hview hheadLt (by rw [hrest]; omega) hfinish
      rw [hrest] at hafter
      have hcount : k + min (head % sz) (n.toNat - k) = min n.toNat (head - tail) := by omega
      rw [hcount] at hafter
      exact hafter
    · have hindex := @Ring.mod_add_of_lt sz tail k (by omega)
      have hrest : bytesToHead (head % sz) ((tail + k) % sz) = 0 := by
        unfold bytesToHead
        rw [hindex, if_neg (by omega)]
      have hafter := hbetween.readToHead hview hheadLt (by rw [hrest]; omega) hfinish
      rw [hrest, Nat.zero_min] at hafter
      have hcount : k + 0 = min n.toNat (head - tail) := by omega
      rw [hcount] at hafter
      exact hafter

end Reading

/-! ## Runs -/

/-- A published head, the buffer at that time and how much had been written. -/
structure PublishedHead where
  buffer : Mem
  head : ℤ
  count : ℕ

/-- A published tail, and how much had been read. -/
structure PublishedTail where
  tail : ℤ
  count : ℕ

/-- The ring buffer at both ends.  `seenHead` and `seenTail` tell how far each
end has seen what the other one published. -/
structure RingState where
  buffer : Mem
  head : ℤ
  heads : List PublishedHead
  seenTail : ℕ
  tail : ℤ
  tails : List PublishedTail
  seenHead : ℕ
  written : List UInt8
  read : List UInt8

/-- A view of the buffer which the reader can have with a published head: each
cell is as it was then or later. -/
def RingState.Views (sz : ℕ) (state : RingState) (j : ℕ) (view : Mem) : Prop :=
  ∀ i : ℕ, i < sz → ∃ k published, j ≤ k ∧ state.heads[k]? = some published ∧
    view i = published.buffer i

/-- A call of `ioc_streamer_write_internal`. -/
def RingState.write (sz : ℕ) (state : RingState) (bytes : List UInt8) (k : ℕ) (tail : ℤ) :
    RingState :=
  let writer := streamerWriteInternal state.buffer bytes sz state.head tail
  let written := state.written ++ writer.moved
  { state with
    buffer := writer.buffer
    head := writer.head
    heads :=
      if writer.nbytes ≠ 0 then
        state.heads ++ [⟨writer.buffer, writer.head, written.length⟩]
      else state.heads
    seenTail := k
    written := written }

/-- A call of `ioc_streamer_read_internal`. -/
def RingState.readFrom (sz : ℕ) (state : RingState) (n : ℤ) (peek : Bool)
    (connected : Bool × Bool) (j : ℕ) (head : ℤ) (view : Mem) : RingState :=
  match streamerReadInternal view sz n head state.tail connected with
  | none => { state with seenHead := j }
  | some reader =>
      if reader.nbytes ≠ 0 ∧ !peek then
        let read := state.read ++ reader.moved
        { state with
          seenHead := j
          tail := reader.ltail
          tails := state.tails ++ [⟨reader.ltail, read.length⟩]
          read := read }
      else { state with seenHead := j }

inductive RingStep (sz : ℕ) : RingState → RingState → Prop where
  | write (state : RingState) (bytes : List UInt8) (k : ℕ) (published : PublishedTail)
      (hseen : state.seenTail ≤ k) (htail : state.tails[k]? = some published) :
      RingStep sz state (state.write sz bytes k published.tail)
  | read (state : RingState) (n : ℤ) (peek : Bool) (connected : Bool × Bool) (j : ℕ)
      (published : PublishedHead) (view : Mem) (hseen : state.seenHead ≤ j)
      (hhead : state.heads[j]? = some published) (hview : state.Views sz j view) :
      RingStep sz state (state.readFrom sz n peek connected j published.head view)

def RingStart (state : RingState) : Prop :=
  ∃ buffer, state = ⟨buffer, 0, [⟨buffer, 0, 0⟩], 0, 0, [⟨0, 0⟩], 0, [], []⟩

/-- What holds between the calls: the indices are those of the counts, every
published buffer has the bytes of the last round, and the unread bytes are less
than a round. -/
structure RingState.Valid (sz : ℕ) (state : RingState) : Prop where
  head : state.head = ((state.written.length % sz : ℕ) : ℤ)
  tail : state.tail = ((state.read.length % sz : ℕ) : ℤ)
  holds : ∀ first, state.written.length ≤ first + sz →
    Ring.Holds sz state.buffer state.written first state.written.length
  published : ∀ published ∈ state.heads,
    published.head = ((published.count % sz : ℕ) : ℤ) ∧
      published.count ≤ state.written.length ∧
      ∀ first, published.count ≤ first + sz →
        Ring.Holds sz published.buffer state.written first published.count
  headsInOrder : state.heads.Pairwise fun a b => a.count ≤ b.count
  publishedTail : ∀ published ∈ state.tails,
    published.tail = ((published.count % sz : ℕ) : ℤ) ∧ published.count ≤ state.read.length
  tailsInOrder : state.tails.Pairwise fun a b => a.count ≤ b.count
  read : state.read = state.written.take state.read.length
  seenHead : ∃ published, state.heads[state.seenHead]? = some published ∧
    state.read.length ≤ published.count
  seenTail : ∃ published, state.tails[state.seenTail]? = some published ∧
    state.written.length < published.count + sz

theorem RingState.Valid.start {state : RingState} (hsz : 0 < sz) (h : RingStart state) :
    state.Valid sz := by
  obtain ⟨buffer, rfl⟩ := h
  have hzero : ((0 % sz : ℕ) : ℤ) = 0 := by rw [Nat.zero_mod]; rfl
  constructor
  case head => exact hzero.symm
  case tail => exact hzero.symm
  case holds => exact fun first _ a _ ha => absurd ha (Nat.not_lt_zero a)
  case published =>
    intro published hpublished
    obtain rfl := List.mem_singleton.mp hpublished
    exact ⟨hzero.symm, Nat.le_refl 0, fun first _ a _ ha => absurd ha (Nat.not_lt_zero a)⟩
  case headsInOrder => exact List.pairwise_singleton _ _
  case publishedTail =>
    intro published hpublished
    obtain rfl := List.mem_singleton.mp hpublished
    exact ⟨hzero.symm, Nat.le_refl 0⟩
  case tailsInOrder => exact List.pairwise_singleton _ _
  case read => rfl
  case seenHead => exact ⟨_, rfl, Nat.le_refl 0⟩
  case seenTail => exact ⟨_, rfl, by simpa using hsz⟩

section Valid

variable {state : RingState}

theorem RingState.Valid.length_read_le (h : state.Valid sz) :
    state.read.length ≤ state.written.length := by
  have hlength := congrArg List.length h.read
  rw [List.length_take] at hlength
  omega

/-- A tail which the writer sees leaves room for what it has written. -/
theorem RingState.Valid.seesTail (h : state.Valid sz) {k : ℕ} {published : PublishedTail}
    (hseen : state.seenTail ≤ k) (htail : state.tails[k]? = some published) :
    published.tail = ((published.count % sz : ℕ) : ℤ) ∧
      published.count ≤ state.read.length ∧
      state.written.length < published.count + sz := by
  obtain ⟨seen, hat, hroom⟩ := h.seenTail
  obtain ⟨hindex, hcount⟩ := h.publishedTail published (List.mem_of_getElem? htail)
  have horder := History.count_le_of_pairwise h.tailsInOrder hat htail hseen
  exact ⟨hindex, hcount, by omega⟩

theorem RingState.Valid.writer (h : state.Valid sz) (hsz : 0 < sz) (bytes : List UInt8)
    {k : ℕ} {published : PublishedTail} (hseen : state.seenTail ≤ k)
    (htail : state.tails[k]? = some published) :
    (streamerWriteInternal state.buffer bytes sz state.head published.tail).Progress sz
      state.buffer state.written bytes
      (writeCount sz bytes.length state.written.length published.count) := by
  obtain ⟨hindex, hcount, hroom⟩ := h.seesTail hseen htail
  have hle := h.length_read_le
  rw [h.head, hindex]
  exact streamerWriteInternal_progress state.buffer state.written bytes hsz (by omega) hroom

theorem RingState.Valid.write (h : state.Valid sz) (hsz : 0 < sz) (bytes : List UInt8)
    {k : ℕ} {published : PublishedTail} (hseen : state.seenTail ≤ k)
    (htail : state.tails[k]? = some published) :
    (state.write sz bytes k published.tail).Valid sz := by
  obtain ⟨-, -, hroom⟩ := h.seesTail hseen htail
  have hprogress := h.writer hsz bytes hseen htail
  have hread := h.length_read_le
  unfold RingState.write
  generalize hcount : writeCount sz bytes.length state.written.length published.count = count
    at hprogress
  generalize streamerWriteInternal state.buffer bytes sz state.head published.tail = writer
    at hprogress
  have hfits : state.written.length + count < published.count + sz := by
    unfold writeCount at hcount
    omega
  have hlength : (state.written ++ writer.moved).length = state.written.length + count := by
    rw [hprogress.moved, List.length_append, List.length_take, Nat.min_eq_left hprogress.le]
  have hholds : ∀ first, state.written.length + count ≤ first + sz →
      Ring.Holds sz writer.buffer (state.written ++ writer.moved) first
        (state.written.length + count) := by
    intro first hfirst
    rw [hprogress.moved]
    exact hprogress.holds first hfirst (h.holds first (by omega))
  have hold : ∀ published ∈ state.heads,
      published.head = ((published.count % sz : ℕ) : ℤ) ∧
        published.count ≤ (state.written ++ writer.moved).length ∧
        ∀ first, published.count ≤ first + sz →
          Ring.Holds sz published.buffer (state.written ++ writer.moved) first
            published.count := by
    intro published hpublished
    obtain ⟨hhead, hle, hheld⟩ := h.published published hpublished
    refine ⟨hhead, by omega, fun first hfirst => (hheld first hfirst).append _⟩
  constructor
  case head => rw [hlength]; exact hprogress.head
  case tail => exact h.tail
  case holds => rw [hlength]; exact hholds
  case published =>
    intro published hpublished
    dsimp only at hpublished
    split_ifs at hpublished
    · rcases List.mem_append.mp hpublished with hmem | hmem
      · exact hold published hmem
      · obtain rfl := List.mem_singleton.mp hmem
        dsimp only
        rw [hlength]
        exact ⟨hprogress.head, le_refl _, hholds⟩
    · exact hold published hpublished
  case headsInOrder =>
    dsimp only
    split_ifs
    · rw [List.pairwise_append]
      refine ⟨h.headsInOrder, List.pairwise_singleton _ _, ?_⟩
      intro earlier hearlier last hlast
      obtain rfl := List.mem_singleton.mp hlast
      exact (hold earlier hearlier).2.1
    · exact h.headsInOrder
  case publishedTail => exact h.publishedTail
  case tailsInOrder => exact h.tailsInOrder
  case read =>
    dsimp only
    rw [List.take_append_of_le_length hread]
    exact h.read
  case seenHead =>
    obtain ⟨seen, hat, hle⟩ := h.seenHead
    refine ⟨seen, ?_, hle⟩
    dsimp only
    split_ifs
    · exact History.getElem?_append_of_some hat
    · exact hat
  case seenTail =>
    refine ⟨published, htail, ?_⟩
    dsimp only
    omega

/-- What the reader sees of the buffer has the unread bytes up to the head. -/
theorem RingState.Valid.views (h : state.Valid sz) (hsz : 0 < sz) {j : ℕ}
    {published : PublishedHead} {view : Mem} (hhead : state.heads[j]? = some published)
    (hview : state.Views sz j view) :
    Ring.Holds sz view state.written state.read.length published.count := by
  intro a ha hlast
  obtain ⟨k, seen, hjk, hat, hcell⟩ := hview (a % sz) (Nat.mod_lt a hsz)
  obtain ⟨tail, htail, hroom⟩ := h.seenTail
  have htailCount := (h.publishedTail tail (List.mem_of_getElem? htail)).2
  have horder := History.count_le_of_pairwise h.headsInOrder hhead hat hjk
  obtain ⟨-, hle, hholds⟩ := h.published seen (List.mem_of_getElem? hat)
  rw [hcell]
  exact hholds a (by omega) a (le_refl a) (by omega)

theorem RingState.Valid.reader (h : state.Valid sz) (hsz : 0 < sz) {n : ℤ} {j : ℕ}
    {published : PublishedHead} {view : Mem} {connected : Bool × Bool} {reader : RingReader}
    (hseen : state.seenHead ≤ j) (hhead : state.heads[j]? = some published)
    (hview : state.Views sz j view)
    (hread : streamerReadInternal view sz n published.head state.tail connected =
      some reader) :
    reader.Progress sz state.written state.read.length n
        (readCount n published.count state.read.length) ∧
      state.read.length ≤ published.count := by
  obtain ⟨seen, hat, hle⟩ := h.seenHead
  have horder := History.count_le_of_pairwise h.headsInOrder hat hhead hseen
  obtain ⟨tail, htail, hroom⟩ := h.seenTail
  have htailCount := (h.publishedTail tail (List.mem_of_getElem? htail)).2
  obtain ⟨hindex, hcount, -⟩ := h.published published (List.mem_of_getElem? hhead)
  rw [hindex, h.tail] at hread
  refine ⟨?_, by omega⟩
  exact streamerReadInternal_progress hsz (h.views hsz hhead hview) (by omega) (by omega) hread

theorem RingState.Valid.seeHead (h : state.Valid sz) {j : ℕ} {published : PublishedHead}
    (hseen : state.seenHead ≤ j) (hhead : state.heads[j]? = some published) :
    RingState.Valid sz { state with seenHead := j } := by
  obtain ⟨seen, hat, hle⟩ := h.seenHead
  have horder := History.count_le_of_pairwise h.headsInOrder hat hhead hseen
  exact { h with seenHead := ⟨published, hhead, Nat.le_trans hle horder⟩ }

theorem RingState.Valid.readFrom (h : state.Valid sz) (hsz : 0 < sz) (n : ℤ) (peek : Bool)
    (connected : Bool × Bool) {j : ℕ} {published : PublishedHead} {view : Mem}
    (hseen : state.seenHead ≤ j) (hhead : state.heads[j]? = some published)
    (hview : state.Views sz j view) :
    (state.readFrom sz n peek connected j published.head view).Valid sz := by
  unfold RingState.readFrom
  cases hread : streamerReadInternal view sz n published.head state.tail connected with
  | none => exact h.seeHead hseen hhead
  | some reader =>
      obtain ⟨hprogress, hle⟩ := h.reader hsz hseen hhead hview hread
      generalize hcount : readCount n published.count state.read.length = count at hprogress
      have hfits : state.read.length + count ≤ published.count := by
        unfold readCount at hcount
        omega
      have hwritten := (h.published published (List.mem_of_getElem? hhead)).2.1
      have hlength : (state.read ++ reader.moved).length = state.read.length + count := by
        rw [hprogress.moved, List.length_append, List.length_take, List.length_drop]
        omega
      dsimp only
      split_ifs
      · constructor
        case head => exact h.head
        case tail => rw [hlength]; exact hprogress.ltail
        case holds => exact h.holds
        case published => exact h.published
        case headsInOrder => exact h.headsInOrder
        case publishedTail =>
          intro tail htail
          rcases List.mem_append.mp htail with hmem | hmem
          · obtain ⟨hindex, hbefore⟩ := h.publishedTail tail hmem
            exact ⟨hindex, by dsimp only; omega⟩
          · obtain rfl := List.mem_singleton.mp hmem
            dsimp only
            rw [hlength]
            exact ⟨hprogress.ltail, le_refl _⟩
        case tailsInOrder =>
          dsimp only
          rw [List.pairwise_append]
          refine ⟨h.tailsInOrder, List.pairwise_singleton _ _, ?_⟩
          intro earlier hearlier last hlast
          obtain rfl := List.mem_singleton.mp hlast
          have hbefore := (h.publishedTail earlier hearlier).2
          dsimp only
          omega
        case read =>
          dsimp only
          rw [hlength, List.take_add, ← h.read, hprogress.moved]
        case seenHead => exact ⟨published, hhead, by dsimp only; omega⟩
        case seenTail =>
          obtain ⟨seen, hat, hroom⟩ := h.seenTail
          exact ⟨seen, History.getElem?_append_of_some hat, hroom⟩
      · exact h.seeHead hseen hhead

theorem RingState.Valid.step (hsz : 0 < sz) {next : RingState} (h : state.Valid sz)
    (hstep : RingStep sz state next) : next.Valid sz := by
  cases hstep with
  | write bytes k published hseen htail => exact h.write hsz bytes hseen htail
  | read n peek connected j published view hseen hhead hview =>
      exact h.readFrom hsz n peek connected hseen hhead hview

end Valid

/-- The ring buffer is a queue of bytes: what was read is the beginning of what
was written, the unread bytes are in the ring, and the indices are of cells. -/
structure RingState.Fifo (sz : ℕ) (state : RingState) : Prop where
  readPrefix : state.read <+: state.written
  notOverwritten : Ring.Holds sz state.buffer state.written state.read.length
    state.written.length
  headBounds : 0 ≤ state.head ∧ state.head < sz
  tailBounds : 0 ≤ state.tail ∧ state.tail < sz
  publishedHeads : ∀ published ∈ state.heads, 0 ≤ published.head ∧ published.head < sz
  publishedTails : ∀ published ∈ state.tails, 0 ≤ published.tail ∧ published.tail < sz

/-- What a write reports is what it moved: as much of the bytes as the room
which the writer sees. -/
def RingState.WriteCounts (sz : ℕ) (state : RingState) : Prop :=
  ∀ bytes k published, state.seenTail ≤ k → state.tails[k]? = some published →
    let writer := streamerWriteInternal state.buffer bytes sz state.head published.tail
    writer.nbytes = writer.moved.length ∧ writer.moved <+: bytes ∧
      writer.nbytes = min (bytes.length : ℤ)
        (streamerTxAvailable sz state.head published.tail)

/-- What a read reports is what it moved: as many as asked for of the unread
bytes up to the head which the reader sees. -/
def RingState.ReadCounts (sz : ℕ) (state : RingState) : Prop :=
  ∀ n j published view connected reader, state.seenHead ≤ j →
    state.heads[j]? = some published → state.Views sz j view →
    streamerReadInternal view sz n published.head state.tail connected = some reader →
    reader.nbytes = reader.moved.length ∧
      reader.moved = (state.written.drop state.read.length).take
        (readCount n published.count state.read.length)

theorem index_bounds (hsz : 0 < sz) {index : ℤ} {count : ℕ}
    (hindex : index = ((count % sz : ℕ) : ℤ)) : 0 ≤ index ∧ index < sz := by
  have hlt := Nat.mod_lt count hsz
  omega

theorem RingState.Valid.fifo {state : RingState} (hsz : 0 < sz) (h : state.Valid sz) :
    state.Fifo sz := by
  obtain ⟨tail, htail, hroom⟩ := h.seenTail
  have htailCount := (h.publishedTail tail (List.mem_of_getElem? htail)).2
  constructor
  case readPrefix =>
    rw [h.read]
    exact List.take_prefix _ _
  case notOverwritten => exact h.holds _ (by omega)
  case headBounds => exact index_bounds hsz h.head
  case tailBounds => exact index_bounds hsz h.tail
  case publishedHeads =>
    intro published hpublished
    exact index_bounds hsz (h.published published hpublished).1
  case publishedTails =>
    intro published hpublished
    exact index_bounds hsz (h.publishedTail published hpublished).1

theorem streamerTxAvailable_eq (hsz : 0 < sz) {written tail : ℕ} (htail : tail ≤ written)
    (hroom : written < tail + sz) :
    streamerTxAvailable sz ((written % sz : ℕ) : ℤ) ((tail % sz : ℕ) : ℤ) =
      ((tail + sz - 1 - written : ℕ) : ℤ) := by
  have hlt := Nat.mod_lt tail hsz
  unfold streamerTxAvailable
  rw [if_neg (by omega)]
  by_cases horder : tail % sz ≤ written % sz
  · have hdistance := Ring.sub_of_mod_le hsz htail hroom horder
    rw [if_neg (by omega)]
    dsimp only
    omega
  · have hdistance := Ring.sub_of_lt_mod hsz htail hroom (Nat.lt_of_not_le horder)
    rw [if_pos (by omega)]
    dsimp only
    omega

theorem RingState.Valid.writeCounts {state : RingState} (hsz : 0 < sz) (h : state.Valid sz) :
    state.WriteCounts sz := by
  intro bytes k published hseen htail
  have hprogress := h.writer hsz bytes hseen htail
  obtain ⟨hindex, hcount, hroom⟩ := h.seesTail hseen htail
  have hread := h.length_read_le
  have havailable := @streamerTxAvailable_eq sz hsz state.written.length published.count
    (by omega) hroom
  dsimp only
  rw [hprogress.nbytes, hprogress.moved, h.head, hindex, havailable, List.length_take,
    Nat.min_eq_left hprogress.le]
  refine ⟨rfl, List.take_prefix _ _, ?_⟩
  unfold writeCount
  omega

theorem RingState.Valid.readCounts {state : RingState} (hsz : 0 < sz) (h : state.Valid sz) :
    state.ReadCounts sz := by
  intro n j published view connected reader hseen hhead hview hread
  obtain ⟨hprogress, hle⟩ := h.reader hsz hseen hhead hview hread
  have hwritten := (h.published published (List.mem_of_getElem? hhead)).2.1
  refine ⟨?_, hprogress.moved⟩
  rw [hprogress.nbytes, hprogress.moved, List.length_take, List.length_drop]
  unfold readCount
  omega

/-- In every run of a writer and a reader on one ring buffer, however late they
see each other's indices. -/
theorem streamer_ring_fifo (sz : ℕ) (hsz : 2 ≤ sz) (state : RingState)
    (hreachable : TransitionSystem.Reachable RingStart (RingStep sz) state) :
    state.Fifo sz ∧ state.WriteCounts sz ∧ state.ReadCounts sz := by
  have hpos : 0 < sz := Nat.lt_of_lt_of_le Nat.zero_lt_two hsz
  have hvalid : state.Valid sz :=
    TransitionSystem.Reachable.invariant (RingState.Valid sz)
      (fun _ hstart => RingState.Valid.start hpos hstart)
      (fun _ _ hs hstep => hs.step hpos hstep) hreachable
  exact ⟨hvalid.fifo hpos, hvalid.writeCounts hpos, hvalid.readCounts hpos⟩

inductive RingCall where
  | write (bytes : List UInt8) (k : ℕ)
  | read (n : ℤ) (j : ℕ)

def RingState.play (sz : ℕ) (state : RingState) : RingCall → Option RingState
  | .write bytes k => do
      let published ← state.tails[k]?
      if state.seenTail ≤ k then some (state.write sz bytes k published.tail) else none
  | .read n j => do
      let published ← state.heads[j]?
      if state.seenHead ≤ j then
        some (state.readFrom sz n false (true, true) j published.head published.buffer)
      else none

theorem RingState.play_step {state next : RingState} {call : RingCall}
    (h : state.play sz call = some next) : RingStep sz state next := by
  cases call with
  | write bytes k =>
      simp only [RingState.play, Option.bind_eq_bind, Option.bind_eq_some_iff] at h
      obtain ⟨published, htail, h⟩ := h
      split_ifs at h with hseen
      obtain rfl := Option.some.inj h
      exact .write state bytes k published hseen htail
  | read n j =>
      simp only [RingState.play, Option.bind_eq_bind, Option.bind_eq_some_iff] at h
      obtain ⟨published, hhead, h⟩ := h
      split_ifs at h with hseen
      obtain rfl := Option.some.inj h
      exact .read state n false (true, true) j published published.buffer hseen hhead
        fun _ _ => ⟨j, published, le_refl j, hhead, rfl⟩

def newRing : RingState := ⟨fun _ => 0, 0, [⟨fun _ => 0, 0, 0⟩], 0, 0, [⟨0, 0⟩], 0, [], []⟩

def goRound : List RingCall :=
  [.write [7, 8, 9, 10] 0, .read 2 1, .write [11, 12] 1, .read 5 1]

theorem streamer_ring_fifo_writtenRing :
    ∃ state : RingState, (state.Fifo 4 ∧ state.WriteCounts 4 ∧ state.ReadCounts 4) ∧
      state.written = [7, 8, 9, 11, 12] ∧ state.read = [7, 8, 9] ∧ state.head = 1 := by
  obtain ⟨state, hstate, hfacts⟩ : ∃ state, goRound.foldlM (RingState.play 4) newRing =
      some state ∧ state.written = [7, 8, 9, 11, 12] ∧ state.read = [7, 8, 9] ∧
        state.head = 1 := ⟨_, rfl, rfl, rfl, rfl⟩
  have hreachable : TransitionSystem.Reachable RingStart (RingStep 4) state :=
    .play (fun _ _ _ => RingState.play_step) (.start ⟨fun _ => 0, rfl⟩) hstate
  exact ⟨state, streamer_ring_fifo 4 (by decide) state hreachable, hfacts⟩

end Iocom
