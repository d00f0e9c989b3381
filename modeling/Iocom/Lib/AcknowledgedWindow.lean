import Iocom.Lib.TransitionSystem
import Mathlib.Data.List.Induction
import Mathlib.Data.Nat.Basic
import Mathlib.Order.Basic

/-!
# Windows with owed acknowledgements

Two sides send each other data and acknowledgements over lines which keep the
order of bytes.  A side owes an acknowledgement once it has received a given
number of bytes past the last one it sent, and sends data only when it owes
none; data stays in a window after what the other side has acknowledged.
Acknowledgements have a window of their own, which reserves room for an amount
of owed bytes and five acknowledgements.

The state of a side is the history of what it has sent and how many bytes of
the other history it has received; the rest is read off these.
-/

namespace AcknowledgedWindow

/-- Data or an acknowledgement, and how many bytes the sender had received when
it was sent: an acknowledgement tells just this number. -/
structure Item where
  isAck : Bool
  size : ℕ
  stamp : ℕ

def total : List Item → ℕ
  | [] => 0
  | item :: items => item.size + total items

@[simp] theorem total_append (items : List Item) (item : Item) :
    total (items ++ [item]) = total items + item.size := by
  induction items with
  | nil => simp [total]
  | cons first items ih =>
      simp only [List.cons_append, total, ih]
      omega

/-- What the last acknowledgement tells. -/
def lastAck (items : List Item) : ℕ :=
  items.foldl (fun told item => if item.isAck then item.stamp else told) 0

@[simp] theorem lastAck_append (items : List Item) (item : Item) :
    lastAck (items ++ [item]) =
      if item.isAck then item.stamp else lastAck items := by
  simp [lastAck]

theorem lastAck_le
    {items : List Item} {bound : ℕ} (h : ∀ item ∈ items, item.stamp ≤ bound) :
    lastAck items ≤ bound := by
  induction items using List.reverseRecOn with
  | nil => exact Nat.zero_le _
  | append_singleton items item ih =>
      rw [lastAck_append]
      split
      · exact h item (List.mem_append_right _ (List.mem_singleton_self _))
      · exact ih fun sent hmem => h sent (List.mem_append_left _ hmem)

/-- The items which are complete within the first `r` bytes. -/
def arrived : List Item → ℕ → List Item
  | [], _ => []
  | item :: items, r =>
      if item.size ≤ r then item :: arrived items (r - item.size) else []

theorem arrived_append (items : List Item) (item : Item) (r : ℕ) :
    arrived (items ++ [item]) r =
      if total items + item.size ≤ r then items ++ [item]
      else arrived items r := by
  induction items generalizing r with
  | nil => simp [arrived, total]
  | cons first items ih =>
      have htotal : total (first :: items) = first.size + total items := rfl
      simp only [List.cons_append, arrived, ih]
      by_cases hfirst : first.size ≤ r
      · rw [if_pos hfirst, if_pos hfirst]
        by_cases hall : total items + item.size ≤ r - first.size
        · rw [if_pos hall, if_pos (by omega)]
        · rw [if_neg hall, if_neg (by omega)]
      · rw [if_neg hfirst, if_neg hfirst, if_neg (by omega)]

/-- What the other side knows to be received, `r` bytes into the history. -/
def covered (items : List Item) (r : ℕ) : ℕ := lastAck (arrived items r)

@[simp] theorem covered_nil (r : ℕ) : covered [] r = 0 := rfl

theorem covered_append_of_lt
    {items : List Item} {item : Item} {r : ℕ} (h : r < total items + item.size) :
    covered (items ++ [item]) r = covered items r := by
  unfold covered
  rw [arrived_append, if_neg (by omega)]

theorem covered_append_of_le
    {items : List Item} {item : Item} {r : ℕ} (h : total items + item.size ≤ r) :
    covered (items ++ [item]) r = lastAck (items ++ [item]) := by
  unfold covered
  rw [arrived_append, if_pos h]

theorem covered_of_total_le
    {items : List Item} {r : ℕ} (h : total items ≤ r) :
    covered items r = lastAck items := by
  unfold covered
  congr 1
  induction items generalizing r with
  | nil => rfl
  | cons item items ih =>
      simp only [total] at h
      simp only [arrived]
      rw [if_pos (by omega), ih (by omega)]

theorem covered_between
    {before after : List Item} {item : Item} {r : ℕ} (hle : total before ≤ r)
    (hlt : r < total before + item.size) :
    covered (before ++ item :: after) r = lastAck before := by
  have harrived : arrived (before ++ item :: after) r = before := by
    induction before generalizing r with
    | nil =>
        simp only [total, List.nil_append, arrived] at hlt ⊢
        rw [if_neg (by omega)]
    | cons first before ih =>
        simp only [total, List.cons_append, arrived] at hle hlt ⊢
        rw [if_pos (by omega), ih (by omega) (by omega)]
  unfold covered
  rw [harrived]

theorem covered_end
    {before after : List Item} (hpos : ∀ item ∈ after, 0 < item.size) :
    covered (before ++ after) (total before) = lastAck before := by
  cases after with
  | nil =>
      rw [List.append_nil]
      exact covered_of_total_le le_rfl
  | cons item after =>
      have := hpos item (List.mem_cons_self ..)
      exact covered_between le_rfl (by omega)

/-- The numbers of the protocol: the window for data, the limit from which an
acknowledgement is owed, and the size of an acknowledgement. -/
structure Limits where
  window : ℕ
  limit : ℕ
  ackSize : ℕ
  ackSize_pos : 0 < ackSize
  ackSize_le_limit : ackSize ≤ limit
  ackSize_le_window : ackSize ≤ window

/-- A history which keeps the rules, against the history of the other side. -/
inductive History (P : Limits) (peer : List Item) : List Item → Prop
  | nil : History P peer []
  | ack {items : List Item} {stamp : ℕ} (h : History P peer items)
      (hdue : items = [] ∨ lastAck items + P.limit ≤ stamp) :
      History P peer (items ++ [⟨true, P.ackSize, stamp⟩])
  | data {items : List Item} {size stamp : ℕ} (h : History P peer items)
      (hsize : 0 < size) (hstarted : items ≠ [])
      (hquiet : stamp < lastAck items + P.limit)
      (hwindow : total items + size ≤ covered peer stamp + P.window) :
      History P peer (items ++ [⟨false, size, stamp⟩])

structure Side where
  items : List Item
  received : ℕ

structure Exchange where
  left : Side
  right : Side

/-- What one side can do. -/
inductive Move (P : Limits) (own peer : Side) : Side → Prop
  | ack
      (hdue : own.items = [] ∨ lastAck own.items + P.limit ≤ own.received) :
      Move P own peer
        { own with items := own.items ++ [⟨true, P.ackSize, own.received⟩] }
  | data (size : ℕ) (hsize : 0 < size) (hstarted : own.items ≠ [])
      (hquiet : own.received < lastAck own.items + P.limit)
      (hwindow : total own.items + size ≤
        covered peer.items own.received + P.window) :
      Move P own peer
        { own with items := own.items ++ [⟨false, size, own.received⟩] }
  | receive (n : ℕ) (hn : own.received + n ≤ total peer.items) :
      Move P own peer { own with received := own.received + n }

/-! ## The invariant -/

/-- What holds of one side. -/
structure Side.Valid (P : Limits) (own peer : Side) : Prop where
  history : History P peer.items own.items
  stamps : ∀ item ∈ own.items, item.stamp ≤ own.received
  received : own.received ≤ total peer.items

structure Exchange.Valid (P : Limits) (s : Exchange) : Prop where
  left : s.left.Valid P s.right
  right : s.right.Valid P s.left

variable {P : Limits}

/-- More items of the other side do not matter for what was sent before. -/
theorem History.extend
    {peer items : List Item} {item : Item}
    (h : History P peer items) (hsize : 0 < item.size)
    (hstamps : ∀ sent ∈ items, sent.stamp ≤ total peer) :
    History P (peer ++ [item]) items := by
  induction h with
  | nil => exact .nil
  | ack h hdue ih =>
      exact .ack (ih fun sent hmem => hstamps sent (List.mem_append_left _ hmem)) hdue
  | data h hpos hstarted hquiet hwindow ih =>
      have hstamp := hstamps _ (List.mem_append_right _ (List.mem_singleton_self _))
      refine .data (ih fun sent hmem => hstamps sent (List.mem_append_left _ hmem))
        hpos hstarted hquiet ?_
      rw [covered_append_of_lt (by dsimp only at hstamp; omega)]
      exact hwindow

theorem Side.Valid.move
    {own peer own' : Side} (h : own.Valid P peer) (hpeer : peer.Valid P own)
    (hmove : Move P own peer own') : own'.Valid P peer ∧ peer.Valid P own' := by
  have hstamps : ∀ (isAck : Bool) (size : ℕ),
      ∀ item ∈ own.items ++ [⟨isAck, size, own.received⟩],
        item.stamp ≤ own.received := by
    intro isAck size item hmem
    rcases List.mem_append.mp hmem with hmem | hmem
    · exact h.stamps item hmem
    · obtain rfl := List.mem_singleton.mp hmem
      exact le_rfl
  have hpeer' : ∀ item : Item, 0 < item.size →
      peer.Valid P { own with items := own.items ++ [item] } := by
    intro item hsize
    exact
      { history := hpeer.history.extend hsize fun sent hmem =>
          le_trans (hpeer.stamps sent hmem) hpeer.received
        stamps := hpeer.stamps
        received := by
          have := hpeer.received
          simp only [total_append]
          omega }
  cases hmove with
  | ack hdue =>
      exact ⟨⟨.ack h.history hdue, hstamps _ _, h.received⟩, hpeer' _ P.ackSize_pos⟩
  | data size hsize hstarted hquiet hwindow =>
      exact ⟨⟨.data h.history hsize hstarted hquiet hwindow, hstamps _ _, h.received⟩,
        hpeer' _ hsize⟩
  | receive n hn =>
      refine ⟨⟨h.history, fun item hmem => ?_, hn⟩,
        ⟨hpeer.history, hpeer.stamps, hpeer.received⟩⟩
      have := h.stamps item hmem
      dsimp only
      omega

/-! ## What a history tells -/

theorem History.covered_mono
    {peer items : List Item} (h : History P peer items) {r r' : ℕ} (hr : r ≤ r') :
    covered items r ≤ covered items r' := by
  have hlast : ∀ {items}, History P peer items → ∀ r,
      covered items r ≤ lastAck items := by
    intro items h
    induction h with
    | nil => exact fun r => le_rfl
    | @ack items stamp h hdue ih =>
        intro r
        have hle := ih r
        by_cases hall : total items + P.ackSize ≤ r
        · rw [covered_append_of_le hall]
        · rw [covered_append_of_lt (by dsimp only; omega), lastAck_append]
          dsimp only
          rw [if_pos rfl]
          rcases hdue with rfl | hdue
          · exact le_trans hle (Nat.zero_le _)
          · omega
    | @data items size stamp h hsize hstarted hquiet hwindow ih =>
        intro r
        by_cases hall : total items + size ≤ r
        · rw [covered_append_of_le hall]
        · rw [covered_append_of_lt (by dsimp only; omega), lastAck_append]
          exact ih r
  induction h with
  | nil => exact le_rfl
  | @ack items stamp h hdue ih =>
      by_cases hall : total items + P.ackSize ≤ r'
      · have hend : covered (items ++ [⟨true, P.ackSize, stamp⟩]) r' =
            lastAck (items ++ [⟨true, P.ackSize, stamp⟩]) :=
          covered_append_of_le hall
        rw [hend]
        exact hlast (.ack h hdue) r
      · rw [covered_append_of_lt (by dsimp only; omega),
          covered_append_of_lt (by dsimp only; omega)]
        exact ih
  | @data items size stamp h hsize hstarted hquiet hwindow ih =>
      by_cases hall : total items + size ≤ r'
      · have hend : covered (items ++ [⟨false, size, stamp⟩]) r' =
            lastAck (items ++ [⟨false, size, stamp⟩]) :=
          covered_append_of_le hall
        rw [hend]
        exact hlast (.data h hsize hstarted hquiet hwindow) r
      · rw [covered_append_of_lt (by dsimp only; omega),
          covered_append_of_lt (by dsimp only; omega)]
        exact ih

/-- The last data of a history ends at `z`, within its window, and was sent when
no acknowledgement was owed; only acknowledgements follow, each telling of at
least the limit more bytes. -/
structure LastData
    (P : Limits) (peer items : List Item) (bound z stamp : ℕ) : Prop where
  le : z ≤ total items
  stamp_le : stamp ≤ bound
  window : z ≤ covered peer stamp + P.window
  quiet : stamp < covered items z + P.limit
  acks : ∀ r, z ≤ r → r ≤ total items → ∃ n,
    total items ≤ r + P.ackSize * n ∧
      covered items r + P.limit * n ≤ lastAck items

theorem History.since_data
    {peer items : List Item} {bound : ℕ} (h : History P peer items)
    (hstamps : ∀ item ∈ items, item.stamp ≤ bound) :
    ∃ z stamp, LastData P peer items bound z stamp := by
  have hpos := P.ackSize_pos
  have hlimit := P.ackSize_le_limit
  induction h with
  | nil =>
      refine ⟨0, 0, le_rfl, Nat.zero_le _, Nat.zero_le _, by rw [covered_nil]; omega, ?_⟩
      intro r _ _
      exact ⟨0, Nat.zero_le _, le_rfl⟩
  | @ack items stamp h hdue ih =>
      have hstamp : stamp ≤ bound :=
        hstamps _ (List.mem_append_right _ (List.mem_singleton_self _))
      have hlast : lastAck (items ++ [⟨true, P.ackSize, stamp⟩]) = stamp := by
        rw [lastAck_append]
        rfl
      rcases hdue with rfl | hdue
      · -- The first acknowledgement takes the place of data.
        have hall : covered ([] ++ [⟨true, P.ackSize, stamp⟩]) P.ackSize = stamp := by
          rw [covered_append_of_le (by simp [total]), hlast]
        refine ⟨P.ackSize, stamp, by simp [total], hstamp,
          le_trans P.ackSize_le_window (Nat.le_add_left _ _), by rw [hall]; omega, ?_⟩
        intro r hr hr'
        simp only [total_append, total, Nat.zero_add] at hr'
        obtain rfl : r = P.ackSize := by omega
        exact ⟨0, by simp [total], by rw [hall, hlast]; omega⟩
      · obtain ⟨z, zstamp, hz, hbound, hwindow, hquiet, hafter⟩ :=
          ih fun item hmem => hstamps item (List.mem_append_left _ hmem)
        have hcovered : covered (items ++ [⟨true, P.ackSize, stamp⟩]) z =
            covered items z := covered_append_of_lt (by dsimp only; omega)
        refine ⟨z, zstamp, by rw [total_append]; omega, hbound, hwindow,
          by rw [hcovered]; exact hquiet, ?_⟩
        intro r hr hr'
        rw [total_append] at hr' ⊢
        dsimp only at hr' ⊢
        rw [hlast]
        by_cases hold : r ≤ total items
        · obtain ⟨n, hbytes, htold⟩ := hafter r hr hold
          refine ⟨n + 1, by rw [Nat.mul_succ]; omega, ?_⟩
          rw [covered_append_of_lt (by dsimp only; omega), Nat.mul_succ]
          omega
        by_cases hpart : r < total items + P.ackSize
        · refine ⟨1, by omega, ?_⟩
          rw [covered_append_of_lt hpart, covered_of_total_le (by omega)]
          omega
        · refine ⟨0, by omega, ?_⟩
          rw [covered_append_of_le (by dsimp only; omega), hlast]
          omega
  | @data items size stamp h hsize hstarted hquiet hwindow ih =>
      have hstamp : stamp ≤ bound :=
        hstamps _ (List.mem_append_right _ (List.mem_singleton_self _))
      have hlast : lastAck (items ++ [⟨false, size, stamp⟩]) = lastAck items := by
        rw [lastAck_append]
        rfl
      have hall : covered (items ++ [⟨false, size, stamp⟩]) (total items + size) =
          lastAck items := by
        rw [covered_append_of_le le_rfl, hlast]
      refine ⟨total items + size, stamp, by rw [total_append], hstamp, hwindow,
        by rw [hall]; exact hquiet, ?_⟩
      intro r hr hr'
      rw [total_append] at hr' ⊢
      obtain rfl : r = total items + size := by dsimp only at hr'; omega
      exact ⟨0, by dsimp only; omega, by rw [hall, hlast]; omega⟩

/-- The same up to a byte in the middle of a history: the data which the byte
belongs to or comes after, and the acknowledgements in between, of which the
last one may be there in part only. -/
theorem History.since_data_received
    {peer items : List Item} {bound r' : ℕ} (h : History P peer items)
    (hstamps : ∀ item ∈ items, item.stamp ≤ bound) (hr' : r' ≤ total items) :
    ∃ x stamp, x ≤ total items ∧ stamp ≤ bound ∧
      x ≤ covered peer stamp + P.window ∧ stamp < covered items x + P.limit ∧
      (r' ≤ x → covered items x ≤ covered items r') ∧
      ∀ r, x ≤ r → r ≤ r' → ∃ m,
        r' < r + P.ackSize * m + P.ackSize ∧
          covered items r + P.limit * m ≤ covered items r' := by
  have hpos := P.ackSize_pos
  have hlimit := P.ackSize_le_limit
  have hold : ∀ {items : List Item} {item : Item}, 0 < item.size →
      r' ≤ total items →
      (∃ x stamp, x ≤ total items ∧ stamp ≤ bound ∧
        x ≤ covered peer stamp + P.window ∧ stamp < covered items x + P.limit ∧
        (r' ≤ x → covered items x ≤ covered items r') ∧
        ∀ r, x ≤ r → r ≤ r' → ∃ m,
          r' < r + P.ackSize * m + P.ackSize ∧
            covered items r + P.limit * m ≤ covered items r') →
      ∃ x stamp, x ≤ total (items ++ [item]) ∧ stamp ≤ bound ∧
        x ≤ covered peer stamp + P.window ∧
        stamp < covered (items ++ [item]) x + P.limit ∧
        (r' ≤ x → covered (items ++ [item]) x ≤ covered (items ++ [item]) r') ∧
        ∀ r, x ≤ r → r ≤ r' → ∃ m,
          r' < r + P.ackSize * m + P.ackSize ∧
            covered (items ++ [item]) r + P.limit * m ≤
              covered (items ++ [item]) r' := by
    intro items item hsize hr' ⟨x, stamp, hx, hbound, hwindow, hquiet, hin, hafter⟩
    have hsame : ∀ r, r ≤ total items →
        covered (items ++ [item]) r = covered items r :=
      fun r hr => covered_append_of_lt (by omega)
    refine ⟨x, stamp, by rw [total_append]; omega, hbound, hwindow,
      by rw [hsame x hx]; exact hquiet,
      by rw [hsame x hx, hsame r' hr']; exact hin, fun r hxr hr => ?_⟩
    rw [hsame r (by omega), hsame r' hr']
    exact hafter r hxr hr
  induction h with
  | nil =>
      refine ⟨0, 0, le_rfl, Nat.zero_le _, Nat.zero_le _, by rw [covered_nil]; omega,
        fun _ => le_rfl, fun r _ _ => ⟨0, ?_, le_rfl⟩⟩
      simp only [total] at hr'
      omega
  | @ack items stamp h hdue ih =>
      by_cases hin : r' ≤ total items
      · exact hold hpos hin
          (ih (fun item hmem => hstamps item (List.mem_append_left _ hmem)) hin)
      rw [total_append] at hr'
      dsimp only at hr'
      have hlast : lastAck (items ++ [⟨true, P.ackSize, stamp⟩]) = stamp := by
        rw [lastAck_append]
        rfl
      rcases Nat.lt_or_ge r' (total items + P.ackSize) with hpart | hwhole
      · -- The acknowledgement has been received in part.
        have hsame : ∀ r, r ≤ r' → covered (items ++ [⟨true, P.ackSize, stamp⟩]) r =
            covered items r := fun r hr => covered_append_of_lt (by dsimp only; omega)
        have hr'' : covered items r' = lastAck items :=
          covered_of_total_le (by omega)
        obtain ⟨z, zstamp, hz, hbound, hwindow, hquiet, hafter⟩ := h.since_data
          fun item hmem => hstamps item (List.mem_append_left _ hmem)
        refine ⟨z, zstamp, by rw [total_append]; omega, hbound, hwindow,
          by rw [hsame z (by omega)]; exact hquiet, fun hle => absurd hle (by omega),
          fun r hzr hr => ?_⟩
        rw [hsame r hr, hsame r' le_rfl, hr'']
        by_cases hbefore : r ≤ total items
        · obtain ⟨n, hbytes, htold⟩ := hafter r hzr hbefore
          exact ⟨n, by omega, htold⟩
        · refine ⟨0, by omega, ?_⟩
          rw [covered_of_total_le (by omega)]
          omega
      · -- It has just been received.
        obtain rfl : r' = total items + P.ackSize := by omega
        have hend : total (items ++ [⟨true, P.ackSize, stamp⟩]) =
            total items + P.ackSize := by rw [total_append]
        have hcovered : covered (items ++ [⟨true, P.ackSize, stamp⟩])
            (total items + P.ackSize) =
              lastAck (items ++ [⟨true, P.ackSize, stamp⟩]) :=
          covered_append_of_le le_rfl
        obtain ⟨z, zstamp, hz, hbound, hwindow, hquiet, hafter⟩ :=
          (History.ack h hdue).since_data hstamps
        rw [hend] at hz hafter
        refine ⟨z, zstamp, by rw [hend]; exact hz, hbound, hwindow, hquiet,
          fun hle => ?_, fun r hzr hr => ?_⟩
        · rw [show z = total items + P.ackSize by omega]
        · rw [hcovered]
          obtain ⟨n, hbytes, htold⟩ := hafter r hzr hr
          exact ⟨n, by omega, htold⟩
  | @data items size stamp h hsize hstarted hquiet hwindow ih =>
      by_cases hin : r' ≤ total items
      · exact hold hsize hin
          (ih (fun item hmem => hstamps item (List.mem_append_left _ hmem)) hin)
      rw [total_append] at hr'
      dsimp only at hr'
      have hcovered : ∀ r, total items ≤ r → r ≤ total items + size →
          covered (items ++ [⟨false, size, stamp⟩]) r = lastAck items := by
        intro r hr hr'
        by_cases hall : total items + size ≤ r
        · rw [covered_append_of_le hall, lastAck_append]
          rfl
        · rw [covered_append_of_lt (by dsimp only; omega), covered_of_total_le hr]
      refine ⟨total items + size, stamp, by rw [total_append],
        hstamps _ (List.mem_append_right _ (List.mem_singleton_self _)), hwindow,
        by rw [hcovered _ (by omega) le_rfl]; exact hquiet, fun _ => ?_,
        fun r hxr hr => ?_⟩
      · rw [hcovered _ (by omega) le_rfl, hcovered _ (by omega) hr']
      · obtain rfl : r = r' := by omega
        exact ⟨0, by omega, by omega⟩

/-! ## Room for acknowledgements -/

/-- A side which owes an acknowledgement has room for it beside the owed amount
and four more, if the window is not too large. -/
theorem Side.Valid.owed_fits
    {own peer : Side} (hown : own.Valid P peer) (hpeer : peer.Valid P own)
    (hroom : P.window + P.ackSize ≤ P.limit * (P.limit / P.ackSize + 6))
    (howed : lastAck own.items + P.limit ≤ own.received) :
    total own.items ≤ covered peer.items own.received + P.window + P.limit +
      4 * P.ackSize := by
  have hpos := P.ackSize_pos
  have hlimit := P.ackSize_le_limit
  obtain ⟨z, zstamp, hz, hzbound, hzwindow, hzquiet, hacks⟩ :=
    hown.history.since_data hown.stamps
  obtain ⟨x, xstamp, hx, hxbound, hxwindow, hxquiet, hxin, htold⟩ :=
    hpeer.history.since_data_received hpeer.stamps hown.received
  have hxstamp : xstamp ≤ total own.items := le_trans hxbound hpeer.received
  by_contra hblocked
  rcases Nat.lt_or_ge x zstamp with hlate | hearly
  · -- Only acknowledgements have been received since the last data was sent.
    obtain ⟨m, hbytes, hm⟩ := htold zstamp hlate.le hzbound
    obtain ⟨n, hsent, hn⟩ := hacks z le_rfl hz
    have hnL : P.ackSize * n ≤ P.limit * n := Nat.mul_le_mul_right n hlimit
    have hmL : P.ackSize * m ≤ P.limit * m := Nat.mul_le_mul_right m hlimit
    omega
  · -- The data of the other side was sent before it knew of the window.
    obtain ⟨m, hbytes, hm⟩ : ∃ m,
        own.received < x + P.ackSize * m + P.ackSize ∧
          covered peer.items x + P.limit * m ≤
            covered peer.items own.received := by
      rcases Nat.le_total own.received x with hin | hafter
      · exact ⟨0, by omega, by have := hxin hin; omega⟩
      · exact htold x le_rfl hafter
    have hstamps : covered peer.items zstamp ≤ covered peer.items x :=
      hpeer.history.covered_mono hearly
    obtain ⟨n, hsent, hn⟩ :=
      hacks (max xstamp z) (le_max_right _ _) (max_le hxstamp hz)
    have hknown : covered own.items xstamp ≤ covered own.items (max xstamp z) :=
      hown.history.covered_mono (le_max_left _ _)
    have hnL : P.ackSize * n ≤ P.limit * n := Nat.mul_le_mul_right n hlimit
    have hmL : P.ackSize * m ≤ P.limit * m := Nat.mul_le_mul_right m hlimit
    rcases Nat.le_total z xstamp with hcase | hcase
    · rw [max_eq_left hcase] at hsent hn hknown
      omega
    · rw [max_eq_right hcase] at hsent hn hknown
      -- More acknowledgements than the reserved ones were sent meanwhile.
      have hmany : m + (P.limit / P.ackSize + 5) ≤ n := by
        by_contra hfew
        have hmul : P.ackSize * n ≤ P.ackSize * (m + (P.limit / P.ackSize + 4)) :=
          Nat.mul_le_mul_left _ (by omega)
        have hdiv : P.ackSize * (P.limit / P.ackSize) ≤ P.limit :=
          Nat.mul_div_le _ _
        rw [Nat.mul_add, Nat.mul_add] at hmul
        omega
      have hmul : P.limit * (m + (P.limit / P.ackSize + 5)) ≤ P.limit * n :=
        Nat.mul_le_mul_left _ hmany
      have hsix : P.limit * (P.limit / P.ackSize + 6) =
          P.limit * (P.limit / P.ackSize + 5) + P.limit := by
        rw [← Nat.mul_succ]
      rw [Nat.mul_add] at hmul
      omega

/-- A side which has received everything and used up what is reserved for
acknowledgements sent its last data before it received the last data of the
other side: what it was told since then opened its window. -/
theorem Side.Valid.told_of_full
    {own peer : Side} (hown : own.Valid P peer) (hpeer : peer.Valid P own)
    (hall : own.received = total peer.items)
    (hfull : covered peer.items own.received + P.window + P.limit +
      4 * P.ackSize < total own.items)
    {y ystamp z zstamp : ℕ}
    (hy : LastData P peer.items own.items own.received y ystamp)
    (hz : LastData P own.items peer.items peer.received z zstamp) :
    ∃ m, total peer.items ≤ z + P.ackSize * m ∧
      y + P.limit * m ≤ lastAck peer.items + P.window := by
  have hlimit := P.ackSize_le_limit
  have hwindow := hy.window
  have hlast : covered peer.items own.received = lastAck peer.items :=
    covered_of_total_le hall.ge
  rw [hlast] at hfull
  rcases Nat.lt_or_ge z ystamp with hlate | hearly
  · exfalso
    have hstamp := hy.stamp_le
    have hquiet := hy.quiet
    obtain ⟨m, hbytes, hm⟩ := hz.acks ystamp hlate.le (by omega)
    obtain ⟨n, hsent, hn⟩ := hy.acks y le_rfl hy.le
    have hle := lastAck_le hown.stamps
    have hnL : P.ackSize * n ≤ P.limit * n := Nat.mul_le_mul_right n hlimit
    have hmL : P.ackSize * m ≤ P.limit * m := Nat.mul_le_mul_right m hlimit
    omega
  · obtain ⟨m, hbytes, hm⟩ := hz.acks z le_rfl hz.le
    have hmono : covered peer.items ystamp ≤ covered peer.items z :=
      hpeer.history.covered_mono hearly
    exact ⟨m, hbytes, by omega⟩

/-- Once everything has been received on both sides, not both of them can have
used up what is reserved for acknowledgements. -/
theorem Exchange.Valid.not_both_full
    {s : Exchange} (h : s.Valid P)
    (hleft : s.left.received = total s.right.items)
    (hright : s.right.received = total s.left.items) :
    total s.left.items ≤ covered s.right.items s.left.received + P.window +
        P.limit + 4 * P.ackSize ∨
      total s.right.items ≤ covered s.left.items s.right.received + P.window +
        P.limit + 4 * P.ackSize := by
  have hlimit := P.ackSize_le_limit
  by_contra hfull
  rw [not_or, not_le, not_le] at hfull
  obtain ⟨hfullLeft, hfullRight⟩ := hfull
  obtain ⟨y, ystamp, hy⟩ := h.left.history.since_data h.left.stamps
  obtain ⟨z, zstamp, hz⟩ := h.right.history.since_data h.right.stamps
  obtain ⟨m, hm, hleftWindow⟩ :=
    h.left.told_of_full h.right hleft hfullLeft hy hz
  obtain ⟨n, hn, hrightWindow⟩ :=
    h.right.told_of_full h.left hright hfullRight hz hy
  have hlastLeft : covered s.right.items s.left.received = lastAck s.right.items :=
    covered_of_total_le hleft.ge
  have hlastRight : covered s.left.items s.right.received = lastAck s.left.items :=
    covered_of_total_le hright.ge
  -- Each side would have sent more acknowledgements than the other.
  have hnL : P.ackSize * n ≤ P.limit * n := Nat.mul_le_mul_right n hlimit
  have hmL : P.ackSize * m ≤ P.limit * m := Nat.mul_le_mul_right m hlimit
  omega

end AcknowledgedWindow
