import Iocom.Lighthouse

/-!
# The texts of a lighthouse

Numbers come back from their digits.  The texts which the client takes for an item are
those with marks, a protocol and a network name, separated by colons.
-/

namespace Iocom

open Separated

/-! ## Strings -/

theorem osStrncpy_of_fits {src : List Char} {sz : ℕ} (h : src.length < sz) :
    osStrncpy src sz = src :=
  List.take_of_length_le (by omega)

theorem osStrncat_of_fits {dst src : List Char} {sz : ℕ} (h : dst.length + src.length < sz) :
    osStrncat dst src sz = dst ++ src := by
  unfold osStrncat
  rw [List.take_of_length_le (by omega)]

theorem osStrncat_eq_take {dst src : List Char} {sz : ℕ} (h : dst.length ≤ sz - 1) :
    osStrncat dst src sz = (dst ++ src).take (sz - 1) := by
  unfold osStrncat
  rw [List.take_append, List.take_of_length_le h]

/-! ## Numbers -/

theorem digitChar_spec {d : ℕ} (hd : d < 10) :
    (Char.ofNat (0x30 + d)).isDigit = true ∧ (Char.ofNat (0x30 + d)).toNat - 0x30 = d := by
  have hcases : d = 0 ∨ d = 1 ∨ d = 2 ∨ d = 3 ∨ d = 4 ∨ d = 5 ∨ d = 6 ∨ d = 7 ∨ d = 8 ∨
      d = 9 := by omega
  rcases hcases with rfl | rfl | rfl | rfl | rfl | rfl | rfl | rfl | rfl | rfl <;> decide

theorem osalIntToStr_isDigit (n : ℕ) : ∀ c ∈ osalIntToStr n, c.isDigit = true := by
  unfold osalIntToStr
  split_ifs with hzero
  · intro c hc
    rw [List.mem_singleton] at hc
    rw [hc]
    decide
  · intro c hc
    obtain ⟨d, hd, rfl⟩ := List.mem_map.mp hc
    exact (digitChar_spec (Nat.digits_lt_base (by decide) (List.mem_reverse.mp hd))).1

theorem foldl_digits (ds : List ℕ) (hds : ∀ d ∈ ds, d < 10) :
    (ds.reverse.map fun d => Char.ofNat (0x30 + d)).foldl
      (fun x c => 10 * x + (c.toNat - 0x30)) 0 = Nat.ofDigits 10 ds := by
  induction ds with
  | nil => rfl
  | cons d ds ih =>
      have hd := (digitChar_spec (hds d List.mem_cons_self)).2
      rw [List.reverse_cons, List.map_append, List.foldl_append,
        ih fun d' hd' => hds d' (List.mem_cons_of_mem _ hd'), Nat.ofDigits_cons, List.map_cons,
        List.map_nil, List.foldl_cons, List.foldl_nil, hd, Nat.add_comm]

theorem osalStrToInt_osalIntToStr (n : ℕ) : osalStrToInt (osalIntToStr n) = n := by
  unfold osalStrToInt osalIntToStr
  split_ifs with hzero
  · rw [hzero]
    rfl
  · rw [foldl_digits _ fun d hd => Nat.digits_lt_base (by decide) hd, Nat.ofDigits_digits]

theorem osalIntToStr_length_le {n : ℕ} (h : n ≤ 65535) : (osalIntToStr n).length ≤ 5 := by
  unfold osalIntToStr
  split_ifs with hzero
  · decide
  · rw [List.length_map, List.length_reverse]
    exact (Nat.digits_length_le_iff (by decide) n).mpr (by omega)

/-! ## Ports -/

/-- The port after a mark, the default if it is missing or zero. -/
def portOr (digits : List Char) (default : ℕ) : ℕ :=
  if osalStrToInt digits % 0x10000 ≠ 0 then osalStrToInt digits % 0x10000 else default

/-- Marks with the digits after them, and the ports before and after they are read. -/
inductive PortMarks (tlsDefault tcpDefault : ℕ) : List Char → ℕ × ℕ → ℕ × ℕ → Prop
  | done (ports : ℕ × ℕ) : PortMarks tlsDefault tcpDefault [] ports ports
  | tls {mark : Char} {digits rest : List Char} {ports result : ℕ × ℕ} :
      mark = 'T' ∨ mark = 't' → (∀ c ∈ digits, c.isDigit = true) →
      (∀ c ∈ rest.head?, c.isDigit = false) →
      PortMarks tlsDefault tcpDefault rest (portOr digits tlsDefault, ports.2) result →
      PortMarks tlsDefault tcpDefault (mark :: (digits ++ rest)) ports result
  | tcp {mark : Char} {digits rest : List Char} {ports result : ℕ × ℕ} :
      mark = 'S' ∨ mark = 's' → (∀ c ∈ digits, c.isDigit = true) →
      (∀ c ∈ rest.head?, c.isDigit = false) →
      PortMarks tlsDefault tcpDefault rest (ports.1, portOr digits tcpDefault) result →
      PortMarks tlsDefault tcpDefault (mark :: (digits ++ rest)) ports result

variable {tlsDefault tcpDefault : ℕ}

theorem readMarks_cons (fuel : ℕ) (mark : Char) (q : List Char) (ports : ℕ × ℕ) :
    readMarks tlsDefault tcpDefault (fuel + 1) (mark :: q) ports =
      if mark = 'T' ∨ mark = 't' then
        readMarks tlsDefault tcpDefault fuel (q.dropWhile Char.isDigit)
          (portOr (q.takeWhile Char.isDigit) tlsDefault, ports.2)
      else if mark = 'S' ∨ mark = 's' then
        readMarks tlsDefault tcpDefault fuel (q.dropWhile Char.isDigit)
          (ports.1, portOr (q.takeWhile Char.isDigit) tcpDefault)
      else none :=
  rfl

theorem PortMarks.readMarks_eq {marks : List Char} {ports result : ℕ × ℕ}
    (h : PortMarks tlsDefault tcpDefault marks ports result) {fuel : ℕ}
    (hfuel : marks.length ≤ fuel) :
    readMarks tlsDefault tcpDefault fuel marks ports = some result := by
  induction h generalizing fuel with
  | done ports => rw [readMarks]
  | @tls mark digits rest ports result hmark hdigits hrest _ ih =>
      obtain ⟨more, rfl⟩ : ∃ more, fuel = more + 1 :=
        ⟨fuel - 1, by rw [List.length_cons] at hfuel; omega⟩
      rw [List.length_cons, List.length_append] at hfuel
      obtain ⟨htake, hdrop⟩ := takeWhile_dropWhile_append hdigits hrest
      rw [readMarks_cons, htake, hdrop, if_pos hmark]
      exact ih (by omega)
  | @tcp mark digits rest ports result hmark hdigits hrest _ ih =>
      obtain ⟨more, rfl⟩ : ∃ more, fuel = more + 1 :=
        ⟨fuel - 1, by rw [List.length_cons] at hfuel; omega⟩
      rw [List.length_cons, List.length_append] at hfuel
      obtain ⟨htake, hdrop⟩ := takeWhile_dropWhile_append hdigits hrest
      have hother : ¬ (mark = 'T' ∨ mark = 't') := by
        rcases hmark with rfl | rfl <;> decide
      rw [readMarks_cons, htake, hdrop, if_neg hother, if_pos hmark]
      exact ih (by omega)

theorem portMarks_of_readMarks {fuel : ℕ} {marks : List Char} {ports result : ℕ × ℕ}
    (h : readMarks tlsDefault tcpDefault fuel marks ports = some result) :
    PortMarks tlsDefault tcpDefault marks ports result := by
  induction fuel generalizing marks ports with
  | zero =>
      cases marks with
      | nil => exact Option.some.inj h ▸ .done ports
      | cons mark q => cases h
  | succ fuel ih =>
      cases marks with
      | nil => exact Option.some.inj h ▸ .done ports
      | cons mark q =>
          have hdigits : ∀ c ∈ q.takeWhile Char.isDigit, c.isDigit = true := fun c hc =>
            List.mem_takeWhile_imp hc
          have hrest : ∀ c ∈ (q.dropWhile Char.isDigit).head?, c.isDigit = false :=
            head_dropWhile
          rw [readMarks_cons] at h
          rw [← List.takeWhile_append_dropWhile (p := Char.isDigit) (l := q)]
          split_ifs at h with htls htcp
          · exact .tls htls hdigits hrest (ih h)
          · exact .tcp htcp hdigits hrest (ih h)

/-! ## Items -/

structure ItemText (tlsDefault tcpDefault : ℕ) (text : List Char) (r : LighthouseReport) :
    Prop where
  colons : ∃ marks rest,
    text = marks ++ ':' :: (r.protocol ++ ':' :: (r.networkName ++ rest)) ∧
      ':' ∉ marks ∧ (∀ c ∈ rest.head?, c = ':') ∧
      PortMarks tlsDefault tcpDefault marks (0, 0) (r.tlsPortNr, r.tcpPortNr)
  protocol_noColon : ':' ∉ r.protocol
  networkName_noColon : ':' ∉ r.networkName

theorem colon_notMem_takeWhile (text : List Char) : ':' ∉ text.takeWhile (· ≠ ':') := by
  intro hc
  have hne := List.mem_takeWhile_imp hc
  exact absurd rfl (of_decide_eq_true hne)

theorem colon_of_dropWhile {text rest : List Char} {colon : Char}
    (h : text.dropWhile (· ≠ ':') = colon :: rest) : colon = ':' := by
  have hhead : ∀ c ∈ (text.dropWhile (· ≠ ':')).head?, decide (c ≠ ':') = false :=
    head_dropWhile
  exact not_not.mp (of_decide_eq_false (hhead colon (by rw [h]; rfl)))

theorem LighthouseParams.parseNetworkItem_eq_some_iff (prm : LighthouseParams)
    {text : List Char} {r : LighthouseReport} :
    prm.parseNetworkItem tlsDefault tcpDefault text = some r ↔
      ItemText tlsDefault tcpDefault (text.take (prm.networkItemSz - 1)) r := by
  have hcopied : osStrncpy text
      (if prm.networkItemSz < text.length + 1 then prm.networkItemSz else text.length + 1) =
        text.take (prm.networkItemSz - 1) := by
    unfold osStrncpy
    split_ifs with h
    · rfl
    · rw [Nat.add_sub_cancel, List.take_length, List.take_of_length_le (by omega)]
  unfold LighthouseParams.parseNetworkItem
  rw [hcopied]
  generalize text.take (prm.networkItemSz - 1) = item
  dsimp only
  constructor
  · intro h
    cases hfirst : item.dropWhile (· ≠ ':') with
    | nil => simp only [hfirst] at h; cases h
    | cons colon protocol =>
        simp only [hfirst] at h
        cases hsecond : protocol.dropWhile (· ≠ ':') with
        | nil => simp only [hsecond] at h; cases h
        | cons colon' networkName =>
            simp only [hsecond] at h
            obtain ⟨ports, hports, rfl⟩ := Option.map_eq_some_iff.mp h
            have hcolon := colon_of_dropWhile hfirst
            have hcolon' := colon_of_dropWhile hsecond
            refine ⟨⟨item.takeWhile (· ≠ ':'), networkName.dropWhile (· ≠ ':'), ?_,
              colon_notMem_takeWhile _, ?_, portMarks_of_readMarks hports⟩,
              colon_notMem_takeWhile _, colon_notMem_takeWhile _⟩
            · calc item = item.takeWhile (· ≠ ':') ++ item.dropWhile (· ≠ ':') :=
                    List.takeWhile_append_dropWhile.symm
                _ = item.takeWhile (· ≠ ':') ++ ':' :: protocol := by rw [hfirst, hcolon]
                _ = item.takeWhile (· ≠ ':') ++ ':' :: (protocol.takeWhile (· ≠ ':') ++
                      protocol.dropWhile (· ≠ ':')) := by
                    rw [List.takeWhile_append_dropWhile]
                _ = _ := by
                    rw [hsecond, hcolon', List.takeWhile_append_dropWhile]
            · intro c hc
              exact not_not.mp (of_decide_eq_false (head_dropWhile c hc))
  · intro h
    obtain ⟨marks, rest, rfl, hmarks, hrest, hports⟩ := h.colons
    obtain ⟨htake, hdrop⟩ := before_sep_cons hmarks (r.protocol ++ ':' :: (r.networkName ++ rest))
    obtain ⟨hprotocol, hname⟩ := before_sep_cons h.protocol_noColon (r.networkName ++ rest)
    obtain ⟨hnameTake, _⟩ := before_sep h.networkName_noColon hrest
    simp only [hdrop, htake, hname, hprotocol, hnameTake,
      hports.readMarks_eq (Nat.le_refl _), Option.map_some]

end Iocom
