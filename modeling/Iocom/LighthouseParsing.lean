import Iocom.LighthousePacket
import Iocom.LighthouseRoundTrip

/-!
# Parsing inside of a packet

The pointers stay inside of the publish bytes if the text behind the nickname is
terminated there.  A nickname alone is not: the client goes on behind its terminating NUL
with what an earlier packet left in the buffer.
-/

namespace Iocom

open Separated TextWalk

namespace LighthouseMessage

variable {osChecksum : List UInt8 → UInt16} {earlier : LighthouseMessage} {packet : List UInt8}

def publishText (packet : List UInt8) : List Char :=
  let publish := ((packet.drop lighthouseHdrSz).take (publishSz packet)).map byteChar
  if publishSz packet < lighthousePublishSz - 1 then publish
  else publish.take (lighthousePublishSz - 1) ++ [nul]

def receivedBytes (earlier : LighthouseMessage) (packet : List UInt8) : List UInt8 :=
  terminate (receivePacket earlier packet).2

def Accepted (osChecksum : List UInt8 → UInt16) (earlier : LighthouseMessage)
    (packet : List UInt8) : Prop :=
  Valid osChecksum (receivePacket earlier packet).1 (receivedBytes earlier packet)

instance : Decidable (Accepted osChecksum earlier packet) := by
  unfold Accepted
  infer_instance

theorem byteAt_congr {a b : List UInt8} {n i : ℕ} (h : a.take n = b.take n) (hi : i < n) :
    byteAt a i = byteAt b i := by
  have ha : (a.take n)[i]? = a[i]? := List.getElem?_take_of_lt hi
  have hb : (b.take n)[i]? = b[i]? := List.getElem?_take_of_lt hi
  rw [byteAt, byteAt, List.getD_eq_getElem?_getD, List.getD_eq_getElem?_getD, ← ha, ← hb, h]

theorem receivedBytes_take {n : ℕ} (hreceived : n ≤ (receivePacket earlier packet).1)
    (hn : n < lighthouseHdrSz + lighthousePublishSz) :
    (receivedBytes earlier packet).take n = packet.take n := by
  unfold receivedBytes terminate receivePacket at *
  dsimp only at hreceived ⊢
  simp only [lighthouseHdrSz, lighthousePublishSz] at *
  rw [List.take_set_of_le (by omega), List.take_append_of_le_length hreceived, List.take_take,
    Nat.min_eq_left (by omega)]

theorem receivedBytes_length :
    (receivedBytes earlier packet).length = lighthouseHdrSz + lighthousePublishSz := by
  have hearlier := earlier.2
  simp only [receivedBytes, terminate, receivePacket, List.length_set, List.length_append,
    List.length_take, List.length_drop]
  omega

theorem receivedBytes_last :
    (receivedBytes earlier packet).drop (lighthouseHdrSz + (lighthousePublishSz - 1)) = [0] := by
  have hlength := @receivedBytes_length earlier packet
  unfold receivedBytes terminate at *
  rw [List.length_set] at hlength
  generalize (receivePacket earlier packet).2 = raw at *
  have hlast : (raw.drop (lighthouseHdrSz + (lighthousePublishSz - 1))).length = 1 := by
    rw [List.length_drop, hlength]
    rfl
  obtain ⟨b, hb⟩ := List.length_eq_one_iff.mp hlast
  rw [List.drop_set]
  simp [hb]

namespace Accepted

variable (h : Accepted osChecksum earlier packet)
include h

theorem hdrSz_le : lighthouseHdrSz ≤ (receivePacket earlier packet).1 := by
  have := h.2.2.2.2.1
  omega

theorem byteAt_eq {i : ℕ} (hi : i < lighthouseHdrSz) :
    byteAt (receivedBytes earlier packet) i = byteAt packet i :=
  byteAt_congr (receivedBytes_take h.hdrSz_le (by decide)) hi

theorem publishSz_eq : publishSz (receivedBytes earlier packet) = publishSz packet :=
  h.byteAt_eq (by decide)

theorem tlsPortNr_eq : tlsPortNr (receivedBytes earlier packet) = tlsPortNr packet := by
  rw [tlsPortNr, h.byteAt_eq (by decide), h.byteAt_eq (by decide), tlsPortNr]

theorem tcpPortNr_eq : tcpPortNr (receivedBytes earlier packet) = tcpPortNr packet := by
  rw [tcpPortNr, h.byteAt_eq (by decide), h.byteAt_eq (by decide), tcpPortNr]

theorem counter_eq : counter (receivedBytes earlier packet) = counter packet := by
  rw [counter, h.byteAt_eq (by decide), h.byteAt_eq (by decide), counter]

theorem received : lighthouseHdrSz + publishSz packet ≤ (receivePacket earlier packet).1 := by
  have hreceived := h.2.2.2.2.1
  rwa [h.publishSz_eq] at hreceived

theorem publish_take {n : ℕ} (hn : n ≤ publishSz packet) (hlt : n < lighthousePublishSz) :
    (publish (receivedBytes earlier packet)).take n =
      ((packet.drop lighthouseHdrSz).take n).map byteChar := by
  have hreceived := h.received
  have htake := @receivedBytes_take earlier packet (lighthouseHdrSz + n) (by omega) (by omega)
  have hdrop := congrArg (List.drop lighthouseHdrSz) htake
  rw [List.drop_take, List.drop_take, Nat.add_sub_cancel_left] at hdrop
  rw [publish, ← List.map_take, hdrop]

/-- The publish bytes come first in the memory; what is behind them is not of this packet. -/
theorem publish_eq : ∃ stale,
    publish (receivedBytes earlier packet) = publishText packet ++ stale := by
  unfold publishText
  dsimp only
  split_ifs with hshort
  · refine ⟨(publish (receivedBytes earlier packet)).drop (publishSz packet), ?_⟩
    rw [← h.publish_take (Nat.le_refl _) (by omega), List.take_append_drop]
  · refine ⟨[], ?_⟩
    have hlast : (publish (receivedBytes earlier packet)).drop (lighthousePublishSz - 1) =
        [nul] := by
      rw [publish, ← List.map_drop, List.drop_drop, receivedBytes_last]
      rfl
    have hsame : (((packet.drop lighthouseHdrSz).take (publishSz packet)).map byteChar).take
        (lighthousePublishSz - 1) =
          (publish (receivedBytes earlier packet)).take (lighthousePublishSz - 1) := by
      rw [h.publish_take (by omega) (by decide), ← List.map_take, List.take_take,
        Nat.min_eq_left (by omega)]
    rw [List.append_nil, hsame, ← hlast, List.take_append_drop]

end Accepted

/-- A packet which agrees in header and publish bytes has the same text. -/
theorem publishText_congr {packet' : List UInt8}
    (hagree : packet'.take (lighthouseHdrSz + publishSz packet) =
      packet.take (lighthouseHdrSz + publishSz packet)) :
    publishText packet' = publishText packet := by
  have hsz : publishSz packet' = publishSz packet :=
    byteAt_congr hagree (by unfold lighthouseHdrSz; omega)
  have hdrop := congrArg (List.drop lighthouseHdrSz) hagree
  rw [List.drop_take, List.drop_take, Nat.add_sub_cancel_left] at hdrop
  unfold publishText
  rw [hsz, hdrop]

end LighthouseMessage

/-! ## Names of the text -/

/-- A string in a buffer of `sz` characters which stands in the text. -/
structure StringOf (text : List Char) (sz : ℕ) (name : List Char) : Prop where
  fits : name.length < sz
  nul_notMem : nul ∉ name
  infix_text : name <:+: text

theorem StringOf.of_part {text : List Char} {sz : ℕ} {name part : List Char}
    (h : StringOf text sz name) (hpart : part <:+: name) : StringOf text sz part where
  fits := Nat.lt_of_le_of_lt hpart.length_le h.fits
  nul_notMem hmem := h.nul_notMem (hpart.subset hmem)
  infix_text := hpart.trans h.infix_text

theorem isInfix_of_mem_pieces {sep : Char} {text piece : List Char} (h : piece ∈ pieces sep text) :
    piece <:+: text := by
  induction hn : text.length using Nat.strong_induction_on generalizing text with
  | _ n ih =>
      by_cases hnil : text = []
      · rw [hnil, pieces_nil] at h
        cases h
      · rw [pieces_turn hnil] at h
        rcases List.mem_cons.mp h with rfl | hmem
        · exact (List.takeWhile_prefix _).isInfix
        · have hshort : ((text.dropWhile (· ≠ sep)).drop 1).length < n := by
            have hle := (List.dropWhile_suffix (fun c => decide (c ≠ sep)) (l := text)).length_le
            have hpos := List.length_pos_iff.mpr hnil
            rw [List.length_drop]
            omega
          have hrest := ih _ hshort hmem rfl
          exact hrest.trans ((List.drop_suffix _ _).trans (List.dropWhile_suffix _)).isInfix

theorem networkItemSz_pos (prm : LighthouseParams) : 0 < prm.networkItemSz := by
  unfold LighthouseParams.networkItemSz
  omega

theorem ItemText.strings {prm : LighthouseParams} {tlsDefault tcpDefault : ℕ}
    {text item : List Char} {r : LighthouseReport} (hitem : item <:+: text) (hnul : nul ∉ item)
    (h : ItemText tlsDefault tcpDefault (item.take (prm.networkItemSz - 1)) r) :
    StringOf text prm.networkItemSz r.networkName ∧ StringOf text prm.networkItemSz r.protocol := by
  have hpos := networkItemSz_pos prm
  have hcopied : StringOf text prm.networkItemSz (item.take (prm.networkItemSz - 1)) := by
    refine ⟨?_, fun hmem => hnul (List.mem_of_mem_take hmem),
      (List.take_prefix _ _).isInfix.trans hitem⟩
    rw [List.length_take]
    omega
  obtain ⟨marks, rest, hsplit, -⟩ := h.colons
  constructor
  · refine hcopied.of_part ⟨marks ++ ':' :: (r.protocol ++ [':']), rest, ?_⟩
    rw [hsplit]
    simp
  · refine hcopied.of_part ⟨marks ++ [':'], ':' :: (r.networkName ++ rest), ?_⟩
    rw [hsplit]
    simp

/-! ## The packets which are parsed inside -/

/-- The names are strings of the text, inside of their buffers; what is remembered has
been there before, or is of the text. -/
structure ParsedInside (prm : LighthouseClientParams) (c : LighthouseClient prm)
    (text : List Char) (run : LighthouseRun prm) : Prop where
  far_le : run.far ≤ text.length
  calls : ∀ call ∈ run.calls,
    StringOf text prm.networkItemSz call.networkName ∧
      StringOf text prm.networkItemSz call.protocol ∧ StringOf text prm.nameSz call.nickname
  net : ∀ n ∈ run.client.net, n ∈ c.net ∨ StringOf text prm.networkNameSz n.networkName

/-- The parse loop ends inside of the packet, and its result is the same for every packet
with this header and these publish bytes. -/
structure ParsesPacket (osChecksum : List UInt8 → UInt16) {prm : LighthouseClientParams}
    (c : LighthouseClient prm) (earlier : LighthouseMessage) (packet : List UInt8)
    (remoteAddr : List Char) (receivedTimer : ℤ) : Prop where
  inside : ∃ run,
    c.runLighthouseClient osChecksum earlier packet remoteAddr receivedTimer = some run ∧
      ParsedInside prm c (LighthouseMessage.publishText packet) run
  same : ∀ earlier' packet', LighthouseMessage.Accepted osChecksum earlier' packet' →
    packet'.take (lighthouseHdrSz + LighthouseMessage.publishSz packet) =
      packet.take (lighthouseHdrSz + LighthouseMessage.publishSz packet) →
    c.runLighthouseClient osChecksum earlier' packet' remoteAddr receivedTimer =
      c.runLighthouseClient osChecksum earlier packet remoteAddr receivedTimer

/-- Without a port nothing is parsed.  Otherwise the text behind the nickname has to be
terminated in the packet, and each name to be remembered has to fit into its buffer. -/
def ParsableText (prm : LighthouseClientParams) (selectTls : Bool) (packet : List UInt8) : Prop :=
  let text := LighthouseMessage.publishText packet
  let tlsPortNr := LighthouseMessage.tlsPortNr packet
  let tcpPortNr := LighthouseMessage.tcpPortNr packet
  tlsPortNr = 0 ∧ tcpPortNr = 0 ∨
    nul ∈ text.drop ((text.takeWhile (plain ',' nul)).length + 1) ∧
      ∀ item ∈ pieces ',' (networksText text), ∀ r,
        ItemText tlsPortNr tcpPortNr (item.take (prm.networkItemSz - 1)) r →
          LighthouseClient.StoredNameFits prm selectTls r

theorem networksText_of_ends {mem first text rest : List Char} {c : Char}
    (h : Ends ',' nul mem first text rest c) : networksText mem = text := by
  have hnul : ∀ (before : List Char) behind, nul ∉ before →
      cString (before ++ nul :: behind) = before := by
    intro before behind hmem
    exact (before_sep_cons hmem behind).1
  have hfirst : (cString mem).takeWhile (· ≠ ',') = first := by
    rcases h.stop with rfl | rfl
    · have hstart : nul ∉ first ++ ',' :: text := by
        simp [h.term_notMem, h.text_notMem]
        decide
      have hmem : mem = (first ++ ',' :: text) ++ nul :: rest := by rw [h.eq]; simp
      rw [hmem, hnul _ _ hstart]
      exact (before_sep_cons h.sep_notMem _).1
    · rw [h.eq, hnul _ _ h.term_notMem]
      exact List.takeWhile_eq_self_iff.mpr fun d hd =>
        decide_eq_true fun heq => h.sep_notMem (heq ▸ hd)
  unfold networksText
  dsimp only
  rw [hfirst, h.eq, ← List.drop_drop, List.drop_left]
  exact hnul _ _ h.text_notMem

section Parsing

variable {osChecksum : List UInt8 → UInt16} {prm : LighthouseClientParams}
  {c : LighthouseClient prm} {earlier : LighthouseMessage} {packet : List UInt8}
  {remoteAddr : List Char} {receivedTimer : ℤ}

open LighthouseMessage

def textReports (prm : LighthouseClientParams) (packet : List UInt8) (text : List Char) :
    List LighthouseReport :=
  (pieces ',' text).filterMap (prm.parseNetworkItem (tlsPortNr packet) (tcpPortNr packet))

def textRun (c : LighthouseClient prm) (packet : List UInt8) (first text : List Char)
    (remoteAddr : List Char) (receivedTimer : ℤ) : Option (LighthouseRun prm) :=
  ((textReports prm packet text).foldlM
      (LighthouseClient.rememberNet remoteAddr receivedTimer) c).map fun c' =>
    { calls := (textReports prm packet text).map fun r =>
        { toLighthouseReport := r
          ipAddr := remoteAddr
          nickname := osStrncpy first
            (if prm.nameSz < first.length + 1 then prm.nameSz else first.length + 1)
          counter := counter packet }
      client := c'
      far := first.length + text.length + 2 }

theorem LighthouseMessage.Accepted.run_eq (h : Accepted osChecksum earlier packet) :
    c.runLighthouseClient osChecksum earlier packet remoteAddr receivedTimer =
      if tlsPortNr packet ≠ 0 ∨ tcpPortNr packet ≠ 0 then
        (readText ',' nul (publish (receivedBytes earlier packet))).bind fun (first, items, far) =>
          let n := if prm.nameSz < first.length + 1 then prm.nameSz else first.length + 1
          let reports := items.filterMap
            (prm.parseNetworkItem (tlsPortNr packet) (tcpPortNr packet))
          (reports.foldlM (LighthouseClient.rememberNet remoteAddr receivedTimer) c).map fun c =>
            { calls := reports.map fun r =>
                { toLighthouseReport := r
                  ipAddr := remoteAddr
                  nickname := osStrncpy first n
                  counter := counter packet }
              client := c
              far := far }
      else some ⟨[], c, 0⟩ := by
  have hrun : c.runLighthouseClient osChecksum earlier packet remoteAddr receivedTimer =
      c.parsePublish (receivedBytes earlier packet) remoteAddr receivedTimer := if_pos h
  rw [hrun, LighthouseClient.parsePublish]
  dsimp only
  rw [h.tlsPortNr_eq, h.tcpPortNr_eq, h.counter_eq]

theorem LighthouseMessage.Accepted.run_of_noPort (h : Accepted osChecksum earlier packet)
    (hports : tlsPortNr packet = 0 ∧ tcpPortNr packet = 0) :
    c.runLighthouseClient osChecksum earlier packet remoteAddr receivedTimer =
      some ⟨[], c, 0⟩ := by
  rw [h.run_eq, if_neg (by simp [hports])]

theorem LighthouseMessage.Accepted.run_of_ends (h : Accepted osChecksum earlier packet)
    (hports : ¬(tlsPortNr packet = 0 ∧ tcpPortNr packet = 0)) {first text rest : List Char}
    {ch : Char} (hends : Ends ',' nul (publish (receivedBytes earlier packet)) first text rest ch) :
    c.runLighthouseClient osChecksum earlier packet remoteAddr receivedTimer =
      textRun c packet first text remoteAddr receivedTimer := by
  rw [h.run_eq, if_pos (by omega), hends.readText_eq (by decide)]
  rfl

theorem parsedInside_of_textRun {first text rest : List Char} {ch : Char}
    {run : LighthouseRun prm}
    (hends : Ends ',' nul (publishText packet) first text rest ch)
    (hrun : textRun c packet first text remoteAddr receivedTimer = some run) :
    ParsedInside prm c (publishText packet) run := by
  obtain ⟨c', hc', rfl⟩ := Option.map_eq_some_iff.mp hrun
  have htext : text <:+: publishText packet :=
    ⟨first ++ [ch], nul :: rest, by rw [hends.eq]; simp⟩
  have hfirst : first <:+: publishText packet := ⟨[], ch :: (text ++ nul :: rest), hends.eq.symm⟩
  have hreports : ∀ r ∈ textReports prm packet text,
      StringOf (publishText packet) prm.networkItemSz r.networkName ∧
        StringOf (publishText packet) prm.networkItemSz r.protocol := by
    intro r hr
    obtain ⟨item, hitem, hparse⟩ := List.mem_filterMap.mp hr
    have hnul : nul ∉ item := fun hmem =>
      hends.text_notMem ((sep_notMem_of_mem_pieces hitem).2 nul hmem)
    exact ItemText.strings ((isInfix_of_mem_pieces hitem).trans htext) hnul
      (prm.parseNetworkItem_eq_some_iff.mp hparse)
  constructor
  · have hlength := congrArg List.length hends.eq
    simp only [List.length_append, List.length_cons] at hlength
    dsimp only
    omega
  · intro call hcall
    obtain ⟨r, hr, rfl⟩ := List.mem_map.mp hcall
    refine ⟨(hreports r hr).1, (hreports r hr).2, ?_, ?_, ?_⟩
    · have hnameSz := prm.nameSz_ge
      simp only [osStrncpy, List.length_take]
      split_ifs <;> omega
    · exact fun hmem => hends.term_notMem (List.mem_of_mem_take hmem)
    · exact (List.take_prefix _ _).isInfix.trans hfirst
  · intro n hn
    rcases LighthouseClient.rememberNets_spec hc' n hn with hold | ⟨r, hr, hname⟩
    · exact .inl hold
    · have hpart : osStrncpy r.networkName prm.ipaddrSz <:+: r.networkName :=
        (List.take_prefix _ _).isInfix
      have hcopied := (hreports r hr).1.of_part hpart
      rw [← hname] at hcopied
      exact .inr { hcopied with fits := n.networkName_fits }

theorem textRun_isSome_iff {first text : List Char} :
    (textRun c packet first text remoteAddr receivedTimer).isSome ↔
      ∀ item ∈ pieces ',' text, ∀ r,
        ItemText (tlsPortNr packet) (tcpPortNr packet) (item.take (prm.networkItemSz - 1)) r →
          LighthouseClient.StoredNameFits prm c.selectTls r := by
  rw [textRun, Option.isSome_map, LighthouseClient.rememberNets_isSome_iff]
  constructor
  · intro hfits item hitem r hr
    exact hfits r (List.mem_filterMap.mpr ⟨item, hitem, prm.parseNetworkItem_eq_some_iff.mpr hr⟩)
  · intro hfits r hr
    obtain ⟨item, hitem, hparse⟩ := List.mem_filterMap.mp hr
    exact hfits item hitem r (prm.parseNetworkItem_eq_some_iff.mp hparse)

theorem parsableText_of_inside (h : Accepted osChecksum earlier packet) {run : LighthouseRun prm}
    (hrun : c.runLighthouseClient osChecksum earlier packet remoteAddr receivedTimer = some run)
    (hfar : run.far ≤ (publishText packet).length) :
    ParsableText prm c.selectTls packet := by
  by_cases hports : tlsPortNr packet = 0 ∧ tcpPortNr packet = 0
  · exact .inl hports
  right
  obtain ⟨r, hread⟩ : ∃ r, readText ',' nul (publish (receivedBytes earlier packet)) = some r := by
    rw [h.run_eq, if_pos (by omega)] at hrun
    obtain ⟨r, hread, -⟩ := Option.bind_eq_some_iff.mp hrun
    exact ⟨r, hread⟩
  obtain ⟨first, text, rest, ch, hends⟩ := ends_of_readText hread
  rw [h.run_of_ends hports hends] at hrun
  obtain ⟨stale, hstale⟩ := h.publish_eq
  have hread : first.length + text.length + 2 ≤ (publishText packet).length := by
    obtain ⟨c', -, rfl⟩ := Option.map_eq_some_iff.mp hrun
    exact hfar
  rw [hstale] at hends
  obtain ⟨rest', hends'⟩ := hends.of_append hread
  refine ⟨exists_ends_iff.mp ⟨first, text, rest', ch, hends'⟩, ?_⟩
  rw [networksText_of_ends hends']
  exact textRun_isSome_iff.mp (by rw [hrun]; rfl)

theorem parsesPacket_of_parsableText (h : Accepted osChecksum earlier packet)
    (hparsable : ParsableText prm c.selectTls packet) :
    ParsesPacket osChecksum c earlier packet remoteAddr receivedTimer := by
  have hports' : ∀ packet' : List UInt8, packet'.take (lighthouseHdrSz + publishSz packet) =
      packet.take (lighthouseHdrSz + publishSz packet) →
        tlsPortNr packet' = tlsPortNr packet ∧ tcpPortNr packet' = tcpPortNr packet ∧
          counter packet' = counter packet := by
    intro packet' hagree
    have hbyte : ∀ i < lighthouseHdrSz, byteAt packet' i = byteAt packet i := fun i hi =>
      byteAt_congr hagree (by omega)
    simp only [tlsPortNr, tcpPortNr, counter]
    rw [hbyte 13 (by decide), hbyte 12 (by decide), hbyte 19 (by decide), hbyte 18 (by decide),
      hbyte 21 (by decide), hbyte 20 (by decide)]
    exact ⟨rfl, rfl, rfl⟩
  by_cases hports : tlsPortNr packet = 0 ∧ tcpPortNr packet = 0
  · refine ⟨⟨_, h.run_of_noPort hports, ⟨Nat.zero_le _, by simp, fun n hn => .inl hn⟩⟩, ?_⟩
    intro earlier' packet' h' hagree
    obtain ⟨htls, htcp, -⟩ := hports' packet' hagree
    rw [h.run_of_noPort hports, h'.run_of_noPort (by rw [htls, htcp]; exact hports)]
  · obtain ⟨hnul, hfits⟩ := hparsable.resolve_left hports
    obtain ⟨first, text, rest, ch, hends⟩ := exists_ends_iff.mpr hnul
    rw [networksText_of_ends hends] at hfits
    have heq : c.runLighthouseClient osChecksum earlier packet remoteAddr receivedTimer =
        textRun c packet first text remoteAddr receivedTimer := by
      obtain ⟨stale, hstale⟩ := h.publish_eq
      exact h.run_of_ends hports (hstale ▸ hends.append stale)
    have hsome : (textRun c packet first text remoteAddr receivedTimer).isSome :=
      textRun_isSome_iff.mpr hfits
    obtain ⟨run, hrun⟩ := Option.isSome_iff_exists.mp hsome
    refine ⟨⟨run, heq.trans hrun, parsedInside_of_textRun hends hrun⟩, ?_⟩
    intro earlier' packet' h' hagree
    obtain ⟨htls, htcp, hcounter⟩ := hports' packet' hagree
    obtain ⟨stale', hstale'⟩ := h'.publish_eq
    have hends' := hends.append stale'
    rw [← publishText_congr hagree, ← hstale'] at hends'
    rw [heq, h'.run_of_ends (by rw [htls, htcp]; exact hports) hends']
    simp only [textRun, textReports, htls, htcp, hcounter]

/-- Exactly the parsable packets are parsed inside. -/
theorem lighthouse_parsing_inside_iff (osChecksum : List UInt8 → UInt16)
    (prm : LighthouseClientParams) (c : LighthouseClient prm) (earlier : LighthouseMessage)
    (packet : List UInt8) (remoteAddr : List Char) (receivedTimer : ℤ)
    (h : Accepted osChecksum earlier packet) :
    ParsesPacket osChecksum c earlier packet remoteAddr receivedTimer ↔
      ParsableText prm c.selectTls packet := by
  constructor
  · rintro ⟨⟨run, hrun, hinside⟩, -⟩
    exact parsableText_of_inside h hrun hinside.far_le
  · exact parsesPacket_of_parsableText h

/-! ## Two packets -/

/-- A message with TCP port 6368. -/
def lighthouseMulticast (crc : UInt16) (text : List Char) : List UInt8 :=
  [0, 0, 0, 0, 0, 0, 0, 0, 0xB3, 24, UInt8.ofNat crc.toNat, UInt8.ofNat (crc.toNat / 0x100),
    0, 0, 0, 0, UInt8.ofNat (text.length + 1), 0, 0xE0, 0x18, 0, 0, 0, 0] ++
    text.map (fun ch => UInt8.ofNat ch.toNat) ++ [0]

def lighthouseClientIpv4 : LighthouseClientParams where
  toLighthouseParams := lighthouseWithIpv4
  ipaddrSz := 46
  nroNets := 4
  nroNets_pos := by decide

/-- `ioc_initialize_lighthouse_client` for plain sockets. -/
def newLighthouseClient : LighthouseClient lighthouseClientIpv4 where
  net := Vector.replicate 4 ⟨[], 0, .defaultTransport, [], by decide, 0⟩
  selectTls := false

def newMessage : LighthouseMessage := ⟨List.replicate 144 0, List.length_replicate⟩

def cafeText : List Char := "n,s:i:cafenet".toList

theorem lighthouse_parsing_cafenet :
    ParsesPacket (fun _ => 0xe513) newLighthouseClient newMessage
        (lighthouseMulticast 0xe513 cafeText) "10.0.0.1".toList 0 ↔
      ParsableText lighthouseClientIpv4 false (lighthouseMulticast 0xe513 cafeText) :=
  lighthouse_parsing_inside_iff _ _ newLighthouseClient _ _ _ _ (by decide +kernel)

/-- The buffer after a multicast with the nickname `nic` and the network `cafenet`. -/
def cafeMessage : LighthouseMessage :=
  ⟨(lighthouseMulticast 0 "nic,s:i:cafenet".toList ++ List.replicate 104 0), by decide +kernel⟩

def teaMulticast (osChecksum : List UInt8 → UInt16) : List UInt8 :=
  lighthouseMulticast (osChecksum (lighthouseMulticast 0 "tea".toList)) "tea".toList

/-- The client goes on with the networks of the multicast before. -/
theorem nickname_alone_read_on :
    ¬ ∃ osChecksum, Accepted osChecksum cafeMessage (teaMulticast osChecksum) →
      ParsesPacket osChecksum newLighthouseClient cafeMessage (teaMulticast osChecksum)
        "10.0.0.1".toList 0 := by
  rintro ⟨osChecksum, hclaim⟩
  have haccepted : Accepted osChecksum cafeMessage (teaMulticast osChecksum) := by
    unfold teaMulticast
    generalize hcrc : osChecksum (lighthouseMulticast 0 "tea".toList) = crc
    have hsum : (((receivedBytes cafeMessage (lighthouseMulticast crc "tea".toList)).set 11 0).set
        10 0).take (24 + 4) = lighthouseMulticast 0 "tea".toList := rfl
    have hread : checksum (receivedBytes cafeMessage (lighthouseMulticast crc "tea".toList)) =
        (UInt8.ofNat (crc.toNat / 0x100)).toNat * 0x100 + (UInt8.ofNat crc.toNat).toNat := rfl
    have hlt := crc.toNat_lt
    refine ⟨rfl, show 1 ≤ 4 by decide, show 4 ≤ 120 by decide, rfl, show 28 ≤ 28 by decide, ?_⟩
    rw [hread]
    refine Eq.trans ?_ (congrArg (fun bytes => (osChecksum bytes).toNat) hsum.symm)
    rw [hcrc]
    simp only [UInt8.toNat_ofNat']
    omega
  obtain ⟨run, hrun, hinside⟩ := (hclaim haccepted).inside
  rcases parsableText_of_inside haccepted hrun hinside.far_le with ⟨-, htcp⟩ | ⟨hnul, -⟩
  · exact absurd htcp (show ¬ (0x18 * 0x100 + 0xE0 = 0) by decide)
  · exact absurd hnul (show nul ∉ ([] : List Char) from List.not_mem_nil)

end Parsing

end Iocom
