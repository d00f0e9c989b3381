import Iocom.LighthouseText

/-!
# What the client of a lighthouse reports

The published text is the nickname and an item for each name, cut where the buffer ends.
An item leaves out the default ports, and a default does not change any more once an item
relies on it.
-/

namespace Iocom

open Separated

structure PublishedItem (prm : LighthouseParams) where
  endpoint : prm.Endpoint
  networkName : List Char
  networkName_mem : networkName ∈ pieces ',' endpoint.publish

variable {prm : LighthouseParams}

/-- The items which `ioc_lighthouse_add_endpoint` adds. -/
def LighthouseParams.Endpoint.items (endpoint : prm.Endpoint) : List (PublishedItem prm) :=
  if endpoint.tcpPort = 0 ∧ endpoint.tlsPort = 0 then []
  else (pieces ',' endpoint.publish).attach.map fun name => ⟨endpoint, name.1, name.2⟩

def portText (mark : Char) (port default : ℕ) : List Char :=
  if port = 0 then [] else mark :: if port = default then [] else osalIntToStr port

def firstPort : List ℕ → ℕ
  | [] => 0
  | port :: ports => if port = 0 then firstPort ports else port

namespace PublishedItem

def ports (tlsDefault tcpDefault : ℕ) (item : PublishedItem prm) : List Char :=
  portText (if prm.isIpv6 then 'T' else 't') item.endpoint.tlsPort tlsDefault ++
    portText (if prm.isIpv6 then 'S' else 's') item.endpoint.tcpPort tcpDefault

def head (tlsDefault tcpDefault : ℕ) (item : PublishedItem prm) : List Char :=
  item.ports tlsDefault tcpDefault ++ [':', item.endpoint.protocol, ':']

def text (tlsDefault tcpDefault : ℕ) (item : PublishedItem prm) : List Char :=
  item.head tlsDefault tcpDefault ++ item.networkName

def report (item : PublishedItem prm) : LighthouseReport where
  networkName := item.networkName
  protocol := [item.endpoint.protocol]
  tlsPortNr := item.endpoint.tlsPort
  tcpPortNr := item.endpoint.tcpPort

end PublishedItem

/-! ## One item -/

variable {tlsDefault tcpDefault : ℕ}

theorem portText_length_le (mark : Char) {port : ℕ} (default : ℕ) (hport : port ≤ 65535) :
    (portText mark port default).length ≤ 6 := by
  unfold portText
  have hdigits := osalIntToStr_length_le hport
  split_ifs
  · exact Nat.zero_le 6
  · rw [List.length_singleton]
    decide
  · rw [List.length_cons]
    omega

theorem mem_portText {mark c : Char} {port default : ℕ} (h : c ∈ portText mark port default) :
    c = mark ∨ c.isDigit = true := by
  unfold portText at h
  split_ifs at h
  · cases h
  · exact Or.inl (List.mem_singleton.mp h)
  · rcases List.mem_cons.mp h with hmark | hdigit
    · exact Or.inl hmark
    · exact Or.inr (osalIntToStr_isDigit port c hdigit)

theorem portOr_digits {port default : ℕ} (hzero : port ≠ 0) (hport : port ≤ 65535) :
    portOr (if port = default then [] else osalIntToStr port) default = port := by
  unfold portOr
  split_ifs with hdefault hdigits hdigits
  · exact absurd rfl hdigits
  · exact hdefault.symm
  · rw [osalStrToInt_osalIntToStr, Nat.mod_eq_of_lt (by omega)]
  · rw [osalStrToInt_osalIntToStr, Nat.mod_eq_of_lt (by omega)] at hdigits
    exact absurd hzero hdigits

theorem appendPort_eq {mark : Char} {port default : ℕ} {buf : List Char}
    (h : buf.length + (portText mark port default).length < prm.itemSz) :
    prm.appendPort mark port default buf = buf ++ portText mark port default := by
  unfold LighthouseParams.appendPort portText at *
  split_ifs at h ⊢
  · rw [List.append_nil]
  · exact osStrncat_of_fits h
  · rw [List.length_cons] at h
    have hmark : osStrncat buf [mark] prm.itemSz = buf ++ [mark] :=
      osStrncat_of_fits (by rw [List.length_singleton]; omega)
    have hdigits : (buf ++ [mark]).length + (osalIntToStr port).length < prm.itemSz := by
      rw [List.length_append, List.length_singleton]
      omega
    rw [hmark, osStrncat_of_fits hdigits, List.append_assoc, List.singleton_append]

theorem isDigit_of_mem_digits {port default : ℕ} {c : Char}
    (hc : c ∈ if port = default then [] else osalIntToStr port) : c.isDigit = true := by
  split_ifs at hc
  · cases hc
  · exact osalIntToStr_isDigit port c hc

theorem portMarks_tls {mark : Char} {port : ℕ} {rest : List Char} {ports result : ℕ × ℕ}
    (hmark : mark = 'T' ∨ mark = 't') (hport : port ≤ 65535)
    (hrest : ∀ c ∈ rest.head?, c.isDigit = false)
    (h : PortMarks tlsDefault tcpDefault rest (if port = 0 then ports.1 else port, ports.2)
      result) :
    PortMarks tlsDefault tcpDefault (portText mark port tlsDefault ++ rest) ports result := by
  unfold portText
  by_cases hzero : port = 0
  · rw [if_pos hzero] at h ⊢
    exact h
  · rw [if_neg hzero] at h ⊢
    refine .tls hmark (fun c => isDigit_of_mem_digits) hrest ?_
    rw [portOr_digits hzero hport]
    exact h

theorem portMarks_tcp {mark : Char} {port : ℕ} {rest : List Char} {ports result : ℕ × ℕ}
    (hmark : mark = 'S' ∨ mark = 's') (hport : port ≤ 65535)
    (hrest : ∀ c ∈ rest.head?, c.isDigit = false)
    (h : PortMarks tlsDefault tcpDefault rest (ports.1, if port = 0 then ports.2 else port)
      result) :
    PortMarks tlsDefault tcpDefault (portText mark port tcpDefault ++ rest) ports result := by
  unfold portText
  by_cases hzero : port = 0
  · rw [if_pos hzero] at h ⊢
    exact h
  · rw [if_neg hzero] at h ⊢
    refine .tcp hmark (fun c => isDigit_of_mem_digits) hrest ?_
    rw [portOr_digits hzero hport]
    exact h

namespace PublishedItem

theorem networkName_length_lt (item : PublishedItem prm) :
    item.networkName.length < prm.networkNameSz :=
  item.endpoint.publish_fits _ item.networkName_mem

theorem ports_length_le (item : PublishedItem prm) (tlsDefault tcpDefault : ℕ) :
    (item.ports tlsDefault tcpDefault).length ≤ 12 := by
  have htls := portText_length_le (if prm.isIpv6 then 'T' else 't') tlsDefault
    item.endpoint.tlsPort_le
  have htcp := portText_length_le (if prm.isIpv6 then 'S' else 's') tcpDefault
    item.endpoint.tcpPort_le
  rw [ports, List.length_append]
  omega

theorem head_length (item : PublishedItem prm) :
    (item.head tlsDefault tcpDefault).length = (item.ports tlsDefault tcpDefault).length + 3 := by
  rw [head, List.length_append]
  rfl

theorem mem_ports {item : PublishedItem prm} {c : Char}
    (h : c ∈ item.ports tlsDefault tcpDefault) : c.isAlphanum = true := by
  have hmark : ∀ mark : Char, mark.isAlphanum = true → c = mark ∨ c.isDigit = true →
      c.isAlphanum = true := by
    intro mark halnum hc
    rcases hc with rfl | hdigit
    · exact halnum
    · rw [Char.isAlphanum, hdigit, Bool.or_true]
  rcases List.mem_append.mp h with htls | htcp
  · refine hmark _ ?_ (mem_portText htls)
    split_ifs <;> decide
  · refine hmark _ ?_ (mem_portText htcp)
    split_ifs <;> decide

theorem colon_notMem_ports (item : PublishedItem prm) :
    ':' ∉ item.ports tlsDefault tcpDefault := by
  intro h
  have halnum := mem_ports h
  revert halnum
  decide

theorem protocol_ne {item : PublishedItem prm} {c : Char} (hc : c.isAlpha = false) :
    c ≠ item.endpoint.protocol := by
  rintro rfl
  rw [item.endpoint.protocol_alpha] at hc
  cases hc

/-- The characters of an item cannot be taken for the end of the item or of the text. -/
theorem text_plain (item : PublishedItem prm) :
    ',' ∉ item.text tlsDefault tcpDefault ∧ nul ∉ item.text tlsDefault tcpDefault := by
  obtain ⟨hname, hin⟩ := sep_notMem_of_mem_pieces item.networkName_mem
  have hnul : nul ∉ item.networkName := fun h => item.endpoint.publish_noNul (hin nul h)
  have hplain : ∀ c : Char, c.isAlphanum = false → c.isAlpha = false → c ≠ ':' →
      c ∉ item.networkName → c ∉ item.text tlsDefault tcpDefault := by
    intro c halnum halpha hcolon hc h
    rcases List.mem_append.mp h with hhead | htail
    · rcases List.mem_append.mp hhead with hports | hrest
      · rw [mem_ports hports] at halnum
        cases halnum
      · rcases List.mem_cons.mp hrest with heq | hrest
        · exact hcolon heq
        · rcases List.mem_cons.mp hrest with heq | hrest
          · exact protocol_ne halpha heq
          · exact hcolon (List.mem_singleton.mp hrest)
    · exact hc htail
  exact ⟨hplain ',' (by decide) (by decide) (by decide) hname,
    hplain nul (by decide) (by decide) (by decide) hnul⟩

/-- Only the default ports of the transports in use matter for the text. -/
theorem text_congr {item : PublishedItem prm} {tlsDefault' tcpDefault' : ℕ}
    (htls : item.endpoint.tlsPort ≠ 0 → tlsDefault = tlsDefault')
    (htcp : item.endpoint.tcpPort ≠ 0 → tcpDefault = tcpDefault') :
    item.text tlsDefault tcpDefault = item.text tlsDefault' tcpDefault' := by
  have hport : ∀ (mark : Char) {port default default' : ℕ}, (port ≠ 0 → default = default') →
      portText mark port default = portText mark port default' := by
    intro mark port default default' h
    unfold portText
    by_cases hzero : port = 0
    · rw [if_pos hzero, if_pos hzero]
    · rw [h hzero]
  unfold text head ports
  rw [hport _ htls, hport _ htcp]

theorem ports_marks (item : PublishedItem prm) :
    PortMarks tlsDefault tcpDefault (item.ports tlsDefault tcpDefault) (0, 0)
      (item.endpoint.tlsPort, item.endpoint.tcpPort) := by
  have hport : ∀ port : ℕ, (if port = 0 then 0 else port) = port := by
    intro port
    split_ifs with hzero
    · exact hzero.symm
    · rfl
  have htlsMark : (if prm.isIpv6 then 'T' else 't') = 'T' ∨
      (if prm.isIpv6 then 'T' else 't') = 't' := by
    split_ifs
    · exact Or.inl rfl
    · exact Or.inr rfl
  have htcpMark : (if prm.isIpv6 then 'S' else 's') = 'S' ∨
      (if prm.isIpv6 then 'S' else 's') = 's' := by
    split_ifs
    · exact Or.inl rfl
    · exact Or.inr rfl
  have hrest : ∀ c ∈ (portText (if prm.isIpv6 then 'S' else 's') item.endpoint.tcpPort
      tcpDefault).head?, c.isDigit = false := by
    intro c hc
    unfold portText at hc
    split_ifs at hc <;> cases hc <;> decide
  refine portMarks_tls htlsMark item.endpoint.tlsPort_le hrest ?_
  rw [← List.append_nil (portText _ _ _)]
  refine portMarks_tcp htcpMark item.endpoint.tcpPort_le (fun c hc => by cases hc) ?_
  rw [hport, hport]
  exact .done _

/-- The client does not know whether a network name is complete. -/
theorem itemText_of_name (item : PublishedItem prm) {name : List Char} (hname : ':' ∉ name) :
    ItemText tlsDefault tcpDefault (item.head tlsDefault tcpDefault ++ name)
      { item.report with networkName := name } where
  colons := by
    refine ⟨item.ports tlsDefault tcpDefault, [], ?_, item.colon_notMem_ports,
      (fun c hc => by cases hc), item.ports_marks⟩
    rw [head, List.append_nil, List.append_assoc]
    rfl
  protocol_noColon := by
    intro h
    exact protocol_ne (by decide) (List.mem_singleton.mp h)
  networkName_noColon := hname

theorem parse_name (item : PublishedItem prm) {name : List Char}
    (hname : name <+: item.networkName) :
    prm.parseNetworkItem tlsDefault tcpDefault (item.head tlsDefault tcpDefault ++ name) =
      some { item.report with networkName := name } := by
  have hcolon : ':' ∉ name := fun h => item.endpoint.publish_noColon
    ((sep_notMem_of_mem_pieces item.networkName_mem).2 _ (hname.subset h))
  have hports := item.ports_length_le tlsDefault tcpDefault
  have hlength := item.networkName_length_lt
  have hstarts := hname.length_le
  have hnameSz := prm.nameSz_ge
  rw [prm.parseNetworkItem_eq_some_iff, List.take_of_length_le]
  · exact item.itemText_of_name hcolon
  · rw [List.length_append, head_length, LighthouseParams.networkItemSz]
    omega

theorem parse_text (item : PublishedItem prm) :
    prm.parseNetworkItem tlsDefault tcpDefault (item.text tlsDefault tcpDefault) =
      some item.report :=
  item.parse_name (List.prefix_refl _)

theorem parse_cut (item : PublishedItem prm) {room : ℕ}
    (hroom : room < (item.head tlsDefault tcpDefault).length) :
    prm.parseNetworkItem tlsDefault tcpDefault
      ((item.text tlsDefault tcpDefault).take room) = none := by
  rw [Option.eq_none_iff_forall_ne_some]
  intro r hr
  obtain ⟨marks, rest, htext, _, _, _⟩ := (prm.parseNetworkItem_eq_some_iff.mp hr).colons
  have htwo : 2 ≤ (((item.text tlsDefault tcpDefault).take room).take
      (prm.networkItemSz - 1)).count ':' := by
    rw [htext, List.count_append, List.count_cons_self, List.count_append, List.count_cons_self]
    omega
  have hone : (item.ports tlsDefault tcpDefault ++ [':', item.endpoint.protocol]).count ':' =
      1 := by
    have hprotocol : item.endpoint.protocol ≠ ':' := (protocol_ne (by decide)).symm
    rw [List.count_append, List.count_eq_zero_of_not_mem item.colon_notMem_ports,
      List.count_cons_self, List.count_cons_of_ne hprotocol, List.count_nil]
  have hshort : (item.text tlsDefault tcpDefault).take room =
      (item.ports tlsDefault tcpDefault ++ [':', item.endpoint.protocol]).take room := by
    have hsplit : item.text tlsDefault tcpDefault =
        (item.ports tlsDefault tcpDefault ++ [':', item.endpoint.protocol]) ++
          ':' :: item.networkName := by
      rw [text, head, List.append_assoc, List.append_assoc]
      rfl
    rw [head_length] at hroom
    rw [hsplit, List.take_append_of_le_length]
    rw [List.length_append]
    exact Nat.le_of_lt_succ hroom
  rw [hshort] at htwo
  have hle := (((List.take_sublist _ _).trans (List.take_sublist _ _)).count_le ':' :
    (((item.ports tlsDefault tcpDefault ++ [':', item.endpoint.protocol]).take room).take
      (prm.networkItemSz - 1)).count ':' ≤ _)
  omega

end PublishedItem

/-! ## What is read from the items -/

/-- What is left of a network name, where the text is cut behind the second colon. -/
def cutName (tlsDefault tcpDefault : ℕ) : ℕ → List (PublishedItem prm) → Option (List Char)
  | _, [] => none
  | room, item :: items =>
      if (item.text tlsDefault tcpDefault).length < room then
        cutName tlsDefault tcpDefault (room - ((item.text tlsDefault tcpDefault).length + 1)) items
      else if (item.head tlsDefault tcpDefault).length < room then
        some (item.networkName.take (room - 1 - (item.head tlsDefault tcpDefault).length))
      else none

theorem reports_of_text (items : List (PublishedItem prm)) :
    (items.map (PublishedItem.text tlsDefault tcpDefault)).filterMap
      (prm.parseNetworkItem tlsDefault tcpDefault) = items.map PublishedItem.report := by
  induction items with
  | nil => rfl
  | cons item items ih =>
      rw [List.map_cons, List.filterMap_cons, item.parse_text, ih, List.map_cons]

theorem reports_of_cut {item : PublishedItem prm} {room : ℕ} :
    [(item.text tlsDefault tcpDefault).take (room - 1)].filterMap
      (prm.parseNetworkItem tlsDefault tcpDefault) =
    if (item.head tlsDefault tcpDefault).length < room then
      [{ item.report with networkName :=
        item.networkName.take (room - 1 - (item.head tlsDefault tcpDefault).length) }]
    else [] := by
  split_ifs with hhead
  · have hcut : (item.text tlsDefault tcpDefault).take (room - 1) =
        item.head tlsDefault tcpDefault ++
          item.networkName.take (room - 1 - (item.head tlsDefault tcpDefault).length) := by
      rw [PublishedItem.text, List.take_append, List.take_of_length_le (by omega)]
    rw [hcut, List.filterMap_cons, item.parse_name (List.take_prefix _ _)]
    rfl
  · by_cases hroom : room - 1 < (item.head tlsDefault tcpDefault).length
    · rw [List.filterMap_cons, item.parse_cut hroom]
      rfl
    · rw [PublishedItem.head_length] at hhead hroom
      omega

/-- The items which fit are reported, and one more if a part of its name fits. -/
theorem mem_reports_of_fitted {items : List (PublishedItem prm)} {room : ℕ}
    {r : LighthouseReport}
    (h : r ∈ (fitted room (items.map (PublishedItem.text tlsDefault tcpDefault))).filterMap
      (prm.parseNetworkItem tlsDefault tcpDefault)) :
    ∃ item ∈ items, r = item.report ∨
      ∃ name ∈ cutName tlsDefault tcpDefault room items,
        r = { item.report with networkName := name } := by
  induction items generalizing room with
  | nil => cases h
  | cons item items ih =>
      rw [List.map_cons, fitted] at h
      rw [cutName]
      split_ifs at h with hfits hroom
      · rw [List.filterMap_cons, item.parse_text] at h
        rcases List.mem_cons.mp h with rfl | hmem
        · exact ⟨item, List.mem_cons_self, Or.inl rfl⟩
        · obtain ⟨other, hother, hr⟩ := ih hmem
          rw [if_pos hfits]
          exact ⟨other, List.mem_cons_of_mem _ hother, hr⟩
      · cases h
      · rw [reports_of_cut] at h
        split_ifs at h with hhead
        · rw [if_neg hfits, if_pos hhead]
          exact ⟨item, List.mem_cons_self, Or.inr ⟨_, rfl, List.mem_singleton.mp h⟩⟩
        · cases h

theorem cutName_reported {items : List (PublishedItem prm)} {room : ℕ} {name : List Char}
    (h : name ∈ cutName tlsDefault tcpDefault room items) :
    ∃ r ∈ (fitted room (items.map (PublishedItem.text tlsDefault tcpDefault))).filterMap
      (prm.parseNetworkItem tlsDefault tcpDefault), r.networkName = name := by
  induction items generalizing room with
  | nil => cases h
  | cons item items ih =>
      rw [cutName] at h
      rw [List.map_cons, fitted]
      split_ifs at h with hfits hhead
      · obtain ⟨r, hr, hname⟩ := ih h
        rw [if_pos hfits, List.filterMap_cons, item.parse_text]
        exact ⟨r, List.mem_cons_of_mem _ hr, hname⟩
      · rw [if_neg hfits, if_neg (by omega), reports_of_cut, if_pos hhead]
        exact ⟨_, List.mem_singleton.mpr rfl, Option.some.inj h⟩
      · cases h

end Iocom
