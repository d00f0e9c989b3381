import Iocom.LighthousePublish

/-!
# The round trip of a lighthouse

The items which the server adds are the items which the client reports, unless the text
is cut inside of a network name, or the client looks for items where there are none: in
a nickname with a comma, or behind a text without a comma.
-/

namespace Iocom

open Separated LighthouseParams

variable {prm : LighthouseParams}

/-! ## One call -/

theorem itemText_eq (f : LighthouseServerOne) (item : PublishedItem prm) :
    LighthouseParams.itemText f item.endpoint item.networkName =
      ',' :: item.text f.tlsPortNr f.tcpPortNr := by
  have htls := portText_length_le (if prm.isIpv6 then 'T' else 't') f.tlsPortNr
    item.endpoint.tlsPort_le
  have htcp := portText_length_le (if prm.isIpv6 then 'S' else 's') f.tcpPortNr
    item.endpoint.tcpPort_le
  have hname := item.networkName_length_lt
  have hitemSz := prm.itemSz_ge
  have hcomma : osStrncpy [','] prm.itemSz = [','] :=
    osStrncpy_of_fits (by rw [List.length_singleton]; omega)
  have hports : prm.appendPort (if prm.isIpv6 then 'S' else 's') item.endpoint.tcpPort
      f.tcpPortNr (prm.appendPort (if prm.isIpv6 then 'T' else 't') item.endpoint.tlsPort
        f.tlsPortNr [',']) = ',' :: item.ports f.tlsPortNr f.tcpPortNr := by
    have htlsLength : [','].length + (portText (if prm.isIpv6 then 'T' else 't')
        item.endpoint.tlsPort f.tlsPortNr).length < prm.itemSz := by
      rw [List.length_singleton]
      omega
    have htcpLength : ([','] ++ portText (if prm.isIpv6 then 'T' else 't')
        item.endpoint.tlsPort f.tlsPortNr).length + (portText (if prm.isIpv6 then 'S' else 's')
          item.endpoint.tcpPort f.tcpPortNr).length < prm.itemSz := by
      rw [List.length_append, List.length_singleton]
      omega
    rw [appendPort_eq htlsLength, appendPort_eq htcpLength,
      PublishedItem.ports, List.append_assoc, List.singleton_append]
  have hlength := item.ports_length_le f.tlsPortNr f.tcpPortNr
  have happend : ∀ buf : List Char, buf.length ≤ 15 → ∀ c : Char,
      osStrncat buf [c] prm.itemSz = buf ++ [c] := by
    intro buf hbuf c
    exact osStrncat_of_fits (by rw [List.length_singleton]; omega)
  have hhead : osStrncat (osStrncat (osStrncat (',' :: item.ports f.tlsPortNr f.tcpPortNr) [':']
      prm.itemSz) [item.endpoint.protocol] prm.itemSz) [':'] prm.itemSz =
        ',' :: item.head f.tlsPortNr f.tcpPortNr := by
    have hone : osStrncat (',' :: item.ports f.tlsPortNr f.tcpPortNr) [':'] prm.itemSz =
        ',' :: item.ports f.tlsPortNr f.tcpPortNr ++ [':'] :=
      happend _ (by rw [List.length_cons]; omega) _
    have htwo : osStrncat (',' :: item.ports f.tlsPortNr f.tcpPortNr ++ [':'])
        [item.endpoint.protocol] prm.itemSz =
          ',' :: item.ports f.tlsPortNr f.tcpPortNr ++ [':'] ++ [item.endpoint.protocol] :=
      happend _ (by rw [List.length_append, List.length_cons, List.length_singleton]; omega) _
    have hthree : osStrncat
        (',' :: item.ports f.tlsPortNr f.tcpPortNr ++ [':'] ++ [item.endpoint.protocol]) [':']
          prm.itemSz =
        ',' :: item.ports f.tlsPortNr f.tcpPortNr ++ [':'] ++ [item.endpoint.protocol] ++ [':'] :=
      happend _ (by
        rw [List.length_append, List.length_append, List.length_cons, List.length_singleton,
          List.length_singleton]
        omega) _
    rw [hone, htwo, hthree, PublishedItem.head, List.append_assoc, List.append_assoc]
    rfl
  unfold LighthouseParams.itemText
  dsimp only
  rw [hcomma, hports, hhead]
  have hheadLength : (',' :: item.head f.tlsPortNr f.tcpPortNr).length ≤ 16 := by
    rw [List.length_cons, item.head_length]
    omega
  rw [if_neg (by omega), osStrncat_of_fits (by omega)]
  rfl

theorem take_append_take (text rest : List Char) (n : ℕ) :
    (text.take n ++ rest).take n = (text ++ rest).take n := by
  rw [List.take_append, List.take_append, List.take_take, Nat.min_self, List.length_take]
  congr 2
  omega

/-- The loop of `ioc_lighthouse_add_endpoint`. -/
theorem foldl_appendItem {endpoint : prm.Endpoint} {items : List (PublishedItem prm)}
    (hitems : ∀ item ∈ items, item.endpoint = endpoint) {f : LighthouseServerOne}
    (hf : f.publish.length ≤ 119) :
    (items.map PublishedItem.networkName).foldl (appendItem endpoint) f =
      { f with publish := (f.publish ++
          joined ',' (items.map (PublishedItem.text f.tlsPortNr f.tcpPortNr))).take 119 } := by
  induction items generalizing f with
  | nil => rw [List.map_nil, List.foldl_nil, List.map_nil, joined, List.append_nil,
      List.take_of_length_le hf]
  | cons item items ih =>
      have hone : appendItem endpoint f item.networkName =
          { f with publish :=
            (f.publish ++ ',' :: item.text f.tlsPortNr f.tcpPortNr).take 119 } := by
        rw [appendItem, ← hitems item List.mem_cons_self, itemText_eq]
        exact congrArg (fun publish => { f with publish := publish }) (osStrncat_eq_take
          (show f.publish.length ≤ lighthousePublishSz - 1 from hf))
      rw [List.map_cons, List.foldl_cons, hone,
        ih (fun other hother => hitems other (List.mem_cons_of_mem _ hother))
          (List.length_take_le _ _)]
      rw [take_append_take, List.map_cons, joined, List.append_assoc, List.cons_append]

theorem items_networkName {endpoint : prm.Endpoint}
    (hport : ¬ (endpoint.tcpPort = 0 ∧ endpoint.tlsPort = 0)) :
    endpoint.items.map PublishedItem.networkName = pieces ',' endpoint.publish := by
  rw [Endpoint.items, if_neg hport, List.map_map]
  exact List.attach_map_subtype_val _

theorem endpoint_of_mem_items {endpoint : prm.Endpoint} {item : PublishedItem prm}
    (h : item ∈ endpoint.items) : item.endpoint = endpoint := by
  unfold Endpoint.items at h
  split_ifs at h
  · cases h
  · obtain ⟨name, _, rfl⟩ := List.mem_map.mp h
    rfl

/-! ## The server -/

def LighthouseParams.lighthouseServer (prm : LighthouseParams) (nickname : List Char)
    (endpoints : List prm.Endpoint) : LighthouseServerOne :=
  endpoints.foldl lighthouseAddEndpoint (lighthouseStartEndpoints nickname)

theorem firstPort_zero (ports : List ℕ) : firstPort (0 :: ports) = firstPort ports :=
  if_pos rfl

theorem firstPort_of_ne_zero {port : ℕ} (h : port ≠ 0) (ports : List ℕ) :
    firstPort (port :: ports) = port :=
  if_neg h

theorem firstPort_singleton (port : ℕ) : firstPort [port] = port := by
  by_cases hport : port = 0
  · rw [hport]
    rfl
  · exact firstPort_of_ne_zero hport []

theorem firstPort_cons_cons (port port' : ℕ) (ports : List ℕ) :
    firstPort (port :: port' :: ports) = firstPort (firstPort [port, port'] :: ports) := by
  by_cases hport : port = 0
  · rw [hport, firstPort_zero, firstPort_zero, firstPort_singleton]
  · rw [firstPort_of_ne_zero hport, firstPort_of_ne_zero hport, firstPort_of_ne_zero hport]

theorem firstPort_ne_zero {port port' : ℕ} (h : port' ≠ 0) : firstPort [port, port'] ≠ 0 := by
  by_cases hport : port = 0
  · rw [hport, firstPort_zero, firstPort_singleton]
    exact h
  · rw [firstPort_of_ne_zero hport]
    exact hport

theorem trySetDefaultTlsPort_eq (f : LighthouseServerOne) {port : ℕ} (hport : port ≤ 65535) :
    ∃ configured, f.trySetDefaultTlsPort port =
      { f with tlsPortNr := firstPort [f.tlsPortNr, port], isConfigured := configured } := by
  unfold LighthouseServerOne.trySetDefaultTlsPort
  by_cases hset : f.tlsPortNr = 0
  · have hfirst : firstPort [f.tlsPortNr, port] = port := by
      rw [hset, firstPort_zero, firstPort_singleton]
    rw [hfirst, if_neg (not_not.mpr hset)]
    split_ifs with hzero
    · exact ⟨f.isConfigured, by rw [hzero, ← hset]⟩
    · exact ⟨true, by rw [Nat.mod_eq_of_lt (by omega)]⟩
  · rw [firstPort_of_ne_zero hset, if_pos hset]
    exact ⟨f.isConfigured, by split_ifs <;> rfl⟩

theorem trySetDefaultTcpPort_eq (f : LighthouseServerOne) {port : ℕ} (hport : port ≤ 65535) :
    ∃ configured, f.trySetDefaultTcpPort port =
      { f with tcpPortNr := firstPort [f.tcpPortNr, port], isConfigured := configured } := by
  unfold LighthouseServerOne.trySetDefaultTcpPort
  by_cases hset : f.tcpPortNr = 0
  · have hfirst : firstPort [f.tcpPortNr, port] = port := by
      rw [hset, firstPort_zero, firstPort_singleton]
    rw [hfirst, if_neg (not_not.mpr hset)]
    split_ifs with hzero
    · exact ⟨f.isConfigured, by rw [hzero, ← hset]⟩
    · exact ⟨true, by rw [Nat.mod_eq_of_lt (by omega)]⟩
  · rw [firstPort_of_ne_zero hset, if_pos hset]
    exact ⟨f.isConfigured, by split_ifs <;> rfl⟩

theorem lighthouseAddEndpoint_eq {f : LighthouseServerOne} (hf : f.publish.length ≤ 119)
    {endpoint : prm.Endpoint} (hport : ¬ (endpoint.tcpPort = 0 ∧ endpoint.tlsPort = 0)) :
    ∃ configured publish,
      publish = (f.publish ++ joined ',' (endpoint.items.map
        (PublishedItem.text (firstPort [f.tlsPortNr, endpoint.tlsPort])
          (firstPort [f.tcpPortNr, endpoint.tcpPort])))).take 119 ∧
      lighthouseAddEndpoint f endpoint =
        { publish := publish
          tlsPortNr := firstPort [f.tlsPortNr, endpoint.tlsPort]
          tcpPortNr := firstPort [f.tcpPortNr, endpoint.tcpPort]
          publishSz := publish.length + 1
          isConfigured := configured } := by
  obtain ⟨configured, htls⟩ := trySetDefaultTlsPort_eq f endpoint.tlsPort_le
  obtain ⟨configured', htcp⟩ := trySetDefaultTcpPort_eq (f.trySetDefaultTlsPort endpoint.tlsPort)
    endpoint.tcpPort_le
  refine ⟨configured', _, rfl, ?_⟩
  rw [htls] at htcp
  unfold lighthouseAddEndpoint
  rw [if_neg hport]
  dsimp only
  rw [htls, htcp, ← items_networkName hport,
    foldl_appendItem (fun item hitem => endpoint_of_mem_items hitem) (by exact hf)]
  dsimp only
  rw [Nat.mod_eq_of_lt]
  have hlength := List.length_take_le 119 (f.publish ++ joined ',' (endpoint.items.map
    (PublishedItem.text (firstPort [f.tlsPortNr, endpoint.tlsPort])
      (firstPort [f.tcpPortNr, endpoint.tcpPort]))))
  omega

structure Sendable (f : LighthouseServerOne) : Prop where
  publish_length : f.publish.length ≤ 119
  publishSz_eq : f.isConfigured = true → f.publishSz = f.publish.length + 1
  ports_ne_zero : f.isConfigured = true → f.tlsPortNr ≠ 0 ∨ f.tcpPortNr ≠ 0

theorem sendable_start (nickname : List Char) : Sendable (lighthouseStartEndpoints nickname) where
  publish_length := List.length_take_le _ _
  publishSz_eq h := by cases h
  ports_ne_zero h := by cases h

theorem lighthouseAddEndpoint_sendable {f : LighthouseServerOne} (hf : Sendable f)
    (endpoint : prm.Endpoint) : Sendable (lighthouseAddEndpoint f endpoint) := by
  by_cases hport : endpoint.tcpPort = 0 ∧ endpoint.tlsPort = 0
  · rw [lighthouseAddEndpoint, if_pos hport]
    exact hf
  · obtain ⟨configured, publish, hpublish, hadded⟩ :=
      lighthouseAddEndpoint_eq hf.publish_length hport
    rw [hadded]
    refine ⟨?_, fun _ => rfl, fun _ => ?_⟩
    · rw [hpublish]
      exact List.length_take_le _ _
    · by_cases htcp : endpoint.tcpPort = 0
      · exact Or.inl (firstPort_ne_zero fun htls => hport ⟨htcp, htls⟩)
      · exact Or.inr (firstPort_ne_zero htcp)

theorem lighthouseAddEndpoint_spec {f : LighthouseServerOne} (hf : Sendable f)
    (endpoint : prm.Endpoint) :
    (lighthouseAddEndpoint f endpoint).tlsPortNr = firstPort [f.tlsPortNr, endpoint.tlsPort] ∧
      (lighthouseAddEndpoint f endpoint).tcpPortNr =
        firstPort [f.tcpPortNr, endpoint.tcpPort] ∧
      (lighthouseAddEndpoint f endpoint).publish =
        (f.publish ++ joined ',' (endpoint.items.map
          (PublishedItem.text (firstPort [f.tlsPortNr, endpoint.tlsPort])
            (firstPort [f.tcpPortNr, endpoint.tcpPort])))).take 119 := by
  by_cases hport : endpoint.tcpPort = 0 ∧ endpoint.tlsPort = 0
  · have hfirst : ∀ port : ℕ, port = firstPort [port, 0] := by
      intro port
      by_cases hzero : port = 0
      · rw [hzero]
        rfl
      · rw [firstPort_of_ne_zero hzero]
    rw [lighthouseAddEndpoint, if_pos hport, hport.1, hport.2, Endpoint.items, if_pos hport,
      List.map_nil, joined, List.append_nil, List.take_of_length_le hf.publish_length]
    exact ⟨hfirst _, hfirst _, rfl⟩
  · obtain ⟨configured, publish, hpublish, hadded⟩ :=
      lighthouseAddEndpoint_eq hf.publish_length hport
    rw [hadded]
    exact ⟨rfl, rfl, hpublish⟩

theorem foldl_addEndpoint (endpoints : List prm.Endpoint) {f : LighthouseServerOne}
    (hf : Sendable f) :
    Sendable (endpoints.foldl lighthouseAddEndpoint f) ∧
      (endpoints.foldl lighthouseAddEndpoint f).tlsPortNr =
        firstPort (f.tlsPortNr :: endpoints.map Endpoint.tlsPort) ∧
      (endpoints.foldl lighthouseAddEndpoint f).tcpPortNr =
        firstPort (f.tcpPortNr :: endpoints.map Endpoint.tcpPort) ∧
      (endpoints.foldl lighthouseAddEndpoint f).publish =
        (f.publish ++ joined ',' ((endpoints.flatMap Endpoint.items).map
          (PublishedItem.text (firstPort (f.tlsPortNr :: endpoints.map Endpoint.tlsPort))
            (firstPort (f.tcpPortNr :: endpoints.map Endpoint.tcpPort))))).take 119 := by
  induction endpoints generalizing f with
  | nil =>
      refine ⟨hf, (firstPort_singleton _).symm, (firstPort_singleton _).symm, ?_⟩
      rw [List.flatMap_nil, List.map_nil, joined, List.append_nil,
        List.take_of_length_le hf.publish_length]
      rfl
  | cons endpoint endpoints ih =>
      obtain ⟨htls, htcp, hpublish⟩ := lighthouseAddEndpoint_spec hf endpoint
      obtain ⟨hsendable, htls', htcp', hpublish'⟩ :=
        ih (lighthouseAddEndpoint_sendable hf endpoint)
      rw [htls] at htls' hpublish'
      rw [htcp] at htcp' hpublish'
      rw [List.foldl_cons, List.map_cons, List.map_cons, firstPort_cons_cons,
        firstPort_cons_cons f.tcpPortNr]
      refine ⟨hsendable, htls', htcp', ?_⟩
      -- the items of this call have the defaults which it leaves behind
      have hdefaults : endpoint.items.map
          (PublishedItem.text (firstPort [f.tlsPortNr, endpoint.tlsPort])
            (firstPort [f.tcpPortNr, endpoint.tcpPort])) =
          endpoint.items.map (PublishedItem.text
            (firstPort (firstPort [f.tlsPortNr, endpoint.tlsPort] ::
              endpoints.map Endpoint.tlsPort))
            (firstPort (firstPort [f.tcpPortNr, endpoint.tcpPort] ::
              endpoints.map Endpoint.tcpPort))) := by
        apply List.map_congr_left
        intro item hitem
        rw [← endpoint_of_mem_items hitem]
        exact PublishedItem.text_congr
          (fun hne => (firstPort_of_ne_zero (firstPort_ne_zero hne) _).symm)
          (fun hne => (firstPort_of_ne_zero (firstPort_ne_zero hne) _).symm)
      rw [hpublish', hpublish, hdefaults, take_append_take, List.flatMap_cons, List.map_append,
        joined_append, List.append_assoc]

/-! ## The packet -/

variable {nickname : List Char} {endpoints : List prm.Endpoint} {leftover : List Char}

def addedItems (endpoints : List prm.Endpoint) : List (PublishedItem prm) :=
  endpoints.flatMap Endpoint.items

def tlsDefaultPort (endpoints : List prm.Endpoint) : ℕ :=
  firstPort (endpoints.map Endpoint.tlsPort)

def tcpDefaultPort (endpoints : List prm.Endpoint) : ℕ :=
  firstPort (endpoints.map Endpoint.tcpPort)

def itemTexts (endpoints : List prm.Endpoint) : List (List Char) :=
  (addedItems endpoints).map
    (PublishedItem.text (tlsDefaultPort endpoints) (tcpDefaultPort endpoints))

def publishedNickname (nickname : List Char) : List Char := osStrncpy nickname lighthousePublishSz

def itemRoom (nickname : List Char) : ℕ :=
  lighthousePublishSz - 1 - (publishedNickname nickname).length

theorem lighthouseServer_spec (nickname : List Char) (endpoints : List prm.Endpoint) :
    Sendable (prm.lighthouseServer nickname endpoints) ∧
      (prm.lighthouseServer nickname endpoints).tlsPortNr = tlsDefaultPort endpoints ∧
      (prm.lighthouseServer nickname endpoints).tcpPortNr = tcpDefaultPort endpoints ∧
      (prm.lighthouseServer nickname endpoints).publish = publishedNickname nickname ++
        joined ',' (fitted (itemRoom nickname) (itemTexts endpoints)) := by
  obtain ⟨hsendable, htls, htcp, hpublish⟩ :=
    foldl_addEndpoint endpoints (sendable_start nickname)
  have hlength : (publishedNickname nickname).length ≤ 119 := List.length_take_le _ _
  refine ⟨hsendable, htls, htcp, ?_⟩
  rw [← joined_take]
  calc (prm.lighthouseServer nickname endpoints).publish =
        (publishedNickname nickname ++ joined ',' (itemTexts endpoints)).take 119 := hpublish
    _ = publishedNickname nickname ++
          (joined ',' (itemTexts endpoints)).take (itemRoom nickname) := by
        rw [List.take_append, List.take_of_length_le hlength]
        rfl

theorem nul_notMem_joined {texts : List (List Char)} (h : ∀ text ∈ texts, nul ∉ text) :
    nul ∉ joined ',' texts := by
  induction texts with
  | nil => exact List.not_mem_nil
  | cons text texts ih =>
      rw [joined]
      intro hmem
      rcases List.mem_cons.mp hmem with heq | hmem
      · revert heq
        decide
      · rcases List.mem_append.mp hmem with hmem | hmem
        · exact h text List.mem_cons_self hmem
        · exact ih (fun other hother => h other (List.mem_cons_of_mem _ hother)) hmem

theorem itemTexts_plain {room : ℕ} {text : List Char}
    (h : text ∈ fitted room (itemTexts endpoints)) : ',' ∉ text ∧ nul ∉ text := by
  obtain ⟨whole, hwhole, hstarts⟩ := mem_fitted h
  obtain ⟨item, _, rfl⟩ := List.mem_map.mp hwhole
  exact ⟨fun hmem => item.text_plain.1 (hstarts.subset hmem),
    fun hmem => item.text_plain.2 (hstarts.subset hmem)⟩

/-! ## The client -/

def memoryAfter (published leftover : List Char) : List Char :=
  if published.length < lighthousePublishSz - 1 then
    leftover.set (lighthousePublishSz - 2 - published.length) nul
  else leftover

theorem publishMemory_eq {f : LighthouseServerOne} (hf : Sendable f)
    (hconf : f.isConfigured = true) (leftover : List Char) :
    publishMemory f leftover = f.publish ++ nul :: memoryAfter f.publish leftover := by
  have hlength := hf.publish_length
  have htake : (f.publish ++ [nul]).take f.publishSz = f.publish ++ [nul] := by
    rw [hf.publishSz_eq hconf, List.take_of_length_le]
    rw [List.length_append, List.length_singleton]
  have hsz : lighthousePublishSz = 120 := rfl
  unfold publishMemory memoryAfter
  rw [htake, List.append_assoc, List.singleton_append, List.set_append_right _ _ (by omega)]
  congr 1
  split_ifs with hroom
  · obtain ⟨more, hmore⟩ : ∃ more, lighthousePublishSz - 1 - f.publish.length = more + 1 :=
      ⟨lighthousePublishSz - 2 - f.publish.length, by omega⟩
    rw [hmore, List.set_cons_succ]
    congr 2
    omega
  · have hnone : lighthousePublishSz - 1 - f.publish.length = 0 := by omega
    rw [hnone, List.set_cons_zero]

theorem cString_eq {text more : List Char} (h : nul ∉ text) :
    cString (text ++ nul :: more) = text :=
  (before_sep_cons h more).1

theorem networksText_of_comma {first rest more : List Char} (hfirst : ',' ∉ first)
    (hnul : nul ∉ first ++ ',' :: rest) :
    networksText ((first ++ ',' :: rest) ++ nul :: more) = rest := by
  have htake := (before_sep_cons hfirst rest).1
  have hdrop : ((first ++ ',' :: rest) ++ nul :: more).drop (first.length + 1) =
      rest ++ nul :: more := by
    rw [List.append_assoc, ← List.drop_drop, List.drop_left]
    rfl
  have hrest : nul ∉ rest := fun h =>
    hnul (List.mem_append_right _ (List.mem_cons_of_mem _ h))
  unfold networksText
  dsimp only
  rw [cString_eq hnul, htake, hdrop, cString_eq hrest]

/-- Without a comma the client goes on behind the terminating NUL. -/
theorem networksText_of_noComma {text more : List Char} (hcomma : ',' ∉ text)
    (hnul : nul ∉ text) : networksText (text ++ nul :: more) = cString more := by
  have htake : text.takeWhile (· ≠ ',') = text :=
    List.takeWhile_eq_self_iff.mpr fun _ hc => decide_eq_true fun heq => hcomma (heq ▸ hc)
  unfold networksText
  dsimp only
  rw [cString_eq hnul, htake, ← List.drop_drop, List.drop_left]
  rfl

/-- The texts which the client takes for items and which the server did not add: those
after the first comma of the nickname, and those behind a text without a comma. -/
def strayTexts (nickname : List Char) (endpoints : List prm.Endpoint) (leftover : List Char) :
    List (List Char) :=
  if ',' ∈ publishedNickname nickname then
    pieces ',' (((publishedNickname nickname).dropWhile (· ≠ ',')).drop 1)
  else if addedItems endpoints = [] ∨ itemRoom nickname = 0 then
    pieces ',' (cString (memoryAfter (publishedNickname nickname) leftover))
  else []

theorem parseNetworkItem_nil (prm : LighthouseParams) (tlsDefault tcpDefault : ℕ) :
    prm.parseNetworkItem tlsDefault tcpDefault [] = none := by
  rw [Option.eq_none_iff_forall_ne_some]
  intro r hr
  obtain ⟨marks, rest, htext, _⟩ := (prm.parseNetworkItem_eq_some_iff.mp hr).colons
  rw [List.take_nil] at htext
  exact absurd htext.symm (List.append_ne_nil_of_right_ne_nil _ (List.cons_ne_nil _ _))

/-- The client reads the stray texts and then the items which fit. -/
theorem lighthouseClient_eq (hnul : nul ∉ nickname)
    (hconf : (prm.lighthouseServer nickname endpoints).isConfigured = true) :
    prm.lighthouseClient (prm.lighthouseServer nickname endpoints) leftover =
      (strayTexts nickname endpoints leftover).filterMap
          (prm.parseNetworkItem (tlsDefaultPort endpoints) (tcpDefaultPort endpoints)) ++
        (fitted (itemRoom nickname) (itemTexts endpoints)).filterMap
          (prm.parseNetworkItem (tlsDefaultPort endpoints) (tcpDefaultPort endpoints)) := by
  obtain ⟨hsendable, htls, htcp, hpublish⟩ := lighthouseServer_spec nickname endpoints
  have hsz := hsendable.publishSz_eq hconf
  have hlength := hsendable.publish_length
  have hread : prm.lighthouseClient (prm.lighthouseServer nickname endpoints) leftover =
      (pieces ',' (networksText (publishMemory (prm.lighthouseServer nickname endpoints)
        leftover))).filterMap
          (prm.parseNetworkItem (tlsDefaultPort endpoints) (tcpDefaultPort endpoints)) := by
    have hbounds : ¬ ((prm.lighthouseServer nickname endpoints).publishSz < 1 ∨
        lighthousePublishSz < (prm.lighthouseServer nickname endpoints).publishSz) := by
      have h120 : lighthousePublishSz = 120 := rfl
      omega
    rw [LighthouseParams.lighthouseClient, if_neg hbounds, if_pos (hsendable.ports_ne_zero hconf),
      htls, htcp]
  have hempty := parseNetworkItem_nil prm (tlsDefaultPort endpoints)
    (tcpDefaultPort endpoints)
  have hplain : ∀ text ∈ fitted (itemRoom nickname) (itemTexts endpoints), ',' ∉ text :=
    fun text htext => (itemTexts_plain htext).1
  have hnick : nul ∉ publishedNickname nickname := fun h =>
    hnul ((List.take_prefix _ _).subset h)
  have hpublishNul : nul ∉ publishedNickname nickname ++
      joined ',' (fitted (itemRoom nickname) (itemTexts endpoints)) := by
    intro h
    rcases List.mem_append.mp h with h | h
    · exact hnick h
    · exact nul_notMem_joined (fun text htext => (itemTexts_plain htext).2) h
  rw [hread, publishMemory_eq hsendable hconf, hpublish]
  unfold strayTexts
  by_cases hcomma : ',' ∈ publishedNickname nickname
  · -- the items follow the rest of the nickname
    obtain ⟨first, rest, hsplit, hfirst⟩ := List.eq_append_cons_of_mem hcomma
    have hrest : ((publishedNickname nickname).dropWhile (· ≠ ',')).drop 1 = rest := by
      rw [hsplit, (before_sep_cons hfirst rest).2]
      rfl
    rw [if_pos hcomma, hrest]
    have hwhole : publishedNickname nickname ++
        joined ',' (fitted (itemRoom nickname) (itemTexts endpoints)) =
          first ++ ',' :: (rest ++
            joined ',' (fitted (itemRoom nickname) (itemTexts endpoints))) := by
      rw [hsplit, List.append_assoc, List.cons_append]
    rw [hwhole] at hpublishNul ⊢
    rw [networksText_of_comma hfirst hpublishNul, filterMap_pieces_joined hempty rest hplain]
  · rw [if_neg hcomma]
    have hnone : (addedItems endpoints = [] ∨ itemRoom nickname = 0) ↔
        fitted (itemRoom nickname) (itemTexts endpoints) = [] := by
      rw [fitted_eq_nil_iff, itemTexts, List.map_eq_nil_iff]
    cases hfitted : fitted (itemRoom nickname) (itemTexts endpoints) with
    | nil =>
        rw [if_pos (hnone.mpr hfitted), joined, List.append_nil,
          networksText_of_noComma hcomma hnick, List.filterMap_nil, List.append_nil]
    | cons text texts =>
        have hfirstText : ',' ∉ text := hplain text (hfitted ▸ List.mem_cons_self)
        have hothers : ∀ other ∈ texts, ',' ∉ other := fun other hother =>
          hplain other (hfitted ▸ List.mem_cons_of_mem _ hother)
        have hsome : ¬ (addedItems endpoints = [] ∨ itemRoom nickname = 0) := by
          rw [hnone, hfitted]
          exact List.cons_ne_nil _ _
        rw [hfitted, joined] at hpublishNul
        rw [if_neg hsome, joined, networksText_of_comma hcomma hpublishNul,
          filterMap_pieces_joined hempty text hothers, pieces_of_notMem hfirstText,
          List.filterMap_nil, List.nil_append, List.filterMap_cons]
        by_cases hnil : text = []
        · rw [if_pos hnil, hnil, hempty]
          rfl
        · rw [if_neg hnil, List.filterMap_cons]
          cases prm.parseNetworkItem (tlsDefaultPort endpoints) (tcpDefaultPort endpoints)
            text <;> rfl

/-! ## The round trip -/

def PublishFits (nickname : List Char) (endpoints : List prm.Endpoint) : Prop :=
  (nickname ++ joined ',' (itemTexts endpoints)).length < lighthousePublishSz

structure AddedByServer (endpoints : List prm.Endpoint) (r : LighthouseReport) : Prop where
  networkName : ∃ item ∈ addedItems endpoints, item.report.networkName = r.networkName
  protocol : ∃ item ∈ addedItems endpoints, item.report.protocol = r.protocol
  tlsPortNr : r.tlsPortNr = 0 ∨
    ∃ item ∈ addedItems endpoints, item.report.tlsPortNr = r.tlsPortNr
  tcpPortNr : r.tcpPortNr = 0 ∨
    ∃ item ∈ addedItems endpoints, item.report.tcpPortNr = r.tcpPortNr

theorem addedByServer_of_name {item : PublishedItem prm} (hitem : item ∈ addedItems endpoints)
    {name : List Char} (hname : ∃ other ∈ addedItems endpoints, other.report.networkName = name) :
    AddedByServer endpoints { item.report with networkName := name } where
  networkName := hname
  protocol := ⟨item, hitem, rfl⟩
  tlsPortNr := Or.inr ⟨item, hitem, rfl⟩
  tcpPortNr := Or.inr ⟨item, hitem, rfl⟩

theorem fitted_of_publishFits (h : PublishFits nickname endpoints) :
    fitted (itemRoom nickname) (itemTexts endpoints) = itemTexts endpoints := by
  unfold PublishFits at h
  rw [List.length_append] at h
  have hnick : publishedNickname nickname = nickname := osStrncpy_of_fits (by omega)
  have hroom : (joined ',' (itemTexts endpoints)).length ≤ itemRoom nickname := by
    rw [itemRoom, hnick]
    omega
  exact fitted_of_fits hroom

/-- The client reports the added items if the text fits, and never what the server has not
added, exactly if the stray texts are no items of another kind and the text is not cut in
a network name, unless what is left of the name is an added name as well. -/
theorem lighthouse_publish_iff (prm : LighthouseParams) {nickname : List Char}
    (hnul : nul ∉ nickname) (endpoints : List prm.Endpoint)
    (hconf : (prm.lighthouseServer nickname endpoints).isConfigured = true)
    (leftover : List Char) :
    ((PublishFits nickname endpoints →
        prm.lighthouseClient (prm.lighthouseServer nickname endpoints) leftover =
          (addedItems endpoints).map PublishedItem.report) ∧
      ∀ r ∈ prm.lighthouseClient (prm.lighthouseServer nickname endpoints) leftover,
        AddedByServer endpoints r) ↔
    (∀ text ∈ strayTexts nickname endpoints leftover, ∀ r,
        ItemText (tlsDefaultPort endpoints) (tcpDefaultPort endpoints)
          (text.take (prm.networkItemSz - 1)) r →
        ¬ PublishFits nickname endpoints ∧ AddedByServer endpoints r) ∧
      ∀ name ∈ cutName (tlsDefaultPort endpoints) (tcpDefaultPort endpoints)
          (itemRoom nickname) (addedItems endpoints),
        ∃ item ∈ addedItems endpoints, item.report.networkName = name := by
  rw [lighthouseClient_eq hnul hconf]
  have hstray : ∀ r, r ∈ (strayTexts nickname endpoints leftover).filterMap
      (prm.parseNetworkItem (tlsDefaultPort endpoints) (tcpDefaultPort endpoints)) ↔
      ∃ text ∈ strayTexts nickname endpoints leftover,
        ItemText (tlsDefaultPort endpoints) (tcpDefaultPort endpoints)
          (text.take (prm.networkItemSz - 1)) r := by
    intro r
    rw [List.mem_filterMap]
    exact exists_congr fun text => and_congr_right fun _ => prm.parseNetworkItem_eq_some_iff
  constructor
  · rintro ⟨hsame, hadded⟩
    refine ⟨fun text htext r hr => ⟨fun hfits => ?_, ?_⟩, fun name hname => ?_⟩
    · have hall := hsame hfits
      rw [fitted_of_publishFits hfits, itemTexts, reports_of_text] at hall
      have hnone := List.append_left_eq_self.mp hall
      have hmem := (hstray r).mpr ⟨text, htext, hr⟩
      rw [hnone] at hmem
      cases hmem
    · exact hadded r (List.mem_append_left _ ((hstray r).mpr ⟨text, htext, hr⟩))
    · obtain ⟨r, hr, rfl⟩ := cutName_reported hname
      exact (hadded r (List.mem_append_right _ hr)).networkName
  · rintro ⟨hstrays, hcut⟩
    refine ⟨fun hfits => ?_, fun r hr => ?_⟩
    · have hnone : (strayTexts nickname endpoints leftover).filterMap
          (prm.parseNetworkItem (tlsDefaultPort endpoints) (tcpDefaultPort endpoints)) = [] := by
        rw [List.eq_nil_iff_forall_not_mem]
        intro r hr
        obtain ⟨text, htext, hitem⟩ := (hstray r).mp hr
        exact (hstrays text htext r hitem).1 hfits
      rw [hnone, List.nil_append, fitted_of_publishFits hfits, itemTexts, reports_of_text]
    · rcases List.mem_append.mp hr with hr | hr
      · obtain ⟨text, htext, hitem⟩ := (hstray r).mp hr
        exact (hstrays text htext r hitem).2
      · obtain ⟨item, hitem, rfl | ⟨name, hname, rfl⟩⟩ := mem_reports_of_fitted hr
        · exact addedByServer_of_name hitem ⟨item, hitem, rfl⟩
        · exact addedByServer_of_name hitem (hcut name hname)

def lighthouseWithIpv4 : LighthouseParams where
  networkNameSz := 24
  nameSz := 8
  nameSz_ge := by decide
  itemSz := 58
  itemSz_ge := by decide
  isIpv6 := false

def cafenet : lighthouseWithIpv4.Endpoint where
  publish := ['c', 'a', 'f', 'e', 'n', 'e', 't']
  protocol := 'i'
  tlsPort := 6369
  tcpPort := 0
  publish_noNul := by decide
  publish_noColon := by decide
  publish_fits := by decide
  protocol_alpha := by decide
  tlsPort_le := by decide
  tcpPort_le := by decide

theorem lighthouse_publish_cafenet :
    lighthouseWithIpv4.lighthouseClient (lighthouseWithIpv4.lighthouseServer ['n'] [cafenet]) [] =
      (addedItems [cafenet]).map PublishedItem.report := by
  have hnone : strayTexts ['n'] [cafenet] [] = [] := by decide +kernel
  have hcut : cutName (tlsDefaultPort [cafenet]) (tcpDefaultPort [cafenet]) (itemRoom ['n'])
      (addedItems [cafenet]) = none := by decide +kernel
  refine ((lighthouse_publish_iff lighthouseWithIpv4 (by decide) [cafenet] (by decide +kernel)
    []).mpr ⟨fun text htext => ?_, fun name hname => ?_⟩).1 (show _ < _ by decide +kernel)
  · rw [hnone] at htext
    cases htext
  · rw [hcut] at hname
    cases hname

def fiveNetworks : lighthouseWithIpv4.Endpoint where
  publish := (List.replicate 4 (List.replicate 23 'a' ++ [','])).flatten ++ List.replicate 23 'b'
  protocol := 'i'
  tlsPort := 6369
  tcpPort := 0
  publish_noNul := by decide +kernel
  publish_noColon := by decide +kernel
  publish_fits := by decide +kernel
  protocol_alpha := by decide
  tlsPort_le := by decide
  tcpPort_le := by decide

/-- Of the fifth name the client reports the first character. -/
theorem cut_network_name_reported :
    ¬ ((PublishFits ['n'] [fiveNetworks] →
        lighthouseWithIpv4.lighthouseClient
            (lighthouseWithIpv4.lighthouseServer ['n'] [fiveNetworks]) [] =
          (addedItems [fiveNetworks]).map PublishedItem.report) ∧
      ∀ r ∈ lighthouseWithIpv4.lighthouseClient
          (lighthouseWithIpv4.lighthouseServer ['n'] [fiveNetworks]) [],
        AddedByServer [fiveNetworks] r) := by
  rintro ⟨_, hadded⟩
  have hreported : (⟨['b'], ['i'], 6369, 0⟩ : LighthouseReport) ∈
      lighthouseWithIpv4.lighthouseClient
        (lighthouseWithIpv4.lighthouseServer ['n'] [fiveNetworks]) [] := by decide +kernel
  have hother : ∀ item ∈ addedItems [fiveNetworks], item.report.networkName ≠ ['b'] := by
    decide +kernel
  obtain ⟨item, hitem, hname⟩ := (hadded _ hreported).networkName
  exact hother item hitem hname

end Iocom
