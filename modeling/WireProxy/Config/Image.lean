import WireProxy.Config.Literal
import WireProxy.Config.Pieces

/-!
# The configurations that can be written

Which values `ParseConfig` returns, whatever the file: exactly the sound ones.

* `Sound` says what holds of a configuration: keys of 32 bytes, addresses that fit in a list, the
  documented rules for the AmneziaWG parameters, peers with valid routes and an ordered keepalive
  range, and the routines in the order of their kinds.
* For each part there is a pair of lemmas: what is parsed is sound, and what is sound is parsed from
  some section. `parseConfig_image` puts them together.
-/

namespace WireProxy.Config

open Text Go Netip Awg Control Record

variable {w : IntSize} {host : Host}

/-! ## Sound configurations -/

/-- The hexadecimal text of a key. -/
def IsKey (hex : Text) : Prop := ∃ bytes : Bytes, bytes.length = 32 ∧ hex = encodeHex bytes

/-- The values of an AmneziaWG parameter that are parsed from some text. -/
def Admits : ∀ d : Kind, d.Value w → Prop
  | .range, r => UintRange.min r ≤ UintRange.max r
  | .key, hex => IsKey hex
  | _, _ => True

/-- A peer that is parsed from some section. -/
structure PeerSound (host : Host) (p : PeerConfig w) : Prop where
  publicKey : IsKey p.publicKey
  preSharedKey : IsKey p.preSharedKey
  /-- The endpoint is what some text resolves to. -/
  endpoint : ∀ e ∈ p.endpoint, ∃ t, resolveIPPAndPort host (host.toLower t) = .ok e
  /-- The public fields are the bounds of the cached range. -/
  keepAlive : p.keepAlive = GoInt.ofUint32 (p.keepAliveRange.getD ⟨0, 0⟩).min
  keepAliveMax : p.keepAliveMax = GoInt.ofUint32 (p.keepAliveRange.getD ⟨0, 0⟩).max
  keepAliveRange : ∀ r ∈ p.keepAliveRange, r.min ≤ r.max
  allowedIPs : ∀ ip ∈ p.allowedIPs, ip.IsValid

/-- The AmneziaWG parameters of a device, if it has any. -/
structure ASecSound (c : Option (ASecConfigType w)) : Prop where
  /-- The record is allocated iff some key is set, and fields that are not set are zero. -/
  canonical : c = record aSecTable fun k => c.bind k.get
  admits : ∀ (k : AwgKey) (v : k.Value w), c.bind k.get = some v → Admits k.kind v
  documented : ∀ c' ∈ c, Documented c'

/-- What an `[Interface]` section says about a device. -/
structure InterfaceSound (d : DeviceConfig w) : Prop where
  secretKey : IsKey d.secretKey
  endpoint : ∀ a ∈ d.endpoint, IsListed a
  dns : ∀ a ∈ d.dns, IsListed a
  checkAlive : ∀ a ∈ d.checkAlive, IsListed a
  /-- Without addresses to check, the interval is the default one. -/
  checkAliveInterval : d.checkAlive = [] → d.checkAliveInterval = 5
  aSecConfig : ASecSound d.aSecConfig

/-- A routine that is parsed from some section. -/
def RoutineSound (host : Host) : RoutineSpawner w → Prop
  | .tcpClientTunnel conf => ∃ addr, host.resolveTCPAddr addr = .ok conf.bindAddress
  | .tcpServerTunnel conf => 0 ≤ conf.listenPort.toInt ∧ conf.listenPort.toInt < 65536
  | _ => True

/-- The kind of a routine. -/
def kindOf : RoutineSpawner w → RoutineKind
  | .tcpClientTunnel _ => .tcpClientTunnel
  | .stdioTunnel _ => .stdioTunnel
  | .tcpServerTunnel _ => .tcpServerTunnel
  | .socks5 _ => .socks5
  | .http _ => .http
  | .udpProxyTunnel _ => .udpProxyTunnel

/-- **A sound configuration.** -/
structure Sound (host : Host) (conf : Configuration w) : Prop where
  interface : InterfaceSound conf.device
  peers_ne_nil : conf.device.peers ≠ []
  peers : ∀ p ∈ conf.device.peers, PeerSound host p
  routines : ∀ r ∈ conf.routines, RoutineSound host r
  /-- The routines are grouped by their kinds. -/
  grouped : conf.routines = RoutineKind.all.flatMap fun kind =>
    conf.routines.filter fun r => kindOf r = kind

/-! ## Values -/

theorem isKey_of_encodeBase64ToHex {t hex : Text} (h : encodeBase64ToHex t = .ok hex) :
    IsKey hex := by
  obtain ⟨bytes, -, hlen, rfl⟩ := encodeBase64ToHex_eq_ok h
  exact ⟨bytes, hlen, rfl⟩

theorem IsKey.exists_text {hex : Text} (h : IsKey hex) : ∃ t, encodeBase64ToHex t = .ok hex := by
  obtain ⟨bytes, hlen, rfl⟩ := h
  exact ⟨encodeBase64 bytes, encodeBase64ToHex_encodeBase64 hlen⟩

/-- **The values of a parameter** are those that are parsed from some text. -/
theorem exists_parse_iff {d : Kind} {name : Text} {v : d.Value w} :
    (∃ t, d.parse host name t = .ok v) ↔ Admits d v := by
  cases d with
  | int => exact iff_of_true ⟨_, keyInt_format v⟩ trivial
  | range =>
    constructor
    · rintro ⟨t, ht⟩
      exact le_of_parseUintRange (invalidValue_eq_ok_iff.1 ht)
    · exact fun h => ⟨_, invalidValue_eq_ok_iff.2 (parseUintRange_toText h)⟩
  | text => exact iff_of_true ⟨v, rfl⟩ trivial
  | key =>
    constructor
    · rintro ⟨t, ht⟩
      exact isKey_of_encodeBase64ToHex (invalidValue_eq_ok_iff.1 ht)
    · rintro h
      obtain ⟨t, ht⟩ := IsKey.exists_text h
      exact ⟨t, invalidValue_eq_ok_iff.2 ht⟩
  | bool =>
    refine iff_of_true ?_ trivial
    cases v with
    | false => exact ⟨_, invalidValue_eq_ok_iff.2 host.keyBool_false⟩
    | true => exact ⟨_, invalidValue_eq_ok_iff.2 host.keyBool_true⟩

/-- The text of the line at a place of the list. -/
theorem getKey_ofOptional {fields : List (Text × Option Text)}
    (hnodup : (fields.map Prod.fst).Nodup) {name low : Text} {o : Option Text} (i : ℕ)
    (hfield : fields[i]? = some (low, o)) (hlow : toLower name = low) :
    Section.getKey (ofOptional fields) name = o := by
  rw [Section.getKey, hlow]
  exact lookup_ofOptional hnodup (List.mem_of_getElem? hfield)

/-- A string that is written literally is read back. -/
theorem parseString_of_getKey {s : Section} {keyName v : Text}
    (h : s.getKey keyName = some (escape v)) : parseString host s keyName = .ok v := by
  have hkey : s.key (toLower keyName) = escape v := by
    rw [Section.key, Section.getKey, toLower_toLower, ← Section.getKey, h]
    rfl
  rw [parseString, hkey, resolveText_eq_resolveTextM, resolveTextM_escape]
  rfl

theorem parseBase64KeyToHex_of_getKey {s : Section} {keyName t hex : Text}
    (h : s.getKey keyName = some (escape t)) (ht : encodeBase64ToHex t = .ok hex) :
    parseBase64KeyToHex host s keyName = .ok hex := by
  rw [parseBase64KeyToHex, bind_eq_ok_iff]
  exact ⟨t, parseStringErr_eq_ok_iff.2 (parseString_of_getKey h), ht⟩

theorem isKey_of_parseBase64KeyToHex {s : Section} {keyName hex : Text}
    (h : parseBase64KeyToHex host s keyName = .ok hex) : IsKey hex := by
  rw [parseBase64KeyToHex, bind_eq_ok_iff] at h
  obtain ⟨t, -, ht⟩ := h
  exact isKey_of_encodeBase64ToHex ht

/-- An optional key that is read back from its text. -/
theorem withKey_of_map {α β : Type} {s : Section} {name : Text} (parse : Text → Except Err β)
    (default : β) (value : α → β) {o : Option α} {text : α → Text}
    (h : s.getKey name = o.map text) (hparse : ∀ v ∈ o, parse (text v) = .ok (value v)) :
    withKey s name default parse = .ok ((o.map value).getD default) := by
  cases o with
  | none => exact withKey_of_getKey_none h default parse
  | some v => exact (withKey_of_getKey_some h default parse).trans (hparse v rfl)

/-! ## Peers -/

theorem isKey_noPreSharedKey : IsKey noPreSharedKey :=
  ⟨List.replicate 32 0, rfl, by decide +kernel⟩

theorem peerSound_of_parsePeer {s : Section} {p : PeerConfig w} (h : parsePeer host s = .ok p) :
    PeerSound host p := by
  simp only [parsePeer, bind_eq_ok_iff, Except.ok.injEq] at h
  obtain ⟨publicKey, hpub, preSharedKey, hpsk, endpoint, hend, keepAlive, hka, ips, hips, rfl⟩ := h
  refine ⟨isKey_of_parseBase64KeyToHex hpub, ?_, ?_, ?_, ?_, ?_, ?_⟩
  · rcases withKey_eq_ok_iff.1 hpsk with ⟨-, rfl⟩ | ⟨t, -, ht⟩
    · exact isKey_noPreSharedKey
    · exact isKey_of_encodeBase64ToHex ht
  · rintro e he
    rcases withKey_eq_ok_iff.1 hend with ⟨-, rfl⟩ | ⟨t, -, ht⟩
    · cases he
    · obtain ⟨e', he', rfl⟩ := map_some_eq_ok_iff.1 ht
      cases he
      exact ⟨t, he'⟩
  · cases keepAlive <;> simp [GoInt.ofUint32_zero]
  · cases keepAlive <;> simp [GoInt.ofUint32_zero]
  · rintro r hr
    rcases withKey_eq_ok_iff.1 hka with ⟨-, rfl⟩ | ⟨t, -, ht⟩
    · cases hr
    · obtain ⟨r', hr', rfl⟩ := map_some_eq_ok_iff.1 ht
      cases hr
      exact le_of_parseUintRange (invalidValue_eq_ok_iff.1 hr')
  · intro ip hip
    obtain ⟨str, -, hstr⟩ := parseListKey_eq_ok hips ip hip
    unfold parsePrefixErr at hstr
    split at hstr
    · cases hstr
    · rename_i q hq
      exact Except.ok.inj hstr ▸ isValid_of_parsePrefix hq

/-- The text of a range is not `off`. -/
theorem parseKeepalive_toText {r : UintRange} (h : r.min ≤ r.max) :
    parseKeepalive r.toText = .ok r := by
  obtain ⟨hne, hdigit⟩ := isDecimal_toDigits r.min.toNat
  obtain ⟨c, ds, hds⟩ := List.exists_cons_of_ne_nil hne
  have hc : c.isDigit := hdigit c (by simp [hds])
  have hhead : r.toText.head? = some c := by
    rw [UintRange.toText]
    split <;> simp [hds]
  have hoff : equalFold r.toText "off" = false := by
    refine decide_eq_false fun heq => ?_
    have hlow := congrArg List.head? heq
    rw [toLower, List.head?_map, hhead, Option.map_some, toLower_of_isDigit hc] at hlow
    obtain rfl : c = 'o' := Option.some.inj hlow
    exact absurd hc (by decide)
  rw [parseKeepalive, invalidValue_eq_ok_iff, keepaliveText, r.trimSpace_toText, hoff]
  exact parseUintRange_toText h

/-- The text of a valid prefix is a piece. -/
theorem isPiece_toText {p : Prefix} (h : p.IsValid) : IsPiece p.toText := by
  obtain ⟨n, hn⟩ := Option.ne_none_iff_exists'.1 h
  have hip : ∀ x ∈ p.ip.toText, isSpace x = false ∧ x ≠ ',' := by
    intro x hx
    refine isSpace_of_mem_address ?_
    by_contra hnot
    push Not at hnot
    exact not_mem_toText (p.bits_le n hn).1 p.zone_eq (by simpa using hnot.1) hnot.2.1 hnot.2.2 hx
  have hmem : ∀ x ∈ p.toText, isSpace x = false ∧ x ≠ ',' := by
    rw [Prefix.toText, hn]
    intro x hx
    rcases List.mem_append.1 hx with hx | hx
    · exact hip x hx
    rcases List.mem_cons.1 hx with rfl | hx
    · decide
    · have hdigit := isDigitIn_of_mem_toDigits (by norm_num) (by norm_num) hx
      exact isSpace_of_mem_address (.inl (isDigitIn_sixteen_of_ten hdigit))
  refine ⟨?_, fun hcomma => (hmem _ hcomma).2 rfl, trimSpace_of_forall fun x hx => (hmem x hx).1⟩
  rw [Prefix.toText, hn]
  simp

/-- The lines of a peer, with the texts of its keys and of its endpoint. -/
def peerFields (pub psk : Text) (endpoint : Option Text) (p : PeerConfig w) :
    List (Text × Option Text) :=
  [("publickey", some (escape pub)),
    ("presharedkey", some psk),
    ("endpoint", endpoint),
    ("persistentkeepalive", p.keepAliveRange.map UintRange.toText),
    ("allowedips", some (escape ([','].intercalate (p.allowedIPs.map Prefix.toText))))]

theorem exists_parsePeer {p : PeerConfig w} (h : PeerSound host p) :
    ∃ s, parsePeer host s = .ok p := by
  obtain ⟨pub, hpub⟩ := h.publicKey.exists_text
  obtain ⟨psk, hpsk⟩ := h.preSharedKey.exists_text
  obtain ⟨endpoint, hendpoint⟩ : ∃ o : Option Text, ∀ s : Section, s.getKey "Endpoint" = o →
      (withKey s "Endpoint" none fun t => some <$> resolveIPPAndPort host (host.toLower t)) =
        .ok p.endpoint := by
    cases hp : p.endpoint with
    | none => exact ⟨none, fun s hs => withKey_of_getKey_none hs _ _⟩
    | some e =>
      obtain ⟨t, ht⟩ := h.endpoint e hp
      refine ⟨some t, fun s hs => ?_⟩
      rw [withKey_of_getKey_some hs, ht]
      rfl
  have hnodup : ((peerFields pub psk endpoint p).map Prod.fst).Nodup := by
    simp only [peerFields, List.map_cons, List.map_nil]
    decide
  have hget {name low : Text} {o : Option Text} (i : ℕ)
      (hfield : (peerFields pub psk endpoint p)[i]? = some (low, o)) (hlow : toLower name = low) :=
    getKey_ofOptional hnodup i hfield hlow
  refine ⟨ofOptional (peerFields pub psk endpoint p), ?_⟩
  simp only [parsePeer, bind_eq_ok_iff, Except.ok.injEq]
  refine ⟨p.publicKey, ?_, p.preSharedKey, ?_, p.endpoint, ?_, p.keepAliveRange, ?_,
    p.allowedIPs, ?_, ?_⟩
  · exact parseBase64KeyToHex_of_getKey (hget 0 rfl rfl) hpub
  · exact (withKey_of_getKey_some (hget 1 rfl rfl) _ _).trans hpsk
  · exact hendpoint _ (hget 2 rfl rfl)
  · have hparse : ∀ r ∈ p.keepAliveRange, some <$> parseKeepalive r.toText = .ok (some r) := by
      intro r hr
      rw [parseKeepalive_toText (h.keepAliveRange r hr)]
      rfl
    have hkey : Section.getKey (ofOptional (peerFields pub psk endpoint p)) "PersistentKeepalive" =
        p.keepAliveRange.map UintRange.toText := hget 3 rfl rfl
    rw [withKey_of_map (fun t => some <$> parseKeepalive t) none some hkey hparse]
    cases p.keepAliveRange <;> rfl
  · refine parseListKey_of_key (fun ip hip => ⟨isPiece_toText (h.allowedIPs ip hip), ?_⟩)
      (parseString_of_getKey (hget 4 rfl rfl))
    rw [parsePrefixErr, parsePrefix_toText (h.allowedIPs ip hip)]
  · have hmin := h.keepAlive
    have hmax := h.keepAliveMax
    rcases p with ⟨_, _, _, _, _, _, range⟩
    cases range <;> simp_all [GoInt.ofUint32_zero]

/-! ## The interface -/

theorem aSecSound_of_parseASecConfig {s : Section} {c : Option (ASecConfigType w)}
    (h : parseASecConfig host s = .ok c) : ASecSound c := by
  obtain ⟨-, hc, hvalid⟩ := parseASecConfig_eq_ok_iff.1 h
  have hget : (fun k => c.bind (AwgKey.get k)) = found (lookKey host s) :=
    funext fun k => bind_get_of_parseASecConfig h k
  refine ⟨hc.trans (congrArg (record aSecTable) hget.symm), fun k v hv => ?_, ?_⟩
  · rw [bind_get_of_parseASecConfig h, found_lookKey_eq_some_iff] at hv
    obtain ⟨t, -, ht⟩ := hv
    exact exists_parse_iff.1 ⟨t, ht⟩
  · intro c' hc'
    rw [Option.mem_def.1 hc'] at hvalid
    exact validateASecConfig_eq_ok_iff.1 hvalid

/-- The lines of the parameters. -/
def aSecFields (c : Option (ASecConfigType w)) : List (Text × Option Text) :=
  AwgKey.all.map fun k =>
    (toLower k.name, (c.bind k.get).map fun v => k.kind.configText (k.kind.print v))

theorem ASecSound.parseASecConfig_eq {c : Option (ASecConfigType w)} (h : ASecSound c) {s : Section}
    (hs : ∀ name o, (toLower name, o) ∈ aSecFields c → s.getKey name = o) :
    parseASecConfig host s = .ok c := by
  have hlook : ∀ k : AwgKey, lookKey host s k = (c.bind k.get).map .ok := by
    intro k
    have hk := hs k.name _ (List.mem_map_of_mem k.mem_all)
    rw [lookKey, hk]
    cases hv : c.bind k.get with
    | none => rfl
    | some v =>
      obtain ⟨t, ht⟩ := exists_parse_iff.2 (h.admits k v hv)
      exact congrArg some (Kind.parse_print ht)
  have hfound : found (lookKey host s) = fun k => c.bind (AwgKey.get k) := by
    funext k
    rw [found, hlook]
    cases c.bind k.get <;> rfl
  refine parseASecConfig_eq_ok_iff.2 ⟨fun k e => ?_, ?_, ?_⟩
  · rw [hlook]
    cases c.bind k.get <;> simp
  · rw [hfound]
    exact h.canonical
  · cases c with
    | none => rfl
    | some c => exact validateASecConfig_eq_ok_iff.2 (h.documented c rfl)

theorem isListed_of_parseNetIP {s : Section} {keyName : Text} {l : List Addr}
    (h : parseNetIP host s keyName = .ok l) : ∀ a ∈ l, IsListed a := by
  intro a ha
  obtain ⟨str, hpiece, hstr⟩ := parseListKey_eq_ok h a ha
  unfold parseAddrErr at hstr
  split at hstr
  · cases hstr
  · rename_i ip hip
    exact isListed_of_parseAddr hpiece (Except.ok.inj hstr ▸ hip)

theorem isListed_of_parseCIDRNetIP {s : Section} {keyName : Text} {l : List Addr}
    (h : parseCIDRNetIP host s keyName = .ok l) : ∀ a ∈ l, IsListed a := by
  intro a ha
  obtain ⟨str, hpiece, hstr⟩ := parseListKey_eq_ok h a ha
  unfold parseAddrOrPrefix at hstr
  split at hstr
  · rename_i ip hip
    exact isListed_of_parseAddr hpiece (Except.ok.inj hstr ▸ hip)
  · -- the address of a prefix has no zone
    rw [bind_eq_ok_iff] at hstr
    obtain ⟨p, hp, hip⟩ := hstr
    obtain rfl := Except.ok.inj hip
    unfold parsePrefixErr at hp
    split at hp
    · cases hp
    · rename_i q hq
      obtain rfl := Except.ok.inj hp
      obtain ⟨n, hn⟩ := Option.ne_none_iff_exists'.1 (isValid_of_parsePrefix hq)
      refine ⟨(q.bits_le n hn).1, ?_, ?_⟩ <;> simp [q.zone_eq, EndsInk]

theorem interfaceSound_of_parseInterface {cfg : File} {d₀ d : DeviceConfig w}
    (h : parseInterface host cfg d₀ = .ok d) : InterfaceSound d ∧ d.peers = d₀.peers := by
  unfold parseInterface at h
  split at h
  · simp only [bind_eq_ok_iff, Except.ok.injEq] at h
    obtain ⟨address, haddress, privKey, hkey, dns, hdns, mtu, -, port, -, checkAlive, halive,
      interval, hinterval, aSec, haSec, rfl⟩ := h
    refine ⟨⟨isKey_of_parseBase64KeyToHex hkey, isListed_of_parseCIDRNetIP haddress,
      isListed_of_parseNetIP hdns, isListed_of_parseNetIP halive, fun hnil => ?_,
      aSecSound_of_parseASecConfig haSec⟩, rfl⟩
    rcases withKey_eq_ok_iff.1 hinterval with ⟨-, hdefault⟩ | ⟨t, -, ht⟩
    · exact hdefault.symm
    · simp only [parseCheckAliveInterval, bind_eq_ok_iff, ite_error_eq_ok_iff] at ht
      obtain ⟨_, -, hne, -⟩ := ht
      exact absurd (congrArg List.length hnil) hne
  · cases h

/-- A list of addresses that is written in a section. -/
theorem parseNetIP_of_getKey {s : Section} {keyName : Text} {l : List Addr}
    (hl : ∀ a ∈ l, IsListed a)
    (h : s.getKey keyName = some (escape ([','].intercalate (l.map Addr.toText)))) :
    parseNetIP host s keyName = .ok l ∧ parseCIDRNetIP host s keyName = .ok l := by
  have hkey : parseString host s keyName = .ok _ := parseString_of_getKey h
  constructor
  · refine parseListKey_of_key (fun a ha => ⟨(hl a ha).isPiece_toText, ?_⟩) hkey
    rw [parseAddrErr, parseAddr_toText (hl a ha).ne_zero]
  · refine parseListKey_of_key (fun a ha => ⟨(hl a ha).isPiece_toText, ?_⟩) hkey
    rw [parseAddrOrPrefix, parseAddr_toText (hl a ha).ne_zero]

/-- The lines of an `[Interface]` section, with the text of its key. -/
def interfaceFields (key : Text) (d : DeviceConfig w) : List (Text × Option Text) :=
  ("address", some (escape ([','].intercalate (d.endpoint.map Addr.toText)))) ::
    ("privatekey", some (escape key)) ::
    ("dns", some (escape ([','].intercalate (d.dns.map Addr.toText)))) ::
    ("mtu", some d.mtu.format) ::
    ("listenport", d.listenPort.map GoInt.format) ::
    ("checkalive", some (escape ([','].intercalate (d.checkAlive.map Addr.toText)))) ::
    ("checkaliveinterval", if d.checkAlive = [] then none else some d.checkAliveInterval.format) ::
    aSecFields d.aSecConfig

theorem nodup_interfaceFields (key : Text) (d : DeviceConfig w) :
    ((interfaceFields key d).map Prod.fst).Nodup := by
  have hnames : (interfaceFields key d).map Prod.fst = (["address", "privatekey", "dns", "mtu",
      "listenport", "checkalive", "checkaliveinterval"] : List Text) ++
        AwgKey.all.map fun k => toLower k.name := by
    rfl
  rw [hnames]
  decide +kernel

theorem exists_parseInterface (host : Host) {d : DeviceConfig w} (h : InterfaceSound d) :
    ∃ s, ∀ cfg : File, cfg.sectionsByName "Interface" = [s] →
      parseInterface host cfg initialDevice = .ok { d with peers := [] } := by
  obtain ⟨key, hkey⟩ := h.secretKey.exists_text
  have hget {name low : Text} {o : Option Text} (i : ℕ)
      (hfield : (interfaceFields key d)[i]? = some (low, o)) (hlow : toLower name = low) :=
    getKey_ofOptional (nodup_interfaceFields key d) i hfield hlow
  refine ⟨ofOptional (interfaceFields key d), fun cfg hcfg => ?_⟩
  unfold parseInterface
  rw [hcfg]
  simp only [bind_eq_ok_iff, Except.ok.injEq]
  refine ⟨d.endpoint, ?_, d.secretKey, ?_, d.dns, ?_, d.mtu, ?_, d.listenPort, ?_, d.checkAlive, ?_,
    d.checkAliveInterval, ?_, d.aSecConfig, ?_, rfl⟩
  · exact (parseNetIP_of_getKey h.endpoint (hget 0 rfl rfl)).2
  · exact parseBase64KeyToHex_of_getKey (hget 1 rfl rfl) hkey
  · exact (parseNetIP_of_getKey h.dns (hget 2 rfl rfl)).1
  · exact (withKey_of_getKey_some (hget 3 rfl rfl) _ _).trans (keyInt_format d.mtu)
  · have hparse : ∀ p ∈ d.listenPort, some <$> keyInt p.format = (.ok (some p) : Except Err _) := by
      intro p _
      rw [keyInt_format]
      rfl
    have hkey : Section.getKey (ofOptional (interfaceFields key d)) "ListenPort" =
        d.listenPort.map GoInt.format := hget 4 rfl rfl
    rw [withKey_of_map (fun t => some <$> keyInt t) initialDevice.listenPort some hkey hparse]
    cases d.listenPort <;> rfl
  · exact (parseNetIP_of_getKey h.checkAlive (hget 5 rfl rfl)).1
  · have hkey : Section.getKey (ofOptional (interfaceFields key d)) "CheckAliveInterval" = _ :=
      hget 6 rfl rfl
    by_cases hnil : d.checkAlive = []
    · rw [withKey_of_getKey_none (hkey.trans (if_pos hnil)), h.checkAliveInterval hnil]
    · rw [withKey_of_getKey_some (hkey.trans (if_neg hnil)), parseCheckAliveInterval, keyInt_format]
      exact if_neg (by simpa using hnil)
  · refine h.aSecConfig.parseASecConfig_eq fun name o hmem => ?_
    refine lookup_ofOptional (nodup_interfaceFields key d) ?_
    simp only [interfaceFields, List.mem_cons, hmem, or_true]

/-! ## Routines -/

theorem routineSound_of_parse {kind : RoutineKind} {s : Section} {r : RoutineSpawner w}
    (h : kind.parse host s = .ok r) : kindOf r = kind ∧ RoutineSound host r := by
  cases kind with
  | tcpClientTunnel =>
    simp only [RoutineKind.parse, parseTCPClientTunnelConfig, parseTCPAddr, bind_eq_ok_iff,
      Except.ok.injEq] at h
    obtain ⟨addr, ⟨text, -, htext⟩, _, -, rfl⟩ := h
    exact ⟨rfl, text, htext⟩
  | stdioTunnel =>
    simp only [RoutineKind.parse, parseSTDIOTunnelConfig, bind_eq_ok_iff, Except.ok.injEq] at h
    obtain ⟨_, -, rfl⟩ := h
    exact ⟨rfl, trivial⟩
  | tcpServerTunnel =>
    simp only [RoutineKind.parse, parseTCPServerTunnelConfig, parsePort, bind_eq_ok_iff,
      ite_error_eq_ok_iff, Except.ok.injEq] at h
    obtain ⟨port, ⟨_, -, hrange, rfl⟩, _, -, rfl⟩ := h
    refine ⟨rfl, ?_⟩
    simp only [RoutineSound]
    omega
  | socks5 =>
    simp only [RoutineKind.parse, parseSocks5Config, bind_eq_ok_iff, Except.ok.injEq] at h
    obtain ⟨_, -, rfl⟩ := h
    exact ⟨rfl, trivial⟩
  | http =>
    simp only [RoutineKind.parse, parseHTTPConfig, bind_eq_ok_iff, Except.ok.injEq] at h
    obtain ⟨_, -, rfl⟩ := h
    exact ⟨rfl, trivial⟩
  | udpProxyTunnel =>
    simp only [RoutineKind.parse, parseUDPProxyTunnelConfig, bind_eq_ok_iff, Except.ok.injEq] at h
    obtain ⟨_, -, _, -, _, -, rfl⟩ := h
    exact ⟨rfl, trivial⟩

theorem parseStringErr_of_getKey {s : Section} {keyName v : Text}
    (h : s.getKey keyName = some (escape v)) : parseStringErr host s keyName = .ok v :=
  parseStringErr_eq_ok_iff.2 (parseString_of_getKey h)

theorem parseStringOrEmpty_of_getKey {s : Section} {keyName v : Text}
    (h : s.getKey keyName = some (escape v)) : parseStringOrEmpty host s keyName = v :=
  parseStringOrEmpty_of_ok (parseString_of_getKey h)

/-- The section of a proxy. -/
def proxySection (bindAddress username password certFile keyFile : Text) : Section :=
  [("bindaddress", escape bindAddress), ("username", escape username),
    ("password", escape password), ("certfile", escape certFile), ("keyfile", escape keyFile)]

theorem parse_proxySection (host : Host) (bindAddress username password certFile keyFile : Text) :
    let s := proxySection bindAddress username password certFile keyFile
    parseStringErr host s "BindAddress" = .ok bindAddress ∧
    parseStringOrEmpty host s "Username" = username ∧
    parseStringOrEmpty host s "Password" = password ∧
    parseStringOrEmpty host s "CertFile" = certFile ∧
    parseStringOrEmpty host s "KeyFile" = keyFile :=
  ⟨parseStringErr_of_getKey rfl, parseStringOrEmpty_of_getKey rfl,
    parseStringOrEmpty_of_getKey rfl, parseStringOrEmpty_of_getKey rfl,
    parseStringOrEmpty_of_getKey rfl⟩

theorem exists_parse_routine {r : RoutineSpawner w} (h : RoutineSound host r) :
    ∃ s, (kindOf r).parse host s = .ok r := by
  cases r with
  | tcpClientTunnel conf =>
    obtain ⟨addr, haddr⟩ := h
    refine ⟨[("bindaddress", escape addr), ("target", escape conf.target)], ?_⟩
    simp only [kindOf, RoutineKind.parse, parseTCPClientTunnelConfig, parseTCPAddr, bind_eq_ok_iff,
      Except.ok.injEq]
    exact ⟨conf.bindAddress, ⟨addr, parseStringErr_of_getKey rfl, haddr⟩, conf.target,
      parseStringErr_of_getKey rfl, rfl⟩
  | stdioTunnel conf =>
    refine ⟨[("target", escape conf.target)], ?_⟩
    simp only [kindOf, RoutineKind.parse, parseSTDIOTunnelConfig, bind_eq_ok_iff, Except.ok.injEq]
    exact ⟨conf.target, parseStringErr_of_getKey rfl, rfl⟩
  | tcpServerTunnel conf =>
    refine ⟨[("listenport", conf.listenPort.format), ("target", escape conf.target)], ?_⟩
    have hkey : Section.key [("listenport", conf.listenPort.format), ("target", escape conf.target)]
        "ListenPort" = conf.listenPort.format := rfl
    simp only [kindOf, RoutineKind.parse, parseTCPServerTunnelConfig, parsePort, bind_eq_ok_iff,
      ite_error_eq_ok_iff, Except.ok.injEq, hkey, keyInt_format]
    simp only [RoutineSound] at h
    exact ⟨conf.listenPort, ⟨conf.listenPort, rfl, by omega, rfl⟩, conf.target,
      parseStringErr_of_getKey rfl, rfl⟩
  | socks5 conf =>
    refine ⟨proxySection conf.bindAddress conf.username conf.password [] [], ?_⟩
    have hstring := parse_proxySection host conf.bindAddress conf.username conf.password [] []
    simp only [kindOf, RoutineKind.parse, parseSocks5Config, bind_eq_ok_iff, Except.ok.injEq]
    exact ⟨conf.bindAddress, hstring.1, by rw [hstring.2.1, hstring.2.2.1]⟩
  | http conf =>
    refine ⟨proxySection conf.bindAddress conf.username conf.password conf.certFile conf.keyFile,
      ?_⟩
    have hstring := parse_proxySection host conf.bindAddress conf.username conf.password
      conf.certFile conf.keyFile
    simp only [kindOf, RoutineKind.parse, parseHTTPConfig, bind_eq_ok_iff, Except.ok.injEq]
    exact ⟨conf.bindAddress, hstring.1, by
      rw [hstring.2.1, hstring.2.2.1, hstring.2.2.2.1, hstring.2.2.2.2]⟩
  | udpProxyTunnel conf =>
    refine ⟨[("bindaddress", escape conf.bindAddress), ("target", escape conf.target),
      ("inactivitytimeout", conf.inactivityTimeout.format)], ?_⟩
    simp only [kindOf, RoutineKind.parse, parseUDPProxyTunnelConfig, bind_eq_ok_iff,
      Except.ok.injEq]
    refine ⟨conf.bindAddress, parseStringErr_of_getKey rfl, conf.target,
      parseStringErr_of_getKey rfl, conf.inactivityTimeout, ?_, rfl⟩
    exact (withKey_of_getKey_some rfl _ _).trans (keyInt_format _)

/-! ## The whole file -/

theorem sound_of_parseConfig {path : Text} {conf : Configuration w}
    (h : parseConfig host path = .ok conf) : Sound host conf := by
  obtain ⟨cfg, rss, -, hkinds, hroutines⟩ := routines_of_parseConfig h
  have hblocks : List.Forall₂ (fun (kind : RoutineKind) rs => ∀ r ∈ rs, kindOf r = kind ∧
      RoutineSound host r) RoutineKind.all rss := by
    rw [routineKinds, List.forall₂_map_left_iff] at hkinds
    refine hkinds.imp fun kind rs hrs r hr => ?_
    obtain ⟨s, -, hs⟩ := exists_of_mem_forall₂_right hrs hr
    exact routineSound_of_parse hs
  simp only [parseConfig, parseFiles, bind_eq_ok_iff, Except.ok.injEq] at h
  obtain ⟨_, -, wgCfg, -, device, hdevice, peers, hpeers, _, -, _, -, _, -, _, -, _, -, _, -,
    rfl⟩ := h
  obtain ⟨hinterface, hnone⟩ := interfaceSound_of_parseInterface hdevice
  rw [parsePeers, ite_error_eq_ok_iff, appendAll_eq_ok_iff] at hpeers
  obtain ⟨hpos, m, hm, rfl⟩ := hpeers
  have hpeers : device.peers ++ m = m := by
    rw [hnone]
    rfl
  refine ⟨⟨hinterface.1, hinterface.2, hinterface.3, hinterface.4, hinterface.5, hinterface.6⟩,
    ?_, ?_, ?_, ?_⟩
  · rintro hnil
    have hlen := hm.length_eq
    rw [hpeers.symm.trans hnil] at hlen
    exact hpos (hlen ▸ Nat.zero_lt_one)
  · intro p hp
    obtain ⟨s, -, hs⟩ := exists_of_mem_forall₂_right hm (hpeers ▸ hp)
    exact peerSound_of_parsePeer hs
  · intro r hr
    rw [hroutines] at hr
    obtain ⟨rs, hrs, hr⟩ := List.mem_flatten.1 hr
    obtain ⟨kind, -, hkind⟩ := exists_of_mem_forall₂_right hblocks hrs
    exact (hkind r hr).2
  · rw [hroutines]
    exact (flatMap_filter_flatten RoutineKind.nodup_all
      (hblocks.imp fun kind rs hrs r hr => (hrs r hr).1)).symm

/-- A file with the given sections: that of the interface, those of the peers, those of the routines
with their names, and one for the strategy. -/
def fileOf (s : Section) (peers : List Section) (routines : List (Text × Section))
    (strategy : Section) : File where
  root := []
  sections := ("interface", s) :: (peers.map (Prod.mk ("peer" : String).toList) ++
    (routines ++ [(("resolve" : String).toList, strategy)]))

section File

variable {s : Section} {peers : List Section} {routines : List (Text × Section)}
  {strategy : Section}

theorem sectionsByName_fileOf (name : Text) :
    (fileOf s peers routines strategy).sectionsByName name =
      (if ("interface" : String).toList = toLower name then [s] else []) ++
      ((if ("peer" : String).toList = toLower name then peers else []) ++
      (routines.filterMap (fun p => if p.1 = toLower name then some p.2 else none) ++
      if ("resolve" : String).toList = toLower name then [strategy] else [])) := by
  have hone : ∀ (n : Text) (s : Section),
      [(n, s)].filterMap (fun p => if p.1 = toLower name then some p.2 else none) =
        if n = toLower name then [s] else [] := by
    intro n s
    by_cases h : n = toLower name <;> simp [h]
  have hpeers : (peers.map (Prod.mk ("peer" : String).toList)).filterMap
      (fun p => if p.1 = toLower name then some p.2 else none) =
        if ("peer" : String).toList = toLower name then peers else [] := by
    rw [List.filterMap_map]
    by_cases h : ("peer" : String).toList = toLower name
    · simp only [Function.comp_def, h, if_true, List.filterMap_some]
    · simp only [Function.comp_def, h, if_false, List.filterMap_none]
  rw [File.sectionsByName, fileOf, ← List.singleton_append, List.filterMap_append,
    List.filterMap_append, List.filterMap_append, hone, hone, hpeers]

variable {rs : List (RoutineSpawner w)}

theorem toLower_sectionName_injective :
    Function.Injective fun kind : RoutineKind => toLower kind.sectionName := by
  have hnodup : (RoutineKind.all.map fun kind => toLower kind.sectionName).Nodup := by
    decide +kernel
  intro a b hab
  exact List.inj_on_of_nodup_map hnodup (by cases a <;> decide) (by cases b <;> decide) hab

/-- The sections of a kind are those of its routines. -/
theorem forall₂_filterMap_kind (h : List.Forall₂ (fun p r =>
      p.1 = toLower (kindOf r).sectionName ∧ (kindOf r).parse host p.2 = .ok r) routines rs)
    (kind : RoutineKind) :
    List.Forall₂ (fun s r => kind.parse host s = .ok r)
      (routines.filterMap fun p => if p.1 = toLower kind.sectionName then some p.2 else none)
      (rs.filter fun r => kindOf r = kind) := by
  induction h with
  | nil => exact .nil
  | @cons p r routines rs hpr _ ih =>
    by_cases hkind : kindOf r = kind
    · rw [List.filterMap_cons, List.filter_cons_of_pos (by simpa using hkind),
        if_pos (hkind ▸ hpr.1)]
      exact .cons (hkind ▸ hpr.2) ih
    · have hne : p.1 ≠ toLower kind.sectionName := by
        rw [hpr.1]
        exact fun heq => hkind (toLower_sectionName_injective heq)
      rw [List.filterMap_cons, List.filter_cons_of_neg (by simpa using hkind), if_neg hne]
      exact ih

/-- A section of another name is no section of a routine. -/
theorem filterMap_eq_nil_of_kind (h : List.Forall₂ (fun p r =>
      p.1 = toLower (kindOf r).sectionName ∧ (kindOf r).parse host p.2 = .ok r) routines rs)
    {name : Text} (hname : ∀ kind : RoutineKind, toLower kind.sectionName ≠ toLower name) :
    (routines.filterMap fun p => if p.1 = toLower name then some p.2 else none) = [] := by
  rw [List.filterMap_eq_nil_iff]
  intro p hp
  obtain ⟨r, -, hpr, -⟩ := exists_of_mem_forall₂_left h hp
  exact if_neg (hpr ▸ hname _)

/-- The sections of the names that are read. -/
theorem sectionsByName_fileOf_eq (s strategy : Section) (peers : List Section)
    (h : List.Forall₂ (fun p r =>
      p.1 = toLower (kindOf r).sectionName ∧ (kindOf r).parse host p.2 = .ok r) routines rs) :
    (fileOf s peers routines strategy).sectionsByName "Interface" = [s] ∧
    (fileOf s peers routines strategy).sectionsByName "Peer" = peers ∧
    (fileOf s peers routines strategy).sectionsByName "Resolve" = [strategy] ∧
    ∀ kind : RoutineKind, List.Forall₂ (fun s r => kind.parse host s = .ok r)
      ((fileOf s peers routines strategy).sectionsByName kind.sectionName)
      (rs.filter fun r => kindOf r = kind) := by
  have hother : ∀ name : Text, name ∈ (["Interface", "Peer", "Resolve"] : List Text) →
      ∀ kind : RoutineKind, toLower kind.sectionName ≠ toLower name := by
    intro name hname kind
    revert name
    cases kind <;> decide +kernel
  refine ⟨?_, ?_, ?_, fun kind => ?_⟩
  · rw [sectionsByName_fileOf, filterMap_eq_nil_of_kind h (hother _ (by simp)),
      if_pos (by decide), if_neg (by decide), if_neg (by decide)]
    rfl
  · rw [sectionsByName_fileOf, filterMap_eq_nil_of_kind h (hother _ (by simp)),
      if_neg (by decide), if_pos (by decide), if_neg (by decide)]
    simp
  · rw [sectionsByName_fileOf, filterMap_eq_nil_of_kind h (hother _ (by simp)),
      if_neg (by decide), if_neg (by decide), if_pos (by decide)]
    rfl
  · have hnot : ∀ name ∈ ([("interface" : String).toList, ("peer" : String).toList,
        ("resolve" : String).toList] : List Text), name ≠ toLower kind.sectionName := by
      cases kind <;> decide +kernel
    simp only [List.forall_mem_cons, List.not_mem_nil, false_imp_iff, implies_true,
      and_true] at hnot
    rw [sectionsByName_fileOf, if_neg hnot.1, if_neg hnot.2.1, if_neg hnot.2.2, List.nil_append,
      List.nil_append, List.append_nil]
    exact forall₂_filterMap_kind h kind

/-- The file is parsed to a configuration whose parts its sections are parsed to. -/
theorem parseConfig_fileOf {path : Text} {conf : Configuration w}
    (hload : host.loadSources path = .ok (fileOf s peers routines strategy))
    (hinterface : parseInterface host (fileOf s peers routines strategy) initialDevice =
      .ok { conf.device with peers := [] })
    (hpeers : List.Forall₂ (fun s p => parsePeer host s = .ok p) peers conf.device.peers)
    (hne : conf.device.peers ≠ [])
    (hroutines : List.Forall₂ (fun p r => p.1 = toLower (kindOf r).sectionName ∧
      (kindOf r).parse host p.2 = .ok r) routines conf.routines)
    (hgrouped : conf.routines = RoutineKind.all.flatMap fun kind =>
      conf.routines.filter fun r => kindOf r = kind)
    (hstrategy : parseResolveConfig host strategy = conf.resolve) :
    parseConfig host path = .ok conf := by
  obtain ⟨-, hpeer, hresolve, hkinds⟩ := sectionsByName_fileOf_eq s strategy peers hroutines
  have hpos : ¬ peers.length < 1 := by
    rw [hpeers.length_eq]
    simpa using hne
  simp only [parseConfig, parseFiles, bind_eq_ok_iff, parsePeers, parseRoutinesConfig,
    appendAll_eq_ok_iff, Except.ok.injEq, ite_error_eq_ok_iff]
  refine ⟨_, hload, _, withKey_of_getKey_none rfl _ _, _, hinterface, conf.device.peers,
    ⟨by rw [hpeer]; exact hpos, conf.device.peers, by rw [hpeer]; exact hpeers, rfl⟩,
    _, ⟨_, hkinds .tcpClientTunnel, rfl⟩, _, ⟨_, hkinds .stdioTunnel, rfl⟩,
    _, ⟨_, hkinds .tcpServerTunnel, rfl⟩, _, ⟨_, hkinds .socks5, rfl⟩,
    _, ⟨_, hkinds .http, rfl⟩, _, ⟨_, hkinds .udpProxyTunnel, rfl⟩, ?_⟩
  have hall : conf.routines = _ := hgrouped
  simp only [RoutineKind.all, List.flatMap_cons, List.flatMap_nil, List.append_nil] at hall
  simp only [hresolve, hstrategy, List.nil_append, List.append_assoc, ← hall]

end File

/-- **The configurations that can be written** are the sound ones: a configuration is what
`ParseConfig` returns for some files iff it is sound. -/
theorem parseConfig_image (host : Host) (conf : Configuration w) :
    (∃ load path, parseConfig { host with loadSources := load } path = .ok conf) ↔
      Sound host conf := by
  constructor
  · rintro ⟨load, path, h⟩
    obtain ⟨hinterface, hne, hpeers, hroutines, hgrouped⟩ := sound_of_parseConfig h
    -- soundness does not depend on the loader
    refine ⟨hinterface, hne, fun p hp => ?_, fun r hr => ?_, hgrouped⟩
    · obtain ⟨hpub, hpsk, hend, hmin, hmax, hrange, hips⟩ := hpeers p hp
      exact ⟨hpub, hpsk, hend, hmin, hmax, hrange, hips⟩
    · have hr := hroutines r hr
      cases r <;> exact hr
  · intro h
    obtain ⟨s, hs⟩ := exists_parseInterface host h.interface
    obtain ⟨peers, hpeers⟩ := exists_forall₂_left fun p hp => exists_parsePeer (h.peers p hp)
    obtain ⟨routines, hroutines⟩ : ∃ l : List (Text × Section), List.Forall₂ (fun p r =>
        p.1 = toLower (kindOf r).sectionName ∧ (kindOf r).parse host p.2 = .ok r) l
          conf.routines := by
      refine exists_forall₂_left fun r hr => ?_
      obtain ⟨s, hs⟩ := exists_parse_routine (h.routines r hr)
      exact ⟨(_, s), rfl, hs⟩
    refine ⟨fun _ => .ok (fileOf s peers routines
      [("resolvestrategy", escape conf.resolve.resolveStrategy)]), [], ?_⟩
    refine parseConfig_fileOf rfl (hs _ ?_) hpeers h.peers_ne_nil ?_ h.grouped ?_
    · exact (sectionsByName_fileOf_eq _ _ _ hroutines).1
    · exact hroutines
    · exact congrArg ResolveConfig.mk (parseStringOrEmpty_of_getKey rfl)

end WireProxy.Config
