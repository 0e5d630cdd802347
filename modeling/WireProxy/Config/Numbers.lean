import WireProxy.Config.Parse

/-!
# The numbers of a configuration

A number is read in one of two ways. `parseUintRange` reads the bounds of a range in base ten and
rejects what does not fit. `Key.Int` takes the base from the notation of the text and wraps what it
reads to an `int`.

* `parseUintRange_grammar`: the ranges that are accepted, and that every range in an accepted
  configuration has its bounds in order.
* `integers_exact_iff`: the integers are stored and checked as they are written iff they fit into an
  `int`, those of the paddings together with the size of their message.
* `digits_readAlike_iff`: the two ways agree on digits without a leading zero, and on those that
  write a single digit of base eight.
-/

namespace WireProxy.Config

open Text Go Netip Awg Record Control

variable {w : IntSize} {host : Host} {s : Section}

/-! ## Ranges -/

/-- The ranges of a record. The bounds of a header are two fields, which are zero without the
key. -/
def aSecRanges (c : ASecConfigType w) : List UintRange :=
  [⟨c.initPacketMagicHeader, c.initPacketMagicHeaderMax⟩,
    ⟨c.responsePacketMagicHeader, c.responsePacketMagicHeaderMax⟩,
    ⟨c.underloadPacketMagicHeader, c.underloadPacketMagicHeaderMax⟩,
    ⟨c.transportPacketMagicHeader, c.transportPacketMagicHeaderMax⟩] ++
  [c.contentPaddingAddition, c.rekeyAfterTime, c.rekeyTimeout, c.rejectAfterTime,
    c.keepaliveTimeout, c.maxHandshakeAttempts].reduceOption

/-- The ranges of a device. -/
def storedRanges (device : DeviceConfig w) : List UintRange :=
  (device.aSecConfig.map aSecRanges).getD [] ++ device.peers.filterMap PeerConfig.keepAliveRange

/-- A value that is a range has its bounds in order. -/
def OrderedValue : ∀ d : Kind, d.Value w → Prop
  | .range, r => r.min ≤ r.max
  | _, _ => True

theorem orderedValue_of_parse {name t : Text} {d : Kind} {v : d.Value w}
    (h : d.parse host name t = .ok v) : OrderedValue d v := by
  cases d with
  | range => exact le_of_parseUintRange (invalidValue_eq_ok_iff.1 h)
  | int | text | key | bool => trivial

theorem min_le_max_getD {o : Option UintRange} (h : ∀ r ∈ o, r.min ≤ r.max) :
    (o.getD ⟨0, 0⟩).min ≤ (o.getD ⟨0, 0⟩).max := by
  cases o with
  | none => exact UInt32.le_refl 0
  | some r => exact h r rfl

/-- The ranges of a parsed record have their bounds in order. -/
theorem le_of_mem_aSecRanges {c : ASecConfigType w} (h : parseASecConfig host s = .ok (some c))
    {r : UintRange} (hr : r ∈ aSecRanges c) : r.min ≤ r.max := by
  have hordered : ∀ k v, found (lookKey (w := w) host s) k = some v → OrderedValue k.kind v := by
    intro k v hv
    obtain ⟨t, -, hparse⟩ := found_lookKey_eq_some_iff.1 hv
    exact orderedValue_of_parse hparse
  obtain rfl := record_eq_some (parseASecConfig_eq_ok_iff.1 h).2.1.symm
  simp only [aSecRanges, List.mem_append, List.mem_cons, List.not_mem_nil, or_false,
    List.reduceOption_mem_iff] at hr
  rcases hr with (rfl | rfl | rfl | rfl) | hr | hr | hr | hr | hr | hr
  · exact min_le_max_getD fun r hr => hordered .h1 r hr
  · exact min_le_max_getD fun r hr => hordered .h2 r hr
  · exact min_le_max_getD fun r hr => hordered .h3 r hr
  · exact min_le_max_getD fun r hr => hordered .h4 r hr
  · exact hordered .contentPaddingAddition r hr.symm
  · exact hordered .rekeyAfterTime r hr.symm
  · exact hordered .rekeyTimeout r hr.symm
  · exact hordered .rejectAfterTime r hr.symm
  · exact hordered .keepaliveTimeout r hr.symm
  · exact hordered .maxHandshakeAttempts r hr.symm

theorem le_of_parsePeer {peer : PeerConfig w} (h : parsePeer host s = .ok peer) {r : UintRange}
    (hr : peer.keepAliveRange = some r) : r.min ≤ r.max := by
  simp only [parsePeer, bind_eq_ok_iff, Except.ok.injEq] at h
  obtain ⟨_, -, _, -, _, -, keepAlive, hkeepAlive, _, -, rfl⟩ := h
  rcases withKey_eq_ok_iff.1 hkeepAlive with ⟨-, rfl⟩ | ⟨t, -, ht⟩
  · cases hr
  · obtain ⟨r', hr', rfl⟩ := map_some_eq_ok_iff.1 ht
    obtain rfl := Option.some.inj hr
    exact le_of_parseUintRange (invalidValue_eq_ok_iff.1 hr')

theorem parseInterface_eq_ok {cfg : File} {device device' : DeviceConfig w}
    (h : parseInterface host cfg device = .ok device') :
    ∃ s, cfg.sectionsByName "Interface" = [s] ∧
      parseASecConfig host s = .ok device'.aSecConfig ∧ device'.peers = device.peers ∧
      withKey s "MTU" device.mtu keyInt = .ok device'.mtu ∧
      (withKey s "ListenPort" device.listenPort fun t => some <$> keyInt t) =
        .ok device'.listenPort ∧
      withKey s "CheckAliveInterval" 5 (parseCheckAliveInterval device'.checkAlive) =
        .ok device'.checkAliveInterval := by
  unfold parseInterface at h
  split at h
  · rename_i s hs
    simp only [bind_eq_ok_iff, Except.ok.injEq] at h
    obtain ⟨_, -, _, -, _, -, _, hmtu, _, hport, _, -, _, hinterval, _, hc, rfl⟩ := h
    exact ⟨s, hs, hc, rfl, hmtu, hport, hinterval⟩
  · cases h

theorem le_of_mem_storedRanges {path : Text} {config : Configuration w}
    (h : parseConfig host path = .ok config) {r : UintRange} (hr : r ∈ storedRanges config.device) :
    r.min ≤ r.max := by
  simp only [parseConfig, parseFiles, bind_eq_ok_iff, Except.ok.injEq] at h
  obtain ⟨_, -, wgCfg, -, device, hdevice, peers, hpeers, _, -, _, -, _, -, _, -, _, -, _, -,
    rfl⟩ := h
  obtain ⟨s, -, hc, hnone, -⟩ := parseInterface_eq_ok hdevice
  rcases List.mem_append.1 hr with hr | hr
  · cases hc' : device.aSecConfig with
    | none => simp [hc'] at hr
    | some c =>
      rw [hc'] at hc
      simp only [hc', Option.map_some, Option.getD_some] at hr
      exact le_of_mem_aSecRanges hc hr
  · obtain ⟨peer, hpeer, hrange⟩ := List.mem_filterMap.1 hr
    obtain ⟨peers', hparse, rfl⟩ := appendAll_eq_ok_iff.1 (ite_error_eq_ok_iff.1 hpeers).2
    rw [hnone] at hpeer
    obtain ⟨s', -, hs'⟩ := exists_of_mem_forall₂_right hparse hpeer
    exact le_of_parsePeer hs' hrange

/-- **The ranges that are accepted.** A text without the white space around it must follow the
grammar and write numbers below `2 ^ 32`; the range then has these numbers as its bounds, and every
other text is an error. So the ranges of an accepted configuration have their bounds in order. -/
theorem parseUintRange_grammar :
    (∀ t r, parseUintRange t = .ok r ↔ RangeText (trimSpace t) r.min.toNat r.max.toNat) ∧
    (∀ t, (∃ e, parseUintRange t = .error e) ↔
      ¬ ∃ lo hi, RangeText (trimSpace t) lo hi ∧ hi < 2 ^ 32) ∧
    ∀ (host : Host) (path : Text) (config : Configuration w), parseConfig host path = .ok config →
      ∀ r ∈ storedRanges config.device, r.min.toNat ≤ r.max.toNat ∧ r.max.toNat < 2 ^ 32 := by
  refine ⟨fun t r => parseUintRange_eq_ok_iff, fun t => ?_, fun host path config h r hr =>
    ⟨UInt32.le_iff_toNat_le.1 (le_of_mem_storedRanges h hr), r.max.toNat_lt⟩⟩
  constructor
  · rintro ⟨e, he⟩ ⟨lo, hi, htext, hlt⟩
    have hle := htext.le
    have hok : parseUintRange t = .ok ⟨UInt32.ofNat lo, UInt32.ofNat hi⟩ := by
      rw [parseUintRange_eq_ok_iff, UInt32.toNat_ofNat', UInt32.toNat_ofNat',
        Nat.mod_eq_of_lt (hle.trans_lt hlt), Nat.mod_eq_of_lt hlt]
      exact htext
    rw [hok] at he
    cases he
  · intro hno
    cases hparse : parseUintRange t with
    | error e => exact ⟨e, rfl⟩
    | ok r => exact absurd ⟨_, _, parseUintRange_eq_ok_iff.1 hparse, r.max.toNat_lt⟩ hno

/-! ## Integers -/

/-- A key of a section writes an integer. -/
def WritesInt (s : Section) (name : Text) (v : ℤ) : Prop :=
  ∃ t, s.getKey name = some t ∧ parseInt0 t = .ok v

theorem WritesInt.fits {name : Text} {v : ℤ} (h : WritesInt s name v) : Fits .bits64 v := by
  obtain ⟨t, -, hread⟩ := h
  exact fits_of_parseInt0 hread

/-- The integers that a device holds, each under the name of its key. -/
def interfaceInts (device : DeviceConfig w) : List (Text × Option (GoInt w)) :=
  [("Jc", device.aSecConfig.bind (AwgKey.get .jc)),
    ("Jmin", device.aSecConfig.bind (AwgKey.get .jmin)),
    ("Jmax", device.aSecConfig.bind (AwgKey.get .jmax)),
    ("S1", device.aSecConfig.bind (AwgKey.get .s1)),
    ("S2", device.aSecConfig.bind (AwgKey.get .s2)),
    ("S3", device.aSecConfig.bind (AwgKey.get .s3)),
    ("S4", device.aSecConfig.bind (AwgKey.get .s4)),
    ("MTU", some device.mtu),
    ("ListenPort", device.listenPort),
    ("CheckAliveInterval", some device.checkAliveInterval)]

/-- The names of these keys. -/
def interfaceIntNames : List Text :=
  ["Jc", "Jmin", "Jmax", "S1", "S2", "S3", "S4", "MTU", "ListenPort", "CheckAliveInterval"]

/-- The name of the padding of a message type. -/
def paddingName : Message → Text
  | .initiation => "S1"
  | .response => "S2"
  | .cookieReply => "S3"
  | .transport => "S4"

/-- The integers of a section are stored and checked as they are written, and the sizes of the
messages with their paddings do not overflow. -/
structure InterfaceExact (s : Section) (device : DeviceConfig w) : Prop where
  stored : ∀ p ∈ interfaceInts device, ∀ v, WritesInt s p.1 v → p.2.map BitVec.toInt = some v
  jc : ∀ v, WritesInt s "Jc" v → 1 ≤ v ∧ v ≤ 128
  jmax : ∀ v, WritesInt s "Jmax" v → v ≤ 1280
  sizes : ∀ c ∈ device.aSecConfig, ∀ m, ∀ a ∈ c.padding m,
    (paddedSize m a).toInt = m.size + a.toInt

/-- The integers of a section fit into an `int`. -/
structure InterfaceFits (w : IntSize) (s : Section) : Prop where
  int : ∀ name ∈ interfaceIntNames, ∀ v, WritesInt s name v → Fits w v
  size : ∀ m v, WritesInt s (paddingName m) v → Fits w (m.size + v)

theorem map_fst_interfaceInts (device : DeviceConfig w) :
    (interfaceInts device).map Prod.fst = interfaceIntNames := rfl

theorem eq_ofInt_of_keyInt {t : Text} {v : ℤ} {o : Option (GoInt w)} (hread : parseInt0 t = .ok v)
    (h : ∃ x, keyInt t = .ok x ∧ o = some x) : o = some (GoInt.ofInt v) := by
  obtain ⟨x, hx, rfl⟩ := h
  obtain ⟨v', hv', rfl⟩ := keyInt_eq_ok_iff.1 hx
  rw [hread] at hv'
  cases hv'
  rfl

section Interface

variable {cfg : File} {device device' : DeviceConfig w}

/-- **What is stored for an integer key**: the integer that is written, wrapped to an `int`. -/
theorem interfaceInts_of_parseInterface (h : parseInterface host cfg device = .ok device')
    (hs : cfg.sectionsByName "Interface" = [s]) {p : Text × Option (GoInt w)}
    (hp : p ∈ interfaceInts device') {v : ℤ} (hv : WritesInt s p.1 v) :
    p.2 = some (GoInt.ofInt v) := by
  obtain ⟨s', hs', hc, -, hmtu, hport, hinterval⟩ := parseInterface_eq_ok h
  obtain rfl : s' = s := by
    rw [hs] at hs'
    exact (List.cons.inj hs').1.symm
  obtain ⟨t, ht, hread⟩ := hv
  refine eq_ofInt_of_keyInt hread ?_
  simp only [interfaceInts, List.mem_cons, List.not_mem_nil, or_false] at hp
  rcases hp with rfl | rfl | rfl | rfl | rfl | rfl | rfl | rfl | rfl | rfl
  · exact exists_get_of_parseASecConfig (k := .jc) hc ht
  · exact exists_get_of_parseASecConfig (k := .jmin) hc ht
  · exact exists_get_of_parseASecConfig (k := .jmax) hc ht
  · exact exists_get_of_parseASecConfig (k := .s1) hc ht
  · exact exists_get_of_parseASecConfig (k := .s2) hc ht
  · exact exists_get_of_parseASecConfig (k := .s3) hc ht
  · exact exists_get_of_parseASecConfig (k := .s4) hc ht
  · rw [withKey_of_getKey_some ht] at hmtu
    exact ⟨_, hmtu, rfl⟩
  · rw [withKey_of_getKey_some ht] at hport
    exact map_some_eq_ok_iff.1 hport
  · rw [withKey_of_getKey_some ht] at hinterval
    simp only [parseCheckAliveInterval, bind_eq_ok_iff, ite_error_eq_ok_iff, Except.ok.injEq]
      at hinterval
    obtain ⟨_, hx, -, rfl⟩ := hinterval
    exact ⟨_, hx, rfl⟩

/-- A padding is stored only if its key is written. -/
theorem writesInt_of_padding {c : ASecConfigType w} (h : parseASecConfig host s = .ok (some c))
    {m : Message} {a : GoInt w} (ha : c.padding m = some a) :
    ∃ v, WritesInt s (paddingName m) v ∧ a = GoInt.ofInt v := by
  have hwritten : ∃ t, s.getKey (paddingName m) = some t ∧ keyInt t = .ok a := by
    have hget (k : AwgKey) := bind_get_of_parseASecConfig h k
    cases m with
    | initiation => exact found_lookKey_eq_some_iff.1 ((hget .s1).symm.trans ha)
    | response => exact found_lookKey_eq_some_iff.1 ((hget .s2).symm.trans ha)
    | cookieReply => exact found_lookKey_eq_some_iff.1 ((hget .s3).symm.trans ha)
    | transport => exact found_lookKey_eq_some_iff.1 ((hget .s4).symm.trans ha)
  obtain ⟨t, ht, hkey⟩ := hwritten
  obtain ⟨v, hv, rfl⟩ := keyInt_eq_ok_iff.1 hkey
  exact ⟨v, ⟨t, ht, hv⟩, rfl⟩

theorem padding_mem_interfaceInts (device : DeviceConfig w) (m : Message) :
    (paddingName m, device.aSecConfig.bind fun c => c.padding m) ∈ interfaceInts device := by
  cases m <;> simp only [interfaceInts, List.mem_cons]
  · exact .inr (.inr (.inr (.inl rfl)))
  · exact .inr (.inr (.inr (.inr (.inl rfl))))
  · exact .inr (.inr (.inr (.inr (.inr (.inl rfl)))))
  · exact .inr (.inr (.inr (.inr (.inr (.inr (.inl rfl))))))

theorem toInt_paddedSize_eq_iff {m : Message} {a : GoInt w} :
    (paddedSize m a).toInt = m.size + a.toInt ↔ Fits w (m.size + a.toInt) := by
  have hsize : (BitVec.ofNat w.width m.size : GoInt w).toInt = m.size := by
    cases w <;> cases m <;> rfl
  have hadd := GoInt.toInt_add_eq_iff (x := BitVec.ofNat w.width m.size) (y := a)
  rwa [hsize] at hadd

/-- **When the integers of a section are stored and checked as they are written.** -/
theorem interfaceExact_iff (h : parseInterface host cfg device = .ok device')
    (hs : cfg.sectionsByName "Interface" = [s]) :
    InterfaceExact s device' ↔ InterfaceFits w s := by
  have hstored {p : Text × Option (GoInt w)} (hp : p ∈ interfaceInts device') {v : ℤ}
      (hv : WritesInt s p.1 v) : p.2.map BitVec.toInt = some v ↔ Fits w v := by
    rw [interfaceInts_of_parseInterface h hs hp hv, Option.map_some, Option.some.injEq]
    exact GoInt.toInt_ofInt_eq_iff
  obtain ⟨s', hs', hc, -⟩ := parseInterface_eq_ok h
  obtain rfl : s' = s := by
    rw [hs] at hs'
    exact (List.cons.inj hs').1.symm
  constructor
  · intro hexact
    refine ⟨fun name hname v hv => ?_, fun m v hv => ?_⟩
    · rw [← map_fst_interfaceInts device'] at hname
      obtain ⟨p, hp, rfl⟩ := List.mem_map.1 hname
      exact (hstored hp hv).1 (hexact.stored p hp v hv)
    · obtain ⟨a, ha, rfl⟩ := Option.map_eq_some_iff.1
        (hexact.stored _ (padding_mem_interfaceInts device' m) v hv)
      obtain ⟨c, hc, ha⟩ := Option.bind_eq_some_iff.1 ha
      exact toInt_paddedSize_eq_iff.1 (hexact.sizes c hc m a ha)
  · intro hfits
    have hall : ∀ p ∈ interfaceInts device', ∀ v, WritesInt s' p.1 v →
        p.2.map BitVec.toInt = some v := by
      intro p hp v hv
      have hname : p.1 ∈ interfaceIntNames := by
        rw [← map_fst_interfaceInts device']
        exact List.mem_map_of_mem hp
      exact (hstored hp hv).2 (hfits.int p.1 hname v hv)
    -- the checks of the validator are about the stored numbers, which are the written ones
    have hdocumented (get : ASecConfigType w → Option (GoInt w)) {name : Text} {v : ℤ}
        (hp : (name, device'.aSecConfig.bind get) ∈ interfaceInts device')
        (hv : WritesInt s' name v) : ∃ c x, Documented c ∧ get c = some x ∧ x.toInt = v := by
      obtain ⟨x, hx, rfl⟩ := Option.map_eq_some_iff.1 (hall _ hp v hv)
      obtain ⟨c, hcx, hx⟩ := Option.bind_eq_some_iff.1 hx
      rw [hcx] at hc
      exact ⟨c, x, validateASecConfig_eq_ok_iff.1 (parseASecConfig_eq_ok_iff.1 hc).2.2, hx, rfl⟩
    refine ⟨hall, fun v hv => ?_, fun v hv => ?_, fun c hcx m a ha => ?_⟩
    · obtain ⟨c, x, hdoc, hx, rfl⟩ := hdocumented (AwgKey.get .jc) (.head _) hv
      exact hdoc.jc x hx
    · obtain ⟨c, x, hdoc, hx, rfl⟩ :=
        hdocumented (AwgKey.get .jmax) (.tail _ (.tail _ (.head _))) hv
      exact hdoc.jmax_le x hx
    · rw [Option.mem_def.1 hcx] at hc
      obtain ⟨v, hv, rfl⟩ := writesInt_of_padding hc ha
      have hname : paddingName m ∈ interfaceIntNames := by cases m <;> decide
      have hfit := GoInt.toInt_ofInt_eq_iff.2 (hfits.int _ hname v hv)
      rw [toInt_paddedSize_eq_iff, hfit]
      exact hfits.size m v hv

end Interface

/-- **When a port is stored and checked as it is written.** -/
theorem port_exact_iff {name : Text} {port : GoInt w} (h : parsePort s name = .ok port) :
    ∃ v, WritesInt s name v ∧ ((port.toInt = v ∧ 0 ≤ v ∧ v ≤ 65535) ↔ Fits w v) := by
  simp only [parsePort, bind_eq_ok_iff, ite_error_eq_ok_iff, Except.ok.injEq] at h
  obtain ⟨_, hkey, hrange, rfl⟩ := h
  obtain ⟨v, hv, rfl⟩ := keyInt_eq_ok_iff.1 hkey
  refine ⟨v, ?_, fun hexact => GoInt.toInt_ofInt_eq_iff.1 hexact.1, fun hfits => ?_⟩
  · -- a key that is missing has the empty text, which is no integer
    unfold Section.key at hv
    cases ht : s.getKey name with
    | none =>
      rw [ht] at hv
      cases hv
    | some t =>
      rw [ht] at hv
      exact ⟨t, ht, hv⟩
  · have hexact := GoInt.toInt_ofInt_eq_iff.2 hfits
    omega

/-- **When a timeout is stored as it is written.** -/
theorem timeout_exact_iff {conf : UDPProxyTunnelConfig w}
    (h : parseUDPProxyTunnelConfig host s = .ok (.udpProxyTunnel conf)) {v : ℤ}
    (hv : WritesInt s "InactivityTimeout" v) : conf.inactivityTimeout.toInt = v ↔ Fits w v := by
  simp only [parseUDPProxyTunnelConfig, bind_eq_ok_iff, Except.ok.injEq,
    RoutineSpawner.udpProxyTunnel.injEq] at h
  obtain ⟨_, -, _, -, timeout, htimeout, rfl⟩ := h
  obtain ⟨t, ht, hread⟩ := hv
  rw [withKey_of_getKey_some ht] at htimeout
  have hstored := eq_ofInt_of_keyInt hread ⟨timeout, htimeout, rfl⟩
  rw [Option.some.inj hstored]
  exact GoInt.toInt_ofInt_eq_iff

/-- **When integers are stored and checked as they are written.** The integers of an accepted
`[Interface]` section, port or timeout are exact iff what is written fits into an `int`, and a
padding together with the size of its message. On 64 bits everything that is read fits, so that only
the sums can overflow. -/
theorem integers_exact_iff :
    (∀ (host : Host) (cfg : File) (device device' : DeviceConfig w) (s : Section),
      parseInterface host cfg device = .ok device' → cfg.sectionsByName "Interface" = [s] →
      (InterfaceExact s device' ↔ InterfaceFits w s)) ∧
    (∀ (s : Section) (name : Text) (port : GoInt w), parsePort s name = .ok port →
      ∃ v, WritesInt s name v ∧ ((port.toInt = v ∧ 0 ≤ v ∧ v ≤ 65535) ↔ Fits w v)) ∧
    (∀ (host : Host) (s : Section) (conf : UDPProxyTunnelConfig w),
      parseUDPProxyTunnelConfig host s = .ok (.udpProxyTunnel conf) →
      ∀ v, WritesInt s "InactivityTimeout" v → (conf.inactivityTimeout.toInt = v ↔ Fits w v)) ∧
    ∀ (s : Section) (name : Text) (v : ℤ), WritesInt s name v → Fits .bits64 v :=
  ⟨fun _ _ _ _ _ h hs => interfaceExact_iff h hs, fun _ _ _ h => port_exact_iff h,
    fun _ _ _ h _ hv => timeout_exact_iff h hv, fun _ _ _ hv => hv.fits⟩

/-- A file whose `[Interface]` section writes one more key. -/
def interfaceFile (name value : Text) : File where
  root := []
  sections := [("interface",
    [("privatekey", "AQEBAQEBAQEBAQEBAQEBAQEBAQEBAQEBAQEBAQEBAQE="), (name, value)])]

/-- With 32 bits a count of `2 ^ 32 + 1` junk packets is accepted as one packet, and a port of
`2 ^ 32 + 80` as port 80. With 64 bits the size of an initiation with the largest padding becomes
negative. -/
theorem integers_wrapped :
    parseInt0 ("4294967297" : String) = .ok 4294967297 ∧
    (parseInterface (w := .bits32) Host.bare (interfaceFile "jc" "4294967297") initialDevice).map
        (fun device => (interfaceInts device).head?) = .ok (some ("Jc", some 1)) ∧
    parsePort (w := .bits32) [("listenport", "4294967376")] "ListenPort" = .ok 80 ∧
    (parseInterface (w := .bits64) Host.bare (interfaceFile "s1" "9223372036854775807")
        initialDevice).map (fun device => device.aSecConfig.map fun c =>
          (packetSizes c).map fun p => (p.isSet, p.size.toInt)) =
      .ok (some [(true, -9223372036854775661), (false, 92), (false, 64), (false, 32)]) := by
  decide +kernel

/-! ## Digits -/

/-- **When digits mean the same to both readers.** The integer keys and the range keys read a text
of decimal digits as the number that it writes iff it has no leading zero or writes a single digit
of base eight. -/
theorem digits_readAlike_iff {t : Text} (ht : IsDecimal t) (hlt : decimalValue t < 2 ^ 31)
    (host : Host) (name name' : Text) :
    ((∃ x : GoInt w, Kind.parse (w := w) host name .int t = .ok x ∧ x.toInt = decimalValue t) ∧
      ∃ r : UintRange, Kind.parse (w := w) host name' .range t = .ok r ∧
        r.min.toNat = decimalValue t ∧ r.max.toNat = decimalValue t) ↔
      t.head? ≠ some '0' ∨ decimalValue t < 8 := by
  have hrange : ∃ r : UintRange, Kind.parse (w := w) host name' .range t = .ok r ∧
      r.min.toNat = decimalValue t ∧ r.max.toNat = decimalValue t := by
    have hval : (UInt32.ofNat (decimalValue t)).toNat = decimalValue t := by
      rw [UInt32.toNat_ofNat', Nat.mod_eq_of_lt (by omega)]
    have hspace : trimSpace t = t :=
      trimSpace_of_forall fun c hc => isSpace_of_isDigitIn ((isDigitIn_ten c).2 (ht.2 c hc))
    refine ⟨⟨.ofNat (decimalValue t), .ofNat (decimalValue t)⟩,
      invalidValue_eq_ok_iff.2 (parseUintRange_eq_ok_iff.2 ?_), hval, hval⟩
    rw [hval, hspace]
    exact .one ht
  have hfits {v : ℤ} (h0 : 0 ≤ v) (hv : v ≤ decimalValue t) : Fits w v := by
    have hwidth : (2 : ℤ) ^ 31 ≤ 2 ^ (w.width - 1) := by cases w <;> decide
    constructor <;> omega
  rw [and_iff_left hrange, ← parseInt0_eq_decimalValue_iff ht (by omega)]
  constructor
  · rintro ⟨x, hx, hval⟩
    obtain ⟨v, hv, rfl⟩ := keyInt_eq_ok_iff.1 hx
    obtain ⟨h0, hle⟩ := le_decimalValue_of_parseInt0 ht hv
    rw [GoInt.toInt_ofInt_eq_iff.2 (hfits h0 hle)] at hval
    rw [hv, hval]
  · intro hread
    exact ⟨_, keyInt_eq_ok_iff.2 ⟨_, hread, rfl⟩,
      GoInt.toInt_ofInt_eq_iff.2 (hfits (Int.natCast_nonneg _) le_rfl)⟩

theorem digits_readAlike_iff_seven :
    (∃ x : GoInt .bits64, Kind.parse (w := .bits64) Host.bare "Jc" .int "007" = .ok x ∧
        x.toInt = 7) ∧
      ∃ r : UintRange, Kind.parse (w := .bits64) Host.bare "H1" .range "007" = .ok r ∧
        r.min.toNat = 7 ∧ r.max.toNat = 7 := by
  have ht : IsDecimal ("007" : String).toList := ⟨by decide, List.all_eq_true.1 rfl⟩
  have hval : decimalValue ("007" : String).toList = 7 := by decide +kernel
  have hread := digits_readAlike_iff (w := .bits64) ht (by rw [hval]; norm_num) Host.bare "Jc" "H1"
  rw [hval] at hread
  exact hread.2 (.inr (by norm_num))

/-- The digits `010` are eight packets of junk but the header ten, and `08` is a header only. -/
theorem digits_read_differently :
    Kind.parse (w := .bits64) Host.bare "Jc" .int "010" = .ok (8 : GoInt .bits64) ∧
      Kind.parse (w := .bits64) Host.bare "H1" .range "010" = .ok (⟨10, 10⟩ : UintRange) ∧
      Kind.parse (w := .bits64) Host.bare "Jc" .int "08" =
        .error (.num "ParseInt" "08" .errSyntax) ∧
      Kind.parse (w := .bits64) Host.bare "H1" .range "08" = .ok (⟨8, 8⟩ : UintRange) := by
  decide +kernel

end WireProxy.Config
