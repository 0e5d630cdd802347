import WireProxy.Ipc.Request

/-!
# The IPC request is lossless

A reader for IPC requests, and what it recovers from the request that `CreateIPCRequest` writes.

* `readRequest` splits a request into lines, cuts the lines into the device's own and one block for
  each peer, and reads every value back from its text.
* `readRequest_ipcRequest`: reading returns the secret key, the listen port, the AmneziaWG
  parameters and for each peer its keys, keepalive range, endpoint and routes, so that two
  configurations with the same request agree on all of these.
* A prefix that is not valid is written with a text that all such prefixes share. So the routes are
  recovered for valid prefixes only (`ipcRequest_of_invalid_prefixes`).
-/

namespace WireProxy.Ipc

open Text Go Netip Awg Config Control Record

variable {w : IntSize}

/-! ## Reading values -/

/-- Read a decimal as a `uint32`. -/
def readUint32 (t : Text) : Option UInt32 := (readNumeral 10 t).map UInt32.ofNat

/-- Read a range, in any order of its bounds. -/
def readRange (t : Text) : Option UintRange :=
  match t.splitOn '-' with
  | [a] => (readUint32 a).map fun n => ⟨n, n⟩
  | [a, b] => do
    let lo ← readUint32 a
    let hi ← readUint32 b
    some ⟨lo, hi⟩
  | _ => none

/-- Read an `int`. -/
def readInt (t : Text) : Option (GoInt w) := (readDecimal t).map GoInt.ofInt

/-- Read a value of a kind. -/
def readValue : ∀ d : Kind, Text → Option (d.Value w)
  | .int, t => readInt t
  | .range, t => readRange t
  | .text, t => some t
  | .key, t => some t
  | .bool, t =>
    if t = ("true" : String).toList then some true
    else if t = ("false" : String).toList then some false
    else none

theorem readUint32_toDigits (n : UInt32) : readUint32 (Nat.toDigits 10 n.toNat) = some n := by
  rw [readUint32, readNumeral_toDigits (by norm_num) (by norm_num), Option.map_some,
    UInt32.ofNat_toNat]

theorem readRange_toText (r : UintRange) : readRange r.toText = some r := by
  rw [readRange, r.splitOn_toText]
  by_cases h : r.min = r.max
  · rw [if_pos h]
    simp only [readUint32_toDigits, Option.map_some]
    exact congrArg (fun m => some (UintRange.mk r.min m)) h
  · rw [if_neg h]
    simp only [readUint32_toDigits]
    rfl

theorem readInt_format (x : GoInt w) : readInt x.format = some x := by
  rw [readInt, GoInt.format, readDecimal_decimal, Option.map_some, GoInt.ofInt_toInt]

/-- **Every value is read back from its text.** -/
theorem readValue_print {d : Kind} (v : d.Value w) : readValue d (d.print v) = some v := by
  cases d with
  | int => exact readInt_format v
  | range => exact readRange_toText v
  | text => rfl
  | key => rfl
  | bool =>
    have hb : ∀ b : Bool, readValue (w := w) .bool (Kind.print (w := w) .bool b) = some b := by
      intro b
      cases b <;> simp [readValue, Kind.print]
    exact hb v

/-! ## Reading a request -/

/-- What a request says about a peer. -/
structure PeerView where
  publicKey : Text
  preSharedKey : Text
  keepAlive : UintRange
  endpoint : Option Text
  allowedIPs : List Prefix
  deriving DecidableEq

/-- What a request says about the device. -/
structure RequestView (w : IntSize) where
  secretKey : Text
  listenPort : Option (GoInt w)
  awg : ∀ k : AwgKey, Option (k.Value w)
  peers : List (Option PeerView)

/-- A line opens the block of a peer. -/
def opensPeer (l : Text × Text) : Bool := l.1 = ("public_key" : String).toList

/-- Read the block of a peer. -/
def readPeer (b : List (Text × Text)) : Option PeerView := do
  let publicKey ← b.lookup ("public_key" : String).toList
  let keepAlive ← (b.lookup ("persistent_keepalive_interval" : String).toList).bind readRange
  let preSharedKey ← b.lookup ("preshared_key" : String).toList
  let allowedIPs ← (valuesAt ("allowed_ip" : String).toList b).mapM parsePrefix
  some ⟨publicKey, preSharedKey, keepAlive, b.lookup ("endpoint" : String).toList, allowedIPs⟩

/-- Read a request. -/
def readRequest (t : Text) : Option (RequestView w) := do
  let lines ← readLines t
  let device := (blocks opensPeer lines).1
  let secretKey ← device.lookup ("private_key" : String).toList
  some ⟨secretKey, (device.lookup ("listen_port" : String).toList).bind readInt,
    fun k => (device.lookup k.ipcName).bind (readValue k.kind),
    (blocks opensPeer lines).2.map readPeer⟩

/-! ## What a configuration says -/

/-- The routes of a peer: an empty list stands for the two default routes. -/
def routes (peer : PeerConfig w) : List Prefix :=
  if peer.allowedIPs.length > 0 then peer.allowedIPs
  else [prefixFrom (.v4 0 0 0 0) 0, prefixFrom (.v6 Groups.zero []) 0]

/-- What a peer's block is to say, if its keepalive range is valid. -/
def viewPeer (peer : PeerConfig w) : Option PeerView :=
  (persistentKeepaliveRange peer).toOption.map fun r =>
    ⟨peer.publicKey, peer.preSharedKey, r, peer.endpoint, routes peer⟩

/-- What a request is to say. -/
def view (conf : DeviceConfig w) : RequestView w :=
  ⟨conf.secretKey, conf.listenPort, valuesOf conf.aSecConfig, conf.peers.map viewPeer⟩

/-- Every prefix of every peer is valid. -/
def PrefixesValid (conf : DeviceConfig w) : Prop :=
  ∀ p ∈ conf.peers, ∀ ip ∈ p.allowedIPs, ip.IsValid

/-! ## The device's own lines -/

section Device

variable (conf : DeviceConfig w)

theorem ipcName_ne {name : Text} (h : keyOfIpcName name = none) (k : AwgKey) :
    k.ipcName ≠ name := by
  rintro rfl
  simp [keyOfIpcName_ipcName] at h

theorem lookup_linesOf_of_none {name : Text} (h : keyOfIpcName name = none)
    (f : ∀ k : AwgKey, Option (k.Value w)) : (linesOf f).lookup name = none := by
  rw [List.lookup_eq_none_iff]
  intro l hl
  obtain ⟨k, -, v, -, rfl⟩ := mem_emit hl
  simpa using (ipcName_ne h k).symm

theorem lookup_private_key :
    (deviceLines conf).lookup ("private_key" : String).toList = some conf.secretKey :=
  List.lookup_cons_self

theorem lookup_listen_port :
    (deviceLines conf).lookup ("listen_port" : String).toList =
      conf.listenPort.map GoInt.format := by
  have hawg := lookup_linesOf_of_none keyOfIpcName_listen_port (valuesOf conf.aSecConfig)
  have hne : (("listen_port" : String).toList == ("private_key" : String).toList) = false := by
    decide
  rw [deviceLines, List.lookup_cons, hne, List.lookup_append, aSecLines_eq_linesOf, hawg,
    Option.or_none]
  cases conf.listenPort with
  | none => rfl
  | some p => exact List.lookup_cons_self

theorem lookup_ipcName (k : AwgKey) :
    (deviceLines conf).lookup k.ipcName = (valuesOf conf.aSecConfig k).map k.kind.print := by
  have hkey : (k.ipcName == ("private_key" : String).toList) = false :=
    beq_false_of_ne (ipcName_ne keyOfIpcName_private_key k)
  have hport : (conf.listenPort.map fun p =>
      (("listen_port" : String).toList, GoInt.format p)).toList.lookup k.ipcName = none := by
    rw [List.lookup_eq_none_iff]
    intro l hl
    obtain ⟨p, -, rfl⟩ := Option.map_eq_some_iff.1 (Option.mem_toList.1 hl)
    exact bne_iff_ne.2 (ipcName_ne keyOfIpcName_listen_port k)
  rw [deviceLines, List.lookup_cons, hkey, List.lookup_append, hport, Option.none_or,
    aSecLines_eq_linesOf, linesOf, lookup_emit AwgKey.ipcName_injective, if_pos k.mem_all]

/-- The names of the device's own lines. -/
theorem name_of_mem_deviceLines {l : Text × Text} (hl : l ∈ deviceLines conf) :
    l.1 = ("private_key" : String).toList ∨ l.1 = ("listen_port" : String).toList ∨
      ∃ k : AwgKey, l.1 = k.ipcName := by
  rw [deviceLines, aSecLines_eq_linesOf, List.mem_cons, List.mem_append, Option.mem_toList] at hl
  rcases hl with rfl | hl | hl
  · exact .inl rfl
  · obtain ⟨p, -, rfl⟩ := Option.map_eq_some_iff.1 hl
    exact .inr (.inl rfl)
  · obtain ⟨k, -, v, -, rfl⟩ := mem_emit hl
    exact .inr (.inr ⟨k, rfl⟩)

theorem name_not_mem_peerKeys {l : Text × Text} (hl : l ∈ deviceLines conf) : l.1 ∉ peerKeys := by
  have hdisj : ∀ name ∈ deviceKeys, name ∉ peerKeys := by decide
  rcases name_of_mem_deviceLines conf hl with h | h | ⟨k, h⟩
  · exact h ▸ hdisj _ (by simp [deviceKeys])
  · exact h ▸ hdisj _ (by simp [deviceKeys])
  · exact h ▸ fun hk => ipcName_ne (keyOfIpcName_of_mem_peerKeys hk) k rfl

/-- No key of the device occurs twice. -/
theorem nodup_deviceLines : ((deviceLines conf).map Prod.fst).Nodup := by
  have hawg : ((linesOf (valuesOf conf.aSecConfig)).map Prod.fst).Nodup := by
    rw [linesOf, map_fst_emit]
    exact ((by decide : AwgKey.all.Nodup).filter _).map AwgKey.ipcName_injective
  have hnot : ∀ name : Text, keyOfIpcName name = none →
      name ∉ (linesOf (valuesOf conf.aSecConfig)).map Prod.fst := by
    intro name hname hm
    obtain ⟨l, hl, rfl⟩ := List.mem_map.1 hm
    obtain ⟨k, -, v, -, rfl⟩ := mem_emit hl
    exact ipcName_ne hname k rfl
  have hport := hnot _ keyOfIpcName_listen_port
  have hkey := hnot _ keyOfIpcName_private_key
  have hne : ("private_key" : String).toList ≠ ("listen_port" : String).toList := by decide
  rw [deviceLines, aSecLines_eq_linesOf, List.map_cons, List.map_append, List.nodup_cons]
  cases conf.listenPort with
  | none => exact ⟨hkey, hawg⟩
  | some p =>
    exact ⟨List.not_mem_cons_of_ne_of_not_mem hne hkey, List.nodup_cons.2 ⟨hport, hawg⟩⟩

end Device

/-! ## The blocks of the peers -/

section Peers

variable (peer : PeerConfig w) (r : UintRange)

theorem isBlock_peerLines : IsBlock opensPeer (peerLines peer r) := by
  refine ⟨_, _, rfl, by simp [opensPeer], ?_⟩
  have hne : ∀ name ∈ peerKeys.tail, ∀ v, opensPeer (name, v) = false := by
    have h : ∀ name ∈ peerKeys.tail, name ≠ ("public_key" : String).toList := by decide
    exact fun name hname v => decide_eq_false (h name hname)
  intro l hl
  simp only [List.mem_cons, List.mem_append, Option.mem_toList] at hl
  rcases hl with rfl | rfl | hl | hl
  · exact hne _ (by simp [peerKeys]) _
  · exact hne _ (by simp [peerKeys]) _
  · obtain ⟨e, -, rfl⟩ := Option.map_eq_some_iff.1 hl
    exact hne _ (by simp [peerKeys]) _
  · obtain ⟨t, -, rfl⟩ := List.mem_map.1 hl
    exact hne _ (by simp [peerKeys]) _

theorem lookup_public_key :
    (peerLines peer r).lookup ("public_key" : String).toList = some peer.publicKey :=
  List.lookup_cons_self

theorem lookup_keepalive :
    (peerLines peer r).lookup ("persistent_keepalive_interval" : String).toList =
      some r.toText := by
  rw [peerLines, lookup_cons_of_ne _ _ (by decide), List.lookup_cons_self]

theorem lookup_preshared_key :
    (peerLines peer r).lookup ("preshared_key" : String).toList = some peer.preSharedKey := by
  rw [peerLines, lookup_cons_of_ne _ _ (by decide), lookup_cons_of_ne _ _ (by decide),
    List.lookup_cons_self]

theorem lookup_endpoint :
    (peerLines peer r).lookup ("endpoint" : String).toList = peer.endpoint := by
  have hips : ∀ ts : List Text, (ts.map fun t => (("allowed_ip" : String).toList, t)).lookup
      ("endpoint" : String).toList = none := by
    intro ts
    have hne : ("endpoint" : String).toList ≠ ("allowed_ip" : String).toList := by decide
    rw [List.lookup_eq_none_iff]
    intro l hl
    obtain ⟨t, -, rfl⟩ := List.mem_map.1 hl
    exact bne_iff_ne.2 hne
  rw [peerLines, lookup_cons_of_ne _ _ (by decide), lookup_cons_of_ne _ _ (by decide),
    lookup_cons_of_ne _ _ (by decide), List.lookup_append, hips, Option.or_none]
  cases peer.endpoint with
  | none => rfl
  | some e => exact List.lookup_cons_self

theorem valuesAt_allowed_ip :
    valuesAt ("allowed_ip" : String).toList (peerLines peer r) =
      if peer.allowedIPs.length > 0 then peer.allowedIPs.map Prefix.toText
      else defaultRoutes := by
  have hend : valuesAt ("allowed_ip" : String).toList
      (peer.endpoint.map fun e => (("endpoint" : String).toList, e)).toList = [] := by
    cases peer.endpoint with
    | none => rfl
    | some e => exact valuesAt_cons_of_ne e [] (by decide)
  rw [peerLines, valuesAt_cons_of_ne _ _ (by decide), valuesAt_cons_of_ne _ _ (by decide),
    valuesAt_cons_of_ne _ _ (by decide), valuesAt_append, hend, List.nil_append, valuesAt_map_mk]

theorem mapM_parsePrefix {ips : List Prefix} (h : ∀ ip ∈ ips, ip.IsValid) :
    (ips.map Prefix.toText).mapM parsePrefix = some ips := by
  induction ips with
  | nil => rfl
  | cons ip ips ih =>
    rw [List.map_cons, List.mapM_cons, parsePrefix_toText (h ip (by simp)),
      ih fun q hq => h q (List.mem_cons_of_mem _ hq)]
    rfl

variable {peer}

/-- The routes of a block are those of the peer. -/
theorem mapM_parsePrefix_routes (h : ∀ ip ∈ peer.allowedIPs, ip.IsValid) :
    (valuesAt ("allowed_ip" : String).toList (peerLines peer r)).mapM parsePrefix =
      some (routes peer) := by
  have hdefault : defaultRoutes.mapM parsePrefix =
      some [prefixFrom (.v4 0 0 0 0) 0, prefixFrom (.v6 Groups.zero []) 0] := by
    decide +kernel
  rw [valuesAt_allowed_ip, routes]
  split
  · exact mapM_parsePrefix h
  · exact hdefault

theorem readPeer_peerLines (h : ∀ ip ∈ peer.allowedIPs, ip.IsValid) :
    readPeer (peerLines peer r) =
      some ⟨peer.publicKey, peer.preSharedKey, r, peer.endpoint, routes peer⟩ := by
  simp only [readPeer, lookup_public_key, lookup_keepalive, lookup_preshared_key, lookup_endpoint,
    mapM_parsePrefix_routes r h, readRange_toText, Option.bind_eq_bind, Option.bind_some]

end Peers

/-! ## The request -/

section Request

variable {conf : DeviceConfig w} {bs : List (List (Text × Text))}

theorem opensPeer_of_mem_deviceLines {l : Text × Text} (hl : l ∈ deviceLines conf) :
    opensPeer l = false :=
  decide_eq_false fun h => name_not_mem_peerKeys conf hl (by simp [h, peerKeys])

/-- The lines of a request are cut into the device's own and the blocks of the peers. -/
theorem blocks_request (hbs : List.Forall₂ (fun p b => peerBlock p = .ok b) conf.peers bs) :
    blocks opensPeer (deviceLines conf ++ bs.flatten) = (deviceLines conf, bs) := by
  refine blocks_append_flatten (fun l hl => opensPeer_of_mem_deviceLines hl) fun b hb => ?_
  obtain ⟨p, -, hpb⟩ := exists_of_mem_forall₂_right hbs hb
  obtain ⟨r, -, rfl⟩ := peerBlock_eq_ok_iff.1 hpb
  exact isBlock_peerLines p r

theorem viewPeer_of_ok {peer : PeerConfig w} {r : UintRange}
    (h : persistentKeepaliveRange peer = .ok r) :
    viewPeer peer = some ⟨peer.publicKey, peer.preSharedKey, r, peer.endpoint, routes peer⟩ := by
  rw [viewPeer, h]
  rfl

theorem map_readPeer (hvalid : PrefixesValid conf)
    (hbs : List.Forall₂ (fun p b => peerBlock p = .ok b) conf.peers bs) :
    bs.map readPeer = conf.peers.map viewPeer ∧ ∀ v ∈ conf.peers.map viewPeer, v.isSome := by
  unfold PrefixesValid at hvalid
  generalize conf.peers = ps at hvalid hbs
  induction hbs with
  | nil => simp
  | cons hpb _ ih =>
    obtain ⟨r, hr, rfl⟩ := peerBlock_eq_ok_iff.1 hpb
    obtain ⟨hmap, hsome⟩ := ih fun p hp => hvalid p (List.mem_cons_of_mem _ hp)
    simp only [List.map_cons, hmap, viewPeer_of_ok hr,
      readPeer_peerLines r (hvalid _ List.mem_cons_self), List.forall_mem_cons]
    exact ⟨trivial, rfl, hsome⟩

theorem readRequest_renderLines (hfree : NewlineFree conf) (hvalid : PrefixesValid conf)
    (hbs : List.Forall₂ (fun p b => peerBlock p = .ok b) conf.peers bs) :
    readRequest (renderLines (deviceLines conf ++ bs.flatten)) = some (view conf) := by
  have hport : (conf.listenPort.map GoInt.format).bind readInt = conf.listenPort := by
    cases conf.listenPort with
    | none => rfl
    | some p => exact readInt_format p
  have hawg : (fun k : AwgKey => ((valuesOf conf.aSecConfig k).map k.kind.print).bind
      (readValue (w := w) k.kind)) = valuesOf conf.aSecConfig := by
    funext k
    cases valuesOf conf.aSecConfig k with
    | none => rfl
    | some v => exact readValue_print v
  simp only [readRequest, readLines_ipcRequest hfree hbs, blocks_request hbs, Option.bind_eq_bind,
    Option.bind_some, lookup_private_key, lookup_listen_port, lookup_ipcName, hport, hawg,
    (map_readPeer hvalid hbs).1, view]

end Request

/-- **The request is lossless and unambiguous.** For a configuration without newlines in its texts
and with valid prefixes: the lines of the request are the device's own, no key twice, and then one
block for each peer; reading them returns what the configuration says; and a configuration with the
same request says the same. -/
theorem readRequest_ipcRequest {conf : DeviceConfig w} {setting : DeviceSetting w}
    (hfree : NewlineFree conf) (hvalid : PrefixesValid conf)
    (hok : createIPCRequest conf = .ok setting) :
    (∃ device peers,
      (readLines setting.ipcRequest).map (blocks opensPeer) = some (device, peers) ∧
        (device.map Prod.fst).Nodup ∧ (∀ l ∈ device, l.1 ∉ peerKeys) ∧
        (∀ b ∈ peers, ∀ l ∈ b, l.1 ∈ peerKeys) ∧ peers.length = conf.peers.length ∧
        (device.lookup ("listen_port" : String).toList).isSome = conf.listenPort.isSome ∧
        ∀ k : AwgKey, (device.lookup k.ipcName).isSome = (valuesOf conf.aSecConfig k).isSome) ∧
      readRequest setting.ipcRequest = some (view conf) ∧ (∀ v ∈ (view conf).peers, v.isSome) ∧
      ∀ (conf' : DeviceConfig w) setting', NewlineFree conf' → PrefixesValid conf' →
        createIPCRequest conf' = .ok setting' → setting'.ipcRequest = setting.ipcRequest →
        view conf' = view conf := by
  obtain ⟨bs, hbs, rfl⟩ := createIPCRequest_eq_ok_iff.1 hok
  have hread := readRequest_renderLines hfree hvalid hbs
  refine ⟨⟨deviceLines conf, bs, ?_, nodup_deviceLines conf,
    fun l hl => name_not_mem_peerKeys conf hl, ?_, hbs.length_eq.symm, ?_, fun k => ?_⟩,
    hread, (map_readPeer hvalid hbs).2, ?_⟩
  · rw [readLines_ipcRequest hfree hbs, Option.map_some, blocks_request hbs]
  · intro b hb l hl
    obtain ⟨p, -, hpb⟩ := exists_of_mem_forall₂_right hbs hb
    obtain ⟨r, -, rfl⟩ := peerBlock_eq_ok_iff.1 hpb
    exact name_of_mem_peerLines hl
  · rw [lookup_listen_port, Option.isSome_map]
  · rw [lookup_ipcName, Option.isSome_map]
  · intro conf' setting' hfree' hvalid' hok' heq
    obtain ⟨bs', hbs', rfl⟩ := createIPCRequest_eq_ok_iff.1 hok'
    have hread' := readRequest_renderLines hfree' hvalid' hbs'
    rw [show renderLines (deviceLines conf' ++ bs'.flatten) = _ from heq, hread] at hread'
    exact (Option.some.inj hread').symm

/-- A configuration with one peer. -/
def confWith (ips : List Prefix) : DeviceConfig .bits64 where
  secretKey := "00"
  endpoint := []
  peers := [⟨"01", "02", some "192.0.2.1:51820", 15, 25, ips, none⟩]
  dns := []
  mtu := 1420
  listenPort := some 51820
  checkAlive := []
  checkAliveInterval := 5
  aSecConfig := some (AwgKey.set .s1 (15 : GoInt .bits64) .zero)

theorem newlineFree_confWith (ips : List Prefix) : NewlineFree (confWith ips) := by
  refine ⟨by simp [confWith], ?_, ?_⟩
  · intro c hc
    cases hc
    unfold ASecNewlineFree
    decide
  · intro p hp
    cases List.mem_singleton.1 hp
    exact ⟨by simp, by simp, by simp⟩

theorem readRequest_ipcRequest_sample :
    ∃ setting, createIPCRequest (confWith [prefixFrom (.v4 10 0 0 0) 8]) = .ok setting ∧
      readRequest setting.ipcRequest = some (view (confWith [prefixFrom (.v4 10 0 0 0) 8])) := by
  obtain ⟨setting, hok⟩ : ∃ setting,
      createIPCRequest (confWith [prefixFrom (.v4 10 0 0 0) 8]) = .ok setting := ⟨_, rfl⟩
  have hvalid : PrefixesValid (confWith [prefixFrom (.v4 10 0 0 0) 8]) := by
    unfold PrefixesValid
    decide
  exact ⟨setting, hok, (readRequest_ipcRequest (newlineFree_confWith _) hvalid hok).2.1⟩

/-- The zero prefix and one with too many bits have the same text, so that the requests of two
configurations that differ there are the same. -/
theorem ipcRequest_of_invalid_prefixes :
    ∃ (conf conf' : DeviceConfig .bits64) (setting setting' : DeviceSetting .bits64),
      NewlineFree conf ∧ NewlineFree conf' ∧ createIPCRequest conf = .ok setting ∧
        createIPCRequest conf' = .ok setting' ∧ setting.ipcRequest = setting'.ipcRequest ∧
        view conf ≠ view conf' := by
  refine ⟨confWith [prefixFrom .zero 0], confWith [prefixFrom (.v4 1 2 3 4) 99], _, _,
    newlineFree_confWith _, newlineFree_confWith _, rfl, rfl, rfl, ?_⟩
  intro h
  have hpeers := congrArg RequestView.peers h
  revert hpeers
  decide

end WireProxy.Ipc
