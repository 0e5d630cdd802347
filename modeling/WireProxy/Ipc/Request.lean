import WireProxy.Config.Types

/-!
# The IPC request

`CreateIPCRequest` and `persistentKeepaliveRange`. The request is a text of lines `key=value`: the
device's own lines, then a block of lines for each peer that begins with its public key.
-/

namespace WireProxy.Ipc

open Text Go Netip Awg Config Control

variable {w : IntSize}

/-- `DeviceSetting`. -/
structure DeviceSetting (w : IntSize) where
  ipcRequest : Text
  dns : List Addr
  deviceAddr : List Addr
  mtu : GoInt w

/-- The part of `persistentKeepaliveRange` that checks the two public fields. -/
def checkedKeepaliveRange (peer : PeerConfig w) : Except Err UintRange :=
  if peer.keepAlive.toInt < 0 ∨ peer.keepAlive.toInt > 4294967295 then
    .error (.msg "PersistentKeepalive must be between 0 and 4294967295")
  else if peer.keepAliveMax.toInt < 0 ∨ peer.keepAliveMax.toInt > 4294967295 then
    .error (.msg "PersistentKeepalive maximum must be between 0 and 4294967295")
  else if peer.keepAliveMax.toInt > peer.keepAlive.toInt then
    .ok ⟨peer.keepAlive.toUint32, peer.keepAliveMax.toUint32⟩
  else .ok ⟨peer.keepAlive.toUint32, peer.keepAlive.toUint32⟩

/-- `persistentKeepaliveRange`. -/
def persistentKeepaliveRange (peer : PeerConfig w) : Except Err UintRange :=
  match peer.keepAliveRange with
  | none => checkedKeepaliveRange peer
  | some r =>
    if GoInt.ofUint32 r.min = peer.keepAlive ∧ GoInt.ofUint32 r.max = peer.keepAliveMax then .ok r
    else checkedKeepaliveRange peer

/-- The device's own lines. -/
def deviceLines (conf : DeviceConfig w) : List (Text × Text) :=
  ("private_key", conf.secretKey) ::
    ((conf.listenPort.map fun p => (("listen_port" : String).toList, GoInt.format p)).toList ++
      (conf.aSecConfig.map aSecLines).getD [])

/-- The routes that a peer without AllowedIPs gets. -/
def defaultRoutes : List Text := ["0.0.0.0/0", "::0/0"]

/-- The lines of a peer, whose keepalive range has been determined. -/
def peerLines (peer : PeerConfig w) (keepAlive : UintRange) : List (Text × Text) :=
  ("public_key", peer.publicKey) ::
    ("persistent_keepalive_interval", keepAlive.toText) ::
    ("preshared_key", peer.preSharedKey) ::
    ((peer.endpoint.map fun e => (("endpoint" : String).toList, e)).toList ++
      (if peer.allowedIPs.length > 0 then peer.allowedIPs.map Prefix.toText
        else defaultRoutes).map fun ip => (("allowed_ip" : String).toList, ip))

/-- The block of a peer. -/
def peerBlock (peer : PeerConfig w) : Except Err (List (Text × Text)) := do
  let keepAlive ← persistentKeepaliveRange peer
  .ok (peerLines peer keepAlive)

/-- `CreateIPCRequest`. -/
def createIPCRequest (conf : DeviceConfig w) : Except Err (DeviceSetting w) := do
  let blocks ← conf.peers.mapM peerBlock
  .ok ⟨renderLines (deviceLines conf ++ blocks.flatten), conf.dns, conf.endpoint, conf.mtu⟩

/-! ## Success -/

theorem peerBlock_eq_ok_iff {peer : PeerConfig w} {b : List (Text × Text)} :
    peerBlock peer = .ok b ↔ ∃ r, persistentKeepaliveRange peer = .ok r ∧ peerLines peer r = b := by
  simp only [peerBlock, bind_eq_ok_iff, Except.ok.injEq]

/-- **The shape of a request**: the device's lines, then the lines of the peers in order. -/
theorem createIPCRequest_eq_ok_iff {conf : DeviceConfig w} {setting : DeviceSetting w} :
    createIPCRequest conf = .ok setting ↔
      ∃ bs, List.Forall₂ (fun p b => peerBlock p = .ok b) conf.peers bs ∧
        ⟨renderLines (deviceLines conf ++ bs.flatten), conf.dns, conf.endpoint, conf.mtu⟩ =
          setting := by
  simp only [createIPCRequest, bind_eq_ok_iff, mapM_eq_ok_iff, Except.ok.injEq]

/-! ## The names in a request -/

/-- The key of a name in the request. -/
def keyOfIpcName (name : Text) : Option AwgKey := AwgKey.all.find? fun k => k.ipcName = name

theorem keyOfIpcName_ipcName (k : AwgKey) : keyOfIpcName k.ipcName = some k := by
  have h : (fun j : AwgKey => decide (j.ipcName = k.ipcName)) = fun j => decide (j = k) :=
    funext fun j => by simp [AwgKey.ipcName_injective.eq_iff]
  rw [keyOfIpcName, h]
  cases k <;> rfl

/-- The names of the device's lines that are no AmneziaWG parameters. -/
def deviceKeys : List Text := ["private_key", "listen_port"]

/-- The names of the lines in a peer's block. -/
def peerKeys : List Text :=
  ["public_key", "persistent_keepalive_interval", "preshared_key", "endpoint", "allowed_ip"]

theorem keyOfIpcName_eq_none : ∀ name ∈ deviceKeys ++ peerKeys, keyOfIpcName name = none := by
  decide +kernel

theorem keyOfIpcName_private_key : keyOfIpcName ("private_key" : String) = none :=
  keyOfIpcName_eq_none _ (by simp [deviceKeys])

theorem keyOfIpcName_listen_port : keyOfIpcName ("listen_port" : String) = none :=
  keyOfIpcName_eq_none _ (by simp [deviceKeys])

theorem keyOfIpcName_of_mem_peerKeys {name : Text} (h : name ∈ peerKeys) :
    keyOfIpcName name = none :=
  keyOfIpcName_eq_none _ (List.mem_append_right _ h)

/-- The values of a record that may be missing. -/
def valuesOf (c : Option (ASecConfigType w)) (k : AwgKey) : Option (k.Value w) := c.bind k.get

theorem aSecLines_eq_linesOf (c : Option (ASecConfigType w)) :
    (c.map aSecLines).getD [] = linesOf (valuesOf c) := by
  cases c <;> rfl

/-! ## The lines of a request -/

/-- No text among the AmneziaWG parameters holds a newline. -/
def ASecNewlineFree (c : ASecConfigType w) : Prop :=
  ∀ o ∈ [c.i1, c.i2, c.i3, c.i4, c.i5, c.headerProtectionKey], ∀ t ∈ o, '\n' ∉ t

/-- No text of a peer holds a newline. -/
structure PeerNewlineFree (peer : PeerConfig w) : Prop where
  publicKey : '\n' ∉ peer.publicKey
  preSharedKey : '\n' ∉ peer.preSharedKey
  endpoint : ∀ e ∈ peer.endpoint, '\n' ∉ e

/-- No text that goes into the request holds a newline. -/
structure NewlineFree (conf : DeviceConfig w) : Prop where
  secretKey : '\n' ∉ conf.secretKey
  aSecConfig : ∀ c ∈ conf.aSecConfig, ASecNewlineFree c
  peers : ∀ p ∈ conf.peers, PeerNewlineFree p

theorem writable_of_mem_aSecLines {c : ASecConfigType w} (h : ASecNewlineFree c)
    {l : Text × Text} (hl : l ∈ aSecLines c) : Writable l := by
  obtain ⟨k, -, v, hv, rfl⟩ := Record.mem_emit hl
  refine writable_of_key k.not_mem_ipcName (Kind.newline_not_mem_print v ?_)
  -- the keys whose values are texts are the ones the hypothesis lists
  cases k
  case i1 | i2 | i3 | i4 | i5 | headerProtectionKey =>
    exact fun _ => h _ (by simp [AwgKey.get]) _ hv
  all_goals rintro (hk | hk) <;> cases hk

theorem writable_of_mem_deviceLines {conf : DeviceConfig w} (h : NewlineFree conf)
    {l : Text × Text} (hl : l ∈ deviceLines conf) : Writable l := by
  simp only [deviceLines, List.mem_cons, List.mem_append, Option.mem_toList] at hl
  rcases hl with rfl | hl | hl
  · exact writable_of_key (by decide) h.secretKey
  · obtain ⟨p, -, rfl⟩ := Option.map_eq_some_iff.1 hl
    exact writable_of_key (by decide) (not_mem_decimal (by decide) (by decide) _)
  · cases hc : conf.aSecConfig with
    | none => simp [hc] at hl
    | some c =>
      simp only [hc, Option.map_some, Option.getD_some] at hl
      exact writable_of_mem_aSecLines (h.aSecConfig c hc) hl

theorem newline_not_mem_routes {peer : PeerConfig w} {t : Text}
    (ht : t ∈ if peer.allowedIPs.length > 0 then peer.allowedIPs.map Prefix.toText
      else defaultRoutes) : '\n' ∉ t := by
  split at ht
  · obtain ⟨ip, -, rfl⟩ := List.mem_map.1 ht
    exact newline_not_mem_toText ip
  · have hd : ∀ t ∈ defaultRoutes, '\n' ∉ t := by decide
    exact hd t ht

theorem writable_of_mem_peerLines {peer : PeerConfig w} (h : PeerNewlineFree peer) (r : UintRange)
    {l : Text × Text} (hl : l ∈ peerLines peer r) : Writable l := by
  simp only [peerLines, List.mem_cons, List.mem_append, Option.mem_toList] at hl
  rcases hl with rfl | rfl | rfl | hl | hl
  · exact writable_of_key (by decide) h.publicKey
  · exact writable_of_key (by decide) r.newline_not_mem_toText
  · exact writable_of_key (by decide) h.preSharedKey
  · obtain ⟨e, he, rfl⟩ := Option.map_eq_some_iff.1 hl
    exact writable_of_key (by decide) (h.endpoint e he)
  · obtain ⟨t, ht, rfl⟩ := List.mem_map.1 hl
    exact writable_of_key (by decide) (newline_not_mem_routes ht)

theorem name_of_mem_peerLines {peer : PeerConfig w} {r : UintRange} {l : Text × Text}
    (hl : l ∈ peerLines peer r) : l.1 ∈ peerKeys := by
  simp only [peerLines, List.mem_cons, List.mem_append, Option.mem_toList] at hl
  rcases hl with rfl | rfl | rfl | hl | hl
  · simp [peerKeys]
  · simp [peerKeys]
  · simp [peerKeys]
  · obtain ⟨e, -, rfl⟩ := Option.map_eq_some_iff.1 hl
    simp [peerKeys]
  · obtain ⟨t, -, rfl⟩ := List.mem_map.1 hl
    simp [peerKeys]

/-- **The lines of a request are read back.** -/
theorem readLines_ipcRequest {conf : DeviceConfig w} (h : NewlineFree conf)
    {bs : List (List (Text × Text))}
    (hbs : List.Forall₂ (fun p b => peerBlock p = .ok b) conf.peers bs) :
    readLines (renderLines (deviceLines conf ++ bs.flatten)) =
      some (deviceLines conf ++ bs.flatten) := by
  refine readLines_renderLines fun l hl => ?_
  rcases List.mem_append.1 hl with hl | hl
  · exact writable_of_mem_deviceLines h hl
  · obtain ⟨b, hb, hlb⟩ := List.mem_flatten.1 hl
    obtain ⟨p, hp, hpb⟩ := exists_of_mem_forall₂_right hbs hb
    obtain ⟨r, -, rfl⟩ := peerBlock_eq_ok_iff.1 hpb
    exact writable_of_mem_peerLines (h.peers p hp) r hlb

end WireProxy.Ipc
