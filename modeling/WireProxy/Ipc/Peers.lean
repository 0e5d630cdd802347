import WireProxy.Config.Parse
import WireProxy.Ipc.Lossless

/-!
# Peers from the file to the request

What the `[Peer]` sections of a file become in the request of the device that `ParsePeers` fills.

* `Carries` says that a block of the request carries what a section wrote: the keys in hex, the
  keepalive range, the resolved endpoint and one route for each piece of `AllowedIPs`.
* `persistentKeepaliveRange_of_parsedFrom`: the range of a parsed peer is the one that was parsed,
  also where its bounds do not fit the public fields, so that its block is always written.
* `parsePeers_request`: one peer for each section and one block for each peer, in order, and each
  block carries its section.
-/

namespace WireProxy.Ipc

open Text Go Netip Awg Config Control

variable {w : IntSize} {host : Host}

/-! ## What a section writes -/

/-- The text is a base64 form of 32 bytes, and `hex` their hexadecimal form. -/
def KeyHex (t hex : Text) : Prop :=
  ∃ bytes : Bytes, decodeBase64 t = some bytes ∧ bytes.length = 32 ∧ hex = encodeHex bytes

/-- The preshared key of a section: 64 zeros if it has none. -/
def WritesPreSharedKey (s : Section) (hex : Text) : Prop :=
  match s.getKey "PreSharedKey" with
  | none => hex = List.replicate 64 '0'
  | some t => KeyHex t hex

/-- The keepalive range of a section: zero if it has none or says `off`. -/
def WritesKeepalive (s : Section) (r : UintRange) : Prop :=
  match s.getKey "PersistentKeepalive" with
  | none => r = ⟨0, 0⟩
  | some t => if equalFold (trimSpace t) "off" then r = ⟨0, 0⟩ else parseUintRange t = .ok r

/-- The endpoint of a section, with its host name resolved. -/
def WritesEndpoint (host : Host) (s : Section) (endpoint : Option Text) : Prop :=
  match s.getKey "Endpoint" with
  | none => endpoint = none
  | some t => ∃ name port ip, splitHostPort (host.toLower t) = .ok (name, port) ∧
      host.resolveIPAddr name = .ok ip ∧ endpoint = some (joinHostPort ip port)

/-- The routes of a section: one for each piece of `AllowedIPs` that is not blank, denoting the
prefix that the piece denotes, and the default routes if there is no such piece. A reference is
resolved first; the text is empty if `parseString` returns an error. -/
def WritesRoutes (host : Host) (s : Section) (lines : List Text) : Prop :=
  if pieces (parseStringOrEmpty host s "AllowedIPs") = [] then lines = defaultRoutes
  else List.Forall₂ (fun str l => ∃ p, parsePrefix str = some p ∧ parsePrefix l = some p)
    (pieces (parseStringOrEmpty host s "AllowedIPs")) lines

/-- A block of the request carries what a section wrote. -/
structure Carries (host : Host) (s : Section) (b : List (Text × Text)) : Prop where
  publicKey : ∃ t hex, parseString host s "PublicKey" = .ok t ∧ KeyHex t hex ∧
    b.lookup ("public_key" : String).toList = some hex
  preSharedKey : ∃ hex, b.lookup ("preshared_key" : String).toList = some hex ∧
    WritesPreSharedKey s hex
  keepalive : ∃ t r, b.lookup ("persistent_keepalive_interval" : String).toList = some t ∧
    parseUintRange t = .ok r ∧ WritesKeepalive s r
  endpoint : WritesEndpoint host s (b.lookup ("endpoint" : String).toList)
  routes : WritesRoutes host s (valuesAt ("allowed_ip" : String).toList b)

/-! ## A parsed peer -/

/-- A peer holds what a section wrote. The range of its keepalive is the cached one, and the public
fields are the bounds of that range, wrapped to `int`. -/
structure ParsedFrom (host : Host) (s : Section) (peer : PeerConfig w) : Prop where
  publicKey : ∃ t, parseString host s "PublicKey" = .ok t ∧ KeyHex t peer.publicKey
  preSharedKey : WritesPreSharedKey s peer.preSharedKey
  endpoint : WritesEndpoint host s peer.endpoint
  keepalive : WritesKeepalive s (peer.keepAliveRange.getD ⟨0, 0⟩)
  keepAlive_eq : peer.keepAlive = GoInt.ofUint32 (peer.keepAliveRange.getD ⟨0, 0⟩).min
  keepAliveMax_eq : peer.keepAliveMax = GoInt.ofUint32 (peer.keepAliveRange.getD ⟨0, 0⟩).max
  allowedIPs : List.Forall₂ (fun str p => parsePrefix str = some p)
    (pieces (parseStringOrEmpty host s "AllowedIPs")) peer.allowedIPs

section Peer

variable {s : Section} {peer : PeerConfig w}

theorem parseBase64KeyToHex_eq_ok {keyName hex : Text}
    (h : parseBase64KeyToHex host s keyName = .ok hex) :
    ∃ t, parseString host s keyName = .ok t ∧ KeyHex t hex := by
  simp only [parseBase64KeyToHex, bind_eq_ok_iff, parseStringErr_eq_ok_iff] at h
  obtain ⟨t, ht, hhex⟩ := h
  exact ⟨t, ht, encodeBase64ToHex_eq_ok hhex⟩

theorem KeyHex.newline_not_mem {t hex : Text} (h : KeyHex t hex) : '\n' ∉ hex := by
  obtain ⟨bytes, -, -, rfl⟩ := h
  exact newline_not_mem_encodeHex bytes

theorem withKey_preSharedKey_eq_ok {hex : Text}
    (h : withKey s "PreSharedKey" noPreSharedKey encodeBase64ToHex = .ok hex) :
    WritesPreSharedKey s hex := by
  unfold WritesPreSharedKey
  rcases withKey_eq_ok_iff.1 h with ⟨hnone, rfl⟩ | ⟨t, hsome, ht⟩
  · rw [hnone]
    exact noPreSharedKey_eq
  · rw [hsome]
    exact encodeBase64ToHex_eq_ok ht

theorem withKey_endpoint_eq_ok {endpoint : Option Text}
    (h : (withKey s "Endpoint" none fun t => some <$> resolveIPPAndPort host (host.toLower t)) =
      .ok endpoint) :
    WritesEndpoint host s endpoint := by
  unfold WritesEndpoint
  rcases withKey_eq_ok_iff.1 h with ⟨hnone, rfl⟩ | ⟨t, hsome, ht⟩
  · rw [hnone]
  · rw [hsome]
    obtain ⟨e, he, rfl⟩ := map_some_eq_ok_iff.1 ht
    unfold resolveIPPAndPort at he
    split at he
    · cases he
    · rename_i name port hsplit
      simp only [bind_eq_ok_iff, Except.ok.injEq] at he
      obtain ⟨ip, hip, rfl⟩ := he
      exact ⟨name, port, ip, hsplit, hip, rfl⟩

theorem withKey_keepalive_eq_ok {keepAlive : Option UintRange}
    (h : (withKey s "PersistentKeepalive" none fun t => some <$> parseKeepalive t) =
      .ok keepAlive) :
    WritesKeepalive s (keepAlive.getD ⟨0, 0⟩) := by
  unfold WritesKeepalive
  rcases withKey_eq_ok_iff.1 h with ⟨hnone, rfl⟩ | ⟨t, hsome, ht⟩
  · rw [hnone]
    rfl
  · rw [hsome]
    obtain ⟨r, hr, rfl⟩ := map_some_eq_ok_iff.1 ht
    rw [parseKeepalive, invalidValue_eq_ok_iff, keepaliveText] at hr
    simp only [Option.getD_some]
    split
    · rename_i hoff
      rw [if_pos hoff, parseUintRange_zero] at hr
      exact (Except.ok.inj hr).symm
    · rename_i hoff
      rwa [if_neg hoff, parseUintRange_trimSpace] at hr

theorem parseAllowedIPs_eq_ok {ips : List Prefix} (h : parseAllowedIPs host s = .ok ips) :
    List.Forall₂ (fun str p => parsePrefix str = some p)
      (pieces (parseStringOrEmpty host s "AllowedIPs")) ips := by
  unfold parseAllowedIPs parseListKey at h
  unfold parseStringOrEmpty
  split at h
  · split at h
    · cases h
      exact .nil
    · cases h
  · rw [parsePieces_splitOn, mapM_eq_ok_iff] at h
    refine h.imp fun str p hp => ?_
    unfold parsePrefixErr at hp
    split at hp
    · cases hp
    · rename_i q hq
      exact Except.ok.inj hp ▸ hq

/-- **What a parsed peer holds.** -/
theorem parsedFrom_of_parsePeer (h : parsePeer host s = .ok peer) : ParsedFrom host s peer := by
  simp only [parsePeer, bind_eq_ok_iff, Except.ok.injEq] at h
  obtain ⟨publicKey, hpub, preSharedKey, hpsk, endpoint, hend, keepAlive, hka, ips, hips, rfl⟩ := h
  exact {
    publicKey := parseBase64KeyToHex_eq_ok hpub
    preSharedKey := withKey_preSharedKey_eq_ok hpsk
    endpoint := withKey_endpoint_eq_ok hend
    keepalive := withKey_keepalive_eq_ok hka
    keepAlive_eq := by cases keepAlive <;> simp [GoInt.ofUint32_zero]
    keepAliveMax_eq := by cases keepAlive <;> simp [GoInt.ofUint32_zero]
    allowedIPs := parseAllowedIPs_eq_ok hips }

/-! ## The block of a parsed peer -/

/-- The range of a parsed peer is the one that was parsed, whether or not its bounds fit the public
fields. -/
theorem persistentKeepaliveRange_of_parsedFrom (h : ParsedFrom host s peer) :
    persistentKeepaliveRange peer = .ok (peer.keepAliveRange.getD ⟨0, 0⟩) := by
  have hmin := h.keepAlive_eq
  have hmax := h.keepAliveMax_eq
  unfold persistentKeepaliveRange
  cases hr : peer.keepAliveRange with
  | none =>
    rw [hr, Option.getD_none, GoInt.ofUint32_zero] at hmin hmax
    simp only [checkedKeepaliveRange, hmin, hmax, Option.getD_none]
    simp [GoInt.toUint32]
  | some r =>
    rw [hr, Option.getD_some] at hmin hmax
    exact if_pos ⟨hmin.symm, hmax.symm⟩

theorem peerNewlineFree_of_parsedFrom (h : ParsedFrom host s peer) (hs : ∀ l ∈ s, '\n' ∉ l.2) :
    PeerNewlineFree peer := by
  refine ⟨?_, ?_, fun e he => ?_⟩
  · obtain ⟨t, -, hkey⟩ := h.publicKey
    exact hkey.newline_not_mem
  · have hpsk := h.preSharedKey
    unfold WritesPreSharedKey at hpsk
    split at hpsk
    · rw [hpsk]
      simp
    · exact hpsk.newline_not_mem
  · have hend := h.endpoint
    unfold WritesEndpoint at hend
    split at hend
    · rw [hend] at he
      cases he
    · rename_i t ht
      obtain ⟨name, port, ip, hsplit, hip, heq⟩ := hend
      rw [heq] at he
      cases he
      -- the text of the section has no newline, so neither has what is made of it
      have hlow := host.newline_not_mem_toLower (hs _ (Section.mem_of_getKey ht))
      intro hm
      rcases mem_joinHostPort hm with hm | hm | hm | hm | hm
      · exact host.newline_not_mem_resolveIPAddr name ip
          (fun hn => hlow (mem_of_splitHostPort hsplit (.inl hn))) hip hm
      · exact hlow (mem_of_splitHostPort hsplit (.inr hm))
      · exact absurd hm (by decide)
      · exact absurd hm (by decide)
      · exact absurd hm (by decide)

theorem le_of_writesKeepalive {r : UintRange} (h : WritesKeepalive s r) : r.min ≤ r.max := by
  unfold WritesKeepalive at h
  split at h
  · rw [h]
    exact UInt32.le_refl 0
  · split at h
    · rw [h]
      exact UInt32.le_refl 0
    · exact le_of_parseUintRange h

theorem writesRoutes_of_parsedFrom (h : ParsedFrom host s peer) (r : UintRange) :
    WritesRoutes host s (valuesAt ("allowed_ip" : String).toList (peerLines peer r)) := by
  have hips := h.allowedIPs
  rw [WritesRoutes, valuesAt_allowed_ip]
  generalize pieces (parseStringOrEmpty host s "AllowedIPs") = strs at hips ⊢
  split
  · rename_i hnil
    subst hnil
    rw [List.forall₂_nil_left_iff] at hips
    rw [hips]
    exact if_neg (by simp)
  · rename_i hne
    have hlen : peer.allowedIPs.length > 0 := by
      rw [← hips.length_eq]
      exact List.length_pos_iff.2 hne
    rw [if_pos hlen, List.forall₂_map_right_iff]
    exact hips.imp fun str p hp => ⟨p, hp, parsePrefix_toText (isValid_of_parsePrefix hp)⟩

/-- **The block of a parsed peer carries its section.** -/
theorem carries_peerLines (h : ParsedFrom host s peer) :
    Carries host s (peerLines peer (peer.keepAliveRange.getD ⟨0, 0⟩)) where
  publicKey := by
    obtain ⟨t, ht, hkey⟩ := h.publicKey
    exact ⟨t, _, ht, hkey, lookup_public_key _ _⟩
  preSharedKey := ⟨_, lookup_preshared_key _ _, h.preSharedKey⟩
  keepalive := ⟨_, _, lookup_keepalive _ _,
    parseUintRange_toText (le_of_writesKeepalive h.keepalive), h.keepalive⟩
  endpoint := by
    rw [lookup_endpoint]
    exact h.endpoint
  routes := writesRoutes_of_parsedFrom h _

end Peer

/-! ## All peers -/

/-- **Peers survive the whole pipeline.** From `[Peer]` sections without newlines in their texts,
`ParsePeers` makes one peer for each section, and every device with these peers has a request whose
blocks carry the sections one by one. A key that is repeated counts with its first text. -/
theorem parsePeers_request {cfg : File} {peers : List (PeerConfig w)}
    (htext : ∀ s ∈ cfg.sectionsByName "Peer", ∀ l ∈ s, '\n' ∉ l.2)
    (hok : parsePeers host cfg [] = .ok peers) :
    List.Forall₂ (fun s p => parsePeer host s = .ok p) (cfg.sectionsByName "Peer") peers ∧
      ∀ conf : DeviceConfig w, conf.peers = peers →
        ∃ setting, createIPCRequest conf = .ok setting ∧
          ('\n' ∉ conf.secretKey → (∀ c ∈ conf.aSecConfig, ASecNewlineFree c) →
            ∃ device bs, (readLines setting.ipcRequest).map (blocks opensPeer) = some (device, bs) ∧
              List.Forall₂ (Carries host) (cfg.sectionsByName "Peer") bs) := by
  have hpeers : List.Forall₂ (fun s p => parsePeer host s = .ok p)
      (cfg.sectionsByName "Peer") peers := by
    rw [parsePeers, ite_error_eq_ok_iff, appendAll_eq_ok_iff] at hok
    obtain ⟨-, m, hm, rfl⟩ := hok
    exact hm
  have hparsed := hpeers.imp fun s p hp => parsedFrom_of_parsePeer hp
  refine ⟨hpeers, ?_⟩
  rintro conf rfl
  have hbs : List.Forall₂ (fun p b => peerBlock p = .ok b) conf.peers
      (conf.peers.map fun p => peerLines p (p.keepAliveRange.getD ⟨0, 0⟩)) := by
    rw [List.forall₂_map_right_iff, List.forall₂_same]
    intro p hp
    obtain ⟨s, -, hsp⟩ := exists_of_mem_forall₂_right hparsed hp
    exact peerBlock_eq_ok_iff.2 ⟨_, persistentKeepaliveRange_of_parsedFrom hsp, rfl⟩
  refine ⟨_, createIPCRequest_eq_ok_iff.2 ⟨_, hbs, rfl⟩, fun hkey hasec => ?_⟩
  have hfree : NewlineFree conf := by
    refine ⟨hkey, hasec, fun p hp => ?_⟩
    obtain ⟨s, hs, hsp⟩ := exists_of_mem_forall₂_right hparsed hp
    exact peerNewlineFree_of_parsedFrom hsp (htext s hs)
  refine ⟨_, _, by rw [readLines_ipcRequest hfree hbs, Option.map_some, blocks_request hbs], ?_⟩
  rw [List.forall₂_map_right_iff]
  exact hparsed.imp fun s p hsp => carries_peerLines hsp

/-- A file with one peer, whose keepalive does not fit an `int` of 32 bits. -/
def onePeerFile : File where
  root := []
  sections := [("peer", [
    ("publickey", "AQEBAQEBAQEBAQEBAQEBAQEBAQEBAQEBAQEBAQEBAQE="),
    ("endpoint", "Example.org:51820"),
    ("persistentkeepalive", "25-3000000000"),
    ("allowedips", "10.0.0.0/8, ::/0")])]

theorem parsePeers_request_onePeerFile :
    ∃ (peers : List (PeerConfig .bits32)) (setting : DeviceSetting .bits32),
      parsePeers Host.bare onePeerFile [] = .ok peers ∧
      createIPCRequest { initialDevice with peers := peers } = .ok setting ∧
      ∃ device bs, (readLines setting.ipcRequest).map (blocks opensPeer) = some (device, bs) ∧
        List.Forall₂ (Carries Host.bare) (onePeerFile.sectionsByName "Peer") bs := by
  have htext : ∀ s ∈ onePeerFile.sectionsByName "Peer", ∀ l ∈ s, '\n' ∉ l.2 := by
    decide +kernel
  have hisOk : (parsePeers (w := .bits32) Host.bare onePeerFile []).isOk := by
    decide +kernel
  obtain ⟨peers, hpeers⟩ := exists_eq_ok_of_isOk hisOk
  obtain ⟨setting, hset, hcarry⟩ := (parsePeers_request htext hpeers).2
    { initialDevice with peers := peers } rfl
  exact ⟨peers, setting, hpeers, hset, hcarry (by simp [initialDevice]) (by simp [initialDevice])⟩

end WireProxy.Ipc
