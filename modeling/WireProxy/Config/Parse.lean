import WireProxy.Awg.Parse
import WireProxy.Config.Types

/-!
# Parsing a configuration

The functions of `config.go`: from a loaded file to a `Configuration`.

* `parseListKey` is the common form of `parseNetIP`, `parseCIDRNetIP` and `parseAllowedIPs`, which
  differ in how they parse a piece of the comma-separated text.
* `parseInterface`, `parsePeers` and the parsers of the routine sections, and `parseConfig`, which
  puts them together.
-/

namespace WireProxy.Config

open Text Go Netip Awg Control

variable {w : IntSize}

/-! ## Values -/

/-- A value that is read only if its key is present. -/
def withKey {α : Type} (s : Section) (name : Text) (default : α) (parse : Text → Except Err α) :
    Except Err α :=
  match s.getKey name with
  | none => .ok default
  | some t => parse t

/-- `parseString`, with its error as an error of the program. -/
def parseStringErr (host : Host) (s : Section) (keyName : Text) : Except Err Text :=
  match parseString host s keyName with
  | .error msg => .error (.msg msg)
  | .ok value => .ok value

/-- `parsePort`. -/
def parsePort (s : Section) (keyName : Text) : Except Err (GoInt w) := do
  let port : GoInt w ← keyInt (s.key keyName)
  if port.toInt < 0 ∨ port.toInt ≥ 65536 then .error (.msg "port should be >= 0 and < 65536")
  else .ok port

/-- `parseTCPAddr`. -/
def parseTCPAddr (host : Host) (s : Section) (keyName : Text) : Except Err TCPAddr := do
  let addrStr ← parseStringErr host s keyName
  host.resolveTCPAddr addrStr

/-- `parseBase64KeyToHex`. -/
def parseBase64KeyToHex (host : Host) (s : Section) (keyName : Text) : Except Err Text := do
  let key ← parseStringErr host s keyName
  encodeBase64ToHex key

/-- `netip.ParseAddr` with its error. -/
def parseAddrErr (str : Text) : Except Err Addr :=
  match parseAddr str with
  | none => .error (.parseAddr str)
  | some ip => .ok ip

/-- `netip.ParsePrefix` with its error. -/
def parsePrefixErr (str : Text) : Except Err Prefix :=
  match parsePrefix str with
  | none => .error (.parseAddr str)
  | some p => .ok p

/-- An address, or a prefix of which the address is taken. -/
def parseAddrOrPrefix (str : Text) : Except Err Addr :=
  match parseAddr str with
  | some addr => .ok addr
  | none => do
    let p ← parsePrefixErr str
    .ok p.ip

/-- The loop over the pieces of a comma-separated text: blank ones are skipped. -/
def parsePieces {β : Type} (parse : Text → Except Err β) : List Text → Except Err (List β)
  | [] => .ok []
  | str :: keys =>
    if (trimSpace str).length = 0 then parsePieces parse keys
    else do
      let ip ← parse (trimSpace str)
      let ips ← parsePieces parse keys
      .ok (ip :: ips)

/-- A key with a comma-separated text. An error of `parseString` whose text says that the key
should not be empty counts as an empty list. -/
def parseListKey {β : Type} (host : Host) (s : Section) (keyName : Text)
    (parse : Text → Except Err β) : Except Err (List β) :=
  match parseString host s keyName with
  | .error msg => if contains msg "should not be empty" then .ok [] else .error (.msg msg)
  | .ok key => parsePieces parse (key.splitOn ',')

/-- The pieces of a comma-separated text that are not blank, without white space around them. -/
def pieces (t : Text) : List Text := ((t.splitOn ',').map trimSpace).filter fun str => str ≠ []

/-- `parseNetIP`. -/
def parseNetIP (host : Host) (s : Section) (keyName : Text) : Except Err (List Addr) :=
  parseListKey host s keyName parseAddrErr

/-- `parseCIDRNetIP`. -/
def parseCIDRNetIP (host : Host) (s : Section) (keyName : Text) : Except Err (List Addr) :=
  parseListKey host s keyName parseAddrOrPrefix

/-- `parseAllowedIPs`. -/
def parseAllowedIPs (host : Host) (s : Section) : Except Err (List Prefix) :=
  parseListKey host s "AllowedIPs" parsePrefixErr

/-- `resolveIPPAndPort`. -/
def resolveIPPAndPort (host : Host) (addr : Text) : Except Err Text :=
  match splitHostPort addr with
  | .error e => .error (.addr e)
  | .ok (name, port) => do
    let ip ← host.resolveIPAddr name
    .ok (joinHostPort ip port)

/-! ## The device -/

/-- The interval of the liveness checks, which needs addresses to check. -/
def parseCheckAliveInterval (checkAlive : List Addr) (t : Text) : Except Err (GoInt w) := do
  let value ← keyInt t
  if checkAlive.length = 0 then
    .error (.msg "CheckAliveInterval is only valid when CheckAlive is set")
  else .ok value

/-- `ParseInterface`, returning the device that the source updates in place. -/
def parseInterface (host : Host) (cfg : File) (device : DeviceConfig w) :
    Except Err (DeviceConfig w) :=
  match cfg.sectionsByName "Interface" with
  | [s] => do
    let address ← parseCIDRNetIP host s "Address"
    let privKey ← parseBase64KeyToHex host s "PrivateKey"
    let dns ← parseNetIP host s "DNS"
    let mtu ← withKey s "MTU" device.mtu keyInt
    let listenPort ← withKey s "ListenPort" device.listenPort fun t => some <$> keyInt t
    let checkAlive ← parseNetIP host s "CheckAlive"
    let checkAliveInterval ← withKey s "CheckAliveInterval" 5 (parseCheckAliveInterval checkAlive)
    let aSecConfig ← parseASecConfig host s
    .ok { device with
      endpoint := address
      secretKey := privKey
      dns := dns
      mtu := mtu
      listenPort := listenPort
      checkAlive := checkAlive
      checkAliveInterval := checkAliveInterval
      aSecConfig := aSecConfig }
  | _ => .error (.msg "one and only one [Interface] is expected")

/-- The preshared key of a peer that has none. -/
def noPreSharedKey : Text := "0000000000000000000000000000000000000000000000000000000000000000"

theorem noPreSharedKey_eq : noPreSharedKey = List.replicate 64 '0' := by
  decide +kernel

/-- The text of a keepalive range: `off` stands for zero. -/
def keepaliveText (t : Text) : Text :=
  if equalFold (trimSpace t) "off" then ("0" : String).toList else trimSpace t

/-- The value of `PersistentKeepalive`. -/
def parseKeepalive (t : Text) : Except Err UintRange :=
  invalidValue "PersistentKeepalive" (parseUintRange (keepaliveText t))

/-- The body of the loop of `ParsePeers`. -/
def parsePeer (host : Host) (s : Section) : Except Err (PeerConfig w) := do
  let publicKey ← parseBase64KeyToHex host s "PublicKey"
  let preSharedKey ← withKey s "PreSharedKey" noPreSharedKey encodeBase64ToHex
  let endpoint ← withKey s "Endpoint" none fun t =>
    some <$> resolveIPPAndPort host (host.toLower t)
  let keepAlive ← withKey s "PersistentKeepalive" none fun t => some <$> parseKeepalive t
  let allowedIPs ← parseAllowedIPs host s
  .ok {
    publicKey := publicKey
    preSharedKey := preSharedKey
    endpoint := endpoint
    keepAlive := (keepAlive.map fun r => GoInt.ofUint32 r.min).getD 0
    keepAliveMax := (keepAlive.map fun r => GoInt.ofUint32 r.max).getD 0
    allowedIPs := allowedIPs
    keepAliveRange := keepAlive }

/-- `ParsePeers`, returning the list that the source appends to. -/
def parsePeers (host : Host) (cfg : File) (peers : List (PeerConfig w)) :
    Except Err (List (PeerConfig w)) :=
  if (cfg.sectionsByName "Peer").length < 1 then .error (.msg "at least one [Peer] is expected")
  else appendAll (parsePeer host) (cfg.sectionsByName "Peer") peers

/-! ## Routines -/

/-- `parseTCPClientTunnelConfig`. -/
def parseTCPClientTunnelConfig (host : Host) (s : Section) : Except Err (RoutineSpawner w) := do
  let tcpAddr ← parseTCPAddr host s "BindAddress"
  let target ← parseStringErr host s "Target"
  .ok (.tcpClientTunnel ⟨tcpAddr, target⟩)

/-- `parseSTDIOTunnelConfig`. -/
def parseSTDIOTunnelConfig (host : Host) (s : Section) : Except Err (RoutineSpawner w) := do
  let target ← parseStringErr host s "Target"
  .ok (.stdioTunnel ⟨target⟩)

/-- `parseTCPServerTunnelConfig`. -/
def parseTCPServerTunnelConfig (host : Host) (s : Section) : Except Err (RoutineSpawner w) := do
  let listenPort ← parsePort s "ListenPort"
  let target ← parseStringErr host s "Target"
  .ok (.tcpServerTunnel ⟨listenPort, target⟩)

/-- `parseString` whose error is dropped: the value is then empty. -/
def parseStringOrEmpty (host : Host) (s : Section) (keyName : Text) : Text :=
  match parseString host s keyName with
  | .error _ => []
  | .ok value => value

/-- `parseSocks5Config`. -/
def parseSocks5Config (host : Host) (s : Section) : Except Err (RoutineSpawner w) := do
  let bindAddress ← parseStringErr host s "BindAddress"
  .ok (.socks5 ⟨bindAddress, parseStringOrEmpty host s "Username",
    parseStringOrEmpty host s "Password"⟩)

/-- `parseHTTPConfig`. -/
def parseHTTPConfig (host : Host) (s : Section) : Except Err (RoutineSpawner w) := do
  let bindAddress ← parseStringErr host s "BindAddress"
  .ok (.http ⟨bindAddress, parseStringOrEmpty host s "Username",
    parseStringOrEmpty host s "Password", parseStringOrEmpty host s "CertFile",
    parseStringOrEmpty host s "KeyFile"⟩)

/-- `parseResolveConfig`, which never fails. -/
def parseResolveConfig (host : Host) (s : Section) : ResolveConfig :=
  ⟨parseStringOrEmpty host s "ResolveStrategy"⟩

/-- `parseUDPProxyTunnelConfig`. -/
def parseUDPProxyTunnelConfig (host : Host) (s : Section) : Except Err (RoutineSpawner w) := do
  let bindAddress ← parseStringErr host s "BindAddress"
  let target ← parseStringErr host s "Target"
  let inactivityTimeout ← withKey s "InactivityTimeout" 0 keyInt
  .ok (.udpProxyTunnel ⟨bindAddress, target, inactivityTimeout⟩)

/-- `parseRoutinesConfig`, returning the list that the source appends to. -/
def parseRoutinesConfig (routines : List (RoutineSpawner w)) (cfg : File) (sectionName : Text)
    (f : Section → Except Err (RoutineSpawner w)) : Except Err (List (RoutineSpawner w)) :=
  appendAll f (cfg.sectionsByName sectionName) routines

/-! ## What the parsers return -/

section Success

variable {α β : Type}

theorem parsePieces_splitOn {parse : Text → Except Err β} (t : Text) :
    parsePieces parse (t.splitOn ',') = (pieces t).mapM parse := by
  unfold pieces
  induction t.splitOn ',' with
  | nil => rfl
  | cons str keys ih =>
    by_cases hstr : trimSpace str = []
    · rw [parsePieces, if_pos (by simp [hstr]), ih, List.map_cons,
        List.filter_cons_of_neg (by simp [hstr])]
    · rw [parsePieces, if_neg (by simpa using hstr), ih, List.map_cons,
        List.filter_cons_of_pos (by simp [hstr]), List.mapM_cons]
      rfl

theorem withKey_of_getKey_none {s : Section} {name : Text} (h : s.getKey name = none)
    (default : α) (parse : Text → Except Err α) : withKey s name default parse = .ok default := by
  rw [withKey, h]

theorem withKey_of_getKey_some {s : Section} {name t : Text} (h : s.getKey name = some t)
    (default : α) (parse : Text → Except Err α) : withKey s name default parse = parse t := by
  rw [withKey, h]

theorem withKey_eq_ok_iff {s : Section} {name : Text} {default v : α}
    {parse : Text → Except Err α} :
    withKey s name default parse = .ok v ↔
      (s.getKey name = none ∧ default = v) ∨ ∃ t, s.getKey name = some t ∧ parse t = .ok v := by
  unfold withKey
  cases s.getKey name <;> simp

theorem parseStringErr_eq_ok_iff {host : Host} {s : Section} {keyName t : Text} :
    parseStringErr host s keyName = .ok t ↔ parseString host s keyName = .ok t := by
  unfold parseStringErr
  cases parseString host s keyName <;> simp

theorem parseStringOrEmpty_of_ok {host : Host} {s : Section} {keyName t : Text}
    (h : parseString host s keyName = .ok t) : parseStringOrEmpty host s keyName = t := by
  rw [parseStringOrEmpty, h]

theorem map_some_eq_ok_iff {r : Except Err α} {o : Option α} :
    some <$> r = .ok o ↔ ∃ v, r = .ok v ∧ o = some v := by
  cases r with
  | error e => simp [Functor.map, Except.map]
  | ok v => simp [Functor.map, Except.map, eq_comm]

end Success

/-! ## The whole file -/

/-- The device before the `[Interface]` section is read. -/
def initialDevice : DeviceConfig w where
  secretKey := []
  endpoint := []
  peers := []
  dns := []
  mtu := 1420
  listenPort := none
  checkAlive := []
  checkAliveInterval := 0
  aSecConfig := none

/-- `ParseConfig` after the files are loaded. -/
def parseFiles (host : Host) (cfg wgCfg : File) : Except Err (Configuration w) := do
  let device ← parseInterface host wgCfg initialDevice
  let peers ← parsePeers host wgCfg device.peers
  let routines ← parseRoutinesConfig [] cfg "TCPClientTunnel" (parseTCPClientTunnelConfig host)
  let routines ← parseRoutinesConfig routines cfg "STDIOTunnel" (parseSTDIOTunnelConfig host)
  let routines ← parseRoutinesConfig routines cfg "TCPServerTunnel" (parseTCPServerTunnelConfig host)
  let routines ← parseRoutinesConfig routines cfg "Socks5" (parseSocks5Config host)
  let routines ← parseRoutinesConfig routines cfg "http" (parseHTTPConfig host)
  let resolve := match cfg.sectionsByName "Resolve" with
    | [] => ⟨"auto"⟩
    | s :: _ => parseResolveConfig host s
  let routines ← parseRoutinesConfig routines cfg "UDPProxyTunnel" (parseUDPProxyTunnelConfig host)
  .ok ⟨{ device with peers := peers }, routines, resolve⟩

/-- `ParseConfig`. -/
def parseConfig (host : Host) (path : Text) : Except Err (Configuration w) := do
  let cfg ← host.loadSources path
  let wgCfg ← withKey cfg.root "WGConfig" cfg host.loadSources
  parseFiles host cfg wgCfg

/-- The kinds of routines. -/
inductive RoutineKind
  | tcpClientTunnel
  | stdioTunnel
  | tcpServerTunnel
  | socks5
  | http
  | udpProxyTunnel
  deriving DecidableEq

namespace RoutineKind

/-- The kinds in the order in which they are parsed. -/
def all : List RoutineKind :=
  [tcpClientTunnel, stdioTunnel, tcpServerTunnel, socks5, http, udpProxyTunnel]

/-- The name of the sections of a kind. -/
def sectionName : RoutineKind → Text
  | tcpClientTunnel => "TCPClientTunnel"
  | stdioTunnel => "STDIOTunnel"
  | tcpServerTunnel => "TCPServerTunnel"
  | socks5 => "Socks5"
  | http => "http"
  | udpProxyTunnel => "UDPProxyTunnel"

/-- The parser of a kind. -/
def parse (host : Host) : RoutineKind → Section → Except Err (RoutineSpawner w)
  | tcpClientTunnel => parseTCPClientTunnelConfig host
  | stdioTunnel => parseSTDIOTunnelConfig host
  | tcpServerTunnel => parseTCPServerTunnelConfig host
  | socks5 => parseSocks5Config host
  | http => parseHTTPConfig host
  | udpProxyTunnel => parseUDPProxyTunnelConfig host

theorem nodup_all : all.Nodup := by decide

theorem mem_all (kind : RoutineKind) : kind ∈ all := by cases kind <;> decide

end RoutineKind

/-- The kinds of routines in the order in which they are parsed: the name of the sections and the
parser. -/
def routineKinds (host : Host) : List (Text × (Section → Except Err (RoutineSpawner w))) :=
  RoutineKind.all.map fun kind => (kind.sectionName, kind.parse host)

theorem mem_routineKinds (host : Host) (kind : RoutineKind) :
    (kind.sectionName, kind.parse (w := w) host) ∈ routineKinds host :=
  List.mem_map.2 ⟨kind, kind.mem_all, rfl⟩

/-- **The routines of an accepted file**: kind by kind, one for each section. -/
theorem routines_of_parseConfig {host : Host} {path : Text} {config : Configuration w}
    (h : parseConfig host path = .ok config) :
    ∃ cfg rss, host.loadSources path = .ok cfg ∧
      List.Forall₂ (fun kind rs => List.Forall₂ (fun s r => kind.2 s = .ok r)
        (cfg.sectionsByName kind.1) rs) (routineKinds host) rss ∧
      config.routines = rss.flatten := by
  simp only [parseConfig, parseFiles, bind_eq_ok_iff, parseRoutinesConfig, appendAll_eq_ok_iff,
    List.nil_append, Except.ok.injEq] at h
  obtain ⟨cfg, hload, _, -, _, -, _, -, tcps, ⟨_, htcp, rfl⟩, _, ⟨stdios, hstdio, rfl⟩,
    _, ⟨servers, hserver, rfl⟩, _, ⟨socks, hsocks, rfl⟩, _, ⟨https, hhttp, rfl⟩,
    _, ⟨udps, hudp, rfl⟩, rfl⟩ := h
  refine ⟨cfg, [tcps, stdios, servers, socks, https, udps], hload, ?_, by simp⟩
  exact .cons htcp (.cons hstdio (.cons hserver (.cons hsocks (.cons hhttp (.cons hudp .nil)))))

theorem exists_routine_of_section {host : Host} {path : Text} {config : Configuration w}
    {cfg : File} (hok : parseConfig host path = .ok config)
    (hload : host.loadSources path = .ok cfg)
    {name : Text} {f : Section → Except Err (RoutineSpawner w)}
    (hkind : (name, f) ∈ routineKinds host) {s : Section} (hs : s ∈ cfg.sectionsByName name) :
    ∃ r ∈ config.routines, f s = .ok r := by
  obtain ⟨cfg', rss, hload', hkinds, hrss⟩ := routines_of_parseConfig hok
  obtain rfl : cfg' = cfg := Except.ok.inj (hload'.symm.trans hload)
  obtain ⟨rs, hrs, hsections⟩ := exists_of_mem_forall₂_left hkinds hkind
  obtain ⟨r, hr, hsr⟩ := exists_of_mem_forall₂_left hsections hs
  exact ⟨r, hrss ▸ List.mem_flatten.2 ⟨rs, hrs, hr⟩, hsr⟩

end WireProxy.Config
