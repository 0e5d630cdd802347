import WireProxy.Config.Interpolation
import WireProxy.Config.Literal

/-!
# The environment of a configuration

What the variables of the environment mean for a configuration: a reference stands for the text of
the variable, as if that text had been written in the file.

* `stringKeys` are the keys that are read with `parseString`, and `expandFile` writes the texts of
  the variables in place of the references.
* For each parser there is a lemma that it reads the same from the expanded section without an
  environment.
* `environment_expanded` states this for `ParseConfig`, and that no variable matters but those that
  the files refer to. What is written in a file is searched for references `%(name)s` to other keys,
  and what is in the environment is not, so there must be none of these.
-/

namespace WireProxy.Config

open Text Go Netip Awg Control

variable {w : IntSize}

/-! ## Expanding references -/

/-- The keys that are read with `parseString`. -/
def stringKeys : List Text :=
  ["Address", "PrivateKey", "DNS", "CheckAlive", "PublicKey", "AllowedIPs", "BindAddress", "Target",
    "Username", "Password", "CertFile", "KeyFile", "ResolveStrategy"]

/-- A line, with its lower-case name, has a key that is read with `parseString`. -/
def isStringKey (low : Text) : Bool := (stringKeys.map toLower).contains low

/-- Write the text of a variable in place of a reference to it, if it is set. -/
def expandText (lookupEnv : Text → Option Text) (t : Text) : Text :=
  if hasPrefix t "$" && !hasPrefix t "$$" then
    ((lookupEnv (trimPrefix t "$")).map escape).getD t
  else t

/-- Expand the references of a section. -/
def expandSection (lookupEnv : Text → Option Text) (s : Section) : Section :=
  s.map fun line =>
    (line.1, if isStringKey line.1 then expandText lookupEnv line.2 else line.2)

/-- Expand the references of a file. The key `WGConfig`, before the sections, is not read with
`parseString`. -/
def expandFile (lookupEnv : Text → Option Text) (f : File) : File :=
  ⟨f.root, f.sections.map fun p => (p.1, expandSection lookupEnv p.2)⟩

/-- The host without its environment. -/
def Host.withoutEnv (host : Host) : Host := { host with lookupEnv := fun _ => none }

/-- **The value of an expanded text.** A reference that is not set is not expanded, so that the
error names the same text. -/
theorem resolveText_expandText (host : Host) (keyName t : Text) :
    resolveText host.withoutEnv keyName (expandText host.lookupEnv t) =
      resolveText host keyName t := by
  have hliteral : ∀ v, resolveText host.withoutEnv keyName (escape v) = .ok v := by
    intro v
    rw [resolveText_eq_resolveTextM, resolveTextM_escape]
    rfl
  rw [expandText]
  split
  · rename_i hdollar
    rw [Bool.and_eq_true, Bool.not_eq_true', ← Bool.not_eq_true] at hdollar
    obtain ⟨hone, htwo⟩ := hdollar
    cases hv : host.lookupEnv (trimPrefix t "$") with
    | none =>
      rw [Option.map_none, Option.getD_none, resolveText, if_pos hone, if_neg htwo, resolveText,
        if_pos hone, if_neg htwo, hv]
      rfl
    | some v =>
      rw [Option.map_some, Option.getD_some, hliteral, resolveText, if_pos hone, if_neg htwo, hv]
  · rename_i hdollar
    rw [Bool.and_eq_true, Bool.not_eq_true', not_and, Bool.not_eq_false] at hdollar
    unfold resolveText
    split
    · rename_i hone
      rw [if_pos (hdollar hone), if_pos (hdollar hone)]
    · rfl

/-! ## The parsers -/

section Parsers

variable (host : Host) (s : Section)

theorem getKey_expandSection (lookupEnv : Text → Option Text) (name : Text) :
    (expandSection lookupEnv s).getKey name =
      if isStringKey (toLower name) then (s.getKey name).map (expandText lookupEnv)
      else s.getKey name := by
  have hlookup := lookup_map_value s (k := toLower name) fun low t =>
    if isStringKey low then expandText lookupEnv t else t
  rw [Section.getKey, expandSection, hlookup, Section.getKey]
  split
  · rfl
  · exact congrFun Option.map_id _

theorem parseString_expanded {keyName : Text} (h : isStringKey (toLower keyName)) :
    parseString host.withoutEnv (expandSection host.lookupEnv s) keyName =
      parseString host s keyName := by
  have hkey : (expandSection host.lookupEnv s).key (toLower keyName) =
      expandText host.lookupEnv (s.key (toLower keyName)) := by
    rw [Section.key, getKey_expandSection, toLower_toLower, if_pos h, Section.key]
    cases s.getKey (toLower keyName) <;> rfl
  rw [parseString, hkey, resolveText_expandText, parseString]

theorem withKey_expanded {α : Type} {name : Text} (h : isStringKey (toLower name) = false)
    (lookupEnv : Text → Option Text) (default : α) (parse : Text → Except Err α) :
    withKey (expandSection lookupEnv s) name default parse = withKey s name default parse := by
  rw [withKey, getKey_expandSection, if_neg (by simp [h]), withKey]

theorem parseStringErr_expanded {keyName : Text} (h : isStringKey (toLower keyName)) :
    parseStringErr host.withoutEnv (expandSection host.lookupEnv s) keyName =
      parseStringErr host s keyName := by
  rw [parseStringErr, parseString_expanded host s h, parseStringErr]

theorem parseStringOrEmpty_expanded {keyName : Text} (h : isStringKey (toLower keyName)) :
    parseStringOrEmpty host.withoutEnv (expandSection host.lookupEnv s) keyName =
      parseStringOrEmpty host s keyName := by
  rw [parseStringOrEmpty, parseString_expanded host s h, parseStringOrEmpty]

theorem parseListKey_expanded {β : Type} {keyName : Text} (h : isStringKey (toLower keyName))
    (parse : Text → Except Err β) :
    parseListKey host.withoutEnv (expandSection host.lookupEnv s) keyName parse =
      parseListKey host s keyName parse := by
  rw [parseListKey, parseString_expanded host s h, parseListKey]

/-- No AmneziaWG parameter is read with `parseString`. -/
theorem parseASecConfig_expanded :
    parseASecConfig (w := w) host.withoutEnv (expandSection host.lookupEnv s) =
      parseASecConfig host s := by
  have hkeys : ∀ k ∈ AwgKey.all, isStringKey (toLower k.name) = false := by decide +kernel
  have hlook : lookKey (w := w) host.withoutEnv (expandSection host.lookupEnv s) =
      lookKey host s := by
    funext k
    rw [lookKey, getKey_expandSection, if_neg (by rw [hkeys k (AwgKey.mem_all k)]; decide), lookKey]
    have hparse : k.kind.parse (w := w) host.withoutEnv k.name = k.kind.parse host k.name := by
      cases k <;> rfl
    rw [hparse]
  rw [parseASecConfig, hlook, parseASecConfig]

/-- The parser of a peer. -/
theorem parsePeer_expanded :
    parsePeer (w := w) host.withoutEnv (expandSection host.lookupEnv s) = parsePeer host s := by
  have hpublic : isStringKey (toLower "PublicKey") := by decide +kernel
  have hallowed : isStringKey (toLower "AllowedIPs") := by decide +kernel
  have hpsk : isStringKey (toLower "PreSharedKey") = false := by decide +kernel
  have hendpoint : isStringKey (toLower "Endpoint") = false := by decide +kernel
  have hkeepalive : isStringKey (toLower "PersistentKeepalive") = false := by decide +kernel
  rw [parsePeer, parseBase64KeyToHex, parseStringErr_expanded host s hpublic,
    withKey_expanded s hpsk, withKey_expanded s hendpoint, withKey_expanded s hkeepalive,
    parseAllowedIPs, parseListKey_expanded host s hallowed, parsePeer, parseBase64KeyToHex,
    parseAllowedIPs]
  rfl

/-- The parsers of the routines. -/
theorem parse_expanded (kind : RoutineKind) :
    kind.parse (w := w) host.withoutEnv (expandSection host.lookupEnv s) = kind.parse host s := by
  have hbind : isStringKey (toLower "BindAddress") := by decide +kernel
  have htarget : isStringKey (toLower "Target") := by decide +kernel
  have husername : isStringKey (toLower "Username") := by decide +kernel
  have hpassword : isStringKey (toLower "Password") := by decide +kernel
  have hcert : isStringKey (toLower "CertFile") := by decide +kernel
  have hkey : isStringKey (toLower "KeyFile") := by decide +kernel
  have htimeout : isStringKey (toLower "InactivityTimeout") = false := by decide +kernel
  have hport : isStringKey (toLower "ListenPort") = false := by decide +kernel
  have hlisten : (expandSection host.lookupEnv s).key "ListenPort" = s.key "ListenPort" := by
    rw [Section.key, getKey_expandSection, if_neg (by rw [hport]; decide), Section.key]
  cases kind <;> dsimp only [RoutineKind.parse]
  · rw [parseTCPClientTunnelConfig, parseTCPAddr, parseStringErr_expanded host s hbind,
      parseStringErr_expanded host s htarget, parseTCPClientTunnelConfig, parseTCPAddr]
    rfl
  · rw [parseSTDIOTunnelConfig, parseStringErr_expanded host s htarget, parseSTDIOTunnelConfig]
  · rw [parseTCPServerTunnelConfig, parsePort, hlisten, parseStringErr_expanded host s htarget,
      parseTCPServerTunnelConfig, parsePort]
  · rw [parseSocks5Config, parseStringErr_expanded host s hbind,
      parseStringOrEmpty_expanded host s husername, parseStringOrEmpty_expanded host s hpassword,
      parseSocks5Config]
  · rw [parseHTTPConfig, parseStringErr_expanded host s hbind,
      parseStringOrEmpty_expanded host s husername, parseStringOrEmpty_expanded host s hpassword,
      parseStringOrEmpty_expanded host s hcert, parseStringOrEmpty_expanded host s hkey,
      parseHTTPConfig]
  · rw [parseUDPProxyTunnelConfig, parseStringErr_expanded host s hbind,
      parseStringErr_expanded host s htarget, withKey_expanded s htimeout,
      parseUDPProxyTunnelConfig]

end Parsers

/-! ## The whole file -/

section Files

variable (host : Host) (cfg : File)

theorem sectionsByName_expandFile (lookupEnv : Text → Option Text) (name : Text) :
    (expandFile lookupEnv cfg).sectionsByName name =
      (cfg.sectionsByName name).map (expandSection lookupEnv) := by
  rw [File.sectionsByName, expandFile, List.filterMap_map, File.sectionsByName, List.map_filterMap]
  refine List.filterMap_congr fun p _ => ?_
  rw [Function.comp_apply]
  split <;> rfl

theorem parseInterface_expanded (device : DeviceConfig w) :
    parseInterface host.withoutEnv (expandFile host.lookupEnv cfg) device =
      parseInterface host cfg device := by
  have haddress : isStringKey (toLower "Address") := by decide +kernel
  have hprivate : isStringKey (toLower "PrivateKey") := by decide +kernel
  have hdns : isStringKey (toLower "DNS") := by decide +kernel
  have halive : isStringKey (toLower "CheckAlive") := by decide +kernel
  have hmtu : isStringKey (toLower "MTU") = false := by decide +kernel
  have hport : isStringKey (toLower "ListenPort") = false := by decide +kernel
  have hinterval : isStringKey (toLower "CheckAliveInterval") = false := by decide +kernel
  rw [parseInterface, sectionsByName_expandFile, parseInterface]
  rcases cfg.sectionsByName "Interface" with _ | ⟨s, _ | ⟨s', sections⟩⟩
  · rfl
  · simp only [List.map_cons, List.map_nil, parseCIDRNetIP, parseNetIP, parseBase64KeyToHex,
      parseListKey_expanded host s haddress, parseListKey_expanded host s hdns,
      parseListKey_expanded host s halive, parseStringErr_expanded host s hprivate,
      withKey_expanded s hmtu, withKey_expanded s hport, withKey_expanded s hinterval,
      parseASecConfig_expanded host s]
  · rfl

theorem parsePeers_expanded (peers : List (PeerConfig w)) :
    parsePeers host.withoutEnv (expandFile host.lookupEnv cfg) peers =
      parsePeers host cfg peers := by
  rw [parsePeers, sectionsByName_expandFile, List.length_map, appendAll, List.foldlM_map,
    parsePeers, appendAll]
  simp only [parsePeer_expanded]

theorem parseRoutinesConfig_expanded (kind : RoutineKind) (routines : List (RoutineSpawner w))
    (sectionName : Text) :
    parseRoutinesConfig routines (expandFile host.lookupEnv cfg) sectionName
        (kind.parse host.withoutEnv) =
      parseRoutinesConfig routines cfg sectionName (kind.parse host) := by
  rw [parseRoutinesConfig, sectionsByName_expandFile, appendAll, List.foldlM_map,
    parseRoutinesConfig, appendAll]
  simp only [parse_expanded]

theorem parseFiles_expanded (wgCfg : File) :
    parseFiles (w := w) host.withoutEnv (expandFile host.lookupEnv cfg)
        (expandFile host.lookupEnv wgCfg) =
      parseFiles host cfg wgCfg := by
  have hstrategy : isStringKey (toLower "ResolveStrategy") := by decide +kernel
  have htcp := parseRoutinesConfig_expanded (w := w) host cfg .tcpClientTunnel
  have hstdio := parseRoutinesConfig_expanded (w := w) host cfg .stdioTunnel
  have hserver := parseRoutinesConfig_expanded (w := w) host cfg .tcpServerTunnel
  have hsocks := parseRoutinesConfig_expanded (w := w) host cfg .socks5
  have hhttp := parseRoutinesConfig_expanded (w := w) host cfg .http
  have hudp := parseRoutinesConfig_expanded (w := w) host cfg .udpProxyTunnel
  dsimp only [RoutineKind.parse] at htcp hstdio hserver hsocks hhttp hudp
  rw [parseFiles, parseInterface_expanded, parseFiles]
  simp only [parsePeers_expanded, htcp, hstdio, hserver, hsocks, hhttp, hudp,
    sectionsByName_expandFile]
  cases cfg.sectionsByName "Resolve" with
  | nil => rfl
  | cons s sections =>
    simp only [List.map_cons, parseResolveConfig, parseStringOrEmpty_expanded host s hstrategy]

end Files

/-- A host without environment, on which every file is expanded. -/
def Host.expanded (host : Host) : Host where
  __ := host.withoutEnv
  loadSources path := (host.loadSources path).map (expandFile host.lookupEnv)

/-- A file is one of those that are read for a path. -/
def Host.Loads (host : Host) (path : Text) (f : File) : Prop :=
  host.loadSources path = .ok f ∨ ∃ cfg t, host.loadSources path = .ok cfg ∧
    cfg.root.getKey "WGConfig" = some t ∧ host.loadSources t = .ok f

/-- Some key that is read with `parseString` refers to the variable. -/
def File.RefersTo (f : File) (name : Text) : Prop :=
  ∃ p ∈ f.sections, ∃ line ∈ p.2, isStringKey line.1 ∧ line.2 = '$' :: name ∧
    name.head? ≠ some '$'

theorem parseConfig_expanded (host : Host) (path : Text) :
    parseConfig (w := w) host.expanded path = parseConfig host path := by
  have hfiles : parseFiles (w := w) host.expanded = parseFiles host.withoutEnv := rfl
  have hload : ∀ p, host.expanded.loadSources p =
      (host.loadSources p).map (expandFile host.lookupEnv) := fun _ => rfl
  rw [parseConfig, parseConfig, hload]
  cases host.loadSources path with
  | error e => rfl
  | ok cfg =>
    have hwg : withKey (expandFile host.lookupEnv cfg).root "WGConfig"
        (expandFile host.lookupEnv cfg) host.expanded.loadSources =
        (withKey cfg.root "WGConfig" cfg host.loadSources).map (expandFile host.lookupEnv) := by
      rw [withKey, withKey, show (expandFile host.lookupEnv cfg).root = cfg.root from rfl]
      cases cfg.root.getKey "WGConfig" <;> rfl
    simp only [Except.map, bind, Except.bind, hwg, hfiles]
    cases withKey cfg.root "WGConfig" cfg host.loadSources with
    | error e => rfl
    | ok wgCfg => exact parseFiles_expanded host cfg wgCfg

/-- The text of a reference. -/
theorem exists_of_isReference {t : Text} (h : (hasPrefix t "$" && !hasPrefix t "$$") = true) :
    ∃ name, t = '$' :: name ∧ name.head? ≠ some '$' ∧ trimPrefix t "$" = name := by
  rw [Bool.and_eq_true, Bool.not_eq_true', ← Bool.not_eq_true] at h
  obtain ⟨hone, htwo⟩ := h
  obtain ⟨name, hname⟩ := List.head?_eq_some_iff.1 (hasPrefix_singleton_iff.1 hone)
  refine ⟨name, hname, fun hhead => htwo ?_, by rw [hname]; rfl⟩
  rw [hname]
  exact hasPrefix_singleton_iff.2 hhead

/-- The expansion of a text depends on the variable that it refers to, if it is a reference. -/
theorem expandText_congr {lookupEnv lookupEnv' : Text → Option Text} {t : Text}
    (h : ∀ name, t = '$' :: name → name.head? ≠ some '$' → lookupEnv name = lookupEnv' name) :
    expandText lookupEnv t = expandText lookupEnv' t := by
  rw [expandText, expandText]
  split
  · rename_i hdollar
    obtain ⟨name, hname, hhead, htrim⟩ := exists_of_isReference hdollar
    rw [htrim, h name hname hhead]
  · rfl

/-- The expansion depends on the variables that a file refers to. -/
theorem expandFile_congr {lookupEnv lookupEnv' : Text → Option Text} {f : File}
    (h : ∀ name, f.RefersTo name → lookupEnv name = lookupEnv' name) :
    expandFile lookupEnv f = expandFile lookupEnv' f := by
  have hsections : ∀ p ∈ f.sections,
      (p.1, expandSection lookupEnv p.2) = (p.1, expandSection lookupEnv' p.2) := by
    intro p hp
    refine congrArg (Prod.mk p.1) (List.map_congr_left fun line hline => ?_)
    by_cases hkey : isStringKey line.1
    · rw [if_pos hkey, if_pos hkey]
      refine congrArg (Prod.mk line.1) (expandText_congr fun name hname hhead => ?_)
      exact h name ⟨p, hp, line, hline, hkey, hname, hhead⟩
    · rw [if_neg hkey, if_neg hkey]
  rw [expandFile, expandFile, List.map_congr_left hsections]

theorem parseConfig_congr_env {host : Host} {path : Text} {lookupEnv : Text → Option Text}
    (hagree : ∀ f name, host.Loads path f → f.RefersTo name →
      lookupEnv name = host.lookupEnv name) :
    parseConfig (w := w) { host with lookupEnv := lookupEnv } path = parseConfig host path := by
  -- both are expanded, to the same files
  rw [parseConfig, parseConfig]
  cases hload : host.loadSources path with
  | error e => rfl
  | ok cfg =>
    have hcfg := expandFile_congr fun name => hagree cfg name (.inl hload)
    simp only [bind, Except.bind]
    cases hwg : withKey cfg.root "WGConfig" cfg host.loadSources with
    | error e => rfl
    | ok wgCfg =>
      have hloads : host.Loads path wgCfg := by
        rcases withKey_eq_ok_iff.1 hwg with ⟨-, rfl⟩ | ⟨t, ht, hwg⟩
        · exact .inl hload
        · exact .inr ⟨cfg, t, hload, ht, hwg⟩
      have hwgCfg := expandFile_congr fun name => hagree wgCfg name hloads
      have hleft := parseFiles_expanded (w := w) { host with lookupEnv := lookupEnv } cfg wgCfg
      have hright := parseFiles_expanded (w := w) host cfg wgCfg
      rw [← hcfg, ← hwgCfg] at hright
      exact hleft.symm.trans hright

/-! ## Files without references to keys -/

/-- Files without references to keys are read as they are written. -/
theorem parseConfig_interpolated_of_plain {host : Host} {path : Text}
    (hplain : ∀ f, host.Loads path f → f.Plain) :
    parseConfig (w := w) host.interpolated path = parseConfig host path := by
  cases hload : host.loadSources path with
  | error e =>
    have hload' : host.interpolated.loadSources path = .error e :=
      congrArg (Except.map (File.strings host.toLower)) hload
    rw [parseConfig, parseConfig, hload, hload']
    rfl
  | ok cfg =>
    have hstrings := (hplain cfg (.inl hload)).strings_eq host.toLower
    have hwg : withKey cfg.root "WGConfig" cfg host.interpolated.loadSources =
        withKey cfg.root "WGConfig" cfg host.loadSources := by
      cases hkey : cfg.root.getKey "WGConfig" with
      | none => rw [withKey_of_getKey_none hkey, withKey_of_getKey_none hkey]
      | some t =>
        rw [withKey_of_getKey_some hkey, withKey_of_getKey_some hkey]
        cases hwg : host.loadSources t with
        | error e => exact congrArg (Except.map (File.strings host.toLower)) hwg
        | ok f =>
          rw [loadSources_interpolated hwg,
            (hplain f (.inr ⟨cfg, t, hload, hkey, hwg⟩)).strings_eq]
    rw [parseConfig, parseConfig, hload, loadSources_interpolated hload, hstrings]
    simp only [bind, Except.bind, hwg]
    rfl

theorem findReference_escape {v : Text} (h : findReference v = none) :
    findReference (escape v) = none := by
  rw [escape]
  split
  · rw [findReference, h]
    rfl
  · exact h

/-- A file stays without references to keys, if the variables that it refers to hold none. -/
theorem File.Plain.expandFile {f : File} (h : f.Plain) {lookupEnv : Text → Option Text}
    (hvalues : ∀ name v, f.RefersTo name → lookupEnv name = some v → findReference v = none) :
    (expandFile lookupEnv f).Plain := by
  refine ⟨h.root, fun p hp line hline => ?_⟩
  obtain ⟨⟨kind, s⟩, hs, rfl⟩ := List.mem_map.1 hp
  obtain ⟨⟨low, t⟩, ht, rfl⟩ := List.mem_map.1 hline
  have hplain : findReference t = none := h.sections _ hs _ ht
  dsimp only
  split
  · rename_i hkey
    rw [expandText]
    split
    · rename_i hdollar
      obtain ⟨name, hname, hhead, htrim⟩ := exists_of_isReference hdollar
      rw [htrim]
      cases hv : lookupEnv name with
      | none => exact hplain
      | some v =>
        exact findReference_escape
          (hvalues name v ⟨_, hs, _, ht, hkey, hname, hhead⟩ hv)
    · exact hplain
  · exact hplain

/-- The files that are read when every file is expanded. -/
theorem loads_expanded {host : Host} {path : Text} {f : File} (h : host.expanded.Loads path f) :
    ∃ f', host.Loads path f' ∧ f = expandFile host.lookupEnv f' := by
  have hload {p : Text} {f : File} (h : host.expanded.loadSources p = .ok f) :
      ∃ f', host.loadSources p = .ok f' ∧ f = expandFile host.lookupEnv f' := by
    have hmap : (host.loadSources p).map (expandFile host.lookupEnv) = .ok f := h
    cases hp : host.loadSources p with
    | error e =>
      rw [hp] at hmap
      cases hmap
    | ok f' =>
      rw [hp] at hmap
      exact ⟨f', rfl, (Except.ok.inj hmap).symm⟩
  rcases h with h | ⟨cfg, t, hcfg, ht, h⟩
  · obtain ⟨f', hf', rfl⟩ := hload h
    exact ⟨f', .inl hf', rfl⟩
  · obtain ⟨cfg', hcfg', rfl⟩ := hload hcfg
    obtain ⟨f', hf', rfl⟩ := hload h
    exact ⟨f', .inr ⟨cfg', t, hcfg', ht, hf'⟩, rfl⟩

/-- **The environment is expanded into the configuration, and nothing else of it matters**, for
files and variables without references `%(name)s` to keys.

* `ParseConfig` returns the same, also in its errors, without an environment for files in which each
  reference to a variable that is set is replaced by its text;
* it returns the same in any environment that has the same texts for the variables that the files
  refer to in the keys that are read with `parseString`. -/
theorem environment_expanded {host : Host} {path : Text}
    (hplain : ∀ f, host.Loads path f → f.Plain)
    (hvalues : ∀ f name v, host.Loads path f → f.RefersTo name → host.lookupEnv name = some v →
      findReference v = none) :
    parseConfig (w := w) host.expanded.interpolated path = parseConfig host.interpolated path ∧
    ∀ lookupEnv : Text → Option Text,
      (∀ f name, host.Loads path f → f.RefersTo name → lookupEnv name = host.lookupEnv name) →
      parseConfig (w := w) { host with lookupEnv := lookupEnv }.interpolated path =
        parseConfig host.interpolated path := by
  have hexpanded : ∀ f, host.expanded.Loads path f → f.Plain := by
    intro f hf
    obtain ⟨f', hf', rfl⟩ := loads_expanded hf
    exact (hplain f' hf').expandFile fun name v => hvalues f' name v hf'
  rw [parseConfig_interpolated_of_plain hplain]
  refine ⟨?_, fun lookupEnv hagree => ?_⟩
  · rw [parseConfig_interpolated_of_plain hexpanded, parseConfig_expanded]
  · have hsame : ∀ f, Host.Loads { host with lookupEnv := lookupEnv } path f → f.Plain :=
      hplain
    rw [parseConfig_interpolated_of_plain hsame, parseConfig_congr_env hagree]

/-- A file that refers to a variable. -/
def variableFile : File where
  root := []
  sections := [
    ("interface", [("address", "$ADDRESS"),
      ("privatekey", "AQEBAQEBAQEBAQEBAQEBAQEBAQEBAQEBAQEBAQEBAQE=")]),
    ("peer", [("publickey", "AgICAgICAgICAgICAgICAgICAgICAgICAgICAgICAgI=")])]

/-- A host that sets the variable. -/
def variableHost : Host :=
  { Host.bare with
    lookupEnv := fun name => if name = ("ADDRESS" : String).toList then some "10.0.0.1" else none
    loadSources := fun _ => .ok variableFile }

theorem environment_expanded_variableHost :
    (parseConfig (w := .bits64) variableHost.interpolated []).isOk = true ∧
      parseConfig (w := .bits64) variableHost.expanded.interpolated [] =
        parseConfig variableHost.interpolated [] := by
  have hloads : ∀ f, variableHost.Loads [] f → f = variableFile := by
    rintro f (h | ⟨cfg, t, -, -, h⟩) <;> exact (Except.ok.inj h).symm
  have hplain : variableFile.Plain :=
    ⟨by unfold Section.Plain; decide +kernel, by unfold Section.Plain; decide +kernel⟩
  refine ⟨by decide +kernel, (environment_expanded (fun f hf => hloads f hf ▸ hplain) ?_).1⟩
  intro f name v _ _ hv
  have hvalue : v = ("10.0.0.1" : String).toList := by
    rw [variableHost, Option.ite_none_right_eq_some] at hv
    exact (Option.some.inj hv.2).symm
  rw [hvalue]
  decide +kernel

end WireProxy.Config
