import WireProxy.Config.Interpolation

/-!
# The layout of a configuration

What the result of `parseConfig` does not depend on: the order of sections of different names, and
the file in which the device is described, as far as the sections refer to nothing in the root of
the file that they are taken from.

* `Rearranges` relates two lists of the same sections in which the sections of one name come in the
  same order.
* `parseConfig_congr`: the result is determined by the sections of each name that are read.
* `layout_irrelevant` puts the consequences together, for files that are written with references.
  `reference_lost` is a file whose sections cannot be moved.
-/

namespace WireProxy.Config

open Text Go Awg Control

variable {w : IntSize}

/-! ## Sections of a name -/

/-- The same sections in another order, in which those of one name keep theirs. -/
structure Rearranges (l l' : List (Text × Section)) : Prop where
  perm : l.Perm l'
  filter_eq : ∀ name, (l.filter fun p => p.1 = name) = l'.filter fun p => p.1 = name

theorem Rearranges.refl (l : List (Text × Section)) : Rearranges l l := ⟨.refl l, fun _ => rfl⟩

theorem sectionsByName_eq_map_filter (f : File) (name : Text) :
    f.sectionsByName name = (f.sections.filter fun p => p.1 = toLower name).map Prod.snd := by
  rw [File.sectionsByName]
  induction f.sections with
  | nil => rfl
  | cons p l ih => by_cases h : p.1 = toLower name <;> simp [h, ih]

/-- Rearranged sections, each of them changed in the same way. -/
theorem Rearranges.map {l l' : List (Text × Section)} (h : Rearranges l l')
    (g : Text × Section → Section) :
    Rearranges (l.map fun p => (p.1, g p)) (l'.map fun p => (p.1, g p)) := by
  refine ⟨h.perm.map _, fun name => ?_⟩
  rw [List.filter_map, List.filter_map]
  exact congrArg (List.map _) (h.filter_eq name)

theorem Rearranges.sectionsByName_eq {f f' : File} (h : Rearranges f.sections f'.sections)
    (name : Text) : f.sectionsByName name = f'.sectionsByName name := by
  rw [sectionsByName_eq_map_filter, h.filter_eq, sectionsByName_eq_map_filter]

/-- A part of a file has the same sections of a name, if it has all of them. -/
theorem sectionsByName_eq_of_part {f part : File} (keep : Text → Bool)
    (h : Rearranges (f.sections.filter fun p => keep p.1) part.sections) {name : Text}
    (hkeep : keep (toLower name) = true) : part.sectionsByName name = f.sectionsByName name := by
  rw [sectionsByName_eq_map_filter, ← h.filter_eq, List.filter_filter, sectionsByName_eq_map_filter]
  congr 2
  funext p
  by_cases hp : p.1 = toLower name
  · simp [hp, hkeep]
  · simp [hp]

/-! ## What a configuration depends on -/

/-- The names of the sections that describe the device. -/
def deviceNames : List Text := ["Interface", "Peer"]

/-- The names of the other sections that are read. -/
def routineNames : List Text :=
  ["TCPClientTunnel", "STDIOTunnel", "TCPServerTunnel", "Socks5", "http", "Resolve",
    "UDPProxyTunnel"]

/-- **The sections of each name determine the configuration.** -/
theorem parseConfig_congr {host : Host} {path path' : Text} {cfg cfg' wgCfg wgCfg' : File}
    (hload : host.loadSources path = .ok cfg) (hload' : host.loadSources path' = .ok cfg')
    (hwg : withKey cfg.root "WGConfig" cfg host.loadSources = .ok wgCfg)
    (hwg' : withKey cfg'.root "WGConfig" cfg' host.loadSources = .ok wgCfg')
    (hdevice : ∀ name ∈ deviceNames, wgCfg.sectionsByName name = wgCfg'.sectionsByName name)
    (hroutines : ∀ name ∈ routineNames, cfg.sectionsByName name = cfg'.sectionsByName name) :
    parseConfig (w := w) host path = parseConfig host path' := by
  simp only [deviceNames, routineNames, List.forall_mem_cons, List.not_mem_nil, false_imp_iff,
    implies_true, and_true] at hdevice hroutines
  obtain ⟨hinterface, hpeer⟩ := hdevice
  obtain ⟨htcp, hstdio, hserver, hsocks, hhttp, hresolve, hudp⟩ := hroutines
  rw [parseConfig, hload, parseConfig, hload']
  simp only [bind, Except.bind, hwg, hwg', parseFiles, parseInterface, parsePeers,
    parseRoutinesConfig, hinterface, hpeer, htcp, hstdio, hserver, hsocks, hhttp, hresolve, hudp]

/-- Whether a section describes the device. -/
def isDeviceName (name : Text) : Bool := name = toLower "Interface" ∨ name = toLower "Peer"

theorem isDeviceName_toLower {name : Text} (h : name ∈ deviceNames) :
    isDeviceName (toLower name) = true := by
  have hall : ∀ name ∈ deviceNames, isDeviceName (toLower name) = true := by decide
  exact hall name h

theorem not_isDeviceName_toLower {name : Text} (h : name ∈ routineNames) :
    (!isDeviceName (toLower name)) = true := by
  have hall : ∀ name ∈ routineNames, (!isDeviceName (toLower name)) = true := by decide
  exact hall name h

/-! ## Files with references -/

/-- The names that the sections of a kind look up in the root of their file. -/
def File.rootNames (lower : Text → Text) (f : File) (keep : Text → Bool) : List Text :=
  (f.sections.filter fun p => keep p.1).flatMap fun p =>
    p.2.rootNames lower (createdBefore p.1) f.root

/-- Two roots have the same texts for some names. -/
def AgreeOn (lower : Text → Text) (names : List Text) (root root' : Section) : Prop :=
  ∀ name ∈ names, root'.rootText lower name = root.rootText lower name

/-- **Moved sections**: a part of the sections of a file, in a file whose root has the same texts
for what they refer to. -/
theorem rearranges_strings_of_part {lower : Text → Text} {f part : File} (keep : Text → Bool)
    (h : Rearranges (f.sections.filter fun p => keep p.1) part.sections)
    (hroot : AgreeOn lower (f.rootNames lower keep) f.root part.root) :
    Rearranges ((f.strings lower).sections.filter fun p => keep p.1)
      (part.strings lower).sections := by
  have hsections : (part.strings lower).sections =
      part.sections.map fun p => (p.1, p.2.strings lower (createdBefore p.1) f.root) := by
    refine List.map_congr_left fun p hp => ?_
    rw [Section.strings_congr fun name hname => hroot name ?_]
    exact List.mem_flatMap.2 ⟨p, h.perm.mem_iff.2 hp, hname⟩
  rw [hsections, File.strings, List.filter_map]
  exact h.map fun p => p.2.strings lower (createdBefore p.1) f.root

theorem getKey_root_strings_eq_none {lower : Text → Text} {f : File} {name : Text}
    (h : f.root.getKey name = none) : (f.strings lower).root.getKey name = none := by
  rw [File.strings, Section.getKey_strings, h, Option.map_none]

/-- **The layout of a file does not matter**, up to references. For a file without a `WGConfig` key,
with the texts that `Key.String` returns for what is written in it:

* the same sections in another order, with the same order within each name, behind the same root
  give the same result;
* an accepted file has, kind by kind, one routine for each section in file order, which is what the
  parser returns for that section;
* with the `[Interface]` and `[Peer]` sections moved to a second file that the first one names, the
  result is the same, if the two files have in their roots the same texts for the names that their
  sections look up there. -/
theorem layout_irrelevant {host : Host} {path : Text} {cfg : File}
    (hload : host.loadSources path = .ok cfg) (hroot : cfg.root.getKey "WGConfig" = none) :
    (∀ path' cfg', host.loadSources path' = .ok cfg' → cfg'.root = cfg.root →
      Rearranges cfg.sections cfg'.sections →
      parseConfig (w := w) host.interpolated path' = parseConfig host.interpolated path) ∧
    (∀ config : Configuration w, parseConfig host.interpolated path = .ok config →
      ∃ rss, List.Forall₂ (fun kind rs => List.Forall₂ (fun s r => kind.2 s = .ok r)
          ((cfg.strings host.toLower).sectionsByName kind.1) rs) (routineKinds host) rss ∧
        config.routines = rss.flatten) ∧
    ∀ path₁ path₂ cfg₁ cfg₂, host.loadSources path₁ = .ok cfg₁ → host.loadSources path₂ = .ok cfg₂ →
      (cfg₁.strings host.toLower).root.getKey "WGConfig" = some path₂ →
      Rearranges (cfg.sections.filter fun p => !isDeviceName p.1) cfg₁.sections →
      Rearranges (cfg.sections.filter fun p => isDeviceName p.1) cfg₂.sections →
      AgreeOn host.toLower (cfg.rootNames host.toLower fun name => !isDeviceName name)
        cfg.root cfg₁.root →
      AgreeOn host.toLower (cfg.rootNames host.toLower isDeviceName) cfg.root cfg₂.root →
      parseConfig (w := w) host.interpolated path₁ = parseConfig host.interpolated path := by
  have hload' := loadSources_interpolated hload
  have hroot' : (cfg.strings host.toLower).root.getKey "WGConfig" = none :=
    getKey_root_strings_eq_none hroot
  have hwg := withKey_of_getKey_none hroot' (cfg.strings host.toLower)
    host.interpolated.loadSources
  refine ⟨?_, ?_, ?_⟩
  · intro path' cfg' hcfg' hsame hsections
    have hstrings : Rearranges (cfg.strings host.toLower).sections
        (cfg'.strings host.toLower).sections := by
      rw [File.strings, File.strings, hsame]
      exact hsections.map fun p => p.2.strings host.toLower (createdBefore p.1) cfg.root
    have hnone : (cfg'.strings host.toLower).root.getKey "WGConfig" = none :=
      getKey_root_strings_eq_none (hsame ▸ hroot)
    exact parseConfig_congr (loadSources_interpolated hcfg') hload'
      (withKey_of_getKey_none hnone _ _) hwg
      (fun name _ => (hstrings.sectionsByName_eq name).symm)
      fun name _ => (hstrings.sectionsByName_eq name).symm
  · intro config hok
    obtain ⟨cfg', rss, hcfg', hkinds, hrss⟩ := routines_of_parseConfig hok
    obtain rfl : cfg' = cfg.strings host.toLower := Except.ok.inj (hcfg'.symm.trans hload')
    exact ⟨rss, hkinds, hrss⟩
  · intro path₁ path₂ cfg₁ cfg₂ hload₁ hload₂ hroot₁ hrest hdevice hagree₁ hagree₂
    have hdevice' := rearranges_strings_of_part isDeviceName hdevice hagree₂
    have hrest' := rearranges_strings_of_part (fun name => !isDeviceName name) hrest hagree₁
    exact parseConfig_congr (loadSources_interpolated hload₁) hload'
      ((withKey_of_getKey_some hroot₁ _ _).trans (loadSources_interpolated hload₂)) hwg
      (fun name hname => sectionsByName_eq_of_part _ hdevice' (isDeviceName_toLower hname))
      fun name hname => sectionsByName_eq_of_part (fun name => !isDeviceName name) hrest'
        (not_isDeviceName_toLower hname)

/-! ## One configuration in three layouts -/

/-- The sections of a device whose address is written in the root. -/
def deviceSections : List (Text × Section) :=
  [("interface", [("address", "%(home)s"),
      ("privatekey", "AQEBAQEBAQEBAQEBAQEBAQEBAQEBAQEBAQEBAQEBAQE=")]),
    ("peer", [("publickey", "AgICAgICAgICAgICAgICAgICAgICAgICAgICAgICAgI=")])]

/-- Two proxies. -/
def proxySections : List (Text × Section) :=
  [("socks5", [("bindaddress", "127.0.0.1:1080")]), ("socks5", [("bindaddress", "127.0.0.1:1081")])]

/-- The root with the address. -/
def homeRoot : Section := [("home", "10.0.0.1")]

/-- A host with the configuration in one file, in another order, and in two files. The first of
these keeps the root, and the second has the given one. -/
def threeLayouts (root : Section) : Host :=
  { Host.bare with
    loadSources := fun path =>
      if path = ("one" : String).toList then .ok ⟨homeRoot, deviceSections ++ proxySections⟩
      else if path = ("other" : String).toList then .ok ⟨homeRoot, proxySections ++ deviceSections⟩
      else if path = ("first" : String).toList then
        .ok ⟨("wgconfig", "second") :: homeRoot, proxySections⟩
      else .ok ⟨root, deviceSections⟩ }

theorem layout_irrelevant_threeLayouts :
    (parseConfig (w := .bits64) (threeLayouts homeRoot).interpolated "one").isOk = true ∧
      parseConfig (w := .bits64) (threeLayouts homeRoot).interpolated "other" =
        parseConfig (threeLayouts homeRoot).interpolated "one" ∧
      parseConfig (w := .bits64) (threeLayouts homeRoot).interpolated "first" =
        parseConfig (threeLayouts homeRoot).interpolated "one" := by
  have hone : (threeLayouts homeRoot).loadSources "one" =
      .ok ⟨homeRoot, deviceSections ++ proxySections⟩ := rfl
  obtain ⟨horder, -, hsplit⟩ := layout_irrelevant (w := .bits64) hone rfl
  refine ⟨by decide +kernel, horder "other" _ rfl rfl ⟨List.perm_append_comm, ?_⟩,
    hsplit "first" "second" _ _ rfl rfl (by decide +kernel) (.refl _) (.refl _) ?_ ?_⟩
  · intro name
    rw [List.filter_append, List.filter_append]
    by_cases h : name = ("socks5" : String).toList
    · subst h
      decide +kernel
    · have hnames : ∀ p ∈ proxySections, p.1 = ("socks5" : String).toList := by decide
      have hnil : (proxySections.filter fun p => p.1 = name) = [] :=
        List.filter_eq_nil_iff.2 fun p hp hname =>
          h ((of_decide_eq_true hname).symm.trans (hnames p hp))
      rw [hnil, List.append_nil, List.nil_append]
  · unfold AgreeOn
    decide +kernel
  · unfold AgreeOn
    decide +kernel

/-- The same files without the address in the root of the second one: the sections are moved, but
they lose what they refer to. -/
theorem reference_lost :
    ((deviceSections ++ proxySections).filter fun p => isDeviceName p.1) = deviceSections ∧
      ((deviceSections ++ proxySections).filter fun p => !isDeviceName p.1) = proxySections ∧
      (threeLayouts []).loadSources "one" = .ok ⟨homeRoot, deviceSections ++ proxySections⟩ ∧
      (threeLayouts []).loadSources "first" =
        .ok ⟨("wgconfig", "second") :: homeRoot, proxySections⟩ ∧
      (threeLayouts []).loadSources "second" = .ok ⟨[], deviceSections⟩ ∧
      (parseConfig (w := .bits64) (threeLayouts []).interpolated "one").isOk = true ∧
      (parseConfig (w := .bits64) (threeLayouts []).interpolated "first").isOk = false := by
  refine ⟨rfl, rfl, rfl, rfl, rfl, ?_, ?_⟩ <;> decide +kernel

end WireProxy.Config
