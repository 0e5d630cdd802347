import WireProxy.Main.LockNetwork

/-!
# What the config test says

`-n` reports a configuration as good when `parseConfig` accepts it. Afterwards `lockNetwork` takes
the ports out of the addresses and the routines parse their targets, and each of them ends the
program on a text that it does not accept.

* `Startable` says that none of this happens and that every mandatory key has a value.
* `checks` lists the mandatory keys of each kind of section and what has to hold of their texts.
* `startable_iff`: an accepted configuration is startable iff these checks hold.
-/

namespace WireProxy.Main

open Text Go Config Control Routine

variable {w : IntSize}

/-! ## The checks -/

/-- What has to hold of the value of a key. -/
inductive Check
  /-- It is not empty. -/
  | given
  /-- It is an address with an integer as its port. -/
  | integerPort
  /-- It is an address with a port number. -/
  | portNumber
  deriving DecidableEq

/-- The mandatory keys of each kind of section. -/
def checks : List (Text × List (Text × Check)) :=
  [("TCPClientTunnel", [("BindAddress", .given), ("Target", .portNumber)]),
    ("STDIOTunnel", [("Target", .portNumber)]),
    ("TCPServerTunnel", [("Target", .portNumber)]),
    ("Socks5", [("BindAddress", .integerPort)]),
    ("http", [("BindAddress", .integerPort)]),
    ("UDPProxyTunnel", [("BindAddress", .given), ("Target", .given)])]

/-- The check holds of a key of a section. References to the environment are resolved first. -/
def Check.Holds (w : IntSize) (host : Host) (s : Section) (key : Text) : Check → Prop
  | .given => parseStringOrEmpty host s key ≠ []
  | .integerPort => ∃ v : GoInt w, writtenPort (parseStringOrEmpty host s key) = some v.toInt
  | .portNumber => WritesPort (parseStringOrEmpty host s key)

/-- The target that `SpawnRoutine` parses. -/
def spawnTarget : RoutineSpawner w → Option Text
  | .tcpClientTunnel config => some config.target
  | .stdioTunnel config => some config.target
  | .tcpServerTunnel config => some config.target
  | _ => none

/-- A configuration can be started: every target is accepted, `lockNetwork` does not panic, and the
file it comes from has a value for every mandatory key. -/
structure Startable (host : Host) (cfg : File) (config : Configuration w) : Prop where
  targets : ∀ r ∈ config.routines, ∀ t ∈ spawnTarget r, (parseAddressPort w t).isOk = true
  ports : (lockNetwork config.routines []).isOk = true
  mandatory : ∀ kind ∈ checks, ∀ s ∈ cfg.sectionsByName kind.1, ∀ c ∈ kind.2,
    parseStringOrEmpty host s c.1 ≠ []

/-! ## One routine -/

/-- A routine can be started. -/
def RoutineStarts (r : RoutineSpawner w) : Prop :=
  (∀ t ∈ spawnTarget r, (parseAddressPort w t).isOk = true) ∧ (sectionRules r).isOk = true

theorem isOk_lockNetwork_iff {sections : List (RoutineSpawner w)} :
    (lockNetwork sections []).isOk = true ↔ ∀ r ∈ sections, (sectionRules r).isOk = true := by
  constructor
  · intro h r hr
    obtain ⟨rules, hrules⟩ := exists_eq_ok_of_isOk h
    simp only [lockNetwork, bind_eq_ok_iff, mapM_eq_ok_iff] at hrules
    obtain ⟨_, -, rss, hrss, -⟩ := hrules
    obtain ⟨rs, -, hok⟩ := exists_of_mem_forall₂_left hrss hr
    rw [hok]
    rfl
  · intro h
    obtain ⟨rss, hrss⟩ := exists_mapM_eq_ok h
    rw [lockNetwork, hrss]
    rfl

/-- An address with a port is not empty. -/
theorem ne_nil_of_writtenPort {t : Text} {n : ℤ} (h : writtenPort t = some n) : t ≠ [] := by
  rintro rfl
  cases h

theorem isOk_extractPort_iff {t : Text} :
    (extractPort w t).isOk = true ↔ ∃ v : GoInt w, writtenPort t = some v.toInt := by
  constructor
  · intro h
    obtain ⟨port, hport⟩ := exists_eq_ok_of_isOk h
    obtain ⟨v, hv, -⟩ := extractPort_eq_ok_iff.1 hport
    exact ⟨v, hv⟩
  · rintro ⟨v, hv⟩
    rw [extractPort_eq_ok_iff.2 ⟨v, hv, rfl⟩]
    rfl

theorem isOk_extractPort_of_writesPort {t : Text} (h : WritesPort t) :
    (extractPort w t).isOk = true := by
  obtain ⟨n, hwritten, hn⟩ := h
  obtain ⟨v, hv⟩ := GoInt.exists_toInt_eq hn w
  exact isOk_extractPort_iff.2 ⟨v, hwritten.trans (congrArg some hv.symm)⟩

/-- What it takes to start a routine. -/
theorem routineStarts_iff (r : RoutineSpawner w) :
    RoutineStarts r ↔
      (∀ t ∈ spawnTarget r, WritesPort t) ∧
        ∀ t ∈ listenAddress r, ∃ v : GoInt w, writtenPort t = some v.toInt := by
  have htarget {t : Text} : (parseAddressPort w t).isOk = true ↔ WritesPort t :=
    isOk_parseAddressPort_iff
  simp only [RoutineStarts, htarget]
  refine and_congr_right fun htargets => ?_
  cases r with
  | tcpServerTunnel c =>
    simpa [sectionRules, isOk_bind_ok, listenAddress] using
      isOk_extractPort_of_writesPort (htargets c.target rfl)
  | socks5 c => simp [sectionRules, isOk_bind_ok, listenAddress, isOk_extractPort_iff]
  | http c => simp [sectionRules, isOk_bind_ok, listenAddress, isOk_extractPort_iff]
  | _ => simp [sectionRules, listenAddress, Except.isOk, Except.toBool]

theorem routineStarts_of_target {r : RoutineSpawner w} {t : Text} (ht : spawnTarget r = some t)
    (hlisten : listenAddress r = none) : RoutineStarts r ↔ WritesPort t := by
  simp [routineStarts_iff, ht, hlisten]

theorem routineStarts_of_listenAddress {r : RoutineSpawner w} {t : Text}
    (ht : spawnTarget r = none) (hlisten : listenAddress r = some t) :
    RoutineStarts r ↔ ∃ v : GoInt w, writtenPort t = some v.toInt := by
  simp [routineStarts_iff, ht, hlisten]

/-! ## One section -/

/-- A routine starts, and its section has values for the mandatory keys, iff the checks of its kind
hold. -/
def ChecksDecide (host : Host) (kind : Text × (Section → Except Err (RoutineSpawner w)))
    (check : Text × List (Text × Check)) : Prop :=
  kind.1 = check.1 ∧ ∀ s r, kind.2 s = .ok r →
    (RoutineStarts r ∧ (∀ c ∈ check.2, parseStringOrEmpty host s c.1 ≠ []) ↔
      ∀ c ∈ check.2, c.2.Holds w host s c.1)

theorem checksDecide_kinds (host : Host) :
    List.Forall₂ (ChecksDecide (w := w) host) (routineKinds host) checks := by
  -- a check of the port implies that there is a value
  have hport {t : Text} (h : WritesPort t) : t ≠ [] := by
    obtain ⟨n, hn, -⟩ := h
    exact ne_nil_of_writtenPort hn
  have hint {t : Text} (h : ∃ v : GoInt w, writtenPort t = some v.toInt) : t ≠ [] := by
    obtain ⟨v, hv⟩ := h
    exact ne_nil_of_writtenPort hv
  refine .cons ⟨rfl, ?_⟩ (.cons ⟨rfl, ?_⟩ (.cons ⟨rfl, ?_⟩ (.cons ⟨rfl, ?_⟩ (.cons ⟨rfl, ?_⟩
    (.cons ⟨rfl, ?_⟩ .nil)))))
  all_goals
    intro s r h
    simp only [RoutineKind.parse, parseTCPClientTunnelConfig, parseSTDIOTunnelConfig,
      parseTCPServerTunnelConfig, parseSocks5Config, parseHTTPConfig, parseUDPProxyTunnelConfig,
      bind_eq_ok_iff, parseStringErr_eq_ok_iff, Except.ok.injEq] at h
    simp only [List.forall_mem_cons, List.not_mem_nil, false_imp_iff, implies_true, and_true,
      Check.Holds]
  · obtain ⟨addr, -, target, htarget, rfl⟩ := h
    obtain rfl := parseStringOrEmpty_of_ok htarget
    rw [routineStarts_of_target rfl rfl, and_left_comm, and_iff_left_of_imp hport]
  · obtain ⟨target, htarget, rfl⟩ := h
    obtain rfl := parseStringOrEmpty_of_ok htarget
    rw [routineStarts_of_target rfl rfl, and_iff_left_of_imp hport]
  · obtain ⟨port, -, target, htarget, rfl⟩ := h
    obtain rfl := parseStringOrEmpty_of_ok htarget
    rw [routineStarts_of_target rfl rfl, and_iff_left_of_imp hport]
  · obtain ⟨bindAddress, hbind, rfl⟩ := h
    obtain rfl := parseStringOrEmpty_of_ok hbind
    rw [routineStarts_of_listenAddress rfl rfl, and_iff_left_of_imp hint]
  · obtain ⟨bindAddress, hbind, rfl⟩ := h
    obtain rfl := parseStringOrEmpty_of_ok hbind
    rw [routineStarts_of_listenAddress rfl rfl, and_iff_left_of_imp hint]
  · obtain ⟨_, -, _, -, _, -, rfl⟩ := h
    -- nothing of a UDPProxyTunnel is parsed after the test
    refine and_iff_right ((routineStarts_iff _).2 ⟨?_, ?_⟩)
    · rintro t ⟨⟩
    · rintro t ⟨⟩

/-- **When an accepted configuration can be started**: the values of its keys pass the checks, which
`parseConfig` does not make. -/
theorem startable_iff {host : Host} {path : Text} {cfg : File} {config : Configuration w}
    (hload : host.loadSources path = .ok cfg) (hok : parseConfig host path = .ok config) :
    Startable host cfg config ↔
      ∀ kind ∈ checks, ∀ s ∈ cfg.sectionsByName kind.1, ∀ c ∈ kind.2,
        c.2.Holds w host s c.1 := by
  have hkinds := checksDecide_kinds (w := w) host
  constructor
  · intro hstart check hcheck s hs
    obtain ⟨⟨name, parse⟩, hkind, rfl, hiff⟩ := exists_of_mem_forall₂_right hkinds hcheck
    obtain ⟨r, hr, hparse⟩ := exists_routine_of_section hok hload hkind hs
    refine (hiff s r hparse).1 ⟨⟨hstart.targets r hr, ?_⟩, hstart.mandatory check hcheck s hs⟩
    exact isOk_lockNetwork_iff.1 hstart.ports r hr
  · intro hchecks
    have hstarts : ∀ r ∈ config.routines, RoutineStarts r := by
      intro r hr
      obtain ⟨cfg', rss, hload', hsections, hrss⟩ := routines_of_parseConfig hok
      obtain rfl : cfg' = cfg := Except.ok.inj (hload'.symm.trans hload)
      rw [hrss, List.mem_flatten] at hr
      obtain ⟨rs, hrs, hr⟩ := hr
      obtain ⟨kind, hkind, hparses⟩ := exists_of_mem_forall₂_right hsections hrs
      obtain ⟨s, hs, hparse⟩ := exists_of_mem_forall₂_right hparses hr
      obtain ⟨check, hcheck, hname, hiff⟩ := exists_of_mem_forall₂_left hkinds hkind
      exact ((hiff s r hparse).2 (hchecks check hcheck s (hname ▸ hs))).1
    refine ⟨fun r hr => (hstarts r hr).1, isOk_lockNetwork_iff.2 fun r hr => (hstarts r hr).2, ?_⟩
    intro check hcheck s hs
    obtain ⟨⟨name, parse⟩, hkind, rfl, hiff⟩ := exists_of_mem_forall₂_right hkinds hcheck
    obtain ⟨r, -, hparse⟩ := exists_routine_of_section hok hload hkind hs
    exact ((hiff s r hparse).2 (hchecks check hcheck s hs)).2

/-! ## A file with and without its mandatory key -/

/-- A file with one TCPServerTunnel. -/
def serverTunnelFile (tunnel : Section) : File where
  root := []
  sections := [
    ("interface", [("address", "10.0.0.1"),
      ("privatekey", "AQEBAQEBAQEBAQEBAQEBAQEBAQEBAQEBAQEBAQEBAQE=")]),
    ("peer", [("publickey", "AgICAgICAgICAgICAgICAgICAgICAgICAgICAgICAgI=")]),
    ("tcpservertunnel", tunnel)]

/-- The host that loads this file. -/
def serverTunnelHost (tunnel : Section) : Host :=
  { Host.bare with loadSources := fun _ => .ok (serverTunnelFile tunnel) }

/-- A section with the port and the target of a TCPServerTunnel. -/
def targetSection : Section := [("listenport", "3422"), ("target", "localhost:25545")]

theorem startable_iff_targetSection :
    ∃ config : Configuration .bits64, parseConfig (serverTunnelHost targetSection) [] = .ok config ∧
      Startable (serverTunnelHost targetSection) (serverTunnelFile targetSection) config := by
  have hisOk : (parseConfig (w := .bits64) (serverTunnelHost targetSection) []).isOk := by
    decide +kernel
  obtain ⟨config, hok⟩ := exists_eq_ok_of_isOk hisOk
  refine ⟨config, hok, (startable_iff rfl hok).2 ?_⟩
  have hsections : ∀ kind ∈ checks, ∀ s ∈ (serverTunnelFile targetSection).sectionsByName kind.1,
      kind.2 = [(("Target" : String).toList, .portNumber)] ∧ s = targetSection := by
    decide +kernel
  intro kind hkind s hs c hc
  obtain ⟨hchecks, rfl⟩ := hsections kind hkind s hs
  rw [hchecks, List.mem_singleton] at hc
  subst hc
  exact ⟨25545, by decide +kernel, by decide⟩

/-- Without its target the section is accepted, but the program does not come past the start. -/
theorem missing_target_accepted :
    ∃ config : Configuration .bits64,
      parseConfig (serverTunnelHost [("listenport", "3422")]) [] = .ok config ∧
      (∃ r ∈ config.routines, ∃ t ∈ spawnTarget r, (parseAddressPort .bits64 t).isOk = false) ∧
      (lockNetwork config.routines []).isOk = false ∧
      ¬ Startable (serverTunnelHost [("listenport", "3422")])
        (serverTunnelFile [("listenport", "3422")]) config := by
  have hisOk :
      (parseConfig (w := .bits64) (serverTunnelHost [("listenport", "3422")]) []).isOk := by
    decide +kernel
  obtain ⟨config, hok⟩ := exists_eq_ok_of_isOk hisOk
  have hroutines : (parseConfig (w := .bits64) (serverTunnelHost [("listenport", "3422")])
      []).toOption.map Configuration.routines = some [.tcpServerTunnel ⟨3422, []⟩] := by
    decide +kernel
  rw [hok, Except.toOption, Option.map_some, Option.some.injEq] at hroutines
  have hlock : (lockNetwork config.routines []).isOk = false := by
    rw [hroutines]
    rfl
  refine ⟨config, hok, ⟨.tcpServerTunnel ⟨3422, []⟩, by simp [hroutines], [], rfl, rfl⟩, hlock, ?_⟩
  intro hstart
  have hports := hstart.ports
  rw [hlock] at hports
  cases hports

end WireProxy.Main
