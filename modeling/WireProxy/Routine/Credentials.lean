import WireProxy.Config.Parse
import WireProxy.Http.Server

/-!
# The credentials of the proxies

Which clients the SOCKS5 and HTTP proxies admit, from the texts of their sections to the servers
that are started.

* `FailsClosed` is what a section that writes credentials should give: both texts resolve, and a
  client is admitted iff it presents exactly them.
* The section parsers drop the errors of `parseString`, and the two servers decide differently
  whether authentication is on: by the username alone, or by either of the two. So the sections
  that fail closed are those of `Socks5Resolved` and `HTTPResolved`
  (`credentials_failClosed_iff`).
-/

namespace WireProxy.Routine

open Text Go Go.Http Config Control WireProxy.Http

variable {w : IntSize}

/-! ## SOCKS5 -/

/-- The authenticators of `go-socks5`. -/
inductive Authenticator
  | noAuth
  | userPass (username password : Text)
  deriving DecidableEq

/-- What is assumed of `go-socks5`: a client that presents the given credentials, if any, is
admitted by `NoAuthAuthenticator`, and by the static credentials of a `UserPassAuthenticator`. -/
def admits (authMethods : List Authenticator) (presented : Option (Bytes × Bytes)) : Prop :=
  .noAuth ∈ authMethods ∨
    ∃ username password, .userPass username password ∈ authMethods ∧
      presented = some (utf8 username, utf8 password)

/-- The authenticators in `Socks5Config.SpawnRoutine`. -/
def authMethods (config : Socks5Config) : List Authenticator :=
  if config.username ≠ [] then [.userPass config.username config.password] else [.noAuth]

theorem admits_authMethods_iff {config : Socks5Config} (h : config.username ≠ [])
    (presented : Option (Bytes × Bytes)) :
    admits (authMethods config) presented ↔
      presented = some (utf8 config.username, utf8 config.password) := by
  simp [admits, authMethods, h]

theorem admits_authMethods_of_empty {config : Socks5Config} (h : config.username = [])
    (presented : Option (Bytes × Bytes)) : admits (authMethods config) presented := by
  simp [admits, authMethods, h]

/-! ## Failing closed -/

/-- The section writes credentials: the raw text of one of the two keys is not empty. -/
def WritesCredentials (s : Section) : Prop := s.key "Username" ≠ [] ∨ s.key "Password" ≠ []

/-- If a section writes credentials, then both resolve, and a client is admitted iff the
credentials that it presents are these. -/
def FailsClosed {Client : Type} (host : Host) (s : Section)
    (presented : Client → Option (Bytes × Bytes)) (admitted : Client → Prop) : Prop :=
  WritesCredentials s →
    ∃ username password, parseString host s "Username" = .ok username ∧
      parseString host s "Password" = .ok password ∧
      ∀ client, admitted client ↔ presented client = some (utf8 username, utf8 password)

/-- Both keys of the section resolve, the username to a text that is not empty. -/
def Socks5Resolved (host : Host) (s : Section) : Prop :=
  ∃ username password, parseString host s "Username" = .ok username ∧
    parseString host s "Password" = .ok password ∧ username ≠ []

/-- Both keys of the section resolve, one of them to a text that is not empty. -/
def HTTPResolved (host : Host) (s : Section) : Prop :=
  ∃ username password, parseString host s "Username" = .ok username ∧
    parseString host s "Password" = .ok password ∧ (username ≠ [] ∨ password ≠ [])

section Sections

variable {host : Host} {s : Section}

theorem parseSocks5Config_eq_ok {r : RoutineSpawner w} (h : parseSocks5Config host s = .ok r) :
    ∃ config : Socks5Config, r = .socks5 config ∧
      config.username = parseStringOrEmpty host s "Username" ∧
      config.password = parseStringOrEmpty host s "Password" := by
  simp only [parseSocks5Config, bind_eq_ok_iff, Except.ok.injEq] at h
  obtain ⟨_, -, rfl⟩ := h
  exact ⟨_, rfl, rfl, rfl⟩

theorem parseHTTPConfig_eq_ok {r : RoutineSpawner w} (h : parseHTTPConfig host s = .ok r) :
    ∃ config : HTTPConfig, r = .http config ∧
      config.username = parseStringOrEmpty host s "Username" ∧
      config.password = parseStringOrEmpty host s "Password" := by
  simp only [parseHTTPConfig, bind_eq_ok_iff, Except.ok.injEq] at h
  obtain ⟨_, -, rfl⟩ := h
  exact ⟨_, rfl, rfl, rfl⟩

/-- **SOCKS5 sections.** -/
theorem socks5_failsClosed_iff {config : Socks5Config}
    (huser : config.username = parseStringOrEmpty host s "Username")
    (hpass : config.password = parseStringOrEmpty host s "Password") :
    FailsClosed host s id (admits (authMethods config)) ↔
      (WritesCredentials s → Socks5Resolved host s) := by
  refine forall_congr' fun _ => ⟨?_, ?_⟩
  · rintro ⟨username, password, hu, hp, hadmits⟩
    rw [parseStringOrEmpty_of_ok hu] at huser
    refine ⟨username, password, hu, hp, fun hempty => ?_⟩
    -- an empty username opens the proxy to a client without credentials
    have hnone := (hadmits none).1 (admits_authMethods_of_empty (huser.trans hempty) none)
    cases hnone
  · rintro ⟨username, password, hu, hp, hne⟩
    rw [parseStringOrEmpty_of_ok hu] at huser
    rw [parseStringOrEmpty_of_ok hp] at hpass
    subst huser hpass
    exact ⟨_, _, hu, hp, admits_authMethods_iff hne⟩

/-- **HTTP sections.** -/
theorem http_failsClosed_iff {config : HTTPConfig}
    (huser : config.username = parseStringOrEmpty host s "Username")
    (hpass : config.password = parseStringOrEmpty host s "Password") :
    FailsClosed host s proxyCredentials
        (fun req => (HTTPServer.ofConfig config).authenticate req = .ok ()) ↔
      (WritesCredentials s → HTTPResolved host s) := by
  refine forall_congr' fun _ => ⟨?_, ?_⟩
  · rintro ⟨username, password, hu, hp, hadmits⟩
    rw [parseStringOrEmpty_of_ok hu] at huser
    rw [parseStringOrEmpty_of_ok hp] at hpass
    refine ⟨username, password, hu, hp, ?_⟩
    by_contra hempty
    rw [not_or, not_not, not_not] at hempty
    -- without credentials every request passes, also one without a header
    have hreq : (HTTPServer.ofConfig config).authRequired = false := by
      rw [← Bool.not_eq_true, HTTPServer.authRequired_ofConfig]
      simp [huser, hpass, hempty]
    have hnone : proxyCredentials ⟨[], [], [], [], []⟩ = none := by decide
    have hsome := (hadmits _).1 (authenticate_of_not_required hreq ⟨[], [], [], [], []⟩)
    rw [hnone] at hsome
    cases hsome
  · rintro ⟨username, password, hu, hp, hne⟩
    rw [parseStringOrEmpty_of_ok hu] at huser
    rw [parseStringOrEmpty_of_ok hp] at hpass
    subst huser hpass
    have hreq : (HTTPServer.ofConfig config).authRequired = true :=
      (HTTPServer.authRequired_ofConfig config).2 hne
    exact ⟨_, _, hu, hp, authenticate_eq_ok_iff hreq⟩

end Sections

/-- **When the proxies fail closed.** For every section of an accepted file there is the routine
that it becomes, and the server of that routine fails closed exactly if the credentials, where the
section writes any, resolve to texts of which the one that the server asks about is not empty. -/
theorem credentials_failClosed_iff {host : Host} {path : Text} {config : Configuration w}
    {cfg : File} (hok : parseConfig host path = .ok config)
    (hload : host.loadSources path = .ok cfg) :
    (∀ s ∈ cfg.sectionsByName "Socks5", ∃ c : Socks5Config,
      parseSocks5Config (w := w) host s = .ok (.socks5 c) ∧ .socks5 c ∈ config.routines ∧
        (FailsClosed host s id (admits (authMethods c)) ↔
          (WritesCredentials s → Socks5Resolved host s))) ∧
    ∀ s ∈ cfg.sectionsByName "http", ∃ c : HTTPConfig,
      parseHTTPConfig (w := w) host s = .ok (.http c) ∧ .http c ∈ config.routines ∧
        (FailsClosed host s proxyCredentials
            (fun req => (HTTPServer.ofConfig c).authenticate req = .ok ()) ↔
          (WritesCredentials s → HTTPResolved host s)) := by
  constructor
  · intro s hs
    obtain ⟨r, hr, hsr⟩ := exists_routine_of_section hok hload (mem_routineKinds host .socks5) hs
    obtain ⟨c, rfl, huser, hpass⟩ := parseSocks5Config_eq_ok hsr
    exact ⟨c, hsr, hr, socks5_failsClosed_iff huser hpass⟩
  · intro s hs
    obtain ⟨r, hr, hsr⟩ := exists_routine_of_section hok hload (mem_routineKinds host .http) hs
    obtain ⟨c, rfl, huser, hpass⟩ := parseHTTPConfig_eq_ok hsr
    exact ⟨c, hsr, hr, http_failsClosed_iff huser hpass⟩

/-- A SOCKS5 section whose credentials are references. -/
def socks5Section : Section :=
  [("bindaddress", "127.0.0.1:1080"), ("username", "$PROXY_USER"), ("password", "$PROXY_PASS")]

/-- An HTTP section whose credentials are references. -/
def httpSection : Section :=
  [("bindaddress", "127.0.0.1:8080"), ("username", "$PROXY_USER"), ("password", "$PROXY_PASS")]

/-- A file with both sections. -/
def proxiesFile : File where
  root := []
  sections := [
    ("interface", [("address", "10.0.0.1"),
      ("privatekey", "AQEBAQEBAQEBAQEBAQEBAQEBAQEBAQEBAQEBAQEBAQE=")]),
    ("peer", [("publickey", "AgICAgICAgICAgICAgICAgICAgICAgICAgICAgICAgI=")]),
    ("socks5", socks5Section), ("http", httpSection)]

/-- The host that loads this file in an environment with the given variables. -/
def proxiesHost (lookupEnv : Text → Option Text) : Host :=
  { Host.bare with lookupEnv := lookupEnv, loadSources := fun _ => .ok proxiesFile }

/-- An environment in which both variables are set. -/
def bothSet (name : Text) : Option Text :=
  if name = ("PROXY_USER" : String).toList then some "alice"
  else if name = ("PROXY_PASS" : String).toList then some "secret"
  else none

theorem mem_sectionsByName_proxiesFile :
    socks5Section ∈ proxiesFile.sectionsByName "Socks5" ∧
      httpSection ∈ proxiesFile.sectionsByName "http" := by
  decide +kernel

/-- With both variables set, the two servers fail closed. -/
theorem credentials_failClosed_iff_bothSet :
    ∃ config : Configuration .bits64, parseConfig (proxiesHost bothSet) [] = .ok config ∧
      (∃ c : Socks5Config, .socks5 c ∈ config.routines ∧
        FailsClosed (proxiesHost bothSet) socks5Section id (admits (authMethods c))) ∧
      ∃ c : HTTPConfig, .http c ∈ config.routines ∧
        FailsClosed (proxiesHost bothSet) httpSection proxyCredentials
          (fun req => (HTTPServer.ofConfig c).authenticate req = .ok ()) := by
  have hisOk : (parseConfig (w := .bits64) (proxiesHost bothSet) []).isOk := by
    decide +kernel
  obtain ⟨config, hok⟩ := exists_eq_ok_of_isOk hisOk
  obtain ⟨hsocks5, hhttp⟩ := credentials_failClosed_iff hok rfl
  obtain ⟨c, -, hc, hiff⟩ := hsocks5 _ mem_sectionsByName_proxiesFile.1
  obtain ⟨c', -, hc', hiff'⟩ := hhttp _ mem_sectionsByName_proxiesFile.2
  exact ⟨config, hok,
    ⟨c, hc, hiff.2 fun _ => ⟨"alice", "secret", by decide, by decide, by decide⟩⟩,
    ⟨c', hc', hiff'.2 fun _ => ⟨"alice", "secret", by decide, by decide, by decide⟩⟩⟩

/-- With both variables unset no reference resolves, and the parsers read four empty values. -/
theorem parseString_proxiesFile_of_unset :
    ∀ s ∈ [socks5Section, httpSection],
      ∀ keyName ∈ [("Username" : String).toList, ("Password" : String).toList],
        (parseString (proxiesHost fun _ => none) s keyName).isOk = false ∧
          parseStringOrEmpty (proxiesHost fun _ => none) s keyName = [] := by
  decide +kernel

/-- So no server of that file is configured with the user name of its section. -/
theorem parseString_username_ne_ok_of_unset {s : Section} (hs : s ∈ [socks5Section, httpSection])
    (u : Text) : parseString (proxiesHost fun _ => none) s "Username" ≠ .ok u := by
  intro hu
  have h := (parseString_proxiesFile_of_unset s hs _ List.mem_cons_self).1
  rw [hu] at h
  cases h

/-- With both variables unset, the same file is accepted, and both servers are open to clients
that present no credentials. -/
theorem proxies_open_of_unset :
    ∃ config : Configuration .bits64, parseConfig (proxiesHost fun _ => none) [] = .ok config ∧
      WritesCredentials socks5Section ∧ WritesCredentials httpSection ∧
      (∃ c : Socks5Config, .socks5 c ∈ config.routines ∧ admits (authMethods c) none ∧
        ¬ FailsClosed (proxiesHost fun _ => none) socks5Section id (admits (authMethods c))) ∧
      ∃ c : HTTPConfig, .http c ∈ config.routines ∧
        (HTTPServer.ofConfig c).authenticate ⟨"GET", "/", "HTTP/1.1", "example.org", []⟩ = .ok () ∧
        ¬ FailsClosed (proxiesHost fun _ => none) httpSection proxyCredentials
          (fun req => (HTTPServer.ofConfig c).authenticate req = .ok ()) := by
  have hisOk : (parseConfig (w := .bits64) (proxiesHost fun _ => none) []).isOk := by
    decide +kernel
  obtain ⟨config, hok⟩ := exists_eq_ok_of_isOk hisOk
  have hwrites : WritesCredentials socks5Section ∧ WritesCredentials httpSection :=
    ⟨.inl (by decide), .inl (by decide)⟩
  obtain ⟨r, hr, hsr⟩ := exists_routine_of_section hok rfl (mem_routineKinds _ .socks5)
    mem_sectionsByName_proxiesFile.1
  obtain ⟨r', hr', hsr'⟩ := exists_routine_of_section hok rfl (mem_routineKinds _ .http)
    mem_sectionsByName_proxiesFile.2
  obtain ⟨c, rfl, huser, hpass⟩ := parseSocks5Config_eq_ok hsr
  obtain ⟨c', rfl, huser', hpass'⟩ := parseHTTPConfig_eq_ok hsr'
  have hempty := parseString_proxiesFile_of_unset
  have huser_nil : c.username = [] :=
    huser.trans (hempty _ (by simp) _ (by simp)).2
  have hnot : (HTTPServer.ofConfig c').authRequired = false := by
    have hu : c'.username = [] := huser'.trans (hempty _ (by simp) _ (by simp)).2
    have hp : c'.password = [] := hpass'.trans (hempty _ (by simp) _ (by simp)).2
    rw [← Bool.not_eq_true, HTTPServer.authRequired_ofConfig]
    simp [hu, hp]
  refine ⟨config, hok, hwrites.1, hwrites.2,
    ⟨c, hr, admits_authMethods_of_empty huser_nil none, fun hclosed => ?_⟩,
    ⟨c', hr', authenticate_of_not_required hnot _, fun hclosed => ?_⟩⟩
  · obtain ⟨u, _, hu, -⟩ := hclosed hwrites.1
    exact parseString_username_ne_ok_of_unset (by simp) u hu
  · obtain ⟨u, _, hu, -⟩ := hclosed hwrites.2
    exact parseString_username_ne_ok_of_unset (by simp) u hu

end WireProxy.Routine
