import WireProxy.Config.Parse
import WireProxy.Routine.Spawn

/-!
# The network rules

`extractPort` and `lockNetwork`, which builds the Landlock rules of the process, against the
operations that `main` and the routines perform afterwards.

* `extractPort_eq_ok_iff`: the port is that of the written integer, cut to sixteen bits.
* `mem_bindTCP_iff`, `mem_connectTCP_iff` say where the rules come from, `mem_listen_iff` and
  `mem_connect_iff` where the operations do.
* `rulesMatch_iff`: when the rules permit exactly the operations.
-/

namespace WireProxy.Main

open Text Go Config Control Routine

variable {w : IntSize}

/-! ## The rules -/

/-- The panic of `extractPort`. -/
def extractErr (addr : Text) (e : Err) : Err :=
  .wrap ((("failed to extract port from " : String) : Text) ++ addr) e

/-- `extractPort`, where an error is a panic. -/
def extractPort (w : IntSize) (addr : Text) : Except Err UInt16 :=
  match splitHostPort addr with
  | .error e => .error (extractErr addr (.addr e))
  | .ok (_, portStr) =>
    match atoi (w := w) portStr with
    | .error e => .error (extractErr addr (.num "Atoi" portStr e))
    | .ok port => .ok port.toUint16

/-- A `landlock.Rule` for the network. -/
inductive Rule
  | bindTCP (port : UInt16)
  | connectTCP (port : UInt16)
  deriving DecidableEq

/-- What a rule permits. -/
def Rule.permits : Rule → Operation → Prop
  | .bindTCP port, .listen port' => port.toNat = port'
  | .connectTCP port, .connect port' => port.toNat = port'
  | _, _ => False

/-- The rule for the info address, which may be missing. -/
def infoRules (w : IntSize) (infoAddr : Text) : Except Err (List Rule) :=
  if infoAddr = [] then .ok []
  else do
    let port ← extractPort w infoAddr
    .ok [.bindTCP port]

/-- The rule that `lockNetwork` appends for a section. -/
def sectionRules : RoutineSpawner w → Except Err (List Rule)
  | .tcpServerTunnel config => do
    let port ← extractPort w config.target
    .ok [.connectTCP port]
  | .http config => do
    let port ← extractPort w config.bindAddress
    .ok [.bindTCP port]
  | .tcpClientTunnel config => .ok [.connectTCP (UInt16.ofNat config.bindAddress.port)]
  | .socks5 config => do
    let port ← extractPort w config.bindAddress
    .ok [.bindTCP port]
  | _ => .ok []

/-- The rules of `lockNetwork`; an error is a panic. -/
def lockNetwork (sections : List (RoutineSpawner w)) (infoAddr : Text) :
    Except Err (List Rule) := do
  let info ← infoRules w infoAddr
  let rules ← sections.mapM sectionRules
  .ok (info ++ rules.flatten)

/-! ## The operations -/

/-- The TCP operations on the host after `lockNetwork`: the listener for the info address, and what
the routines do. -/
def operations (services : Text → Option ℕ) (sections : List (RoutineSpawner w)) (infoAddr : Text) :
    List Operation :=
  (if infoAddr = [] then [] else ((listenPort services infoAddr).map .listen).toList) ++
    sections.flatMap (spawnRoutine services)

/-! ## The addresses -/

/-- The address on which a Socks5 or http routine listens. -/
def listenAddress : RoutineSpawner w → Option Text
  | .socks5 config => some config.bindAddress
  | .http config => some config.bindAddress
  | _ => none

/-- The target of a TCPServerTunnel. -/
def connectAddress : RoutineSpawner w → Option Text
  | .tcpServerTunnel config => some config.target
  | _ => none

/-- The configuration of a TCPClientTunnel. -/
def clientTunnel : RoutineSpawner w → Option TCPClientTunnelConfig
  | .tcpClientTunnel config => some config
  | _ => none

/-- The addresses to listen on that are given as a text. -/
def listenAddresses (sections : List (RoutineSpawner w)) (infoAddr : Text) : List Text :=
  (if infoAddr = [] then [] else [infoAddr]) ++ sections.filterMap listenAddress

/-- The addresses to connect to. -/
def connectAddresses (sections : List (RoutineSpawner w)) : List Text :=
  sections.filterMap connectAddress

/-- The TCPClientTunnel routines. -/
def clientTunnels (sections : List (RoutineSpawner w)) : List TCPClientTunnelConfig :=
  sections.filterMap clientTunnel

/-- The port is that of the written integer, cut to sixteen bits. -/
theorem extractPort_eq_ok_iff {addr : Text} {port : UInt16} :
    extractPort w addr = .ok port ↔
      ∃ v : GoInt w, writtenPort addr = some v.toInt ∧ v.toUint16 = port := by
  unfold extractPort writtenPort
  cases splitHostPort addr with
  | error e => simp
  | ok p =>
    dsimp only
    constructor
    · intro h
      split at h
      · cases h
      · rename_i v hatoi
        exact ⟨v, atoi_eq_ok_iff.1 hatoi, Except.ok.inj h⟩
    · rintro ⟨v, hwritten, rfl⟩
      rw [atoi_eq_ok_iff.2 hwritten]

section Rules

variable {sections : List (RoutineSpawner w)} {infoAddr : Text} {rules : List Rule}

/-- Where the rules come from. -/
theorem mem_lockNetwork_iff (h : lockNetwork sections infoAddr = .ok rules) {rule : Rule} :
    rule ∈ rules ↔ (∃ info, infoRules w infoAddr = .ok info ∧ rule ∈ info) ∨
      ∃ r ∈ sections, ∃ rs, sectionRules r = .ok rs ∧ rule ∈ rs := by
  simp only [lockNetwork, bind_eq_ok_iff, mapM_eq_ok_iff, Except.ok.injEq] at h
  obtain ⟨info, hinfo, rss, hrss, rfl⟩ := h
  rw [List.mem_append, List.mem_flatten, hinfo]
  refine or_congr ?_ ?_
  · simp
  · constructor
    · rintro ⟨rs, hrs, hrule⟩
      obtain ⟨r, hr, hok⟩ := exists_of_mem_forall₂_right hrss hrs
      exact ⟨r, hr, rs, hok, hrule⟩
    · rintro ⟨r, hr, rs, hok, hrule⟩
      obtain ⟨rs', hrs', hok'⟩ := exists_of_mem_forall₂_left hrss hr
      exact ⟨rs', hrs', Except.ok.inj (hok.symm.trans hok') ▸ hrule⟩

theorem bindTCP_mem_sectionRules_iff {r : RoutineSpawner w} {port : UInt16} :
    (∃ rs, sectionRules r = .ok rs ∧ .bindTCP port ∈ rs) ↔
      ∃ t, listenAddress r = some t ∧ extractPort w t = .ok port := by
  cases r <;> simp [sectionRules, listenAddress, bind_eq_ok_iff]

theorem connectTCP_mem_sectionRules_iff {r : RoutineSpawner w} {port : UInt16} :
    (∃ rs, sectionRules r = .ok rs ∧ .connectTCP port ∈ rs) ↔
      (∃ t, connectAddress r = some t ∧ extractPort w t = .ok port) ∨
        ∃ c, clientTunnel r = some c ∧ port = UInt16.ofNat c.bindAddress.port := by
  cases r <;> simp [sectionRules, connectAddress, clientTunnel, bind_eq_ok_iff]

/-- The rules for listening. -/
theorem mem_bindTCP_iff (h : lockNetwork sections infoAddr = .ok rules) {port : UInt16} :
    .bindTCP port ∈ rules ↔
      ∃ t ∈ listenAddresses sections infoAddr, extractPort w t = .ok port := by
  rw [mem_lockNetwork_iff h]
  simp only [bindTCP_mem_sectionRules_iff, listenAddresses, List.mem_append, List.mem_filterMap,
    or_and_right, exists_or]
  refine or_congr ?_ (by tauto)
  by_cases hinfo : infoAddr = []
  · simp [infoRules, hinfo]
  · simp [infoRules, hinfo, bind_eq_ok_iff]

/-- The rules for connecting. -/
theorem mem_connectTCP_iff (h : lockNetwork sections infoAddr = .ok rules) {port : UInt16} :
    .connectTCP port ∈ rules ↔
      (∃ t ∈ connectAddresses sections, extractPort w t = .ok port) ∨
        ∃ c ∈ clientTunnels sections, port = UInt16.ofNat c.bindAddress.port := by
  have hinfo : ¬ ∃ info, infoRules w infoAddr = .ok info ∧ .connectTCP port ∈ info := by
    by_cases hinfo : infoAddr = []
    · simp [infoRules, hinfo]
    · simp [infoRules, hinfo, bind_eq_ok_iff]
  rw [mem_lockNetwork_iff h, or_iff_right hinfo]
  simp only [connectTCP_mem_sectionRules_iff, connectAddresses, clientTunnels, List.mem_filterMap]
  constructor
  · rintro ⟨r, hr, ⟨t, ht, hport⟩ | ⟨c, hc, hport⟩⟩
    · exact .inl ⟨t, ⟨r, hr, ht⟩, hport⟩
    · exact .inr ⟨c, ⟨r, hr, hc⟩, hport⟩
  · rintro (⟨t, ⟨r, hr, ht⟩, hport⟩ | ⟨c, ⟨r, hr, hc⟩, hport⟩)
    · exact ⟨r, hr, .inl ⟨t, ht, hport⟩⟩
    · exact ⟨r, hr, .inr ⟨c, hc, hport⟩⟩

theorem exists_extractPort_of_sectionRules {r : RoutineSpawner w} {rs : List Rule} {t : Text}
    (h : sectionRules r = .ok rs) (ht : listenAddress r = some t ∨ connectAddress r = some t) :
    ∃ port, extractPort w t = .ok port := by
  cases r with
  | tcpServerTunnel c =>
    obtain rfl : c.target = t := by simpa [listenAddress, connectAddress] using ht
    obtain ⟨port, hport, -⟩ := bind_eq_ok_iff.1 h
    exact ⟨port, hport⟩
  | socks5 c | http c =>
    obtain rfl : c.bindAddress = t := by simpa [listenAddress, connectAddress] using ht
    obtain ⟨port, hport, -⟩ := bind_eq_ok_iff.1 h
    exact ⟨port, hport⟩
  | _ => simp [listenAddress, connectAddress] at ht

/-- No address that was inspected made `extractPort` panic. -/
theorem exists_extractPort (h : lockNetwork sections infoAddr = .ok rules) {t : Text}
    (ht : t ∈ listenAddresses sections infoAddr ++ connectAddresses sections) :
    ∃ port, extractPort w t = .ok port := by
  simp only [lockNetwork, bind_eq_ok_iff, mapM_eq_ok_iff, Except.ok.injEq] at h
  obtain ⟨info, hinfo, rss, hrss, -⟩ := h
  simp only [listenAddresses, connectAddresses, List.mem_append, List.mem_filterMap] at ht
  rcases ht with (ht | ⟨r, hr, ht⟩) | ⟨r, hr, ht⟩
  · split at ht
    · cases ht
    · rename_i hne
      rw [infoRules, if_neg hne, bind_eq_ok_iff] at hinfo
      obtain ⟨port, hport, -⟩ := hinfo
      exact ⟨port, List.mem_singleton.1 ht ▸ hport⟩
  · obtain ⟨rs, -, hok⟩ := exists_of_mem_forall₂_left hrss hr
    exact exists_extractPort_of_sectionRules hok (.inl ht)
  · obtain ⟨rs, -, hok⟩ := exists_of_mem_forall₂_left hrss hr
    exact exists_extractPort_of_sectionRules hok (.inr ht)

end Rules

section Operations

variable {services : Text → Option ℕ} {sections : List (RoutineSpawner w)} {infoAddr : Text}

theorem listen_mem_spawnRoutine_iff {r : RoutineSpawner w} {port : ℕ} :
    .listen port ∈ spawnRoutine services r ↔
      (∃ t, listenAddress r = some t ∧ listenPort services t = some port) ∨
        ∃ c, clientTunnel r = some c ∧ (parseAddressPort w c.target).isOk = true ∧
          port = c.bindAddress.port := by
  cases r with
  | tcpClientTunnel c =>
    simp only [spawnRoutine, listenAddress, clientTunnel, Option.some.injEq, exists_eq_left']
    cases parseAddressPort w c.target <;> simp [Except.isOk, Except.toBool]
  | tcpServerTunnel c =>
    simp only [spawnRoutine, listenAddress, clientTunnel]
    cases parseAddressPort w c.target <;> simp
  | _ => simp [spawnRoutine, listenAddress, clientTunnel]

theorem connect_mem_spawnRoutine_iff {r : RoutineSpawner w} {port : ℕ} :
    .connect port ∈ spawnRoutine services r ↔
      ∃ t, connectAddress r = some t ∧
        ∃ raddr, parseAddressPort w t = .ok raddr ∧ port = raddr.port.toNat := by
  cases r with
  | tcpClientTunnel c =>
    simp only [spawnRoutine, connectAddress]
    cases parseAddressPort w c.target <;> simp
  | tcpServerTunnel c =>
    simp only [spawnRoutine, connectAddress, Option.some.injEq, exists_eq_left']
    cases parseAddressPort w c.target <;> simp
  | _ => simp [spawnRoutine, connectAddress]

/-- Who listens on the host. -/
theorem mem_listen_iff {port : ℕ} :
    .listen port ∈ operations services sections infoAddr ↔
      (∃ t ∈ listenAddresses sections infoAddr, listenPort services t = some port) ∨
        ∃ c ∈ clientTunnels sections, (parseAddressPort w c.target).isOk = true ∧
          port = c.bindAddress.port := by
  have hinfo : .listen port ∈ (if infoAddr = [] then []
      else ((listenPort services infoAddr).map Operation.listen).toList) ↔
      ∃ t ∈ (if infoAddr = [] then [] else [infoAddr]), listenPort services t = some port := by
    by_cases hne : infoAddr = [] <;> simp [hne]
  simp only [operations, List.mem_append, hinfo, List.mem_flatMap, listen_mem_spawnRoutine_iff,
    listenAddresses, clientTunnels, List.mem_filterMap]
  constructor
  · rintro (⟨t, ht, hport⟩ | ⟨r, hr, ⟨t, ht, hport⟩ | ⟨c, hc, hport⟩⟩)
    · exact .inl ⟨t, .inl ht, hport⟩
    · exact .inl ⟨t, .inr ⟨r, hr, ht⟩, hport⟩
    · exact .inr ⟨c, ⟨r, hr, hc⟩, hport⟩
  · rintro (⟨t, ht | ⟨r, hr, ht⟩, hport⟩ | ⟨c, ⟨r, hr, hc⟩, hport⟩)
    · exact .inl ⟨t, ht, hport⟩
    · exact .inr ⟨r, hr, .inl ⟨t, ht, hport⟩⟩
    · exact .inr ⟨r, hr, .inr ⟨c, hc, hport⟩⟩

/-- Who connects on the host. -/
theorem mem_connect_iff {port : ℕ} :
    .connect port ∈ operations services sections infoAddr ↔
      ∃ t ∈ connectAddresses sections,
        ∃ raddr, parseAddressPort w t = .ok raddr ∧ port = raddr.port.toNat := by
  have hinfo : .connect port ∉ (if infoAddr = [] then []
      else ((listenPort services infoAddr).map Operation.listen).toList) := by
    by_cases hne : infoAddr = [] <;> simp [hne]
  simp only [operations, List.mem_append, hinfo, false_or, List.mem_flatMap,
    connect_mem_spawnRoutine_iff, connectAddresses, List.mem_filterMap]
  constructor
  · rintro ⟨r, hr, t, ht, hport⟩
    exact ⟨t, ⟨r, hr, ht⟩, hport⟩
  · rintro ⟨t, ⟨r, hr, ht⟩, hport⟩
    exact ⟨r, hr, t, ht, hport⟩

end Operations

/-! ## When the rules match -/

/-- The rules permit exactly the operations, and no port differs from the one that is written. -/
structure RulesMatch (services : Text → Option ℕ) (sections : List (RoutineSpawner w))
    (infoAddr : Text) (rules : List Rule) : Prop where
  exact : ∀ t ∈ listenAddresses sections infoAddr ++ connectAddresses sections, ∀ port,
    extractPort w t = .ok port → writtenPort t = some (port.toNat : ℤ)
  permitted : ∀ op ∈ operations services sections infoAddr, ∃ rule ∈ rules, rule.permits op
  performed : ∀ rule ∈ rules, ∃ op ∈ operations services sections infoAddr, rule.permits op

/-- The address writes a port number. -/
def WritesPort (t : Text) : Prop := ∃ n : ℕ, writtenPort t = some (n : ℤ) ∧ n ≤ 65535

theorem extractPort_of_written {t : Text} {n : ℕ} (h : writtenPort t = some (n : ℤ))
    (hn : n ≤ 65535) {port : UInt16} (hport : extractPort w t = .ok port) : port.toNat = n := by
  obtain ⟨v, hv, rfl⟩ := extractPort_eq_ok_iff.1 hport
  rw [h, Option.some.injEq] at hv
  rw [GoInt.toNat_toUint16 hv.symm]
  omega

/-- Listening on a written port is permitted. -/
theorem exists_permits_listen {sections : List (RoutineSpawner w)} {infoAddr : Text}
    {rules : List Rule} (hlock : lockNetwork sections infoAddr = .ok rules) {t : Text}
    (ht : t ∈ listenAddresses sections infoAddr) {n : ℕ} (h : writtenPort t = some (n : ℤ))
    (hn : n ≤ 65535) : ∃ rule ∈ rules, rule.permits (.listen n) := by
  obtain ⟨port, hport⟩ := exists_extractPort hlock (List.mem_append_left _ ht)
  exact ⟨.bindTCP port, (mem_bindTCP_iff hlock).2 ⟨t, ht, hport⟩,
    extractPort_of_written h hn hport⟩

/-- Connecting to a written port is permitted. -/
theorem exists_permits_connect {sections : List (RoutineSpawner w)} {infoAddr : Text}
    {rules : List Rule} (hlock : lockNetwork sections infoAddr = .ok rules) {t : Text}
    (ht : t ∈ connectAddresses sections) {n : ℕ} (h : writtenPort t = some (n : ℤ))
    (hn : n ≤ 65535) : ∃ rule ∈ rules, rule.permits (.connect n) := by
  obtain ⟨port, hport⟩ := exists_extractPort hlock (List.mem_append_right _ ht)
  exact ⟨.connectTCP port, (mem_connectTCP_iff hlock).2 (.inl ⟨t, ht, hport⟩),
    extractPort_of_written h hn hport⟩

/-- The target of a TCPServerTunnel that writes a port is connected to. -/
theorem connect_mem_operations {services : Text → Option ℕ} {sections : List (RoutineSpawner w)}
    {infoAddr t : Text} (ht : t ∈ connectAddresses sections) {n : ℕ}
    (h : writtenPort t = some (n : ℤ)) (hn : n ≤ 65535) :
    .connect n ∈ operations services sections infoAddr := by
  obtain ⟨raddr, hraddr, hport⟩ := parseAddressPort_of_written (w := w) h hn
  exact mem_connect_iff.2 ⟨t, ht, raddr, hraddr, hport.symm⟩

/-- **When the rules match the operations**: every inspected address writes a port number, and every
TCPClientTunnel shares its port with a TCPServerTunnel, whose rule it repeats, and with another
listener, whose rule permits it to listen. -/
theorem rulesMatch_iff {services : Text → Option ℕ} {sections : List (RoutineSpawner w)}
    {infoAddr : Text} {rules : List Rule} (hlock : lockNetwork sections infoAddr = .ok rules) :
    RulesMatch services sections infoAddr rules ↔
      (∀ t ∈ listenAddresses sections infoAddr ++ connectAddresses sections, WritesPort t) ∧
        ∀ c ∈ clientTunnels sections,
          (∃ t ∈ connectAddresses sections,
            writtenPort t = some ((c.bindAddress.port % 2 ^ 16 : ℕ) : ℤ)) ∧
          ((parseAddressPort w c.target).isOk = true →
            ∃ t ∈ listenAddresses sections infoAddr,
              writtenPort t = some (c.bindAddress.port : ℤ)) := by
  constructor
  · intro hmatch
    refine ⟨fun t ht => ?_, fun c hc => ⟨?_, fun htarget => ?_⟩⟩
    · obtain ⟨port, hport⟩ := exists_extractPort hlock ht
      exact ⟨port.toNat, hmatch.exact t ht port hport, Nat.le_of_lt_succ port.toNat_lt⟩
    · -- the rule of the tunnel is for an operation of a TCPServerTunnel
      have hrule := (mem_connectTCP_iff hlock).2 (.inr ⟨c, hc, rfl⟩)
      obtain ⟨op, hop, hpermits⟩ := hmatch.performed _ hrule
      cases op with
      | listen port => cases hpermits
      | connect port =>
        obtain ⟨t, ht, raddr, hraddr, rfl⟩ := mem_connect_iff.1 hop
        refine ⟨t, ht, (writtenPort_of_parseAddressPort hraddr).trans ?_⟩
        exact congrArg (fun n : ℕ => some (n : ℤ)) (hpermits.symm.trans UInt16.toNat_ofNat')
    · -- the tunnel listens by the rule of another listener
      have hop : Operation.listen c.bindAddress.port ∈ operations services sections infoAddr :=
        mem_listen_iff.2 (.inr ⟨c, hc, htarget, rfl⟩)
      obtain ⟨rule, hrule, hpermits⟩ := hmatch.permitted _ hop
      cases rule with
      | connectTCP port => cases hpermits
      | bindTCP port =>
        obtain ⟨t, ht, hport⟩ := (mem_bindTCP_iff hlock).1 hrule
        refine ⟨t, ht, (hmatch.exact t (List.mem_append_left _ ht) port hport).trans ?_⟩
        exact congrArg (fun n : ℕ => some (n : ℤ)) hpermits
  · rintro ⟨hwrites, hclients⟩
    refine ⟨fun t ht port hport => ?_, fun op hop => ?_, fun rule hrule => ?_⟩
    · obtain ⟨n, hn, hle⟩ := hwrites t ht
      rw [hn, extractPort_of_written hn hle hport]
    · cases op with
      | listen port =>
        rcases mem_listen_iff.1 hop with ⟨t, ht, hport⟩ | ⟨c, hc, htarget, rfl⟩
        · obtain ⟨n, hn, hle⟩ := hwrites t (List.mem_append_left _ ht)
          rw [listenPort_of_written hn hle, Option.some.injEq] at hport
          exact hport ▸ exists_permits_listen hlock ht hn hle
        · obtain ⟨t, ht, hwritten⟩ := (hclients c hc).2 htarget
          obtain ⟨n, hn, hle⟩ := hwrites t (List.mem_append_left _ ht)
          rw [hwritten, Option.some.injEq, Nat.cast_inj] at hn
          exact exists_permits_listen hlock ht hwritten (hn ▸ hle)
      | connect port =>
        obtain ⟨t, ht, raddr, hraddr, rfl⟩ := mem_connect_iff.1 hop
        exact exists_permits_connect hlock ht (writtenPort_of_parseAddressPort hraddr)
          (Nat.le_of_lt_succ raddr.port.toNat_lt)
    · cases rule with
      | bindTCP port =>
        obtain ⟨t, ht, hport⟩ := (mem_bindTCP_iff hlock).1 hrule
        obtain ⟨n, hn, hle⟩ := hwrites t (List.mem_append_left _ ht)
        exact ⟨.listen n, mem_listen_iff.2 (.inl ⟨t, ht, listenPort_of_written hn hle⟩),
          extractPort_of_written hn hle hport⟩
      | connectTCP port =>
        rcases (mem_connectTCP_iff hlock).1 hrule with ⟨t, ht, hport⟩ | ⟨c, hc, rfl⟩
        · obtain ⟨n, hn, hle⟩ := hwrites t (List.mem_append_right _ ht)
          exact ⟨.connect n, connect_mem_operations ht hn hle, extractPort_of_written hn hle hport⟩
        · obtain ⟨t, ht, hwritten⟩ := (hclients c hc).1
          exact ⟨.connect _, connect_mem_operations ht hwritten (by omega), UInt16.toNat_ofNat'⟩

/-! ## Routines with and without a TCPClientTunnel -/

/-- A proxy, and a server behind the tunnel. -/
def proxyAndServer : List (RoutineSpawner .bits64) :=
  [.socks5 ⟨"127.0.0.1:1080", [], []⟩, .tcpServerTunnel ⟨3422, "localhost:80"⟩]

theorem rulesMatch_iff_proxyAndServer :
    lockNetwork proxyAndServer ":9080" =
        .ok [.bindTCP 9080, .bindTCP 1080, .connectTCP 80] ∧
      RulesMatch (fun _ => none) proxyAndServer ":9080"
        [.bindTCP 9080, .bindTCP 1080, .connectTCP 80] := by
  have hlock : lockNetwork proxyAndServer ":9080" =
      .ok [.bindTCP 9080, .bindTCP 1080, .connectTCP 80] := by
    rfl
  refine ⟨hlock, (rulesMatch_iff hlock).2 ⟨?_, fun c hc => by cases hc⟩⟩
  have haddresses : listenAddresses proxyAndServer ":9080" ++ connectAddresses proxyAndServer =
      [(":9080" : String).toList, ("127.0.0.1:1080" : String).toList,
        ("localhost:80" : String).toList] := by
    rfl
  rw [haddresses, List.forall_mem_cons, List.forall_mem_cons, List.forall_mem_singleton]
  exact ⟨⟨9080, by decide +kernel, by decide⟩, ⟨1080, by decide +kernel, by decide⟩,
    ⟨80, by decide +kernel, by decide⟩⟩

/-- A file with a TCPClientTunnel. -/
def clientTunnelFile : File where
  root := []
  sections := [
    ("interface", [("address", "10.0.0.1"),
      ("privatekey", "AQEBAQEBAQEBAQEBAQEBAQEBAQEBAQEBAQEBAQEBAQE=")]),
    ("peer", [("publickey", "AgICAgICAgICAgICAgICAgICAgICAgICAgICAgICAgI=")]),
    ("tcpclienttunnel", [("bindaddress", "127.0.0.1:5432"), ("target", "10.0.0.2:5432")])]

/-- The host that loads this file and resolves its address. -/
def clientTunnelHost : Host :=
  { Host.bare with
    resolveTCPAddr := fun addr =>
      if addr = ("127.0.0.1:5432" : String).toList then .ok ⟨[127, 0, 0, 1], 5432, []⟩
      else .error (.external addr)
    loadSources := fun _ => .ok clientTunnelFile }

/-- The tunnel listens on its port, but the rule is for connecting to it. -/
theorem clientTunnel_not_permitted :
    ∃ config : Configuration .bits64, parseConfig clientTunnelHost [] = .ok config ∧
      ∃ rules, lockNetwork config.routines [] = .ok rules ∧
        .listen 5432 ∈ operations (fun _ => none) config.routines [] ∧
        (∀ rule ∈ rules, ¬ rule.permits (.listen 5432)) ∧
        ¬ RulesMatch (fun _ => none) config.routines [] rules := by
  have hisOk : (parseConfig (w := .bits64) clientTunnelHost []).isOk := by decide +kernel
  obtain ⟨config, hok⟩ := exists_eq_ok_of_isOk hisOk
  have hroutines : (parseConfig (w := .bits64) clientTunnelHost []).toOption.map
      Configuration.routines =
      some [.tcpClientTunnel ⟨⟨[127, 0, 0, 1], 5432, []⟩, "10.0.0.2:5432"⟩] := by
    decide +kernel
  rw [hok, Except.toOption, Option.map_some, Option.some.injEq] at hroutines
  have hlisten : .listen 5432 ∈ operations (fun _ => none) config.routines [] := by
    rw [hroutines]
    decide +kernel
  have hnone : ∀ rule ∈ [Rule.connectTCP 5432], ¬ rule.permits (.listen 5432) := by
    rintro rule hrule hpermits
    obtain rfl := List.mem_singleton.1 hrule
    exact hpermits
  refine ⟨config, hok, [.connectTCP 5432], by rw [hroutines]; rfl, hlisten, hnone, fun hmatch => ?_⟩
  obtain ⟨rule, hrule, hpermits⟩ := hmatch.permitted _ hlisten
  exact hnone rule hrule hpermits

end WireProxy.Main
