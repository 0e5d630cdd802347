import WireProxy.Config.Parse
import WireProxy.Foundations.Control.Shuffle

/-!
# Resolving a host name

`VirtualTun.ResolveAddrWithContext`: the texts that a lookup returns are shuffled, and the first one
that parses is the address. The strategy of the `[Resolve]` section is not consulted.

* `resolveAddrWithContext_eq_ok_iff`: the address is the first one in the shuffled list.
* `exists_resolve_of_mem`: any address of the lookup is returned after some shuffle.
* `resolve_follows_iff`: the strategy is followed after every shuffle iff the lookup does not mix an
  address of the preferred family with one of the other.
-/

namespace WireProxy.Routine

open Text Go Netip Config Shuffle Control

variable {w : IntSize}

/-! ## The resolver -/

/-- The two ways to look up a host name. -/
structure Lookups where
  /-- `net.DefaultResolver.LookupHost`. -/
  lookupHost : Text → Except Err (List Text)
  /-- `Tnet.LookupContextHost`. -/
  lookupContextHost : Text → Except Err (List Text)

/-- `VirtualTun`, of which a lookup reads one field. -/
structure VirtualTun where
  systemDNS : Bool

namespace VirtualTun

/-- The `VirtualTun` that `StartWireguard` returns once the device is up. -/
def ofConfig (conf : DeviceConfig w) : VirtualTun := ⟨conf.dns.length = 0⟩

/-- `VirtualTun.LookupAddr`. -/
def lookupAddr (d : VirtualTun) (dns : Lookups) (name : Text) : Except Err (List Text) :=
  if d.systemDNS then dns.lookupHost name else dns.lookupContextHost name

/-- The loop over the shuffled texts, with the variables `addr` and `err`. -/
def parseLoop : Addr × Option Err → List Text → Addr × Option Err
  | vars, [] => vars
  | _, saddr :: addrs =>
    match parseAddr saddr with
    | some addr => (addr, none)
    | none => parseLoop (.zero, some (.parseAddr saddr)) addrs

/-- `VirtualTun.ResolveAddrWithContext`. -/
def resolveAddrWithContext (d : VirtualTun) (dns : Lookups) (draw : Draws) (name : Text) :
    Except Err Addr := do
  let addrs ← d.lookupAddr dns name
  if addrs.length = 0 then .error (.msg (("no address found for: " : String).toList ++ name))
  else match parseLoop (.zero, none) (shuffle draw addrs) with
    | (_, some err) => .error err
    | (addr, none) => .ok addr

end VirtualTun

open VirtualTun

/-- The loop leaves no error iff some text parses, and then `addr` is the first such address. The
error from before the loop is only seen if there are no texts. -/
theorem parseLoop_eq_iff {vars : Addr × Option Err} {addrs : List Text} {a : Addr}
    (h : vars.2 ≠ none ∨ addrs ≠ []) :
    parseLoop vars addrs = (a, none) ↔ addrs.findSome? parseAddr = some a := by
  induction addrs generalizing vars with
  | nil =>
    refine iff_of_false ?_ (Option.some_ne_none a).symm
    rintro rfl
    exact h.elim (fun hne => hne rfl) (fun hne => hne rfl)
  | cons saddr addrs ih =>
    rw [parseLoop, List.findSome?_cons]
    cases parseAddr saddr with
    | some addr => simp
    | none => exact ih (.inl (Option.some_ne_none _))

variable {d : VirtualTun} {dns : Lookups} {name : Text} {addrs : List Text} {draw : Draws}
  {a : Addr}

theorem resolveAddrWithContext_eq_ok_iff (hlookup : d.lookupAddr dns name = .ok addrs) :
    d.resolveAddrWithContext dns draw name = .ok a ↔
      (shuffle draw addrs).findSome? parseAddr = some a := by
  rw [resolveAddrWithContext, hlookup]
  have hperm := shuffle_perm draw addrs
  by_cases hempty : addrs = []
  · subst hempty
    rw [List.perm_nil.1 hperm]
    exact iff_of_false (by rintro ⟨⟩) (Option.some_ne_none a).symm
  · have hne : shuffle draw addrs ≠ [] := by
      intro hnil
      rw [hnil] at hperm
      exact hempty (List.nil_perm.1 hperm)
    have hloop : parseLoop (.zero, none) (shuffle draw addrs) = (a, none) ↔ _ :=
      parseLoop_eq_iff (.inr hne)
    rw [← hloop]
    simp only [bind, Except.bind, List.length_eq_zero_iff, hempty, if_false]
    rcases parseLoop (.zero, none) (shuffle draw addrs) with ⟨addr, _ | err⟩
    · simp
    · exact iff_of_false (by rintro ⟨⟩) (by rintro ⟨⟩)

/-- The addresses among the texts of a lookup. -/
def addresses (addrs : List Text) : List Addr := addrs.filterMap parseAddr

theorem mem_addresses_iff : a ∈ addresses addrs ↔ ∃ t ∈ addrs, parseAddr t = some a :=
  List.mem_filterMap

theorem mem_addresses_of_resolve (hlookup : d.lookupAddr dns name = .ok addrs)
    (h : d.resolveAddrWithContext dns draw name = .ok a) : a ∈ addresses addrs := by
  obtain ⟨t, ht, hparse⟩ :=
    List.exists_of_findSome?_eq_some ((resolveAddrWithContext_eq_ok_iff hlookup).1 h)
  exact mem_addresses_iff.2 ⟨t, (shuffle_perm draw addrs).mem_iff.1 ht, hparse⟩

theorem exists_resolve_iff (hlookup : d.lookupAddr dns name = .ok addrs) :
    (∃ a, d.resolveAddrWithContext dns draw name = .ok a) ↔
      ∃ t ∈ addrs, (parseAddr t).isSome := by
  have hsome : (∃ a, d.resolveAddrWithContext dns draw name = .ok a) ↔
      ((shuffle draw addrs).findSome? parseAddr).isSome := by
    rw [Option.isSome_iff_exists]
    exact exists_congr fun a => resolveAddrWithContext_eq_ok_iff hlookup
  rw [hsome, List.findSome?_isSome_iff]
  simp only [(shuffle_perm draw addrs).mem_iff]

/-- **Any address of the lookup is returned** after some shuffle. -/
theorem exists_resolve_of_mem (hlookup : d.lookupAddr dns name = .ok addrs)
    (ha : a ∈ addresses addrs) : ∃ draw, d.resolveAddrWithContext dns draw name = .ok a := by
  obtain ⟨t, ht, hparse⟩ := mem_addresses_iff.1 ha
  obtain ⟨draw, hhead⟩ := exists_head?_shuffle ht
  refine ⟨draw, (resolveAddrWithContext_eq_ok_iff hlookup).2 ?_⟩
  obtain ⟨rest, hrest⟩ := List.head?_eq_some_iff.1 hhead
  rw [hrest, List.findSome?_cons, hparse]

/-! ## The strategy -/

/-- The family that a strategy prefers, for the addresses of the interface. -/
def preferred (strategy : Text) (endpoint : List Addr) : Option (Addr → Bool) :=
  if strategy = ("ipv4" : String).toList then some Addr.is4
  else if strategy = ("ipv6" : String).toList then some Addr.is6
  else if strategy = ("auto" : String).toList then
    some (if endpoint.all Addr.is4 then Addr.is4 else Addr.is6)
  else none

/-- An address is of the preferred family if the lookup has one that is. -/
def Follows (conf : Configuration w) (addrs : List Text) (a : Addr) : Prop :=
  ∀ family ∈ preferred conf.resolve.resolveStrategy conf.device.endpoint,
    (∃ b ∈ addresses addrs, family b) → family a

/-- The addresses of a lookup are all of the preferred family, or none is. -/
def Unmixed (conf : Configuration w) (addrs : List Text) : Prop :=
  ∀ family ∈ preferred conf.resolve.resolveStrategy conf.device.endpoint,
    (∀ a ∈ addresses addrs, family a) ∨ ∀ a ∈ addresses addrs, ¬ family a

theorem unmixed_iff {conf : Configuration w} :
    Unmixed conf addrs ↔ ∀ a ∈ addresses addrs, Follows conf addrs a := by
  constructor
  · intro h a ha family hfamily hsome
    obtain ⟨b, hb, hfb⟩ := hsome
    rcases h family hfamily with hall | hnone
    · exact hall a ha
    · exact absurd hfb (hnone b hb)
  · intro h family hfamily
    by_cases hsome : ∃ b ∈ addresses addrs, family b
    · exact .inl fun a ha => h a ha family hfamily hsome
    · exact .inr fun a ha hfa => hsome ⟨a, ha, hfa⟩

/-- **How an address is selected.** A name resolves iff a text of the lookup parses, to an address
of the lookup. The strategy is followed after every shuffle iff the lookup does not mix the
preferred family with the other. -/
theorem resolve_follows_iff (conf : Configuration w) (dns : Lookups) {name : Text}
    {addrs : List Text} (hlookup : (ofConfig conf.device).lookupAddr dns name = .ok addrs) :
    (∀ draw, (∃ a, (ofConfig conf.device).resolveAddrWithContext dns draw name = .ok a) ↔
      ∃ t ∈ addrs, (parseAddr t).isSome) ∧
    (∀ draw a, (ofConfig conf.device).resolveAddrWithContext dns draw name = .ok a →
      ∃ t ∈ addrs, parseAddr t = some a) ∧
    ((∀ draw a, (ofConfig conf.device).resolveAddrWithContext dns draw name = .ok a →
      Follows conf addrs a) ↔ Unmixed conf addrs) := by
  refine ⟨fun _ => exists_resolve_iff hlookup,
    fun _ _ h => mem_addresses_iff.1 (mem_addresses_of_resolve hlookup h), ?_⟩
  rw [unmixed_iff]
  constructor
  · intro h a ha
    obtain ⟨draw, hdraw⟩ := exists_resolve_of_mem hlookup ha
    exact h draw a hdraw
  · intro h draw a ha
    exact h a (mem_addresses_of_resolve hlookup ha)

/-- Every name has the given texts. -/
def Lookups.const (addrs : List Text) : Lookups := ⟨fun _ => .ok addrs, fun _ => .ok addrs⟩

/-- A configuration that prefers IPv4. -/
def ipv4Conf : Configuration .bits64 := ⟨initialDevice, [], ⟨"ipv4"⟩⟩

/-- Two addresses of the preferred family and a text that is no address. -/
def ipv4Texts : List Text := ["192.0.2.1", "?", "192.0.2.2"]

theorem resolve_follows_iff_ipv4Texts :
    (ofConfig ipv4Conf.device).lookupAddr (.const ipv4Texts) "example.org" = .ok ipv4Texts ∧
      ∀ draw a, (ofConfig ipv4Conf.device).resolveAddrWithContext (.const ipv4Texts) draw
        "example.org" = .ok a → Follows ipv4Conf ipv4Texts a := by
  have hlookup : (ofConfig ipv4Conf.device).lookupAddr (.const ipv4Texts) "example.org" =
      .ok ipv4Texts := rfl
  have hunmixed : Unmixed ipv4Conf ipv4Texts := by
    intro family hfamily
    obtain rfl : Addr.is4 = family := Option.some.inj hfamily
    exact .inl (by decide +kernel)
  exact ⟨hlookup, (resolve_follows_iff ipv4Conf (.const ipv4Texts) hlookup).2.2.2 hunmixed⟩

/-- A host with one file, which has a peer and prefers IPv4. -/
def ipv4Host : Host :=
  { Host.bare with
    loadSources := fun _ => .ok ⟨[], [
      ("interface", [("privatekey", "AQEBAQEBAQEBAQEBAQEBAQEBAQEBAQEBAQEBAQEBAQE="),
        ("address", "10.0.0.2/32")]),
      ("peer", [("publickey", "AQEBAQEBAQEBAQEBAQEBAQEBAQEBAQEBAQEBAQEBAQE="),
        ("allowedips", "0.0.0.0/0")]),
      ("resolve", [("resolvestrategy", "ipv4")])]⟩ }

/-- With the strategy `ipv4` a name that has addresses of both families resolves to the IPv6 address
if the shuffle leaves it first. -/
theorem ipv4_resolves_to_ipv6 :
    (parseConfig (w := .bits64) ipv4Host "wg.conf").map (fun conf =>
        (conf.resolve.resolveStrategy,
          (ofConfig conf.device).resolveAddrWithContext
            (.const ["2001:db8::1", "192.0.2.1"]) Fin.last "example.org")) =
      .ok ("ipv4", .ok (.v6 ⟨[0x2001, 0xdb8, 0, 0, 0, 0, 0, 1], rfl⟩ [])) ∧
    parseAddr "192.0.2.1" = some (.v4 192 0 2 1) := by
  decide +kernel

end WireProxy.Routine
