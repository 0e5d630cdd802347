import WireProxy.Go.Netip
import WireProxy.Http.Connect

/-!
# The address that the HTTP proxy dials

The proxy dials the host of a request, to which it adds a default port if the host has no colon.
A bracketed IPv6 literal has colons of its own, so it gets no port.

* `IsHost` relates a host as it is written in an authority to the host without brackets, and
  `authority` adds the optional port.
* `splitHostPort_dialAddr_iff` says when the address to dial has the host and the port of the
  authority, and `dialled_authority_iff` says this of `handle` and of `handleConn`.
-/

namespace WireProxy.Http

open Text Go Go.Http Netip Buffered

/-! ## Authorities -/

/-- A host as it is written in an authority, and the host without brackets. -/
inductive IsHost : Text → Text → Prop
  /-- A registered name. -/
  | name {t : Text} (ht : NoSeparators t) : IsHost t t
  | ipv4 (a b c d : UInt8) : IsHost (dotted a b c d) (dotted a b c d)
  /-- An IPv6 literal. Only the zone of an address could have brackets. -/
  | ipv6 {t : Text} {groups : Groups} {zone : Text} (ht : parseAddr t = some (.v6 groups zone))
    (hopen : '[' ∉ t) (hclose : ']' ∉ t) : IsHost ('[' :: t ++ [']']) t

/-- A host with an optional port. -/
def authority (host : Text) : Option Text → Text
  | none => host
  | some port => host ++ ':' :: port

theorem noSeparators_dotted (a b c d : UInt8) : NoSeparators (dotted a b c d) := by
  have h {x : Char} (hx : isDigitIn 10 x = false) (hdot : x ≠ '.') : x ∉ dotted a b c d := by
    intro hmem
    rcases mem_dotted hmem with hdigit | rfl
    · rw [hx] at hdigit
      cases hdigit
    · exact hdot rfl
  exact ⟨h (by decide) (by decide), h (by decide) (by decide), h (by decide) (by decide)⟩

theorem noSeparators_of_isDecimal {port : Text} (h : IsDecimal port) : NoSeparators port := by
  have hnot {x : Char} (hx : x.isDigit = false) : x ∉ port := by
    intro hmem
    rw [h.2 x hmem] at hx
    cases hx
  exact ⟨hnot rfl, hnot rfl, hnot rfl⟩

/-- A host has no separators, or it is a text with a colon in brackets. -/
theorem IsHost.plain_or_bracketed {host name : Text} (h : IsHost host name) :
    (host = name ∧ NoSeparators name) ∨
      (host = '[' :: name ++ [']'] ∧ ':' ∈ name ∧ '[' ∉ name ∧ ']' ∉ name) := by
  cases h with
  | name ht => exact .inl ⟨rfl, ht⟩
  | ipv4 a b c d => exact .inl ⟨rfl, noSeparators_dotted a b c d⟩
  | ipv6 ht hopen hclose => exact .inr ⟨rfl, colon_mem_of_parseAddr ht, hopen, hclose⟩

/-! ## The address to dial -/

theorem dialAddr_of_colon {port host : Text} (h : ':' ∈ host) : dialAddr port host = host :=
  if_pos (contains_singleton_iff.2 h)

theorem dialAddr_of_no_colon {port host : Text} (h : ':' ∉ host) :
    dialAddr port host = host ++ ':' :: port := by
  have hcontains : ¬ contains host ":" = true := mt contains_singleton_iff.1 h
  rw [dialAddr, if_neg hcontains, joinHostPort, if_neg h]

/-- **When the address to dial is the authority**: there is a port, or the host has no brackets. -/
theorem splitHostPort_dialAddr_iff {defaultPort host name : Text} {port : Option Text}
    (hdefault : NoSeparators defaultPort) (hhost : IsHost host name)
    (hport : ∀ p ∈ port, IsDecimal p) :
    splitHostPort (dialAddr defaultPort (authority host port)) =
        .ok (name, port.getD defaultPort) ↔ port ≠ none ∨ host = name := by
  rw [splitHostPort_eq_ok_iff]
  rcases hhost.plain_or_bracketed with ⟨rfl, hname⟩ | ⟨rfl, hcolon, hopen, hclose⟩
  · refine iff_of_true ?_ (.inr rfl)
    cases port with
    | none =>
      rw [authority, dialAddr_of_no_colon hname.1]
      exact .plain hname hdefault
    | some p =>
      rw [authority, dialAddr_of_colon (by simp)]
      exact .plain hname (noSeparators_of_isDecimal (hport p rfl))
  · cases port with
    | none =>
      -- the colons of the literal are taken for that of a port
      rw [authority, dialAddr_of_colon (by simp [hcolon])]
      refine iff_of_false (fun h => h.getLast?_ne List.getLast?_concat) ?_
      rintro (hnone | hlength)
      · exact hnone rfl
      · exact absurd (congrArg List.length hlength) (by simp; omega)
    | some p =>
      refine iff_of_true ?_ (.inl (Option.some_ne_none p))
      rw [authority, dialAddr_of_colon (by simp), List.append_assoc, List.singleton_append]
      exact .bracketed hopen hclose (noSeparators_of_isDecimal (hport p rfl))

/-! ## The two handlers -/

/-- The address that an action hands to `dial`. -/
def Action.handedToDial : Action → Option Text
  | .dial addr _ => some addr
  | _ => none

theorem handedToDial_handle (lib : NetHTTP) (out : Outcomes) (req : Request) (rd : Reader UInt8) :
    (handle lib out req rd).1.filterMap Action.handedToDial = [dialAddr "80" req.host] := by
  unfold handle
  dsimp only
  split
  · rfl
  · split <;> rfl

theorem handedToDial_handleConn (out : Outcomes) (req : Request) :
    (handleConn out req).1.filterMap Action.handedToDial = [dialAddr "443" req.host] := by
  unfold handleConn
  dsimp only
  split
  · rfl
  · split <;> rfl

/-- An action list hands one address to `dial`, and it splits into a host and a port. -/
def Dials (actions : List Action) (name port : Text) : Prop :=
  ∃ addr, actions.filterMap Action.handedToDial = [addr] ∧ splitHostPort addr = .ok (name, port)

theorem dials_iff {actions : List Action} {addr name port : Text}
    (h : actions.filterMap Action.handedToDial = [addr]) :
    Dials actions name port ↔ splitHostPort addr = .ok (name, port) := by
  simp [Dials, h]

/-- **The authority that a request names is dialled** by either handler, with its default port, iff
the request gives a port or its host is not a bracketed literal. -/
theorem dialled_authority_iff (lib : NetHTTP) (out : Outcomes) (rd : Reader UInt8) {req : Request}
    {host name : Text} {port : Option Text} (hhost : IsHost host name)
    (hport : ∀ p ∈ port, IsDecimal p) (hreq : req.host = authority host port) :
    (Dials (handle lib out req rd).1 name (port.getD ("80" : String)) ↔
        port ≠ none ∨ host = name) ∧
      (Dials (handleConn out req).1 name (port.getD ("443" : String)) ↔
        port ≠ none ∨ host = name) := by
  rw [dials_iff (handedToDial_handle lib out req rd),
    dials_iff (handedToDial_handleConn out req), hreq]
  have h80 : NoSeparators ("80" : String) := ⟨by decide, by decide, by decide⟩
  have h443 : NoSeparators ("443" : String) := ⟨by decide, by decide, by decide⟩
  exact ⟨splitHostPort_dialAddr_iff h80 hhost hport, splitHostPort_dialAddr_iff h443 hhost hport⟩

/-- A request for a host. -/
def requestFor (host : Text) : Request := ⟨"GET", "/", "HTTP/1.1", host, []⟩

theorem isHost_literal : IsHost ("[2001:db8::1]" : String) ("2001:db8::1" : String) := by
  have hparse : parseAddr "2001:db8::1" =
      some (.v6 ⟨[0x2001, 0xdb8, 0, 0, 0, 0, 0, 1], rfl⟩ []) := by decide +kernel
  exact .ipv6 hparse (by decide) (by decide)

theorem dialled_authority_iff_literalPort :
    Dials (handle .basic allSucceed (requestFor "[2001:db8::1]:8080") ⟨[], []⟩).1 "2001:db8::1"
        "8080" ∧
      Dials (handleConn allSucceed (requestFor "[2001:db8::1]:8080")).1 "2001:db8::1" "8080" := by
  have hport : ∀ p ∈ some ("8080" : String).toList, IsDecimal p := by
    rintro p ⟨⟩
    exact ⟨by decide, List.all_eq_true.1 rfl⟩
  have hreq : (requestFor "[2001:db8::1]:8080").host =
      authority ("[2001:db8::1]" : String) (some ("8080" : String).toList) := rfl
  have h := dialled_authority_iff .basic allSucceed ⟨[], []⟩ isHost_literal hport hreq
  exact ⟨h.1.2 (.inl (Option.some_ne_none _)), h.2.2 (.inl (Option.some_ne_none _))⟩

/-- An IPv6 literal without a port is dialled as it is, and has no port to dial. -/
theorem literal_dialled_without_port :
    IsHost ("[2001:db8::1]" : String) ("2001:db8::1" : String) ∧
      (requestFor "[2001:db8::1]").host = authority ("[2001:db8::1]" : String) none ∧
      (handle .basic allSucceed (requestFor "[2001:db8::1]") ⟨[], []⟩).1.filterMap
        Action.handedToDial = [("[2001:db8::1]" : String).toList] ∧
      (handleConn allSucceed (requestFor "[2001:db8::1]")).1.filterMap
        Action.handedToDial = [("[2001:db8::1]" : String).toList] ∧
      splitHostPort "[2001:db8::1]" =
        .error ⟨"missing port in address", ("[2001:db8::1]" : String).toList⟩ := by
  have hcolon : ':' ∈ (requestFor "[2001:db8::1]").host := by decide
  refine ⟨isHost_literal, rfl, ?_, ?_, by decide⟩
  · rw [handedToDial_handle, dialAddr_of_colon hcolon]
    rfl
  · rw [handedToDial_handleConn, dialAddr_of_colon hcolon]
    rfl

end WireProxy.Http
