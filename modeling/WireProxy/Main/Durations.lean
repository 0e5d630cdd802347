import WireProxy.Config.Numbers
import WireProxy.Health.Interval
import WireProxy.Udp.Sweeper

/-!
# The durations of a configuration

The two numbers of seconds that a configuration gives, `InactivityTimeout` and
`CheckAliveInterval`, become a `time.Duration` in nanoseconds, of 64 bits. The parsers check neither
of them.

* `timeoutExact_iff` and `intervalExact_iff` say when the durations are the ones that the numbers
  name.
* `durations_exact_iff` states this for what the parsers accept.
-/

namespace WireProxy.Main

open Text Go Netip Config Udp Health

variable {w : IntSize}

/-! ## The timeout of the sessions -/

/-- The duration of a timeout is the one that it names, and no session is swept before. -/
structure TimeoutExact (conf : UDPProxyTunnelConfig w) : Prop where
  eq : inactivityDur conf = conf.inactivityTimeout.toInt * 10 ^ 9
  pos : 0 < inactivityDur conf
  notEarly : ∀ (st : Store) (src : Text) (id : ℕ) (s : Session) (now : ℤ),
    st.sessions.lookup src = some id → st.heap[id]? = some s →
    now - s.lastActive < conf.inactivityTimeout.toInt * 10 ^ 9 →
    (st.sweep (inactivityDur conf) now).sessions.lookup src = some id

/-- **When a timeout is exact.** -/
theorem timeoutExact_iff {conf : UDPProxyTunnelConfig w}
    (hpos : 0 < conf.inactivityTimeout.toInt) :
    TimeoutExact conf ↔ conf.inactivityTimeout.toInt * 10 ^ 9 < 2 ^ 63 := by
  rw [← Sweeper.inactivityDur_eq_iff hpos]
  refine ⟨TimeoutExact.eq, fun heq => ⟨heq, by omega, fun st src id s now hl hs hlt => ?_⟩⟩
  refine Store.lookup_sweep.2 ⟨hl, ?_⟩
  rintro ⟨t, ht, hle⟩
  rw [Store.times, List.getElem?_map, hs, Option.map_some, Option.some.injEq] at ht
  omega

/-! ## What the parsers accept -/

/-- **When the durations are the ones that the configuration names.** For what the parsers accept:

* a timeout `t > 0` becomes `t` seconds, and no session is swept earlier, iff `t` seconds fit into a
  `time.Duration`;
* an interval `I` becomes a sleep of `I` seconds, a deadline in the future and a leeway of `I + 2`
  seconds iff it is positive and `I + 2` seconds fit. -/
theorem durations_exact_iff :
    (∀ (host : Host) (s : Section) (conf : UDPProxyTunnelConfig w),
      parseUDPProxyTunnelConfig host s = .ok (.udpProxyTunnel conf) →
      0 < conf.inactivityTimeout.toInt →
      (TimeoutExact conf ↔ conf.inactivityTimeout.toInt * 10 ^ 9 < 2 ^ 63)) ∧
    ∀ (host : Host) (cfg : File) (device device' : DeviceConfig w),
      parseInterface host cfg device = .ok device' →
      (IntervalExact device' ↔ IntervalFits device') :=
  ⟨fun _ _ _ _ hpos => timeoutExact_iff hpos, fun _ _ _ _ _ => intervalExact_iff⟩

/-- A section of a tunnel with a timeout. -/
def timeoutSection (t : Text) : Section :=
  [("bindaddress", "127.0.0.1:53"), ("target", "10.0.0.1:53"), ("inactivitytimeout", t)]

/-- A file that checks an address at an interval. -/
def intervalFile (t : Text) : File where
  root := []
  sections := [("interface", [("privatekey", "AQEBAQEBAQEBAQEBAQEBAQEBAQEBAQEBAQEBAQEBAQE="),
    ("checkalive", "10.0.0.2"), ("checkaliveinterval", t)])]

/-- With 64 bits a timeout of 9223372037 seconds, about three centuries, becomes a negative
duration, so that every session is swept at the next tick. An interval of zero or of 9223372035
seconds is accepted, where the pings do not sleep or `/readyz` has a negative leeway. -/
theorem durations_wrapped :
    (parseUDPProxyTunnelConfig (w := .bits64) Host.bare (timeoutSection "9223372037") =
        .ok (.udpProxyTunnel ⟨"127.0.0.1:53", "10.0.0.1:53", 9223372037⟩) ∧
      inactivityDur (w := .bits64) ⟨"127.0.0.1:53", "10.0.0.1:53", 9223372037⟩ =
        -9223372036709551616) ∧
    (parseInterface (w := .bits64) Host.bare (intervalFile "0") initialDevice).map pingInterval =
      .ok 0 ∧
    (parseInterface (w := .bits64) Host.bare (intervalFile "9223372035") initialDevice).map leeway =
      .ok (-9223372036709551616) := by
  decide +kernel

end WireProxy.Main
