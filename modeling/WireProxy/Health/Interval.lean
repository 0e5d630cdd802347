import WireProxy.Health.Ping

/-!
# The interval of the pings

The number `CheckAliveInterval` of seconds becomes a `time.Duration` in nanoseconds, of 64 bits, in
three places: the sleep between two rounds, the deadline of a read, and the leeway of `/readyz`.

* `intervalExact_iff` says when these durations are the ones that the number names.
-/

namespace WireProxy.Health

open Text Go Netip Config

variable {w : IntSize}

/-- `time.Duration(CheckAliveInterval) * time.Second`: the sleep between two rounds of pings, and
the time that a ping has for its reply. -/
def pingInterval (conf : DeviceConfig w) : ℤ :=
  (BitVec.ofInt 64 conf.checkAliveInterval.toInt * BitVec.ofNat 64 second).toInt

/-- The read deadline that `pingIPs` sets. -/
def readDeadline (conf : DeviceConfig w) (now : ℤ) : ℤ := now + pingInterval conf

/-- The durations of an interval are the ones that it names. -/
structure IntervalExact (conf : DeviceConfig w) : Prop where
  sleep_eq : pingInterval conf = conf.checkAliveInterval.toInt * 10 ^ 9
  sleep_pos : 0 < pingInterval conf
  deadline : ∀ now, now < readDeadline conf now
  add_eq : (conf.checkAliveInterval + 2).toInt = conf.checkAliveInterval.toInt + 2
  leeway_eq : leeway conf = (conf.checkAliveInterval.toInt + 2) * 10 ^ 9
  leeway_pos : 0 < leeway conf

/-- The interval is positive, and with two more seconds it fits into an `int` and into a
`time.Duration`. -/
structure IntervalFits (conf : DeviceConfig w) : Prop where
  pos : 0 < conf.checkAliveInterval.toInt
  add_lt : conf.checkAliveInterval.toInt + 2 < 2 ^ (w.width - 1)
  mul_lt : (conf.checkAliveInterval.toInt + 2) * 10 ^ 9 < 2 ^ 63

theorem toInt_mul_second {v : ℤ} :
    (BitVec.ofInt 64 v * BitVec.ofNat 64 second).toInt = v * 10 ^ 9 ↔
      -2 ^ 63 ≤ v * 10 ^ 9 ∧ v * 10 ^ 9 < 2 ^ 63 := by
  have hmul := GoInt.toInt_mul_eq_iff (v := v) (n := second)
  rwa [fits_bits64_iff, show ((second : ℕ) : ℤ) = 10 ^ 9 from rfl] at hmul

/-- **When an interval is exact.** -/
theorem intervalExact_iff {conf : DeviceConfig w} : IntervalExact conf ↔ IntervalFits conf := by
  constructor
  · intro h
    have hpos := h.sleep_pos
    rw [h.sleep_eq] at hpos
    have hleeway := h.leeway_eq
    rw [leeway, h.add_eq, toInt_mul_second] at hleeway
    exact ⟨by omega, toInt_add_two_eq_iff.1 h.add_eq, hleeway.2⟩
  · intro h
    obtain ⟨hpos, hadd, hmul⟩ := h
    have hsleep : pingInterval conf = conf.checkAliveInterval.toInt * 10 ^ 9 :=
      toInt_mul_second.2 ⟨by omega, by omega⟩
    have hsum := toInt_add_two_eq_iff.2 hadd
    have hleeway : leeway conf = (conf.checkAliveInterval.toInt + 2) * 10 ^ 9 := by
      rw [leeway, hsum]
      exact toInt_mul_second.2 ⟨by omega, hmul⟩
    have hsleepPos : 0 < pingInterval conf := by omega
    exact ⟨hsleep, hsleepPos, fun now => lt_add_of_pos_right now hsleepPos, hsum, hleeway, by omega⟩

end WireProxy.Health
