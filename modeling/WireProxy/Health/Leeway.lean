import WireProxy.Health.Steady

/-!
# The leeway of `/readyz`

The delays that `/readyz` allows for, exactly. `Health.Steady` shows that smaller ones do no harm;
here is the run in which larger ones do.

* `exists_answered` and `exists_asked` are a round in which every ping is answered at once, and one
  in which none is answered yet.
* `not_alwaysReady`: the replies of the first round are recorded in the last nanosecond of a second.
  The round ends `R` late, the next one begins as late again, and its replies take `L`.
* `alwaysReady_iff` puts the two directions together.
-/

namespace WireProxy.Health.Rounds

open Text Go Netip Config Transition

variable {w : IntSize}

/-! ## Rounds -/

/-- The request of the run, and the replies to it. -/
def plainEcho : Echo := ⟨0, List.replicate 16 0⟩

theorem drawn_plainEcho : plainEcho.Drawn := by decide

/-- A valid reply to the request. -/
def answerTo : Addr → Body
  | .v6 _ _ => .raw (List.replicate 20 0)
  | _ => .echo 0 (List.replicate 16 0)

theorem checkReply_answerTo {addr : Addr} (haddr : addr ≠ .zero) :
    checkReply addr plainEcho (some (answerTo addr)) = some true := by
  cases addr with
  | zero => exact absurd rfl haddr
  | v4 a b c d => rfl
  | v6 bytes zone => rfl

/-- The state after the start. -/
def State.started (conf : DeviceConfig w) (clock : ℕ) : State :=
  ⟨.next conf.checkAlive, clock, startRecord conf.checkAlive ∅, [], [], clock⟩

/-- The goroutine of a ping that is sent now. -/
def State.waiter (conf : DeviceConfig w) (st : State) (addr : Addr) (place : Place) : Waiter :=
  ⟨st.closes.length, readDeadline conf st.clock, addr, plainEcho, place⟩

/-- The state after a ping. -/
def State.asked (conf : DeviceConfig w) (st : State) (addr : Addr) (rest : List Addr) : State :=
  { st with
    pinger := .next rest
    closes := st.closes ++ [0]
    waiters := st.waiters ++ [st.waiter conf addr .reading] }

/-- The state after a ping that was answered at once. -/
def State.answered (conf : DeviceConfig w) (st : State) (addr : Addr) (rest : List Addr) : State :=
  { st with
    pinger := .next rest
    closes := st.closes ++ [0]
    waiters := st.waiters ++ [st.waiter conf addr .closing]
    pingRecord := st.pingRecord.insert addr.toText st.unix }

section Runs

variable {conf : DeviceConfig w} {R L : ℕ} {init st st' : State}

/-- A step in which all goes well. -/
theorem reachable_tail {l : Label} (h : Reachable (healthyStep conf R L) init st)
    (hfails : fails st l = false) (hstep : step conf st l = some st')
    (hprompt : st'.prompt conf R L) : Reachable (healthyStep conf R L) init st' :=
  h.tail (healthyStep_eq_some_iff.2 ⟨hfails, hstep, hprompt⟩)

/-- The time at which a ping is sent. -/
theorem pinged_waiter (st : State) (addr : Addr) (place : Place) :
    (st.waiter conf addr place).pinged conf = st.clock := by
  rw [Waiter.pinged, State.waiter, readDeadline, add_sub_cancel_right]

/-- Pings that are sent now are not late. -/
theorem prompt_append {pinger : Pinger} {closes : List ℕ} {record : PingRecord} {g : Waiter}
    (hprompt : st.prompt conf R L) (hschedule : st.schedule = some st.due)
    (hpinger : State.schedule { st with pinger := pinger } = some st.due)
    (hg : g.pinged conf = st.clock) :
    State.prompt conf R L
      { st with pinger, closes, waiters := st.waiters ++ [g], pingRecord := record } := by
  rw [prompt_iff] at hprompt ⊢
  refine ⟨fun t ht => hprompt.1 t ?_, fun x hx => ?_⟩
  · rw [hschedule]
    exact hpinger.symm.trans ht
  · rcases List.mem_append.1 hx with hx | hx
    · exact hprompt.2 x hx
    · rw [List.mem_singleton.1 hx, hg]
      right
      change (st.clock : ℤ) ≤ st.clock + L
      omega

/-- A ping is sent. -/
theorem reachable_asked {addr : Addr} {rest : List Addr}
    (h : Reachable (healthyStep conf R L) init st) (hprompt : st.prompt conf R L)
    (hpinger : st.pinger = .next (addr :: rest)) (haddr : addr ≠ .zero) :
    Reachable (healthyStep conf R L) init (st.asked conf addr rest) ∧
      (st.asked conf addr rest).prompt conf R L := by
  have hschedule : st.schedule = some st.due := by rw [State.schedule, hpinger]
  -- before the write the waiters are the same
  have hbefore : ∀ (pinger : Pinger) (closes : List ℕ),
      State.schedule { st with pinger := pinger } = some st.due →
      State.prompt conf R L { st with pinger := pinger, closes := closes } := by
    intro pinger closes hpinger
    rw [prompt_iff] at hprompt ⊢
    exact ⟨fun t ht => hprompt.1 t (hschedule.trans (hpinger.symm.trans ht)), hprompt.2⟩
  have hasked : (st.asked conf addr rest).prompt conf R L :=
    prompt_append hprompt hschedule rfl (pinged_waiter st addr .reading)
  have hdial := reachable_tail (l := .dial true) h rfl (by rw [step, hpinger]; rfl)
    (hbefore (.dialled addr st.closes.length rest) (st.closes ++ [0]) rfl)
  have hdeadline := reachable_tail (l := .setReadDeadline true) hdial rfl
    (by simp only [step, haddr, ne_eq, not_false_eq_true, and_self, if_true]; rfl)
    (hbefore (.ready addr st.closes.length (readDeadline conf st.clock) rest) (st.closes ++ [0])
      rfl)
  have hwrite := reachable_tail (l := .write true plainEcho) hdeadline rfl
    (by simp only [step, drawn_plainEcho, not_true_eq_false, if_false, if_true]; rfl) hasked
  exact ⟨hwrite, hasked⟩

/-- A ping is sent and answered at once. -/
theorem reachable_answered {addr : Addr} {rest : List Addr}
    (h : Reachable (healthyStep conf R L) init st) (hprompt : st.prompt conf R L)
    (hpinger : st.pinger = .next (addr :: rest)) (haddr : addr ≠ .zero) :
    Reachable (healthyStep conf R L) init (st.answered conf addr rest) ∧
      (st.answered conf addr rest).prompt conf R L := by
  have hschedule : st.schedule = some st.due := by rw [State.schedule, hpinger]
  obtain ⟨hasked, -⟩ := reachable_asked h hprompt hpinger haddr
  have hget : ∀ place, (st.waiters ++ [st.waiter conf addr place])[st.waiters.length]? =
      some (st.waiter conf addr place) := fun place => List.getElem?_concat_length
  have hcheck : checkReply (st.waiter conf addr .reading).addr
      (st.waiter conf addr .reading).request (some (answerTo addr)) = some true :=
    checkReply_answerTo haddr
  have hreply : Reachable (healthyStep conf R L) init { st.asked conf addr rest with
      waiters := st.waiters ++ [st.waiter conf addr .verified] } := by
    refine reachable_tail (l := .reply st.waiters.length (some (answerTo addr))) hasked ?_ ?_
      (prompt_append hprompt hschedule rfl (pinged_waiter st addr .verified))
    · simp only [fails, State.asked, hget, Option.any_some, hcheck]
      rfl
    · simp only [step, State.asked, hget, hcheck, Option.map_some, if_true, State.moveTo,
        modify_concat]
      rfl
  have hanswered : (st.answered conf addr rest).prompt conf R L :=
    prompt_append hprompt hschedule rfl (pinged_waiter st addr .closing)
  refine ⟨reachable_tail (l := .record st.waiters.length) hreply rfl ?_ hanswered, hanswered⟩
  simp only [step, State.asked, hget, State.moveTo, modify_concat]
  rfl

/-- A round in which every ping is answered at once. -/
theorem exists_answered {rest : List Addr} (h : Reachable (healthyStep conf R L) init st)
    (hprompt : st.prompt conf R L) (hpinger : st.pinger = .next rest) (hzero : .zero ∉ rest)
    (hdone : ∀ g ∈ st.waiters, g.done) :
    ∃ st', Reachable (healthyStep conf R L) init st' ∧ st'.pinger = .next [] ∧
      st'.clock = st.clock ∧ st'.due = st.due ∧ (∀ g ∈ st'.waiters, g.done) ∧
      (∀ addr ∈ rest, st'.pingRecord.lookup addr.toText = some st.unix) ∧
      ∀ key, st'.pingRecord.lookup key = some st.unix ∨
        st'.pingRecord.lookup key = st.pingRecord.lookup key := by
  induction rest generalizing st with
  | nil =>
    exact ⟨st, h, hpinger, rfl, rfl, hdone, fun addr haddr => absurd haddr List.not_mem_nil,
      fun key => .inr rfl⟩
  | cons addr rest ih =>
    rw [List.mem_cons, not_or] at hzero
    obtain ⟨haddr, hrest⟩ := hzero
    obtain ⟨hreach, hprompt'⟩ := reachable_answered h hprompt hpinger (Ne.symm haddr)
    have hdone' : ∀ g ∈ (st.answered conf addr rest).waiters, g.done := by
      intro g hg
      rcases List.mem_append.1 hg with hg | hg
      · exact hdone g hg
      · rw [List.mem_singleton.1 hg]
        rfl
    obtain ⟨st', hreach', hpinger', hclock, hdue, hdone'', hlookup, hrecord⟩ :=
      ih hreach hprompt' rfl hrest hdone'
    have hlookup' : (st.answered conf addr rest).pingRecord.lookup addr.toText = some st.unix :=
      AList.lookup_insert _
    refine ⟨st', hreach', hpinger', hclock, hdue, hdone'', fun a ha => ?_, fun key => ?_⟩
    · rcases List.mem_cons.1 ha with rfl | ha
      · exact (hrecord _).elim id fun heq => heq.trans hlookup'
      · exact hlookup a ha
    · rcases hrecord key with hnow | hsame
      · exact .inl hnow
      · by_cases hkey : key = addr.toText
        · rw [hkey] at hsame ⊢
          exact .inl (hsame.trans hlookup')
        · exact .inr (hsame.trans (AList.lookup_insert_ne hkey))

/-- A round in which no ping is answered yet. -/
theorem exists_asked {rest : List Addr} (h : Reachable (healthyStep conf R L) init st)
    (hprompt : st.prompt conf R L) (hpinger : st.pinger = .next rest) (hzero : .zero ∉ rest)
    (hwaiters : ∀ g ∈ st.waiters, g.done ∨ g.pinged conf = st.clock) :
    ∃ st', Reachable (healthyStep conf R L) init st' ∧ st'.pinger = .next [] ∧
      st'.clock = st.clock ∧ st'.due = st.due ∧ st'.pingRecord = st.pingRecord ∧
      ∀ g ∈ st'.waiters, g.done ∨ g.pinged conf = st.clock := by
  induction rest generalizing st with
  | nil => exact ⟨st, h, hpinger, rfl, rfl, rfl, hwaiters⟩
  | cons addr rest ih =>
    rw [List.mem_cons, not_or] at hzero
    obtain ⟨haddr, hrest⟩ := hzero
    obtain ⟨hreach, hprompt'⟩ := reachable_asked h hprompt hpinger (Ne.symm haddr)
    have hwaiters' : ∀ g ∈ (st.asked conf addr rest).waiters,
        g.done ∨ g.pinged conf = (st.asked conf addr rest).clock := by
      intro g hg
      rcases List.mem_append.1 hg with hg | hg
      · exact hwaiters g hg
      · rw [List.mem_singleton.1 hg]
        exact .inr (pinged_waiter st addr .reading)
    obtain ⟨st', hst'⟩ := ih hreach hprompt' rfl hrest hwaiters'
    exact ⟨st', hst'⟩

/-! ## A late run -/

/-- A round that has ended is followed by the next one, both `R` behind the schedule. -/
theorem exists_nextRound {J : ℕ} (hJ : (J : ℤ) = pingInterval conf)
    (h : Reachable (healthyStep conf R L) init st) (hpinger : st.pinger = .next [])
    (hclock : (st.clock : ℤ) = st.due) (hdone : ∀ g ∈ st.waiters, g.done) :
    ∃ st', Reachable (healthyStep conf R L) init st' ∧ st'.prompt conf R L ∧
      st'.pinger = .next conf.checkAlive ∧ st'.clock = st.clock + R + J + R ∧
      st'.pingRecord = st.pingRecord ∧ ∀ g ∈ st'.waiters, g.done := by
  have hprompt : ∀ (pinger : Pinger) (due : ℤ) (clock : ℕ),
      (∀ t, State.schedule { st with pinger := pinger, due := due } = some t → clock ≤ t + R) →
      State.prompt conf R L { st with pinger := pinger, due := due, clock := clock } :=
    fun pinger due clock hle => prompt_iff.2 ⟨hle, fun g hg => .inl (hdone g hg)⟩
  have hadvance : Reachable (healthyStep conf R L) init
      { st with pinger := .next [], due := st.due, clock := st.clock + R } := by
    refine reachable_tail (l := .advance R) h rfl (by rw [step, ← hpinger]) (hprompt _ _ _ ?_)
    rintro t ⟨⟩
    push_cast
    omega
  have hsleep := reachable_tail (l := .sleep) hadvance rfl rfl
    (hprompt (.sleeping (↑(st.clock + R) + pingInterval conf)) st.due (st.clock + R) (by
      rintro t ⟨⟩
      omega))
  have hslept := reachable_tail (l := .advance J) hsleep rfl rfl
    (hprompt (.sleeping (↑(st.clock + R) + pingInterval conf)) st.due (st.clock + R + J) (by
      rintro t ⟨⟩
      push_cast
      omega))
  have hwake := reachable_tail (l := .wake) hslept rfl (if_pos (by
      change ((st.clock + R : ℕ) : ℤ) + pingInterval conf ≤ (st.clock + R + J : ℕ)
      push_cast
      omega))
    (hprompt (.next conf.checkAlive) (↑(st.clock + R) + pingInterval conf) (st.clock + R + J) (by
      rintro t ⟨⟩
      push_cast
      omega))
  have hlast := hprompt (.next conf.checkAlive) (↑(st.clock + R) + pingInterval conf)
    (st.clock + R + J + R) (by
      rintro t ⟨⟩
      push_cast
      omega)
  exact ⟨_, reachable_tail (l := .advance R) hwake rfl rfl hlast, hlast, rfl, rfl, rfl, hdone⟩

/-- Where the delays are too large, there is a run in which the record is too old. -/
theorem not_alwaysReady (hfits : IntervalFits conf) (htwo : 2 ≤ conf.checkAliveInterval.toInt)
    (hne : conf.checkAlive ≠ []) (hzero : .zero ∉ conf.checkAlive)
    (hlt : second + 1 < 2 * R + L) : ¬AlwaysReady conf R L := by
  have hsleep := (intervalExact_iff.2 hfits).sleep_eq
  obtain ⟨J, hJ⟩ : ∃ J : ℕ, pingInterval conf = J :=
    Int.eq_ofNat_of_zero_le (by omega)
  -- the first round begins in the last nanosecond of a second
  have hstart : Reachable (healthyStep conf R L) (State.init (2 * second - 1))
      (State.started conf (2 * second - 1)) := by
    refine reachable_tail (l := .start) ⟨[], rfl⟩ rfl rfl (prompt_iff.2 ⟨?_, ?_⟩)
    · rintro t ⟨⟩
      exact le_add_of_nonneg_right (Int.natCast_nonneg R)
    · intro g hg
      cases hg
  have hprompt := (healthy_of_reachable (hJ ▸ Int.natCast_nonneg J) hzero hstart).2.2
  obtain ⟨st₁, hreach₁, hpinger₁, hclock₁, hdue₁, hdone₁, hlookup, hrecord⟩ :=
    exists_answered hstart hprompt rfl hzero fun g hg => absurd hg List.not_mem_nil
  obtain ⟨st₂, hreach₂, hprompt₂, hpinger₂, hclock₂, hrecord₂, hdone₂⟩ :=
    exists_nextRound hJ.symm hreach₁ hpinger₁ (by rw [hclock₁, hdue₁]; rfl) hdone₁
  obtain ⟨st₃, hreach₃, hpinger₃, hclock₃, hdue₃, hrecord₃, hwaiters₃⟩ :=
    exists_asked hreach₂ hprompt₂ hpinger₂ hzero fun g hg => .inl (hdone₂ g hg)
  -- time passes until the replies are due
  have hlate : ∀ d : ℕ, d ≤ L → d ≤ J → State.prompt conf R L
      { st₃ with pinger := .sleeping (st₃.clock + pingInterval conf), clock := st₃.clock + d } := by
    intro d hdL hdJ
    refine prompt_iff.2 ⟨?_, fun g hg => (hwaiters₃ g hg).imp_right fun hpinged => ?_⟩
    · rintro t ⟨⟩
      push_cast
      omega
    · rw [hpinged]
      push_cast
      omega
  have hsleeping := reachable_tail (l := .sleep) hreach₃ rfl (by rw [step, if_pos hpinger₃]; rfl)
    (hlate 0 (Nat.zero_le _) (Nat.zero_le _))
  have hreach := reachable_tail (l := .advance (min L J)) hsleeping rfl rfl
    (hlate (min L J) (min_le_left _ _) (min_le_right _ _))
  -- all the replies that are recorded are those of the first round
  have hunix : (State.started conf (2 * second - 1)).unix = 1 :=
    show (2 * second - 1) / second = 1 by decide
  have hvalue : ∀ key v, st₃.pingRecord.lookup key = some v → v = 1 := by
    intro key v hv
    rw [hrecord₃, hrecord₂] at hv
    rcases hrecord key with hnow | hsame
    · rw [hnow, hunix, Option.some.injEq] at hv
      exact hv.symm
    · rw [hsame, State.started, lookup_startRecord] at hv
      split at hv
      · rename_i hkey
        obtain ⟨addr, haddr, rfl⟩ := hkey
        rw [hlookup addr haddr, hunix, State.started, lookup_startRecord, if_pos ⟨addr, haddr, rfl⟩,
          Option.some.injEq] at hsame
        cases hsame
      · rw [AList.lookup_empty] at hv
        cases hv
  intro hready
  have h200 := hready _ _ hreach fun key v hv => by
    rw [hvalue key v hv]
    exact one_ne_zero
  obtain ⟨addr, haddr⟩ := List.exists_mem_of_ne_nil _ hne
  have hfirst : st₃.pingRecord.lookup addr.toText = some 1 := by
    rw [hrecord₃, hrecord₂, hlookup addr haddr, hunix]
  have hage := (readyzStatus_eq_iff _ _).1 h200 addr.toText 1 hfirst
  rw [since_le_iff (noOverflow_of_fits hfits)] at hage
  have hsecond : (second : ℤ) = 10 ^ 9 := rfl
  have hclock : (st₁.clock : ℤ) = 2 * 10 ^ 9 - 1 := by
    rw [hclock₁]
    rfl
  rw [hclock₃, hclock₂, hsecond] at hage
  push_cast at hage
  rw [show second = 10 ^ 9 from rfl] at hlt
  omega

end Runs

/-- **What `/readyz` allows for.** The interval is at least two seconds, and fits. Then the answer
for peers that answer every ping is always 200, once each of them has answered, iff twice the delay
of the pinger and the delay of a reply are together at most one second (and a nanosecond). Of the
two seconds that the code adds to the interval, the other one is lost when the time of a reply is
cut down to a second. -/
theorem alwaysReady_iff {conf : DeviceConfig w} (hfits : IntervalFits conf)
    (htwo : 2 ≤ conf.checkAliveInterval.toInt) (hne : conf.checkAlive ≠ [])
    (hzero : .zero ∉ conf.checkAlive) (R L : ℕ) :
    AlwaysReady conf R L ↔ 2 * R + L ≤ second + 1 := by
  refine ⟨fun hready => ?_, alwaysReady_of_le hfits htwo hzero⟩
  by_contra hnot
  exact not_alwaysReady hfits htwo hne hzero (not_le.1 hnot) hready

/-- With an interval of five seconds, replies within a second are in time, and replies within one
and a half seconds are not. -/
theorem alwaysReady_iff_fiveSeconds :
    AlwaysReady checkedTwice 0 second ∧ ¬AlwaysReady checkedTwice 0 (3 * second / 2) := by
  have hiff : ∀ L, AlwaysReady checkedTwice 0 L ↔ 2 * 0 + L ≤ second + 1 :=
    alwaysReady_iff ⟨by decide, by decide, by decide⟩ (by decide) (by decide) (by decide) 0
  exact ⟨(hiff _).2 (by decide), mt (hiff _).1 (by decide)⟩

end WireProxy.Health.Rounds
