import WireProxy.Foundations.Transition.Handles
import WireProxy.Health.Rounds

/-!
# Peers that answer

When does `/readyz` answer 200 for peers that answer all pings? The code allows the interval and two
seconds "to account for the time it takes to ping the IP", but the record has whole seconds only,
so that one of the two seconds can be lost.

* `healthyStep` has the steps in which nothing fails, the pinger is at most `R` behind its schedule
  and a valid reply is recorded within `L`.
* `Visited` is the invariant of the times at which the addresses are pinged, `Noted` that of the
  record.
* `alwaysReady_of_le`: the answer is always 200 if `2 * R + L` is at most a second, up to a
  nanosecond.
-/

namespace WireProxy.Health.Rounds

open Text Go Netip Config Transition

variable {w : IntSize}

/-! ## Steps in which all goes well -/

/-- A call fails, or a reply is not valid. -/
def fails (st : State) : Label → Bool
  | .dial ok => !ok
  | .setReadDeadline ok => !ok
  | .write ok _ => !ok
  | .reply i reply =>
    st.waiters[i]?.any fun g => checkReply g.addr g.request reply = some false
  | .readFailed _ => true
  | _ => false

/-- When a ping was sent: its deadline was set before. -/
def Waiter.pinged (conf : DeviceConfig w) (g : Waiter) : ℤ := g.deadline - pingInterval conf

/-- The goroutine has nothing left to do but to close its socket. -/
def Waiter.done (g : Waiter) : Bool := g.place = .closing ∨ g.place = .ended

/-- When the pinger was due to begin this round, or is due to begin the next one. -/
def State.schedule (st : State) : Option ℤ :=
  match st.pinger with
  | .unstarted => none
  | .sleeping wake => some wake
  | _ => some st.due

/-- The pinger is at most `R` behind its schedule, and no ping is without a reply for more than
`L`. -/
def State.prompt (conf : DeviceConfig w) (R L : ℕ) (st : State) : Bool :=
  (st.schedule.all fun t => (st.clock : ℤ) ≤ t + R) &&
    st.waiters.all fun g => g.done || (st.clock : ℤ) ≤ g.pinged conf + L

/-- The step of a label if nothing fails in it and nothing is late after it. -/
def healthyStep (conf : DeviceConfig w) (R L : ℕ) (st : State) (l : Label) : Option State :=
  if fails st l then none else (step conf st l).filter (State.prompt conf R L)

/-- Once every address has answered, `/readyz` answers 200 from then on. -/
def AlwaysReady (conf : DeviceConfig w) (R L : ℕ) : Prop :=
  ∀ clock st, Reachable (healthyStep conf R L) (State.init clock) st →
    (∀ key v, st.pingRecord.lookup key = some v → v ≠ 0) →
    readyzStatus conf st.pingRecord st.clock = 200

section Healthy

variable {conf : DeviceConfig w} {R L : ℕ} {st st' : State} {l : Label}

theorem prompt_iff : st.prompt conf R L ↔
    (∀ t, st.schedule = some t → (st.clock : ℤ) ≤ t + R) ∧
      ∀ g ∈ st.waiters, g.done ∨ (st.clock : ℤ) ≤ g.pinged conf + L := by
  cases h : st.schedule <;> simp [State.prompt, h]

theorem healthyStep_eq_some_iff : healthyStep conf R L st l = some st' ↔
    fails st l = false ∧ step conf st l = some st' ∧ st'.prompt conf R L := by
  rw [healthyStep, Option.ite_none_left_eq_some, Option.filter_eq_some_iff, Bool.not_eq_true]

/-! ## The times of the pings -/

/-- The addresses that were pinged, with the times. -/
def State.pings (conf : DeviceConfig w) (st : State) : List (Addr × ℤ) :=
  st.waiters.map fun g => (g.addr, g.pinged conf)

/-- In this round every address was pinged but those that are left. -/
def State.PingedBut (conf : DeviceConfig w) (st : State) (rest : List Addr) : Prop :=
  ∃ front, conf.checkAlive = front ++ rest ∧
    ∀ addr ∈ front, ∃ t, (addr, t) ∈ st.pings conf ∧ st.due ≤ t

/-- What the place of the pinger says about the pings. -/
def State.Pinged (conf : DeviceConfig w) (R : ℕ) (st : State) : Pinger → Prop
  | .unstarted => st.pings conf = []
  | .next rest => st.PingedBut conf rest
  | .dialled addr _ rest => st.PingedBut conf (addr :: rest)
  | .ready addr _ deadline rest => st.PingedBut conf (addr :: rest) ∧
    st.due ≤ deadline - pingInterval conf ∧ deadline - pingInterval conf ≤ st.clock
  | .sleeping wake => st.PingedBut conf [] ∧ wake ≤ st.due + R + pingInterval conf ∧
    ∀ p ∈ st.pings conf, p.2 + pingInterval conf ≤ wake

/-- The invariant of the times of the pings. -/
structure Visited (conf : DeviceConfig w) (R : ℕ) (st : State) : Prop where
  due_le : st.due ≤ st.clock
  le_clock : ∀ p ∈ st.pings conf, p.2 ≤ st.clock
  le_due : ∀ p ∈ st.pings conf, p.2 ≤ st.due + R
  /-- This is the first round, or each address was pinged in the round before. -/
  previous : (∀ p ∈ st.pings conf, st.due ≤ p.2) ∨ ∀ addr ∈ conf.checkAlive,
    ∃ t, (addr, t) ∈ st.pings conf ∧ t + pingInterval conf ≤ st.due ∧
      st.due ≤ t + R + pingInterval conf
  pinged : st.Pinged conf R st.pinger

theorem pings_moveTo (st : State) (i : ℕ) (place : Place) :
    (st.moveTo i place).pings conf = st.pings conf := map_moveTo (fun _ _ => rfl) st i place

theorem mem_pings_iff {p : Addr × ℤ} :
    p ∈ st.pings conf ↔ ∃ g ∈ st.waiters, (g.addr, g.pinged conf) = p :=
  List.mem_map

theorem visited_init (conf : DeviceConfig w) (R clock : ℕ) : Visited conf R (State.init clock) where
  due_le := Int.natCast_nonneg clock
  le_clock _ hp := by cases hp
  le_due _ hp := by cases hp
  previous := .inl fun _ hp => by cases hp
  pinged := rfl

/-- A step that leaves the pings, the clock and the round as they are. -/
theorem Visited.of_pings_eq (h : Visited conf R st) (hpings : st'.pings conf = st.pings conf)
    (hclock : st'.clock = st.clock) (hdue : st'.due = st.due)
    (hpinged : st.Pinged conf R st'.pinger) : Visited conf R st' where
  due_le := by
    rw [hdue, hclock]
    exact h.due_le
  le_clock := by
    rw [hpings, hclock]
    exact h.le_clock
  le_due := by
    rw [hpings, hdue]
    exact h.le_due
  previous := by
    rw [hpings, hdue]
    exact h.previous
  pinged := by
    cases hpinger : st'.pinger <;> rw [hpinger] at hpinged <;>
      simpa only [State.Pinged, State.PingedBut, hpings, hclock, hdue] using hpinged

/-- Time passes. -/
theorem Visited.advance (h : Visited conf R st) (d : ℕ) :
    Visited conf R { st with clock := st.clock + d } where
  due_le := by
    have hle := h.due_le
    push_cast
    omega
  le_clock p hp := by
    have hle := h.le_clock p hp
    push_cast
    omega
  le_due := h.le_due
  previous := h.previous
  pinged := by
    have hpinged := h.pinged
    cases hpinger : st.pinger with
    | ready addr s deadline rest =>
      rw [hpinger] at hpinged
      refine ⟨hpinged.1, hpinged.2.1, hpinged.2.2.trans ?_⟩
      push_cast
      omega
    | _ =>
      rw [hpinger] at hpinged
      exact hpinged

/-- A ping is sent. -/
theorem Visited.sent (h : Visited conf R st) {request : Echo} {addr : Addr} {s : ℕ} {deadline : ℤ}
    {rest : List Addr} (hpinger : st.pinger = .ready addr s deadline rest)
    (hprompt : (st.clock : ℤ) ≤ st.due + R) :
    Visited conf R { st with
      pinger := .next rest
      waiters := st.waiters ++ [⟨s, deadline, addr, request, .reading⟩] } := by
  have hpinged := h.pinged
  rw [hpinger] at hpinged
  obtain ⟨⟨front, hfront, hvisited⟩, hdue, hclock⟩ := hpinged
  have hpings : ∀ p, p ∈ State.pings conf { st with
      pinger := .next rest
      waiters := st.waiters ++ [⟨s, deadline, addr, request, .reading⟩] } ↔
      p ∈ st.pings conf ∨ p = (addr, deadline - pingInterval conf) := by
    intro p
    simp only [State.pings, List.map_append, List.mem_append, List.map_singleton,
      List.mem_singleton, Waiter.pinged]
  refine ⟨h.due_le, fun p hp => ?_, fun p hp => ?_, ?_, front ++ [addr], ?_, ?_⟩
  · rcases (hpings p).1 hp with hp | rfl
    · exact h.le_clock p hp
    · exact hclock
  · rcases (hpings p).1 hp with hp | rfl
    · exact h.le_due p hp
    · exact hclock.trans hprompt
  · refine h.previous.imp (fun hfirst p hp => ?_) fun hprevious a ha => ?_
    · rcases (hpings p).1 hp with hp | rfl
      · exact hfirst p hp
      · exact hdue
    · obtain ⟨t, ht, hle⟩ := hprevious a ha
      exact ⟨t, (hpings _).2 (.inl ht), hle⟩
  · rw [hfront, List.append_assoc, List.singleton_append]
  · intro a ha
    rcases List.mem_append.1 ha with ha | ha
    · obtain ⟨t, ht, hle⟩ := hvisited a ha
      exact ⟨t, (hpings _).2 (.inl ht), hle⟩
    · obtain rfl := List.mem_singleton.1 ha
      exact ⟨_, (hpings _).2 (.inr rfl), hdue⟩

/-- The next round begins. -/
theorem Visited.wake (h : Visited conf R st) {wake : ℤ} (hpinger : st.pinger = .sleeping wake)
    (hle : wake ≤ st.clock) (hinterval : 0 ≤ pingInterval conf) :
    Visited conf R { st with pinger := .next conf.checkAlive, due := wake } := by
  have hpinged := h.pinged
  rw [hpinger] at hpinged
  obtain ⟨⟨front, hfront, hvisited⟩, hwake, hpings⟩ := hpinged
  rw [List.append_nil] at hfront
  refine ⟨hle, h.le_clock, fun p hp => ?_, .inr fun addr haddr => ?_, [], rfl, ?_⟩
  · have hp' := hpings p hp
    change p.2 ≤ wake + R
    omega
  · rw [hfront] at haddr
    obtain ⟨t, ht, hdue⟩ := hvisited addr haddr
    refine ⟨t, ht, hpings _ ht, ?_⟩
    change wake ≤ t + R + pingInterval conf
    omega
  · intro addr haddr
    cases haddr

/-- **The addresses are pinged in time**, where the pinger is in time. -/
theorem visited_step (h : Visited conf R st) (hinterval : 0 ≤ pingInterval conf)
    (hprompt : ∀ t, st.schedule = some t → (st.clock : ℤ) ≤ t + R)
    (hfails : fails st l = false) (hzero : .zero ∉ conf.checkAlive)
    (hstep : step conf st l = some st') : Visited conf R st' := by
  have hpinged := h.pinged
  cases effect_of_step hstep with
  | advance d => exact h.advance d
  | start hpinger =>
    rw [hpinger] at hpinged
    refine ⟨le_rfl, h.le_clock, fun p hp => ?_, .inl fun p hp => ?_, [], rfl, ?_⟩
    · exact absurd (hpinged ▸ hp : p ∈ []) List.not_mem_nil
    · exact absurd (hpinged ▸ hp : p ∈ []) List.not_mem_nil
    · intro addr haddr
      cases haddr
  | unreachable hpinger => cases hfails
  | dialled hpinger =>
    rw [hpinger] at hpinged
    exact h.of_pings_eq rfl rfl rfl hpinged
  | refused hpinger hfail =>
    rw [hpinger] at hpinged
    obtain ⟨front, hfront, -⟩ := hpinged
    rcases hfail with rfl | rfl
    · refine absurd ?_ hzero
      rw [hfront]
      exact List.mem_append_right _ List.mem_cons_self
    · cases hfails
  | ready hpinger haddr =>
    rw [hpinger] at hpinged
    refine h.of_pings_eq rfl rfl rfl ⟨hpinged, ?_⟩
    rw [readDeadline, add_sub_cancel_right]
    exact ⟨h.due_le, le_rfl⟩
  | unsent hpinger => cases hfails
  | sent hpinger =>
    exact h.sent hpinger (hprompt st.due (by rw [State.schedule, hpinger]))
  | sleep hpinger =>
    have hle := hprompt st.due (by rw [State.schedule, hpinger])
    rw [hpinger] at hpinged
    refine h.of_pings_eq rfl rfl rfl ⟨hpinged, by omega, fun p hp => ?_⟩
    have hp' := h.le_clock p hp
    omega
  | wake hpinger hle => exact h.wake hpinger hle hinterval
  | reply hg hplace hvalid => exact h.of_pings_eq (pings_moveTo ..) rfl rfl hpinged
  | readFailed hg hplace => cases hfails
  | @record i g hg hplace => exact h.of_pings_eq (pings_moveTo st i .closing) rfl rfl hpinged
  | @close i g hg hplace => exact h.of_pings_eq (pings_moveTo st i .ended) rfl rfl hpinged
  | request hstarted => exact h

/-! ## The record -/

/-- The invariant of the record, for replies that are all valid. -/
structure Noted (conf : DeviceConfig w) (st : State) : Prop where
  /-- What is noted for an address is not older than its pings that are done. -/
  lookup : ∀ g ∈ st.waiters, g.done → ∃ v, st.pingRecord.lookup g.addr.toText = some v ∧
    g.pinged conf < (v + 1) * second
  exists_done : ∀ addr v, st.pingRecord.lookup (Addr.toText addr) = some v → v ≠ 0 →
    ∃ g ∈ st.waiters, g.addr = addr ∧ g.done

theorem noted_init (conf : DeviceConfig w) (clock : ℕ) : Noted conf (State.init clock) where
  lookup _ hg := by cases hg
  exists_done addr v hv := by
    rw [State.init, AList.lookup_empty] at hv
    cases hv

/-- A goroutine moves, and is done after that iff it was before. -/
theorem Noted.moveTo (h : Noted conf st) {i : ℕ} {g : Waiter} {place : Place}
    (hg : st.waiters[i]? = some g) (hdone : { g with place := place }.done = g.done) :
    Noted conf (st.moveTo i place) := by
  obtain ⟨front, back, heq, hmodify⟩ := exists_modify_eq hg
  have hmoved : (st.moveTo i place).waiters = front ++ { g with place := place } :: back :=
    hmodify _
  obtain ⟨hlookup, hexists⟩ := h
  rw [heq] at hlookup hexists
  refine ⟨fun x hx hxdone => ?_, fun addr v hv hne => ?_⟩
  · rw [hmoved, List.mem_append, List.mem_cons] at hx
    rcases hx with hx | rfl | hx
    · exact hlookup x (List.mem_append_left _ hx) hxdone
    · exact hlookup g (List.mem_append_right _ List.mem_cons_self) (hdone ▸ hxdone)
    · exact hlookup x (List.mem_append_right _ (List.mem_cons_of_mem _ hx)) hxdone
  · obtain ⟨x, hx, haddr, hxdone⟩ := hexists addr v hv hne
    rw [List.mem_append, List.mem_cons] at hx
    rw [hmoved]
    rcases hx with hx | rfl | hx
    · exact ⟨x, List.mem_append_left _ hx, haddr, hxdone⟩
    · exact ⟨_, List.mem_append_right _ List.mem_cons_self, haddr, hdone ▸ hxdone⟩
    · exact ⟨x, List.mem_append_right _ (List.mem_cons_of_mem _ hx), haddr, hxdone⟩

/-- A valid reply is recorded. -/
theorem Noted.record (h : Noted conf st) (hclock : ∀ p ∈ st.pings conf, p.2 ≤ st.clock) {i : ℕ}
    {g : Waiter} (hg : st.waiters[i]? = some g) :
    Noted conf { st.moveTo i .closing with
      pingRecord := st.pingRecord.insert g.addr.toText st.unix } := by
  obtain ⟨front, back, heq, hmodify⟩ := exists_modify_eq hg
  have hmoved : (st.moveTo i .closing).waiters = front ++ { g with place := .closing } :: back :=
    hmodify _
  -- a goroutine is one that was there before, or the one that moves
  have hcases : ∀ x ∈ (st.moveTo i .closing).waiters,
      x ∈ st.waiters ∨ x = { g with place := .closing } := by
    intro x hx
    rw [hmoved, List.mem_append, List.mem_cons] at hx
    rw [heq, List.mem_append, List.mem_cons]
    tauto
  have hnow : ∀ x ∈ (st.moveTo i .closing).waiters, x.pinged conf < (st.unix + 1) * second := by
    intro x hx
    have hmem : (x.addr, x.pinged conf) ∈ (st.moveTo i .closing).pings conf :=
      mem_pings_iff.2 ⟨x, hx, rfl⟩
    rw [pings_moveTo] at hmem
    have hle := hclock _ hmem
    have hlt : st.clock < (st.unix + 1) * second := by
      rw [State.unix, mul_comm]
      exact Nat.lt_mul_div_succ _ (by decide)
    exact lt_of_le_of_lt hle (by exact_mod_cast hlt)
  refine ⟨fun x hx hxdone => ?_, fun addr v hv hne => ?_⟩
  · by_cases haddr : x.addr = g.addr
    · refine ⟨st.unix, ?_, hnow x hx⟩
      rw [haddr]
      exact AList.lookup_insert _
    · rcases hcases x hx with hmem | rfl
      · obtain ⟨v, hv, hlt⟩ := h.lookup x hmem hxdone
        refine ⟨v, ?_, hlt⟩
        rw [← hv]
        exact AList.lookup_insert_ne fun htext => haddr (toText_injective htext)
      · exact absurd rfl haddr
  · have hnew : { g with place := .closing } ∈ (st.moveTo i .closing).waiters := by
      rw [hmoved]
      exact List.mem_append_right _ List.mem_cons_self
    by_cases haddr : addr = g.addr
    · exact ⟨_, hnew, haddr.symm, rfl⟩
    · have hv' : st.pingRecord.lookup addr.toText = some v := by
        rw [← hv]
        exact (AList.lookup_insert_ne fun htext => haddr (toText_injective htext)).symm
      obtain ⟨x, hx, hxaddr, hxdone⟩ := h.exists_done addr v hv' hne
      refine ⟨x, ?_, hxaddr, hxdone⟩
      rw [heq, List.mem_append, List.mem_cons] at hx
      change x ∈ (st.moveTo i .closing).waiters
      rw [hmoved, List.mem_append, List.mem_cons]
      refine hx.imp_right (Or.imp_left fun hxg => ?_)
      exact absurd (hxg ▸ hxaddr).symm haddr

/-- **The record keeps up with the pings.** -/
theorem noted_step (h : Noted conf st) (visited : Visited conf R st) (hfails : fails st l = false)
    (hstep : step conf st l = some st') : Noted conf st' := by
  have hsame : ∀ st'' : State, st''.waiters = st.waiters → st''.pingRecord = st.pingRecord →
      Noted conf st'' := by
    intro st'' hwaiters hrecord
    refine ⟨?_, ?_⟩
    · rw [hwaiters, hrecord]
      exact h.lookup
    · rw [hwaiters, hrecord]
      exact h.exists_done
  cases effect_of_step hstep with
  | start hpinger =>
    have hnil := visited.pinged
    rw [hpinger] at hnil
    have hwaiters : st.waiters = [] := List.map_eq_nil_iff.1 hnil
    refine ⟨fun g hg => ?_, fun addr v hv hne => ?_⟩
    · rw [hwaiters] at hg
      cases hg
    · rw [lookup_startRecord] at hv
      split at hv
      · exact absurd (Option.some.inj hv).symm hne
      · exact h.exists_done addr v hv hne
  | @sent request addr s deadline rest hpinger =>
    refine ⟨fun g hg hdone => ?_, fun a v hv hne => ?_⟩
    · rcases List.mem_append.1 hg with hg | hg
      · exact h.lookup g hg hdone
      · rw [List.mem_singleton.1 hg] at hdone
        cases hdone
    · obtain ⟨g, hg, haddr, hdone⟩ := h.exists_done a v hv hne
      exact ⟨g, List.mem_append_left _ hg, haddr, hdone⟩
  | @reply i reply g valid hg hplace hvalid =>
    cases valid with
    | false =>
      rw [fails, hg, Option.any_some, hvalid] at hfails
      cases hfails
    | true => exact h.moveTo hg (by simp [Waiter.done, hplace])
  | readFailed hg hplace => cases hfails
  | record hg hplace => exact h.record visited.le_clock hg
  | @close i g hg hplace =>
    have hmoved : Noted conf (st.moveTo i .ended) := h.moveTo hg (by simp [Waiter.done, hplace])
    exact ⟨hmoved.lookup, hmoved.exists_done⟩
  | _ => exact hsame _ rfl rfl

/-! ## The age of the record -/

theorem Visited.mem_waiters {addr : Addr} {t : ℤ} (hmem : (addr, t) ∈ st.pings conf) :
    ∃ g ∈ st.waiters, g.addr = addr ∧ g.pinged conf = t := by
  obtain ⟨g, hg, heq⟩ := mem_pings_iff.1 hmem
  exact ⟨g, hg, congrArg Prod.fst heq, congrArg Prod.snd heq⟩

/-- An address that has answered has a reply to a ping that is not long ago: the last one or, as
long as that has no reply, the one before. -/
theorem Visited.exists_recent (h : Visited conf R st) (hprompt : st.prompt conf R L)
    (hL : (L : ℤ) < pingInterval conf) {addr : Addr} (haddr : addr ∈ conf.checkAlive)
    (hanswered : ∃ g ∈ st.waiters, g.addr = addr ∧ g.done) :
    ∃ g ∈ st.waiters, g.addr = addr ∧ g.done ∧
      (st.clock : ℤ) ≤ g.pinged conf + pingInterval conf + 2 * R + L := by
  obtain ⟨hschedule, hwaiters⟩ := prompt_iff.1 hprompt
  obtain ⟨g₀, hg₀, haddr₀, hdone₀⟩ := hanswered
  have hmem₀ : (g₀.addr, g₀.pinged conf) ∈ st.pings conf := mem_pings_iff.2 ⟨g₀, hg₀, rfl⟩
  have hdue := h.due_le
  -- a reply to a ping since the round before, if all is done that was to be done in this round
  have hround : (st.clock : ℤ) ≤ st.due + R + L →
      ∃ g ∈ st.waiters, g.addr = addr ∧ g.done ∧
        (st.clock : ℤ) ≤ g.pinged conf + pingInterval conf + 2 * R + L := by
    intro hle
    rcases h.previous with hfirst | hprevious
    · have hfirst₀ := hfirst _ hmem₀
      exact ⟨g₀, hg₀, haddr₀, hdone₀, by omega⟩
    · obtain ⟨t, ht, hbefore, hafter⟩ := hprevious addr haddr
      obtain ⟨g, hg, hgaddr, rfl⟩ := Visited.mem_waiters ht
      rcases hwaiters g hg with hdone | hlate
      · exact ⟨g, hg, hgaddr, hdone, by omega⟩
      · omega
  cases hpinger : st.pinger with
  | unstarted =>
    have hnil := h.pinged
    rw [hpinger] at hnil
    exact absurd (hnil ▸ hmem₀ : _ ∈ []) List.not_mem_nil
  | sleeping wake =>
    have hpinged := h.pinged
    rw [hpinger] at hpinged
    obtain ⟨⟨front, hfront, hvisited⟩, hwake, -⟩ := hpinged
    have hle := hschedule wake (by rw [State.schedule, hpinger])
    rw [List.append_nil] at hfront
    obtain ⟨t, ht, hdue'⟩ := hvisited addr (hfront ▸ haddr)
    have ht' := h.le_due _ ht
    obtain ⟨g, hg, hgaddr, rfl⟩ := Visited.mem_waiters ht
    rcases hwaiters g hg with hdone | hlate
    · exact ⟨g, hg, hgaddr, hdone, by omega⟩
    · exact hround (by omega)
  | _ =>
    have hle := hschedule st.due (by rw [State.schedule, hpinger])
    exact hround (by omega)

/-- The invariants, where all goes well. -/
theorem healthy_of_reachable {clock : ℕ} (hinterval : 0 ≤ pingInterval conf)
    (hzero : .zero ∉ conf.checkAlive)
    (hreach : Reachable (healthyStep conf R L) (State.init clock) st) :
    Visited conf R st ∧ Noted conf st ∧ st.prompt conf R L := by
  refine hreach.invariant (I := fun st => Visited conf R st ∧ Noted conf st ∧ st.prompt conf R L)
    ⟨visited_init conf R clock, noted_init conf clock, rfl⟩ ?_
  rintro st l st' ⟨visited, noted, hprompt⟩ hstep
  obtain ⟨hfails, hstep, hprompt'⟩ := healthyStep_eq_some_iff.1 hstep
  exact ⟨visited_step visited hinterval (prompt_iff.1 hprompt).1 hfails hzero hstep,
    noted_step noted visited hfails hstep, hprompt'⟩

theorem noOverflow_of_fits (hfits : IntervalFits conf) : NoOverflow conf := by
  have hsecond : (second : ℤ) = 10 ^ 9 := rfl
  have hpos := hfits.pos
  refine ⟨hfits.add_lt, ?_, hfits.mul_lt⟩
  rw [hsecond]
  omega

/-- Where the delays are small enough, the record is never too old. -/
theorem alwaysReady_of_le (hfits : IntervalFits conf) (htwo : 2 ≤ conf.checkAliveInterval.toInt)
    (hzero : .zero ∉ conf.checkAlive) (hle : 2 * R + L ≤ second + 1) : AlwaysReady conf R L := by
  intro clock st hreach hanswered
  have hexact := intervalExact_iff.2 hfits
  have hsecond : (second : ℤ) = 10 ^ 9 := rfl
  have hsleep := hexact.sleep_eq
  obtain ⟨visited, noted, hprompt⟩ := healthy_of_reachable hexact.sleep_pos.le hzero hreach
  obtain ⟨history, rec⟩ := exists_recorded (hreach.mono fun _ _ _ hl =>
    (healthyStep_eq_some_iff.1 hl).2.1)
  rw [readyzStatus_eq_iff]
  intro key v hv
  obtain ⟨addr, haddr, rfl⟩ := rec.exists_addr key (AList.lookup_isSome.1 (by
    change (st.pingRecord.lookup key).isSome
    rw [hv]
    rfl))
  obtain ⟨g, hg, rfl, hdone, hrecent⟩ := visited.exists_recent hprompt (by omega) haddr
    (noted.exists_done addr v hv (hanswered _ v hv))
  obtain ⟨v', hv', hlt⟩ := noted.lookup g hg hdone
  obtain rfl : v' = v := Option.some.inj (hv'.symm.trans hv)
  rw [hsecond] at hlt
  rw [since_le_iff (noOverflow_of_fits hfits), hsecond]
  omega

end Healthy

end WireProxy.Health.Rounds
