import WireProxy.Health.Leeway

/-!
# Who reads and writes the record

The goroutines of the pings write `PingRecord` under `PingRecordLock`. `ServeHTTP` reads it twice
for a request to `/readyz`, in `json.Marshal` and in its own loop, and does not take the lock. A map
that is read while it is written can end a Go program.

* `step` refines `Rounds.step` (`refines_step`): a write takes several steps under the lock, and a
  request reads in several steps without it.
* `race_iff`: a read and a write can go on at the same time iff there is an address to ping.
-/

namespace WireProxy.Health.Access

open Text Go Netip Config Transition

variable {w : IntSize}

/-! ## The system -/

/-- The place of a request to `/readyz`. -/
inductive Serving
  | arrived
  /-- In `json.Marshal(d.PingRecord)`. -/
  | marshalling
  | marshalled
  /-- In the loop over `d.PingRecord`. -/
  | ranging
  | answered
  deriving DecidableEq

/-- A request goes on. -/
def Serving.next : Serving → Option Serving
  | .arrived => some .marshalling
  | .marshalling => some .marshalled
  | .marshalled => some .ranging
  | .ranging => some .answered
  | .answered => none

/-- The request reads the record. -/
def Serving.reads : Serving → Bool
  | .marshalling => true
  | .ranging => true
  | _ => false

/-- The place of the goroutine that holds `PingRecordLock`. -/
inductive Holding
  | locked
  /-- In the assignment to `d.PingRecord`. -/
  | writing
  | written
  deriving DecidableEq

/-- The state of the pings and the requests. -/
structure State where
  rounds : Rounds.State
  /-- The goroutine that holds the lock. -/
  holder : Option (ℕ × Holding)
  requests : List Serving

/-- The state before the start. -/
def State.init (clock : ℕ) : State := ⟨Rounds.State.init clock, none, []⟩

/-- The steps of the system. -/
inductive Label
  /-- A step of the pings that is not taken apart here. -/
  | other (l : Rounds.Label)
  /-- A goroutine with a valid reply takes the lock. -/
  | lock (i : ℕ)
  /-- The goroutine that holds the lock goes on. -/
  | holder
  /-- A request arrives. -/
  | request
  /-- A request goes on. -/
  | serve (k : ℕ)
  deriving DecidableEq

/-- The steps of the pings that are taken apart, or that the holder of the lock does not take. -/
def State.excludes (st : State) : Rounds.Label → Bool
  | .record _ => true
  | .request => true
  | .close i => st.holder.any fun h => h.1 = i
  | _ => false

/-- The step of a label, if it is enabled. -/
def step (conf : DeviceConfig w) (st : State) : Label → Option State
  | .other l =>
    if st.excludes l then none
    else (Rounds.step conf st.rounds l).map fun rounds => { st with rounds := rounds }
  | .lock i =>
    if st.holder = none ∧ st.rounds.waiters[i]?.any fun g => g.place = .verified then
      some { st with holder := some (i, .locked) }
    else none
  | .holder =>
    match st.holder with
    | some (i, .locked) =>
      (Rounds.step conf st.rounds (.record i)).map fun rounds =>
        { st with rounds := rounds, holder := some (i, .writing) }
    | some (i, .writing) => some { st with holder := some (i, .written) }
    | some (_, .written) => some { st with holder := none }
    | none => none
  | .request =>
    -- the server is started after `StartPingIPs`
    if st.rounds.pinger = .unstarted then none
    else some { st with requests := st.requests ++ [.arrived] }
  | .serve k =>
    match st.requests[k]? with
    | some r => r.next.map fun r' => { st with requests := st.requests.set k r' }
    | none => none

/-- The record is written and read at the same time. -/
def State.Race (st : State) : Prop :=
  (∃ i, st.holder = some (i, .writing)) ∧ ∃ r ∈ st.requests, r.reads

/-! ## What a step can do -/

section Steps

variable {conf : DeviceConfig w} {st st' : State} {l : Label}

/-- A step is one of the pings, or leaves them as they are. A goroutine that takes the lock is one
of theirs. -/
theorem refines_step (hstep : step conf st l = some st') :
    (st'.rounds = st.rounds ∨ ∃ l', Rounds.step conf st.rounds l' = some st'.rounds) ∧
      ∀ i h, st'.holder = some (i, h) →
        (∃ h', st.holder = some (i, h')) ∨ i < st.rounds.waiters.length := by
  cases l with
  | other l =>
    rw [step, Option.ite_none_left_eq_some, Option.map_eq_some_iff] at hstep
    obtain ⟨-, rounds, hrounds, rfl⟩ := hstep
    exact ⟨.inr ⟨l, hrounds⟩, fun i h hi => .inl ⟨h, hi⟩⟩
  | lock i =>
    rw [step, Option.ite_none_right_eq_some] at hstep
    obtain ⟨⟨-, hverified⟩, ⟨⟩⟩ := hstep
    refine ⟨.inl rfl, ?_⟩
    rintro j h ⟨⟩
    obtain ⟨g, hg, -⟩ := (Option.any_eq_true _ _).1 hverified
    exact .inr (List.getElem?_eq_some_iff.1 hg).1
  | holder =>
    rw [step] at hstep
    split at hstep
    · rename_i i hholder
      obtain ⟨rounds, hrounds, rfl⟩ := Option.map_eq_some_iff.1 hstep
      refine ⟨.inr ⟨.record i, hrounds⟩, ?_⟩
      rintro j h ⟨⟩
      exact .inl ⟨_, hholder⟩
    · rename_i i hholder
      cases hstep
      refine ⟨.inl rfl, ?_⟩
      rintro j h ⟨⟩
      exact .inl ⟨_, hholder⟩
    · cases hstep
      refine ⟨.inl rfl, ?_⟩
      rintro j h ⟨⟩
    · cases hstep
  | request =>
    rw [step, Option.ite_none_left_eq_some] at hstep
    obtain ⟨-, ⟨⟩⟩ := hstep
    exact ⟨.inl rfl, fun i h hi => .inl ⟨h, hi⟩⟩
  | serve k =>
    rw [step] at hstep
    split at hstep
    · obtain ⟨r, -, rfl⟩ := Option.map_eq_some_iff.1 hstep
      exact ⟨.inl rfl, fun i h hi => .inl ⟨h, hi⟩⟩
    · cases hstep

theorem reachable_rounds {clock : ℕ} (h : Reachable (step conf) (State.init clock) st) :
    Reachable (Rounds.step conf) (Rounds.State.init clock) st.rounds := by
  refine h.invariant
    (I := fun st => Reachable (Rounds.step conf) (Rounds.State.init clock) st.rounds) ⟨[], rfl⟩ ?_
  intro st l st' hreach hstep
  rcases (refines_step hstep).1 with heq | ⟨l', hl'⟩
  · rwa [heq]
  · exact hreach.tail hl'

/-! ## Without an address there is no write -/

/-- The pings are to valid addresses, and none of them is forgotten. -/
theorem pings_of_step {r r' : Rounds.State} {l : Rounds.Label} (hvalid : r.pinger.Valid)
    (hstep : Rounds.step conf r l = some r') : r'.pings conf = r.pings conf ∨
      ∃ addr t, addr ≠ .zero ∧ r'.pings conf = r.pings conf ++ [(addr, t)] := by
  cases Rounds.effect_of_step hstep with
  | @sent request addr s deadline rest hpinger =>
    rw [hpinger] at hvalid
    refine .inr ⟨addr, deadline - pingInterval conf, hvalid, ?_⟩
    rw [Rounds.State.pings, List.map_append]
    rfl
  | reply | readFailed => exact .inl (Rounds.pings_moveTo ..)
  | @record i g hg hplace => exact .inl (Rounds.pings_moveTo r i .closing)
  | @close i g hg hplace => exact .inl (Rounds.pings_moveTo r i .ended)
  | _ => exact .inl rfl

/-- The invariant of the writes. -/
structure Writes (conf : DeviceConfig w) (st : State) : Prop where
  valid : st.rounds.pinger.Valid
  addr_ne : ∀ p ∈ st.rounds.pings conf, p.1 ≠ .zero
  holder_lt : ∀ i h, st.holder = some (i, h) → i < (st.rounds.pings conf).length

theorem writes_init (conf : DeviceConfig w) (clock : ℕ) : Writes conf (State.init clock) where
  valid := trivial
  addr_ne _ hp := by cases hp
  holder_lt _ _ h := by cases h

theorem writes_step (h : Writes conf st) (hstep : step conf st l = some st') : Writes conf st' := by
  obtain ⟨hrounds, hholder⟩ := refines_step hstep
  have hlt : ∀ i hi, st'.holder = some (i, hi) → i < (st.rounds.pings conf).length := by
    intro i hi heq
    rcases hholder i hi heq with ⟨hi', heq'⟩ | hlt
    · exact h.holder_lt i hi' heq'
    · rwa [Rounds.State.pings, List.length_map]
  rcases hrounds with heq | ⟨l', hl'⟩
  · refine ⟨?_, ?_, ?_⟩ <;> rw [heq]
    · exact h.valid
    · exact h.addr_ne
    · exact hlt
  · have hvalid := Rounds.valid_step h.valid hl'
    rcases pings_of_step h.valid hl' with heq | ⟨addr, t, haddr, heq⟩
    · exact ⟨hvalid, heq ▸ h.addr_ne, heq ▸ hlt⟩
    · refine ⟨hvalid, fun p hp => ?_, fun i hi hheld => ?_⟩ <;> rw [heq] at *
      · rcases List.mem_append.1 hp with hp | hp
        · exact h.addr_ne p hp
        · rw [List.mem_singleton.1 hp]
          exact haddr
      · rw [List.length_append]
        exact Nat.lt_add_right _ (hlt i hi hheld)

/-- A goroutine that holds the lock has pinged a valid address. -/
theorem exists_addr_of_holder {clock i : ℕ} {h : Holding}
    (hreach : Reachable (step conf) (State.init clock) st) (hholder : st.holder = some (i, h)) :
    ∃ addr ∈ conf.checkAlive, addr ≠ .zero := by
  have writes : Writes conf st :=
    hreach.invariant (writes_init conf clock) fun _ _ _ => writes_step
  obtain ⟨history, rec⟩ := Rounds.exists_recorded (reachable_rounds hreach)
  have hmem := List.getElem_mem (writes.holder_lt i h hholder)
  obtain ⟨g, hg, heq⟩ := Rounds.mem_pings_iff.1 hmem
  refine ⟨g.addr, rec.pings_mem g.ping (List.mem_map_of_mem hg), ?_⟩
  have hne := writes.addr_ne _ hmem
  rwa [← heq] at hne

/-! ## With an address there is a race -/

/-- The addresses in front of one are skipped. -/
theorem reachable_skip {init : State} {front rest : List Addr}
    (h : Reachable (step conf) init st) (hpinger : st.rounds.pinger = .next (front ++ rest)) :
    Reachable (step conf) init { st with rounds := st.rounds.goOn (.next rest) } := by
  induction front generalizing st with
  | nil =>
    have hsame : st.rounds.goOn (.next rest) = st.rounds := by
      rw [Rounds.State.goOn, ← List.nil_append rest, ← hpinger]
    rwa [hsame]
  | cons addr front ih =>
    have hskip : step conf st (.other (.dial false)) =
        some { st with rounds := st.rounds.goOn (.next (front ++ rest)) } := by
      simp only [step, Rounds.step, hpinger, List.cons_append]
      rfl
    have hrest := ih (h.tail hskip) rfl
    exact hrest

/-- A ping is sent. -/
theorem reachable_asked {init : State} {addr : Addr} {rest : List Addr}
    (h : Reachable (step conf) init st) (hpinger : st.rounds.pinger = .next (addr :: rest))
    (hne : addr ≠ .zero) :
    Reachable (step conf) init { st with rounds := st.rounds.asked conf addr rest } := by
  have hdial : step conf st (.other (.dial true)) = some { st with rounds :=
      { st.rounds with
        pinger := .dialled addr st.rounds.closes.length rest
        closes := st.rounds.closes ++ [0] } } := by
    simp only [step, Rounds.step, hpinger]
    rfl
  have hdeadline := (h.tail hdial).tail (l := .other (.setReadDeadline true)) (by
    simp only [step, Rounds.step, hne, ne_eq, not_false_eq_true, and_self, if_true]
    rfl)
  exact hdeadline.tail (l := .other (.write true Rounds.plainEcho)) (by
    simp only [step, Rounds.step, Rounds.State.goOn, Rounds.drawn_plainEcho, not_true_eq_false,
      if_false, if_true]
    rfl)

/-- A valid reply is written while a request reads. -/
theorem exists_race {addr : Addr} (haddr : addr ∈ conf.checkAlive) (hne : addr ≠ .zero)
    (clock : ℕ) : ∃ st, Reachable (step conf) (State.init clock) st ∧ st.Race := by
  obtain ⟨front, rest, hsplit⟩ := List.append_of_mem haddr
  have hstart : Reachable (step conf) (State.init clock) ⟨.started conf clock, none, []⟩ :=
    Reachable.tail (l := .other .start) ⟨[], rfl⟩ rfl
  have hfront : (Rounds.State.started conf clock).pinger = .next (front ++ addr :: rest) := by
    rw [Rounds.State.started, hsplit]
  have hasked := reachable_asked (reachable_skip hstart hfront) rfl hne
  generalize hr : Rounds.State.asked conf _ addr rest = r at hasked
  have hpinger : r.pinger = .next rest := by rw [← hr]; rfl
  obtain ⟨g, hg, hg_addr, hg_request, hg_place⟩ : ∃ g, r.waiters[0]? = some g ∧ g.addr = addr ∧
      g.request = Rounds.plainEcho ∧ g.place = .reading := by
    rw [← hr]
    exact ⟨_, rfl, rfl, rfl, rfl⟩
  have hreply : step conf ⟨r, none, []⟩ (.other (.reply 0 (some (Rounds.answerTo addr)))) =
      some ⟨r.moveTo 0 .verified, none, []⟩ := by
    have hcheck := Rounds.checkReply_answerTo hne
    simp only [step, State.excludes, Rounds.step, hg, hg_place, hg_addr, hg_request, hcheck,
      if_true, Option.map_some]
    rfl
  have hverified : (r.moveTo 0 .verified).waiters[0]? = some { g with place := .verified } := by
    rw [Rounds.State.moveTo, List.getElem?_modify, hg]
    rfl
  have hlock : step conf ⟨r.moveTo 0 .verified, none, []⟩ (.lock 0) =
      some ⟨r.moveTo 0 .verified, some (0, .locked), []⟩ := by
    simp only [step, hverified]
    rfl
  obtain ⟨r', hrecord, hpinger'⟩ : ∃ r', Rounds.step conf (r.moveTo 0 .verified) (.record 0) =
      some r' ∧ r'.pinger = .next rest := by
    refine ⟨{ (r.moveTo 0 .verified).moveTo 0 .closing with
      pingRecord := (r.moveTo 0 .verified).pingRecord.insert g.addr.toText
        (r.moveTo 0 .verified).unix }, ?_, hpinger⟩
    rw [Rounds.step, hverified]
    rfl
  -- the assignment begins, and a request comes in
  have hwriting : step conf ⟨r.moveTo 0 .verified, some (0, .locked), []⟩ .holder =
      some ⟨r', some (0, .writing), []⟩ := by
    simp only [step, hrecord, Option.map_some]
  have hrequest : step conf ⟨r', some (0, .writing), []⟩ .request =
      some ⟨r', some (0, .writing), [.arrived]⟩ := by
    simp only [step, hpinger', reduceCtorEq, if_false, List.nil_append]
  have hreading : step conf ⟨r', some (0, .writing), [.arrived]⟩ (.serve 0) =
      some ⟨r', some (0, .writing), [.marshalling]⟩ := rfl
  exact ⟨_, ((((hasked.tail hreply).tail hlock).tail hwriting).tail hrequest).tail hreading,
    ⟨0, rfl⟩, .marshalling, List.mem_singleton_self _, rfl⟩

end Steps

/-- **The record is read and written at the same time** in some run iff there is an address to ping:
the lock keeps the writes apart, but the reads of `/readyz` do not take it. -/
theorem race_iff (conf : DeviceConfig w) (clock : ℕ) :
    (∃ st, Reachable (step conf) (State.init clock) st ∧ st.Race) ↔
      ∃ addr ∈ conf.checkAlive, addr ≠ .zero := by
  constructor
  · rintro ⟨st, hreach, ⟨i, hwriting⟩, -⟩
    exact exists_addr_of_holder hreach hwriting
  · rintro ⟨addr, haddr, hne⟩
    exact exists_race haddr hne clock

end WireProxy.Health.Access
