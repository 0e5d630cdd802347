import WireProxy.Foundations.Transition.Refinement
import WireProxy.Health.Interval

/-!
# The rounds of the pings

`StartPingIPs`, `pingIPs` and the goroutines of the pings once more, call by call: the sockets with
their deadlines, the deferred closes and the sleep between two rounds, where `Health.Ping` has one
step for a ping that is sent and none for the sleep.

* `step` is the transition function and `effect_of_step` says what a step can do.
* `refines_step`: seen through `State.abs`, a step is one of `Health.step` or none. What was proved
  of the record there holds here (`exists_recorded`).
-/

namespace WireProxy.Health.Rounds

open Text Go Netip Config Transition

variable {w : IntSize}

/-! ## The system -/

/-- The place of the goroutine of a ping. -/
inductive Place
  | reading
  /-- With a valid reply, in front of the lock. -/
  | verified
  /-- At the deferred `socket.Close()`. -/
  | closing
  | ended
  deriving DecidableEq

/-- The goroutine of a ping, with its socket and the deadline of that. -/
structure Waiter where
  socket : ℕ
  deadline : ℤ
  addr : Addr
  request : Echo
  place : Place
  deriving DecidableEq

/-- The place of the goroutine that `StartPingIPs` starts. -/
inductive Pinger
  | unstarted
  /-- At the head of the loop of `pingIPs`. -/
  | next (rest : List Addr)
  /-- With a socket for an address. -/
  | dialled (addr : Addr) (socket : ℕ) (rest : List Addr)
  /-- With the deadline set, in front of the write. -/
  | ready (addr : Addr) (socket : ℕ) (deadline : ℤ) (rest : List Addr)
  /-- In `time.Sleep`, until the given time. -/
  | sleeping (wake : ℤ)
  deriving DecidableEq

/-- The state of the pings. -/
structure State where
  pinger : Pinger
  /-- When the current round was due to begin. The code has no such variable. -/
  due : ℤ
  pingRecord : PingRecord
  /-- How often each socket was closed, in the order in which they were dialled. -/
  closes : List ℕ
  waiters : List Waiter
  /-- The time, in nanoseconds since the epoch. -/
  clock : ℕ

/-- The state before the start. -/
def State.init (clock : ℕ) : State := ⟨.unstarted, 0, ∅, [], [], clock⟩

/-- The steps of the system. A call that may fail comes with whether it returns no error. -/
inductive Label
  /-- Time passes. -/
  | advance (d : ℕ)
  /-- `StartPingIPs`. -/
  | start
  /-- `d.Tnet.Dial`. -/
  | dial (ok : Bool)
  /-- The message is made and `socket.SetReadDeadline` called. -/
  | setReadDeadline (ok : Bool)
  /-- `socket.Write`, with the request that was drawn. -/
  | write (ok : Bool) (request : Echo)
  /-- `time.Sleep` is called. -/
  | sleep
  /-- `time.Sleep` returns. -/
  | wake
  /-- `socket.Read` returns a reply. -/
  | reply (i : ℕ) (reply : Option Body)
  /-- `socket.Read` fails, in most cases since the deadline has passed. -/
  | readFailed (i : ℕ)
  /-- A valid reply is recorded. -/
  | record (i : ℕ)
  /-- The deferred close of a goroutine. -/
  | close (i : ℕ)
  /-- A request to `/readyz` is answered. -/
  | request
  deriving DecidableEq

namespace State

/-- The pinger goes to another place. -/
def goOn (st : State) (pinger : Pinger) : State := { st with pinger := pinger }

/-- `socket.Close()`. -/
def closeSocket (st : State) (s : ℕ) : State := { st with closes := st.closes.modify s (· + 1) }

/-- A goroutine goes to another place. -/
def moveTo (st : State) (i : ℕ) (place : Place) : State :=
  { st with waiters := st.waiters.modify i fun g => { g with place := place } }

/-- `time.Now().Unix()`. -/
def unix (st : State) : ℕ := st.clock / second

end State

/-- The step of a label, if it is enabled. -/
def step (conf : DeviceConfig w) (st : State) : Label → Option State
  | .advance d => some { st with clock := st.clock + d }
  | .start =>
    if st.pinger = .unstarted then
      some { st with
        pinger := .next conf.checkAlive
        due := st.clock
        pingRecord := startRecord conf.checkAlive st.pingRecord }
    else none
  | .dial ok =>
    match st.pinger with
    | .next (addr :: rest) =>
      if ok then
        some { st with
          pinger := .dialled addr st.closes.length rest
          closes := st.closes ++ [0] }
      else some (st.goOn (.next rest))
    | _ => none
  | .setReadDeadline ok =>
    match st.pinger with
    | .dialled addr s rest =>
      -- for an address that is neither of version 4 nor of version 6 the call is not made
      if addr ≠ .zero ∧ ok then some (st.goOn (.ready addr s (readDeadline conf st.clock) rest))
      else some ((st.closeSocket s).goOn (.next rest))
    | _ => none
  | .write ok request =>
    match st.pinger with
    | .ready addr s deadline rest =>
      if ¬ request.Drawn then none
      else if ok then
        some { st with
          pinger := .next rest
          waiters := st.waiters ++ [⟨s, deadline, addr, request, .reading⟩] }
      else some ((st.closeSocket s).goOn (.next rest))
    | _ => none
  | .sleep =>
    if st.pinger = .next [] then some (st.goOn (.sleeping (st.clock + pingInterval conf)))
    else none
  | .wake =>
    match st.pinger with
    | .sleeping wake =>
      if wake ≤ st.clock then some { st with pinger := .next conf.checkAlive, due := wake }
      else none
    | _ => none
  | .reply i reply =>
    match st.waiters[i]? with
    | some g =>
      if g.place = .reading then
        (checkReply g.addr g.request reply).map fun valid =>
          st.moveTo i (if valid then .verified else .closing)
      else none
    | none => none
  | .readFailed i =>
    match st.waiters[i]? with
    | some g => if g.place = .reading then some (st.moveTo i .closing) else none
    | none => none
  | .record i =>
    match st.waiters[i]? with
    | some g =>
      if g.place = .verified then
        some { st.moveTo i .closing with
          pingRecord := st.pingRecord.insert g.addr.toText st.unix }
      else none
    | none => none
  | .close i =>
    match st.waiters[i]? with
    | some g =>
      if g.place = .closing then some ((st.closeSocket g.socket).moveTo i .ended) else none
    | none => none
  | .request => if st.pinger = .unstarted then none else some st

/-! ## What a step can do -/

/-- The effects of a step. -/
inductive Effect (conf : DeviceConfig w) (st : State) : Label → State → Prop
  | advance (d : ℕ) : Effect conf st (.advance d) { st with clock := st.clock + d }
  | start (hpinger : st.pinger = .unstarted) :
    Effect conf st .start { st with
      pinger := .next conf.checkAlive
      due := st.clock
      pingRecord := startRecord conf.checkAlive st.pingRecord }
  | unreachable {addr : Addr} {rest : List Addr} (hpinger : st.pinger = .next (addr :: rest)) :
    Effect conf st (.dial false) (st.goOn (.next rest))
  | dialled {addr : Addr} {rest : List Addr} (hpinger : st.pinger = .next (addr :: rest)) :
    Effect conf st (.dial true) { st with
      pinger := .dialled addr st.closes.length rest
      closes := st.closes ++ [0] }
  | refused {ok : Bool} {addr : Addr} {s : ℕ} {rest : List Addr}
    (hpinger : st.pinger = .dialled addr s rest) (hfail : addr = .zero ∨ ok = false) :
    Effect conf st (.setReadDeadline ok) ((st.closeSocket s).goOn (.next rest))
  | ready {addr : Addr} {s : ℕ} {rest : List Addr} (hpinger : st.pinger = .dialled addr s rest)
    (haddr : addr ≠ .zero) :
    Effect conf st (.setReadDeadline true)
      (st.goOn (.ready addr s (readDeadline conf st.clock) rest))
  | unsent {request : Echo} {addr : Addr} {s : ℕ} {deadline : ℤ} {rest : List Addr}
    (hpinger : st.pinger = .ready addr s deadline rest) :
    Effect conf st (.write false request) ((st.closeSocket s).goOn (.next rest))
  | sent {request : Echo} {addr : Addr} {s : ℕ} {deadline : ℤ} {rest : List Addr}
    (hpinger : st.pinger = .ready addr s deadline rest) (hdrawn : request.Drawn) :
    Effect conf st (.write true request) { st with
      pinger := .next rest
      waiters := st.waiters ++ [⟨s, deadline, addr, request, .reading⟩] }
  | sleep (hpinger : st.pinger = .next []) :
    Effect conf st .sleep (st.goOn (.sleeping (st.clock + pingInterval conf)))
  | wake {wake : ℤ} (hpinger : st.pinger = .sleeping wake) (hle : wake ≤ st.clock) :
    Effect conf st .wake { st with pinger := .next conf.checkAlive, due := wake }
  | reply {i : ℕ} {reply : Option Body} {g : Waiter} {valid : Bool} (hg : st.waiters[i]? = some g)
    (hplace : g.place = .reading) (hvalid : checkReply g.addr g.request reply = some valid) :
    Effect conf st (.reply i reply) (st.moveTo i (if valid then .verified else .closing))
  | readFailed {i : ℕ} {g : Waiter} (hg : st.waiters[i]? = some g) (hplace : g.place = .reading) :
    Effect conf st (.readFailed i) (st.moveTo i .closing)
  | record {i : ℕ} {g : Waiter} (hg : st.waiters[i]? = some g) (hplace : g.place = .verified) :
    Effect conf st (.record i) { st.moveTo i .closing with
      pingRecord := st.pingRecord.insert g.addr.toText st.unix }
  | close {i : ℕ} {g : Waiter} (hg : st.waiters[i]? = some g) (hplace : g.place = .closing) :
    Effect conf st (.close i) ((st.closeSocket g.socket).moveTo i .ended)
  | request (hstarted : st.pinger ≠ .unstarted) : Effect conf st .request st

theorem effect_of_step {conf : DeviceConfig w} {st st' : State} {l : Label}
    (hstep : step conf st l = some st') : Effect conf st l st' := by
  cases l with
  | advance d =>
    cases hstep
    exact .advance d
  | start =>
    rw [step, Option.ite_none_right_eq_some] at hstep
    obtain ⟨hpinger, ⟨⟩⟩ := hstep
    exact .start hpinger
  | dial ok =>
    rw [step] at hstep
    split at hstep
    · rename_i addr rest hpinger
      cases ok with
      | false =>
        cases hstep
        exact .unreachable hpinger
      | true =>
        cases hstep
        exact .dialled hpinger
    · cases hstep
  | setReadDeadline ok =>
    rw [step] at hstep
    split at hstep
    · rename_i addr s rest hpinger
      split at hstep
      · rename_i hok
        obtain ⟨haddr, rfl⟩ := hok
        cases hstep
        exact .ready hpinger haddr
      · rename_i hfail
        cases hstep
        refine .refused hpinger ?_
        by_contra hnot
        obtain ⟨haddr, hok⟩ := not_or.1 hnot
        exact hfail ⟨haddr, Bool.eq_true_of_not_eq_false hok⟩
    · cases hstep
  | write ok request =>
    rw [step] at hstep
    split at hstep
    · rename_i addr s deadline rest hpinger
      rw [Option.ite_none_left_eq_some, not_not] at hstep
      obtain ⟨hdrawn, hstep⟩ := hstep
      cases ok with
      | false =>
        cases hstep
        exact .unsent hpinger
      | true =>
        cases hstep
        exact .sent hpinger hdrawn
    · cases hstep
  | sleep =>
    rw [step, Option.ite_none_right_eq_some] at hstep
    obtain ⟨hpinger, ⟨⟩⟩ := hstep
    exact .sleep hpinger
  | wake =>
    rw [step] at hstep
    split at hstep
    · rename_i wake hpinger
      rw [Option.ite_none_right_eq_some] at hstep
      obtain ⟨hle, ⟨⟩⟩ := hstep
      exact .wake hpinger hle
    · cases hstep
  | reply i reply =>
    rw [step] at hstep
    split at hstep
    · rename_i g hg
      rw [Option.ite_none_right_eq_some, Option.map_eq_some_iff] at hstep
      obtain ⟨hplace, valid, hvalid, rfl⟩ := hstep
      exact .reply hg hplace hvalid
    · cases hstep
  | readFailed i =>
    rw [step] at hstep
    split at hstep
    · rename_i g hg
      rw [Option.ite_none_right_eq_some] at hstep
      obtain ⟨hplace, ⟨⟩⟩ := hstep
      exact .readFailed hg hplace
    · cases hstep
  | record i =>
    rw [step] at hstep
    split at hstep
    · rename_i g hg
      rw [Option.ite_none_right_eq_some] at hstep
      obtain ⟨hplace, ⟨⟩⟩ := hstep
      exact .record hg hplace
    · cases hstep
  | close i =>
    rw [step] at hstep
    split at hstep
    · rename_i g hg
      rw [Option.ite_none_right_eq_some] at hstep
      obtain ⟨hplace, ⟨⟩⟩ := hstep
      exact .close hg hplace
    · cases hstep
  | request =>
    rw [step, Option.ite_none_left_eq_some] at hstep
    obtain ⟨hstarted, ⟨⟩⟩ := hstep
    exact .request hstarted

/-- What does not depend on the places of the goroutines. -/
theorem map_moveTo {β : Type*} {f : Waiter → β}
    (hf : ∀ g place, f { g with place := place } = f g) (st : State) (i : ℕ) (place : Place) :
    (st.moveTo i place).waiters.map f = st.waiters.map f := by
  apply List.ext_getElem?
  intro j
  simp only [State.moveTo, List.getElem?_map, List.getElem?_modify]
  cases st.waiters[j]? with
  | none => rfl
  | some g =>
    simp only [Option.map_eq_map, Option.map_some]
    split
    · rw [hf]
    · rfl

/-! ## The pings as single steps -/

/-- The place that the coarser system has for a goroutine. It has no step for the close. -/
def Place.toPing : Place → PingPlace
  | .reading => .waiting
  | .verified => .verified
  | .closing => .ended
  | .ended => .ended

/-- A goroutine in the coarser system. -/
def Waiter.ping (g : Waiter) : Ping := ⟨g.addr, g.request, g.place.toPing⟩

/-- The addresses that are left in this round, with the one in hand. -/
def Pinger.rest : Pinger → Option (List Addr)
  | .unstarted => none
  | .next rest => some rest
  | .dialled addr _ rest => some (addr :: rest)
  | .ready addr _ _ rest => some (addr :: rest)
  | .sleeping _ => some []

/-- The state of the coarser system. -/
def State.abs (st : State) : Health.State :=
  ⟨st.pinger.rest, st.pingRecord, st.waiters.map Waiter.ping, st.clock⟩

/-- The pinger does not write to an invalid address. -/
def Pinger.Valid : Pinger → Prop
  | .ready addr _ _ _ => addr ≠ .zero
  | _ => True

theorem getElem?_abs {st : State} {i : ℕ} {g : Waiter} (hg : st.waiters[i]? = some g) :
    st.abs.pings[i]? = some g.ping := by
  rw [State.abs, List.getElem?_map, hg, Option.map_some]

theorem abs_moveTo (st : State) (i : ℕ) (place : Place) :
    (st.moveTo i place).abs = st.abs.moveTo i place.toPing := by
  have hmap : (st.waiters.modify i fun g => { g with place := place }).map Waiter.ping =
      (st.waiters.map Waiter.ping).modify i fun p => { p with place := place.toPing } := by
    apply List.ext_getElem?
    intro j
    rw [List.getElem?_map, List.getElem?_modify, List.getElem?_modify, List.getElem?_map]
    cases st.waiters[j]? with
    | none => rfl
    | some g =>
      simp only [Option.map_eq_map, Option.map_some]
      split <;> rfl
  simp only [State.abs, State.moveTo, Health.State.moveTo, hmap]

/-- A goroutine that has ended for the coarser system moves unseen. -/
theorem abs_moveTo_of_closing {st : State} {i : ℕ} {g : Waiter} (hg : st.waiters[i]? = some g)
    (hplace : g.place = .closing) : (st.moveTo i .ended).abs = st.abs := by
  have hended : g.ping.place = .ended := by rw [Waiter.ping, hplace]; rfl
  have hmodify : (st.abs.pings.modify i fun p => { p with place := .ended }) = st.abs.pings := by
    apply List.ext_getElem?
    intro j
    rw [List.getElem?_modify]
    by_cases hij : i = j
    · subst hij
      simp only [getElem?_abs hg, if_true, Option.map_eq_map, Option.map_some, ← hended]
    · simp [hij]
  rw [abs_moveTo, Place.toPing, Health.State.moveTo, hmodify]

section Refinement

variable {conf : DeviceConfig w} {st st' : State} {l : Label}

theorem valid_step (h : st.pinger.Valid) (hstep : step conf st l = some st') :
    st'.pinger.Valid := by
  cases effect_of_step hstep with
  | ready hpinger haddr => exact haddr
  | advance | reply | readFailed | record | close | request => exact h
  | _ => trivial

/-- **Refinement.** A step is one of the coarser system, or nothing that it sees. -/
theorem refines_step (h : st.pinger.Valid) (hstep : step conf st l = some st') :
    st'.abs = st.abs ∨ ∃ l', Health.step conf st.abs l' = some st'.abs := by
  cases effect_of_step hstep with
  | advance d => exact .inr ⟨.advance d, rfl⟩
  | start hpinger =>
    have hrest : st.abs.pinger = none := by rw [State.abs, hpinger]; rfl
    exact .inr ⟨.start, if_pos hrest⟩
  | unreachable hpinger =>
    refine .inr ⟨.pingFailed, ?_⟩
    simp only [Health.step, State.abs, hpinger, Pinger.rest]
    rfl
  | dialled hpinger =>
    left
    simp only [State.abs, hpinger, Pinger.rest]
  | refused hpinger hfail =>
    refine .inr ⟨.pingFailed, ?_⟩
    simp only [Health.step, State.abs, hpinger, Pinger.rest]
    rfl
  | ready hpinger haddr =>
    left
    simp only [State.abs, State.goOn, hpinger, Pinger.rest]
  | unsent hpinger =>
    refine .inr ⟨.pingFailed, ?_⟩
    simp only [Health.step, State.abs, hpinger, Pinger.rest]
    rfl
  | @sent request addr s deadline rest hpinger hdrawn =>
    have haddr : addr ≠ .zero := by rwa [hpinger] at h
    refine .inr ⟨.pingSent request, ?_⟩
    simp only [Health.step, State.abs, hpinger, Pinger.rest, if_pos (And.intro haddr hdrawn),
      List.map_append, List.map_singleton]
    rfl
  | sleep hpinger =>
    left
    simp only [State.abs, State.goOn, hpinger, Pinger.rest]
  | wake hpinger hle =>
    refine .inr ⟨.round, ?_⟩
    simp only [Health.step, State.abs, hpinger, Pinger.rest, if_true]
  | @reply i reply g valid hg hplace hvalid =>
    refine .inr ⟨.reply i reply, ?_⟩
    have hwaiting : g.ping.place = .waiting := by rw [Waiter.ping, hplace]; rfl
    rw [abs_moveTo, Health.step, getElem?_abs hg]
    simp only [if_pos hwaiting]
    rw [show checkReply g.ping.addr g.ping.request reply = some valid from hvalid, Option.map_some]
    cases valid <;> rfl
  | @readFailed i g hg hplace =>
    refine .inr ⟨.timeout i, ?_⟩
    have hwaiting : g.ping.place = .waiting := by rw [Waiter.ping, hplace]; rfl
    rw [abs_moveTo, Health.step, getElem?_abs hg]
    exact if_pos hwaiting
  | @record i g hg hplace =>
    refine .inr ⟨.record i, ?_⟩
    have hverified : g.ping.place = .verified := by rw [Waiter.ping, hplace]; rfl
    have habs := abs_moveTo st i .closing
    rw [Health.step, getElem?_abs hg]
    simp only [if_pos hverified, Option.some.injEq]
    simp only [State.abs, Health.State.moveTo, Health.State.mk.injEq] at habs ⊢
    exact ⟨rfl, rfl, habs.2.2.1.symm, rfl⟩
  | close hg hplace =>
    left
    exact abs_moveTo_of_closing hg hplace
  | request hstarted =>
    left
    rfl

/-- What is reached is reached with single steps for the pings. -/
theorem refines_of_reachable {clock : ℕ} (h : Reachable (step conf) (State.init clock) st) :
    Relation.ReflTransGen (fun a b => ∃ l, Health.step conf a l = some b)
      (Health.State.init clock) st.abs := by
  have hstep : ∀ (st : State) (l : Label) (st' : State), st.pinger.Valid →
      step conf st l = some st' → st'.pinger.Valid ∧
        (st'.abs = st.abs ∨ ∃ l', Health.step conf st.abs l' = some st'.abs) :=
    fun _ _ _ hvalid hl => ⟨valid_step hvalid hl, refines_step hvalid hl⟩
  have hrefines : st.pinger.Valid ∧ Relation.ReflTransGen
      (fun a b => ∃ l, Health.step conf a l = some b) (State.init clock).abs st.abs :=
    h.refines (I := fun st : State => st.pinger.Valid) trivial hstep
  exact hrefines.2

/-- The record is the one of some history. -/
theorem exists_recorded {clock : ℕ} (h : Reachable (step conf) (State.init clock) st) :
    ∃ history, Recorded conf st.abs history := by
  have hreach := refines_of_reachable h
  generalize st.abs = a at hreach
  induction hreach with
  | refl => exact ⟨[], recorded_init conf clock⟩
  | tail _ hl ih =>
    obtain ⟨l, hl⟩ := hl
    obtain ⟨history, rec⟩ := ih
    exact ⟨_, recorded_step rec hl⟩

end Refinement

end WireProxy.Health.Rounds
