import WireProxy.Foundations.Transition.Reachable
import WireProxy.Go.Strconv
import WireProxy.Udp.Session

/-!
# The goroutines of the UDP proxy

`UDPProxyTunnelConfig.SpawnRoutine` as a transition function: the main loop, the sweeper, and one
handler for each session, interleaved in any order. The sections under the lock and the single
assignments to `lastActive` are atomic, the clock moves forward between them, and a label says which
goroutine takes the next step and with which outcome of the calls it makes.

* `step` is the transition function, `handlerStep` its part for `handleRemoteToLocal`.
* `HandlerEffect` lists what a step of a handler can do to the store, and `StoreEffect` what a step
  of the system can do to it. Invariants of the store are proved from these.
-/

namespace WireProxy.Udp

open Text Go Config

variable {w : IntSize}

/-! ## Labels -/

/-- The steps of `handleRemoteToLocal`. -/
inductive HandlerLabel
  /-- The check of the channel at the top of the loop. -/
  | check
  /-- The read returns a datagram. -/
  | data (datagram : Bytes)
  | timeout
  | readError
  /-- The check of the channel after a timeout. -/
  | recheck
  /-- The assignment to `lastActive`. -/
  | record
  /-- The resolution of the client's address. -/
  | resolve (ok : Bool)
  /-- The write to the client. -/
  | write (ok : Bool)
  /-- `removeSession`. -/
  | remove
  /-- The close of the connection. -/
  | close
  deriving DecidableEq

/-- The steps of the system. -/
inductive Label
  /-- Time passes. -/
  | advance (d : ℕ)
  /-- The main loop reads a datagram of a client. -/
  | receive (src : Text) (datagram : Bytes)
  /-- `getOrCreateSession`, with the outcome of its dial. -/
  | assign (dialOK : Bool)
  /-- The assignment to `lastActive` in the main loop. -/
  | record
  /-- The write to the remote side. -/
  | send (ok : Bool)
  /-- The sweeper wakes up and reads the time. -/
  | wake
  /-- The sweeper's critical section. -/
  | sweep
  /-- A step of a handler. -/
  | handler (i : ℕ) (l : HandlerLabel)
  deriving DecidableEq

/-! ## Steps -/

/-- The place of the main loop. -/
inductive MainLoop
  | waiting
  | received (src : Text) (datagram : Bytes)
  | assigned (session : ℕ) (datagram : Bytes)
  | sending (session : ℕ) (datagram : Bytes)
  deriving DecidableEq

/-- The state of the proxy. -/
structure State where
  store : Store
  main : MainLoop
  /-- The time that the sweeper has read, while it waits for the lock. -/
  sweeper : Option ℤ
  clock : ℤ

/-- The state at the start. -/
def State.init (clock : ℤ) : State := ⟨.empty, .waiting, none, clock⟩

/-- `inactivityDur`, a `time.Duration` in nanoseconds. -/
def inactivityDur (conf : UDPProxyTunnelConfig w) : ℤ :=
  (BitVec.ofInt 64 conf.inactivityTimeout.toInt * BitVec.ofNat 64 1000000000).toInt

/-- A step of the handler `h`, which is the `i`-th one. -/
def handlerStep (st : Store) (now : ℤ) (i : ℕ) (h : Handler) : HandlerLabel → Option Store
  | .check =>
    if h.place = .check then
      some (st.moveTo i (if st.chanClosed h.session then .removing else .read))
    else none
  | .data datagram => if h.place = .read then some (st.moveTo i (.received datagram)) else none
  | .timeout => if h.place = .read then some (st.moveTo i .timedOut) else none
  | .readError => if h.place = .read then some (st.moveTo i .removing) else none
  | .recheck =>
    if h.place = .timedOut then
      some (st.moveTo i (if st.chanClosed h.session then .removing else .check))
    else none
  | .record =>
    match h.place with
    | .received datagram => some ((st.touch h.session now).moveTo i (.recorded datagram))
    | _ => none
  | .resolve ok =>
    match h.place with
    | .recorded datagram => some (st.moveTo i (if ok then .resolved datagram else .removing))
    | _ => none
  | .write ok =>
    match h.place with
    | .resolved _ => some (st.moveTo i (if ok then .check else .removing))
    | _ => none
  | .remove =>
    if h.place = .removing then some ((st.removeSession h.srcAddr h.session).moveTo i .closing)
    else none
  | .close =>
    if h.place = .closing then some ((st.closeConn h.session).moveTo i .ended) else none

/-- The step of a label, if it is enabled. -/
def step (conf : UDPProxyTunnelConfig w) (st : State) : Label → Option State
  | .advance d => some { st with clock := st.clock + d }
  | .receive src datagram =>
    if st.main = .waiting then some { st with main := .received src datagram } else none
  | .assign dialOK =>
    match st.main with
    | .received src datagram =>
      match st.store.getOrCreateSession src st.clock dialOK with
      | (store, some id) => some { st with store := store, main := .assigned id datagram }
      | (store, none) => some { st with store := store, main := .waiting }
    | _ => none
  | .record =>
    match st.main with
    | .assigned id datagram =>
      some { st with store := st.store.touch id st.clock, main := .sending id datagram }
    | _ => none
  | .send ok =>
    match st.main with
    | .sending id _ =>
      -- a write to a closed connection fails
      if ok ∧ st.store.heap[id]?.any (fun s => s.connCloses ≠ 0) then none
      else some { st with main := .waiting }
    | _ => none
  | .wake =>
    if conf.inactivityTimeout.toInt > 0 ∧ st.sweeper = none then
      some { st with sweeper := some st.clock }
    else none
  | .sweep =>
    match st.sweeper with
    | some now =>
      some { st with store := st.store.sweep (inactivityDur conf) now, sweeper := none }
    | none => none
  | .handler i l =>
    match st.store.handlers[i]? with
    | some h => (handlerStep st.store st.clock i h l).map fun store => { st with store := store }
    | none => none

/-! ## What a handler does -/

/-- The effects of a handler's step on the store. -/
inductive HandlerEffect (st : Store) (now : ℤ) (i : ℕ) (h : Handler) : Store → Prop
  /-- It moves on inside the loop, or to `removeSession`. -/
  | move (place : Place) (hrun : h.Running) (hplace : place ≠ .closing ∧ place ≠ .ended) :
    HandlerEffect st now i h (st.moveTo i place)
  /-- It records the time of a datagram. -/
  | record (place : Place) (hrun : h.Running) (hplace : place ≠ .closing ∧ place ≠ .ended) :
    HandlerEffect st now i h ((st.touch h.session now).moveTo i place)
  | remove (hplace : h.place = .removing) :
    HandlerEffect st now i h ((st.removeSession h.srcAddr h.session).moveTo i .closing)
  | close (hplace : h.place = .closing) :
    HandlerEffect st now i h ((st.closeConn h.session).moveTo i .ended)

section Effects

variable {st st' : Store} {now : ℤ} {i : ℕ} {h : Handler}

/-- A move from one place in front of the close to another. -/
theorem HandlerEffect.of_ite {old new : Place}
    (hstep : (if h.place = old then some (st.moveTo i new) else none) = some st')
    (hold : old ≠ .closing ∧ old ≠ .ended) (hnew : new ≠ .closing ∧ new ≠ .ended) :
    HandlerEffect st now i h st' := by
  rw [Option.ite_none_right_eq_some, Option.some.injEq] at hstep
  obtain ⟨hplace, rfl⟩ := hstep
  exact .move new (by rwa [Handler.Running, hplace]) hnew

/-- **What a step of a handler can do.** -/
theorem handlerEffect_of_step {l : HandlerLabel} (hstep : handlerStep st now i h l = some st') :
    HandlerEffect st now i h st' := by
  cases l with
  | check => exact .of_ite hstep (by simp) (by split <;> simp)
  | data datagram => exact .of_ite hstep (by simp) (by simp)
  | timeout => exact .of_ite hstep (by simp) (by simp)
  | readError => exact .of_ite hstep (by simp) (by simp)
  | recheck => exact .of_ite hstep (by simp) (by split <;> simp)
  | record =>
    rw [handlerStep] at hstep
    split at hstep
    · rename_i datagram hplace
      cases hstep
      exact .record _ (by simp [Handler.Running, hplace]) (by simp)
    · cases hstep
  | resolve ok =>
    rw [handlerStep] at hstep
    split at hstep
    · rename_i datagram hplace
      cases hstep
      exact .move _ (by simp [Handler.Running, hplace]) (by split <;> simp)
    · cases hstep
  | write ok =>
    rw [handlerStep] at hstep
    split at hstep
    · rename_i datagram hplace
      cases hstep
      exact .move _ (by simp [Handler.Running, hplace]) (by split <;> simp)
    · cases hstep
  | remove =>
    rw [handlerStep, Option.ite_none_right_eq_some, Option.some.injEq] at hstep
    obtain ⟨hplace, rfl⟩ := hstep
    exact .remove hplace
  | close =>
    rw [handlerStep, Option.ite_none_right_eq_some, Option.some.injEq] at hstep
    obtain ⟨hplace, rfl⟩ := hstep
    exact .close hplace

end Effects

/-- The effects of a step of the system on the store. -/
inductive StoreEffect (conf : UDPProxyTunnelConfig w) (st : State) : Store → Prop
  | same : StoreEffect conf st st.store
  /-- The main loop gets a session for a client. -/
  | assign (src : Text) (dialOK : Bool) :
    StoreEffect conf st (st.store.getOrCreateSession src st.clock dialOK).1
  /-- The main loop records the time of a datagram. -/
  | record (id : ℕ) : StoreEffect conf st (st.store.touch id st.clock)
  | sweep (now : ℤ) : StoreEffect conf st (st.store.sweep (inactivityDur conf) now)
  | handler (i : ℕ) (h : Handler) (store : Store) (hh : st.store.handlers[i]? = some h)
    (heff : HandlerEffect st.store st.clock i h store) : StoreEffect conf st store

/-- **What a step of the system can do to the store.** -/
theorem storeEffect_of_step {conf : UDPProxyTunnelConfig w} {st st' : State} {l : Label}
    (hstep : step conf st l = some st') : StoreEffect conf st st'.store := by
  cases l with
  | advance d =>
    cases hstep
    exact .same
  | receive src datagram =>
    rw [step, Option.ite_none_right_eq_some] at hstep
    obtain ⟨-, ⟨⟩⟩ := hstep
    exact .same
  | assign dialOK =>
    rw [step] at hstep
    split at hstep
    · rename_i src datagram hmain
      have heff : StoreEffect conf st _ := .assign src dialOK
      split at hstep
      all_goals
        rename_i heq
        cases hstep
        rwa [heq] at heff
    · cases hstep
  | record =>
    rw [step] at hstep
    split at hstep
    · cases hstep
      exact .record _
    · cases hstep
  | send ok =>
    rw [step] at hstep
    split at hstep
    · rw [Option.ite_none_left_eq_some] at hstep
      obtain ⟨-, ⟨⟩⟩ := hstep
      exact .same
    · cases hstep
  | wake =>
    rw [step, Option.ite_none_right_eq_some] at hstep
    obtain ⟨-, ⟨⟩⟩ := hstep
    exact .same
  | sweep =>
    rw [step] at hstep
    split at hstep
    · cases hstep
      exact .sweep _
    · cases hstep
  | handler i l =>
    rw [step] at hstep
    split at hstep
    · rename_i h hh
      obtain ⟨store, hstore, rfl⟩ := Option.map_eq_some_iff.1 hstep
      exact .handler i h store hh (handlerEffect_of_step hstore)
    · cases hstep

end WireProxy.Udp
