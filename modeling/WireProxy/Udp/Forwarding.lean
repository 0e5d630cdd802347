import WireProxy.Foundations.Transition.History
import WireProxy.Udp.LifeCycle

/-!
# The datagrams of the UDP proxy

What the proxy shows to the outside: the datagrams that it reads and writes on either side, and the
connections that it dials. A datagram is written to a connection, or back to a client, only if it
was read on the other side of that client's own connection.

* `event` is the event of a step, and a run's `events` are its history.
* `Ledger` is the invariant: the main loop and each handler relay the datagram they hold, and the
  connection of a handler was dialled for the handler's client. Each step keeps it (`ledger_step`).
* `datagrams_relayed` states what it means for a whole history.
-/

namespace WireProxy.Udp

open Text Go Config Transition

variable {w : IntSize}

/-! ## Events -/

/-- What the proxy does with datagrams and connections. A connection has the number of its
session. -/
inductive Event
  /-- A datagram of a client is read from the listener. -/
  | received (src : Text) (datagram : Bytes)
  /-- A connection is dialled on behalf of a client. -/
  | dialled (conn : ℕ) (src : Text)
  /-- A datagram is written to a connection. -/
  | forwarded (conn : ℕ) (datagram : Bytes)
  /-- A datagram is read from a connection. -/
  | read (conn : ℕ) (datagram : Bytes)
  /-- The handler of a connection writes a datagram to the listener, for an address. -/
  | returned (conn : ℕ) (addr : Text) (datagram : Bytes)
  deriving DecidableEq

/-- The event of a handler's step. A write is an event also if it fails. -/
def Handler.event (h : Handler) : HandlerLabel → Option Event
  | .data datagram => some (.read h.session datagram)
  | .write _ =>
    match h.place with
    | .resolved datagram => some (.returned h.session h.srcAddr datagram)
    | _ => none
  | _ => none

/-- The event of a step. -/
def event (st : State) : Label → Option Event
  | .receive src datagram => some (.received src datagram)
  | .assign dialOK =>
    match st.main with
    | .received src _ =>
      if st.store.sessions.lookup src = none ∧ dialOK then
        some (.dialled st.store.heap.length src)
      else none
    | _ => none
  | .send _ =>
    match st.main with
    | .sending id datagram => some (.forwarded id datagram)
    | _ => none
  | .handler i l => st.store.handlers[i]?.bind fun h => h.event l
  | _ => none

/-- A write to a connection. -/
def IsForwarded (e : Event) : Prop := ∃ conn datagram, e = .forwarded conn datagram

/-- A write to the listener by the handler of a connection. -/
def IsReturned (conn : ℕ) (e : Event) : Prop := ∃ addr datagram, e = .returned conn addr datagram

/-- A datagram of a client is written, byte for byte, to a connection that was dialled for that
client. -/
def Forwards (dialled : ℕ → Text → Prop) (r e : Event) : Prop :=
  ∃ conn src datagram, r = .received src datagram ∧ e = .forwarded conn datagram ∧ dialled conn src

/-- A datagram from a connection is written, byte for byte, to the client for which the connection
was dialled. -/
def Returns (dialled : ℕ → Text → Prop) (conn : ℕ) (r e : Event) : Prop :=
  ∃ src datagram, r = .read conn datagram ∧ e = .returned conn src datagram ∧ dialled conn src

/-! ## What is held -/

/-- The client of a connection. -/
def Store.source (st : Store) (conn : ℕ) : Option Text := st.handlers[conn]?.map (·.srcAddr)

/-- The datagram that a handler holds, by the event with which it was read. -/
def Handler.held (h : Handler) : Option Event :=
  match h.place with
  | .received datagram | .recorded datagram | .resolved datagram =>
    some (.read h.session datagram)
  | _ => none

/-- The datagram that the handler of a connection holds. -/
def Store.held (st : Store) (conn : ℕ) : Option Event := st.handlers[conn]?.bind (·.held)

/-- The session that the main loop is about to write to. -/
def MainLoop.session : MainLoop → Option ℕ
  | .assigned id _ | .sending id _ => some id
  | _ => none

/-- The datagram that the main loop holds. -/
def State.held (st : State) : Option Event :=
  match st.main with
  | .waiting => none
  | .received src datagram => some (.received src datagram)
  | .assigned id datagram | .sending id datagram =>
    (st.store.source id).map (.received · datagram)

/-- The invariant of a state and the history that led to it. -/
structure Ledger (st : State) (h : List Event) : Prop where
  wellFormed : WellFormed st.store
  dialled_iff : ∀ conn src, .dialled conn src ∈ h ↔ st.store.source conn = some src
  assigned : ∀ id ∈ st.main.session, ∃ src, st.store.source id = some src
  forwards : Relays IsForwarded (Forwards fun conn src => st.store.source conn = some src) h st.held
  returns : ∀ conn, Relays (IsReturned conn)
    (Returns (fun conn src => st.store.source conn = some src) conn) h (st.store.held conn)

theorem ledger_init (clock : ℤ) : Ledger (State.init clock) [] where
  wellFormed := wellFormed_empty
  dialled_iff conn src := by simp [State.init, Store.empty, Store.source]
  assigned id h := by cases h
  forwards := relays_nil
  returns conn := by simpa [State.init, Store.empty, Store.held] using relays_nil

/-! ## Steps -/

section Steps

variable {st st' : State} {h : List Event} {e : Option Event}

/-- A step that dials nothing. -/
theorem Ledger.of_source_eq (led : Ledger st h) (wf : WellFormed st'.store)
    (hsource : st'.store.source = st.store.source)
    (hdialled : ∀ conn src, e ≠ some (.dialled conn src))
    (hassigned : ∀ id ∈ st'.main.session, ∃ src, st.store.source id = some src)
    (hforwards : Relays IsForwarded (Forwards fun conn src => st.store.source conn = some src)
      (h ++ e.toList) st'.held)
    (hreturns : ∀ conn, Relays (IsReturned conn)
      (Returns (fun conn src => st.store.source conn = some src) conn) (h ++ e.toList)
      (st'.store.held conn)) : Ledger st' (h ++ e.toList) := by
  refine ⟨wf, fun conn src => ?_, ?_, ?_, fun conn => ?_⟩
  · rw [hsource, List.mem_append, Option.mem_toList, or_iff_left (hdialled conn src),
      led.dialled_iff]
  · rwa [hsource]
  · rwa [hsource]
  · rw [hsource]
    exact hreturns conn

theorem Store.source_of_handlers_eq {s s' : Store} (h : s'.handlers = s.handlers) :
    s'.source = s.source := by
  funext conn
  rw [source, source, h]

/-- A step of the main loop or the sweeper that leaves the handlers alone. -/
theorem Ledger.of_handlers_eq (led : Ledger st h) (wf : WellFormed st'.store)
    (hhandlers : st'.store.handlers = st.store.handlers)
    (hassigned : ∀ id ∈ st'.main.session, ∃ src, st.store.source id = some src)
    (hdialled : ∀ conn src, e ≠ some (.dialled conn src))
    (hreturned : ∀ conn, ∀ x ∈ e, ¬ IsReturned conn x)
    (hforwards : Relays IsForwarded (Forwards fun conn src => st.store.source conn = some src)
      (h ++ e.toList) st'.held) : Ledger st' (h ++ e.toList) := by
  refine led.of_source_eq wf (Store.source_of_handlers_eq hhandlers) hdialled hassigned hforwards ?_
  intro conn
  rw [Store.held, hhandlers, ← Store.held]
  exact (led.returns conn).others (hreturned conn)

/-- A step that is not seen outside and leaves the handlers and the main loop alone. -/
theorem Ledger.quiet (led : Ledger st h) (wf : WellFormed st'.store)
    (hhandlers : st'.store.handlers = st.store.handlers) (hmain : st'.main = st.main) :
    Ledger st' (h ++ (none : Option Event).toList) := by
  have hheld : st'.held = st.held := by
    rw [State.held, State.held, hmain, Store.source_of_handlers_eq hhandlers]
  exact led.of_handlers_eq wf hhandlers (by rw [hmain]; exact led.assigned) (by simp) (by simp)
    (by simpa [hheld] using led.forwards)

/-- The main loop gets a session that it has created. -/
theorem Ledger.create (led : Ledger st h) {src : Text} {datagram : Bytes}
    (hmain : st.main = .received src datagram) (hnone : st.store.sessions.lookup src = none) :
    Ledger { st with
      store := st.store.create src st.clock
      main := .assigned st.store.heap.length datagram }
      (h ++ [.dialled st.store.heap.length src]) := by
  have hlen := led.wellFormed.length_eq
  have hsource : ∀ conn a, (st.store.create src st.clock).source conn = some a ↔
      st.store.source conn = some a ∨ conn = st.store.heap.length ∧ a = src := by
    intro conn a
    simp only [Store.source, Store.create, Option.map_eq_some_iff, getElem?_concat_eq_some_iff]
    constructor
    · rintro ⟨hd, hhd | ⟨rfl, rfl⟩, rfl⟩
      · exact .inl ⟨hd, hhd, rfl⟩
      · exact .inr ⟨hlen, rfl⟩
    · rintro (⟨hd, hhd, rfl⟩ | ⟨rfl, rfl⟩)
      · exact ⟨hd, .inl hhd, rfl⟩
      · exact ⟨_, .inr ⟨hlen.symm, rfl⟩, rfl⟩
  -- the new handler holds nothing, the others what they held
  have hheld : ∀ conn, (st.store.create src st.clock).held conn = st.store.held conn := by
    intro conn
    simp only [Store.held, Store.create]
    rcases lt_trichotomy conn st.store.handlers.length with hc | rfl | hc
    · rw [List.getElem?_append_left hc]
    · simp [Handler.held]
    · rw [List.getElem?_eq_none (by simpa using hc), List.getElem?_eq_none hc.le]
  have hnew : (st.store.create src st.clock).source st.store.heap.length = some src :=
    (hsource _ _).2 (.inr ⟨rfl, rfl⟩)
  have hforwards := led.forwards
  rw [State.held, hmain] at hforwards
  refine ⟨led.wellFormed.create hnone _, fun conn a => ?_, ?_, ?_, fun conn => ?_⟩
  · rw [hsource, List.mem_append, led.dialled_iff, List.mem_singleton, Event.dialled.injEq]
  · rintro id ⟨⟩
    exact ⟨src, hnew⟩
  · simp only [State.held, hnew, Option.map_some]
    refine (hforwards.other (by simp [IsForwarded])).mono ?_
    rintro r x ⟨conn, a, d, rfl, rfl, ha⟩
    exact ⟨conn, a, d, rfl, rfl, (hsource conn a).2 (.inl ha)⟩
  · simp only [hheld]
    refine ((led.returns conn).other (by simp [IsReturned])).mono ?_
    rintro r x ⟨a, d, rfl, rfl, ha⟩
    exact ⟨a, d, rfl, rfl, (hsource conn a).2 (.inl ha)⟩

/-- A handler moves, and perhaps reads or writes a datagram. -/
theorem Ledger.of_modify (led : Ledger st h) (wf : WellFormed st'.store) {i : ℕ} {hd : Handler}
    (hh : st.store.handlers[i]? = some hd) {place : Place}
    (hhandlers : st'.store.handlers =
      st.store.handlers.modify i fun hd => { hd with place := place })
    (hmain : st'.main = st.main) (hdialled : ∀ conn src, e ≠ some (.dialled conn src))
    (hforwarded : ∀ x ∈ e, ¬ IsForwarded x)
    (hother : ∀ conn ≠ i, ∀ x ∈ e, ¬ IsReturned conn x)
    (hreturns : Relays (IsReturned i)
      (Returns (fun conn src => st.store.source conn = some src) i) (h ++ e.toList)
      { hd with place := place }.held) : Ledger st' (h ++ e.toList) := by
  have hsource : st'.store.source = st.store.source := by
    funext conn
    rw [Store.source, Store.source, hhandlers, List.getElem?_modify]
    cases st.store.handlers[conn]? with
    | none => rfl
    | some hd =>
      simp only [Option.map_eq_map, Option.map_some]
      split <;> rfl
  refine led.of_source_eq wf hsource hdialled (by rw [hmain]; exact led.assigned) ?_ fun conn => ?_
  · have hheld : st'.held = st.held := by rw [State.held, State.held, hmain, hsource]
    rw [hheld]
    exact led.forwards.others hforwarded
  · by_cases hc : conn = i
    · subst hc
      rwa [Store.held, hhandlers, List.getElem?_modify_eq, hh]
    · rw [Store.held, hhandlers, List.getElem?_modify_ne _ _ (Ne.symm hc), ← Store.held]
      exact (led.returns conn).others (hother conn hc)

/-- A handler moves and lets go of its datagram, if it holds one. -/
theorem Ledger.of_dropped (led : Ledger st h) (wf : WellFormed st'.store) {i : ℕ} {hd : Handler}
    (hh : st.store.handlers[i]? = some hd) {place : Place}
    (hhandlers : st'.store.handlers =
      st.store.handlers.modify i fun hd => { hd with place := place })
    (hmain : st'.main = st.main) (hplace : { hd with place := place }.held = none) :
    Ledger st' (h ++ (none : Option Event).toList) :=
  led.of_modify wf hh hhandlers hmain (by simp) (by simp) (by simp)
    (by simpa [hplace] using (led.returns i).drop)

/-- A handler moves and keeps what it holds. -/
theorem Ledger.of_kept (led : Ledger st h) (wf : WellFormed st'.store) {i : ℕ} {hd : Handler}
    (hh : st.store.handlers[i]? = some hd) {place : Place}
    (hhandlers : st'.store.handlers =
      st.store.handlers.modify i fun hd => { hd with place := place })
    (hmain : st'.main = st.main) (hplace : { hd with place := place }.held = hd.held) :
    Ledger st' (h ++ (none : Option Event).toList) := by
  have hheld : st.store.held i = hd.held := by rw [Store.held, hh, Option.bind_some]
  exact led.of_modify wf hh hhandlers hmain (by simp) (by simp) (by simp)
    (by simpa [hplace, ← hheld] using led.returns i)

/-- **A step of a handler.** -/
theorem ledger_handlerStep (led : Ledger st h) {i : ℕ} {hd : Handler}
    (hh : st.store.handlers[i]? = some hd) {l : HandlerLabel} {store : Store}
    (hstep : handlerStep st.store st.clock i hd l = some store) :
    Ledger { st with store := store } (h ++ (hd.event l).toList) := by
  have wf := wellFormed_handlerEffect led.wellFormed hh (handlerEffect_of_step hstep)
  have hsession : hd.session = i := led.wellFormed.handler_session hh
  have hreturns := led.returns i
  have hheld : st.store.held i = hd.held := by rw [Store.held, hh, Option.bind_some]
  rw [hheld] at hreturns
  cases l with
  | check | recheck =>
    rw [handlerStep, Option.ite_none_right_eq_some, Option.some.injEq] at hstep
    obtain ⟨-, rfl⟩ := hstep
    exact led.of_dropped wf hh rfl rfl (by split <;> rfl)
  | data datagram =>
    rw [handlerStep, Option.ite_none_right_eq_some, Option.some.injEq] at hstep
    obtain ⟨-, rfl⟩ := hstep
    exact led.of_modify wf hh rfl rfl (by simp [Handler.event])
      (by simp [Handler.event, IsForwarded]) (by simp [Handler.event, IsReturned])
      (hreturns.take (by simp [IsReturned]))
  | timeout | readError | close =>
    rw [handlerStep, Option.ite_none_right_eq_some, Option.some.injEq] at hstep
    obtain ⟨-, rfl⟩ := hstep
    exact led.of_dropped wf hh rfl rfl rfl
  | record =>
    rw [handlerStep] at hstep
    split at hstep
    · rename_i datagram hplace
      cases hstep
      exact led.of_kept wf hh rfl rfl (by simp [Handler.held, hplace])
    · cases hstep
  | resolve ok =>
    rw [handlerStep] at hstep
    split at hstep
    · rename_i datagram hplace
      cases hstep
      cases ok with
      | false => exact led.of_dropped wf hh rfl rfl rfl
      | true => exact led.of_kept wf hh rfl rfl (by simp [Handler.held, hplace])
    · cases hstep
  | write ok =>
    rw [handlerStep] at hstep
    split at hstep
    · rename_i datagram hplace
      cases hstep
      have hevent : hd.event (.write ok) = some (.returned i hd.srcAddr datagram) := by
        simp [Handler.event, hplace, hsession]
      have hread : hd.held = some (.read i datagram) := by
        simp [Handler.held, hplace, hsession]
      have hnone : { hd with place := if ok then Place.check else .removing }.held = none := by
        cases ok <;> rfl
      have hsource : st.store.source i = some hd.srcAddr := by
        rw [Store.source, hh, Option.map_some]
      rw [hread] at hreturns
      rw [hevent]
      refine led.of_modify wf hh rfl rfl (by simp) (by simp [IsForwarded])
        (fun conn hne => by simp [IsReturned, Ne.symm hne]) ?_
      rw [hnone]
      exact hreturns.pass ⟨_, _, rfl, rfl, hsource⟩
    · cases hstep
  | remove =>
    rw [handlerStep, Option.ite_none_right_eq_some, Option.some.injEq] at hstep
    obtain ⟨-, rfl⟩ := hstep
    have hhandlers : ((st.store.removeSession hd.srcAddr hd.session).moveTo i .closing).handlers =
        st.store.handlers.modify i fun hd => { hd with place := .closing } := by
      rw [Store.moveTo, st.store.handlers_removeSession]
    exact led.of_dropped wf hh hhandlers rfl rfl

/-- The main loop calls `getOrCreateSession`. -/
theorem ledger_assign {conf : UDPProxyTunnelConfig w} (led : Ledger st h) {dialOK : Bool}
    (hstep : step conf st (.assign dialOK) = some st') :
    Ledger st' (h ++ (event st (.assign dialOK)).toList) := by
  rw [step] at hstep
  split at hstep
  · rename_i src datagram hmain
    have hforwards := led.forwards
    rw [State.held, hmain] at hforwards
    cases hl : st.store.sessions.lookup src with
    | some id =>
      simp only [Store.getOrCreateSession, hl, Option.some.injEq] at hstep
      subst hstep
      -- the session is listed under the address of its handler
      obtain ⟨-, hd, -, hh, hsrc, -⟩ := led.wellFormed.entry hl
      have hsource : st.store.source id = some src := by
        rw [Store.source, hh, Option.map_some, hsrc]
      have hevent : event st (.assign dialOK) = none := by simp [event, hmain, hl]
      rw [hevent]
      refine led.of_handlers_eq (led.wellFormed.touch id _) rfl ?_ (by simp) (by simp) ?_
      · rintro _ ⟨⟩
        exact ⟨src, hsource⟩
      · have htouch : (st.store.touch id st.clock).source id = some src := hsource
        simpa [State.held, htouch] using hforwards
    | none =>
      cases dialOK with
      | true =>
        simp only [Store.getOrCreateSession, hl, if_true, Option.some.injEq] at hstep
        subst hstep
        have hevent : event st (.assign true) = some (.dialled st.store.heap.length src) := by
          simp [event, hmain, hl]
        rw [hevent]
        exact led.create hmain hl
      | false =>
        simp only [Store.getOrCreateSession, hl, Bool.false_eq_true, if_false,
          Option.some.injEq] at hstep
        subst hstep
        have hevent : event st (.assign false) = none := by simp [event, hmain]
        rw [hevent]
        exact led.of_handlers_eq led.wellFormed rfl (by rintro _ ⟨⟩) (by simp) (by simp)
          (by simpa [State.held] using hforwards.drop)
  · cases hstep

/-- **Every step keeps the invariant.** -/
theorem ledger_step {conf : UDPProxyTunnelConfig w} {l : Label} (led : Ledger st h)
    (hstep : step conf st l = some st') : Ledger st' (h ++ (event st l).toList) := by
  have wf := wellFormed_storeEffect led.wellFormed (storeEffect_of_step hstep)
  cases l with
  | advance d =>
    cases hstep
    exact led.quiet wf rfl rfl
  | receive src datagram =>
    rw [step, Option.ite_none_right_eq_some] at hstep
    obtain ⟨-, ⟨⟩⟩ := hstep
    exact led.of_handlers_eq wf rfl (by rintro _ ⟨⟩) (by simp [event])
      (by simp [event, IsReturned]) (led.forwards.take (by simp [IsForwarded]))
  | assign dialOK => exact ledger_assign led hstep
  | record =>
    rw [step] at hstep
    split at hstep
    · rename_i id datagram hmain
      cases hstep
      have hassigned := led.assigned
      have hforwards := led.forwards
      rw [hmain] at hassigned
      rw [State.held, hmain] at hforwards
      exact led.of_handlers_eq wf rfl hassigned (by simp [event]) (by simp [event])
        (by simpa [event, State.held, Store.source, Store.touch] using hforwards)
    · cases hstep
  | send ok =>
    rw [step] at hstep
    split at hstep
    · rename_i id datagram hmain
      rw [Option.ite_none_left_eq_some] at hstep
      obtain ⟨-, ⟨⟩⟩ := hstep
      obtain ⟨src, hsource⟩ := led.assigned id (by rw [hmain]; rfl)
      have hevent : event st (.send ok) = some (.forwarded id datagram) := by
        simp [event, hmain]
      have hforwards := led.forwards
      simp only [State.held, hmain, hsource, Option.map_some] at hforwards
      rw [hevent]
      exact led.of_handlers_eq wf rfl (by rintro _ ⟨⟩) (by simp) (by simp [IsReturned])
        (hforwards.pass ⟨id, src, datagram, rfl, rfl, hsource⟩)
    · cases hstep
  | wake =>
    rw [step, Option.ite_none_right_eq_some] at hstep
    obtain ⟨-, ⟨⟩⟩ := hstep
    exact led.quiet wf rfl rfl
  | sweep =>
    rw [step] at hstep
    split at hstep
    · cases hstep
      exact led.quiet wf (Store.handlers_sweep _ _ _) rfl
    · cases hstep
  | handler i l =>
    rw [step] at hstep
    split at hstep
    · rename_i hd hh
      obtain ⟨store, hstore, rfl⟩ := Option.map_eq_some_iff.1 hstep
      rw [event, hh, Option.bind_some]
      exact ledger_handlerStep led hh hstore
    · cases hstep

end Steps

/-- **No datagram is mixed up.** In every run of the proxy:

* a connection is dialled for one client only;
* every datagram that is written to a connection was read from the client for which the connection
  was dialled, and is written only once, in the order of the reads;
* every datagram that is written back for an address was read from a connection that was dialled
  for that address, is written only once, and for each connection in the order of the reads. -/
theorem datagrams_relayed {conf : UDPProxyTunnelConfig w} {clock : ℤ} {labels : List Label}
    {st : State} (hrun : run (step conf) (State.init clock) labels = some st) :
    let h := events (step conf) event (State.init clock) labels
    (∀ conn src src', .dialled conn src ∈ h → .dialled conn src' ∈ h → src = src') ∧
    Relayed IsForwarded (Forwards fun conn src => .dialled conn src ∈ h) h ∧
    ∀ conn, Relayed (IsReturned conn) (Returns (fun conn src => .dialled conn src ∈ h) conn) h := by
  intro h
  have led : Ledger st h :=
    run_invariant (ledger_init clock) (fun _ _ _ _ led hstep => ledger_step led hstep) hrun
  have hdialled : (fun conn src => .dialled conn src ∈ h) =
      fun conn src => st.store.source conn = some src := by
    funext conn src
    exact propext (led.dialled_iff conn src)
  refine ⟨fun conn src src' hsrc hsrc' => ?_, ?_, fun conn => ?_⟩
  · rw [led.dialled_iff] at hsrc hsrc'
    exact Option.some.inj (hsrc.symm.trans hsrc')
  · rw [hdialled]
    exact led.forwards.relayed
  · rw [hdialled]
    exact (led.returns conn).relayed

/-- A client's session answers and expires, and the client gets another one. The old handler still
delivers an answer that came late. -/
def twoSessions : List Label :=
  [.receive "192.0.2.1:4000" [1], .assign true, .record, .send true, .handler 0 .check,
    .handler 0 (.data [11]), .handler 0 .record, .handler 0 (.resolve true),
    .handler 0 (.write true), .handler 0 .check, .advance 60000000000, .wake, .sweep,
    .receive "192.0.2.1:4000" [2], .assign true, .record, .handler 0 (.data [12]), .send true,
    .handler 0 .record, .handler 0 (.resolve true), .handler 0 (.write true)]

/-- The history of that run, and what holds of it. -/
theorem datagrams_relayed_twoSessions :
    let h : List Event := [.received "192.0.2.1:4000" [1], .dialled 0 "192.0.2.1:4000",
      .forwarded 0 [1], .read 0 [11], .returned 0 "192.0.2.1:4000" [11],
      .received "192.0.2.1:4000" [2], .dialled 1 "192.0.2.1:4000", .read 0 [12], .forwarded 1 [2],
      .returned 0 "192.0.2.1:4000" [12]]
    events (step thirtySeconds) event (State.init 0) twoSessions = h ∧
      Relayed IsForwarded (Forwards fun conn src => .dialled conn src ∈ h) h ∧
      Relayed (IsReturned 0) (Returns (fun conn src => .dialled conn src ∈ h) 0) h := by
  intro h
  have hsome : (run (step thirtySeconds) (State.init 0) twoSessions).isSome := by
    decide +kernel
  have hevents : events (step thirtySeconds) event (State.init 0) twoSessions = h := by
    decide +kernel
  obtain ⟨st, hrun⟩ := Option.isSome_iff_exists.1 hsome
  obtain ⟨-, hforwards, hreturns⟩ := datagrams_relayed hrun
  rw [hevents] at hforwards hreturns
  exact ⟨hevents, hforwards, hreturns 0⟩

end WireProxy.Udp
