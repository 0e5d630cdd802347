import WireProxy.Foundations.Transition.Settlement
import WireProxy.Udp.Ending
import WireProxy.Udp.Forwarding

/-!
# No datagram is lost silently

`datagrams_relayed` says that the proxy passes on only what it has read. Here the converse: every
datagram that it reads comes to an end that can be seen, the write to the other side or the failure
of a call.

* `event` is the event of a step, with the outcomes of the writes.
* `Accounts` is the invariant: each datagram has been settled, in order, except the one that the
  main loop or a handler holds. `accounts_step` shows that each step keeps it.
-/

namespace WireProxy.Udp.Settlement

open Text Go Config Transition

variable {w : IntSize}

/-! ## Events -/

/-- What becomes of the datagrams. -/
inductive Event
  /-- A datagram of a client is read from the listener. -/
  | received (src : Text) (datagram : Bytes)
  /-- The dial of a connection for it fails. -/
  | refused (src : Text) (datagram : Bytes)
  /-- A datagram is written to a connection. -/
  | sent (conn : ℕ) (datagram : Bytes) (ok : Bool)
  /-- A datagram is read from a connection. -/
  | read (conn : ℕ) (datagram : Bytes)
  /-- The address of the client cannot be resolved. -/
  | unresolved (conn : ℕ) (datagram : Bytes)
  /-- A datagram is written to the listener, for an address. -/
  | returned (conn : ℕ) (addr : Text) (datagram : Bytes) (ok : Bool)
  deriving DecidableEq

/-- The event of a handler's step. -/
def handlerEvent (h : Handler) : HandlerLabel → Option Event
  | .data datagram => some (.read h.session datagram)
  | .resolve ok =>
    match h.place with
    | .recorded datagram => if ok then none else some (.unresolved h.session datagram)
    | _ => none
  | .write ok =>
    match h.place with
    | .resolved datagram => some (.returned h.session h.srcAddr datagram ok)
    | _ => none
  | _ => none

/-- The event of a step. -/
def event (st : State) : Label → Option Event
  | .receive src datagram => some (.received src datagram)
  | .assign dialOK =>
    match st.main with
    | .received src datagram =>
      if st.store.sessions.lookup src = none ∧ dialOK = false then some (.refused src datagram)
      else none
    | _ => none
  | .send ok =>
    match st.main with
    | .sending id datagram => some (.sent id datagram ok)
    | _ => none
  | .handler i l => st.store.handlers[i]?.bind fun h => handlerEvent h l
  | _ => none

/-- A datagram of a client. -/
def isReceived : Event → Bool
  | .received _ _ => true
  | _ => false

/-- What the main loop does with it in the end. -/
def isForwarded : Event → Bool
  | .refused _ _ | .sent _ _ _ => true
  | _ => false

/-- A datagram from a connection. -/
def isRead (conn : ℕ) : Event → Bool
  | .read conn' _ => conn' = conn
  | _ => false

/-- What the handler of a connection does with it in the end. -/
def isReturned (conn : ℕ) : Event → Bool
  | .unresolved conn' _ | .returned conn' _ _ _ => conn' = conn
  | _ => false

/-- A datagram of a client is written to a connection of that client, or the dial for it fails. -/
def Forwards (source : ℕ → Option Text) (r e : Event) : Prop :=
  ∃ src datagram, r = .received src datagram ∧
    (e = .refused src datagram ∨ ∃ conn ok, e = .sent conn datagram ok ∧ source conn = some src)

/-- A datagram from a connection is written to the client of that connection, or its address cannot
be resolved. -/
def Returns (source : ℕ → Option Text) (conn : ℕ) (r e : Event) : Prop :=
  ∃ datagram, r = .read conn datagram ∧
    (e = .unresolved conn datagram ∨
      ∃ addr ok, e = .returned conn addr datagram ok ∧ source conn = some addr)

/-! ## What is held -/

/-- The datagram that the main loop holds, where a connection has a client. -/
def heldMain (source : ℕ → Option Text) : MainLoop → Option Event
  | .waiting => none
  | .received src datagram => some (.received src datagram)
  | .assigned id datagram | .sending id datagram => (source id).map (.received · datagram)

/-- The datagram that a handler holds. -/
def heldBy (h : Handler) : Option Event :=
  match h.place with
  | .received datagram | .recorded datagram | .resolved datagram =>
    some (.read h.session datagram)
  | _ => none

/-- The invariant of a state and the history that led to it. -/
structure Accounts (st : State) (h : List Event) : Prop where
  ledger : ∃ h₀, Ledger st h₀
  forwards : Settled isReceived isForwarded (Forwards st.store.source) h
    (heldMain st.store.source st.main)
  returns : ∀ conn, Settled (isRead conn) (isReturned conn) (Returns st.store.source conn) h
    (st.store.handlers[conn]?.bind heldBy)

theorem accounts_init (clock : ℤ) : Accounts (State.init clock) [] where
  ledger := ⟨[], ledger_init clock⟩
  forwards := settled_nil
  returns conn := by simpa [State.init, Store.empty] using settled_nil

/-! ## Steps -/

section Steps

variable {conf : UDPProxyTunnelConfig w} {st st' : State} {l : Label} {h₀ : List Udp.Event}
  {h : List Event}

/-- A connection keeps its client. -/
theorem source_of_step (led : Ledger st h₀) (hstep : step conf st l = some st') {conn : ℕ}
    {src : Text} (hsource : st.store.source conn = some src) :
    st'.store.source conn = some src := by
  have led' := ledger_step led hstep
  rw [← led'.dialled_iff]
  exact List.mem_append_left _ ((led.dialled_iff conn src).2 hsource)

theorem Forwards.mono {source source' : ℕ → Option Text}
    (hsource : ∀ conn src, source conn = some src → source' conn = some src) {r e : Event}
    (hre : Forwards source r e) : Forwards source' r e := by
  obtain ⟨src, datagram, rfl, rfl | ⟨conn, ok, rfl, hconn⟩⟩ := hre
  · exact ⟨src, datagram, rfl, .inl rfl⟩
  · exact ⟨src, datagram, rfl, .inr ⟨conn, ok, rfl, hsource conn src hconn⟩⟩

theorem Returns.mono {source source' : ℕ → Option Text} {conn : ℕ}
    (hsource : ∀ conn src, source conn = some src → source' conn = some src) {r e : Event}
    (hre : Returns source conn r e) : Returns source' conn r e := by
  obtain ⟨datagram, rfl, rfl | ⟨addr, ok, rfl, hconn⟩⟩ := hre
  · exact ⟨datagram, rfl, .inl rfl⟩
  · exact ⟨datagram, rfl, .inr ⟨addr, ok, rfl, hsource conn addr hconn⟩⟩

/-- What the main loop holds is the same when connections are added. -/
theorem heldMain_of_step (led : Ledger st h₀) (hstep : step conf st l = some st') :
    heldMain st'.store.source st.main = heldMain st.store.source st.main := by
  have hassigned := led.assigned
  cases hmain : st.main with
  | waiting | received src datagram => rfl
  | assigned id datagram | sending id datagram =>
    obtain ⟨src, hsource⟩ := hassigned id (by rw [hmain]; rfl)
    simp only [heldMain, hsource, source_of_step led hstep hsource]

/-- A step in which the main loop stands still. -/
theorem forwards_other (led : Ledger st h₀) (hstep : step conf st l = some st')
    (hsettled : Settled isReceived isForwarded (Forwards st'.store.source) h
      (heldMain st.store.source st.main)) (hmain : st'.main = st.main)
    (hevent : ∀ x ∈ event st l, isReceived x = false ∧ isForwarded x = false) :
    Settled isReceived isForwarded (Forwards st'.store.source) (h ++ (event st l).toList)
      (heldMain st'.store.source st'.main) := by
  rw [hmain, heldMain_of_step led hstep]
  exact hsettled.others hevent

theorem event_handler {i : ℕ} {hl : HandlerLabel} {x : Event} (hx : x ∈ event st (.handler i hl)) :
    isReceived x = false ∧ isForwarded x = false := by
  obtain ⟨hd, -, hd'⟩ := Option.bind_eq_some_iff.1 hx
  revert hd'
  unfold handlerEvent
  repeat' split
  all_goals
    rintro ⟨⟩
    try exact ⟨rfl, rfl⟩

theorem forwards_step (led : Ledger st h₀)
    (hsettled : Settled isReceived isForwarded (Forwards st.store.source) h
      (heldMain st.store.source st.main)) (hstep : step conf st l = some st') :
    Settled isReceived isForwarded (Forwards st'.store.source) (h ++ (event st l).toList)
      (heldMain st'.store.source st'.main) := by
  have hmono := hsettled.mono fun r e =>
    Forwards.mono (r := r) (e := e) fun _ _ hsource => source_of_step led hstep hsource
  have hsource := @source_of_step _ _ _ _ _ _ led hstep
  have hother := forwards_other led hstep hmono
  cases l with
  | advance d =>
    cases hstep
    exact hother rfl (by simp [event])
  | receive src datagram =>
    rw [step, Option.ite_none_right_eq_some] at hstep
    obtain ⟨hmain, ⟨⟩⟩ := hstep
    rw [hmain] at hmono
    exact hmono.take rfl rfl
  | assign dialOK =>
    rw [step] at hstep
    split at hstep
    · rename_i src datagram hmain
      rw [hmain] at hmono
      cases hlookup : st.store.sessions.lookup src with
      | some id =>
        simp only [Store.getOrCreateSession, hlookup, Option.some.injEq] at hstep
        subst hstep
        -- the session is listed under the address of its handler
        obtain ⟨-, hd, -, hh, hsrc, -⟩ := led.wellFormed.entry hlookup
        have hid : st.store.source id = some src := by
          rw [Store.source, hh, Option.map_some, hsrc]
        simp only [event, hmain, hlookup, reduceCtorEq, false_and, if_false, Option.toList_none,
          List.append_nil, heldMain, hsource hid, Option.map_some]
        exact hmono
      | none =>
        cases dialOK with
        | true =>
          simp only [Store.getOrCreateSession, hlookup, if_true, Option.some.injEq] at hstep
          subst hstep
          have hnew : (st.store.create src st.clock).source st.store.heap.length = some src := by
            simp [Store.source, Store.create, ← led.wellFormed.length_eq]
          simp only [event, hmain, hlookup, Bool.true_eq_false, and_false, if_false,
            Option.toList_none, List.append_nil, heldMain, hnew, Option.map_some]
          exact hmono
        | false =>
          simp only [Store.getOrCreateSession, hlookup, Bool.false_eq_true, if_false,
            Option.some.injEq] at hstep
          subst hstep
          simp only [event, hmain, hlookup, and_self, if_true]
          exact hmono.settle rfl rfl ⟨src, datagram, rfl, .inl rfl⟩
    · cases hstep
  | record =>
    rw [step] at hstep
    split at hstep
    · rename_i id datagram hmain
      cases hstep
      rw [hmain] at hmono
      simp only [event, Option.toList_none, List.append_nil]
      exact hmono
    · cases hstep
  | send ok =>
    rw [step] at hstep
    split at hstep
    · rename_i id datagram hmain
      rw [Option.ite_none_left_eq_some] at hstep
      obtain ⟨-, ⟨⟩⟩ := hstep
      obtain ⟨src, hid⟩ := led.assigned id (by rw [hmain]; rfl)
      simp only [hmain, heldMain, hid, Option.map_some] at hmono
      simp only [event, hmain]
      exact hmono.settle rfl rfl ⟨src, datagram, rfl, .inr ⟨id, ok, rfl, hid⟩⟩
    · cases hstep
  | wake =>
    rw [step, Option.ite_none_right_eq_some] at hstep
    obtain ⟨-, ⟨⟩⟩ := hstep
    exact hother rfl (by simp [event])
  | sweep =>
    rw [step] at hstep
    split at hstep
    · cases hstep
      exact hother rfl (by simp [event])
    · cases hstep
  | handler i l =>
    rw [step] at hstep
    split at hstep
    · obtain ⟨store, -, rfl⟩ := Option.map_eq_some_iff.1 hstep
      exact hother rfl fun x hx => event_handler hx
    · cases hstep

/-! ### The handlers -/

/-- A step of another handler, or of none, shows nothing of a connection. -/
theorem event_other {conn : ℕ} (led : Ledger st h₀) (hl : isHandler conn l = false) {x : Event}
    (hx : x ∈ event st l) : isRead conn x = false ∧ isReturned conn x = false := by
  cases l with
  | handler j l =>
    have hj : j ≠ conn := by simpa [isHandler] using hl
    obtain ⟨hd, hhd, hd'⟩ := Option.bind_eq_some_iff.1 hx
    have hsession := led.wellFormed.handler_session hhd
    revert hd'
    unfold handlerEvent
    repeat' split
    all_goals
      rintro ⟨⟩
      try simp [isRead, isReturned, hsession, hj]
  | _ =>
    revert hx
    simp only [event]
    repeat' split
    all_goals
      rintro ⟨⟩
      try exact ⟨rfl, rfl⟩

/-- A new handler holds nothing. -/
theorem held_of_new {conn : ℕ} (hnone : st.store.handlers[conn]? = none)
    (hstep : step conf st l = some st') : st'.store.handlers[conn]?.bind heldBy = none := by
  have hlen := List.getElem?_eq_none_iff.1 hnone
  have hsame : ∀ {store : Store}, store.handlers.length = st.store.handlers.length →
      store.handlers[conn]?.bind heldBy = none := by
    intro store heq
    rw [List.getElem?_eq_none (heq.trans_le hlen)]
    rfl
  have heff := storeEffect_of_step hstep
  generalize st'.store = store' at heff ⊢
  cases heff with
  | same | record id => exact hsame rfl
  | assign src dialOK =>
    rw [Store.getOrCreateSession]
    split
    · exact hsame rfl
    · split
      · rw [Store.create, List.getElem?_append_right hlen, List.getElem?_singleton]
        split <;> rfl
      · exact hsame rfl
  | sweep now => exact hsame (congrArg List.length (st.store.handlers_sweep _ _))
  | handler i hd store hh heff =>
    cases heff with
    | move place | record place | close => exact hsame (List.length_modify _ _ _)
    | remove hplace =>
      refine hsame ((List.length_modify _ _ _).trans ?_)
      rw [st.store.handlers_removeSession]

theorem returns_other {conn : ℕ} (led : Ledger st h₀) (hstep : step conf st l = some st')
    (hl : isHandler conn l = false)
    (hsettled : Settled (isRead conn) (isReturned conn) (Returns st'.store.source conn) h
      (st.store.handlers[conn]?.bind heldBy)) :
    Settled (isRead conn) (isReturned conn) (Returns st'.store.source conn)
      (h ++ (event st l).toList) (st'.store.handlers[conn]?.bind heldBy) := by
  have hheld : st'.store.handlers[conn]?.bind heldBy = st.store.handlers[conn]?.bind heldBy := by
    cases hh : st.store.handlers[conn]? with
    | some hd => rw [handler_of_other_step hh hl hstep]
    | none => exact held_of_new hh hstep
  rw [hheld]
  exact hsettled.others fun x hx => event_other led hl hx

/-- A step of the handler of a connection. -/
theorem returns_handler {i : ℕ} {hd : Handler} (hsession : hd.session = i)
    (hh : st.store.handlers[i]? = some hd) {hl : HandlerLabel} {store : Store}
    (hstep : handlerStep st.store st.clock i hd hl = some store) {source : ℕ → Option Text}
    (hsource : source i = some hd.srcAddr)
    (hsettled : Settled (isRead i) (isReturned i) (Returns source i) h (heldBy hd)) :
    Settled (isRead i) (isReturned i) (Returns source i) (h ++ (handlerEvent hd hl).toList)
      (store.handlers[i]?.bind heldBy) := by
  have hmove : ∀ (st₁ : Store) (place : Place), st₁.handlers = st.store.handlers →
      (st₁.moveTo i place).handlers[i]?.bind heldBy = heldBy { hd with place := place } := by
    intro st₁ place hhandlers
    rw [Store.moveTo, hhandlers, List.getElem?_modify_eq, hh]
    rfl
  cases hl with
  | check | recheck =>
    rw [handlerStep, Option.ite_none_right_eq_some, Option.some.injEq] at hstep
    obtain ⟨hplace, rfl⟩ := hstep
    rw [hmove st.store _ rfl]
    simp only [heldBy, hplace] at hsettled
    split <;> simpa [handlerEvent, heldBy] using hsettled
  | data datagram =>
    rw [handlerStep, Option.ite_none_right_eq_some, Option.some.injEq] at hstep
    obtain ⟨hplace, rfl⟩ := hstep
    rw [hmove st.store _ rfl]
    simp only [heldBy, hplace] at hsettled
    exact hsettled.take (by simp [isRead, hsession]) rfl
  | timeout | readError =>
    rw [handlerStep, Option.ite_none_right_eq_some, Option.some.injEq] at hstep
    obtain ⟨hplace, rfl⟩ := hstep
    rw [hmove st.store _ rfl]
    simp only [heldBy, hplace] at hsettled
    simpa [handlerEvent, heldBy] using hsettled
  | record =>
    rw [handlerStep] at hstep
    split at hstep
    · rename_i datagram hplace
      cases hstep
      rw [hmove (st.store.touch hd.session st.clock) _ rfl]
      simp only [heldBy, hplace] at hsettled
      simpa [handlerEvent, heldBy] using hsettled
    · cases hstep
  | resolve ok =>
    rw [handlerStep] at hstep
    split at hstep
    · rename_i datagram hplace
      cases hstep
      rw [hmove st.store _ rfl]
      simp only [heldBy, hplace] at hsettled
      cases ok with
      | true => simpa [handlerEvent, heldBy, hplace] using hsettled
      | false =>
        simp only [handlerEvent, hplace]
        rw [hsession] at hsettled ⊢
        exact hsettled.settle rfl (by simp [isReturned]) ⟨datagram, rfl, .inl rfl⟩
    · cases hstep
  | write ok =>
    rw [handlerStep] at hstep
    split at hstep
    · rename_i datagram hplace
      cases hstep
      rw [hmove st.store _ rfl]
      simp only [heldBy, hplace] at hsettled
      have hheld : heldBy { hd with place := if ok then Place.check else .removing } = none := by
        cases ok <;> rfl
      simp only [handlerEvent, hplace, hheld]
      rw [hsession] at hsettled ⊢
      exact hsettled.settle rfl (by simp [isReturned])
        ⟨datagram, rfl, .inr ⟨hd.srcAddr, ok, rfl, hsource⟩⟩
    · cases hstep
  | remove =>
    rw [handlerStep, Option.ite_none_right_eq_some, Option.some.injEq] at hstep
    obtain ⟨hplace, rfl⟩ := hstep
    rw [hmove _ _ (st.store.handlers_removeSession _ _)]
    simp only [heldBy, hplace] at hsettled
    simpa [handlerEvent, heldBy] using hsettled
  | close =>
    rw [handlerStep, Option.ite_none_right_eq_some, Option.some.injEq] at hstep
    obtain ⟨hplace, rfl⟩ := hstep
    rw [hmove (st.store.closeConn hd.session) _ rfl]
    simp only [heldBy, hplace] at hsettled
    simpa [handlerEvent, heldBy] using hsettled

theorem returns_step {conn : ℕ} (led : Ledger st h₀)
    (hsettled : Settled (isRead conn) (isReturned conn) (Returns st.store.source conn) h
      (st.store.handlers[conn]?.bind heldBy)) (hstep : step conf st l = some st') :
    Settled (isRead conn) (isReturned conn) (Returns st'.store.source conn)
      (h ++ (event st l).toList) (st'.store.handlers[conn]?.bind heldBy) := by
  have hmono := hsettled.mono fun r e =>
    Returns.mono (r := r) (e := e) fun _ _ hsource => source_of_step led hstep hsource
  by_cases hl : isHandler conn l = true
  · cases l with
    | handler j l =>
      obtain rfl : j = conn := by simpa [isHandler] using hl
      have hsource := @source_of_step _ _ _ _ _ _ led hstep
      rw [step] at hstep
      split at hstep
      · rename_i hd hh
        obtain ⟨store, hstore, rfl⟩ := Option.map_eq_some_iff.1 hstep
        rw [hh] at hmono
        simp only [event, hh, Option.bind_some]
        exact returns_handler (led.wellFormed.handler_session hh) hh hstore
          (hsource (by rw [Store.source, hh, Option.map_some])) hmono
      · cases hstep
    | _ => cases hl
  · exact returns_other led hstep (by simpa using hl) hmono

/-- **Every step keeps the invariant.** -/
theorem accounts_step (accounts : Accounts st h) (hstep : step conf st l = some st') :
    Accounts st' (h ++ (event st l).toList) := by
  obtain ⟨h₀, led⟩ := accounts.ledger
  exact ⟨⟨_, ledger_step led hstep⟩, forwards_step led accounts.forwards hstep,
    fun conn => returns_step led (accounts.returns conn) hstep⟩

end Steps

/-- **No datagram is lost silently.** In every run, where a connection belongs to the client for
which its handler was started:

* the datagrams read from the listener are, in their order, those that were written to a connection
  of their client or for which the dial failed, in this order, and then the one that the main loop
  holds, if any;
* the datagrams read from a connection are, in their order, those that were written to the
  listener for its client or whose address could not be resolved, in this order, and then the one
  that the handler holds, if any. -/
theorem datagrams_settled {conf : UDPProxyTunnelConfig w} {clock : ℤ} {labels : List Label}
    {st : State} (hrun : run (step conf) (State.init clock) labels = some st) :
    let h := events (step conf) event (State.init clock) labels
    Settled isReceived isForwarded (Forwards st.store.source) h
      (heldMain st.store.source st.main) ∧
    ∀ conn, Settled (isRead conn) (isReturned conn) (Returns st.store.source conn) h
      (st.store.handlers[conn]?.bind heldBy) := by
  intro h
  have accounts : Accounts st h :=
    run_invariant (accounts_init clock) (fun _ _ _ _ hI hstep => accounts_step hI hstep) hrun
  exact ⟨accounts.forwards, accounts.returns⟩

/-- The dial for the first datagram of a client fails; the second one is sent, and the answer
arrives but has not been written yet. -/
def refusedOnce : List Label :=
  [.receive "192.0.2.1:4000" [1], .assign false, .receive "192.0.2.1:4000" [2], .assign true,
    .record, .handler 0 .check, .send true, .handler 0 (.data [3]), .handler 0 .record]

theorem datagrams_settled_refusedOnce :
    let h : List Event := [.received "192.0.2.1:4000" [1], .refused "192.0.2.1:4000" [1],
      .received "192.0.2.1:4000" [2], .sent 0 [2] true, .read 0 [3]]
    ∃ st, run (step thirtySeconds) (State.init 0) refusedOnce = some st ∧
      Settled isReceived isForwarded (Forwards st.store.source) h none ∧
      Settled (isRead 0) (isReturned 0) (Returns st.store.source 0) h (some (.read 0 [3])) := by
  intro h
  have hfacts : ((run (step thirtySeconds) (State.init 0) refusedOnce).map fun st =>
      (st.main, st.store.handlers[0]?.bind heldBy)) = some (.waiting, some (.read 0 [3])) := by
    decide +kernel
  have hevents : events (step thirtySeconds) event (State.init 0) refusedOnce = h := by
    decide +kernel
  obtain ⟨st, hrun, hst⟩ := Option.map_eq_some_iff.1 hfacts
  rw [Prod.mk.injEq] at hst
  obtain ⟨hforwards, hreturns⟩ := datagrams_settled hrun
  rw [hevents, hst.1] at hforwards
  rw [hevents] at hreturns
  exact ⟨st, hrun, hforwards, hst.2 ▸ hreturns 0⟩

end WireProxy.Udp.Settlement
