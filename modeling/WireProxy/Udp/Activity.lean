import WireProxy.Foundations.Transition.History
import WireProxy.Udp.LifeCycle

/-!
# The activity of the sessions

The times that the UDP proxy records for its sessions, in terms of what has happened to them: a
session is active when it is created, when a datagram of its client is assigned to it and when a
datagram from the remote side is read for it.

* `event` is the event of a step. `Move` says once what a step can do, with its event, and
  `HandlerMove` what a step of a handler can do.
* `Timing` lists what a step can do to the recorded times. From it follows the invariant `Timed`:
  the time recorded for a session is that of its last activity in the history.
-/

namespace WireProxy.Udp

open Text Go Config Transition

variable {w : IntSize}

namespace Store

/-- The times recorded for the sessions. -/
def times (st : Store) : List ℤ := st.heap.map Session.lastActive

/-- A change that leaves the times alone. -/
theorem map_lastActive_modify {f : Session → Session}
    (hf : ∀ s, (f s).lastActive = s.lastActive) (heap : List Session) (id : ℕ) :
    (heap.modify id f).map Session.lastActive = heap.map Session.lastActive := by
  refine List.ext_getElem? fun j => ?_
  rw [List.getElem?_map, List.getElem?_modify, List.getElem?_map]
  cases heap[j]? with
  | none => rfl
  | some s =>
    by_cases hj : id = j
    · simp [hj, hf]
    · simp [hj]

theorem times_closeSessionChan (st : Store) (id : ℕ) :
    (st.closeSessionChan id).times = st.times :=
  map_lastActive_modify (fun s => by split <;> rfl) st.heap id

theorem times_dropEntry (st : Store) (src : Text) (id : ℕ) :
    (st.dropEntry src id).times = st.times := st.times_closeSessionChan id

theorem times_removeSession (st : Store) (src : Text) (id : ℕ) :
    (st.removeSession src id).times = st.times := by
  rw [removeSession]
  split
  · exact st.times_dropEntry src id
  · rfl

theorem times_sweep (st : Store) (d now : ℤ) : (st.sweep d now).times = st.times :=
  sweep_induction (P := fun st' => st'.times = st.times)
    (fun st' src id h _ => (st'.times_dropEntry src id).trans h) rfl

theorem times_touch (st : Store) (id : ℕ) (now : ℤ) :
    (st.touch id now).times = st.times.set id now := by
  refine List.ext_getElem? fun j => ?_
  simp only [times, touch, List.getElem?_map, List.getElem?_modify, List.getElem?_set,
    List.length_map]
  by_cases hj : id = j
  · subst hj
    cases h : st.heap[id]? with
    | none => simp [List.getElem?_eq_none_iff.1 h]
    | some s => simp [(List.getElem?_eq_some_iff.1 h).1]
  · simp [hj]

theorem times_closeConn (st : Store) (id : ℕ) : (st.closeConn id).times = st.times :=
  map_lastActive_modify (f := fun s => { s with connCloses := s.connCloses + 1 }) (fun _ => rfl)
    st.heap id

theorem times_create (st : Store) (src : Text) (now : ℤ) :
    (st.create src now).times = st.times ++ [now] := by
  simp [times, create]

end Store

namespace Sweeper

/-! ## Activity -/

/-- Why a session is active. -/
inductive Cause
  /-- The session is created. -/
  | created
  /-- A datagram of the client is assigned to it. -/
  | assigned
  /-- A datagram from the remote side is read for it. -/
  | read
  deriving DecidableEq

/-- What happens to the sessions, each with its time. -/
inductive Event
  | active (cause : Cause) (session : ℕ) (time : ℤ)
  /-- The sweeper reads the time. -/
  | woke (time : ℤ)
  /-- A read, the resolution of the address or a write of the handler fails. -/
  | failed (session : ℕ) (time : ℤ)
  deriving DecidableEq

/-- The time of an event. -/
def Event.time : Event → ℤ
  | active _ _ time => time
  | woke time => time
  | failed _ time => time

/-- The event of a handler's step at a time. -/
def handlerEvent (h : Handler) (now : ℤ) : HandlerLabel → Option Event
  | .record => some (.active .read h.session now)
  | .readError | .resolve false | .write false => some (.failed h.session now)
  | _ => none

/-- The event of a step. -/
def event (st : State) : Label → Option Event
  | .assign dialOK =>
    match st.main with
    | .received src _ =>
      match st.store.sessions.lookup src with
      | some id => some (.active .assigned id st.clock)
      | none => if dialOK then some (.active .created st.store.heap.length st.clock) else none
    | _ => none
  | .record =>
    match st.main with
    | .assigned id _ => some (.active .assigned id st.clock)
    | _ => none
  | .wake => some (.woke st.clock)
  | .handler i l => st.store.handlers[i]?.bind fun h => handlerEvent h st.clock l
  | _ => none

/-- The times at which a session was active. -/
def activity (h : List Event) (id : ℕ) : Set ℤ := {t | ∃ cause, .active cause id t ∈ h}

/-! ## Steps with their events -/

/-- The handler is on its way out. -/
def Leaving (place : Place) : Prop := place = .removing ∨ place = .closing ∨ place = .ended

theorem not_leaving {place : Place} (h : place ≠ .removing ∧ place ≠ .closing ∧ place ≠ .ended) :
    ¬ Leaving place := by
  rintro (hplace | hplace | hplace)
  · exact h.1 hplace
  · exact h.2.1 hplace
  · exact h.2.2 hplace

/-- What a step of a handler can do, and its event. -/
inductive HandlerMove (st : Store) (now : ℤ) (i : ℕ) (h : Handler) : Store → Option Event → Prop
  /-- It stays in the loop. -/
  | stay (place : Place) (hplace : ¬ Leaving place) :
    HandlerMove st now i h (st.moveTo i place) none
  /-- It sees that the channel is closed. -/
  | leave (hclosed : st.chanClosed h.session) : HandlerMove st now i h (st.moveTo i .removing) none
  | fail : HandlerMove st now i h (st.moveTo i .removing) (some (.failed h.session now))
  /-- It records the time of a datagram. -/
  | record (place : Place) (hplace : ¬ Leaving place) :
    HandlerMove st now i h ((st.touch h.session now).moveTo i place)
      (some (.active .read h.session now))
  | remove (hplace : h.place = .removing) :
    HandlerMove st now i h ((st.removeSession h.srcAddr h.session).moveTo i .closing) none
  | close (hplace : h.place = .closing) :
    HandlerMove st now i h ((st.closeConn h.session).moveTo i .ended) none

/-- **What a step of a handler can do.** -/
theorem handlerMove_of_step {st st' : Store} {now : ℤ} {i : ℕ} {h : Handler} {l : HandlerLabel}
    (hstep : handlerStep st now i h l = some st') :
    HandlerMove st now i h st' (handlerEvent h now l) := by
  cases l with
  | check | recheck =>
    rw [handlerStep, Option.ite_none_right_eq_some, Option.some.injEq] at hstep
    obtain ⟨-, rfl⟩ := hstep
    split
    · rename_i hclosed
      exact .leave hclosed
    · exact .stay _ (not_leaving (by simp))
  | data | timeout =>
    rw [handlerStep, Option.ite_none_right_eq_some, Option.some.injEq] at hstep
    obtain ⟨-, rfl⟩ := hstep
    exact .stay _ (not_leaving (by simp))
  | readError =>
    rw [handlerStep, Option.ite_none_right_eq_some, Option.some.injEq] at hstep
    obtain ⟨-, rfl⟩ := hstep
    exact .fail
  | record =>
    rw [handlerStep] at hstep
    split at hstep
    · cases hstep
      exact .record _ (not_leaving (by simp))
    · cases hstep
  | resolve ok | write ok =>
    rw [handlerStep] at hstep
    split at hstep
    · cases hstep
      cases ok with
      | false => exact .fail
      | true => exact .stay _ (not_leaving (by simp))
    · cases hstep
  | remove =>
    rw [handlerStep, Option.ite_none_right_eq_some, Option.some.injEq] at hstep
    obtain ⟨hplace, rfl⟩ := hstep
    exact .remove hplace
  | close =>
    rw [handlerStep, Option.ite_none_right_eq_some, Option.some.injEq] at hstep
    obtain ⟨hplace, rfl⟩ := hstep
    exact .close hplace

/-- What a step of the system can do, and its event. -/
inductive Move (conf : UDPProxyTunnelConfig w) (st : State) : State → Option Event → Prop
  | advance (d : ℕ) : Move conf st { st with clock := st.clock + d } none
  /-- The main loop moves on without a session. -/
  | main (place : MainLoop) (hplace : ∀ id datagram, place ≠ .assigned id datagram) :
    Move conf st { st with main := place } none
  /-- The main loop gets a session that exists. -/
  | assign (src : Text) (id : ℕ) (datagram : Bytes)
    (hlookup : st.store.sessions.lookup src = some id) :
    Move conf st { st with store := st.store.touch id st.clock, main := .assigned id datagram }
      (some (.active .assigned id st.clock))
  /-- The main loop gets a new session. -/
  | create (src : Text) (datagram : Bytes) :
    Move conf st
      { st with
        store := st.store.create src st.clock
        main := .assigned st.store.heap.length datagram }
      (some (.active .created st.store.heap.length st.clock))
  /-- The main loop records the time of a datagram. -/
  | record (id : ℕ) (datagram : Bytes) (hmain : st.main = .assigned id datagram) :
    Move conf st { st with store := st.store.touch id st.clock, main := .sending id datagram }
      (some (.active .assigned id st.clock))
  | wake (hconf : 0 < conf.inactivityTimeout.toInt) :
    Move conf st { st with sweeper := some st.clock } (some (.woke st.clock))
  | sweep (now : ℤ) (hnow : st.sweeper = some now) :
    Move conf st { st with store := st.store.sweep (inactivityDur conf) now, sweeper := none } none
  | handler (i : ℕ) (h : Handler) (l : HandlerLabel) (store : Store)
    (hh : st.store.handlers[i]? = some h)
    (hstep : handlerStep st.store st.clock i h l = some store) :
    Move conf st { st with store := store } (handlerEvent h st.clock l)

/-- **What a step of the system can do.** -/
theorem move_of_step {conf : UDPProxyTunnelConfig w} {st st' : State} {l : Label}
    (hstep : step conf st l = some st') : Move conf st st' (event st l) := by
  cases l with
  | advance d =>
    cases hstep
    exact .advance d
  | receive src datagram =>
    rw [step, Option.ite_none_right_eq_some] at hstep
    obtain ⟨-, ⟨⟩⟩ := hstep
    exact .main _ (by simp)
  | assign dialOK =>
    rw [step] at hstep
    split at hstep
    · rename_i src datagram hmain
      simp only [event, hmain]
      cases hlookup : st.store.sessions.lookup src with
      | some id =>
        simp only [Store.getOrCreateSession, hlookup, Option.some.injEq] at hstep
        subst hstep
        exact .assign src id datagram hlookup
      | none =>
        cases dialOK with
        | true =>
          simp only [Store.getOrCreateSession, hlookup, if_true, Option.some.injEq] at hstep
          subst hstep
          exact .create src datagram
        | false =>
          simp only [Store.getOrCreateSession, hlookup, Bool.false_eq_true, if_false,
            Option.some.injEq] at hstep
          subst hstep
          exact .main _ (by simp)
    · cases hstep
  | record =>
    rw [step] at hstep
    split at hstep
    · rename_i id datagram hmain
      cases hstep
      simp only [event, hmain]
      exact .record id datagram hmain
    · cases hstep
  | send ok =>
    rw [step] at hstep
    split at hstep
    · rw [Option.ite_none_left_eq_some] at hstep
      obtain ⟨-, ⟨⟩⟩ := hstep
      exact .main _ (by simp)
    · cases hstep
  | wake =>
    rw [step, Option.ite_none_right_eq_some] at hstep
    obtain ⟨⟨hconf, -⟩, ⟨⟩⟩ := hstep
    exact .wake hconf
  | sweep =>
    rw [step] at hstep
    split at hstep
    · rename_i now hnow
      cases hstep
      exact .sweep now hnow
    · cases hstep
  | handler i l =>
    rw [step] at hstep
    split at hstep
    · rename_i h hh
      obtain ⟨store, hstore, rfl⟩ := Option.map_eq_some_iff.1 hstep
      simp only [event, hh, Option.bind_some]
      exact .handler i h l store hh hstore
    · cases hstep

/-! ## The recorded times -/

/-- What a step can do to the recorded times, and its event. -/
inductive Timing (st st' : State) : Option Event → Prop
  /-- It records nothing. -/
  | quiet {e : Option Event} (htimes : st'.store.times = st.store.times)
    (htime : ∀ x ∈ e, x.time = st.clock) (hquiet : ∀ cause id t, e ≠ some (.active cause id t)) :
    Timing st st' e
  /-- It records the time for a session. -/
  | touch (cause : Cause) (id : ℕ) (hid : id < st.store.times.length)
    (htimes : st'.store.times = st.store.times.set id st.clock) :
    Timing st st' (some (.active cause id st.clock))
  /-- It creates a session. -/
  | create (htimes : st'.store.times = st.store.times ++ [st.clock]) :
    Timing st st' (some (.active .created st.store.times.length st.clock))

/-- The session that the main loop has been given exists. -/
def Assigned (st : State) : Prop := ∀ id datagram, st.main = .assigned id datagram →
  id < st.store.times.length

section Steps

variable {conf : UDPProxyTunnelConfig w} {st st' : State} {e : Option Event}

theorem length_times (st : Store) : st.times.length = st.heap.length := List.length_map _

theorem lt_length_of_lookup (wf : WellFormed st.store) {src : Text} {id : ℕ}
    (h : st.store.sessions.lookup src = some id) : id < st.store.times.length := by
  obtain ⟨s, -, hs, -⟩ := wf.entry h
  rw [length_times]
  exact (List.getElem?_eq_some_iff.1 hs).1

theorem timing_of_handlerMove (wf : WellFormed st.store) {i : ℕ} {h : Handler}
    (hh : st.store.handlers[i]? = some h) {store : Store}
    (hmove : HandlerMove st.store st.clock i h store e) :
    Timing st { st with store := store } e := by
  cases hmove with
  | stay _ _ | leave _ => exact .quiet rfl (by simp) (by simp)
  | fail => exact .quiet rfl (by simp [Event.time]) (by simp)
  | record place _ =>
    refine .touch .read h.session ?_ (st.store.times_touch _ _)
    obtain ⟨s, hs⟩ := wf.exists_session hh
    rw [length_times, wf.handler_session hh]
    exact (List.getElem?_eq_some_iff.1 hs).1
  | remove _ => exact .quiet (st.store.times_removeSession _ _) (by simp) (by simp)
  | close _ => exact .quiet (st.store.times_closeConn _) (by simp) (by simp)

/-- **What a step can do to the recorded times.** -/
theorem timing_of_move (wf : WellFormed st.store) (hassigned : Assigned st)
    (hmove : Move conf st st' e) : Timing st st' e := by
  cases hmove with
  | advance _ => exact .quiet rfl (by simp) (by simp)
  | main _ _ => exact .quiet rfl (by simp) (by simp)
  | assign _ id _ hlookup =>
    exact .touch .assigned id (lt_length_of_lookup wf hlookup) (st.store.times_touch _ _)
  | create src _ =>
    rw [← length_times]
    exact .create (st.store.times_create _ _)
  | record id datagram hmain =>
    exact .touch .assigned id (hassigned id datagram hmain) (st.store.times_touch _ _)
  | wake _ => exact .quiet rfl (by simp [Event.time]) (by simp)
  | sweep _ _ => exact .quiet (st.store.times_sweep _ _) (by simp) (by simp)
  | handler _ _ _ _ hh hstep => exact timing_of_handlerMove wf hh (handlerMove_of_step hstep)

/-- What a step can do to the rest of the state. -/
structure Rest (st st' : State) (e : Option Event) : Prop where
  clock_le : st.clock ≤ st'.clock
  main : ∀ id datagram, st'.main = .assigned id datagram →
    st.main = .assigned id datagram ∨ id < st'.store.times.length
  /-- The time that the sweeper holds is the one that it read last. -/
  sweeper : ∀ now, st'.sweeper = some now →
    (st.sweeper = some now ∧ ∀ t, e ≠ some (.woke t)) ∨ e = some (.woke now)

theorem woke_ne_handlerEvent (h : Handler) (now t : ℤ) (l : HandlerLabel) :
    handlerEvent h now l ≠ some (.woke t) := by
  unfold handlerEvent
  split <;> simp

theorem rest_of_move (wf : WellFormed st.store) (hmove : Move conf st st' e) : Rest st st' e := by
  cases hmove with
  | advance d => exact ⟨by simp, fun _ _ => .inl, fun _ h => .inl ⟨h, by simp⟩⟩
  | main place hplace =>
    exact ⟨le_rfl, fun id datagram h => absurd h (hplace id datagram),
      fun _ h => .inl ⟨h, by simp⟩⟩
  | assign src id datagram hlookup =>
    refine ⟨le_rfl, fun j _ h => .inr ?_, fun _ h => .inl ⟨h, by simp⟩⟩
    cases h
    rw [st.store.times_touch, List.length_set]
    exact lt_length_of_lookup wf hlookup
  | create src datagram =>
    refine ⟨le_rfl, fun j _ h => .inr ?_, fun _ h => .inl ⟨h, by simp⟩⟩
    cases h
    simp [st.store.times_create, length_times]
  | record id datagram hmain =>
    exact ⟨le_rfl, fun _ _ h => (by cases h), fun _ h => .inl ⟨h, by simp⟩⟩
  | wake hconf =>
    refine ⟨le_rfl, fun _ _ => .inl, fun now hnow => .inr ?_⟩
    cases hnow
    rfl
  | sweep now hnow => exact ⟨le_rfl, fun _ _ => .inl, fun _ h => by cases h⟩
  | handler i h l store hh hstep =>
    exact ⟨le_rfl, fun _ _ => .inl,
      fun _ hnow => .inl ⟨hnow, fun t => woke_ne_handlerEvent h st.clock t l⟩⟩

end Steps

/-! ## The invariant of the times -/

theorem activity_append_of_quiet {h : List Event} {e : Option Event}
    (he : ∀ cause id t, e ≠ some (.active cause id t)) (id : ℕ) :
    activity (h ++ e.toList) id = activity h id := by
  ext t
  simp only [activity, Set.mem_ofPred_eq, List.mem_append, Option.mem_toList]
  refine exists_congr fun cause => or_iff_left ?_
  exact he cause id t

theorem activity_append_active (h : List Event) (cause : Cause) (id : ℕ) (t : ℤ) (j : ℕ) :
    activity (h ++ [.active cause id t]) j =
      if j = id then insert t (activity h j) else activity h j := by
  ext x
  simp only [activity, Set.mem_ofPred_eq, List.mem_append, List.mem_singleton, Event.active.injEq]
  split
  · rename_i hj
    subst hj
    constructor
    · rintro ⟨c, hc | ⟨-, -, rfl⟩⟩
      · exact .inr ⟨c, hc⟩
      · exact .inl rfl
    · rintro (rfl | ⟨c, hc⟩)
      · exact ⟨cause, .inr ⟨rfl, rfl, rfl⟩⟩
      · exact ⟨c, .inl hc⟩
  · rename_i hj
    exact exists_congr fun c => or_iff_left fun h => hj h.2.1

/-- The invariant: the time recorded for a session is that of its last activity. -/
structure Timed (st : State) (h : List Event) : Prop where
  wellFormed : WellFormed st.store
  assigned : Assigned st
  last : ∀ id t, st.store.times[id]? = some t → IsGreatest (activity h id) t
  sorted : h.Pairwise fun a b => a.time ≤ b.time
  past : ∀ e ∈ h, e.time ≤ st.clock
  woke : ∀ now, st.sweeper = some now →
    ∃ h₁ h₂, h = h₁ ++ .woke now :: h₂ ∧ ∀ t, .woke t ∉ h₂

theorem timed_init (clock : ℤ) : Timed (State.init clock) [] where
  wellFormed := wellFormed_empty
  assigned id datagram h := by cases h
  last id t h := by simp [State.init, Store.empty, Store.times] at h
  sorted := .nil
  past e h := by cases h
  woke now h := by cases h

section Invariant

variable {st st' : State} {h : List Event} {e : Option Event}

/-- An activity at the current time is the last one. -/
theorem Timed.isGreatest_insert (timed : Timed st h) (id : ℕ) :
    IsGreatest (insert st.clock (activity h id)) st.clock := by
  refine ⟨.inl rfl, ?_⟩
  rintro t (rfl | ⟨cause, ht⟩)
  · exact le_rfl
  · exact timed.past _ ht

theorem Timed.last_of_timing (timed : Timed st h) (htiming : Timing st st' e) :
    ∀ id t, st'.store.times[id]? = some t → IsGreatest (activity (h ++ e.toList) id) t := by
  intro j t ht
  cases htiming with
  | quiet htimes _ hquiet =>
    rw [htimes] at ht
    rw [activity_append_of_quiet hquiet]
    exact timed.last j t ht
  | touch cause id hid htimes =>
    rw [htimes] at ht
    rw [Option.toList_some, activity_append_active]
    by_cases hj : j = id
    · subst hj
      rw [List.getElem?_set_self hid, Option.some.injEq] at ht
      rw [if_pos rfl, ← ht]
      exact timed.isGreatest_insert j
    · rw [List.getElem?_set_ne (Ne.symm hj)] at ht
      rw [if_neg hj]
      exact timed.last j t ht
  | create htimes =>
    rw [htimes] at ht
    rw [Option.toList_some, activity_append_active]
    rcases getElem?_concat_eq_some_iff.1 ht with ht | ⟨rfl, rfl⟩
    · rw [if_neg (List.getElem?_eq_some_iff.1 ht).1.ne]
      exact timed.last j t ht
    · rw [if_pos rfl]
      exact timed.isGreatest_insert _

theorem Timing.length_le (htiming : Timing st st' e) :
    st.store.times.length ≤ st'.store.times.length := by
  cases htiming with
  | quiet htimes _ _ => rw [htimes]
  | touch _ _ _ htimes => rw [htimes, List.length_set]
  | create htimes => simp [htimes]

theorem Timing.time_eq (htiming : Timing st st' e) : ∀ x ∈ e, x.time = st.clock := by
  intro x hx
  cases htiming with
  | quiet _ htime _ => exact htime x hx
  | touch _ _ _ _ =>
    cases hx
    rfl
  | create _ =>
    cases hx
    rfl

/-- **Every step keeps the invariant.** -/
theorem timed_step {conf : UDPProxyTunnelConfig w} {l : Label} (timed : Timed st h)
    (hstep : step conf st l = some st') : Timed st' (h ++ (event st l).toList) := by
  have htiming := timing_of_move timed.wellFormed timed.assigned (move_of_step hstep)
  have hrest := rest_of_move timed.wellFormed (move_of_step hstep)
  have htime := htiming.time_eq
  exact {
    wellFormed := wellFormed_storeEffect timed.wellFormed (storeEffect_of_step hstep)
    assigned := by
      intro id datagram hmain
      rcases hrest.main id datagram hmain with hold | hlt
      · exact (timed.assigned id datagram hold).trans_le htiming.length_le
      · exact hlt
    last := timed.last_of_timing htiming
    sorted := by
      refine List.pairwise_append.2 ⟨timed.sorted, ?_, fun a ha b hb => ?_⟩
      · cases event st l with
        | none => exact .nil
        | some x => exact List.pairwise_singleton _ x
      · rw [htime b (Option.mem_toList.1 hb)]
        exact timed.past a ha
    past := by
      intro x hx
      rcases List.mem_append.1 hx with hx | hx
      · exact (timed.past x hx).trans hrest.clock_le
      · rw [htime x (Option.mem_toList.1 hx)]
        exact hrest.clock_le
    woke := by
      intro now hnow
      rcases hrest.sweeper now hnow with ⟨hold, hne⟩ | hwoke
      · obtain ⟨h₁, h₂, rfl, hlast⟩ := timed.woke now hold
        refine ⟨h₁, h₂ ++ (event st l).toList, by simp, fun t ht => ?_⟩
        rcases List.mem_append.1 ht with ht | ht
        · exact hlast t ht
        · exact hne t (Option.mem_toList.1 ht)
      · exact ⟨h, [], by rw [hwoke, Option.toList_some], by simp⟩ }

end Invariant

end Sweeper

end WireProxy.Udp
