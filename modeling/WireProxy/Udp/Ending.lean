import WireProxy.Foundations.Transition.Refinement
import WireProxy.Udp.Sweeper

/-!
# How a session ends

Why a session leaves the table, and what becomes of it then.

* `session_stays`: a session stays in the table as long as nothing fails in its handler and the
  sweeper finds it active within the timeout.
* `removed_handler_ends`: when a session has left the table, its handler takes at most seven more
  steps, whatever happens in between, is never stuck, and closes the connection with the last of
  them.
-/

namespace WireProxy.Udp

open Text Go Config Transition Sweeper

variable {w : IntSize}

/-! ## Sessions that stay -/

/-- Nothing has happened that ends a session, where `d` is the timeout. -/
structure Steady (d : ℤ) (h : List Sweeper.Event) (id : ℕ) : Prop where
  not_failed : ∀ t, .failed id t ∉ h
  /-- Whenever the sweeper reads the time, a session that exists has been active within the
  timeout. -/
  active : ∀ h₁ t h₂, h = h₁ ++ .woke t :: h₂ → (activity h₁ id).Nonempty →
    ∃ last ∈ activity h₁ id, t - last < d

theorem Steady.of_append {d : ℤ} {h h' : List Sweeper.Event} {id : ℕ}
    (steady : Steady d (h ++ h') id) : Steady d h id where
  not_failed t ht := steady.not_failed t (List.mem_append_left _ ht)
  active h₁ t h₂ hh := steady.active h₁ t (h₂ ++ h') (by rw [hh]; simp)

/-- A steady session is not idle when the sweeper has read the time. -/
theorem Steady.not_idle {d : ℤ} (hd : 0 < d) {st : State} {h : List Sweeper.Event} {id : ℕ}
    (steady : Steady d h id) (timed : Timed st h) {now : ℤ} (hnow : st.sweeper = some now) :
    ¬ Store.Idle d now st.store id := by
  rintro ⟨t, ht, hle⟩
  obtain ⟨h₁, h₂, hh, -⟩ := timed.woke now hnow
  have hgreatest := timed.last id t ht
  obtain ⟨cause, hcause⟩ := hgreatest.1
  by_cases hold : (activity h₁ id).Nonempty
  · obtain ⟨last, ⟨cause', hlast⟩, hlt⟩ := steady.active h₁ now h₂ hh hold
    have hle' : last ≤ t := hgreatest.2 ⟨cause', by rw [hh]; simp [hlast]⟩
    omega
  · -- the session was created after the sweeper read the time
    have hafter : .active cause id t ∈ h₂ := by
      rw [hh, List.mem_append, List.mem_cons] at hcause
      rcases hcause with hcause | hcause | hcause
      · exact absurd ⟨t, cause, hcause⟩ hold
      · cases hcause
      · exact hcause
    have hsorted := timed.sorted
    rw [hh, List.pairwise_append] at hsorted
    have hle' : now ≤ t := (List.pairwise_cons.1 hsorted.2.1).1 _ hafter
    omega

/-- The invariant: the channel of a steady session is open, and its handler is not on its way
out. -/
structure Staying (d : ℤ) (st : State) (h : List Sweeper.Event) : Prop where
  timed : Timed st h
  stays : ∀ id hd, st.store.handlers[id]? = some hd → Steady d h id →
    st.store.chanClosed id = false ∧ ¬ Leaving hd.place

theorem staying_init (d clock : ℤ) : Staying d (State.init clock) [] where
  timed := timed_init clock
  stays id hd hhd := by simp [State.init, Store.empty] at hhd

/-- A step is a sweep, or handlers leave and channels are closed for the reasons that they have
without a sweeper. -/
theorem exits_or_sweep {conf : UDPProxyTunnelConfig w} {st st' : State} {e : Option Sweeper.Event}
    (wf : WellFormed st.store) (hmove : Move conf st st' e) :
    Exits st.store st'.store e ∨
      ∃ now, st.sweeper = some now ∧ st'.store = st.store.sweep (inactivityDur conf) now := by
  -- the same step when the sweeper sleeps
  have hquiet : ∀ {st₁ : State} {store : Store} {e : Option Sweeper.Event},
      Move conf { st with sweeper := none } st₁ e → st₁.store = store → Exits st.store store e := by
    rintro st₁ _ e hmove rfl
    have hexits := exits_of_move (by exact wf) (by rfl) hmove
    exact hexits
  cases hmove with
  | advance d => exact .inl (hquiet (.advance d) rfl)
  | main place hplace => exact .inl (hquiet (.main place hplace) rfl)
  | assign src id datagram hlookup => exact .inl (hquiet (.assign src id datagram hlookup) rfl)
  | create src datagram => exact .inl (hquiet (.create src datagram) rfl)
  | record id datagram hmain => exact .inl (hquiet (.record id datagram hmain) rfl)
  | wake hconf => exact .inl (hquiet (.wake hconf) rfl)
  | sweep now hnow => exact .inr ⟨now, hnow, rfl⟩
  | handler i h l store hh hstep => exact .inl (hquiet (.handler i h l store hh hstep) rfl)

theorem staying_step {conf : UDPProxyTunnelConfig w} (hd : 0 < inactivityDur conf)
    {st st' : State} {h : List Sweeper.Event} {l : Label}
    (staying : Staying (inactivityDur conf) st h) (hstep : step conf st l = some st') :
    Staying (inactivityDur conf) st' (h ++ (Sweeper.event st l).toList) := by
  have wf := staying.timed.wellFormed
  refine ⟨timed_step staying.timed hstep, fun id hd' hhd' steady => ?_⟩
  -- what is known of the session before the step
  have hbefore : ∀ hd, st.store.handlers[id]? = some hd →
      st.store.chanClosed id = false ∧ ¬ Leaving hd.place := fun hd hhd =>
    staying.stays id hd hhd steady.of_append
  rcases exits_or_sweep wf (move_of_step hstep) with hexits | ⟨now, hnow, hstore⟩
  · have hstays : ∀ hd, st.store.handlers[id]? = some hd →
        ¬ (Leaving hd.place ∨ st.store.chanClosed hd.session = true) := by
      rintro hd hhd (hleaving | hclosed)
      · exact (hbefore hd hhd).2 hleaving
      · rw [wf.handler_session hhd, (hbefore hd hhd).1] at hclosed
        cases hclosed
    constructor
    · rw [Bool.eq_false_iff]
      intro hclosed
      rcases hexits.closed id hclosed with hold | ⟨hd, hhd, hleaving⟩
      · obtain ⟨s, hs, -⟩ := (Option.any_eq_true _ _).1 hold
        obtain ⟨hd, hhd⟩ := wf.exists_handler hs
        rw [(hbefore hd hhd).1] at hold
        cases hold
      · exact hstays hd hhd (.inl hleaving)
    · intro hleaving
      rcases hexits.leaving id hd' hhd' hleaving with ⟨hd, hhd, hexit⟩ | ⟨t, ht⟩
      · exact hstays hd hhd hexit
      · exact steady.not_failed t (List.mem_append_right _ (by simp [ht]))
  · -- the sweep does not touch the session
    have hidle := steady.of_append.not_idle hd staying.timed hnow
    rw [hstore, st.store.handlers_sweep] at hhd'
    rw [hstore, Store.chanClosed, Store.heap_sweep_of_not_idle hidle]
    exact hbefore hd' hhd'

/-- **A session stays in the table** on every run on which nothing fails in its handler and which
has, before each time that the sweeper reads, an activity of the session within the timeout. -/
theorem session_stays {conf : UDPProxyTunnelConfig w} (hpos : 0 < inactivityDur conf) {clock : ℤ}
    {labels : List Label} {st : State}
    (hrun : run (step conf) (State.init clock) labels = some st) {id : ℕ}
    (hid : id < st.store.heap.length)
    (steady : Steady (inactivityDur conf)
      (events (step conf) Sweeper.event (State.init clock) labels) id) : st.store.InTable id := by
  have staying : Staying (inactivityDur conf) st
      (events (step conf) Sweeper.event (State.init clock) labels) :=
    run_invariant (staying_init _ clock)
      (fun _ _ _ _ staying hstep => staying_step hpos staying hstep) hrun
  have hs := List.getElem?_eq_getElem hid
  obtain ⟨hd, hhd⟩ := staying.timed.wellFormed.exists_handler hs
  have hopen := (staying.stays id hd hhd steady).1
  rw [staying.timed.wellFormed.inTable_iff hs]
  simpa [Store.chanClosed, hs] using hopen

theorem Store.InTable.mem_sessions {st : Store} {id : ℕ} (h : st.InTable id) :
    id ∈ st.sessions.entries.map Sigma.snd := by
  obtain ⟨src, hlookup⟩ := h
  exact List.mem_map.2 ⟨⟨src, id⟩, AList.mem_lookup_iff.1 hlookup, rfl⟩

/-- Two clients send a datagram; twenty seconds later the second one sends again, and after twenty
more the sweeper comes. -/
def oneActive : List Label :=
  [.receive "192.0.2.1:4000" [1], .assign true, .record, .send true,
    .receive "192.0.2.2:4000" [2], .assign true, .record, .send true, .advance 20000000000,
    .receive "192.0.2.2:4000" [3], .assign true, .advance 20000000000, .wake, .sweep]

/-- The history of that run. -/
def oneActiveEvents : List Sweeper.Event :=
  [.active .created 0 0, .active .assigned 0 0, .active .created 1 0, .active .assigned 1 0,
    .active .assigned 1 20000000000, .woke 40000000000]

/-- The session of the second client is in the table, that of the first one is not. -/
theorem session_stays_oneActive :
    ∃ st, run (step thirtySeconds) (State.init 0) oneActive = some st ∧ st.store.InTable 1 ∧
      ¬ st.store.InTable 0 := by
  have hfacts : ((run (step thirtySeconds) (State.init 0) oneActive).map fun st =>
      (st.store.heap.length, st.store.sessions.entries.map Sigma.snd)) = some (2, [1]) := by
    decide +kernel
  obtain ⟨st, hrun, hst⟩ := Option.map_eq_some_iff.1 hfacts
  rw [Prod.mk.injEq] at hst
  have hevents : events (step thirtySeconds) Sweeper.event (State.init 0) oneActive =
      oneActiveEvents := by
    decide +kernel
  have hdur : inactivityDur thirtySeconds = 30000000000 := by decide +kernel
  refine ⟨st, hrun, ?_, ?_⟩
  · refine session_stays (by rw [hdur]; norm_num) hrun (by omega) ?_
    rw [hevents, hdur]
    refine ⟨by simp [oneActiveEvents], fun h₁ t h₂ hh _ => ⟨20000000000, ⟨.assigned, ?_⟩, ?_⟩⟩
    all_goals
      have ht : t = 40000000000 := by
        have hmem : .woke t ∈ oneActiveEvents := by simp [hh]
        simpa [oneActiveEvents] using hmem
    · have hmem : .active .assigned 1 20000000000 ∈ h₁ ++ .woke t :: h₂ := by
        rw [← hh]
        simp [oneActiveEvents]
      have hsorted : oneActiveEvents.Pairwise fun a b => a.time ≤ b.time := by decide
      rw [hh, List.pairwise_append] at hsorted
      rcases List.mem_append.1 hmem with hmem | hmem
      · exact hmem
      · -- it would come after the sweeper has read a later time
        rcases List.mem_cons.1 hmem with hmem | hmem
        · cases hmem
        · have hle := (List.pairwise_cons.1 hsorted.2.1).1 _ hmem
          simp [Sweeper.Event.time, ht] at hle
    · rw [ht]
      norm_num
  · intro hin
    simpa [hst.2] using hin.mem_sessions

/-! ## Handlers that end -/

/-- How many steps a handler takes at most from a place on, when its channel is closed. -/
def stepsLeft : Place → ℕ
  | .read => 7
  | .received _ => 6
  | .recorded _ => 5
  | .resolved _ => 4
  | .check | .timedOut => 3
  | .removing => 2
  | .closing => 1
  | .ended => 0

theorem stepsLeft_le (place : Place) : stepsLeft place ≤ 7 := by
  cases place <;> simp [stepsLeft]

theorem stepsLeft_eq_zero_iff {place : Place} : stepsLeft place = 0 ↔ place = .ended := by
  cases place <;> simp [stepsLeft]

/-- A step of a handler whose channel is closed brings it closer to its end. -/
theorem stepsLeft_handlerStep {st st' : Store} {now : ℤ} {i : ℕ} {h : Handler} {l : HandlerLabel}
    (hh : st.handlers[i]? = some h) (hclosed : st.chanClosed h.session = true)
    (hstep : handlerStep st now i h l = some st') :
    ∃ h', st'.handlers[i]? = some h' ∧ stepsLeft h'.place < stepsLeft h.place := by
  have hmove : ∀ {store : Store} (place : Place), store.handlers = st.handlers →
      stepsLeft place < stepsLeft h.place →
      ∃ h', (store.moveTo i place).handlers[i]? = some h' ∧
        stepsLeft h'.place < stepsLeft h.place := by
    intro store place hhandlers hlt
    refine ⟨{ h with place := place }, ?_, hlt⟩
    rw [Store.moveTo, hhandlers, List.getElem?_modify_eq, hh]
    rfl
  cases l with
  | check | recheck =>
    rw [handlerStep, hclosed, Option.ite_none_right_eq_some, Option.some.injEq] at hstep
    obtain ⟨hplace, rfl⟩ := hstep
    exact hmove _ rfl (by simp [hplace, stepsLeft])
  | data | timeout | readError | close =>
    rw [handlerStep, Option.ite_none_right_eq_some, Option.some.injEq] at hstep
    obtain ⟨hplace, rfl⟩ := hstep
    exact hmove _ rfl (by simp [hplace, stepsLeft])
  | record =>
    rw [handlerStep] at hstep
    split at hstep
    · rename_i hplace
      cases hstep
      exact hmove _ rfl (by simp [hplace, stepsLeft])
    · cases hstep
  | resolve ok | write ok =>
    rw [handlerStep] at hstep
    split at hstep
    · rename_i hplace
      cases hstep
      exact hmove _ rfl (by cases ok <;> simp [hplace, stepsLeft])
    · cases hstep
  | remove =>
    rw [handlerStep, Option.ite_none_right_eq_some, Option.some.injEq] at hstep
    obtain ⟨hplace, rfl⟩ := hstep
    exact hmove _ (st.handlers_removeSession _ _) (by simp [hplace, stepsLeft])

/-- A handler that has not ended can take a step: a read times out, a resolution and a write
succeed or fail. -/
theorem exists_handlerStep (st : Store) (now : ℤ) (i : ℕ) {h : Handler}
    (hplace : h.place ≠ .ended) : ∃ l st', handlerStep st now i h l = some st' := by
  cases hp : h.place with
  | check => exact ⟨.check, _, if_pos hp⟩
  | read => exact ⟨.timeout, _, if_pos hp⟩
  | timedOut => exact ⟨.recheck, _, if_pos hp⟩
  | received datagram => exact ⟨.record, _, by rw [handlerStep, hp]⟩
  | recorded datagram => exact ⟨.resolve true, _, by rw [handlerStep, hp]⟩
  | resolved datagram => exact ⟨.write true, _, by rw [handlerStep, hp]⟩
  | removing => exact ⟨.remove, _, if_pos hp⟩
  | closing => exact ⟨.close, _, if_pos hp⟩
  | ended => exact absurd hp hplace

/-! ### Closed channels stay closed -/

section Closed

variable {st : Store} {i : ℕ}

theorem chanClosed_of_modify {f : Session → Session}
    (hf : ∀ s, s.chanCloses ≠ 0 → (f s).chanCloses ≠ 0) (id : ℕ) (h : st.chanClosed i = true) :
    Store.chanClosed { st with heap := st.heap.modify id f } i = true := by
  obtain ⟨s, hs, hclosed⟩ := (Option.any_eq_true _ _).1 h
  rw [Store.chanClosed, List.getElem?_modify, hs]
  by_cases hi : id = i
  · simpa [hi] using hf s (by simpa using hclosed)
  · simpa [hi] using hclosed

theorem chanClosed_dropEntry (src : Text) (id : ℕ) (h : st.chanClosed i = true) :
    (st.dropEntry src id).chanClosed i = true :=
  chanClosed_of_modify (f := fun s =>
    if s.chanCloses = 0 then { s with chanCloses := s.chanCloses + 1 } else s)
    (fun s hs => by simp [hs]) id h

theorem chanClosed_create (src : Text) (now : ℤ) (h : st.chanClosed i = true) :
    (st.create src now).chanClosed i = true := by
  obtain ⟨s, hs, hclosed⟩ := (Option.any_eq_true _ _).1 h
  exact (Option.any_eq_true _ _).2 ⟨s, getElem?_concat_of_some hs, hclosed⟩

theorem chanClosed_handlerEffect {st' : Store} {now : ℤ} {j : ℕ} {h : Handler}
    (heff : HandlerEffect st now j h st') (hclosed : st.chanClosed i = true) :
    st'.chanClosed i = true := by
  cases heff with
  | move _ _ _ => exact hclosed
  | record _ _ _ => exact (chanClosed_touch st h.session now i).trans hclosed
  | remove _ =>
    rw [Store.removeSession]
    split
    · exact chanClosed_dropEntry h.srcAddr h.session hclosed
    · exact hclosed
  | close _ => exact (chanClosed_closeConn st h.session i).trans hclosed

theorem chanClosed_storeEffect {conf : UDPProxyTunnelConfig w} {st : State} {store : Store}
    (heff : StoreEffect conf st store) (hclosed : st.store.chanClosed i = true) :
    store.chanClosed i = true := by
  cases heff with
  | same => exact hclosed
  | assign src dialOK =>
    rw [Store.getOrCreateSession]
    split
    · exact (chanClosed_touch st.store _ st.clock i).trans hclosed
    · split
      · exact chanClosed_create src st.clock hclosed
      · exact hclosed
  | record id => exact (chanClosed_touch st.store id st.clock i).trans hclosed
  | sweep now =>
    exact Store.sweep_induction (P := fun st => st.chanClosed i = true)
      (fun _ src id h _ => chanClosed_dropEntry src id h) hclosed
  | handler _ _ _ _ heff => exact chanClosed_handlerEffect heff hclosed

end Closed

/-! ### Runs after the removal -/

/-- A step of the `i`-th handler. -/
def isHandler (i : ℕ) : Label → Bool
  | .handler j _ => j = i
  | _ => false

/-- The steps of the others leave a handler where it is. -/
theorem handler_of_other_step {conf : UDPProxyTunnelConfig w} {st st' : State} {l : Label} {i : ℕ}
    {h : Handler} (hh : st.store.handlers[i]? = some h) (hl : isHandler i l = false)
    (hstep : step conf st l = some st') : st'.store.handlers[i]? = some h := by
  cases l with
  | advance d =>
    cases hstep
    exact hh
  | receive src datagram =>
    rw [step, Option.ite_none_right_eq_some] at hstep
    obtain ⟨-, ⟨⟩⟩ := hstep
    exact hh
  | assign dialOK =>
    have hassign : ∀ src, (st.store.getOrCreateSession src st.clock dialOK).1.handlers[i]? =
        some h := by
      intro src
      rw [Store.getOrCreateSession]
      split
      · exact hh
      · split
        · exact getElem?_concat_of_some hh
        · exact hh
    rw [step] at hstep
    split at hstep
    · rename_i src datagram hmain
      have hsrc := hassign src
      split at hstep
      all_goals
        rename_i heq
        cases hstep
        rwa [heq] at hsrc
    · cases hstep
  | record =>
    rw [step] at hstep
    split at hstep
    · cases hstep
      exact hh
    · cases hstep
  | send ok =>
    rw [step] at hstep
    split at hstep
    · rw [Option.ite_none_left_eq_some] at hstep
      obtain ⟨-, ⟨⟩⟩ := hstep
      exact hh
    · cases hstep
  | wake =>
    rw [step, Option.ite_none_right_eq_some] at hstep
    obtain ⟨-, ⟨⟩⟩ := hstep
    exact hh
  | sweep =>
    rw [step] at hstep
    split at hstep
    · cases hstep
      rwa [st.store.handlers_sweep]
    · cases hstep
  | handler j l =>
    have hj : j ≠ i := by simpa [isHandler] using hl
    rw [step] at hstep
    split at hstep
    · rename_i hd hhd
      obtain ⟨store, hstore, rfl⟩ := Option.map_eq_some_iff.1 hstep
      have hmove : ∀ {st₁ : Store} (place : Place), st₁.handlers = st.store.handlers →
          (st₁.moveTo j place).handlers[i]? = some h := by
        intro st₁ place hhandlers
        rw [Store.moveTo, hhandlers, List.getElem?_modify_ne _ _ hj, hh]
      cases handlerEffect_of_step hstore with
      | move place _ _ | record place _ _ => exact hmove place rfl
      | remove _ => exact hmove _ (st.store.handlers_removeSession _ _)
      | close _ => exact hmove _ rfl
    · cases hstep

/-- What holds of a session from its removal on. -/
structure Removed (i : ℕ) (st : State) : Prop where
  wellFormed : WellFormed st.store
  closed : st.store.chanClosed i = true
  handler : ∃ h, st.store.handlers[i]? = some h

theorem Removed.of_not_inTable {st : State} {i : ℕ} (wf : WellFormed st.store)
    (hi : i < st.store.heap.length) (hremoved : ¬ st.store.InTable i) : Removed i st := by
  have hs := List.getElem?_eq_getElem hi
  rw [wf.inTable_iff hs] at hremoved
  exact ⟨wf, by simpa [Store.chanClosed, hs] using hremoved, wf.exists_handler hs⟩

/-- The steps that the `i`-th handler has left. -/
def handlerStepsLeft (i : ℕ) (st : State) : ℕ :=
  st.store.handlers[i]?.elim 0 fun h => stepsLeft h.place

theorem removed_step {conf : UDPProxyTunnelConfig w} {i : ℕ} {st st' : State} {l : Label}
    (removed : Removed i st) (hstep : step conf st l = some st') :
    Removed i st' ∧
      handlerStepsLeft i st' + (if isHandler i l then 1 else 0) ≤ handlerStepsLeft i st := by
  obtain ⟨wf, hclosed, h, hh⟩ := removed
  have heff := storeEffect_of_step hstep
  have wf' := wellFormed_storeEffect wf heff
  have hclosed' := chanClosed_storeEffect heff hclosed
  by_cases hl : isHandler i l = true
  · cases l with
    | handler j l =>
      obtain rfl : j = i := by simpa [isHandler] using hl
      simp only [step, hh] at hstep
      obtain ⟨store, hstore, rfl⟩ := Option.map_eq_some_iff.1 hstep
      rw [← wf.handler_session hh] at hclosed
      obtain ⟨h', hh', hlt⟩ := stepsLeft_handlerStep hh hclosed hstore
      refine ⟨⟨wf', hclosed', h', hh'⟩, ?_⟩
      rw [if_pos hl]
      simpa [handlerStepsLeft, hh, hh'] using hlt
    | _ => cases hl
  · have hh' := handler_of_other_step hh (by simpa using hl) hstep
    refine ⟨⟨wf', hclosed', h, hh'⟩, ?_⟩
    rw [if_neg hl]
    simp [handlerStepsLeft, hh, hh']

/-- **The handler of a removed session ends.** When a session has left the table, every run from
then on has at most seven steps of its handler, and after seven it has ended; as long as it has not,
it can take a step, and when it has, the connection has been closed. -/
theorem removed_handler_ends {conf : UDPProxyTunnelConfig w} {clock : ℤ} {st : State}
    (hreach : Reachable (step conf) (State.init clock) st) {i : ℕ}
    (hi : i < st.store.heap.length) (hremoved : ¬ st.store.InTable i) {labels : List Label}
    {st' : State} (hrun : run (step conf) st labels = some st') :
    labels.countP (isHandler i) ≤ 7 ∧
    ∃ h, st'.store.handlers[i]? = some h ∧
      (labels.countP (isHandler i) = 7 → h.place = .ended) ∧
      (h.place ≠ .ended → ∃ l st'', step conf st' (.handler i l) = some st'') ∧
      (h.place = .ended → ∃ s, st'.store.heap[i]? = some s ∧ s.connCloses = 1) := by
  have hfrom := Removed.of_not_inTable (wellFormed_of_reachable hreach) hi hremoved
  have huntil := run_until (I := Removed i) (Q := fun _ => False) (p := isHandler i)
    (m := handlerStepsLeft i) (fun _ _ _ removed hstep => .inr (removed_step removed hstep)) hfrom
    hrun
  obtain ⟨-, -, -, -, -, ⟨⟩⟩ | ⟨⟨wf, -, h, hh⟩, hle⟩ := huntil
  obtain ⟨h₀, hh₀⟩ := hfrom.handler
  have hseven := stepsLeft_le h₀.place
  simp only [handlerStepsLeft, hh, hh₀, Option.elim_some] at hle
  refine ⟨by omega, h, hh, fun hcount => ?_, fun hplace => ?_, fun hplace => ?_⟩
  · exact stepsLeft_eq_zero_iff.1 (by omega)
  · obtain ⟨l, store, hstore⟩ := exists_handlerStep st'.store st'.clock i hplace
    refine ⟨l, { st' with store := store }, ?_⟩
    simp only [step, hh, hstore, Option.map_some]
  · obtain ⟨s, hs⟩ := wf.exists_session hh
    exact ⟨s, hs, by rw [(wf.sound hs hh).connCloses_eq, if_pos hplace]⟩

/-- A session expires while its handler has a datagram from the remote side. -/
def expiredWithDatagram : List Label :=
  [.receive "192.0.2.1:4000" [1], .assign true, .handler 0 .check, .handler 0 (.data [2]),
    .advance 60000000000, .wake, .sweep]

/-- What the handler then does: it passes the datagram on before it ends. -/
def lastSteps : List Label :=
  [.handler 0 .record, .handler 0 (.resolve true), .handler 0 (.write true), .handler 0 .check,
    .handler 0 .remove, .handler 0 .close]

theorem removed_handler_ends_expired :
    ∃ st st', Reachable (step thirtySeconds) (State.init 0) st ∧ ¬ st.store.InTable 0 ∧
      run (step thirtySeconds) st lastSteps = some st' ∧
      ∃ s, st'.store.heap[0]? = some s ∧ s.connCloses = 1 := by
  have hfacts : ((run (step thirtySeconds) (State.init 0) expiredWithDatagram).map fun st =>
      (st.store.heap.length, st.store.sessions.entries.map Sigma.snd,
        (run (step thirtySeconds) st lastSteps).map fun st' =>
          st'.store.handlers[0]?.map Handler.place)) = some (1, [], some (some .ended)) := by
    decide +kernel
  obtain ⟨st, hst, hfacts⟩ := Option.map_eq_some_iff.1 hfacts
  simp only [Prod.mk.injEq, Option.map_eq_some_iff] at hfacts
  obtain ⟨hlen, hentries, st', hst', h', hh', hplace⟩ := hfacts
  have hremoved : ¬ st.store.InTable 0 := by
    intro hin
    simpa [hentries] using hin.mem_sessions
  have hreach : Reachable (step thirtySeconds) (State.init 0) st := ⟨_, hst⟩
  obtain ⟨-, h, hh, -, -, hclosed⟩ := removed_handler_ends hreach (by omega) hremoved hst'
  obtain rfl : h' = h := Option.some.inj (hh'.symm.trans hh)
  exact ⟨st, st', hreach, hremoved, hst', hclosed hplace⟩

end WireProxy.Udp
