import WireProxy.Udp.Activity

/-!
# The sweeper of the UDP proxy

Which sessions the sweeper removes, in terms of their activity.

* `lookup_sweep`: the loop over the table keeps the entries of the sessions that are not idle.
* `Unswept` is the invariant of a proxy without a timeout: a session leaves the table only after its
  handler has failed.
* `sweeper_exact` puts them together with the invariant of the times.
-/

namespace WireProxy.Udp

open Text Go Config Transition

variable {w : IntSize}

/-! ## One sweep -/

namespace Store

/-- Nothing has been recorded for the session in the time `d` before `now`. -/
def Idle (d now : ℤ) (st : Store) (id : ℕ) : Prop := ∃ t, st.times[id]? = some t ∧ d ≤ now - t

theorem idle_dropEntry {d now : ℤ} {st : Store} {src : Text} {id j : ℕ} :
    Idle d now (st.dropEntry src id) j ↔ Idle d now st j := by
  rw [Idle, times_dropEntry, Idle]

theorem sweepEntry_of_idle {d now : ℤ} {st : Store} {e : (_ : Text) × ℕ} (h : Idle d now st e.2) :
    sweepEntry d now st e = st.dropEntry e.1 e.2 := by
  obtain ⟨t, ht, hle⟩ := h
  rw [times, List.getElem?_map] at ht
  obtain ⟨s, hs, rfl⟩ := Option.map_eq_some_iff.1 ht
  simp only [sweepEntry, hs]
  exact if_pos hle

theorem sweepEntry_of_not_idle {d now : ℤ} {st : Store} {e : (_ : Text) × ℕ}
    (h : ¬ Idle d now st e.2) : sweepEntry d now st e = st := by
  rw [sweepEntry]
  split
  · rfl
  · rename_i s hs
    refine if_neg fun hle => h ⟨s.lastActive, ?_, hle⟩
    rw [times, List.getElem?_map, hs]
    rfl

/-- The loop over some of the entries removes those of idle sessions. -/
theorem lookup_foldl_sweepEntry {d now : ℤ} {entries : List ((_ : Text) × ℕ)}
    (hnodup : entries.NodupKeys) {st : Store}
    (hentries : ∀ e ∈ entries, st.sessions.lookup e.1 = some e.2) {src : Text} {id : ℕ} :
    (entries.foldl (sweepEntry d now) st).sessions.lookup src = some id ↔
      st.sessions.lookup src = some id ∧ ¬ (⟨src, id⟩ ∈ entries ∧ Idle d now st id) := by
  induction entries generalizing st with
  | nil => simp
  | cons e entries ih =>
    rw [List.nodupKeys_cons] at hnodup
    rw [List.forall_mem_cons] at hentries
    rw [List.foldl_cons, List.mem_cons]
    by_cases hidle : Idle d now st e.2
    · have hdropped : ∀ e' ∈ entries, (st.dropEntry e.1 e.2).sessions.lookup e'.1 = some e'.2 := by
        intro e' he'
        have hne : e'.1 ≠ e.1 := fun h => hnodup.1 (h ▸ List.mem_keys_of_mem he')
        rw [dropEntry, AList.lookup_erase_ne hne]
        exact hentries.2 e' he'
      rw [sweepEntry_of_idle hidle, ih hnodup.2 hdropped, idle_dropEntry]
      by_cases hsrc : src = e.1
      · subst hsrc
        rw [dropEntry, AList.lookup_erase]
        refine iff_of_false (fun h => by cases h.1) fun h => h.2 ?_
        obtain rfl : e.2 = id := Option.some.inj (hentries.1.symm.trans h.1)
        exact ⟨.inl rfl, hidle⟩
      · have hne : ⟨src, id⟩ ≠ e := fun h => hsrc (congrArg Sigma.fst h)
        rw [dropEntry, AList.lookup_erase_ne hsrc, or_iff_right hne]
    · have hmem : (⟨src, id⟩ = e ∨ ⟨src, id⟩ ∈ entries) ∧ Idle d now st id ↔
          ⟨src, id⟩ ∈ entries ∧ Idle d now st id := by
        refine and_congr_left fun hid => or_iff_right ?_
        rintro rfl
        exact hidle hid
      rw [sweepEntry_of_not_idle hidle, ih hnodup.2 hentries.2, hmem]

/-- **What a sweep leaves in the table.** -/
theorem lookup_sweep {d now : ℤ} {st : Store} {src : Text} {id : ℕ} :
    (st.sweep d now).sessions.lookup src = some id ↔
      st.sessions.lookup src = some id ∧ ¬ Idle d now st id := by
  have hmem : ⟨src, id⟩ ∈ st.sessions.entries ↔ st.sessions.lookup src = some id :=
    AList.mem_lookup_iff.symm
  rw [sweep, lookup_foldl_sweepEntry st.sessions.nodupKeys
    fun _ he => AList.mem_lookup_iff.2 he, hmem]
  exact and_congr_right fun h => by rw [and_iff_right h]

/-- A sweep does not touch the sessions that are not idle. -/
theorem heap_sweep_of_not_idle {d now : ℤ} {st : Store} {id : ℕ} (h : ¬ Idle d now st id) :
    (st.sweep d now).heap[id]? = st.heap[id]? := by
  rw [sweep]
  induction st.sessions.entries generalizing st with
  | nil => rfl
  | cons e entries ih =>
    rw [List.foldl_cons]
    by_cases hidle : Idle d now st e.2
    · have hne : e.2 ≠ id := fun heq => h (heq ▸ hidle)
      rw [sweepEntry_of_idle hidle, ih (by rwa [idle_dropEntry])]
      exact List.getElem?_modify_ne _ _ hne
    · rw [sweepEntry_of_not_idle hidle, ih h]

end Store

namespace Sweeper

/-! ## Without a timeout -/

/-- Something has failed in the handler of a session. -/
def Failed (h : List Event) (id : ℕ) : Prop := ∃ t, .failed id t ∈ h

/-- Where the handlers that leave and the channels that are closed come from, if nothing is
swept. -/
structure Exits (st st' : Store) (e : Option Event) : Prop where
  leaving : ∀ i hd', st'.handlers[i]? = some hd' → Leaving hd'.place →
    (∃ hd, st.handlers[i]? = some hd ∧ (Leaving hd.place ∨ st.chanClosed hd.session)) ∨
      ∃ t, e = some (.failed i t)
  closed : ∀ i, st'.chanClosed i → st.chanClosed i ∨
    ∃ hd, st.handlers[i]? = some hd ∧ Leaving hd.place

section Exits

variable {st st' : Store} {e : Option Event}

theorem chanClosed_modify {f : Session → Session} (hf : ∀ s, (f s).chanCloses = s.chanCloses)
    (st : Store) (id i : ℕ) :
    Store.chanClosed { st with heap := st.heap.modify id f } i = st.chanClosed i := by
  simp only [Store.chanClosed, List.getElem?_modify]
  cases st.heap[i]? with
  | none => rfl
  | some s =>
    by_cases hi : id = i
    · simp [hi, hf]
    · simp [hi]

theorem chanClosed_touch (st : Store) (id : ℕ) (now : ℤ) (i : ℕ) :
    (st.touch id now).chanClosed i = st.chanClosed i :=
  chanClosed_modify (f := fun s => { s with lastActive := now }) (fun _ => rfl) st id i

theorem chanClosed_closeConn (st : Store) (id i : ℕ) :
    (st.closeConn id).chanClosed i = st.chanClosed i :=
  chanClosed_modify (f := fun s => { s with connCloses := s.connCloses + 1 }) (fun _ => rfl) st id i

theorem chanClosed_of_create {src : Text} {now : ℤ} {i : ℕ}
    (h : (st.create src now).chanClosed i) : st.chanClosed i := by
  rw [Store.chanClosed, Option.any_eq_true] at h
  obtain ⟨s, hs, hclosed⟩ := h
  rw [Store.chanClosed, Option.any_eq_true]
  rcases getElem?_concat_eq_some_iff.1 hs with hs | ⟨-, rfl⟩
  · exact ⟨s, hs, hclosed⟩
  · simp at hclosed

theorem chanClosed_of_removeSession {src : Text} {id i : ℕ}
    (h : (st.removeSession src id).chanClosed i) : st.chanClosed i ∨ i = id := by
  rw [Store.removeSession] at h
  split at h
  · by_cases hi : i = id
    · exact .inr hi
    · rw [Store.chanClosed, Store.dropEntry, Store.closeSessionChan,
        List.getElem?_modify_ne _ _ (Ne.symm hi)] at h
      exact .inl h
  · exact .inl h

theorem Exits.of_handlers_eq (hhandlers : st'.handlers = st.handlers)
    (hclosed : ∀ i, st'.chanClosed i → st.chanClosed i) : Exits st st' e where
  leaving _ hd hhd hleaving := .inl ⟨hd, hhandlers ▸ hhd, .inl hleaving⟩
  closed i hi := .inl (hclosed i hi)

/-- A handler moves: out of the loop only if its channel is closed or something fails. -/
theorem Exits.of_moveTo {i : ℕ} {h : Handler} {place : Place} (hh : st.handlers[i]? = some h)
    (hhandlers : st'.handlers = (st.moveTo i place).handlers)
    (hplace : Leaving place →
      (Leaving h.place ∨ st.chanClosed h.session) ∨ ∃ t, e = some (.failed i t))
    (hclosed : ∀ j, st'.chanClosed j → st.chanClosed j ∨ j = i ∧ Leaving h.place) :
    Exits st st' e where
  leaving j hd' hhd' hleaving := by
    rw [hhandlers, Store.moveTo, List.getElem?_modify] at hhd'
    obtain ⟨hd, hhd, rfl⟩ := Option.map_eq_some_iff.1 hhd'
    by_cases hj : i = j
    · subst hj
      obtain rfl : hd = h := Option.some.inj (hhd.symm.trans hh)
      rw [if_pos rfl] at hleaving
      exact (hplace hleaving).imp_left fun hexit => ⟨hd, hhd, hexit⟩
    · rw [if_neg hj] at hleaving
      exact .inl ⟨hd, hhd, .inl hleaving⟩
  closed j hj := by
    rcases hclosed j hj with hold | ⟨rfl, hleaving⟩
    · exact .inl hold
    · exact .inr ⟨h, hh, hleaving⟩

theorem exits_of_handlerMove (wf : WellFormed st) {now : ℤ} {i : ℕ} {h : Handler}
    (hh : st.handlers[i]? = some h) (hmove : HandlerMove st now i h st' e) : Exits st st' e := by
  have hsession := wf.handler_session hh
  cases hmove with
  | stay place hplace =>
    exact .of_moveTo hh rfl (fun hleaving => absurd hleaving hplace) fun _ => .inl
  | leave hclosed => exact .of_moveTo hh rfl (fun _ => .inl (.inr hclosed)) fun _ => .inl
  | fail => exact .of_moveTo hh rfl (fun _ => .inr ⟨now, by rw [hsession]⟩) fun _ => .inl
  | record place hplace =>
    refine .of_moveTo hh rfl (fun hleaving => absurd hleaving hplace) fun j hj => .inl ?_
    rwa [← chanClosed_touch st h.session now j]
  | remove hplace =>
    have hleaving : Leaving h.place := .inl hplace
    have hhandlers : ((st.removeSession h.srcAddr h.session).moveTo i .closing).handlers =
        (st.moveTo i .closing).handlers := by
      rw [Store.moveTo, st.handlers_removeSession, Store.moveTo]
    refine .of_moveTo hh hhandlers (fun _ => .inl (.inl hleaving)) fun j hj => ?_
    exact (chanClosed_of_removeSession hj).imp_right fun hj => ⟨hj.trans hsession, hleaving⟩
  | close hplace =>
    refine .of_moveTo hh rfl (fun _ => .inl (.inl (.inr (.inl hplace)))) fun j hj => .inl ?_
    rwa [← chanClosed_closeConn st h.session j]

end Exits

theorem exits_of_move {conf : UDPProxyTunnelConfig w} {st st' : State} {e : Option Event}
    (wf : WellFormed st.store) (hnone : st.sweeper = none) (hmove : Move conf st st' e) :
    Exits st.store st'.store e := by
  cases hmove with
  | advance _ => exact .of_handlers_eq rfl fun _ => id
  | main _ _ => exact .of_handlers_eq rfl fun _ => id
  | assign _ id _ _ =>
    exact .of_handlers_eq rfl fun i hi => chanClosed_touch st.store id st.clock i ▸ hi
  | create src _ =>
    refine ⟨fun i hd hhd hleaving => ?_, fun i hi => .inl (chanClosed_of_create hi)⟩
    rcases getElem?_concat_eq_some_iff.1 hhd with hhd | ⟨-, rfl⟩
    · exact .inl ⟨hd, hhd, .inl hleaving⟩
    · simp [Leaving] at hleaving
  | record id _ _ =>
    exact .of_handlers_eq rfl fun i hi => chanClosed_touch st.store id st.clock i ▸ hi
  | wake _ => exact .of_handlers_eq rfl fun _ => id
  | sweep now hnow =>
    rw [hnone] at hnow
    cases hnow
  | handler _ _ _ _ hh hstep => exact exits_of_handlerMove wf hh (handlerMove_of_step hstep)

/-- The invariant of a proxy without a timeout: a handler leaves and a channel is closed only after
something has failed. -/
structure Unswept (st : State) (h : List Event) : Prop where
  sweeper : st.sweeper = none
  leaving : ∀ i hd, st.store.handlers[i]? = some hd → Leaving hd.place → Failed h i
  closed : ∀ i, st.store.chanClosed i → Failed h i

theorem unswept_init (clock : ℤ) : Unswept (State.init clock) [] where
  sweeper := rfl
  leaving i hd hhd := by simp [State.init, Store.empty] at hhd
  closed i hi := by simp [State.init, Store.empty, Store.chanClosed] at hi

/-- Without a timeout the sweeper never wakes up. -/
theorem sweeper_of_move {conf : UDPProxyTunnelConfig w} (hconf : conf.inactivityTimeout.toInt ≤ 0)
    {st st' : State} {e : Option Event} (hnone : st.sweeper = none)
    (hmove : Move conf st st' e) : st'.sweeper = none := by
  cases hmove with
  | wake hpos => omega
  | sweep _ _ => rfl
  | advance | main | assign | create | record | handler => exact hnone

theorem unswept_step {conf : UDPProxyTunnelConfig w} (hconf : conf.inactivityTimeout.toInt ≤ 0)
    {st st' : State} {h : List Event} {l : Label} (wf : WellFormed st.store)
    (unswept : Unswept st h) (hstep : step conf st l = some st') :
    Unswept st' (h ++ (event st l).toList) := by
  have hmove := move_of_step hstep
  have hexits := exits_of_move wf unswept.sweeper hmove
  have hold {i : ℕ} (hfailed : Failed h i) : Failed (h ++ (event st l).toList) i := by
    obtain ⟨t, ht⟩ := hfailed
    exact ⟨t, List.mem_append_left _ ht⟩
  refine ⟨?_, fun i hd' hhd' hleaving => ?_, fun i hi => ?_⟩
  · exact sweeper_of_move hconf unswept.sweeper hmove
  · rcases hexits.leaving i hd' hhd' hleaving with ⟨hd, hhd, hexit | hexit⟩ | ⟨t, ht⟩
    · exact hold (unswept.leaving i hd hhd hexit)
    · rw [wf.handler_session hhd] at hexit
      exact hold (unswept.closed i hexit)
    · exact ⟨t, List.mem_append_right _ (by rw [ht]; simp)⟩
  · rcases hexits.closed i hi with hclosed | ⟨hd, hhd, hleaving⟩
    · exact hold (unswept.closed i hclosed)
    · exact hold (unswept.leaving i hd hhd hleaving)

/-! ## What the sweeper removes -/

/-- The sweep of a tick that read the time `now`, by the history: `d` is the timeout. -/
structure RemovesIdle (h : List Event) (d now : ℤ) (st st' : Store) : Prop where
  /-- A session is gone iff its last activity is at least `d` before `now`. -/
  gone_iff : ∀ id, st.InTable id →
    ∃ last, IsGreatest (activity h id) last ∧ (¬ st'.InTable id ↔ d ≤ now - last)
  /-- The entries of the other sessions are untouched, and there are no new ones. -/
  kept : ∀ id, st.InTable id → st'.InTable id → st'.heap[id]? = st.heap[id]? ∧
    ∀ src, st'.sessions.lookup src = some id ↔ st.sessions.lookup src = some id
  old : ∀ id, st'.InTable id → st.InTable id
  handlers_eq : st'.handlers = st.handlers
  /-- A session that was active after the time was read is kept. -/
  active_kept : ∃ h₁ h₂, h = h₁ ++ .woke now :: h₂ ∧ (∀ t, .woke t ∉ h₂) ∧
    ∀ id cause t, st.InTable id → .active cause id t ∈ h₂ → st'.InTable id

theorem inTable_sweep {d now : ℤ} {st : Store} {id : ℕ} :
    (st.sweep d now).InTable id ↔ st.InTable id ∧ ¬ Store.Idle d now st id := by
  simp only [Store.InTable, Store.lookup_sweep, exists_and_right]

theorem Timed.idle_iff {st : State} {h : List Event} (timed : Timed st h) (d now : ℤ) {id : ℕ}
    (hin : st.store.InTable id) :
    ∃ last, IsGreatest (activity h id) last ∧ (Store.Idle d now st.store id ↔ d ≤ now - last) := by
  obtain ⟨src, hl⟩ := hin
  have hlt := lt_length_of_lookup timed.wellFormed hl
  have hget := List.getElem?_eq_getElem hlt
  refine ⟨_, timed.last id _ hget, ?_⟩
  constructor
  · rintro ⟨t, ht, hle⟩
    rw [hget, Option.some.injEq] at ht
    rwa [ht]
  · intro hle
    exact ⟨_, hget, hle⟩

theorem removesIdle_sweep {st : State} {h : List Event} (timed : Timed st h) {d now : ℤ}
    (hd : 0 < d) (hnow : st.sweeper = some now) :
    RemovesIdle h d now st.store (st.store.sweep d now) where
  gone_iff id hin := by
    obtain ⟨last, hlast, hidle⟩ := timed.idle_iff d now hin
    refine ⟨last, hlast, ?_⟩
    rw [inTable_sweep, ← hidle]
    tauto
  kept id _ hin' := by
    have hidle := (inTable_sweep.1 hin').2
    refine ⟨Store.heap_sweep_of_not_idle hidle, fun src => ?_⟩
    rw [Store.lookup_sweep, and_iff_left hidle]
  old id hin' := (inTable_sweep.1 hin').1
  handlers_eq := st.store.handlers_sweep d now
  active_kept := by
    obtain ⟨h₁, h₂, hh, hlast⟩ := timed.woke now hnow
    refine ⟨h₁, h₂, hh, hlast, fun id cause t hin hactive => inTable_sweep.2 ⟨hin, fun hidle => ?_⟩⟩
    obtain ⟨last, hgreatest, hiff⟩ := timed.idle_iff d now hin
    -- the activity is not earlier than the reading of the time
    have hafter : now ≤ t := by
      have hsorted := timed.sorted
      rw [hh, List.pairwise_append] at hsorted
      exact (List.pairwise_cons.1 hsorted.2.1).1 _ hactive
    have hle : t ≤ last := hgreatest.2 ⟨cause, by rw [hh]; simp [hactive]⟩
    have := hiff.1 hidle
    omega

/-- The duration of a timeout is the one that it names iff it does not overflow. -/
theorem inactivityDur_eq_iff {conf : UDPProxyTunnelConfig w}
    (hpos : 0 < conf.inactivityTimeout.toInt) :
    inactivityDur conf = conf.inactivityTimeout.toInt * 10 ^ 9 ↔
      conf.inactivityTimeout.toInt * 10 ^ 9 < 2 ^ 63 := by
  have hmul := GoInt.toInt_mul_eq_iff (v := conf.inactivityTimeout.toInt) (n := 1000000000)
  rw [fits_bits64_iff, show ((1000000000 : ℕ) : ℤ) = 10 ^ 9 from rfl] at hmul
  exact hmul.trans (and_iff_right (by omega))

/-- **The sweeper removes exactly the idle sessions.** On every run, with its history:

* with a timeout whose duration does not overflow, a tick removes exactly the sessions whose last
  activity lies back at least that long, and keeps one that was active after the tick read the time;
* without a timeout, a session is not in the table only if something has failed in its handler. -/
theorem sweeper_exact {conf : UDPProxyTunnelConfig w} {clock : ℤ} {labels : List Label} {st : State}
    (hrun : run (step conf) (State.init clock) labels = some st) :
    (0 < conf.inactivityTimeout.toInt → conf.inactivityTimeout.toInt * 10 ^ 9 < 2 ^ 63 →
      ∀ now st', st.sweeper = some now → step conf st .sweep = some st' →
        RemovesIdle (events (step conf) event (State.init clock) labels)
          (conf.inactivityTimeout.toInt * 10 ^ 9) now st.store st'.store) ∧
    (conf.inactivityTimeout.toInt ≤ 0 → ∀ id < st.store.heap.length, ¬ st.store.InTable id →
      Failed (events (step conf) event (State.init clock) labels) id) := by
  have timed : Timed st (events (step conf) event (State.init clock) labels) :=
    run_invariant (timed_init clock) (fun _ _ _ _ timed hstep => timed_step timed hstep) hrun
  constructor
  · intro hpos hlt now st' hnow hstep
    rw [step, hnow, (inactivityDur_eq_iff hpos).2 hlt] at hstep
    cases hstep
    exact removesIdle_sweep timed (by omega) hnow
  · intro hconf id hid hnot
    have hboth : WellFormed st.store ∧
        Unswept st (events (step conf) event (State.init clock) labels) :=
      run_invariant (I := fun st h => WellFormed st.store ∧ Unswept st h)
        ⟨wellFormed_empty, unswept_init clock⟩ (fun st h l st' hI hstep =>
          ⟨wellFormed_storeEffect hI.1 (storeEffect_of_step hstep),
            unswept_step hconf hI.1 hI.2 hstep⟩) hrun
    have hget := List.getElem?_eq_getElem hid
    rw [timed.wellFormed.inTable_iff hget] at hnot
    exact hboth.2.closed id (by rw [Store.chanClosed, hget]; simpa using hnot)

/-- Two clients send a datagram; a minute later the sweeper reads the time, and the second client
sends again before the sweeper has the lock. -/
def twoClients : List Label :=
  [.receive "192.0.2.1:4000" [1], .assign true, .record, .send true,
    .receive "192.0.2.2:4000" [2], .assign true, .record, .send true,
    .advance 60000000000, .wake, .receive "192.0.2.2:4000" [3], .assign true]

/-- The sweep then removes the session of the first client only. -/
theorem sweeper_exact_twoClients :
    ∃ st st', run (step thirtySeconds) (State.init 0) twoClients = some st ∧
      step thirtySeconds st .sweep = some st' ∧
      RemovesIdle (events (step thirtySeconds) event (State.init 0) twoClients) (30 * 10 ^ 9)
        60000000000 st.store st'.store ∧
      st'.store.sessions.lookup ("192.0.2.1:4000" : String).toList = none ∧
      st'.store.sessions.lookup ("192.0.2.2:4000" : String).toList = some 1 := by
  have hfacts : ((run (step thirtySeconds) (State.init 0) twoClients).map fun st =>
      (st.sweeper, (step thirtySeconds st .sweep).map fun st' =>
        (st'.store.sessions.lookup ("192.0.2.1:4000" : String).toList,
          st'.store.sessions.lookup ("192.0.2.2:4000" : String).toList))) =
      some (some 60000000000, some (none, some 1)) := by
    decide +kernel
  obtain ⟨st, hrun, hst⟩ := Option.map_eq_some_iff.1 hfacts
  rw [Prod.mk.injEq, Option.map_eq_some_iff] at hst
  obtain ⟨hnow, st', hstep, hlookup⟩ := hst
  rw [Prod.mk.injEq] at hlookup
  have hremoves := (sweeper_exact hrun).1 (by decide) (by decide) _ st' hnow hstep
  exact ⟨st, st', hrun, hstep, hremoves, hlookup⟩

end Sweeper

end WireProxy.Udp
