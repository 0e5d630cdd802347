import WireProxy.Udp.Proxy

/-!
# The life cycle of a session

What holds of the session table in every reachable state of the UDP proxy.

* `WellFormed` is the invariant: a session is listed under the address of its handler as long as its
  channel is open, only sessions whose handler still runs are listed, and the connection has been
  closed iff the handler has ended.
* Every operation on the store keeps it (`WellFormed.touch`, `.moveTo`, `.dropEntry`, `.sweep`,
  `.create`, …), hence every step does (`wellFormed_storeEffect`).
* `sessions_lifeCycle` reads off what it means for the table, the channels and the connections.
-/

namespace WireProxy.Udp

open Text Go Config Transition

variable {w : IntSize}

/-! ## The invariant -/

/-- What holds of a session, its number and its handler. -/
structure Sound (st : Store) (id : ℕ) (s : Session) (h : Handler) : Prop where
  session_eq : h.session = id
  listed : s.chanCloses = 0 → st.sessions.lookup h.srcAddr = some id
  chanCloses_le : s.chanCloses ≤ 1
  connCloses_eq : s.connCloses = if h.place = .ended then 1 else 0

/-- The invariant of the store. -/
structure WellFormed (st : Store) : Prop where
  length_eq : st.handlers.length = st.heap.length
  /-- What is listed is a session with an open channel, whose handler runs. -/
  entry : ∀ {src id}, st.sessions.lookup src = some id → ∃ s h, st.heap[id]? = some s ∧
    st.handlers[id]? = some h ∧ h.srcAddr = src ∧ h.Running ∧ s.chanCloses = 0
  sound : ∀ {id s h}, st.heap[id]? = some s → st.handlers[id]? = some h → Sound st id s h

theorem wellFormed_empty : WellFormed .empty where
  length_eq := rfl
  entry h := by
    rw [Store.empty, AList.lookup_empty] at h
    cases h
  sound h := by cases h

namespace WellFormed

variable {st : Store} (wf : WellFormed st)

include wf

theorem exists_handler {id : ℕ} {s : Session} (hs : st.heap[id]? = some s) :
    ∃ h, st.handlers[id]? = some h := by
  have hlt : id < st.heap.length := (List.getElem?_eq_some_iff.1 hs).1
  rw [← wf.length_eq] at hlt
  exact ⟨_, List.getElem?_eq_getElem hlt⟩

theorem exists_session {i : ℕ} {h : Handler} (hh : st.handlers[i]? = some h) :
    ∃ s, st.heap[i]? = some s := by
  have hlt : i < st.handlers.length := (List.getElem?_eq_some_iff.1 hh).1
  rw [wf.length_eq] at hlt
  exact ⟨_, List.getElem?_eq_getElem hlt⟩

theorem handler_session {i : ℕ} {h : Handler} (hh : st.handlers[i]? = some h) :
    h.session = i := by
  obtain ⟨s, hs⟩ := wf.exists_session hh
  exact (wf.sound hs hh).session_eq

/-- The address under which a session is listed is that of its handler. -/
theorem eq_srcAddr {src : Text} {id : ℕ} (hl : st.sessions.lookup src = some id) {h : Handler}
    (hh : st.handlers[id]? = some h) : h.srcAddr = src ∧ h.Running := by
  obtain ⟨s, h', -, hh', hsrc, hrun, -⟩ := wf.entry hl
  obtain rfl : h' = h := Option.some.inj (hh'.symm.trans hh)
  exact ⟨hsrc, hrun⟩

theorem inTable_iff {id : ℕ} {s : Session} (hs : st.heap[id]? = some s) :
    st.InTable id ↔ s.chanCloses = 0 := by
  constructor
  · rintro ⟨src, hl⟩
    obtain ⟨s', h, hs', -, -, -, hopen⟩ := wf.entry hl
    obtain rfl : s' = s := Option.some.inj (hs'.symm.trans hs)
    exact hopen
  · intro hopen
    obtain ⟨h, hh⟩ := wf.exists_handler hs
    exact ⟨_, (wf.sound hs hh).listed hopen⟩

/-! ## Operations that keep it -/

/-- A change to one session and its handler that leaves the channel, the address and the table
alone: a listed handler must stay running, and the connection be closed iff the handler has
ended. -/
theorem modify (id : ℕ) {f : Session → Session} {g : Handler → Handler}
    (hf : ∀ s, (f s).chanCloses = s.chanCloses)
    (hg : ∀ h, (g h).srcAddr = h.srcAddr ∧ (g h).session = h.session)
    (hrun : ∀ h, st.handlers[id]? = some h → st.InTable id → (g h).Running)
    (hconn : ∀ s h, st.heap[id]? = some s → st.handlers[id]? = some h →
      (f s).connCloses = if (g h).place = .ended then 1 else 0) :
    WellFormed ⟨st.heap.modify id f, st.handlers.modify id g, st.sessions⟩ where
  length_eq := by simp [wf.length_eq]
  entry := by
    intro src j hl
    obtain ⟨s, h, hs, hh, hsrc, hrunning, hopen⟩ := wf.entry hl
    refine ⟨_, _, by rw [List.getElem?_modify, hs]; rfl, by rw [List.getElem?_modify, hh]; rfl, ?_⟩
    dsimp only
    split
    · rename_i hij
      subst hij
      exact ⟨(hg h).1.trans hsrc, hrun h hh ⟨src, hl⟩, (hf s).trans hopen⟩
    · exact ⟨hsrc, hrunning, hopen⟩
  sound := by
    intro j s h hs hh
    rw [List.getElem?_modify] at hs hh
    obtain ⟨s₀, hs₀, rfl⟩ := Option.map_eq_some_iff.1 hs
    obtain ⟨h₀, hh₀, rfl⟩ := Option.map_eq_some_iff.1 hh
    obtain ⟨hid, hlisted, hle, hconn₀⟩ := wf.sound hs₀ hh₀
    split
    · rename_i hij
      subst hij
      refine ⟨(hg h₀).2.trans hid, fun hopen => ?_, (hf s₀).trans_le hle, hconn s₀ h₀ hs₀ hh₀⟩
      rw [(hg h₀).1]
      exact hlisted ((hf s₀).symm.trans hopen)
    · exact ⟨hid, hlisted, hle, hconn₀⟩

theorem touch (id : ℕ) (now : ℤ) : WellFormed (st.touch id now) := by
  have h := wf.modify id (f := fun s => { s with lastActive := now }) (g := fun h => h)
    (fun _ => rfl) (fun _ => ⟨rfl, rfl⟩) (fun h hh ⟨_, hl⟩ => (wf.eq_srcAddr hl hh).2)
    fun s h hs hh => (wf.sound hs hh).connCloses_eq
  rwa [show st.handlers.modify id (fun h => h) = st.handlers from List.modify_id id _] at h

/-- A handler moves to a place in front of the close of its connection; to the last one of these
only when its session is not listed. -/
theorem moveTo {i : ℕ} {h : Handler} (hh : st.handlers[i]? = some h) (hplace : h.place ≠ .ended)
    {place : Place} (hnew : place ≠ .ended) (hclosing : place = .closing → ¬ st.InTable i) :
    WellFormed (st.moveTo i place) := by
  have hmod := wf.modify i (f := fun s => s) (g := fun h => { h with place := place })
    (fun _ => rfl) (fun _ => ⟨rfl, rfl⟩) (fun _ _ hin => ⟨fun hp => hclosing hp hin, hnew⟩) (by
      intro s h' hs hh'
      obtain rfl : h' = h := Option.some.inj (hh'.symm.trans hh)
      rw [(wf.sound hs hh).connCloses_eq, if_neg hplace, if_neg hnew])
  rwa [show st.heap.modify i (fun s => s) = st.heap from List.modify_id i _] at hmod

/-- The connection is closed, and the handler ends. -/
theorem closeConn {i : ℕ} {h : Handler} (hh : st.handlers[i]? = some h)
    (hplace : h.place = .closing) : WellFormed ((st.closeConn i).moveTo i .ended) := by
  refine wf.modify i (f := fun s => { s with connCloses := s.connCloses + 1 })
    (g := fun h => { h with place := .ended }) (fun _ => rfl) (fun _ => ⟨rfl, rfl⟩)
    (fun h' hh' ⟨_, hl⟩ => ?_) fun s h' hs hh' => ?_
  · -- the handler of a listed session runs
    obtain rfl : h' = h := Option.some.inj (hh'.symm.trans hh)
    exact absurd hplace (wf.eq_srcAddr hl hh).2.1
  · have hne : h.place ≠ .ended := by simp [hplace]
    simp [(wf.sound hs hh).connCloses_eq, hne]

theorem dropEntry {src : Text} {id : ℕ} (hl : st.sessions.lookup src = some id) :
    WellFormed (st.dropEntry src id) where
  length_eq := by simp [Store.dropEntry, Store.closeSessionChan, wf.length_eq]
  entry := by
    intro src' j hl'
    have hsrc : src' ≠ src := by
      rintro rfl
      rw [Store.dropEntry, AList.lookup_erase] at hl'
      cases hl'
    rw [Store.dropEntry, AList.lookup_erase_ne hsrc] at hl'
    obtain ⟨s, h, hs, hh, hsrc', hrun, hopen⟩ := wf.entry hl'
    -- another address lists another session
    have hne : id ≠ j := by
      rintro rfl
      exact hsrc (hsrc'.symm.trans (wf.eq_srcAddr hl hh).1)
    refine ⟨s, h, ?_, hh, hsrc', hrun, hopen⟩
    rw [Store.dropEntry, Store.closeSessionChan, List.getElem?_modify_ne _ _ hne, hs]
  sound := by
    intro j s h hs hh
    rw [Store.dropEntry, Store.closeSessionChan, List.getElem?_modify] at hs
    obtain ⟨s₀, hs₀, rfl⟩ := Option.map_eq_some_iff.1 hs
    obtain ⟨hid, hlisted, hle, hconn⟩ := wf.sound hs₀ hh
    by_cases hij : id = j
    · subst hij
      rw [if_pos rfl]
      split
      · rename_i hopen
        exact ⟨hid, fun h => absurd h (by simp), by simp [hopen], hconn⟩
      · rename_i hclosed
        exact ⟨hid, fun h => absurd h hclosed, hle, hconn⟩
    · rw [if_neg hij]
      refine ⟨hid, fun hopen => ?_, hle, hconn⟩
      have hsrc : h.srcAddr ≠ src := by
        rintro rfl
        exact hij (Option.some.inj (hl.symm.trans (hlisted hopen)))
      rw [Store.dropEntry, AList.lookup_erase_ne hsrc]
      exact hlisted hopen

theorem removeSession (src : Text) (id : ℕ) : WellFormed (st.removeSession src id) := by
  rw [Store.removeSession]
  split
  · rename_i hl
    exact wf.dropEntry hl
  · exact wf

/-- After `removeSession` by its handler, a session is not listed. -/
theorem not_inTable_removeSession {i : ℕ} {h : Handler} (hh : st.handlers[i]? = some h) :
    ¬ (st.removeSession h.srcAddr h.session).InTable i := by
  rw [wf.handler_session hh]
  rintro ⟨src, hl⟩
  rw [Store.removeSession] at hl
  split at hl
  · rename_i hlisted
    by_cases hsrc : src = h.srcAddr
    · rw [hsrc, Store.dropEntry, AList.lookup_erase] at hl
      cases hl
    · rw [Store.dropEntry, AList.lookup_erase_ne hsrc] at hl
      exact hsrc (wf.eq_srcAddr hl hh).1.symm
  · rename_i hnot
    exact hnot ((wf.eq_srcAddr hl hh).1 ▸ hl)

theorem create {src : Text} (hnone : st.sessions.lookup src = none) (now : ℤ) :
    WellFormed (st.create src now) where
  length_eq := by simp [Store.create, wf.length_eq]
  entry := by
    intro src' j hl
    by_cases hsrc : src' = src
    · subst hsrc
      rw [Store.create, AList.lookup_insert, Option.some.injEq] at hl
      subst hl
      refine ⟨⟨now, 0, 0⟩, ⟨src', st.heap.length, .check⟩, ?_, ?_, rfl, ⟨nofun, nofun⟩, rfl⟩
      · simp [Store.create]
      · simp [Store.create, ← wf.length_eq]
    · rw [Store.create, AList.lookup_insert_ne hsrc] at hl
      obtain ⟨s, h, hs, hh, hrest⟩ := wf.entry hl
      refine ⟨s, h, ?_, ?_, hrest⟩
      · rw [Store.create, List.getElem?_append_left (List.getElem?_eq_some_iff.1 hs).1, hs]
      · rw [Store.create, List.getElem?_append_left (List.getElem?_eq_some_iff.1 hh).1, hh]
  sound := by
    intro j s h hs hh
    rw [Store.create] at hs hh
    rcases lt_or_ge j st.heap.length with hj | hj
    · rw [List.getElem?_append_left hj] at hs
      rw [List.getElem?_append_left (wf.length_eq ▸ hj)] at hh
      obtain ⟨hid, hlisted, hle, hconn⟩ := wf.sound hs hh
      refine ⟨hid, fun hopen => ?_, hle, hconn⟩
      have hne : h.srcAddr ≠ src := by
        rintro rfl
        rw [hlisted hopen] at hnone
        cases hnone
      rw [Store.create, AList.lookup_insert_ne hne]
      exact hlisted hopen
    · rw [List.getElem?_append_right hj] at hs
      rw [List.getElem?_append_right (wf.length_eq ▸ hj), wf.length_eq] at hh
      rw [List.getElem?_singleton, Option.ite_none_right_eq_some] at hs hh
      obtain ⟨hj0, ⟨⟩⟩ := hs
      obtain ⟨-, ⟨⟩⟩ := hh
      obtain rfl : j = st.heap.length := by omega
      exact ⟨rfl, fun _ => AList.lookup_insert _, by simp, by simp⟩

theorem getOrCreateSession (src : Text) (now : ℤ) (dialOK : Bool) :
    WellFormed (st.getOrCreateSession src now dialOK).1 := by
  rw [Store.getOrCreateSession]
  split
  · exact wf.touch _ now
  · rename_i hnone
    split
    · exact wf.create hnone now
    · exact wf

theorem sweep (inactivityDur now : ℤ) : WellFormed (st.sweep inactivityDur now) :=
  Store.sweep_induction (fun _ _ _ hst hl => hst.dropEntry hl) wf

end WellFormed

/-! ## Steps -/

theorem wellFormed_handlerEffect {st st' : Store} (wf : WellFormed st) {now : ℤ} {i : ℕ}
    {h : Handler} (hh : st.handlers[i]? = some h) (heff : HandlerEffect st now i h st') :
    WellFormed st' := by
  cases heff with
  | move place hrun hplace =>
    exact wf.moveTo hh hrun.2 hplace.2 fun hclosing => absurd hclosing hplace.1
  | record place hrun hplace =>
    exact (wf.touch _ now).moveTo hh hrun.2 hplace.2 fun hclosing => absurd hclosing hplace.1
  | remove hplace =>
    have hh' : (st.removeSession h.srcAddr h.session).handlers[i]? = some h := by
      rw [st.handlers_removeSession, hh]
    exact (wf.removeSession _ _).moveTo hh' (by simp [hplace]) (by simp)
      fun _ => wf.not_inTable_removeSession hh
  | close hplace =>
    rw [wf.handler_session hh]
    exact wf.closeConn hh hplace

/-- **Every step keeps the invariant.** -/
theorem wellFormed_storeEffect {conf : UDPProxyTunnelConfig w} {st : State} {store : Store}
    (wf : WellFormed st.store) (heff : StoreEffect conf st store) : WellFormed store := by
  cases heff with
  | same => exact wf
  | assign src dialOK => exact wf.getOrCreateSession src st.clock dialOK
  | record id => exact wf.touch id st.clock
  | sweep now => exact wf.sweep _ now
  | handler i h _ hh heff => exact wellFormed_handlerEffect wf hh heff

theorem wellFormed_of_reachable {conf : UDPProxyTunnelConfig w} {clock : ℤ} {st : State}
    (h : Reachable (step conf) (State.init clock) st) : WellFormed st.store :=
  h.invariant (I := fun st => WellFormed st.store) wellFormed_empty
    fun _ _ _ wf hstep => wellFormed_storeEffect wf (storeEffect_of_step hstep)

/-! ## Other sessions -/

/-- A step of a handler leaves every session but its own as it is: the session itself, and the
entries of the table that list it. -/
theorem handlerEffect_frame {st st' : Store} (wf : WellFormed st) {now : ℤ} {i : ℕ} {h : Handler}
    (hh : st.handlers[i]? = some h) (heff : HandlerEffect st now i h st') {id : ℕ} (hid : id ≠ i) :
    st'.heap[id]? = st.heap[id]? ∧
      ∀ src, st'.sessions.lookup src = some id ↔ st.sessions.lookup src = some id := by
  have hne : h.session ≠ id := wf.handler_session hh ▸ hid.symm
  cases heff with
  | move place hrun hplace => exact ⟨rfl, fun _ => Iff.rfl⟩
  | record place hrun hplace =>
    exact ⟨List.getElem?_modify_ne _ _ hne, fun _ => Iff.rfl⟩
  | remove hplace =>
    rw [Store.removeSession]
    split
    · rename_i hl
      refine ⟨List.getElem?_modify_ne _ _ hne, fun src => ?_⟩
      by_cases hsrc : src = h.srcAddr
      · subst hsrc
        refine iff_of_false ?_ fun hl' => hne (Option.some.inj (hl.symm.trans hl'))
        simp [Store.moveTo, Store.dropEntry, AList.lookup_erase]
      · simp only [Store.moveTo, Store.dropEntry, AList.lookup_erase_ne hsrc]
    · exact ⟨rfl, fun _ => Iff.rfl⟩
  | close hplace => exact ⟨List.getElem?_modify_ne _ _ hne, fun _ => Iff.rfl⟩

/-- **The life cycle of the sessions.** In every state that the proxy can reach, for any
interleaving of its goroutines:

* the sessions in the table are those whose channel is open, a channel is closed at most once, and
  so is a connection, only when its session is not in the table;
* a session in the table has an open connection and exactly one handler that runs;
* a step of a handler touches no session but its own and no entry of another one;
* a failed dial changes nothing. -/
theorem sessions_lifeCycle {conf : UDPProxyTunnelConfig w} {clock : ℤ} {st : State}
    (hreach : Reachable (step conf) (State.init clock) st) :
    (∀ id, st.store.InTable id → ∃ s, st.store.heap[id]? = some s) ∧
    (∀ id s, st.store.heap[id]? = some s →
      (st.store.InTable id ↔ s.chanCloses = 0) ∧ s.chanCloses ≤ 1 ∧ s.connCloses ≤ 1 ∧
      (s.connCloses ≠ 0 → ¬ st.store.InTable id) ∧
      (st.store.InTable id → s.connCloses = 0 ∧
        ∃! i : ℕ, ∃ h, st.store.handlers[i]? = some h ∧ h.session = id ∧ h.Running)) ∧
    (∀ i h l st', st.store.handlers[i]? = some h → step conf st (.handler i l) = some st' →
      ∀ id ≠ h.session, st'.store.heap[id]? = st.store.heap[id]? ∧
        ∀ src, st'.store.sessions.lookup src = some id ↔
          st.store.sessions.lookup src = some id) ∧
    (∀ src datagram st', st.main = .received src datagram →
      st.store.sessions.lookup src = none → step conf st (.assign false) = some st' →
      st'.store = st.store) := by
  have wf := wellFormed_of_reachable hreach
  refine ⟨?_, ?_, ?_, ?_⟩
  · rintro id ⟨src, hl⟩
    obtain ⟨s, -, hs, -⟩ := wf.entry hl
    exact ⟨s, hs⟩
  · intro id s hs
    obtain ⟨h, hh⟩ := wf.exists_handler hs
    obtain ⟨hid, -, hle, hconn⟩ := wf.sound hs hh
    -- a listed session has a running handler, so its connection is open
    have hopen : st.store.InTable id → s.connCloses = 0 ∧ h.Running := by
      rintro ⟨src, hl⟩
      have hrun := (wf.eq_srcAddr hl hh).2
      exact ⟨by rw [hconn, if_neg hrun.2], hrun⟩
    refine ⟨wf.inTable_iff hs, hle, by rw [hconn]; split <;> simp,
      fun hclosed hin => hclosed (hopen hin).1, fun hin => ⟨(hopen hin).1, id, ?_, ?_⟩⟩
    · exact ⟨h, hh, hid, (hopen hin).2⟩
    · rintro j ⟨h', hh', hsession, -⟩
      rw [← hsession, wf.handler_session hh']
  · intro i h l st' hh hstep id hid
    simp only [step, hh] at hstep
    obtain ⟨store, hstore, rfl⟩ := Option.map_eq_some_iff.1 hstep
    exact handlerEffect_frame wf hh (handlerEffect_of_step hstore) (wf.handler_session hh ▸ hid)
  · intro src datagram st' hmain hnone hstep
    simp only [step, hmain, Store.getOrCreateSession, hnone] at hstep
    cases hstep
    rfl

/-- A tunnel whose sessions expire after thirty seconds. -/
def thirtySeconds : UDPProxyTunnelConfig .bits64 := ⟨"127.0.0.1:53", "10.0.0.1:53", 30⟩

/-- A session expires and is created again for the same client while the old handler is still
blocked in its read; then the old handler ends. -/
def lateHandler : List Label :=
  [.receive "192.0.2.1:4000" [1], .assign true, .record, .send true, .handler 0 .check,
    .advance 60000000000, .wake, .sweep, .receive "192.0.2.1:4000" [2], .assign true,
    .handler 0 .timeout, .handler 0 .recheck, .handler 0 .remove, .handler 0 .close]

/-- After that run, the new session is in the table with an open connection, and the old one has
been closed once. -/
theorem sessions_lifeCycle_lateHandler :
    ∃ st : State, Reachable (step thirtySeconds) (State.init 0) st ∧
      st.store.sessions.lookup ("192.0.2.1:4000" : String).toList = some 1 ∧
      (∃ s, st.store.heap[0]? = some s ∧ s.chanCloses = 1 ∧ s.connCloses = 1) ∧
      ∃ s, st.store.heap[1]? = some s ∧ s.chanCloses = 0 ∧ s.connCloses = 0 := by
  have hrun : ((run (step thirtySeconds) (State.init 0) lateHandler).map fun st =>
      (st.store.sessions.lookup ("192.0.2.1:4000" : String).toList,
        st.store.heap[0]?.map fun s => (s.chanCloses, s.connCloses))) =
      some (some 1, some (1, 1)) := by
    decide +kernel
  obtain ⟨st, hst, hfacts⟩ := Option.map_eq_some_iff.1 hrun
  rw [Prod.mk.injEq, Option.map_eq_some_iff] at hfacts
  obtain ⟨hlookup, s₀, hs₀, hcounts⟩ := hfacts
  rw [Prod.mk.injEq] at hcounts
  have hreach : Reachable (step thirtySeconds) (State.init 0) st := ⟨lateHandler, hst⟩
  obtain ⟨hheap, hsession, -⟩ := sessions_lifeCycle hreach
  obtain ⟨s, hs⟩ := hheap 1 ⟨_, hlookup⟩
  obtain ⟨hiff, -, -, -, hopen⟩ := hsession 1 s hs
  exact ⟨st, hreach, hlookup, ⟨s₀, hs₀, hcounts⟩,
    s, hs, hiff.1 ⟨_, hlookup⟩, (hopen ⟨_, hlookup⟩).1⟩

end WireProxy.Udp
