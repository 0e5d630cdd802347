import WireProxy.Foundations.Transition.Refinement
import WireProxy.Udp.Locking

/-!
# Atomic sections

The sections under the lock are atomic, although the others do not stop while one is under way.

* `Atomic` is the model with atomic sections. The sweeper's loop is not one of them, since the
  others assign `lastActive` while it goes on: each comparison is a step, and so is the removal of
  the entry that it has marked. A sweep during which the others do nothing is the one of `Udp.step`
  (`atomic_of_step`).
* `finish` carries out what a section still has to do once the others can see that it took effect.
  Seen through it, a step is a step of `Atomic` or none (`refines_step`), from which
  `sections_atomic` follows.
-/

namespace WireProxy.Udp.Locking

open Text Go Config Transition

variable {w : IntSize}

/-! ## The model with atomic sections -/

/-- How far the sweeper has come in its loop. -/
structure Sweep where
  /-- The keys that it has looked at. -/
  visited : List Text
  /-- The entry that the comparison has marked, until it is removed. -/
  idle : Option (Text × ℕ)

/-- The state of the proxy, and the sweep that is going on. -/
structure AtomicState where
  base : Udp.State
  sweep : Option Sweep

/-- The steps of the proxy with atomic sections. -/
inductive Atomic (conf : UDPProxyTunnelConfig w) (a : AtomicState) : AtomicState → Prop
  /-- A step that needs no lock, or a whole section of the main loop or of a handler. -/
  | step (l : Udp.Label) (b : Udp.State) (hl : l ≠ .sweep)
    (hlock : outside l = true ∨ a.sweep = none) (hstep : Udp.step conf a.base l = some b) :
    Atomic conf a { a with base := b }
  /-- The sweeper, which has read the time, takes the lock. -/
  | start (now : ℤ) (hnow : a.base.sweeper = some now) (hsweep : a.sweep = none) :
    Atomic conf a { a with sweep := some ⟨[], none⟩ }
  /-- It compares the times for an entry that it has not looked at, and marks an idle one. -/
  | compare (visited : List Text) (src : Text) (id : ℕ) (now : ℤ) (s : Session)
    (hsweep : a.sweep = some ⟨visited, none⟩) (hnow : a.base.sweeper = some now)
    (hnew : src ∉ visited) (hlookup : a.base.store.sessions.lookup src = some id)
    (hs : a.base.store.heap[id]? = some s) :
    Atomic conf a { a with
      sweep := some ⟨src :: visited,
        if now - s.lastActive ≥ inactivityDur conf then some (src, id) else none⟩ }
  /-- It removes the entry that it has marked. -/
  | expire (visited : List Text) (src : Text) (id : ℕ)
    (hsweep : a.sweep = some ⟨visited, some (src, id)⟩)
    (hlookup : a.base.store.sessions.lookup src = some id) :
    Atomic conf a ⟨{ a.base with store := a.base.store.dropEntry src id }, some ⟨visited, none⟩⟩
  /-- It has looked at every entry that is left, and releases the lock. -/
  | stop (visited : List Text) (hsweep : a.sweep = some ⟨visited, none⟩)
    (hall : ∀ src ∈ a.base.store.sessions.keys, src ∈ visited) :
    Atomic conf a ⟨{ a.base with sweeper := none }, none⟩

section Atomic

variable {conf : UDPProxyTunnelConfig w}

theorem Atomic.wellFormed {a a' : AtomicState} (h : Atomic conf a a')
    (wf : WellFormed a.base.store) : WellFormed a'.base.store := by
  cases h with
  | step l _ _ _ hstep => exact wellFormed_storeEffect wf (storeEffect_of_step hstep)
  | expire _ src id _ hlookup => exact wf.dropEntry hlookup
  | start | compare | stop => exact wf

/-- The sweeper looks at an entry, and removes it if it is idle. -/
theorem atomic_sweepEntry (conf : UDPProxyTunnelConfig w) {b : Udp.State}
    (wf : WellFormed b.store) {now : ℤ} (hnow : b.sweeper = some now) {visited : List Text}
    {e : (_ : Text) × ℕ} (hnew : e.1 ∉ visited) (hlookup : b.store.sessions.lookup e.1 = some e.2) :
    Relation.ReflTransGen (Atomic conf) ⟨b, some ⟨visited, none⟩⟩
      ⟨{ b with store := Store.sweepEntry (inactivityDur conf) now b.store e },
        some ⟨e.1 :: visited, none⟩⟩ := by
  obtain ⟨s, -, hs, -⟩ := wf.entry hlookup
  have hcompare : Atomic conf ⟨b, some ⟨visited, none⟩⟩ _ :=
    .compare visited e.1 e.2 now s rfl hnow hnew hlookup hs
  simp only [Store.sweepEntry, hs]
  split
  · rename_i hidle
    simp only [if_pos hidle] at hcompare
    exact .tail (.single hcompare) (.expire _ e.1 e.2 rfl hlookup)
  · rename_i hidle
    simp only [if_neg hidle] at hcompare
    exact .single hcompare

/-- The loop over some of the entries. -/
theorem atomic_foldl_sweepEntry (conf : UDPProxyTunnelConfig w) {b : Udp.State}
    (wf : WellFormed b.store) {now : ℤ} (hnow : b.sweeper = some now)
    {entries : List ((_ : Text) × ℕ)} (hnodup : entries.NodupKeys)
    (hentries : ∀ e ∈ entries, b.store.sessions.lookup e.1 = some e.2) {visited : List Text}
    (hnew : ∀ e ∈ entries, e.1 ∉ visited) :
    ∃ visited', (∀ src, src ∈ visited' ↔ src ∈ visited ∨ src ∈ entries.keys) ∧
      Relation.ReflTransGen (Atomic conf) ⟨b, some ⟨visited, none⟩⟩
        ⟨{ b with store := entries.foldl (Store.sweepEntry (inactivityDur conf) now) b.store },
          some ⟨visited', none⟩⟩ := by
  -- the entries that the loop has not come to are in the table, and it has not looked at them
  induction entries generalizing b visited with
  | nil => exact ⟨visited, by simp, .refl⟩
  | cons e entries ih =>
    rw [List.nodupKeys_cons] at hnodup
    rw [List.forall_mem_cons] at hentries hnew
    have hne : ∀ e' ∈ entries, e'.1 ≠ e.1 := fun e' he' h =>
      hnodup.1 (h ▸ List.mem_keys_of_mem he')
    have hentry := atomic_sweepEntry conf wf hnow hnew.1 hentries.1
    have hnew' : ∀ e' ∈ entries, e'.1 ∉ e.1 :: visited := fun e' he' => by
      rw [List.mem_cons, not_or]
      exact ⟨hne e' he', hnew.2 e' he'⟩
    have hstore : WellFormed (Store.sweepEntry (inactivityDur conf) now b.store e) ∧
        ∀ e' ∈ entries, (Store.sweepEntry (inactivityDur conf) now b.store e).sessions.lookup
          e'.1 = some e'.2 := by
      rcases Store.sweepEntry_eq (inactivityDur conf) now b.store e with heq | heq
      · rw [heq]
        exact ⟨wf, hentries.2⟩
      · rw [heq]
        refine ⟨wf.dropEntry hentries.1, fun e' he' => ?_⟩
        rw [Store.dropEntry, AList.lookup_erase_ne (hne e' he')]
        exact hentries.2 e' he'
    obtain ⟨visited', hvisited', hloop⟩ :=
      @ih { b with store := Store.sweepEntry (inactivityDur conf) now b.store e } hstore.1 hnow
        hnodup.2 hstore.2 (e.1 :: visited) hnew'
    refine ⟨visited', fun src => ?_, hentry.trans hloop⟩
    rw [hvisited', List.mem_cons, List.keys_cons, List.mem_cons, or_comm (a := src = e.1), or_assoc]

/-- **A step of the proxy**, with a sweep as one step of it, is a run here. -/
theorem atomic_of_step {b b' : Udp.State} {l : Udp.Label} (wf : WellFormed b.store)
    (hstep : Udp.step conf b l = some b') :
    Relation.ReflTransGen (Atomic conf) ⟨b, none⟩ ⟨b', none⟩ := by
  by_cases hl : l = .sweep
  · subst hl
    rw [Udp.step] at hstep
    split at hstep
    · rename_i now hnow
      cases hstep
      obtain ⟨visited, hvisited, hloop⟩ := atomic_foldl_sweepEntry conf wf hnow
        b.store.sessions.nodupKeys (fun _ he => AList.mem_lookup_iff.2 he)
        fun _ _ => List.not_mem_nil
      refine .tail (.trans (.single (.start now hnow rfl)) hloop) (.stop visited rfl ?_)
      -- what a sweep leaves was there before it
      intro src hsrc
      rw [← AList.mem_keys, ← AList.lookup_isSome, Option.isSome_iff_exists] at hsrc
      obtain ⟨id, hlookup⟩ := hsrc
      have hentry := AList.mem_lookup_iff.1 (Store.lookup_sweep.1 hlookup).1
      exact (hvisited src).2 (.inr (List.mem_keys_of_mem hentry))
    · cases hstep
  · exact .single (.step l b' hl (.inr rfl) hstep)

end Atomic

/-! ## What is left to do in a section -/

/-- What a section still does to the store, after the others can see that it took effect. -/
def finishStore : Section → Store → Store
  | .spawning src id, st => st.spawn src id
  | .expire _ src _ .delete, st => st.delete src
  | .remove i src _ .delete, st => (st.delete src).moveTo i .closing
  | .removed i, st => st.moveTo i .closing
  | _, st => st

/-- The session that the main loop will have. -/
def finishMain : Section → MainLoop → MainLoop
  | .spawning _ id, main => assign main (some id)
  | .unlocking session, main => assign main session
  | _, main => main

/-- The state after the rest of a section. -/
def finish (sec : Section) (b : Udp.State) : Udp.State :=
  { b with store := finishStore sec b.store, main := finishMain sec b.main }

/-- How far the sweeper has come, if the section is its loop. -/
def sweepOf : Section → Option Sweep
  | .range visited | .expire visited _ _ .delete => some ⟨visited, none⟩
  | .visit visited _ _ => some ⟨visited.tail, none⟩
  | .expire visited src id _ => some ⟨visited, some (src, id)⟩
  | _ => none

/-- The state as the model with atomic sections has it. -/
def State.abs (st : State) : AtomicState :=
  match st.lock with
  | none => ⟨st.base, none⟩
  | some sec => ⟨finish sec st.base, sweepOf sec⟩

/-- What the holder knows at a stage of dropping an entry. -/
def Dropping (st : Store) (src : Text) (id : ℕ) : Stage → Prop
  | .select => st.sessions.lookup src = some id
  | .close => st.sessions.lookup src = some id ∧ st.chanClosed id = false
  | .delete => True

/-- What the holder knows where it stands: which goroutine it is, and what it has seen in the
table. -/
def Knows (b : Udp.State) : Section → Prop
  | .lookup src => ∃ datagram, b.main = .received src datagram
  | .found src id =>
    (∃ datagram, b.main = .received src datagram) ∧ b.store.sessions.lookup src = some id
  | .dialling src | .inserting src =>
    (∃ datagram, b.main = .received src datagram) ∧ b.store.sessions.lookup src = none
  | .spawning _ _ | .unlocking _ => ∃ src datagram, b.main = .received src datagram
  | .range _ => ∃ now, b.sweeper = some now
  | .visit visited src id =>
    (∃ now, b.sweeper = some now) ∧ b.store.sessions.lookup src = some id ∧
      ∃ rest, visited = src :: rest ∧ src ∉ rest
  | .expire _ src id stage => (∃ now, b.sweeper = some now) ∧ Dropping b.store src id stage
  | .compare i src id => b.store.handlers[i]? = some ⟨src, id, .removing⟩
  | .remove i src id stage =>
    b.store.handlers[i]? = some ⟨src, id, .removing⟩ ∧ Dropping b.store src id stage
  | .removed i => ∃ src id, b.store.handlers[i]? = some ⟨src, id, .removing⟩

theorem heap_finishStore (sec : Section) (st : Store) : (finishStore sec st).heap = st.heap := by
  unfold finishStore
  split <;> rfl

theorem chanClosed_finishStore (sec : Section) (st : Store) (id : ℕ) :
    (finishStore sec st).chanClosed id = st.chanClosed id := by
  rw [Store.chanClosed, heap_finishStore, Store.chanClosed]

theorem finishStore_touch (sec : Section) (st : Store) (id : ℕ) (now : ℤ) :
    finishStore sec (st.touch id now) = (finishStore sec st).touch id now := by
  unfold finishStore
  split <;> rfl

theorem finishStore_closeConn (sec : Section) (st : Store) (id : ℕ) :
    finishStore sec (st.closeConn id) = (finishStore sec st).closeConn id := by
  unfold finishStore
  split <;> rfl

/-! ## Steps outside of the section -/

theorem modify_append_left {α : Type*} {f : α → α} {j : ℕ} {l : List α} (hj : j < l.length)
    (l' : List α) : (l ++ l').modify j f = l.modify j f ++ l' := by
  induction l generalizing j with
  | nil => cases hj
  | cons a l ih =>
    cases j with
    | zero => rfl
    | succ j =>
      rw [List.cons_append, List.modify_succ_cons, ih (Nat.lt_of_succ_lt_succ hj),
        List.modify_succ_cons, List.cons_append]

section Outside

variable {conf : UDPProxyTunnelConfig w} {b b' : Udp.State} {sec : Section}

/-- The move of a handler that is not in `removeSession` has nothing to do with the section. -/
theorem finishStore_moveTo (hknows : Knows b sec) {j : ℕ} {h : Handler}
    (hh : b.store.handlers[j]? = some h) (hplace : h.place ≠ .removing) {st : Store}
    (hst : st.handlers = b.store.handlers) (place : Place) :
    finishStore sec (st.moveTo j place) = (finishStore sec st).moveTo j place := by
  have hother {i : ℕ} {src : Text} {id : ℕ}
      (hi : b.store.handlers[i]? = some ⟨src, id, .removing⟩) (st' : Store) :
      (st'.moveTo j place).moveTo i .closing = (st'.moveTo i .closing).moveTo j place := by
    have hne : j ≠ i := by
      rintro rfl
      rw [hi, Option.some.injEq] at hh
      exact hplace (hh ▸ rfl)
    rw [Store.moveTo, Store.moveTo, Store.moveTo, Store.moveTo]
    congr 1
    exact List.modify_modify_ne _ _ _ hne
  cases sec with
  | spawning src id =>
    have hj : j < st.handlers.length := hst ▸ (List.getElem?_eq_some_iff.1 hh).1
    simp only [finishStore, Store.moveTo, Store.spawn, modify_append_left hj]
  | remove i src id stage =>
    cases stage with
    | delete => exact hother hknows.1 (st.delete src)
    | select | close => rfl
  | removed i =>
    obtain ⟨src, id, hi⟩ := hknows
    exact hother hi st
  | expire visited src id stage => cases stage <;> rfl
  | _ => rfl

/-- A handler that is not in `removeSession` is the same when the section is finished. -/
theorem handlers_finishStore (hknows : Knows b sec) {j : ℕ} {h : Handler}
    (hh : b.store.handlers[j]? = some h) (hplace : h.place ≠ .removing) :
    (finishStore sec b.store).handlers[j]? = some h := by
  have hother {i : ℕ} {src : Text} {id : ℕ}
      (hi : b.store.handlers[i]? = some ⟨src, id, .removing⟩) :
      (b.store.moveTo i .closing).handlers[j]? = some h := by
    have hne : i ≠ j := by
      rintro rfl
      rw [hi, Option.some.injEq] at hh
      exact hplace (hh ▸ rfl)
    rw [Store.moveTo, List.getElem?_modify_ne _ _ hne, hh]
  cases sec with
  | spawning src id =>
    exact (List.getElem?_append_left (List.getElem?_eq_some_iff.1 hh).1).trans hh
  | remove i src id stage =>
    cases stage with
    | delete => exact hother hknows.1
    | select | close => exact hh
  | removed i =>
    obtain ⟨src, id, hi⟩ := hknows
    exact hother hi
  | expire visited src id stage => cases stage <;> exact hh
  | _ => exact hh

/-- A step of a handler outside of `removeSession` has nothing to do with the section. -/
theorem handlerStep_finishStore (hknows : Knows b sec) {now : ℤ} {j : ℕ} {h : Handler}
    (hh : b.store.handlers[j]? = some h) {l : HandlerLabel} (hl : l ≠ .remove) {store : Store}
    (hstep : handlerStep b.store now j h l = some store) :
    handlerStep (finishStore sec b.store) now j h l = some (finishStore sec store) := by
  have hmove : ∀ st : Store, st.handlers = b.store.handlers → ∀ place,
      finishStore sec (st.moveTo j place) = (finishStore sec st).moveTo j place := fun _ hst =>
    finishStore_moveTo hknows hh (place_of_handlerStep hl hstep) hst
  cases l with
  | remove => exact absurd rfl hl
  | check | recheck =>
    rw [handlerStep, Option.ite_none_right_eq_some, Option.some.injEq] at hstep ⊢
    obtain ⟨hplace, rfl⟩ := hstep
    exact ⟨hplace, by rw [chanClosed_finishStore, hmove _ rfl]⟩
  | data | timeout | readError =>
    rw [handlerStep, Option.ite_none_right_eq_some, Option.some.injEq] at hstep ⊢
    obtain ⟨hplace, rfl⟩ := hstep
    exact ⟨hplace, (hmove _ rfl _).symm⟩
  | record =>
    rw [handlerStep] at hstep ⊢
    split at hstep
    · cases hstep
      rw [hmove (b.store.touch h.session now) rfl, finishStore_touch]
    · cases hstep
  | resolve ok | write ok =>
    rw [handlerStep] at hstep ⊢
    split at hstep
    · cases hstep
      rw [hmove _ rfl]
    · cases hstep
  | close =>
    rw [handlerStep, Option.ite_none_right_eq_some, Option.some.injEq] at hstep ⊢
    obtain ⟨hplace, rfl⟩ := hstep
    exact ⟨hplace, by rw [hmove (b.store.closeConn h.session) rfl, finishStore_closeConn]⟩

theorem Dropping.frame (hframe : Frame b b') {src : Text} {id : ℕ} {stage : Stage}
    (h : Dropping b.store src id stage) : Dropping b'.store src id stage := by
  cases stage with
  | select => rwa [Dropping, hframe.sessions_eq]
  | close => rwa [Dropping, hframe.sessions_eq, hframe.chanClosed_eq]
  | delete => trivial

/-- What the holder knows stays true when others take their steps. -/
theorem Knows.frame (hframe : Frame b b') (hknows : Knows b sec) : Knows b' sec := by
  have hsessions := hframe.sessions_eq
  cases sec with
  | lookup src =>
    obtain ⟨datagram, hmain⟩ := hknows
    exact ⟨datagram, hframe.main hmain⟩
  | found src id | dialling src | inserting src =>
    obtain ⟨⟨datagram, hmain⟩, hlookup⟩ := hknows
    exact ⟨⟨datagram, hframe.main hmain⟩, by rwa [hsessions]⟩
  | spawning src id | unlocking session =>
    obtain ⟨src', datagram, hmain⟩ := hknows
    exact ⟨src', datagram, hframe.main hmain⟩
  | range visited =>
    obtain ⟨now, hnow⟩ := hknows
    exact ⟨now, hframe.sweeper hnow⟩
  | visit visited src id =>
    obtain ⟨⟨now, hnow⟩, hlookup, hvisited⟩ := hknows
    exact ⟨⟨now, hframe.sweeper hnow⟩, by rwa [hsessions], hvisited⟩
  | expire visited src id stage =>
    obtain ⟨⟨now, hnow⟩, hdrop⟩ := hknows
    exact ⟨⟨now, hframe.sweeper hnow⟩, hdrop.frame hframe⟩
  | compare i src id => exact hframe.removing hknows rfl
  | remove i src id stage => exact ⟨hframe.removing hknows.1 rfl, hknows.2.frame hframe⟩
  | removed i =>
    obtain ⟨src, id, hi⟩ := hknows
    exact ⟨src, id, hframe.removing hi rfl⟩

/-- Only a section of `getOrCreateSession` has something left to do for the main loop. -/
theorem finishMain_of_not_received (hknows : Knows b sec)
    (hmain : ∀ src datagram, b.main ≠ .received src datagram) (main : MainLoop) :
    finishMain sec main = main := by
  cases sec with
  | spawning | unlocking =>
    obtain ⟨src, datagram, hreceived⟩ := hknows
    exact absurd hreceived (hmain src datagram)
  | _ => rfl

/-- **A step outside of the section** is the same step when the section is finished. -/
theorem step_finish (hknows : Knows b sec) {l : Udp.Label} (hl : outside l = true)
    (hstep : Udp.step conf b l = some b') :
    Udp.step conf (finish sec b) l = some (finish sec b') := by
  cases l with
  | advance d =>
    cases hstep
    rfl
  | receive src datagram =>
    rw [Udp.step, Option.ite_none_right_eq_some] at hstep
    obtain ⟨hmain, ⟨⟩⟩ := hstep
    have hfinish := finishMain_of_not_received hknows (by simp [hmain])
    simp only [Udp.step, finish, hfinish, hmain, if_true]
  | assign dialOK => cases hl
  | record =>
    rw [Udp.step] at hstep
    split at hstep
    · rename_i id datagram hmain
      cases hstep
      have hfinish := finishMain_of_not_received hknows (by simp [hmain])
      simp only [Udp.step, finish, hfinish, hmain, finishStore_touch]
    · cases hstep
  | send ok =>
    rw [Udp.step] at hstep
    split at hstep
    · rename_i id datagram hmain
      rw [Option.ite_none_left_eq_some] at hstep
      obtain ⟨hopen, ⟨⟩⟩ := hstep
      have hfinish := finishMain_of_not_received hknows (by simp [hmain])
      simp only [Udp.step, finish, hfinish, hmain, heap_finishStore, if_neg hopen]
    · cases hstep
  | wake =>
    rw [Udp.step, Option.ite_none_right_eq_some] at hstep
    obtain ⟨hguard, ⟨⟩⟩ := hstep
    exact if_pos hguard
  | sweep => cases hl
  | handler j l =>
    have hremove : l ≠ .remove := by
      rintro rfl
      cases hl
    rw [Udp.step] at hstep
    split at hstep
    · rename_i h hh
      obtain ⟨store, hstore, rfl⟩ := Option.map_eq_some_iff.1 hstep
      have hfinish := handlerStep_finishStore hknows hh hremove hstore
      have hhandler : (finishStore sec b.store).handlers[j]? = some h :=
        handlers_finishStore hknows hh (place_of_handlerStep hremove hstore)
      simp only [Udp.step, finish, hhandler, hfinish, Option.map_some]
    · cases hstep

end Outside

/-! ## Statements of the section -/

section Inside

variable {conf : UDPProxyTunnelConfig w} {b b' : Udp.State} {sec : Section}

/-- Closing an open channel and deleting the entry is dropping it. -/
theorem delete_closeChan {st : Store} {src : Text} {id : ℕ} (hopen : st.chanClosed id = false) :
    (st.closeChan id).delete src = st.dropEntry src id := by
  have hheap : (st.closeChan id).heap = (st.closeSessionChan id).heap := by
    refine List.ext_getElem? fun k => ?_
    rw [Store.closeChan, Store.closeSessionChan, List.getElem?_modify, List.getElem?_modify]
    by_cases hk : id = k
    · subst hk
      cases hs : st.heap[id]? with
      | none => rfl
      | some s =>
        have hzero : s.chanCloses = 0 := by simpa [Store.chanClosed, hs] using hopen
        simp [hzero]
    · simp [hk]
  rw [Store.delete, hheap]
  rfl

/-- The channel of a session in the table is open. -/
theorem chanClosed_of_lookup {st : Store} (wf : WellFormed st) {src : Text} {id : ℕ}
    (hlookup : st.sessions.lookup src = some id) : st.chanClosed id = false := by
  obtain ⟨s, -, hs, -, -, -, hopen⟩ := wf.entry hlookup
  simp [Store.chanClosed, hs, hopen]

/-- So the `select` never finds it closed. -/
theorem dropStep_select {st : Store} (wf : WellFormed st) {src : Text} {id : ℕ}
    (hlookup : st.sessions.lookup src = some id) :
    dropStep st src id .select = (st, some .close) := by
  rw [dropStep, chanClosed_of_lookup wf hlookup]
  rfl

/-- A statement of a section: the holder knows what it needs at the next place, and the statement is
a step of the model with atomic sections or none. -/
def Refines (conf : UDPProxyTunnelConfig w) (a : AtomicState) (b' : Udp.State)
    (next : Option Section) : Prop :=
  (∀ sec ∈ next, Knows b' sec) ∧
    (State.abs ⟨b', next⟩ = a ∨ Atomic conf a (State.abs ⟨b', next⟩))

variable {c : Choice} {next : Option Section}

/-- The statements of `getOrCreateSession`. It takes effect with the assignment to `lastActive`, the
entry in the table or the failure of the dial. -/
theorem refines_getOrCreateSession {src : Text} {datagram : Bytes}
    (hmain : b.main = .received src datagram)
    (hsec : sec = .lookup src ∨ (∃ id, sec = .found src id) ∨ sec = .dialling src ∨
      sec = .inserting src) (hknows : Knows b sec)
    (hstep : sectionStep conf b sec c = some (b', next)) : Refines conf ⟨b, none⟩ b' next := by
  rcases hsec with rfl | ⟨id, rfl⟩ | rfl | rfl
  · cases c <;> simp only [sectionStep, reduceCtorEq] at hstep
    split at hstep
    all_goals
      rename_i hlookup
      cases hstep
      exact ⟨by simp [Knows, hmain, hlookup], .inl rfl⟩
  · cases c <;> cases hstep
    have hlookup := hknows.2
    refine ⟨by simp [Knows, hmain], .inr (.step (.assign true) _ (by simp) (.inr rfl) ?_)⟩
    simp only [Udp.step, hmain, Store.getOrCreateSession, hlookup]
    simp only [finish, finishMain]
    rfl
  · cases c <;> cases hstep
    rename_i ok
    have hlookup := hknows.2
    cases ok with
    | true => exact ⟨by simp [Knows, hmain, hlookup], .inl rfl⟩
    | false =>
      refine ⟨by simp [Knows, hmain], .inr (.step (.assign false) _ (by simp) (.inr rfl) ?_)⟩
      simp only [Udp.step, hmain, Store.getOrCreateSession, hlookup]
      simp only [finish, Bool.false_eq_true, if_false, finishMain, hmain]
      rfl
  · cases c <;> cases hstep
    have hlookup := hknows.2
    refine ⟨by simp [Knows, hmain], .inr (.step (.assign true) _ (by simp) (.inr rfl) ?_)⟩
    simp only [Udp.step, hmain, Store.getOrCreateSession, hlookup, if_true]
    simp only [finish, finishMain]
    rfl

/-- The comparison of the sweeper. -/
theorem refines_visit {visited : List Text} {src : Text} {id : ℕ}
    (hknows : Knows b (.visit visited src id)) (wf : WellFormed b.store)
    (hstep : sectionStep conf b (.visit visited src id) c = some (b', next)) :
    Refines conf ⟨b, sweepOf (.visit visited src id)⟩ b' next := by
  obtain ⟨⟨now, hnow⟩, hlookup, rest, rfl, hnew⟩ := hknows
  obtain ⟨s, -, hs, -⟩ := wf.entry hlookup
  have hcompare : Atomic conf ⟨b, some ⟨rest, none⟩⟩ _ :=
    .compare rest src id now s rfl hnow hnew hlookup hs
  cases c <;> simp only [sectionStep, hnow, hs, reduceCtorEq] at hstep
  split at hstep
  · rename_i hidle
    cases hstep
    simp only [if_pos hidle] at hcompare
    exact ⟨by simp [Knows, Dropping, hnow, hlookup], .inr hcompare⟩
  · rename_i hidle
    cases hstep
    simp only [if_neg hidle] at hcompare
    exact ⟨by simp [Knows, hnow], .inr hcompare⟩

/-- The statements of the sweeper for an idle entry. It is removed with the close of its channel. -/
theorem refines_expire {visited : List Text} {src : Text} {id : ℕ} {stage : Stage}
    (hknows : Knows b (.expire visited src id stage))
    (wf : WellFormed (finish (.expire visited src id stage) b).store)
    (hstep : sectionStep conf b (.expire visited src id stage) c = some (b', next)) :
    Refines conf (State.abs ⟨b, some (.expire visited src id stage)⟩) b' next := by
  obtain ⟨⟨now, hnow⟩, hdrop⟩ := hknows
  cases c <;> simp only [sectionStep, reduceCtorEq] at hstep
  cases stage with
  | select =>
    have hwf : WellFormed b.store := wf
    have hlookup : b.store.sessions.lookup src = some id := hdrop
    rw [dropStep_select hwf hlookup] at hstep
    cases hstep
    exact ⟨by simp [Knows, Dropping, hnow, chanClosed_of_lookup hwf hlookup, hlookup], .inl rfl⟩
  | close =>
    cases hstep
    refine ⟨by simp [Knows, Dropping, hnow], .inr ?_⟩
    have hatomic : Atomic conf ⟨b, some ⟨visited, some (src, id)⟩⟩ _ :=
      .expire visited src id rfl hdrop.1
    simp only [← delete_closeChan hdrop.2] at hatomic
    exact hatomic
  | delete =>
    cases hstep
    exact ⟨by simp [Knows, hnow], .inl rfl⟩

/-- The statements of `removeSession`. It takes effect with the close of the channel, or when it
finds that the session is not in the table. -/
theorem refines_removeSession {i : ℕ} {src : Text} {id : ℕ}
    (hi : b.store.handlers[i]? = some ⟨src, id, .removing⟩)
    (hsec : sec = .compare i src id ∨ ∃ stage, sec = .remove i src id stage)
    (hknows : Knows b sec) (wf : WellFormed (finish sec b).store)
    (hstep : sectionStep conf b sec c = some (b', next)) :
    Refines conf ⟨finish sec b, none⟩ b' next := by
  have hremove : Udp.step conf b (.handler i .remove) =
      some { b with store := (b.store.removeSession src id).moveTo i .closing } := by
    simp [Udp.step, hi, handlerStep]
  rcases hsec with rfl | ⟨stage, rfl⟩
  · cases c <;> cases hstep
    split
    · rename_i hlookup
      exact ⟨by simp [Knows, Dropping, hi, hlookup], .inl rfl⟩
    · rename_i hlookup
      refine ⟨by simp [Knows, hi], .inr (.step (.handler i .remove) _ (by simp) (.inr rfl) ?_)⟩
      rw [Store.removeSession, if_neg hlookup] at hremove
      exact hremove
  · cases c <;> simp only [sectionStep, reduceCtorEq] at hstep
    obtain ⟨-, hdrop⟩ := hknows
    cases stage with
    | select =>
      have hwf : WellFormed b.store := wf
      have hlookup : b.store.sessions.lookup src = some id := hdrop
      rw [dropStep_select hwf hlookup] at hstep
      cases hstep
      exact ⟨by simp [Knows, Dropping, hi, chanClosed_of_lookup hwf hlookup, hlookup], .inl rfl⟩
    | close =>
      cases hstep
      refine ⟨by simp [Knows, Dropping, Store.closeChan, hi], .inr (.step (.handler i .remove) _
        (by simp) (.inr rfl) ?_)⟩
      rw [Store.removeSession, if_pos hdrop.1, ← delete_closeChan hdrop.2] at hremove
      exact hremove
    | delete =>
      cases hstep
      exact ⟨by simp [Knows, Store.delete, hi], .inl rfl⟩

/-- **A statement of a section.** -/
theorem refines_section (hknows : Knows b sec) (wf : WellFormed (finish sec b).store)
    (hstep : sectionStep conf b sec c = some (b', next)) :
    Refines conf (State.abs ⟨b, some sec⟩) b' next := by
  cases sec with
  | lookup src =>
    obtain ⟨datagram, hmain⟩ := id hknows
    exact refines_getOrCreateSession hmain (by simp) hknows hstep
  | found src _ | dialling src | inserting src =>
    obtain ⟨datagram, hmain⟩ := hknows.1
    exact refines_getOrCreateSession hmain (by simp) hknows hstep
  | spawning src id =>
    cases c <;> cases hstep
    exact ⟨by simpa [Knows] using hknows, .inl rfl⟩
  | unlocking session | removed i =>
    cases c <;> cases hstep
    exact ⟨by simp, .inl rfl⟩
  | range visited =>
    obtain ⟨now, hnow⟩ := hknows
    cases c with
    | none =>
      rw [sectionStep, Option.ite_none_right_eq_some] at hstep
      obtain ⟨hall, ⟨⟩⟩ := hstep
      have hall' : ∀ src ∈ b.store.sessions.keys, src ∈ visited := by
        simpa [List.all_eq_true] using hall
      exact ⟨by simp, .inr (.stop visited rfl hall')⟩
    | dialled ok => cases hstep
    | key src =>
      rw [sectionStep, Option.ite_none_left_eq_some] at hstep
      obtain ⟨hnew, hstep⟩ := hstep
      obtain ⟨id, hlookup, ⟨⟩⟩ := Option.map_eq_some_iff.1 hstep
      exact ⟨by simpa [Knows, hnow, hlookup] using hnew, .inl rfl⟩
  | visit visited src id => exact refines_visit hknows wf hstep
  | expire visited src id stage => exact refines_expire hknows wf hstep
  | compare i src id => exact refines_removeSession hknows (.inl rfl) hknows wf hstep
  | remove i src id stage =>
    have hrefines := refines_removeSession hknows.1 (.inr ⟨stage, rfl⟩) hknows wf hstep
    cases stage <;> exact hrefines

end Inside

/-! ## Runs -/

/-- The invariant: the holder knows what it needs, and the state is one of the life cycle. -/
structure Invariant (st : State) : Prop where
  knows : ∀ sec ∈ st.lock, Knows st.base sec
  wellFormed : WellFormed st.abs.base.store

theorem invariant_init (clock : ℤ) : Invariant (State.init clock) where
  knows sec h := by cases h
  wellFormed := wellFormed_empty

theorem abs_of_unlocked {st : State} (h : st.lock = none) : st.abs = ⟨st.base, none⟩ := by
  rw [State.abs, h]

/-- A goroutine that takes the lock knows where it stands, and has done nothing yet. -/
theorem refines_enterSection {conf : UDPProxyTunnelConfig w} {b : Udp.State} {g : Goroutine}
    {sec : Section} (h : enterSection b g = some sec) :
    Refines conf ⟨b, none⟩ b (some sec) := by
  cases g with
  | main =>
    rw [enterSection] at h
    split at h
    · rename_i src datagram hmain
      cases h
      exact ⟨by simp [Knows, hmain], .inl rfl⟩
    · cases h
  | sweeper =>
    obtain ⟨now, hnow, rfl⟩ := Option.map_eq_some_iff.1 h
    exact ⟨by simp [Knows, hnow], .inr (.start now hnow rfl)⟩
  | handler i =>
    rw [enterSection] at h
    split at h
    · rename_i hd hi
      rw [Option.ite_none_right_eq_some, Option.some.injEq] at h
      obtain ⟨hplace, rfl⟩ := h
      exact ⟨by simp [Knows, hi, ← hplace], .inl rfl⟩
    · cases h

/-- **Every step** is a step of the model with atomic sections, or none. -/
theorem refines_step {conf : UDPProxyTunnelConfig w} {st st' : State} {l : Label}
    (hinv : Invariant st) (hstep : step conf st l = some st') :
    Invariant st' ∧ (st'.abs = st.abs ∨ Atomic conf st.abs st'.abs) := by
  suffices hsuff : (∀ sec ∈ st'.lock, Knows st'.base sec) ∧
      (st'.abs = st.abs ∨ Atomic conf st.abs st'.abs) by
    refine ⟨⟨hsuff.1, ?_⟩, hsuff.2⟩
    rcases hsuff.2 with heq | hatomic
    · exact heq ▸ hinv.wellFormed
    · exact hatomic.wellFormed hinv.wellFormed
  obtain ⟨b, lock⟩ := st
  cases l with
  | outside l =>
    rw [step, Option.ite_none_right_eq_some] at hstep
    obtain ⟨hl, hstep⟩ := hstep
    obtain ⟨b', hb', rfl⟩ := Option.map_eq_some_iff.1 hstep
    have hne : l ≠ .sweep := by
      rintro rfl
      cases hl
    refine ⟨fun sec hsec => (hinv.knows sec hsec).frame (frame_of_outside hl hb'),
      .inr ?_⟩
    cases lock with
    | none => exact .step l b' hne (.inl hl) hb'
    | some sec => exact .step l _ hne (.inl hl) (step_finish (hinv.knows sec rfl) hl hb')
  | lock g =>
    cases lock with
    | some _ => cases hstep
    | none =>
      obtain ⟨sec, hsec, rfl⟩ := Option.map_eq_some_iff.1 hstep
      exact refines_enterSection hsec
  | inside c =>
    cases lock with
    | none => cases hstep
    | some sec =>
      obtain ⟨⟨b', next⟩, hnext, rfl⟩ := Option.map_eq_some_iff.1 hstep
      exact refines_section (hinv.knows sec rfl) hinv.wellFormed hnext

/-- **The sections under the lock are atomic.** Whatever the other goroutines do between the
statements of a section: the state, with the rest of the section carried out, is one that the model
with atomic sections reaches, in which the life cycle of the sessions is as it should be. The
sessions in memory are those of this state, and when nobody holds the lock the whole state is. No
channel is closed twice. -/
theorem sections_atomic {conf : UDPProxyTunnelConfig w} {clock : ℤ} {st : State}
    (hreach : Reachable (step conf) (State.init clock) st) :
    Relation.ReflTransGen (Atomic conf) ⟨Udp.State.init clock, none⟩ st.abs ∧
      WellFormed st.abs.base.store ∧ st.base.store.heap = st.abs.base.store.heap ∧
      (st.lock = none → st.abs = ⟨st.base, none⟩) ∧
      ∀ s ∈ st.base.store.heap, s.chanCloses ≤ 1 := by
  have hrefines : Invariant st ∧
      Relation.ReflTransGen (Atomic conf) (State.init clock).abs st.abs :=
    hreach.refines (invariant_init clock) fun _ _ _ => refines_step
  obtain ⟨hinv, hatomic⟩ := hrefines
  have hheap : st.base.store.heap = st.abs.base.store.heap := by
    rw [State.abs]
    split
    · rfl
    · exact (heap_finishStore _ _).symm
  refine ⟨hatomic, hinv.wellFormed, hheap, abs_of_unlocked, ?_⟩
  intro s hs
  rw [hheap] at hs
  obtain ⟨id, hid⟩ := List.mem_iff_getElem?.1 hs
  obtain ⟨h, hh⟩ := hinv.wellFormed.exists_handler hid
  exact (hinv.wellFormed.sound hid hh).chanCloses_le

/-- The sweeper finds a session idle; before it closes the channel, the handler reads a datagram
and records the time, and after that it sees the closed channel and waits for the lock. -/
def lateActivity : List Label :=
  [.outside (.receive "192.0.2.1:4000" [1]), .lock .main, .inside .none, .inside (.dialled true),
    .inside .none, .inside .none, .inside .none, .outside .record, .outside (.send true),
    .outside (.handler 0 .check), .outside (.advance 60000000000), .outside .wake, .lock .sweeper,
    .inside (.key "192.0.2.1:4000"), .inside .none, .outside (.handler 0 (.data [2])),
    .outside (.handler 0 .record), .inside .none, .inside .none,
    .outside (.handler 0 (.resolve true)), .outside (.handler 0 (.write true)),
    .outside (.handler 0 .check), .inside .none, .inside .none, .lock (.handler 0), .inside .none,
    .inside .none, .outside (.handler 0 .close)]

/-- After that run the channel and the connection have been closed once, and the state is one that
atomic sections lead to. -/
theorem sections_atomic_lateActivity :
    ∃ st : State, Reachable (step thirtySeconds) (State.init 0) st ∧
      st.base.store.heap = [⟨60000000000, 1, 1⟩] ∧
      Relation.ReflTransGen (Atomic thirtySeconds) ⟨Udp.State.init 0, none⟩ ⟨st.base, none⟩ := by
  have hrun : ((run (step thirtySeconds) (State.init 0) lateActivity).map fun st =>
      (st.base.store.heap, st.lock)) = some ([⟨60000000000, 1, 1⟩], none) := by
    decide +kernel
  obtain ⟨st, hst, hfacts⟩ := Option.map_eq_some_iff.1 hrun
  rw [Prod.mk.injEq] at hfacts
  have hreach : Reachable (step thirtySeconds) (State.init 0) st := ⟨lateActivity, hst⟩
  obtain ⟨hatomic, -, -, hunlocked, -⟩ := sections_atomic hreach
  exact ⟨st, hreach, hfacts.1, hunlocked hfacts.2 ▸ hatomic⟩

end WireProxy.Udp.Locking
