import WireProxy.Udp.Sweeper

/-!
# The statements under the lock

In `Udp.step` a section under `sessionMu` is one step. Here its statements are taken one by one,
interleaved in any order with the statements of the other goroutines that need no lock: these check
channels, assign `lastActive`, read, write and close connections while the section is under way.

* `Section` says where the holder of the lock stands, and `step` is the transition function. The
  other goroutines stand where `Udp.State` says; one that has the lock or waits for it stands in
  front of its section.
* `Frame`: what the others leave alone while a section is under way (`frame_of_outside`).
-/

namespace WireProxy.Udp

open Text Go Config Transition

variable {w : IntSize}

/-! ## Statements on the store -/

namespace Store

/-- `close(sess.closeChan)`, which panics if the channel has been closed. -/
def closeChan (st : Store) (id : ℕ) : Store :=
  { st with heap := st.heap.modify id fun s => { s with chanCloses := s.chanCloses + 1 } }

/-- `delete(sessions, src)`. -/
def delete (st : Store) (src : Text) : Store := { st with sessions := st.sessions.erase src }

/-- The creation of a session and its entry in the table. -/
def enter (st : Store) (src : Text) (now : ℤ) : Store :=
  { st with heap := st.heap ++ [⟨now, 0, 0⟩], sessions := st.sessions.insert src st.heap.length }

/-- `go conf.handleRemoteToLocal(…)`. -/
def spawn (st : Store) (src : Text) (id : ℕ) : Store :=
  { st with handlers := st.handlers ++ [⟨src, id, .check⟩] }

end Store

namespace Locking

/-! ## Sections -/

/-- Where `closeSessionChan(sess)` and `delete(sessions, src)` stand. -/
inductive Stage
  /-- In front of the `select`. -/
  | select
  /-- In front of the close of the channel. -/
  | close
  /-- In front of the `delete`. -/
  | delete
  deriving DecidableEq

/-- Where the holder of the lock stands. -/
inductive Section
  /-- The main loop in `getOrCreateSession`, in front of the lookup. -/
  | lookup (src : Text)
  /-- In front of the assignment to `lastActive` of the session that it has found. -/
  | found (src : Text) (id : ℕ)
  /-- In front of the dial, or blocked in it. -/
  | dialling (src : Text)
  /-- In front of the creation of a session. -/
  | inserting (src : Text)
  /-- In front of the `go` statement. -/
  | spawning (src : Text) (id : ℕ)
  /-- In front of the deferred unlock, with the session that is returned. -/
  | unlocking (session : Option ℕ)
  /-- The sweeper at the head of its loop, with the keys that `range` has produced. -/
  | range (visited : List Text)
  /-- In front of the comparison. -/
  | visit (visited : List Text) (src : Text) (id : ℕ)
  | expire (visited : List Text) (src : Text) (id : ℕ) (stage : Stage)
  /-- A handler in `removeSession`, in front of the comparison. -/
  | compare (i : ℕ) (src : Text) (id : ℕ)
  | remove (i : ℕ) (src : Text) (id : ℕ) (stage : Stage)
  /-- In front of the unlock. -/
  | removed (i : ℕ)
  deriving DecidableEq

/-- The memory and the places of the goroutines, and the lock with the place of its holder. -/
structure State where
  base : Udp.State
  lock : Option Section

/-- The state at the start. -/
def State.init (clock : ℤ) : State := ⟨.init clock, none⟩

/-- What a statement does that is not determined by the state. -/
inductive Choice
  | none
  /-- The outcome of the dial. -/
  | dialled (ok : Bool)
  /-- The key that `range` produces. -/
  | key (src : Text)
  deriving DecidableEq

/-- A goroutine that can take the lock. -/
inductive Goroutine
  | main
  | sweeper
  | handler (i : ℕ)
  deriving DecidableEq

inductive Label
  /-- A step of the proxy that needs no lock. -/
  | outside (l : Udp.Label)
  /-- A goroutine takes the lock. -/
  | lock (g : Goroutine)
  /-- The next statement of the holder. -/
  | inside (c : Choice)
  deriving DecidableEq

/-- The step needs no lock. -/
def outside : Udp.Label → Bool
  | .assign _ | .sweep | .handler _ .remove => false
  | _ => true

/-- The main loop after `getOrCreateSession`. -/
def assign : MainLoop → Option ℕ → MainLoop
  | .received _ datagram, some id => .assigned id datagram
  | .received _ _, none => .waiting
  | main, _ => main

/-- The next statement that drops an entry, with the stage after it. -/
def dropStep (st : Store) (src : Text) (id : ℕ) : Stage → Store × Option Stage
  | .select => (st, some (if st.chanClosed id then .delete else .close))
  | .close => (st.closeChan id, some .delete)
  | .delete => (st.delete src, none)

/-- The section that a goroutine enters with the lock. -/
def enterSection (b : Udp.State) : Goroutine → Option Section
  | .main =>
    match b.main with
    | .received src _ => some (.lookup src)
    | _ => none
  | .sweeper => b.sweeper.map fun _ => .range []
  | .handler i =>
    match b.store.handlers[i]? with
    | some h => if h.place = .removing then some (.compare i h.srcAddr h.session) else none
    | none => none

/-- The next statement of the holder, with the place after it; `none` stands for the unlock. -/
def sectionStep (conf : UDPProxyTunnelConfig w) (b : Udp.State) :
    Section → Choice → Option (Udp.State × Option Section)
  | .lookup src, .none =>
    match b.store.sessions.lookup src with
    | some id => some (b, some (.found src id))
    | none => some (b, some (.dialling src))
  | .found _ id, .none =>
    some ({ b with store := b.store.touch id b.clock }, some (.unlocking (some id)))
  | .dialling src, .dialled ok => some (b, some (if ok then .inserting src else .unlocking none))
  | .inserting src, .none =>
    some ({ b with store := b.store.enter src b.clock }, some (.spawning src b.store.heap.length))
  | .spawning src id, .none =>
    some ({ b with store := b.store.spawn src id }, some (.unlocking (some id)))
  | .unlocking session, .none => some ({ b with main := assign b.main session }, none)
  | .range visited, .key src =>
    if visited.contains src then none
    else (b.store.sessions.lookup src).map fun id => (b, some (.visit (src :: visited) src id))
  | .range visited, .none =>
    -- the loop ends when every key that is left in the table has been produced
    if b.store.sessions.keys.all visited.contains then some ({ b with sweeper := none }, none)
    else none
  | .visit visited src id, .none =>
    match b.sweeper, b.store.heap[id]? with
    | some now, some s =>
      if now - s.lastActive ≥ inactivityDur conf then
        some (b, some (.expire visited src id .select))
      else some (b, some (.range visited))
    | _, _ => some (b, some (.range visited))
  | .expire visited src id stage, .none =>
    match dropStep b.store src id stage with
    | (store, some stage) => some ({ b with store := store }, some (.expire visited src id stage))
    | (store, none) => some ({ b with store := store }, some (.range visited))
  | .compare i src id, .none =>
    some (b, some (if b.store.sessions.lookup src = some id then .remove i src id .select
      else .removed i))
  | .remove i src id stage, .none =>
    match dropStep b.store src id stage with
    | (store, some stage) => some ({ b with store := store }, some (.remove i src id stage))
    | (store, none) => some ({ b with store := store }, some (.removed i))
  | .removed i, .none => some ({ b with store := b.store.moveTo i .closing }, none)
  | _, _ => none

/-- The step of a label, if it is enabled. -/
def step (conf : UDPProxyTunnelConfig w) (st : State) : Label → Option State
  | .outside l =>
    if outside l then (Udp.step conf st.base l).map fun b => { st with base := b } else none
  | .lock g =>
    match st.lock with
    | none => (enterSection st.base g).map fun sec => { st with lock := some sec }
    | some _ => none
  | .inside c =>
    match st.lock with
    | none => none
    | some sec => (sectionStep conf st.base sec c).map fun next => ⟨next.1, next.2⟩

/-! ## What the others leave alone -/

section Outside

variable {conf : UDPProxyTunnelConfig w} {b b' : Udp.State}

/-- A handler that takes a step outside of `removeSession` is not in it. -/
theorem place_of_handlerStep {st st' : Store} {now : ℤ} {j : ℕ} {h : Handler} {l : HandlerLabel}
    (hl : l ≠ .remove) (hstep : handlerStep st now j h l = some st') : h.place ≠ .removing := by
  intro hplace
  cases l with
  | remove => exact hl rfl
  | _ => simp [handlerStep, hplace] at hstep

/-- What a step outside of the sections leaves alone: the table, the channels, and where the
goroutines stand that are in a section or in front of it. -/
structure Frame (b b' : Udp.State) : Prop where
  sessions_eq : b'.store.sessions = b.store.sessions
  chanClosed_eq : ∀ id, b'.store.chanClosed id = b.store.chanClosed id
  main : ∀ {src datagram}, b.main = .received src datagram → b'.main = .received src datagram
  sweeper : ∀ {now}, b.sweeper = some now → b'.sweeper = some now
  removing : ∀ {i : ℕ} {h : Handler}, b.store.handlers[i]? = some h → h.place = .removing →
    b'.store.handlers[i]? = some h

theorem frame_of_handlerStep {now : ℤ} {j : ℕ} {h : Handler}
    (hh : b.store.handlers[j]? = some h) {l : HandlerLabel} (hl : l ≠ .remove) {store : Store}
    (hstep : handlerStep b.store now j h l = some store) :
    Frame b { b with store := store } := by
  have hplace := place_of_handlerStep hl hstep
  have hremoving : ∀ (place : Place) {i : ℕ} {h' : Handler}, b.store.handlers[i]? = some h' →
      h'.place = .removing → (b.store.moveTo j place).handlers[i]? = some h' := by
    intro place i h' hi hremoving
    have hne : j ≠ i := by
      rintro rfl
      rw [hi, Option.some.injEq] at hh
      exact hplace (hh ▸ hremoving)
    rw [Store.moveTo, List.getElem?_modify_ne _ _ hne, hi]
  cases handlerEffect_of_step hstep with
  | move place _ _ => exact ⟨rfl, fun _ => rfl, id, id, hremoving place⟩
  | record place _ _ =>
    exact ⟨rfl, Sweeper.chanClosed_touch b.store h.session now, id, id, hremoving place⟩
  | remove hremove => exact absurd hremove hplace
  | close _ =>
    exact ⟨rfl, Sweeper.chanClosed_closeConn b.store h.session, id, id, hremoving .ended⟩

theorem frame_of_outside {l : Udp.Label} (hl : outside l = true)
    (hstep : Udp.step conf b l = some b') : Frame b b' := by
  cases l with
  | advance d =>
    cases hstep
    exact ⟨rfl, fun _ => rfl, id, id, fun h _ => h⟩
  | receive src datagram =>
    rw [Udp.step, Option.ite_none_right_eq_some] at hstep
    obtain ⟨hmain, ⟨⟩⟩ := hstep
    exact ⟨rfl, fun _ => rfl, fun h => by simp [hmain] at h, id,
      fun h _ => h⟩
  | assign dialOK => cases hl
  | record =>
    rw [Udp.step] at hstep
    split at hstep
    · rename_i id' datagram hmain
      cases hstep
      exact ⟨rfl, Sweeper.chanClosed_touch b.store id' b.clock, fun h => by simp [hmain] at h, id,
        fun h _ => h⟩
    · cases hstep
  | send ok =>
    rw [Udp.step] at hstep
    split at hstep
    · rename_i hmain
      rw [Option.ite_none_left_eq_some] at hstep
      obtain ⟨-, ⟨⟩⟩ := hstep
      exact ⟨rfl, fun _ => rfl, fun h => by simp [hmain] at h, id,
      fun h _ => h⟩
    · cases hstep
  | wake =>
    rw [Udp.step, Option.ite_none_right_eq_some] at hstep
    obtain ⟨⟨-, hnone⟩, ⟨⟩⟩ := hstep
    exact ⟨rfl, fun _ => rfl, id, fun h => by simp [hnone] at h, fun h _ => h⟩
  | sweep => cases hl
  | handler j l =>
    have hremove : l ≠ .remove := by
      rintro rfl
      cases hl
    rw [Udp.step] at hstep
    split at hstep
    · rename_i h hh
      obtain ⟨store, hstore, rfl⟩ := Option.map_eq_some_iff.1 hstep
      exact frame_of_handlerStep hh hremove hstore
    · cases hstep

end Outside

end Locking

end WireProxy.Udp
