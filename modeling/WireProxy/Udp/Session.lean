import WireProxy.Config.Types

/-!
# The session table of the UDP proxy

The state that the goroutines of `udp_proxy.go` share, and the operations on it that run under the
lock or are a single assignment.

* A session is identified by its number in the order of creation, which stands for the pointer to
  it, its channel and its connection; `Session` holds what becomes of these. A handler is the
  goroutine that `getOrCreateSession` starts.
* `Store` has the sessions, the handlers and the table, and the operations `removeSession`,
  `sweep` and `getOrCreateSession` are those of the source.
* `sweep_induction` reduces what a sweep keeps to the removal of one entry.
-/

namespace WireProxy.Udp

open Text

/-- `udpSession`. -/
structure Session where
  lastActive : ℤ
  /-- How often `closeChan` has been closed. -/
  chanCloses : ℕ
  /-- How often `remoteConn` has been closed. -/
  connCloses : ℕ
  deriving DecidableEq

/-- The place at which a handler stands in `handleRemoteToLocal`. -/
inductive Place
  /-- In front of the check at the top of the loop. -/
  | check
  /-- In front of, or blocked in, the read. -/
  | read
  /-- In front of the check after a timeout. -/
  | timedOut
  /-- With a datagram from the remote side. -/
  | received (datagram : Bytes)
  /-- The time of the datagram has been recorded. -/
  | recorded (datagram : Bytes)
  /-- The address of the client has been resolved. -/
  | resolved (datagram : Bytes)
  /-- Returning, in front of `removeSession`. -/
  | removing
  /-- In front of the close of the connection. -/
  | closing
  | ended
  deriving DecidableEq

/-- A goroutine of `handleRemoteToLocal` with its arguments. -/
structure Handler where
  srcAddr : Text
  session : ℕ
  place : Place
  deriving DecidableEq

/-- The handler has not come to the close of its connection. -/
def Handler.Running (h : Handler) : Prop := h.place ≠ .closing ∧ h.place ≠ .ended

instance (h : Handler) : Decidable h.Running := inferInstanceAs (Decidable (_ ∧ _))

/-- The sessions created so far, their handlers, and the table `sessions`. -/
structure Store where
  heap : List Session
  handlers : List Handler
  sessions : AList fun _ : Text => ℕ

namespace Store

/-- The store at the start. -/
def empty : Store := ⟨[], [], ∅⟩

/-- A session is in the table. -/
def InTable (st : Store) (id : ℕ) : Prop := ∃ src, st.sessions.lookup src = some id

/-- `closeSessionChan`. -/
def closeSessionChan (st : Store) (id : ℕ) : Store :=
  { st with heap := st.heap.modify id fun s =>
      if s.chanCloses = 0 then { s with chanCloses := s.chanCloses + 1 } else s }

/-- The body of the two critical sections that remove an entry. -/
def dropEntry (st : Store) (src : Text) (id : ℕ) : Store :=
  { st.closeSessionChan id with sessions := st.sessions.erase src }

/-- `removeSession`. -/
def removeSession (st : Store) (src : Text) (id : ℕ) : Store :=
  if st.sessions.lookup src = some id then st.dropEntry src id else st

/-- The body of the sweeper's loop over the table. -/
def sweepEntry (inactivityDur now : ℤ) (st : Store) (entry : (_ : Text) × ℕ) : Store :=
  match st.heap[entry.2]? with
  | none => st
  | some s => if now - s.lastActive ≥ inactivityDur then st.dropEntry entry.1 entry.2 else st

/-- The sweeper's critical section. -/
def sweep (inactivityDur now : ℤ) (st : Store) : Store :=
  st.sessions.entries.foldl (sweepEntry inactivityDur now) st

/-- Assign `lastActive`. -/
def touch (st : Store) (id : ℕ) (now : ℤ) : Store :=
  { st with heap := st.heap.modify id fun s => { s with lastActive := now } }

/-- Create a session and start its handler. -/
def create (st : Store) (src : Text) (now : ℤ) : Store where
  heap := st.heap ++ [⟨now, 0, 0⟩]
  handlers := st.handlers ++ [⟨src, st.heap.length, .check⟩]
  sessions := st.sessions.insert src st.heap.length

/-- `getOrCreateSession`, with the outcome of the dial that it may make. -/
def getOrCreateSession (st : Store) (src : Text) (now : ℤ) (dialOK : Bool) : Store × Option ℕ :=
  match st.sessions.lookup src with
  | some id => (st.touch id now, some id)
  | none => if dialOK then (st.create src now, some st.heap.length) else (st, none)

/-- Close the connection of a session. -/
def closeConn (st : Store) (id : ℕ) : Store :=
  { st with heap := st.heap.modify id fun s => { s with connCloses := s.connCloses + 1 } }

/-- Move a handler. -/
def moveTo (st : Store) (i : ℕ) (place : Place) : Store :=
  { st with handlers := st.handlers.modify i fun h => { h with place := place } }

/-- The channel of a session is closed. -/
def chanClosed (st : Store) (id : ℕ) : Bool := st.heap[id]?.any fun s => s.chanCloses ≠ 0

theorem handlers_removeSession (st : Store) (src : Text) (id : ℕ) :
    (st.removeSession src id).handlers = st.handlers := by
  rw [removeSession]
  split <;> rfl

/-! ## Induction over a sweep -/

section Sweep

variable {inactivityDur now : ℤ} {P : Store → Prop}

theorem sweepEntry_eq (inactivityDur now : ℤ) (st : Store) (entry : (_ : Text) × ℕ) :
    sweepEntry inactivityDur now st entry = st ∨
      sweepEntry inactivityDur now st entry = st.dropEntry entry.1 entry.2 := by
  rw [sweepEntry]
  split
  · exact .inl rfl
  · split
    · exact .inr rfl
    · exact .inl rfl

/-- The entries that the loop has not come to are still in the table. -/
theorem foldl_sweepEntry
    (hdrop : ∀ st src id, P st → st.sessions.lookup src = some id → P (st.dropEntry src id))
    {entries : List ((_ : Text) × ℕ)} (hnodup : entries.NodupKeys) {st : Store}
    (hentries : ∀ e ∈ entries, st.sessions.lookup e.1 = some e.2) (hst : P st) :
    P (entries.foldl (sweepEntry inactivityDur now) st) := by
  induction entries generalizing st with
  | nil => exact hst
  | cons e entries ih =>
    rw [List.nodupKeys_cons] at hnodup
    rw [List.forall_mem_cons] at hentries
    rw [List.foldl_cons]
    rcases sweepEntry_eq inactivityDur now st e with heq | heq
    · rw [heq]
      exact ih hnodup.2 hentries.2 hst
    · rw [heq]
      refine ih hnodup.2 (fun e' he' => ?_) (hdrop st e.1 e.2 hst hentries.1)
      have hne : e'.1 ≠ e.1 := fun h => hnodup.1 (h ▸ List.mem_keys_of_mem he')
      rw [dropEntry, AList.lookup_erase_ne hne]
      exact hentries.2 e' he'

/-- **Induction over a sweep.** What is kept by removing an entry of the table is kept by a
sweep. -/
theorem sweep_induction
    (hdrop : ∀ st src id, P st → st.sessions.lookup src = some id → P (st.dropEntry src id))
    {st : Store} (hst : P st) : P (st.sweep inactivityDur now) :=
  foldl_sweepEntry hdrop st.sessions.nodupKeys
    (fun _ he => AList.mem_lookup_iff.2 he) hst

end Sweep

theorem handlers_sweep (st : Store) (inactivityDur now : ℤ) :
    (st.sweep inactivityDur now).handlers = st.handlers :=
  sweep_induction (P := fun st' => st'.handlers = st.handlers) (fun _ _ _ h _ => h) rfl

end Store

end WireProxy.Udp
