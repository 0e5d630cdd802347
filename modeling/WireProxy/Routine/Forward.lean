import WireProxy.Foundations.Stream.Buffered
import WireProxy.Foundations.Stream.Delivery
import WireProxy.Foundations.Text.Base64

/-!
# Forwarding between two connections

The two goroutines that join a pair of connections: `connForward` in both directions, which
`tcpClientForward` and `tcpServerForward` start, and the two goroutines at the end of
`HTTPServer.serve`. Each copies from one connection to the other until a read returns the end of the
stream or a read or write fails, and then closes both connections.

* `joins` says which connections the goroutines use and close, and `Joined` is a pair of connections
  with what the two ends send.
* `delivers_iff`: when both directions are delivered completely.
* `goroutines_close`: every run comes to an end, and then both connections are closed.
-/

namespace WireProxy.Routine.Forward

open Text Buffered Transition Copying

/-! ## The goroutines -/

/-- The two connections that are joined: the one that was accepted, and the one that was dialled
for it. A goroutine is named after the connection that it copies from. -/
inductive Side
  | client
  | peer
  deriving DecidableEq

instance : Fintype Side := ⟨{.client, .peer}, fun s => by cases s <;> decide⟩

/-- The other connection. -/
def Side.other : Side → Side
  | .client => .peer
  | .peer => .client

/-- The connections of the goroutines, with the order in which each of them closes. -/
def joins (order : Side → List Side) : Wiring Side Side := ⟨id, Side.other, order⟩

/-- The deferred calls of `connForward`: the connection that it copies to is closed first. -/
def connForwardOrder (s : Side) : List Side := [s.other, s]

theorem mem_connForwardOrder (s c : Side) : c ∈ connForwardOrder s := by
  cases s <;> cases c <;> decide

/-- The deferred calls of the goroutines of `serve`, which close the peer first. -/
def serveOrder (_ : Side) : List Side := [.peer, .client]

theorem mem_serveOrder (s c : Side) : c ∈ serveOrder s := by
  cases s <;> cases c <;> decide

/-- **The goroutines close both connections**: every run comes to an end, and when nothing is left
to do both connections are closed. -/
theorem goroutines_close {order : Side → List Side} (horder : ∀ s c, c ∈ order s)
    {stream : Side → Bytes} {labels : List (Side × Act UInt8)} {st : State Side Side UInt8}
    (hrun : run (step (joins order)) (.ofStreams Side stream) labels = some st) :
    labels.length ≤ (State.ofStreams Side stream).weight (joins order) ∧
      ((∀ l, step (joins order) st l = none) → ∀ c, st.closed c = true) :=
  ⟨length_le_of_run hrun, fun hstuck c =>
    (delivering_of_run hrun).closed_of_stuck hstuck (horder .client c)⟩

/-! ## Pairs of connections -/

/-- Two connections that are joined, when the goroutines are started. -/
structure Joined where
  /-- The order in which the goroutine that copies from a connection closes them. -/
  order : Side → List Side
  mem_order : ∀ s c, c ∈ order s
  /-- What the client has sent behind its request and a buffered reader has taken. -/
  taken : Bytes
  /-- What an end sends that nobody has read. -/
  stream : Side → Bytes

/-- What an end sends on its connection to the other end. -/
def Joined.sent (j : Joined) : Side → Bytes
  | .client => j.taken ++ j.stream .client
  | .peer => j.stream .peer

theorem Joined.sent_of_taken_nil {j : Joined} (h : j.taken = []) (s : Side) :
    j.sent s = j.stream s := by
  cases s with
  | client => rw [sent, h, List.nil_append]
  | peer => rfl

/-- The pair of `tcpClientForward` and `tcpServerForward`. -/
def Joined.tcpForward (client peer : Bytes) : Joined where
  order := connForwardOrder
  mem_order := mem_connForwardOrder
  taken := []
  stream
    | .client => client
    | .peer => peer

/-- The pair of `HTTPServer.serve`, with its buffered reader. -/
def Joined.serve (rd : Reader UInt8) (peer : Bytes) : Joined where
  order := serveOrder
  mem_order := mem_serveOrder
  taken := rd.buffered
  stream
    | .client => rd.pending.flatten
    | .peer => peer

/-- The step of the goroutines of a pair. -/
def Joined.step (j : Joined) : State Side Side UInt8 → Side × Act UInt8 →
    Option (State Side Side UInt8) :=
  Copying.step (joins j.order)

/-- The goroutines of a pair when they are started. -/
def Joined.start (j : Joined) : State Side Side UInt8 := .ofStreams Side j.stream

/-- The history of a run of the goroutines. -/
def Joined.history (j : Joined) (labels : List (Side × Act UInt8)) : List (Event Side) :=
  events j.step event j.start labels

/-! ## What is delivered -/

/-- Both goroutines have ended. -/
def Ended (st : State Side Side UInt8) : Prop := ∀ s, ∃ why, (st.copies s).place = .closing why []

/-- What forwarding should do: each end receives the beginning of what the other one sent, and all
of it when the goroutines have ended and no connection has failed on its own. -/
structure Delivers (j : Joined) (st : State Side Side UInt8) (h : List (Event Side)) : Prop where
  begins : ∀ s, (st.copies s).received <+: j.sent s
  complete : (∀ s, .failed s ∉ h) → Ended st → ∀ s, (st.copies s).received = j.sent s

/-- A beginning of the bytes behind `taken` is one of all bytes iff it is the same as long as they
are. -/
theorem prefix_append_iff {received taken stream : Bytes} (h : received <+: stream) :
    received <+: taken ++ stream ↔
      stream.take received.length = (taken ++ stream).take received.length := by
  rw [List.prefix_iff_eq_take, ← List.prefix_iff_eq_take.1 h]

/-- **When forwarding delivers both directions.** In every run, with the history `h`:

* what the peer has received is the beginning of what the client sent, iff it does not matter to the
  bytes that were written that the bytes `taken` are missing (there are none for the TCP tunnels);
* when the goroutines have ended and no connection has failed on its own, both directions are
  complete iff nothing is missing and no goroutine was cut off: each of them came to the end of its
  stream, or found its connection closed when it had read and written everything. One of the
  directions is always carried to its end. -/
theorem delivers_iff {j : Joined} {labels : List (Side × Act UInt8)} {st : State Side Side UInt8}
    (hrun : run j.step j.start labels = some st) :
    (Delivers j st (j.history labels) ↔
      ((j.stream .client).take (written .client labels) =
        (j.sent .client).take (written .client labels)) ∧
      ((∀ s, .failed s ∉ j.history labels) → Ended st →
        j.taken = [] ∧ ∀ s, .cutOff s ∉ j.history labels)) ∧
    ((∀ s, .failed s ∉ j.history labels) → Ended st →
      ∃ s, (st.copies s).received = j.stream s) := by
  have inv : Delivering (joins j.order) j.stream st (j.history labels) := delivering_of_run hrun
  have hbegins (s : Side) : (st.copies s).received <+: j.stream s :=
    inv.sent_eq s ▸ (inv.sound.carries s).begins
  have hwritten : written .client labels = (st.copies .client).received.length := by
    rw [length_received_of_run hrun]
    exact (Nat.zero_add _).symm
  have hstopped (hended : Ended st) (s : Side) : ∃ why, st.Stopped s why :=
    (hended s).imp fun _ hplace => ⟨[], hplace⟩
  rw [hwritten]
  refine ⟨⟨?_, ?_⟩, fun hfail hended => ?_⟩
  · intro hdelivers
    refine ⟨(prefix_append_iff (hbegins .client)).1 (hdelivers.begins .client),
      fun hfail hended => ?_⟩
    have hcomplete := hdelivers.complete hfail hended
    have htaken : j.taken = [] := by
      have hlength : (st.copies .client).received.length =
          (j.taken ++ j.stream .client).length := congrArg List.length (hcomplete .client)
      have hle := (hbegins .client).length_le
      rw [List.length_append] at hlength
      exact List.length_eq_zero_iff.1 (by omega)
    refine ⟨htaken, fun s => ?_⟩
    obtain ⟨why, hwhy⟩ := hstopped hended s
    rw [← inv.received_eq_iff hwhy (hfail s), hcomplete, Joined.sent_of_taken_nil htaken]
  · rintro ⟨hskip, hcut⟩
    refine ⟨fun s => ?_, fun hfail hended s => ?_⟩
    · cases s with
      | client => exact (prefix_append_iff (hbegins .client)).2 hskip
      | peer => exact hbegins .peer
    · obtain ⟨htaken, hcutOff⟩ := hcut hfail hended
      obtain ⟨why, hwhy⟩ := hstopped hended s
      rw [Joined.sent_of_taken_nil htaken]
      exact (inv.received_eq_iff hwhy (hfail s)).2 (hcutOff s)
  · obtain ⟨why, hwhy⟩ := hstopped hended .client
    exact inv.exists_received_eq hwhy hfail

/-! ## A request and its answer -/

/-- A client that sends a request and then the end of its stream, and a peer with an answer. -/
def halfClosed : Joined := .tcpForward [1, 2] [3]

/-- The peer answers before the goroutine of the client comes to its end. -/
def answeredFirst : List (Side × Act UInt8) :=
  [(.client, .read 2), (.client, .write 2), (.peer, .read 1), (.peer, .write 1), (.client, .eof),
    (.client, .close), (.client, .close), (.peer, .readClosed), (.peer, .close), (.peer, .close)]

theorem delivers_iff_answeredFirst :
    ∃ st, run halfClosed.step halfClosed.start answeredFirst = some st ∧ Ended st ∧
      Delivers halfClosed st (halfClosed.history answeredFirst) := by
  have hplaces : (run halfClosed.step halfClosed.start answeredFirst).map
      (fun st => ((st.copies .client).place, (st.copies .peer).place)) =
      some (.closing .finished [], .closing .closed []) := by
    decide
  obtain ⟨st, hrun, hst⟩ := Option.map_eq_some_iff.1 hplaces
  rw [Prod.mk.injEq] at hst
  have hended : Ended st := fun s => by cases s; exacts [⟨_, hst.1⟩, ⟨_, hst.2⟩]
  have hhistory : halfClosed.history answeredFirst = [] := by decide
  refine ⟨st, hrun, hended, (delivers_iff hrun).1.2 ⟨rfl, fun _ _ => ⟨rfl, fun s => ?_⟩⟩⟩
  rw [hhistory]
  exact List.not_mem_nil

/-- The end of the client's stream closes both connections before the answer is read. -/
def endedFirst : List (Side × Act UInt8) :=
  [(.client, .read 2), (.client, .write 2), (.client, .eof), (.client, .close), (.client, .close),
    (.peer, .readClosed), (.peer, .close), (.peer, .close)]

theorem answer_truncated :
    ∃ st, run halfClosed.step halfClosed.start endedFirst = some st ∧
      (∀ s, .failed s ∉ halfClosed.history endedFirst) ∧ Ended st ∧
      (st.copies .peer).received = [] ∧ halfClosed.sent .peer = [3] ∧
      ¬ Delivers halfClosed st (halfClosed.history endedFirst) := by
  have hstate : (run halfClosed.step halfClosed.start endedFirst).map
      (fun st => ((st.copies .client).place, (st.copies .peer).place,
        (st.copies .peer).received)) =
      some (.closing .finished [], .closing .closed [], []) := by
    decide
  obtain ⟨st, hrun, hst⟩ := Option.map_eq_some_iff.1 hstate
  rw [Prod.mk.injEq, Prod.mk.injEq] at hst
  have hended : Ended st := fun s => by cases s; exacts [⟨_, hst.1⟩, ⟨_, hst.2.1⟩]
  have hfail : ∀ s, .failed s ∉ halfClosed.history endedFirst := by
    intro s
    cases s <;> decide
  refine ⟨st, hrun, hfail, hended, hst.2.2, rfl, fun hdelivers => ?_⟩
  have hreceived := hdelivers.complete hfail hended .peer
  rw [hst.2.2] at hreceived
  cases hreceived

end WireProxy.Routine.Forward
