import WireProxy.Foundations.Stream.Copying
import WireProxy.Foundations.Text.Base64

/-!
# Forwarding standard input and output

The two goroutines of `STDIOTcpForward`: `connForward(os.Stdin, sconn)` and
`connForward(sconn, stdout)`. They share the connection, but each has a file of its own, so that
neither end of the pair closes everything, as it does for two connections that are joined.

* `wires` says which files the goroutines use and close.
* `stdio_forwards` states what arrives, why a direction is cut short, and what is closed: the end of
  standard input cuts off the answer, and the end of the connection leaves the goroutine that reads
  standard input waiting.
-/

namespace WireProxy.Routine.Stdio

open Text Transition Copying

/-- The files of the tunnel. -/
inductive File
  | stdin
  | sconn
  | stdout
  deriving DecidableEq

/-- The goroutines of the tunnel. -/
inductive Goroutine
  /-- `connForward(os.Stdin, sconn)`. -/
  | input
  /-- `connForward(sconn, stdout)`. -/
  | output
  deriving DecidableEq

/-- The other goroutine. -/
def Goroutine.other : Goroutine → Goroutine
  | .input => .output
  | .output => .input

/-- A call `connForward(from, to)`. -/
structure ConnForward where
  source : File
  sink : File

/-- The deferred calls: the file that is copied to is closed first. -/
def ConnForward.closes (call : ConnForward) : List File := [call.sink, call.source]

/-- The calls that `STDIOTcpForward` starts. -/
def calls : Goroutine → ConnForward
  | .input => ⟨.stdin, .sconn⟩
  | .output => ⟨.sconn, .stdout⟩

/-- The files of the goroutines. -/
def wires : Wiring Goroutine File where
  source g := (calls g).source
  sink g := (calls g).sink
  closes g := (calls g).closes

/-- The tunnel when its goroutines are started. -/
def start : State Goroutine File UInt8 := State.init _ _ _

/-- The goroutine has returned. -/
def Returned (st : State Goroutine File UInt8) (g : Goroutine) : Prop :=
  ∃ why, (st.copies g).place = .closing why []

/-- A goroutine waits at its source, which has nothing for it. -/
def Waits (st : State Goroutine File UInt8) (g : Goroutine) : Prop :=
  (st.copies g).place = .reading ∧ (st.copies g).unread = [] ∧ (st.copies g).ended = false

variable {st : State Goroutine File UInt8}

theorem Goroutine.eq_or_eq_other (g g' : Goroutine) : g' = g ∨ g' = g.other := by
  cases g <;> cases g' <;> decide

/-- What is closed was closed by a goroutine that uses it. -/
theorem exists_stopped_of_closed (sound : Sound wires st) {f : File} (hf : st.closed f = true) :
    ∃ g why, st.Stopped g why ∧ f ∈ [wires.sink g, wires.source g] := by
  obtain ⟨g, why, hstopped, hmem⟩ := sound.closer f hf
  refine ⟨g, why, hstopped, ?_⟩
  cases g <;> exact hmem

/-- The goroutine that reads standard input is not woken by the other one. -/
theorem acts_of_waits (sound : Sound wires st) (hwaits : Waits st .input) {act : Act UInt8}
    {st' : State Goroutine File UInt8} (hstep : step wires st (.input, act) = some st') :
    (∃ xs, act = .arrive xs) ∨ act = .finish ∨ act = .fail := by
  obtain ⟨hplace, hunread, hended⟩ := hwaits
  -- only this goroutine closes standard input
  have hopen : st.closed (wires.source .input) = false := by
    rw [← Bool.not_eq_true]
    intro hclosed
    obtain ⟨g, why, ⟨left, hleft⟩, hmem⟩ := exists_stopped_of_closed sound hclosed
    cases g with
    | input =>
      rw [hplace] at hleft
      cases hleft
    | output => exact absurd hmem (by decide)
  obtain ⟨cp, hcp, -⟩ := Option.map_eq_some_iff.1 hstep
  cases act with
  | arrive xs => exact .inl ⟨xs, rfl⟩
  | finish => exact .inr (.inl rfl)
  | fail => exact .inr (.inr rfl)
  | read n =>
    simp only [Copy.step, hplace, hunread, List.length_nil, Option.ite_none_right_eq_some] at hcp
    omega
  | eof => simp [Copy.step, hplace, hended] at hcp
  | readClosed => simp [Copy.step, hplace, hopen] at hcp
  | write | writeClosed | close => simp [Copy.step, hplace] at hcp

/-- **What the goroutines of a STDIO tunnel do.** In every state that is reached:

* what was written to the connection is the beginning of what came in at standard input, and what
  was written to standard output the beginning of what came in at the connection;
* a goroutine that came to the end of its source has written everything;
* a goroutine that was cut short, with nothing failing in it, was so because the other one had ended
  before: so the end of standard input can cut off the answer;
* a goroutine that has returned has closed its two files;
* when the goroutine of standard input has returned, the other one does not wait on. The goroutine
  of standard input does: while nothing comes in there, it waits, also after the other one has
  returned and the connection is closed. -/
theorem stdio_forwards (hreach : Reachable (step wires) start st) :
    (∀ g, (st.copies g).received <+: (st.copies g).sent) ∧
    (∀ g, st.Stopped g .finished → (st.copies g).received = (st.copies g).sent) ∧
    (∀ g, st.Stopped g .closed → ∃ why, why ≠ .closed ∧ st.Stopped g.other why) ∧
    (∀ g, Returned st g → st.closed (wires.source g) = true ∧ st.closed (wires.sink g) = true) ∧
    (Returned st .input → Waits st .output → (step wires st (.output, .readClosed)).isSome) ∧
    (Waits st .input → ∀ act st', step wires st (.input, act) = some st' →
      (∃ xs, act = .arrive xs) ∨ act = .finish ∨ act = .fail) := by
  have sound := sound_of_reachable hreach
  have hreturned : ∀ g, Returned st g →
      st.closed (wires.source g) = true ∧ st.closed (wires.sink g) = true := by
    rintro g ⟨why, hplace⟩
    have hclosed : ∀ f ∈ wires.closes g, st.closed f = true := fun f hf =>
      ((sound.closes g why [] hplace).2 f hf).resolve_left List.not_mem_nil
    exact ⟨hclosed _ (by cases g <;> decide), hclosed _ (by cases g <;> decide)⟩
  refine ⟨fun g => (sound.carries g).begins, ?_, ?_, hreturned, ?_,
    fun hwaits act st' => acts_of_waits sound hwaits⟩
  · rintro g ⟨left, hleft⟩
    have hcarries := sound.carries g
    rw [Copy.Carries, hleft] at hcarries
    exact (hcarries.2 rfl).1
  · intro g hstopped
    obtain ⟨g', why, hstopped', hne⟩ := sound.first g .closed hstopped
    rcases g.eq_or_eq_other g' with rfl | rfl
    · obtain ⟨left, hleft⟩ := hstopped
      obtain ⟨left', hleft'⟩ := hstopped'
      rw [hleft] at hleft'
      cases hleft'
      exact absurd rfl hne
    · exact ⟨why, hne, hstopped'⟩
  · intro hinput hwaits
    have hclosed : st.closed (wires.source .output) = true := (hreturned .input hinput).2
    simp [step, Copy.step, hwaits.1, hclosed]

/-- Standard input ends after a request, and the answer is not read any more. -/
def endedInput : List (Goroutine × Act UInt8) :=
  [(.input, .arrive [1, 2]), (.input, .finish), (.input, .read 2), (.input, .write 2),
    (.output, .arrive [3]), (.input, .eof), (.input, .close), (.input, .close),
    (.output, .readClosed), (.output, .close), (.output, .close)]

theorem stdio_forwards_endedInput :
    ∃ st, Reachable (step wires) start st ∧ Returned st .input ∧ Returned st .output ∧
      (st.copies .output).sent = [3] ∧ (st.copies .output).received = [] ∧
      (st.copies .input).received = [1, 2] ∧ ∃ why, why ≠ .closed ∧ st.Stopped .input why := by
  obtain ⟨st, hrun, hst⟩ : ∃ st, run (step wires) start endedInput = some st ∧
      (st.copies .input, st.copies .output) = (⟨[1, 2], true, [], [1, 2], .closing .finished []⟩,
        ⟨[3], false, [3], [], .closing .closed []⟩) :=
    Option.map_eq_some_iff.1 (by decide +kernel)
  rw [Prod.mk.injEq] at hst
  have hreach : Reachable (step wires) start st := ⟨endedInput, hrun⟩
  have hstopped : st.Stopped .output .closed := ⟨[], by rw [hst.2]⟩
  refine ⟨st, hreach, ⟨_, by rw [hst.1]⟩, ⟨_, by rw [hst.2]⟩, by rw [hst.2], by rw [hst.2],
    by rw [hst.1], (stdio_forwards hreach).2.2.1 .output hstopped⟩

end WireProxy.Routine.Stdio
