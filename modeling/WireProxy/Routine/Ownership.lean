import WireProxy.Http.Server
import WireProxy.Routine.Forward

/-!
# Who closes the connections

`HTTPServer.serve`, `tcpClientForward` and `tcpServerForward` are given the connection of a client
and open one to a peer. Either they start the goroutines that join the two connections and close
them in the end, or they return without.

* `ConnAction` is what a call does to its connections, and `leftOpen` replays it.
* `Call.Succeeds` says that nothing fails on the way to the goroutines, and `Call.ends` what a call
  does then and otherwise.
* `noLeak_iff`: exactly the calls in which nothing fails leak nothing. The others close the peer, if
  they opened one, and leave the client open.
-/

namespace WireProxy.Routine.Ownership

open Text Go Go.Http Http Buffered Transition Copying Forward

/-! ## What a call does to its connections -/

/-- What is done to the connections. -/
inductive ConnAction
  | openPeer
  | closePeer
  | closeClient
  /-- The goroutines that join the connections are started. -/
  | start
  deriving DecidableEq

/-- What an action of `serve` does to the connections. -/
def ofAction : Action → Option ConnAction
  | .dial _ true => some .openPeer
  | .closePeer => some .closePeer
  | .forward => some .start
  | _ => none

/-- The outcomes of the calls of `tcpClientForward` and `tcpServerForward`. -/
structure TunnelOutcomes where
  /-- Whether the name of the target is resolved. -/
  resolveToAddrPort : Bool
  /-- Whether the target can be dialled through the tunnel. -/
  dialTunnel : Bool
  /-- Whether the target can be dialled on the host. -/
  dialHost : Bool
  deriving DecidableEq

/-- The common form of the two functions. -/
def forwardTo (resolved dialled : Bool) : List ConnAction :=
  if resolved = false then []
  else if dialled = false then []
  else [.openPeer, .start]

/-- `tcpClientForward`. -/
def tcpClientForward (out : TunnelOutcomes) : List ConnAction :=
  forwardTo out.resolveToAddrPort out.dialTunnel

/-- `tcpServerForward`. -/
def tcpServerForward (out : TunnelOutcomes) : List ConnAction :=
  forwardTo out.resolveToAddrPort out.dialHost

/-- A call of one of the three functions. -/
inductive Call
  | serve (lib : NetHTTP) (s : HTTPServer) (out : Outcomes) (rd : Reader UInt8)
  | tcpClientForward (out : TunnelOutcomes)
  | tcpServerForward (out : TunnelOutcomes)

/-- What the call does to its connections. -/
def Call.actions : Call → List ConnAction
  | .serve lib s out rd => (Http.serve lib s out rd).1.filterMap ofAction
  | .tcpClientForward out => Ownership.tcpClientForward out
  | .tcpServerForward out => Ownership.tcpServerForward out

/-- The order in which the goroutines of the call close the connections. -/
def Call.order : Call → Side → List Side
  | .serve _ _ _ _ => serveOrder
  | _ => connForwardOrder

theorem Call.mem_order (call : Call) (s c : Side) : c ∈ call.order s := by
  cases call with
  | serve => exact mem_serveOrder s c
  | tcpClientForward => exact mem_connForwardOrder s c
  | tcpServerForward => exact mem_connForwardOrder s c

/-- The connections that are open. -/
structure Open where
  client : Bool
  peer : Bool
  deriving DecidableEq

/-- What is open after an action. -/
def Open.after (o : Open) : ConnAction → Open
  | .openPeer => { o with peer := true }
  | .closePeer => { o with peer := false }
  | .closeClient => { o with client := false }
  | .start => o

/-- What is open when a call returns. The client was open when it began. -/
def leftOpen (actions : List ConnAction) : Open := actions.foldl Open.after ⟨true, false⟩

/-- A call leaks no connection: it closes those it worked with, or it starts the goroutines and
these close both. -/
def Call.NoLeak (call : Call) : Prop :=
  if .start ∈ call.actions then
    ∀ (stream : Side → Bytes) (labels : List (Side × Act UInt8)) (st : State Side Side UInt8),
      Transition.run (step (joins call.order)) (.ofStreams Side stream) labels = some st →
        labels.length ≤ (State.ofStreams Side stream).weight (joins call.order) ∧
          ((∀ l, step (joins call.order) st l = none) → ∀ s, st.closed s = true)
  else leftOpen call.actions = ⟨false, false⟩

/-- A request is passed on: the host is dialled, and the client can be told so or the request, with
its whole body, can be written. -/
def PassedOn (lib : NetHTTP) (out : Outcomes) (req : Request) (rd : Reader UInt8) : Prop :=
  if req.method = ("CONNECT" : String).toList then
    out.dial (dialAddr "443" req.host) = true ∧ out.writeConn = true
  else
    out.dial (dialAddr "80" req.host) = true ∧ ((lib.scanBody req).read rd).isSome = true ∧
      out.writePeer = none

/-- Nothing fails in a call of `serve`: the request can be read, is not refused and is passed
on. -/
def ServeSucceeds (lib : NetHTTP) (s : HTTPServer) (out : Outcomes) (rd : Reader UInt8) : Prop :=
  ∃ req rd', lib.readRequest rd = some (req, rd') ∧ s.authenticate req = .ok () ∧
    PassedOn lib out req rd'

/-- Nothing fails in a call. -/
def Call.Succeeds : Call → Prop
  | .serve lib s out rd => ServeSucceeds lib s out rd
  | .tcpClientForward out => out.resolveToAddrPort = true ∧ out.dialTunnel = true
  | .tcpServerForward out => out.resolveToAddrPort = true ∧ out.dialHost = true

/-! ## The paths through a call -/

/-- What a call can do to its connections. -/
def paths : List (List ConnAction) := [[], [.openPeer, .closePeer], [.openPeer, .start]]

/-- A call takes one of the paths, and starts the goroutines if nothing fails. -/
def Ends (actions : List ConnAction) (succeeds : Prop) : Prop :=
  actions ∈ paths ∧ (.start ∈ actions ↔ succeeds)

theorem Ends.nil {succeeds : Prop} (h : ¬ succeeds) : Ends [] succeeds :=
  ⟨List.mem_cons_self, iff_of_false List.not_mem_nil h⟩

/-- What a helper of `serve` does to the connections: it returns a peer that it opened, or it has
closed one or opened none. -/
def Helps (actions : List Action) (returnsPeer : Bool) : Prop :=
  if returnsPeer then actions.filterMap ofAction = [.openPeer]
  else actions.filterMap ofAction = [] ∨ actions.filterMap ofAction = [.openPeer, .closePeer]

theorem helps_handleConn (out : Outcomes) (req : Request) :
    Helps (handleConn out req).1 (handleConn out req).2 := by
  unfold handleConn
  dsimp only
  split
  · exact .inl rfl
  · split
    · exact rfl
    · exact .inr rfl

theorem handleConn_returnsPeer_iff (out : Outcomes) (req : Request) :
    (handleConn out req).2 = true ↔
      out.dial (dialAddr "443" req.host) = true ∧ out.writeConn = true := by
  unfold handleConn
  dsimp only
  cases out.dial (dialAddr "443" req.host) <;> cases out.writeConn <;> simp

theorem helps_handle (lib : NetHTTP) (out : Outcomes) (req : Request) (rd : Reader UInt8) :
    Helps (handle lib out req rd).1 (handle lib out req rd).2.isSome := by
  unfold handle
  dsimp only
  split
  · exact .inl rfl
  · split
    · exact .inr rfl
    · exact .inr rfl
    · exact .inr rfl
    · exact rfl

theorem handle_returnsPeer_iff (lib : NetHTTP) (out : Outcomes) (req : Request)
    (rd : Reader UInt8) :
    (handle lib out req rd).2.isSome = true ↔
      out.dial (dialAddr "80" req.host) = true ∧ ((lib.scanBody req).read rd).isSome = true ∧
        out.writePeer = none := by
  unfold handle
  dsimp only
  cases out.dial (dialAddr "80" req.host) <;> cases (lib.scanBody req).read rd <;>
    cases out.writePeer <;> simp

/-- `serve` returns after a helper without a peer, and otherwise starts the goroutines. -/
theorem Helps.ends {actions : List Action} {returnsPeer : Bool} (h : Helps actions returnsPeer) :
    Ends ((if returnsPeer then actions ++ [.forward] else actions).filterMap ofAction)
      (returnsPeer = true) := by
  cases returnsPeer with
  | false => rcases (h : _ ∨ _) with h | h <;> simp [Ends, paths, h]
  | true =>
    have hopen : actions.filterMap ofAction = [.openPeer] := h
    simp [Ends, paths, hopen, ofAction]

theorem ends_serve (lib : NetHTTP) (s : HTTPServer) (out : Outcomes) (rd : Reader UInt8) :
    Ends ((Http.serve lib s out rd).1.filterMap ofAction) (ServeSucceeds lib s out rd) := by
  cases hread : lib.readRequest rd with
  | none =>
    rw [Http.serve, hread]
    refine .nil ?_
    rintro ⟨req, rd', hsome, -⟩
    rw [hread] at hsome
    cases hsome
  | some p =>
    obtain ⟨req, rd'⟩ := p
    have hsucceeds : ServeSucceeds lib s out rd ↔
        s.authenticate req = .ok () ∧ PassedOn lib out req rd' := by
      refine ⟨?_, fun h => ⟨req, rd', hread, h⟩⟩
      rintro ⟨req', rd'', hsome, h⟩
      rw [hread] at hsome
      cases hsome
      exact h
    rw [hsucceeds]
    cases hauth : s.authenticate req with
    | error e =>
      rw [serve_of_refused hread hauth]
      exact .nil fun h => by cases h.1
    | ok u =>
      rw [PassedOn, and_iff_right rfl]
      by_cases hmethod : req.method = ("CONNECT" : String).toList
      · rw [serve_connect hread hauth hmethod, if_pos hmethod, ← handleConn_returnsPeer_iff,
          apply_ite Prod.fst]
        exact (helps_handleConn out req).ends
      · rw [serve_plain hread hauth hmethod, if_neg hmethod, ← handle_returnsPeer_iff]
        have hends := (helps_handle lib out req rd').ends
        cases hhandle : handle lib out req rd' with
        | mk actions rd'' =>
          rw [hhandle] at hends
          cases rd'' <;> exact hends

theorem ends_forwardTo (resolved dialled : Bool) :
    Ends (forwardTo resolved dialled) (resolved = true ∧ dialled = true) := by
  cases resolved <;> cases dialled <;> simp [Ends, forwardTo, paths]

/-- **The paths through a call.** -/
theorem Call.ends (call : Call) : Ends call.actions call.Succeeds := by
  cases call with
  | serve lib s out rd => exact ends_serve lib s out rd
  | tcpClientForward out => exact ends_forwardTo _ _
  | tcpServerForward out => exact ends_forwardTo _ _

/-- What is open after the paths. -/
theorem leftOpen_of_mem_paths : ∀ actions ∈ paths,
    leftOpen actions = ⟨true, decide (.start ∈ actions)⟩ := by
  decide

/-- **Which calls leak a connection**: those in which something fails. They leave the client open,
and no peer; the others return with both connections open, which the goroutines close. -/
theorem noLeak_iff (call : Call) :
    (call.NoLeak ↔ call.Succeeds) ∧ (leftOpen call.actions).client = true ∧
      ((leftOpen call.actions).peer = true ↔ call.Succeeds) := by
  obtain ⟨hpath, hstart⟩ := call.ends
  rw [leftOpen_of_mem_paths _ hpath, ← hstart, decide_eq_true_iff]
  refine ⟨?_, rfl, .rfl⟩
  unfold Call.NoLeak
  split
  · rename_i hmem
    exact iff_of_true (fun _ _ _ hrun => goroutines_close call.mem_order hrun) hmem
  · rename_i hmem
    refine iff_of_false (fun hclosed => ?_) hmem
    rw [leftOpen_of_mem_paths _ hpath] at hclosed
    cases hclosed

/-! ## A client without credentials -/

/-- A server that asks for credentials. -/
def lockedServer : HTTPServer := .spawn (utf8 "alice") (utf8 "secret")

/-- A call of `serve` for a client that presents none. -/
def refusedCall : Call :=
  .serve .basic lockedServer ⟨fun _ => true, true, none⟩
    ⟨[], [utf8 "CONNECT example.org:443 HTTP/1.1\r\n\r\n"]⟩

/-- The client is answered, but its connection stays open. -/
theorem refused_client_left_open :
    refusedCall.actions = [] ∧ leftOpen refusedCall.actions = ⟨true, false⟩ ∧
      ¬ refusedCall.NoLeak := by
  have hactions : refusedCall.actions = [] := by decide +kernel
  refine ⟨hactions, by rw [hactions]; rfl, fun hno => ?_⟩
  rw [Call.NoLeak, hactions, if_neg List.not_mem_nil] at hno
  cases hno

end WireProxy.Routine.Ownership
