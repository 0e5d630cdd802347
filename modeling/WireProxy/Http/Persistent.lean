import WireProxy.Http.Connect

/-!
# Several requests on one connection

A client sends plain requests one after another on a connection that it keeps open. `serve` reads
the first one, and whatever arrives later is copied to the peer that was dialled for the first.

* `PlainRequest` is a request with its bytes on the wire.
* `deliveries` are the requests of which bytes reach a peer, each with the address that was dialled
  for that peer. What the buffered reader took together with the first request is copied nowhere, so
  a later request is delivered iff it ends after the chunks that the first one needed (`reached`).
* `deliveries_own_host_iff`: every delivery is to the request's own host, and of a request that
  authenticates, exactly if the first request gets no further than its own peer or the later ones
  that are reached authenticate as well and name its address.
-/

namespace WireProxy.Http

open Text Go Go.Http Buffered

variable {lib : NetHTTP} {s : HTTPServer} {out : Outcomes} {chunks : List Bytes}

/-- A request other than CONNECT, as it stands in the stream. -/
structure PlainRequest (lib : NetHTTP) where
  head : Bytes
  body : Bytes
  lines : List Bytes
  req : Request
  payload : Bytes
  scan_head : headScanner.scan head = some (lines, [])
  parse_head : lib.parseHead lines = some req
  plain : req.method ≠ ("CONNECT" : String).toList
  scan_body : (lib.scanBody req).scan body = some (payload, [])

namespace PlainRequest

/-- The bytes of a request. -/
def bytes (r : PlainRequest lib) : Bytes := r.head ++ r.body

/-- The address that the request names. -/
def addr (r : PlainRequest lib) : Text := dialAddr "80" r.req.host

end PlainRequest

/-- The bytes of a sequence of requests. -/
def wire (rs : List (PlainRequest lib)) : Bytes := rs.flatMap PlainRequest.bytes

/-! ## Deliveries -/

/-- The requests of which a byte is among the last `n` bytes of the stream that ends with them. -/
def reached (n : ℕ) : List (PlainRequest lib) → List (PlainRequest lib)
  | [] => []
  | r :: rs => if (wire rs).length < n then r :: reached n rs else reached n rs

/-- The address that was dialled successfully. -/
def dialled : List Action → Option Text
  | [] => none
  | .dial addr true :: _ => some addr
  | _ :: as => dialled as

/-- The bytes that are copied to the peer once the goroutines have been started. -/
def copiedBytes : List Action → Bytes
  | [] => []
  | .forward :: as => peerBytes as
  | _ :: as => copiedBytes as

/-- The requests that reach a peer, with the address that was dialled for it: the first request,
which is written to the peer, and those of which bytes are copied. -/
def deliveries (actions : List Action) (r : PlainRequest lib) (rs : List (PlainRequest lib)) :
    List (PlainRequest lib × Text) :=
  match dialled actions with
  | none => []
  | some addr => (r, addr) :: (reached (copiedBytes actions).length rs).map fun q => (q, addr)

/-- A delivery is of a request that authenticates, to a peer that was dialled for its own host and
port. -/
def OwnHost (s : HTTPServer) (d : PlainRequest lib × Text) : Prop :=
  s.authenticate d.1.req = .ok () ∧ d.2 = d.1.addr

/-! ## The first request -/

section First

variable (r : PlainRequest lib) {payload : Bytes}

/-- The head of the first request is read and then its body, with the chunks needed for both. -/
theorem read_plain (hstream : chunks.flatten = r.bytes ++ payload) :
    ∃ rd left, lib.readRequest ⟨[], chunks⟩ = some (r.req, rd) ∧
      (lib.scanBody r.req).read rd =
        some (r.payload, ⟨left, chunks.drop (needed r.bytes.length chunks)⟩) := by
  have hscan : (headScanner.andThen fun lines =>
      lib.scanBody ((lib.parseHead lines).getD r.req)).scan r.bytes =
        some ((r.lines, r.payload), []) := by
    refine Scanner.scan_andThen r.scan_head ?_
    rw [r.parse_head, Option.getD_some, r.scan_body]
  obtain ⟨left, hread, -⟩ := read_eq_some hscan hstream
  rw [read_andThen, Option.bind_eq_some_iff] at hread
  obtain ⟨⟨lines, rd⟩, hhead, hbody⟩ := hread
  obtain ⟨⟨payload', rd'⟩, hbody, heq⟩ := Option.map_eq_some_iff.1 hbody
  simp only [Prod.mk.injEq] at heq
  obtain ⟨⟨rfl, rfl⟩, rfl⟩ := heq
  rw [r.parse_head, Option.getD_some] at hbody
  exact ⟨rd, left, by simp [NetHTTP.readRequest, hhead, r.parse_head], hbody⟩

/-- The actions on a connection, when the first request authenticates. -/
theorem run_plain (hstream : chunks.flatten = r.bytes ++ payload)
    (hauth : s.authenticate r.req = .ok ()) :
    run lib s out chunks =
      if out.dial r.addr = false then [.dial r.addr false]
      else match out.writePeer with
        | some n =>
          [.dial r.addr true, .writePeer ((lib.write r.req r.payload).take n), .closePeer]
        | none => .dial r.addr true :: .writePeer (lib.write r.req r.payload) :: .forward ::
            (chunks.drop (needed r.bytes.length chunks)).map .writePeer := by
  obtain ⟨rd, left, hreq, hbody⟩ := read_plain r hstream
  rw [run, serve_plain hreq hauth r.plain]
  by_cases hdial : out.dial r.addr = false
  · have hhandle : handle lib out r.req rd = ([.dial r.addr false], none) := if_pos hdial
    rw [hhandle, if_pos hdial]
  · rw [if_neg hdial, handle, ← PlainRequest.addr, if_neg hdial, hbody]
    cases out.writePeer with
    | some n => rfl
    | none => rfl

theorem reached_zero (rs : List (PlainRequest lib)) : reached 0 rs = [] := by
  induction rs with
  | nil => rfl
  | cons r rs ih => simpa [reached] using ih

theorem mem_of_mem_reached {n : ℕ} {q : PlainRequest lib} {rs : List (PlainRequest lib)}
    (h : q ∈ reached n rs) : q ∈ rs := by
  induction rs with
  | nil => exact h
  | cons r rs ih =>
    rw [reached] at h
    split at h
    · rcases List.mem_cons.1 h with rfl | h
      · exact List.mem_cons_self
      · exact List.mem_cons_of_mem _ (ih h)
    · exact List.mem_cons_of_mem _ (ih h)

theorem peerBytes_map_writePeer (bs : List Bytes) :
    peerBytes (bs.map .writePeer) = bs.flatten := peerBytes_copied ⟨[], bs⟩

/-- The deliveries, by what becomes of the first request. -/
theorem deliveries_run (hstream : chunks.flatten = r.bytes ++ payload)
    (rs : List (PlainRequest lib)) :
    deliveries (run lib s out chunks) r rs =
      if s.authenticate r.req = .ok () ∧ out.dial r.addr = true then
        (r, r.addr) :: if out.writePeer = none then
          (reached (chunks.drop (needed r.bytes.length chunks)).flatten.length rs).map
            fun q => (q, r.addr)
        else []
      else [] := by
  cases hauth : s.authenticate r.req with
  | error e =>
    obtain ⟨code, e⟩ := e
    obtain ⟨rd, left, hreq, -⟩ := read_plain r hstream
    rw [run, serve_of_refused hreq hauth, if_neg (by simp)]
    rfl
  | ok u =>
    rw [run_plain r hstream hauth]
    cases hdial : out.dial r.addr with
    | false =>
      rw [if_pos rfl, if_neg (by simp)]
      rfl
    | true =>
      rw [if_neg (by simp), if_pos ⟨rfl, rfl⟩]
      cases out.writePeer with
      | some n =>
        rw [if_neg (by simp), deliveries]
        simp [dialled, copiedBytes, reached_zero]
      | none =>
        rw [if_pos rfl, deliveries]
        simp only [dialled, copiedBytes, peerBytes_map_writePeer]

end First

/-- **When every request reaches the host that it names.** The client sends the requests `r` and
`rs`, in any chunks. -/
theorem deliveries_own_host_iff (r : PlainRequest lib) (rs : List (PlainRequest lib))
    (hstream : chunks.flatten = wire (r :: rs)) :
    (∀ d ∈ deliveries (run lib s out chunks) r rs, OwnHost s d) ↔
      (s.authenticate r.req = .ok () → out.dial r.addr = true → out.writePeer = none →
        ∀ q ∈ reached (chunks.drop (needed r.bytes.length chunks)).flatten.length rs,
          s.authenticate q.req = .ok () ∧ q.addr = r.addr) := by
  rw [deliveries_run r hstream rs]
  by_cases hpeer : s.authenticate r.req = .ok () ∧ out.dial r.addr = true
  · have hfirst : OwnHost s (r, r.addr) := ⟨hpeer.1, rfl⟩
    rw [if_pos hpeer, List.forall_mem_cons]
    by_cases hwrite : out.writePeer = none
    · simp only [hwrite, hpeer, true_and, if_true, forall_const, List.forall_mem_map,
        OwnHost, eq_comm (a := r.addr)]
    · simp [hfirst, hwrite]
  · rw [if_neg hpeer]
    refine iff_of_true (by simp) fun hauth hdial => absurd ⟨hauth, hdial⟩ hpeer

/-! ## Two requests -/

/-- A request for `a.example`. -/
def requestA : PlainRequest .basic where
  head := utf8 "GET http://a.example/ HTTP/1.1\r\nHost: a.example\r\n\r\n"
  body := []
  lines := [utf8 "GET http://a.example/ HTTP/1.1", utf8 "Host: a.example"]
  req := ⟨"GET", "http://a.example/", "HTTP/1.1", "a.example", [("Host", "a.example")]⟩
  payload := []
  scan_head := by decide +kernel
  parse_head := by decide +kernel
  plain := by decide
  scan_body := by decide +kernel

/-- A request for `b.example`. -/
def requestB : PlainRequest .basic where
  head := utf8 "GET http://b.example/ HTTP/1.1\r\nHost: b.example\r\n\r\n"
  body := []
  lines := [utf8 "GET http://b.example/ HTTP/1.1", utf8 "Host: b.example"]
  req := ⟨"GET", "http://b.example/", "HTTP/1.1", "b.example", [("Host", "b.example")]⟩
  payload := []
  scan_head := by decide +kernel
  parse_head := by decide +kernel
  plain := by decide
  scan_body := by decide +kernel

/-- Two requests for the same host reach it. -/
theorem deliveries_own_host_iff_same_host :
    [requestA.bytes, requestA.bytes].flatten = wire [requestA, requestA] ∧
      ∀ d ∈ deliveries (run .basic openServer allSucceed [requestA.bytes, requestA.bytes])
        requestA [requestA], OwnHost openServer d := by
  have hstream : [requestA.bytes, requestA.bytes].flatten = wire [requestA, requestA] := by
    simp [wire]
  refine ⟨hstream, (deliveries_own_host_iff requestA [requestA] hstream).2 fun _ _ _ q hq => ?_⟩
  obtain rfl := List.mem_singleton.1 (mem_of_mem_reached hq)
  exact ⟨rfl, rfl⟩

/-- A request for `b.example` after one for `a.example` is delivered to `a.example`. -/
theorem second_request_misdelivered :
    [requestA.bytes, requestB.bytes].flatten = wire [requestA, requestB] ∧
      (requestB, requestA.addr) ∈
        deliveries (run .basic openServer allSucceed [requestA.bytes, requestB.bytes])
          requestA [requestB] ∧
      requestA.addr = ("a.example:80" : String).toList ∧
      requestB.addr = ("b.example:80" : String).toList ∧
      ¬ OwnHost openServer (requestB, requestA.addr) := by
  have hstream : [requestA.bytes, requestB.bytes].flatten = wire [requestA, requestB] := by
    simp [wire]
  have haddr : requestA.addr = ("a.example:80" : String).toList ∧
      requestB.addr = ("b.example:80" : String).toList := by
    decide +kernel
  have hreached : (wire ([] : List (PlainRequest .basic))).length <
      (([requestA.bytes, requestB.bytes].drop
        (needed requestA.bytes.length [requestA.bytes, requestB.bytes])).flatten).length := by
    decide +kernel
  refine ⟨hstream, ?_, haddr.1, haddr.2, fun h => ?_⟩
  · have hwrite : allSucceed.writePeer = none := rfl
    rw [deliveries_run requestA hstream, if_pos ⟨rfl, rfl⟩, if_pos hwrite, reached,
      if_pos hreached]
    simp
  · have hne : requestA.addr ≠ requestB.addr := by
      rw [haddr.1, haddr.2]
      decide
    exact hne h.2

end WireProxy.Http
