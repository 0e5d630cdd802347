import WireProxy.Http.Server

/-!
# Tunnels

The bytes that a client sends after a CONNECT request. The request is read through a buffered
reader, the tunnel reads the connection itself, so what the buffered reader holds when the request
is complete is read by nobody.

* `peerBytes_connect`: the peer gets the chunks after those that the head needed.
* `peerBytes_connect_eq_iff`: it gets the whole payload iff a chunk ends where the head ends.
-/

namespace WireProxy.Http

open Text Go Go.Http Buffered

variable {lib : NetHTTP} {s : HTTPServer} {out : Outcomes} {head payload : Bytes}
  {chunks : List Bytes}

/-- The bytes are the head of a CONNECT request that the server accepts, and the tunnel can be
opened. -/
structure OpensTunnel (lib : NetHTTP) (s : HTTPServer) (out : Outcomes) (head : Bytes) where
  lines : List Bytes
  req : Request
  scan_head : headScanner.scan head = some (lines, [])
  parse_head : lib.parseHead lines = some req
  connect : req.method = ("CONNECT" : String).toList
  accepted : s.authenticate req = .ok ()
  dialled : out.dial (dialAddr "443" req.host) = true
  answered : out.writeConn = true

theorem handleConn_of_opensTunnel (h : OpensTunnel lib s out head) :
    handleConn out h.req =
      ([.dial (dialAddr "443" h.req.host) true, .established], true) := by
  simp only [handleConn, h.dialled, h.answered, Bool.true_eq_false, if_false, if_true]

/-- **What the peer of a tunnel gets**: the chunks that the head did not need. -/
theorem peerBytes_connect (h : OpensTunnel lib s out head)
    (hstream : chunks.flatten = head ++ payload) :
    peerBytes (run lib s out chunks) = (chunks.drop (needed head.length chunks)).flatten := by
  obtain ⟨left, hread, -⟩ := read_eq_some h.scan_head hstream
  have hreq : lib.readRequest ⟨[], chunks⟩ =
      some (h.req, ⟨left, chunks.drop (needed head.length chunks)⟩) := by
    simp [NetHTTP.readRequest, hread, h.parse_head]
  rw [run, serve_connect hreq h.accepted h.connect, handleConn_of_opensTunnel h, if_pos rfl]
  exact (peerBytes_append _ _).trans (peerBytes_copied _)

/-- **When a tunnel loses no byte.** -/
theorem peerBytes_connect_eq_iff (h : OpensTunnel lib s out head)
    (hstream : chunks.flatten = head ++ payload) :
    peerBytes (run lib s out chunks) = payload ↔ ∃ k, (chunks.take k).flatten = head := by
  obtain ⟨left, -, hrest, hleft⟩ := read_eq_some h.scan_head hstream
  rw [peerBytes_connect h hstream, ← hleft, ← hrest]
  exact List.self_eq_append_left

/-! ## A request and its first bytes in one chunk -/

/-- The head of a CONNECT request. -/
def connectHead : Bytes := utf8 "CONNECT example.org:443 HTTP/1.1\r\n\r\n"

/-- A server without credentials. -/
def openServer : HTTPServer := ⟨⟨[], []⟩, false⟩

/-- Every call succeeds. -/
def allSucceed : Outcomes := ⟨fun _ => true, true, none⟩

/-- The request opens a tunnel. -/
def opensTunnel_connectHead : OpensTunnel .basic openServer allSucceed connectHead where
  lines := [utf8 "CONNECT example.org:443 HTTP/1.1"]
  req := ⟨"CONNECT", "example.org:443", "HTTP/1.1", "example.org:443", []⟩
  scan_head := by decide +kernel
  parse_head := by decide +kernel
  connect := rfl
  accepted := rfl
  dialled := rfl
  answered := rfl

theorem peerBytes_connect_eq_iff_two_chunks :
    [connectHead, utf8 "hello"].flatten = connectHead ++ utf8 "hello" ∧
      peerBytes (run .basic openServer allSucceed [connectHead, utf8 "hello"]) = utf8 "hello" :=
  ⟨by simp, (peerBytes_connect_eq_iff opensTunnel_connectHead (by simp)).2 ⟨1, by simp⟩⟩

/-- The same bytes in one chunk: the payload is lost. -/
theorem peerBytes_connect_one_chunk :
    [connectHead ++ utf8 "hello"].flatten = connectHead ++ utf8 "hello" ∧
      peerBytes (run .basic openServer allSucceed [connectHead ++ utf8 "hello"]) = [] ∧
      utf8 "hello" ≠ [] := by
  have hstream : [connectHead ++ utf8 "hello"].flatten = connectHead ++ utf8 "hello" := by simp
  refine ⟨hstream, ?_, by decide⟩
  rw [peerBytes_connect opensTunnel_connectHead hstream]
  decide +kernel

end WireProxy.Http
