import WireProxy.Config.Types
import WireProxy.Go.Http
import WireProxy.Go.Net

/-!
# The HTTP proxy

`http.go`: the check of the proxy credentials, the two kinds of requests, and `serve`, which
handles the first request of a connection and then copies bytes.

* `serve` returns what it does to the two connections, as a list of `Action`s, and the state of its
  buffered reader when it starts the copying goroutines. The outcomes of the calls it makes are the
  argument `Outcomes`.
* `run` adds the actions of the goroutine that copies from the client to the peer. It reads the
  connection itself, so it gets the chunks that the buffered reader has not taken.
* `authenticate_eq_ok_iff` says which requests pass when authentication is required, and
  `serve_of_refused` that the others reach no peer. `authenticate_exact` puts these together, for
  the server of any credentials.
-/

namespace WireProxy.Http

open Text Go Go.Http Config Buffered

/-! ## Credentials -/

/-- `subtle.ConstantTimeCompare`. -/
def constantTimeCompare (x y : Bytes) : ℕ := if x = y then 1 else 0

/-- `CredentialValidator`. Credentials may be any bytes. -/
structure CredentialValidator where
  username : Bytes
  password : Bytes
  deriving DecidableEq

/-- `CredentialValidator.Valid`. -/
def CredentialValidator.valid (c : CredentialValidator) (username password : Bytes) : Bool :=
  let u := constantTimeCompare c.username username
  let p := constantTimeCompare c.password password
  u &&& p = 1

theorem CredentialValidator.valid_iff (c : CredentialValidator) (username password : Bytes) :
    c.valid username password ↔ c.username = username ∧ c.password = password := by
  unfold CredentialValidator.valid constantTimeCompare
  by_cases hu : c.username = username <;> by_cases hp : c.password = password <;>
    simp [hu, hp]

/-- `HTTPServer`. The function `dial` is part of the `Outcomes`. -/
structure HTTPServer where
  auth : CredentialValidator
  authRequired : Bool
  deriving DecidableEq

/-- The server that `HTTPConfig.SpawnRoutine` starts, from the bytes of the two credentials. -/
def HTTPServer.spawn (username password : Bytes) : HTTPServer where
  auth := ⟨username, password⟩
  authRequired := username ≠ [] ∨ password ≠ []

/-- The server that `HTTPConfig.SpawnRoutine` starts. -/
def HTTPServer.ofConfig (config : HTTPConfig) : HTTPServer :=
  .spawn (utf8 config.username) (utf8 config.password)

theorem HTTPServer.authRequired_ofConfig (config : HTTPConfig) :
    (HTTPServer.ofConfig config).authRequired = true ↔
      config.username ≠ [] ∨ config.password ≠ [] := by
  simp [HTTPServer.ofConfig, HTTPServer.spawn, utf8_eq_nil_iff]

/-- `proxyAuthHeaderKey`. -/
def proxyAuthHeaderKey : Text := "Proxy-Authorization"

/-- `HTTPServer.authenticate`. An error comes with the status code of the answer. -/
def HTTPServer.authenticate (s : HTTPServer) (req : Request) : Except (ℕ × Err) Unit :=
  if s.authRequired = false then .ok ()
  else
    let auth := headerGet req.header proxyAuthHeaderKey
    if auth = [] then .error (407, .msg (statusText 407))
    else
      let enc := trimPrefix auth "Basic "
      match decodeBase64 enc with
      | none =>
        .error (406, .wrap "decode username and password failed" (.external "illegal base64 data"))
      | some str =>
        -- `bytes.SplitN(str, ":", 2)` has two parts iff there is a colon
        match cut 58 str with
        | none => .error (411, .msg "username and password format invalid")
        | some (username, password) =>
          if s.auth.valid username password then .ok ()
          else .error (401, .msg "username and password not matching")

/-- The credentials that a request presents: base64 text whose decoded bytes are cut at the first
colon. -/
def proxyCredentials (req : Request) : Option (Bytes × Bytes) :=
  (decodeBase64 (trimPrefix (headerGet req.header proxyAuthHeaderKey) "Basic ")).bind (cut 58)

theorem authenticate_of_not_required {s : HTTPServer} (h : s.authRequired = false) (req : Request) :
    s.authenticate req = .ok () := by
  rw [HTTPServer.authenticate, if_pos h]

/-- **Which requests pass** when authentication is required. -/
theorem authenticate_eq_ok_iff {s : HTTPServer} (h : s.authRequired = true) (req : Request) :
    s.authenticate req = .ok () ↔
      proxyCredentials req = some (s.auth.username, s.auth.password) := by
  unfold HTTPServer.authenticate proxyCredentials
  simp only [h, Bool.true_eq_false, if_false]
  split
  · rename_i hempty
    -- an empty text decodes to no bytes, among which there is no colon
    have hnone : (decodeBase64 (trimPrefix [] "Basic ")).bind (cut 58) = none := by decide
    rw [hempty, hnone]
    exact iff_of_false nofun nofun
  · cases decodeBase64 (trimPrefix (headerGet req.header proxyAuthHeaderKey) "Basic ") with
    | none => exact iff_of_false nofun nofun
    | some str =>
      rw [Option.bind_some]
      dsimp only
      cases cut 58 str with
      | none => exact iff_of_false nofun nofun
      | some p =>
        obtain ⟨username, password⟩ := p
        rw [Option.some.injEq, Prod.mk.injEq, eq_comm (a := username), eq_comm (a := password),
          ← s.auth.valid_iff username password]
        dsimp only
        split
        · rename_i hvalid
          exact iff_of_true rfl hvalid
        · rename_i hvalid
          exact iff_of_false nofun hvalid

/-! ## Requests -/

/-- `responseWith`. -/
def responseWith (req : Request) (statusCode : ℕ) : Response where
  statusCode := statusCode
  status := statusText statusCode
  proto := req.proto
  header := []
  body := ("wireproxy:" : String).toList ++ ' ' :: req.proto ++ ' ' :: Nat.toDigits 10 statusCode ++
    ' ' :: statusText statusCode ++ ['\r', '\n']

/-- What is done to the connections: that of the client, and the one dialled for it. -/
inductive Action
  /-- Answer the client. -/
  | respond (resp : Response)
  /-- Tell the client that the tunnel is open. -/
  | established
  /-- Dial an address, successfully or not. -/
  | dial (addr : Text) (ok : Bool)
  /-- Write to the peer. -/
  | writePeer (bytes : Bytes)
  /-- Close the peer. -/
  | closePeer
  /-- Start the goroutines that copy in both directions. -/
  | forward
  deriving DecidableEq

/-- The outcomes of the calls that `serve` makes. -/
structure Outcomes where
  /-- Whether dialling an address succeeds. -/
  dial : Text → Bool
  /-- Whether the client can be told that the tunnel is open. -/
  writeConn : Bool
  /-- The number of bytes after which the write of a request to the peer fails, if it does. -/
  writePeer : Option ℕ

/-- The address to dial for a host: with the default port unless it holds a colon. -/
def dialAddr (port host : Text) : Text :=
  if contains host ":" then host else joinHostPort host port

/-- `HTTPServer.handleConn`, and whether it returns a peer. -/
def handleConn (out : Outcomes) (req : Request) : List Action × Bool :=
  let addr := dialAddr "443" req.host
  if out.dial addr = false then ([.dial addr false], false)
  else if out.writeConn then ([.dial addr true, .established], true)
  else ([.dial addr true, .closePeer], false)

/-- `HTTPServer.handle`, and the reader after the body if it returns a peer. -/
def handle (lib : NetHTTP) (out : Outcomes) (req : Request) (rd : Reader UInt8) :
    List Action × Option (Reader UInt8) :=
  let addr := dialAddr "80" req.host
  if out.dial addr = false then ([.dial addr false], none)
  else match (lib.scanBody req).read rd, out.writePeer with
    | none, none =>
      ([.dial addr true, .writePeer (lib.writeCut req rd.contents), .closePeer], none)
    | none, some n =>
      ([.dial addr true, .writePeer ((lib.writeCut req rd.contents).take n), .closePeer], none)
    | some (body, _), some n =>
      ([.dial addr true, .writePeer ((lib.write req body).take n), .closePeer], none)
    | some (body, rd), none => ([.dial addr true, .writePeer (lib.write req body)], some rd)

/-- The answer to a request that was refused. -/
def refusal (req : Request) (code : ℕ) : Response :=
  if code = 407 then
    { responseWith req code with
      header := [("Proxy-Authenticate", "Basic realm=\"Proxy\"")] }
  else responseWith req code

/-- `HTTPServer.serve`: the actions, and the buffered reader if the copying goroutines are
started. -/
def serve (lib : NetHTTP) (s : HTTPServer) (out : Outcomes) (rd : Reader UInt8) :
    List Action × Option (Reader UInt8) :=
  match lib.readRequest rd with
  | none => ([], none)
  | some (req, rd) =>
    match s.authenticate req with
    | .error (code, _) => ([.respond (refusal req code)], none)
    | .ok () =>
      let (actions, rd') :=
        if req.method = ("CONNECT" : String).toList then
          ((handleConn out req).1, if (handleConn out req).2 then some rd else none)
        else handle lib out req rd
      match rd' with
      | none => (actions, none)
      | some rd => (actions ++ [.forward], some rd)

/-- The writes of the goroutine that copies from the client to the peer, while both connections
stay up: it reads the client's connection, behind the back of the buffered reader. -/
def copied (rd : Reader UInt8) : List Action := rd.pending.map .writePeer

/-- All actions on a connection whose bytes arrive in the given chunks. -/
def run (lib : NetHTTP) (s : HTTPServer) (out : Outcomes) (chunks : List Bytes) : List Action :=
  match serve lib s out ⟨[], chunks⟩ with
  | (actions, none) => actions
  | (actions, some rd) => actions ++ copied rd

/-! ## What reaches the peer -/

/-- The bytes that an action writes to the peer. -/
def Action.peerBytes : Action → Bytes
  | .writePeer bytes => bytes
  | _ => []

/-- The bytes that are written to the peer. -/
def peerBytes (actions : List Action) : Bytes := actions.flatMap Action.peerBytes

theorem peerBytes_append (as bs : List Action) :
    peerBytes (as ++ bs) = peerBytes as ++ peerBytes bs := List.flatMap_append

theorem peerBytes_copied (rd : Reader UInt8) : peerBytes (copied rd) = rd.pending.flatten := by
  rw [peerBytes, copied, List.flatMap_map]
  exact List.flatMap_id

section Serve

variable {lib : NetHTTP} {s : HTTPServer} {out : Outcomes} {rd rd' : Reader UInt8} {req : Request}

/-- A request other than CONNECT that was accepted and handled. -/
theorem serve_plain (hread : lib.readRequest rd = some (req, rd'))
    (hauth : s.authenticate req = .ok ()) (hplain : req.method ≠ ("CONNECT" : String).toList) :
    serve lib s out rd =
      match handle lib out req rd' with
      | (actions, none) => (actions, none)
      | (actions, some rd) => (actions ++ [.forward], some rd) := by
  rw [serve, hread]
  simp only [hauth, if_neg hplain]
  obtain ⟨actions, rd''⟩ := handle lib out req rd'
  cases rd'' <;> rfl

/-- A CONNECT request that was accepted and handled. -/
theorem serve_connect (hread : lib.readRequest rd = some (req, rd'))
    (hauth : s.authenticate req = .ok ()) (hconnect : req.method = ("CONNECT" : String).toList) :
    serve lib s out rd =
      if (handleConn out req).2 then ((handleConn out req).1 ++ [.forward], some rd')
      else ((handleConn out req).1, none) := by
  rw [serve, hread]
  simp only [hauth, if_pos hconnect]
  cases (handleConn out req).2 <;> rfl

/-- **A refused request reaches no peer**: nothing is dialled. -/
theorem serve_of_refused {code : ℕ} {e : Err} (hread : lib.readRequest rd = some (req, rd'))
    (hauth : s.authenticate req = .error (code, e)) :
    serve lib s out rd = ([.respond (refusal req code)], none) := by
  rw [serve, hread]
  simp only [hauth]

end Serve

/-! ## Authentication -/

/-- The codes of the refusals. The first is that of a request without a value. -/
theorem code_of_authenticate {s : HTTPServer} {req : Request} {code : ℕ} {e : Err}
    (h : s.authenticate req = .error (code, e)) :
    code ∈ [407, 406, 411, 401] ∧ (code = 407 ↔ headerGet req.header proxyAuthHeaderKey = []) := by
  unfold HTTPServer.authenticate at h
  split at h
  · cases h
  · dsimp only at h
    split at h
    · rename_i hempty
      cases h
      exact ⟨by simp, iff_of_true rfl hempty⟩
    · rename_i hvalue
      split at h
      · cases h
        exact ⟨by simp, iff_of_false (by simp) hvalue⟩
      · split at h
        · cases h
          exact ⟨by simp, iff_of_false (by simp) hvalue⟩
        · split at h
          · cases h
          · cases h
            exact ⟨by simp, iff_of_false (by simp) hvalue⟩

/-- No value is the same as an absent or an empty one. -/
theorem headerGet_eq_nil_iff {header : List (Text × Text)} {name : Text} :
    headerGet header name = [] ↔ header.lookup name = none ∨ header.lookup name = some [] := by
  rw [headerGet]
  cases header.lookup name <;> simp

/-- **Which requests the server of some credentials accepts, and what becomes of the others.** -/
theorem authenticate_exact (username password : Bytes) (req : Request) :
    ((HTTPServer.spawn username password).authenticate req = .ok () ↔
      (username = [] ∧ password = []) ∨
        (decodeBase64 (trimPrefix (headerGet req.header proxyAuthHeaderKey) "Basic ") =
            some (username ++ 58 :: password) ∧ 58 ∉ username)) ∧
    ∀ code e, (HTTPServer.spawn username password).authenticate req = .error (code, e) →
      code ∈ [407, 406, 411, 401] ∧
      (code = 407 ↔ req.header.lookup proxyAuthHeaderKey = none ∨
        req.header.lookup proxyAuthHeaderKey = some []) ∧
      ∀ lib out rd rd', lib.readRequest rd = some (req, rd') →
        serve lib (HTTPServer.spawn username password) out rd =
          ([.respond (refusal req code)], none) := by
  refine ⟨?_, fun code e herr => ?_⟩
  · by_cases hempty : username = [] ∧ password = []
    · have hnot : (HTTPServer.spawn username password).authRequired = false := by
        simp [HTTPServer.spawn, hempty]
      exact iff_of_true (authenticate_of_not_required hnot req) (.inl hempty)
    · have hreq : (HTTPServer.spawn username password).authRequired = true := by
        simpa [HTTPServer.spawn, imp_iff_not_or] using hempty
      rw [authenticate_eq_ok_iff hreq, proxyCredentials, or_iff_right hempty,
        Option.bind_eq_some_iff]
      simp only [cut_eq_some_iff, HTTPServer.spawn]
      constructor
      · rintro ⟨str, hstr, rfl, hcolon⟩
        exact ⟨hstr, hcolon⟩
      · rintro ⟨hstr, hcolon⟩
        exact ⟨_, hstr, rfl, hcolon⟩
  · obtain ⟨hcode, h407⟩ := code_of_authenticate herr
    exact ⟨hcode, h407.trans headerGet_eq_nil_iff, fun lib out rd rd' hread =>
      serve_of_refused hread herr⟩

end WireProxy.Http
