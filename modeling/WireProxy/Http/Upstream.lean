import WireProxy.Http.Connect

/-!
# What a plain request shows to its origin server

A plain request is written to the peer with its header, of which `Request.Write` leaves out only a
few entries. The credentials for the proxy are not among these.

* `Standard` collects what is assumed of `net/http`: how the entries of a header are sent, and that
  the rest of a request, and where its body ends, do not depend on the credentials for the proxy.
* `present` adds a Proxy-Authorization entry to a request, and `send_present` says what is then
  sent.
* `upstream_eq_iff`: for two servers and two such requests that they accept, the bytes that reach
  the peer are the same iff the two values are, unless nothing is dialled or the write fails before
  the first byte in which the requests differ.
* `standardHTTP` is an instance of the assumptions.
-/

namespace WireProxy.Http

open Text Go Go.Http Buffered

/-! ## Writing a request -/

/-- `reqWriteExcludeHeader`: the entries that `Request.Write` does not take from the header. -/
def reqWriteExcludeHeader : List Text :=
  ["Host", "User-Agent", "Content-Length", "Transfer-Encoding", "Trailer"]

/-- `httpguts.ValidHeaderFieldName`. -/
def validHeaderFieldName (name : Text) : Bool :=
  name ≠ [] && name.all fun c =>
    c.isAlphanum || ("!#$%&'*+-.^_`|~" : String).toList.contains c

/-- The entries of a name are taken from the header. -/
def isSent (name : Text) : Bool :=
  validHeaderFieldName name && !reqWriteExcludeHeader.contains name

theorem isSent_proxyAuthHeaderKey : isSent proxyAuthHeaderKey = true := by decide +kernel

/-- The line of an entry. -/
def headerLine (entry : Text × Text) : Bytes :=
  utf8 (entry.1 ++ ':' :: ' ' :: entry.2 ++ ['\r', '\n'])

/-- `Header.WriteSubset`: the entries that are not excluded, ordered by name. The entries of one
name stay in order. -/
def writeSubset (header : List (Text × Text)) : Bytes :=
  ((header.filter fun p => isSent p.1).insertionSort fun p q => p.1 ≤ q.1).flatMap headerLine

/-- The request without its credentials for the proxy. -/
def withoutCredentials (req : Request) : Request :=
  { req with header := req.header.filter fun p => p.1 ≠ proxyAuthHeaderKey }

/-- What is sent before and after the entries of the header, which may depend on everything but the
credentials. -/
structure Framing where
  before : Request → Bytes → Bytes
  after : Request → Bytes → Bytes

/-- A request as it is sent, with its body. -/
def Framing.send (fr : Framing) (req : Request) (body : Bytes) : Bytes :=
  fr.before (withoutCredentials req) body ++ writeSubset req.header ++
    fr.after (withoutCredentials req) body

/-- What is assumed of `net/http`, for the requests that it reads. -/
structure Standard (lib : NetHTTP) where
  whole : Framing
  /-- For a body that ends too early: the head is sent before the body is read. -/
  cut : Framing
  write_eq : ∀ lines req body, lib.parseHead lines = some req →
    lib.write req body = whole.send req body
  writeCut_eq : ∀ lines req contents, lib.parseHead lines = some req →
    lib.writeCut req contents = cut.send req contents
  scanBody_eq : ∀ req, lib.scanBody req = lib.scanBody (withoutCredentials req)

/-- The request with a Proxy-Authorization entry at some place of its header. -/
def present (req : Request) (i : ℕ) (value : Text) : Request :=
  { req with header := req.header.take i ++ (proxyAuthHeaderKey, value) :: req.header.drop i }

theorem withoutCredentials_present (req : Request) (i : ℕ) (value : Text) :
    withoutCredentials (present req i value) = withoutCredentials req := by
  rw [withoutCredentials, withoutCredentials, present, List.filter_append,
    List.filter_cons_of_neg (by simp), ← List.filter_append, List.take_append_drop]

/-! ## The entries of a header with a hole -/

/-- An entry whose value is left open. -/
abbrev Hole := Text × Option Text

/-- Fill in the value. -/
def fill (value : Text) (p : Hole) : Text × Text := (p.1, p.2.getD value)

/-- The header of a request with the value of its Proxy-Authorization entry left open. -/
def holes (req : Request) (i : ℕ) : List Hole :=
  (req.header.take i).map (fun p => (p.1, some p.2)) ++
    (proxyAuthHeaderKey, none) :: (req.header.drop i).map fun p => (p.1, some p.2)

theorem map_fill_holes (req : Request) (i : ℕ) (value : Text) :
    (holes req i).map (fill value) = (present req i value).header := by
  have hfill : ∀ l : List (Text × Text), (l.map fun p => (p.1, some p.2)).map (fill value) = l := by
    intro l
    rw [List.map_map]
    exact List.map_id l
  rw [holes, present, List.map_append, List.map_cons, hfill, hfill]
  rfl

/-- The holes that are sent, in the order in which they are sent. -/
def sentHoles (req : Request) (i : ℕ) : List Hole :=
  ((holes req i).filter fun p => isSent p.1).insertionSort fun p q => p.1 ≤ q.1

/-- Filtering and sorting do not look at the values. -/
theorem writeSubset_present (req : Request) (i : ℕ) (value : Text) :
    writeSubset (present req i value).header =
      (sentHoles req i).flatMap fun p => headerLine (fill value p) := by
  have hsort : (sentHoles req i).map (fill value) =
      (((holes req i).filter fun p => isSent p.1).map (fill value)).insertionSort
        fun p q => p.1 ≤ q.1 := List.map_insertionSort _ _ _ _ fun _ _ _ _ => Iff.rfl
  have hflat := List.flatMap_map (fill value) headerLine (sentHoles req i)
  rw [writeSubset, ← map_fill_holes, List.filter_map, ← hflat, hsort]
  rfl

theorem filter_none_holes (req : Request) (i : ℕ) :
    (holes req i).filter (fun p => p.2 = none) = [(proxyAuthHeaderKey, none)] := by
  have hnil : ∀ l : List (Text × Text),
      (l.map fun p => ((p.1, some p.2) : Hole)).filter (fun p => p.2 = none) = [] := by
    intro l
    rw [List.filter_eq_nil_iff]
    rintro _ hp
    obtain ⟨p, -, rfl⟩ := List.mem_map.1 hp
    simp
  rw [holes, List.filter_append, List.filter_cons_of_pos (by simp), hnil, hnil]
  rfl

/-- Exactly one of the entries that are sent has a hole. -/
theorem sentHoles_eq (req : Request) (i : ℕ) :
    ∃ l m : List Hole, sentHoles req i = l ++ (proxyAuthHeaderKey, none) :: m ∧
      ∀ p ∈ l ++ m, p.2 ≠ none := by
  have hperm : ((sentHoles req i).filter fun p => p.2 = none).Perm
      [(proxyAuthHeaderKey, none)] := by
    have h := (List.perm_insertionSort (fun p q : Hole => p.1 ≤ q.1)
      ((holes req i).filter fun p => isSent p.1)).filter fun p => p.2 = none
    have hsent : ([(proxyAuthHeaderKey, none)] : List Hole).filter (fun p => isSent p.1) =
        [(proxyAuthHeaderKey, none)] := List.filter_cons_of_pos isSent_proxyAuthHeaderKey
    rwa [List.filter_comm, filter_none_holes, hsent] at h
  have hone : (sentHoles req i).filter (fun p => p.2 = none) = [(proxyAuthHeaderKey, none)] :=
    List.perm_singleton.1 hperm
  obtain ⟨l, m, heq, hl, -, hm⟩ := List.filter_eq_cons_iff.1 hone
  refine ⟨l, m, heq, fun p hp => ?_⟩
  rcases List.mem_append.1 hp with hp | hp
  · simpa using hl p hp
  · rw [List.filter_eq_nil_iff] at hm
    simpa using hm p hp

/-- The lines that are sent before the hole. -/
def frontLines (req : Request) (i : ℕ) : Bytes :=
  ((sentHoles req i).takeWhile fun p => p.2.isSome).flatMap fun p => headerLine (fill [] p)

/-- The lines that are sent after it. -/
def backLines (req : Request) (i : ℕ) : Bytes :=
  ((sentHoles req i).dropWhile fun p => p.2.isSome).tail.flatMap fun p => headerLine (fill [] p)

/-- **The entries that are sent** with a value in the hole. -/
theorem writeSubset_present_eq (req : Request) (i : ℕ) (value : Text) :
    writeSubset (present req i value).header =
      frontLines req i ++ (headerLine (proxyAuthHeaderKey, value) ++ backLines req i) := by
  obtain ⟨l, m, heq, hnone⟩ := sentHoles_eq req i
  -- the other entries do not depend on the value
  have hsame : ∀ p ∈ l ++ m, headerLine (fill value p) = headerLine (fill [] p) := by
    intro p hp
    obtain ⟨v, hv⟩ := Option.ne_none_iff_exists'.1 (hnone p hp)
    rw [fill, fill, hv, Option.getD_some, Option.getD_some]
  have hsome : ∀ p ∈ l, p.2.isSome = true := fun p hp =>
    Option.ne_none_iff_isSome.1 (hnone p (List.mem_append_left m hp))
  have hl := List.flatMap_congr fun p hp => hsame p (List.mem_append_left m hp)
  have hm := List.flatMap_congr fun p hp => hsame p (List.mem_append_right l hp)
  rw [writeSubset_present, frontLines, backLines, heq, List.takeWhile_append_of_pos hsome,
    List.dropWhile_append_of_pos hsome, List.takeWhile_cons_of_neg (by simp),
    List.dropWhile_cons_of_neg (by simp), List.append_nil, List.tail_cons, List.flatMap_append,
    List.flatMap_cons, hl, hm]
  rfl

theorem headerLine_injective {name v₁ v₂ : Text}
    (h : headerLine (name, v₁) = headerLine (name, v₂)) : v₁ = v₂ := by
  have htext := utf8_injective h
  simpa using htext

/-! ## Two values -/

namespace Framing

variable (fr : Framing) (req : Request) (i : ℕ) (body : Bytes)

/-- What is sent before the line of the credentials. -/
def front : Bytes := fr.before (withoutCredentials req) body ++ frontLines req i

/-- What is sent after it. -/
def back : Bytes := backLines req i ++ fr.after (withoutCredentials req) body

theorem send_present (value : Text) : fr.send (present req i value) body =
    fr.front req i body ++ (headerLine (proxyAuthHeaderKey, value) ++ fr.back req i body) := by
  rw [send, withoutCredentials_present, writeSubset_present_eq, front, back]
  simp only [List.append_assoc]

/-- The number of bytes before the first one in which the requests with two values differ: those
before the line of the credentials, and those in which this line and what follows it agree. -/
def agreement (v₁ v₂ : Text) : ℕ :=
  (fr.front req i body).length +
    commonPrefix (headerLine (proxyAuthHeaderKey, v₁) ++ fr.back req i body)
      (headerLine (proxyAuthHeaderKey, v₂) ++ fr.back req i body)

theorem send_present_eq_iff (v₁ v₂ : Text) :
    fr.send (present req i v₁) body = fr.send (present req i v₂) body ↔ v₁ = v₂ := by
  refine ⟨fun h => ?_, fun h => by rw [h]⟩
  rw [send_present, send_present, List.append_cancel_left_eq, List.append_cancel_right_eq] at h
  exact headerLine_injective h

theorem take_send_present_eq_iff (v₁ v₂ : Text) (n : ℕ) :
    (fr.send (present req i v₁) body).take n = (fr.send (present req i v₂) body).take n ↔
      v₁ = v₂ ∨ n ≤ fr.agreement req i body v₁ v₂ := by
  rw [take_eq_take_iff_commonPrefix, send_present_eq_iff, send_present, send_present,
    commonPrefix_append, agreement]

end Framing

/-! ## What reaches the peer -/

theorem exists_parseHead {lib : NetHTTP} {rd rd' : Reader UInt8} {req : Request}
    (h : lib.readRequest rd = some (req, rd')) : ∃ lines, lib.parseHead lines = some req := by
  simp only [NetHTTP.readRequest, Option.bind_eq_bind, Option.bind_eq_some_iff, Option.some.injEq,
    Prod.mk.injEq] at h
  obtain ⟨⟨lines, rd''⟩, -, req', hreq', rfl, -⟩ := h
  exact ⟨lines, hreq'⟩

/-- The bytes that `handle` writes to the peer. -/
theorem peerBytes_handle (lib : NetHTTP) (out : Outcomes) (req : Request) (rd : Reader UInt8) :
    peerBytes (handle lib out req rd).1 =
      if out.dial (dialAddr "80" req.host) = false then []
      else
        let bytes := match (lib.scanBody req).read rd with
          | none => lib.writeCut req rd.contents
          | some (body, _) => lib.write req body
        (out.writePeer.map bytes.take).getD bytes := by
  unfold handle
  dsimp only
  split
  · rfl
  · cases (lib.scanBody req).read rd <;> cases out.writePeer <;>
      simp [peerBytes, Action.peerBytes]

theorem peerBytes_serve_plain {lib : NetHTTP} {s : HTTPServer} {out : Outcomes}
    {rd rd' : Reader UInt8} {req : Request} (hread : lib.readRequest rd = some (req, rd'))
    (hauth : s.authenticate req = .ok ()) (hplain : req.method ≠ ("CONNECT" : String).toList) :
    peerBytes (serve lib s out rd).1 = peerBytes (handle lib out req rd').1 := by
  rw [serve_plain hread hauth hplain]
  obtain ⟨actions, rd''⟩ := handle lib out req rd'
  cases rd'' with
  | none => rfl
  | some rd'' => exact (peerBytes_append _ _).trans (List.append_nil _)

/-- The write to the peer fails before the first byte in which the requests with two values
differ. -/
def CutOff {lib : NetHTTP} (std : Standard lib) (out : Outcomes) (req : Request) (i : ℕ)
    (v₁ v₂ : Text) (rd : Reader UInt8) : Prop :=
  ∃ n, out.writePeer = some n ∧
    match (lib.scanBody req).read rd with
    | none => n ≤ std.cut.agreement req i rd.contents v₁ v₂
    | some (body, _) => n ≤ std.whole.agreement req i body v₁ v₂

/-- **When the forwarded request does not depend on the proxy credentials.** Two servers accept two
plain requests that are equal except for the value of a Proxy-Authorization entry. -/
theorem upstream_eq_iff {lib : NetHTTP} (std : Standard lib) {s₁ s₂ : HTTPServer} {out : Outcomes}
    {req : Request} {i : ℕ} {v₁ v₂ : Text} {rd₁ rd₂ rd : Reader UInt8}
    (hplain : req.method ≠ ("CONNECT" : String).toList)
    (hread₁ : lib.readRequest rd₁ = some (present req i v₁, rd))
    (hread₂ : lib.readRequest rd₂ = some (present req i v₂, rd))
    (hauth₁ : s₁.authenticate (present req i v₁) = .ok ())
    (hauth₂ : s₂.authenticate (present req i v₂) = .ok ()) :
    peerBytes (serve lib s₁ out rd₁).1 = peerBytes (serve lib s₂ out rd₂).1 ↔
      out.dial (dialAddr "80" req.host) = false ∨ v₁ = v₂ ∨ CutOff std out req i v₁ v₂ rd := by
  obtain ⟨lines₁, hparse₁⟩ := exists_parseHead hread₁
  obtain ⟨lines₂, hparse₂⟩ := exists_parseHead hread₂
  have hscan (value : Text) : lib.scanBody (present req i value) = lib.scanBody req := by
    rw [std.scanBody_eq, withoutCredentials_present, ← std.scanBody_eq]
  rw [peerBytes_serve_plain hread₁ hauth₁ hplain, peerBytes_serve_plain hread₂ hauth₂ hplain,
    peerBytes_handle, peerBytes_handle, CutOff, hscan, hscan]
  change (if out.dial (dialAddr "80" req.host) = false then _ else _) =
    (if out.dial (dialAddr "80" req.host) = false then _ else _) ↔ _
  by_cases hdial : out.dial (dialAddr "80" req.host) = false
  · rw [if_pos hdial, if_pos hdial]
    exact iff_of_true rfl (.inl hdial)
  · rw [if_neg hdial, if_neg hdial, or_iff_right hdial]
    cases (lib.scanBody req).read rd with
    | none =>
      dsimp only
      rw [std.writeCut_eq lines₁ _ _ hparse₁, std.writeCut_eq lines₂ _ _ hparse₂]
      cases out.writePeer with
      | none => simpa using std.cut.send_present_eq_iff req i rd.contents v₁ v₂
      | some n => simpa using std.cut.take_send_present_eq_iff req i rd.contents v₁ v₂ n
    | some p =>
      dsimp only
      rw [std.write_eq lines₁ _ _ hparse₁, std.write_eq lines₂ _ _ hparse₂]
      cases out.writePeer with
      | none => simpa using std.whole.send_present_eq_iff req i p.1 v₁ v₂
      | some n => simpa using std.whole.take_send_present_eq_iff req i p.1 v₁ v₂ n

/-! ## An instance -/

/-- `hasToken`: one of the words of a value, in any case. -/
def hasToken (value token : Text) : Bool :=
  ((value.splitOnP fun c => c = ' ' ∨ c = ',' ∨ c = '\t').map toLower).contains token

/-- `httpguts.HeaderValuesContainsToken`: one of the comma-separated parts of the values. -/
def valuesContainToken (values : List Text) (token : Text) : Bool :=
  values.any fun value => ((value.splitOn ',').map (toLower ∘ trimSpace)).contains token

/-- `shouldClose`, by the version of the request and the values of its Connection entries. -/
def shouldClose (proto : Text) (conv : List Text) : Bool :=
  hasPrefix proto "HTTP/0." || valuesContainToken conv "close" ||
    (proto = ("HTTP/1.0" : String).toList && !valuesContainToken conv "keep-alive")

/-- The line of the user agent: an entry of the header takes the place of the default, and an empty
one leaves the line out. -/
def userAgentLine (entry : Option Text) : Bytes :=
  let userAgent : Text := entry.getD "Go-http-client/1.1"
  if userAgent = [] then [] else headerLine ("User-Agent", userAgent)

/-- `transferWriter.writeHeader`, for bodies with a Content-Length. -/
def transferLines (method : Text) (close : Bool) (connection : Text) (contentLength : ℕ) : Bytes :=
  (if close && !hasToken connection "close" then headerLine ("Connection", "close") else []) ++
    if 0 < contentLength ∨
        [("POST" : String).toList, ("PUT" : String).toList, ("PATCH" : String).toList].contains
          method then
      headerLine ("Content-Length", Nat.toDigits 10 contentLength)
    else []

/-- The lines that `Request.Write` sends before the entries of the header, for a target in origin
form. -/
def writeFirst (req : Request) : Bytes :=
  utf8 (req.method ++ ' ' :: req.target ++ (" HTTP/1.1\r\n" : String).toList) ++
    headerLine ("Host", req.host) ++
    userAgentLine (req.header.lookup ("User-Agent" : String).toList) ++
    transferLines req.method
      (shouldClose req.proto (valuesAt ("Connection" : String).toList req.header))
      (headerGet req.header "Connection")
      ((readNumeral 10 (headerGet req.header "Content-Length")).getD 0)

/-- The size of the buffer of a `bufio.Writer`. -/
def bufferSize : ℕ := 4096

/-- An implementation that sends a request as `net/http` does. If the body ends too early, what is
left of it in the buffer is not sent. -/
def standardHTTP : NetHTTP :=
  { NetHTTP.basic with
    write := fun req body => writeFirst req ++ writeSubset req.header ++ (utf8 ['\r', '\n'] ++ body)
    writeCut := fun req contents => writeFirst req ++ writeSubset req.header ++
      (utf8 ['\r', '\n'] ++ contents.take (contents.length / bufferSize * bufferSize)) }

theorem lookup_withoutCredentials {name : Text} (h : name ≠ proxyAuthHeaderKey)
    (header : List (Text × Text)) :
    (header.filter fun p => p.1 ≠ proxyAuthHeaderKey).lookup name = header.lookup name := by
  induction header with
  | nil => rfl
  | cons p header ih =>
    by_cases hp : p.1 = proxyAuthHeaderKey
    · rw [List.filter_cons_of_neg (by simpa using hp), ih,
        lookup_cons_of_ne _ _ (hp ▸ h)]
    · rw [List.filter_cons_of_pos (by simpa using hp), List.lookup_cons, List.lookup_cons, ih]

theorem valuesAt_withoutCredentials {name : Text} (h : name ≠ proxyAuthHeaderKey)
    (header : List (Text × Text)) :
    valuesAt name (header.filter fun p => p.1 ≠ proxyAuthHeaderKey) = valuesAt name header := by
  rw [valuesAt, List.filterMap_filter, valuesAt]
  refine List.filterMap_congr fun p _ => ?_
  by_cases hp : p.1 = name
  · rw [if_pos (by simpa [hp] using h)]
  · simp [hp]

theorem writeFirst_withoutCredentials (req : Request) :
    writeFirst (withoutCredentials req) = writeFirst req := by
  have hconnection : ("Connection" : String).toList ≠ proxyAuthHeaderKey := by decide
  have hlength : ("Content-Length" : String).toList ≠ proxyAuthHeaderKey := by decide
  have hagent : ("User-Agent" : String).toList ≠ proxyAuthHeaderKey := by decide
  simp only [writeFirst, headerGet, withoutCredentials, lookup_withoutCredentials hconnection,
    lookup_withoutCredentials hlength, lookup_withoutCredentials hagent,
    valuesAt_withoutCredentials hconnection]

/-- The implementation meets the assumptions. -/
def standard_standardHTTP : Standard standardHTTP where
  whole := ⟨fun req _ => writeFirst req, fun _ body => utf8 ['\r', '\n'] ++ body⟩
  cut := ⟨fun req _ => writeFirst req, fun _ contents => utf8 ['\r', '\n'] ++
    contents.take (contents.length / bufferSize * bufferSize)⟩
  write_eq _ req _ _ := by
    dsimp only [Framing.send]
    rw [writeFirst_withoutCredentials]
    rfl
  writeCut_eq _ req _ _ := by
    dsimp only [Framing.send]
    rw [writeFirst_withoutCredentials]
    rfl
  scanBody_eq req := by
    have hlength : ("Content-Length" : String).toList ≠ proxyAuthHeaderKey := by decide
    simp only [standardHTTP, NetHTTP.basic, withoutCredentials, headerGet,
      lookup_withoutCredentials hlength]

/-! ## Two users of one proxy -/

/-- A request for `a.example` without credentials. -/
def plainRequest : Request :=
  ⟨"GET", "/", "HTTP/1.1", "a.example", [("Host", "a.example"), ("Accept", "*/*")]⟩

/-- Its bytes with a Proxy-Authorization entry after the first line. -/
def plainBytes (value : Text) : Bytes :=
  utf8 (("GET / HTTP/1.1\r\nProxy-Authorization: " : String).toList ++ value ++
    ("\r\nHost: a.example\r\nAccept: */*\r\n\r\n" : String).toList)

/-- The value of one user, and what the server of the user reads. -/
def aliceValue : Text := "Basic YWxpY2U6c2VjcmV0"

def aliceServer : HTTPServer := .spawn (utf8 "alice") (utf8 "secret")

def aliceReader : Reader UInt8 := ⟨[], [plainBytes aliceValue]⟩

/-- The same for another user. -/
def bobValue : Text := "Basic Ym9iOmh1bnRlcjI="

def bobServer : HTTPServer := .spawn (utf8 "bob") (utf8 "hunter2")

def bobReader : Reader UInt8 := ⟨[], [plainBytes bobValue]⟩

/-- Both requests are read as they were meant and accepted by their servers. -/
theorem plainBytes_accepted :
    (standardHTTP.readRequest aliceReader = some (present plainRequest 0 aliceValue, ⟨[], []⟩) ∧
      aliceServer.authenticate (present plainRequest 0 aliceValue) = .ok ()) ∧
    standardHTTP.readRequest bobReader = some (present plainRequest 0 bobValue, ⟨[], []⟩) ∧
      bobServer.authenticate (present plainRequest 0 bobValue) = .ok () := by
  decide +kernel

/-- What is sent before the credentials of the two users differ. -/
def sentBeforeValue : Bytes :=
  utf8 "GET / HTTP/1.1\r\nHost: a.example\r\nUser-Agent: Go-http-client/1.1\r\n" ++
    utf8 "Accept: */*\r\nProxy-Authorization: Basic Y"

/-- The origin learns something of the credentials, unless the write fails so early. -/
theorem upstream_eq_iff_plainBytes :
    (peerBytes (serve standardHTTP aliceServer ⟨fun _ => true, true, some sentBeforeValue.length⟩
        aliceReader).1 =
      peerBytes (serve standardHTTP bobServer ⟨fun _ => true, true, some sentBeforeValue.length⟩
        bobReader).1) ∧
    peerBytes (serve standardHTTP aliceServer
        ⟨fun _ => true, true, some (sentBeforeValue.length + 1)⟩ aliceReader).1 ≠
      peerBytes (serve standardHTTP bobServer
        ⟨fun _ => true, true, some (sentBeforeValue.length + 1)⟩ bobReader).1 ∧
    peerBytes (serve standardHTTP aliceServer allSucceed aliceReader).1 ≠
      peerBytes (serve standardHTTP bobServer allSucceed bobReader).1 := by
  have hiff (out : Outcomes) : peerBytes (serve standardHTTP aliceServer out aliceReader).1 =
      peerBytes (serve standardHTTP bobServer out bobReader).1 ↔ _ :=
    upstream_eq_iff standard_standardHTTP (by decide) plainBytes_accepted.1.1
      plainBytes_accepted.2.1 plainBytes_accepted.1.2 plainBytes_accepted.2.2
  have hne : aliceValue ≠ bobValue := by decide
  have hbody : (standardHTTP.scanBody plainRequest).read ⟨[], []⟩ = some ([], ⟨[], []⟩) := by
    decide +kernel
  have hagree : standard_standardHTTP.whole.agreement plainRequest 0 [] aliceValue bobValue =
      sentBeforeValue.length := by
    decide +kernel
  simp [hiff, CutOff, hbody, hagree, hne, allSucceed]

/-- Requests of two users reach the peer as different bytes, each with its credentials. -/
theorem credentials_reach_origin :
    aliceServer.authRequired = true ∧ bobServer.authRequired = true ∧
      aliceServer.authenticate (present plainRequest 0 aliceValue) = .ok () ∧
      bobServer.authenticate (present plainRequest 0 bobValue) = .ok () ∧
      peerBytes (handle standardHTTP allSucceed (present plainRequest 0 aliceValue) ⟨[], []⟩).1 =
        utf8 "GET / HTTP/1.1\r\nHost: a.example\r\nUser-Agent: Go-http-client/1.1\r\n" ++
          utf8 "Accept: */*\r\nProxy-Authorization: Basic YWxpY2U6c2VjcmV0\r\n\r\n" ∧
      peerBytes (handle standardHTTP allSucceed (present plainRequest 0 aliceValue) ⟨[], []⟩).1 ≠
        peerBytes
          (handle standardHTTP allSucceed (present plainRequest 0 bobValue) ⟨[], []⟩).1 := by
  refine ⟨by decide, by decide, plainBytes_accepted.1.2, plainBytes_accepted.2.2, ?_, ?_⟩
  · decide +kernel
  · rw [peerBytes_handle, peerBytes_handle]
    decide +kernel

end WireProxy.Http
