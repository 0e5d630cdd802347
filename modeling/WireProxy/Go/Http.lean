import WireProxy.Foundations.Stream.Buffered
import WireProxy.Foundations.Text.Base64
import WireProxy.Go.Strings

/-!
# HTTP requests on a connection

The part of `net/http` and `bufio` that the proxy relies on. A request is read through a buffered
reader: the lines of its head up to the empty one, and then, by who asks for it, its body.

* `headScanner` recognises the head of a request in the bytes of a stream. It is read with
  `Scanner.read`, which takes another chunk from the connection only while the head is incomplete.
* `NetHTTP` collects the functions of the package that are not modelled here: what the lines of a
  head mean, where a body ends, and what `Request.Write` sends.
* `NetHTTP.basic` is an instance, for requests without continuation lines, whose bodies have a
  Content-Length.
-/

namespace WireProxy.Go.Http

open Text Buffered

/-- `http.Request`. The names of the header are in canonical form. -/
structure Request where
  method : Text
  target : Text
  proto : Text
  host : Text
  header : List (Text × Text)
  deriving DecidableEq

/-- `http.Response`, as far as the proxy fills it. -/
structure Response where
  statusCode : ℕ
  status : Text
  proto : Text
  header : List (Text × Text)
  body : Text
  deriving DecidableEq

/-- `Header.Get` with a canonical name: the first value, or the empty text. -/
def headerGet (header : List (Text × Text)) (name : Text) : Text := (header.lookup name).getD []

/-- `http.StatusText`, for the codes that the proxy answers with. -/
def statusText : ℕ → Text
  | 401 => "Unauthorized"
  | 406 => "Not Acceptable"
  | 407 => "Proxy Authentication Required"
  | 411 => "Length Required"
  | _ => []

/-! ## The head of a request -/

/-- A line without the carriage return at its end. -/
def dropCR (line : Bytes) : Bytes := if line.getLast? = some 13 then line.dropLast else line

/-- Scan the lines of a head, of which `lines` and the beginning of another one have been seen. The
empty line that ends the head is not the first one. -/
def scanHead (lines : List Bytes) (line : Bytes) : Bytes → Option (List Bytes × Bytes)
  | [] => none
  | b :: bs =>
    if b = 10 then
      if dropCR line = [] ∧ lines ≠ [] then some (lines, bs)
      else scanHead (lines ++ [dropCR line]) [] bs
    else scanHead lines (line ++ [b]) bs

theorem scanHead_suffix {lines : List Bytes} {line l : Bytes} {ls : List Bytes} {rest : Bytes}
    (h : scanHead lines line l = some (ls, rest)) : rest <:+ l := by
  induction l generalizing lines line with
  | nil => cases h
  | cons b bs ih =>
    rw [scanHead] at h
    split at h
    · split at h
      · cases h
        exact List.suffix_cons b _
      · exact (ih h).trans (List.suffix_cons b bs)
    · exact (ih h).trans (List.suffix_cons b bs)

theorem scanHead_append {lines : List Bytes} {line l : Bytes} {ls : List Bytes} {rest : Bytes}
    (h : scanHead lines line l = some (ls, rest)) (m : Bytes) :
    scanHead lines line (l ++ m) = some (ls, rest ++ m) := by
  induction l generalizing lines line with
  | nil => cases h
  | cons b bs ih =>
    rw [scanHead] at h
    rw [List.cons_append, scanHead]
    split at h
    · split at h
      · cases h
        simp_all
      · simp_all
    · simp_all

/-- The head of a request: its lines, without the empty one. -/
def headScanner : Scanner UInt8 (List Bytes) where
  scan := scanHead [] []
  suffix := scanHead_suffix
  append := scanHead_append

/-! ## The library -/

/-- What is assumed of `net/http`. -/
structure NetHTTP where
  /-- The request that the lines of a head describe. -/
  parseHead : List Bytes → Option Request
  /-- The body of a request, which follows its head. -/
  scanBody : Request → Scanner UInt8 Bytes
  /-- What `Request.Write` sends for a request with a given body. -/
  write : Request → Bytes → Bytes
  /-- What `Request.Write` has sent when the body ends too early. -/
  writeCut : Request → Bytes → Bytes

/-- `http.ReadRequest`, which leaves the body to be read later. -/
def NetHTTP.readRequest (lib : NetHTTP) (rd : Reader UInt8) : Option (Request × Reader UInt8) := do
  let (lines, rd) ← headScanner.read rd
  let req ← lib.parseHead lines
  some (req, rd)

/-! ## An instance -/

/-- A text of which each character is a byte. -/
def ofLatin (l : Bytes) : Text := l.map fun b => Char.ofNat b.toNat

/-- A header line. -/
def parseHeaderLine (l : Bytes) : Option (Text × Text) :=
  (cut ':' (ofLatin l)).map fun p => (p.1, trimSpace p.2)

/-- The lines of a head. -/
def parseLines : List Bytes → Option Request
  | [] => none
  | l :: ls =>
    match (ofLatin l).splitOn ' ' with
    | [method, target, proto] => do
      let header ← ls.mapM parseHeaderLine
      some ⟨method, target, proto,
        if method = ("CONNECT" : String).toList then target else headerGet header "Host", header⟩
    | _ => none

/-- A request as it is sent. -/
def writeRequest (req : Request) (body : Bytes) : Bytes :=
  utf8 (req.method ++ ' ' :: req.target ++ ' ' :: req.proto ++ ['\r', '\n']) ++
    req.header.flatMap (fun p => utf8 (p.1 ++ ':' :: ' ' :: p.2 ++ ['\r', '\n'])) ++
    utf8 ['\r', '\n'] ++ body

/-- A simple implementation. -/
def NetHTTP.basic : NetHTTP where
  parseHead := parseLines
  scanBody req := .take UInt8 ((readNumeral 10 (headerGet req.header "Content-Length")).getD 0)
  write := writeRequest
  writeCut := writeRequest

end WireProxy.Go.Http
