import WireProxy.Foundations.Control.Except
import WireProxy.Foundations.Text.Base64
import WireProxy.Go.Net
import WireProxy.Go.Strconv

/-!
# Configuration files as the program reads them

A file loaded with the options of `ParseConfig`: names are case-insensitive, a section may occur
several times, and a repeated key keeps its first text as its value and the later ones as shadow
values.

* `Section`, `File` and the accessors `Section.getKey`, `Section.key`, `Section.valueWithShadows`
  and `File.sectionsByName`.
* `Host` collects what the program takes from its surroundings: the environment, name resolution,
  the file loader, and the few library functions that are not modelled here.
* `parseString` reads a key whose text may refer to an environment variable, `keyInt` is
  `Key.Int`.
-/

namespace WireProxy.Config

open Text Go

/-- The errors of the program and of the libraries it calls. -/
inductive Err
  /-- `errors.New`. -/
  | msg (text : Text)
  /-- A `*strconv.NumError`. -/
  | num (func input : Text) (reason : NumErr)
  /-- A `*net.AddrError`. -/
  | addr (e : AddrError)
  /-- The errors of `netip.ParseAddr` and `netip.ParsePrefix` on an input. -/
  | parseAddr (input : Text)
  /-- An error from the surroundings. -/
  | external (text : Text)
  /-- `fmt.Errorf` with a context and a wrapped error. -/
  | wrap (context : Text) (cause : Err)
  deriving DecidableEq

/-! ## Sections and files -/

/-- A section: its lines in file order, as pairs of a lower-case key name and a text. The text is
the one that `Key.String` returns, with references `%(name)s` to other keys already replaced. -/
abbrev Section := List (Text × Text)

namespace Section

/-- `Section.GetKey` and the key's `String`: the text of the first line of that name. -/
def getKey (s : Section) (name : Text) : Option Text := List.lookup (toLower name) s

/-- `Section.Key` and the key's `String`. A missing key is created with an empty text; it is not
looked up again by `getKey`, since no key is read by both accessors. -/
def key (s : Section) (name : Text) : Text := (s.getKey name).getD []

/-- `Key.ValueWithShadows`: the texts of all lines of a name. -/
def valueWithShadows (s : Section) (name : Text) : List Text := valuesAt (toLower name) s

theorem getKey_eq_head? (s : Section) (name : Text) :
    s.getKey name = (s.valueWithShadows name).head? := lookup_eq_head?_valuesAt s

theorem mem_of_getKey {s : Section} {name t : Text} (h : s.getKey name = some t) :
    (toLower name, t) ∈ s := by
  induction s with
  | nil => cases h
  | cons l s ih =>
    rw [getKey, List.lookup] at h
    split at h
    · rename_i heq
      rw [eq_of_beq heq, ← Option.some.inj h]
      exact List.mem_cons_self
    · exact List.mem_cons_of_mem _ (ih h)

end Section

/-- A loaded file: the lines before the first section header, and the sections with their
lower-case names in file order. -/
structure File where
  root : Section
  sections : List (Text × Section)
  deriving DecidableEq

/-- `File.SectionsByName`, which fails iff there is no such section. -/
def File.sectionsByName (f : File) (name : Text) : List Section :=
  f.sections.filterMap fun p => if p.1 = toLower name then some p.2 else none

/-! ## The surroundings -/

/-- A `net.TCPAddr`. -/
structure TCPAddr where
  ip : Bytes
  port : ℕ
  zone : Text
  deriving DecidableEq

/-- What the program takes from its surroundings. -/
structure Host where
  /-- `os.LookupEnv`. -/
  lookupEnv : Text → Option Text
  /-- `unicode.ToLower`, applied by `strings.ToLower` to each character. -/
  unicodeToLower : Char → Char
  /-- `net.ResolveIPAddr("ip", host)` and the address's `String`. -/
  resolveIPAddr : Text → Except Err Text
  /-- `net.ResolveTCPAddr("tcp", addr)`. -/
  resolveTCPAddr : Text → Except Err TCPAddr
  /-- `ini.LoadSources` with the options of `ParseConfig`, with the texts of `Key.String`. -/
  loadSources : Text → Except Err File
  /-- `Key.Bool`. -/
  keyBool : Text → Except Err Bool
  unicodeToLower_eq_newline : ∀ c, unicodeToLower c = '\n' → c = '\n'
  newline_not_mem_resolveIPAddr :
    ∀ host ip, '\n' ∉ host → resolveIPAddr host = .ok ip → '\n' ∉ ip
  keyBool_true : keyBool "true" = .ok true
  keyBool_false : keyBool "false" = .ok false

/-- `strings.ToLower`. -/
def Host.toLower (host : Host) (t : Text) : Text := t.map host.unicodeToLower

theorem Host.newline_not_mem_toLower (host : Host) {t : Text} (h : '\n' ∉ t) :
    '\n' ∉ host.toLower t := by
  intro hm
  obtain ⟨c, hc, hl⟩ := List.mem_map.1 hm
  exact h (host.unicodeToLower_eq_newline c hl ▸ hc)

theorem toLower_eq_newline {c : Char} (h : c.toLower = '\n') : c = '\n' := by
  unfold Char.toLower at h
  split at h
  · rename_i hup
    have hv := congrArg Char.val h
    simp only [UInt32.le_iff_toNat_le, ge_iff_le] at hup
    have hn := congrArg UInt32.toNat hv
    simp at hn hup
    omega
  · exact h

/-- A host without environment and files, where every host name is its own address. -/
def Host.bare : Host where
  lookupEnv _ := none
  unicodeToLower := Char.toLower
  resolveIPAddr name := .ok name
  resolveTCPAddr addr := .error (.external addr)
  loadSources path := .error (.external path)
  keyBool t :=
    if t = ("true" : String).toList then .ok true
    else if t = ("false" : String).toList then .ok false
    else .error (.external t)
  unicodeToLower_eq_newline _ h := toLower_eq_newline h
  newline_not_mem_resolveIPAddr _ _ hhost h := Except.ok.inj h ▸ hhost
  keyBool_true := by decide
  keyBool_false := by decide

/-! ## Reading a key -/

/-- The error text of a reference to a variable that is not set. -/
def unsetMessage (keyName value : Text) : Text :=
  keyName ++ ((" references unset environment variable " : String) : Text) ++ value

/-- The value that a text stands for: the text itself, the text without its first dollar sign if
it begins with two of them, or the variable that it names after a single one. -/
def resolveText (host : Host) (keyName value : Text) : Except Text Text :=
  if hasPrefix value "$" then
    if hasPrefix value "$$" then .ok (replaceFirst "$$" "$" value)
    else match host.lookupEnv (trimPrefix value "$") with
      | none => .error (unsetMessage keyName value)
      | some v => .ok v
  else .ok value

/-- `parseString`, with the error's text. The branch for a nil key is left out, since
`Section.Key` returns a key for every name. -/
def parseString (host : Host) (s : Section) (keyName : Text) : Except Text Text :=
  resolveText host keyName (s.key (toLower keyName))

theorem parseString_eq_resolveText (host : Host) (s : Section) (keyName : Text) :
    parseString host s keyName =
      resolveText host keyName ((s.valueWithShadows keyName).head?.getD []) := by
  rw [parseString, Section.key, Section.getKey_eq_head?, Section.valueWithShadows, toLower_toLower]
  rfl

theorem eq_unsetMessage_of_resolveText {host : Host} {keyName value msg : Text}
    (h : resolveText host keyName value = .error msg) : msg = unsetMessage keyName value := by
  unfold resolveText at h
  split at h
  · split at h
    · cases h
    · split at h
      · exact (Except.error.inj h).symm
      · cases h
  · cases h

/-- `Key.Int`: `strconv.ParseInt(s, 0, 64)`, converted to `int`. -/
def keyInt {w : IntSize} (t : Text) : Except Err (GoInt w) :=
  match parseInt0 t with
  | .error e => .error (.num "ParseInt" t e)
  | .ok v => .ok (GoInt.ofInt v)

theorem keyInt_eq_ok_iff {w : IntSize} {t : Text} {x : GoInt w} :
    keyInt t = .ok x ↔ ∃ v, parseInt0 t = .ok v ∧ GoInt.ofInt v = x := by
  unfold keyInt
  cases parseInt0 t <;> simp

/-- **A printed integer is read back.** -/
theorem keyInt_format {w : IntSize} (x : GoInt w) : keyInt x.format = .ok x := by
  obtain ⟨hlo, hhi⟩ := x.toInt_bounds
  rw [keyInt, GoInt.format, parseInt0_decimal hlo hhi]
  exact congrArg Except.ok (GoInt.ofInt_toInt x)

/-- `encodeBase64ToHex`. -/
def encodeBase64ToHex (key : Text) : Except Err Text :=
  match decodeBase64 key with
  | none => .error (.msg ((("invalid base64 string: " : String) : Text) ++ key))
  | some decoded =>
    if decoded.length ≠ 32 then .error (.msg ((("key should be 32 bytes: " : String) : Text) ++ key))
    else .ok (encodeHex decoded)

theorem encodeBase64ToHex_eq_ok {key hex : Text} (h : encodeBase64ToHex key = .ok hex) :
    ∃ bytes : Bytes, decodeBase64 key = some bytes ∧ bytes.length = 32 ∧ hex = encodeHex bytes := by
  unfold encodeBase64ToHex at h
  split at h
  · cases h
  · rename_i decoded hd
    split at h
    · cases h
    · rename_i hlen
      exact ⟨decoded, hd, not_not.1 hlen, (Except.ok.inj h).symm⟩

theorem encodeBase64ToHex_encodeBase64 {bytes : Bytes} (h : bytes.length = 32) :
    encodeBase64ToHex (encodeBase64 bytes) = .ok (encodeHex bytes) := by
  rw [encodeBase64ToHex, decodeBase64_encodeBase64]
  exact if_neg (not_not.2 h)

end WireProxy.Config
