import WireProxy.Config.Parse

/-!
# References inside a file

What stands in a file is not yet what `Key.String` returns: a text `%(name)s` refers to another key,
of the same section or else of the root of the same file, and is replaced by its text.

* `expandReferences` is the loop of `Key.String`, and `rootNames` are the names that it looks up in
  the root. `expandReferences_congr`: nothing else of the root matters.
* `File.strings` gives the texts of a file that was written with references, and
  `Host.interpolated` is the host whose files are read so.
-/

namespace WireProxy.Config

open Text Go

/-! ## The loop of `Key.String` -/

/-- The name in a reference at the beginning of a text, which the pattern `%\(([^)]+)\)s`
matches. -/
def referenceAt : Text → Option Text
  | '%' :: '(' :: t =>
    let name := t.takeWhile (· ≠ ')')
    if name ≠ [] ∧ hasPrefix (t.drop name.length) ")s" then some name else none
  | _ => none

/-- The name in the first reference of a text. -/
def findReference : Text → Option Text
  | [] => none
  | c :: t => (referenceAt (c :: t)).or (findReference t)

/-- A reference. -/
def reference (name : Text) : Text :=
  (("%(" : String) : Text) ++ name ++ ((")s" : String) : Text)

section Expansion

variable (own root : Text → Option Text)

/-- Replace references, one name after the other. A name is looked up in the section and then in the
root, and one that is in neither ends the loop. -/
def expandReferences : ℕ → Text → Text
  | 0, t => t
  | n + 1, t =>
    match findReference t with
    | none => t
    | some name =>
      match (own name).or (root name) with
      | none => t
      | some v => expandReferences n (replaceAll (reference name) v t)

/-- The names that are looked up in the root. -/
def rootNames : ℕ → Text → List Text
  | 0, _ => []
  | n + 1, t =>
    match findReference t with
    | none => []
    | some name =>
      match own name with
      | some v => rootNames n (replaceAll (reference name) v t)
      | none => name :: ((root name).map fun v =>
          rootNames n (replaceAll (reference name) v t)).getD []

variable {own root}

theorem expandReferences_of_plain {t : Text} (h : findReference t = none) (n : ℕ) :
    expandReferences own root n t = t := by
  cases n with
  | zero => rfl
  | succ n => rw [expandReferences, h]

/-- **Only the names that are looked up matter.** -/
theorem expandReferences_congr {root' : Text → Option Text} {n : ℕ} {t : Text}
    (h : ∀ name ∈ rootNames own root n t, root' name = root name) :
    expandReferences own root' n t = expandReferences own root n t := by
  induction n generalizing t with
  | zero => rfl
  | succ n ih =>
    rw [expandReferences, expandReferences]
    rw [rootNames] at h
    cases hfind : findReference t with
    | none => rfl
    | some name =>
      rw [hfind] at h
      dsimp only at h ⊢
      cases hown : own name with
      | some v =>
        rw [hown] at h
        simpa only [Option.some_or] using ih h
      | none =>
        rw [hown, List.forall_mem_cons] at h
        obtain ⟨hname, hrest⟩ := h
        rw [Option.none_or, Option.none_or, hname]
        cases hroot : root name with
        | none => rfl
        | some v =>
          rw [hroot] at hrest
          exact ih hrest

end Expansion

/-! ## The texts of a file -/

/-- The two ways to read a key. -/
inductive Accessor
  /-- `Section.Key`, which creates a missing key with an empty text. -/
  | key
  /-- `Section.GetKey`. -/
  | getKey
  deriving DecidableEq

/-- The keys of each kind of section in the order in which they are read. The AmneziaWG parameters
come after the other keys of an interface, by `Section.GetKey`. -/
def readOrder : List (Text × List (Text × Accessor)) :=
  [("interface", [("address", .key), ("privatekey", .key), ("dns", .key), ("mtu", .getKey),
      ("listenport", .getKey), ("checkalive", .key), ("checkaliveinterval", .getKey)]),
    ("peer", [("publickey", .key), ("presharedkey", .getKey), ("endpoint", .getKey),
      ("persistentkeepalive", .getKey), ("allowedips", .key)]),
    ("tcpclienttunnel", [("bindaddress", .key), ("target", .key)]),
    ("stdiotunnel", [("target", .key)]),
    ("tcpservertunnel", [("listenport", .key), ("target", .key)]),
    ("socks5", [("bindaddress", .key), ("username", .key), ("password", .key)]),
    ("http", [("bindaddress", .key), ("username", .key), ("password", .key), ("certfile", .key),
      ("keyfile", .key)]),
    ("resolve", [("resolvestrategy", .key)]),
    ("udpproxytunnel", [("bindaddress", .key), ("target", .key), ("inactivitytimeout", .getKey)])]

/-- The keys that a section has, whether they were written or not, when one of its keys is read. -/
def createdBefore (kind self : Text) : List Text :=
  (((readOrder.lookup kind).getD []).takeWhile fun k => k.1 ≠ self).filterMap fun k =>
    if k.2 = .key then some k.1 else none

section Texts

variable (lower : Text → Text) (created : Text → List Text)

/-- The text that a reference in the line of a key finds in the section of the key, which is not
that of the key itself. -/
def Section.ownText (s : Section) (self name : Text) : Option Text :=
  if lower name = self then none
  else (s.lookup (lower name)).or
    (if (created self).contains (lower name) then some [] else none)

/-- The text that a reference finds in the root. -/
def Section.rootText (root : Section) (name : Text) : Option Text := root.lookup (lower name)

/-- The texts of a section as `Key.String` returns them, after at most 99 replacements. -/
def Section.strings (s root : Section) : Section :=
  s.map fun line => (line.1,
    expandReferences (s.ownText lower created line.1) (root.rootText lower) 99 line.2)

/-- The names that the texts of a section look up in the root. -/
def Section.rootNames (s root : Section) : List Text :=
  s.flatMap fun line =>
    Config.rootNames (s.ownText lower created line.1) (root.rootText lower) 99 line.2

variable {lower created} {root : Section}

theorem Section.getKey_strings (s : Section) (name : Text) :
    (s.strings lower created root).getKey name =
      (s.getKey name).map (expandReferences (s.ownText lower created (toLower name))
        (root.rootText lower) 99) := by
  have hlookup := lookup_map_value s (k := toLower name) fun self t =>
    expandReferences (s.ownText lower created self) (root.rootText lower) 99 t
  rw [Section.getKey, Section.strings, hlookup, Section.getKey]

theorem Section.strings_congr {s root' : Section}
    (h : ∀ name ∈ s.rootNames lower created root, root'.rootText lower name =
      root.rootText lower name) :
    s.strings lower created root' = s.strings lower created root := by
  refine List.map_congr_left fun line hline => ?_
  rw [expandReferences_congr fun name hname => h name (List.mem_flatMap.2 ⟨line, hline, hname⟩)]

/-- Every text is without references. -/
def Section.Plain (s : Section) : Prop := ∀ line ∈ s, findReference line.2 = none

theorem Section.Plain.strings_eq {s : Section} (h : s.Plain) :
    s.strings lower created root = s := by
  have hline : ∀ line ∈ s, (line.1, expandReferences (s.ownText lower created line.1)
      (root.rootText lower) 99 line.2) = line := by
    intro line hmem
    rw [expandReferences_of_plain (h line hmem)]
  rw [Section.strings, List.map_congr_left hline, List.map_id']

end Texts

/-- The file with the texts that `Key.String` returns. Nothing is created in the root. -/
def File.strings (lower : Text → Text) (f : File) : File where
  root := f.root.strings lower (fun _ => []) f.root
  sections := f.sections.map fun p => (p.1, p.2.strings lower (createdBefore p.1) f.root)

/-- Every text of a file is without references. -/
structure File.Plain (f : File) : Prop where
  root : f.root.Plain
  sections : ∀ p ∈ f.sections, p.2.Plain

theorem File.Plain.strings_eq {f : File} (h : f.Plain) (lower : Text → Text) :
    f.strings lower = f := by
  have hsection : ∀ p ∈ f.sections,
      (p.1, p.2.strings lower (createdBefore p.1) f.root) = p := fun p hp => by
    rw [(h.sections p hp).strings_eq]
  rw [File.strings, h.root.strings_eq, List.map_congr_left hsection, List.map_id']

/-- The host whose files were written with references. -/
def Host.interpolated (host : Host) : Host :=
  { host with loadSources := fun path => (host.loadSources path).map (File.strings host.toLower) }

theorem loadSources_interpolated {host : Host} {path : Text} {f : File}
    (h : host.loadSources path = .ok f) :
    host.interpolated.loadSources path = .ok (f.strings host.toLower) :=
  congrArg (Except.map (File.strings host.toLower)) h

end WireProxy.Config
