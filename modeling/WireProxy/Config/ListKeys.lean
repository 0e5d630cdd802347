import WireProxy.Config.Parse

/-!
# Keys with a list of addresses

`AllowedIPs`, `Address` and `DNS` hold comma-separated lists, and a file may write such a key on
several lines. The accessor that the parsers use returns the text of the first line only, so later
lines are read by none of them.

* `allValues` is the list that the lines of a key give together, and `ReadsAllLines` that a parser
  returned it, up to exact duplicates.
* `parseListKey_readsAllLines_iff` says when the parsers do: if the first line does not parse, or
  if the later lines list only what the first one does.
-/

namespace WireProxy.Config

open Text Go Netip Awg Control

/-! ## What the lines of a key say -/

section Lines

variable {β : Type} (host : Host) (keyName : Text) (parse : Text → Except Err β)

/-- The values of a line, after the reference that it may be has been resolved. -/
def lineValues (line : Text) : Option (List β) :=
  match resolveText host keyName line with
  | .error _ => none
  | .ok t => ((pieces t).mapM parse).toOption

/-- The values of all lines, in order. -/
def allValues (lines : List Text) : Option (List β) :=
  (lines.mapM (lineValues host keyName parse)).map List.flatten

/-- The result is the list `all`, up to duplicates, and an error iff there is no such list. -/
def ReadsAllLines [BEq β] (result : Except Err (List β)) (all : Option (List β)) : Prop :=
  ((∃ e, result = .error e) ↔ all = none) ∧
    ∀ vs, result = .ok vs → ∃ vs', all = some vs' ∧ vs.eraseDups = vs'.eraseDups

/-- The line refers to a variable that is not set, and its text holds the words by which the
parsers recognise an empty key. -/
def LooksEmpty (line : Text) : Prop :=
  (∃ msg, resolveText host keyName line = .error msg) ∧ contains line "should not be empty"

/-- The first line says all there is: it does not parse, or the later lines list only values that
it lists. -/
def FirstLineSuffices : List Text → Prop
  | [] => True
  | first :: later =>
    (lineValues host keyName parse first = none ∧ ¬ LooksEmpty host keyName first) ∨
      ∃ vs, lineValues host keyName parse first = some vs ∧
        ∀ line ∈ later, ∃ vs', lineValues host keyName parse line = some vs' ∧ vs' ⊆ vs

end Lines

/-! ## Lists up to duplicates -/

theorem eraseDups_eq_nil_iff {β : Type} [BEq β] [LawfulBEq β] {l : List β} :
    l.eraseDups = [] ↔ l = [] := by
  cases l with
  | nil => simp
  | cons a l => simp [List.eraseDups_cons]

theorem eraseDups_append_eq_iff {β : Type} [BEq β] [LawfulBEq β] {l m : List β} :
    l.eraseDups = (l ++ m).eraseDups ↔ m ⊆ l := by
  rw [List.eraseDups_append, List.self_eq_append_right, eraseDups_eq_nil_iff, List.removeAll,
    List.filter_eq_nil_iff]
  simp [List.subset_def]

/-- A list of lines has values among `vs` iff each line has. -/
theorem exists_mapM_flatten_subset_iff {α β : Type} {f : α → Option (List β)} {vs : List β}
    {l : List α} :
    (∃ wss, l.mapM f = some wss ∧ wss.flatten ⊆ vs) ↔ ∀ a ∈ l, ∃ ws, f a = some ws ∧ ws ⊆ vs := by
  induction l with
  | nil => simp
  | cons a l ih =>
    rw [List.forall_mem_cons, ← ih]
    constructor
    · rintro ⟨wss, hwss, hsub⟩
      simp only [List.mapM_cons, Option.bind_eq_bind, Option.bind_eq_some_iff, Option.pure_def,
        Option.some.injEq] at hwss
      obtain ⟨ws, hws, wss', hwss', rfl⟩ := hwss
      rw [List.flatten_cons, List.append_subset] at hsub
      exact ⟨⟨ws, hws, hsub.1⟩, wss', hwss', hsub.2⟩
    · rintro ⟨⟨ws, hws, hsub⟩, wss, hwss, hsub'⟩
      refine ⟨ws :: wss, by simp [List.mapM_cons, hws, hwss], ?_⟩
      rw [List.flatten_cons, List.append_subset]
      exact ⟨hsub, hsub'⟩

/-! ## What the parsers read -/

section Parsers

variable {β : Type} {host : Host} {keyName : Text} {parse : Text → Except Err β}

theorem allValues_cons (first : Text) (later : List Text) :
    allValues host keyName parse (first :: later) =
      (lineValues host keyName parse first).bind fun vs =>
        (later.mapM (lineValues host keyName parse)).map fun wss => vs ++ wss.flatten := by
  rw [allValues, List.mapM_cons]
  cases lineValues host keyName parse first with
  | none => rfl
  | some vs => cases later.mapM (lineValues host keyName parse) <;> rfl

variable [BEq β]

theorem readsAllLines_error_iff {e : Err} {all : Option (List β)} :
    ReadsAllLines (.error e) all ↔ all = none := by
  simp [ReadsAllLines]

theorem readsAllLines_ok_iff {vs : List β} {all : Option (List β)} :
    ReadsAllLines (.ok vs) all ↔ ∃ vs', all = some vs' ∧ vs.eraseDups = vs'.eraseDups := by
  cases all <;> simp [ReadsAllLines]

/-- The result on a first line whose reference cannot be resolved: an empty list if the line looks
empty, an error otherwise. -/
theorem readsAllLines_iff_of_unresolved {first msg : Text} {later : List Text}
    (hres : resolveText host keyName first = .error msg) (result : Except Err (List β))
    (hresult : if contains first "should not be empty" then result = .ok []
      else ∃ e, result = .error e) :
    ReadsAllLines result (allValues host keyName parse (first :: later)) ↔
      FirstLineSuffices host keyName parse (first :: later) := by
  have hnone : lineValues host keyName parse first = none := by rw [lineValues, hres]
  have hall : allValues host keyName parse (first :: later) = none := by
    rw [allValues_cons, hnone]
    rfl
  have hlooks : LooksEmpty host keyName first ↔ contains first "should not be empty" := by
    simp [LooksEmpty, hres]
  simp only [FirstLineSuffices, hall, hnone, hlooks, true_and, reduceCtorEq, false_and,
    exists_false, or_false]
  split at hresult
  · rename_i hc
    subst hresult
    exact iff_of_false (fun h => by simp [readsAllLines_ok_iff] at h) (not_not.2 hc)
  · rename_i hc
    obtain ⟨e, rfl⟩ := hresult
    exact iff_of_true (readsAllLines_error_iff.2 rfl) hc

variable [LawfulBEq β]

/-- A first line that parses is all that is read. -/
theorem readsAllLines_cons_iff {first : Text} {later : List Text} {vs : List β}
    (h : lineValues host keyName parse first = some vs) :
    ReadsAllLines (.ok vs) (allValues host keyName parse (first :: later)) ↔
      ∀ line ∈ later, ∃ vs', lineValues host keyName parse line = some vs' ∧ vs' ⊆ vs := by
  rw [readsAllLines_ok_iff, allValues_cons, h, Option.bind_some, ← exists_mapM_flatten_subset_iff]
  simp only [Option.map_eq_some_iff]
  constructor
  · rintro ⟨_, ⟨wss, hwss, rfl⟩, heq⟩
    exact ⟨wss, hwss, eraseDups_append_eq_iff.1 heq⟩
  · rintro ⟨wss, hwss, hsub⟩
    exact ⟨_, ⟨wss, hwss, rfl⟩, eraseDups_append_eq_iff.2 hsub⟩

/-- The result on a first line that resolves to the text `t`: the values of its pieces. -/
theorem readsAllLines_iff_of_resolved {first t : Text} {later : List Text}
    (hres : resolveText host keyName first = .ok t) :
    ReadsAllLines ((pieces t).mapM parse) (allValues host keyName parse (first :: later)) ↔
      FirstLineSuffices host keyName parse (first :: later) := by
  have hnot : ¬ LooksEmpty host keyName first := by simp [LooksEmpty, hres]
  rw [FirstLineSuffices]
  cases hm : (pieces t).mapM parse with
  | error e =>
    have hnone : lineValues host keyName parse first = none := by
      simp [lineValues, hres, hm, Except.toOption]
    simp [readsAllLines_error_iff, allValues_cons, hnone, hnot]
  | ok vs =>
    have hsome : lineValues host keyName parse first = some vs := by
      simp [lineValues, hres, hm, Except.toOption]
    rw [readsAllLines_cons_iff hsome]
    simp [hsome]

/-- **When a list key is read with all its lines.** The hypothesis says that the words by which an
empty key is recognised do not begin in the part of the message before the key's text. -/
theorem parseListKey_readsAllLines_iff (s : Section)
    (hmsg : ∀ line, contains (unsetMessage keyName line) "should not be empty" =
      contains line "should not be empty") :
    ReadsAllLines (parseListKey host s keyName parse)
        (allValues host keyName parse (s.valueWithShadows keyName)) ↔
      FirstLineSuffices host keyName parse (s.valueWithShadows keyName) := by
  rw [parseListKey, parseString_eq_resolveText]
  cases s.valueWithShadows keyName with
  | nil =>
    have hempty : resolveText host keyName [] = .ok [] := rfl
    simp only [List.head?_nil, Option.getD_none, hempty, FirstLineSuffices, iff_true]
    exact readsAllLines_ok_iff.2 ⟨[], rfl, rfl⟩
  | cons first later =>
    simp only [List.head?_cons, Option.getD_some]
    cases hres : resolveText host keyName first with
    | error msg =>
      refine readsAllLines_iff_of_unresolved hres _ ?_
      obtain rfl := eq_unsetMessage_of_resolveText hres
      simp only [hmsg]
      split
      · rfl
      · exact ⟨_, rfl⟩
    | ok t =>
      simp only [parsePieces_splitOn]
      exact readsAllLines_iff_of_resolved hres

/-- The message of an unset reference holds the words of an empty key only if the key's text does,
for the keys whose name and the text after it have no beginning of these words. -/
theorem contains_unsetMessage
    (h : NoneBegins (keyName ++ ((" references unset environment variable " : String) : Text))
      "should not be empty") (line : Text) :
    contains (unsetMessage keyName line) "should not be empty" =
      contains line "should not be empty" :=
  contains_append_of_noneBegins h line

end Parsers

/-- **Lists written on several lines.** In every section, the three parsers return the list of all
lines, and an error iff a line does not parse, exactly if the first line of the key says all there
is. -/
theorem listKeys_readAllLines_iff (host : Host) (s : Section) :
    (ReadsAllLines (parseAllowedIPs host s)
        (allValues host "AllowedIPs" parsePrefixErr (s.valueWithShadows "AllowedIPs")) ↔
      FirstLineSuffices host "AllowedIPs" parsePrefixErr (s.valueWithShadows "AllowedIPs")) ∧
    (ReadsAllLines (parseCIDRNetIP host s "Address")
        (allValues host "Address" parseAddrOrPrefix (s.valueWithShadows "Address")) ↔
      FirstLineSuffices host "Address" parseAddrOrPrefix (s.valueWithShadows "Address")) ∧
    (ReadsAllLines (parseNetIP host s "DNS")
        (allValues host "DNS" parseAddrErr (s.valueWithShadows "DNS")) ↔
      FirstLineSuffices host "DNS" parseAddrErr (s.valueWithShadows "DNS")) :=
  ⟨parseListKey_readsAllLines_iff s (contains_unsetMessage (by decide)),
    parseListKey_readsAllLines_iff s (contains_unsetMessage (by decide)),
    parseListKey_readsAllLines_iff s (contains_unsetMessage (by decide))⟩

/-- A section with two `AllowedIPs` lines. -/
def twoAllowedIPsLines : Section :=
  [("allowedips", "10.0.0.0/8"), ("allowedips", "192.168.0.0/16")]

/-- Of two lines with different prefixes, the second is lost. -/
theorem second_allowedIPs_line_lost :
    (parseAllowedIPs Host.bare twoAllowedIPsLines).toOption =
        (parsePrefix "10.0.0.0/8").map ([·]) ∧
      ¬ ReadsAllLines (parseAllowedIPs Host.bare twoAllowedIPsLines)
        (allValues Host.bare "AllowedIPs" parsePrefixErr
          (twoAllowedIPsLines.valueWithShadows "AllowedIPs")) := by
  have hlen : (allValues Host.bare "AllowedIPs" parsePrefixErr
      (twoAllowedIPsLines.valueWithShadows "AllowedIPs")).map (·.eraseDups.length) = some 2 := by
    decide +kernel
  have hone : (parseAllowedIPs Host.bare twoAllowedIPsLines).toOption.map
      (·.eraseDups.length) = some 1 := by
    decide +kernel
  refine ⟨by decide +kernel, fun h => ?_⟩
  obtain ⟨vs, hvs, hvslen⟩ := Option.map_eq_some_iff.1 hone
  have hok : parseAllowedIPs Host.bare twoAllowedIPsLines = .ok vs := by
    cases hr : parseAllowedIPs Host.bare twoAllowedIPsLines with
    | error e => simp [hr, Except.toOption] at hvs
    | ok us => simpa [hr, Except.toOption] using hvs
  obtain ⟨vs', hall, heq⟩ := h.2 vs hok
  rw [hall, Option.map_some, ← heq, hvslen] at hlen
  cases hlen

end WireProxy.Config
