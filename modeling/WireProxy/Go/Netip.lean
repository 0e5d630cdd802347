import WireProxy.Go.Strconv

/-!
# Addresses and prefixes of `net/netip`

The types `netip.Addr` and `netip.Prefix`, their texts and the parsers `netip.ParseAddr` and
`netip.ParsePrefix`.

* An IPv6 address is written with its longest run of zero groups (the first one on a tie, of two
  groups at least) as `::`, and an IPv4-mapped one with its last four bytes in dotted form.
* `parseAddr_toText`: the text of a valid address parses to that address, zone included.
* `parsePrefix_toText`: the text of a valid prefix parses to that prefix. All prefixes that are
  not valid have the same text, which does not parse.
-/

namespace WireProxy.Go.Netip

open Text

/-! ## Addresses -/

/-- The eight groups of an IPv6 address. -/
abbrev Groups := {l : List UInt16 // l.length = 8}

/-- The groups of the unspecified address. -/
def Groups.zero : Groups := ⟨List.replicate 8 0, rfl⟩

/-- `netip.Addr`: the zero value, which is no address, an IPv4 address or an IPv6 address with a
zone, empty for none. -/
inductive Addr
  | zero
  | v4 (a b c d : UInt8)
  | v6 (groups : Groups) (zone : Text)
  deriving DecidableEq

namespace Addr

/-- `Addr.Is4`. -/
def is4 : Addr → Bool
  | v4 _ _ _ _ => true
  | _ => false

/-- `Addr.Is6`, which also holds of an address of version 4 that is mapped to one of version 6. -/
def is6 : Addr → Bool
  | v6 _ _ => true
  | _ => false

/-- `Addr.Zone`. -/
def zone : Addr → Text
  | v6 _ z => z
  | _ => []

/-- `Addr.BitLen`. -/
def bitLen : Addr → ℕ
  | zero => 0
  | v4 _ _ _ _ => 32
  | v6 _ _ => 128

end Addr

/-! ### Texts -/

/-- The dotted decimal text of four bytes. -/
def dotted (a b c d : UInt8) : Text :=
  Nat.toDigits 10 a.toNat ++ '.' :: (Nat.toDigits 10 b.toNat ++ '.' ::
    (Nat.toDigits 10 c.toNat ++ '.' :: Nat.toDigits 10 d.toNat))

/-- The hexadecimal text of a group. -/
def hexGroup (g : UInt16) : Text := Nat.toDigits 16 g.toNat

/-- Groups separated by colons. -/
def joinGroups : List UInt16 → Text
  | [] => []
  | [g] => hexGroup g
  | g :: gs => hexGroup g ++ ':' :: joinGroups gs

/-- The number of zero groups from position `i` on. -/
def zeroRunAt (l : List UInt16) (i : ℕ) : ℕ := ((l.drop i).takeWhile (· == 0)).length

/-- The start and the length of the run of zero groups that is written `::`, of length zero for
none. -/
def longestZeroRun (l : List UInt16) : ℕ × ℕ :=
  (List.range 8).foldl
    (fun best i => if 2 ≤ zeroRunAt l i ∧ best.2 < zeroRunAt l i then (i, zeroRunAt l i) else best)
    (0, 0)

/-- The text of eight groups. -/
def groupsText (l : List UInt16) : Text :=
  let r := longestZeroRun l
  if r.2 = 0 then joinGroups l
  else joinGroups (l.take r.1) ++ ':' :: ':' :: joinGroups (l.drop (r.1 + r.2))

/-- The high byte of a group. -/
def highByte (g : UInt16) : UInt8 := UInt8.ofNat (g.toNat / 256)

/-- The low byte of a group. -/
def lowByte (g : UInt16) : UInt8 := UInt8.ofNat g.toNat

/-- `Addr.Is4In6`: the address is an IPv4-mapped one. -/
def is4In6 (l : List UInt16) : Bool := l.take 6 = [0, 0, 0, 0, 0, 0xFFFF]

/-- The dotted text of two groups. -/
def dottedGroups (g h : UInt16) : Text := dotted (highByte g) (lowByte g) (highByte h) (lowByte h)

/-- The text of an IPv6 address without its zone. -/
def text6 (l : List UInt16) : Text :=
  if is4In6 l then (("::ffff:" : String) : Text) ++ dottedGroups (l.getD 6 0) (l.getD 7 0)
  else groupsText l

/-- `Addr.String`. -/
def Addr.toText : Addr → Text
  | .zero => "invalid IP"
  | .v4 a b c d => dotted a b c d
  | .v6 g z => text6 g.1 ++ (if z = [] then [] else '%' :: z)

theorem Addr.toText_v6 (g : Groups) (z : Text) :
    (Addr.v6 g z).toText = text6 g.1 ++ (if z = [] then [] else '%' :: z) := rfl

/-! ### Parsing -/

/-- The loop of `parseIPv4Fields`: the fields already read, the value and the number of digits of
the current one. -/
def parseIPv4Loop : List UInt8 → ℕ → ℕ → Text → Option (List UInt8)
  | fields, val, _, [] => if fields.length < 3 then none else some (fields ++ [UInt8.ofNat val])
  | fields, val, digLen, c :: cs =>
    if '0' ≤ c ∧ c ≤ '9' then
      if digLen = 1 ∧ val = 0 then none
      else if val * 10 + (c.toNat - '0'.toNat) > 255 then none
      else parseIPv4Loop fields (val * 10 + (c.toNat - '0'.toNat)) (digLen + 1) cs
    else if c = '.' then
      if digLen = 0 ∨ cs = [] then none
      else if fields.length = 3 then none
      else parseIPv4Loop (fields ++ [UInt8.ofNat val]) 0 0 cs
    else none

/-- `parseIPv4Fields`. -/
def parseIPv4Fields (s : Text) : Option (List UInt8) := parseIPv4Loop [] 0 0 s

/-- `parseIPv4`. -/
def parseIPv4 (s : Text) : Option Addr :=
  match parseIPv4Fields s with
  | some [a, b, c, d] => some (.v4 a b c d)
  | _ => none

/-- The group of two bytes. -/
def groupOf (hi lo : UInt8) : UInt16 := UInt16.ofNat (hi.toNat * 256 + lo.toNat)

/-- The loop of `parseIPv6`, with room for `n` more groups: the groups already read, the position
of the ellipsis and the rest of the text. -/
def parseIPv6Loop : ℕ → List UInt16 → Option ℕ → Text → Option (List UInt16 × Option ℕ × Text)
  | 0, acc, ell, s => some (acc, ell, s)
  | n + 1, acc, ell, s =>
    let ds := s.takeWhile (isDigitIn 16)
    let rest := s.dropWhile (isDigitIn 16)
    if 4 < ds.length then none
    else match readNumeral 16 ds, rest with
      | none, _ => none
      | some _, '.' :: _ =>
        -- an embedded IPv4 address stands for the last two groups
        if ell = none ∧ acc.length ≠ 6 then none
        else if 6 < acc.length then none
        else match parseIPv4Fields s with
          | some [a, b, c, d] => some (acc ++ [groupOf a b, groupOf c d], ell, [])
          | _ => none
      | some v, [] => some (acc ++ [UInt16.ofNat v], ell, [])
      | some _, [':'] => none
      | some v, ':' :: ':' :: s' =>
        if ell ≠ none then none
        else if s' = [] then some (acc ++ [UInt16.ofNat v], some (acc.length + 1), [])
        else parseIPv6Loop n (acc ++ [UInt16.ofNat v]) (some (acc.length + 1)) s'
      | some v, ':' :: s' => parseIPv6Loop n (acc ++ [UInt16.ofNat v]) ell s'
      | some _, _ :: _ => none

/-- The end of `parseIPv6`: the whole text must be used, and an ellipsis is expanded to the
missing groups, of which there must be at least one. -/
def expandGroups : List UInt16 × Option ℕ × Text → Option Groups
  | (acc, ell, s) =>
    if s ≠ [] then none
    else match ell with
      | none => if h : acc.length = 8 then some ⟨acc, h⟩ else none
      | some e =>
        let l := acc.take e ++ List.replicate (8 - acc.length) 0 ++ acc.drop e
        if acc.length < 8 then if h : l.length = 8 then some ⟨l, h⟩ else none else none

/-- `parseIPv6` on a text without zone. -/
def parseGroups (s : Text) : Option Groups :=
  match s with
  | [':', ':'] => some Groups.zero
  | ':' :: ':' :: s' => (parseIPv6Loop 8 [] (some 0) s').bind expandGroups
  | s => (parseIPv6Loop 8 [] none s).bind expandGroups

/-- `parseIPv6`. -/
def parseIPv6 (s : Text) : Option Addr :=
  match cut '%' s with
  | none => (parseGroups s).map fun g => .v6 g []
  | some (_, []) => none
  | some (s', z) => (parseGroups s').map fun g => .v6 g z

/-- `netip.ParseAddr`: the first dot, colon or percent sign decides what is parsed. -/
def parseAddr (s : Text) : Option Addr :=
  match s.find? fun c => c = '.' || c = ':' || c = '%' with
  | some '.' => parseIPv4 s
  | some ':' => parseIPv6 s
  | _ => none

/-! ## Prefixes -/

/-- `netip.Prefix`: an address without zone and a number of bits, `none` for a prefix that is
not valid. -/
structure Prefix where
  ip : Addr
  bits : Option ℕ
  zone_eq : ip.zone = []
  bits_le : ∀ n ∈ bits, ip ≠ .zero ∧ n ≤ ip.bitLen
  deriving DecidableEq

/-- `Addr.withoutZone`. -/
def Addr.withoutZone : Addr → Addr
  | .v6 g _ => .v6 g []
  | a => a

namespace Prefix

/-- `Prefix.IsValid`. -/
def IsValid (p : Prefix) : Prop := p.bits ≠ none

instance (p : Prefix) : Decidable p.IsValid := inferInstanceAs (Decidable (_ ≠ _))

/-- `Prefix.String`. -/
def toText (p : Prefix) : Text :=
  match p.bits with
  | none => "invalid Prefix"
  | some n => p.ip.toText ++ '/' :: Nat.toDigits 10 n

end Prefix

/-- `netip.PrefixFrom`. -/
def prefixFrom (ip : Addr) (bits : ℤ) : Prefix where
  ip := ip.withoutZone
  bits := if ip ≠ .zero ∧ 0 ≤ bits ∧ bits ≤ ip.bitLen then some bits.toNat else none
  zone_eq := by cases ip <;> rfl
  bits_le := by
    intro n hn
    split at hn
    · rename_i h
      obtain ⟨hz, h0, hle⟩ := h
      obtain rfl : bits.toNat = n := by simpa using hn
      refine ⟨?_, ?_⟩
      · cases ip <;> simp_all [Addr.withoutZone]
      · have : ip.withoutZone.bitLen = ip.bitLen := by cases ip <;> rfl
        omega
    · simp at hn

/-- `netip.ParsePrefix`. -/
def parsePrefix (s : Text) : Option Prefix := do
  let (a, b) ← cutLast '/' s
  let ip ← parseAddr a
  if ip.zone ≠ [] then none
  else if 1 < b.length ∧ b.head? = some '0' then none
  else
    let n ← readNumeral 10 b
    if n ≤ ip.bitLen then some (prefixFrom ip n) else none

/-! ## The characters of an address text -/

theorem mem_dotted {a b c d : UInt8} {x : Char} (h : x ∈ dotted a b c d) :
    isDigitIn 10 x ∨ x = '.' := by
  simp only [dotted, List.mem_append, List.mem_cons] at h
  rcases h with h | rfl | h | rfl | h | rfl | h
  all_goals first
    | exact .inr rfl
    | exact .inl (isDigitIn_of_mem_toDigits (by norm_num) (by norm_num) h)

theorem isDigitIn_of_mem_hexGroup {g : UInt16} {x : Char} (h : x ∈ hexGroup g) : isDigitIn 16 x :=
  isDigitIn_of_mem_toDigits (by norm_num) le_rfl h

theorem mem_joinGroups {gs : List UInt16} {x : Char} (h : x ∈ joinGroups gs) :
    isDigitIn 16 x ∨ x = ':' := by
  fun_induction joinGroups gs with
  | case1 => simp at h
  | case2 g => exact .inl (isDigitIn_of_mem_hexGroup h)
  | case3 g gs _ ih =>
    rcases List.mem_append.1 h with h | h
    · exact .inl (isDigitIn_of_mem_hexGroup h)
    · rcases List.mem_cons.1 h with rfl | h
      · exact .inr rfl
      · exact ih h

theorem isDigitIn_sixteen_of_ten {x : Char} (h : isDigitIn 10 x) : isDigitIn 16 x := by
  unfold isDigitIn at h ⊢
  cases hd : digitVal x with
  | none => simp [hd] at h
  | some d =>
    simp only [hd, Option.any_some, decide_eq_true_eq] at h ⊢
    omega

/-- An address without zone is written in hexadecimal digits, colons and dots. -/
theorem mem_text6 {l : List UInt16} {x : Char} (h : x ∈ text6 l) :
    isDigitIn 16 x ∨ x = ':' ∨ x = '.' := by
  unfold text6 at h
  split at h
  · rcases List.mem_append.1 h with h | h
    · have hall : (("::ffff:" : String) : Text).all (fun c => isDigitIn 16 c || c = ':') := by
        decide
      have hx := List.all_eq_true.1 hall x h
      rw [Bool.or_eq_true, decide_eq_true_eq] at hx
      exact hx.imp_right .inl
    · exact (mem_dotted h).imp isDigitIn_sixteen_of_ten .inr
  · simp only [groupsText] at h
    split at h
    · exact (mem_joinGroups h).imp_right .inl
    · rcases List.mem_append.1 h with h | h
      · exact (mem_joinGroups h).imp_right .inl
      · rcases List.mem_cons.1 h with rfl | h
        · exact .inr (.inl rfl)
        · rcases List.mem_cons.1 h with rfl | h
          · exact .inr (.inl rfl)
          · exact (mem_joinGroups h).imp_right .inl

/-! ## Reading IPv4 fields back -/

theorem parseIPv4Loop_digitChar {d : ℕ} (hd : d < 10) (fields : List UInt8) (val digLen : ℕ)
    (cs : Text) : parseIPv4Loop fields val digLen (d.digitChar :: cs) =
      if digLen = 1 ∧ val = 0 then none
      else if val * 10 + d > 255 then none
      else parseIPv4Loop fields (val * 10 + d) (digLen + 1) cs := by
  have hdig : ∀ d : Fin 10, '0' ≤ (d : ℕ).digitChar ∧ (d : ℕ).digitChar ≤ '9' := by decide
  have hval : d.digitChar.toNat - '0'.toNat = d := Nat.toNat_digitChar_sub_48_of_lt_ten hd
  rw [parseIPv4Loop, if_pos (hdig ⟨d, hd⟩), hval]

/-- The digits of one field, at most three of them and without a leading zero. -/
theorem parseIPv4Loop_toDigits (fields : List UInt8) (b : UInt8) :
    ∃ k ≠ 0, ∀ rest, parseIPv4Loop fields 0 0 (Nat.toDigits 10 b.toNat ++ rest) =
      parseIPv4Loop fields b.toNat k rest := by
  have hb : b.toNat < 256 := b.toNat_lt
  generalize b.toNat = n at hb
  by_cases h1 : n < 10
  · refine ⟨1, by norm_num, fun rest => ?_⟩
    rw [Nat.toDigits_of_lt_base h1, List.singleton_append, parseIPv4Loop_digitChar h1,
      if_neg (by omega), if_neg (by omega), Nat.zero_mul, Nat.zero_add]
  · have hlow : n % 10 < 10 := Nat.mod_lt _ (by norm_num)
    by_cases h2 : n < 100
    · have hq : n / 10 < 10 := by omega
      refine ⟨2, by norm_num, fun rest => ?_⟩
      rw [Nat.toDigits_of_base_le (by norm_num) (by omega), Nat.toDigits_of_lt_base hq,
        List.append_assoc, List.singleton_append, parseIPv4Loop_digitChar hq, if_neg (by omega),
        if_neg (by omega), List.singleton_append, parseIPv4Loop_digitChar hlow,
        if_neg (by omega), if_neg (by omega)]
      congr 1
      omega
    · have hq : n / 10 / 10 < 10 := by omega
      have hm : n / 10 % 10 < 10 := Nat.mod_lt _ (by norm_num)
      refine ⟨3, by norm_num, fun rest => ?_⟩
      rw [Nat.toDigits_of_base_le (by norm_num) (by omega),
        Nat.toDigits_of_base_le (n := n / 10) (by norm_num) (by omega),
        Nat.toDigits_of_lt_base hq, List.append_assoc, List.append_assoc, List.singleton_append,
        parseIPv4Loop_digitChar hq, if_neg (by omega), if_neg (by omega), List.singleton_append,
        parseIPv4Loop_digitChar hm, if_neg (by omega), if_neg (by omega), List.singleton_append,
        parseIPv4Loop_digitChar hlow, if_neg (by omega), if_neg (by omega)]
      congr 1
      omega

/-- A field followed by a dot and more. -/
theorem parseIPv4Loop_field {fields : List UInt8} (hf : fields.length < 3) (b : UInt8) {t : Text}
    (ht : t ≠ []) : parseIPv4Loop fields 0 0 (Nat.toDigits 10 b.toNat ++ '.' :: t) =
      parseIPv4Loop (fields ++ [b]) 0 0 t := by
  obtain ⟨k, hk, h⟩ := parseIPv4Loop_toDigits fields b
  rw [h, parseIPv4Loop, if_neg (by decide), if_pos rfl, if_neg (by simp [hk, ht]),
    if_neg (by omega), UInt8.ofNat_toNat]

theorem parseIPv4Fields_dotted (a b c d : UInt8) :
    parseIPv4Fields (dotted a b c d) = some [a, b, c, d] := by
  obtain ⟨k, -, h⟩ := parseIPv4Loop_toDigits [a, b, c] d
  have hlast := h []
  rw [List.append_nil] at hlast
  rw [parseIPv4Fields, dotted, parseIPv4Loop_field (by simp) a (by simp),
    parseIPv4Loop_field (by simp) b (by simp),
    parseIPv4Loop_field (by simp) c Nat.toDigits_ne_nil]
  simp only [List.nil_append, List.cons_append]
  rw [hlast, parseIPv4Loop, if_neg (by simp), UInt8.ofNat_toNat]
  rfl

/-! ## Reading groups back -/

theorem hexGroup_ne_nil (g : UInt16) : hexGroup g ≠ [] := Nat.toDigits_ne_nil

theorem length_hexGroup_le (g : UInt16) : (hexGroup g).length ≤ 4 :=
  (Nat.length_toDigits_le_iff (by norm_num) (by norm_num)).2 g.toNat_lt

theorem readNumeral_hexGroup (g : UInt16) : readNumeral 16 (hexGroup g) = some g.toNat :=
  readNumeral_toDigits (by norm_num) le_rfl _

/-- A group ends where the hexadecimal digits end. -/
theorem span_hexGroup (g : UInt16) (rest : Text) (h : ∀ c ∈ rest.head?, isDigitIn 16 c = false) :
    (hexGroup g ++ rest).takeWhile (isDigitIn 16) = hexGroup g ∧
      (hexGroup g ++ rest).dropWhile (isDigitIn 16) = rest := by
  have hg : ∀ c ∈ hexGroup g, isDigitIn 16 c := fun c hc => isDigitIn_of_mem_hexGroup hc
  rw [List.takeWhile_append_of_pos hg, List.dropWhile_append_of_pos hg]
  cases rest with
  | nil => simp
  | cons c cs => simp [h c (by simp)]

theorem joinGroups_cons_cons (g g' : UInt16) (gs : List UInt16) :
    joinGroups (g :: g' :: gs) = hexGroup g ++ ':' :: joinGroups (g' :: gs) := rfl

/-- The text of a list of groups does not begin with a colon. -/
theorem joinGroups_cons (g : UInt16) (gs : List UInt16) :
    ∃ c cs, joinGroups (g :: gs) = c :: cs ∧ c ≠ ':' := by
  obtain ⟨c, cs, hc⟩ := List.exists_cons_of_ne_nil (hexGroup_ne_nil g)
  have hcol : c ≠ ':' := by
    rintro rfl
    exact absurd (isDigitIn_of_mem_hexGroup (g := g) (x := ':') (by simp [hc])) (by decide)
  cases gs with
  | nil => exact ⟨c, cs, by rw [joinGroups, hc], hcol⟩
  | cons g' gs =>
    exact ⟨c, cs ++ ':' :: joinGroups (g' :: gs), by rw [joinGroups_cons_cons, hc]; rfl, hcol⟩

/-! The parser at a group: what follows the group decides. -/

theorem parseIPv6Loop_group_end (n : ℕ) (acc : List UInt16) (ell : Option ℕ) (g : UInt16) :
    parseIPv6Loop (n + 1) acc ell (hexGroup g) = some (acc ++ [g], ell, []) := by
  obtain ⟨htake, hdrop⟩ := span_hexGroup g [] (by simp)
  rw [List.append_nil] at htake hdrop
  have hlen := length_hexGroup_le g
  simp [parseIPv6Loop, htake, hdrop, readNumeral_hexGroup, hlen]

theorem parseIPv6Loop_group_colon (n : ℕ) (acc : List UInt16) (ell : Option ℕ) (g : UInt16)
    {c : Char} (hc : c ≠ ':') (t : Text) :
    parseIPv6Loop (n + 1) acc ell (hexGroup g ++ ':' :: c :: t) =
      parseIPv6Loop n (acc ++ [g]) ell (c :: t) := by
  have hcol : isDigitIn 16 ':' = false := by decide
  obtain ⟨htake, hdrop⟩ := span_hexGroup g (':' :: c :: t) (by simp [hcol])
  have hlen := length_hexGroup_le g
  simp [parseIPv6Loop, htake, hdrop, readNumeral_hexGroup, hlen, hc]

theorem parseIPv6Loop_group_ellipsis (n : ℕ) (acc : List UInt16) (g : UInt16) (t : Text) :
    parseIPv6Loop (n + 1) acc none (hexGroup g ++ ':' :: ':' :: t) =
      if t = [] then some (acc ++ [g], some (acc.length + 1), [])
      else parseIPv6Loop n (acc ++ [g]) (some (acc.length + 1)) t := by
  have hcol : isDigitIn 16 ':' = false := by decide
  obtain ⟨htake, hdrop⟩ := span_hexGroup g (':' :: ':' :: t) (by simp [hcol])
  have hlen := length_hexGroup_le g
  simp [parseIPv6Loop, htake, hdrop, readNumeral_hexGroup, hlen]

/-- A list of groups up to the end of the text. -/
theorem parseIPv6Loop_joinGroups {gs : List UInt16} (hgs : gs ≠ []) {n : ℕ} (hn : gs.length ≤ n)
    (acc : List UInt16) (ell : Option ℕ) :
    parseIPv6Loop n acc ell (joinGroups gs) = some (acc ++ gs, ell, []) := by
  induction gs generalizing n acc with
  | nil => exact absurd rfl hgs
  | cons g gs ih =>
    obtain ⟨n, rfl⟩ : ∃ m, n = m + 1 := ⟨n - 1, by simp only [List.length_cons] at hn; omega⟩
    cases gs with
    | nil => exact parseIPv6Loop_group_end n acc ell g
    | cons g' gs =>
      obtain ⟨c, cs, hc, hcol⟩ := joinGroups_cons g' gs
      rw [joinGroups_cons_cons, hc, parseIPv6Loop_group_colon n acc ell g hcol, ← hc,
        ih (by simp) (by simpa using hn), List.append_assoc, List.singleton_append]

/-- A list of groups up to an ellipsis. -/
theorem parseIPv6Loop_ellipsis {gs : List UInt16} (hgs : gs ≠ []) {n : ℕ} (hn : gs.length ≤ n)
    (acc : List UInt16) (t : Text) :
    parseIPv6Loop n acc none (joinGroups gs ++ ':' :: ':' :: t) =
      if t = [] then some (acc ++ gs, some (acc.length + gs.length), [])
      else parseIPv6Loop (n - gs.length) (acc ++ gs) (some (acc.length + gs.length)) t := by
  induction gs generalizing n acc with
  | nil => exact absurd rfl hgs
  | cons g gs ih =>
    obtain ⟨n, rfl⟩ : ∃ m, n = m + 1 := ⟨n - 1, by simp only [List.length_cons] at hn; omega⟩
    cases gs with
    | nil => exact parseIPv6Loop_group_ellipsis n acc g t
    | cons g' gs =>
      obtain ⟨c, cs, hc, hcol⟩ := joinGroups_cons g' gs
      have hlen :
          (acc ++ [g]).length + (g' :: gs).length = acc.length + (g :: g' :: gs).length := by
        simp only [List.length_append, List.length_cons, List.length_nil]
        omega
      rw [joinGroups_cons_cons, List.append_assoc, List.cons_append, hc, List.cons_append,
        parseIPv6Loop_group_colon n acc none g hcol, ← List.cons_append, ← hc,
        ih (by simp) (by simpa using hn), hlen, List.append_assoc, List.singleton_append,
        List.length_cons (a := g), Nat.add_sub_add_right]

/-! ## The run of zero groups -/

/-- What the search for the run of zero groups has found so far. -/
theorem longestZeroRun_spec (l : List UInt16) :
    (longestZeroRun l).2 = 0 ∨ zeroRunAt l (longestZeroRun l).1 = (longestZeroRun l).2 := by
  have key : ∀ (is : List ℕ) (best : ℕ × ℕ), (best.2 = 0 ∨ zeroRunAt l best.1 = best.2) →
      let r := is.foldl (fun best i =>
        if 2 ≤ zeroRunAt l i ∧ best.2 < zeroRunAt l i then (i, zeroRunAt l i) else best) best
      r.2 = 0 ∨ zeroRunAt l r.1 = r.2 := by
    intro is
    induction is with
    | nil => exact fun best h => h
    | cons i is ih =>
      intro best h
      refine ih _ ?_
      dsimp only
      split
      · exact .inr rfl
      · exact h
  exact key _ _ (.inl rfl)

/-- A list is cut around its run of zero groups. -/
theorem eq_take_append_zeros (l : List UInt16) {i k : ℕ} (h : zeroRunAt l i = k) :
    l = l.take i ++ List.replicate k 0 ++ l.drop (i + k) := by
  have hz : (l.drop i).takeWhile (· == 0) = List.replicate k 0 :=
    List.eq_replicate_iff.2 ⟨h, fun b hb => by simpa using List.mem_takeWhile_imp hb⟩
  have hrest : (l.drop i).dropWhile (· == 0) = l.drop (i + k) := by
    have hsplit := List.takeWhile_append_dropWhile (p := (· == 0)) (l := l.drop i)
    rw [← List.drop_drop, ← h, zeroRunAt]
    nth_rewrite 3 [← hsplit]
    rw [List.drop_left]
  calc l = l.take i ++ l.drop i := (List.take_append_drop i l).symm
    _ = l.take i ++ ((l.drop i).takeWhile (· == 0) ++ (l.drop i).dropWhile (· == 0)) := by
        rw [List.takeWhile_append_dropWhile]
    _ = l.take i ++ List.replicate k 0 ++ l.drop (i + k) := by
        rw [hz, hrest, List.append_assoc]

/-! ## The text of an address parses to the address -/

theorem expandGroups_none {l : List UInt16} (h : l.length = 8) :
    expandGroups (l, none, []) = some ⟨l, h⟩ := by
  simp [expandGroups, h]

theorem expandGroups_some {pre post : List UInt16} {k : ℕ} (hk : k ≠ 0)
    (h : (pre ++ List.replicate k 0 ++ post).length = 8) :
    expandGroups (pre ++ post, some pre.length, []) =
      some ⟨pre ++ List.replicate k 0 ++ post, h⟩ := by
  have hlen : pre.length + k + post.length = 8 := by
    rw [← h, List.length_append, List.length_append, List.length_replicate]
  have hk' : 8 - (pre ++ post).length = k := by
    rw [List.length_append]
    omega
  have hlt : (pre ++ post).length < 8 := by
    rw [List.length_append]
    omega
  simp only [expandGroups, hk', List.take_left, List.drop_left, ne_eq, not_true_eq_false, if_false,
    hlt, if_true, h, dif_pos]

/-- A text that does not begin with a colon is parsed from its first group on. -/
theorem parseGroups_of_head {c : Char} (hc : c ≠ ':') (cs : Text) :
    parseGroups (c :: cs) = (parseIPv6Loop 8 [] none (c :: cs)).bind expandGroups := by
  unfold parseGroups
  split <;> simp_all

theorem parseGroups_ellipsis {t : Text} (ht : t ≠ []) :
    parseGroups (':' :: ':' :: t) = (parseIPv6Loop 8 [] (some 0) t).bind expandGroups := by
  unfold parseGroups
  split <;> simp_all

/-- Groups around an ellipsis that stands for at least one zero group. -/
theorem parseGroups_around (pre post : List UInt16) {k : ℕ} (hk : k ≠ 0)
    (h : (pre ++ List.replicate k 0 ++ post).length = 8) :
    parseGroups (joinGroups pre ++ ':' :: ':' :: joinGroups post) =
      some ⟨pre ++ List.replicate k 0 ++ post, h⟩ := by
  have hlen : pre.length + k + post.length = 8 := by
    rw [← h, List.length_append, List.length_append, List.length_replicate]
  have hexp := expandGroups_some hk h
  cases pre with
  | nil =>
    cases post with
    | nil =>
      obtain rfl : k = 8 := by simpa using hlen
      rfl
    | cons g post =>
      obtain ⟨c, cs, hc, -⟩ := joinGroups_cons g post
      have hne : joinGroups (g :: post) ≠ [] := by simp [hc]
      rw [joinGroups, List.nil_append, parseGroups_ellipsis hne,
        parseIPv6Loop_joinGroups (by simp) (by simp only [List.length_nil] at hlen; omega)]
      exact hexp
  | cons g pre =>
    obtain ⟨c, cs, hc, hcol⟩ := joinGroups_cons g pre
    rw [hc, List.cons_append, parseGroups_of_head hcol, ← List.cons_append, ← hc,
      parseIPv6Loop_ellipsis (by simp) (by omega), List.length_nil, Nat.zero_add]
    cases post with
    | nil =>
      rw [joinGroups, if_pos rfl]
      simpa using hexp
    | cons g' post =>
      obtain ⟨c', cs', hc', -⟩ := joinGroups_cons g' post
      rw [if_neg (by simp [hc']), parseIPv6Loop_joinGroups (by simp) (by omega)]
      exact hexp

theorem parseGroups_groupsText (l : List UInt16) (h : l.length = 8) :
    parseGroups (groupsText l) = some ⟨l, h⟩ := by
  rw [groupsText]
  split
  · -- no run of zero groups: all eight are written
    obtain ⟨g, gs, rfl⟩ := List.exists_cons_of_ne_nil (l := l) (by rintro rfl; simp at h)
    obtain ⟨c, cs, hc, hcol⟩ := joinGroups_cons g gs
    rw [hc, parseGroups_of_head hcol, ← hc, parseIPv6Loop_joinGroups (by simp) h.le]
    exact expandGroups_none h
  · rename_i hr
    have hcut := eq_take_append_zeros l ((longestZeroRun_spec l).resolve_left hr)
    have h' : (l.take (longestZeroRun l).1 ++ List.replicate (longestZeroRun l).2 0 ++
        l.drop ((longestZeroRun l).1 + (longestZeroRun l).2)).length = 8 := hcut ▸ h
    rw [parseGroups_around _ _ hr h']
    exact congrArg some (Subtype.ext hcut.symm)

theorem groupOf_bytes (g : UInt16) : groupOf (highByte g) (lowByte g) = g := by
  have hg : g.toNat < 65536 := g.toNat_lt
  apply UInt16.toNat_inj.1
  rw [groupOf, UInt16.toNat_ofNat', highByte, lowByte, UInt8.toNat_ofNat', UInt8.toNat_ofNat']
  omega

/-- An embedded IPv4 address after an ellipsis. -/
theorem parseIPv6Loop_dotted (n : ℕ) {acc : List UInt16} (hacc : acc.length ≤ 6) (e : ℕ)
    (a b c d : UInt8) : parseIPv6Loop (n + 1) acc (some e) (dotted a b c d) =
      some (acc ++ [groupOf a b, groupOf c d], some e, []) := by
  have hdig : ∀ x ∈ Nat.toDigits 10 a.toNat, isDigitIn 16 x := fun x hx =>
    isDigitIn_sixteen_of_ten (isDigitIn_of_mem_toDigits (by norm_num) (by norm_num) hx)
  have hdot : isDigitIn 16 '.' = false := by decide
  have htake : (dotted a b c d).takeWhile (isDigitIn 16) = Nat.toDigits 10 a.toNat := by
    rw [dotted, List.takeWhile_append_of_pos hdig]
    simp [hdot]
  have hdrop : (dotted a b c d).dropWhile (isDigitIn 16) = '.' :: (Nat.toDigits 10 b.toNat ++
      '.' :: (Nat.toDigits 10 c.toNat ++ '.' :: Nat.toDigits 10 d.toNat)) := by
    rw [dotted, List.dropWhile_append_of_pos hdig]
    simp [hdot]
  have hlen : (Nat.toDigits 10 a.toNat).length ≤ 4 :=
    (Nat.length_toDigits_le_iff (by norm_num) (by norm_num)).2
      (a.toNat_lt.trans (by norm_num))
  obtain ⟨v, hv⟩ := readNumeral_of_forall Nat.toDigits_ne_nil hdig
  simp [parseIPv6Loop, htake, hdrop, hv, hlen, parseIPv4Fields_dotted, hacc]

theorem parseGroups_text6 (l : List UInt16) (h : l.length = 8) :
    parseGroups (text6 l) = some ⟨l, h⟩ := by
  unfold text6
  split
  · rename_i hmap
    -- the first six groups are fixed, the last two stand for the IPv4 address
    obtain ⟨g, h₀, hl⟩ : ∃ g h₀, l = [0, 0, 0, 0, 0, 0xFFFF] ++ [g, h₀] := by
      have htake : l.take 6 = [0, 0, 0, 0, 0, 0xFFFF] := of_decide_eq_true hmap
      obtain ⟨g, h₀, hdrop⟩ := List.length_eq_two.1 (show (l.drop 6).length = 2 by simp [h])
      exact ⟨g, h₀, by rw [← htake, ← hdrop, List.take_append_drop]⟩
    subst hl
    have hf : (("::ffff:" : String) : Text) = ':' :: ':' :: (hexGroup 0xFFFF ++ [':']) := by decide
    obtain ⟨x, xs, hx⟩ := List.exists_cons_of_ne_nil (Nat.toDigits_ne_nil (b := 10)
      (n := (highByte g).toNat))
    have hxcol : x ≠ ':' := by
      rintro rfl
      exact absurd (isDigitIn_of_mem_toDigits (b := 10) (by norm_num) (by norm_num) (c := ':')
        (n := (highByte g).toNat) (by simp [hx])) (by decide)
    obtain ⟨xs', hdot⟩ : ∃ xs', dottedGroups g h₀ = x :: xs' := by
      rw [dottedGroups, dotted, hx]
      exact ⟨_, rfl⟩
    have hgroups : dottedGroups (([0, 0, 0, 0, 0, 0xFFFF] ++ [g, h₀]).getD 6 0)
        (([0, 0, 0, 0, 0, 0xFFFF] ++ [g, h₀]).getD 7 0) = dottedGroups g h₀ := rfl
    rw [hgroups, hf, List.cons_append, List.cons_append, parseGroups_ellipsis (by simp [hexGroup]),
      List.append_assoc, List.singleton_append, hdot,
      parseIPv6Loop_group_colon 7 [] (some 0) 0xFFFF hxcol, ← hdot, dottedGroups,
      parseIPv6Loop_dotted 6 (by simp), groupOf_bytes, groupOf_bytes]
    rfl
  · exact parseGroups_groupsText l h

/-- The first of the three deciding characters. -/
theorem find?_of_forall {pre : Text} (h : ∀ x ∈ pre, isDigitIn 16 x) {c : Char}
    (hc : (c = '.' || c = ':' || c = '%') = true) (t : Text) :
    (pre ++ c :: t).find? (fun c => c = '.' || c = ':' || c = '%') = some c := by
  have hnone : pre.find? (fun c => c = '.' || c = ':' || c = '%') = none := by
    refine List.find?_eq_none.2 fun x hx hsep => ?_
    have hd := h x hx
    simp only [Bool.or_eq_true, decide_eq_true_eq] at hsep
    rcases hsep with (rfl | rfl) | rfl <;> exact absurd hd (by decide)
  rw [List.find?_append, hnone, List.find?_cons_of_pos (by simpa using hc)]
  rfl

/-- In the text of an IPv6 address only digits stand before the first colon. -/
theorem text6_eq (l : List UInt16) (h : l.length = 8) :
    ∃ pre t, text6 l = pre ++ ':' :: t ∧ ∀ x ∈ pre, isDigitIn 16 x := by
  have hjoin : ∀ g gs t', ∃ pre t, joinGroups (g :: gs) ++ ':' :: t' = pre ++ ':' :: t ∧
      ∀ x ∈ pre, isDigitIn 16 x := by
    intro g gs t'
    cases gs with
    | nil => exact ⟨hexGroup g, t', rfl, fun x hx => isDigitIn_of_mem_hexGroup hx⟩
    | cons g' gs =>
      refine ⟨hexGroup g, joinGroups (g' :: gs) ++ ':' :: t', ?_,
        fun x hx => isDigitIn_of_mem_hexGroup hx⟩
      rw [joinGroups_cons_cons, List.append_assoc, List.cons_append]
  unfold text6
  split
  · exact ⟨[], _, rfl, by simp⟩
  · rw [groupsText]
    split
    · obtain ⟨g, g', gs, rfl⟩ : ∃ g g' gs, l = g :: g' :: gs := by
        rcases l with _ | ⟨g, _ | ⟨g', gs⟩⟩
        · simp at h
        · simp at h
        · exact ⟨g, g', gs, rfl⟩
      exact ⟨hexGroup g, _, joinGroups_cons_cons g g' gs, fun x hx => isDigitIn_of_mem_hexGroup hx⟩
    · cases l.take (longestZeroRun l).1 with
      | nil => exact ⟨[], _, rfl, by simp⟩
      | cons g gs => exact hjoin g gs _

theorem parseAddr_dotted (a b c d : UInt8) : parseAddr (dotted a b c d) = some (.v4 a b c d) := by
  have hdig : ∀ x ∈ Nat.toDigits 10 a.toNat, isDigitIn 16 x := fun x hx =>
    isDigitIn_sixteen_of_ten (isDigitIn_of_mem_toDigits (by norm_num) (by norm_num) hx)
  have hf : (dotted a b c d).find? (fun c => c = '.' || c = ':' || c = '%') = some '.' := by
    rw [dotted]
    exact find?_of_forall hdig (by decide) _
  unfold parseAddr
  simp only [hf, parseIPv4, parseIPv4Fields_dotted]

theorem parseAddr_text6 (g : Groups) (z : Text) :
    parseAddr (text6 g.1 ++ (if z = [] then [] else '%' :: z)) = some (.v6 g z) := by
  obtain ⟨pre, t, ht, hpre⟩ := text6_eq g.1 g.2
  have hpct : '%' ∉ text6 g.1 := by
    intro hmem
    rcases mem_text6 hmem with h | h | h <;> exact absurd h (by decide)
  have hf : ∀ s, (text6 g.1 ++ s).find? (fun c => c = '.' || c = ':' || c = '%') = some ':' := by
    intro s
    rw [ht, List.append_assoc, List.cons_append]
    exact find?_of_forall hpre (by decide) _
  have hcut : parseIPv6 (text6 g.1 ++ (if z = [] then [] else '%' :: z)) = some (.v6 g z) := by
    unfold parseIPv6
    by_cases hz : z = []
    · subst hz
      simp only [if_true, List.append_nil, cut_eq_none.2 hpct, parseGroups_text6 g.1 g.2,
        Option.map_some]
    · obtain ⟨x, xs, rfl⟩ := List.exists_cons_of_ne_nil hz
      simp only [hz, if_false, cut_append hpct, parseGroups_text6 g.1 g.2, Option.map_some]
  unfold parseAddr
  simp only [hf, hcut]

/-- **The text of an address parses to the address.** -/
theorem parseAddr_toText {a : Addr} (ha : a ≠ .zero) : parseAddr a.toText = some a := by
  cases a with
  | zero => exact absurd rfl ha
  | v4 a b c d => exact parseAddr_dotted a b c d
  | v6 g z => exact parseAddr_text6 g z

/-! ## The text of a prefix parses to the prefix -/

/-- Address texts hold neither a slash nor a newline, their zone apart. -/
theorem not_mem_toText {a : Addr} (ha : a ≠ .zero) (hz : a.zone = []) {c : Char}
    (hc : isDigitIn 16 c = false) (hcol : c ≠ ':') (hdot : c ≠ '.') : c ∉ a.toText := by
  intro hmem
  cases a with
  | zero => exact ha rfl
  | v4 a b c' d =>
    rcases mem_dotted hmem with h | h
    · simp [isDigitIn_sixteen_of_ten h] at hc
    · exact hdot h
  | v6 g z =>
    obtain rfl : z = [] := hz
    rw [Addr.toText_v6, if_pos rfl, List.append_nil] at hmem
    rcases mem_text6 hmem with h | h | h
    · simp [h] at hc
    · exact hcol h
    · exact hdot h

theorem prefixFrom_ip_bits {p : Prefix} {n : ℕ} (h : p.bits = some n) :
    prefixFrom p.ip n = p := by
  obtain ⟨ip, bits, hzone, hbits⟩ := p
  simp only at h hzone
  subst h
  obtain ⟨hne, hle⟩ := hbits n rfl
  have hip : ip.withoutZone = ip := by
    cases ip with
    | v6 g z => exact congrArg (Addr.v6 g) hzone.symm
    | _ => rfl
  have hcond : ip ≠ .zero ∧ (0 : ℤ) ≤ n ∧ (n : ℤ) ≤ ip.bitLen := ⟨hne, by omega, by omega⟩
  simp only [prefixFrom, Prefix.mk.injEq]
  exact ⟨hip, by rw [if_pos hcond, Int.toNat_natCast]⟩

/-- **The text of a valid prefix parses to the prefix.** -/
theorem parsePrefix_toText {p : Prefix} (hp : p.IsValid) : parsePrefix p.toText = some p := by
  obtain ⟨n, hn⟩ := Option.ne_none_iff_exists'.1 hp
  obtain ⟨hne, hle⟩ := p.bits_le n hn
  have hslash : '/' ∉ Nat.toDigits 10 n := not_mem_toDigits_ten (by decide) n
  have hzero : ¬(1 < (Nat.toDigits 10 n).length ∧ (Nat.toDigits 10 n).head? = some '0') := by
    rintro ⟨hlen, hhead⟩
    by_cases h0 : n = 0
    · subst h0
      simp at hlen
    · exact head?_toDigits_ne (by norm_num) (by norm_num) h0 hhead
  simp only [parsePrefix, Prefix.toText, hn, cutLast_append hslash, Option.bind_eq_bind,
    Option.bind_some, parseAddr_toText hne, p.zone_eq, ne_eq, not_true_eq_false, if_false,
    if_neg hzero, readNumeral_toDigits (b := 10) (by norm_num) (by norm_num) n, if_pos hle,
    prefixFrom_ip_bits hn]

/-- A parsed address is not the zero value. -/
theorem ne_zero_of_parseAddr {s : Text} {a : Addr} (h : parseAddr s = some a) : a ≠ .zero := by
  unfold parseAddr parseIPv4 parseIPv6 at h
  repeat' split at h
  all_goals simp at h
  · exact h ▸ Addr.noConfusion
  · obtain ⟨g, _, -, rfl⟩ := h
    exact Addr.noConfusion
  · obtain ⟨g, _, -, rfl⟩ := h
    exact Addr.noConfusion

/-- The text of an IPv6 address has a colon. -/
theorem colon_mem_of_parseAddr {s : Text} {groups : Groups} {zone : Text}
    (h : parseAddr s = some (.v6 groups zone)) : ':' ∈ s := by
  unfold parseAddr at h
  split at h
  · unfold parseIPv4 at h
    split at h <;> cases h
  · rename_i hfind
    exact List.mem_of_find?_eq_some hfind
  · cases h

theorem isValid_of_parsePrefix {s : Text} {p : Prefix} (h : parsePrefix s = some p) :
    p.IsValid := by
  simp only [parsePrefix, Option.bind_eq_bind, Option.bind_eq_some_iff,
    Option.ite_none_left_eq_some, Option.ite_none_right_eq_some, Option.some.injEq] at h
  obtain ⟨⟨a, b⟩, -, ip, hip, -, -, n, -, hn, rfl⟩ := h
  have hcond : ip ≠ .zero ∧ (0 : ℤ) ≤ n ∧ (n : ℤ) ≤ ip.bitLen :=
    ⟨ne_zero_of_parseAddr hip, by omega, by omega⟩
  simp [Prefix.IsValid, prefixFrom, hcond]

/-- The text of a valid prefix fits on a line. -/
theorem newline_not_mem_toText (p : Prefix) : '\n' ∉ p.toText := by
  rw [Prefix.toText]
  split
  · decide
  · rename_i n hn
    rw [List.mem_append, List.mem_cons, not_or, not_or]
    exact ⟨not_mem_toText (p.bits_le n hn).1 p.zone_eq (by decide) (by decide) (by decide),
      by decide, not_mem_toDigits_ten (by decide) n⟩

end WireProxy.Go.Netip
