import WireProxy.Foundations.Control.Except
import WireProxy.Go.Strings

/-!
# Go's `int` and the number parsers of `strconv`

* `IntSize` is the word size of the platform, `GoInt w` the type `int` there: a bit vector read
  in two's complement.
* `parseUint10` is `strconv.ParseUint(s, 10, bitSize)` and `parseInt0` is
  `strconv.ParseInt(s, 0, 64)`, whose base is taken from the text's own notation and which allows
  underscores between digits.
* `parseUint10_eq_ok_iff`: the decimal parser accepts exactly the decimals that fit.
  `parseInt0_decimal`: the parser with a free base reads a plain decimal as what it says, and
  `parseInt0_eq_decimalValue_iff` says which other digits it reads in that way.
* `Fits` says that an integer is an `int`. Conversions, sums and products are exact iff their result
  fits (`GoInt.toInt_ofInt_eq_iff`, `GoInt.toInt_add_eq_iff`, `GoInt.toInt_mul_eq_iff`).
-/

namespace WireProxy.Go

open Text Control

/-! ## Integers -/

/-- The width of `int`. -/
inductive IntSize
  | bits32
  | bits64
  deriving DecidableEq

/-- The number of bits of an `int`. -/
def IntSize.width : IntSize → ℕ
  | .bits32 => 32
  | .bits64 => 64

/-- The type `int`. -/
abbrev GoInt (w : IntSize) := BitVec w.width

namespace GoInt

variable {w : IntSize}

/-- The conversion `int(v)` of a wider integer, which keeps the low bits. -/
def ofInt (v : ℤ) : GoInt w := BitVec.ofInt w.width v

/-- The conversion of a `uint32` to `int`. -/
def ofUint32 (n : UInt32) : GoInt w := ofInt n.toNat

/-- The conversion of an `int` to `uint32`. -/
def toUint32 (x : GoInt w) : UInt32 := UInt32.ofNat x.toNat

/-- The conversion of an `int` to `uint16`. -/
def toUint16 (x : GoInt w) : UInt16 := UInt16.ofNat x.toNat

/-- The verb `%d`. -/
def format (x : GoInt w) : Text := decimal x.toInt

theorem ofUint32_zero : (ofUint32 0 : GoInt w) = 0 := by
  cases w <;> rfl

@[simp] theorem ofInt_toInt (x : GoInt w) : (ofInt x.toInt : GoInt w) = x := BitVec.ofInt_toInt

theorem toNat_toUint16 {x : GoInt w} {n : ℤ} (h : x.toInt = n) :
    x.toUint16.toNat = (n % 2 ^ 16).toNat := by
  rw [BitVec.toInt_eq_toNat_bmod] at h
  rw [toUint16, UInt16.toNat_ofNat']
  cases w <;> simp only [IntSize.width, Int.bmod] at * <;> omega

/-- Conversions to and from `uint32` keep the number modulo `2 ^ 32`. -/
theorem toNat_toUint32 (x : GoInt w) : (x.toUint32.toNat : ℤ) = x.toInt % 2 ^ 32 := by
  rw [toUint32, UInt32.toNat_ofNat', BitVec.toInt_eq_toNat_bmod]
  cases w <;> simp only [IntSize.width, Int.bmod] <;> omega

theorem toInt_ofUint32_emod (n : UInt32) : (ofUint32 n : GoInt w).toInt % 2 ^ 32 = n.toNat := by
  have hlt := n.toNat_lt
  rw [ofUint32, ofInt, BitVec.toInt_ofInt]
  cases w <;> simp only [IntSize.width, Int.bmod] <;> omega

end GoInt

/-! ### Overflow -/

/-- The integer is a value of `int`. -/
def Fits (w : IntSize) (v : ℤ) : Prop := -2 ^ (w.width - 1) ≤ v ∧ v < 2 ^ (w.width - 1)

instance (w : IntSize) (v : ℤ) : Decidable (Fits w v) := inferInstanceAs (Decidable (_ ∧ _))

theorem fits_bits64_iff {v : ℤ} : Fits .bits64 v ↔ -2 ^ 63 ≤ v ∧ v < 2 ^ 63 := Iff.rfl

namespace GoInt

variable {w : IntSize}

theorem fits_toInt (x : GoInt w) : Fits w x.toInt := ⟨BitVec.le_toInt x, BitVec.toInt_lt⟩

/-- A conversion keeps exactly the integers that fit. -/
theorem toInt_ofInt_eq_iff {v : ℤ} : (ofInt v : GoInt w).toInt = v ↔ Fits w v := by
  constructor
  · intro h
    rw [← h]
    exact fits_toInt _
  · rintro ⟨hlo, hhi⟩
    exact BitVec.toInt_ofInt_eq_self (by cases w <;> decide) hlo hhi

/-- A sum is exact iff it fits. -/
theorem toInt_add_eq_iff {x y : GoInt w} :
    (x + y).toInt = x.toInt + y.toInt ↔ Fits w (x.toInt + y.toInt) := by
  rw [← toInt_ofInt_eq_iff (w := w), ofInt, BitVec.ofInt_add, BitVec.ofInt_toInt,
    BitVec.ofInt_toInt]

/-- A product of 64 bits is exact iff it fits. -/
theorem toInt_mul_eq_iff {v : ℤ} {n : ℕ} :
    (BitVec.ofInt 64 v * BitVec.ofNat 64 n).toInt = v * n ↔ Fits .bits64 (v * n) := by
  rw [← toInt_ofInt_eq_iff (w := .bits64), ofInt, BitVec.ofInt_mul, BitVec.ofInt_natCast]
  rfl

theorem toInt_bounds (x : GoInt w) : -2 ^ 63 ≤ x.toInt ∧ x.toInt < 2 ^ 63 := by
  have hlo := BitVec.le_toInt x
  have hhi := BitVec.toInt_lt (x := x)
  have hw : (2 : ℤ) ^ (w.width - 1) ≤ 2 ^ 63 := by cases w <;> norm_num [IntSize.width]
  constructor <;> linarith

end GoInt

/-! ## The parsers -/

/-- The reason in a `*strconv.NumError`. -/
inductive NumErr
  | errSyntax
  | errRange
  deriving DecidableEq

/-- The digit loop of `strconv.ParseUint`. Underscores are skipped here when the base was taken
from the text (`base0`). -/
def parseUintLoop (base : ℕ) (base0 : Bool) (maxVal : ℕ) : ℕ → Text → Except NumErr ℕ
  | n, [] => .ok n
  | n, c :: cs =>
    if c = '_' && base0 then parseUintLoop base base0 maxVal n cs
    else match digitVal c with
      | none => .error .errSyntax
      | some d =>
        if d ≥ base then .error .errSyntax
        else if n * base + d > maxVal then .error .errRange
        else parseUintLoop base base0 maxVal (n * base + d) cs

/-- `strconv.ParseUint(s, 10, bitSize)`. -/
def parseUint10 (bitSize : ℕ) (s : Text) : Except NumErr ℕ :=
  if s = [] then .error .errSyntax else parseUintLoop 10 false (2 ^ bitSize - 1) 0 s

/-- The base that a text announces, and the digits after its base mark. -/
def basePrefix : Text → ℕ × Text
  | '0' :: c :: d :: rest =>
    if c.toLower = 'b' then (2, d :: rest)
    else if c.toLower = 'o' then (8, d :: rest)
    else if c.toLower = 'x' then (16, d :: rest)
    else (8, c :: d :: rest)
  | '0' :: rest => (8, rest)
  | s => (10, s)

/-- What `underscoreOK` saw last: the start of the number, a digit, an underscore or anything
else. -/
inductive Saw
  | start
  | digit
  | underscore
  | other
  deriving DecidableEq

/-- The loop of `underscoreOK`. -/
def underscoreLoop (hex : Bool) : Saw → Text → Bool
  | saw, [] => saw ≠ .underscore
  | saw, c :: cs =>
    if isDigitIn 10 c || (hex && isDigitIn 16 c) then underscoreLoop hex .digit cs
    else if c = '_' then saw = .digit && underscoreLoop hex .underscore cs
    else saw ≠ .underscore && underscoreLoop hex .other cs

/-- `underscoreOK`: every underscore stands between two digits, a base mark counting as one. -/
def underscoreOK (s : Text) : Bool :=
  match s with
  | '0' :: c :: rest =>
    if c.toLower = 'b' || c.toLower = 'o' || c.toLower = 'x' then
      underscoreLoop (c.toLower = 'x') .digit rest
    else underscoreLoop false .start s
  | _ => underscoreLoop false .start s

/-- `strconv.ParseUint(s, 0, 64)`. -/
def parseUint0 (s : Text) : Except NumErr ℕ :=
  if s = [] then .error .errSyntax
  else do
    let n ← parseUintLoop (basePrefix s).1 true (2 ^ 64 - 1) 0 (basePrefix s).2
    if '_' ∈ (basePrefix s).2 ∧ underscoreOK s = false then .error .errSyntax else .ok n

/-- The range check of `strconv.ParseInt(s, 0, 64)` on a magnitude. -/
def signed64 (neg : Bool) (un : ℕ) : Except NumErr ℤ :=
  if neg then if un > 2 ^ 63 then .error .errRange else .ok (-un)
  else if un ≥ 2 ^ 63 then .error .errRange else .ok un

/-- `strconv.ParseInt(s, 0, 64)`. -/
def parseInt0 (s : Text) : Except NumErr ℤ :=
  match s with
  | '+' :: s' => parseUint0 s' >>= signed64 false
  | '-' :: s' => parseUint0 s' >>= signed64 true
  | s => parseUint0 s >>= signed64 false

/-- The sign of a number, true for a minus, and the text after it. -/
def splitSign : Text → Bool × Text
  | '+' :: s => (false, s)
  | '-' :: s => (true, s)
  | s => (false, s)

/-- `strconv.Atoi`. -/
def atoi {w : IntSize} (s : Text) : Except NumErr (GoInt w) := do
  let un ← parseUint10 w.width (splitSign s).2
  if (splitSign s).1 then
    if un > 2 ^ (w.width - 1) then .error .errRange else .ok (GoInt.ofInt (-un))
  else if un ≥ 2 ^ (w.width - 1) then .error .errRange
  else .ok (GoInt.ofInt un)

/-! ## The decimal parser -/

theorem le_of_readFrom {b acc v : ℕ} (hb : 0 < b) {l : Text} (h : readFrom b acc l = some v) :
    acc ≤ v := by
  induction l generalizing acc with
  | nil => exact (Option.some.inj h).le
  | cons c cs ih =>
    simp only [readFrom, Option.bind_eq_bind, Option.bind_eq_some_iff] at h
    obtain ⟨d, -, h⟩ := h
    split at h
    · exact (Nat.le_mul_of_pos_right acc hb).trans ((Nat.le_add_right _ d).trans (ih h))
    · cases h

/-- The digit loop without underscores accepts exactly the numerals that fit. -/
theorem parseUintLoop_eq_ok_iff {base maxVal : ℕ} (hb : 0 < base) {n v : ℕ} (hn : n ≤ maxVal)
    (l : Text) :
    parseUintLoop base false maxVal n l = .ok v ↔ readFrom base n l = some v ∧ v ≤ maxVal := by
  induction l generalizing n with
  | nil =>
    simp only [parseUintLoop, readFrom, Except.ok.injEq, Option.some.injEq]
    exact ⟨fun h => ⟨h, h ▸ hn⟩, And.left⟩
  | cons c cs ih =>
    simp only [parseUintLoop, readFrom, Bool.and_false, Bool.false_eq_true, if_false]
    cases digitVal c with
    | none => simp
    | some d =>
      simp only [Option.bind_eq_bind, Option.bind_some]
      by_cases hd : d < base
      · rw [if_neg (by omega), if_pos hd]
        by_cases hm : n * base + d > maxVal
        · rw [if_pos hm]
          constructor
          · intro h
            cases h
          · rintro ⟨h, hv⟩
            have := le_of_readFrom hb h
            omega
        · rw [if_neg hm, ih (by omega)]
      · rw [if_pos (by omega), if_neg hd]
        simp

/-- **The decimal parser accepts exactly the decimals that fit.** -/
theorem parseUint10_eq_ok_iff {bitSize v : ℕ} {s : Text} :
    parseUint10 bitSize s = .ok v ↔ readNumeral 10 s = some v ∧ v < 2 ^ bitSize := by
  have hpos : 0 < 2 ^ bitSize := Nat.two_pow_pos _
  by_cases hs : s = []
  · simp [parseUint10, readNumeral, hs]
  · rw [parseUint10, readNumeral, if_neg hs, if_neg hs,
      parseUintLoop_eq_ok_iff (by norm_num) (Nat.zero_le _)]
    exact and_congr_right fun _ => by omega

/-! ## The decimal parser with a sign -/

/-- The integer that a text writes in decimal, with an optional sign. -/
def writtenInt (s : Text) : Option ℤ :=
  (readNumeral 10 (splitSign s).2).map fun n : ℕ => if (splitSign s).1 then -(n : ℤ) else n

theorem GoInt.toInt_ofInt {w : IntSize} {v : ℤ} (hlo : -2 ^ (w.width - 1) ≤ v)
    (hhi : v < 2 ^ (w.width - 1)) : (GoInt.ofInt v : GoInt w).toInt = v :=
  GoInt.toInt_ofInt_eq_iff.2 ⟨hlo, hhi⟩

/-- A port number is an `int`. -/
theorem GoInt.exists_toInt_eq {n : ℕ} (hn : n ≤ 65535) (w : IntSize) :
    ∃ v : GoInt w, v.toInt = n := by
  have hbound : (65535 : ℤ) < 2 ^ (w.width - 1) := by cases w <;> decide
  exact ⟨GoInt.ofInt n, GoInt.toInt_ofInt (by omega) (by omega)⟩

/-- **`Atoi` accepts exactly the written integers that fit.** -/
theorem atoi_eq_ok_iff {w : IntSize} {s : Text} {v : GoInt w} :
    atoi s = .ok v ↔ writtenInt s = some v.toInt := by
  -- the bounds of an `int`, in the natural numbers where the parser compares
  obtain ⟨m, hm⟩ : ∃ m, m = 2 ^ (w.width - 1) := ⟨_, rfl⟩
  have hwidth : 2 ^ w.width = 2 * m := by rw [hm]; cases w <;> rfl
  have hm' : (2 : ℤ) ^ (w.width - 1) = m := by rw [hm]; push_cast; rfl
  have hlo := BitVec.le_toInt v
  have hhi := BitVec.toInt_lt (x := v)
  rw [hm'] at hlo hhi
  simp only [atoi, writtenInt, bind_eq_ok_iff, parseUint10_eq_ok_iff, Option.map_eq_some_iff,
    ← hm, hwidth]
  cases (splitSign s).1 with
  | true =>
    simp only [if_true, ite_error_eq_ok_iff, Except.ok.injEq]
    constructor
    · rintro ⟨un, ⟨hread, -⟩, hle, rfl⟩
      rw [GoInt.toInt_ofInt (by rw [hm']; omega) (by rw [hm']; omega)]
      exact ⟨un, hread, rfl⟩
    · rintro ⟨un, hread, hv⟩
      exact ⟨un, ⟨hread, by omega⟩, by omega, by rw [hv, GoInt.ofInt_toInt]⟩
  | false =>
    simp only [Bool.false_eq_true, if_false, ite_error_eq_ok_iff, Except.ok.injEq]
    constructor
    · rintro ⟨un, ⟨hread, -⟩, hlt, rfl⟩
      rw [GoInt.toInt_ofInt (by rw [hm']; omega) (by rw [hm']; omega)]
      exact ⟨un, hread, rfl⟩
    · rintro ⟨un, hread, hv⟩
      exact ⟨un, ⟨hread, by omega⟩, by omega, by rw [hv, GoInt.ofInt_toInt]⟩

/-! ## The parser with a free base, on plain decimals -/

/-- On a text without underscores the loop does not depend on whether they are allowed. -/
theorem parseUintLoop_base0 {base maxVal : ℕ} {l : Text} (hl : '_' ∉ l) (n : ℕ) :
    parseUintLoop base true maxVal n l = parseUintLoop base false maxVal n l := by
  induction l generalizing n with
  | nil => rfl
  | cons c cs ih =>
    rw [List.mem_cons, not_or] at hl
    simp only [parseUintLoop, Ne.symm hl.1, decide_false, Bool.false_and, Bool.false_eq_true,
      if_false, ih hl.2]

theorem basePrefix_of_head?_ne {s : Text} (h : s.head? ≠ some '0') : basePrefix s = (10, s) := by
  unfold basePrefix
  split
  · simp at h
  · simp at h
  · rfl

theorem parseUint0_toDigits {n : ℕ} (hn : n < 2 ^ 64) :
    parseUint0 (Nat.toDigits 10 n) = .ok n := by
  by_cases h0 : n = 0
  · -- a lone zero is read as an empty octal numeral
    subst h0
    rfl
  · have hb := basePrefix_of_head?_ne (head?_toDigits_ne (b := 10) (by norm_num) (by norm_num) h0)
    have hu : '_' ∉ Nat.toDigits 10 n := Nat.underscore_not_in_toDigits
    have hl : parseUintLoop 10 false (2 ^ 64 - 1) 0 (Nat.toDigits 10 n) = .ok n :=
      (parseUintLoop_eq_ok_iff (by norm_num) (Nat.zero_le _) _).2
        ⟨readFrom_zero_toDigits (by norm_num) (by norm_num) n, by omega⟩
    rw [parseUint0, if_neg Nat.toDigits_ne_nil, hb, parseUintLoop_base0 hu, hl]
    exact if_neg fun h => hu h.1

/-- **A plain decimal is read as what it says.** -/
theorem parseInt0_decimal {z : ℤ} (hlo : -2 ^ 63 ≤ z) (hhi : z < 2 ^ 63) :
    parseInt0 (decimal z) = .ok z := by
  cases z with
  | ofNat n =>
    have hn : n < 2 ^ 63 := by
      rw [Int.ofNat_eq_natCast] at hhi
      exact_mod_cast hhi
    have hp : '+' ∉ Nat.toDigits 10 n := not_mem_toDigits_ten (by decide) n
    have hm : '-' ∉ Nat.toDigits 10 n := not_mem_toDigits_ten (by decide) n
    rw [decimal]
    unfold parseInt0
    split
    · rename_i h
      simp [h] at hp
    · rename_i h
      simp [h] at hm
    · rw [parseUint0_toDigits (hn.trans (by norm_num))]
      exact if_neg (by omega)
  | negSucc n =>
    have hn : n + 1 ≤ 2 ^ 63 := by
      rw [Int.negSucc_eq] at hlo
      have : ((n : ℤ) + 1) ≤ 2 ^ 63 := by linarith
      exact_mod_cast this
    rw [decimal, parseInt0, parseUint0_toDigits (by omega)]
    exact (if_neg (by omega)).trans rfl

theorem fits_of_signed64 {neg : Bool} {un : ℕ} {v : ℤ} (h : signed64 neg un = .ok v) :
    Fits .bits64 v := by
  rw [fits_bits64_iff]
  cases neg with
  | true =>
    simp only [signed64, if_true, ite_error_eq_ok_iff, Except.ok.injEq] at h
    omega
  | false =>
    simp only [signed64, Bool.false_eq_true, if_false, ite_error_eq_ok_iff, Except.ok.injEq] at h
    omega

/-- What is read fits into 64 bits. -/
theorem fits_of_parseInt0 {t : Text} {v : ℤ} (h : parseInt0 t = .ok v) : Fits .bits64 v := by
  unfold parseInt0 at h
  split at h
  all_goals
    obtain ⟨un, -, hsigned⟩ := bind_eq_ok_iff.1 h
    exact fits_of_signed64 hsigned

/-! ## The parser with a free base, on digits -/

theorem toLower_of_isDigit {c : Char} (hc : c.isDigit) : c.toLower = c := by
  refine Char.toLower_eq_of_not_isUpper ?_
  simp only [Char.isDigit, Char.isUpper, Bool.and_eq_true, decide_eq_true_eq,
    UInt32.le_iff_toNat_le, ge_iff_le] at hc ⊢
  simp at hc ⊢
  omega

/-- A leading zero announces the base eight. -/
theorem basePrefix_zero_cons {t : Text} (ht : ∀ c ∈ t, c.isDigit) :
    basePrefix ('0' :: t) = (8, t) := by
  rcases t with _ | ⟨c, _ | ⟨d, t⟩⟩
  · rfl
  · rfl
  · have hc : c.isDigit := ht c (by simp)
    have hne : ∀ x : Char, x.isDigit = false → c.toLower ≠ x := by
      intro x hx heq
      rw [toLower_of_isDigit hc] at heq
      rw [heq, hx] at hc
      cases hc
    rw [basePrefix, if_neg (hne 'b' rfl), if_neg (hne 'o' rfl), if_neg (hne 'x' rfl)]

/-- Digits are read in the base that they announce. -/
theorem parseUint0_of_isDecimal {t : Text} (ht : IsDecimal t) :
    parseUint0 t = parseUintLoop (basePrefix t).1 false (2 ^ 64 - 1) 0 (basePrefix t).2 := by
  have hunderscore : '_' ∉ (basePrefix t).2 := by
    intro hmem
    have hsub : (basePrefix t).2 <:+ t := by
      by_cases hhead : t.head? = some '0'
      · obtain ⟨t', rfl⟩ := List.head?_eq_some_iff.1 hhead
        rw [basePrefix_zero_cons fun c hc => ht.2 c (List.mem_cons_of_mem _ hc)]
        exact List.suffix_cons '0' t'
      · rw [basePrefix_of_head?_ne hhead]
    simpa using ht.2 '_' (hsub.subset hmem)
  rw [parseUint0, if_neg ht.1, parseUintLoop_base0 hunderscore]
  cases parseUintLoop (basePrefix t).1 false (2 ^ 64 - 1) 0 (basePrefix t).2 with
  | error e => rfl
  | ok n => exact if_neg fun h => hunderscore h.1

/-- Digits have no sign. -/
theorem parseInt0_of_isDecimal {t : Text} (ht : IsDecimal t) :
    parseInt0 t = parseUint0 t >>= signed64 false := by
  unfold parseInt0
  split
  · simpa using ht.2 '+' (by simp)
  · simpa using ht.2 '-' (by simp)
  · rfl

/-- Digits are never read as more than the decimal that they write. -/
theorem le_decimalValue_of_parseInt0 {t : Text} (ht : IsDecimal t) {v : ℤ}
    (h : parseInt0 t = .ok v) : 0 ≤ v ∧ v ≤ decimalValue t := by
  rw [parseInt0_of_isDecimal ht, parseUint0_of_isDecimal ht] at h
  obtain ⟨un, hun, hsigned⟩ := bind_eq_ok_iff.1 h
  simp only [signed64, Bool.false_eq_true, if_false, ite_error_eq_ok_iff, Except.ok.injEq]
    at hsigned
  have hle : un ≤ decimalValue t := by
    by_cases hhead : t.head? = some '0'
    · obtain ⟨t', rfl⟩ := List.head?_eq_some_iff.1 hhead
      rw [basePrefix_zero_cons fun c hc => ht.2 c (List.mem_cons_of_mem _ hc),
        parseUintLoop_eq_ok_iff (by norm_num) (Nat.zero_le _),
        readFrom_eq_some_iff (by norm_num)] at hun
      rw [decimalValue_zero_cons, ← hun.1.2]
      exact ofDigitChars_le_decimalValue (by norm_num) t'
    · rw [basePrefix_of_head?_ne hhead, parseUintLoop_eq_ok_iff (by norm_num) (Nat.zero_le _),
        readFrom_eq_some_iff le_rfl] at hun
      exact hun.1.2.ge
  omega

/-- **When digits are read as a decimal**: they have no leading zero, or write a single digit of
base eight. -/
theorem parseInt0_eq_decimalValue_iff {t : Text} (ht : IsDecimal t)
    (hlt : decimalValue t < 2 ^ 63) :
    parseInt0 t = .ok (decimalValue t : ℤ) ↔ t.head? ≠ some '0' ∨ decimalValue t < 8 := by
  have hsigned : ∀ un : ℕ, signed64 false un = .ok (decimalValue t : ℤ) ↔ un = decimalValue t := by
    intro un
    simp only [signed64, Bool.false_eq_true, if_false, ite_error_eq_ok_iff, Except.ok.injEq]
    omega
  simp only [parseInt0_of_isDecimal ht, bind_eq_ok_iff, hsigned, exists_eq_right,
    parseUint0_of_isDecimal ht]
  by_cases hhead : t.head? = some '0'
  · obtain ⟨t', rfl⟩ := List.head?_eq_some_iff.1 hhead
    have ht' : ∀ c ∈ t', c.isDigit := fun c hc => ht.2 c (List.mem_cons_of_mem _ hc)
    rw [decimalValue_zero_cons] at hlt ⊢
    rw [basePrefix_zero_cons ht', parseUintLoop_eq_ok_iff (by norm_num) (Nat.zero_le _),
      readFrom_eq_decimalValue_iff (by norm_num) (by norm_num) ht', List.head?_cons]
    simp only [ne_eq, not_true_eq_false, false_or]
    omega
  · rw [basePrefix_of_head?_ne hhead, parseUintLoop_eq_ok_iff (by norm_num) (Nat.zero_le _)]
    have hread : readFrom 10 0 t = some (decimalValue t) :=
      (readFrom_eq_some_iff le_rfl).2 ⟨fun c hc => (isDigitIn_ten c).2 (ht.2 c hc), rfl⟩
    exact iff_of_true ⟨hread, by omega⟩ (.inl hhead)

end WireProxy.Go
