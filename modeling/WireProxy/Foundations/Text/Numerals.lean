import Mathlib

/-!
# Numerals as text

Texts are lists of characters. This module reads and writes natural numbers and integers in
positional notation.

* `readFrom b acc l` reads the digits `l` in base `b` onto the accumulator `acc`, letters in
  either case standing for the digits from ten on; `readNumeral` refuses the empty text.
* The writer is the core library's `Nat.toDigits`. `readNumeral_toDigits` says that reading
  undoes writing in every base up to sixteen, and `toDigits_decimalValue` that writing undoes
  reading on the decimals without a leading zero.
* `readFrom_eq_some_iff` says what is read in terms of the core library's `Nat.ofDigitChars`, and
  `readFrom_eq_decimalValue_iff` when a smaller base reads the decimal value.
* `decimal` writes an integer with a leading minus sign when it is negative, and `readDecimal`
  reads it back (`readDecimal_decimal`).
-/

namespace WireProxy

/-- A text: a list of characters. -/
abbrev Text := List Char

instance : Coe String Text := ⟨String.toList⟩

namespace Text

/-! ## Digits -/

/-- The value of a digit character, the letters `a` to `z` in either case counting from ten. -/
def digitVal (c : Char) : Option ℕ :=
  if '0' ≤ c ∧ c ≤ '9' then some (c.toNat - '0'.toNat)
  else if 'a' ≤ c ∧ c ≤ 'z' then some (c.toNat - 'a'.toNat + 10)
  else if 'A' ≤ c ∧ c ≤ 'Z' then some (c.toNat - 'A'.toNat + 10)
  else none

/-- `c` is a digit in base `b`. -/
def isDigitIn (b : ℕ) (c : Char) : Bool := (digitVal c).any (· < b)

theorem digitVal_digitChar {d : ℕ} (hd : d < 16) : digitVal d.digitChar = some d := by
  have h : ∀ d : Fin 16, digitVal (d : ℕ).digitChar = some (d : ℕ) := by decide
  exact h ⟨d, hd⟩

theorem isDigitIn_digitChar {b d : ℕ} (hb : b ≤ 16) (hd : d < b) : isDigitIn b d.digitChar := by
  simp [isDigitIn, digitVal_digitChar (hd.trans_le hb), hd]

/-- Every character of a numeral is a digit of its base. -/
theorem isDigitIn_of_mem_toDigits {b n : ℕ} (hb : 1 < b) (hb' : b ≤ 16) {c : Char}
    (hc : c ∈ Nat.toDigits b n) : isDigitIn b c := by
  induction n using Nat.strongRecOn with
  | ind n ih =>
    rw [Nat.toDigits_eq_if hb] at hc
    split at hc
    · rename_i hn
      rw [List.mem_singleton] at hc
      exact hc ▸ isDigitIn_digitChar hb' hn
    · rename_i hn
      rcases List.mem_append.1 hc with h | h
      · exact ih (n / b) (Nat.div_lt_self (by omega) hb) h
      · rw [List.mem_singleton] at h
        exact h ▸ isDigitIn_digitChar hb' (Nat.mod_lt _ (by omega))

/-! ## Reading a numeral -/

/-- Read the digits of a text in base `b` onto an accumulator. -/
def readFrom (b : ℕ) : ℕ → Text → Option ℕ
  | acc, [] => some acc
  | acc, c :: cs => do
    let d ← digitVal c
    if d < b then readFrom b (acc * b + d) cs else none

/-- Read a non-empty text of digits in base `b`. -/
def readNumeral (b : ℕ) (l : Text) : Option ℕ := if l = [] then none else readFrom b 0 l

theorem readFrom_append (b acc : ℕ) (l m : Text) :
    readFrom b acc (l ++ m) = (readFrom b acc l).bind fun v => readFrom b v m := by
  induction l generalizing acc with
  | nil => rfl
  | cons c cs ih =>
    simp only [List.cons_append, readFrom]
    cases digitVal c with
    | none => rfl
    | some d =>
      by_cases hd : d < b
      · simp [hd, ih]
      · simp [hd]

theorem readFrom_digitChar {b d : ℕ} (hb : b ≤ 16) (hd : d < b) (acc : ℕ) :
    readFrom b acc [d.digitChar] = some (acc * b + d) := by
  simp [readFrom, digitVal_digitChar (hd.trans_le hb), hd]

theorem readFrom_zero_toDigits {b : ℕ} (hb : 1 < b) (hb' : b ≤ 16) (n : ℕ) :
    readFrom b 0 (Nat.toDigits b n) = some n := by
  induction n using Nat.strongRecOn with
  | ind n ih =>
    rw [Nat.toDigits_eq_if hb]
    split
    · rename_i hn
      rw [readFrom_digitChar hb' hn, Nat.zero_mul, Nat.zero_add]
    · rename_i hn
      rw [readFrom_append, ih (n / b) (Nat.div_lt_self (by omega) hb), Option.bind_some,
        readFrom_digitChar hb' (Nat.mod_lt _ (by omega)), Nat.div_add_mod']

/-- **Reading undoes writing**, in every base up to sixteen. -/
theorem readNumeral_toDigits {b : ℕ} (hb : 1 < b) (hb' : b ≤ 16) (n : ℕ) :
    readNumeral b (Nat.toDigits b n) = some n := by
  rw [readNumeral, if_neg Nat.toDigits_ne_nil, readFrom_zero_toDigits hb hb']

/-- Digits can be read. -/
theorem readFrom_of_forall {b : ℕ} {l : Text} (hl : ∀ c ∈ l, isDigitIn b c) (acc : ℕ) :
    ∃ v, readFrom b acc l = some v := by
  induction l generalizing acc with
  | nil => exact ⟨acc, rfl⟩
  | cons c cs ih =>
    have hc := hl c (by simp)
    unfold isDigitIn at hc
    cases hd : digitVal c with
    | none => simp [hd] at hc
    | some d =>
      simp only [hd, Option.any_some, decide_eq_true_eq] at hc
      obtain ⟨v, hv⟩ := ih (fun x hx => hl x (List.mem_cons_of_mem _ hx)) (acc * b + d)
      exact ⟨v, by simp [readFrom, hd, hc, hv]⟩

theorem readNumeral_of_forall {b : ℕ} {l : Text} (hne : l ≠ []) (hl : ∀ c ∈ l, isDigitIn b c) :
    ∃ v, readNumeral b l = some v := by
  rw [readNumeral, if_neg hne]
  exact readFrom_of_forall hl 0

/-! ## Values of digit strings -/

theorem isDigitIn_eq_of_isDigit {c : Char} (hc : c.isDigit) (b : ℕ) :
    digitVal c = some (c.toNat - '0'.toNat) ∧
      isDigitIn b c = decide (c.toNat - '0'.toNat < b) := by
  have hval : digitVal c = some (c.toNat - '0'.toNat) := by
    rw [digitVal, if_pos]
    simpa [Char.isDigit, Char.le_def] using hc
  simp [isDigitIn, hval]

/-- The digits of a base up to ten are decimal digits. -/
theorem isDigit_of_isDigitIn {b : ℕ} (hb : b ≤ 10) {c : Char} (h : isDigitIn b c) :
    c.isDigit := by
  by_contra hc
  have hrange : ¬ ('0' ≤ c ∧ c ≤ '9') := by simpa [Char.isDigit, Char.le_def] using hc
  simp only [isDigitIn, digitVal, if_neg hrange] at h
  -- a letter counts for ten at least
  split at h
  · simp only [Option.any_some, decide_eq_true_eq] at h
    omega
  · split at h
    · simp only [Option.any_some, decide_eq_true_eq] at h
      omega
    · simp at h

theorem isDigitIn_ten (c : Char) : isDigitIn 10 c ↔ c.isDigit := by
  refine ⟨isDigit_of_isDigitIn le_rfl, fun h => ?_⟩
  rw [(isDigitIn_eq_of_isDigit h 10).2, decide_eq_true_eq]
  simp only [Char.isDigit, Bool.and_eq_true, decide_eq_true_eq, UInt32.le_iff_toNat_le] at h
  have hle : c.toNat ≤ '9'.toNat := h.2
  have h0 : '0'.toNat = 48 := rfl
  have h9 : '9'.toNat = 57 := rfl
  omega

/-- **What is read**: the value of the digits, if all characters are digits of the base. -/
theorem readFrom_eq_some_iff {b : ℕ} (hb : b ≤ 10) {acc v : ℕ} {l : Text} :
    readFrom b acc l = some v ↔
      (∀ c ∈ l, isDigitIn b c) ∧ Nat.ofDigitChars b l acc = v := by
  induction l generalizing acc with
  | nil => simp [readFrom]
  | cons c cs ih =>
    rw [List.forall_mem_cons, Nat.ofDigitChars_cons, Nat.mul_comm b acc, and_assoc]
    by_cases hc : isDigitIn b c
    · obtain ⟨hval, hdigit⟩ := isDigitIn_eq_of_isDigit (isDigit_of_isDigitIn hb hc) b
      rw [hdigit, decide_eq_true_eq] at hc
      simp only [readFrom, hval, Option.bind_eq_bind, Option.bind_some, hdigit, hc, if_true, ih,
        decide_true, true_and]
    · refine iff_of_false (fun h => hc ?_) fun h => hc h.1
      simp only [readFrom, Option.bind_eq_bind, Option.bind_eq_some_iff] at h
      obtain ⟨d, hd, h⟩ := h
      rw [Option.ite_none_right_eq_some] at h
      simp [isDigitIn, hd, h.1]

/-- A non-empty text of decimal digits. -/
def IsDecimal (t : Text) : Prop := t ≠ [] ∧ ∀ c ∈ t, c.isDigit

/-- The number that a text of decimal digits writes. -/
def decimalValue (t : Text) : ℕ := Nat.ofDigitChars 10 t 0

theorem readNumeral_ten_eq_some_iff {t : Text} {v : ℕ} :
    readNumeral 10 t = some v ↔ IsDecimal t ∧ decimalValue t = v := by
  rw [readNumeral, Option.ite_none_left_eq_some, readFrom_eq_some_iff le_rfl, IsDecimal, and_assoc,
    decimalValue]
  simp only [isDigitIn_ten, ne_eq]

theorem decimalValue_concat (t : Text) (c : Char) :
    decimalValue (t ++ [c]) = 10 * decimalValue t + (c.toNat - '0'.toNat) := by
  rw [decimalValue, Nat.ofDigitChars_append, Nat.ofDigitChars_cons, Nat.ofDigitChars_nil,
    decimalValue]

theorem decimalValue_zero_cons (t : Text) : decimalValue ('0' :: t) = decimalValue t := by
  rw [decimalValue, Nat.ofDigitChars_cons]
  rfl

theorem sub_le_decimalValue {t : Text} {c : Char} (hc : c ∈ t) :
    c.toNat - '0'.toNat ≤ decimalValue t := by
  induction t using List.reverseRecOn with
  | nil => cases hc
  | append_singleton t d ih =>
    rw [decimalValue_concat]
    rcases List.mem_append.1 hc with hc | hc
    · have := ih hc
      omega
    · rw [List.mem_singleton.1 hc]
      omega

theorem isDecimal_toDigits (n : ℕ) : IsDecimal (Nat.toDigits 10 n) :=
  (readNumeral_ten_eq_some_iff.1 (readNumeral_toDigits (by norm_num) (by norm_num) n)).1

theorem decimalValue_toDigits (n : ℕ) : decimalValue (Nat.toDigits 10 n) = n :=
  (readNumeral_ten_eq_some_iff.1 (readNumeral_toDigits (by norm_num) (by norm_num) n)).2

/-! ### In a smaller base -/

theorem ofDigitChars_le_decimalValue {b : ℕ} (hb : b ≤ 10) (l : Text) :
    Nat.ofDigitChars b l 0 ≤ decimalValue l := by
  induction l using List.reverseRecOn with
  | nil => rfl
  | append_singleton l c ih =>
    rw [decimalValue_concat, Nat.ofDigitChars_append, Nat.ofDigitChars_cons, Nat.ofDigitChars_nil]
    exact Nat.add_le_add_right (Nat.mul_le_mul hb ih) _

/-- Digits mean the same in a smaller base only if they write one of its digits. -/
theorem readFrom_eq_decimalValue_iff {b : ℕ} (h0 : 0 < b) (hb : b < 10) {l : Text}
    (hl : ∀ c ∈ l, c.isDigit) : readFrom b 0 l = some (decimalValue l) ↔ decimalValue l < b := by
  rcases List.eq_nil_or_concat l with rfl | ⟨l, c, rfl⟩
  · exact iff_of_true rfl h0
  rw [List.concat_eq_append] at hl ⊢
  have hle := ofDigitChars_le_decimalValue hb.le l
  obtain ⟨-, hdigit⟩ := isDigitIn_eq_of_isDigit (hl c (by simp)) b
  rw [readFrom_eq_some_iff hb.le, decimalValue_concat, Nat.ofDigitChars_append,
    Nat.ofDigitChars_cons, Nat.ofDigitChars_nil]
  constructor
  · rintro ⟨hdigits, hval⟩
    -- the digits in front of the last one are zeros
    have hlast := hdigits c (by simp)
    rw [hdigit, decide_eq_true_eq] at hlast
    have hmul := Nat.mul_le_mul_left b hle
    have hzero : decimalValue l = 0 := by
      by_contra hpos
      have := Nat.mul_lt_mul_of_pos_right hb (Nat.pos_of_ne_zero hpos)
      omega
    omega
  · intro hlt
    have hzero : decimalValue l = 0 := by omega
    refine ⟨fun x hx => ?_, ?_⟩
    · rw [(isDigitIn_eq_of_isDigit (hl x hx) b).2, decide_eq_true_eq]
      rcases List.mem_append.1 hx with hx | hx
      · have := sub_le_decimalValue hx
        omega
      · rw [List.mem_singleton.1 hx]
        omega
    · rw [hzero] at hle
      rw [Nat.le_zero.1 hle, hzero, Nat.mul_zero, Nat.mul_zero]

/-! ## Leading zeros -/

/-- A text has no leading zero: it is a single character or begins with another one. -/
def NoLeadingZero (t : Text) : Prop := t.length = 1 ∨ t.head? ≠ some '0'

theorem digitChar_ne_zero {d : ℕ} (h0 : d ≠ 0) (hd : d < 16) : d.digitChar ≠ '0' := by
  have h : ∀ d : Fin 16, (d : ℕ) ≠ 0 → (d : ℕ).digitChar ≠ '0' := by decide
  exact h ⟨d, hd⟩ h0

/-- The numeral of a positive number does not begin with a zero. -/
theorem head?_toDigits_ne {b n : ℕ} (hb : 1 < b) (hb' : b ≤ 16) (hn : n ≠ 0) :
    (Nat.toDigits b n).head? ≠ some '0' := by
  induction n using Nat.strongRecOn with
  | ind n ih =>
    rw [Nat.toDigits_eq_if hb]
    split
    · rename_i hlt
      simpa using digitChar_ne_zero hn (hlt.trans_le hb')
    · rename_i hlt
      have hq : n / b ≠ 0 := Nat.div_ne_zero_iff.2 ⟨by omega, by omega⟩
      rw [List.head?_append_of_ne_nil _ Nat.toDigits_ne_nil]
      exact ih (n / b) (Nat.div_lt_self (by omega) hb) hq

theorem digitChar_sub_of_isDigit {c : Char} (hc : c.isDigit) :
    c.toNat - '0'.toNat < 10 ∧ (c.toNat - '0'.toNat).digitChar = c := by
  have hval := (isDigitIn_eq_of_isDigit hc 10).2
  rw [isDigitIn_ten c |>.2 hc, eq_comm, decide_eq_true_eq] at hval
  refine ⟨hval, ?_⟩
  simp only [Char.isDigit, Bool.and_eq_true, decide_eq_true_eq, UInt32.le_iff_toNat_le] at hc
  have hge : '0'.toNat ≤ c.toNat := hc.1
  have hdigits : ∀ d : Fin 10, (d : ℕ).digitChar = Char.ofNat ((d : ℕ) + '0'.toNat) := by decide
  have hc' := hdigits ⟨c.toNat - '0'.toNat, hval⟩
  rwa [Nat.sub_add_cancel hge, Char.ofNat_toNat] at hc'

/-- **Writing undoes reading** on the texts without a leading zero. -/
theorem toDigits_decimalValue {t : Text} (ht : IsDecimal t) (hzero : NoLeadingZero t) :
    Nat.toDigits 10 (decimalValue t) = t := by
  -- by induction from the last digit, since the writer appends the last digit
  induction t using List.reverseRecOn with
  | nil => exact absurd rfl ht.1
  | append_singleton t c ih =>
    obtain ⟨hlt, hchar⟩ := digitChar_sub_of_isDigit (ht.2 c (by simp))
    rw [decimalValue_concat]
    by_cases hnil : t = []
    · subst hnil
      rw [show decimalValue [] = 0 from rfl, Nat.mul_zero, Nat.zero_add,
        Nat.toDigits_of_lt_base hlt, hchar, List.nil_append]
    · have hdec : IsDecimal t := ⟨hnil, fun x hx => ht.2 x (List.mem_append_left _ hx)⟩
      have hhead : t.head? ≠ some '0' := by
        have hlen : (t ++ [c]).length ≠ 1 := by simpa using hnil
        have := hzero.resolve_left hlen
        rwa [List.head?_append_of_ne_nil _ hnil] at this
      have hdigits := ih hdec (.inr hhead)
      have hpos : decimalValue t ≠ 0 := by
        intro h0
        rw [h0] at hdigits
        exact hhead (by rw [← hdigits]; rfl)
      rw [Nat.toDigits_eq_if (by norm_num), if_neg (by omega)]
      have hdiv : (10 * decimalValue t + (c.toNat - '0'.toNat)) / 10 = decimalValue t := by omega
      have hmod : (10 * decimalValue t + (c.toNat - '0'.toNat)) % 10 = c.toNat - '0'.toNat := by
        omega
      rw [hdiv, hmod, hdigits, hchar]

theorem noLeadingZero_toDigits (n : ℕ) : NoLeadingZero (Nat.toDigits 10 n) := by
  by_cases hn : n = 0
  · subst hn
    exact .inl rfl
  · exact .inr (head?_toDigits_ne (by norm_num) (by norm_num) hn)

/-! ## Signed decimals -/

/-- The decimal text of an integer. -/
def decimal : ℤ → Text
  | .ofNat n => Nat.toDigits 10 n
  | .negSucc n => '-' :: Nat.toDigits 10 (n + 1)

/-- Read a decimal with an optional minus sign. -/
def readDecimal : Text → Option ℤ
  | '-' :: l => (readNumeral 10 l).map fun n => -(n : ℤ)
  | l => (readNumeral 10 l).map Int.ofNat

/-- A character that is not a decimal digit does not occur in a natural number's decimal. -/
theorem not_mem_toDigits_ten {c : Char} (hc : isDigitIn 10 c = false) (n : ℕ) :
    c ∉ Nat.toDigits 10 n := fun h => by
  simp [isDigitIn_of_mem_toDigits (by norm_num) (by norm_num) h] at hc

theorem not_mem_decimal {c : Char} (hc : isDigitIn 10 c = false) (hm : c ≠ '-') (z : ℤ) :
    c ∉ decimal z := by
  cases z with
  | ofNat n => exact not_mem_toDigits_ten hc n
  | negSucc n =>
    rw [decimal, List.mem_cons, not_or]
    exact ⟨hm, not_mem_toDigits_ten hc _⟩

/-- **Reading a decimal undoes writing it.** -/
theorem readDecimal_decimal (z : ℤ) : readDecimal (decimal z) = some z := by
  cases z with
  | ofNat n =>
    have hr := readNumeral_toDigits (b := 10) (by norm_num) (by norm_num) n
    have hm : '-' ∉ Nat.toDigits 10 n := not_mem_toDigits_ten (by decide) n
    rw [decimal]
    unfold readDecimal
    split
    · -- a natural number's decimal has no minus sign
      rename_i h
      simp [h] at hm
    · rw [hr]
      rfl
  | negSucc n =>
    rw [decimal, readDecimal, readNumeral_toDigits (by norm_num) (by norm_num)]
    rfl

end Text

end WireProxy
