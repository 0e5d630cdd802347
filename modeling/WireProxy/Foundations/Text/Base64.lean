import WireProxy.Foundations.Text.Numerals

/-!
# Byte strings as text

Two text forms of a byte string: hexadecimal, two lower-case digits for each byte, and base64
with the standard alphabet and `=` padding.

* `decodeHex_encodeHex` and `decodeBase64_encodeBase64`: decoding undoes encoding.
* Base64 decoding skips carriage returns and newlines wherever they stand and does not look at
  the unused low bits of the last digit before the padding, so it accepts more texts than the
  encoder writes.
-/

namespace WireProxy.Text

/-- A string of bytes. -/
abbrev Bytes := List UInt8

/-! ## Hexadecimal -/

/-- The two digits of a byte. -/
def hexPair (b : UInt8) : Text := [(b.toNat / 16).digitChar, (b.toNat % 16).digitChar]

/-- The hexadecimal text of a byte string. -/
def encodeHex (l : Bytes) : Text := l.flatMap hexPair

/-- Read two hexadecimal digits for each byte. -/
def decodeHex : Text → Option Bytes
  | [] => some []
  | [_] => none
  | h :: l :: rest => do
    let v ← readNumeral 16 [h, l]
    let bs ← decodeHex rest
    return UInt8.ofNat v :: bs

theorem readNumeral_hexPair (b : UInt8) : readNumeral 16 (hexPair b) = some b.toNat := by
  have hb : b.toNat < 256 := b.toNat_lt
  have hh : b.toNat / 16 < 16 := by omega
  have hl : b.toNat % 16 < 16 := by omega
  simp [readNumeral, hexPair, readFrom, digitVal_digitChar hh, digitVal_digitChar hl, hh, hl]
  omega

theorem decodeHex_hexPair_append (b : UInt8) (t : Text) :
    decodeHex (hexPair b ++ t) = (decodeHex t).map (b :: ·) := by
  have h := readNumeral_hexPair b
  simp only [hexPair] at h
  simp only [hexPair, List.cons_append, List.nil_append, decodeHex, h, Option.bind_eq_bind,
    Option.bind_some, UInt8.ofNat_toNat]
  cases decodeHex t <;> rfl

/-- **Decoding hexadecimal undoes encoding.** -/
@[simp] theorem decodeHex_encodeHex (l : Bytes) : decodeHex (encodeHex l) = some l := by
  induction l with
  | nil => rfl
  | cons b l ih =>
    have h : encodeHex (b :: l) = hexPair b ++ encodeHex l := rfl
    rw [h, decodeHex_hexPair_append, ih, Option.map_some]

theorem isDigitIn_of_mem_encodeHex {l : Bytes} {c : Char} (hc : c ∈ encodeHex l) :
    isDigitIn 16 c := by
  obtain ⟨b, -, hb⟩ := List.mem_flatMap.1 hc
  have hlt : b.toNat < 256 := b.toNat_lt
  simp only [hexPair, List.mem_cons, List.not_mem_nil, or_false] at hb
  rcases hb with rfl | rfl
  · exact isDigitIn_digitChar le_rfl (by omega)
  · exact isDigitIn_digitChar le_rfl (by omega)

theorem newline_not_mem_encodeHex (l : Bytes) : '\n' ∉ encodeHex l := fun h =>
  absurd (isDigitIn_of_mem_encodeHex h) (by decide)

/-! ## Base64 -/

/-- The character of a base64 digit. -/
def sextetChar (n : ℕ) : Char :=
  if n < 26 then Char.ofNat (65 + n)
  else if n < 52 then Char.ofNat (71 + n)
  else if n < 62 then Char.ofNat (n - 4)
  else if n = 62 then '+' else '/'

/-- The base64 digit of a character. -/
def sextetVal (c : Char) : Option ℕ :=
  if 'A' ≤ c ∧ c ≤ 'Z' then some (c.toNat - 65)
  else if 'a' ≤ c ∧ c ≤ 'z' then some (c.toNat - 71)
  else if '0' ≤ c ∧ c ≤ '9' then some (c.toNat + 4)
  else if c = '+' then some 62
  else if c = '/' then some 63
  else none

theorem sextetVal_sextetChar {n : ℕ} (hn : n < 64) : sextetVal (sextetChar n) = some n := by
  have h : ∀ n : Fin 64, sextetVal (sextetChar n) = some (n : ℕ) := by decide
  exact h ⟨n, hn⟩

/-- Neither the padding character nor a line break is a digit. -/
theorem sextetChar_ne {n : ℕ} (hn : n < 64) {c : Char} (hc : sextetVal c = none) :
    sextetChar n ≠ c := by
  rintro rfl
  rw [sextetVal_sextetChar hn] at hc
  cases hc

/-- The number that four digits spell. -/
def quantum (x y z w : ℕ) : ℕ := ((x * 64 + y) * 64 + z) * 64 + w

/-- The four digits of three bytes. -/
def sextets (a b c : UInt8) : ℕ × ℕ × ℕ × ℕ :=
  let v := (a.toNat * 256 + b.toNat) * 256 + c.toNat
  (v / 262144, v / 4096 % 64, v / 64 % 64, v % 64)

/-- The base64 text of a byte string, padded to a multiple of four characters. -/
def encodeBase64 : Bytes → Text
  | [] => []
  | [a] => let (x, y, _, _) := sextets a 0 0; [sextetChar x, sextetChar y, '=', '=']
  | [a, b] => let (x, y, z, _) := sextets a b 0; [sextetChar x, sextetChar y, sextetChar z, '=']
  | a :: b :: c :: rest =>
    let (x, y, z, w) := sextets a b c
    sextetChar x :: sextetChar y :: sextetChar z :: sextetChar w :: encodeBase64 rest

/-- Decode a text without line breaks, four characters at a time. Padding is only accepted in
the last group, which then gives one or two bytes. -/
def decodeQuanta : Text → Option Bytes
  | [] => some []
  | a :: b :: c :: d :: rest =>
    if d = '=' then
      if rest ≠ [] then none
      else if c = '=' then do
        let v := quantum (← sextetVal a) (← sextetVal b) 0 0
        return [UInt8.ofNat (v / 65536)]
      else do
        let v := quantum (← sextetVal a) (← sextetVal b) (← sextetVal c) 0
        return [UInt8.ofNat (v / 65536), UInt8.ofNat (v / 256)]
    else do
      let v := quantum (← sextetVal a) (← sextetVal b) (← sextetVal c) (← sextetVal d)
      let bs ← decodeQuanta rest
      return UInt8.ofNat (v / 65536) :: UInt8.ofNat (v / 256) :: UInt8.ofNat v :: bs
  | _ => none

/-- Decode a base64 text, skipping its line breaks. -/
def decodeBase64 (t : Text) : Option Bytes :=
  decodeQuanta (t.filter fun c => c ≠ '\r' ∧ c ≠ '\n')

/-! The digits of three bytes, and the three bytes back from their digits. -/

theorem sextets_lt (a b c : UInt8) :
    (sextets a b c).1 < 64 ∧ (sextets a b c).2.1 < 64 ∧ (sextets a b c).2.2.1 < 64 ∧
      (sextets a b c).2.2.2 < 64 := by
  have ha : a.toNat < 256 := a.toNat_lt
  have hb : b.toNat < 256 := b.toNat_lt
  have hc : c.toNat < 256 := c.toNat_lt
  simp only [sextets]
  omega

theorem quantum_sextets (a b c : UInt8) :
    quantum (sextets a b c).1 (sextets a b c).2.1 (sextets a b c).2.2.1 (sextets a b c).2.2.2 =
      (a.toNat * 256 + b.toNat) * 256 + c.toNat := by
  simp only [sextets, quantum]
  omega

/-- When the last byte is zero, so is the last digit; when the last two are, so are the last two
digits. -/
theorem sextets_zero (a b : UInt8) :
    (sextets a b 0).2.2.2 = 0 ∧ (sextets a 0 0).2.2.1 = 0 ∧ (sextets a 0 0).2.2.2 = 0 := by
  have ha : a.toNat < 256 := a.toNat_lt
  have hb : b.toNat < 256 := b.toNat_lt
  simp only [sextets, UInt8.toNat_zero]
  omega

theorem ofNat_eq_of_mod {v : ℕ} {a : UInt8} (h : v % 256 = a.toNat) : UInt8.ofNat v = a := by
  apply UInt8.toNat_inj.1
  rw [UInt8.toNat_ofNat', h]

/-- The three bytes of a number with three bytes. -/
theorem bytes_of_quantum (a b c : UInt8) {v : ℕ}
    (hv : v = (a.toNat * 256 + b.toNat) * 256 + c.toNat) :
    UInt8.ofNat (v / 65536) = a ∧ UInt8.ofNat (v / 256) = b ∧ UInt8.ofNat v = c := by
  have ha : a.toNat < 256 := a.toNat_lt
  have hb : b.toNat < 256 := b.toNat_lt
  have hc : c.toNat < 256 := c.toNat_lt
  refine ⟨ofNat_eq_of_mod ?_, ofNat_eq_of_mod ?_, ofNat_eq_of_mod ?_⟩ <;> omega

theorem decodeQuanta_encodeBase64 : ∀ l : Bytes, decodeQuanta (encodeBase64 l) = some l
  | [] => rfl
  | [a] => by
    obtain ⟨h₁, h₂, -, -⟩ := sextets_lt a 0 0
    obtain ⟨-, hz, hw⟩ := sextets_zero a 0
    have hq := quantum_sextets a 0 0
    rw [hz, hw] at hq
    simp [encodeBase64, decodeQuanta, sextetVal_sextetChar h₁, sextetVal_sextetChar h₂,
      (bytes_of_quantum a 0 0 hq).1]
  | [a, b] => by
    obtain ⟨h₁, h₂, h₃, -⟩ := sextets_lt a b 0
    obtain ⟨hw, -, -⟩ := sextets_zero a b
    have hq := quantum_sextets a b 0
    rw [hw] at hq
    have hb := bytes_of_quantum a b 0 hq
    have hne : sextetChar (sextets a b 0).2.2.1 ≠ '=' := sextetChar_ne h₃ (by decide)
    simp [encodeBase64, decodeQuanta, sextetVal_sextetChar h₁, sextetVal_sextetChar h₂,
      sextetVal_sextetChar h₃, hne, hb.1, hb.2.1]
  | a :: b :: c :: rest => by
    obtain ⟨h₁, h₂, h₃, h₄⟩ := sextets_lt a b c
    have hb := bytes_of_quantum a b c (quantum_sextets a b c)
    have hne : sextetChar (sextets a b c).2.2.2 ≠ '=' := sextetChar_ne h₄ (by decide)
    have ih := decodeQuanta_encodeBase64 rest
    simp [encodeBase64, decodeQuanta, sextetVal_sextetChar h₁, sextetVal_sextetChar h₂,
      sextetVal_sextetChar h₃, sextetVal_sextetChar h₄, hne, ih, hb.1, hb.2.1, hb.2.2]

theorem mem_encodeBase64 : ∀ (l : Bytes) {c : Char}, c ∈ encodeBase64 l →
    c = '=' ∨ ∃ n < 64, c = sextetChar n
  | [], c, h => by simp [encodeBase64] at h
  | [a], c, h => by
    obtain ⟨h₁, h₂, -, -⟩ := sextets_lt a 0 0
    simp only [encodeBase64, List.mem_cons, List.not_mem_nil, or_false] at h
    rcases h with rfl | rfl | rfl | rfl
    · exact .inr ⟨_, h₁, rfl⟩
    · exact .inr ⟨_, h₂, rfl⟩
    · exact .inl rfl
    · exact .inl rfl
  | [a, b], c, h => by
    obtain ⟨h₁, h₂, h₃, -⟩ := sextets_lt a b 0
    simp only [encodeBase64, List.mem_cons, List.not_mem_nil, or_false] at h
    rcases h with rfl | rfl | rfl | rfl
    · exact .inr ⟨_, h₁, rfl⟩
    · exact .inr ⟨_, h₂, rfl⟩
    · exact .inr ⟨_, h₃, rfl⟩
    · exact .inl rfl
  | a :: b :: d :: rest, c, h => by
    obtain ⟨h₁, h₂, h₃, h₄⟩ := sextets_lt a b d
    simp only [encodeBase64, List.mem_cons] at h
    rcases h with rfl | rfl | rfl | rfl | h
    · exact .inr ⟨_, h₁, rfl⟩
    · exact .inr ⟨_, h₂, rfl⟩
    · exact .inr ⟨_, h₃, rfl⟩
    · exact .inr ⟨_, h₄, rfl⟩
    · exact mem_encodeBase64 rest h

/-- **Decoding base64 undoes encoding.** -/
@[simp] theorem decodeBase64_encodeBase64 (l : Bytes) : decodeBase64 (encodeBase64 l) = some l := by
  -- the encoder writes no line break, so nothing is skipped
  have hf : (encodeBase64 l).filter (fun c => c ≠ '\r' ∧ c ≠ '\n') = encodeBase64 l := by
    refine List.filter_eq_self.2 fun c hc => ?_
    rcases mem_encodeBase64 l hc with rfl | ⟨n, hn, rfl⟩
    · decide
    · simpa using ⟨sextetChar_ne hn (by decide), sextetChar_ne hn (by decide)⟩
  rw [decodeBase64, hf, decodeQuanta_encodeBase64]

end WireProxy.Text
