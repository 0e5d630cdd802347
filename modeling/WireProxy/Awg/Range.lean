import WireProxy.Config.Ini

/-!
# Ranges

An AmneziaWG interval parameter, written `a` or `a-b`: the type `uintRange`, its text and the
parser `parseUintRange`.

* `RangeText` is the grammar, and `parseUintRange_eq_ok_iff` says that the parser accepts exactly
  this. So a range that was parsed has its bounds in order (`le_of_parseUintRange`).
* `parseUintRange_toText`: the text of a range whose bounds are in order parses to that range.
* `uintRange_text_inverse`: printing and parsing are inverse to each other on the canonical texts.
-/

namespace WireProxy.Awg

open Text Go Config Control

/-- `uintRange`. -/
structure UintRange where
  min : UInt32
  max : UInt32
  deriving DecidableEq

/-- `uintRange.String`. -/
def UintRange.toText (r : UintRange) : Text :=
  if r.min = r.max then Nat.toDigits 10 r.min.toNat
  else Nat.toDigits 10 r.min.toNat ++ '-' :: Nat.toDigits 10 r.max.toNat

/-- `strconv.ParseUint(s, 10, 32)`, converted to `uint32`. -/
def parseUint32 (s : Text) : Except Err UInt32 :=
  match parseUint10 32 s with
  | .error e => .error (.num "ParseUint" s e)
  | .ok v => .ok (UInt32.ofNat v)

/-- `parseUintRange`. -/
def parseUintRange (value : Text) : Except Err UintRange :=
  let trimmed := trimSpace value
  if trimmed = [] then .error (.msg "empty range value")
  else
    let parts := trimmed.splitOn '-'
    if 2 < parts.length ∨ parts.getD 0 [] = [] then .error (.msg "invalid range format")
    else do
      let minValue ← parseUint32 (parts.getD 0 [])
      if parts.length = 1 then .ok ⟨minValue, minValue⟩
      else if parts.getD 1 [] = [] then .error (.msg "invalid range format")
      else do
        let maxValue ← parseUint32 (parts.getD 1 [])
        if minValue > maxValue then
          .error (.msg "invalid range: lower bound cannot exceed upper bound")
        else .ok ⟨minValue, maxValue⟩

/-! ## The grammar -/

/-- The texts of ranges and the numbers that they write: one decimal, or two of them in order with
a dash between them. -/
inductive RangeText : Text → ℕ → ℕ → Prop
  | one {d : Text} (hd : IsDecimal d) : RangeText d (decimalValue d) (decimalValue d)
  | two {d₁ d₂ : Text} (h₁ : IsDecimal d₁) (h₂ : IsDecimal d₂)
    (hle : decimalValue d₁ ≤ decimalValue d₂) :
    RangeText (d₁ ++ '-' :: d₂) (decimalValue d₁) (decimalValue d₂)

theorem RangeText.le {t : Text} {lo hi : ℕ} (h : RangeText t lo hi) : lo ≤ hi := by
  cases h with
  | one _ => exact le_rfl
  | two _ _ hle => exact hle

theorem dash_not_mem {d : Text} (hd : IsDecimal d) : '-' ∉ d := fun hmem => by
  simpa using hd.2 '-' hmem

theorem rangeText_iff_splitOn {t : Text} {lo hi : ℕ} :
    RangeText t lo hi ↔
      (∃ d, t.splitOn '-' = [d] ∧ (IsDecimal d ∧ decimalValue d = lo) ∧ lo = hi) ∨
        ∃ d₁ d₂, t.splitOn '-' = [d₁, d₂] ∧ (IsDecimal d₁ ∧ decimalValue d₁ = lo) ∧
          (IsDecimal d₂ ∧ decimalValue d₂ = hi) ∧ lo ≤ hi := by
  have hjoin : ['-'].intercalate (t.splitOn '-') = t := List.intercalate_splitOn '-'
  constructor
  · intro h
    cases h with
    | one hd => exact .inl ⟨t, List.splitOn_eq_singleton (dash_not_mem hd), ⟨hd, rfl⟩, rfl⟩
    | two h₁ h₂ hle =>
      refine .inr ⟨_, _, ?_, ⟨h₁, rfl⟩, ⟨h₂, rfl⟩, hle⟩
      rw [List.splitOn_append_cons_self_of_not_mem (dash_not_mem h₁),
        List.splitOn_eq_singleton (dash_not_mem h₂)]
  · rintro (⟨d, hsplit, ⟨hd, rfl⟩, rfl⟩ | ⟨d₁, d₂, hsplit, ⟨h₁, rfl⟩, ⟨h₂, rfl⟩, hle⟩)
    · rw [hsplit] at hjoin
      obtain rfl : d = t := by simpa using hjoin
      exact .one hd
    · rw [hsplit] at hjoin
      obtain rfl : d₁ ++ '-' :: d₂ = t := by simpa [List.intercalate] using hjoin
      exact .two h₁ h₂ hle

theorem parseUint32_eq_ok_iff {s : Text} {n : UInt32} :
    parseUint32 s = .ok n ↔ IsDecimal s ∧ decimalValue s = n.toNat := by
  unfold parseUint32
  constructor
  · intro h
    split at h
    · cases h
    · rename_i v hv
      obtain ⟨hread, hlt⟩ := parseUint10_eq_ok_iff.1 hv
      obtain ⟨hs, rfl⟩ := readNumeral_ten_eq_some_iff.1 hread
      rw [← Except.ok.inj h, UInt32.toNat_ofNat', Nat.mod_eq_of_lt hlt]
      exact ⟨hs, rfl⟩
  · intro h
    rw [parseUint10_eq_ok_iff.2 ⟨readNumeral_ten_eq_some_iff.2 h, n.toNat_lt⟩]
    exact congrArg Except.ok UInt32.ofNat_toNat

/-- **The parser accepts exactly the grammar**, with white space around the text. -/
theorem parseUintRange_eq_ok_iff {t : Text} {r : UintRange} :
    parseUintRange t = .ok r ↔ RangeText (trimSpace t) r.min.toNat r.max.toNat := by
  rw [rangeText_iff_splitOn]
  simp only [parseUintRange, ite_error_eq_ok_iff, bind_eq_ok_iff, ← parseUint32_eq_ok_iff]
  have hne {s : Text} {n : UInt32} (h : parseUint32 s = .ok n) : s ≠ [] :=
    (parseUint32_eq_ok_iff.1 h).1.1
  have htrim {d : Text} {parts : List Text} (hsplit : (trimSpace t).splitOn '-' = d :: parts)
      (hd : d ≠ []) : trimSpace t ≠ [] := by
    intro hnil
    rw [hnil, List.splitOn_nil, List.cons.injEq] at hsplit
    exact hd hsplit.1.symm
  -- one case for each number of pieces
  rcases hsplit : (trimSpace t).splitOn '-' with _ | ⟨d₁, _ | ⟨d₂, _ | ⟨d₃, parts⟩⟩⟩
  · exact absurd hsplit (List.splitOn_ne_nil _ _)
  · simp only [List.length_singleton, List.getD_cons_zero, if_true, Except.ok.injEq,
      List.cons.injEq, and_true, reduceCtorEq, and_false, false_and, exists_false, or_false,
      exists_eq_left']
    constructor
    · rintro ⟨-, -, lo, hlo, rfl⟩
      exact ⟨hlo, rfl⟩
    · rintro ⟨hlo, heq⟩
      refine ⟨htrim hsplit (hne hlo), by simpa using hne hlo, r.min, hlo, ?_⟩
      exact congrArg _ (UInt32.toNat_inj.1 heq)
  · simp only [List.length_cons, List.length_nil, Nat.reduceAdd, Nat.reduceEqDiff, Nat.lt_irrefl,
      false_or, if_false, List.getD_cons_zero, List.getD_cons_succ, ite_error_eq_ok_iff,
      bind_eq_ok_iff, Except.ok.injEq, List.cons.injEq, and_true, reduceCtorEq, and_false,
      false_and, exists_false]
    constructor
    · rintro ⟨-, -, lo, hlo, -, hi, hhi, hle, rfl⟩
      exact ⟨d₁, d₂, ⟨rfl, rfl⟩, hlo, hhi, UInt32.le_iff_toNat_le.1 (UInt32.not_lt.1 hle)⟩
    · rintro ⟨_, _, ⟨rfl, rfl⟩, hlo, hhi, hle⟩
      exact ⟨htrim hsplit (hne hlo), hne hlo, r.min, hlo, hne hhi, r.max, hhi,
        UInt32.not_lt.2 (UInt32.le_iff_toNat_le.2 hle), rfl⟩
  · -- more than one dash
    simp only [List.length_cons, List.cons.injEq, reduceCtorEq, and_false, false_and,
      exists_false, or_false, iff_false]
    rintro ⟨-, hlen, -⟩
    exact hlen (.inl (by omega))

/-! ## Canonical texts -/

/-- The canonical texts of ranges: numbers without leading zeros, and a second one only if it
differs from the first. -/
inductive Canonical : Text → Prop
  | one {d : Text} (hd : IsDecimal d) (hzero : NoLeadingZero d) : Canonical d
  | two {d₁ d₂ : Text} (h₁ : IsDecimal d₁) (hzero₁ : NoLeadingZero d₁) (h₂ : IsDecimal d₂)
    (hzero₂ : NoLeadingZero d₂) (hne : d₁ ≠ d₂) : Canonical (d₁ ++ '-' :: d₂)

theorem canonical_toText (r : UintRange) : Canonical r.toText := by
  rw [UintRange.toText]
  split
  · exact .one (isDecimal_toDigits _) (noLeadingZero_toDigits _)
  · rename_i hne
    refine .two (isDecimal_toDigits _) (noLeadingZero_toDigits _) (isDecimal_toDigits _)
      (noLeadingZero_toDigits _) fun heq => hne ?_
    have hval := congrArg decimalValue heq
    rwa [decimalValue_toDigits, decimalValue_toDigits, UInt32.toNat_inj] at hval

theorem isSpace_of_mem_canonical {t : Text} (ht : Canonical t) {c : Char} (hc : c ∈ t) :
    isSpace c = false := by
  have hdigit {d : Text} (hd : IsDecimal d) (hc : c ∈ d) : isSpace c = false :=
    isSpace_of_isDigitIn ((isDigitIn_ten c).2 (hd.2 c hc))
  cases ht with
  | one hd _ => exact hdigit hd hc
  | two h₁ _ h₂ _ _ =>
    rw [List.mem_append, List.mem_cons] at hc
    rcases hc with hc | rfl | hc
    · exact hdigit h₁ hc
    · decide
    · exact hdigit h₂ hc

/-! ## Reading a printed range -/

theorem rangeText_toText {r : UintRange} (h : r.min ≤ r.max) :
    RangeText r.toText r.min.toNat r.max.toNat := by
  rw [UintRange.toText]
  have hone := RangeText.one (isDecimal_toDigits r.min.toNat)
  split
  · rename_i hmm
    rw [← hmm]
    simpa only [decimalValue_toDigits] using hone
  · have htwo := RangeText.two (isDecimal_toDigits r.min.toNat) (isDecimal_toDigits r.max.toNat)
    simp only [decimalValue_toDigits] at htwo
    exact htwo (UInt32.le_iff_toNat_le.1 h)

/-- The pieces of a printed range. -/
theorem UintRange.splitOn_toText (r : UintRange) :
    r.toText.splitOn '-' =
      if r.min = r.max then [Nat.toDigits 10 r.min.toNat]
      else [Nat.toDigits 10 r.min.toNat, Nat.toDigits 10 r.max.toNat] := by
  rw [UintRange.toText]
  split
  · exact List.splitOn_eq_singleton (dash_not_mem (isDecimal_toDigits _))
  · rw [List.splitOn_append_cons_self_of_not_mem (dash_not_mem (isDecimal_toDigits _)),
      List.splitOn_eq_singleton (dash_not_mem (isDecimal_toDigits _))]

/-- A printed range has no white space around it. -/
theorem UintRange.trimSpace_toText (r : UintRange) : trimSpace r.toText = r.toText :=
  trimSpace_of_forall fun _ hc => isSpace_of_mem_canonical (canonical_toText r) hc

/-- **Parsing undoes printing** on ranges whose bounds are in order. -/
theorem parseUintRange_toText {r : UintRange} (h : r.min ≤ r.max) :
    parseUintRange r.toText = .ok r :=
  parseUintRange_eq_ok_iff.2 (r.trimSpace_toText.symm ▸ rangeText_toText h)

theorem parseUintRange_zero : parseUintRange ("0" : String).toList = .ok ⟨0, 0⟩ := by
  decide +kernel

/-- White space around a range does not matter. -/
theorem parseUintRange_trimSpace (t : Text) : parseUintRange (trimSpace t) = parseUintRange t := by
  simp only [parseUintRange, trimSpace_trimSpace]

theorem le_of_parseUintRange {t : Text} {r : UintRange} (h : parseUintRange t = .ok r) :
    r.min ≤ r.max := by
  rw [UInt32.le_iff_toNat_le]
  rcases rangeText_iff_splitOn.1 (parseUintRange_eq_ok_iff.1 h) with
    ⟨-, -, -, heq⟩ | ⟨-, -, -, -, -, hle⟩
  · exact heq.le
  · exact hle

/-! ## Printing a parsed range -/

theorem dash_mem_toText_iff (r : UintRange) : '-' ∈ r.toText ↔ r.min ≠ r.max := by
  rw [UintRange.toText]
  split
  · rename_i heq
    exact iff_of_false (dash_not_mem (isDecimal_toDigits _)) (not_not.2 heq)
  · rename_i hne
    exact iff_of_true (by simp) hne

/-- **A canonical text is the printed text of its range.** -/
theorem toText_of_canonical {t : Text} (ht : Canonical t) {r : UintRange}
    (h : parseUintRange t = .ok r) : r.toText = t := by
  have htrim : trimSpace t = t := trimSpace_of_forall fun c hc => isSpace_of_mem_canonical ht hc
  have hrange := parseUintRange_eq_ok_iff.1 h
  rw [htrim, rangeText_iff_splitOn] at hrange
  rw [UintRange.toText]
  cases ht with
  | one hd hzero =>
    rw [List.splitOn_eq_singleton (dash_not_mem hd)] at hrange
    rcases hrange with ⟨d, hsplit, ⟨-, hval⟩, heq⟩ | ⟨d₁, d₂, hsplit, -⟩
    · obtain rfl : t = d := by simpa using hsplit
      rw [if_pos (UInt32.toNat_inj.1 heq), ← hval, toDigits_decimalValue hd hzero]
    · simp at hsplit
  | two h₁ hzero₁ h₂ hzero₂ hne =>
    rw [List.splitOn_append_cons_self_of_not_mem (dash_not_mem h₁),
      List.splitOn_eq_singleton (dash_not_mem h₂)] at hrange
    rcases hrange with ⟨d, hsplit, -⟩ | ⟨d₁, d₂, hsplit, ⟨-, hval₁⟩, ⟨-, hval₂⟩, -⟩
    · simp at hsplit
    · simp only [List.cons.injEq, and_true] at hsplit
      obtain ⟨rfl, rfl⟩ := hsplit
      have hmm : r.min ≠ r.max := by
        intro heq
        rw [← UInt32.toNat_inj, ← hval₁, ← hval₂] at heq
        exact hne (by rw [← toDigits_decimalValue h₁ hzero₁, heq, toDigits_decimalValue h₂ hzero₂])
      rw [if_neg hmm, ← hval₁, ← hval₂, toDigits_decimalValue h₁ hzero₁,
        toDigits_decimalValue h₂ hzero₂]

/-- Parse a range and print it. -/
def normalize (t : Text) : Except Err Text := UintRange.toText <$> parseUintRange t

/-- **Texts and ranges are inverse to each other.**

* Printing and parsing gives the range back, and different ranges have different texts.
* The text of a range that was parsed is its canonical text, the only one that parses to it. It has
  no blanks, and one number exactly when the bounds are equal.
* Parsing and printing twice is the same as doing it once. -/
theorem uintRange_text_inverse :
    (∀ r : UintRange, r.min ≤ r.max → parseUintRange r.toText = .ok r) ∧
    (∀ t r, parseUintRange t = .ok r →
      Canonical r.toText ∧ (∀ t', Canonical t' → parseUintRange t' = .ok r → t' = r.toText) ∧
      (∀ c ∈ r.toText, isSpace c = false) ∧ ('-' ∉ r.toText ↔ r.min = r.max)) ∧
    Set.InjOn UintRange.toText {r | r.min ≤ r.max} ∧
    (∀ t t', normalize t = .ok t' → normalize t' = .ok t') := by
  refine ⟨fun r hr => parseUintRange_toText hr, fun t r h => ⟨canonical_toText r, ?_, ?_, ?_⟩,
    ?_, ?_⟩
  · intro t' ht' h'
    exact (toText_of_canonical ht' h').symm
  · exact fun c hc => isSpace_of_mem_canonical (canonical_toText r) hc
  · rw [dash_mem_toText_iff, not_not]
  · intro r hr r' hr' heq
    have h := parseUintRange_toText hr
    rw [heq, parseUintRange_toText hr', Except.ok.injEq] at h
    exact h.symm
  · intro t t' h
    cases hparse : parseUintRange t with
    | error e =>
      rw [normalize, hparse] at h
      cases h
    | ok r =>
      rw [normalize, hparse] at h
      obtain rfl : r.toText = t' := Except.ok.inj h
      rw [normalize, parseUintRange_toText (le_of_parseUintRange hparse)]
      rfl

theorem UintRange.newline_not_mem_toText (r : UintRange) : '\n' ∉ r.toText := by
  have hd : ∀ n, '\n' ∉ Nat.toDigits 10 n := not_mem_toDigits_ten (by decide)
  rw [UintRange.toText]
  split <;> simp [hd]

end WireProxy.Awg
