import WireProxy.Foundations.Text.Base64
import WireProxy.Foundations.Text.Masking

/-!
# The string functions of Go

The functions of the packages `strings` and `unicode` that the program calls, on texts.

Splitting at a one-character separator is the core library's `List.splitOn`, which returns the
one piece `[]` for the empty text as `strings.Split` does, and cutting at the first separator is
`Text.cut`.
-/

namespace WireProxy.Go

open Text

/-- The bytes of a string. -/
def utf8 (t : Text) : Bytes := t.flatMap String.utf8EncodeChar

/-- `unicode.IsSpace`: the characters with the property White_Space. -/
def isSpace (c : Char) : Bool :=
  let n := c.toNat
  (9 ≤ n && n ≤ 13) || n == 0x20 || n == 0x85 || n == 0xA0 || n == 0x1680 ||
    (0x2000 ≤ n && n ≤ 0x200A) || n == 0x2028 || n == 0x2029 || n == 0x202F || n == 0x205F ||
    n == 0x3000

/-- `strings.TrimSpace`. -/
def trimSpace (t : Text) : Text := ((t.dropWhile isSpace).reverse.dropWhile isSpace).reverse

/-- `strings.HasPrefix`. -/
def hasPrefix (t p : Text) : Bool := p.isPrefixOf t

/-- `strings.TrimPrefix`. -/
def trimPrefix (t p : Text) : Text := if hasPrefix t p then t.drop p.length else t

/-- `strings.Contains`. -/
def contains (t sub : Text) : Bool := t.tails.any (hasPrefix · sub)

/-- `strings.Replace` with a limit of one: the first occurrence of `old` becomes `new`. -/
def replaceFirst (old new : Text) : Text → Text
  | [] => if old = [] then new else []
  | c :: cs => if hasPrefix (c :: cs) old then new ++ (c :: cs).drop old.length
    else c :: replaceFirst old new cs

/-- `strings.ReplaceAll` behind the first `skip` characters, which belong to an occurrence that was
replaced, for a text `old` that is not empty. -/
def replaceFrom (old new : Text) : ℕ → Text → Text
  | _, [] => []
  | skip + 1, _ :: cs => replaceFrom old new skip cs
  | 0, c :: cs =>
    if hasPrefix (c :: cs) old then new ++ replaceFrom old new (old.length - 1) cs
    else c :: replaceFrom old new 0 cs

/-- `strings.ReplaceAll`: from the left, the occurrences of `old` become `new`. -/
def replaceAll (old new t : Text) : Text := replaceFrom old new 0 t

/-- `strings.ToLower` on a text of ASCII characters. -/
def toLower (t : Text) : Text := t.map Char.toLower

/-- `strings.EqualFold` against a text `t` whose letters have no case variants outside ASCII. -/
def equalFold (s t : Text) : Bool := toLower s = toLower t

/-! ## Bytes -/

theorem utf8_injective : Function.Injective utf8 := by
  intro t u h
  have hbytes : t.utf8Encode = u.utf8Encode := congrArg List.toByteArray h
  rw [← String.toByteArray_ofList, ← String.toByteArray_ofList, String.toByteArray_inj] at hbytes
  exact String.ofList_injective hbytes

theorem utf8_eq_nil_iff {t : Text} : utf8 t = [] ↔ t = [] := utf8_injective.eq_iff' rfl

/-- The bytes of a character outside ASCII are not ASCII. -/
theorem le_of_mem_utf8EncodeChar {c : Char} (hc : 127 < c.toNat) :
    ∀ b ∈ String.utf8EncodeChar c, 128 ≤ b.toNat := by
  have hascii : ¬ c.val.toNat ≤ 127 := Nat.not_le.2 hc
  rw [String.utf8EncodeChar.eq_def]
  dsimp only
  rw [if_neg hascii]
  split
  · simp only [List.forall_mem_cons, List.not_mem_nil, false_imp_iff, implies_true,
      and_true, UInt8.toNat_ofNat']
    omega
  · split
    all_goals
      simp only [List.forall_mem_cons, List.not_mem_nil, false_imp_iff, implies_true,
      and_true, UInt8.toNat_ofNat']
      omega

/-- An ASCII character is recognised by its byte. -/
theorem marks_utf8EncodeChar {c : Char} (hc : c.toNat ≤ 127) :
    Marks String.utf8EncodeChar c (UInt8.ofNat c.toNat) where
  code := if_pos hc
  not_mem d hne hmem := by
    have hbyte : (UInt8.ofNat c.toNat).toNat = c.toNat := by
      rw [UInt8.toNat_ofNat']
      omega
    rcases Nat.lt_or_ge 127 d.toNat with hd | hd
    · have hle := le_of_mem_utf8EncodeChar hd _ hmem
      omega
    · have hcode : String.utf8EncodeChar d = [UInt8.ofNat d.toNat] := if_pos hd
      rw [hcode, List.mem_singleton] at hmem
      have hnat := congrArg UInt8.toNat hmem
      rw [hbyte, UInt8.toNat_ofNat', Nat.mod_eq_of_lt (by omega)] at hnat
      exact hne (Char.toNat_inj.1 hnat.symm)

/-! ## Letter case -/

theorem toLower_toLower (t : Text) : toLower (toLower t) = toLower t := by
  simp [toLower, Char.toLower_toLower_eq_toLower]

/-! ## Prefixes and occurrences -/

theorem contains_cons (c : Char) (t sub : Text) :
    contains (c :: t) sub = (hasPrefix (c :: t) sub || contains t sub) := rfl

theorem hasPrefix_singleton_iff {t : Text} {c : Char} :
    hasPrefix t [c] = true ↔ t.head? = some c := by
  cases t with
  | nil => exact iff_of_false Bool.false_ne_true (Option.some_ne_none c).symm
  | cons d t =>
    rw [hasPrefix, List.isPrefixOf, List.isPrefixOf, Bool.and_true, beq_iff_eq, List.head?_cons,
      Option.some.injEq, eq_comm]

theorem contains_singleton_iff {t : Text} {c : Char} : contains t [c] = true ↔ c ∈ t := by
  induction t with
  | nil => exact iff_of_false Bool.false_ne_true List.not_mem_nil
  | cons d t ih =>
    rw [contains_cons, Bool.or_eq_true, hasPrefix_singleton_iff, ih, List.mem_cons,
      List.head?_cons, Option.some.injEq, eq_comm]

/-- The first occurrence is the one at the beginning, if there is one. -/
theorem replaceFirst_append (old new t : Text) : replaceFirst old new (old ++ t) = new ++ t := by
  have hprefix : hasPrefix (old ++ t) old = true :=
    List.isPrefixOf_iff_prefix.2 (List.prefix_append old t)
  cases h : old ++ t with
  | nil =>
    obtain ⟨rfl, rfl⟩ := List.append_eq_nil_iff.1 h
    simp [replaceFirst]
  | cons c cs =>
    rw [h] at hprefix
    rw [replaceFirst, if_pos hprefix, ← h, List.drop_left]

/-- No occurrence of `sub` begins inside `p`, whatever follows it. -/
def NoneBegins (p sub : Text) : Bool :=
  match p with
  | [] => true
  | c :: cs => !(c :: cs).isPrefixOf sub && !sub.isPrefixOf (c :: cs) && NoneBegins cs sub

theorem contains_append_of_noneBegins {p sub : Text} (h : NoneBegins p sub) (t : Text) :
    contains (p ++ t) sub = contains t sub := by
  induction p with
  | nil => rfl
  | cons c cs ih =>
    simp only [NoneBegins, Bool.and_eq_true, Bool.not_eq_true'] at h
    obtain ⟨⟨hp, hsub⟩, hcs⟩ := h
    have hno : hasPrefix (c :: cs ++ t) sub = false := by
      rw [hasPrefix, ← Bool.not_eq_true, List.isPrefixOf_iff_prefix]
      intro hpre
      rcases List.prefix_or_prefix_of_prefix hpre (List.prefix_append (c :: cs) t) with h | h
      · simp [List.isPrefixOf_iff_prefix.2 h] at hsub
      · simp [List.isPrefixOf_iff_prefix.2 h] at hp
    rw [List.cons_append] at hno ⊢
    rw [contains_cons, hno, Bool.false_or, ih hcs]

/-! ## Trimming -/

/-- A text without white space at its ends is not changed by trimming. -/
theorem trimSpace_eq_self {t : Text} (hhead : ∀ c ∈ t.head?, isSpace c = false)
    (hlast : ∀ c ∈ t.getLast?, isSpace c = false) : trimSpace t = t := by
  have hdrop : ∀ l : Text, (∀ c ∈ l.head?, isSpace c = false) → l.dropWhile isSpace = l := by
    intro l hl
    cases l with
    | nil => rfl
    | cons c l => rw [List.dropWhile_cons, if_neg (by simp [hl c rfl])]
  rw [trimSpace, hdrop t hhead, hdrop t.reverse, List.reverse_reverse]
  intro c hc
  rw [List.head?_reverse] at hc
  exact hlast c hc

theorem trimSpace_of_forall {t : Text} (h : ∀ c ∈ t, isSpace c = false) : trimSpace t = t :=
  trimSpace_eq_self (fun c hc => h c (List.mem_of_head? hc))
    fun c hc => h c (List.mem_of_getLast? hc)

theorem dropWhile_eq_self_of_prefix {p : Char → Bool} {l m : Text} (hm : m.dropWhile p = m)
    (h : l <+: m) : l.dropWhile p = l := by
  rw [List.dropWhile_eq_self_iff] at hm ⊢
  intro hl
  rw [h.getElem hl]
  exact hm (hl.trans_le h.length_le)

theorem trimSpace_trimSpace (t : Text) : trimSpace (trimSpace t) = trimSpace t := by
  have hd : (trimSpace t).dropWhile isSpace = trimSpace t :=
    dropWhile_eq_self_of_prefix (List.dropWhile_idempotent (p := isSpace) t)
      (List.rdropWhile_prefix isSpace (l := t.dropWhile isSpace))
  conv_lhs => rw [trimSpace, hd]
  exact List.rdropWhile_idempotent isSpace (t.dropWhile isSpace)

theorem isSpace_of_isDigitIn {b : ℕ} {c : Char} (h : isDigitIn b c) : isSpace c = false := by
  by_contra hs
  rw [Bool.not_eq_false] at hs
  -- the white space characters, below the digits and above the letters
  have hn : c.toNat ≤ 32 ∨ 0x85 ≤ c.toNat := by
    simp only [isSpace, Bool.or_eq_true, Bool.and_eq_true, decide_eq_true_eq, beq_iff_eq] at hs
    omega
  have hd : digitVal c ≠ none := by
    intro hnone
    simp [isDigitIn, hnone] at h
  refine hd ?_
  simp only [digitVal, Char.le_def, UInt32.le_iff_toNat_le, Char.toNat] at hn ⊢
  simp only [Char.reduceVal, UInt32.reduceToNat] at hn ⊢
  rw [if_neg (by omega), if_neg (by omega), if_neg (by omega)]

end WireProxy.Go
