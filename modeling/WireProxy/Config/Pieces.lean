import WireProxy.Config.Parse
import WireProxy.Foundations.Text.Masking

/-!
# Comma-separated lists

The keys with several addresses or prefixes: which texts are pieces of such a list, and which
addresses can be written as one.

* `pieces_intercalate`: a list of pieces is read back.
* `IsListed` says which addresses are read from a piece, and `IsListed.isPiece_toText` that their
  own texts are pieces.
-/

namespace WireProxy.Config

open Text Go Netip Control

variable {host : Host}

/-! ## Texts in a list -/

/-- No white space at the end. -/
def EndsInk (t : Text) : Prop := ∀ c ∈ t.getLast?, isSpace c = false

theorem endsInk_trimSpace (t : Text) : EndsInk (trimSpace t) := by
  intro c hc
  rw [trimSpace, List.getLast?_reverse] at hc
  have hhead := List.head?_dropWhile_not isSpace (t.dropWhile isSpace).reverse
  rw [hc] at hhead
  exact hhead

/-- The text is a piece of a comma-separated text. -/
structure IsPiece (t : Text) : Prop where
  ne_nil : t ≠ []
  comma : ',' ∉ t
  trimSpace_eq : trimSpace t = t

theorem isPiece_of_mem_pieces {t str : Text} (h : str ∈ pieces t) : IsPiece str := by
  obtain ⟨hmem, hne⟩ := List.mem_filter.1 h
  obtain ⟨raw, hraw, rfl⟩ := List.mem_map.1 hmem
  refine ⟨by simpa using hne, fun hcomma => not_mem_of_mem_splitOn hraw ?_, trimSpace_trimSpace raw⟩
  rw [trimSpace, List.mem_reverse] at hcomma
  have hdrop := (List.dropWhile_sublist isSpace).subset hcomma
  exact (List.dropWhile_sublist isSpace).subset (List.mem_reverse.1 hdrop)

/-- **A list of pieces is read back.** -/
theorem pieces_intercalate {ts : List Text} (h : ∀ t ∈ ts, IsPiece t) :
    pieces ([','].intercalate ts) = ts := by
  by_cases hnil : ts = []
  · subst hnil
    decide
  · have hmap : ts.map trimSpace = ts := by
      conv_rhs => rw [← List.map_id ts]
      exact List.map_congr_left fun t ht => (h t ht).trimSpace_eq
    rw [pieces, List.splitOn_intercalate ',' (fun t ht => (h t ht).comma) hnil, hmap,
      List.filter_eq_self]
    intro t ht
    simpa using (h t ht).ne_nil

theorem parseListKey_eq_ok {β : Type} {s : Section} {keyName : Text} {parse : Text → Except Err β}
    {l : List β} (h : parseListKey host s keyName parse = .ok l) :
    ∀ v ∈ l, ∃ str, IsPiece str ∧ parse str = .ok v := by
  unfold parseListKey at h
  split at h
  · split at h
    · cases h
      simp
    · cases h
  · rename_i t _
    rw [parsePieces_splitOn, mapM_eq_ok_iff] at h
    intro v hv
    obtain ⟨str, hstr, hparse⟩ := exists_of_mem_forall₂_right h hv
    exact ⟨str, isPiece_of_mem_pieces hstr, hparse⟩

/-- A list whose elements are parsed from their own texts. -/
theorem parseListKey_of_key {β : Type} {s : Section} {keyName : Text} {parse : Text → Except Err β}
    {l : List β} {text : β → Text} (hpiece : ∀ v ∈ l, IsPiece (text v) ∧ parse (text v) = .ok v)
    (hkey : parseString host s keyName = .ok ([','].intercalate (l.map text))) :
    parseListKey host s keyName parse = .ok l := by
  have hpieces : pieces ([','].intercalate (l.map text)) = l.map text :=
    pieces_intercalate (List.forall_mem_map.2 fun v hv => (hpiece v hv).1)
  rw [parseListKey, hkey]
  dsimp only
  rw [parsePieces_splitOn, hpieces, mapM_eq_ok_iff, List.forall₂_map_left_iff, List.forall₂_same]
  exact fun v hv => (hpiece v hv).2

/-! ## Addresses -/

/-- The address can be written in a list: the zone has no comma and does not end in white space. -/
structure IsListed (a : Addr) : Prop where
  ne_zero : a ≠ .zero
  comma : ',' ∉ a.zone
  endsInk : EndsInk a.zone

/-- The zone of an address is the end of its text. -/
theorem zone_suffix_of_parseAddr {t : Text} {a : Addr} (h : parseAddr t = some a) :
    a.zone <:+ t := by
  unfold parseAddr at h
  split at h
  · unfold parseIPv4 at h
    split at h
    · cases h
      exact List.nil_suffix
    · cases h
  · unfold parseIPv6 at h
    split at h
    · obtain ⟨g, -, rfl⟩ := Option.map_eq_some_iff.1 h
      exact List.nil_suffix
    · cases h
    · rename_i s' z _ hcut
      obtain ⟨g, -, rfl⟩ := Option.map_eq_some_iff.1 h
      rw [(cut_eq_some_iff.1 hcut).1]
      exact ⟨s' ++ ['%'], by simp [Addr.zone]⟩
  · cases h

theorem EndsInk.of_suffix {t u : Text} (h : EndsInk t) (hu : u <:+ t) : EndsInk u := by
  obtain ⟨front, rfl⟩ := hu
  intro c hc
  refine h c ?_
  rw [List.getLast?_append, hc]
  rfl

theorem isListed_of_parseAddr {t : Text} {a : Addr} (ht : IsPiece t) (h : parseAddr t = some a) :
    IsListed a := by
  have hzone := zone_suffix_of_parseAddr h
  have hink : EndsInk t := ht.trimSpace_eq ▸ endsInk_trimSpace t
  exact ⟨ne_zero_of_parseAddr h, fun hc => ht.comma (hzone.subset hc), hink.of_suffix hzone⟩

theorem isSpace_of_mem_address {c : Char} (h : isDigitIn 16 c ∨ c = ':' ∨ c = '.') :
    isSpace c = false ∧ c ≠ ',' := by
  rcases h with h | rfl | rfl
  · refine ⟨isSpace_of_isDigitIn h, ?_⟩
    rintro rfl
    exact absurd h (by decide)
  · decide
  · decide

theorem IsListed.isPiece_toText {a : Addr} (h : IsListed a) : IsPiece a.toText := by
  have hparse := parseAddr_toText h.ne_zero
  have hne : a.toText ≠ [] := by
    intro hnil
    rw [hnil] at hparse
    cases hparse
  cases a with
  | zero => exact absurd rfl h.ne_zero
  | v4 a b c d =>
    have hmem : ∀ x ∈ dotted a b c d, isSpace x = false ∧ x ≠ ',' := fun x hx =>
      isSpace_of_mem_address ((mem_dotted hx).imp isDigitIn_sixteen_of_ten .inr)
    exact ⟨hne, fun hcomma => (hmem _ hcomma).2 rfl, trimSpace_of_forall fun x hx => (hmem x hx).1⟩
  | v6 g z =>
    have hmem : ∀ x ∈ text6 g.1, isSpace x = false ∧ x ≠ ',' := fun x hx =>
      isSpace_of_mem_address (mem_text6 hx)
    have htext : text6 g.1 ≠ [] := by
      intro hnil
      have hplain := parseAddr_toText (show Addr.v6 g [] ≠ .zero by simp)
      rw [Addr.toText_v6, hnil] at hplain
      cases hplain
    refine ⟨hne, ?_, trimSpace_eq_self (fun c hc => ?_) fun c hc => ?_⟩
    · rw [Addr.toText_v6]
      split
      · rw [List.append_nil]
        exact fun hcomma => (hmem _ hcomma).2 rfl
      · rw [List.mem_append, List.mem_cons, not_or, not_or]
        exact ⟨fun hcomma => (hmem _ hcomma).2 rfl, by decide, h.comma⟩
    · rw [Addr.toText_v6, List.head?_append_of_ne_nil _ htext] at hc
      exact (hmem c (List.mem_of_mem_head? hc)).1
    · rw [Addr.toText_v6, List.getLast?_append] at hc
      by_cases hz : z = []
      · rw [if_pos hz] at hc
        exact (hmem c (List.mem_of_getLast? hc)).1
      · obtain ⟨last, hlast⟩ := Option.ne_none_iff_exists'.1 (mt List.getLast?_eq_none_iff.1 hz)
        rw [if_neg hz, List.getLast?_cons, hlast] at hc
        obtain rfl : last = c := by simpa using hc
        exact h.endsInk last hlast

end WireProxy.Config
