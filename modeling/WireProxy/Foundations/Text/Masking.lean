import WireProxy.Foundations.Text.KeyValue

/-!
# Masking the values of keys

A filter on a text of lines `key=value`, in any alphabet: the values of some keys are replaced by a
mask, and everything else is copied. It splits the text at its newlines and each line at its first
equals sign, so it is a loop that reassembles what it has taken apart.

* `Mask.filter` is the filter. `Mask.Redacts` relates a line to the line that takes its place.
* `Mask.filter_unlines`: on complete lines the filter replaces each line, so the masked text is a
  fixed point (`Mask.masksOnly_filter`).
* `Mask.Encodes.filter_flatMap`: the filter commutes with an encoding of the alphabet in which the
  separators stay recognisable, such as that of characters as bytes.
-/

namespace WireProxy.Text

variable {α β : Type*}

/-! ## The filter -/

/-- Which values are masked, and by what. -/
structure Mask (α : Type*) where
  newline : α
  equals : α
  /-- The keys whose values are masked. -/
  keys : List (List α)
  mask : List α
  equals_ne_newline : equals ≠ newline
  newline_not_mem_mask : newline ∉ mask

namespace Mask

variable (m : Mask α)

/-- A line without its newline. -/
def IsLine (l : List α) : Prop := m.equals ∈ l ∧ m.newline ∉ l

/-- The line that takes the place of another: the key is what stands before the first equals
sign. -/
inductive Redacts : List α → List α → Prop
  | masked {key value : List α} (hkey : m.equals ∉ key) (hmem : key ∈ m.keys) :
    Redacts (key ++ m.equals :: value) (key ++ m.equals :: m.mask)
  | kept {key value : List α} (hkey : m.equals ∉ key) (hmem : key ∉ m.keys) :
    Redacts (key ++ m.equals :: value) (key ++ m.equals :: value)

/-- A function on texts replaces each line of a text of complete lines, and does nothing more when
it is applied to its own result. -/
def MasksOnly (f : List α → List α) : Prop :=
  ∀ lines : List (List α), (∀ l ∈ lines, m.IsLine l) →
    ∃ lines', List.Forall₂ m.Redacts lines lines' ∧ (∀ l ∈ lines', m.IsLine l) ∧
      f (unlines m.newline lines) = unlines m.newline lines' ∧
      f (f (unlines m.newline lines)) = f (unlines m.newline lines)

section Redacts

variable {m} {l l' : List α}

/-- A line that has been masked is its own replacement. -/
theorem Redacts.self (h : m.Redacts l l') : m.Redacts l' l' := by
  cases h with
  | masked hkey hmem => exact .masked hkey hmem
  | kept hkey hmem => exact .kept hkey hmem

theorem Redacts.isLine (h : m.Redacts l l') (hl : m.newline ∉ l) : m.IsLine l' := by
  cases h with
  | masked hkey hmem =>
    rw [List.mem_append, not_or] at hl
    refine ⟨by simp, ?_⟩
    rw [List.mem_append, List.mem_cons, not_or, not_or]
    exact ⟨hl.1, m.equals_ne_newline.symm, m.newline_not_mem_mask⟩
  | kept hkey hmem => exact ⟨by simp, hl⟩

theorem exists_redacts [DecidableEq α] (h : m.equals ∈ l) : ∃ l', m.Redacts l l' := by
  obtain ⟨⟨key, value⟩, hcut⟩ := Option.ne_none_iff_exists'.1 (mt cut_eq_none.1 (not_not.2 h))
  obtain ⟨rfl, hkey⟩ := cut_eq_some_iff.1 hcut
  by_cases hmem : key ∈ m.keys
  · exact ⟨_, .masked hkey hmem⟩
  · exact ⟨_, .kept hkey hmem⟩

end Redacts

section Filter

variable [DecidableEq α]

/-- What is written for a piece of the text: nothing is added to one without an equals sign. -/
def line (l : List α) : List α :=
  match cut m.equals l with
  | none => l
  | some (key, value) => key ++ m.equals :: (if key ∈ m.keys then m.mask else value) ++ [m.newline]

/-- The filter. -/
def filter (t : List α) : List α := (t.splitOn m.newline).flatMap m.line

variable {m} {l l' : List α} {lines lines' : List (List α)}

theorem Redacts.line_eq (h : m.Redacts l l') : m.line l = l' ++ [m.newline] := by
  cases h with
  | masked hkey hmem =>
    rw [line, cut_append hkey]
    dsimp only
    rw [if_pos hmem]
  | kept hkey hmem =>
    rw [line, cut_append hkey]
    dsimp only
    rw [if_neg hmem]

/-- **The filter replaces each line.** -/
theorem filter_unlines (h : List.Forall₂ m.Redacts lines lines')
    (hlines : ∀ l ∈ lines, m.newline ∉ l) :
    m.filter (unlines m.newline lines) = unlines m.newline lines' := by
  -- the piece behind the last newline has no equals sign, so no newline is added to it
  have hlast : m.line [] = [] := rfl
  rw [filter, splitOn_unlines hlines, List.flatMap_append, List.flatMap_singleton, hlast,
    List.append_nil]
  clear hlines
  induction h with
  | nil => rfl
  | cons hline _ ih =>
    rw [List.flatMap_cons, hline.line_eq, ih, unlines_cons, List.append_assoc,
      List.singleton_append]

theorem masksOnly_filter (m : Mask α) : m.MasksOnly m.filter := by
  intro lines hlines
  obtain ⟨lines', hredacts, hnew⟩ : ∃ lines', List.Forall₂ m.Redacts lines lines' ∧
      ∀ l' ∈ lines', m.IsLine l' ∧ m.Redacts l' l' := by
    induction lines with
    | nil => exact ⟨[], .nil, List.forall_mem_nil _⟩
    | cons l lines ih =>
      rw [List.forall_mem_cons] at hlines
      obtain ⟨l', hl'⟩ := exists_redacts hlines.1.1
      obtain ⟨lines', hlines', hnew⟩ := ih hlines.2
      exact ⟨l' :: lines', .cons hl' hlines',
        List.forall_mem_cons.2 ⟨⟨hl'.isLine hlines.1.2, hl'.self⟩, hnew⟩⟩
  have hfilter := filter_unlines hredacts fun l hl => (hlines l hl).2
  refine ⟨lines', hredacts, fun l' hl' => (hnew l' hl').1, hfilter, ?_⟩
  rw [hfilter]
  exact filter_unlines (List.forall₂_same.2 fun l' hl' => (hnew l' hl').2)
    fun l' hl' => (hnew l' hl').1.2

end Filter

end Mask

/-! ## Encodings -/

section Encoding

variable (encode : α → List β)

/-- The letter `sep` is encoded as `sep'` alone, which occurs in no other code. -/
structure Marks (sep : α) (sep' : β) : Prop where
  code : encode sep = [sep']
  not_mem : ∀ c, c ≠ sep → sep' ∉ encode c

variable {encode} [DecidableEq α] [DecidableEq β] {sep : α} {sep' : β}

theorem splitOn_cons_self (t : List α) : (sep :: t).splitOn sep = [] :: t.splitOn sep :=
  List.splitOn_append_cons_self_of_not_mem List.not_mem_nil t

theorem splitOn_cons_of_ne {c : α} (h : c ≠ sep) (t : List α) :
    (c :: t).splitOn sep = (t.splitOn sep).modifyHead (c :: ·) := by
  rw [List.splitOn, List.splitOnP_cons_eq_if_modifyHead, if_neg (by simpa using h)]
  rfl

/-- The pieces of a list do not hold the separator. -/
theorem not_mem_of_mem_splitOn {t u : List α} (h : u ∈ t.splitOn sep) : sep ∉ u := by
  induction t generalizing u with
  | nil =>
    rw [List.splitOn_nil, List.mem_singleton] at h
    simp [h]
  | cons c t ih =>
    by_cases hc : c = sep
    · rw [hc, splitOn_cons_self, List.mem_cons] at h
      rcases h with rfl | h
      · exact List.not_mem_nil
      · exact ih h
    · rw [splitOn_cons_of_ne hc] at h
      cases hs : t.splitOn sep with
      | nil => exact absurd hs (List.splitOn_ne_nil _ _)
      | cons head tail =>
        rw [hs, List.modifyHead_cons, List.mem_cons] at h
        rcases h with rfl | h
        · have hhead := ih (hs ▸ List.mem_cons_self : head ∈ t.splitOn sep)
          exact List.not_mem_cons_of_ne_of_not_mem (Ne.symm hc) hhead
        · exact ih (hs ▸ List.mem_cons_of_mem _ h)

theorem splitOn_append_of_not_mem {u : List α} (h : sep ∉ u) (t : List α) :
    (u ++ t).splitOn sep = (t.splitOn sep).modifyHead (u ++ ·) := by
  induction u with
  | nil => exact (congrFun List.modifyHead_id _).symm
  | cons c u ih =>
    rw [List.mem_cons, not_or] at h
    rw [List.cons_append, splitOn_cons_of_ne (Ne.symm h.1), ih h.2, List.modifyHead_modifyHead]
    rfl

theorem cut_append_of_not_mem {u : List α} (h : sep ∉ u) (t : List α) :
    cut sep (u ++ t) = (cut sep t).map fun p => (u ++ p.1, p.2) := by
  induction u with
  | nil => simp
  | cons c u ih =>
    rw [List.mem_cons, not_or] at h
    rw [List.cons_append, cut, if_neg (Ne.symm h.1), ih h.2, Option.map_map]
    rfl

/-- **Splitting commutes with the encoding.** -/
theorem Marks.splitOn_flatMap (h : Marks encode sep sep') (t : List α) :
    (t.flatMap encode).splitOn sep' = (t.splitOn sep).map (List.flatMap encode) := by
  induction t with
  | nil => rfl
  | cons c t ih =>
    by_cases hc : c = sep
    · subst hc
      rw [List.flatMap_cons, h.code, List.singleton_append, splitOn_cons_self, ih,
        splitOn_cons_self, List.map_cons, List.flatMap_nil]
    · rw [List.flatMap_cons, splitOn_append_of_not_mem (h.not_mem c hc), ih, splitOn_cons_of_ne hc]
      cases t.splitOn sep with
      | nil => rfl
      | cons piece pieces =>
        rw [List.modifyHead_cons, List.map_cons, List.map_cons, List.modifyHead_cons,
          List.flatMap_cons]

/-- **Cutting commutes with the encoding.** -/
theorem Marks.cut_flatMap (h : Marks encode sep sep') (t : List α) :
    cut sep' (t.flatMap encode) =
      (cut sep t).map fun p => (p.1.flatMap encode, p.2.flatMap encode) := by
  induction t with
  | nil => rfl
  | cons c t ih =>
    by_cases hc : c = sep
    · subst hc
      rw [List.flatMap_cons, h.code, List.singleton_append, cut, if_pos rfl, cut, if_pos rfl]
      rfl
    · rw [List.flatMap_cons, cut_append_of_not_mem (h.not_mem c hc), ih, cut, if_neg hc,
        Option.map_map, Option.map_map]
      rfl

/-- A mask is the other one in the encoding. -/
structure Mask.Encodes (encode : α → List β) (m : Mask α) (m' : Mask β) : Prop where
  injective : Function.Injective (List.flatMap encode)
  newline : Marks encode m.newline m'.newline
  equals : Marks encode m.equals m'.equals
  keys : m'.keys = m.keys.map (List.flatMap encode)
  mask : m'.mask = m.mask.flatMap encode

variable {m : Mask α} {m' : Mask β}

theorem Mask.Encodes.line_flatMap (h : m.Encodes encode m') (l : List α) :
    m'.line (l.flatMap encode) = (m.line l).flatMap encode := by
  rw [Mask.line, h.equals.cut_flatMap, Mask.line]
  cases cut m.equals l with
  | none => rfl
  | some p =>
    obtain ⟨key, value⟩ := p
    have hmem : key.flatMap encode ∈ m'.keys ↔ key ∈ m.keys := by
      rw [h.keys, List.mem_map_of_injective h.injective]
    dsimp only [Option.map_some]
    rw [List.flatMap_append, List.flatMap_append, List.flatMap_cons, List.flatMap_singleton,
      h.equals.code, h.newline.code, List.singleton_append]
    by_cases hkey : key ∈ m.keys
    · rw [if_pos hkey, if_pos (hmem.2 hkey), h.mask]
    · rw [if_neg hkey, if_neg (mt hmem.1 hkey)]

/-- **The filter commutes with the encoding.** -/
theorem Mask.Encodes.filter_flatMap (h : m.Encodes encode m') (t : List α) :
    m'.filter (t.flatMap encode) = (m.filter t).flatMap encode := by
  rw [Mask.filter, h.newline.splitOn_flatMap, List.flatMap_map, Mask.filter, List.flatMap_assoc]
  exact List.flatMap_congr fun l _ => h.line_flatMap l

end Encoding

end WireProxy.Text
