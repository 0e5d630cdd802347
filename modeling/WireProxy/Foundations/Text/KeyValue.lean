import WireProxy.Foundations.Text.Numerals

/-!
# Key-value lines

The text form of a list of pairs: one line `key=value` for each pair, every line ended by a
newline.

* `commonPrefix` says how far two lists agree, and `cut` splits one at a separator.
* `unlines` ends every line by a newline, and `splitOn_unlines` takes the lines apart again.
* `renderLines` writes the lines, `readLines` splits a text at its newlines and each line at its
  first `=`. When no key holds an `=` or a newline and no value holds a newline, reading undoes
  writing (`readLines_renderLines`); a value may hold any number of further `=`.
* `valuesAt` collects the values of a key that may be repeated.
* `blocks` cuts a list in front of every element that opens a block. A list assembled from a
  preamble without openers and from blocks that start with their only opener is cut back into
  exactly these (`blocks_append_flatten`).
-/

namespace WireProxy.Text

/-! ## Common beginnings -/

section CommonPrefix

variable {α : Type*} [DecidableEq α]

/-- The length of the longest common beginning of two lists. -/
def commonPrefix : List α → List α → ℕ
  | a :: l, b :: m => if a = b then commonPrefix l m + 1 else 0
  | _, _ => 0

theorem commonPrefix_append (x l m : List α) :
    commonPrefix (x ++ l) (x ++ m) = x.length + commonPrefix l m := by
  induction x with
  | nil => rw [List.nil_append, List.nil_append, List.length_nil, Nat.zero_add]
  | cons a x ih =>
    rw [List.cons_append, List.cons_append, commonPrefix, if_pos rfl, ih, List.length_cons]
    omega

/-- **Cut lists are equal** iff the lists are, or they are cut in their common beginning. -/
theorem take_eq_take_iff_commonPrefix (l m : List α) (n : ℕ) :
    l.take n = m.take n ↔ l = m ∨ n ≤ commonPrefix l m := by
  induction l generalizing m n with
  | nil =>
    cases m with
    | nil => simp
    | cons b m => cases n <;> simp [commonPrefix]
  | cons a l ih =>
    cases m with
    | nil => cases n <;> simp [commonPrefix]
    | cons b m =>
      cases n with
      | zero => simp
      | succ n =>
        rw [List.take_succ_cons, List.take_succ_cons, List.cons.injEq, List.cons.injEq, ih,
          commonPrefix]
        by_cases h : a = b <;> simp [h]

end CommonPrefix

/-! ## Cutting at the first separator -/

section Cut

variable {α : Type*} [DecidableEq α]

/-- The parts before and after the first occurrence of `sep`. -/
def cut (sep : α) : List α → Option (List α × List α)
  | [] => none
  | c :: cs => if c = sep then some ([], cs) else (cut sep cs).map fun p => (c :: p.1, p.2)

theorem cut_append {sep : α} {k : List α} (hk : sep ∉ k) (v : List α) :
    cut sep (k ++ sep :: v) = some (k, v) := by
  induction k with
  | nil => simp [cut]
  | cons c cs ih =>
    rw [List.mem_cons, not_or] at hk
    rw [List.cons_append, cut, if_neg (Ne.symm hk.1), ih hk.2, Option.map_some]

theorem cut_eq_none {sep : α} {l : List α} : cut sep l = none ↔ sep ∉ l := by
  induction l with
  | nil => simp [cut]
  | cons c cs ih =>
    rw [cut]
    split
    · rename_i h
      simp [h]
    · rename_i h
      rw [Option.map_eq_none_iff, ih, List.mem_cons, not_or]
      exact ⟨fun hcs => ⟨Ne.symm h, hcs⟩, fun hcs => hcs.2⟩

theorem cut_eq_some_iff {sep : α} {l a b : List α} :
    cut sep l = some (a, b) ↔ l = a ++ sep :: b ∧ sep ∉ a := by
  constructor
  · intro h
    induction l generalizing a with
    | nil => cases h
    | cons c cs ih =>
      rw [cut] at h
      split at h
      · rename_i hc
        simp only [Option.some.injEq, Prod.mk.injEq] at h
        obtain ⟨rfl, rfl⟩ := h
        simp [hc]
      · rename_i hc
        obtain ⟨⟨a', b'⟩, hcut, hp⟩ := Option.map_eq_some_iff.1 h
        simp only [Prod.mk.injEq] at hp
        obtain ⟨rfl, rfl⟩ := hp
        obtain ⟨rfl, ha⟩ := ih hcut
        simp [ha, Ne.symm hc]
  · rintro ⟨rfl, ha⟩
    exact cut_append ha b

end Cut

/-- The texts before and after the last occurrence of `sep`. -/
def cutLast (sep : Char) (s : Text) : Option (Text × Text) :=
  (cut sep s.reverse).map fun p => (p.2.reverse, p.1.reverse)

theorem cutLast_append {sep : Char} {b : Text} (hb : sep ∉ b) (a : Text) :
    cutLast sep (a ++ sep :: b) = some (a, b) := by
  have h := cut_append (k := b.reverse) (by simpa using hb) a.reverse
  rw [cutLast, List.reverse_append, List.reverse_cons, List.append_assoc, List.singleton_append, h]
  simp

theorem eq_append_of_cutLast {sep : Char} {l a b : Text} (h : cutLast sep l = some (a, b)) :
    l = a ++ sep :: b := by
  obtain ⟨⟨x, y⟩, hcut, hp⟩ := Option.map_eq_some_iff.1 h
  simp only [Prod.mk.injEq] at hp
  obtain ⟨rfl, rfl⟩ := hp
  have hl := congrArg List.reverse (cut_eq_some_iff.1 hcut).1
  simpa using hl

/-! ## Complete lines -/

section Unlines

variable {α : Type*}

/-- The lines one after the other, each ended by a newline. -/
def unlines (newline : α) (lines : List (List α)) : List α := lines.flatMap fun l => l ++ [newline]

theorem unlines_cons (newline : α) (l : List α) (lines : List (List α)) :
    unlines newline (l :: lines) = l ++ newline :: unlines newline lines := by
  simp [unlines]

/-- Splitting complete lines leaves an empty piece behind the last newline. -/
theorem splitOn_unlines [DecidableEq α] {newline : α} {lines : List (List α)}
    (h : ∀ l ∈ lines, newline ∉ l) :
    (unlines newline lines).splitOn newline = lines ++ [[]] := by
  induction lines with
  | nil => rfl
  | cons l lines ih =>
    rw [List.forall_mem_cons] at h
    rw [unlines_cons, List.splitOn_append_cons_self_of_not_mem h.1, ih h.2, List.cons_append]

end Unlines

/-! ## Lines -/

/-- The line of a pair. -/
def line (k v : Text) : Text := k ++ '=' :: v ++ ['\n']

/-- The lines of a list of pairs, one after the other. -/
def renderLines (kvs : List (Text × Text)) : Text := kvs.flatMap fun p => line p.1 p.2

/-- Split a text at its newlines, the last of which ends it, and each line at its first `=`. -/
def readLines (t : Text) : Option (List (Text × Text)) :=
  if (t.splitOn '\n').getLast? = some [] then (t.splitOn '\n').dropLast.mapM (cut '=') else none

/-- A pair that a line can carry: the first `=` and the first newline of the line are the ones
the line adds. -/
def Writable (p : Text × Text) : Prop := '=' ∉ p.1 ∧ '\n' ∉ p.1 ∧ '\n' ∉ p.2

instance (p : Text × Text) : Decidable (Writable p) := inferInstanceAs (Decidable (_ ∧ _))

theorem writable_of_key {k v : Text} (hk : '=' ∉ k ∧ '\n' ∉ k) (hv : '\n' ∉ v) :
    Writable (k, v) := ⟨hk.1, hk.2, hv⟩

theorem renderLines_eq_unlines (kvs : List (Text × Text)) :
    renderLines kvs = unlines '\n' (kvs.map fun p => p.1 ++ '=' :: p.2) := by
  rw [renderLines, unlines, List.flatMap_map]
  rfl

theorem Writable.newline_not_mem {p : Text × Text} (hp : Writable p) :
    '\n' ∉ p.1 ++ '=' :: p.2 := by
  rw [List.mem_append, List.mem_cons, not_or, not_or]
  exact ⟨hp.2.1, by decide, hp.2.2⟩

theorem splitOn_renderLines {kvs : List (Text × Text)} (h : ∀ p ∈ kvs, Writable p) :
    (renderLines kvs).splitOn '\n' = kvs.map (fun p => p.1 ++ '=' :: p.2) ++ [[]] := by
  rw [renderLines_eq_unlines]
  refine splitOn_unlines (List.forall_mem_map.2 fun p hp => ?_)
  exact (h p hp).newline_not_mem

theorem mapM_cut {kvs : List (Text × Text)} (h : ∀ p ∈ kvs, Writable p) :
    (kvs.map fun p => p.1 ++ '=' :: p.2).mapM (cut '=') = some kvs := by
  induction kvs with
  | nil => rfl
  | cons p kvs ih =>
    rw [List.map_cons, List.mapM_cons, cut_append (h p (by simp)).1,
      ih fun q hq => h q (List.mem_cons_of_mem _ hq)]
    rfl

/-- **Reading lines undoes writing them.** -/
theorem readLines_renderLines {kvs : List (Text × Text)} (h : ∀ p ∈ kvs, Writable p) :
    readLines (renderLines kvs) = some kvs := by
  rw [readLines, splitOn_renderLines h, if_pos (by simp), List.dropLast_concat, mapM_cut h]

/-! ## Lines of a key -/

/-- The values of all lines of a key. -/
def valuesAt (k : Text) (kvs : List (Text × Text)) : List Text :=
  kvs.filterMap fun p => if p.1 = k then some p.2 else none

section OfKey

variable {k k' : Text} (v : Text) (kvs : List (Text × Text))

theorem lookup_cons_of_ne (h : k ≠ k') : ((k', v) :: kvs).lookup k = kvs.lookup k := by
  rw [List.lookup_cons, beq_false_of_ne h]

/-- Values that are changed in place, each one with its key. -/
theorem lookup_map_value (f : Text → Text → Text) :
    (kvs.map fun p => (p.1, f p.1 p.2)).lookup k = (kvs.lookup k).map (f k) := by
  induction kvs with
  | nil => rfl
  | cons p kvs ih =>
    obtain ⟨k', v⟩ := p
    by_cases h : k = k'
    · subst h
      rw [List.map_cons, List.lookup_cons_self, List.lookup_cons_self, Option.map_some]
    · rw [List.map_cons, lookup_cons_of_ne _ _ h, lookup_cons_of_ne _ _ h, ih]

theorem valuesAt_cons_self : valuesAt k ((k, v) :: kvs) = v :: valuesAt k kvs := by
  simp [valuesAt]

theorem valuesAt_cons_of_ne (h : k ≠ k') : valuesAt k ((k', v) :: kvs) = valuesAt k kvs := by
  simp [valuesAt, Ne.symm h]

theorem valuesAt_append (kvs' : List (Text × Text)) :
    valuesAt k (kvs ++ kvs') = valuesAt k kvs ++ valuesAt k kvs' := List.filterMap_append

theorem valuesAt_map_mk (vs : List Text) : valuesAt k (vs.map fun v => (k, v)) = vs := by
  simp [valuesAt, List.filterMap_map]

/-- The value of a key is that of its first line. -/
theorem lookup_eq_head?_valuesAt : kvs.lookup k = (valuesAt k kvs).head? := by
  induction kvs with
  | nil => rfl
  | cons p kvs ih =>
    obtain ⟨j, v⟩ := p
    by_cases h : k = j
    · subst h
      rw [List.lookup_cons_self, valuesAt_cons_self, List.head?_cons]
    · rw [lookup_cons_of_ne v kvs h, valuesAt_cons_of_ne v kvs h, ih]

end OfKey

/-! ## Blocks -/

section Blocks

variable {α : Type*} (opens : α → Bool)

/-- The elements in front of the first opener, and the blocks, each from its opener on. -/
def blocks : List α → List α × List (List α)
  | [] => ([], [])
  | a :: l =>
    if opens a then ([], (a :: (blocks l).1) :: (blocks l).2)
    else (a :: (blocks l).1, (blocks l).2)

variable {opens}

theorem blocks_append {l : List α} (hl : ∀ a ∈ l, opens a = false) (m : List α) :
    blocks opens (l ++ m) = (l ++ (blocks opens m).1, (blocks opens m).2) := by
  induction l with
  | nil => rfl
  | cons a l ih =>
    rw [List.cons_append, blocks, ih fun b hb => hl b (List.mem_cons_of_mem _ hb),
      hl a (by simp)]
    rfl

/-- A block: an opener followed by elements that are none. -/
def IsBlock (opens : α → Bool) (b : List α) : Prop :=
  ∃ a l, b = a :: l ∧ opens a = true ∧ ∀ x ∈ l, opens x = false

theorem blocks_flatten {bs : List (List α)} (hbs : ∀ b ∈ bs, IsBlock opens b) :
    blocks opens bs.flatten = ([], bs) := by
  induction bs with
  | nil => rfl
  | cons b bs ih =>
    obtain ⟨a, l, rfl, ha, hl⟩ := hbs b (by simp)
    have hrest := ih fun c hc => hbs c (List.mem_cons_of_mem _ hc)
    rw [List.flatten_cons, List.cons_append, blocks, blocks_append hl, hrest, if_pos ha,
      List.append_nil]

/-- **Cutting undoes assembling.** -/
theorem blocks_append_flatten {l : List α} (hl : ∀ a ∈ l, opens a = false)
    {bs : List (List α)} (hbs : ∀ b ∈ bs, IsBlock opens b) :
    blocks opens (l ++ bs.flatten) = (l, bs) := by
  rw [blocks_append hl, blocks_flatten hbs, List.append_nil]

end Blocks

end WireProxy.Text
