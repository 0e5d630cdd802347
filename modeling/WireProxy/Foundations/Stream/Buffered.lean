import Mathlib

/-!
# Buffered reading of a stream in chunks

A stream arrives in chunks, one for each read of its source. A reader takes whole chunks into a
buffer until an item is complete there; what follows the item in its last chunk stays in the
buffer.

* `Scanner` recognises an item at the beginning of a list. More input after a complete item
  changes nothing, so that no proper beginning of an item is complete (`scan_eq_none`).
* `Scanner.read` reads an item through the buffer, and `read_eq_some` says what it leaves: the
  rest of the stream, of which `needed` tells how many chunks were taken. The buffer is left empty
  iff the item ends where a chunk ends.
* `Scanner.andThen` scans one item after another, and reads them so too (`read_andThen`).
-/

namespace WireProxy.Buffered

variable {α β γ : Type*}

/-! ## Scanners -/

/-- Recognise an item at the beginning of a list. -/
structure Scanner (α β : Type*) where
  /-- The item and what follows it, if the item is complete. -/
  scan : List α → Option (β × List α)
  suffix : ∀ {l b rest}, scan l = some (b, rest) → rest <:+ l
  append : ∀ {l b rest}, scan l = some (b, rest) → ∀ m, scan (l ++ m) = some (b, rest ++ m)

namespace Scanner

/-- A proper beginning of an item is not complete. -/
theorem scan_eq_none (sc : Scanner α β) {l m : List α} {b : β}
    (h : sc.scan (l ++ m) = some (b, [])) (hm : m ≠ []) : sc.scan l = none := by
  rw [Option.eq_none_iff_forall_ne_some]
  rintro ⟨b', rest⟩ hl
  rw [sc.append hl m, Option.some.injEq, Prod.mk.injEq, List.append_eq_nil_iff] at h
  exact hm h.2.2

/-- The first `n` elements. -/
def take (α : Type*) (n : ℕ) : Scanner α (List α) where
  scan l := if n ≤ l.length then some (l.take n, l.drop n) else none
  suffix := by
    intro l b rest h
    simp only [Option.ite_none_right_eq_some, Option.some.injEq, Prod.mk.injEq] at h
    exact h.2.2 ▸ List.drop_suffix n l
  append := by
    intro l b rest h m
    simp only [Option.ite_none_right_eq_some, Option.some.injEq, Prod.mk.injEq] at h
    obtain ⟨hn, rfl, rfl⟩ := h
    rw [if_pos (by rw [List.length_append]; omega), List.take_append_of_le_length hn,
      List.drop_append_of_le_length hn]

/-- One item and then another one. -/
def andThen (sc : Scanner α β) (next : β → Scanner α γ) : Scanner α (β × γ) where
  scan l := (sc.scan l).bind fun p => ((next p.1).scan p.2).map fun q => ((p.1, q.1), q.2)
  suffix := by
    intro l bc rest h
    simp only [Option.bind_eq_some_iff, Option.map_eq_some_iff, Prod.exists, Prod.mk.injEq] at h
    obtain ⟨b, mid, hb, c, rest', hc, -, rfl⟩ := h
    exact ((next b).suffix hc).trans (sc.suffix hb)
  append := by
    intro l bc rest h m
    simp only [Option.bind_eq_some_iff, Option.map_eq_some_iff, Prod.exists, Prod.mk.injEq] at h
    obtain ⟨b, mid, hb, c, rest', hc, rfl, rfl⟩ := h
    rw [sc.append hb, Option.bind_some, (next b).append hc, Option.map_some]

theorem scan_andThen {sc : Scanner α β} {next : β → Scanner α γ} {l m : List α} {b : β} {c : γ}
    (hl : sc.scan l = some (b, [])) (hm : (next b).scan m = some (c, [])) :
    (sc.andThen next).scan (l ++ m) = some ((b, c), []) := by
  simp only [andThen, sc.append hl, Option.bind_some, List.nil_append, hm, Option.map_some]

end Scanner

/-! ## Readers -/

/-- A reader of a stream: what it holds in its buffer, and the chunks that the source will still
return. -/
structure Reader (α : Type*) where
  buffered : List α
  pending : List (List α)
  deriving DecidableEq

/-- The part of the stream that has not been read. -/
def Reader.contents (r : Reader α) : List α := r.buffered ++ r.pending.flatten

namespace Scanner

variable (sc : Scanner α β)

/-- Read an item with the given buffer: take another chunk only while the item is incomplete. -/
def readFrom (buffered : List α) : List (List α) → Option (β × Reader α)
  | [] => (sc.scan buffered).map fun p => (p.1, ⟨p.2, []⟩)
  | c :: cs =>
    match sc.scan buffered with
    | some p => some (p.1, ⟨p.2, c :: cs⟩)
    | none => readFrom (buffered ++ c) cs

/-- Read an item. -/
def read (r : Reader α) : Option (β × Reader α) := sc.readFrom r.buffered r.pending

variable {sc}

theorem readFrom_of_scan {buf rest : List α} {b : β} (h : sc.scan buf = some (b, rest))
    (cs : List (List α)) : sc.readFrom buf cs = some (b, ⟨rest, cs⟩) := by
  cases cs <;> simp [readFrom, h]

theorem readFrom_cons_of_none {buf : List α} (h : sc.scan buf = none) (c : List α)
    (cs : List (List α)) : sc.readFrom buf (c :: cs) = sc.readFrom (buf ++ c) cs := by
  rw [readFrom, h]

end Scanner

/-- The number of chunks that hold the next `n` elements. -/
def needed (n : ℕ) : List (List α) → ℕ
  | [] => 0
  | c :: cs => if n = 0 then 0 else needed (n - c.length) cs + 1

theorem needed_zero (cs : List (List α)) : needed 0 cs = 0 := by
  cases cs <;> rfl

theorem needed_cons {n : ℕ} (hn : n ≠ 0) (c : List α) (cs : List (List α)) :
    needed n (c :: cs) = needed (n - c.length) cs + 1 := if_neg hn

section Item

variable {sc : Scanner α β} {item payload : List α} {b : β}

/-- A buffer that begins the stream of an item either holds the item or a proper beginning. -/
theorem append_cases {buf rest : List α} (h : buf ++ rest = item ++ payload) :
    (∃ x, buf = item ++ x ∧ x ++ rest = payload) ∨
      ∃ y, y ≠ [] ∧ item = buf ++ y ∧ rest = y ++ payload := by
  rcases List.append_eq_append_iff.1 h with ⟨y, rfl, hrest⟩ | ⟨x, rfl, hp⟩
  · by_cases hy : y = []
    · subst hy
      exact .inl ⟨[], by simp, by simpa using hrest⟩
    · exact .inr ⟨y, hy, rfl, hrest⟩
  · exact .inl ⟨x, rfl, hp.symm⟩

/-- Behind the item, no chunk leads back to its end. -/
theorem exists_take_eq_item_iff {x : List α} {cs : List (List α)} :
    (∃ k, (item ++ x) ++ (cs.take k).flatten = item) ↔ x = [] := by
  constructor
  · rintro ⟨k, hk⟩
    rw [List.append_assoc, List.append_right_eq_self, List.append_eq_nil_iff] at hk
    exact hk.1
  · rintro rfl
    exact ⟨0, by simp⟩

/-- Before the end of the item, the next chunk has to be taken. -/
theorem exists_take_cons_eq_item_iff {buf y c : List α} (hy : y ≠ []) {cs : List (List α)} :
    (∃ k, (buf ++ c) ++ (cs.take k).flatten = buf ++ y) ↔
      ∃ k, buf ++ ((c :: cs).take k).flatten = buf ++ y := by
  constructor
  · rintro ⟨k, hk⟩
    exact ⟨k + 1, by rw [List.take_succ_cons, List.flatten_cons, ← List.append_assoc, hk]⟩
  · rintro ⟨k, hk⟩
    cases k with
    | zero =>
      rw [List.take_zero, List.flatten_nil, List.append_right_inj] at hk
      exact absurd hk.symm hy
    | succ k => exact ⟨k, by rw [← hk, List.take_succ_cons, List.flatten_cons, List.append_assoc]⟩

/-- **Reading an item.** The chunks taken are those needed for the item, and what the buffer holds
of them after the item stays there. -/
theorem readFrom_eq_some (hitem : sc.scan item = some (b, [])) {buf : List α}
    {cs : List (List α)} (hcs : buf ++ cs.flatten = item ++ payload) :
    ∃ left, sc.readFrom buf cs =
        some (b, ⟨left, cs.drop (needed (item.length - buf.length) cs)⟩) ∧
      left ++ (cs.drop (needed (item.length - buf.length) cs)).flatten = payload ∧
      (left = [] ↔ ∃ k, buf ++ (cs.take k).flatten = item) := by
  induction cs generalizing buf with
  | nil =>
    rw [List.flatten_nil, List.append_nil] at hcs
    subst hcs
    refine ⟨payload, ?_, by simp, exists_take_eq_item_iff.symm⟩
    rw [sc.readFrom_of_scan (sc.append hitem payload), List.nil_append, List.drop_nil]
  | cons c cs ih =>
    rcases append_cases hcs with ⟨x, rfl, hx⟩ | ⟨y, hy, rfl, hrest⟩
    · -- the buffer holds the item: no chunk is taken
      have hzero : item.length - (item ++ x).length = 0 := by
        rw [List.length_append]
        omega
      rw [hzero, needed_zero, List.drop_zero]
      refine ⟨x, ?_, hx, exists_take_eq_item_iff.symm⟩
      rw [sc.readFrom_of_scan (sc.append hitem x), List.nil_append]
    · -- a proper beginning of the item is not complete
      have hpos := List.length_pos_iff.2 hy
      have hlen : (buf ++ y).length - buf.length ≠ 0 := by
        rw [List.length_append]
        omega
      have hsub : (buf ++ y).length - buf.length - c.length =
          (buf ++ y).length - (buf ++ c).length := by
        simp only [List.length_append]
        omega
      have hnext : (buf ++ c) ++ cs.flatten = (buf ++ y) ++ payload := by
        rw [List.append_assoc, ← List.flatten_cons, hcs]
      obtain ⟨left, hread, hleft, hiff⟩ := ih hnext
      rw [needed_cons hlen, hsub, List.drop_succ_cons,
        sc.readFrom_cons_of_none (sc.scan_eq_none hitem hy)]
      exact ⟨left, hread, hleft, hiff.trans (exists_take_cons_eq_item_iff hy)⟩

/-- **Reading an item from the start of a stream.** -/
theorem read_eq_some (hitem : sc.scan item = some (b, [])) {cs : List (List α)}
    (hcs : cs.flatten = item ++ payload) :
    ∃ left, sc.read ⟨[], cs⟩ = some (b, ⟨left, cs.drop (needed item.length cs)⟩) ∧
      left ++ (cs.drop (needed item.length cs)).flatten = payload ∧
      (left = [] ↔ ∃ k, (cs.take k).flatten = item) := by
  have hnil : [] ++ cs.flatten = item ++ payload := by rw [List.nil_append, hcs]
  simpa [Scanner.read] using readFrom_eq_some hitem hnil

end Item

/-! ## Two items -/

section AndThen

variable {sc : Scanner α β} {next : β → Scanner α γ}

theorem readFrom_andThen_of_scan {buf rest : List α} {b : β} (h : sc.scan buf = some (b, rest))
    (cs : List (List α)) :
    (sc.andThen next).readFrom buf cs =
      ((next b).readFrom rest cs).map fun q => ((b, q.1), q.2) := by
  induction cs generalizing buf rest with
  | nil =>
    simp only [Scanner.readFrom, Scanner.andThen, h, Option.bind_some, Option.map_map]
    rfl
  | cons c cs ih =>
    cases hrest : (next b).scan rest with
    | none =>
      have hnone : (sc.andThen next).scan buf = none := by
        simp [Scanner.andThen, h, hrest]
      rw [Scanner.readFrom_cons_of_none hnone, Scanner.readFrom_cons_of_none hrest,
        ih (sc.append h c)]
    | some p =>
      obtain ⟨d, rest'⟩ := p
      have hsome : (sc.andThen next).scan buf = some ((b, d), rest') := by
        simp [Scanner.andThen, h, hrest]
      rw [Scanner.readFrom_of_scan hsome, Scanner.readFrom_of_scan hrest]
      rfl

/-- **Items are read one after the other.** -/
theorem read_andThen (r : Reader α) :
    (sc.andThen next).read r =
      (sc.read r).bind fun p => ((next p.1).read p.2).map fun q => ((p.1, q.1), q.2) := by
  obtain ⟨buf, cs⟩ := r
  have hsome : ∀ (buf : List α) (cs : List (List α)) (p : β × List α), sc.scan buf = some p →
      (sc.andThen next).readFrom buf cs = (sc.readFrom buf cs).bind fun p =>
        ((next p.1).read p.2).map fun q => ((p.1, q.1), q.2) := by
    rintro buf cs ⟨b, rest⟩ h
    rw [readFrom_andThen_of_scan h, Scanner.readFrom_of_scan h]
    rfl
  simp only [Scanner.read] at hsome ⊢
  induction cs generalizing buf with
  | nil =>
    cases h : sc.scan buf with
    | none => simp [Scanner.readFrom, Scanner.andThen, h]
    | some p => exact hsome buf [] p h
  | cons c cs ih =>
    cases h : sc.scan buf with
    | none =>
      have hnone : (sc.andThen next).scan buf = none := by simp [Scanner.andThen, h]
      rw [Scanner.readFrom_cons_of_none hnone, Scanner.readFrom_cons_of_none h, ih]
    | some p => exact hsome buf (c :: cs) p h

end AndThen

end WireProxy.Buffered
