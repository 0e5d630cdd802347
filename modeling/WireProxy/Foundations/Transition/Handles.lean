import Mathlib

/-!
# Handles

Handles are numbered in the order in which they are opened. A system keeps, for each of them, how
often it was closed, and its parts hold handles.

* `Balanced`: every handle was closed once and nobody holds it, or it was not closed and exactly one
  part holds it.
* A handle that is opened or closed by its holder keeps the balance (`Balanced.opened`,
  `Balanced.closed`), and a handle that is passed on changes nothing, since the holders are a
  multiset.
* `Balanced.getElem?_closed` and `Balanced.getElem?_of_closed`: a handle that was closed was closed
  once, and stays so.
* `Balanced.count_zero`: there are as many open handles as are held.
* `exists_modify_eq` and `modify_concat` take a list of parts apart where one of them changes.
-/

namespace WireProxy.Transition

/-- **The balance of handles.** -/
structure Balanced (closes : List ℕ) (held : Multiset ℕ) : Prop where
  add_count : ∀ s n, closes[s]? = some n → n + held.count s = 1
  lt_length : ∀ s ∈ held, s < closes.length

variable {closes : List ℕ} {held : Multiset ℕ}

theorem balanced_nil : Balanced [] 0 := ⟨by simp, by simp⟩

/-- A handle is opened. -/
theorem Balanced.opened (h : Balanced closes held) :
    Balanced (closes ++ [0]) (closes.length ::ₘ held) where
  add_count s n hn := by
    have hnew : held.count closes.length = 0 :=
      Multiset.count_eq_zero.2 fun hmem => (h.lt_length _ hmem).false
    rw [List.getElem?_append] at hn
    split at hn
    · rename_i hs
      rw [Multiset.count_cons_of_ne hs.ne]
      exact h.add_count s n hn
    · rename_i hs
      obtain ⟨hzero, rfl⟩ := List.getElem?_eq_some_iff.1 hn
      obtain rfl : s = closes.length := by
        rw [List.length_singleton] at hzero
        omega
      simp [hnew]
  lt_length s hs := by
    rw [List.length_append, List.length_singleton]
    rcases Multiset.mem_cons.1 hs with rfl | hs
    · omega
    · exact (h.lt_length s hs).trans (Nat.lt_succ_self _)

/-- A handle is closed by its holder. -/
theorem Balanced.closed {s : ℕ} (h : Balanced closes (s ::ₘ held)) :
    Balanced (closes.modify s (· + 1)) held where
  add_count s' n hn := by
    rw [List.getElem?_modify, Option.map_eq_map, Option.map_eq_some_iff] at hn
    obtain ⟨m, hm, rfl⟩ := hn
    have hcount := h.add_count s' m hm
    by_cases heq : s = s'
    · subst heq
      rw [Multiset.count_cons_self] at hcount
      rw [if_pos rfl]
      omega
    · rw [Multiset.count_cons_of_ne (Ne.symm heq)] at hcount
      rw [if_neg heq]
      exact hcount
  lt_length s' hs' := by
    rw [List.length_modify]
    exact h.lt_length s' (Multiset.mem_cons_of_mem hs')

/-- A handle that its holder closes is closed once. -/
theorem Balanced.getElem?_closed {s : ℕ} (h : Balanced closes (s ::ₘ held)) :
    (closes.modify s (· + 1))[s]? = some 1 := by
  have hlt := h.lt_length s (Multiset.mem_cons_self s held)
  have hcount := h.add_count s _ (List.getElem?_eq_getElem hlt)
  rw [Multiset.count_cons_self] at hcount
  have hzero : closes[s] = 0 := by omega
  rw [List.getElem?_modify, List.getElem?_eq_getElem hlt, hzero]
  simp

/-- A handle that was closed stays so. -/
theorem Balanced.getElem?_of_closed {s s' : ℕ} (h : Balanced closes (s ::ₘ held))
    (hclosed : closes[s']? = some 1) : (closes.modify s (· + 1))[s']? = some 1 := by
  have hne : s ≠ s' := by
    rintro rfl
    have hcount := h.add_count s 1 hclosed
    rw [Multiset.count_cons_self] at hcount
    omega
  rw [List.getElem?_modify, hclosed]
  simp [hne]

/-- An element of a list and what stands around it, where it is replaced or not. -/
theorem exists_modify_eq {α : Type*} {l : List α} {i : ℕ} {a : α} (h : l[i]? = some a) :
    ∃ front back, l = front ++ a :: back ∧ ∀ f, l.modify i f = front ++ f a :: back := by
  induction l generalizing i with
  | nil => cases h
  | cons b l ih =>
    cases i with
    | zero =>
      obtain rfl : b = a := Option.some.inj h
      exact ⟨[], l, rfl, fun f => rfl⟩
    | succ i =>
      obtain ⟨front, back, rfl, hmodify⟩ := ih h
      refine ⟨b :: front, back, rfl, fun f => ?_⟩
      rw [List.modify_succ_cons, hmodify f, List.cons_append]

theorem modify_concat {α : Type*} (l : List α) (a : α) (f : α → α) :
    (l ++ [a]).modify l.length f = l ++ [f a] := by
  induction l with
  | nil => rfl
  | cons b l ih =>
    rw [List.cons_append, List.length_cons, List.modify_succ_cons, ih, List.cons_append]

/-- The number of the places of an element. -/
theorem count_eq_sum {α : Type*} [DecidableEq α] (l : List α) (a : α) :
    l.count a = ∑ i ∈ Finset.range l.length, if l[i]? = some a then 1 else 0 := by
  induction l with
  | nil => rfl
  | cons b l ih =>
    rw [List.count_cons, ih, List.length_cons, Finset.sum_range_succ']
    simp

/-- **The open handles are those that are held.** -/
theorem Balanced.count_zero (h : Balanced closes held) : closes.count 0 = held.card := by
  have hcount : ∀ s ∈ Finset.range closes.length,
      (if closes[s]? = some 0 then 1 else 0) = held.count s := by
    intro s hs
    have hget := List.getElem?_eq_getElem (Finset.mem_range.1 hs)
    have hone := h.add_count s _ hget
    simp only [hget, Option.some.injEq]
    split <;> omega
  calc closes.count 0 = ∑ s ∈ Finset.range closes.length, held.count s := by
        rw [count_eq_sum, Finset.sum_congr rfl hcount]
    _ = held.card :=
        Multiset.sum_count_eq_card fun s hs => Finset.mem_range.2 (h.lt_length s hs)

end WireProxy.Transition
