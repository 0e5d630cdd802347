import Mathlib.Data.Fin.Basic
import Mathlib.Data.List.Basic

/-!
# Shuffling in place

The Fisher–Yates shuffle as a function of the numbers that are drawn: from the last index down to
the first, the element there is swapped with one at a drawn index that is not larger.

* `shuffle_perm`: every outcome is a permutation.
* `exists_head?_shuffle`: each element comes first in some outcome.
-/

namespace WireProxy.Shuffle

variable {α : Type*}

/-- For each index, a drawn index that is not larger. -/
abbrev Draws := ∀ i : ℕ, Fin (i + 1)

/-- The swaps at an index and below. -/
def shuffleFrom (draw : Draws) : ℕ → Array α → Array α
  | 0, xs => xs
  | i + 1, xs => shuffleFrom draw i (xs.swapIfInBounds (i + 1) (draw (i + 1)))

/-- The shuffle of a list. -/
def shuffle (draw : Draws) (l : List α) : List α :=
  (shuffleFrom draw (l.length - 1) l.toArray).toList

/-! ## Permutations -/

theorem swapIfInBounds_perm (xs : Array α) (i j : ℕ) : (xs.swapIfInBounds i j).Perm xs := by
  rw [Array.swapIfInBounds_def]
  split
  · split
    · exact Array.swap_perm _ _
    · exact .refl xs
  · exact .refl xs

theorem shuffleFrom_perm (draw : Draws) (n : ℕ) (xs : Array α) :
    (shuffleFrom draw n xs).Perm xs := by
  induction n generalizing xs with
  | zero => exact .refl xs
  | succ i ih => exact (ih _).trans (swapIfInBounds_perm xs _ _)

theorem shuffle_perm (draw : Draws) (l : List α) : (shuffle draw l).Perm l :=
  (shuffleFrom_perm draw _ l.toArray).toList

/-! ## The first element -/

/-- The draws that leave everything in place but swap the element at `p` with the first one. -/
def bringToFront (p : ℕ) : Draws := fun i => if i = p then 0 else Fin.last i

theorem swapIfInBounds_self (xs : Array α) (i : ℕ) : xs.swapIfInBounds i i = xs := by
  rw [Array.swapIfInBounds_def]
  split
  · refine Array.ext_getElem? fun k => ?_
    rw [Array.getElem?_swap]
    split
    · rename_i hik
      rw [← hik, Array.getElem?_eq_getElem]
    · rfl
  · rfl

theorem shuffleFrom_bringToFront_of_lt {n p : ℕ} (h : n < p) (xs : Array α) :
    shuffleFrom (bringToFront p) n xs = xs := by
  induction n with
  | zero => rfl
  | succ i ih =>
    have hlast : bringToFront p (i + 1) = Fin.last (i + 1) := if_neg h.ne
    rw [shuffleFrom, hlast, Fin.val_last, swapIfInBounds_self]
    exact ih (by omega)

theorem getElem?_shuffleFrom_bringToFront {n p : ℕ} (h : p ≤ n) {xs : Array α} (hn : n < xs.size) :
    (shuffleFrom (bringToFront p) n xs)[0]? = xs[p]? := by
  induction n with
  | zero =>
    obtain rfl : p = 0 := by omega
    rfl
  | succ i ih =>
    by_cases hp : i + 1 = p
    · -- the one swap that moves anything
      subst hp
      have hzero : bringToFront (i + 1) (i + 1) = 0 := if_pos rfl
      rw [shuffleFrom, hzero, shuffleFrom_bringToFront_of_lt (Nat.lt_succ_self i)]
      rw [Fin.val_zero, Array.swapIfInBounds_def, dif_pos hn, dif_pos (by omega),
        Array.getElem?_swap, if_pos rfl, Array.getElem?_eq_getElem]
    · have hlast : bringToFront p (i + 1) = Fin.last (i + 1) := if_neg hp
      rw [shuffleFrom, hlast, Fin.val_last, swapIfInBounds_self]
      exact ih (by omega) (by omega)

/-- **Each element comes first in some outcome.** -/
theorem exists_head?_shuffle {l : List α} {x : α} (hx : x ∈ l) :
    ∃ draw, (shuffle draw l).head? = some x := by
  obtain ⟨p, hp, rfl⟩ := List.getElem_of_mem hx
  refine ⟨bringToFront p, ?_⟩
  have hsize : l.length - 1 < l.toArray.size := by
    rw [List.size_toArray]
    omega
  have hle : p ≤ l.length - 1 := by omega
  rw [shuffle, List.head?_eq_getElem?, Array.getElem?_toList,
    getElem?_shuffleFrom_bringToFront hle hsize, List.getElem?_toArray, List.getElem?_eq_getElem hp]

end WireProxy.Shuffle
