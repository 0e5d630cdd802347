import Mathlib

/-!
# Runs of a labelled transition function

A system is given by a function that takes a state and a label to the next state, if the label is
enabled there. The labels carry every choice that is not determined by the state, so that a run is
a list of labels.

* `run` is the state after a list of labels, and `Reachable` means that there is such a list.
* `Reachable.invariant`: what holds at the start and is kept by every step holds in every reachable
  state.
* `length_add_le_of_run`: if every step of an invariant decreases a number, it bounds the length of
  the runs.
-/

namespace WireProxy.Transition

variable {σ ι : Type*} (step : σ → ι → Option σ)

/-- The state after the steps of a list of labels. -/
def run (s : σ) (labels : List ι) : Option σ := labels.foldlM step s

/-- Some list of labels leads to the state. -/
def Reachable (init s : σ) : Prop := ∃ labels, run step init labels = some s

variable {step} {init s s' : σ}

theorem run_cons (s : σ) (l : ι) (labels : List ι) :
    run step s (l :: labels) = (step s l).bind fun s' => run step s' labels := by
  rw [run, List.foldlM_cons]
  rfl

/-- **Invariants of a system.** -/
theorem Reachable.invariant {I : σ → Prop} (hinit : I init)
    (hstep : ∀ s l s', I s → step s l = some s' → I s') (h : Reachable step init s) : I s := by
  obtain ⟨labels, hrun⟩ := h
  induction labels generalizing init with
  | nil =>
    cases hrun
    exact hinit
  | cons l labels ih =>
    rw [run_cons, Option.bind_eq_some_iff] at hrun
    obtain ⟨s₁, hl, hrun⟩ := hrun
    exact ih (hstep init l s₁ hinit hl) hrun

/-- **The length of a run** of a system in which every step decreases a number, on the states of an
invariant `I`. -/
theorem length_add_le_of_run {I : σ → Prop} {m : σ → ℕ} (hinit : I init)
    (hstep : ∀ s l s', I s → step s l = some s' → I s' ∧ m s' < m s) {labels : List ι}
    (hrun : run step init labels = some s) : labels.length + m s ≤ m init := by
  induction labels generalizing init with
  | nil =>
    cases hrun
    rw [List.length_nil, Nat.zero_add]
  | cons l labels ih =>
    rw [run_cons, Option.bind_eq_some_iff] at hrun
    obtain ⟨s₁, hl, hrun⟩ := hrun
    obtain ⟨hI, hlt⟩ := hstep init l s₁ hinit hl
    have hle := ih hI hrun
    rw [List.length_cons]
    omega

end WireProxy.Transition
