import WireProxy.Foundations.Transition.Reachable

/-!
# Refinement and bounded progress

Rules for the runs of a transition function, beside the one for invariants.

* `Reachable.refines`: if every step, seen through an abstraction of the states, is a step of a
  coarser system or none at all, then every reachable state is seen as one that the coarser system
  reaches.
* `Reachable.mono`: a system with fewer steps reaches no more.
* `run_until`: if the steps of a kind decrease a number that the other steps do not increase, until
  something has happened, then a run with more steps of that kind than the number says comes to a
  state in which it has happened.
-/

namespace WireProxy.Transition

variable {σ ι α : Type*} {step : σ → ι → Option σ} {init s : σ}

/-- A step after a reachable state. -/
theorem Reachable.tail {s' : σ} {l : ι} (h : Reachable step init s) (hl : step s l = some s') :
    Reachable step init s' := by
  obtain ⟨labels, hrun⟩ := h
  refine ⟨labels ++ [l], ?_⟩
  rw [run] at hrun
  rw [run, List.foldlM_append, hrun]
  change (List.foldlM step s [l] : Option σ) = some s'
  rw [List.foldlM_cons, hl]
  rfl

/-- What a part of the steps reaches. -/
theorem Reachable.mono {part : σ → ι → Option σ}
    (hpart : ∀ s l s', part s l = some s' → step s l = some s') (h : Reachable part init s) :
    Reachable step init s :=
  h.invariant ⟨[], rfl⟩ fun s l s' hs hl => hs.tail (hpart s l s' hl)

/-- **Refinement**, on the states of an invariant `I`. -/
theorem Reachable.refines {A : α → α → Prop} {abs : σ → α} {I : σ → Prop} (hinit : I init)
    (hstep : ∀ s l s', I s → step s l = some s' → I s' ∧ (abs s' = abs s ∨ A (abs s) (abs s')))
    (h : Reachable step init s) : I s ∧ Relation.ReflTransGen A (abs init) (abs s) := by
  refine h.invariant (I := fun s => I s ∧ Relation.ReflTransGen A (abs init) (abs s))
    ⟨hinit, .refl⟩ ?_
  rintro s l s' ⟨hI, hreach⟩ hl
  obtain ⟨hI', heq | hA⟩ := hstep s l s' hI hl
  · exact ⟨hI', heq ▸ hreach⟩
  · exact ⟨hI', hreach.tail hA⟩

/-- **Bounded progress.** Steps with a label of the kind `p` decrease `m`, until `Q` holds. -/
theorem run_until {I Q : σ → Prop} {p : ι → Bool} {m : σ → ℕ}
    (hstep : ∀ s l s', I s → step s l = some s' →
      Q s' ∨ I s' ∧ m s' + (if p l then 1 else 0) ≤ m s)
    (hinit : I init) {labels : List ι} (hrun : run step init labels = some s) :
    (∃ front back s', labels = front ++ back ∧ run step init front = some s' ∧ Q s') ∨
      I s ∧ m s + labels.countP p ≤ m init := by
  induction labels generalizing init with
  | nil =>
    cases hrun
    exact .inr ⟨hinit, by simp⟩
  | cons l labels ih =>
    rw [run_cons, Option.bind_eq_some_iff] at hrun
    obtain ⟨s₁, hl, hrun⟩ := hrun
    rcases hstep init l s₁ hinit hl with hQ | ⟨hI, hle⟩
    · refine .inl ⟨[l], labels, s₁, rfl, ?_, hQ⟩
      rw [run_cons, hl]
      rfl
    · rcases ih hI hrun with ⟨front, back, s', rfl, hfront, hQ⟩ | ⟨hI', hle'⟩
      · refine .inl ⟨l :: front, back, s', rfl, ?_, hQ⟩
        rw [run_cons, hl]
        exact hfront
      · refine .inr ⟨hI', ?_⟩
        rw [List.countP_cons]
        omega

end WireProxy.Transition
