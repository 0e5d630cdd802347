import WireProxy.Foundations.Transition.Reachable

/-!
# Histories of runs, and relayed events

A step may show an event to the outside. The events of a run, in order, are its history, and
properties of histories are proved together with the state that the run has come to.

* `events` is the history of a list of labels, `run_invariant` the induction over runs.
* `Relayed` says that some of the events of a history, its outputs, pass on earlier ones, its
  inputs: each output has its own input before it, and the inputs come in the order of the outputs.
  So no input is passed on twice and none overtakes another.
* `Relays` is the invariant of a component that holds at most one input at a time, with a lemma for
  each of the things that it can do: take an input, pass it on, or drop it.
-/

namespace WireProxy.Transition

variable {σ ι ε : Type*}

/-! ## Histories -/

section Histories

variable (step : σ → ι → Option σ) (event : σ → ι → Option ε)

/-- The events that the steps of a list of labels show. -/
def events (s : σ) : List ι → List ε
  | [] => []
  | l :: labels => (event s l).toList ++
    match step s l with
    | some s' => events s' labels
    | none => []

variable {step event}

/-- **Invariants of a run and its history.** -/
theorem run_invariant {I : σ → List ε → Prop} {init s : σ} (hinit : I init [])
    (hstep : ∀ s h l s', I s h → step s l = some s' → I s' (h ++ (event s l).toList))
    {labels : List ι} (hrun : run step init labels = some s) :
    I s (events step event init labels) := by
  -- generalised to a run that continues a history
  suffices hfrom : ∀ h, I init h → I s (h ++ events step event init labels) by
    simpa using hfrom [] hinit
  clear hinit
  induction labels generalizing init with
  | nil =>
    intro h hI
    cases hrun
    simpa [events] using hI
  | cons l labels ih =>
    intro h hI
    rw [run_cons, Option.bind_eq_some_iff] at hrun
    obtain ⟨s₁, hl, hrun⟩ := hrun
    simpa only [events, hl, List.append_assoc] using ih hrun _ (hstep init h l s₁ hI hl)

end Histories

/-! ## Relayed events -/

section Relayed

variable (out : ε → Prop) (R : ε → ε → Prop)

/-- The positions of the outputs in a history. -/
def outputs (h : List ε) : Set ℕ := {k | ∃ e, h[k]? = some e ∧ out e}

/-- The outputs of the history pass on its inputs, where `R` says which inputs an output may come
from: `origin` gives each output an earlier input, and is strictly increasing. -/
def Relayed (h : List ε) : Prop :=
  ∃ origin : ℕ → ℕ, StrictMonoOn origin (outputs out h) ∧
    ∀ k e, h[k]? = some e → out e → origin k < k ∧ ∃ r, h[origin k]? = some r ∧ R r e

/-- `Relayed` by a component that still holds the input `held`, if any: it is later than the origins
of all outputs. -/
def Relays (h : List ε) (held : Option ε) : Prop :=
  ∃ origin : ℕ → ℕ, StrictMonoOn origin (outputs out h) ∧
    (∀ k e, h[k]? = some e → out e → origin k < k ∧ ∃ r, h[origin k]? = some r ∧ R r e) ∧
    ∀ r ∈ held, ∃ p, h[p]? = some r ∧ ∀ k ∈ outputs out h, origin k < p

variable {out R} {h : List ε} {held : Option ε} {r e : ε}

theorem Relays.relayed (hr : Relays out R h held) : Relayed out R h := by
  obtain ⟨origin, hmono, horigin, -⟩ := hr
  exact ⟨origin, hmono, horigin⟩

theorem relays_nil : Relays out R [] none :=
  ⟨id, fun k hk => by simp [outputs] at hk, by simp, by simp⟩

/-- The relation may become weaker. -/
theorem Relays.mono (hr : Relays out R h held) {R' : ε → ε → Prop}
    (himp : ∀ r e, R r e → R' r e) : Relays out R' h held := by
  obtain ⟨origin, hmono, horigin, hheld⟩ := hr
  refine ⟨origin, hmono, fun k e hk he => ?_, hheld⟩
  obtain ⟨hlt, r, hr, hre⟩ := horigin k e hk he
  exact ⟨hlt, r, hr, himp r e hre⟩

/-- What is held may be dropped. -/
theorem Relays.drop (hr : Relays out R h held) : Relays out R h none := by
  obtain ⟨origin, hmono, horigin, -⟩ := hr
  exact ⟨origin, hmono, horigin, by simp⟩

/-! ### One more event -/

theorem getElem?_concat_of_some {k : ℕ} (hk : h[k]? = some r) : (h ++ [e])[k]? = some r := by
  rw [List.getElem?_append_left (List.getElem?_eq_some_iff.1 hk).1, hk]

theorem getElem?_concat_eq_some_iff {k : ℕ} :
    (h ++ [e])[k]? = some r ↔ h[k]? = some r ∨ k = h.length ∧ r = e := by
  rcases lt_trichotomy k h.length with hk | rfl | hk
  · simp [List.getElem?_append_left hk, hk.ne]
  · simp [eq_comm]
  · have hne : k ≠ h.length := hk.ne'
    rw [List.getElem?_eq_none (by simpa using hk), List.getElem?_eq_none hk.le]
    simp [hne]

theorem outputs_concat_of_not (he : ¬ out e) : outputs out (h ++ [e]) = outputs out h := by
  ext k
  simp only [outputs, Set.mem_ofPred_eq, getElem?_concat_eq_some_iff]
  constructor
  · rintro ⟨x, hx | ⟨-, rfl⟩, hout⟩
    · exact ⟨x, hx, hout⟩
    · exact absurd hout he
  · rintro ⟨x, hx, hout⟩
    exact ⟨x, .inl hx, hout⟩

theorem lt_length_of_mem_outputs {k : ℕ} (hk : k ∈ outputs out h) : k < h.length := by
  obtain ⟨x, hx, -⟩ := hk
  exact (List.getElem?_eq_some_iff.1 hx).1

/-- The origins of the outputs stay what they were when an event is added that is no output. -/
theorem origin_concat_of_not {origin : ℕ → ℕ} (he : ¬ out e)
    (horigin : ∀ k x, h[k]? = some x → out x → origin k < k ∧ ∃ r, h[origin k]? = some r ∧ R r x) :
    ∀ k x, (h ++ [e])[k]? = some x → out x →
      origin k < k ∧ ∃ r, (h ++ [e])[origin k]? = some r ∧ R r x := by
  intro k x hk hx
  rcases getElem?_concat_eq_some_iff.1 hk with hk | ⟨-, rfl⟩
  · obtain ⟨hlt, r, hr, hrx⟩ := horigin k x hk hx
    exact ⟨hlt, r, getElem?_concat_of_some hr, hrx⟩
  · exact absurd hx he

/-- An event happens elsewhere. -/
theorem Relays.other (hr : Relays out R h held) (he : ¬ out e) :
    Relays out R (h ++ [e]) held := by
  obtain ⟨origin, hmono, horigin, hheld⟩ := hr
  refine ⟨origin, ?_, origin_concat_of_not he horigin, fun r hr => ?_⟩
  · rwa [outputs_concat_of_not he]
  · obtain ⟨p, hp, hlt⟩ := hheld r hr
    exact ⟨p, getElem?_concat_of_some hp, by rwa [outputs_concat_of_not he]⟩

theorem Relays.others (hr : Relays out R h held) {e : Option ε} (he : ∀ x ∈ e, ¬ out x) :
    Relays out R (h ++ e.toList) held := by
  cases e with
  | none => simpa using hr
  | some e => exact hr.other (he e rfl)

/-- An input is taken; what was held before is dropped. -/
theorem Relays.take (hr : Relays out R h held) (he : ¬ out e) :
    Relays out R (h ++ [e]) (some e) := by
  obtain ⟨origin, hmono, horigin, -⟩ := hr
  refine ⟨origin, ?_, origin_concat_of_not he horigin, fun r hr => ?_⟩
  · rwa [outputs_concat_of_not he]
  · cases hr
    refine ⟨h.length, by simp, fun k hk => ?_⟩
    -- an output is later than its origin, and earlier than the new input
    rw [outputs_concat_of_not he] at hk
    obtain ⟨x, hx, hout⟩ := hk
    exact (horigin k x hx hout).1.trans (lt_length_of_mem_outputs ⟨x, hx, hout⟩)

/-- The input that is held is passed on. -/
theorem Relays.pass (hr : Relays out R h (some r)) (hre : R r e) :
    Relays out R (h ++ [e]) none := by
  obtain ⟨origin, hmono, horigin, hheld⟩ := hr
  obtain ⟨p, hp, hlt⟩ := hheld r rfl
  have hplt : p < h.length := (List.getElem?_eq_some_iff.1 hp).1
  have hold : ∀ k < h.length, Function.update origin h.length p k = origin k := fun k hk =>
    Function.update_of_ne hk.ne _ _
  have hcases : ∀ k ∈ outputs out (h ++ [e]), k ∈ outputs out h ∨ k = h.length := by
    rintro k ⟨x, hx, hout⟩
    rcases getElem?_concat_eq_some_iff.1 hx with hx | ⟨hk, -⟩
    · exact .inl ⟨x, hx, hout⟩
    · exact .inr hk
  refine ⟨Function.update origin h.length p, fun k hk k' hk' hkk' => ?_, fun k x hk hx => ?_,
    by simp⟩
  · rcases hcases k hk with hk | rfl
    · rw [hold k (lt_length_of_mem_outputs hk)]
      rcases hcases k' hk' with hk' | rfl
      · rw [hold k' (lt_length_of_mem_outputs hk')]
        exact hmono hk hk' hkk'
      · rw [Function.update_self]
        exact hlt k hk
    · -- no output is later than the last event
      rcases hcases k' hk' with hk' | rfl
      · exact absurd (lt_length_of_mem_outputs hk') hkk'.not_gt
      · exact absurd rfl hkk'.ne
  · rcases getElem?_concat_eq_some_iff.1 hk with hk | ⟨rfl, rfl⟩
    · obtain ⟨hltk, r', hr', hrx⟩ := horigin k x hk hx
      rw [hold k (lt_length_of_mem_outputs ⟨x, hk, hx⟩)]
      exact ⟨hltk, r', getElem?_concat_of_some hr', hrx⟩
    · rw [Function.update_self]
      exact ⟨hplt, r, getElem?_concat_of_some hp, hre⟩

end Relayed

end WireProxy.Transition
