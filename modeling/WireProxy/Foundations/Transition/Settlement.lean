import WireProxy.Foundations.Transition.History

/-!
# Settled inputs

The counterpart of `Relays`: a component that holds at most one input at a time loses none.
`Settled` says that the inputs of a history, in their order, are those that the outputs settle, in
the order of the outputs, and then the one that is still held, if any.

The lemmas say what the component can do: take an input when it holds none, settle the one that it
holds, or leave the event to others.
-/

namespace WireProxy.Transition

variable {ε : Type*} (inp out : ε → Bool) (R : ε → ε → Prop)

/-- Each input is settled by an output of its own, in order, except the last one if it is held;
`R` says which outputs settle an input. -/
def Settled (h : List ε) (held : Option ε) : Prop :=
  ∃ done, h.filter inp = done ++ held.toList ∧ List.Forall₂ R done (h.filter out)

variable {inp out R} {h : List ε} {held : Option ε} {r e : ε}

theorem settled_nil : Settled inp out R [] none := ⟨[], rfl, .nil⟩

/-- The relation may become weaker. -/
theorem Settled.mono (hs : Settled inp out R h held) {R' : ε → ε → Prop}
    (himp : ∀ r e, R r e → R' r e) : Settled inp out R' h held := by
  obtain ⟨done, hdone, hout⟩ := hs
  exact ⟨done, hdone, hout.imp himp⟩

/-- An event happens elsewhere. -/
theorem Settled.other (hs : Settled inp out R h held) (hin : inp e = false) (hout : out e = false) :
    Settled inp out R (h ++ [e]) held := by
  obtain ⟨done, hdone, hsettled⟩ := hs
  refine ⟨done, ?_, ?_⟩
  · simp [List.filter_append, hin, hdone]
  · simpa [List.filter_append, hout] using hsettled

theorem Settled.others (hs : Settled inp out R h held) {e : Option ε}
    (he : ∀ x ∈ e, inp x = false ∧ out x = false) : Settled inp out R (h ++ e.toList) held := by
  cases e with
  | none => simpa using hs
  | some e => exact hs.other (he e rfl).1 (he e rfl).2

/-- An input is taken. -/
theorem Settled.take (hs : Settled inp out R h none) (hin : inp e = true) (hout : out e = false) :
    Settled inp out R (h ++ [e]) (some e) := by
  obtain ⟨done, hdone, hsettled⟩ := hs
  refine ⟨done, ?_, ?_⟩
  · simpa [List.filter_append, hin] using hdone
  · simpa [List.filter_append, hout] using hsettled

/-- The input that is held is settled. -/
theorem Settled.settle (hs : Settled inp out R h (some r)) (hin : inp e = false)
    (hout : out e = true) (hre : R r e) : Settled inp out R (h ++ [e]) none := by
  obtain ⟨done, hdone, hsettled⟩ := hs
  refine ⟨done ++ [r], ?_, ?_⟩
  · simpa [List.filter_append, hin] using hdone
  · rw [List.filter_append, List.filter_singleton, hout]
    exact List.rel_append hsettled (.cons hre .nil)

end WireProxy.Transition
