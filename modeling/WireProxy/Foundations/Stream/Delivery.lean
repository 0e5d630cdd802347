import WireProxy.Foundations.Stream.Copying
import WireProxy.Foundations.Transition.History

/-!
# What copiers deliver, and that they come to an end

Copiers whose sources are given from the beginning, as the streams that the other programs will have
sent in the end.

* `Event` is what is seen of a step: a copier fails, or is cut off by a file that is closed while it
  still has something to read or to write.
* `received_eq_iff`: a copier that has stopped without failing has delivered its stream iff it was
  not cut off. `length_received_of_run`: how much was received is how much was written.
* `length_le_of_run` and `closed_of_stuck`: every run comes to an end, and then the files are
  closed.
-/

namespace WireProxy.Copying

open Transition

variable {C F α : Type*}

/-- The state when the copiers are started, with all that will have come in at their sources. -/
def State.ofStreams (F : Type*) (stream : C → List α) : State C F α :=
  ⟨fun c => ⟨stream c, true, stream c, [], .reading⟩, fun _ => false⟩

/-- What is seen of a step. -/
inductive Event (C : Type*)
  /-- A read or a write of the copier fails for a reason of its own. -/
  | failed (c : C)
  /-- The copier finds a file closed, and something is left to read or to write. -/
  | cutOff (c : C)
  deriving DecidableEq

/-- The copier of an event. -/
def Event.copier : Event C → C
  | .failed c => c
  | .cutOff c => c

/-- The event of a step. A copier in front of a write always holds something. -/
def event (st : State C F α) : C × Act α → Option (Event C)
  | (c, .fail) => some (.failed c)
  | (c, .writeClosed) => some (.cutOff c)
  | (c, .readClosed) => if (st.copies c).unread.isEmpty then none else some (.cutOff c)
  | _ => none

/-- How much the steps write for a copier. -/
def written [DecidableEq C] (c : C) : List (C × Act α) → ℕ
  | [] => 0
  | (c', .write n) :: labels => (if c' = c then n else 0) + written c labels
  | _ :: labels => written c labels

theorem copier_of_event {st : State C F α} {l : C × Act α} {e : Event C}
    (h : event st l = some e) : e.copier = l.1 := by
  unfold event at h
  split at h
  · cases h
    rfl
  · cases h
    rfl
  · split at h <;> cases h
    rfl
  · cases h

/-! ## What was delivered -/

/-- What the events of a copier say about it. -/
def Copy.Told (cp : Copy F α) (failed cutOff : Prop) : Prop :=
  match cp.place with
  | .closing why _ => (why = .failed ↔ failed) ∧ (¬ failed → (cp.received = cp.sent ↔ ¬ cutOff))
  | _ => ¬ failed ∧ ¬ cutOff

/-- The invariant of a run and its history. -/
structure Delivering (wires : Wiring C F) (stream : C → List α) (st : State C F α)
    (h : List (Event C)) : Prop where
  sound : Sound wires st
  sent_eq : ∀ c, (st.copies c).sent = stream c
  ended : ∀ c, (st.copies c).ended = true
  told : ∀ c, (st.copies c).Told (.failed c ∈ h) (.cutOff c ∈ h)

theorem delivering_ofStreams (wires : Wiring C F) (stream : C → List α) :
    Delivering wires stream (.ofStreams F stream) [] where
  sound := sound_of_started (fun _ => ⟨rfl, rfl, rfl⟩) fun _ => rfl
  sent_eq _ := rfl
  ended _ := rfl
  told _ := ⟨List.not_mem_nil, List.not_mem_nil⟩

/-- A copier whose source has ended takes nothing in. -/
theorem Move.ended {wires : Wiring C F} {closed : F → Bool} {c : C} {cp cp' : Copy F α}
    {act : Act α} {f : Option F} (hmove : Move wires closed c cp act cp' f)
    (hended : cp.ended = true) : cp'.sent = cp.sent ∧ cp'.ended = true := by
  cases hmove with
  | arrive _ hnot | finish hnot =>
    rw [hnot] at hended
    cases hended
  | read | write | eof | readClosed | writeClosed | fail | close => exact ⟨rfl, hended⟩

/-- What is left in front of a copier that has not stopped is what is missing. -/
theorem Copy.Carries.received_eq_iff {cp : Copy F α} (h : cp.Carries)
    (hplace : cp.place = .reading) : cp.received = cp.sent ↔ cp.unread = [] := by
  rw [Carries, hplace] at h
  dsimp only at h
  rw [h, List.self_eq_append_right]

theorem Copy.Carries.received_ne {cp : Copy F α} {held : List α} (h : cp.Carries)
    (hplace : cp.place = .writing held) : cp.received ≠ cp.sent := by
  rw [Carries, hplace] at h
  obtain ⟨hheld, hsent⟩ := h
  rw [hsent, Ne, List.self_eq_append_right, List.append_eq_nil_iff]
  exact fun hnil => hheld hnil.1

section Steps

variable {wires : Wiring C F} {stream : C → List α} {st st' : State C F α} {h : List (Event C)}
  {l : C × Act α}

/-- The events of the copier that moves. -/
theorem Moved.told {f : Option F} (hmoved : Moved wires st st' l f)
    (hended : (st.copies l.1).ended = true) (hcarries : (st.copies l.1).Carries)
    (htold : (st.copies l.1).Told (.failed l.1 ∈ h) (.cutOff l.1 ∈ h)) :
    (st'.copies l.1).Told (.failed l.1 ∈ h ++ (event st l).toList)
      (.cutOff l.1 ∈ h ++ (event st l).toList) := by
  obtain ⟨c, act⟩ := l
  have hmove := hmoved.move
  dsimp only at *
  generalize hcp : st'.copies c = cp at hmove
  cases hmove with
  | arrive _ hnot | finish hnot =>
    rw [hnot] at hended
    cases hended
  | read hplace =>
    rw [Copy.Told, hplace] at htold
    simpa [Copy.Told, event] using htold
  | @write held n hplace =>
    rw [Copy.Told, hplace] at htold
    by_cases hn : n = held.length <;> simpa [Copy.Told, event, hn] using htold
  | eof hplace hunread =>
    rw [Copy.Told, hplace] at htold
    have hreceived := (hcarries.received_eq_iff hplace).2 hunread
    simp [Copy.Told, Copy.stop, event, hreceived, htold]
  | readClosed hplace =>
    rw [Copy.Told, hplace] at htold
    have hiff := hcarries.received_eq_iff hplace
    by_cases hunread : (st.copies c).unread = [] <;>
      simp [Copy.Told, Copy.stop, event, hiff, hunread, htold]
  | writeClosed hplace =>
    rw [Copy.Told, hplace] at htold
    have hne := hcarries.received_ne hplace
    simp [Copy.Told, Copy.stop, event, hne, htold]
  | fail => simp [Copy.Told, Copy.stop, event]
  | close hplace =>
    rw [Copy.Told, hplace] at htold
    simpa [Copy.Told, event] using htold

/-- **What was delivered**, where nothing failed. -/
theorem Delivering.received_eq_iff (inv : Delivering wires stream st h) {c : C} {why : Reason}
    (hstopped : st.Stopped c why) (hfail : .failed c ∉ h) :
    (st.copies c).received = stream c ↔ .cutOff c ∉ h := by
  obtain ⟨left, hplace⟩ := hstopped
  have htold := inv.told c
  rw [Copy.Told, hplace] at htold
  rw [← inv.sent_eq]
  exact htold.2 hfail

/-- Where nothing failed, somebody has delivered everything. -/
theorem Delivering.exists_received_eq (inv : Delivering wires stream st h) {c : C} {why : Reason}
    (hstopped : st.Stopped c why) (hfail : ∀ c, .failed c ∉ h) :
    ∃ c, (st.copies c).received = stream c := by
  obtain ⟨c', why', ⟨left, hplace⟩, hne⟩ := inv.sound.first c why hstopped
  have htold := inv.told c'
  have hcarries := inv.sound.carries c'
  rw [Copy.Told, hplace] at htold
  rw [Copy.Carries, hplace] at hcarries
  cases why' with
  | finished => exact ⟨c', (hcarries.2 rfl).1.trans (inv.sent_eq c')⟩
  | closed => exact absurd rfl hne
  | failed => exact absurd (htold.1.1 rfl) (hfail c')

variable [DecidableEq C] [DecidableEq F]

/-- **A step keeps the invariant.** -/
theorem delivering_step (inv : Delivering wires stream st h) (hstep : step wires st l = some st') :
    Delivering wires stream st' (h ++ (event st l).toList) := by
  obtain ⟨f, hmoved⟩ := moved_of_step hstep
  have hended := hmoved.move.ended (inv.ended l.1)
  refine ⟨sound_step inv.sound hstep, fun c => ?_, fun c => ?_, fun c => ?_⟩ <;>
    by_cases hc : c = l.1
  · rw [hc, hended.1, inv.sent_eq]
  · rw [hmoved.other c hc, inv.sent_eq]
  · rw [hc, hended.2]
  · rw [hmoved.other c hc, inv.ended]
  · subst hc
    exact hmoved.told (inv.ended l.1) (inv.sound.carries l.1) (inv.told l.1)
  · -- the event is not one of this copier
    have hmem (e : Event C) (he : e.copier = c) : e ∈ h ++ (event st l).toList ↔ e ∈ h := by
      rw [List.mem_append, Option.mem_toList, or_iff_left]
      intro hevent
      exact hc (he.symm.trans (copier_of_event hevent))
    rw [hmoved.other c hc, hmem _ rfl, hmem _ rfl]
    exact inv.told c

theorem delivering_of_run {labels : List (C × Act α)}
    (hrun : run (step wires) (.ofStreams F stream) labels = some st) :
    Delivering wires stream st (events (step wires) event (.ofStreams F stream) labels) :=
  run_invariant (delivering_ofStreams wires stream) (fun _ _ _ _ => delivering_step) hrun

/-- **How much was received.** -/
theorem length_received_of_run {init : State C F α} {labels : List (C × Act α)}
    (hrun : run (step wires) init labels = some st) (c : C) :
    (st.copies c).received.length = (init.copies c).received.length + written c labels := by
  induction labels generalizing init with
  | nil =>
    cases hrun
    rfl
  | cons l labels ih =>
    rw [run_cons, Option.bind_eq_some_iff] at hrun
    obtain ⟨st₁, hl, hrun⟩ := hrun
    obtain ⟨f, hmoved⟩ := moved_of_step hl
    rw [ih hrun]
    obtain ⟨c', act⟩ := l
    by_cases hc : c = c'
    · subst hc
      have hmove := hmoved.move
      dsimp only at hmove
      generalize st₁.copies c = cp at hmove
      cases hmove with
      | write hplace hpos hle =>
        rw [written, if_pos rfl, List.length_append, List.length_take, min_eq_left hle, add_assoc]
      | arrive | finish | read | eof | readClosed | writeClosed | fail | close => rfl
    · rw [hmoved.other c hc]
      cases act with
      | write n => rw [written, if_neg (Ne.symm hc), Nat.zero_add]
      | arrive | finish | read | eof | readClosed | writeClosed | fail | close => rfl

end Steps

/-! ## The end of a run -/

/-- A bound for the number of steps that a copier can still make at its place. -/
def Place.weight (closes : ℕ) : Place F α → ℕ
  | .reading => closes + 1
  | .writing held => closes + 1 + held.length
  | .closing _ left => left.length

/-- A bound for the number of steps of a copier. -/
def Copy.weight (closes : ℕ) (cp : Copy F α) : ℕ :=
  2 * cp.unread.length + cp.place.weight closes

/-- A bound for the number of steps. -/
def State.weight [Fintype C] (wires : Wiring C F) (st : State C F α) : ℕ :=
  ∑ c, (st.copies c).weight (wires.closes c).length

/-- A move uses up what can still be done. -/
theorem Move.weight_lt {wires : Wiring C F} {closed : F → Bool} {c : C} {cp cp' : Copy F α}
    {act : Act α} {f : Option F} (hmove : Move wires closed c cp act cp' f)
    (hended : cp.ended = true) :
    cp'.weight (wires.closes c).length < cp.weight (wires.closes c).length := by
  cases hmove with
  | arrive _ hnot | finish hnot =>
    rw [hnot] at hended
    cases hended
  | read hplace hpos hle =>
    simp only [Copy.weight, hplace, Place.weight, List.length_drop, List.length_take]
    omega
  | write hplace hpos hle =>
    simp only [Copy.weight, hplace]
    split <;> simp only [Place.weight, List.length_drop] <;> omega
  | eof hplace | readClosed hplace | writeClosed hplace =>
    simp only [Copy.weight, Copy.stop, hplace, Place.weight]
    omega
  | fail hplace =>
    simp only [Copy.weight, Copy.stop]
    cases hcp : cp.place with
    | reading =>
      simp only [Place.weight]
      omega
    | writing held =>
      simp only [Place.weight]
      omega
    | closing why left => exact absurd hcp (hplace why left)
  | close hplace =>
    simp only [Copy.weight, hplace, Place.weight, List.length_cons]
    omega

section End

variable [DecidableEq C] [DecidableEq F] {wires : Wiring C F} {stream : C → List α}
  {st st' : State C F α} {h : List (Event C)}

theorem weight_lt_of_step [Fintype C] {l : C × Act α} (hended : ∀ c, (st.copies c).ended = true)
    (hstep : step wires st l = some st') : st'.weight wires < st.weight wires := by
  obtain ⟨f, hmoved⟩ := moved_of_step hstep
  have hlt := hmoved.move.weight_lt (hended l.1)
  refine Finset.sum_lt_sum (fun c _ => ?_) ⟨l.1, Finset.mem_univ _, hlt⟩
  by_cases hc : c = l.1
  · rw [hc]
    exact hlt.le
  · rw [hmoved.other c hc]

/-- **Every run comes to an end.** -/
theorem length_le_of_run [Fintype C] {labels : List (C × Act α)}
    (hrun : run (step wires) (.ofStreams F stream) labels = some st) :
    labels.length ≤ (State.ofStreams F stream).weight wires := by
  have hbound := length_add_le_of_run (I := fun st => ∃ h, Delivering wires stream st h)
    (m := State.weight wires) ⟨[], delivering_ofStreams wires stream⟩ ?_ hrun
  · omega
  · rintro st l st' ⟨h, inv⟩ hl
    exact ⟨⟨_, delivering_step inv hl⟩, weight_lt_of_step inv.ended hl⟩

/-- A copier that has something to do can make a step. -/
theorem Delivering.exists_step (inv : Delivering wires stream st h) (c : C)
    (hplace : ∀ why, (st.copies c).place ≠ .closing why []) :
    ∃ act, step wires st (c, act) ≠ none := by
  cases hcp : (st.copies c).place with
  | reading =>
    cases hclosed : st.closed (wires.source c) with
    | true => exact ⟨.readClosed, by simp [step, Copy.step, hcp, hclosed]⟩
    | false =>
      cases hunread : (st.copies c).unread with
      | nil => exact ⟨.eof, by simp [step, Copy.step, hcp, hclosed, hunread, inv.ended c]⟩
      | cons x xs => exact ⟨.read 1, by simp [step, Copy.step, hcp, hclosed, hunread]⟩
  | writing held =>
    cases hclosed : st.closed (wires.sink c) with
    | true => exact ⟨.writeClosed, by simp [step, Copy.step, hcp, hclosed]⟩
    | false =>
      have hcarries := inv.sound.carries c
      rw [Copy.Carries, hcp] at hcarries
      have hpos : 1 ≤ held.length := List.length_pos_iff.2 hcarries.1
      exact ⟨.write 1, by simp [step, Copy.step, hcp, hclosed, hpos]⟩
  | closing why left =>
    cases left with
    | nil => exact absurd hcp (hplace why)
    | cons f left => exact ⟨.close, by simp [step, Copy.step, hcp]⟩

/-- **When nothing is left to do**, the files that the copiers have to close are closed. -/
theorem Delivering.closed_of_stuck (inv : Delivering wires stream st h)
    (hstuck : ∀ l, step wires st l = none) {c : C} {f : F} (hf : f ∈ wires.closes c) :
    st.closed f = true := by
  obtain ⟨why, hplace⟩ : ∃ why, (st.copies c).place = .closing why [] := by
    by_contra hne
    obtain ⟨act, hact⟩ := inv.exists_step c (not_exists.1 hne)
    exact hact (hstuck (c, act))
  exact ((inv.sound.closes c why [] hplace).2 f hf).resolve_left List.not_mem_nil

end End

end WireProxy.Copying
