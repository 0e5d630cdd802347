import WireProxy.Foundations.Transition.Reachable

/-!
# Copiers

Files and copiers between them. A copier reads from its source and writes to its sink, until the
source ends, one of the two is closed or something fails, and then closes some files one after the
other. Several copiers may use one file.

* `Copy.step` is a step of one copier and `step` the transition function of all of them, with what
  comes in at the sources. `moved_of_step` says what a step can do.
* `Sound` is the invariant: what was written is the beginning of what came in, and all of it for a
  copier that stopped at the end of its source; a copier that stopped at a closed file was not the
  first to stop.
* `sound_of_reachable` is the rule for the reachable states.
-/

namespace WireProxy.Copying

open Transition

variable {C F α : Type*}

/-! ## The system -/

/-- The files that a copier uses. -/
structure Wiring (C F : Type*) where
  source : C → F
  sink : C → F
  /-- What the copier closes in the end, in this order. -/
  closes : C → List F

/-- Why a copier stops. -/
inductive Reason
  /-- The source has ended. -/
  | finished
  /-- The source or the sink is closed. -/
  | closed
  /-- A read or a write fails for another reason. -/
  | failed
  deriving DecidableEq

/-- The place of a copier. -/
inductive Place (F α : Type*)
  | reading
  /-- In front of a write, with what it still has to write. -/
  | writing (held : List α)
  /-- In front of the closes that are left. -/
  | closing (why : Reason) (left : List F)
  deriving DecidableEq

/-- A copier, with what comes in at its source and goes out at its sink. -/
structure Copy (F α : Type*) where
  /-- All that has come in. -/
  sent : List α
  /-- Nothing more will come in. -/
  ended : Bool
  unread : List α
  received : List α
  place : Place F α
  deriving DecidableEq

/-- The state of the copiers and the files. -/
structure State (C F α : Type*) where
  copies : C → Copy F α
  closed : F → Bool

/-- The state when the copiers are started. -/
def State.init (C F α : Type*) : State C F α :=
  ⟨fun _ => ⟨[], false, [], [], .reading⟩, fun _ => false⟩

/-- The steps of a copier, and of its source. -/
inductive Act (α : Type*)
  /-- Something comes in. -/
  | arrive (xs : List α)
  /-- The source ends. -/
  | finish
  /-- A read returns some of what has come in. -/
  | read (n : ℕ)
  /-- A read returns the end. -/
  | eof
  /-- A read fails, since the source is closed. -/
  | readClosed
  /-- Some is written. -/
  | write (n : ℕ)
  /-- A write fails, since the sink is closed. -/
  | writeClosed
  /-- A read or a write fails for another reason. -/
  | fail
  /-- The next file is closed. -/
  | close
  deriving DecidableEq

/-- A copier stops. -/
def Copy.stop (cp : Copy F α) (why : Reason) (closes : List F) : Copy F α :=
  { cp with place := .closing why closes }

section Step

variable [DecidableEq C] [DecidableEq F] (wires : Wiring C F)

/-- The step of a copier, if it is enabled. -/
def Copy.step (closed : F → Bool) (c : C) (cp : Copy F α) : Act α → Option (Copy F α)
  | .arrive xs =>
    if cp.ended then none else some { cp with sent := cp.sent ++ xs, unread := cp.unread ++ xs }
  | .finish => if cp.ended then none else some { cp with ended := true }
  | .read n =>
    match cp.place with
    | .reading =>
      if closed (wires.source c) = false ∧ 0 < n ∧ n ≤ cp.unread.length then
        some { cp with unread := cp.unread.drop n, place := .writing (cp.unread.take n) }
      else none
    | _ => none
  | .eof =>
    match cp.place with
    | .reading =>
      if closed (wires.source c) = false ∧ cp.unread.isEmpty ∧ cp.ended then
        some (cp.stop .finished (wires.closes c))
      else none
    | _ => none
  | .readClosed =>
    match cp.place with
    | .reading =>
      if closed (wires.source c) then some (cp.stop .closed (wires.closes c)) else none
    | _ => none
  | .write n =>
    match cp.place with
    | .writing held =>
      if closed (wires.sink c) = false ∧ 0 < n ∧ n ≤ held.length then
        some { cp with
          received := cp.received ++ held.take n
          place := if n = held.length then .reading else .writing (held.drop n) }
      else none
    | _ => none
  | .writeClosed =>
    match cp.place with
    | .writing _ =>
      if closed (wires.sink c) then some (cp.stop .closed (wires.closes c)) else none
    | _ => none
  | .fail =>
    match cp.place with
    | .closing _ _ => none
    | _ => some (cp.stop .failed (wires.closes c))
  | .close =>
    match cp.place with
    | .closing why (_ :: left) => some { cp with place := .closing why left }
    | _ => none

/-- The file that a step closes. -/
def Copy.closing (cp : Copy F α) : Act α → Option F
  | .close =>
    match cp.place with
    | .closing _ left => left.head?
    | _ => none
  | _ => none

/-- The step of a label, if it is enabled. -/
def step (st : State C F α) (l : C × Act α) : Option (State C F α) :=
  ((st.copies l.1).step wires st.closed l.1 l.2).map fun cp =>
    { copies := Function.update st.copies l.1 cp
      closed := fun f => if (st.copies l.1).closing l.2 = some f then true else st.closed f }

end Step

/-! ## What a step can do -/

/-- What a copier can do, where the files of `closed` are closed: the new copier, and the file that
it closes. -/
inductive Move (wires : Wiring C F) (closed : F → Bool) (c : C) (cp : Copy F α) :
    Act α → Copy F α → Option F → Prop
  | arrive (xs : List α) (hended : cp.ended = false) :
    Move wires closed c cp (.arrive xs)
      { cp with sent := cp.sent ++ xs, unread := cp.unread ++ xs } none
  | finish (hended : cp.ended = false) :
    Move wires closed c cp .finish { cp with ended := true } none
  | read {n : ℕ} (hplace : cp.place = .reading) (hpos : 0 < n) (hle : n ≤ cp.unread.length) :
    Move wires closed c cp (.read n)
      { cp with unread := cp.unread.drop n, place := .writing (cp.unread.take n) } none
  | write {held : List α} {n : ℕ} (hplace : cp.place = .writing held) (hpos : 0 < n)
    (hle : n ≤ held.length) :
    Move wires closed c cp (.write n)
      { cp with
        received := cp.received ++ held.take n
        place := if n = held.length then .reading else .writing (held.drop n) } none
  | eof (hplace : cp.place = .reading) (hunread : cp.unread = []) (hended : cp.ended = true) :
    Move wires closed c cp .eof (cp.stop .finished (wires.closes c)) none
  | readClosed (hplace : cp.place = .reading) (hclosed : closed (wires.source c) = true) :
    Move wires closed c cp .readClosed (cp.stop .closed (wires.closes c)) none
  | writeClosed {held : List α} (hplace : cp.place = .writing held)
    (hclosed : closed (wires.sink c) = true) :
    Move wires closed c cp .writeClosed (cp.stop .closed (wires.closes c)) none
  | fail (hplace : ∀ why left, cp.place ≠ .closing why left) :
    Move wires closed c cp .fail (cp.stop .failed (wires.closes c)) none
  | close {why : Reason} {f : F} {left : List F} (hplace : cp.place = .closing why (f :: left)) :
    Move wires closed c cp .close { cp with place := .closing why left } (some f)

/-- One copier moves, and may close a file. -/
structure Moved (wires : Wiring C F) (st st' : State C F α) (l : C × Act α) (f : Option F) :
    Prop where
  move : Move wires st.closed l.1 (st.copies l.1) l.2 (st'.copies l.1) f
  other : ∀ c', c' ≠ l.1 → st'.copies c' = st.copies c'
  closed_iff : ∀ f', st'.closed f' = true ↔ f = some f' ∨ st.closed f' = true

section Moves

variable [DecidableEq C] [DecidableEq F] {wires : Wiring C F} {st st' : State C F α}
  {l : C × Act α}

theorem moved_of_step (h : step wires st l = some st') : ∃ f, Moved wires st st' l f := by
  obtain ⟨cp, hcp, rfl⟩ := Option.map_eq_some_iff.1 h
  refine ⟨(st.copies l.1).closing l.2, ?_, fun c' hc' => Function.update_of_ne hc' _ _,
    fun f' => by by_cases hf : (st.copies l.1).closing l.2 = some f' <;> simp [hf]⟩
  dsimp only
  rw [Function.update_self]
  obtain ⟨c, act⟩ := l
  generalize st.copies c = old at hcp ⊢
  cases act with
  | arrive xs =>
    rw [Copy.step, Option.ite_none_left_eq_some, Bool.not_eq_true] at hcp
    obtain ⟨hended, ⟨⟩⟩ := hcp
    exact .arrive xs hended
  | finish =>
    rw [Copy.step, Option.ite_none_left_eq_some, Bool.not_eq_true] at hcp
    obtain ⟨hended, ⟨⟩⟩ := hcp
    exact .finish hended
  | read n =>
    rw [Copy.step] at hcp
    split at hcp
    · rename_i hplace
      rw [Option.ite_none_right_eq_some] at hcp
      obtain ⟨⟨-, hpos, hle⟩, ⟨⟩⟩ := hcp
      exact .read hplace hpos hle
    · cases hcp
  | eof =>
    rw [Copy.step] at hcp
    split at hcp
    · rename_i hplace
      rw [Option.ite_none_right_eq_some] at hcp
      obtain ⟨⟨-, hunread, hended⟩, ⟨⟩⟩ := hcp
      exact .eof hplace (List.isEmpty_iff.1 hunread) hended
    · cases hcp
  | readClosed =>
    rw [Copy.step] at hcp
    split at hcp
    · rename_i hplace
      rw [Option.ite_none_right_eq_some] at hcp
      obtain ⟨hclosed, ⟨⟩⟩ := hcp
      exact .readClosed hplace hclosed
    · cases hcp
  | write n =>
    rw [Copy.step] at hcp
    split at hcp
    · rename_i held hplace
      rw [Option.ite_none_right_eq_some] at hcp
      obtain ⟨⟨-, hpos, hle⟩, ⟨⟩⟩ := hcp
      exact .write hplace hpos hle
    · cases hcp
  | writeClosed =>
    rw [Copy.step] at hcp
    split at hcp
    · rename_i held hplace
      rw [Option.ite_none_right_eq_some] at hcp
      obtain ⟨hclosed, ⟨⟩⟩ := hcp
      exact .writeClosed hplace hclosed
    · cases hcp
  | fail =>
    rw [Copy.step] at hcp
    split at hcp
    · cases hcp
    · rename_i hplace
      cases hcp
      exact .fail fun why left h => hplace why left h
  | close =>
    rw [Copy.step] at hcp
    split at hcp
    · rename_i why f left hplace
      cases hcp
      rw [Copy.closing, hplace]
      exact .close hplace
    · cases hcp

end Moves

/-! ## The invariant -/

/-- A copier has stopped, for a reason. -/
def State.Stopped (st : State C F α) (c : C) (why : Reason) : Prop :=
  ∃ left, (st.copies c).place = .closing why left

/-- What one copier has carried: what was received, what it holds and what nobody has read make up
what came in. -/
def Copy.Carries (cp : Copy F α) : Prop :=
  match cp.place with
  | .reading => cp.sent = cp.received ++ cp.unread
  | .writing held => held ≠ [] ∧ cp.sent = cp.received ++ (held ++ cp.unread)
  | .closing why _ => cp.received <+: cp.sent ∧
    (why = .finished → cp.received = cp.sent ∧ cp.ended = true)

theorem Copy.Carries.begins {cp : Copy F α} (h : cp.Carries) : cp.received <+: cp.sent := by
  unfold Carries at h
  split at h
  · exact ⟨cp.unread, h.symm⟩
  · rename_i held hplace
    exact ⟨held ++ cp.unread, h.2.symm⟩
  · exact h.1

/-- A move carries on. -/
theorem Move.carries {wires : Wiring C F} {closed : F → Bool} {c : C} {cp cp' : Copy F α}
    {act : Act α} {f : Option F} (hmove : Move wires closed c cp act cp' f) (h : cp.Carries) :
    cp'.Carries := by
  have hbegins := h.begins
  cases hmove with
  | arrive xs hended =>
    unfold Copy.Carries at h ⊢
    dsimp only
    split <;> rename_i hplace <;> rw [hplace] at h <;> dsimp only at h
    · rw [h, List.append_assoc]
    · rw [h.2, List.append_assoc, List.append_assoc]
      exact ⟨h.1, rfl⟩
    · refine ⟨hbegins.trans (List.prefix_append _ _), fun hwhy => ?_⟩
      have hended' := (h.2 hwhy).2
      rw [hended] at hended'
      cases hended'
  | finish hended =>
    unfold Copy.Carries at h ⊢
    dsimp only
    split <;> rename_i hplace <;> rw [hplace] at h
    · exact h
    · exact h
    · exact ⟨hbegins, fun hwhy => ⟨(h.2 hwhy).1, rfl⟩⟩
  | @read n hplace hpos hle =>
    rw [Copy.Carries, hplace] at h
    refine ⟨?_, ?_⟩
    · rw [← List.length_pos_iff, List.length_take]
      omega
    · dsimp only
      rw [List.take_append_drop]
      exact h
  | @write held n hplace hpos hle =>
    rw [Copy.Carries, hplace] at h
    unfold Copy.Carries
    dsimp only
    by_cases hn : n = held.length
    · rw [if_pos hn, hn, List.take_length]
      exact h.2.trans (List.append_assoc _ _ _).symm
    · rw [if_neg hn]
      refine ⟨?_, ?_⟩
      · rw [← List.length_pos_iff, List.length_drop]
        omega
      · rw [List.append_assoc, ← List.append_assoc (held.take n), List.take_append_drop]
        exact h.2
  | eof hplace hunread hended =>
    rw [Copy.Carries, hplace] at h
    dsimp only at h
    rw [hunread, List.append_nil] at h
    exact ⟨hbegins, fun _ => ⟨h.symm, hended⟩⟩
  | readClosed | writeClosed | fail => exact ⟨hbegins, fun hwhy => by cases hwhy⟩
  | close hplace =>
    rw [Copy.Carries, hplace] at h
    exact h

/-- A copier that has stopped stays so. -/
theorem Move.stopped {wires : Wiring C F} {closed : F → Bool} {c : C} {cp cp' : Copy F α}
    {act : Act α} {f : Option F} (hmove : Move wires closed c cp act cp' f) {why : Reason}
    {left : List F} (hplace : cp.place = .closing why left) :
    ∃ left', cp'.place = .closing why left' := by
  cases hmove with
  | arrive | finish => exact ⟨left, hplace⟩
  | read hplace' | write hplace' | eof hplace' | readClosed hplace' | writeClosed hplace' =>
    rw [hplace] at hplace'
    cases hplace'
  | fail hplace' => exact absurd hplace (hplace' why left)
  | close hplace' =>
    rw [hplace] at hplace'
    cases hplace'
    exact ⟨_, rfl⟩

/-- The invariant of the copiers. -/
structure Sound (wires : Wiring C F) (st : State C F α) : Prop where
  carries : ∀ c, (st.copies c).Carries
  /-- A copier that has stopped closes what it has to close. -/
  closes : ∀ c why left, (st.copies c).place = .closing why left → left ⊆ wires.closes c ∧
    ∀ f ∈ wires.closes c, f ∈ left ∨ st.closed f = true
  /-- What is closed was closed by a copier that has stopped. -/
  closer : ∀ f, st.closed f = true → ∃ c why, st.Stopped c why ∧ f ∈ wires.closes c
  /-- The first copier to stop did so for a reason of its own. -/
  first : ∀ c why, st.Stopped c why → ∃ c' why', st.Stopped c' why' ∧ why' ≠ .closed

/-- Copiers that have done nothing. -/
theorem sound_of_started {wires : Wiring C F} {st : State C F α}
    (hcopies : ∀ c, (st.copies c).place = .reading ∧ (st.copies c).received = [] ∧
      (st.copies c).sent = (st.copies c).unread)
    (hclosed : ∀ f, st.closed f = false) : Sound wires st := by
  have hplace (c : C) (why : Reason) (left : List F) :
      (st.copies c).place ≠ .closing why left := by
    simp [(hcopies c).1]
  refine ⟨fun c => ?_, fun c why left h => absurd h (hplace c why left), fun f hf => ?_, ?_⟩
  · obtain ⟨hreading, hreceived, hsent⟩ := hcopies c
    rw [Copy.Carries, hreading]
    dsimp only
    rw [hreceived, hsent, List.nil_append]
  · rw [hclosed] at hf
    cases hf
  · rintro c why ⟨left, hleft⟩
    exact absurd hleft (hplace c why left)

section Soundness

variable {wires : Wiring C F} {st st' : State C F α}

/-- A copier that has stopped stays so. -/
theorem Moved.stopped {l : C × Act α} {f : Option F} (hmoved : Moved wires st st' l f) {c : C}
    {why : Reason} (h : st.Stopped c why) : st'.Stopped c why := by
  obtain ⟨left, hleft⟩ := h
  by_cases hc : c = l.1
  · subst hc
    exact hmoved.move.stopped hleft
  · exact ⟨left, by rw [hmoved.other c hc, hleft]⟩

/-- Who has stopped after a move had stopped before, or is the one that moves and has all its closes
left. It has a reason of its own, or some file is closed. -/
theorem Moved.stops {l : C × Act α} {f : Option F} (hmoved : Moved wires st st' l f) {c : C}
    {why : Reason} {left : List F} (hplace : (st'.copies c).place = .closing why left) :
    (∃ left', (st.copies c).place = .closing why left' ∧
      (left' = left ∨ ∃ f', f = some f' ∧ left' = f' :: left)) ∨
      f = none ∧ left = wires.closes c ∧ (why = .closed → ∃ f', st.closed f' = true) := by
  by_cases hc : c = l.1
  · subst hc
    generalize hcp : st'.copies l.1 = cp at hplace
    have hmove := hmoved.move
    rw [hcp] at hmove
    generalize l.2 = act at hmove
    cases hmove with
    | arrive | finish => exact .inl ⟨left, hplace, .inl rfl⟩
    | read => cases hplace
    | write =>
      dsimp only at hplace
      split at hplace <;> cases hplace
    | eof | fail =>
      cases hplace
      exact .inr ⟨rfl, rfl, by simp⟩
    | readClosed _ hclosed | writeClosed _ hclosed =>
      cases hplace
      exact .inr ⟨rfl, rfl, fun _ => ⟨_, hclosed⟩⟩
    | close hplace' =>
      cases hplace
      exact .inl ⟨_, hplace', .inr ⟨_, rfl, rfl⟩⟩
  · rw [hmoved.other c hc] at hplace
    exact .inl ⟨left, hplace, .inl rfl⟩

/-- A file that is closed was the next one to be closed. -/
theorem Moved.closing {l : C × Act α} {f : F} (hmoved : Moved wires st st' l (some f)) :
    ∃ why left, (st.copies l.1).place = .closing why (f :: left) := by
  generalize hcp : st'.copies l.1 = cp
  have hmove := hmoved.move
  rw [hcp] at hmove
  generalize l.2 = act at hmove
  cases hmove with
  | close hplace => exact ⟨_, _, hplace⟩

variable [DecidableEq C] [DecidableEq F]

/-- **A step keeps the invariant.** -/
theorem sound_step {l : C × Act α} (h : Sound wires st) (hstep : step wires st l = some st') :
    Sound wires st' := by
  obtain ⟨f, hmoved⟩ := moved_of_step hstep
  refine ⟨fun c => ?_, fun c why left hplace => ?_, fun f' hf' => ?_, fun c why hwhy => ?_⟩
  · by_cases hc : c = l.1
    · subst hc
      exact hmoved.move.carries (h.carries l.1)
    · rw [hmoved.other c hc]
      exact h.carries c
  · rcases hmoved.stops hplace with ⟨left', hleft', hsame | ⟨f', rfl, rfl⟩⟩ | ⟨-, rfl, -⟩
    · subst hsame
      obtain ⟨hsub, hclosed⟩ := h.closes c why left' hleft'
      exact ⟨hsub, fun f' hf' =>
        (hclosed f' hf').imp_right fun hc => (hmoved.closed_iff f').2 (.inr hc)⟩
    · obtain ⟨hsub, hclosed⟩ := h.closes c why _ hleft'
      refine ⟨(List.cons_subset.1 hsub).2, fun f'' hf'' => ?_⟩
      rw [hmoved.closed_iff]
      rcases hclosed f'' hf'' with hmem | hc
      · exact (List.mem_cons.1 hmem).symm.imp_right fun heq => .inl (congrArg some heq.symm)
      · exact .inr (.inr hc)
    · exact ⟨List.Subset.refl _, fun f' hf' => .inl hf'⟩
  · rcases (hmoved.closed_iff f').1 hf' with rfl | hclosed
    · obtain ⟨why, left, hplace⟩ := hmoved.closing
      exact ⟨l.1, why, hmoved.stopped ⟨_, hplace⟩, (h.closes _ _ _ hplace).1 List.mem_cons_self⟩
    · obtain ⟨c, why, hstopped, hmem⟩ := h.closer f' hclosed
      exact ⟨c, why, hmoved.stopped hstopped, hmem⟩
  · obtain ⟨left, hleft⟩ := hwhy
    have hfirst : (∃ c' why', st.Stopped c' why') →
        ∃ c' why', st'.Stopped c' why' ∧ why' ≠ .closed := by
      rintro ⟨c₀, why₀, h₀⟩
      obtain ⟨c', why', h', hne⟩ := h.first c₀ why₀ h₀
      exact ⟨c', why', hmoved.stopped h', hne⟩
    rcases hmoved.stops hleft with ⟨left', hleft', -⟩ | ⟨-, -, hclosed⟩
    · exact hfirst ⟨c, why, left', hleft'⟩
    · by_cases hwhy : why = .closed
      · obtain ⟨f', hf'⟩ := hclosed hwhy
        obtain ⟨c', why', h', -⟩ := h.closer f' hf'
        exact hfirst ⟨c', why', h'⟩
      · exact ⟨c, why, ⟨left, hleft⟩, hwhy⟩

theorem sound_of_reachable (h : Reachable (step wires) (State.init C F α) st) : Sound wires st :=
  h.invariant (sound_of_started (fun _ => ⟨rfl, rfl, rfl⟩) fun _ => rfl) fun _ _ _ => sound_step

end Soundness

end WireProxy.Copying
