import WireProxy.Foundations.Transition.Handles
import WireProxy.Health.Rounds

/-!
# The sockets of the pings

No socket of a ping is lost, and they do not pile up.

* The pinger and the goroutines hold the sockets that are not closed (`balanced_step`), and the
  sockets of the goroutines that have ended are closed (`endedClosed_step`).
* The deadlines of a round have passed when the next round begins (`spaced_step`), since the pinger
  sleeps for the time that a ping has for its reply.
* `sockets_bounded` puts this together.
-/

namespace WireProxy.Health.Rounds

open Text Go Netip Config Transition

variable {w : IntSize}

/-! ## The holders -/

/-- The socket that the pinger has in hand. -/
def Pinger.socket : Pinger → Option ℕ
  | .dialled _ s _ => some s
  | .ready _ s _ _ => some s
  | _ => none

/-- The socket that a goroutine has yet to close. -/
def Waiter.held (g : Waiter) : Option ℕ := if g.place = .ended then none else some g.socket

/-- The sockets that are held. -/
def State.held (st : State) : List ℕ :=
  st.pinger.socket.toList ++ st.waiters.filterMap Waiter.held

section Balance

variable {conf : DeviceConfig w} {st st' : State} {l : Label}

/-- The place of a goroutine changes before its end. -/
theorem held_moveTo {i : ℕ} {g : Waiter} {place : Place} (hg : st.waiters[i]? = some g)
    (hplace : g.place ≠ .ended) (hplace' : place ≠ .ended) :
    (st.moveTo i place).held = st.held := by
  obtain ⟨front, back, heq, hmodify⟩ := exists_modify_eq hg
  have hheld : g.held = { g with place := place }.held := by
    rw [Waiter.held, Waiter.held, if_neg hplace, if_neg hplace']
  simp only [State.held, State.moveTo, hmodify]
  rw [heq, List.filterMap_append, List.filterMap_append, List.filterMap_cons, List.filterMap_cons,
    hheld]

/-- A goroutine ends with its socket. -/
theorem held_moveTo_ended {i : ℕ} {g : Waiter} (hg : st.waiters[i]? = some g)
    (hplace : g.place ≠ .ended) :
    (st.held : Multiset ℕ) = g.socket ::ₘ ((st.moveTo i .ended).held : Multiset ℕ) := by
  obtain ⟨front, back, heq, hmodify⟩ := exists_modify_eq hg
  have hsome : g.held = some g.socket := by rw [Waiter.held, if_neg hplace]
  have hnone : { g with place := .ended }.held = none := if_pos rfl
  simp only [State.held, State.moveTo, hmodify]
  rw [heq, List.filterMap_append, List.filterMap_append, List.filterMap_cons_some hsome,
    List.filterMap_cons_none hnone, ← List.append_assoc, ← List.append_assoc, Multiset.cons_coe,
    Multiset.coe_eq_coe]
  exact List.perm_middle

/-- The socket in the hand of the pinger is one that is held. -/
theorem held_of_socket {s : ℕ} (hs : st.pinger.socket = some s) :
    st.held = s :: st.waiters.filterMap Waiter.held := by
  rw [State.held, hs]
  rfl

/-- **The sockets stay in balance.** -/
theorem balanced_step (h : Balanced st.closes st.held) (hstep : step conf st l = some st') :
    Balanced st'.closes st'.held := by
  -- a socket that the pinger closes was in its hand
  have hgoOn : ∀ (s : ℕ) (rest : List Addr), st.pinger.socket = some s →
      Balanced (st.closes.modify s (· + 1)) (((st.closeSocket s).goOn (.next rest)).held) := by
    intro s rest hs
    refine Balanced.closed ?_
    rwa [held_of_socket hs] at h
  have hsame : ∀ st'' : State, st''.closes = st.closes → st''.waiters = st.waiters →
      st''.pinger.socket = st.pinger.socket → Balanced st''.closes st''.held := by
    intro st'' hcloses hwaiters hsocket
    rwa [State.held, hcloses, hwaiters, hsocket]
  cases effect_of_step hstep with
  | advance d => exact h
  | start hpinger => exact hsame _ rfl rfl (by rw [hpinger]; rfl)
  | unreachable hpinger => exact hsame _ rfl rfl (by rw [hpinger]; rfl)
  | dialled hpinger =>
    have hopened := h.opened
    simp only [State.held, hpinger] at hopened
    exact hopened
  | refused hpinger hfail => exact hgoOn _ _ (by rw [hpinger]; rfl)
  | ready hpinger haddr => exact hsame _ rfl rfl (by rw [hpinger]; rfl)
  | unsent hpinger => exact hgoOn _ _ (by rw [hpinger]; rfl)
  | @sent request addr s deadline rest hpinger hdrawn =>
    -- the socket passes from the pinger to the goroutine
    have hperm : (↑(s :: st.waiters.filterMap Waiter.held) : Multiset ℕ) =
        ↑(st.waiters.filterMap Waiter.held ++ [s]) :=
      Multiset.coe_eq_coe.2 (List.perm_append_singleton _ _).symm
    have hheld : st.held = s :: st.waiters.filterMap Waiter.held :=
      held_of_socket (by rw [hpinger]; rfl)
    rw [hheld, hperm] at h
    simp only [State.held, List.filterMap_append]
    exact h
  | sleep hpinger => exact hsame _ rfl rfl (by rw [hpinger]; rfl)
  | wake hpinger hle => exact hsame _ rfl rfl (by rw [hpinger]; rfl)
  | @reply i reply g valid hg hplace hvalid =>
    rw [held_moveTo hg (by simp [hplace]) (by cases valid <;> simp)]
    exact h
  | readFailed hg hplace =>
    rw [held_moveTo hg (by simp [hplace]) (by simp)]
    exact h
  | @record i g hg hplace =>
    have hheld : (st.moveTo i .closing).held = st.held :=
      held_moveTo hg (by simp [hplace]) (by simp)
    exact hheld ▸ h
  | @close i g hg hplace =>
    have hended := held_moveTo_ended hg (by simp [hplace])
    exact Balanced.closed (hended ▸ h)
  | request hstarted => exact h

/-- The sockets of the goroutines that have ended are closed. -/
def State.EndedClosed (st : State) : Prop :=
  ∀ g ∈ st.waiters, g.place = .ended → st.closes[g.socket]? = some 1

/-- A goroutine moves and does not end. -/
theorem State.EndedClosed.moveTo (hended : st.EndedClosed) {i : ℕ} {g : Waiter} {place : Place}
    (hg : st.waiters[i]? = some g) (hplace : place ≠ .ended) :
    (st.moveTo i place).EndedClosed := by
  obtain ⟨front, back, heq, hmodify⟩ := exists_modify_eq hg
  intro x hx hxplace
  rw [State.moveTo, hmodify, List.mem_append, List.mem_cons] at hx
  rcases hx with hx | rfl | hx
  · exact hended x (by simp [heq, hx]) hxplace
  · exact absurd hxplace hplace
  · exact hended x (by simp [heq, hx]) hxplace

/-- **Who has ended has closed its socket.** -/
theorem endedClosed_step (h : Balanced st.closes st.held) (hended : st.EndedClosed)
    (hstep : step conf st l = some st') : st'.EndedClosed := by
  have hgoOn : ∀ (s : ℕ) (rest : List Addr), st.pinger.socket = some s →
      ((st.closeSocket s).goOn (.next rest)).EndedClosed := by
    intro s rest hs g hg hplace
    rw [held_of_socket hs, ← Multiset.cons_coe] at h
    exact Balanced.getElem?_of_closed h (hended g hg hplace)
  cases effect_of_step hstep with
  | advance | start | unreachable | ready | sleep | wake | request => exact hended
  | dialled hpinger =>
    intro g hg hplace
    have hclosed := hended g hg hplace
    exact (List.getElem?_append_left (List.getElem?_eq_some_iff.1 hclosed).1).trans hclosed
  | refused hpinger hfail => exact hgoOn _ _ (by rw [hpinger]; rfl)
  | unsent hpinger => exact hgoOn _ _ (by rw [hpinger]; rfl)
  | sent hpinger hdrawn =>
    intro g hg hplace
    rcases List.mem_append.1 hg with hg | hg
    · exact hended g hg hplace
    · rw [List.mem_singleton.1 hg] at hplace
      cases hplace
  | @reply i reply g valid hg hplace hvalid => exact hended.moveTo hg (by cases valid <;> simp)
  | readFailed hg hplace => exact hended.moveTo hg (by simp)
  | @record i g hg hplace =>
    have hmoved : (st.moveTo i .closing).EndedClosed := hended.moveTo hg (by simp)
    exact hmoved
  | @close i g hg hplace =>
    have hheld := held_moveTo_ended hg (by simp [hplace])
    obtain ⟨front, back, heq, hmodify⟩ := exists_modify_eq hg
    intro x hx hxplace
    rw [State.moveTo, State.closeSocket, hmodify, List.mem_append, List.mem_cons] at hx
    rcases hx with hx | rfl | hx
    · exact (hheld ▸ h).getElem?_of_closed (hended x (by simp [heq, hx]) hxplace)
    · exact (hheld ▸ h).getElem?_closed
    · exact (hheld ▸ h).getElem?_of_closed (hended x (by simp [heq, hx]) hxplace)

end Balance

/-! ## The deadlines -/

/-- The deadlines of the goroutines. -/
def State.deadlines (st : State) : List ℤ := st.waiters.map Waiter.deadline

/-- The number of the deadlines that have not passed. -/
def State.fresh (st : State) : ℕ :=
  st.deadlines.countP fun deadline => (st.clock : ℤ) < deadline

/-- The number of goroutines that have not ended though their deadlines have passed. -/
def State.overdue (st : State) : ℕ :=
  st.waiters.countP fun g => g.place ≠ .ended ∧ g.deadline ≤ (st.clock : ℤ)

/-- The number of addresses that the pinger has yet to come to in this round, of `n`. -/
def Pinger.left (n : ℕ) : Pinger → ℕ
  | .unstarted => n
  | .next rest => rest.length
  | .dialled _ _ rest => rest.length + 1
  | .ready _ _ _ rest => rest.length + 1
  | .sleeping _ => 0

/-- What the place of the pinger says about the deadlines. -/
def State.Bounds (conf : DeviceConfig w) (st : State) : Pinger → Prop
  | .ready _ _ deadline _ => deadline ≤ st.clock + pingInterval conf
  | .sleeping wake => ∀ deadline ∈ st.deadlines, deadline ≤ wake
  | _ => True

/-- The invariant of the deadlines. -/
structure Spaced (conf : DeviceConfig w) (st : State) : Prop where
  deadline_le : ∀ deadline ∈ st.deadlines, deadline ≤ st.clock + pingInterval conf
  bounds : st.Bounds conf st.pinger
  fresh_le : st.fresh + st.pinger.left conf.checkAlive.length ≤ conf.checkAlive.length

section Deadlines

variable {conf : DeviceConfig w} {st st' : State} {l : Label}

theorem deadlines_moveTo (st : State) (i : ℕ) (place : Place) :
    (st.moveTo i place).deadlines = st.deadlines := map_moveTo (fun _ _ => rfl) st i place

theorem spaced_init (conf : DeviceConfig w) (clock : ℕ) : Spaced conf (State.init clock) where
  deadline_le _ hmem := by cases hmem
  bounds := trivial
  fresh_le := (Nat.zero_add _).le

/-- A step that leaves the deadlines and the clock as they are. -/
theorem Spaced.of_deadlines_eq (h : Spaced conf st) (hdeadlines : st'.deadlines = st.deadlines)
    (hclock : st'.clock = st.clock) (hbounds : st.Bounds conf st'.pinger)
    (hleft : st'.pinger.left conf.checkAlive.length ≤ st.pinger.left conf.checkAlive.length) :
    Spaced conf st' where
  deadline_le := by
    rw [hdeadlines, hclock]
    exact h.deadline_le
  bounds := by
    cases hpinger : st'.pinger with
    | ready addr s deadline rest =>
      rw [hpinger] at hbounds
      rwa [State.Bounds, hclock]
    | sleeping wake =>
      rw [hpinger] at hbounds
      rwa [State.Bounds, hdeadlines]
    | _ => trivial
  fresh_le := by
    have hle := h.fresh_le
    rw [State.fresh, hdeadlines, hclock, ← State.fresh]
    omega

/-- Time passes. -/
theorem Spaced.advance (h : Spaced conf st) (d : ℕ) :
    Spaced conf { st with clock := st.clock + d } where
  deadline_le deadline hmem := by
    have hle := h.deadline_le deadline hmem
    push_cast
    omega
  bounds := by
    have hbounds := h.bounds
    cases hpinger : st.pinger with
    | ready addr s deadline rest =>
      simp only [State.Bounds, hpinger] at hbounds ⊢
      push_cast
      omega
    | sleeping wake =>
      rw [hpinger] at hbounds
      exact hbounds
    | _ => trivial
  fresh_le := by
    refine le_trans (Nat.add_le_add_right ?_ _) h.fresh_le
    refine List.countP_mono_left fun deadline _ hlt => ?_
    simp only [decide_eq_true_eq] at hlt ⊢
    push_cast at hlt
    omega

/-- A ping is sent. -/
theorem Spaced.sent (h : Spaced conf st) {request : Echo} {addr : Addr} {s : ℕ} {deadline : ℤ}
    {rest : List Addr} (hpinger : st.pinger = .ready addr s deadline rest) :
    Spaced conf { st with
      pinger := .next rest
      waiters := st.waiters ++ [⟨s, deadline, addr, request, .reading⟩] } := by
  have hbounds := h.bounds
  have hle := h.fresh_le
  simp only [hpinger, State.Bounds, Pinger.left] at hbounds hle
  refine ⟨fun d hmem => ?_, trivial, ?_⟩
  · simp only [State.deadlines, List.map_append, List.mem_append] at hmem
    rcases hmem with hmem | hmem
    · exact h.deadline_le d hmem
    · rw [List.mem_singleton.1 hmem]
      exact hbounds
  · have hone := List.countP_le_length (p := fun d : ℤ => (st.clock : ℤ) < d) (l := [deadline])
    simp only [State.fresh, State.deadlines, List.map_append, List.countP_append,
      List.map_singleton, Pinger.left] at hle hone ⊢
    rw [List.length_singleton] at hone
    omega

/-- **The deadlines of a round have passed when the next one begins.** -/
theorem spaced_step (h : Spaced conf st) (hstep : step conf st l = some st') : Spaced conf st' := by
  cases effect_of_step hstep with
  | advance d => exact h.advance d
  | start hpinger => exact h.of_deadlines_eq rfl rfl trivial (by rw [hpinger]; exact le_rfl)
  | unreachable hpinger =>
    exact h.of_deadlines_eq rfl rfl trivial (by rw [hpinger]; exact Nat.le_succ _)
  | dialled hpinger => exact h.of_deadlines_eq rfl rfl trivial (by rw [hpinger]; exact le_rfl)
  | refused hpinger hfail =>
    exact h.of_deadlines_eq rfl rfl trivial (by rw [hpinger]; exact Nat.le_succ _)
  | ready hpinger haddr =>
    exact h.of_deadlines_eq rfl rfl (le_refl (readDeadline conf st.clock))
      (by rw [hpinger]; exact le_rfl)
  | unsent hpinger =>
    exact h.of_deadlines_eq rfl rfl trivial (by rw [hpinger]; exact Nat.le_succ _)
  | sent hpinger => exact h.sent hpinger
  | sleep hpinger => exact h.of_deadlines_eq rfl rfl h.deadline_le (Nat.zero_le _)
  | @wake wake hpinger hle =>
    -- every deadline is over, so the whole round is left
    have hbounds := h.bounds
    rw [hpinger] at hbounds
    have hfresh : st.fresh = 0 := by
      rw [State.fresh, List.countP_eq_zero]
      intro deadline hmem
      have hdeadline := hbounds deadline hmem
      rw [decide_eq_true_eq]
      omega
    refine ⟨h.deadline_le, trivial, ?_⟩
    rw [State.fresh] at hfresh
    simp only [State.fresh, State.deadlines, Pinger.left] at hfresh ⊢
    omega
  | reply hg hplace hvalid =>
    exact h.of_deadlines_eq (deadlines_moveTo ..) rfl h.bounds le_rfl
  | readFailed hg hplace => exact h.of_deadlines_eq (deadlines_moveTo ..) rfl h.bounds le_rfl
  | @record i g hg hplace =>
    exact h.of_deadlines_eq (deadlines_moveTo st i .closing) rfl h.bounds le_rfl
  | @close i g hg hplace =>
    exact h.of_deadlines_eq (deadlines_moveTo st i .ended) rfl h.bounds le_rfl
  | request hstarted => exact h

/-- The sockets that are held are those of the current round and of the goroutines that are
overdue. -/
theorem Spaced.length_held_le (h : Spaced conf st) :
    st.held.length ≤ conf.checkAlive.length + st.overdue := by
  have hpinger : st.pinger.socket.toList.length ≤ st.pinger.left conf.checkAlive.length := by
    cases st.pinger <;> simp [Pinger.socket, Pinger.left]
  have hwaiters : (st.waiters.filterMap Waiter.held).length ≤ st.fresh + st.overdue := by
    rw [State.fresh, State.overdue, State.deadlines, List.countP_map]
    induction st.waiters with
    | nil => exact le_rfl
    | cons g waiters ih =>
      rw [List.filterMap_cons, List.countP_cons, List.countP_cons, Waiter.held]
      simp only [Function.comp_apply, decide_eq_true_eq, Bool.decide_and, Bool.and_eq_true]
      split <;> grind
  have hle := h.fresh_le
  rw [State.held, List.length_append]
  omega

end Deadlines

/-! ## The end of a goroutine -/

/-- The number of steps that a goroutine has left at most. -/
def Place.stepsLeft : Place → ℕ
  | .reading => 3
  | .verified => 2
  | .closing => 1
  | .ended => 0

/-- The steps that are left to a goroutine. -/
def State.stepsLeft (st : State) (i : ℕ) : ℕ := (st.waiters[i]?.map (·.place.stepsLeft)).getD 0

/-- The goroutine that takes a step. -/
def Label.waiter : Label → Option ℕ
  | .reply i _ => some i
  | .readFailed i => some i
  | .record i => some i
  | .close i => some i
  | _ => none

section Ending

variable {conf : DeviceConfig w} {st st' : State} {l : Label} {i : ℕ}

/-- A goroutine moves on. -/
theorem stepsLeft_moveTo {j : ℕ} {g : Waiter} {place : Place} (hg : st.waiters[j]? = some g)
    (hlt : place.stepsLeft < g.place.stepsLeft) :
    (st.moveTo j place).stepsLeft i + (if some j = some i then 1 else 0) ≤ st.stepsLeft i := by
  rw [State.stepsLeft, State.stepsLeft, State.moveTo, List.getElem?_modify]
  by_cases hij : j = i
  · subst hij
    simp only [hg, if_true, Option.map_eq_map, Option.map_some, Option.getD_some]
    omega
  · simp [hij]

/-- A step of a goroutine leaves it fewer steps, and no other step changes how many it has. -/
theorem stepsLeft_step (hi : i < st.waiters.length) (hstep : step conf st l = some st') :
    i < st'.waiters.length ∧
      st'.stepsLeft i + (if l.waiter = some i then 1 else 0) ≤ st.stepsLeft i := by
  have hlength : ∀ j place, i < (st.moveTo j place).waiters.length := by
    intro j place
    rwa [State.moveTo, List.length_modify]
  cases effect_of_step hstep with
  | sent hpinger =>
    refine ⟨by rw [List.length_append]; omega, ?_⟩
    rw [State.stepsLeft, List.getElem?_append_left hi]
    exact le_rfl
  | reply hg hplace hvalid =>
    refine ⟨hlength _ _, stepsLeft_moveTo hg ?_⟩
    rw [hplace]
    split <;> decide
  | readFailed hg hplace =>
    exact ⟨hlength _ _, stepsLeft_moveTo hg (by rw [hplace]; decide)⟩
  | record hg hplace =>
    exact ⟨hlength _ _, stepsLeft_moveTo hg (by rw [hplace]; decide)⟩
  | close hg hplace =>
    exact ⟨hlength _ _, stepsLeft_moveTo hg (by rw [hplace]; decide)⟩
  | _ => exact ⟨hi, le_rfl⟩

/-- A goroutine that has not ended can take a step. -/
theorem exists_waiter_step {g : Waiter} (hg : st.waiters[i]? = some g) (hplace : g.place ≠ .ended) :
    ∃ l st', l.waiter = some i ∧ step conf st l = some st' := by
  cases hg' : g.place with
  | reading =>
    refine ⟨.readFailed i, st.moveTo i .closing, rfl, ?_⟩
    rw [step, hg]
    exact if_pos hg'
  | verified =>
    refine ⟨.record i, { st.moveTo i .closing with
      pingRecord := st.pingRecord.insert g.addr.toText st.unix }, rfl, ?_⟩
    rw [step, hg]
    exact if_pos hg'
  | closing =>
    refine ⟨.close i, (st.closeSocket g.socket).moveTo i .ended, rfl, ?_⟩
    rw [step, hg]
    exact if_pos hg'
  | ended => exact absurd hg' hplace

/-- A goroutine ends after three steps. -/
theorem ended_of_run {g : Waiter} {labels : List Label} (hg : st.waiters[i]? = some g)
    (hrun : run (step conf) st labels = some st')
    (hcount : 3 ≤ labels.countP fun l => l.waiter = some i) :
    ∃ g', st'.waiters[i]? = some g' ∧ g'.place = .ended := by
  have hi : i < st.waiters.length := (List.getElem?_eq_some_iff.1 hg).1
  have hbound : ∀ place : Place, place.stepsLeft ≤ 3 := by
    intro place
    cases place <;> decide
  rcases run_until (Q := fun _ : State => False) (p := fun l : Label => l.waiter = some i)
    (m := fun st => st.stepsLeft i) (fun _ l _ hi hl => .inr ⟨(stepsLeft_step hi hl).1,
      by simpa using (stepsLeft_step hi hl).2⟩) hi hrun with ⟨_, _, _, _, _, hfalse⟩ | ⟨hi', hle⟩
  · exact hfalse.elim
  · refine ⟨_, List.getElem?_eq_getElem hi', ?_⟩
    have hthree : st.stepsLeft i ≤ 3 := by
      rw [State.stepsLeft, hg]
      exact hbound _
    have hleft : st'.stepsLeft i = (st'.waiters[i]).place.stepsLeft := by
      rw [State.stepsLeft, List.getElem?_eq_getElem hi', Option.map_some, Option.getD_some]
    have hzero : (st'.waiters[i]).place.stepsLeft = 0 := by omega
    cases hplace : (st'.waiters[i]).place with
    | ended => rfl
    | _ =>
      rw [hplace] at hzero
      cases hzero

end Ending

/-- **No socket of a ping is lost, and they do not pile up.** In every state that is reached:

* each socket that was dialled was closed once and nobody holds it, or it was not closed and exactly
  one of the pinger and the goroutines holds it;
* there are at most as many open sockets as addresses to check, but for those of the goroutines that
  are past their deadlines, whatever the interval is;
* a goroutine that has not ended can take a step, and it ends after three of its steps, with its
  socket closed. -/
theorem sockets_bounded {conf : DeviceConfig w} {clock : ℕ} {st : State}
    (hreach : Reachable (step conf) (State.init clock) st) :
    (∀ s n, st.closes[s]? = some n → n + st.held.count s = 1) ∧
    st.closes.count 0 ≤ conf.checkAlive.length + st.overdue ∧
    ∀ i g, st.waiters[i]? = some g → g.place ≠ .ended →
      (∃ l st', l.waiter = some i ∧ step conf st l = some st') ∧
      ∀ labels st', run (step conf) st labels = some st' →
        (3 ≤ labels.countP fun l => l.waiter = some i) →
        ∃ g', st'.waiters[i]? = some g' ∧ g'.place = .ended ∧
          st'.closes[g'.socket]? = some 1 := by
  have hstep : ∀ (st : State) (l : Label) (st' : State),
      Balanced st.closes st.held ∧ st.EndedClosed → step conf st l = some st' →
      Balanced st'.closes st'.held ∧ st'.EndedClosed := fun st l st' h hl =>
    ⟨balanced_step h.1 hl, endedClosed_step h.1 h.2 hl⟩
  have hinv : Balanced st.closes st.held ∧ st.EndedClosed :=
    hreach.invariant (I := fun st : State => Balanced st.closes st.held ∧ st.EndedClosed)
      ⟨balanced_nil, fun g hg => by cases hg⟩ hstep
  have hbalanced := hinv.1
  have hspaced : Spaced conf st :=
    hreach.invariant (spaced_init conf clock) fun _ _ _ => spaced_step
  refine ⟨fun s n hn => ?_, ?_, fun i g hg hplace => ⟨exists_waiter_step hg hplace,
    fun labels st' hrun hcount => ?_⟩⟩
  · rw [← Multiset.coe_count]
    exact hbalanced.add_count s n hn
  · rw [hbalanced.count_zero, Multiset.coe_card]
    exact hspaced.length_held_le
  · obtain ⟨g', hg', hended⟩ := ended_of_run hg hrun hcount
    have hinv' : Balanced st'.closes st'.held ∧ st'.EndedClosed :=
      Reachable.invariant (I := fun st : State => Balanced st.closes st.held ∧ st.EndedClosed)
        hinv hstep ⟨labels, hrun⟩
    exact ⟨g', hg', hended, hinv'.2 g' (List.mem_of_getElem? hg') hended⟩

/-- Of two pings to one address the second cannot be sent, the first gets no reply until its
deadline has passed, and in the next round a third one is sent. -/
def unanswered : List Label :=
  [.start, .dial true, .setReadDeadline true, .write true ⟨7, List.replicate 16 1⟩, .dial true,
    .setReadDeadline true, .write false ⟨8, List.replicate 16 2⟩, .sleep, .advance (5 * second),
    .wake, .dial true, .setReadDeadline true, .write true ⟨9, List.replicate 16 3⟩]

/-- The socket of the second ping is closed, and of the others one is overdue. -/
theorem sockets_bounded_unanswered :
    ∃ st, Reachable (step checkedTwice) (State.init (100 * second)) st ∧
      st.closes = [0, 1, 0] ∧ st.overdue = 1 ∧ st.closes.count 0 ≤ 2 + 1 := by
  obtain ⟨st, hrun⟩ :
      ∃ st, run (step checkedTwice) (State.init (100 * second)) unanswered = some st :=
    Option.isSome_iff_exists.1 (by decide +kernel)
  have hfacts : (run (step checkedTwice) (State.init (100 * second)) unanswered).map
      (fun st => (st.closes, st.overdue)) = some ([0, 1, 0], 1) := by decide +kernel
  rw [hrun, Option.map_some, Option.some.injEq, Prod.mk.injEq] at hfacts
  have hreach : Reachable (step checkedTwice) (State.init (100 * second)) st := ⟨unanswered, hrun⟩
  have hcount := (sockets_bounded hreach).2.1
  rw [hfacts.2] at hcount
  exact ⟨st, hreach, hfacts.1, hfacts.2, hcount⟩

end WireProxy.Health.Rounds
