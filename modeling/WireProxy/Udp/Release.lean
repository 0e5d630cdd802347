import WireProxy.Foundations.Transition.Refinement
import WireProxy.Udp.Locking

/-!
# The lock is released

The holder of `sessionMu` is never blocked, whatever the other goroutines do, and the statements
that it still has to take are bounded by the size of the table.

* `remaining` bounds the statements of a section that are left, and every statement lowers it
  (`remaining_lt`). What the others do meanwhile leaves the table as it is (`lock_progress`).
* `lock_released` follows by counting.
-/

namespace WireProxy.Udp.Locking

open Text Go Config Transition

variable {w : IntSize}

variable {conf : UDPProxyTunnelConfig w} {b b' : Udp.State} {sec : Section}

/-- The keys of the table that `range` has not produced. -/
def unvisited (st : Store) (visited : List Text) : ℕ :=
  (st.sessions.keys.filter fun src => !visited.contains src).length

/-- How many statements of the section are left at most. -/
def remaining (st : Store) : Section → ℕ
  | .lookup _ => 5
  | .dialling _ => 4
  | .inserting _ => 3
  | .found _ _ | .spawning _ _ => 2
  | .unlocking _ => 1
  | .range visited => 5 * unvisited st visited + 1
  | .visit visited _ _ => 5 * unvisited st visited + 5
  | .expire visited _ _ .select => 5 * unvisited st visited + 4
  | .expire visited _ _ .close => 5 * unvisited st visited + 3
  | .expire visited _ _ .delete => 5 * unvisited st visited + 2
  | .compare _ _ _ => 5
  | .remove _ _ _ .select => 4
  | .remove _ _ _ .close => 3
  | .remove _ _ _ .delete => 2
  | .removed _ => 1

theorem remaining_congr {st st' : Store} (h : st'.sessions = st.sessions) (sec : Section) :
    remaining st' sec = remaining st sec := by
  unfold remaining unvisited
  rw [h]

theorem remaining_pos (st : Store) (sec : Section) : 0 < remaining st sec := by
  unfold remaining
  split <;> omega

theorem remaining_le (st : Store) (sec : Section) :
    remaining st sec ≤ 5 * st.sessions.keys.length + 5 := by
  have hle : ∀ visited, unvisited st visited ≤ st.sessions.keys.length := fun visited =>
    List.length_filter_le _ _
  unfold remaining
  split
  all_goals first | omega | exact (by have := hle ‹_›; omega)

/-- Producing a key leaves one less. -/
theorem unvisited_cons {st : Store} {visited : List Text} {src : Text} {id : ℕ}
    (hlookup : st.sessions.lookup src = some id) (hnew : src ∉ visited) :
    unvisited st (src :: visited) + 1 = unvisited st visited := by
  have hkey : src ∈ st.sessions.keys := by
    rw [← AList.mem_keys, ← AList.lookup_isSome, hlookup]
    rfl
  have hnodup : ∀ p : Text → Bool, (st.sessions.keys.filter p).Nodup := fun p =>
    st.sessions.keys_nodup.filter p
  have hperm : (src :: st.sessions.keys.filter fun key => !(src :: visited).contains key).Perm
      (st.sessions.keys.filter fun key => !visited.contains key) := by
    refine (List.perm_ext_iff_of_nodup ?_ (hnodup _)).2 fun key => ?_
    · exact List.nodup_cons.2 ⟨by simp, hnodup _⟩
    · by_cases h : key = src
      · simp [h, hkey, hnew]
      · simp [h]
  exact hperm.length_eq

/-- Deleting an entry leaves no more. -/
theorem unvisited_delete_le (st : Store) (src : Text) (visited : List Text) :
    unvisited (st.delete src) visited ≤ unvisited st visited := by
  have hsub : (st.delete src).sessions.keys.Sublist st.sessions.keys :=
    (List.kerase_sublist src st.sessions.entries).map _
  exact (hsub.filter _).length_le

/-- **Every statement of a section** brings it closer to its end. -/
theorem remaining_lt {c : Choice} {sec' : Section}
    (hstep : sectionStep conf b sec c = some (b', some sec')) :
    remaining b'.store sec' < remaining b.store sec := by
  cases sec with
  | lookup src =>
    cases c <;> simp only [sectionStep, reduceCtorEq] at hstep
    split at hstep <;> cases hstep <;> simp [remaining]
  | dialling src =>
    cases c <;> cases hstep
    split <;> simp [remaining]
  | found src id | inserting src | spawning src id =>
    cases c <;> cases hstep
    simp [remaining]
  | unlocking session | removed i => cases c <;> cases hstep
  | range visited =>
    cases c with
    | none =>
      rw [sectionStep, Option.ite_none_right_eq_some] at hstep
      cases hstep.2
    | dialled ok => cases hstep
    | key src =>
      rw [sectionStep, Option.ite_none_left_eq_some] at hstep
      obtain ⟨hnew, hstep⟩ := hstep
      obtain ⟨id, hlookup, ⟨⟩⟩ := Option.map_eq_some_iff.1 hstep
      have hcons := unvisited_cons hlookup (by simpa using hnew)
      simp only [remaining]
      omega
  | visit visited src id =>
    cases c <;> simp only [sectionStep, reduceCtorEq] at hstep
    split at hstep
    · split at hstep <;> cases hstep <;> simp [remaining]
    · cases hstep
      simp [remaining]
  | expire visited src id stage =>
    cases c <;> simp only [sectionStep, reduceCtorEq] at hstep
    cases stage with
    | select =>
      cases hstep
      split <;> simp [remaining]
    | close =>
      cases hstep
      exact Nat.lt_succ_self _
    | delete =>
      cases hstep
      have hle := unvisited_delete_le b.store src visited
      simp only [remaining]
      omega
  | compare i src id =>
    cases c <;> cases hstep
    split <;> simp [remaining]
  | remove i src id stage =>
    cases c <;> simp only [sectionStep, reduceCtorEq] at hstep
    cases stage with
    | select =>
      cases hstep
      split <;> simp [remaining]
    | close | delete =>
      cases hstep
      simp [remaining]

/-- The holder of the lock is never blocked. -/
theorem exists_sectionStep (conf : UDPProxyTunnelConfig w) (b : Udp.State) (sec : Section) :
    ∃ c next, sectionStep conf b sec c = some next := by
  cases sec with
  | dialling src => exact ⟨.dialled true, _, rfl⟩
  | lookup src =>
    refine ⟨.none, ?_⟩
    simp only [sectionStep]
    split <;> exact ⟨_, rfl⟩
  | range visited =>
    by_cases hall : b.store.sessions.keys.all visited.contains
    · exact ⟨.none, _, if_pos hall⟩
    · obtain ⟨src, hkey, hnew⟩ : ∃ src ∈ b.store.sessions.keys, ¬ visited.contains src := by
        simpa [List.all_eq_true] using hall
      rw [← AList.mem_keys, ← AList.lookup_isSome, Option.isSome_iff_exists] at hkey
      obtain ⟨id, hlookup⟩ := hkey
      refine ⟨.key src, (b, some (.visit (src :: visited) src id)), ?_⟩
      rw [sectionStep, if_neg hnew, hlookup]
      rfl
  | visit visited src id =>
    refine ⟨.none, ?_⟩
    simp only [sectionStep]
    split
    · split <;> exact ⟨_, rfl⟩
    · exact ⟨_, rfl⟩
  | expire visited src id stage | remove i src id stage => cases stage <;> exact ⟨.none, _, rfl⟩
  | _ => exact ⟨.none, _, rfl⟩

/-- A statement of the holder of the lock. -/
def isInside : Label → Bool
  | .inside _ => true
  | _ => false

/-- A step while the lock is held: it is released, or the holder's statements get fewer and the
other steps change nothing of that. -/
theorem lock_progress {st st' : State} {l : Label} (hlock : st.lock = some sec)
    (hstep : step conf st l = some st') :
    st'.lock = none ∨ ∃ sec', st'.lock = some sec' ∧
      remaining st'.base.store sec' + (if isInside l then 1 else 0) ≤
        remaining st.base.store sec := by
  cases l with
  | outside l =>
    rw [step, Option.ite_none_right_eq_some] at hstep
    obtain ⟨hl, hstep⟩ := hstep
    obtain ⟨b', hb', rfl⟩ := Option.map_eq_some_iff.1 hstep
    refine .inr ⟨sec, hlock, ?_⟩
    rw [remaining_congr (frame_of_outside hl hb').sessions_eq]
    simp [isInside]
  | lock g =>
    rw [step, hlock] at hstep
    cases hstep
  | inside c =>
    simp only [step, hlock] at hstep
    obtain ⟨⟨b', next⟩, hnext, rfl⟩ := Option.map_eq_some_iff.1 hstep
    cases next with
    | none => exact .inl rfl
    | some sec' => exact .inr ⟨sec', rfl, remaining_lt hnext⟩

/-- **The lock is always released.** While a goroutine holds the lock, some statement of it can be
carried out; and every run with enough of its statements, five for each entry of the table and five
more, comes to a state in which nobody holds the lock, whatever the other goroutines do. -/
theorem lock_released {st : State} (hlock : st.lock ≠ none) :
    (∃ c st', step conf st (.inside c) = some st') ∧
    ∀ labels st', run (step conf) st labels = some st' →
      5 * st.base.store.sessions.keys.length + 5 ≤ labels.countP isInside →
      ∃ front back s, labels = front ++ back ∧ run (step conf) st front = some s ∧
        s.lock = none := by
  obtain ⟨sec, hsec⟩ := Option.ne_none_iff_exists'.1 hlock
  refine ⟨?_, fun labels st' hrun hcount => ?_⟩
  · obtain ⟨c, next, hnext⟩ := exists_sectionStep conf st.base sec
    refine ⟨c, ⟨next.1, next.2⟩, ?_⟩
    simp only [step, hsec, hnext, Option.map_some]
  · let m : State → ℕ := fun s => s.lock.elim 0 (remaining s.base.store)
    have huntil := run_until (I := fun s => s.lock ≠ none) (Q := fun s => s.lock = none)
      (p := isInside) (m := m) ?_ hlock hrun
    · rcases huntil with hreleased | ⟨hlocked, hle⟩
      · exact hreleased
      · -- there would be no statement left
        obtain ⟨sec', hsec'⟩ := Option.ne_none_iff_exists'.1 hlocked
        have hpos := remaining_pos st'.base.store sec'
        have hmax := remaining_le st.base.store sec
        simp only [m, hsec, hsec', Option.elim_some] at hle
        omega
    · intro s l s' hs hl
      obtain ⟨sec₁, hsec₁⟩ := Option.ne_none_iff_exists'.1 hs
      rcases lock_progress hsec₁ hl with hnone | ⟨sec₂, hsec₂, hle⟩
      · exact .inl hnone
      · exact .inr ⟨by simp [hsec₂], by simpa [m, hsec₁, hsec₂] using hle⟩

/-- A session has been idle for a minute when the sweeper takes the lock. -/
def idleSession : List Label :=
  [.outside (.receive "192.0.2.1:4000" [1]), .lock .main, .inside .none, .inside (.dialled true),
    .inside .none, .inside .none, .inside .none, .outside .record, .outside (.send true),
    .outside (.handler 0 .check), .outside (.advance 60000000000), .outside .wake, .lock .sweeper]

/-- The sweeper removes the session, its handler finds the channel closed, and a new session is
created for the client. -/
def sweptSession : List Label :=
  [.inside (.key "192.0.2.1:4000"), .inside .none, .inside .none, .inside .none, .inside .none,
    .inside .none, .outside (.handler 0 .timeout), .outside (.handler 0 .recheck),
    .lock (.handler 0), .inside .none, .inside .none,
    .outside (.receive "192.0.2.1:4000" [1]), .lock .main, .inside .none, .inside (.dialled true),
    .inside .none]

/-- The sweeper has the lock and an entry to look at, and releases the lock on the run above. -/
theorem lock_released_sweptSession :
    ∃ st st' : State, Reachable (step thirtySeconds) (State.init 0) st ∧
      st.lock = some (.range []) ∧ st.base.store.sessions.keys = ["192.0.2.1:4000".toList] ∧
      run (step thirtySeconds) st sweptSession = some st' ∧
      ∃ front back s, sweptSession = front ++ back ∧
        run (step thirtySeconds) st front = some s ∧ s.lock = none := by
  have hidle : ((run (step thirtySeconds) (State.init 0) idleSession).map fun st =>
      (st.lock, st.base.store.sessions.keys, (run (step thirtySeconds) st sweptSession).isSome)) =
      some (some (.range []), ["192.0.2.1:4000".toList], true) := by
    decide +kernel
  obtain ⟨st, hst, hfacts⟩ := Option.map_eq_some_iff.1 hidle
  rw [Prod.mk.injEq, Prod.mk.injEq, Option.isSome_iff_exists] at hfacts
  obtain ⟨hlock, hkeys, st', hrun⟩ := hfacts
  exact ⟨st, st', ⟨idleSession, hst⟩, hlock, hkeys, hrun,
    (lock_released (by simp [hlock])).2 sweptSession st' hrun (by rw [hkeys]; decide)⟩

end WireProxy.Udp.Locking
