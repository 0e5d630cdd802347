import Mathlib

/-!
# Records read field by field

A record whose fields are optional and indexed by a type of keys, read from a source that may lack
a key or hold a text that does not parse, and allocated when the first key is found.

* `FieldTable` is the access to such a record by key: the record that holds given values, and the
  operations that set and get one of them.
* `readFields` reads a list of keys one after the other into a record that does not exist before
  the first key that is present. `readFields_none_eq_ok_iff` says what comes out: nothing fails iff
  no present key fails, and the record then holds exactly the values of the present keys.
* `emit` lists the fields of a record that are set, in the order of a list of keys, and
  `lookup_emit` finds each of them again under its name.
-/

namespace WireProxy.Record

universe u

variable {K : Type*} [DecidableEq K] {V : K → Type u} {C : Type u} {E : Type*}

/-- Access to the optional fields of a record by key. -/
structure FieldTable (K : Type*) [DecidableEq K] (V : K → Type u) (C : Type u) where
  /-- The record that holds the given values. -/
  ofFun : (∀ k, Option (V k)) → C
  set : ∀ k, V k → C → C
  get : ∀ k, C → Option (V k)
  set_ofFun : ∀ k v f, set k v (ofFun f) = ofFun (Function.update f k (some v))
  get_ofFun : ∀ k f, get k (ofFun f) = f k

/-! ## Reading -/

/-- Read one key: a key that is missing changes nothing, and the first one that is present
allocates the record. -/
def readField (T : FieldTable K V C) (look : ∀ k, Option (Except E (V k))) (k : K)
    (acc : Option C) : Except E (Option C) :=
  match look k with
  | none => .ok acc
  | some r => do
    let v ← r
    .ok (some (T.set k v (acc.getD (T.ofFun fun _ => none))))

/-- Read keys one after the other, up to the first failure. -/
def readFields (T : FieldTable K V C) (look : ∀ k, Option (Except E (V k))) :
    List K → Option C → Except E (Option C)
  | [], acc => .ok acc
  | k :: ks, acc => readField T look k acc >>= readFields T look ks

/-- The value of a key that is present and parses. -/
def found (look : ∀ k, Option (Except E (V k))) (k : K) : Option (V k) :=
  match look k with
  | some (.ok v) => some v
  | _ => none

open Classical in
/-- The record of given values, not allocated when there is none. -/
noncomputable def record (T : FieldTable K V C) (f : ∀ k, Option (V k)) : Option C :=
  if ∀ k, f k = none then none else some (T.ofFun f)

section Reading

variable {T : FieldTable K V C} {look : ∀ k, Option (Except E (V k))} {f : ∀ k, Option (V k)}

theorem record_eq_none_iff : record T f = none ↔ ∀ k, f k = none := by
  unfold record
  split <;> simp_all

theorem record_eq_some {c : C} (h : record T f = some c) : c = T.ofFun f := by
  unfold record at h
  split at h
  · cases h
  · exact (Option.some.inj h).symm

/-- The fields of an allocated record. -/
theorem get_of_record_eq_some {c : C} (h : record T f = some c) (k : K) : T.get k c = f k := by
  rw [record_eq_some h, T.get_ofFun]

/-- The fields of a record, allocated or not, are the given values. -/
theorem record_bind_get (k : K) : (record T f).bind (T.get k) = f k := by
  rcases h : record T f with _ | c
  · exact (record_eq_none_iff.1 h k).symm
  · exact get_of_record_eq_some h k

@[simp] theorem record_none : record T (fun _ => none) = none := record_eq_none_iff.2 fun _ => rfl

theorem record_getD : (record T f).getD (T.ofFun fun _ => none) = T.ofFun f := by
  unfold record
  split
  · rename_i h
    rw [show f = fun _ => none from funext h]
    rfl
  · rfl

theorem readField_record_of_none {k : K} (h : look k = none) :
    readField T look k (record T f) = .ok (record T f) := by
  rw [readField, h]

theorem readField_record_of_ok {k : K} {v : V k} (h : look k = some (.ok v)) :
    readField T look k (record T f) = .ok (record T (Function.update f k (some v))) := by
  have hrec : record T (Function.update f k (some v)) = some (T.set k v (T.ofFun f)) := by
    rw [record, if_neg, T.set_ofFun]
    intro hall
    simpa using hall k
  rw [hrec, readField, h, record_getD]
  rfl

theorem readField_of_error {k : K} {e : E} (h : look k = some (.error e)) (acc : Option C) :
    readField T look k acc = .error e := by
  rw [readField, h]
  rfl

/-- The values after reading the keys `ks`, starting from `f`. -/
def overlay (look : ∀ k, Option (Except E (V k))) (ks : List K) (f : ∀ k, Option (V k)) :
    ∀ k, Option (V k) :=
  fun k => if k ∈ ks then (found look k).or (f k) else f k

theorem overlay_cons_of_none {k : K} {ks : List K} (h : look k = none) :
    overlay look (k :: ks) f = overlay look ks f := by
  funext j
  by_cases hj : j = k
  · subst hj
    simp [overlay, found, h]
  · simp [overlay, hj]

theorem overlay_cons_of_ok {k : K} {ks : List K} {v : V k} (h : look k = some (.ok v)) :
    overlay look (k :: ks) f = overlay look ks (Function.update f k (some v)) := by
  funext j
  by_cases hj : j = k
  · subst hj
    simp [overlay, found, h]
  · simp [overlay, hj]

theorem readFields_record_eq_ok_iff {ks : List K} {r : Option C} :
    readFields T look ks (record T f) = .ok r ↔
      (∀ k ∈ ks, ∀ e, look k ≠ some (.error e)) ∧ r = record T (overlay look ks f) := by
  induction ks generalizing f with
  | nil =>
    have hf : overlay look [] f = f := by
      funext k
      simp [overlay]
    simp only [readFields, hf, Except.ok.injEq, List.not_mem_nil, false_implies, implies_true,
      true_and]
    exact eq_comm
  | cons k ks ih =>
    rw [readFields, List.forall_mem_cons]
    match h : look k with
    | none =>
      rw [readField_record_of_none h, overlay_cons_of_none h]
      simp only [reduceCtorEq, ne_eq, not_false_eq_true, implies_true, true_and]
      exact ih
    | some (.ok v) =>
      rw [readField_record_of_ok h, overlay_cons_of_ok h]
      simp only [Option.some.injEq, reduceCtorEq, ne_eq, not_false_eq_true, implies_true, true_and]
      exact ih
    | some (.error e) =>
      rw [readField_of_error h]
      refine ⟨fun he => ?_, fun hk => absurd rfl (hk.1.1 e)⟩
      cases he

/-- **What a reading returns.** It succeeds iff no key that is present fails to parse, and then
holds the values of the present keys. -/
theorem readFields_none_eq_ok_iff {ks : List K} (hks : ∀ k, k ∈ ks) {r : Option C} :
    readFields T look ks none = .ok r ↔
      (∀ k e, look k ≠ some (.error e)) ∧ r = record T (found look) := by
  have hf : overlay look ks (fun _ => none) = found look := by
    funext k
    simp [overlay, hks k]
  have h : readFields T look ks (record T fun _ => none) = .ok r ↔ _ := readFields_record_eq_ok_iff
  rw [record_none, hf] at h
  simpa [hks] using h

end Reading

/-! ## Listing the fields that are set -/

section Emitting

variable {N P : Type*} (name : K → N) (print : ∀ k, V k → P)

/-- The fields that are set, each under its name, in the order of `ks`. -/
def emit (f : ∀ k, Option (V k)) (ks : List K) : List (N × P) :=
  ks.filterMap fun k => (f k).map fun v => (name k, print k v)

variable {name print} {f : ∀ k, Option (V k)}

omit [DecidableEq K] in
theorem mem_emit {ks : List K} {p : N × P} (h : p ∈ emit name print f ks) :
    ∃ k ∈ ks, ∃ v, f k = some v ∧ p = (name k, print k v) := by
  obtain ⟨k, hk, hp⟩ := List.mem_filterMap.1 h
  obtain ⟨v, hv, rfl⟩ := Option.map_eq_some_iff.1 hp
  exact ⟨k, hk, v, hv, rfl⟩

omit [DecidableEq K] in
theorem map_fst_emit (ks : List K) :
    (emit name print f ks).map Prod.fst = (ks.filter fun k => (f k).isSome).map name := by
  induction ks with
  | nil => rfl
  | cons k ks ih =>
    cases hk : f k with
    | none => simp_all [emit]
    | some v => simp_all [emit]

/-- **Each field is found under its name.** -/
theorem lookup_emit [BEq N] [LawfulBEq N] (hinj : Function.Injective name) {ks : List K} (k : K) :
    (emit name print f ks).lookup (name k) = if k ∈ ks then (f k).map (print k) else none := by
  induction ks with
  | nil => rfl
  | cons j ks ih =>
    by_cases hj : k = j
    · subst hj
      cases hk : f k with
      | none =>
        rw [hk] at ih
        simpa [emit, hk] using ih
      | some v => simp [emit, hk]
    · have hne : (name k == name j) = false := beq_false_of_ne fun h => hj (hinj h)
      cases hk : f j with
      | none => simpa [emit, hk, hj] using ih
      | some v => simpa [emit, hk, hj, List.lookup, hne] using ih

end Emitting

/-! ## Lists of optional fields -/

section Optional

variable {N P : Type*}

/-- The fields of a list that are set. -/
def ofOptional (fields : List (N × Option P)) : List (N × P) :=
  fields.filterMap fun p => p.2.map fun v => (p.1, v)

variable [BEq N] [LawfulBEq N] {fields : List (N × Option P)} {n : N}

theorem lookup_ofOptional_of_not_mem (hn : n ∉ fields.map Prod.fst) :
    (ofOptional fields).lookup n = none := by
  rw [List.lookup_eq_none_iff]
  intro p hp
  obtain ⟨⟨name, o⟩, hmem, hv⟩ := List.mem_filterMap.1 hp
  obtain ⟨v, -, rfl⟩ := Option.map_eq_some_iff.1 hv
  refine bne_iff_ne.2 ?_
  rintro rfl
  exact hn (List.mem_map_of_mem hmem)

/-- **Each field is found under its name**, if no name occurs twice. -/
theorem lookup_ofOptional (hnodup : (fields.map Prod.fst).Nodup) {o : Option P}
    (hmem : (n, o) ∈ fields) : (ofOptional fields).lookup n = o := by
  induction fields with
  | nil => cases hmem
  | cons p fields ih =>
    rw [List.map_cons, List.nodup_cons] at hnodup
    rcases List.mem_cons.1 hmem with rfl | hmem
    · cases o with
      | none =>
        have hnone : (ofOptional fields).lookup n = none := lookup_ofOptional_of_not_mem hnodup.1
        exact hnone
      | some v => exact List.lookup_cons_self
    · have hne : n ≠ p.1 := by
        rintro rfl
        exact hnodup.1 (List.mem_map.2 ⟨_, hmem, rfl⟩)
      have hlookup := ih hnodup.2 hmem
      rcases p with ⟨name, _ | v⟩
      · exact hlookup
      · change List.lookup n ((name, v) :: ofOptional fields) = o
        rw [List.lookup_cons, beq_false_of_ne hne]
        exact hlookup

end Optional

end WireProxy.Record
