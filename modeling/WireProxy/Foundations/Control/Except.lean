import Mathlib

/-!
# Computations that can fail

What it takes for a computation in `Except` to succeed.

* `bind_eq_ok_iff` takes a sequence apart, `ite_error_eq_ok_iff` a guard.
* `mapM_eq_ok_iff`: a loop over a list that stops at the first failure succeeds iff every element
  does, and returns their results in order. `appendAll_eq_ok_iff` is the same for a loop that
  appends to an accumulator.
-/

namespace WireProxy.Control

variable {α β ε : Type}

theorem exists_eq_ok_of_isOk {x : Except ε α} (h : x.isOk) : ∃ a, x = .ok a := by
  cases x with
  | error e => cases h
  | ok a => exact ⟨a, rfl⟩

theorem isOk_bind_ok {x : Except ε α} {f : α → β} : (x >>= fun a => .ok (f a)).isOk = x.isOk := by
  cases x <;> rfl

theorem bind_eq_ok_iff {x : Except ε α} {f : α → Except ε β} {b : β} :
    x >>= f = .ok b ↔ ∃ a, x = .ok a ∧ f a = .ok b := by
  cases x with
  | error e => simp [bind, Except.bind]
  | ok a => simp [bind, Except.bind]

theorem ite_error_eq_ok_iff {p : Prop} [Decidable p] {e : ε} {r : Except ε α} {a : α} :
    (if p then .error e else r) = .ok a ↔ ¬ p ∧ r = .ok a := by
  by_cases h : p <;> simp [h]

theorem mapM_eq_ok_iff {f : α → Except ε β} {l : List α} {m : List β} :
    l.mapM f = .ok m ↔ List.Forall₂ (fun a b => f a = .ok b) l m := by
  induction l generalizing m with
  | nil => simp [pure, Except.pure, eq_comm]
  | cons a l ih =>
    rw [List.mapM_cons, List.forall₂_cons_left_iff, bind_eq_ok_iff]
    simp only [bind_eq_ok_iff, ih, pure, Except.pure, Except.ok.injEq]
    constructor
    · rintro ⟨b, hb, u, hu, rfl⟩
      exact ⟨b, u, hb, hu, rfl⟩
    · rintro ⟨b, u, hb, hu, rfl⟩
      exact ⟨b, hb, u, hu, rfl⟩

theorem exists_mapM_eq_ok {f : α → Except ε β} {l : List α} (h : ∀ a ∈ l, (f a).isOk) :
    ∃ m, l.mapM f = .ok m := by
  simp only [mapM_eq_ok_iff]
  induction l with
  | nil => exact ⟨[], .nil⟩
  | cons a l ih =>
    obtain ⟨b, hb⟩ := exists_eq_ok_of_isOk (h a List.mem_cons_self)
    obtain ⟨m, hm⟩ := ih fun a ha => h a (List.mem_cons_of_mem _ ha)
    exact ⟨b :: m, .cons hb hm⟩

/-- Append the results for the elements of a list to an accumulator, up to the first failure. -/
def appendAll (f : α → Except ε β) (l : List α) (acc : List β) : Except ε (List β) :=
  l.foldlM (fun acc a => do let b ← f a; .ok (acc ++ [b])) acc

theorem appendAll_eq_ok_iff {f : α → Except ε β} {l : List α} {acc m : List β} :
    appendAll f l acc = .ok m ↔
      ∃ m', List.Forall₂ (fun a b => f a = .ok b) l m' ∧ m = acc ++ m' := by
  induction l generalizing acc with
  | nil => simp [appendAll, pure, Except.pure, eq_comm]
  | cons a l ih =>
    have hstep : appendAll f (a :: l) acc = .ok m ↔
        ∃ b, f a = .ok b ∧ appendAll f l (acc ++ [b]) = .ok m := by
      simp [appendAll, List.foldlM_cons, bind_eq_ok_iff]
    rw [hstep]
    constructor
    · rintro ⟨b, hb, hl⟩
      obtain ⟨m', hm', rfl⟩ := ih.1 hl
      exact ⟨b :: m', .cons hb hm', by simp⟩
    · rintro ⟨_, hm, rfl⟩
      obtain ⟨b, m', hb, hm', rfl⟩ := List.forall₂_cons_left_iff.1 hm
      exact ⟨b, hb, ih.2 ⟨m', hm', by simp⟩⟩

theorem exists_of_mem_forall₂_right {R : α → β → Prop} {l : List α} {m : List β}
    (h : List.Forall₂ R l m) {b : β} (hb : b ∈ m) : ∃ a ∈ l, R a b := by
  induction h with
  | nil => cases hb
  | cons hab _ ih =>
    rcases List.mem_cons.1 hb with rfl | hb
    · exact ⟨_, List.mem_cons_self, hab⟩
    · obtain ⟨a, ha, hr⟩ := ih hb
      exact ⟨a, List.mem_cons_of_mem _ ha, hr⟩

theorem exists_of_mem_forall₂_left {R : α → β → Prop} {l : List α} {m : List β}
    (h : List.Forall₂ R l m) {a : α} (ha : a ∈ l) : ∃ b ∈ m, R a b :=
  exists_of_mem_forall₂_right h.flip ha

/-- A list to the left of a list. -/
theorem exists_forall₂_left {R : α → β → Prop} {m : List β} (h : ∀ b ∈ m, ∃ a, R a b) :
    ∃ l, List.Forall₂ R l m := by
  induction m with
  | nil => exact ⟨[], .nil⟩
  | cons b m ih =>
    rw [List.forall_mem_cons] at h
    obtain ⟨a, ha⟩ := h.1
    obtain ⟨l, hl⟩ := ih h.2
    exact ⟨a :: l, .cons ha hl⟩

/-- Blocks of elements with one key each, no key twice, are found again by their keys. -/
theorem flatMap_filter_flatten {κ : Type} [DecidableEq κ] {key : α → κ} {keys : List κ}
    {blocks : List (List α)} (hnodup : keys.Nodup)
    (h : List.Forall₂ (fun k block => ∀ a ∈ block, key a = k) keys blocks) :
    (keys.flatMap fun k => blocks.flatten.filter fun a => key a = k) = blocks.flatten := by
  induction h with
  | nil => rfl
  | @cons k block keys blocks hblock hrest ih =>
    rw [List.nodup_cons] at hnodup
    have hkeys : ∀ a ∈ blocks.flatten, key a ∈ keys := by
      intro a ha
      obtain ⟨b, hb, hab⟩ := List.mem_flatten.1 ha
      obtain ⟨k', hk', hkb⟩ := exists_of_mem_forall₂_right hrest hb
      exact hkb a hab ▸ hk'
    have hfirst : (block ++ blocks.flatten).filter (fun a => key a = k) = block := by
      rw [List.filter_append, List.filter_eq_self.2 (by simpa using hblock),
        List.filter_eq_nil_iff.2, List.append_nil]
      intro a ha
      have hne : key a ≠ k := fun hk => hnodup.1 (hk ▸ hkeys a ha)
      simpa using hne
    have hlater : ∀ k' ∈ keys, (block ++ blocks.flatten).filter (fun a => key a = k') =
        blocks.flatten.filter fun a => key a = k' := by
      intro k' hk'
      rw [List.filter_append, List.filter_eq_nil_iff.2, List.nil_append]
      intro a ha
      have hne : key a ≠ k' := by
        rw [hblock a ha]
        exact fun hk => hnodup.1 (hk ▸ hk')
      simpa using hne
    rw [List.flatMap_cons, List.flatten_cons, hfirst, List.flatMap_congr hlater, ih hnodup.2]

end WireProxy.Control
