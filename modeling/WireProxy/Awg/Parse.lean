import WireProxy.Awg.Validate

/-!
# Parsing the AmneziaWG parameters

`ParseASecConfig`: the 25 keys are looked up one after the other, the record is allocated when the
first of them is present, and the result is validated.

* `parseASecConfig_eq_ok_iff` says what a successful parse returns: every present key parses, the
  record holds the values of exactly the present keys, and it keeps the documented rules.
-/

namespace WireProxy.Awg

open Text Go Config Record Control

variable {w : IntSize}

/-- The value of a key in a section: none if the key is missing, otherwise what its text parses
to. -/
def lookKey (host : Host) (s : Section) (k : AwgKey) : Option (Except Err (k.Value w)) :=
  (s.getKey k.name).map (k.kind.parse host k.name)

/-- `ParseASecConfig`. -/
def parseASecConfig (host : Host) (s : Section) : Except Err (Option (ASecConfigType w)) := do
  let aSecConfig ← readFields aSecTable (lookKey host s) AwgKey.all none
  validateASecConfig aSecConfig
  .ok aSecConfig

/-- **What a successful parse returns.** -/
theorem parseASecConfig_eq_ok_iff {host : Host} {s : Section} {c : Option (ASecConfigType w)} :
    parseASecConfig host s = .ok c ↔
      (∀ k e, lookKey (w := w) host s k ≠ some (.error e)) ∧
        c = record aSecTable (found (lookKey host s)) ∧ validateASecConfig c = .ok () := by
  have hread : readFields aSecTable (lookKey (w := w) host s) AwgKey.all none = .ok c ↔ _ :=
    readFields_none_eq_ok_iff AwgKey.mem_all
  simp only [parseASecConfig, bind_eq_ok_iff, Except.ok.injEq]
  constructor
  · rintro ⟨r, hr, u, hv, rfl⟩
    exact ⟨(hread.1 hr).1, (hread.1 hr).2, hv⟩
  · rintro ⟨hok, hc, hv⟩
    exact ⟨c, hread.2 ⟨hok, hc⟩, (), hv, rfl⟩

section Success

variable {host : Host} {s : Section} {k : AwgKey}

/-- The values that a section gives to its keys. -/
theorem found_lookKey_eq_some_iff {v : k.Value w} :
    found (lookKey host s) k = some v ↔
      ∃ t, s.getKey k.name = some t ∧ k.kind.parse host k.name t = .ok v := by
  unfold found lookKey
  cases hk : s.getKey k.name with
  | none => simp
  | some t => cases hp : k.kind.parse (w := w) host k.name t <;> simp [hp]

/-- The values that a successful parse stores. -/
theorem bind_get_of_parseASecConfig {c : Option (ASecConfigType w)}
    (h : parseASecConfig host s = .ok c) (k : AwgKey) : c.bind k.get = found (lookKey host s) k := by
  obtain ⟨-, rfl, -⟩ := parseASecConfig_eq_ok_iff.1 h
  exact record_bind_get k

/-- A key that is present is stored with what its text parses to. -/
theorem exists_get_of_parseASecConfig {c : Option (ASecConfigType w)}
    (h : parseASecConfig host s = .ok c) {t : Text} (ht : s.getKey k.name = some t) :
    ∃ v, k.kind.parse host k.name t = .ok v ∧ c.bind k.get = some v := by
  have hok := (parseASecConfig_eq_ok_iff.1 h).1 k
  rw [bind_get_of_parseASecConfig h]
  simp only [lookKey, ht, Option.map_some] at hok
  cases hp : k.kind.parse (w := w) host k.name t with
  | error e => exact absurd (congrArg some hp) (hok e)
  | ok v => exact ⟨v, rfl, found_lookKey_eq_some_iff.2 ⟨t, ht, hp⟩⟩

theorem isSome_found_lookKey (h : ∀ e, lookKey (w := w) host s k ≠ some (.error e)) :
    (found (lookKey (w := w) host s) k).isSome = (s.getKey k.name).isSome := by
  unfold found
  unfold lookKey at h ⊢
  cases hk : s.getKey k.name with
  | none => rfl
  | some t =>
    cases hp : k.kind.parse (w := w) host k.name t with
    | error e => simp [hk, hp] at h
    | ok v => simp [hp]

end Success

end WireProxy.Awg
