import WireProxy.Config.Ini

/-!
# Literal values

`parseString` reads a text that begins with a dollar sign as the name of an environment variable,
unless it begins with two of them. Any string can then be written, with one more dollar sign if it
begins with one.

* `escape` writes a string. `parseStringM` is `parseString` over any monad in which the environment
  is looked up, so that it is seen when nothing is looked up (`resolveTextM_escape`).
* `Stands` says what a text stands for in an environment.
* `parseString_exact` puts these together.
-/

namespace WireProxy.Config

open Text Go

/-- The text that writes a string literally. -/
def escape (v : Text) : Text := if v.head? = some '$' then '$' :: v else v

/-! ## Looking up variables as an effect -/

section Monadic

variable {m : Type → Type} [Monad m] (lookupEnv : Text → m (Option Text))

/-- `resolveText`, with the look-ups of the environment as effects. -/
def resolveTextM (keyName value : Text) : m (Except Text Text) :=
  if hasPrefix value "$" then
    if hasPrefix value "$$" then pure (.ok (replaceFirst "$$" "$" value))
    else do
      match ← lookupEnv (trimPrefix value "$") with
      | none => pure (.error (unsetMessage keyName value))
      | some v => pure (.ok v)
  else pure (.ok value)

/-- `parseString`, with the look-ups of the environment as effects. -/
def parseStringM (s : Section) (keyName : Text) : m (Except Text Text) :=
  resolveTextM lookupEnv keyName (s.key (toLower keyName))

variable {lookupEnv} {keyName : Text}

theorem resolveTextM_literal {t : Text} (h : t.head? ≠ some '$') :
    resolveTextM lookupEnv keyName t = pure (.ok t) :=
  if_neg (mt hasPrefix_singleton_iff.1 h)

/-- Two dollar signs at the beginning are the first occurrence, whatever follows. -/
theorem resolveTextM_escaped (t : Text) :
    resolveTextM lookupEnv keyName ('$' :: '$' :: t) = pure (.ok ('$' :: t)) := by
  have hone : hasPrefix ('$' :: '$' :: t) "$" = true := hasPrefix_singleton_iff.2 rfl
  have htwo : hasPrefix ('$' :: '$' :: t) "$$" = true := rfl
  rw [resolveTextM, if_pos hone, if_pos htwo]
  exact congrArg (fun t => pure (Except.ok t)) (replaceFirst_append "$$" "$" t)

theorem resolveTextM_name {name : Text} (h : name.head? ≠ some '$') :
    resolveTextM lookupEnv keyName ('$' :: name) = (do
      match ← lookupEnv name with
      | none => pure (.error (unsetMessage keyName ('$' :: name)))
      | some v => pure (.ok v)) := by
  have hone : hasPrefix ('$' :: name) "$" = true := hasPrefix_singleton_iff.2 rfl
  have htwo : ¬ hasPrefix ('$' :: name) "$$" = true := mt hasPrefix_singleton_iff.1 h
  have htrim : trimPrefix ('$' :: name) "$" = name := if_pos hone
  rw [resolveTextM, if_pos hone, if_neg htwo, htrim]

/-- **A literal is read without a look-up.** -/
theorem resolveTextM_escape (v : Text) :
    resolveTextM lookupEnv keyName (escape v) = pure (.ok v) := by
  rw [escape]
  split
  · rename_i hhead
    obtain ⟨t, rfl⟩ := List.head?_eq_some_iff.1 hhead
    exact resolveTextM_escaped t
  · rename_i hhead
    exact resolveTextM_literal hhead

end Monadic

theorem resolveText_eq_resolveTextM (host : Host) (keyName t : Text) :
    resolveText host keyName t = Id.run (resolveTextM (m := Id) host.lookupEnv keyName t) := by
  unfold resolveText resolveTextM
  split
  · split
    · rfl
    · rfl
  · rfl

theorem parseString_eq_parseStringM (host : Host) (s : Section) (keyName : Text) :
    parseString host s keyName = Id.run (parseStringM (m := Id) host.lookupEnv s keyName) :=
  resolveText_eq_resolveTextM host keyName _

/-! ## What a text stands for -/

/-- The string that a text stands for in an environment. -/
inductive Stands (lookupEnv : Text → Option Text) : Text → Text → Prop
  | literal {t : Text} (ht : t.head? ≠ some '$') : Stands lookupEnv t t
  | escaped (t : Text) : Stands lookupEnv ('$' :: '$' :: t) ('$' :: t)
  | name {name v : Text} (hname : name.head? ≠ some '$') (hv : lookupEnv name = some v) :
    Stands lookupEnv ('$' :: name) v

/-- A text refers to a variable that is not set. -/
def RefersToUnset (lookupEnv : Text → Option Text) (t : Text) : Prop :=
  ∃ name, t = '$' :: name ∧ name.head? ≠ some '$' ∧ lookupEnv name = none

/-- A text stands for a string or refers to a variable that is not set. -/
theorem stands_or_refersToUnset (lookupEnv : Text → Option Text) (t : Text) :
    (∃ v, Stands lookupEnv t v) ∨ RefersToUnset lookupEnv t := by
  by_cases hhead : t.head? = some '$'
  · obtain ⟨name, rfl⟩ := List.head?_eq_some_iff.1 hhead
    by_cases hname : name.head? = some '$'
    · obtain ⟨t, rfl⟩ := List.head?_eq_some_iff.1 hname
      exact .inl ⟨_, .escaped t⟩
    · cases hv : lookupEnv name with
      | none => exact .inr ⟨name, rfl, hname, hv⟩
      | some v => exact .inl ⟨v, .name hname hv⟩
  · exact .inl ⟨t, .literal hhead⟩

section ResolveText

variable {host : Host} {keyName t v : Text}

theorem resolveText_of_stands (h : Stands host.lookupEnv t v) :
    resolveText host keyName t = .ok v := by
  rw [resolveText_eq_resolveTextM]
  cases h with
  | literal ht =>
    rw [resolveTextM_literal ht]
    rfl
  | escaped t =>
    rw [resolveTextM_escaped t]
    rfl
  | name hname hv =>
    rw [resolveTextM_name hname, hv]
    rfl

theorem resolveText_of_refersToUnset (h : RefersToUnset host.lookupEnv t) :
    resolveText host keyName t = .error (unsetMessage keyName t) := by
  obtain ⟨name, rfl, hname, hv⟩ := h
  rw [resolveText_eq_resolveTextM, resolveTextM_name hname, hv]
  rfl

/-- **A text is read as the string that it stands for.** -/
theorem resolveText_eq_ok_iff : resolveText host keyName t = .ok v ↔ Stands host.lookupEnv t v := by
  refine ⟨fun h => ?_, resolveText_of_stands⟩
  rcases stands_or_refersToUnset host.lookupEnv t with ⟨v', hv'⟩ | hunset
  · rw [resolveText_of_stands hv', Except.ok.injEq] at h
    rwa [← h]
  · rw [resolveText_of_refersToUnset hunset] at h
    cases h

theorem exists_resolveText_eq_error_iff :
    (∃ msg, resolveText host keyName t = .error msg) ↔ RefersToUnset host.lookupEnv t := by
  constructor
  · rintro ⟨msg, h⟩
    refine (stands_or_refersToUnset host.lookupEnv t).resolve_left ?_
    rintro ⟨v, hv⟩
    rw [resolveText_of_stands hv] at h
    cases h
  · exact fun h => ⟨_, resolveText_of_refersToUnset h⟩

end ResolveText

/-- **Every string can be written literally.** For every section, with the text of the key:

* the text `escape v` is read as `v` without a look-up, and so in every environment;
* a text is accepted iff it stands for a string, which is the result, and it is an error iff it
  refers to a variable that is not set. -/
theorem parseString_exact (s : Section) (keyName : Text) :
    (∀ v, s.key (toLower keyName) = escape v →
      (∀ (m : Type → Type) [Monad m] (lookupEnv : Text → m (Option Text)),
        parseStringM lookupEnv s keyName = pure (.ok v)) ∧
      ∀ host, parseString host s keyName = .ok v) ∧
    ∀ host, (∀ v, parseString host s keyName = .ok v ↔
        Stands host.lookupEnv (s.key (toLower keyName)) v) ∧
      ((∃ msg, parseString host s keyName = .error msg) ↔
        RefersToUnset host.lookupEnv (s.key (toLower keyName))) := by
  refine ⟨fun v hv => ?_, fun host =>
    ⟨fun v => resolveText_eq_ok_iff, exists_resolveText_eq_error_iff⟩⟩
  have hliteral : ∀ (m : Type → Type) [Monad m] (lookupEnv : Text → m (Option Text)),
      parseStringM lookupEnv s keyName = pure (.ok v) := by
    intro m _ lookupEnv
    rw [parseStringM, hv, resolveTextM_escape]
  refine ⟨hliteral, fun host => ?_⟩
  rw [parseString_eq_parseStringM, hliteral Id]
  rfl

/-- A password that begins with two dollar signs and has two more. -/
theorem parseString_exact_dollars :
    parseString Host.bare [("password", "$$$a$$b")] "Password" = .ok ("$$a$$b" : String).toList :=
  ((parseString_exact [("password", "$$$a$$b")] "Password").1 ("$$a$$b" : String).toList
    rfl).2 Host.bare

end WireProxy.Config
