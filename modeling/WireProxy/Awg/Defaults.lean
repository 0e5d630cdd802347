import WireProxy.Awg.Validate

/-!
# Parameters that are left out

A padding or a header that is not set has a default value on the device: no padding, and the
message types 1 to 4. This module compares a record with the one in which such a default is
written out (`Param.setDefault`).

* Writing out a default header never changes the verdict of the validator, since it checks the
  headers in effect.
* Writing out a default padding adds one more size to the comparison of the sizes, which the
  validator makes between the paddings that are set. The verdict stays the same iff that size is
  not yet taken, or the record is rejected anyway (`verdict_setDefault_iff`).
-/

namespace WireProxy.Awg

open Text Go Config

variable {w : IntSize}

/-- The parameters that have a default on the device. -/
inductive Param
  | padding (m : Message)
  | header (m : Message)

namespace Param

/-- The parameter is left out. -/
def IsUnset (c : ASecConfigType w) : Param → Prop
  | padding m => c.padding m = none
  | header m => c.header m = none

/-- Write out the value that the device uses when the parameter is left out. -/
def setDefault (c : ASecConfigType w) : Param → ASecConfigType w
  | padding .initiation => AwgKey.set .s1 (0 : GoInt w) c
  | padding .response => AwgKey.set .s2 (0 : GoInt w) c
  | padding .cookieReply => AwgKey.set .s3 (0 : GoInt w) c
  | padding .transport => AwgKey.set .s4 (0 : GoInt w) c
  | header .initiation => AwgKey.set .h1 (UintRange.mk 1 1) c
  | header .response => AwgKey.set .h2 (UintRange.mk 2 2) c
  | header .cookieReply => AwgKey.set .h3 (UintRange.mk 3 3) c
  | header .transport => AwgKey.set .h4 (UintRange.mk 4 4) c

end Param

/-- The validator accepts a record. -/
def Accepts (c : ASecConfigType w) : Prop := validateASecConfig (some c) = .ok ()

/-- The size of a message in effect: a padding that is left out is none. -/
def effectiveSize (c : ASecConfigType w) (m : Message) : GoInt w :=
  paddedSize m ((c.padding m).getD 0)

/-- No padding that is set gives a message the size that `m` has without padding. -/
def SizeFree (c : ASecConfigType w) (m : Message) : Prop :=
  ∀ m' a, c.padding m' = some a → paddedSize m' a ≠ paddedSize m 0

/-! ## What writing a default changes -/

section SetDefault

variable (c : ASecConfigType w)

theorem setDefault_unchanged (p : Param) :
    AwgKey.get .jc (p.setDefault c) = AwgKey.get .jc c ∧
      AwgKey.get .jmin (p.setDefault c) = AwgKey.get .jmin c ∧
      AwgKey.get .jmax (p.setDefault c) = AwgKey.get .jmax c ∧
      (p.setDefault c).headerProtectionKey = c.headerProtectionKey := by
  cases p with
  | padding m => cases m <;> exact ⟨rfl, rfl, rfl, rfl⟩
  | header m => cases m <;> exact ⟨rfl, rfl, rfl, rfl⟩

theorem padding_setDefault_header (m : Message) :
    ((Param.header m).setDefault c).padding = c.padding := by
  funext m'
  cases m <;> cases m' <;> rfl

theorem padding_setDefault_padding (m : Message) :
    ((Param.padding m).setDefault c).padding = Function.update c.padding m (some 0) := by
  funext m'
  cases m <;> cases m' <;> rfl

theorem effectiveHeader_setDefault_padding (m : Message) :
    ((Param.padding m).setDefault c).effectiveHeader = c.effectiveHeader := by
  funext m'
  cases m <;> cases m' <;> rfl

variable {c}

theorem effectiveHeader_setDefault_header {m : Message} (hm : c.header m = none) :
    ((Param.header m).setDefault c).effectiveHeader = c.effectiveHeader := by
  funext m'
  by_cases hmm : m = m'
  · subst hmm
    rw [ASecConfigType.effectiveHeader, ASecConfigType.effectiveHeader, hm]
    cases m <;> rfl
  · have hother : ((Param.header m).setDefault c).header m' = c.header m' := by
      cases m <;> cases m' <;> first | rfl | exact absurd rfl hmm
    rw [ASecConfigType.effectiveHeader, ASecConfigType.effectiveHeader, hother]

/-- The rules read the record through the values of its keys. -/
theorem Documented.congr {c' : ASecConfigType w} (h : Documented c)
    (hjc : AwgKey.get .jc c' = AwgKey.get .jc c) (hjmin : AwgKey.get .jmin c' = AwgKey.get .jmin c)
    (hjmax : AwgKey.get .jmax c' = AwgKey.get .jmax c)
    (hkey : c'.headerProtectionKey = c.headerProtectionKey) (hpad : c'.padding = c.padding)
    (hhead : c'.effectiveHeader = c.effectiveHeader) : Documented c' where
  jc := hjc ▸ h.jc
  jmin_le_jmax := hjmin ▸ hjmax ▸ h.jmin_le_jmax
  jmax_le := hjmax ▸ h.jmax_le
  sizes := hpad ▸ h.sizes
  header_nonempty := hhead ▸ h.header_nonempty
  header_unique := hhead ▸ h.header_unique
  protection := hkey ▸ hpad ▸ h.protection

theorem documented_setDefault_header {m : Message} (hm : c.header m = none) :
    Documented ((Param.header m).setDefault c) ↔ Documented c := by
  obtain ⟨hjc, hjmin, hjmax, hkey⟩ := setDefault_unchanged c (.header m)
  have hpad := padding_setDefault_header c m
  have hhead := effectiveHeader_setDefault_header hm
  exact ⟨fun h => h.congr hjc.symm hjmin.symm hjmax.symm hkey.symm hpad.symm hhead.symm,
    fun h => h.congr hjc hjmin hjmax hkey hpad hhead⟩

/-- A padding that is set belongs to another message than one without, and stays as it is when the
default of the latter is written out. -/
theorem padding_setDefault_of_some {m m' : Message} {a : GoInt w} (hm : c.padding m = none)
    (ha : c.padding m' = some a) :
    m' ≠ m ∧ ((Param.padding m).setDefault c).padding m' = some a := by
  have hne : m' ≠ m := by
    rintro rfl
    simp [hm] at ha
  exact ⟨hne, by rw [padding_setDefault_padding, Function.update_of_ne hne, ha]⟩

/-- The sizes are different after writing out a padding iff they were before and the size without
that padding is free. -/
theorem sizes_setDefault_padding_iff {m : Message} (hm : c.padding m = none) :
    (∀ m₁ m₂, m₁ ≠ m₂ → ∀ a b, ((Param.padding m).setDefault c).padding m₁ = some a →
        ((Param.padding m).setDefault c).padding m₂ = some b →
        paddedSize m₁ a ≠ paddedSize m₂ b) ↔
      (∀ m₁ m₂, m₁ ≠ m₂ → ∀ a b, c.padding m₁ = some a → c.padding m₂ = some b →
        paddedSize m₁ a ≠ paddedSize m₂ b) ∧ SizeFree c m := by
  constructor
  · intro h
    refine ⟨fun m₁ m₂ hne a b ha hb => ?_, fun m' a ha => ?_⟩
    · exact h m₁ m₂ hne a b (padding_setDefault_of_some hm ha).2
        (padding_setDefault_of_some hm hb).2
    · obtain ⟨hne, ha'⟩ := padding_setDefault_of_some hm ha
      exact h m' m hne a 0 ha' (by simp [padding_setDefault_padding])
  · rintro ⟨h, hfree⟩ m₁ m₂ hne a b ha hb
    rw [padding_setDefault_padding] at ha hb
    by_cases h₁ : m₁ = m
    · subst h₁
      rw [Function.update_self] at ha
      rw [Function.update_of_ne (Ne.symm hne)] at hb
      cases ha
      exact (hfree m₂ b hb).symm
    · rw [Function.update_of_ne h₁] at ha
      by_cases h₂ : m₂ = m
      · subst h₂
        rw [Function.update_self] at hb
        cases hb
        exact hfree m₁ a ha
      · rw [Function.update_of_ne h₂] at hb
        exact h m₁ m₂ hne a b ha hb

theorem documented_setDefault_padding {m : Message} (hm : c.padding m = none) :
    Documented ((Param.padding m).setDefault c) ↔ Documented c ∧ SizeFree c m := by
  obtain ⟨hjc, hjmin, hjmax, hkey⟩ := setDefault_unchanged c (.padding m)
  have hhead := effectiveHeader_setDefault_padding c m
  constructor
  · intro h
    obtain ⟨hsizes, hfree⟩ := (sizes_setDefault_padding_iff hm).1 h.sizes
    -- a padding of zero bytes leaves no room for the nonce
    have hnone : c.headerProtectionKey = none := by
      by_contra hsome
      obtain ⟨a, ha, hle⟩ := h.protection (hkey ▸ hsome) m
      rw [padding_setDefault_padding, Function.update_self] at ha
      cases ha
      simp at hle
    exact ⟨⟨hjc ▸ h.jc, hjmin ▸ hjmax ▸ h.jmin_le_jmax, hjmax ▸ h.jmax_le, hsizes,
      hhead ▸ h.header_nonempty, hhead ▸ h.header_unique, fun hsome => absurd hnone hsome⟩, hfree⟩
  · rintro ⟨h, hfree⟩
    refine ⟨hjc ▸ h.jc, hjmin ▸ hjmax ▸ h.jmin_le_jmax, hjmax ▸ h.jmax_le,
      (sizes_setDefault_padding_iff hm).2 ⟨h.sizes, hfree⟩, hhead ▸ h.header_nonempty,
      hhead ▸ h.header_unique, fun hsome => ?_⟩
    obtain ⟨a, ha, -⟩ := h.protection (hkey ▸ hsome) m
    simp [hm] at ha

end SetDefault

/-! ## The verdicts -/

/-- When writing out a default leaves the verdict as it is: always for a header; for a padding if
its size without padding is free, or if the record breaks a documented rule already. -/
def Param.VerdictStays (c : ASecConfigType w) : Param → Prop
  | padding m => Documented c → SizeFree c m
  | header _ => True

theorem sizes_in_effect_iff {c : ASecConfigType w} (h : Documented c) :
    (∀ m m', m ≠ m' → (c.padding m).isSome → effectiveSize c m ≠ effectiveSize c m') ↔
      ∀ m, c.padding m = none → SizeFree c m := by
  constructor
  · intro hall m hm m' a ha
    have hne : m' ≠ m := by
      rintro rfl
      simp [hm] at ha
    have h' := hall m' m hne (by simp [ha])
    simpa [effectiveSize, ha, hm] using h'
  · intro hall m m' hne hsome
    obtain ⟨a, ha⟩ := Option.isSome_iff_exists.1 hsome
    cases hb : c.padding m' with
    | none => simpa [effectiveSize, ha, hb] using hall m' hb m a ha
    | some b => simpa [effectiveSize, ha, hb] using h.sizes m m' hne a b ha hb

/-- **When leaving a parameter out is the same as writing its default.** For every parameter that
is left out, and for the sizes in effect under an accepted record. -/
theorem verdict_setDefault_iff (c : ASecConfigType w) :
    (∀ p : Param, p.IsUnset c → ((Accepts (p.setDefault c) ↔ Accepts c) ↔ p.VerdictStays c)) ∧
      (Accepts c →
        ((∀ m m', m ≠ m' → (c.padding m).isSome → effectiveSize c m ≠ effectiveSize c m') ↔
          ∀ m, c.padding m = none → (Param.padding m).VerdictStays c)) := by
  simp only [Accepts, validateASecConfig_eq_ok_iff]
  constructor
  · intro p hp
    cases p with
    | padding m =>
      rw [documented_setDefault_padding hp, Param.VerdictStays]
      tauto
    | header m =>
      rw [documented_setDefault_header hp, Param.VerdictStays]
      exact iff_of_true Iff.rfl trivial
  · intro h
    rw [sizes_in_effect_iff h]
    exact forall₂_congr fun m _ => ⟨fun hfree _ => hfree, fun hfree => hfree h⟩

/-- With S2 = 56 alone a response has the size of an initiation without padding. The record is
accepted, and rejected once S1 = 0 is written out. -/
theorem verdict_changes_of_s2_56 :
    let c : ASecConfigType .bits64 := AwgKey.set .s2 (56 : GoInt .bits64) .zero
    (Param.padding .initiation).IsUnset c ∧ Accepts c ∧
      ¬ Accepts ((Param.padding .initiation).setDefault c) ∧
      effectiveSize c .initiation = effectiveSize c .response := by
  refine ⟨rfl, rfl, ?_, rfl⟩
  intro h
  cases h

end WireProxy.Awg
