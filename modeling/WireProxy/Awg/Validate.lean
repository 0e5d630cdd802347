import WireProxy.Awg.Params

/-!
# Validation of the AmneziaWG parameters

`ValidateASecConfig` and what it accepts.

* `Documented` states the documented rules over the parameters that are set and over the headers
  in effect. `validateASecConfig_eq_ok_iff`: the validator accepts exactly the records that keep
  these rules.
* A header that is not set is checked with its default value, a padding that is not set is not
  checked at all. So writing a default header changes no verdict, while writing a default padding
  can change it (`Awg.Defaults`).
-/

namespace WireProxy.Awg

open Text Go Config Control

variable {w : IntSize}

/-! ## The validator -/

/-- Some element is related by `r` to a later one: the loops over `i` and `j := i + 1`. -/
def anyPair {α : Type*} (r : α → α → Bool) : List α → Bool
  | [] => false
  | a :: l => l.any (r a) || anyPair r l

/-- `packetSizeCheck`. -/
structure PacketSizeCheck (w : IntSize) where
  isSet : Bool
  size : GoInt w

/-- Two checks that are set and have the same size. -/
def PacketSizeCheck.clash (p q : PacketSizeCheck w) : Bool := p.isSet && q.isSet && p.size == q.size

/-- The four message types. -/
inductive Message
  | initiation
  | response
  | cookieReply
  | transport
  deriving DecidableEq

namespace Message

/-- The message types in the order of S1-S4 and H1-H4. -/
def all : List Message := [initiation, response, cookieReply, transport]

/-- `messageInitiationSize` and the constants after it. -/
def size : Message → ℕ
  | initiation => 148
  | response => 92
  | cookieReply => 64
  | transport => 32

/-- `defaultInitPacketMagicHeader` and the constants after it. -/
def defaultHeader : Message → UInt32
  | initiation => 1
  | response => 2
  | cookieReply => 3
  | transport => 4

theorem mem_all (m : Message) : m ∈ all := by cases m <;> decide

theorem nodup_all : all.Nodup := by decide

end Message

/-- The list `packetSizes`. -/
def packetSizes (config : ASecConfigType w) : List (PacketSizeCheck w) :=
  [⟨config.hasInitPacketJunkSize, 148 + config.initPacketJunkSize⟩,
    ⟨config.hasResponsePacketJunkSize, 92 + config.responsePacketJunkSize⟩,
    ⟨config.hasCookieReplyPacketJunkSize, 64 + config.cookieReplyPacketJunkSize⟩,
    ⟨config.hasTransportPacketJunkSize, 32 + config.transportPacketJunkSize⟩]

/-- The list of paddings that a header protection key needs. -/
def noncePaddings (config : ASecConfigType w) : List (PacketSizeCheck w) :=
  [⟨config.hasInitPacketJunkSize, config.initPacketJunkSize⟩,
    ⟨config.hasResponsePacketJunkSize, config.responsePacketJunkSize⟩,
    ⟨config.hasCookieReplyPacketJunkSize, config.cookieReplyPacketJunkSize⟩,
    ⟨config.hasTransportPacketJunkSize, config.transportPacketJunkSize⟩]

/-- `headerCipherNonceSize`. -/
def headerCipherNonceSize : ℕ := 12

/-- `headerInterval`. -/
structure HeaderInterval where
  key : Text
  min : UInt32
  max : UInt32

/-- One entry of `collectEffectiveHeaderIntervals`. -/
def effectiveInterval (key : Text) (isSet : Bool) (lo hi default : UInt32) : HeaderInterval :=
  if isSet then ⟨key, lo, hi⟩ else ⟨key, default, default⟩

/-- `collectEffectiveHeaderIntervals` of a record that is not nil. -/
def collectEffectiveHeaderIntervals (config : ASecConfigType w) : List HeaderInterval :=
  [effectiveInterval "h1" config.hasInitPacketMagicHeader config.initPacketMagicHeader
      config.initPacketMagicHeaderMax Message.initiation.defaultHeader,
    effectiveInterval "h2" config.hasResponsePacketMagicHeader config.responsePacketMagicHeader
      config.responsePacketMagicHeaderMax Message.response.defaultHeader,
    effectiveInterval "h3" config.hasUnderloadPacketMagicHeader config.underloadPacketMagicHeader
      config.underloadPacketMagicHeaderMax Message.cookieReply.defaultHeader,
    effectiveInterval "h4" config.hasTransportPacketMagicHeader config.transportPacketMagicHeader
      config.transportPacketMagicHeaderMax Message.transport.defaultHeader]

/-- The overlap test of two intervals. -/
def HeaderInterval.overlaps (left right : HeaderInterval) : Bool :=
  left.min ≤ right.max && right.min ≤ left.max

/-- `hasOverlappingHeaderIntervals`. -/
def hasOverlappingHeaderIntervals (intervals : List HeaderInterval) : Bool :=
  anyPair HeaderInterval.overlaps intervals

/-- `ValidateASecConfig`. -/
def validateASecConfig : Option (ASecConfigType w) → Except Err Unit
  | none => .ok ()
  | some config =>
    if config.hasJunkPacketCount ∧
        (config.junkPacketCount.toInt < 1 ∨ config.junkPacketCount.toInt > 128) then
      .error (.msg "value of the Jc field must be within the range of 1 to 128")
    else if config.hasJunkPacketMinSize ∧ config.hasJunkPacketMaxSize ∧
        config.junkPacketMinSize.toInt > config.junkPacketMaxSize.toInt then
      .error (.msg "value of the Jmin field must be less than or equal to Jmax field value")
    else if config.hasJunkPacketMaxSize ∧ config.junkPacketMaxSize.toInt > 1280 then
      .error (.msg "value of the Jmax field must be less than or equal 1280")
    else if anyPair PacketSizeCheck.clash (packetSizes config) then
      if config.hasCookieReplyPacketJunkSize || config.hasTransportPacketJunkSize then
        .error (.msg "value of the field S1 + message initiation size (148) must not equal S2 + message response size (92) + S3 + cookie reply size (64) + S4 + transport packet size (32)")
      else
        .error (.msg "value of the field S1 + message initiation size (148) must not equal S2 + message response size (92)")
    else if (collectEffectiveHeaderIntervals config).any fun i => i.min > i.max then
      .error (.msg "invalid magic header range: lower bound cannot exceed upper bound")
    else if hasOverlappingHeaderIntervals (collectEffectiveHeaderIntervals config) then
      .error (.msg "values of the H1-H4 fields must be unique")
    else if config.headerProtectionKey ≠ none ∧
        (noncePaddings config).any fun p => !p.isSet || p.size.toInt < headerCipherNonceSize then
      .error (.msg "values of the S1-S4 fields must all be at least 12 when HeaderProtectionKey is set")
    else .ok ()

/-! ## The parameters by message type -/

namespace ASecConfigType

variable (c : ASecConfigType w)

/-- The padding of a message type, S1-S4. -/
def padding : Message → Option (GoInt w)
  | .initiation => AwgKey.get .s1 c
  | .response => AwgKey.get .s2 c
  | .cookieReply => AwgKey.get .s3 c
  | .transport => AwgKey.get .s4 c

/-- The configured header of a message type, H1-H4. -/
def header : Message → Option UintRange
  | .initiation => AwgKey.get .h1 c
  | .response => AwgKey.get .h2 c
  | .cookieReply => AwgKey.get .h3 c
  | .transport => AwgKey.get .h4 c

/-- The header in effect: the configured one or the single default value. -/
def effectiveHeader (m : Message) : UintRange := (c.header m).getD ⟨m.defaultHeader, m.defaultHeader⟩

end ASecConfigType

/-- The size of a message with its padding, as an `int`. -/
def paddedSize (m : Message) (a : GoInt w) : GoInt w := BitVec.ofNat w.width m.size + a

/-- The values of a range. -/
def UintRange.Has (r : UintRange) (x : UInt32) : Prop := r.min ≤ x ∧ x ≤ r.max

instance (r : UintRange) : DecidablePred r.Has := fun _ => inferInstanceAs (Decidable (_ ∧ _))

/-- The message types that a received header can stand for. -/
def readings (c : ASecConfigType w) (x : UInt32) : List Message :=
  Message.all.filter fun m => (c.effectiveHeader m).Has x

/-- The documented rules. -/
structure Documented (c : ASecConfigType w) : Prop where
  jc : ∀ v, AwgKey.get .jc c = some v → 1 ≤ v.toInt ∧ v.toInt ≤ 128
  jmin_le_jmax : ∀ lo hi, AwgKey.get .jmin c = some lo → AwgKey.get .jmax c = some hi →
    lo.toInt ≤ hi.toInt
  jmax_le : ∀ v, AwgKey.get .jmax c = some v → v.toInt ≤ 1280
  /-- The sizes with the paddings that are set are pairwise different. -/
  sizes : ∀ m m', m ≠ m' → ∀ a b, c.padding m = some a → c.padding m' = some b →
    paddedSize m a ≠ paddedSize m' b
  header_nonempty : ∀ m, ∃ x, (c.effectiveHeader m).Has x
  /-- Every value is the header of one message type at most. -/
  header_unique : ∀ x m m', (c.effectiveHeader m).Has x → (c.effectiveHeader m').Has x → m = m'
  /-- Header protection takes its nonce from the paddings. -/
  protection : c.headerProtectionKey ≠ none → ∀ m, ∃ a, c.padding m = some a ∧ 12 ≤ a.toInt

/-! ## Loops over pairs -/

theorem anyPair_eq_false_iff {α : Type*} {r : α → α → Bool} {l : List α} :
    anyPair r l = false ↔ l.Pairwise fun a b => r a b = false := by
  induction l with
  | nil => simp [anyPair]
  | cons a l ih => simp [anyPair, List.pairwise_cons, ih]

theorem Message.pairwise_all_iff {R : Message → Message → Prop} (hR : ∀ m m', R m m' → R m' m) :
    Message.all.Pairwise R ↔ ∀ m m', m ≠ m' → R m m' := by
  constructor
  · intro h m m' hne
    have : Std.Symm R := ⟨hR⟩
    exact h.forall m.mem_all m'.mem_all hne
  · intro h
    exact Message.nodup_all.pairwise_of_forall_ne fun m _ m' _ hne => h m m' hne

/-! ## The lists of the validator, by message type -/

/-- The flag and the field of a padding. -/
def paddingCheck (c : ASecConfigType w) : Message → PacketSizeCheck w
  | .initiation => ⟨c.hasInitPacketJunkSize, c.initPacketJunkSize⟩
  | .response => ⟨c.hasResponsePacketJunkSize, c.responsePacketJunkSize⟩
  | .cookieReply => ⟨c.hasCookieReplyPacketJunkSize, c.cookieReplyPacketJunkSize⟩
  | .transport => ⟨c.hasTransportPacketJunkSize, c.transportPacketJunkSize⟩

theorem padding_eq_some_iff {c : ASecConfigType w} {m : Message} {a : GoInt w} :
    c.padding m = some a ↔ (paddingCheck c m).isSet ∧ (paddingCheck c m).size = a := by
  have h : c.padding m =
      if (paddingCheck c m).isSet then some (paddingCheck c m).size else none := by
    cases m <;> rfl
  rw [h]
  split <;> simp_all

theorem packetSizes_eq_map (c : ASecConfigType w) :
    packetSizes c = Message.all.map fun m =>
      ⟨(paddingCheck c m).isSet, paddedSize m (paddingCheck c m).size⟩ := rfl

theorem noncePaddings_eq_map (c : ASecConfigType w) :
    noncePaddings c = Message.all.map (paddingCheck c) := rfl

theorem collectEffectiveHeaderIntervals_map (c : ASecConfigType w) :
    (collectEffectiveHeaderIntervals c).map (fun i => UintRange.mk i.min i.max) =
      Message.all.map c.effectiveHeader := by
  have h : ∀ key isSet lo hi d, UintRange.mk (effectiveInterval key isSet lo hi d).min
      (effectiveInterval key isSet lo hi d).max =
        (if isSet then some (UintRange.mk lo hi) else none).getD ⟨d, d⟩ := by
    intro key isSet lo hi d
    cases isSet <;> rfl
  simp only [collectEffectiveHeaderIntervals, List.map_cons, List.map_nil, h]
  rfl

/-- The loop over `packetSizes` compares the paddings that are set. -/
theorem anyPair_packetSizes_eq_false_iff {c : ASecConfigType w} :
    anyPair PacketSizeCheck.clash (packetSizes c) = false ↔
      ∀ m m', m ≠ m' → ∀ a b, c.padding m = some a → c.padding m' = some b →
        paddedSize m a ≠ paddedSize m' b := by
  rw [packetSizes_eq_map, anyPair_eq_false_iff, List.pairwise_map, Message.pairwise_all_iff]
  · refine forall₃_congr fun m m' _ => ?_
    simp only [PacketSizeCheck.clash, padding_eq_some_iff, Bool.and_eq_false_iff,
      beq_eq_false_iff_ne]
    constructor
    · rintro h a b ⟨hm, rfl⟩ ⟨hm', rfl⟩
      simpa [hm, hm'] using h
    · intro h
      by_cases hm : (paddingCheck c m).isSet
      · by_cases hm' : (paddingCheck c m').isSet
        · exact .inr (h _ _ ⟨hm, rfl⟩ ⟨hm', rfl⟩)
        · simp [hm']
      · simp [hm]
  · intro m m' h
    simp only [PacketSizeCheck.clash, Bool.and_eq_false_iff, beq_eq_false_iff_ne] at h ⊢
    tauto

theorem any_intervals_eq_false_iff {c : ASecConfigType w} :
    ((collectEffectiveHeaderIntervals c).any fun i => i.min > i.max) = false ↔
      ∀ m, (c.effectiveHeader m).min ≤ (c.effectiveHeader m).max := by
  have hmap : ((collectEffectiveHeaderIntervals c).any fun i => i.min > i.max) =
      (Message.all.map c.effectiveHeader).any fun r => r.min > r.max := by
    rw [← collectEffectiveHeaderIntervals_map, List.any_map]
    rfl
  rw [hmap, List.any_eq_false]
  constructor
  · intro h m
    have hm := h _ (List.mem_map_of_mem m.mem_all)
    simpa [UInt32.not_lt] using hm
  · intro h r hr
    obtain ⟨m, -, rfl⟩ := List.mem_map.1 hr
    simpa [UInt32.not_lt] using h m

/-- The overlap test on the bounds of two ranges. -/
def UintRange.Overlaps (r s : UintRange) : Prop := r.min ≤ s.max ∧ s.min ≤ r.max

theorem hasOverlappingHeaderIntervals_eq_false_iff {c : ASecConfigType w} :
    hasOverlappingHeaderIntervals (collectEffectiveHeaderIntervals c) = false ↔
      ∀ m m', m ≠ m' → ¬ (c.effectiveHeader m).Overlaps (c.effectiveHeader m') := by
  have hover : ∀ i j : HeaderInterval, i.overlaps j = false ↔
      ¬ (UintRange.mk i.min i.max).Overlaps ⟨j.min, j.max⟩ := by
    intro i j
    simp [HeaderInterval.overlaps, UintRange.Overlaps]
  rw [hasOverlappingHeaderIntervals, anyPair_eq_false_iff]
  simp only [hover]
  have hmap := List.pairwise_map (f := fun i : HeaderInterval => UintRange.mk i.min i.max)
    (R := fun r s => ¬ r.Overlaps s) (l := collectEffectiveHeaderIntervals c)
  rw [← hmap, collectEffectiveHeaderIntervals_map, List.pairwise_map, Message.pairwise_all_iff]
  exact fun m m' h hover => h ⟨hover.2, hover.1⟩

theorem UintRange.exists_has_iff {r : UintRange} : (∃ x, r.Has x) ↔ r.min ≤ r.max :=
  ⟨fun ⟨_, hlo, hhi⟩ => UInt32.le_trans hlo hhi, fun h => ⟨r.min, UInt32.le_refl _, h⟩⟩

/-- For non-empty ranges the test on the bounds finds a common value: the larger lower bound. -/
theorem UintRange.overlaps_iff_exists {r s : UintRange} (hr : r.min ≤ r.max) (hs : s.min ≤ s.max) :
    r.Overlaps s ↔ ∃ x, r.Has x ∧ s.Has x := by
  constructor
  · rintro ⟨hrs, hsr⟩
    rcases UInt32.le_total r.min s.min with h | h
    · exact ⟨s.min, ⟨h, hsr⟩, UInt32.le_refl _, hs⟩
    · exact ⟨r.min, ⟨UInt32.le_refl _, hr⟩, h, hrs⟩
  · rintro ⟨x, ⟨hr₁, hr₂⟩, hs₁, hs₂⟩
    exact ⟨UInt32.le_trans hr₁ hs₂, UInt32.le_trans hs₁ hr₂⟩

theorem any_noncePaddings_eq_false_iff {c : ASecConfigType w} :
    ((noncePaddings c).any fun p => !p.isSet || p.size.toInt < headerCipherNonceSize) = false ↔
      ∀ m, ∃ a, c.padding m = some a ∧ 12 ≤ a.toInt := by
  rw [noncePaddings_eq_map, List.any_eq_false]
  simp only [List.forall_mem_map, padding_eq_some_iff, Bool.or_eq_true, Bool.not_eq_true',
    decide_eq_true_eq, not_or, Bool.not_eq_false, not_lt]
  constructor
  · intro h m
    exact ⟨_, ⟨(h m m.mem_all).1, rfl⟩, (h m m.mem_all).2⟩
  · rintro h m -
    obtain ⟨a, ⟨hset, rfl⟩, hle⟩ := h m
    exact ⟨hset, hle⟩

/-! ## What the validator accepts -/

/-- The checks of the validator, in order. -/
theorem validateASecConfig_eq_ok_iff_checks {c : ASecConfigType w} :
    validateASecConfig (some c) = .ok () ↔
      ¬ (c.hasJunkPacketCount ∧ (c.junkPacketCount.toInt < 1 ∨ c.junkPacketCount.toInt > 128)) ∧
      ¬ (c.hasJunkPacketMinSize ∧ c.hasJunkPacketMaxSize ∧
        c.junkPacketMinSize.toInt > c.junkPacketMaxSize.toInt) ∧
      ¬ (c.hasJunkPacketMaxSize ∧ c.junkPacketMaxSize.toInt > 1280) ∧
      ¬ anyPair PacketSizeCheck.clash (packetSizes c) ∧
      ¬ ((collectEffectiveHeaderIntervals c).any fun i => i.min > i.max) ∧
      ¬ hasOverlappingHeaderIntervals (collectEffectiveHeaderIntervals c) ∧
      ¬ (c.headerProtectionKey ≠ none ∧
        (noncePaddings c).any fun p => !p.isSet || p.size.toInt < headerCipherNonceSize) := by
  have htwo : ∀ {p q : Prop} [Decidable p] [Decidable q] {e e' : Err} {r : Except Err Unit},
      (if p then (if q then .error e else .error e') else r) = .ok () ↔ ¬ p ∧ r = .ok () := by
    intro p q _ _ e e' r
    by_cases hp : p <;> by_cases hq : q <;> simp [hp, hq]
  simp only [validateASecConfig, ite_error_eq_ok_iff, htwo, and_true]

theorem validateASecConfig_eq_ok_iff {c : ASecConfigType w} :
    validateASecConfig (some c) = .ok () ↔ Documented c := by
  rw [validateASecConfig_eq_ok_iff_checks]
  simp only [Bool.not_eq_true, anyPair_packetSizes_eq_false_iff, any_intervals_eq_false_iff,
    hasOverlappingHeaderIntervals_eq_false_iff, not_and, any_noncePaddings_eq_false_iff]
  constructor
  · rintro ⟨hjc, hjmin, hjmax, hsizes, hne, hover, hprot⟩
    refine ⟨?_, ?_, ?_, hsizes, fun m => UintRange.exists_has_iff.2 (hne m), ?_, hprot⟩
    · intro v hv
      obtain ⟨hset, ⟨⟩⟩ := Option.ite_none_right_eq_some.1 hv
      have := hjc hset
      omega
    · intro lo hi hlo hhi
      obtain ⟨hset, ⟨⟩⟩ := Option.ite_none_right_eq_some.1 hlo
      obtain ⟨hset', ⟨⟩⟩ := Option.ite_none_right_eq_some.1 hhi
      exact not_lt.1 (hjmin hset hset')
    · intro v hv
      obtain ⟨hset, ⟨⟩⟩ := Option.ite_none_right_eq_some.1 hv
      exact not_lt.1 (hjmax hset)
    · intro x m m' hm hm'
      by_contra hmm
      exact hover m m' hmm ((UintRange.overlaps_iff_exists (hne m) (hne m')).2 ⟨x, hm, hm'⟩)
  · intro h
    have hne : ∀ m, (c.effectiveHeader m).min ≤ (c.effectiveHeader m).max := fun m =>
      UintRange.exists_has_iff.1 (h.header_nonempty m)
    refine ⟨?_, ?_, ?_, h.sizes, hne, ?_, h.protection⟩
    · intro hset hbad
      have := h.jc _ (if_pos hset)
      omega
    · intro hset hset'
      exact not_lt.2 (h.jmin_le_jmax _ _ (if_pos hset) (if_pos hset'))
    · intro hset
      exact not_lt.2 (h.jmax_le _ (if_pos hset))
    · intro m m' hmm hover
      obtain ⟨x, hm, hm'⟩ := (UintRange.overlaps_iff_exists (hne m) (hne m')).1 hover
      exact hmm (h.header_unique x m m' hm hm')

theorem length_readings_le_one {c : ASecConfigType w} (h : Documented c) (x : UInt32) :
    (readings c x).length ≤ 1 := by
  have hnodup : (readings c x).Nodup := Message.nodup_all.filter _
  by_contra hlen
  obtain ⟨m, m', l, hl⟩ : ∃ m m' l, readings c x = m :: m' :: l := by
    match hr : readings c x with
    | [] => simp [hr] at hlen
    | [_] => simp [hr] at hlen
    | m :: m' :: l => exact ⟨m, m', l, rfl⟩
  have hm : m ∈ readings c x := by simp [hl]
  have hm' : m' ∈ readings c x := by simp [hl]
  have heq := h.header_unique x m m' (of_decide_eq_true (List.mem_filter.1 hm).2)
    (of_decide_eq_true (List.mem_filter.1 hm').2)
  simp [hl, heq] at hnodup

/-- **The validator accepts exactly the documented parameter sets**, and under an accepted one
every received header has at most one reading. -/
theorem validateASecConfig_accepts_documented (c : ASecConfigType w) :
    (validateASecConfig (some c) = .ok () ↔ Documented c) ∧
      (validateASecConfig (some c) = .ok () → ∀ x, (readings c x).length ≤ 1) :=
  ⟨validateASecConfig_eq_ok_iff, fun h =>
    length_readings_le_one (validateASecConfig_eq_ok_iff.1 h)⟩

end WireProxy.Awg
