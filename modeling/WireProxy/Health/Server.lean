import WireProxy.Config.Types
import WireProxy.Foundations.Text.Masking

/-!
# The health server

`VirtualTun.ServeHTTP`: the answers to `/readyz`, from the record of the pings, and to `/metrics`,
from the dump of the device.

* `readyzStatus` compares the age of each record with the interval of the pings.
* `metrics` copies the dump line by line and redacts the values of two keys. It is the filter of
  `metricsMask` (`metrics_eq_filter`).
* `metrics_body_eq_iff`: of two dumps that differ in secret values only, the answers are the same
  iff the header protection keys are, since their line is not redacted.
-/

namespace WireProxy.Health

open Text Go Config

variable {w : IntSize}

/-- `PingRecord`. -/
abbrev PingRecord := AList fun _ : Text => ℕ

/-! ## `/readyz` -/

/-- Nanoseconds in a second. -/
def second : ℕ := 1000000000

/-- `time.Since(time.Unix(record, 0))`, a `time.Duration`, at a time in nanoseconds since the epoch:
the difference is cut off at the ends of the range. -/
def since (clock record : ℕ) : ℤ :=
  max (-2 ^ 63) (min ((clock : ℤ) - record * second) (2 ^ 63 - 1))

/-- `time.Duration(CheckAliveInterval+2) * time.Second`. -/
def leeway (conf : DeviceConfig w) : ℤ :=
  (BitVec.ofInt 64 (conf.checkAliveInterval + 2).toInt * BitVec.ofNat 64 second).toInt

/-- The status of `/readyz`. -/
def readyzStatus (conf : DeviceConfig w) (pingRecord : PingRecord) (clock : ℕ) : ℕ :=
  if pingRecord.entries.any fun entry => since clock entry.2 > leeway conf then 503 else 200

/-! ## `/metrics` -/

/-- A line of the answer to `/metrics`. -/
def metricsLine (line : Text) : Text :=
  match cut '=' line with
  | none => line
  | some (key, value) =>
    if key = ("private_key" : String).toList ∨ key = ("preshared_key" : String).toList then
      Text.line key "REDACTED"
    else Text.line key value

/-- The answer to `/metrics`, from a dump. -/
def metrics (get : Text) : Text := (get.splitOn '\n').flatMap metricsLine

/-! ## The server -/

/-- An answer: its status and its body. -/
structure Answer where
  status : ℕ
  body : Text
  deriving DecidableEq

/-- The library functions of the server. -/
structure Lib where
  /-- `path.Clean`. -/
  clean : Text → Text
  /-- `json.Marshal` of a record, which does not fail. -/
  marshal : PingRecord → Text

/-- `VirtualTun.ServeHTTP`, with what `IpcGet` returns. -/
def serveHTTP (lib : Lib) (conf : DeviceConfig w) (pingRecord : PingRecord) (clock : ℕ)
    (ipcGet : Except Err Text) (path : Text) : Answer :=
  if lib.clean path = ("/readyz" : String).toList then
    ⟨readyzStatus conf pingRecord clock, lib.marshal pingRecord ++ ['\n']⟩
  else if lib.clean path = ("/metrics" : String).toList then
    match ipcGet with
    | .error _ => ⟨500, []⟩
    | .ok get => ⟨200, metrics get⟩
  else ⟨404, []⟩

theorem body_metrics {lib : Lib} {conf : DeviceConfig w} {pingRecord : PingRecord} {clock : ℕ}
    {path : Text} (hpath : lib.clean path = ("/metrics" : String).toList) (get : Text) :
    (serveHTTP lib conf pingRecord clock (.ok get) path).body = metrics get := by
  rw [serveHTTP, hpath, if_neg (by decide), if_pos rfl]

/-! ## Redaction -/

/-- The pair of a line in the answer to `/metrics`. -/
def redact (p : Text × Text) : Text × Text :=
  if p.1 = ("private_key" : String).toList ∨ p.1 = ("preshared_key" : String).toList then
    (p.1, "REDACTED")
  else p

theorem newline_not_mem_redacted : '\n' ∉ ("REDACTED" : String).toList := by decide

theorem writable_redact {p : Text × Text} (hp : Writable p) : Writable (redact p) := by
  rw [redact]
  split
  · exact ⟨hp.1, hp.2.1, newline_not_mem_redacted⟩
  · exact hp

/-- What is redacted, as a mask. -/
def metricsMask : Mask Char where
  newline := '\n'
  equals := '='
  keys := ["private_key", "preshared_key"]
  mask := "REDACTED"
  equals_ne_newline := by decide
  newline_not_mem_mask := newline_not_mem_redacted

theorem mem_keys_metricsMask {key : Text} : key ∈ metricsMask.keys ↔
    key = ("private_key" : String).toList ∨ key = ("preshared_key" : String).toList := by
  rw [metricsMask, List.mem_cons, List.mem_singleton]

/-- **The loop of `/metrics` is the filter of the mask.** -/
theorem metrics_eq_filter (get : Text) : metrics get = metricsMask.filter get := by
  refine List.flatMap_congr fun l _ => ?_
  have hequals : metricsMask.equals = '=' := rfl
  rw [metricsLine, Mask.line, hequals]
  cases cut '=' l with
  | none => rfl
  | some p =>
    obtain ⟨key, value⟩ := p
    dsimp only
    by_cases hkey : key ∈ metricsMask.keys
    · rw [if_pos hkey, if_pos (mem_keys_metricsMask.1 hkey)]
      rfl
    · rw [if_neg hkey, if_neg (mt mem_keys_metricsMask.2 hkey)]
      rfl

theorem redacts_of_writable {p : Text × Text} (hp : Writable p) :
    metricsMask.Redacts (p.1 ++ '=' :: p.2) ((redact p).1 ++ '=' :: (redact p).2) := by
  rw [redact]
  split
  · rename_i hkey
    exact .masked hp.1 (mem_keys_metricsMask.2 hkey)
  · rename_i hkey
    exact .kept hp.1 (mt mem_keys_metricsMask.1 hkey)

/-- **The answer to `/metrics` is the dump with two values redacted.** -/
theorem metrics_renderLines {kvs : List (Text × Text)} (h : ∀ p ∈ kvs, Writable p) :
    metrics (renderLines kvs) = renderLines (kvs.map redact) := by
  rw [metrics_eq_filter, renderLines_eq_unlines, renderLines_eq_unlines, List.map_map]
  refine Mask.filter_unlines ?_ (List.forall_mem_map.2 fun p hp => (h p hp).newline_not_mem)
  rw [List.forall₂_map_left_iff, List.forall₂_map_right_iff, List.forall₂_same]
  exact fun p hp => redacts_of_writable (h p hp)

theorem renderLines_inj {kvs₁ kvs₂ : List (Text × Text)} (h₁ : ∀ p ∈ kvs₁, Writable p)
    (h₂ : ∀ p ∈ kvs₂, Writable p) : renderLines kvs₁ = renderLines kvs₂ ↔ kvs₁ = kvs₂ := by
  refine ⟨fun h => ?_, fun h => by rw [h]⟩
  have hread := readLines_renderLines h₁
  rw [h, readLines_renderLines h₂] at hread
  exact (Option.some.inj hread).symm

/-! ## Dumps that differ in secrets only -/

/-- The keys of a dump whose values are secret. -/
def secretKeys : List Text := ["private_key", "preshared_key", "header_protection_key"]

/-- The dumps are the same except for the values of secret keys. -/
def SameButSecrets (kvs₁ kvs₂ : List (Text × Text)) : Prop :=
  List.Forall₂ (fun p q => p.1 = q.1 ∧ (p.1 ∉ secretKeys → p.2 = q.2)) kvs₁ kvs₂

/-- Two lines of one key are redacted to the same, except for header protection keys. -/
theorem redact_eq_iff {p q : Text × Text} (hkey : p.1 = q.1)
    (hvalue : p.1 ∉ secretKeys → p.2 = q.2) :
    redact p = redact q ↔ (p.1 = ("header_protection_key" : String).toList → p.2 = q.2) := by
  obtain ⟨k, v₁⟩ := p
  obtain ⟨k', v₂⟩ := q
  obtain rfl : k = k' := hkey
  dsimp only at hvalue ⊢
  have hne : ("header_protection_key" : String).toList ≠ ("private_key" : String).toList ∧
      ("header_protection_key" : String).toList ≠ ("preshared_key" : String).toList := by decide
  by_cases hredacted : k = ("private_key" : String).toList ∨ k = ("preshared_key" : String).toList
  · have hk : k ≠ ("header_protection_key" : String).toList := by
      rintro rfl
      exact hredacted.elim hne.1 hne.2
    rw [redact, redact, if_pos hredacted, if_pos hredacted]
    exact iff_of_true rfl fun h => absurd h hk
  · rw [redact, redact, if_neg hredacted, if_neg hredacted, Prod.mk.injEq]
    refine ⟨fun h _ => h.2, fun h => ⟨rfl, ?_⟩⟩
    by_cases hk : k = ("header_protection_key" : String).toList
    · exact h hk
    · refine hvalue fun hmem => ?_
      rw [secretKeys, List.mem_cons, List.mem_cons, List.mem_singleton] at hmem
      rcases hmem with hmem | hmem | hmem
      · exact hredacted (.inl hmem)
      · exact hredacted (.inr hmem)
      · exact hk hmem

theorem map_redact_eq_iff {kvs₁ kvs₂ : List (Text × Text)} (h : SameButSecrets kvs₁ kvs₂) :
    kvs₁.map redact = kvs₂.map redact ↔
      valuesAt "header_protection_key" kvs₁ = valuesAt "header_protection_key" kvs₂ := by
  induction h with
  | nil => simp
  | @cons p q kvs₁ kvs₂ hpq _ ih =>
    obtain ⟨k, v₁⟩ := p
    obtain ⟨k', v₂⟩ := q
    obtain rfl : k = k' := hpq.1
    rw [List.map_cons, List.map_cons, List.cons.injEq, ih, redact_eq_iff hpq.1 hpq.2]
    by_cases hk : k = ("header_protection_key" : String).toList
    · subst hk
      rw [valuesAt_cons_self, valuesAt_cons_self, List.cons.injEq]
      exact and_congr_left' (forall_prop_of_true rfl)
    · rw [valuesAt_cons_of_ne _ _ (Ne.symm hk), valuesAt_cons_of_ne _ _ (Ne.symm hk)]
      exact and_iff_right fun h => absurd h hk

/-- **What `/metrics` reveals.** Two dumps that differ in secret values only get the same answer iff
their header protection keys are the same. -/
theorem metrics_body_eq_iff {lib : Lib} {conf : DeviceConfig w} {pingRecord : PingRecord}
    {clock : ℕ} {path : Text} {kvs₁ kvs₂ : List (Text × Text)}
    (hpath : lib.clean path = ("/metrics" : String).toList) (h₁ : ∀ p ∈ kvs₁, Writable p)
    (h₂ : ∀ p ∈ kvs₂, Writable p) (hsame : SameButSecrets kvs₁ kvs₂) :
    (serveHTTP lib conf pingRecord clock (.ok (renderLines kvs₁)) path).body =
        (serveHTTP lib conf pingRecord clock (.ok (renderLines kvs₂)) path).body ↔
      valuesAt "header_protection_key" kvs₁ = valuesAt "header_protection_key" kvs₂ := by
  have hserve : ∀ kvs : List (Text × Text), (∀ p ∈ kvs, Writable p) →
      (serveHTTP lib conf pingRecord clock (.ok (renderLines kvs)) path).body =
        renderLines (kvs.map redact) := by
    intro kvs h
    rw [body_metrics hpath, metrics_renderLines h]
  have hwritable : ∀ kvs : List (Text × Text), (∀ p ∈ kvs, Writable p) →
      ∀ p ∈ kvs.map redact, Writable p := by
    intro kvs h
    rw [List.forall_mem_map]
    exact fun p hp => writable_redact (h p hp)
  rw [hserve kvs₁ h₁, hserve kvs₂ h₂, renderLines_inj (hwritable kvs₁ h₁) (hwritable kvs₂ h₂),
    map_redact_eq_iff hsame]

/-! ## A dump with all secrets -/

/-- The dump of a device with the given secrets. -/
def dump (privateKey presharedKey headerProtectionKey : Text) : List (Text × Text) :=
  [("private_key", privateKey), ("listen_port", "51820"),
    ("header_protection_key", headerProtectionKey), ("public_key", "22"),
    ("preshared_key", presharedKey), ("endpoint", "192.0.2.1:51820"), ("allowed_ip", "0.0.0.0/0")]

/-- The library with a path that is already clean. -/
def plainLib : Lib := ⟨id, fun _ => []⟩

/-- A device of which nothing is known. -/
def bareDevice : DeviceConfig .bits64 := ⟨[], [], [], [], 1420, none, [], 5, none⟩

/-- Other private and preshared keys, the same answer. -/
theorem metrics_body_eq_iff_redacted :
    (serveHTTP plainLib bareDevice ∅ 0 (.ok (renderLines (dump "aa" "bb" "cc"))) "/metrics").body =
      (serveHTTP plainLib bareDevice ∅ 0 (.ok (renderLines (dump "dd" "ee" "cc"))) "/metrics").body :=
  (metrics_body_eq_iff rfl (by decide) (by decide)
    (by simp [SameButSecrets, dump, secretKeys])).2 rfl

/-- Another header protection key, another answer: it shows the key. -/
theorem metrics_shows_header_protection_key :
    SameButSecrets (dump "aa" "bb" "c0ffee") (dump "aa" "bb" "facade") ∧
      (serveHTTP plainLib bareDevice ∅ 0 (.ok (renderLines (dump "aa" "bb" "c0ffee")))
          "/metrics").body =
        renderLines [("private_key", "REDACTED"), ("listen_port", "51820"),
          ("header_protection_key", "c0ffee"), ("public_key", "22"), ("preshared_key", "REDACTED"),
          ("endpoint", "192.0.2.1:51820"), ("allowed_ip", "0.0.0.0/0")] ∧
      (serveHTTP plainLib bareDevice ∅ 0 (.ok (renderLines (dump "aa" "bb" "c0ffee")))
          "/metrics").body ≠
        (serveHTTP plainLib bareDevice ∅ 0 (.ok (renderLines (dump "aa" "bb" "facade")))
          "/metrics").body := by
  refine ⟨by simp [SameButSecrets, dump, secretKeys], by decide +kernel, by decide +kernel⟩

end WireProxy.Health
