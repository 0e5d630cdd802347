import WireProxy.Go.Strings
import WireProxy.Health.Server

/-!
# What `/metrics` changes

The answer to `/metrics` is the dump of the device with the values of two keys masked, line by line.
The values of signature packets may be any bytes but newlines, so the loop is also modelled on
bytes.

* `metricsBytes` is the loop on the bytes of a dump, and `metricsBytes_utf8` says that on the bytes
  of a text it is the loop on the text.
* `metrics_masksOnly`: each line of a dump is kept or masked, and the answer itself is a dump that
  the loop does not change.
-/

namespace WireProxy.Health

open Text Go Config

variable {w : IntSize}

/-! ## Dumps of any bytes -/

theorem newline_not_mem_redactedBytes : 10 ∉ utf8 "REDACTED" := by decide

/-- What is redacted, in bytes. -/
def metricsMaskBytes : Mask UInt8 where
  newline := 10
  equals := 61
  keys := [utf8 "private_key", utf8 "preshared_key"]
  mask := utf8 "REDACTED"
  equals_ne_newline := by decide
  newline_not_mem_mask := newline_not_mem_redactedBytes

/-- The loop of `/metrics` on the bytes of a dump. -/
def metricsBytes (get : Bytes) : Bytes := metricsMaskBytes.filter get

theorem encodes_metricsMask : metricsMask.Encodes String.utf8EncodeChar metricsMaskBytes where
  injective := utf8_injective
  newline := marks_utf8EncodeChar (c := '\n') (by decide)
  equals := marks_utf8EncodeChar (c := '=') (by decide)
  keys := rfl
  mask := rfl

/-- **The loop on bytes is the loop on the text that they encode.** -/
theorem metricsBytes_utf8 (get : Text) : metricsBytes (utf8 get) = utf8 (metrics get) := by
  rw [metrics_eq_filter]
  exact encodes_metricsMask.filter_flatMap get

/-! ## The answer -/

/-- **The filter of `/metrics` changes nothing but the redacted values**, of a dump that is a text
and of one that is any bytes. -/
theorem metrics_masksOnly {lib : Lib} {path : Text}
    (hpath : lib.clean path = ("/metrics" : String).toList) (conf : DeviceConfig w)
    (pingRecord : PingRecord) (clock : ℕ) :
    metricsMask.MasksOnly (fun get =>
      (serveHTTP lib conf pingRecord clock (.ok get) path).body) ∧
    metricsMaskBytes.MasksOnly metricsBytes ∧
    ∀ get, metricsBytes (utf8 get) =
      utf8 (serveHTTP lib conf pingRecord clock (.ok get) path).body := by
  have hbody : (fun get => (serveHTTP lib conf pingRecord clock (.ok get) path).body) =
      metricsMask.filter := by
    funext get
    rw [body_metrics hpath, metrics_eq_filter]
  refine ⟨?_, metricsMaskBytes.masksOnly_filter, fun get => ?_⟩
  · rw [hbody]
    exact metricsMask.masksOnly_filter
  · rw [body_metrics hpath, metricsBytes_utf8]

/-- A dump with a secret and a value that has equals signs. -/
def signatureDump : List Text := ["private_key=aa", "i1=<b 0x01>=="]

theorem metrics_masksOnly_signatureDump :
    ∃ lines', List.Forall₂ metricsMask.Redacts signatureDump lines' ∧
      (serveHTTP plainLib bareDevice ∅ 0 (.ok (unlines '\n' signatureDump)) "/metrics").body =
        unlines '\n' lines' ∧
      (serveHTTP plainLib bareDevice ∅ 0 (.ok (unlines '\n' signatureDump)) "/metrics").body =
        unlines '\n' ["private_key=REDACTED", "i1=<b 0x01>=="] := by
  have hlines : ∀ l ∈ signatureDump, metricsMask.IsLine l := by
    rw [signatureDump, List.forall_mem_cons, List.forall_mem_singleton]
    exact ⟨⟨by decide, by decide⟩, by decide, by decide⟩
  have hpath : plainLib.clean "/metrics" = ("/metrics" : String).toList := rfl
  obtain ⟨lines', hredacts, -, hbody, -⟩ :=
    (metrics_masksOnly hpath bareDevice ∅ 0).1 signatureDump hlines
  exact ⟨lines', hredacts, hbody, by decide +kernel⟩

end WireProxy.Health
