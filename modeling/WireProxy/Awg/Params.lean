import WireProxy.Awg.Range
import WireProxy.Foundations.Record.Fields

/-!
# The AmneziaWG parameters

The record `ASecConfigType` and the 25 keys that fill it. The parser of the `[Interface]` section
and the writer of the IPC request both treat one key after the other in the same way, so each of
them is a loop over `AwgKey.all` and what differs from key to key stands in tables: the name in the
configuration (`AwgKey.name`), the name in the request (`AwgKey.ipcName`), the kind of value
(`AwgKey.kind`) and the fields of the record (`AwgKey.set`, `AwgKey.get`).

* `aSecTable`: setting and getting by key are what a `FieldTable` asks for, so no key writes to a
  field of another one.
* `Kind.parse_print`: a value that was parsed is read back from its own text.
-/

namespace WireProxy.Awg

open Text Go Config Record

variable {w : IntSize}

/-! ## The record -/

/-- `ASecConfigType`. -/
structure ASecConfigType (w : IntSize) where
  junkPacketCount : GoInt w
  junkPacketMinSize : GoInt w
  junkPacketMaxSize : GoInt w
  initPacketJunkSize : GoInt w
  responsePacketJunkSize : GoInt w
  cookieReplyPacketJunkSize : GoInt w
  transportPacketJunkSize : GoInt w
  initPacketMagicHeader : UInt32
  initPacketMagicHeaderMax : UInt32
  responsePacketMagicHeader : UInt32
  responsePacketMagicHeaderMax : UInt32
  underloadPacketMagicHeader : UInt32
  underloadPacketMagicHeaderMax : UInt32
  transportPacketMagicHeader : UInt32
  transportPacketMagicHeaderMax : UInt32
  hasJunkPacketCount : Bool
  hasJunkPacketMinSize : Bool
  hasJunkPacketMaxSize : Bool
  hasInitPacketJunkSize : Bool
  hasResponsePacketJunkSize : Bool
  hasCookieReplyPacketJunkSize : Bool
  hasTransportPacketJunkSize : Bool
  hasInitPacketMagicHeader : Bool
  hasResponsePacketMagicHeader : Bool
  hasUnderloadPacketMagicHeader : Bool
  hasTransportPacketMagicHeader : Bool
  i1 : Option Text
  i2 : Option Text
  i3 : Option Text
  i4 : Option Text
  i5 : Option Text
  headerProtectionKey : Option Text
  contentPaddingAddition : Option UintRange
  rekeyAfterTime : Option UintRange
  rekeyTimeout : Option UintRange
  rejectAfterTime : Option UintRange
  keepaliveTimeout : Option UintRange
  maxHandshakeAttempts : Option UintRange
  randomTrailers : Option Bool
  disableCookies : Option Bool
  deriving DecidableEq

/-! ## The keys -/

/-- The keys, in the order in which the source treats them. -/
inductive AwgKey
  | jc | jmin | jmax | s1 | s2 | s3 | s4 | h1 | h2 | h3 | h4 | i1 | i2 | i3 | i4 | i5
  | headerProtectionKey | contentPaddingAddition | rekeyAfterTime | rekeyTimeout
  | rejectAfterTime | keepaliveTimeout | maxHandshakeAttempts | randomTrailers | disableCookies
  deriving DecidableEq

/-- The kinds of values. -/
inductive Kind
  | int
  | range
  | text
  | key
  | bool
  deriving DecidableEq

/-- The values of a kind; a key is kept as hexadecimal text. -/
abbrev Kind.Value (w : IntSize) : Kind → Type
  | .int => GoInt w
  | .range => UintRange
  | .text => Text
  | .key => Text
  | .bool => Bool

namespace AwgKey

/-- The keys in the order of `ParseASecConfig`, which is also that of `CreateIPCRequest`. -/
def all : List AwgKey :=
  [jc, jmin, jmax, s1, s2, s3, s4, h1, h2, h3, h4, i1, i2, i3, i4, i5, headerProtectionKey,
    contentPaddingAddition, rekeyAfterTime, rekeyTimeout, rejectAfterTime, keepaliveTimeout,
    maxHandshakeAttempts, randomTrailers, disableCookies]

theorem mem_all (k : AwgKey) : k ∈ all := by cases k <;> decide

/-- The name in the `[Interface]` section. -/
def name : AwgKey → Text
  | jc => "Jc" | jmin => "Jmin" | jmax => "Jmax"
  | s1 => "S1" | s2 => "S2" | s3 => "S3" | s4 => "S4"
  | h1 => "H1" | h2 => "H2" | h3 => "H3" | h4 => "H4"
  | i1 => "I1" | i2 => "I2" | i3 => "I3" | i4 => "I4" | i5 => "I5"
  | headerProtectionKey => "HeaderProtectionKey"
  | contentPaddingAddition => "ContentPaddingAddition"
  | rekeyAfterTime => "RekeyAfterTime"
  | rekeyTimeout => "RekeyTimeout"
  | rejectAfterTime => "RejectAfterTime"
  | keepaliveTimeout => "KeepaliveTimeout"
  | maxHandshakeAttempts => "MaxHandshakeAttempts"
  | randomTrailers => "RandomTrailers"
  | disableCookies => "DisableCookies"

/-- The name in the IPC request. -/
def ipcName : AwgKey → Text
  | jc => "jc" | jmin => "jmin" | jmax => "jmax"
  | s1 => "s1" | s2 => "s2" | s3 => "s3" | s4 => "s4"
  | h1 => "h1" | h2 => "h2" | h3 => "h3" | h4 => "h4"
  | i1 => "i1" | i2 => "i2" | i3 => "i3" | i4 => "i4" | i5 => "i5"
  | headerProtectionKey => "header_protection_key"
  | contentPaddingAddition => "content_padding_addition"
  | rekeyAfterTime => "rekey_after_time"
  | rekeyTimeout => "rekey_timeout"
  | rejectAfterTime => "reject_after_time"
  | keepaliveTimeout => "keepalive_timeout"
  | maxHandshakeAttempts => "max_handshake_attempts"
  | randomTrailers => "random_trailers"
  | disableCookies => "disable_cookies"

/-- The kind of value of a key. -/
abbrev kind : AwgKey → Kind
  | jc | jmin | jmax | s1 | s2 | s3 | s4 => .int
  | h1 | h2 | h3 | h4 => .range
  | i1 | i2 | i3 | i4 | i5 => .text
  | headerProtectionKey => .key
  | contentPaddingAddition | rekeyAfterTime | rekeyTimeout | rejectAfterTime | keepaliveTimeout
  | maxHandshakeAttempts => .range
  | randomTrailers | disableCookies => .bool

/-- The values of a key. -/
abbrev Value (w : IntSize) (k : AwgKey) : Type := k.kind.Value w

/-- The assignments of `ParseASecConfig` for a key. -/
def set : ∀ k : AwgKey, k.Value w → ASecConfigType w → ASecConfigType w
  | jc, v, c => { c with junkPacketCount := v, hasJunkPacketCount := true }
  | jmin, v, c => { c with junkPacketMinSize := v, hasJunkPacketMinSize := true }
  | jmax, v, c => { c with junkPacketMaxSize := v, hasJunkPacketMaxSize := true }
  | s1, v, c => { c with initPacketJunkSize := v, hasInitPacketJunkSize := true }
  | s2, v, c => { c with responsePacketJunkSize := v, hasResponsePacketJunkSize := true }
  | s3, v, c => { c with cookieReplyPacketJunkSize := v, hasCookieReplyPacketJunkSize := true }
  | s4, v, c => { c with transportPacketJunkSize := v, hasTransportPacketJunkSize := true }
  | h1, v, c => { c with
      initPacketMagicHeader := v.min
      initPacketMagicHeaderMax := v.max
      hasInitPacketMagicHeader := true }
  | h2, v, c => { c with
      responsePacketMagicHeader := v.min
      responsePacketMagicHeaderMax := v.max
      hasResponsePacketMagicHeader := true }
  | h3, v, c => { c with
      underloadPacketMagicHeader := v.min
      underloadPacketMagicHeaderMax := v.max
      hasUnderloadPacketMagicHeader := true }
  | h4, v, c => { c with
      transportPacketMagicHeader := v.min
      transportPacketMagicHeaderMax := v.max
      hasTransportPacketMagicHeader := true }
  | i1, v, c => { c with i1 := some v }
  | i2, v, c => { c with i2 := some v }
  | i3, v, c => { c with i3 := some v }
  | i4, v, c => { c with i4 := some v }
  | i5, v, c => { c with i5 := some v }
  | headerProtectionKey, v, c => { c with headerProtectionKey := some v }
  | contentPaddingAddition, v, c => { c with contentPaddingAddition := some v }
  | rekeyAfterTime, v, c => { c with rekeyAfterTime := some v }
  | rekeyTimeout, v, c => { c with rekeyTimeout := some v }
  | rejectAfterTime, v, c => { c with rejectAfterTime := some v }
  | keepaliveTimeout, v, c => { c with keepaliveTimeout := some v }
  | maxHandshakeAttempts, v, c => { c with maxHandshakeAttempts := some v }
  | randomTrailers, v, c => { c with randomTrailers := some v }
  | disableCookies, v, c => { c with disableCookies := some v }

/-- The condition under which `CreateIPCRequest` writes a key, and the value it writes. -/
def get : ∀ k : AwgKey, ASecConfigType w → Option (k.Value w)
  | jc, c => if c.hasJunkPacketCount then some c.junkPacketCount else none
  | jmin, c => if c.hasJunkPacketMinSize then some c.junkPacketMinSize else none
  | jmax, c => if c.hasJunkPacketMaxSize then some c.junkPacketMaxSize else none
  | s1, c => if c.hasInitPacketJunkSize then some c.initPacketJunkSize else none
  | s2, c => if c.hasResponsePacketJunkSize then some c.responsePacketJunkSize else none
  | s3, c => if c.hasCookieReplyPacketJunkSize then some c.cookieReplyPacketJunkSize else none
  | s4, c => if c.hasTransportPacketJunkSize then some c.transportPacketJunkSize else none
  | h1, c => if c.hasInitPacketMagicHeader then
      some ⟨c.initPacketMagicHeader, c.initPacketMagicHeaderMax⟩ else none
  | h2, c => if c.hasResponsePacketMagicHeader then
      some ⟨c.responsePacketMagicHeader, c.responsePacketMagicHeaderMax⟩ else none
  | h3, c => if c.hasUnderloadPacketMagicHeader then
      some ⟨c.underloadPacketMagicHeader, c.underloadPacketMagicHeaderMax⟩ else none
  | h4, c => if c.hasTransportPacketMagicHeader then
      some ⟨c.transportPacketMagicHeader, c.transportPacketMagicHeaderMax⟩ else none
  | i1, c => c.i1
  | i2, c => c.i2
  | i3, c => c.i3
  | i4, c => c.i4
  | i5, c => c.i5
  | headerProtectionKey, c => c.headerProtectionKey
  | contentPaddingAddition, c => c.contentPaddingAddition
  | rekeyAfterTime, c => c.rekeyAfterTime
  | rekeyTimeout, c => c.rekeyTimeout
  | rejectAfterTime, c => c.rejectAfterTime
  | keepaliveTimeout, c => c.keepaliveTimeout
  | maxHandshakeAttempts, c => c.maxHandshakeAttempts
  | randomTrailers, c => c.randomTrailers
  | disableCookies, c => c.disableCookies

end AwgKey

/-! ## Access by key -/

/-- The record whose set fields are given key by key, all others being zero values. -/
def ASecConfigType.ofFun (f : ∀ k : AwgKey, Option (k.Value w)) : ASecConfigType w where
  junkPacketCount := (f .jc).getD 0
  junkPacketMinSize := (f .jmin).getD 0
  junkPacketMaxSize := (f .jmax).getD 0
  initPacketJunkSize := (f .s1).getD 0
  responsePacketJunkSize := (f .s2).getD 0
  cookieReplyPacketJunkSize := (f .s3).getD 0
  transportPacketJunkSize := (f .s4).getD 0
  initPacketMagicHeader := ((f .h1).getD ⟨0, 0⟩).min
  initPacketMagicHeaderMax := ((f .h1).getD ⟨0, 0⟩).max
  responsePacketMagicHeader := ((f .h2).getD ⟨0, 0⟩).min
  responsePacketMagicHeaderMax := ((f .h2).getD ⟨0, 0⟩).max
  underloadPacketMagicHeader := ((f .h3).getD ⟨0, 0⟩).min
  underloadPacketMagicHeaderMax := ((f .h3).getD ⟨0, 0⟩).max
  transportPacketMagicHeader := ((f .h4).getD ⟨0, 0⟩).min
  transportPacketMagicHeaderMax := ((f .h4).getD ⟨0, 0⟩).max
  hasJunkPacketCount := (f .jc).isSome
  hasJunkPacketMinSize := (f .jmin).isSome
  hasJunkPacketMaxSize := (f .jmax).isSome
  hasInitPacketJunkSize := (f .s1).isSome
  hasResponsePacketJunkSize := (f .s2).isSome
  hasCookieReplyPacketJunkSize := (f .s3).isSome
  hasTransportPacketJunkSize := (f .s4).isSome
  hasInitPacketMagicHeader := (f .h1).isSome
  hasResponsePacketMagicHeader := (f .h2).isSome
  hasUnderloadPacketMagicHeader := (f .h3).isSome
  hasTransportPacketMagicHeader := (f .h4).isSome
  i1 := f .i1
  i2 := f .i2
  i3 := f .i3
  i4 := f .i4
  i5 := f .i5
  headerProtectionKey := f .headerProtectionKey
  contentPaddingAddition := f .contentPaddingAddition
  rekeyAfterTime := f .rekeyAfterTime
  rekeyTimeout := f .rekeyTimeout
  rejectAfterTime := f .rejectAfterTime
  keepaliveTimeout := f .keepaliveTimeout
  maxHandshakeAttempts := f .maxHandshakeAttempts
  randomTrailers := f .randomTrailers
  disableCookies := f .disableCookies

/-- `&ASecConfigType{}`: every field is a zero value. -/
def ASecConfigType.zero : ASecConfigType w := .ofFun fun _ => none

theorem ite_isSome_getD {α : Type} (o : Option α) (d : α) :
    (if o.isSome then some (o.getD d) else none) = o := by cases o <;> rfl

/-- The record is a table of its keys. -/
def aSecTable : FieldTable AwgKey (AwgKey.Value w) (ASecConfigType w) where
  ofFun := .ofFun
  set := AwgKey.set
  get := AwgKey.get
  set_ofFun k v f := by cases k <;> rfl
  get_ofFun k f := by
    cases k
    case jc | jmin | jmax | s1 | s2 | s3 | s4 => exact ite_isSome_getD _ 0
    case h1 | h2 | h3 | h4 => exact ite_isSome_getD _ (UintRange.mk 0 0)
    all_goals rfl

theorem AwgKey.eq_of_map_nodup {f : AwgKey → Text} (h : (AwgKey.all.map f).Nodup) :
    Function.Injective f :=
  fun a b hab => List.inj_on_of_nodup_map h (mem_all a) (mem_all b) hab

theorem AwgKey.ipcName_injective : Function.Injective ipcName :=
  eq_of_map_nodup (by decide +kernel)

/-- No two keys have names that differ in letter case only. -/
theorem AwgKey.toLower_name_injective : Function.Injective fun k => toLower (name k) :=
  eq_of_map_nodup (by decide +kernel)

theorem AwgKey.not_mem_ipcName (k : AwgKey) : '=' ∉ k.ipcName ∧ '\n' ∉ k.ipcName := by
  have hall : ∀ k ∈ all, '=' ∉ k.ipcName ∧ '\n' ∉ k.ipcName := by decide +kernel
  exact hall k (mem_all k)

/-! ## Texts of values -/

/-- The error of a value that does not parse, wrapped with the name of its key. -/
def invalidValue {α : Type} (name : Text) : Except Err α → Except Err α
  | .ok v => .ok v
  | .error e => .error (.wrap ((("invalid " : String) : Text) ++ name ++ (" value" : String)) e)

@[simp] theorem invalidValue_eq_ok_iff {α : Type} {name : Text} {r : Except Err α} {v : α} :
    invalidValue name r = .ok v ↔ r = .ok v := by
  cases r <;> simp [invalidValue]

namespace Kind

/-- The parser that `ParseASecConfig` applies to a key's text. -/
def parse (host : Host) (name : Text) : ∀ d : Kind, Text → Except Err (d.Value w)
  | int, t => keyInt t
  | range, t => invalidValue name (parseUintRange t)
  | text, t => .ok t
  | key, t => invalidValue name (encodeBase64ToHex t)
  | bool, t => invalidValue name (host.keyBool t)

/-- The text that `CreateIPCRequest` writes for a value. -/
def print : ∀ d : Kind, d.Value w → Text
  | int, v => GoInt.format v
  | range, v => UintRange.toText v
  | text, v => v
  | key, v => v
  | bool, v => if v then ("true" : String) else ("false" : String)

/-- The text in a configuration that stands for a text in a request: a key is written in base64
in the one and in hexadecimal digits in the other. -/
def configText : Kind → Text → Text
  | key, t => ((decodeHex t).map encodeBase64).getD t
  | _, t => t

/-- **A parsed value is read back from its own text.** -/
theorem parse_print {host : Host} {name : Text} {d : Kind} {t : Text} {v : d.Value w}
    (h : d.parse host name t = .ok v) : d.parse host name (d.configText (d.print v)) = .ok v := by
  cases d with
  | int => exact keyInt_format v
  | range =>
    have hr : parseUintRange t = .ok v := invalidValue_eq_ok_iff.1 h
    exact invalidValue_eq_ok_iff.2 (parseUintRange_toText (le_of_parseUintRange hr))
  | text => rfl
  | key =>
    obtain ⟨bytes, -, hlen, rfl⟩ := encodeBase64ToHex_eq_ok (invalidValue_eq_ok_iff.1 h)
    refine invalidValue_eq_ok_iff.2 ?_
    rw [configText, print, decodeHex_encodeHex]
    exact encodeBase64ToHex_encodeBase64 hlen
  | bool =>
    refine invalidValue_eq_ok_iff.2 ?_
    cases v with
    | false => exact host.keyBool_false
    | true => exact host.keyBool_true

/-- Only a text or a key can hold a newline. -/
theorem newline_not_mem_print {d : Kind} (v : d.Value w)
    (h : d = text ∨ d = key → '\n' ∉ d.print v) : '\n' ∉ d.print v := by
  cases d with
  | int => exact not_mem_decimal (by decide) (by decide) _
  | range => exact UintRange.newline_not_mem_toText v
  | text => exact h (.inl rfl)
  | key => exact h (.inr rfl)
  | bool =>
    have hb : ∀ b : Bool,
        '\n' ∉ if b then ("true" : String).toList else ("false" : String).toList := by
      decide
    exact hb v

end Kind

/-- The lines of given values, as pairs of a name in the request and a text. -/
def linesOf (f : ∀ k : AwgKey, Option (k.Value w)) : List (Text × Text) :=
  emit AwgKey.ipcName (fun k v => k.kind.print v) f AwgKey.all

/-- The AmneziaWG lines of the IPC request. -/
def aSecLines (c : ASecConfigType w) : List (Text × Text) := linesOf fun k => k.get c

end WireProxy.Awg
