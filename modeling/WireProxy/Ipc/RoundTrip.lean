import WireProxy.Awg.Parse
import WireProxy.Ipc.Request

/-!
# AmneziaWG parameters through the request and back

The parser of the `[Interface]` section and the writer of the IPC request treat the same keys, each
with its own table of names. This module composes them: from the AmneziaWG lines of a request a
section is built again (`sectionOfLines`), with every key renamed to its name in the configuration
and the header protection key written in base64.

* `lookKey_sectionOfLines`: the section that is built gives every key the value it had.
* `parseASecConfig_of_request`: parsing it returns the record that the request was written from.
-/

namespace WireProxy.Ipc

open Text Go Awg Config Record Control

variable {w : IntSize}

/-! ## A section from the lines of a request -/

/-- The AmneziaWG lines among the lines of a request. -/
def awgLines (lines : List (Text × Text)) : List (Text × Text) :=
  lines.filter fun l => (keyOfIpcName l.1).isSome

/-- The section with the parameters of the given lines. -/
def sectionOfLines (lines : List (Text × Text)) : Section :=
  lines.filterMap fun l =>
    (keyOfIpcName l.1).map fun k => (toLower k.name, k.kind.configText l.2)

theorem valuesOf_record (f : ∀ k : AwgKey, Option (k.Value w)) :
    valuesOf (record aSecTable f) = f :=
  funext record_bind_get

/-- The AmneziaWG lines of a request are those of its record. -/
theorem awgLines_request {conf : DeviceConfig w} {bs : List (List (Text × Text))}
    (hbs : List.Forall₂ (fun p b => peerBlock p = .ok b) conf.peers bs) :
    awgLines (deviceLines conf ++ bs.flatten) = linesOf (valuesOf conf.aSecConfig) := by
  have hpeers : bs.flatten.filter (fun l => (keyOfIpcName l.1).isSome) = [] := by
    refine List.filter_eq_nil_iff.2 fun l hl => ?_
    obtain ⟨b, hb, hlb⟩ := List.mem_flatten.1 hl
    obtain ⟨p, -, hpb⟩ := exists_of_mem_forall₂_right hbs hb
    obtain ⟨r, -, rfl⟩ := peerBlock_eq_ok_iff.1 hpb
    simp [keyOfIpcName_of_mem_peerKeys (name_of_mem_peerLines hlb)]
  have hport : (conf.listenPort.map fun p =>
      (("listen_port" : String).toList, GoInt.format p)).toList.filter
        (fun l => (keyOfIpcName l.1).isSome) = [] := by
    cases conf.listenPort with
    | none => rfl
    | some p => exact List.filter_cons_of_neg (by rw [keyOfIpcName_listen_port]; decide)
  have hawg : (linesOf (valuesOf conf.aSecConfig)).filter (fun l => (keyOfIpcName l.1).isSome) =
      linesOf (valuesOf conf.aSecConfig) := by
    refine List.filter_eq_self.2 fun l hl => ?_
    obtain ⟨k, -, v, -, rfl⟩ := mem_emit hl
    simp [keyOfIpcName_ipcName]
  rw [awgLines, deviceLines, List.cons_append,
    List.filter_cons_of_neg (by rw [keyOfIpcName_private_key]; decide), List.filter_append,
    List.filter_append, hport, hpeers, aSecLines_eq_linesOf, hawg]
  simp

theorem sectionOfLines_linesOf (f : ∀ k : AwgKey, Option (k.Value w)) :
    sectionOfLines (linesOf f) =
      emit (fun k => toLower k.name) (fun k v => k.kind.configText (k.kind.print v)) f
        AwgKey.all := by
  simp only [sectionOfLines, linesOf, emit, List.filterMap_filterMap]
  refine List.filterMap_congr fun k _ => ?_
  cases hk : f k with
  | none => rfl
  | some v => simp [keyOfIpcName_ipcName]

/-- **Every key gets its value back.** -/
theorem lookKey_sectionOfLines {host : Host} {s : Section}
    (h : ∀ k e, lookKey (w := w) host s k ≠ some (.error e)) (k : AwgKey) :
    lookKey (w := w) host (sectionOfLines (linesOf (found (lookKey (w := w) host s)))) k =
      lookKey host s k := by
  rw [sectionOfLines_linesOf, lookKey, Section.getKey,
    lookup_emit AwgKey.toLower_name_injective, if_pos k.mem_all]
  cases hl : lookKey (w := w) host s k with
  | none => simp [found, hl]
  | some res =>
    cases res with
    | error e => exact absurd hl (h k e)
    | ok v =>
      have hf : found (lookKey (w := w) host s) k = some v := by simp [found, hl]
      obtain ⟨t, -, ht⟩ := found_lookKey_eq_some_iff.1 hf
      simp [hf, Kind.parse_print ht]

/-- The parser reads a section through the values of its keys. -/
theorem parseASecConfig_congr {host : Host} {s s' : Section}
    (h : ∀ k, lookKey (w := w) host s k = lookKey host s' k) :
    parseASecConfig (w := w) host s = parseASecConfig host s' := by
  rw [parseASecConfig, parseASecConfig, funext h]

/-! ## The texts of a parsed record -/

theorem aSecNewlineFree_of_parse {host : Host} {s : Section} {c : ASecConfigType w}
    (h : parseASecConfig host s = .ok (some c))
    (hnl : ∀ k ∈ [AwgKey.i1, .i2, .i3, .i4, .i5], ∀ t, s.getKey k.name = some t → '\n' ∉ t) :
    ASecNewlineFree c := by
  obtain ⟨-, hc, -⟩ := parseASecConfig_eq_ok_iff.1 h
  have hget : ∀ k : AwgKey, k.get c = found (lookKey host s) k := fun k =>
    get_of_record_eq_some hc.symm k
  -- a text is taken over as it is, the header protection key is hexadecimal
  have htext : ∀ k : AwgKey, ∀ v : k.Value w, k.get c = some v →
      ∃ t, s.getKey k.name = some t ∧ k.kind.parse host k.name t = .ok v := fun k v hv =>
    found_lookKey_eq_some_iff.1 ((hget k).symm.trans hv)
  intro o ho t ht
  simp only [List.mem_cons, List.not_mem_nil, or_false] at ho
  rcases ho with rfl | rfl | rfl | rfl | rfl | rfl
  · obtain ⟨t', hk, ⟨⟩⟩ := htext .i1 t ht
    exact hnl .i1 (by simp) t hk
  · obtain ⟨t', hk, ⟨⟩⟩ := htext .i2 t ht
    exact hnl .i2 (by simp) t hk
  · obtain ⟨t', hk, ⟨⟩⟩ := htext .i3 t ht
    exact hnl .i3 (by simp) t hk
  · obtain ⟨t', hk, ⟨⟩⟩ := htext .i4 t ht
    exact hnl .i4 (by simp) t hk
  · obtain ⟨t', hk, ⟨⟩⟩ := htext .i5 t ht
    exact hnl .i5 (by simp) t hk
  · obtain ⟨t', -, hp⟩ := htext .headerProtectionKey t ht
    obtain ⟨bytes, -, -, rfl⟩ := encodeBase64ToHex_eq_ok (invalidValue_eq_ok_iff.1 hp)
    exact newline_not_mem_encodeHex bytes

/-! ## The round trip -/

/-- The record of a successful parse is missing iff no key is present. -/
theorem parse_eq_none_iff {host : Host} {s : Section} {c : Option (ASecConfigType w)}
    (h : parseASecConfig host s = .ok c) : c = none ↔ ∀ k : AwgKey, s.getKey k.name = none := by
  obtain ⟨hok, rfl, -⟩ := parseASecConfig_eq_ok_iff.1 h
  rw [record_eq_none_iff]
  refine forall_congr' fun k => ?_
  rw [← Option.not_isSome_iff_eq_none, isSome_found_lookKey (hok k), Option.not_isSome_iff_eq_none]

/-- **Parsing and writing the parameters are inverse.** For a section that parses: the record holds
exactly the present keys, each with the value of its own text; every request written from the record
has one AmneziaWG line for each present key; and the section built from these lines parses to the
same record. -/
theorem parseASecConfig_of_request {host : Host} {s : Section} {c : Option (ASecConfigType w)}
    (h : parseASecConfig host s = .ok c)
    (hnl : ∀ k ∈ [AwgKey.i1, .i2, .i3, .i4, .i5], ∀ t, s.getKey k.name = some t → '\n' ∉ t) :
    ((c = none ↔ ∀ k : AwgKey, s.getKey k.name = none) ∧
      ∀ c', c = some c' → ∀ k : AwgKey, (k.get c').isSome = (s.getKey k.name).isSome ∧
        ∀ v, k.get c' = some v →
          ∃ t, s.getKey k.name = some t ∧ k.kind.parse host k.name t = .ok v) ∧
    ∀ (conf : DeviceConfig w) setting, conf.aSecConfig = c → '\n' ∉ conf.secretKey →
      (∀ p ∈ conf.peers, PeerNewlineFree p) → createIPCRequest conf = .ok setting →
      ∃ lines, (readLines setting.ipcRequest).map awgLines = some lines ∧
        lines.map Prod.fst =
          (AwgKey.all.filter fun k => (s.getKey k.name).isSome).map AwgKey.ipcName ∧
        parseASecConfig host (sectionOfLines lines) = .ok c := by
  obtain ⟨hok, hc, -⟩ := parseASecConfig_eq_ok_iff.1 h
  refine ⟨⟨parse_eq_none_iff h, ?_⟩, ?_⟩
  · rintro c' rfl k
    have hget : k.get c' = found (lookKey host s) k := get_of_record_eq_some hc.symm k
    rw [hget]
    exact ⟨isSome_found_lookKey (hok k), fun v hv => found_lookKey_eq_some_iff.1 hv⟩
  · intro conf setting hconf hsecret hpeers hreq
    obtain ⟨bs, hbs, rfl⟩ := createIPCRequest_eq_ok_iff.1 hreq
    have hfree : NewlineFree conf := by
      refine ⟨hsecret, fun c' hc' => ?_, hpeers⟩
      rw [hconf] at hc'
      exact aSecNewlineFree_of_parse (hc' ▸ h) hnl
    have hvals : valuesOf conf.aSecConfig = found (lookKey host s) := by
      rw [hconf, hc, valuesOf_record]
    refine ⟨_, by rw [readLines_ipcRequest hfree hbs, Option.map_some, awgLines_request hbs],
      ?_, ?_⟩
    · rw [linesOf, map_fst_emit, hvals]
      refine congrArg (List.map AwgKey.ipcName) (List.filter_congr fun k _ => ?_)
      exact isSome_found_lookKey (hok k)
    · rw [hvals, ← h]
      exact parseASecConfig_congr (lookKey_sectionOfLines hok)

/-- A section with a parameter of each kind but the key. -/
def sampleSection : Section :=
  [("jc", "5"), ("h1", "7-9"), ("i1", "<b 0x01>"), ("randomtrailers", "true")]

theorem parseASecConfig_of_request_sample :
    ∃ c, parseASecConfig (w := .bits64) Host.bare sampleSection = .ok c ∧
      ∃ lines : List (Text × Text),
        lines.map Prod.fst = [("jc" : String).toList, ("h1" : String).toList,
          ("i1" : String).toList, ("random_trailers" : String).toList] ∧
        parseASecConfig Host.bare (sectionOfLines lines) = .ok c := by
  obtain ⟨c, hc⟩ : ∃ c, parseASecConfig (w := .bits64) Host.bare sampleSection = .ok c := ⟨_, rfl⟩
  have hnl : ∀ k ∈ [AwgKey.i1, .i2, .i3, .i4, .i5], ∀ t ∈ sampleSection.getKey k.name,
      '\n' ∉ t := by decide
  obtain ⟨lines, -, hnames, hparse⟩ := (parseASecConfig_of_request hc hnl).2
    ⟨[], [], [], [], 1420, none, [], 5, c⟩ _ rfl (by simp) (by simp) rfl
  exact ⟨c, hc, lines, hnames.trans (by decide), hparse⟩

end WireProxy.Ipc
