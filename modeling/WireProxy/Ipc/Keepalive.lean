import WireProxy.Ipc.Peers

/-!
# The keepalive range of a peer

`persistentKeepaliveRange` takes the range that `ParsePeers` has cached in a peer, if it still
agrees with the two public fields, and otherwise checks the fields. On 32 bits a bound above the
range of `int` is a negative number in its field, so that only the cache knows it.

* `checked_byFields`: the checks read the fields as the numbers they are.
* `range_of_fresh`: a cache that agrees with the fields has their numbers modulo `2 ^ 32`.
* `keepalive_cache`: the cache never changes the meaning of the fields.
-/

namespace WireProxy.Ipc

open Text Go Awg Config Control

variable {w : IntSize}

/-! ## The fields -/

/-- The number is no `uint32`. -/
def OutOfRange (v : ℤ) : Prop := v < 0 ∨ v > 4294967295

/-- The fields of the peer are the bounds of its cached range, converted to `int`. -/
def Fresh (peer : PeerConfig w) : Prop := ∃ r ∈ peer.keepAliveRange,
  GoInt.ofUint32 r.min = peer.keepAlive ∧ GoInt.ofUint32 r.max = peer.keepAliveMax

/-- The range of a peer is read from its fields. -/
structure ByFields (peer : PeerConfig w) : Prop where
  eq_none : persistentKeepaliveRange peer =
    persistentKeepaliveRange { peer with keepAliveRange := none }
  error_iff : (∃ e, persistentKeepaliveRange peer = .error e) ↔
    OutOfRange peer.keepAlive.toInt ∨ OutOfRange peer.keepAliveMax.toInt
  bounds : ∀ r, persistentKeepaliveRange peer = .ok r → (r.min.toNat : ℤ) = peer.keepAlive.toInt ∧
    (r.max.toNat : ℤ) = max peer.keepAlive.toInt peer.keepAliveMax.toInt

theorem toUint32_eq_iff {x : GoInt w} {n : UInt32} (hx : ¬ OutOfRange x.toInt) :
    x.toUint32 = n ↔ (n.toNat : ℤ) = x.toInt := by
  have hmod := x.toNat_toUint32
  unfold OutOfRange at hx
  rw [← UInt32.toNat_inj]
  omega

section Checked

variable {peer : PeerConfig w}

/-- **What the checks return.** -/
theorem checkedKeepaliveRange_eq_ok_iff {r : UintRange} :
    checkedKeepaliveRange peer = .ok r ↔
      ¬ OutOfRange peer.keepAlive.toInt ∧ ¬ OutOfRange peer.keepAliveMax.toInt ∧
        (r.min.toNat : ℤ) = peer.keepAlive.toInt ∧
        (r.max.toNat : ℤ) = max peer.keepAlive.toInt peer.keepAliveMax.toInt := by
  rcases r with ⟨lo, hi⟩
  rw [checkedKeepaliveRange, ite_error_eq_ok_iff, ite_error_eq_ok_iff]
  refine and_congr_right fun hmin => and_congr_right fun hmax => ?_
  split
  · rename_i hlt
    rw [max_eq_right hlt.le, Except.ok.injEq, UintRange.mk.injEq, toUint32_eq_iff hmin,
      toUint32_eq_iff hmax]
  · rename_i hle
    rw [max_eq_left (not_lt.1 hle), Except.ok.injEq, UintRange.mk.injEq, toUint32_eq_iff hmin,
      toUint32_eq_iff hmin]

/-- A peer whose range comes from the checks. -/
theorem checked_byFields (h : persistentKeepaliveRange peer = checkedKeepaliveRange peer) :
    ByFields peer where
  eq_none := h
  error_iff := by
    rw [h]
    constructor
    · rintro ⟨e, he⟩
      by_contra hin
      rw [not_or] at hin
      unfold OutOfRange at hin
      rw [checkedKeepaliveRange, if_neg hin.1, if_neg hin.2] at he
      split at he <;> cases he
    · intro hout
      cases hr : checkedKeepaliveRange peer with
      | error e => exact ⟨e, rfl⟩
      | ok r =>
        obtain ⟨hmin, hmax, -⟩ := checkedKeepaliveRange_eq_ok_iff.1 hr
        exact absurd hout (not_or.2 ⟨hmin, hmax⟩)
  bounds r hr := (checkedKeepaliveRange_eq_ok_iff.1 (h ▸ hr)).2.2

/-! ## The cache -/

theorem persistentKeepaliveRange_of_not_fresh (h : ¬ Fresh peer) :
    persistentKeepaliveRange peer = checkedKeepaliveRange peer := by
  unfold persistentKeepaliveRange
  split
  · rfl
  · rename_i r hr
    exact if_neg fun hagree => h ⟨r, hr, hagree⟩

/-- A cached range that agrees with the fields is the result, and has their numbers modulo
`2 ^ 32`. -/
theorem range_of_fresh (h : Fresh peer) : ∃ r ∈ peer.keepAliveRange,
    persistentKeepaliveRange peer = .ok r ∧ GoInt.ofUint32 r.min = peer.keepAlive ∧
      GoInt.ofUint32 r.max = peer.keepAliveMax := by
  obtain ⟨r, hr, hagree⟩ := h
  refine ⟨r, hr, ?_, hagree⟩
  rw [persistentKeepaliveRange, Option.mem_def.1 hr]
  exact if_pos hagree

/-- On 64 bits a cache that agrees with the fields says what the checks say. -/
theorem eq_checked_of_bits64 {peer : PeerConfig .bits64}
    (hcache : ∀ r ∈ peer.keepAliveRange, r.min ≤ r.max) :
    persistentKeepaliveRange peer = checkedKeepaliveRange peer := by
  by_cases hfresh : Fresh peer
  · obtain ⟨r, hr, hok, hmin, hmax⟩ := range_of_fresh hfresh
    have hexact (n : UInt32) : (GoInt.ofUint32 n : GoInt .bits64).toInt = n.toNat := by
      have hlt := n.toNat_lt
      exact GoInt.toInt_ofInt_eq_iff.2 (fits_bits64_iff.2 ⟨by omega, by omega⟩)
    have hle := UInt32.le_iff_toNat_le.1 (hcache r hr)
    have hlt := r.max.toNat_lt
    rw [hok, eq_comm, checkedKeepaliveRange_eq_ok_iff, ← hmin, ← hmax, hexact, hexact]
    unfold OutOfRange
    omega
  · exact persistentKeepaliveRange_of_not_fresh hfresh

/-- The range of any peer, in terms of its fields modulo `2 ^ 32`. -/
theorem range_modEq (hcache : ∀ r ∈ peer.keepAliveRange, r.min ≤ r.max) {r : UintRange}
    (hok : persistentKeepaliveRange peer = .ok r) :
    r.min ≤ r.max ∧ (r.min.toNat : ℤ) ≡ peer.keepAlive.toInt [ZMOD 2 ^ 32] ∧
      ((r.max.toNat : ℤ) ≡ peer.keepAliveMax.toInt [ZMOD 2 ^ 32] ∨ r.max = r.min) := by
  by_cases hfresh : Fresh peer
  · obtain ⟨r', hr', hok', hmin, hmax⟩ := range_of_fresh hfresh
    obtain rfl : r' = r := Except.ok.inj (hok'.symm.trans hok)
    have hmod (n : UInt32) : (n.toNat : ℤ) ≡ (GoInt.ofUint32 n : GoInt w).toInt [ZMOD 2 ^ 32] := by
      rw [← GoInt.toInt_ofUint32_emod (w := w) n]
      exact Int.mod_modEq _ _
    rw [← hmin, ← hmax]
    exact ⟨hcache r' hr', hmod r'.min, .inl (hmod r'.max)⟩
  · rw [persistentKeepaliveRange_of_not_fresh hfresh, checkedKeepaliveRange_eq_ok_iff] at hok
    obtain ⟨-, -, hmin, hmax⟩ := hok
    refine ⟨UInt32.le_iff_toNat_le.2 (by omega), by rw [hmin], ?_⟩
    rcases le_total peer.keepAlive.toInt peer.keepAliveMax.toInt with hle | hle
    · rw [max_eq_right hle] at hmax
      exact .inl (by rw [hmax])
    · rw [max_eq_left hle] at hmax
      exact .inr (UInt32.toNat_inj.1 (by omega))

end Checked

/-- **The cached range never changes the meaning of the fields.** Of peers whose cache, if any, has
its bounds in order:

* the range has its bounds in order, and they are the fields modulo `2 ^ 32`, or both the first one;
* on 64 bits the range is read from the fields, as if there was no cache;
* on 32 bits so is that of a peer whose fields are not the bounds of its cache;
* a peer that `ParsePeers` has added has the range that its section writes. -/
theorem keepalive_cache :
    (∀ peer : PeerConfig w, (∀ r ∈ peer.keepAliveRange, r.min ≤ r.max) →
      ∀ r, persistentKeepaliveRange peer = .ok r →
        r.min ≤ r.max ∧ (r.min.toNat : ℤ) ≡ peer.keepAlive.toInt [ZMOD 2 ^ 32] ∧
          ((r.max.toNat : ℤ) ≡ peer.keepAliveMax.toInt [ZMOD 2 ^ 32] ∨ r.max = r.min)) ∧
    (∀ peer : PeerConfig .bits64, (∀ r ∈ peer.keepAliveRange, r.min ≤ r.max) → ByFields peer) ∧
    (∀ peer : PeerConfig .bits32, (∀ r ∈ peer.keepAliveRange, r.min ≤ r.max) → ¬ Fresh peer →
      ByFields peer) ∧
    ∀ (host : Host) (cfg : File) (peers peers' : List (PeerConfig w)),
      parsePeers host cfg peers = .ok peers' → ∃ new, peers' = peers ++ new ∧
        List.Forall₂ (fun s peer => ∃ r, WritesKeepalive s r ∧
          persistentKeepaliveRange peer = .ok r) (cfg.sectionsByName "Peer") new := by
  refine ⟨fun _ hcache _ => range_modEq hcache,
    fun _ hcache => checked_byFields (eq_checked_of_bits64 hcache),
    fun _ _ hstale => checked_byFields (persistentKeepaliveRange_of_not_fresh hstale), ?_⟩
  intro host cfg peers peers' hok
  rw [parsePeers, ite_error_eq_ok_iff, appendAll_eq_ok_iff] at hok
  obtain ⟨-, new, hnew, rfl⟩ := hok
  refine ⟨new, rfl, hnew.imp fun s peer hpeer => ?_⟩
  have hparsed := parsedFrom_of_parsePeer hpeer
  exact ⟨_, hparsed.keepalive, persistentKeepaliveRange_of_parsedFrom hparsed⟩

end WireProxy.Ipc
