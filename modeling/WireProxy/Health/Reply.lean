import WireProxy.Health.Ping

/-!
# The replies to pings

What the goroutine of a ping makes of the bytes that its socket returns. The bytes of a reply of
version 6 are parsed as a message of version 4, where the type of an echo reply of version 6 is not
known, and its body is then taken apart by hand.

* `parseMessage` is `icmp.ParseMessage` for ICMP version 4, as far as the goroutine depends on it.
* `checkReply_eq_none_iff`: the goroutine panics on a message of version 6 that is too short for the
  slices of its body. `eq_of_checkReply`: what is recorded is the reply to the request.
* `replies_checked_iff` puts them together, with the replies that must be recorded.
-/

namespace WireProxy.Health

open Text Go Netip

/-! ## Messages -/

/-- What the parser of the messages does with the types of which the goroutine knows nothing. -/
structure IcmpLib where
  /-- The types, besides the two of an echo, that have a parser of their own. -/
  known : UInt8 → Bool
  /-- Whether that parser accepts a message. -/
  accepts : Bytes → Bool
  /-- The echo reply of version 6 is not among the types of version 4. -/
  unknown : known 129 = false

/-- The type of a message. -/
def messageType (b : Bytes) : UInt8 := b.getD 0 0

/-- The sequence number of an echo message, in its bytes 6 and 7. -/
def messageSeq (b : Bytes) : ℕ := (b.getD 6 0).toNat * 256 + (b.getD 7 0).toNat

/-- `icmp.ParseMessage(1, b)`. -/
def parseMessage (lib : IcmpLib) (b : Bytes) : Option Body :=
  if b.length < 4 then none
  else if messageType b = 0 ∨ messageType b = 8 then
    if b.length < 8 then none else some (.echo (messageSeq b) (b.drop 8))
  else if lib.known (messageType b) then if lib.accepts b then some .other else none
  else some (.raw (b.drop 4))

/-- The echo reply to a request, with any code, checksum and identifier. -/
def echoReply (addr : Addr) (request : Echo) (code check check' ident ident' : UInt8) : Bytes :=
  (if addr.is4 then 0 else 129) :: code :: check :: check' :: ident :: ident' ::
    UInt8.ofNat (request.seq / 256) :: UInt8.ofNat request.seq :: request.data

/-- A message with a type that is not known, and a body that is too short for its slices. -/
def ShortRaw (lib : IcmpLib) (addr : Addr) (b : Bytes) : Prop :=
  addr.is6 ∧ 4 ≤ b.length ∧ b.length < 8 ∧ messageType b ≠ 0 ∧ messageType b ≠ 8 ∧
    lib.known (messageType b) = false

/-! ## What the goroutine makes of them -/

section Check

variable {lib : IcmpLib} {addr : Addr} {request : Echo} {b : Bytes}

theorem parseMessage_eq_raw_iff {data : Bytes} :
    parseMessage lib b = some (.raw data) ↔
      4 ≤ b.length ∧ messageType b ≠ 0 ∧ messageType b ≠ 8 ∧ lib.known (messageType b) = false ∧
        b.drop 4 = data := by
  unfold parseMessage
  split
  · simp only [reduceCtorEq, false_iff]
    omega
  · rename_i hlen
    split
    · rename_i htype
      refine iff_of_false (fun h => ?_) (by tauto)
      split at h <;> cases h
    · rename_i htype
      rw [not_or] at htype
      split
      · rename_i hknown
        refine iff_of_false (fun h => ?_) (by simp [hknown])
        split at h <;> cases h
      · rename_i hknown
        simp [htype, hknown, not_lt.1 hlen]

theorem parseMessage_eq_echo_iff {seq : ℕ} {data : Bytes} :
    parseMessage lib b = some (.echo seq data) ↔
      8 ≤ b.length ∧ (messageType b = 0 ∨ messageType b = 8) ∧ messageSeq b = seq ∧
        b.drop 8 = data := by
  unfold parseMessage
  split
  · simp only [reduceCtorEq, false_iff]
    omega
  · split
    · rename_i htype
      split
      · simp only [reduceCtorEq, false_iff]
        omega
      · rename_i hlen
        simp [htype, not_lt.1 hlen]
    · rename_i htype
      refine iff_of_false (fun h => ?_) (by tauto)
      split at h
      · split at h <;> cases h
      · cases h

/-- The sequence number in a raw body is that of the message. -/
theorem rawSeq_drop (b : Bytes) : rawSeq (b.drop 4) = messageSeq b := by
  simp [rawSeq, messageSeq, List.getD_eq_getElem?_getD, List.getElem?_drop]

/-- **When the goroutine panics.** -/
theorem checkReply_eq_none_iff (request : Echo) :
    checkReply addr request (parseMessage lib b) = none ↔ ShortRaw lib addr b := by
  unfold ShortRaw
  cases hbody : parseMessage lib b with
  | none =>
    refine iff_of_false (by simp [checkReply]) ?_
    rintro ⟨-, hlen, -, h0, h8, hknown⟩
    have hraw := parseMessage_eq_raw_iff.2 ⟨hlen, h0, h8, hknown, rfl⟩
    rw [hbody] at hraw
    cases hraw
  | some body =>
    cases body with
    | raw data =>
      obtain ⟨hlen, h0, h8, hknown, rfl⟩ := parseMessage_eq_raw_iff.1 hbody
      cases addr with
      | zero => simp [checkReply, Addr.is6]
      | v4 => simp [checkReply, Addr.is6]
      | v6 groups zone =>
        simp only [checkReply, Addr.is6, ite_eq_left_iff, reduceCtorEq, imp_false, not_not,
          List.length_drop, true_and, hlen, h0, h8, hknown, ne_eq, not_false_eq_true, and_true]
        omega
    | echo | other =>
      refine iff_of_false (by cases addr <;> simp [checkReply]) ?_
      rintro ⟨-, hlen, -, h0, h8, hknown⟩
      have hraw := parseMessage_eq_raw_iff.2 ⟨hlen, h0, h8, hknown, rfl⟩
      rw [hbody] at hraw
      cases hraw

/-- **What is recorded is the reply to the request.** -/
theorem eq_of_checkReply (haddr : addr ≠ .zero)
    (h : checkReply addr request (parseMessage lib b) = some true) :
    messageSeq b = request.seq ∧ b.drop 8 = request.data := by
  cases hbody : parseMessage lib b with
  | none => simp [hbody, checkReply] at h
  | some body =>
    rw [hbody] at h
    cases addr with
    | zero => exact absurd rfl haddr
    | v4 =>
      cases body with
      | echo seq data =>
        obtain ⟨-, -, rfl, rfl⟩ := parseMessage_eq_echo_iff.1 hbody
        simpa [checkReply, and_comm] using h
      | raw | other => simp [checkReply] at h
    | v6 =>
      cases body with
      | raw data =>
        obtain ⟨-, -, -, -, rfl⟩ := parseMessage_eq_raw_iff.1 hbody
        simp only [checkReply, Option.ite_none_left_eq_some, Option.some.injEq,
          decide_eq_true_eq, List.drop_drop, rawSeq_drop] at h
        exact ⟨h.2.2, h.2.1⟩
      | echo | other => simp [checkReply] at h

/-- **The echo reply is recorded.** -/
theorem checkReply_echoReply (haddr : addr ≠ .zero) (hseq : request.seq < 2 ^ 16)
    (code check check' ident ident' : UInt8) :
    checkReply addr request
      (parseMessage lib (echoReply addr request code check check' ident ident')) = some true := by
  have hnumber : (UInt8.ofNat (request.seq / 256)).toNat * 256 +
      (UInt8.ofNat request.seq).toNat = request.seq := by
    rw [UInt8.toNat_ofNat', UInt8.toNat_ofNat']
    omega
  cases addr with
  | zero => exact absurd rfl haddr
  | v4 x y z t =>
    have hbody : parseMessage lib (echoReply (.v4 x y z t) request code check check' ident ident') =
        some (.echo request.seq request.data) :=
      parseMessage_eq_echo_iff.2 ⟨by simp [echoReply], .inl rfl, hnumber, rfl⟩
    rw [hbody]
    simp [checkReply]
  | v6 groups zone =>
    have hbody : parseMessage lib
        (echoReply (.v6 groups zone) request code check check' ident ident') =
        some (.raw (ident :: ident' :: UInt8.ofNat (request.seq / 256) ::
          UInt8.ofNat request.seq :: request.data)) :=
      parseMessage_eq_raw_iff.2 ⟨by simp [echoReply], by simp [echoReply, messageType, Addr.is4],
        by simp [echoReply, messageType, Addr.is4], lib.unknown, rfl⟩
    have hraw : rawSeq (ident :: ident' :: UInt8.ofNat (request.seq / 256) ::
        UInt8.ofNat request.seq :: request.data) = request.seq := hnumber
    rw [hbody]
    simp [checkReply, hraw]

end Check

/-- **How the replies to pings are checked.** For every request to an address, with a payload of 16
bytes, and every message of at most 24 bytes that the socket returns: the goroutine does not panic,
and records only the reply to its request, iff the message is not a short one of an unknown type for
an address of version 6. The echo reply is recorded for either version. -/
theorem replies_checked_iff {addr : Addr} (haddr : addr.is4 ∨ addr.is6) {request : Echo}
    (hdata : request.data.length = 16) (hseq : request.seq < 2 ^ 16) (lib : IcmpLib) :
    (∀ b : Bytes, b.length ≤ 24 →
      ((checkReply addr request (parseMessage lib b) ≠ none ∧
        (checkReply addr request (parseMessage lib b) = some true →
          messageSeq b = request.seq ∧ b.drop 8 = request.data)) ↔ ¬ ShortRaw lib addr b)) ∧
    ∀ code check check' ident ident' : UInt8,
      (echoReply addr request code check check' ident ident').length = 24 ∧
      checkReply addr request
        (parseMessage lib (echoReply addr request code check check' ident ident')) = some true := by
  have hne : addr ≠ .zero := by
    rintro rfl
    simp [Addr.is4, Addr.is6] at haddr
  refine ⟨fun b _ => ?_, fun code check check' ident ident' =>
    ⟨by simp [echoReply, hdata], checkReply_echoReply hne hseq code check check' ident ident'⟩⟩
  rw [← checkReply_eq_none_iff request]
  exact and_iff_left (eq_of_checkReply hne)

/-- A parser of messages that knows no types but the two of an echo. -/
def echoLib : IcmpLib := ⟨fun _ => false, fun _ => false, rfl⟩

/-- An address of version 6. -/
def checkedAddr : Addr := .v6 ⟨[0x2001, 0xdb8, 0, 0, 0, 0, 0, 1], rfl⟩ []

/-- A request. -/
def seventhPing : Echo := ⟨7, List.replicate 16 1⟩

/-- A message of nine bytes is no short one: it is refused. -/
theorem replies_checked_iff_nineBytes :
    checkReply checkedAddr seventhPing
      (parseMessage echoLib [129, 0, 0, 0, 0, 0, 0, 7, 1]) = some false := by
  have haddr : checkedAddr.is4 ∨ checkedAddr.is6 := .inr rfl
  have hdata : seventhPing.data.length = 16 := rfl
  have hseq : seventhPing.seq < 2 ^ 16 := by decide
  obtain ⟨hnone, hsound⟩ := ((replies_checked_iff haddr hdata hseq echoLib).1
    [129, 0, 0, 0, 0, 0, 0, 7, 1] (by decide)).2 fun h => absurd h.2.2.1 (by decide)
  obtain ⟨valid, hvalid⟩ := Option.ne_none_iff_exists'.1 hnone
  cases valid with
  | false => exact hvalid
  | true => exact absurd (hsound hvalid).2 (by decide)

/-- The header of an echo reply without a body ends the process. -/
theorem short_reply_panics :
    checkReply checkedAddr seventhPing (parseMessage echoLib [129, 0, 0, 0]) = none := by
  have hraw : parseMessage echoLib [129, 0, 0, 0] = some (.raw []) :=
    parseMessage_eq_raw_iff.2 ⟨by decide, by decide, by decide, echoLib.unknown, rfl⟩
  rw [hraw]
  rfl

end WireProxy.Health
