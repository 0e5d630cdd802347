import WireProxy.Config.Types

/-!
# What the routines do on the host

`parseAddressPort`, and the TCP operations on the host that the implementations of `SpawnRoutine`
perform from their configured addresses. What goes through the tunnel is no operation on the host.

* `isOk_parseAddressPort_iff`: exactly the addresses with a port number are accepted.
* `spawnRoutine` is the list of the operations of a routine.
-/

namespace WireProxy.Routine

open Text Go Config Control

variable {w : IntSize}

/-! ## Endpoints -/

/-- `addressPort`. -/
structure AddressPort where
  address : Text
  port : UInt16
  deriving DecidableEq

/-- `parseAddressPort`, where an `int` has the given size. -/
def parseAddressPort (w : IntSize) (endpoint : Text) : Except Err AddressPort :=
  match splitHostPort endpoint with
  | .error e => .error (.addr e)
  | .ok (name, sport) =>
    match atoi (w := w) sport with
    | .error _ => .error (.msg "dial: port must be numeric")
    | .ok port =>
      if port.toInt < 0 ∨ port.toInt > 65535 then .error (.msg "dial: port must be numeric")
      else .ok ⟨name, port.toUint16⟩

/-- An accepted address writes the port that is returned. -/
theorem writtenPort_of_parseAddressPort {endpoint : Text} {raddr : AddressPort}
    (h : parseAddressPort w endpoint = .ok raddr) :
    writtenPort endpoint = some (raddr.port.toNat : ℤ) := by
  unfold parseAddressPort at h
  split at h
  · cases h
  · rename_i name sport hsplit
    rw [writtenPort_of_splitHostPort hsplit]
    split at h
    · cases h
    · rename_i port hatoi
      rw [ite_error_eq_ok_iff, Except.ok.injEq] at h
      obtain ⟨hrange, rfl⟩ := h
      dsimp only
      rw [atoi_eq_ok_iff.1 hatoi, GoInt.toNat_toUint16 rfl]
      congr 1
      omega

/-- An address that writes a port number is accepted. -/
theorem parseAddressPort_of_written {endpoint : Text} {n : ℕ}
    (h : writtenPort endpoint = some (n : ℤ)) (hn : n ≤ 65535) :
    ∃ raddr, parseAddressPort w endpoint = .ok raddr ∧ raddr.port.toNat = n := by
  unfold writtenPort at h
  split at h
  · cases h
  · rename_i name sport hsplit
    obtain ⟨v, hint⟩ := GoInt.exists_toInt_eq hn w
    have hatoi : atoi sport = .ok v := atoi_eq_ok_iff.2 (h.trans (congrArg some hint.symm))
    refine ⟨⟨name, v.toUint16⟩, ?_, ?_⟩
    · unfold parseAddressPort
      rw [hsplit]
      dsimp only
      rw [hatoi]
      dsimp only
      rw [if_neg (by omega)]
    · rw [GoInt.toNat_toUint16 hint]
      omega

/-- **`parseAddressPort` accepts exactly the addresses with a port number.** -/
theorem isOk_parseAddressPort_iff {endpoint : Text} :
    (parseAddressPort w endpoint).isOk = true ↔
      ∃ n : ℕ, writtenPort endpoint = some (n : ℤ) ∧ n ≤ 65535 := by
  constructor
  · intro h
    obtain ⟨raddr, hok⟩ := exists_eq_ok_of_isOk h
    exact ⟨raddr.port.toNat, writtenPort_of_parseAddressPort hok,
      Nat.le_of_lt_succ raddr.port.toNat_lt⟩
  · rintro ⟨n, hwritten, hn⟩
    obtain ⟨raddr, hok, -⟩ := parseAddressPort_of_written (w := w) hwritten hn
    rw [hok]
    rfl

/-! ## Operations on the host -/

/-- A TCP operation on the host. -/
inductive Operation
  | listen (port : ℕ)
  | connect (port : ℕ)
  deriving DecidableEq

/-- The TCP operations on the host that `SpawnRoutine` performs from the configured addresses. A
target that is not accepted ends the program before the routine does anything. -/
def spawnRoutine (services : Text → Option ℕ) : RoutineSpawner w → List Operation
  | .tcpClientTunnel conf =>
    match parseAddressPort w conf.target with
    | .error _ => []
    | .ok _ => [.listen conf.bindAddress.port]
  | .stdioTunnel _ => []
  | .tcpServerTunnel conf =>
    match parseAddressPort w conf.target with
    | .error _ => []
    | .ok raddr => [.connect raddr.port.toNat]
  | .socks5 config => ((listenPort services config.bindAddress).map .listen).toList
  | .http config => ((listenPort services config.bindAddress).map .listen).toList
  | .udpProxyTunnel _ => []

end WireProxy.Routine
