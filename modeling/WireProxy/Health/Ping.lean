import WireProxy.Foundations.Transition.History
import WireProxy.Health.Server

/-!
# The pings

`StartPingIPs`, `pingIPs` and the goroutines that wait for the replies, as a transition function,
with the requests to `/readyz` in between. The updates of the record are made under a lock and are
atomic, as is a request; the wall clock moves forward between the steps.

* `checkReply` is what a goroutine checks of a reply, and `Answers` what a valid reply is.
* `step` is the transition function and `event` what is seen of a step: the replies that are read,
  the second that a valid reply is recorded with, and the answers to requests.
* `effect_of_step` says what a step can do.
* `Recorded` is the invariant of the record: it has the texts of the addresses as keys, and the
  second of the latest reply that was recorded, or zero, as the value of each. `Answered` is that of
  the pings: none is verified, and nothing recorded, without a valid reply before.
* `readyz_truthful` states what this means for the record and for the answers.
-/

namespace WireProxy.Health

open Text Go Netip Config Transition

variable {w : IntSize}

/-! ## Replies -/

/-- The `icmp.Echo` of a request. -/
structure Echo where
  seq : ℕ
  data : Bytes
  deriving DecidableEq

/-- The request is one that `pingIPs` draws: 16 random bytes and a number of 16 bits. -/
def Echo.Drawn (request : Echo) : Prop := request.data.length = 16 ∧ request.seq < 2 ^ 16

instance (request : Echo) : Decidable request.Drawn :=
  inferInstanceAs (Decidable (_ ∧ _))

/-- The body of a reply, as `icmp.ParseMessage` returns it for ICMP version 4. -/
inductive Body
  /-- An `*icmp.Echo`. -/
  | echo (seq : ℕ) (data : Bytes)
  /-- An `*icmp.RawBody`, which a reply of version 6 has. -/
  | raw (data : Bytes)
  | other
  deriving DecidableEq

/-- `binary.BigEndian.Uint16(data[2:4])`. -/
def rawSeq (data : Bytes) : ℕ := (data.getD 2 0).toNat * 256 + (data.getD 3 0).toNat

/-- Whether a reply is valid, for a message that cannot be parsed (`none`) or its body. There is no
result if a raw body is too short for its slices, where the goroutine panics. -/
def checkReply (addr : Addr) (request : Echo) (reply : Option Body) : Option Bool :=
  match reply with
  | none => some false
  | some body =>
    match addr, body with
    | .v4 _ _ _ _, .echo seq data => some (data = request.data ∧ seq = request.seq)
    | .v4 _ _ _ _, _ => some false
    | .v6 _ _, .raw data =>
      if data.length < 4 then none
      else some (data.drop 4 = request.data ∧ rawSeq data = request.seq)
    | .v6 _ _, _ => some false
    | .zero, _ => some true

/-- The body of a reply answers a request: it has the data and the sequence number of the request,
which stand in a raw body after the identifier. -/
def Answers (addr : Addr) (request : Echo) : Body → Prop
  | .echo seq data => addr.is4 = true ∧ data = request.data ∧ seq = request.seq
  | .raw data => addr.is6 = true ∧ 4 ≤ data.length ∧ data.drop 4 = request.data ∧
    rawSeq data = request.seq
  | .other => False

/-- **A reply that passes the check** is an answer to the request. -/
theorem exists_answers_of_checkReply {addr : Addr} {request : Echo} {reply : Option Body}
    (haddr : addr ≠ .zero) (h : checkReply addr request reply = some true) :
    ∃ body, reply = some body ∧ Answers addr request body := by
  cases reply with
  | none => cases h
  | some body =>
    refine ⟨body, rfl, ?_⟩
    cases addr with
    | zero => exact absurd rfl haddr
    | v4 =>
      cases body with
      | echo seq data => exact ⟨rfl, of_decide_eq_true (Option.some.inj h)⟩
      | raw | other => cases h
    | v6 =>
      cases body with
      | raw data =>
        rw [checkReply, Option.ite_none_left_eq_some, not_lt] at h
        exact ⟨rfl, h.1, of_decide_eq_true (Option.some.inj h.2)⟩
      | echo | other => cases h

/-! ## The system -/

/-- The place of a goroutine that waits for a reply. -/
inductive PingPlace
  | waiting
  /-- With a valid reply, in front of the lock. -/
  | verified
  | ended
  deriving DecidableEq

/-- A ping that was sent, and its goroutine. -/
structure Ping where
  addr : Addr
  request : Echo
  place : PingPlace
  deriving DecidableEq

/-- The state of the pings. -/
structure State where
  /-- The addresses that `pingIPs` has not come to in this round; none before the start. -/
  pinger : Option (List Addr)
  pingRecord : PingRecord
  pings : List Ping
  /-- The time, in nanoseconds since the epoch. -/
  clock : ℕ

/-- The state before the start. -/
def State.init (clock : ℕ) : State := ⟨none, ∅, [], clock⟩

/-- The steps of the system. -/
inductive Label
  /-- Time passes. -/
  | advance (d : ℕ)
  /-- `StartPingIPs`. -/
  | start
  /-- `pingIPs` fails to ping the next address. -/
  | pingFailed
  /-- `pingIPs` sends a ping to the next address. -/
  | pingSent (request : Echo)
  /-- The next round of `pingIPs` begins. -/
  | round
  /-- The read of a reply returns. -/
  | reply (i : ℕ) (reply : Option Body)
  /-- The read of a reply fails, in most cases with a timeout. -/
  | timeout (i : ℕ)
  /-- A valid reply is recorded. -/
  | record (i : ℕ)
  /-- A request to `/readyz` is answered. -/
  | request
  deriving DecidableEq

/-- `StartPingIPs`, up to the start of its goroutine. -/
def startRecord (checkAlive : List Addr) (pingRecord : PingRecord) : PingRecord :=
  checkAlive.foldl (fun pingRecord addr => pingRecord.insert addr.toText 0) pingRecord

/-- Move the goroutine of a ping. -/
def State.moveTo (st : State) (i : ℕ) (place : PingPlace) : State :=
  { st with pings := st.pings.modify i fun p => { p with place := place } }

/-- `time.Now().Unix()`. -/
def State.unix (st : State) : ℕ := st.clock / second

/-- The step of a label, if it is enabled. -/
def step (conf : DeviceConfig w) (st : State) : Label → Option State
  | .advance d => some { st with clock := st.clock + d }
  | .start =>
    if st.pinger = none then
      some { st with
        pinger := some conf.checkAlive
        pingRecord := startRecord conf.checkAlive st.pingRecord }
    else none
  | .pingFailed =>
    match st.pinger with
    | some (_ :: rest) => some { st with pinger := some rest }
    | _ => none
  | .pingSent request =>
    match st.pinger with
    | some (addr :: rest) =>
      -- an address that is neither of version 4 nor of version 6 is skipped
      if addr ≠ .zero ∧ request.Drawn then
        some { st with pinger := some rest, pings := st.pings ++ [⟨addr, request, .waiting⟩] }
      else none
    | _ => none
  | .round => if st.pinger = some [] then some { st with pinger := some conf.checkAlive } else none
  | .reply i reply =>
    match st.pings[i]? with
    | some p =>
      if p.place = .waiting then
        (checkReply p.addr p.request reply).map fun valid =>
          st.moveTo i (if valid then .verified else .ended)
      else none
    | none => none
  | .timeout i =>
    match st.pings[i]? with
    | some p => if p.place = .waiting then some (st.moveTo i .ended) else none
    | none => none
  | .record i =>
    match st.pings[i]? with
    | some p =>
      if p.place = .verified then
        some { st.moveTo i .ended with
          pingRecord := st.pingRecord.insert p.addr.toText st.unix }
      else none
    | none => none
  | .request => if st.pinger = none then none else some st

/-- What is seen of a step. -/
inductive Event
  /-- The goroutine of a ping reads a reply to its request. -/
  | replied (addr : Addr) (request : Echo) (reply : Option Body)
  /-- A valid reply from an address is recorded, in the given second. -/
  | recorded (addr : Addr) (sec : ℕ)
  /-- A request to `/readyz` is answered with a status. -/
  | answered (status : ℕ)
  deriving DecidableEq

/-- The event of a step. -/
def event (conf : DeviceConfig w) (st : State) : Label → Option Event
  | .reply i reply => st.pings[i]?.map fun p => .replied p.addr p.request reply
  | .record i => st.pings[i]?.map fun p => .recorded p.addr st.unix
  | .request => some (.answered (readyzStatus conf st.pingRecord st.clock))
  | _ => none

/-- The second of the latest reply of an address that was recorded. -/
def latest (addr : Addr) (h : List Event) : Option ℕ :=
  (h.filterMap fun e => match e with
    | .recorded a sec => if a = addr then some sec else none
    | _ => none).getLast?

theorem latest_append_answered (addr : Addr) (h : List Event) (status : ℕ) :
    latest addr (h ++ [.answered status]) = latest addr h := by
  simp [latest]

theorem latest_append_replied (addr a : Addr) (h : List Event) (request : Echo)
    (reply : Option Body) : latest addr (h ++ [.replied a request reply]) = latest addr h := by
  simp [latest]

theorem latest_append_recorded (addr a : Addr) (h : List Event) (sec : ℕ) :
    latest addr (h ++ [.recorded a sec]) = if a = addr then some sec else latest addr h := by
  by_cases ha : a = addr <;> simp [latest, ha]

/-! ## What a step can do -/

/-- The effects of a step. -/
inductive Effect (conf : DeviceConfig w) (st : State) : Label → State → Prop
  | advance (d : ℕ) : Effect conf st (.advance d) { st with clock := st.clock + d }
  | start (hnone : st.pinger = none) :
    Effect conf st .start { st with
      pinger := some conf.checkAlive
      pingRecord := startRecord conf.checkAlive st.pingRecord }
  | skip {addr : Addr} {rest : List Addr} (hpinger : st.pinger = some (addr :: rest)) :
    Effect conf st .pingFailed { st with pinger := some rest }
  | send {addr : Addr} {rest : List Addr} {request : Echo}
    (hpinger : st.pinger = some (addr :: rest)) (haddr : addr ≠ .zero) (hdrawn : request.Drawn) :
    Effect conf st (.pingSent request) { st with
      pinger := some rest
      pings := st.pings ++ [⟨addr, request, .waiting⟩] }
  | round (hpinger : st.pinger = some []) :
    Effect conf st .round { st with pinger := some conf.checkAlive }
  | reply {i : ℕ} {p : Ping} {reply : Option Body} {valid : Bool} (hp : st.pings[i]? = some p)
    (hvalid : checkReply p.addr p.request reply = some valid) :
    Effect conf st (.reply i reply) (st.moveTo i (if valid then .verified else .ended))
  | timeout {i : ℕ} {p : Ping} (hp : st.pings[i]? = some p) :
    Effect conf st (.timeout i) (st.moveTo i .ended)
  | record {i : ℕ} {p : Ping} (hp : st.pings[i]? = some p) (hplace : p.place = .verified) :
    Effect conf st (.record i) { st.moveTo i .ended with
      pingRecord := st.pingRecord.insert p.addr.toText st.unix }
  | request (hstarted : st.pinger ≠ none) : Effect conf st .request st

theorem effect_of_step {conf : DeviceConfig w} {st st' : State} {l : Label}
    (hstep : step conf st l = some st') : Effect conf st l st' := by
  cases l with
  | advance d =>
    cases hstep
    exact .advance d
  | start =>
    rw [step, Option.ite_none_right_eq_some] at hstep
    obtain ⟨hnone, ⟨⟩⟩ := hstep
    exact .start hnone
  | pingFailed =>
    rw [step] at hstep
    split at hstep
    · rename_i addr rest hpinger
      cases hstep
      exact .skip hpinger
    · cases hstep
  | pingSent request =>
    rw [step] at hstep
    split at hstep
    · rename_i addr rest hpinger
      rw [Option.ite_none_right_eq_some] at hstep
      obtain ⟨⟨haddr, hdrawn⟩, ⟨⟩⟩ := hstep
      exact .send hpinger haddr hdrawn
    · cases hstep
  | round =>
    rw [step, Option.ite_none_right_eq_some] at hstep
    obtain ⟨hpinger, ⟨⟩⟩ := hstep
    exact .round hpinger
  | reply i reply =>
    rw [step] at hstep
    split at hstep
    · rename_i p hp
      rw [Option.ite_none_right_eq_some, Option.map_eq_some_iff] at hstep
      obtain ⟨-, valid, hvalid, rfl⟩ := hstep
      exact .reply hp hvalid
    · cases hstep
  | timeout i =>
    rw [step] at hstep
    split at hstep
    · rename_i p hp
      rw [Option.ite_none_right_eq_some, Option.some.injEq] at hstep
      obtain ⟨-, rfl⟩ := hstep
      exact .timeout hp
    · cases hstep
  | record i =>
    rw [step] at hstep
    split at hstep
    · rename_i p hp
      rw [Option.ite_none_right_eq_some, Option.some.injEq] at hstep
      obtain ⟨hplace, rfl⟩ := hstep
      exact .record hp hplace
    · cases hstep
  | request =>
    rw [step, Option.ite_none_left_eq_some] at hstep
    obtain ⟨hstarted, ⟨⟩⟩ := hstep
    exact .request hstarted

/-- The pings after the goroutine of one of them has moved. -/
theorem mem_pings_moveTo {st : State} {i : ℕ} {place : PingPlace} {p : Ping}
    (hp : p ∈ (st.moveTo i place).pings) :
    p ∈ st.pings ∨ ∃ q, st.pings[i]? = some q ∧ p = { q with place := place } := by
  obtain ⟨j, hj⟩ := List.getElem?_of_mem hp
  rw [State.moveTo, List.getElem?_modify] at hj
  obtain ⟨q, hq, rfl⟩ := Option.map_eq_some_iff.1 hj
  split
  · rename_i hij
    exact .inr ⟨q, hij ▸ hq, rfl⟩
  · exact .inl (List.mem_of_getElem? hq)

/-- After the start, a step changes the record at most by one entry, with the current second. -/
theorem pingRecord_of_step {conf : DeviceConfig w} {st st' : State} {l : Label}
    (hstep : step conf st l = some st') (hstarted : st.pinger ≠ none) :
    st'.pingRecord = st.pingRecord ∨ ∃ key, st'.pingRecord = st.pingRecord.insert key st.unix := by
  cases effect_of_step hstep with
  | start hnone => exact absurd hnone hstarted
  | record hp => exact .inr ⟨_, rfl⟩
  | _ => exact .inl rfl

/-! ## The invariant -/

theorem toText_injective : Function.Injective Addr.toText := by
  intro a b h
  have hzero : parseAddr Addr.zero.toText = none := by decide +kernel
  by_cases ha : a = .zero
  · by_cases hb : b = .zero
    · rw [ha, hb]
    · have hparse := parseAddr_toText hb
      rw [← h, ha, hzero] at hparse
      cases hparse
  · have hparse := parseAddr_toText ha
    by_cases hb : b = .zero
    · rw [h, hb, hzero] at hparse
      cases hparse
    · rw [h, parseAddr_toText hb] at hparse
      exact (Option.some.inj hparse).symm

theorem lookup_startRecord (checkAlive : List Addr) (pingRecord : PingRecord) (key : Text) :
    (startRecord checkAlive pingRecord).lookup key =
      if ∃ addr ∈ checkAlive, addr.toText = key then some 0 else pingRecord.lookup key := by
  induction checkAlive generalizing pingRecord with
  | nil => simp [startRecord]
  | cons addr checkAlive ih =>
    have hcons : startRecord (addr :: checkAlive) pingRecord =
        startRecord checkAlive (pingRecord.insert addr.toText 0) := rfl
    rw [hcons, ih]
    by_cases hrest : ∃ a ∈ checkAlive, a.toText = key
    · obtain ⟨a, ha, hkey⟩ := hrest
      rw [if_pos ⟨a, ha, hkey⟩, if_pos ⟨a, List.mem_cons_of_mem _ ha, hkey⟩]
    · rw [if_neg hrest]
      by_cases hkey : addr.toText = key
      · rw [if_pos ⟨addr, List.mem_cons_self, hkey⟩, ← hkey, AList.lookup_insert]
      · rw [AList.lookup_insert_ne (Ne.symm hkey), if_neg]
        rintro ⟨a, ha, hak⟩
        rcases List.mem_cons.1 ha with rfl | ha
        · exact hkey hak
        · exact hrest ⟨a, ha, hak⟩

/-- The invariant of a state and the history that led to it. -/
structure Recorded (conf : DeviceConfig w) (st : State) (h : List Event) : Prop where
  pings_mem : ∀ p ∈ st.pings, p.addr ∈ conf.checkAlive
  pinger_mem : ∀ rest ∈ st.pinger, rest ⊆ conf.checkAlive
  /-- Before the start there is nothing. -/
  unstarted : st.pinger = none → st.pings = [] ∧ st.pingRecord = ∅ ∧ ∀ addr, latest addr h = none
  lookup_eq : st.pinger ≠ none → ∀ addr ∈ conf.checkAlive,
    st.pingRecord.lookup addr.toText = some ((latest addr h).getD 0)
  exists_addr : ∀ key ∈ st.pingRecord, ∃ addr ∈ conf.checkAlive, addr.toText = key
  latest_le : ∀ addr sec, latest addr h = some sec → sec ≤ st.unix

theorem recorded_init (conf : DeviceConfig w) (clock : ℕ) :
    Recorded conf (State.init clock) [] where
  pings_mem p hp := by cases hp
  pinger_mem rest hrest := by cases hrest
  unstarted _ := ⟨rfl, rfl, fun _ => rfl⟩
  lookup_eq hstarted := absurd rfl hstarted
  exists_addr key hkey := absurd hkey (AList.notMem_empty key)
  latest_le addr sec hsec := by cases hsec

section Steps

variable {conf : DeviceConfig w} {st st' : State} {h : List Event}

theorem unix_le_unix {st st' : State} (hclock : st.clock ≤ st'.clock) : st.unix ≤ st'.unix :=
  Nat.div_le_div_right hclock

/-- A step that touches neither the record nor the history, and pings none but the addresses to
check. -/
theorem Recorded.of_record_eq (rec : Recorded conf st h) (hclock : st.clock ≤ st'.clock)
    (hrecord : st'.pingRecord = st.pingRecord) (hstarted : st.pinger ≠ none)
    (hstarted' : st'.pinger ≠ none) (hpings : ∀ p ∈ st'.pings, p.addr ∈ conf.checkAlive)
    (hpinger : ∀ rest ∈ st'.pinger, rest ⊆ conf.checkAlive) : Recorded conf st' h where
  pings_mem := hpings
  pinger_mem := hpinger
  unstarted hnone := absurd hnone hstarted'
  lookup_eq _ addr haddr := by rw [hrecord, rec.lookup_eq hstarted addr haddr]
  exists_addr key hkey := rec.exists_addr key (hrecord ▸ hkey)
  latest_le addr sec hsec := (rec.latest_le addr sec hsec).trans (unix_le_unix hclock)

/-- The goroutine of a ping moves. -/
theorem Recorded.pings_moveTo (rec : Recorded conf st h) (i : ℕ) (place : PingPlace) :
    ∀ p ∈ (st.moveTo i place).pings, p.addr ∈ conf.checkAlive := by
  intro p hp
  rcases mem_pings_moveTo hp with hp | ⟨q, hq, rfl⟩
  · exact rec.pings_mem p hp
  · exact rec.pings_mem q (List.mem_of_getElem? hq)

/-- There are pings only after the start. -/
theorem Recorded.started (rec : Recorded conf st h) {i : ℕ} {p : Ping}
    (hp : st.pings[i]? = some p) : st.pinger ≠ none := by
  intro hnone
  rw [(rec.unstarted hnone).1] at hp
  cases hp

theorem Recorded.moveTo (rec : Recorded conf st h) {i : ℕ} {p : Ping}
    (hp : st.pings[i]? = some p) (place : PingPlace) : Recorded conf (st.moveTo i place) h :=
  rec.of_record_eq le_rfl rfl (rec.started hp) (rec.started hp) (rec.pings_moveTo i place)
    rec.pinger_mem

/-- The start. -/
theorem Recorded.start (rec : Recorded conf st h) (hnone : st.pinger = none) :
    Recorded conf { st with
      pinger := some conf.checkAlive
      pingRecord := startRecord conf.checkAlive st.pingRecord } h where
  pings_mem := rec.pings_mem
  pinger_mem rest hrest := by
    cases hrest
    exact List.Subset.refl _
  unstarted hstarted := by cases hstarted
  lookup_eq _ addr haddr := by
    rw [lookup_startRecord, if_pos ⟨addr, haddr, rfl⟩, (rec.unstarted hnone).2.2 addr,
      Option.getD_none]
  exists_addr key hkey := by
    rw [← AList.lookup_isSome, lookup_startRecord] at hkey
    by_contra hno
    rw [if_neg hno, (rec.unstarted hnone).2.1, AList.lookup_empty] at hkey
    cases hkey
  latest_le := rec.latest_le

/-- A valid reply is recorded. -/
theorem Recorded.record (rec : Recorded conf st h) {i : ℕ} {p : Ping}
    (hp : st.pings[i]? = some p) :
    Recorded conf { st.moveTo i .ended with
        pingRecord := st.pingRecord.insert p.addr.toText st.unix }
      (h ++ [.recorded p.addr st.unix]) where
  pings_mem := rec.pings_moveTo i .ended
  pinger_mem := rec.pinger_mem
  unstarted hnone := absurd hnone (rec.started hp)
  lookup_eq hstarted addr haddr := by
    rw [latest_append_recorded]
    by_cases ha : p.addr = addr
    · rw [if_pos ha, ← ha, AList.lookup_insert, Option.getD_some]
    · -- another address has another text
      have hne : addr.toText ≠ p.addr.toText := fun hkey => ha (toText_injective hkey).symm
      rw [if_neg ha, AList.lookup_insert_ne hne, rec.lookup_eq hstarted addr haddr]
  exists_addr key hkey := by
    rcases AList.mem_insert _ |>.1 hkey with rfl | hkey
    · exact ⟨p.addr, rec.pings_mem p (List.mem_of_getElem? hp), rfl⟩
    · exact rec.exists_addr key hkey
  latest_le addr sec hsec := by
    rw [latest_append_recorded] at hsec
    split at hsec
    · exact (Option.some.inj hsec).ge
    · exact rec.latest_le addr sec hsec

/-- Only what is recorded matters of the history. -/
theorem Recorded.of_latest_eq {h' : List Event} (rec : Recorded conf st h)
    (hlatest : ∀ addr, latest addr h' = latest addr h) : Recorded conf st h' where
  pings_mem := rec.pings_mem
  pinger_mem := rec.pinger_mem
  unstarted hnone := by simpa only [hlatest] using rec.unstarted hnone
  lookup_eq := by simpa only [hlatest] using rec.lookup_eq
  exists_addr := rec.exists_addr
  latest_le := by simpa only [hlatest] using rec.latest_le

theorem Recorded.noEvent (rec : Recorded conf st h) :
    Recorded conf st (h ++ (none : Option Event).toList) := by
  simpa using rec

/-- **Every step keeps the invariant.** -/
theorem recorded_step {l : Label} (rec : Recorded conf st h) (hstep : step conf st l = some st') :
    Recorded conf st' (h ++ (event conf st l).toList) := by
  cases effect_of_step hstep with
  | advance d =>
    refine Recorded.noEvent ?_
    have hunix : st.unix ≤ { st with clock := st.clock + d }.unix :=
      unix_le_unix (Nat.le_add_right _ d)
    exact ⟨rec.pings_mem, rec.pinger_mem, rec.unstarted, rec.lookup_eq, rec.exists_addr,
      fun addr sec hsec => (rec.latest_le addr sec hsec).trans hunix⟩
  | start hnone =>
    refine Recorded.noEvent ?_
    exact rec.start hnone
  | skip hpinger =>
    refine Recorded.noEvent ?_
    have hmem := rec.pinger_mem _ hpinger
    refine rec.of_record_eq le_rfl rfl (by simp [hpinger]) (by simp) rec.pings_mem ?_
    rintro _ ⟨⟩
    exact (List.cons_subset.1 hmem).2
  | send hpinger haddr hdrawn =>
    refine Recorded.noEvent ?_
    have hmem := rec.pinger_mem _ hpinger
    refine rec.of_record_eq le_rfl rfl (by simp [hpinger]) (by simp) ?_ ?_
    · intro p hp
      rcases List.mem_append.1 hp with hp | hp
      · exact rec.pings_mem p hp
      · rw [List.mem_singleton.1 hp]
        exact hmem List.mem_cons_self
    · rintro _ ⟨⟩
      exact (List.cons_subset.1 hmem).2
  | round hpinger =>
    refine Recorded.noEvent ?_
    refine rec.of_record_eq le_rfl rfl (by simp [hpinger]) (by simp) rec.pings_mem ?_
    rintro _ ⟨⟩
    exact List.Subset.refl _
  | reply hp hvalid =>
    rw [event, hp, Option.map_some, Option.toList_some]
    exact (rec.moveTo hp _).of_latest_eq fun addr => latest_append_replied ..
  | timeout hp => exact (rec.moveTo hp _).noEvent
  | record hp hplace =>
    rw [event, hp, Option.map_some, Option.toList_some]
    exact rec.record hp
  | request hstarted => exact rec.of_latest_eq fun addr => latest_append_answered ..

/-- The value of a key does not decrease. -/
theorem lookup_le_of_step {l : Label} (rec : Recorded conf st h)
    (hstep : step conf st l = some st') (hstarted : st.pinger ≠ none) {key : Text} {v v' : ℕ}
    (hv : st.pingRecord.lookup key = some v) (hv' : st'.pingRecord.lookup key = some v') :
    v ≤ v' := by
  rcases pingRecord_of_step hstep hstarted with heq | ⟨key', heq⟩
  · rw [heq, hv] at hv'
    exact (Option.some.inj hv').le
  · rw [heq] at hv'
    by_cases hkey : key = key'
    · -- the new value is the current second, the old one that of an earlier reply
      subst hkey
      rw [AList.lookup_insert, Option.some.injEq] at hv'
      obtain ⟨addr, haddr, rfl⟩ :=
        rec.exists_addr key (AList.lookup_isSome.1 (by rw [hv]; rfl))
      rw [rec.lookup_eq hstarted addr haddr, Option.some.injEq] at hv
      rw [← hv, ← hv']
      cases hlatest : latest addr h with
      | none => exact Nat.zero_le _
      | some sec => exact rec.latest_le addr sec hlatest
    · rw [AList.lookup_insert_ne hkey, hv] at hv'
      exact (Option.some.inj hv').le

end Steps

/-! ## Valid replies -/

/-- The goroutine of a ping has read a reply that answers its request. -/
def ReplyIn (h : List Event) (addr : Addr) (request : Echo) : Prop :=
  ∃ body, .replied addr request (some body) ∈ h ∧ Answers addr request body

theorem ReplyIn.append {h : List Event} {addr : Addr} {request : Echo}
    (hreply : ReplyIn h addr request) (h' : List Event) : ReplyIn (h ++ h') addr request := by
  obtain ⟨body, hmem, hanswers⟩ := hreply
  exact ⟨body, List.mem_append_left h' hmem, hanswers⟩

/-- A ping has a request that was drawn, and a valid reply if it is verified. -/
structure Ping.Replied (p : Ping) (h : List Event) : Prop where
  addr_ne : p.addr ≠ .zero
  drawn : p.request.Drawn
  reply : p.place = .verified → ReplyIn h p.addr p.request

theorem Ping.Replied.append {p : Ping} {h : List Event} (hp : p.Replied h) (h' : List Event) :
    p.Replied (h ++ h') :=
  ⟨hp.addr_ne, hp.drawn, fun hplace => (hp.reply hplace).append h'⟩

/-- The invariant of the pings and the history: what was recorded had a valid reply before. -/
structure Answered (st : State) (h : List Event) : Prop where
  pings : ∀ p ∈ st.pings, p.Replied h
  recorded : ∀ k addr sec, h[k]? = some (.recorded addr sec) →
    ∃ request : Echo, request.Drawn ∧ ReplyIn (h.take k) addr request

theorem answered_init (clock : ℕ) : Answered (State.init clock) [] where
  pings p hp := by cases hp
  recorded k addr sec hk := by cases hk

section Replies

variable {conf : DeviceConfig w} {st st' : State} {h : List Event}

/-- An event that is added to the history. -/
theorem Answered.add (inv : Answered st h) {e : Option Event}
    (hpings : ∀ p ∈ st'.pings, p.Replied (h ++ e.toList))
    (he : ∀ addr sec, e = some (.recorded addr sec) →
      ∃ request : Echo, request.Drawn ∧ ReplyIn h addr request) :
    Answered st' (h ++ e.toList) := by
  refine ⟨hpings, fun k addr sec hk => ?_⟩
  rcases lt_or_ge k h.length with hlt | hge
  · rw [List.getElem?_append_left hlt] at hk
    rw [List.take_append_of_le_length hlt.le]
    exact inv.recorded k addr sec hk
  · rw [List.getElem?_append_right hge] at hk
    have hsome : e = some (.recorded addr sec) := Option.mem_toList.1 (List.mem_of_getElem? hk)
    obtain ⟨request, hdrawn, hreply⟩ := he addr sec hsome
    refine ⟨request, hdrawn, ?_⟩
    rw [List.take_append, List.take_of_length_le hge]
    exact hreply.append _

/-- A step in which no ping is sent or moves. -/
theorem Answered.of_pings_eq (inv : Answered st h) {e : Option Event}
    (hpings : st'.pings = st.pings) (he : ∀ addr sec, e ≠ some (.recorded addr sec)) :
    Answered st' (h ++ e.toList) :=
  inv.add (fun p hp => (inv.pings p (hpings ▸ hp)).append _)
    fun addr sec hsome => absurd hsome (he addr sec)

/-- The pings after the goroutine of one of them has moved. -/
theorem Answered.moveTo (inv : Answered st h) {i : ℕ} {place : PingPlace} {h' : List Event}
    (hverified : place = .verified → ∀ p, st.pings[i]? = some p →
      ReplyIn (h ++ h') p.addr p.request) :
    ∀ p ∈ (st.moveTo i place).pings, p.Replied (h ++ h') := by
  intro p hp
  rcases mem_pings_moveTo hp with hp | ⟨q, hq, rfl⟩
  · exact (inv.pings p hp).append h'
  · have hold := inv.pings q (List.mem_of_getElem? hq)
    exact ⟨hold.addr_ne, hold.drawn, fun hplace => hverified hplace q hq⟩

/-- **Every step keeps the invariant.** -/
theorem answered_step {l : Label} (inv : Answered st h) (hstep : step conf st l = some st') :
    Answered st' (h ++ (event conf st l).toList) := by
  cases effect_of_step hstep with
  | advance | start | skip | round => exact inv.of_pings_eq rfl (by simp [event])
  | request => exact inv.of_pings_eq rfl (by simp [event])
  | send hpinger haddr hdrawn =>
    refine inv.add (fun p hp => ?_) (by simp [event])
    rcases List.mem_append.1 hp with hp | hp
    · exact (inv.pings p hp).append _
    · rw [List.mem_singleton.1 hp]
      exact ⟨haddr, hdrawn, fun hplace => by cases hplace⟩
  | @reply i p reply valid hp hvalid =>
    refine inv.add (inv.moveTo fun hverified q hq => ?_) (by simp [event])
    obtain rfl : q = p := Option.some.inj (hq.symm.trans hp)
    cases valid with
    | false => cases hverified
    | true =>
      have haddr := (inv.pings q (List.mem_of_getElem? hq)).addr_ne
      obtain ⟨body, rfl, hanswers⟩ := exists_answers_of_checkReply haddr hvalid
      exact ⟨body, by simp [event, hq], hanswers⟩
  | timeout hp => exact inv.add (inv.moveTo fun hverified => by cases hverified) (by simp [event])
  | @record i p hp hplace =>
    refine inv.add (inv.moveTo fun hverified => by cases hverified) fun addr sec hsome => ?_
    rw [event, hp, Option.map_some, Option.some.injEq, Event.recorded.injEq] at hsome
    obtain ⟨rfl, -⟩ := hsome
    have hold := inv.pings p (List.mem_of_getElem? hp)
    exact ⟨p.request, hold.drawn, hold.reply hplace⟩

end Replies

/-! ## The answers to requests -/

section Requests

variable (conf : DeviceConfig w)

/-- The leeway of the interval fits into the integers of the source. -/
structure NoOverflow : Prop where
  add_lt : conf.checkAliveInterval.toInt + 2 < 2 ^ (w.width - 1)
  le_mul : -2 ^ 63 ≤ (conf.checkAliveInterval.toInt + 2) * second
  mul_lt : (conf.checkAliveInterval.toInt + 2) * second < 2 ^ 63

variable {conf}

/-- The sum of the leeway is exact iff it is an `int`. -/
theorem toInt_add_two_eq_iff {x : GoInt w} :
    (x + 2).toInt = x.toInt + 2 ↔ x.toInt + 2 < 2 ^ (w.width - 1) := by
  have htwo : (2 : GoInt w).toInt = 2 := by cases w <;> rfl
  have hadd := GoInt.toInt_add_eq_iff (x := x) (y := 2)
  rw [htwo] at hadd
  rw [hadd]
  exact and_iff_right (by linarith [BitVec.le_toInt x])

theorem leeway_eq (hno : NoOverflow conf) :
    leeway conf = (conf.checkAliveInterval.toInt + 2) * second := by
  rw [leeway, toInt_add_two_eq_iff.2 hno.add_lt]
  exact GoInt.toInt_mul_eq_iff.2 ⟨hno.le_mul, hno.mul_lt⟩

/-- The age of a record, cut off at the ends of the range or not, compares in the same way with a
whole number of seconds. -/
theorem since_le_iff (hno : NoOverflow conf) (clock record : ℕ) :
    since clock record ≤ leeway conf ↔
      (clock : ℤ) - record * second ≤ (conf.checkAliveInterval.toInt + 2) * second := by
  have hlo := hno.le_mul
  have hhi := hno.mul_lt
  rw [leeway_eq hno, since]
  simp only [second] at *
  push_cast at *
  omega

theorem readyzStatus_eq_iff (pingRecord : PingRecord) (clock : ℕ) :
    readyzStatus conf pingRecord clock = 200 ↔
      ∀ key v, pingRecord.lookup key = some v → since clock v ≤ leeway conf := by
  have hany : readyzStatus conf pingRecord clock = 200 ↔
      ∀ entry ∈ pingRecord.entries, since clock entry.2 ≤ leeway conf := by
    rw [readyzStatus]
    split
    · rename_i h
      refine iff_of_false (by simp) fun hall => ?_
      obtain ⟨entry, hentry, hgt⟩ := List.any_eq_true.1 h
      exact absurd (hall entry hentry) (not_le.2 (by simpa using hgt))
    · rename_i h
      simpa only [List.any_eq_true, decide_eq_true_eq, not_exists, not_and, not_lt,
        true_iff] using h
  rw [hany]
  constructor
  · intro h key v hv
    exact h ⟨key, v⟩ (AList.mem_lookup_iff.1 hv)
  · rintro h ⟨key, v⟩ hentry
    exact h key v (AList.mem_lookup_iff.2 hentry)

/-- The answer in a state of the invariant. -/
theorem Recorded.readyzStatus_eq_iff {st : State} {h : List Event} (rec : Recorded conf st h)
    (hstarted : st.pinger ≠ none) (hno : NoOverflow conf)
    (hepoch : (conf.checkAliveInterval.toInt + 2) * second < st.clock) :
    readyzStatus conf st.pingRecord st.clock = 200 ↔
      ∀ addr ∈ conf.checkAlive, ∃ sec, latest addr h = some sec ∧
        (st.clock : ℤ) - sec * second ≤ (conf.checkAliveInterval.toInt + 2) * second := by
  rw [Health.readyzStatus_eq_iff]
  simp only [since_le_iff hno]
  constructor
  · intro hall addr haddr
    have hle := hall addr.toText _ (rec.lookup_eq hstarted addr haddr)
    cases hlatest : latest addr h with
    | none =>
      -- without a reply the age is the time since the epoch
      rw [hlatest, Option.getD_none] at hle
      push_cast at hle
      omega
    | some sec =>
      rw [hlatest, Option.getD_some] at hle
      exact ⟨sec, rfl, hle⟩
  · intro hall key v hv
    obtain ⟨addr, haddr, rfl⟩ :=
      rec.exists_addr key (AList.lookup_isSome.1 (by rw [hv]; rfl))
    obtain ⟨sec, hlatest, hle⟩ := hall addr haddr
    rw [rec.lookup_eq hstarted addr haddr, hlatest, Option.getD_some, Option.some.injEq] at hv
    exact hv ▸ hle

end Requests

theorem readyzStatus_cases (conf : DeviceConfig w) (pingRecord : PingRecord) (clock : ℕ) :
    readyzStatus conf pingRecord clock = 200 ∨ readyzStatus conf pingRecord clock = 503 := by
  rw [readyzStatus]
  split
  · exact .inr rfl
  · exact .inl rfl

/-- **The record and `/readyz` tell the truth about the pings.** In every state that is reached
after the start, with the history `h` of the replies that were read and recorded:

* what is recorded for an address has a valid reply before it, with the data and the sequence number
  of a request that was sent to this address;
* the keys of the record are the texts of the addresses to check;
* the value of an address is the second in which its latest valid reply was recorded, or zero, and
  no step decreases it;
* `/readyz` answers 200 iff every address has a valid reply that was recorded, in a second that is
  at most the interval and two seconds ago, and 503 otherwise. -/
theorem readyz_truthful {conf : DeviceConfig w} {clock : ℕ} {labels : List Label} {st : State}
    (hrun : run (step conf) (State.init clock) labels = some st) (hstarted : st.pinger ≠ none) :
    let h := events (step conf) (event conf) (State.init clock) labels
    (∀ k addr sec, h[k]? = some (.recorded addr sec) →
      ∃ request : Echo, request.Drawn ∧ ReplyIn (h.take k) addr request) ∧
    (∀ key, key ∈ st.pingRecord ↔ ∃ addr ∈ conf.checkAlive, addr.toText = key) ∧
    (∀ addr ∈ conf.checkAlive,
      st.pingRecord.lookup addr.toText = some ((latest addr h).getD 0)) ∧
    (∀ l st', step conf st l = some st' → ∀ key v v', st.pingRecord.lookup key = some v →
      st'.pingRecord.lookup key = some v' → v ≤ v') ∧
    (NoOverflow conf → (conf.checkAliveInterval.toInt + 2) * second < st.clock →
      ∀ lib ipcGet path, lib.clean path = ("/readyz" : String).toList →
        (serveHTTP lib conf st.pingRecord st.clock ipcGet path).status =
          if ∀ addr ∈ conf.checkAlive, ∃ sec, latest addr h = some sec ∧
            (st.clock : ℤ) - sec * second ≤ (conf.checkAliveInterval.toInt + 2) * second
          then 200 else 503) := by
  intro h
  have inv : Recorded conf st h :=
    run_invariant (recorded_init conf clock) (fun _ _ _ _ => recorded_step) hrun
  have answered : Answered st h :=
    run_invariant (answered_init clock) (fun _ _ _ _ => answered_step) hrun
  refine ⟨answered.recorded, fun key => ⟨inv.exists_addr key, ?_⟩, inv.lookup_eq hstarted,
    fun l st' hstep key v v' => lookup_le_of_step inv hstep hstarted, ?_⟩
  · rintro ⟨addr, haddr, rfl⟩
    rw [← AList.lookup_isSome, inv.lookup_eq hstarted addr haddr]
    rfl
  · intro hno hepoch lib ipcGet path hpath
    unfold serveHTTP
    rw [if_pos hpath]
    have hiff := inv.readyzStatus_eq_iff hstarted hno hepoch
    split
    · rename_i hall
      exact hiff.2 hall
    · rename_i hnot
      exact (readyzStatus_cases conf st.pingRecord st.clock).resolve_left fun h200 =>
        hnot (hiff.1 h200)

/-! ## An address that is checked twice -/

/-- A device that checks one address, which is listed twice, every five seconds. -/
def checkedTwice : DeviceConfig .bits64 where
  secretKey := []
  endpoint := []
  peers := []
  dns := []
  mtu := 1420
  listenPort := none
  checkAlive := [.v4 10 0 0 1, .v4 10 0 0 1]
  checkAliveInterval := 5
  aSecConfig := none

/-- Both pings are sent, one is answered and the other runs into its timeout. -/
def oneReply : List Label :=
  [.start, .pingSent ⟨7, List.replicate 16 1⟩, .pingSent ⟨8, List.replicate 16 2⟩, .advance second,
    .reply 1 (some (.echo 8 (List.replicate 16 2))), .record 1, .advance (5 * second), .timeout 0]

theorem readyz_truthful_oneReply :
    ∃ st, run (step checkedTwice) (State.init (100 * second)) oneReply = some st ∧
      st.pinger ≠ none ∧ st.clock = 106 * second ∧
      (serveHTTP plainLib checkedTwice st.pingRecord st.clock (.ok []) "/readyz").status = 200 := by
  obtain ⟨st, hrun⟩ :
      ∃ st, run (step checkedTwice) (State.init (100 * second)) oneReply = some st :=
    Option.isSome_iff_exists.1 (by decide +kernel)
  have hpinger : ((run (step checkedTwice) (State.init (100 * second)) oneReply).map
      fun st => (st.pinger, st.clock)) = some (some [], 106 * second) := by decide +kernel
  rw [hrun, Option.map_some, Option.some.injEq, Prod.mk.injEq] at hpinger
  obtain ⟨hpinger, hclock⟩ := hpinger
  have hstarted : st.pinger ≠ none := by simp [hpinger]
  have hno : NoOverflow checkedTwice := ⟨by decide, by decide, by decide⟩
  refine ⟨st, hrun, hstarted, hclock, ?_⟩
  rw [(readyz_truthful hrun hstarted).2.2.2.2 hno (by rw [hclock]; decide) _ _ _ rfl, hclock]
  decide +kernel

end WireProxy.Health
