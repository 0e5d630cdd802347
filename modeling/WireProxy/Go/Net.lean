import WireProxy.Go.Strconv

/-!
# Host and port

`net.SplitHostPort` and `net.JoinHostPort`. The first finds the port after the last colon and
takes off the brackets of an IPv6 literal, the second adds them to a host with a colon.

* `mem_of_splitHostPort`: the host and the port are made of characters of the address.
* `IsHostPort` is the grammar of addresses and `splitHostPort_eq_ok_iff` says that the function
  accepts exactly these.
* `writtenPort` is the number that an address writes as its port and `listenPort` the port on which
  `net.Listen` listens. They agree on the port numbers that there are (`listenPort_of_written`).
-/

namespace WireProxy.Go

open Text Control

/-- A `*net.AddrError`. -/
structure AddrError where
  err : Text
  addr : Text
  deriving DecidableEq

/-- `net.SplitHostPort`. -/
def splitHostPort (hostport : Text) : Except AddrError (Text × Text) :=
  match cutLast ':' hostport with
  | none => .error ⟨"missing port in address", hostport⟩
  | some (before, port) =>
    if hostport.head? = some '[' then
      match cut ']' hostport with
      | none => .error ⟨"missing ']' in address", hostport⟩
      | some (bracket, behind) =>
        if behind = [] then .error ⟨"missing port in address", hostport⟩
        else if behind = ':' :: port then
          -- the first closing bracket stands just before the last colon
          if '[' ∈ hostport.drop 1 then .error ⟨"unexpected '[' in address", hostport⟩
          else if ']' ∈ behind then .error ⟨"unexpected ']' in address", hostport⟩
          else .ok (bracket.drop 1, port)
        else if behind.head? = some ':' then .error ⟨"too many colons in address", hostport⟩
        else .error ⟨"missing port in address", hostport⟩
    else if ':' ∈ before then .error ⟨"too many colons in address", hostport⟩
    else if '[' ∈ hostport then .error ⟨"unexpected '[' in address", hostport⟩
    else if ']' ∈ hostport then .error ⟨"unexpected ']' in address", hostport⟩
    else .ok (before, port)

/-- `net.JoinHostPort`. -/
def joinHostPort (host port : Text) : Text :=
  if ':' ∈ host then '[' :: host ++ ']' :: ':' :: port else host ++ ':' :: port

theorem mem_of_splitHostPort {hostport host port : Text}
    (h : splitHostPort hostport = .ok (host, port)) {c : Char} (hc : c ∈ host ∨ c ∈ port) :
    c ∈ hostport := by
  unfold splitHostPort at h
  split at h
  · cases h
  · rename_i before port' hlast
    have hall := eq_append_of_cutLast hlast
    split at h
    · split at h
      · cases h
      · rename_i bracket behind hcut
        have hbr := (cut_eq_some_iff.1 hcut).1
        -- of the branches only the one with matching brackets returns
        repeat' split at h
        all_goals cases h
        rcases hc with hc | hc
        · rw [hbr]
          exact List.mem_append_left _ (List.mem_of_mem_drop hc)
        · rw [hall]
          exact List.mem_append_right _ (List.mem_cons_of_mem _ hc)
    · repeat' split at h
      all_goals cases h
      rw [hall]
      rcases hc with hc | hc
      · exact List.mem_append_left _ hc
      · exact List.mem_append_right _ (List.mem_cons_of_mem _ hc)

theorem mem_joinHostPort {host port : Text} {c : Char} (h : c ∈ joinHostPort host port) :
    c ∈ host ∨ c ∈ port ∨ c = '[' ∨ c = ']' ∨ c = ':' := by
  unfold joinHostPort at h
  split at h
  all_goals
    simp only [List.cons_append, List.mem_cons, List.mem_append] at h
    tauto

/-! ## The grammar of addresses -/

/-- A text without the characters that separate the parts of an address. -/
def NoSeparators (t : Text) : Prop := ':' ∉ t ∧ '[' ∉ t ∧ ']' ∉ t

/-- An address with its host and port, the host in brackets or without separators. -/
inductive IsHostPort : Text → Text → Text → Prop
  | plain {host port : Text} (hhost : NoSeparators host) (hport : NoSeparators port) :
    IsHostPort (host ++ ':' :: port) host port
  | bracketed {host port : Text} (hopen : '[' ∉ host) (hclose : ']' ∉ host)
    (hport : NoSeparators port) : IsHostPort ('[' :: host ++ ']' :: ':' :: port) host port

/-- An address ends with its port, so not with a bracket. -/
theorem IsHostPort.getLast?_ne {t host port : Text} (h : IsHostPort t host port) :
    t.getLast? ≠ some ']' := by
  have hend (before : Text) (hport : NoSeparators port) :
      (before ++ ':' :: port).getLast? ≠ some ']' := by
    intro hlast
    rw [List.getLast?_append_cons] at hlast
    rcases List.mem_cons.1 (List.mem_of_getLast? hlast) with heq | hmem
    · exact absurd heq (by decide)
    · exact hport.2.2 hmem
  cases h with
  | plain _ hport => exact hend host hport
  | bracketed _ _ hport =>
    rw [← List.singleton_append (l := ':' :: port), ← List.append_assoc]
    exact hend _ hport

theorem cutLast_eq_some {sep : Char} {l a b : Text} (h : cutLast sep l = some (a, b)) :
    l = a ++ sep :: b ∧ sep ∉ b := by
  refine ⟨eq_append_of_cutLast h, ?_⟩
  obtain ⟨⟨x, y⟩, hcut, hp⟩ := Option.map_eq_some_iff.1 h
  simp only [Prod.mk.injEq] at hp
  obtain ⟨-, rfl⟩ := hp
  simpa using (cut_eq_some_iff.1 hcut).2

theorem isHostPort_of_splitHostPort {t host port : Text}
    (h : splitHostPort t = .ok (host, port)) : IsHostPort t host port := by
  unfold splitHostPort at h
  split at h
  · cases h
  · rename_i before port' hlast
    obtain ⟨hall, hcolon⟩ := cutLast_eq_some hlast
    split at h
    · rename_i hhead
      split at h
      · cases h
      · rename_i bracket behind hcut
        obtain ⟨hbr, hclose⟩ := cut_eq_some_iff.1 hcut
        -- of the branches only the one with matching brackets returns
        split at h
        · cases h
        split at h
        · rename_i hbehind
          rw [ite_error_eq_ok_iff, ite_error_eq_ok_iff] at h
          obtain ⟨hopen, hclose', ⟨⟩⟩ := h
          subst hbehind
          rw [hbr] at hhead hopen ⊢
          cases bracket with
          | nil => cases hhead
          | cons b host =>
            obtain rfl : b = '[' := Option.some.inj hhead
            rw [List.cons_append, List.drop_one, List.tail_cons, List.mem_append, not_or,
              List.mem_cons, List.mem_cons, not_or, not_or] at hopen
            rw [List.mem_cons, not_or] at hclose hclose'
            exact .bracketed hopen.1 hclose.2 ⟨hcolon, hopen.2.2.2, hclose'.2⟩
        · split at h <;> cases h
    · simp only [ite_error_eq_ok_iff] at h
      obtain ⟨hbefore, hopen, hclose, ⟨⟩⟩ := h
      rw [hall, List.mem_append, List.mem_cons, not_or, not_or] at hopen hclose
      rw [hall]
      exact .plain ⟨hbefore, hopen.1, hclose.1⟩ ⟨hcolon, hopen.2.2, hclose.2.2⟩

theorem splitHostPort_of_isHostPort {t host port : Text} (h : IsHostPort t host port) :
    splitHostPort t = .ok (host, port) := by
  cases h with
  | plain hhost hport =>
    obtain ⟨hcolon, hopen, hclose⟩ := hhost
    obtain ⟨hcolon', hopen', hclose'⟩ := hport
    have hhead : (host ++ ':' :: port).head? ≠ some '[' := by
      cases host with
      | nil => simp
      | cons c cs =>
        rw [List.mem_cons, not_or] at hopen
        simpa using Ne.symm hopen.1
    have hopen_all : '[' ∉ host ++ ':' :: port := by simp [hopen, hopen']
    have hclose_all : ']' ∉ host ++ ':' :: port := by simp [hclose, hclose']
    unfold splitHostPort
    rw [cutLast_append hcolon']
    dsimp only
    rw [if_neg hhead, if_neg hcolon, if_neg hopen_all, if_neg hclose_all]
  | bracketed hopen hclose hport =>
    obtain ⟨hcolon', hopen', hclose'⟩ := hport
    have hlast : cutLast ':' ('[' :: host ++ ']' :: ':' :: port) =
        some ('[' :: host ++ [']'], port) := by
      have h := cutLast_append hcolon' ('[' :: host ++ [']'])
      rwa [List.append_assoc, List.singleton_append] at h
    have hcut : cut ']' ('[' :: host ++ ']' :: ':' :: port) = some ('[' :: host, ':' :: port) :=
      cut_append (by simpa using hclose) _
    have hopen_all : '[' ∉ ('[' :: host ++ ']' :: ':' :: port).drop 1 := by simp [hopen, hopen']
    have hclose_behind : ']' ∉ ':' :: port := by simp [hclose']
    unfold splitHostPort
    rw [hlast, hcut]
    dsimp only
    rw [if_neg (List.cons_ne_nil _ _), if_pos rfl, if_neg hopen_all, if_neg hclose_behind]
    exact if_pos rfl

/-- **`SplitHostPort` accepts exactly the addresses of the grammar.** -/
theorem splitHostPort_eq_ok_iff {t host port : Text} :
    splitHostPort t = .ok (host, port) ↔ IsHostPort t host port :=
  ⟨isHostPort_of_splitHostPort, splitHostPort_of_isHostPort⟩

/-! ## Port numbers -/

/-- The number that an address writes as its port. -/
def writtenPort (address : Text) : Option ℤ :=
  match splitHostPort address with
  | .error _ => none
  | .ok (_, port) => writtenInt port

theorem writtenPort_of_splitHostPort {address host port : Text}
    (h : splitHostPort address = .ok (host, port)) : writtenPort address = writtenInt port := by
  rw [writtenPort, h]

/-- The digit loop of `parsePort`, whose number is a `uint32`: it stops when the number is large,
and a product that wraps around is not noticed. -/
def parsePortLoop : ℕ → Text → Option ℕ
  | n, [] => some n
  | n, c :: cs =>
    if isDigitIn 10 c then
      let tens := n * 10 % 2 ^ 32
      let nn := (tens + (digitVal c).getD 0) % 2 ^ 32
      if n ≥ 2 ^ 30 then some (2 ^ 32 - 1)
      else if nn < tens then some (2 ^ 32 - 1)
      else parsePortLoop nn cs
    else none

/-- `parsePort`, for a text that is not the name of a service. -/
def parsePort (service : Text) : Option ℤ :=
  (parsePortLoop 0 (splitSign service).2).map fun n : ℕ =>
    if (splitSign service).1 then -(min n (2 ^ 30) : ℕ) else (min n (2 ^ 30 - 1) : ℕ)

/-- The port on which `net.Listen("tcp", address)` listens, where `services` is the database of
services. -/
def listenPort (services : Text → Option ℕ) (address : Text) : Option ℕ :=
  if address = [] then some 0
  else match splitHostPort address with
    | .error _ => none
    | .ok (_, port) =>
      match parsePort port with
      | none => services port
      | some n => if n < 0 ∨ n > 65535 then none else some n.toNat

/-- A small number is read without wrapping around. -/
theorem parsePortLoop_of_readFrom {n v : ℕ} {l : Text} (h : readFrom 10 n l = some v)
    (hv : v ≤ 65535) : parsePortLoop n l = some v := by
  induction l generalizing n with
  | nil => exact h
  | cons c cs ih =>
    have hle := le_of_readFrom (by norm_num) h
    simp only [readFrom, Option.bind_eq_bind, Option.bind_eq_some_iff] at h
    obtain ⟨d, hd, h⟩ := h
    split at h
    · rename_i hlt
      have hle' := le_of_readFrom (by norm_num) h
      have hdigit : isDigitIn 10 c = true := by simp [isDigitIn, hd, hlt]
      have htens : n * 10 % 2 ^ 32 = n * 10 := Nat.mod_eq_of_lt (by omega)
      have hnn : (n * 10 + d) % 2 ^ 32 = n * 10 + d := Nat.mod_eq_of_lt (by omega)
      simp only [parsePortLoop, hdigit, if_true, hd, Option.getD_some, htens, hnn]
      rw [if_neg (by omega), if_neg (by omega), ih h]
    · cases h

/-- **`net.Listen` listens on the port that is written**, if there is such a port. -/
theorem listenPort_of_written {services : Text → Option ℕ} {address : Text} {n : ℕ}
    (h : writtenPort address = some (n : ℤ)) (hn : n ≤ 65535) :
    listenPort services address = some n := by
  unfold writtenPort at h
  split at h
  · cases h
  · rename_i host port hsplit
    have hne : address ≠ [] := by
      rintro rfl
      cases hsplit
    obtain ⟨m, hread, hm⟩ := Option.map_eq_some_iff.1 h
    have hloop : parsePortLoop 0 (splitSign port).2 = some m := by
      rw [readNumeral, Option.ite_none_left_eq_some] at hread
      exact parsePortLoop_of_readFrom hread.2 (by split at hm <;> omega)
    have hport : parsePort port = some (n : ℤ) := by
      rw [parsePort, hloop, Option.map_some, Option.some.injEq, ← hm]
      split at hm
      all_goals
        rename_i hsign
        simp only [hsign, if_true, if_false, Bool.false_eq_true]
        omega
    unfold listenPort
    rw [if_neg hne, hsplit]
    simp only [hport]
    rw [if_neg (by omega), Int.toNat_natCast]

end WireProxy.Go
