import RadeonsiCompute.Auth.Client
import RadeonsiCompute.Lib.Store
import RadeonsiCompute.Lib.Word64

/-!
# The authentication server

`drmServer` answers one datagram after the other. What a round depends on is in
`Round`: the bytes received, what `drmAuthMagic` returns for each call, and the
error that `strerror` is asked about. The server hands the text of a log line
to `syslog` as its format, so a line with a directive that takes an argument
ends the process; `drmServer_protocol` says that nothing else goes wrong, but
for numbers that a `long` cannot hold.
-/

namespace RadeonsiCompute

open Lib

/-- One receive of the server, with the results of the external calls. -/
structure Round where
  datagram : List Byte
  drmAuthMagic : Int → Nat → Int
  errno : Int
  fits : datagram.length ≤ 1023

structure AuthCall where
  fd : Int
  magic : Nat
  ret : Int
  deriving DecidableEq, Repr

inductive Priority
  | warning
  | info
  deriving DecidableEq, Repr

/-- What the server does for one datagram: its calls of `drmAuthMagic`, its log
lines and its answer. -/
structure Turn where
  calls : List AuthCall
  logged : List (Priority × List Byte)
  answer : List Byte
  deriving DecidableEq, Repr

/-- `syslog(priority, line)`: a directive that takes an argument finds none. -/
def syslog (priority : Priority) (line : List Byte) : Except Fault (Priority × List Byte) :=
  if argumentFree line then .ok (priority, line) else .error .outOfBounds

section

variable (drms : List Byte → Option Int) (strerror : Int → List Byte)

/-- `sscanf(buf, "%s %li", busid, &magic)`: both values, when it returns 2.
`busid` has room for 1025 bytes. -/
def scanRequest (buf : List Byte) : Except Fault (Option (List Byte × Int)) :=
  match sscanf [.string, .space, .long] buf with
  | .string busid :: rest =>
      if busid.length < 1025 then
        match rest with
        | [.long magic] => .ok (some (busid, magic))
        | _ => .ok none
      else .error .outOfBounds
  | _ => .ok none

/-- The body of the loop of `drmServer`. -/
def serveRound (r : Round) : Except Fault Turn := do
  let buf := cString r.datagram
  let request ← scanRequest buf
  -- `ok`, the calls made, the line logged at once, and the text of `ss`
  let (ok, calls, logged, ss) ← match request with
    | some (busid, magic) =>
        match drms busid with
        | some fd =>
            let ret := r.drmAuthMagic fd (toU32 magic)
            let call : AuthCall := { fd, magic := toU32 magic, ret }
            if ret ≠ 0 then
              .ok (false, [call], [],
                text "drmAuthMagic failed: " ++ strerror r.errno ++ text "\n")
            else do
              let line ← syslog .info
                (text "Authenticated: " ++ busid ++ text " with magic: " ++ formatLong magic)
              .ok (true, [call], [line], [])
        | none => .ok (false, [], [], text "DRM not found for busid: " ++ busid)
    | none => .ok (false, [], [], text "Error while parsing incoming data: " ++ buf)
  let warned ← if ss = [] then .ok [] else do
    let line ← syslog .warning ss
    .ok [line]
  let ans := if ok then text "ACK" else text "NACK"
  .ok { calls, logged := logged ++ warned, answer := ans }

/-- `drmServer` over the datagrams it receives. -/
def drmServer : List Round → Except Fault (List Turn)
  | [] => .ok []
  | r :: rounds => do
      let turn ← serveRound drms strerror r
      let turns ← drmServer rounds
      .ok (turn :: turns)

/-- The bus id and the number, as exact values, that a datagram starts with. -/
def carried (datagram : List Byte) : Option (List Byte × Int) :=
  match scanString (cString datagram) with
  | none => none
  | some (busid, rest) => (scanNumeral (skipSpace rest)).map fun found => (busid, found.1)

/-- What the protocol asks of a turn. -/
structure Turn.Faithful (r : Round) (t : Turn) : Prop where
  once : t.calls.length ≤ 1
  own : ∀ c ∈ t.calls, c.ret = r.drmAuthMagic c.fd c.magic ∧ ∃ busid v,
    carried r.datagram = some (busid, v) ∧ drms busid = some c.fd ∧ c.magic = toU32 v
  ack : t.answer = text "ACK" ↔ ∃ c ∈ t.calls, c.ret = 0
  nack : (∀ busid v, carried r.datagram = some (busid, v) → drms busid = none) →
    t.calls = [] ∧ t.answer = text "NACK"

/-- The log lines of a round take no argument, and a number for a known device
has the low bits of the `long` it is read as. -/
def Round.Clean (r : Round) : Prop :=
  match carried r.datagram with
  | none => argumentFree (cString r.datagram)
  | some (busid, v) =>
      match drms busid with
      | none => argumentFree busid
      | some fd => toU32 (saturate v) = toU32 v ∧
          if r.drmAuthMagic fd (toU32 v) = 0 then argumentFree busid
          else argumentFree (strerror r.errno)

/-! ## Scanning -/

omit drms strerror in
theorem length_scanString {s word rest : List Byte} (found : scanString s = some (word, rest)) :
    word.length ≤ s.length := by
  unfold scanString at found
  dsimp only at found
  split at found
  · exact nomatch found
  · rw [← (Prod.mk.inj (Option.some.inj found)).1]
    exact ((List.takeWhile_sublist _).trans (List.dropWhile_sublist _)).length_le

omit drms strerror in
/-- The server reads what the datagram carries, as a `long`. -/
theorem scanRequest_eq {datagram : List Byte} (fits : datagram.length ≤ 1023) :
    scanRequest (cString datagram) =
      .ok ((carried datagram).map fun found => (found.1, saturate found.2)) := by
  have short : (cString datagram).length ≤ 1023 :=
    (List.takeWhile_sublist _).length_le.trans fits
  unfold scanRequest carried
  cases word : scanString (cString datagram) with
  | none => simp only [sscanf, word, Option.map_none]
  | some found =>
      obtain ⟨busid, rest⟩ := found
      have room := length_scanString word
      cases number : scanNumeral (skipSpace rest) with
      | none =>
          simp only [sscanf, word, number, Option.map_none, if_pos (show busid.length < 1025 by omega)]
      | some value =>
          simp only [sscanf, word, number, Option.map_some,
            if_pos (show busid.length < 1025 by omega)]

/-! ## One round -/

/-- A round in which no bus id and number are carried. -/
theorem serveRound_malformed {r : Round} (none : carried r.datagram = none) :
    serveRound drms strerror r =
      if argumentFree (cString r.datagram) then .ok { calls := [], logged := [(.warning,
        text "Error while parsing incoming data: " ++ cString r.datagram)], answer := text "NACK" }
      else .error .outOfBounds := by
  have plain : byte '%' ∉ text "Error while parsing incoming data: " := by decide
  have nonempty : text "Error while parsing incoming data: " ++ cString r.datagram ≠ [] := by
    simp [text]
  simp only [serveRound, scanRequest_eq r.fits, none, Option.map_none, ok_bind, if_neg nonempty,
    syslog, argumentFree_append_left _ plain]
  split <;> rfl

/-- A round for a bus id that is not registered. -/
theorem serveRound_unknown {r : Round} {busid : List Byte} {v : Int}
    (found : carried r.datagram = some (busid, v)) (unknown : drms busid = none) :
    serveRound drms strerror r =
      if argumentFree busid then .ok { calls := [], logged := [(.warning,
        text "DRM not found for busid: " ++ busid)], answer := text "NACK" }
      else .error .outOfBounds := by
  have plain : byte '%' ∉ text "DRM not found for busid: " := by decide
  have nonempty : text "DRM not found for busid: " ++ busid ≠ [] := by simp [text]
  simp only [serveRound, scanRequest_eq r.fits, found, Option.map_some, ok_bind, unknown,
    if_neg nonempty, syslog, argumentFree_append_left _ plain]
  split <;> rfl

/-- A round in which `drmAuthMagic` refuses. -/
theorem serveRound_refused {r : Round} {busid : List Byte} {v : Int} {fd : Int}
    (found : carried r.datagram = some (busid, v)) (known : drms busid = some fd)
    (refused : r.drmAuthMagic fd (toU32 (saturate v)) ≠ 0) :
    serveRound drms strerror r =
      if argumentFree (strerror r.errno) then .ok
        { calls := [⟨fd, toU32 (saturate v), r.drmAuthMagic fd (toU32 (saturate v))⟩]
          logged := [(.warning, text "drmAuthMagic failed: " ++ strerror r.errno ++ text "\n")]
          answer := text "NACK" }
      else .error .outOfBounds := by
  have plain : byte '%' ∉ text "drmAuthMagic failed: " := by decide
  have newline : byte '%' ∉ text "\n" := by decide
  have nonempty : text "drmAuthMagic failed: " ++ strerror r.errno ++ text "\n" ≠ [] := by
    simp [text]
  simp only [serveRound, scanRequest_eq r.fits, found, Option.map_some, ok_bind, known,
    if_pos refused, if_neg nonempty, syslog, argumentFree_append_right _ newline (by decide),
    argumentFree_append_left _ plain]
  split <;> rfl

/-- A round in which `drmAuthMagic` grants access. -/
theorem serveRound_granted {r : Round} {busid : List Byte} {v : Int} {fd : Int}
    (found : carried r.datagram = some (busid, v)) (known : drms busid = some fd)
    (granted : r.drmAuthMagic fd (toU32 (saturate v)) = 0) :
    serveRound drms strerror r =
      if argumentFree busid then .ok
        { calls := [⟨fd, toU32 (saturate v), 0⟩]
          logged := [(.info, text "Authenticated: " ++ busid ++ text " with magic: " ++
            formatLong (saturate v))]
          answer := text "ACK" }
      else .error .outOfBounds := by
  have plain : byte '%' ∉ text "Authenticated: " := by decide
  have tail : byte '%' ∉ text " with magic: " ++ formatLong (saturate v) := by
    intro member
    cases List.mem_append.mp member with
    | inl inText => exact absurd inText (by decide)
    | inr inNumber => exact percent_notMem_formatLong _ inNumber
  have start : (text " with magic: " ++ formatLong (saturate v)).head? ≠ some (byte 'm') := by
    have blank : text " with magic: " = byte ' ' :: text "with magic: " := by decide
    rw [blank]
    show some (byte ' ') ≠ some (byte 'm')
    decide
  simp only [serveRound, scanRequest_eq r.fits, found, Option.map_some, ok_bind, known, granted,
    ne_eq, not_true_eq_false, if_false, syslog, List.append_assoc,
    argumentFree_append_left _ plain, argumentFree_append_right _ tail start, if_true]
  split <;> rfl

/-- A turn without calls for a datagram that asks for none. -/
theorem Turn.faithful_idle {r : Round} {logged : List (Priority × List Byte)} :
    Turn.Faithful drms r { calls := [], logged, answer := text "NACK" } where
  once := Nat.zero_le 1
  own c member := absurd member List.not_mem_nil
  ack := ⟨fun same => absurd same (by decide : text "NACK" ≠ text "ACK"),
    fun found => absurd found (by simp)⟩
  nack _ := ⟨rfl, rfl⟩

/-- A turn with the one call its datagram asks for. -/
theorem Turn.faithful_call {r : Round} {busid : List Byte} {v : Int} {fd : Int} {magic : Nat}
    {logged : List (Priority × List Byte)} {answer : List Byte}
    (found : carried r.datagram = some (busid, v)) (known : drms busid = some fd)
    (ack : answer = text "ACK" ↔ r.drmAuthMagic fd magic = 0) :
    Turn.Faithful drms r { calls := [⟨fd, magic, r.drmAuthMagic fd magic⟩], logged, answer } ↔
      magic = toU32 v := by
  constructor
  · intro faithful
    obtain ⟨-, busid', v', found', -, same⟩ := faithful.own _ List.mem_cons_self
    rw [found] at found'
    obtain ⟨-, rfl⟩ := Prod.mk.inj (Option.some.inj found')
    exact same
  · intro same
    refine ⟨le_refl 1, fun c member => ?_, ?_, fun unknown => ?_⟩
    · obtain rfl := List.mem_singleton.mp member
      exact ⟨rfl, busid, v, found, known, same⟩
    · rw [ack]
      simp
    · exact nomatch (unknown busid v found).symm.trans known

/-- One round keeps to the protocol exactly when it is clean. -/
theorem serveRound_faithful_iff (r : Round) :
    (∃ turn, serveRound drms strerror r = .ok turn ∧ turn.Faithful drms r) ↔
      r.Clean drms strerror := by
  have notAck : text "NACK" ≠ text "ACK" := by decide
  -- a round is answered when its line can be logged, and only then
  have answered : ∀ {free : Bool} {turn : Turn},
      serveRound drms strerror r = (if free then .ok turn else .error .outOfBounds) →
        ((∃ turn', serveRound drms strerror r = .ok turn' ∧ turn'.Faithful drms r) ↔
          free = true ∧ turn.Faithful drms r) := by
    intro free turn run
    rw [run]
    cases free with
    | false => simp
    | true => simp
  unfold Round.Clean
  cases found : carried r.datagram with
  | none =>
      rw [answered (serveRound_malformed drms strerror found)]
      exact and_iff_left (Turn.faithful_idle drms)
  | some request =>
      obtain ⟨busid, v⟩ := request
      cases known : drms busid with
      | none =>
          rw [answered (serveRound_unknown drms strerror found known)]
          simp only [known]
          exact and_iff_left (Turn.faithful_idle drms)
      | some fd =>
          simp only [known]
          by_cases granted : r.drmAuthMagic fd (toU32 (saturate v)) = 0
          · rw [answered (serveRound_granted drms strerror found known granted)]
            have call := @Turn.faithful_call drms r busid v fd (toU32 (saturate v)) [(.info,
              text "Authenticated: " ++ busid ++ text " with magic: " ++ formatLong (saturate v))]
              (text "ACK") found known (by simp [granted])
            rw [granted] at call
            rw [call, and_comm]
            exact and_congr_right fun same => by rw [if_pos (same ▸ granted)]
          · rw [answered (serveRound_refused drms strerror found known granted),
              Turn.faithful_call drms found known (by simp [granted, notAck]), and_comm]
            exact and_congr_right fun same => by rw [if_neg (same ▸ granted)]

/-! ## Runs -/

/-- A run keeps to the protocol exactly when each of its rounds does. -/
theorem drmServer_faithful_iff (rounds : List Round) :
    (∃ turns, drmServer drms strerror rounds = .ok turns ∧
        List.Forall₂ (fun r turn => Turn.Faithful drms r turn) rounds turns) ↔
      ∀ r ∈ rounds, ∃ turn, serveRound drms strerror r = .ok turn ∧ turn.Faithful drms r := by
  induction rounds with
  | nil => exact ⟨fun _ r member => absurd member List.not_mem_nil, fun _ => ⟨[], rfl, .nil⟩⟩
  | cons r rounds ih =>
      rw [List.forall_mem_cons, ← ih]
      constructor
      · rintro ⟨turns, run, all⟩
        obtain ⟨turn, first, run⟩ := bind_eq_ok.mp run
        obtain ⟨rest, later, final⟩ := bind_eq_ok.mp run
        obtain rfl := Except.ok.inj final
        obtain ⟨here, others⟩ := List.forall₂_cons.mp all
        exact ⟨⟨turn, first, here⟩, rest, later, others⟩
      · rintro ⟨⟨turn, first, here⟩, rest, later, others⟩
        refine ⟨turn :: rest, ?_, .cons here others⟩
        rw [drmServer, first, ok_bind, later, ok_bind]

end

/-- The server reads the message of a client as it was meant. -/
theorem scanRequest_authMessage (a : PciAddress) (magic : UInt32) :
    sscanf [.string, .space, .long] (cString (authMessage magic.toNat a.busid)) =
      [.string a.busid, .long magic.toNat] := by
  have unsigned : formatLong (magic.toNat : Int) = decimal magic.toNat := by
    rw [formatLong, if_neg (by omega), Int.natAbs_natCast]
  have small := magic.toNat_lt
  have blank : text " " = [byte ' '] := by decide
  have whole : cString (authMessage magic.toNat a.busid) =
      a.busid ++ byte ' ' :: decimal magic.toNat := by
    rw [(authMessage_eq a magic).1, blank, List.append_assoc, List.singleton_append]
    refine List.takeWhile_eq_self_iff.mpr fun b member => ?_
    have positive : 0 < b.toNat := by
      cases List.mem_append.mp member with
      | inl inBusid => exact Nat.zero_lt_of_lt (a.visible b inBusid).1
      | inr inRest =>
          cases List.mem_cons.mp inRest with
          | inl same => rw [same]; decide
          | inr inNumber => exact Nat.zero_lt_of_lt (visible_decimal _ b inNumber).1
    have nonzero : b ≠ 0 := by
      rintro rfl
      exact absurd positive (by decide)
    simpa using nonzero
  have word : scanString (a.busid ++ byte ' ' :: decimal magic.toNat) =
      some (a.busid, byte ' ' :: decimal magic.toNat) := by
    apply scanString_append a.busid_ne_nil a.visible
    intro b first
    rw [← Option.some.inj first]
    decide
  have skip : skipSpace (byte ' ' :: decimal magic.toNat) = decimal magic.toNat := by
    rw [skipSpace, List.dropWhile_cons_of_pos (by decide)]
    exact skipSpace_visible (visible_decimal _)
  have number := scanNumeral_formatLong magic.toNat
  rw [unsigned] at number
  simp only [sscanf, whole, word, skip, number, saturate_of_fits (v := magic.toNat) (by omega)
    (by omega)]

/-- **The authentication protocol.** The message of a client is read back as
the bus id and the magic it was made of. A run of the server keeps to the
protocol in every round if and only if every datagram is clean. -/
theorem drmServer_protocol (strerror : Int → List Byte) :
    (∀ (a : PciAddress) (magic : UInt32),
      sscanf [.string, .space, .long] (cString (authMessage magic.toNat a.busid)) =
        [.string a.busid, .long magic.toNat]) ∧
    ∀ (drms : List Byte → Option Int) (rounds : List Round),
      (∃ turns, drmServer drms strerror rounds = .ok turns ∧
          List.Forall₂ (fun r turn => Turn.Faithful drms r turn) rounds turns) ↔
        ∀ r ∈ rounds, r.Clean drms strerror := by
  refine ⟨scanRequest_authMessage, fun drms rounds => ?_⟩
  rw [drmServer_faithful_iff]
  exact forall₂_congr fun r _ => serveRound_faithful_iff drms strerror r

/-- A datagram of two bytes ends the server. -/
theorem not_drmServer_protocol_directive :
    ∃ r : Round, r.datagram = text "%n" ∧
      drmServer (fun _ => none) (fun _ => []) [r] = .error .outOfBounds ∧
      ¬ ∃ turns, drmServer (fun _ => none) (fun _ => []) [r] = .ok turns ∧
        List.Forall₂ (fun r turn => Turn.Faithful (fun _ => none) r turn) [r] turns := by
  have ends : drmServer (fun _ => none) (fun _ => [])
      [⟨text "%n", fun _ _ => 0, 0, by decide⟩] = .error .outOfBounds :=
    faultOf_eq_some.mp (by decide)
  refine ⟨⟨text "%n", fun _ _ => 0, 0, by decide⟩, rfl, ends, ?_⟩
  rintro ⟨turns, run, -⟩
  exact nomatch ends.symm.trans run

end RadeonsiCompute
