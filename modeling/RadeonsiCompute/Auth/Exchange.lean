import RadeonsiCompute.Auth.Master
import RadeonsiCompute.Lib.Datagrams

/-!
# Clients, network and master

`authenticationSystem` has every run of clients that call `authWithLocalMaster`,
of a network that treats their datagrams as it likes, and of the server with the
descriptors that `main` opened. `authenticationSystem_exact` follows a request
through all of it: each one taken is served on the master of the device it is
for, with the magic it was sent with, and the answer says what became of it.
-/

namespace RadeonsiCompute

open Lib

/-- What `drmAuthMagic` and `errno` are while a datagram is served. -/
structure AuthReplies where
  drmAuthMagic : Int → Nat → Int
  errno : Int

/-- The server as it takes one datagram: `recvfrom` keeps 1023 bytes of it. -/
def authService (drms : List Byte → Option Int) (strerror : Int → List Byte) :
    Service (List Byte) AuthReplies Turn (List Byte) where
  handle datagram replies :=
    (serveRound drms strerror {
      datagram := datagram.take 1023
      drmAuthMagic := replies.drmAuthMagic
      errno := replies.errno
      fits := List.length_take_le _ _ }).toOption
  reply turn := turn.answer

/-- The bus id a caller passes on: that of a device, or the empty one of
`AMDBinaryOperationRunner`. -/
def callerBusid (a : Option PciAddress) : List Byte := (a.map PciAddress.busid).getD []

/-- A datagram of `authWithLocalMaster`. -/
def FromClient (datagram : List Byte) : Prop :=
  ∃ (a : Option PciAddress) (magic : UInt32), datagram = authMessage magic.toNat (callerBusid a)

/-- Ports are numbers. -/
abbrev AuthExchange := Exchange Nat (List Byte) Turn (List Byte)

def authenticationSystem (drms : List Byte → Option Int) (strerror : Int → List Byte) :
    TSys AuthExchange (ExchangeEvent Nat (List Byte) AuthReplies (List Byte)) :=
  (authService drms strerror).system FromClient

/-- A turn for a request: one call if it names a device that has a master, on that
master and with the magic of the request, and an answer that says whether it went well. -/
structure Turn.Serves (masters : PciAddress → Int → Prop) (a : Option PciAddress)
    (magic : UInt32) (t : Turn) : Prop where
  once : t.calls.length ≤ 1
  own : ∀ c ∈ t.calls, c.magic = magic.toNat ∧ ∃ b ∈ a, masters b c.fd
  made : (∃ b ∈ a, ∃ fd, masters b fd) → t.calls ≠ []
  ack : t.answer = text "ACK" ↔ ∃ c ∈ t.calls, c.ret = 0
  nack : t.answer ≠ text "ACK" → t.answer = text "NACK"

/-! ## One request -/

theorem PciAddress.percent_notMem_busid (a : PciAddress) : byte '%' ∉ a.busid := by
  have hex : ∀ width n, byte '%' ∉ formatHex width n := by
    intro width n member
    exact absurd (isDigit_formatHex width n _ member) (by decide)
  have scheme : byte '%' ∉ text "pci:" := by decide
  have colon : byte '%' ∉ text ":" := by decide
  have dot : byte '%' ∉ text "." := by decide
  simp only [PciAddress.busid, List.mem_append, not_or]
  exact ⟨⟨⟨⟨⟨⟨⟨scheme, hex _ _⟩, colon⟩, hex _ _⟩, colon⟩, hex _ _⟩, dot⟩,
    percent_notMem_formatLong _⟩

theorem PciAddress.argumentFree_busid (a : PciAddress) : argumentFree a.busid = true := by
  have split := argumentFree_append_left [] a.percent_notMem_busid
  rw [List.append_nil] at split
  rw [split]
  rfl

/-- The message of a client carries the bus id and, within a `long`, the magic. -/
theorem carried_authMessage (a : PciAddress) (magic : UInt32) :
    ∃ v, carried (authMessage magic.toNat a.busid) = some (a.busid, v) ∧
      saturate v = magic.toNat := by
  have fits : (authMessage magic.toNat a.busid).length ≤ 1023 :=
    (authMessage_eq a magic).2.trans (by decide)
  have room : a.busid.length < 1025 := a.length_busid.trans_lt (by decide)
  have read := scanRequest_eq fits
  rw [scanRequest, scanRequest_authMessage] at read
  simp only [if_pos room] at read
  have both := Except.ok.inj read
  cases found : carried (authMessage magic.toNat a.busid) with
  | none =>
      rw [found] at both
      cases both
  | some request =>
      rw [found] at both
      obtain ⟨busid, v⟩ := request
      obtain ⟨rfl, same⟩ := Prod.mk.inj (Option.some.inj both)
      exact ⟨v, rfl, same.symm⟩

/-- The magic behind an empty bus id is taken for the bus id, and no number follows. -/
theorem carried_authMessage_empty (magic : UInt32) :
    carried (authMessage magic.toNat []) = none ∧
      argumentFree (cString (authMessage magic.toNat [])) = true ∧
      (authMessage magic.toNat []).length ≤ 1023 := by
  have unsigned : formatLong (magic.toNat : Int) = decimal magic.toNat := by
    rw [formatLong, if_neg (by omega), Int.natAbs_natCast]
  have digits := @length_decimal_le magic.toNat 10 (by omega) (by
    have := magic.toNat_lt
    omega)
  have visible := visible_decimal magic.toNat
  have message : authMessage magic.toNat [] = 32 :: decimal magic.toNat := by
    rw [authMessage, unsigned, snprintf]
    exact List.take_of_length_le (by simp [cString, text]; omega)
  have whole : cString (32 :: decimal magic.toNat) = 32 :: decimal magic.toNat := by
    have rest := visible.cString
    rw [cString] at rest ⊢
    rw [List.takeWhile_cons_of_pos (by decide), rest]
  have word : scanString (32 :: decimal magic.toNat) = some (decimal magic.toNat, []) := by
    have found := @scanString_append (decimal magic.toNat) [] (decimal_ne_nil _)
      visible (by simp)
    rw [List.append_nil] at found
    rw [← found]
    rfl
  rw [message, carried, whole, word]
  refine ⟨rfl, ?_, by simp only [List.length_cons]; omega⟩
  have plain : byte '%' ∉ (32 :: decimal magic.toNat : List Byte) := by
    have number := percent_notMem_formatLong magic.toNat
    rw [unsigned] at number
    rw [List.mem_cons, not_or]
    exact ⟨by decide, number⟩
  have split := argumentFree_append_left [] plain
  rw [List.append_nil] at split
  rw [split]
  rfl

/-- A request of a client is survived and served. -/
theorem authService_serves {drms : List Byte → Option Int} {strerror : Int → List Byte}
    {masters : PciAddress → Int → Prop}
    (exact : ∀ a fd, drms a.busid = some fd ↔ masters a fd)
    (plain : ∀ e, argumentFree (strerror e) = true) {datagram : List Byte}
    (client : FromClient datagram) (replies : AuthReplies) :
    ∃ turn, (authService drms strerror).handle datagram replies = some turn ∧
      ∃ a magic, datagram = authMessage magic.toNat (callerBusid a) ∧
        turn.Serves masters a magic := by
  obtain ⟨_ | a, magic, rfl⟩ := client
  · -- no bus id, so nobody is asked
    obtain ⟨none, free, short⟩ := carried_authMessage_empty magic
    have whole : (authMessage magic.toNat []).take 1023 = authMessage magic.toNat [] :=
      List.take_of_length_le short
    show ∃ turn, (authService drms strerror).handle (authMessage magic.toNat []) replies =
      some turn ∧ _
    simp only [authService]
    generalize round : Round.mk _ replies.drmAuthMagic replies.errno _ = r
    have datagram : r.datagram = authMessage magic.toNat [] := by rw [← round]; exact whole
    rw [← datagram] at none free
    rw [serveRound_malformed drms strerror none, if_pos free]
    exact ⟨_, rfl, Option.none, magic, rfl,
      by simp, by simp, by simp, by simp [text], fun _ => rfl⟩
  show ∃ turn, (authService drms strerror).handle (authMessage magic.toNat a.busid) replies =
    some turn ∧ _
  have small := magic.toNat_lt
  have whole : (authMessage magic.toNat a.busid).take 1023 = authMessage magic.toNat a.busid :=
    List.take_of_length_le ((authMessage_eq a magic).2.trans (by decide))
  obtain ⟨v, found, value⟩ := carried_authMessage a magic
  have low : toU32 (saturate v) = magic.toNat := by
    rw [value]
    simp only [toU32]
    omega
  have free := a.argumentFree_busid
  simp only [authService]
  generalize round : Round.mk _ replies.drmAuthMagic replies.errno _ = r
  have datagram : r.datagram = authMessage magic.toNat a.busid := by rw [← round]; exact whole
  have function : r.drmAuthMagic = replies.drmAuthMagic := by rw [← round]
  rw [← datagram] at found
  cases known : drms a.busid with
  | none =>
      have run := serveRound_unknown drms strerror found known
      rw [free] at run
      rw [run]
      refine ⟨_, rfl, some a, magic, rfl, ?_⟩
      have none : ¬ ∃ b ∈ some a, ∃ fd, masters b fd := by
        rintro ⟨b, same, fd, master⟩
        obtain rfl := Option.some.inj same
        rw [← exact, known] at master
        cases master
      exact ⟨by simp, by simp, fun some => absurd some none, by simp [text], fun _ => rfl⟩
  | some fd =>
      have master := (exact a fd).mp known
      by_cases granted : r.drmAuthMagic fd (toU32 (saturate v)) = 0
      · have run := serveRound_granted drms strerror found known granted
        rw [free] at run
        rw [run]
        refine ⟨_, rfl, some a, magic, rfl, ?_⟩
        exact ⟨by simp, by simp [low, master], by simp, by simp, fun other => absurd rfl other⟩
      · have run := serveRound_refused drms strerror found known granted
        rw [plain] at run
        rw [run]
        refine ⟨_, rfl, some a, magic, rfl, ?_⟩
        exact ⟨by simp, by simp [low, master], by simp, by simp [text, granted], fun _ => rfl⟩

/-! ## All requests -/

/-- **Authentication.** In every run of clients, network and server, the server
is up. Each turn it took serves a request that was sent from its port, and its
answer went to that port; an answer under way is that of such a turn. -/
theorem authenticationSystem_exact {o : MasterOutcomes} {strerror : Int → List Byte}
    {argv : List (List Byte)} {m : Masters} (run : o.main strerror argv = .ok (.serve m))
    (parents : ∀ e ∈ o.udev.filterMap UdevDevice.minor, ∃ b : PciAddress, e.sysname = b.sysname)
    (distinct : (o.pci.map PciDevice.address).Nodup)
    (plain : ∀ e, argumentFree (strerror e) = true)
    {s : AuthExchange} (reach : (authenticationSystem m.drms strerror).Reachable s) :
    s.ended = false ∧
    (∀ t ∈ s.turns, (t.1, t.2.answer) ∈ s.answers.sent ∧ ∃ a magic,
      (t.1, authMessage magic.toNat (callerBusid a)) ∈ s.requests.sent ∧
        t.2.Serves o.MasterOf a magic) ∧
    ∀ answer ∈ s.answers.inFlight, ∃ t ∈ s.turns, t.1 = answer.1 ∧ t.2.answer = answer.2 := by
  have right := Service.correct (fun datagram client replies => authService_serves
    (MasterOutcomes.drms_iff run parents distinct) plain client replies) reach
  refine ⟨right.up, fun t member => ⟨right.answered t member, ?_⟩, fun answer flying =>
    right.honest answer (s.answers.sourced answer flying)⟩
  obtain ⟨request, sent, port, a, magic, message, serves⟩ := right.turned t member
  refine ⟨a, magic, ?_, serves⟩
  rw [← message, ← port]
  exact sent

/-- A master of the second of two cards. -/
def secondCard : MasterOutcomes where
  uid := 0
  drmAvailable := true
  udev := twoCards
  pci := twoVendors
  openFile _ _ := 5
  drmSetMaster _ _ := 0
  errno _ := 0

/-- One client asks for the second card, and is served. -/
theorem authenticationSystem_exact_secondCard : ∃ (m : Masters) (s : AuthExchange),
    secondCard.main (fun _ => []) [text "drm_master"] = .ok (.serve m) ∧
    (authenticationSystem m.drms fun _ => []).Reachable s ∧ s.turns.map Prod.fst = [40000] ∧
    ∀ t ∈ s.turns, ∃ a magic, (t.1, authMessage magic.toNat (callerBusid a)) ∈ s.requests.sent ∧
      t.2.Serves secondCard.MasterOf a magic := by
  have starts : (match secondCard.main (fun _ => []) [text "drm_master"] with
      | .ok (.serve _) => true
      | _ => false) = true := by
    decide +kernel
  obtain ⟨m, run⟩ : ∃ m, secondCard.main (fun _ => []) [text "drm_master"] = .ok (.serve m) := by
    split at starts
    · next m run => exact ⟨m, run⟩
    · cases starts
  have distinct : (secondCard.pci.map PciDevice.address).Nodup := by decide
  have plain : ∀ e : Int, argumentFree ((fun _ => []) e) = true := fun _ => rfl
  obtain ⟨message, client⟩ : ∃ message, FromClient message := ⟨_, some ⟨0, 2, 0, 0⟩, 7, rfl⟩
  obtain ⟨turn, handled, -⟩ := authService_serves
    (MasterOutcomes.drms_iff run twoCards_pci distinct) plain client ⟨fun _ _ => 0, 0⟩
  have asked : (authenticationSystem m.drms fun _ => []).Reachable
      (⟨Datagrams.idle.send (40000, message), .idle, [], false⟩ : AuthExchange) := by
    refine .step (.init rfl) (i := .ask 40000 message) ⟨?_, rfl⟩
    rintro port request same
    cases same
    exact client
  have arrived : ((40000, message) : Nat × List Byte) ∈
      (Datagrams.idle.send ((40000, message) : Nat × List Byte)).inFlight := by
    simp
  have reach : (authenticationSystem m.drms fun _ => []).Reachable
      (⟨(Datagrams.idle.send (40000, message)).drop (40000, message),
        Datagrams.idle.send (40000, turn.answer), [(40000, turn)], false⟩ : AuthExchange) := by
    refine .step asked (i := .serve 40000 message ⟨fun _ _ => 0, 0⟩) ⟨fun _ _ other => ?_, ?_⟩
    · cases other
    · simp only [Service.next, arrived, handled, and_self, if_true]
      rfl
  have exact := authenticationSystem_exact run twoCards_pci distinct plain reach
  exact ⟨m, _, run, reach, rfl, fun t member => (exact.2.1 t member).2⟩

end RadeonsiCompute
