import RadeonsiCompute.Lib.BitField

/-!
# Type-3 packets

The headers the library builds with `PKT3C`, and the stream a command
processor reads: a header says how many dwords follow it, so a wrong count
shifts every later packet. A `Packet` carries the proof that its header counts
its body; parsing a stream and writing packets out are inverse to each other.
-/

namespace RadeonsiCompute

open Lib

abbrev Dword := BitVec 32

abbrev SizeT := BitVec 64

-- `PKT_TYPE_S` and `PKT_TYPE_G` are the `set` and the `get` of `pktType`, and so on.

def pktType : Field 32 := .of 30 0x3

def pktCount : Field 32 := .of 16 0x3FFF

def pkt3ItOpcode : Field 32 := .of 8 0xFF

def pkt3Predicate : Field 32 := .of 0 0x1

def pkt3ShaderType : Field 32 := .of 1 0x1

/-- `PKT3`. -/
def pkt3 (op count predicate : Dword) : Dword :=
  pktType.set 3 ||| pktCount.set count ||| pkt3ItOpcode.set op ||| pkt3Predicate.get predicate

/-- `PKT3C`, the header of a packet for the compute ring. -/
def pkt3c (op count predicate : Dword) : Dword := pkt3 op count predicate ||| 1#32 <<< 1

def pkt3CpDma : Dword := 0x41

def pkt3SurfaceSync : Dword := 0x43

def pkt3SetShReg : Dword := 0x76

section Header

variable (op count : Dword)

/-- A header without a predicate, as fields. -/
theorem pkt3c_eq : pkt3c op count 0#32 =
    pktType.set 3 ||| pktCount.set count ||| pkt3ItOpcode.set op ||| pkt3ShaderType.set 1 := by
  have predicate : pkt3Predicate.get 0#32 = 0#32 := Field.get_zero
  have shader : 1#32 <<< 1 = pkt3ShaderType.set 1 := by decide
  rw [pkt3c, pkt3, predicate, shader, BitVec.or_zero]

theorem pkt3c_type : pktType.get (pkt3c op count 0#32) = 3 := by
  rw [pkt3c_eq]
  simp (disch := decide) only [Field.get_or, Field.get_set_of_apart, Field.get_set_of_holds,
    BitVec.or_zero]

theorem pkt3c_count : pktCount.get (pkt3c op count 0#32) = count &&& 0x3FFF := by
  rw [pkt3c_eq]
  simp (disch := decide) only [Field.get_or, Field.get_set_of_apart, Field.get_set,
    BitVec.or_zero, BitVec.zero_or]
  rfl

theorem pkt3c_opcode : pkt3ItOpcode.get (pkt3c op count 0#32) = op &&& 0xFF := by
  rw [pkt3c_eq]
  simp (disch := decide) only [Field.get_or, Field.get_set_of_apart, Field.get_set,
    BitVec.or_zero, BitVec.zero_or]
  rfl

end Header

/-- A type-3 packet: `count + 1` dwords follow the header. -/
structure Packet where
  header : Dword
  body : List Dword
  type3 : pktType.get header = 3
  count : body.length = (pktCount.get header).toNat + 1

namespace Packet

def opcode (p : Packet) : Dword := pkt3ItOpcode.get p.header

/-- The packet as it stands in the stream. -/
def dwords (p : Packet) : List Dword := p.header :: p.body

/-- A packet `PKT3C` starts. -/
def compute (op count : Dword) (body : List Dword)
    (counts : body.length = (count &&& 0x3FFF).toNat + 1) : Packet where
  header := pkt3c op count 0#32
  body := body
  type3 := pkt3c_type op count
  count := by rw [pkt3c_count, counts]

end Packet

/-- Read a stream as packets. It must end where a packet ends. -/
def parsePackets : List Dword → Option (List Packet)
  | [] => some []
  | header :: rest =>
      if ok : pktType.get header = 3 ∧ (pktCount.get header).toNat + 1 ≤ rest.length then
        let p : Packet :=
          { header
            body := rest.take ((pktCount.get header).toNat + 1)
            type3 := ok.1
            count := List.length_take_of_le ok.2 }
        (parsePackets (rest.drop ((pktCount.get header).toNat + 1))).map (p :: ·)
      else none
  termination_by stream => stream.length
  decreasing_by
    rw [List.length_drop, List.length_cons]
    omega

theorem parsePackets_cons (p : Packet) (rest : List Dword) :
    parsePackets (p.dwords ++ rest) = (parsePackets rest).map (p :: ·) := by
  obtain ⟨header, body, type3, count⟩ := p
  have room : (pktCount.get header).toNat + 1 ≤ (body ++ rest).length := by
    rw [List.length_append, count]
    omega
  show parsePackets (header :: (body ++ rest)) = _
  rw [parsePackets, dif_pos ⟨type3, room⟩]
  dsimp only
  simp only [List.take_left' count, List.drop_left' count]

/-- Packets written out are read back. -/
theorem parsePackets_dwords (packets : List Packet) :
    parsePackets (packets.flatMap Packet.dwords) = some packets := by
  induction packets with
  | nil => rw [List.flatMap_nil, parsePackets]
  | cons p packets ih => rw [List.flatMap_cons, parsePackets_cons, ih, Option.map_some]

/-- What is read is what was there. -/
theorem dwords_of_parsePackets {stream : List Dword} :
    ∀ {packets : List Packet}, parsePackets stream = some packets →
      packets.flatMap Packet.dwords = stream := by
  induction stream using parsePackets.induct with
  | case1 =>
      intro packets parsed
      rw [parsePackets] at parsed
      obtain rfl := Option.some.inj parsed
      rfl
  | case2 header rest ok ih =>
      intro packets parsed
      rw [parsePackets, dif_pos ok] at parsed
      obtain ⟨later, found, rfl⟩ := Option.map_eq_some_iff.mp parsed
      rw [List.flatMap_cons, ih found]
      show header :: (rest.take _ ++ rest.drop _) = _
      rw [List.take_append_drop]
  | case3 header rest bad =>
      intro packets parsed
      rw [parsePackets, dif_neg bad] at parsed
      exact absurd parsed (by simp)

end RadeonsiCompute
