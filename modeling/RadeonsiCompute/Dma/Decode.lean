import RadeonsiCompute.Dma.Copy

/-!
# What the hardware makes of a DMA packet

The documented layouts of `PKT3_CP_DMA` and of the asynchronous copy packet,
read field by field. A synchronous request comes out as it was asked for; an
asynchronous one with aligned addresses loses the bytes that do not fill a
dword, and one without keeps the low 20 bits of its size.
-/

namespace RadeonsiCompute

open Lib

/-- An address from its two dwords. -/
def dmaAddress (hi lo : Dword) : Nat := hi.toNat * 2 ^ 32 + lo.toNat

/-! ## The synchronous packet -/

namespace CpDmaLayout

def cpSync : Field 32 := .of 31 0x1

def srcSel : Field 32 := .of 29 0x3

def engine : Field 32 := .of 27 0x1

def dstSel : Field 32 := .of 20 0x3

def srcAddrHi : Field 32 := .of 0 0xFFFF

def dstAddrHi : Field 32 := .of 0 0xFFFF

def rawWait : Field 32 := .of 30 0x1

def command : Field 32 := .of 22 0xFF

def byteCount : Field 32 := .of 0 0x1FFFFF

end CpDmaLayout

/-- A `PKT3_CP_DMA` packet. -/
structure CpDma where
  src : Nat
  dst : Nat
  byteCount : Nat
  cpSync : Bool
  rawWait : Bool
  srcSel : Dword
  dstSel : Dword
  engine : Dword
  command : Dword
  deriving DecidableEq, Repr

def decodeCpDma (p : Packet) : Option CpDma :=
  if p.opcode = pkt3CpDma then
    match p.body with
    | [srcLo, control, dstLo, dstHi, count] => some
        { src := dmaAddress (CpDmaLayout.srcAddrHi.get control) srcLo
          dst := dmaAddress (CpDmaLayout.dstAddrHi.get dstHi) dstLo
          byteCount := (CpDmaLayout.byteCount.get count).toNat
          cpSync := CpDmaLayout.cpSync.get control == 1
          rawWait := CpDmaLayout.rawWait.get count == 1
          srcSel := CpDmaLayout.srcSel.get control
          dstSel := CpDmaLayout.dstSel.get control
          engine := CpDmaLayout.engine.get control
          command := CpDmaLayout.command.get count }
    | _ => none
  else none

/-- The CP_DMA packets of an indirect buffer, if it holds nothing else. -/
def decodeSyncIb (ib : List Dword) : Option (List CpDma) :=
  (parsePackets ib).bind fun packets => packets.mapM decodeCpDma

theorem decodeSyncIb_nil : decodeSyncIb [] = some [] := by
  rw [decodeSyncIb, parsePackets]
  rfl

/-- Streams of packets are read one after the other. -/
theorem decodeSyncIb_append {ib ib' : List Dword} {packets packets' : List CpDma}
    (first : decodeSyncIb ib = some packets) (second : decodeSyncIb ib' = some packets') :
    decodeSyncIb (ib ++ ib') = some (packets ++ packets') := by
  obtain ⟨ps, parsed, decoded⟩ := Option.bind_eq_some_iff.mp first
  obtain ⟨ps', parsed', decoded'⟩ := Option.bind_eq_some_iff.mp second
  rw [← dwords_of_parsePackets parsed, ← dwords_of_parsePackets parsed', ← List.flatMap_append,
    decodeSyncIb, parsePackets_dwords, Option.bind_some, List.mapM_append, decoded, decoded']
  rfl

/-- What the packet moves, if it is from memory to memory without a swap. -/
def CpDma.move (p : CpDma) : Option Move :=
  if p.srcSel = 0 ∧ p.dstSel = 0 ∧ p.command = 0 then
    some { dst := p.dst, src := p.src, len := p.byteCount }
  else none

/-- Execute packets in order. -/
def execCpDmas {β : Type} (packets : List CpDma) (mem : Nat → β) : Option (Nat → β) :=
  packets.foldlM (fun mem p => p.move.map fun m => m.exec mem) mem

/-- Packets that move memory are executed move by move. -/
theorem execCpDmas_eq {β : Type} {packets : List CpDma} {moves : List Move}
    (all : packets.map CpDma.move = moves.map some) (mem : Nat → β) :
    execCpDmas packets mem = some (moves.foldl (fun mem m => m.exec mem) mem) := by
  induction packets generalizing moves mem with
  | nil =>
      obtain rfl : moves = [] := by simpa using all.symm
      rfl
  | cons p packets ih =>
      cases moves with
      | nil => exact absurd all (by simp)
      | cons m moves =>
          obtain ⟨first, later⟩ := List.cons.inj all
          rw [execCpDmas, List.foldlM_cons, first]
          exact ih later (m.exec mem)

section Words

variable (a : Dword) (x va : SizeT)

/-- Cutting to an `unsigned` undoes the sign extension. -/
theorem toUnsigned_or : toUnsigned (intToSize a ||| x) = a ||| toUnsigned x := by
  unfold toUnsigned intToSize
  apply BitVec.eq_of_getLsbD_eq
  intro i hi
  simp only [BitVec.getLsbD_setWidth, BitVec.getLsbD_or, BitVec.getLsbD_signExtend, hi,
    show i < 64 by omega, decide_true, Bool.true_and, if_true]

/-- The low dword of an address. -/
theorem toUnsigned_low : (toUnsigned (va &&& 0xFFFFFFFF#64)).toNat = va.toNat % 2 ^ 32 := by
  have ones : (0xFFFFFFFF#64).toNat = 2 ^ 32 - 1 := by decide
  rw [toUnsigned, BitVec.toNat_setWidth, BitVec.toNat_and, ones, Nat.and_two_pow_sub_one_eq_mod,
    Nat.mod_mod]

/-- The high dword of an address. -/
theorem toUnsigned_high : (toUnsigned (va >>> 32)).toNat = va.toNat / 2 ^ 32 := by
  have limit := va.isLt
  rw [toUnsigned, BitVec.toNat_setWidth, BitVec.toNat_ushiftRight, Nat.shiftRight_eq_div_pow]
  omega

theorem toUnsigned_and : toUnsigned (x &&& va) = toUnsigned x &&& toUnsigned va := by
  unfold toUnsigned
  exact BitVec.setWidth_and

end Words

/-- An address below `2 ^ (32 + n)` is put together again from its dwords. -/
theorem dmaAddress_eq {va : SizeT} {f : Field 32} {n : Nat} (ones : f.mask.toNat = 2 ^ n - 1)
    (below : va.toNat < 2 ^ (32 + n)) :
    dmaAddress (toUnsigned (va >>> 32) &&& f.mask) (toUnsigned (va &&& 0xFFFFFFFF#64)) =
      va.toNat := by
  have high : va.toNat / 2 ^ 32 < 2 ^ n := by
    rw [Nat.div_lt_iff_lt_mul (by decide), ← Nat.pow_add, Nat.add_comm]
    exact below
  rw [dmaAddress, toUnsigned_low, Field.toNat_and_mask ones, toUnsigned_high,
    Nat.mod_eq_of_lt high, Nat.mul_comm]
  exact Nat.div_add_mod _ _

section Sync

variable {srcVa dstVa size : SizeT} (syncFlag rawWaitFlag usePfpEngine : Bool)

/-- A C truth value in a one-bit field. -/
def ofFlag (flag : Bool) : Dword := if flag then 1 else 0

/-- The control dword, as fields. -/
theorem syncDmaBuf_control : toUnsigned (intToSize ((if syncFlag then pkt3CpDmaCpSync else 0) |||
      pkt3CpDmaEngine (if usePfpEngine then 1 else 0)) ||| (srcVa >>> 32 &&& 0xFFFF#64)) =
    CpDmaLayout.cpSync.set (ofFlag syncFlag) ||| CpDmaLayout.engine.set (ofFlag usePfpEngine) |||
      CpDmaLayout.srcAddrHi.set (toUnsigned (srcVa >>> 32)) := by
  have sync : (if syncFlag then pkt3CpDmaCpSync else 0) =
      CpDmaLayout.cpSync.set (ofFlag syncFlag) := by
    cases syncFlag <;> decide
  have engine : pkt3CpDmaEngine (if usePfpEngine then 1 else 0) =
      CpDmaLayout.engine.set (ofFlag usePfpEngine) := by
    cases usePfpEngine <;> decide
  have high : toUnsigned (srcVa >>> 32 &&& 0xFFFF#64) =
      CpDmaLayout.srcAddrHi.set (toUnsigned (srcVa >>> 32)) := by
    have mask : toUnsigned 0xFFFF#64 = CpDmaLayout.srcAddrHi.mask := by decide
    rw [toUnsigned_and, mask, Field.set_of_off rfl]
  rw [toUnsigned_or, sync, engine, high]

/-- The last dword, as fields. -/
theorem syncDmaBuf_count (fair : size.toNat < 2 ^ 21) :
    toUnsigned (intToSize (if rawWaitFlag then pkt3CpDmaCmdRawWait else 0) ||| size) =
      CpDmaLayout.rawWait.set (ofFlag rawWaitFlag) |||
        CpDmaLayout.byteCount.set (toUnsigned size) := by
  have wait : (if rawWaitFlag then pkt3CpDmaCmdRawWait else 0) =
      CpDmaLayout.rawWait.set (ofFlag rawWaitFlag) := by
    cases rawWaitFlag <;> decide
  have narrow : (toUnsigned size).toNat = size.toNat := by
    rw [toUnsigned, BitVec.toNat_setWidth, Nat.mod_eq_of_lt (by omega)]
  have holds : CpDmaLayout.byteCount.Holds (toUnsigned size) :=
    (Field.holds_iff_lt (n := 21) (by decide)).mpr (by rw [narrow]; exact fair)
  have count : CpDmaLayout.byteCount.set (toUnsigned size) = toUnsigned size := by
    rw [Field.set_of_off rfl, holds]
  rw [toUnsigned_or, wait, count]

/-- The packet of a synchronous request. -/
def syncDmaPacket (srcVa dstVa size : SizeT) : Packet :=
  .compute pkt3CpDma 4 (syncDmaBuf srcVa dstVa size syncFlag rawWaitFlag usePfpEngine).tail
    (show 5 = (4 &&& 0x3FFF : Dword).toNat + 1 by decide)

/-- A synchronous request comes out of its packet as it was asked for. -/
theorem decodeCpDma_sync (srcBelow : srcVa.toNat < 2 ^ 48) (dstBelow : dstVa.toNat < 2 ^ 48)
    (fair : size.toNat < 2 ^ 21) :
    decodeCpDma (syncDmaPacket syncFlag rawWaitFlag usePfpEngine srcVa dstVa size) = some
      { src := srcVa.toNat, dst := dstVa.toNat, byteCount := size.toNat, cpSync := syncFlag
        rawWait := rawWaitFlag, srcSel := 0, dstSel := 0, engine := ofFlag usePfpEngine
        command := 0 } := by
  have opcode : (syncDmaPacket syncFlag rawWaitFlag usePfpEngine srcVa dstVa size).opcode =
      pkt3CpDma := (pkt3c_opcode _ _).trans (by decide)
  have src := dmaAddress_eq (f := CpDmaLayout.srcAddrHi) (n := 16) (by decide) srcBelow
  have dst := dmaAddress_eq (f := CpDmaLayout.dstAddrHi) (n := 16) (by decide) dstBelow
  have narrow : (toUnsigned size).toNat = size.toNat := by
    rw [toUnsigned, BitVec.toNat_setWidth, Nat.mod_eq_of_lt (by omega)]
  have dstHigh : toUnsigned (dstVa >>> 32 &&& 0xffff#64) =
      CpDmaLayout.dstAddrHi.set (toUnsigned (dstVa >>> 32)) := by
    have mask : toUnsigned 0xffff#64 = CpDmaLayout.dstAddrHi.mask := by decide
    rw [toUnsigned_and, mask, Field.set_of_off rfl]
  rw [decodeCpDma, if_pos opcode]
  simp only [syncDmaPacket, Packet.compute, syncDmaBuf, List.tail_cons, syncDmaBuf_control,
    syncDmaBuf_count rawWaitFlag fair, dstHigh]
  simp (disch := decide) only [Field.get_or, Field.get_set_of_apart, Field.get_set,
    BitVec.or_zero, BitVec.zero_or, src, dst]
  have count : (toUnsigned size &&& CpDmaLayout.byteCount.mask).toNat = size.toNat := by
    rw [Field.toNat_and_mask (n := 21) (by decide), narrow, Nat.mod_eq_of_lt fair]
  have sync : (ofFlag syncFlag &&& CpDmaLayout.cpSync.mask == 1) = syncFlag := by
    cases syncFlag <;> decide
  have wait : (ofFlag rawWaitFlag &&& CpDmaLayout.rawWait.mask == 1) = rawWaitFlag := by
    cases rawWaitFlag <;> decide
  have engine : ofFlag usePfpEngine &&& CpDmaLayout.engine.mask = ofFlag usePfpEngine := by
    cases usePfpEngine <;> decide
  rw [count, sync, wait, engine]
  rfl

/-- Read as an indirect buffer, it is this one packet. -/
theorem decodeSyncIb_sync (srcBelow : srcVa.toNat < 2 ^ 48) (dstBelow : dstVa.toNat < 2 ^ 48)
    (fair : size.toNat < 2 ^ 21) :
    decodeSyncIb (syncDmaBuf srcVa dstVa size syncFlag rawWaitFlag usePfpEngine) = some
      [{ src := srcVa.toNat, dst := dstVa.toNat, byteCount := size.toNat, cpSync := syncFlag
         rawWait := rawWaitFlag, srcSel := 0, dstSel := 0, engine := ofFlag usePfpEngine
         command := 0 }] := by
  have parsed := parsePackets_dwords
    [syncDmaPacket syncFlag rawWaitFlag usePfpEngine srcVa dstVa size]
  rw [List.flatMap_singleton] at parsed
  have stream : (syncDmaPacket syncFlag rawWaitFlag usePfpEngine srcVa dstVa size).dwords =
    syncDmaBuf srcVa dstVa size syncFlag rawWaitFlag usePfpEngine := rfl
  rw [stream] at parsed
  rw [decodeSyncIb, parsed, Option.bind_some, List.mapM_cons,
    decodeCpDma_sync syncFlag rawWaitFlag usePfpEngine srcBelow dstBelow fair]
  rfl

end Sync

/-! ## The asynchronous packet -/

namespace DmaLayout

def cmd : Field 32 := .of 28 0xF

def subCmd : Field 32 := .of 20 0xFF

def count : Field 32 := .of 0 0xFFFFF

def addrHi : Field 32 := .of 0 0xFF

end DmaLayout

/-- A `DMA_PACKET_COPY` packet: sub-command 0x00 counts dwords, 0x40 bytes. -/
def decodeAsyncIb : List Dword → Option Move
  | [header, dstLo, srcLo, dstHi, srcHi] =>
      let dst := dmaAddress (DmaLayout.addrHi.get dstHi) dstLo
      let src := dmaAddress (DmaLayout.addrHi.get srcHi) srcLo
      let count := (DmaLayout.count.get header).toNat
      if DmaLayout.cmd.get header = dmaPacketCopy then
        if DmaLayout.subCmd.get header = 0x00 then some { dst, src, len := count * 4 }
        else if DmaLayout.subCmd.get header = 0x40 then some { dst, src, len := count }
        else none
      else none
  | _ => none

section Async

variable {srcVa dstVa size : SizeT}

/-- The header, as fields. -/
theorem dmaPacket_eq (cmd subCmd : Dword) (n : SizeT) : dmaPacket cmd subCmd n =
    DmaLayout.cmd.set cmd ||| DmaLayout.subCmd.set subCmd |||
      DmaLayout.count.set (toUnsigned n) := by
  have count : toUnsigned ((n &&& 0xFFFFF#64) <<< 0) = DmaLayout.count.set (toUnsigned n) := by
    have mask : toUnsigned 0xFFFFF#64 = DmaLayout.count.mask := by decide
    rw [BitVec.shiftLeft_zero, toUnsigned_and, mask, Field.set_of_off rfl]
  rw [dmaPacket, toUnsigned_or, count]
  rfl

/-- Both addresses are dword addresses. -/
def Aligned (srcVa dstVa : SizeT) : Prop := srcVa.toNat % 4 = 0 ∧ dstVa.toNat % 4 = 0

instance (srcVa dstVa : SizeT) : Decidable (Aligned srcVa dstVa) :=
  inferInstanceAs (Decidable (_ ∧ _))

theorem aligned_iff : srcVa &&& 3#64 = 0 ∧ dstVa &&& 3#64 = 0 ↔ Aligned srcVa dstVa := by
  have low : ∀ va : SizeT, va &&& 3#64 = 0 ↔ va.toNat % 4 = 0 := by
    intro va
    have ones : (3#64).toNat = 2 ^ 2 - 1 := by decide
    rw [← BitVec.toNat_inj, BitVec.toNat_and, ones, Nat.and_two_pow_sub_one_eq_mod]
    exact Iff.rfl
  rw [low, low, Aligned]

/-- The bytes an asynchronous request of `size` bytes moves. -/
def asyncBytes (srcVa dstVa size : SizeT) : Nat :=
  if Aligned srcVa dstVa then size.toNat / 4 * 4 else size.toNat % 2 ^ 20

/-- An asynchronous request keeps its addresses, but not always its size. -/
theorem decodeAsyncIb_async (srcBelow : srcVa.toNat < 2 ^ 40) (dstBelow : dstVa.toNat < 2 ^ 40)
    (fair : size.toNat < 2 ^ 21) :
    decodeAsyncIb (asyncDmaBuf srcVa dstVa size) = some
      { dst := dstVa.toNat, src := srcVa.toNat, len := asyncBytes srcVa dstVa size } := by
  have addr : ∀ va : SizeT, toUnsigned (va >>> 32 &&& 0xFF#64 ||| intToSize (0#32 <<< 8)) =
      DmaLayout.addrHi.set (toUnsigned (va >>> 32)) := by
    intro va
    have mask : toUnsigned 0xFF#64 = DmaLayout.addrHi.mask := by decide
    have swap : intToSize (0#32 <<< 8) = 0#64 := by decide
    rw [swap, BitVec.or_zero, toUnsigned_and, mask, Field.set_of_off rfl]
  have src := dmaAddress_eq (f := DmaLayout.addrHi) (n := 8) (by decide) srcBelow
  have dst := dmaAddress_eq (f := DmaLayout.addrHi) (n := 8) (by decide) dstBelow
  have count : ∀ n : SizeT, n.toNat < 2 ^ 32 →
      (toUnsigned n &&& DmaLayout.count.mask).toNat = n.toNat % 2 ^ 20 := by
    intro n narrow
    rw [Field.toNat_and_mask (n := 20) (by decide), toUnsigned, BitVec.toNat_setWidth,
      Nat.mod_eq_of_lt narrow]
  by_cases aligned : Aligned srcVa dstVa
  · have quotient : (size / 4#64).toNat = size.toNat / 4 := by
      rw [BitVec.toNat_udiv]
      rfl
    rw [asyncDmaBuf, if_pos (aligned_iff.mpr aligned), asyncBytes, if_pos aligned, dmaPacket_eq,
      addr, addr]
    simp (disch := decide) only [decodeAsyncIb, Field.get_or, Field.get_set_of_apart,
      Field.get_set, BitVec.or_zero, BitVec.zero_or, src, dst]
    rw [count _ (by omega), quotient, Nat.mod_eq_of_lt (by omega), if_pos (by decide),
      if_pos (by decide)]
  · rw [asyncDmaBuf, if_neg (mt aligned_iff.mp aligned), asyncBytes, if_neg aligned, dmaPacket_eq,
      addr, addr]
    simp (disch := decide) only [decodeAsyncIb, Field.get_or, Field.get_set_of_apart,
      Field.get_set, BitVec.or_zero, BitVec.zero_or, src, dst]
    rw [count _ (by omega), if_pos (by decide), if_neg (by decide), if_pos (by decide)]

end Async

end RadeonsiCompute
