import RadeonsiCompute.Shader.Code
import RadeonsiCompute.Shader.Format

/-!
# Programs decode to the calls that built them

The instruction each call asks for, with the opcode the register header gives
it, and the words a format packs it into. A builder writes just these words,
so a program of calls is framed and read as it was written.
-/

namespace RadeonsiCompute

open Lib

/-- The instruction a call asks for. -/
def BuilderCall.instr : BuilderCall → Instr SqFormat 32
  | .mtbuf nfmt dfmt op addr64 glc idxen offen offset soffset tfe slc srsrc vdata vaddr =>
      ⟨.mtbuf, op, [offset, offen, idxen, glc, addr64, dfmt, nfmt],
        [[vaddr, vdata, srsrc, slc, tfe, soffset]], none⟩
  | .mubuf soffset tfe slc srsrc vdata vaddr op lds addr64 glc idxen offen offset =>
      ⟨.mubuf, op, [offset, offen, idxen, glc, addr64, lds],
        [[vaddr, vdata, srsrc, slc, tfe, soffset]], none⟩
  | .sLoadDword sbase sdst offset imm =>
      ⟨.smrd, SqOp.sLoadDword, [sdst, sbase, imm, offset], [], none⟩
  | .smrd op sdst sbase imm offset => ⟨.smrd, op, [sdst, sbase, imm, offset], [], none⟩
  | .sMemtime sdst => ⟨.smrd, SqOp.sMemtime, [sdst, 0, 0, 0], [], none⟩
  | .sMovImm32 sdst imm => ⟨.sop1, SqOp.sMovB32, [sdst, 255], [], some imm⟩
  | .sMovB32 sdst src => ⟨.sop1, SqOp.sMovB32, [sdst, src], [], none⟩
  | .sMovB64 sdst src => ⟨.sop1, SqOp.sMovB64, [sdst, src], [], none⟩
  | .sGetpcB64 sdst => ⟨.sop1, SqOp.sGetpcB64, [sdst, 0], [], none⟩
  | .sSwappcB64 sdst ssrc0 => ⟨.sop1, SqOp.sSwappcB64, [sdst, ssrc0], [], none⟩
  | .sRfeB64 => ⟨.sop1, SqOp.sRfeB64, [0, 0], [], none⟩
  | .sGetregB32 sdst size offset hwregid =>
      ⟨.sopk, SqOp.sGetregB32, [sdst, size, offset, hwregid], [], none⟩
  | .sWaitcnt => ⟨.sopp, SqOp.sWaitcnt, [0], [], none⟩
  | .sSleep imm => ⟨.sopp, SqOp.sSleep, [imm], [], none⟩
  | .sEndpgm => ⟨.sopp, SqOp.sEndpgm, [0], [], none⟩
  | .sTrap trapId => ⟨.sopp, SqOp.sTrap, [trapId.setWidth 32], [], none⟩
  | .sNop => ⟨.sopp, SqOp.sNop, [0], [], none⟩
  | .sopc op ssrc1 ssrc0 => ⟨.sopc, op, [ssrc1, ssrc0], [], none⟩
  | .sCmpLtI32 ssrc1 ssrc0 => ⟨.sopc, SqOp.sCmpLtI32, [ssrc1, ssrc0], [], none⟩
  | .sCmpGtI32 ssrc1 ssrc0 => ⟨.sopc, SqOp.sCmpGtI32, [ssrc1, ssrc0], [], none⟩
  | .sop2 op sdst ssrc1 ssrc0 => ⟨.sop2, op, [sdst, ssrc1, ssrc0], [], none⟩
  | .sAddI32 sdst ssrc1 ssrc0 => ⟨.sop2, SqOp.sAddI32, [sdst, ssrc1, ssrc0], [], none⟩
  | .sAndB32 sdst ssrc1 ssrc0 => ⟨.sop2, SqOp.sAndB32, [sdst, ssrc1, ssrc0], [], none⟩
  | .sAndB64 sdst ssrc1 ssrc0 => ⟨.sop2, SqOp.sAndB64, [sdst, ssrc1, ssrc0], [], none⟩
  | .sop1 op vdst src0 => ⟨.vop1, op, [vdst, src0], [], none⟩
  | .vMovB32 vdst src0 => ⟨.vop1, SqOp.vMovB32, [vdst, src0], [], none⟩
  | .vSinF32 vdst src0 => ⟨.vop1, SqOp.vSinF32, [vdst, src0], [], none⟩
  | .vLogF32 vdst src0 => ⟨.vop1, SqOp.vLogF32, [vdst, src0], [], none⟩
  | .vRcpF32 vdst src0 => ⟨.vop1, SqOp.vRcpF32, [vdst, src0], [], none⟩
  | .vRcpF64 vdst src0 => ⟨.vop1, SqOp.vRcpF64, [vdst, src0], [], none⟩
  | .vSqrtF32 vdst src0 => ⟨.vop1, SqOp.vSqrtF32, [vdst, src0], [], none⟩
  | .vSqrtF64 vdst src0 => ⟨.vop1, SqOp.vSqrtF64, [vdst, src0], [], none⟩
  | .vBfrevB32 vdst src0 => ⟨.vop1, SqOp.vBfrevB32, [vdst, src0], [], none⟩
  | .vCvtI32F32 vdst src0 => ⟨.vop1, SqOp.vCvtI32F32, [vdst, src0], [], none⟩
  | .vCvtF32I32 vdst src0 => ⟨.vop1, SqOp.vCvtF32I32, [vdst, src0], [], none⟩
  | .vMovImm32 vdst imm => ⟨.vop1, SqOp.vMovB32, [vdst, 255], [], some imm⟩
  | .vMulI32I24 vdst vsrc1 src0 => ⟨.vop2, SqOp.vMulI32I24, [vdst, vsrc1, src0], [], none⟩
  | .vMulF32 vdst vsrc1 src0 => ⟨.vop2, SqOp.vMulF32, [vdst, vsrc1, src0], [], none⟩
  | .vAddF32 vdst vsrc1 src0 => ⟨.vop2, SqOp.vAddF32, [vdst, vsrc1, src0], [], none⟩
  | .vAndB32 vdst vsrc1 src0 => ⟨.vop2, SqOp.vAndB32, [vdst, vsrc1, src0], [], none⟩
  | .vSubF32 vdst vsrc1 src0 => ⟨.vop2, SqOp.vSubF32, [vdst, vsrc1, src0], [], none⟩
  | .vAddI32 vdst vsrc1 src0 => ⟨.vop2, SqOp.vAddI32, [vdst, vsrc1, src0], [], none⟩
  | .vMulI32I24Imm32 vdst vsrc1 imm32 =>
      ⟨.vop2, SqOp.vMulI32I24, [vdst, vsrc1, 255], [], some imm32⟩
  | .vMulF32Imm32 vdst vsrc1 f => ⟨.vop2, SqOp.vMulF32, [vdst, vsrc1, 255], [], some f⟩
  | .vAddF32Imm32 vdst vsrc1 f => ⟨.vop2, SqOp.vAddF32, [vdst, vsrc1, 255], [], some f⟩
  | .vAddI32Imm32 vdst vsrc1 imm32 => ⟨.vop2, SqOp.vAddI32, [vdst, vsrc1, 255], [], some imm32⟩
  | .vop3a vdst abs clamp op src0 src1 src2 omod neg =>
      ⟨.vop3, op, [vdst, abs, clamp], [[src0, src1, src2, omod, neg]], none⟩
  | .vFmaF32 vdst abs clamp src0 src1 src2 omod neg =>
      ⟨.vop3, SqOp.vFmaF32, [vdst, abs, clamp], [[src0, src1, src2, omod, neg]], none⟩
  | .vMulLoI32 vdst src0 src1 =>
      ⟨.vop3, SqOp.vMulLoI32, [vdst, 0, 0], [[src0, src1, 0, 0, 0]], none⟩
  | .vMulHiI32 vdst src0 src1 =>
      ⟨.vop3, SqOp.vMulHiI32, [vdst, 0, 0], [[src0, src1, 0, 0, 0]], none⟩

/-- The opcode and the operands are within the widths of their fields, a source is 255 only
before a literal, and an opcode of `SOP2` leaves the longer encodings alone. -/
structure BuilderCall.Legal (c : BuilderCall) : Prop where
  op : (si.format c.instr.format).op.Holds c.instr.op
  operands : Slot.Fits ((si.format c.instr.format).slots c.instr.op) c.instr.operands
  more : List.Forall₂ Slot.Fits ((si.format c.instr.format).more c.instr.op) c.instr.more
  source : c.instr.literal = none → 255 ∉ si.sources c.instr
  own : c.instr.format = .sop2 → c.instr.op.toNat < 0x60

instance (c : BuilderCall) : Decidable c.Legal :=
  decidable_of_iff (_ ∧ _ ∧ _ ∧ _ ∧ _)
    ⟨fun ⟨op, operands, more, source, own⟩ => ⟨op, operands, more, source, own⟩,
      fun ⟨op, operands, more, source, own⟩ => ⟨op, operands, more, source, own⟩⟩

namespace CodeHelper

/-! ## The words of the builders -/

section Words

variable {op : Dword}

theorem scalarWord_eq {sdst ssrc0 : Dword} (holds : Sq.sop1.op.Holds op)
    (fits : Slot.Fits (Sq.sop1.slots op) [sdst, ssrc0]) :
    scalarWord op sdst ssrc0 = Sq.sop1.firstWord op [sdst, ssrc0] := by
  rw [Format.firstWord_eq fits holds]
  show scalarWord op sdst ssrc0 =
    0xBE800000#32 ||| (op <<< 8 ||| (sdst <<< 16 ||| (ssrc0 <<< 0 ||| 0#32)))
  simp only [scalarWord, BitVec.shiftLeft_zero, BitVec.or_zero, BitVec.or_assoc, BitVec.or_comm,
    bitVec_or_left_comm]

theorem programWord_eq {simm16 : Dword} (holds : Sq.sopp.op.Holds op)
    (fits : Slot.Fits (Sq.sopp.slots op) [simm16]) :
    programWord op simm16 = Sq.sopp.firstWord op [simm16] := by
  rw [Format.firstWord_eq fits holds]
  show programWord op simm16 = 0xBF800000#32 ||| (op <<< 16 ||| (simm16 <<< 0 ||| 0#32))
  simp only [programWord, BitVec.shiftLeft_zero, BitVec.or_zero, BitVec.or_assoc]

theorem vectorWord_eq {vdst src0 : Dword} (holds : Sq.vop1.op.Holds op)
    (fits : Slot.Fits (Sq.vop1.slots op) [vdst, src0]) :
    vectorWord op vdst src0 = Sq.vop1.firstWord op [vdst, src0] := by
  rw [Format.firstWord_eq fits holds]
  show vectorWord op vdst src0 =
    0x7E000000#32 ||| (op <<< 9 ||| (vdst <<< 17 ||| (src0 <<< 0 ||| 0#32)))
  simp only [vectorWord, BitVec.shiftLeft_zero, BitVec.or_zero, BitVec.or_assoc, BitVec.or_comm,
    bitVec_or_left_comm]

theorem arithmeticWord_eq {vdst vsrc1 src0 : Dword} (holds : Sq.vop2.op.Holds op)
    (fits : Slot.Fits (Sq.vop2.slots op) [vdst, vsrc1, src0]) :
    arithmeticWord op vdst vsrc1 src0 = Sq.vop2.firstWord op [vdst, vsrc1, src0] := by
  rw [Format.firstWord_eq fits holds]
  show arithmeticWord op vdst vsrc1 src0 =
    0#32 ||| (op <<< 25 ||| (vdst <<< 17 ||| (vsrc1 <<< 9 ||| (src0 <<< 0 ||| 0#32))))
  simp only [arithmeticWord, BitVec.shiftLeft_zero, BitVec.or_zero, BitVec.zero_or,
    BitVec.or_comm, bitVec_or_left_comm]

theorem sopc_eq {ssrc1 ssrc0 : Dword} (holds : Sq.sopc.op.Holds op)
    (fits : Slot.Fits (Sq.sopc.slots op) [ssrc1, ssrc0]) :
    sopc op ssrc1 ssrc0 = [Sq.sopc.firstWord op [ssrc1, ssrc0]] := by
  rw [Format.firstWord_eq fits holds]
  show sopc op ssrc1 ssrc0 =
    [0xBF000000#32 ||| (op <<< 16 ||| (ssrc1 <<< 8 ||| (ssrc0 <<< 0 ||| 0#32)))]
  simp only [sopc, BitVec.shiftLeft_zero, BitVec.or_zero, BitVec.or_assoc, BitVec.or_comm,
    bitVec_or_left_comm]

theorem sop2_eq {sdst ssrc1 ssrc0 : Dword} (holds : Sq.sop2.op.Holds op)
    (fits : Slot.Fits (Sq.sop2.slots op) [sdst, ssrc1, ssrc0]) :
    sop2 op sdst ssrc1 ssrc0 = [Sq.sop2.firstWord op [sdst, ssrc1, ssrc0]] := by
  rw [Format.firstWord_eq fits holds]
  show sop2 op sdst ssrc1 ssrc0 =
    [0x80000000#32 ||| (op <<< 23 ||| (sdst <<< 16 ||| (ssrc1 <<< 8 ||| (ssrc0 <<< 0 ||| 0#32))))]
  simp only [sop2, BitVec.or_zero, BitVec.or_assoc]

theorem smrd_eq {sdst sbase imm offset : Dword} (holds : Sq.smrd.op.Holds op)
    (fits : Slot.Fits (Sq.smrd.slots op) [sdst, sbase, imm, offset]) :
    smrd op sdst sbase imm offset = [Sq.smrd.firstWord op [sdst, sbase, imm, offset]] := by
  rw [Format.firstWord_eq fits holds]
  show smrd op sdst sbase imm offset =
    [0xC0000000#32 ||| (op <<< 22 ||| (sdst <<< 15 ||| (sbase <<< 9 ||| (imm <<< 8 |||
      (offset <<< 0 ||| 0#32)))))]
  simp only [smrd, BitVec.or_zero, BitVec.or_assoc]

/-- The load writes the fields of `smrd` in another order. -/
theorem sLoadDword_eq_smrd (sbase sdst offset imm : Dword) :
    sLoadDword sbase sdst offset imm = smrd SqOp.sLoadDword sdst sbase imm offset := by
  show sLoadDword sbase sdst offset imm = smrd 0#32 sdst sbase imm offset
  simp only [sLoadDword, smrd, BitVec.shiftLeft_zero, BitVec.zero_shiftLeft, BitVec.or_comm,
    bitVec_or_left_comm]

theorem sGetregB32_eq {sdst size offset hwregid : Dword}
    (fits : Slot.Fits (Sq.sopk.slots SqOp.sGetregB32) [sdst, size, offset, hwregid]) :
    sGetregB32 sdst size offset hwregid =
      [Sq.sopk.firstWord SqOp.sGetregB32 [sdst, size, offset, hwregid]] := by
  rw [Format.firstWord_eq fits (by decide)]
  show sGetregB32 sdst size offset hwregid =
    [0xB0000000#32 ||| (18#32 <<< 23 ||| (sdst <<< 16 ||| (size <<< 11 ||| (offset <<< 6 |||
      (hwregid <<< 0 ||| 0#32)))))]
  simp only [sGetregB32, BitVec.shiftLeft_zero, BitVec.or_zero, BitVec.or_assoc, BitVec.or_comm,
    bitVec_or_left_comm]

theorem bufferWord_eq {vaddr vdata srsrc slc tfe soffset : Dword}
    (fits : Slot.Fits Sq.bufferMore [vaddr, vdata, srsrc, slc, tfe, soffset]) :
    bufferWord soffset tfe slc srsrc vdata vaddr =
      Field.pack (Slot.fields Sq.bufferMore [vaddr, vdata, srsrc, slc, tfe, soffset]) := by
  rw [Slot.pack_eq fits]
  show bufferWord soffset tfe slc srsrc vdata vaddr =
    vaddr <<< 0 ||| (vdata <<< 8 ||| (srsrc <<< 16 ||| (slc <<< 22 ||| (tfe <<< 23 |||
      (soffset <<< 24 ||| 0#32)))))
  simp only [bufferWord, BitVec.shiftLeft_zero, BitVec.or_zero, BitVec.or_assoc]

section Buffer

variable {offset offen idxen glc addr64 vaddr vdata srsrc slc tfe soffset : Dword}

theorem mtbuf_eq {dfmt nfmt : Dword} (holds : Sq.mtbuf.op.Holds op)
    (fits : Slot.Fits (Sq.mtbuf.slots op) [offset, offen, idxen, glc, addr64, dfmt, nfmt])
    (fitsMore : Slot.Fits Sq.bufferMore [vaddr, vdata, srsrc, slc, tfe, soffset]) :
    mtbuf nfmt dfmt op addr64 glc idxen offen offset soffset tfe slc srsrc vdata vaddr =
      [Sq.mtbuf.firstWord op [offset, offen, idxen, glc, addr64, dfmt, nfmt],
        Field.pack (Slot.fields Sq.bufferMore [vaddr, vdata, srsrc, slc, tfe, soffset])] := by
  rw [Format.firstWord_eq fits holds, mtbuf, bufferWord_eq fitsMore]
  show [_, _] =
    [0xE8000000#32 ||| (op <<< 16 ||| (offset <<< 0 ||| (offen <<< 12 ||| (idxen <<< 13 |||
      (glc <<< 14 ||| (addr64 <<< 15 ||| (dfmt <<< 19 ||| (nfmt <<< 23 ||| 0#32)))))))), _]
  simp only [BitVec.shiftLeft_zero, BitVec.zero_or, BitVec.or_assoc, BitVec.or_comm,
    bitVec_or_left_comm]

theorem mubuf_eq {lds : Dword} (holds : Sq.mubuf.op.Holds op)
    (fits : Slot.Fits (Sq.mubuf.slots op) [offset, offen, idxen, glc, addr64, lds])
    (fitsMore : Slot.Fits Sq.bufferMore [vaddr, vdata, srsrc, slc, tfe, soffset]) :
    mubuf soffset tfe slc srsrc vdata vaddr op lds addr64 glc idxen offen offset =
      [Sq.mubuf.firstWord op [offset, offen, idxen, glc, addr64, lds],
        Field.pack (Slot.fields Sq.bufferMore [vaddr, vdata, srsrc, slc, tfe, soffset])] := by
  rw [Format.firstWord_eq fits holds, mubuf, bufferWord_eq fitsMore]
  show [_, _] =
    [0xE0000000#32 ||| (op <<< 18 ||| (offset <<< 0 ||| (offen <<< 12 ||| (idxen <<< 13 |||
      (glc <<< 14 ||| (addr64 <<< 15 ||| (lds <<< 16 ||| 0#32))))))), _]
  simp only [BitVec.shiftLeft_zero, BitVec.zero_or, BitVec.or_assoc, BitVec.or_comm,
    bitVec_or_left_comm]

end Buffer

theorem vop3a_eq {vdst abs clamp src0 src1 src2 omod neg : Dword} (holds : Sq.vop3.op.Holds op)
    (fits : Slot.Fits (Sq.vop3.slots op) [vdst, abs, clamp])
    (fitsMore : Slot.Fits Sq.vop3More [src0, src1, src2, omod, neg]) :
    vop3a vdst abs clamp op src0 src1 src2 omod neg =
      [Sq.vop3.firstWord op [vdst, abs, clamp],
        Field.pack (Slot.fields Sq.vop3More [src0, src1, src2, omod, neg])] := by
  rw [Format.firstWord_eq fits holds, Slot.pack_eq fitsMore]
  show vop3a vdst abs clamp op src0 src1 src2 omod neg =
    [0xD0000000#32 ||| (op <<< 17 ||| (vdst <<< 0 ||| (abs <<< 8 ||| (clamp <<< 11 ||| 0#32)))),
      src0 <<< 0 ||| (src1 <<< 9 ||| (src2 <<< 18 ||| (omod <<< 27 ||| (neg <<< 29 ||| 0#32))))]
  simp only [vop3a, BitVec.shiftLeft_zero, BitVec.zero_or, BitVec.or_zero, BitVec.or_assoc,
    BitVec.or_comm, bitVec_or_left_comm]

end Words

end CodeHelper

/-! ## Calls as instructions -/

namespace BuilderCall

variable {c : BuilderCall}

open CodeHelper in
/-- A builder writes the words of the instruction it is called for. -/
theorem Legal.dwords_eq (legal : c.Legal) : c.dwords = si.encode c.instr := by
  cases c with
  | mtbuf => exact mtbuf_eq legal.op legal.operands (List.forall₂_cons.mp legal.more).1
  | mubuf => exact mubuf_eq legal.op legal.operands (List.forall₂_cons.mp legal.more).1
  | sLoadDword => exact (sLoadDword_eq_smrd _ _ _ _).trans (smrd_eq legal.op legal.operands)
  | smrd => exact smrd_eq legal.op legal.operands
  | sMemtime => exact smrd_eq legal.op legal.operands
  | sMovImm32 => exact congrArg (· :: [_]) (scalarWord_eq legal.op legal.operands)
  | sMovB32 => exact congrArg (· :: []) (scalarWord_eq legal.op legal.operands)
  | sMovB64 => exact congrArg (· :: []) (scalarWord_eq legal.op legal.operands)
  | sGetpcB64 => exact congrArg (· :: []) (scalarWord_eq legal.op legal.operands)
  | sSwappcB64 => exact congrArg (· :: []) (scalarWord_eq legal.op legal.operands)
  | sRfeB64 => exact congrArg (· :: []) (scalarWord_eq legal.op legal.operands)
  | sGetregB32 => exact sGetregB32_eq legal.operands
  | sWaitcnt => exact congrArg (· :: []) (programWord_eq legal.op legal.operands)
  | sSleep imm =>
      have holds : imm &&& 0xFFFF = imm := (List.forall₂_cons.mp legal.operands).1
      show [programWord 14 (imm &&& 0xFFFF)] = _
      rw [holds]
      exact congrArg (· :: []) (programWord_eq legal.op legal.operands)
  | sEndpgm => exact congrArg (· :: []) (programWord_eq legal.op legal.operands)
  | sTrap => exact congrArg (· :: []) (programWord_eq legal.op legal.operands)
  | sNop => exact congrArg (· :: []) (programWord_eq legal.op legal.operands)
  | sopc => exact sopc_eq legal.op legal.operands
  | sCmpLtI32 => exact sopc_eq legal.op legal.operands
  | sCmpGtI32 => exact sopc_eq legal.op legal.operands
  | sop2 => exact sop2_eq legal.op legal.operands
  | sAddI32 => exact sop2_eq legal.op legal.operands
  | sAndB32 => exact sop2_eq legal.op legal.operands
  | sAndB64 => exact sop2_eq legal.op legal.operands
  | sop1 => exact congrArg (· :: []) (vectorWord_eq legal.op legal.operands)
  | vMovB32 => exact congrArg (· :: []) (vectorWord_eq legal.op legal.operands)
  | vSinF32 => exact congrArg (· :: []) (vectorWord_eq legal.op legal.operands)
  | vLogF32 => exact congrArg (· :: []) (vectorWord_eq legal.op legal.operands)
  | vRcpF32 => exact congrArg (· :: []) (vectorWord_eq legal.op legal.operands)
  | vRcpF64 => exact congrArg (· :: []) (vectorWord_eq legal.op legal.operands)
  | vSqrtF32 => exact congrArg (· :: []) (vectorWord_eq legal.op legal.operands)
  | vSqrtF64 => exact congrArg (· :: []) (vectorWord_eq legal.op legal.operands)
  | vBfrevB32 => exact congrArg (· :: []) (vectorWord_eq legal.op legal.operands)
  | vCvtI32F32 => exact congrArg (· :: []) (vectorWord_eq legal.op legal.operands)
  | vCvtF32I32 => exact congrArg (· :: []) (vectorWord_eq legal.op legal.operands)
  | vMovImm32 => exact congrArg (· :: [_]) (vectorWord_eq legal.op legal.operands)
  | vMulI32I24 => exact congrArg (· :: []) (arithmeticWord_eq legal.op legal.operands)
  | vMulF32 => exact congrArg (· :: []) (arithmeticWord_eq legal.op legal.operands)
  | vAddF32 => exact congrArg (· :: []) (arithmeticWord_eq legal.op legal.operands)
  | vAndB32 => exact congrArg (· :: []) (arithmeticWord_eq legal.op legal.operands)
  | vSubF32 => exact congrArg (· :: []) (arithmeticWord_eq legal.op legal.operands)
  | vAddI32 => exact congrArg (· :: []) (arithmeticWord_eq legal.op legal.operands)
  | vMulI32I24Imm32 => exact congrArg (· :: [_]) (arithmeticWord_eq legal.op legal.operands)
  | vMulF32Imm32 => exact congrArg (· :: [_]) (arithmeticWord_eq legal.op legal.operands)
  | vAddF32Imm32 => exact congrArg (· :: [_]) (arithmeticWord_eq legal.op legal.operands)
  | vAddI32Imm32 => exact congrArg (· :: [_]) (arithmeticWord_eq legal.op legal.operands)
  | vop3a => exact vop3a_eq legal.op legal.operands (List.forall₂_cons.mp legal.more).1
  | vFmaF32 => exact vop3a_eq legal.op legal.operands (List.forall₂_cons.mp legal.more).1
  | vMulLoI32 => exact vop3a_eq legal.op legal.operands (List.forall₂_cons.mp legal.more).1
  | vMulHiI32 => exact vop3a_eq legal.op legal.operands (List.forall₂_cons.mp legal.more).1

/-- The opcode of a call is not taken for bits of a longer encoding. -/
theorem Legal.owns (legal : c.Legal) : c.instr.format.Own c.instr.op := by
  have own := legal.own
  cases c with
  | sGetregB32 => exact Nat.le_of_ble_eq_true rfl
  | sop2 | sAddI32 | sAndB32 | sAndB64 => exact own rfl
  | vMulI32I24 | vMulF32 | vAddF32 | vAndB32 | vSubF32 | vAddI32 | vMulI32I24Imm32 | vMulF32Imm32
  | vAddF32Imm32 | vAddI32Imm32 => exact Nat.le_of_ble_eq_true rfl
  | _ => trivial

/-- A call with a literal has 255 as its source. -/
theorem escape_of_literal (literal : c.instr.literal.isSome) : 255 ∈ si.sources c.instr := by
  cases c with
  | sMovImm32 | vMovImm32 | vMulI32I24Imm32 | vMulF32Imm32 | vAddF32Imm32 | vAddI32Imm32 =>
      exact List.mem_singleton_self _
  | _ => exact (Bool.false_ne_true literal).elim

theorem Legal.instr (legal : c.Legal) : si.Legal c.instr where
  clear := clear_of_own legal.owns
  holds := legal.op
  fits := legal.operands
  fits_more := legal.more
  asks := by
    constructor
    · exact escape_of_literal
    · intro asked
      cases literal : c.instr.literal with
      | none => exact absurd asked (legal.source literal)
      | some value => rfl

end BuilderCall

/-- Every program of calls decodes to the instructions the calls ask for, to its last dword. -/
theorem decode_program (calls : List BuilderCall) (legal : ∀ c ∈ calls, c.Legal) :
    si.decode (calls.flatMap BuilderCall.dwords) = some (calls.map BuilderCall.instr) := by
  have words : calls.flatMap BuilderCall.dwords =
      (calls.map BuilderCall.instr).flatMap si.encode := by
    rw [List.flatMap_map]
    exact List.flatMap_congr fun c member => (legal c member).dwords_eq
  rw [words]
  apply si.decode_encode
  intro i member
  obtain ⟨c, called, rfl⟩ := List.mem_map.mp member
  exact (legal c called).instr

/-- A program with instructions of one dword, of two, and with a literal. -/
theorem decode_program_scaled :
    si.decode ([.sGetregB32 20 31 0 4, .vMovImm32 1 0x3F800000, .sop2 0x5F 8 130 254,
        .vFmaF32 2 0 0 257 258 259 0 4, .mtbuf 4 4 4 0 1 0 1 16 128 0 0 2 7 3,
        .sEndpgm].flatMap BuilderCall.dwords) = some
      [⟨.sopk, 18, [20, 31, 0, 4], [], none⟩, ⟨.vop1, 1, [1, 255], [], some 0x3F800000⟩,
        ⟨.sop2, 0x5F, [8, 130, 254], [], none⟩,
        ⟨.vop3, 331, [2, 0, 0], [[257, 258, 259, 0, 4]], none⟩,
        ⟨.mtbuf, 4, [16, 1, 0, 1, 0, 4, 4], [[3, 7, 2, 0, 0, 128]], none⟩,
        ⟨.sopp, 1, [0], [], none⟩] :=
  decode_program _ (by decide)

end RadeonsiCompute
