import RadeonsiCompute.Lib.Scan
import RadeonsiCompute.Lib.Store
import RadeonsiCompute.Lib.Trace

/-!
# Setting clocks by hand

The kernel patch: `radeon_set_clocks_voltages_raw`, which sets the clocks and
voltages of a GPU between locking and unlocking it, and `radeon_set_pm_clocks`,
the `gpu_clocks` attribute that calls it. A call is the trace of what it does in
order, together with the state it leaves the device in. What other parts of the
driver answer is in an oracle.
-/

namespace RadeonsiCompute

open Lib

/-- Clocks in units of 10 kHz and voltages in mV. -/
structure Clocks where
  sclk : BitVec 32
  mclk : BitVec 32
  vddc : BitVec 16
  vddci : BitVec 16
  deriving DecidableEq, Repr

inductive PmMethod
  | profile | dynpm | dpm
  deriving DecidableEq, Repr

/-- The part of `struct radeon_device` that the patch uses. -/
structure PmDevice where
  current : Clocks
  pmMethod : PmMethod
  ringReady : List Bool
  irqInstalled : Bool
  numCrtc : Nat
  activeCrtcs : BitVec 32
  activeCrtcCount : Nat
  reqVblank : BitVec 32
  hasSetMemoryClock : Bool
  deriving DecidableEq, Repr

/-- What the rest of the driver answers: `radeon_fence_wait_empty_locked` of a ring,
`radeon_gui_idle` and `radeon_pm_in_vbl`. -/
structure PmOutcomes where
  fenceWait : Nat → Int
  guiIdle : Bool
  inVbl : Bool

inductive PmLock
  | pmMutex | structMutex | mclkLock | ringLock
  deriving DecidableEq, Repr

/-- The calls a trace is made of. -/
inductive PmEvent
  | lock (l : PmLock)
  | unlock (l : PmLock)
  | waitEmpty (ring : Nat)
  | unmapVramBos
  | vblankGet (crtc : Nat)
  | vblankPut (crtc : Nat)
  | syncWithVblank
  | prepare
  | setVddc (v : BitVec 16)
  | setVddci (v : BitVec 16)
  | debugCheckInVbl (finish : Bool)
  | setEngineClock (v : BitVec 32)
  | setMemoryClock (v : BitVec 32)
  | finish
  | updateBandwidthInfo
  | bandwidthUpdate
  deriving DecidableEq, Repr

/-- The state a part of the function leaves, and what it did. -/
abbrev PmCall := PmDevice × List PmEvent

/-! ## `radeon_set_clocks_voltages_raw` -/

/-- The voltages the driver has for other purposes. -/
def invalidVoltage (v : BitVec 16) : Bool := v &&& 0xFF00 == 0xFF00

/-- Wait for the rings to drain, up to the first one that fails. -/
def drainRings (o : PmOutcomes) : Nat → List Bool → List PmEvent × Bool
  | _, [] => ([], true)
  | i, ready :: rings =>
      if ready then
        if o.fenceWait i = 0 then
          let later := drainRings o (i + 1) rings
          (.waitEmpty i :: later.1, later.2)
        else ([.waitEmpty i], false)
      else drainRings o (i + 1) rings

def PmDevice.request (d : PmDevice) (i : Nat) : PmDevice :=
  { d with reqVblank := d.reqVblank ||| 1#32 <<< i }

def PmDevice.dismiss (d : PmDevice) (i : Nat) : PmDevice :=
  { d with reqVblank := d.reqVblank &&& ~~~(1#32 <<< i) }

/-- `active_crtcs & (1 << i)`. The driver has fewer CRTCs than the word has bits. -/
def PmDevice.isActive (d : PmDevice) (i : Nat) : Bool := d.activeCrtcs.getLsbD i

def PmDevice.isRequested (d : PmDevice) (i : Nat) : Bool := d.reqVblank.getLsbD i

/-- A loop over the CRTCs: the picked ones change the device, with one call for each. -/
def crtcLoop (picked : PmDevice → Nat → Bool) (change : PmDevice → Nat → PmDevice)
    (call : Nat → PmEvent) (d : PmDevice) : List Nat → PmCall
  | [] => (d, [])
  | i :: is =>
      if picked d i then
        let later := crtcLoop picked change call (change d i) is
        (later.1, call i :: later.2)
      else crtcLoop picked change call d is

/-- The first loop over the CRTCs. -/
def getVblanks : PmDevice → List Nat → PmCall :=
  crtcLoop PmDevice.isActive PmDevice.request .vblankGet

/-- The second loop over the CRTCs. -/
def putVblanks : PmDevice → List Nat → PmCall :=
  crtcLoop PmDevice.isRequested PmDevice.dismiss .vblankPut

/-- A loop over the CRTCs is run if there are interrupts. -/
def forCrtcs (loop : PmDevice → List Nat → PmCall) (d : PmDevice) : PmCall :=
  if d.irqInstalled then loop d (List.range d.numCrtc) else (d, [])

def PmDevice.running (d : PmDevice) (current : Clocks) : PmDevice := { d with current := current }

def setVoltages (vddc vddci : BitVec 16) (d : PmDevice) : PmCall :=
  (d.running { d.current with vddc := vddc, vddci := vddci }, [.setVddc vddc, .setVddci vddci])

def setEngineClock (sclk : BitVec 32) (d : PmDevice) : PmCall :=
  if sclk ≠ d.current.sclk then
    (d.running { d.current with sclk := sclk },
      [.debugCheckInVbl false, .setEngineClock sclk, .debugCheckInVbl true])
  else (d, [])

def setMemoryClock (mclk : BitVec 32) (d : PmDevice) : PmCall :=
  if d.hasSetMemoryClock ∧ mclk ≠ d.current.mclk then
    (d.running { d.current with mclk := mclk },
      [.debugCheckInVbl false, .setMemoryClock mclk, .debugCheckInVbl true])
  else (d, [])

/-- One part after the other. -/
def andThen (f g : PmDevice → PmCall) (d : PmDevice) : PmCall :=
  ((g (f d).1).1, (f d).2 ++ (g (f d).1).2)

/-- Up the voltages before raising the engine clock, lower them after lowering it. -/
def setAll (new : Clocks) (d : PmDevice) : PmCall :=
  let clocks := andThen (setEngineClock new.sclk) (setMemoryClock new.mclk)
  let voltages := setVoltages new.vddc new.vddci
  let miscAfter := new.sclk < d.current.sclk
  if miscAfter then andThen clocks voltages d else andThen voltages clocks d

def lockAll : List PmEvent := [.lock .structMutex, .lock .mclkLock, .lock .ringLock]

def unlockAll : List PmEvent := [.unlock .ringLock, .unlock .mclkLock, .unlock .structMutex]

/-- The end of the function: drop the vblanks, update the display, unlock. -/
def leave (d : PmDevice) : PmCall :=
  let put := forCrtcs putVblanks d
  (put.1, put.2 ++ (.updateBandwidthInfo ::
    ((if put.1.activeCrtcCount ≠ 0 then [.bandwidthUpdate] else []) ++ unlockAll)))

def setClocksVoltagesRaw (o : PmOutcomes) (new : Clocks) (d : PmDevice) : PmCall :=
  if invalidVoltage new.vddc || invalidVoltage new.vddci then (d, [])
  else
    let waits := drainRings o 0 d.ringReady
    if waits.2 then
      let got := forCrtcs getVblanks d
      let begun := lockAll ++ (waits.1 ++ .unmapVramBos :: got.2)
      if o.guiIdle then
        if got.1.pmMethod = .dynpm ∧ ¬ o.inVbl then
          -- a bare `return`
          (got.1, begun ++ [.syncWithVblank])
        else
          let set := setAll new got.1
          let left := leave set.1
          (left.1, begun ++ (.syncWithVblank :: .prepare :: (set.2 ++ .finish :: left.2)))
      else
        let left := leave got.1
        (left.1, begun ++ left.2)
    else (d, lockAll ++ (waits.1 ++ unlockAll))

/-! ## `radeon_set_pm_clocks` -/

/-- `isspace` of the kernel, which counts the no-break space of Latin-1. -/
def kernelSpace (b : Byte) : Bool := isSpace b || b == 0xA0

/-- `%u` up to `k` times: the numbers written there. -/
def scanFields : Nat → List Byte → List Nat
  | 0, _ => []
  | k + 1, s =>
      match scanDigits 10 (s.dropWhile kernelSpace) with
      | none => []
      | some (n, rest) => n :: scanFields k rest

/-- A line as `"%s %u %u %u %u"` divides it: its first word and the numbers behind it. From an
empty line not even an empty word is read. -/
structure ClockLine where
  head : Option (List Byte)
  fields : List Nat
  deriving DecidableEq, Repr

def scanLine (buf : List Byte) : ClockLine :=
  let s := cString buf
  if s = [] then ⟨none, []⟩
  else
    let s := s.dropWhile kernelSpace
    ⟨some (s.takeWhile fun b => !kernelSpace b),
      scanFields 4 (s.dropWhile fun b => !kernelSpace b)⟩

/-- A number as `%u` stores it, or what the variable held before. -/
def ClockLine.stored (line : ClockLine) (k : Nat) (default_ : BitVec 32) : BitVec 32 :=
  (line.fields[k]?).elim default_ (BitVec.ofNat 32)

/-- The four variables after `sscanf`: clocks in MHz and voltages. -/
structure ClockSettings where
  sclkMhz : BitVec 32
  mclkMhz : BitVec 32
  vddc : BitVec 32
  vddci : BitVec 32
  deriving DecidableEq, Repr

def ClockLine.settings (line : ClockLine) (current : Clocks) : ClockSettings where
  sclkMhz := line.stored 0 (current.sclk / 100)
  mclkMhz := line.stored 1 (current.mclk / 100)
  vddc := line.stored 2 (current.vddc.setWidth 32)
  vddci := line.stored 3 (current.vddci.setWidth 32)

/-- What the settings are passed on as. -/
def ClockSettings.clocks (s : ClockSettings) : Clocks where
  sclk := s.sclkMhz * 100
  mclk := s.mclkMhz * 100
  vddc := s.vddc.setWidth 16
  vddci := s.vddci.setWidth 16

/-- `strncmp(head, "set", 3) == 0`; before `%s` has written it, `head` is what the stack held. -/
def ClockLine.isSet (line : ClockLine) (stack : List Byte) : Bool :=
  (line.head.getD (cString stack)).take 3 == text "set"

def ClockSettings.tooLow (s : ClockSettings) : Bool := s.vddc < 100 || s.vddci < 100

def ClockSettings.tooHigh (s : ClockSettings) : Bool := s.vddc > 1410 || s.vddci > 950

def einval : Int := 22

/-- What a write to the attribute returns, leaves and does. -/
structure StoreResult where
  ret : Int
  device : PmDevice
  trace : List PmEvent
  deriving DecidableEq, Repr

/-- A first word of 256 bytes or more runs over `head`. -/
def setPmClocks (o : PmOutcomes) (stack : List Byte) (buf : List Byte) (count : Nat)
    (d : PmDevice) : Except Fault StoreResult :=
  let rejected : StoreResult := ⟨-einval, d, [.lock .pmMutex, .unlock .pmMutex]⟩
  if d.pmMethod ≠ .profile then .ok rejected
  else
    let line := scanLine buf
    let settings := line.settings d.current
    if 256 ≤ (line.head.getD []).length then .error .outOfBounds
    else if !line.isSet stack then .ok rejected
    else if settings.tooLow then .ok rejected
    else if settings.tooHigh then .ok rejected
    else
      let raw := setClocksVoltagesRaw o settings.clocks d
      .ok ⟨count, raw.1, .lock .pmMutex :: (raw.2 ++ [.unlock .pmMutex])⟩

end RadeonsiCompute
