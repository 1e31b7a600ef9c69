import RadeonsiCompute.Auth.Client
import RadeonsiCompute.Lib.Scan
import RadeonsiCompute.Lib.Store

/-!
# Device nodes of PCI devices

`getBusidLookup` maps the name of the parent of each DRM minor to the device
node of the minor, and `getAllAtiDevices` looks every device up in the table. A
name is read as a PCI address first. If its last field is missing, the name is
read once more, as three decimal numbers.
-/

namespace RadeonsiCompute

open Lib

/-- The path of a device node. It is absolute. -/
structure DevNode where
  path : List Byte
  absolute : path.head? = some (byte '/')
  deriving DecidableEq

/-- What udev tells of a device; a missing answer is a null pointer. -/
structure UdevDevice where
  devtype : Option (List Byte)
  devnode : Option DevNode
  parentSysname : Option (List Byte)

structure BusidEntry where
  sysname : List Byte
  devnode : DevNode
  deriving DecidableEq

/-- A `std::map`: its entries in the order of their keys. -/
abbrev BusidTable := List BusidEntry

/-- `result[sysname] = devnode`. -/
def BusidTable.set (sysname : List Byte) (devnode : DevNode) : BusidTable → BusidTable
  | [] => [⟨sysname, devnode⟩]
  | e :: table =>
      if sysname = e.sysname then ⟨sysname, devnode⟩ :: table
      else if sysname < e.sysname then ⟨sysname, devnode⟩ :: e :: table
      else e :: BusidTable.set sysname devnode table

/-- One round of the enumeration: connectors and devices without a node are left out. -/
def BusidTable.add (table : BusidTable) (device : UdevDevice) : BusidTable :=
  match device.devtype, device.devnode, device.parentSysname with
  | some type, some devnode, some sysname =>
      if type = text "drm_minor" then table.set sysname devnode else table
  | _, _, _ => table

def getBusidLookup (devices : List UdevDevice) : BusidTable := devices.foldl BusidTable.add []

/-! ## Looking a device up -/

/-- `"%x:%x:%x.%d"`. -/
def pciFormat : List Conversion :=
  [.hex, .literal (byte ':'), .hex, .literal (byte ':'), .hex, .literal (byte '.'), .int]

/-- `"%d:%d:%d"`. -/
def busFormat : List Conversion :=
  [.int, .literal (byte ':'), .int, .literal (byte ':'), .int]

/-- The four `int`s a name is compared by. -/
structure KeyReading where
  domain : BitVec 32
  bus : BitVec 32
  dev : BitVec 32
  func : BitVec 32
  deriving DecidableEq, Repr

/-- The fields of a device, promoted for the comparison. -/
def PciAddress.reading (a : PciAddress) : KeyReading where
  domain := a.domain.toBitVec
  bus := a.bus.toBitVec.setWidth 32
  dev := a.dev.toBitVec.setWidth 32
  func := a.func.toBitVec.setWidth 32

/-- One round of the matching loop, up to the comparison. -/
def readKey (key : List Byte) : Except Fault KeyReading :=
  match scanf pciFormat (cString key) with
  | [domain, bus, dev, func] => .ok ⟨domain, bus, dev, func⟩
  | [_, _, _] =>
      match scanf busFormat (cString key) with
      | [bus, dev, func] => .ok ⟨0, bus, dev, func⟩
      | _ => .error (.assertion "ret == 3")
  | _ => .error (.assertion "ret == 3 or ret == 4")

/-- The `devpath` the matching loop of `getAllAtiDevices` leaves for a device. -/
def findDevpath (a : PciAddress) : BusidTable → Except Fault (List Byte)
  | [] => .ok []
  | e :: table => do
      let reading ← readKey e.sysname
      if reading = a.reading then pure e.devnode.path else findDevpath a table

/-! ## What the names mean -/

/-- `"%04x:%02x:%02x.%d"`, the name of a PCI device. -/
def PciAddress.sysname (a : PciAddress) : List Byte :=
  formatHex 4 a.domain.toNat ++ text ":" ++ formatHex 2 a.bus.toNat ++ text ":" ++
    formatHex 2 a.dev.toNat ++ text "." ++ formatLong a.func.toNat

/-- The bus id is the name with the bus in front. -/
theorem PciAddress.busid_eq (a : PciAddress) : a.busid = text "pci:" ++ a.sysname := by
  simp only [PciAddress.busid, PciAddress.sysname, List.append_assoc]

/-- A numeral with hexadecimal digits. -/
structure HexNumeral (digits : List Byte) : Prop where
  nonempty : digits ≠ []
  all : ∀ b ∈ digits, isDigit 16 b = true

/-- The name `bus:dev:func`. -/
def busName (bus dev func : List Byte) : List Byte :=
  bus ++ byte ':' :: (dev ++ byte ':' :: func)

/-- The name is that of the device at the address: as PCI devices are named, or by bus, device
and function in domain 0, all of them hexadecimal. -/
inductive Denotes (key : List Byte) (a : PciAddress) : Prop
  | pci (named : key = a.sysname)
  | bus (domain : a.domain = 0) (bus dev func : List Byte) (hbus : HexNumeral bus)
      (hdev : HexNumeral dev) (hfunc : HexNumeral func) (atBus : numeral 16 bus = a.bus.toNat)
      (atDev : numeral 16 dev = a.dev.toNat) (atFunc : numeral 16 func = a.func.toNat)
      (named : key = busName bus dev func)

/-- The loop ends without an abort, with the node of an entry that names the device, or with
none if no entry does. -/
def FoundDevpath (table : BusidTable) (a : PciAddress) : Prop :=
  ∃ devpath, findDevpath a table = .ok devpath ∧
    ((∃ e ∈ table, Denotes e.sysname a ∧ devpath = e.devnode.path) ∨
      (∀ e ∈ table, ¬ Denotes e.sysname a) ∧ devpath = [])

end RadeonsiCompute
