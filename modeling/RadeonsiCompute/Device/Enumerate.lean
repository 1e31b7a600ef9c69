import Mathlib.Data.List.Find
import RadeonsiCompute.Device.Chips
import RadeonsiCompute.Device.Match

/-!
# The devices a program is offered

`getAllAtiDevices` goes over the PCI devices and keeps those of the vendor that
have a known chip and a device node. `getAllAtiDevices_lists` says which these
are, without the tables it goes through: a device has the node of the last DRM
minor that the enumeration found below it.
-/

namespace RadeonsiCompute

open Lib

structure AtiDeviceData where
  family : AtiChipFamily
  vendorName : List Byte
  deviceName : List Byte
  busid : List Byte
  devpath : List Byte
  deriving DecidableEq, Repr

/-- What the loop of `getAllAtiDevices` learns of a device of the vendor. The
vendor's name is assigned unseen, and a string is not made of a null pointer. -/
def readDevice (busidTable : BusidTable) (device : PciDevice) : Except Fault AtiDeviceData := do
  let family ← getAtiChipFamily device
  let vendorName ← match device.vendorName with
    | some name => .ok name
    | none => .error .nullDeref
  let deviceName := match device.subdeviceName, device.deviceName with
    | some name, _ => name
    | none, some name => name
    | none, none => []
  let devpath ← findDevpath device.address busidTable
  .ok { family, vendorName, deviceName, busid := device.address.busid, devpath }

/-- `int(devData.family) and not devData.devpath.empty()`. -/
def AtiDeviceData.usable (devData : AtiDeviceData) : Bool :=
  devData.family ≠ .UNKNOWN && devData.devpath ≠ []

/-- The loop of `getAllAtiDevices`. -/
def readDevices (busidTable : BusidTable) : List PciDevice → Except Fault (List AtiDeviceData)
  | [] => .ok []
  | device :: rest =>
      if isAtiGPU device then do
        let devData ← readDevice busidTable device
        let devices ← readDevices busidTable rest
        .ok (if devData.usable then devData :: devices else devices)
      else readDevices busidTable rest

def getAllAtiDevices (udev : List UdevDevice) (pci : List PciDevice) :
    Except Fault (List AtiDeviceData) :=
  readDevices (getBusidLookup udev) pci

/-! ## What is to be listed -/

/-- The entry a device of the enumeration makes: a DRM minor with a node and a parent. -/
def UdevDevice.minor (device : UdevDevice) : Option BusidEntry :=
  match device.devtype, device.devnode, device.parentSysname with
  | some type, some devnode, some sysname =>
      if type = text "drm_minor" then some ⟨sysname, devnode⟩ else none
  | _, _, _ => none

/-- The node of the last minor below the device at the address. -/
def lastNode (udev : List UdevDevice) (a : PciAddress) : Option DevNode :=
  ((udev.filterMap UdevDevice.minor).reverse.find? fun e => e.sysname = a.sysname).map
    BusidEntry.devnode

/-- The family of a chip in the table. -/
def knownFamily (code : UInt16) : Option AtiChipFamily :=
  (pciChips.find? fun chip => chip.2 == code).map Prod.fst

/-- The entry for a device that is to be listed. -/
def listing (udev : List UdevDevice) (device : PciDevice) : Option AtiDeviceData :=
  if device.vendorId = 0x1002 then
    match knownFamily device.deviceId, lastNode udev device.address with
    | some family, some node => some {
        family
        vendorName := device.vendorName.getD []
        deviceName := (device.subdeviceName.or device.deviceName).getD []
        busid := device.address.busid
        devpath := node.path }
    | _, _ => none
  else none

/-! ## The table of bus ids -/

theorem BusidTable.add_eq (table : BusidTable) (device : UdevDevice) :
    table.add device = match device.minor with
      | some e => table.set e.sysname e.devnode
      | none => table := by
  obtain ⟨devtype, devnode, parentSysname⟩ := device
  unfold BusidTable.add UdevDevice.minor
  cases devtype with
  | none => rfl
  | some type =>
      cases devnode with
      | none => rfl
      | some devnode =>
          cases parentSysname with
          | none => rfl
          | some sysname =>
              by_cases minor : type = text "drm_minor"
              · simp [minor]
              · simp [minor]

/-- An assignment is what is found under its key, and under no other. -/
theorem BusidTable.find_set (table : BusidTable) (sysname : List Byte) (devnode : DevNode)
    (key : List Byte) : (table.set sysname devnode).find? (fun e => e.sysname = key) =
      if sysname = key then some ⟨sysname, devnode⟩ else table.find? fun e => e.sysname = key := by
  have front : ∀ rest : BusidTable, (⟨sysname, devnode⟩ :: rest).find? (fun e => e.sysname = key) =
      if sysname = key then some ⟨sysname, devnode⟩ else rest.find? fun e => e.sysname = key := by
    intro rest
    by_cases same : sysname = key
    · simp [same]
    · simp [same]
  induction table with
  | nil => exact front []
  | cons e table ih =>
      rw [BusidTable.set]
      split
      · next same =>
          subst same
          rw [front]
          by_cases key : e.sysname = key
          · simp [key]
          · simp [key]
      · next other =>
          split
          · exact front _
          · by_cases first : e.sysname = key
            · have apart : sysname ≠ key := fun same => other (same.trans first.symm)
              simp [first, apart]
            · simp only [List.find?_cons, first, decide_false]
              exact ih

/-- A name is looked up with the node of the last minor below it. -/
theorem getBusidLookup_find (udev : List UdevDevice) (key : List Byte) :
    (getBusidLookup udev).find? (fun e => e.sysname = key) =
      (udev.filterMap UdevDevice.minor).reverse.find? fun e => e.sysname = key := by
  have run : ∀ (udev : List UdevDevice) (table : BusidTable),
      (udev.foldl BusidTable.add table).find? (fun e => e.sysname = key) =
        ((udev.filterMap UdevDevice.minor).reverse.find? fun e => e.sysname = key).or
          (table.find? fun e => e.sysname = key) := by
    intro udev
    induction udev with
    | nil => exact fun table => rfl
    | cons device udev ih =>
        intro table
        rw [List.foldl_cons, ih, BusidTable.add_eq]
        cases minor : device.minor with
        | none => simp [minor]
        | some e =>
            simp only [minor, List.filterMap_cons, List.reverse_cons, List.find?_append,
              BusidTable.find_set, Option.or_assoc]
            congr 1
            obtain ⟨sysname, devnode⟩ := e
            by_cases same : sysname = key
            · simp [same]
            · simp [same]
  exact (run udev []).trans (Option.or_none)

/-! ## What is listed -/

section Listing

variable {table : BusidTable} {udev : List UdevDevice} {device : PciDevice} {a : PciAddress}

/-- Below PCI devices, a device is looked up by its own name. -/
theorem findDevpath_of_pci (pci : ∀ e ∈ table, ∃ b : PciAddress, e.sysname = b.sysname)
    (a : PciAddress) : findDevpath a table =
      .ok (((table.find? fun e => e.sysname = a.sysname).map fun e => e.devnode.path).getD []) := by
  refine findDevpath_eq_ok_iff.mpr ⟨(sound_of_pci pci a).1, ?_⟩
  have same : table.find? (fun e => TakenFor e.sysname a) =
      table.find? fun e => e.sysname = a.sysname := by
    apply List.find?_congr
    intro e member
    obtain ⟨b, named⟩ := pci e member
    have own : TakenFor e.sysname a ↔ e.sysname = a.sysname := by
      rw [named, takenFor_sysname]
      exact ⟨fun same => congrArg _ same, fun same => denotes_sysname.mp (.pci same)⟩
    simp only [own]
  rw [same]
  cases table.find? fun e => e.sysname = a.sysname with
  | none => rfl
  | some e => rfl

theorem getBusidLookup_pci
    (pci : ∀ e ∈ udev.filterMap UdevDevice.minor, ∃ b : PciAddress, e.sysname = b.sysname) :
    ∀ e ∈ getBusidLookup udev, ∃ b : PciAddress, e.sysname = b.sysname := by
  intro e member
  apply pci e
  rw [List.mem_filterMap]
  refine ⟨_, mem_getBusidLookup member, ?_⟩
  simp [UdevDevice.minor]

/-- The path that is found is that of the last node. -/
theorem findDevpath_getBusidLookup
    (pci : ∀ e ∈ udev.filterMap UdevDevice.minor, ∃ b : PciAddress, e.sysname = b.sysname)
    (a : PciAddress) : findDevpath a (getBusidLookup udev) =
      .ok (((lastNode udev a).map DevNode.path).getD []) := by
  rw [findDevpath_of_pci (getBusidLookup_pci pci), getBusidLookup_find, lastNode, Option.map_map]
  rfl

theorem getAtiChipFamily_eq (ati : isAtiGPU device = true) :
    getAtiChipFamily device = .ok ((knownFamily device.deviceId).getD .UNKNOWN) := by
  rw [getAtiChipFamily, if_pos ati, knownFamily]
  cases pciChips.find? fun chip => chip.2 == device.deviceId with
  | none => rfl
  | some chip => rfl

/-- A family that was found in the table is a known one. -/
theorem knownFamily_ne {code : UInt16} {family : AtiChipFamily}
    (found : knownFamily code = some family) : family ≠ .UNKNOWN := by
  obtain ⟨chip, first, rfl⟩ := Option.map_eq_some_iff.mp found
  exact pciChips_known chip (List.mem_of_find?_eq_some first)

/-- A device of the vendor with a name for the vendor is kept exactly when it is
to be listed. -/
theorem readDevice_listing
    (pci : ∀ e ∈ udev.filterMap UdevDevice.minor, ∃ b : PciAddress, e.sysname = b.sysname)
    (ati : isAtiGPU device = true) {vendorName : List Byte}
    (named : device.vendorName = some vendorName) :
    ∃ devData, readDevice (getBusidLookup udev) device = .ok devData ∧
      listing udev device = if devData.usable then some devData else none := by
  have id : device.vendorId = 0x1002 := by simpa [isAtiGPU] using ati
  have board : (match device.subdeviceName, device.deviceName with
      | some name, _ => name
      | none, some name => name
      | none, none => []) = (device.subdeviceName.or device.deviceName).getD [] := by
    cases device.subdeviceName with
    | none => cases device.deviceName <;> rfl
    | some name => rfl
  simp only [readDevice, getAtiChipFamily_eq ati, named, findDevpath_getBusidLookup pci, board,
    ok_bind]
  refine ⟨_, rfl, ?_⟩
  rw [listing, if_pos id]
  cases family : knownFamily device.deviceId with
  | none => simp [AtiDeviceData.usable]
  | some family =>
      have known := knownFamily_ne ‹_›
      cases lastNode udev device.address with
      | none => simp [AtiDeviceData.usable]
      | some node => simp [AtiDeviceData.usable, known, node.path_ne_nil, named]

/-- The loop ends early only at a device of the vendor whose vendor has no name. -/
theorem readDevices_eq
    (parents : ∀ e ∈ udev.filterMap UdevDevice.minor, ∃ b : PciAddress, e.sysname = b.sysname)
    (pci : List PciDevice) : readDevices (getBusidLookup udev) pci =
      if ∀ device ∈ pci, isAtiGPU device = true → device.vendorName.isSome then
        .ok (pci.filterMap (listing udev))
      else .error .nullDeref := by
  induction pci with
  | nil => rfl
  | cons device pci ih =>
      simp only [List.forall_mem_cons]
      rw [readDevices]
      split
      · next ati =>
          cases named : device.vendorName with
          | none =>
              simp only [readDevice, getAtiChipFamily_eq ati, named, ok_bind, error_bind]
              simp [ati]
          | some vendorName =>
              obtain ⟨devData, read, listed⟩ := readDevice_listing parents ati named
              rw [read, ok_bind, ih, List.filterMap_cons, listed]
              simp only [ati, Option.isSome_some, true_imp_iff, true_and]
              split
              · rw [ok_bind]
                split
                · rfl
                · rfl
              · rfl
      · next other =>
          have none : listing udev device = none := by
            rw [listing, if_neg (by simpa [isAtiGPU] using other)]
          rw [ih, List.filterMap_cons, none]
          simp [other]

/-- An entry of the list, by the device it is for. -/
theorem listing_eq_some {devData : AtiDeviceData} : listing udev device = some devData ↔
    device.vendorId = 0x1002 ∧ ∃ node, lastNode udev device.address = some node ∧
      knownFamily device.deviceId = some devData.family ∧
      devData = {
        family := devData.family
        vendorName := device.vendorName.getD []
        deviceName := (device.subdeviceName.or device.deviceName).getD []
        busid := device.address.busid
        devpath := node.path } := by
  unfold listing
  split
  · next vendor =>
      cases knownFamily device.deviceId with
      | none => simp
      | some family =>
          cases lastNode udev device.address with
          | none => simp
          | some node =>
              simp only [Option.some.injEq, exists_eq_left', vendor, true_and]
              constructor
              · rintro rfl
                exact ⟨rfl, rfl⟩
              · rintro ⟨rfl, same⟩
                exact same.symm
  · next other => simp [other]

/-- Bus ids tell devices apart. -/
theorem PciAddress.busid_inj {a b : PciAddress} (same : a.busid = b.busid) : a = b := by
  rw [a.busid_eq, b.busid_eq] at same
  exact denotes_sysname.mp (.pci (List.append_cancel_left same))

theorem nodup_listing {pci : List PciDevice} (distinct : (pci.map PciDevice.address).Nodup) :
    ((pci.filterMap (listing udev)).map AtiDeviceData.busid).Nodup := by
  have busids : List.Sublist ((pci.filterMap (listing udev)).map AtiDeviceData.busid)
      (pci.map fun device => device.address.busid) := by
    induction pci with
    | nil => exact .slnil
    | cons device pci ih =>
        have rest := ih (List.nodup_cons.mp distinct).2
        cases listed : listing udev device with
        | none =>
            rw [List.filterMap_cons_none listed]
            exact rest.cons _
        | some devData =>
            obtain ⟨-, node, -, -, same⟩ := listing_eq_some.mp listed
            rw [List.filterMap_cons_some listed, List.map_cons, List.map_cons, same]
            exact rest.cons_cons _
  apply busids.nodup
  have both : pci.map (fun device => device.address.busid) =
      (pci.map PciDevice.address).map PciAddress.busid := by
    rw [List.map_map]
    rfl
  rw [both]
  exact distinct.map fun _ _ => PciAddress.busid_inj

end Listing

/-- **Enumeration.** Where DRM minors are below PCI devices, the devices returned
are those of the vendor with a known chip and a minor, in the order of the bus,
each with the node of the last minor below it. Their bus ids differ. A device
whose vendor has no name ends the process, and nothing else does. -/
theorem getAllAtiDevices_lists {udev : List UdevDevice}
    (parents : ∀ e ∈ udev.filterMap UdevDevice.minor, ∃ b : PciAddress, e.sysname = b.sysname)
    (pci : List PciDevice) :
    (getAllAtiDevices udev pci =
      if ∀ device ∈ pci, isAtiGPU device = true → device.vendorName.isSome then
        .ok (pci.filterMap (listing udev))
      else .error .nullDeref) ∧
    ((pci.map PciDevice.address).Nodup →
      ((pci.filterMap (listing udev)).map AtiDeviceData.busid).Nodup) :=
  ⟨readDevices_eq parents pci, nodup_listing⟩

/-- A card with one minor, and one with two. -/
def twoCards : List UdevDevice := [
  ⟨some (text "drm_minor"), some ⟨text "/dev/dri/card0", by decide⟩,
    some (PciAddress.mk 0 1 0 0).sysname⟩,
  ⟨some (text "drm_minor"), some ⟨text "/dev/dri/card1", by decide⟩,
    some (PciAddress.mk 0 2 0 0).sysname⟩,
  ⟨some (text "drm_minor"), some ⟨text "/dev/dri/card2", by decide⟩,
    some (PciAddress.mk 0 2 0 0).sysname⟩]

/-- The first card is of another vendor. -/
def twoVendors : List PciDevice := [
  ⟨0x8086, 0x0102, ⟨0, 1, 0, 0⟩, none, none, none⟩,
  ⟨0x1002, 0x6798, ⟨0, 2, 0, 0⟩, some (text "AMD"), none, some (text "Tahiti")⟩]

theorem twoCards_pci :
    ∀ e ∈ twoCards.filterMap UdevDevice.minor, ∃ b : PciAddress, e.sysname = b.sysname := by
  intro e member
  simp only [twoCards, UdevDevice.minor, List.filterMap_cons, List.filterMap_nil, if_true,
    List.mem_cons, List.not_mem_nil, or_false] at member
  rcases member with rfl | rfl | rfl
  · exact ⟨_, rfl⟩
  · exact ⟨_, rfl⟩
  · exact ⟨_, rfl⟩

/-- The second card is listed, with its second node. -/
theorem getAllAtiDevices_lists_twoCards : getAllAtiDevices twoCards twoVendors =
    .ok [⟨.TAHITI, text "AMD", text "Tahiti", (PciAddress.mk 0 2 0 0).busid,
      text "/dev/dri/card2"⟩] := by
  have vendors : ∀ device ∈ twoVendors, isAtiGPU device = true → device.vendorName.isSome := by
    decide
  have listed : twoVendors.filterMap (listing twoCards) =
      [⟨.TAHITI, text "AMD", text "Tahiti", (PciAddress.mk 0 2 0 0).busid,
        text "/dev/dri/card2"⟩] := by
    decide +kernel
  rw [(getAllAtiDevices_lists twoCards_pci twoVendors).1, if_pos vendors, listed]

end RadeonsiCompute
