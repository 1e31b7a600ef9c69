import RadeonsiCompute.Auth.Server
import RadeonsiCompute.Device.Enumerate

/-!
# The local master

`main` of the master opens the node of every device it is offered, becomes DRM
master of it and keeps the descriptor under the bus id. Where that fails the
descriptor is neither kept nor closed. `MasterOutcomes.drms_iff` says what the
server finds under the bus id of a device.
-/

namespace RadeonsiCompute

open Lib

/-- What `main` is given. `open` and `drmSetMaster` are called once for each
device, in the order of the list. -/
structure MasterOutcomes where
  uid : Nat
  drmAvailable : Bool
  udev : List UdevDevice
  pci : List PciDevice
  openFile : Nat → List Byte → Int
  drmSetMaster : Nat → Int → Int
  errno : Nat → Int

/-- The map `drms` and the lines of the log. -/
structure Masters where
  drms : List Byte → Option Int
  logged : List (Priority × List Byte)

/-- How `main` goes on: it returns, or runs the server. -/
inductive MasterEnd
  | exit (code : Nat)
  | serve (masters : Masters)

namespace MasterOutcomes

variable (o : MasterOutcomes) (strerror : Int → List Byte)

/-- The device, as the log has it. -/
def describe (devData : AtiDeviceData) : List Byte :=
  devData.vendorName ++ text " : " ++ devData.deviceName ++ text " : " ++ devData.busid ++
    text " " ++ devData.devpath

/-- One round of the loop that opens the devices. -/
def setMaster (m : Masters) (i : Nat) (devData : AtiDeviceData) : Except Fault Masters :=
  if devData.devpath = [] then .ok m
  else
    let fd := o.openFile i devData.devpath
    if o.drmSetMaster i fd < 0 then do
      let reason := if o.uid = 0 then text "drm already has a Master"
        else text "Reason: " ++ strerror (o.errno i)
      let line ← syslog .warning
        (text "Failed to set Master on: " ++ describe devData ++ text " " ++ reason)
      .ok { m with logged := m.logged ++ [line] }
    else do
      let line ← syslog .info
        (text "set Master on:" ++ describe devData ++ text " fd: " ++ formatLong fd)
      .ok {
        drms := Function.update m.drms devData.busid (some fd)
        logged := m.logged ++ [line] }

def setMasters : Nat → List AtiDeviceData → Masters → Except Fault Masters
  | _, [], m => .ok m
  | i, devData :: devices, m => do
      let m ← o.setMaster strerror m i devData
      setMasters (i + 1) devices m

/-- `main`. Its one argument keeps it in the foreground. -/
def main (argv : List (List Byte)) : Except Fault MasterEnd :=
  if argv.length = 1 ∨ argv.length = 2 ∧ argv[1]? = some (text "-nodaemon") then
    if o.drmAvailable then do
      let devices ← getAllAtiDevices o.udev o.pci
      let masters ← o.setMasters strerror 0 devices ⟨fun _ => none, []⟩
      .ok (.serve masters)
    else .ok (.exit 1)
  else .ok (.exit 1)

/-- `fd` was opened on the last node of the device at the address, and is its
master. -/
def MasterOf (a : PciAddress) (fd : Int) : Prop :=
  ∃ i devData node, (o.pci.filterMap (listing o.udev))[i]? = some devData ∧
    devData.busid = a.busid ∧ lastNode o.udev a = some node ∧ o.openFile i node.path = fd ∧
    0 ≤ o.drmSetMaster i fd

end MasterOutcomes

/-! ## The descriptors of the server -/

namespace MasterOutcomes

section

variable {o : MasterOutcomes} {strerror : Int → List Byte} {m m' : Masters}

/-- What one round adds to the map. -/
def Opened (o : MasterOutcomes) (i : Nat) (devData : AtiDeviceData) (fd : Int) : Prop :=
  devData.devpath ≠ [] ∧ o.openFile i devData.devpath = fd ∧ 0 ≤ o.drmSetMaster i fd

theorem setMaster_drms {i : Nat} {devData : AtiDeviceData}
    (run : o.setMaster strerror m i devData = .ok m') (fresh : m.drms devData.busid = none)
    (busid : List Byte) (fd : Int) : m'.drms busid = some fd ↔
      m.drms busid = some fd ∨ devData.busid = busid ∧ o.Opened i devData fd := by
  unfold setMaster at run
  split at run
  · next empty =>
      obtain rfl := Except.ok.inj run
      simp [Opened, empty]
  · next path =>
      dsimp only at run
      split at run
      · next failed =>
          obtain ⟨line, -, final⟩ := bind_eq_ok.mp run
          obtain rfl := Except.ok.inj final
          refine ⟨.inl, fun either => either.resolve_right ?_⟩
          rintro ⟨-, -, rfl, set⟩
          omega
      · next set =>
          obtain ⟨line, -, final⟩ := bind_eq_ok.mp run
          obtain rfl := Except.ok.inj final
          show Function.update m.drms devData.busid _ busid = some fd ↔ _
          by_cases same : busid = devData.busid
          · subst same
            rw [Function.update_self, fresh]
            constructor
            · intro found
              obtain rfl := Option.some.inj found
              exact .inr ⟨rfl, path, rfl, by omega⟩
            · rintro (none | ⟨-, -, rfl, -⟩)
              · cases none
              · rfl
          · rw [Function.update_of_ne same]
            exact ⟨.inl, fun either => either.resolve_right fun own => same own.1.symm⟩

/-- The map has the descriptors of the rounds that went well, and what it had. -/
theorem setMasters_drms {devices : List AtiDeviceData} {i : Nat}
    (run : o.setMasters strerror i devices m = .ok m')
    (distinct : (devices.map AtiDeviceData.busid).Nodup)
    (fresh : ∀ devData ∈ devices, m.drms devData.busid = none) (busid : List Byte) (fd : Int) :
    m'.drms busid = some fd ↔ m.drms busid = some fd ∨
      ∃ j devData, devices[j]? = some devData ∧ devData.busid = busid ∧
        o.Opened (i + j) devData fd := by
  induction devices generalizing i m with
  | nil =>
      obtain rfl := Except.ok.inj run
      simp
  | cons devData devices ih =>
      obtain ⟨m₁, first, rest⟩ := bind_eq_ok.mp run
      rw [List.forall_mem_cons] at fresh
      obtain ⟨apart, distinct⟩ := List.nodup_cons.mp distinct
      have step := setMaster_drms first fresh.1
      have still : ∀ d ∈ devices, m₁.drms d.busid = none := by
        intro d member
        apply Option.eq_none_iff_forall_ne_some.mpr
        intro other found
        cases (step _ _).mp found with
        | inl before => rw [fresh.2 d member] at before; cases before
        | inr own => exact apart (own.1 ▸ List.mem_map_of_mem member)
      rw [ih rest distinct still, step, or_assoc]
      apply or_congr_right
      constructor
      · rintro (own | ⟨j, d, found, same, opened⟩)
        · exact ⟨0, devData, rfl, own⟩
        · rw [Nat.add_right_comm] at opened
          exact ⟨j + 1, d, found, same, opened⟩
      · rintro ⟨j, d, found, same, opened⟩
        cases j with
        | zero =>
            obtain rfl := Option.some.inj found
            exact .inl ⟨same, opened⟩
        | succ j =>
            rw [← Nat.add_assoc, Nat.add_right_comm] at opened
            exact .inr ⟨j, d, found, same, opened⟩

/-- The server has exactly the masters, each under the bus id of its device. -/
theorem drms_iff {argv : List (List Byte)} (run : o.main strerror argv = .ok (.serve m))
    (parents : ∀ e ∈ o.udev.filterMap UdevDevice.minor, ∃ b : PciAddress, e.sysname = b.sysname)
    (distinct : (o.pci.map PciDevice.address).Nodup) (a : PciAddress) (fd : Int) :
    m.drms a.busid = some fd ↔ o.MasterOf a fd := by
  unfold main at run
  split at run
  swap
  · cases run
  split at run
  swap
  · cases run
  obtain ⟨devices, offered, run⟩ := bind_eq_ok.mp run
  obtain ⟨masters, loop, final⟩ := bind_eq_ok.mp run
  obtain rfl := MasterEnd.serve.inj (Except.ok.inj final)
  obtain rfl : devices = o.pci.filterMap (listing o.udev) := by
    rw [getAllAtiDevices, readDevices_eq parents] at offered
    split at offered
    · exact (Except.ok.inj offered).symm
    · cases offered
  rw [setMasters_drms loop (nodup_listing distinct) (fun _ _ => rfl)]
  simp only [reduceCtorEq, false_or, Nat.zero_add, MasterOf]
  -- a listed device has the node of its own address
  have own : ∀ {i : Nat} {devData : AtiDeviceData},
      (o.pci.filterMap (listing o.udev))[i]? = some devData → devData.busid = a.busid →
        ∃ node, lastNode o.udev a = some node ∧ devData.devpath = node.path := by
    intro i devData found same
    obtain ⟨device, -, listed⟩ := List.mem_filterMap.mp (List.mem_of_getElem? found)
    obtain ⟨-, node, last, -, fields⟩ := listing_eq_some.mp listed
    have address : device.address = a := by
      apply PciAddress.busid_inj
      rw [← same, fields]
    exact ⟨node, address ▸ last, by rw [fields]⟩
  constructor
  · rintro ⟨i, devData, found, same, -, rfl, set⟩
    obtain ⟨node, last, path⟩ := own found same
    exact ⟨i, devData, node, found, same, last, by rw [path], set⟩
  · rintro ⟨i, devData, node, found, same, last, rfl, set⟩
    obtain ⟨node', last', path⟩ := own found same
    obtain rfl := Option.some.inj (last.symm.trans last')
    exact ⟨i, devData, found, same, by rw [path]; exact node.path_ne_nil, by rw [path], set⟩

end

end MasterOutcomes

end RadeonsiCompute
