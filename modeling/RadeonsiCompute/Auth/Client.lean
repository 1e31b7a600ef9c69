import RadeonsiCompute.Lib.Text

/-!
# The authentication message

A device is named by the bus id that `getAllAtiDevices` prints, and
`authWithLocalMaster` sends that name and the magic of the caller's descriptor
to the master on this host in one datagram.
-/

namespace RadeonsiCompute

open Lib

/-- The address of a `struct pci_device`. -/
structure PciAddress where
  domain : UInt32
  bus : UInt8
  dev : UInt8
  func : UInt8
  deriving DecidableEq, Repr

/-- `"pci:%04x:%02x:%02x.%d"`, as `getAllAtiDevices` prints it. -/
def PciAddress.busid (a : PciAddress) : List Byte :=
  text "pci:" ++ formatHex 4 a.domain.toNat ++ text ":" ++ formatHex 2 a.bus.toNat ++ text ":" ++
    formatHex 2 a.dev.toNat ++ text "." ++ formatLong a.func.toNat

/-- The datagram of `authWithLocalMaster`: `"%s %li"` in a buffer of 1024 bytes. -/
def authMessage (magic : Int) (busid : List Byte) : List Byte :=
  snprintf 1024 (cString busid ++ text " " ++ formatLong magic)

theorem PciAddress.visible (a : PciAddress) : Visible a.busid := by
  unfold PciAddress.busid
  have colon : Visible (text ":") := by decide
  have scheme : Visible (text "pci:") := by decide
  have dot : Visible (text ".") := by decide
  apply Visible.append _ (visible_formatLong _)
  apply Visible.append _ dot
  apply Visible.append _ (visible_formatHex _ _)
  apply Visible.append _ colon
  apply Visible.append _ (visible_formatHex _ _)
  apply Visible.append _ colon
  exact scheme.append (visible_formatHex _ _)

theorem PciAddress.length_busid (a : PciAddress) : a.busid.length ≤ 22 := by
  have domain := @length_formatHex_le 4 a.domain.toNat 8 (by omega) a.domain.toNat_lt
  have bus := @length_formatHex_le 2 a.bus.toNat 2 (by omega) a.bus.toNat_lt
  have dev := @length_formatHex_le 2 a.dev.toNat 2 (by omega) a.dev.toNat_lt
  have func := @length_decimal_le a.func.toNat 3 (by omega) (by
    have := a.func.toNat_lt
    omega)
  have unsigned : formatLong (a.func.toNat : Int) = decimal a.func.toNat := by
    rw [formatLong, if_neg (by omega), Int.natAbs_natCast]
  have scheme : (text "pci:").length = 4 := by decide
  have colon : (text ":").length = 1 := by decide
  have dot : (text ".").length = 1 := by decide
  simp only [PciAddress.busid, unsigned, List.length_append, scheme, colon, dot]
  omega

theorem PciAddress.busid_ne_nil (a : PciAddress) : a.busid ≠ [] := by
  intro empty
  have length := congrArg List.length empty
  have scheme : (text "pci:").length = 4 := by decide
  simp only [PciAddress.busid, List.length_append, scheme, List.length_nil] at length
  omega

/-- The message of a device and a 32-bit magic fits in the buffer. -/
theorem authMessage_eq (a : PciAddress) (magic : UInt32) :
    authMessage magic.toNat a.busid = a.busid ++ text " " ++ decimal magic.toNat ∧
      (authMessage magic.toNat a.busid).length ≤ 33 := by
  have unsigned : formatLong (magic.toNat : Int) = decimal magic.toNat := by
    rw [formatLong, if_neg (by omega), Int.natAbs_natCast]
  have digits := @length_decimal_le magic.toNat 10 (by omega) (by
    have := magic.toNat_lt
    omega)
  have busid := a.length_busid
  have blank : (text " ").length = 1 := by decide
  have length : (a.busid ++ text " " ++ decimal magic.toNat).length ≤ 33 := by
    simp only [List.length_append, blank]
    omega
  have whole : authMessage magic.toNat a.busid = a.busid ++ text " " ++ decimal magic.toNat := by
    rw [authMessage, a.visible.cString, unsigned, snprintf]
    exact List.take_of_length_le (by omega)
  exact ⟨whole, by rw [whole]; exact length⟩

end RadeonsiCompute
