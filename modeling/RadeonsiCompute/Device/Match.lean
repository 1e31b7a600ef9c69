import RadeonsiCompute.Device.Lookup

/-!
# When the right device node is found

A name that has too few fields aborts the loop, and so does a name by bus,
device and function with a letter in it; without a letter it is read as decimal.
The lookup is right when every name up to the one taken for the device can be
read and the one taken is the right one. That is so of the names of PCI devices.
-/

namespace RadeonsiCompute

open Lib

/-- Four fields of the first format match, or three and then all of the second format. -/
def Legible (key : List Byte) : Prop :=
  (scanf pciFormat (cString key)).length = 4 ∨
    (scanf pciFormat (cString key)).length = 3 ∧ (scanf busFormat (cString key)).length = 3

instance (key : List Byte) : Decidable (Legible key) := inferInstanceAs (Decidable (_ ∨ _))

/-- The fields that match are those of the device. -/
def TakenFor (key : List Byte) (a : PciAddress) : Prop :=
  scanf pciFormat (cString key) =
      [a.reading.domain, a.reading.bus, a.reading.dev, a.reading.func] ∨
    (scanf pciFormat (cString key)).length = 3 ∧ a.reading.domain = 0 ∧
      scanf busFormat (cString key) = [a.reading.bus, a.reading.dev, a.reading.func]

instance (key : List Byte) (a : PciAddress) : Decidable (TakenFor key a) :=
  inferInstanceAs (Decidable (_ ∨ _))

/-- Every name in front of the first one taken for the device can be read, and that one's node
is the node of an entry that names the device. If no name is taken for it, none names it. -/
def Sound (table : BusidTable) (a : PciAddress) : Prop :=
  (∀ e ∈ table.takeWhile (fun e => ¬ TakenFor e.sysname a), Legible e.sysname) ∧
    match table.find? (fun e => TakenFor e.sysname a) with
    | some e => ∃ e' ∈ table, Denotes e'.sysname a ∧ e'.devnode.path = e.devnode.path
    | none => ∀ e ∈ table, ¬ Denotes e.sysname a

/-! ## One name -/

section Key

variable {key : List Byte} {a : PciAddress}

/-- A name with four fields. -/
theorem readKey_of_four {domain bus dev func : BitVec 32}
    (fields : scanf pciFormat (cString key) = [domain, bus, dev, func]) :
    readKey key = .ok ⟨domain, bus, dev, func⟩ := by
  rw [readKey, fields]

/-- A name with three fields, and three again. -/
theorem readKey_of_three {bus dev func : BitVec 32}
    (first : (scanf pciFormat (cString key)).length = 3)
    (fields : scanf busFormat (cString key) = [bus, dev, func]) :
    readKey key = .ok ⟨0, bus, dev, func⟩ := by
  obtain ⟨x, y, z, read⟩ := List.length_eq_three.mp first
  rw [readKey, read]
  dsimp only
  rw [fields]

theorem length_eq_four {vs : List (BitVec 32)} (four : vs.length = 4) :
    ∃ x y z u, vs = [x, y, z, u] := by
  match vs, four with
  | [x, y, z, u], _ => exact ⟨x, y, z, u, rfl⟩

/-- A name that can be read is read. -/
theorem Legible.readKey (legible : Legible key) : ∃ r, readKey key = .ok r := by
  cases legible with
  | inl four =>
      obtain ⟨x, y, z, u, fields⟩ := length_eq_four four
      exact ⟨_, readKey_of_four fields⟩
  | inr three =>
      obtain ⟨x, y, z, fields⟩ := List.length_eq_three.mp three.2
      exact ⟨_, readKey_of_three three.1 fields⟩

/-- A name that was read matched one of the formats. -/
theorem readKey_eq_ok {r : KeyReading} (read : readKey key = .ok r) :
    scanf pciFormat (cString key) = [r.domain, r.bus, r.dev, r.func] ∨
      (scanf pciFormat (cString key)).length = 3 ∧ r.domain = 0 ∧
        scanf busFormat (cString key) = [r.bus, r.dev, r.func] := by
  unfold RadeonsiCompute.readKey at read
  split at read
  · next fields =>
      obtain rfl := Except.ok.inj read
      exact .inl fields
  · next fields =>
      split at read
      · next again =>
          obtain rfl := Except.ok.inj read
          exact .inr ⟨by rw [fields]; rfl, rfl, again⟩
      · cases read
  · cases read

theorem legible_iff : Legible key ↔ ∃ r, readKey key = .ok r := by
  constructor
  · exact Legible.readKey
  · rintro ⟨r, read⟩
    cases readKey_eq_ok read with
    | inl four => exact .inl (by rw [four]; rfl)
    | inr three => exact .inr ⟨three.1, by rw [three.2.2]; rfl⟩

theorem takenFor_iff : TakenFor key a ↔ readKey key = .ok a.reading := by
  constructor
  · intro taken
    cases taken with
    | inl four => exact readKey_of_four four
    | inr three =>
        rw [readKey_of_three three.1 three.2.2, ← three.2.1]
  · exact readKey_eq_ok

end Key

/-! ## The names of devices -/

section Names

variable {bus dev func rest : List Byte}

/-- Three hexadecimal numerals with colons between them are three fields. -/
theorem scanf_pciFormat (hbus : HexNumeral bus) (hdev : HexNumeral dev) (hfunc : HexNumeral func)
    (ends : Ends rest) :
    scanf pciFormat (bus ++ byte ':' :: (dev ++ byte ':' :: (func ++ rest))) =
      strtoul false (numeral 16 bus) :: strtoul false (numeral 16 dev) ::
        strtoul false (numeral 16 func) :: scanf [.literal (byte '.'), .int] rest := by
  rw [pciFormat, scanf_hex (scanHex_digits hbus.nonempty hbus.all (ends_colon _)), scanf_literal,
    scanf_hex (scanHex_digits hdev.nonempty hdev.all (ends_colon _)), scanf_literal,
    scanf_hex (scanHex_digits hfunc.nonempty hfunc.all ends)]

theorem cString_eq {s : List Byte} (plain : ∀ b ∈ s, b ≠ 0) : cString s = s :=
  List.takeWhile_eq_self_iff.mpr fun b member => by simpa using plain b member

theorem HexNumeral.plain (digits : HexNumeral bus) : ∀ b ∈ bus, b ≠ 0 := by
  rintro b member rfl
  exact absurd (digits.all 0 member) (by decide)

theorem cString_busName (hbus : HexNumeral bus) (hdev : HexNumeral dev)
    (hfunc : HexNumeral func) : cString (busName bus dev func) = busName bus dev func := by
  apply cString_eq
  have colon : byte ':' ≠ 0 := by decide
  intro b member
  rw [busName, List.mem_append, List.mem_cons, List.mem_append, List.mem_cons] at member
  rcases member with first | rfl | second | rfl | third
  · exact hbus.plain b first
  · exact colon
  · exact hdev.plain b second
  · exact colon
  · exact hfunc.plain b third

theorem hexNumeral_formatHex (width n : Nat) : HexNumeral (formatHex width n) :=
  ⟨formatHex_ne_nil width n, isDigit_formatHex width n⟩

/-- The name of a PCI device, by its fields. -/
theorem PciAddress.sysname_eq (a : PciAddress) :
    a.sysname = formatHex 4 a.domain.toNat ++ byte ':' :: (formatHex 2 a.bus.toNat ++
      byte ':' :: (formatHex 2 a.dev.toNat ++ byte '.' :: decimal a.func.toNat)) := by
  have unsigned : formatLong (a.func.toNat : Int) = decimal a.func.toNat := by
    rw [formatLong, if_neg (by omega), Int.natAbs_natCast]
  have colon : text ":" = [byte ':'] := by decide
  have dot : text "." = [byte '.'] := by decide
  simp only [PciAddress.sysname, unsigned, colon, dot, List.append_assoc, List.cons_append,
    List.nil_append]

theorem PciAddress.cString_sysname (a : PciAddress) : cString a.sysname = a.sysname := by
  have visible := a.visible
  rw [a.busid_eq] at visible
  have whole : Visible a.sysname := fun b member => visible b (List.mem_append_right _ member)
  exact whole.cString

theorem reading_domain (a : PciAddress) : a.reading.domain = .ofNat 32 a.domain.toNat :=
  BitVec.eq_of_toNat_eq (Nat.mod_eq_of_lt a.domain.toNat_lt).symm

theorem setWidth_toBitVec (x : UInt8) : x.toBitVec.setWidth 32 = .ofNat 32 x.toNat := by
  apply BitVec.eq_of_toNat_eq
  rw [BitVec.toNat_setWidth, BitVec.toNat_ofNat]
  rfl

/-- The name of a PCI device is read as its own address. -/
theorem PciAddress.scanf_sysname (a : PciAddress) : scanf pciFormat (cString a.sysname) =
    [a.reading.domain, a.reading.bus, a.reading.dev, a.reading.func] := by
  have domain : a.domain.toNat < 2 ^ 32 := a.domain.toNat_lt
  have byte_lt (x : UInt8) : x.toNat < 2 ^ 32 := Nat.lt_trans x.toNat_lt (by decide)
  have whole := scanInt_decimal (decimal_ne_nil a.func.toNat) (isDigit_decimal a.func.toNat)
    ends_nil
  rw [List.append_nil] at whole
  rw [a.cString_sysname, a.sysname_eq, scanf_pciFormat (hexNumeral_formatHex _ _)
    (hexNumeral_formatHex _ _) (hexNumeral_formatHex _ _) (ends_dot _), scanf_literal,
    scanf_int whole, numeral_formatHex, numeral_formatHex, numeral_formatHex, numeral_decimal,
    strtoul_of_lt domain, strtoul_of_lt (byte_lt _), strtoul_of_lt (byte_lt _),
    strtol_of_lt (byte_lt _), reading_domain]
  show _ = [_, a.bus.toBitVec.setWidth 32, a.dev.toBitVec.setWidth 32, a.func.toBitVec.setWidth 32]
  rw [setWidth_toBitVec, setWidth_toBitVec, setWidth_toBitVec]
  rfl

/-- Devices with the same fields have the same address. -/
theorem PciAddress.reading_inj {a b : PciAddress} (same : a.reading = b.reading) : a = b := by
  have narrow {x y : UInt8} (wide : x.toBitVec.setWidth 32 = y.toBitVec.setWidth 32) : x = y := by
    rw [setWidth_toBitVec, setWidth_toBitVec] at wide
    have values := congrArg BitVec.toNat wide
    rw [BitVec.toNat_ofNat, BitVec.toNat_ofNat, Nat.mod_eq_of_lt (Nat.lt_trans x.toNat_lt
      (by decide)), Nat.mod_eq_of_lt (Nat.lt_trans y.toNat_lt (by decide))] at values
    exact UInt8.toNat_inj.mp values
  obtain ⟨domain, bus, dev, func⟩ := KeyReading.mk.inj same
  cases a
  cases b
  rw [PciAddress.mk.injEq]
  exact ⟨UInt32.toBitVec_inj.mp domain, narrow bus, narrow dev, narrow func⟩

theorem legible_sysname (b : PciAddress) : Legible b.sysname :=
  .inl (by rw [b.scanf_sysname]; rfl)

/-- The name of a PCI device is taken for that device only. -/
theorem takenFor_sysname {a b : PciAddress} : TakenFor b.sysname a ↔ b = a := by
  rw [takenFor_iff, readKey_of_four b.scanf_sysname, Except.ok.injEq]
  exact ⟨fun same => PciAddress.reading_inj same, fun same => same ▸ rfl⟩

/-! ## Names by bus, device and function -/

theorem length_pciFormat_busName (hbus : HexNumeral bus) (hdev : HexNumeral dev)
    (hfunc : HexNumeral func) : (scanf pciFormat (cString (busName bus dev func))).length = 3 := by
  have fields := scanf_pciFormat hbus hdev hfunc ends_nil
  rw [List.append_nil] at fields
  rw [cString_busName hbus hdev hfunc, busName, fields]
  rfl

/-- Such a name can be read if its first two numerals have no letter and the third does not
start with one. -/
theorem legible_busName (hbus : HexNumeral bus) (hdev : HexNumeral dev)
    (hfunc : HexNumeral func) : Legible (busName bus dev func) ↔
      (∀ b ∈ bus, isDigit 10 b = true) ∧ (∀ b ∈ dev, isDigit 10 b = true) ∧
        ∀ b ∈ func.head?, isDigit 10 b = true := by
  have three := length_pciFormat_busName hbus hdev hfunc
  have again : Legible (busName bus dev func) ↔
      (scanf busFormat (busName bus dev func)).length = 3 := by
    rw [Legible, three, cString_busName hbus hdev hfunc]
    exact ⟨fun either => either.elim (fun four => absurd four (by decide)) And.right,
      fun second => .inr ⟨rfl, second⟩⟩
  rw [again]
  by_cases first : ∀ b ∈ bus, isDigit 10 b = true
  · rw [and_iff_right first, busFormat, busName,
      scanf_int (scanInt_decimal hbus.nonempty first (ends_colon _)), scanf_literal]
    by_cases second : ∀ b ∈ dev, isDigit 10 b = true
    · rw [and_iff_right second,
        scanf_int (scanInt_decimal hdev.nonempty second (ends_colon _)), scanf_literal,
        List.length_cons, List.length_cons, ← length_scanf_int_digits hfunc.nonempty hfunc.all]
      omega
    · refine iff_of_false (fun whole => ?_) fun both => second both.1
      have short := length_scanf_int_le [.int] (byte ':' :: func) hdev.nonempty hdev.all second
        (b := byte ':') (by decide)
      rw [List.length_cons] at whole
      omega
  · refine iff_of_false (fun whole => ?_) fun both => first both.1
    have short := length_scanf_int_le [.int, .literal (byte ':'), .int]
      (byte ':' :: (dev ++ byte ':' :: func)) hbus.nonempty hbus.all first (b := byte ':')
      (by decide)
    rw [busFormat, busName] at whole
    omega

/-- A name without a letter is taken for the device with these decimal numbers. -/
theorem takenFor_busName (hbus : HexNumeral bus) (hdev : HexNumeral dev)
    (hfunc : HexNumeral func) (dbus : ∀ b ∈ bus, isDigit 10 b = true)
    (ddev : ∀ b ∈ dev, isDigit 10 b = true) (dfunc : ∀ b ∈ func, isDigit 10 b = true)
    {a : PciAddress} : TakenFor (busName bus dev func) a ↔ a.reading =
      ⟨0, strtol false (numeral 10 bus), strtol false (numeral 10 dev),
        strtol false (numeral 10 func)⟩ := by
  have whole := scanInt_decimal hfunc.nonempty dfunc ends_nil
  rw [List.append_nil] at whole
  have fields : scanf busFormat (cString (busName bus dev func)) =
      [strtol false (numeral 10 bus), strtol false (numeral 10 dev),
        strtol false (numeral 10 func)] := by
    rw [cString_busName hbus hdev hfunc, busFormat, busName,
      scanf_int (scanInt_decimal hbus.nonempty dbus (ends_colon _)), scanf_literal,
      scanf_int (scanInt_decimal hdev.nonempty ddev (ends_colon _)), scanf_literal,
      scanf_int whole]
    rfl
  rw [takenFor_iff, readKey_of_three (length_pciFormat_busName hbus hdev hfunc) fields,
    Except.ok.injEq, eq_comm]

/-- The name of a PCI device names that device only, in either way. -/
theorem denotes_sysname {a b : PciAddress} : Denotes b.sysname a ↔ b = a := by
  constructor
  · intro denotes
    cases denotes with
    | pci named =>
        have own : TakenFor a.sysname a := takenFor_sysname.mpr rfl
        exact takenFor_sysname.mp (named ▸ own)
    | bus domain bus dev func hbus hdev hfunc atBus atDev atFunc named =>
        -- one field too few for the name of a PCI device
        have three := length_pciFormat_busName hbus hdev hfunc
        rw [← named, b.scanf_sysname] at three
        exact absurd three (by simp)
  · exact fun same => .pci (congrArg PciAddress.sysname same)

/-- A name without a colon cannot be read. -/
theorem not_legible_of_no_colon {key : List Byte} (absent : byte ':' ∉ key) : ¬ Legible key := by
  have inString : byte ':' ∉ cString key := fun member =>
    absent ((List.takeWhile_sublist _).subset member)
  have short := length_scanf_hex_le
    [.hex, .literal (byte ':'), .hex, .literal (byte '.'), .int] inString
  rintro (four | three)
  · rw [pciFormat] at four
    omega
  · have three := three.1
    rw [pciFormat] at three
    omega

end Names

/-! ## The loop -/

section Loop

variable {table : BusidTable} {a : PciAddress} {e : BusidEntry}

theorem findDevpath_of_taken (taken : TakenFor e.sysname a) :
    findDevpath a (e :: table) = .ok e.devnode.path := by
  rw [findDevpath, takenFor_iff.mp taken, ok_bind, if_pos rfl]
  rfl

theorem findDevpath_of_passed (legible : Legible e.sysname) (passed : ¬ TakenFor e.sysname a) :
    findDevpath a (e :: table) = findDevpath a table := by
  obtain ⟨r, read⟩ := legible.readKey
  have other : r ≠ a.reading := fun same => passed (takenFor_iff.mpr (same ▸ read))
  rw [findDevpath, read, ok_bind, if_neg other]

theorem findDevpath_of_illegible (illegible : ¬ Legible e.sysname) {devpath : List Byte} :
    findDevpath a (e :: table) ≠ .ok devpath := by
  intro found
  obtain ⟨r, read, -⟩ := bind_eq_ok.mp found
  exact illegible (legible_iff.mpr ⟨r, read⟩)

/-- The loop returns when the names in front of the first one taken can be read, and with the
node of that one. -/
theorem findDevpath_eq_ok_iff {devpath : List Byte} : findDevpath a table = .ok devpath ↔
    (∀ e ∈ table.takeWhile (fun e => ¬ TakenFor e.sysname a), Legible e.sysname) ∧
      devpath = match table.find? (fun e => TakenFor e.sysname a) with
        | some e => e.devnode.path
        | none => [] := by
  induction table with
  | nil =>
      have empty : findDevpath a [] = .ok devpath ↔ devpath = [] := by
        rw [findDevpath, Except.ok.injEq, eq_comm]
      rw [empty]
      exact ⟨fun same => ⟨by simp, same⟩, fun both => both.2⟩
  | cons e table ih =>
      by_cases taken : TakenFor e.sysname a
      · rw [findDevpath_of_taken taken, List.takeWhile_cons_of_neg (by simpa using taken),
          List.find?_cons_of_pos (by simpa using taken), Except.ok.injEq, eq_comm]
        exact ⟨fun same => ⟨by simp, same⟩, fun both => both.2⟩
      · rw [List.takeWhile_cons_of_pos (by simpa using taken),
          List.find?_cons_of_neg (by simpa using taken), List.forall_mem_cons]
        by_cases legible : Legible e.sysname
        · rw [findDevpath_of_passed legible taken, ih, and_iff_right legible]
        · exact iff_of_false (findDevpath_of_illegible legible) fun both => legible both.1.1

/-- A path is not empty. -/
theorem DevNode.path_ne_nil (node : DevNode) : node.path ≠ [] := by
  intro empty
  have first := node.absolute
  rw [empty] at first
  cases first

theorem foundDevpath_iff : FoundDevpath table a ↔ Sound table a := by
  constructor
  · rintro ⟨devpath, found, right⟩
    obtain ⟨legible, value⟩ := findDevpath_eq_ok_iff.mp found
    refine ⟨legible, ?_⟩
    cases first : table.find? (fun e => TakenFor e.sysname a) with
    | some e =>
        rw [first] at value
        cases right with
        | inl named =>
            obtain ⟨e', member, denotes, node⟩ := named
            exact ⟨e', member, denotes, node.symm.trans value⟩
        | inr none => exact absurd (value.symm.trans none.2) e.devnode.path_ne_nil
    | none =>
        rw [first] at value
        cases right with
        | inl named =>
            obtain ⟨e', -, -, node⟩ := named
            exact absurd (node.symm.trans value) e'.devnode.path_ne_nil
        | inr none => exact none.1
  · rintro ⟨legible, right⟩
    refine ⟨_, findDevpath_eq_ok_iff.mpr ⟨legible, rfl⟩, ?_⟩
    cases first : table.find? (fun e => TakenFor e.sysname a) with
    | some e =>
        rw [first] at right
        obtain ⟨e', member, denotes, node⟩ := right
        exact .inl ⟨e', member, denotes, node.symm⟩
    | none =>
        rw [first] at right
        exact .inr ⟨right, rfl⟩

end Loop

/-! ## The table -/

section Table

variable {devices : List UdevDevice} {table : BusidTable} {e : BusidEntry}

theorem BusidTable.mem_set {sysname : List Byte} {devnode : DevNode}
    (member : e ∈ table.set sysname devnode) : e = ⟨sysname, devnode⟩ ∨ e ∈ table := by
  induction table with
  | nil => exact .inl (List.mem_singleton.mp member)
  | cons first table ih =>
      rw [BusidTable.set] at member
      split at member
      · exact (List.mem_cons.mp member).imp_right (List.mem_cons_of_mem _)
      · split at member
        · exact List.mem_cons.mp member
        · cases List.mem_cons.mp member with
          | inl same => exact .inr (same ▸ List.mem_cons_self)
          | inr later => exact (ih later).imp_right (List.mem_cons_of_mem _)

/-- Each entry is a DRM minor with the name of its parent. -/
theorem mem_getBusidLookup (member : e ∈ getBusidLookup devices) :
    ⟨some (text "drm_minor"), some e.devnode, some e.sysname⟩ ∈ devices := by
  have run : ∀ (devices : List UdevDevice) (table : BusidTable),
      e ∈ devices.foldl BusidTable.add table →
        e ∈ table ∨ ⟨some (text "drm_minor"), some e.devnode, some e.sysname⟩ ∈ devices := by
    intro devices
    induction devices with
    | nil => exact fun table => .inl
    | cons device devices ih =>
        intro table member
        cases ih (table.add device) member with
        | inr later => exact .inr (List.mem_cons_of_mem _ later)
        | inl added =>
            unfold BusidTable.add at added
            split at added
            · split at added
              · next type devnode sysname htype hnode hname minor =>
                  cases BusidTable.mem_set added with
                  | inl same =>
                      subst same
                      refine .inr (List.mem_cons.mpr (.inl ?_))
                      rw [← minor, ← htype, ← hnode, ← hname]
                  | inr before => exact .inl before
              · exact .inl added
            · exact .inl added
  exact (run devices [] member).resolve_left List.not_mem_nil

/-- If PCI devices are the only parents, every device finds its own node. -/
theorem sound_of_pci (pci : ∀ e ∈ table, ∃ b : PciAddress, e.sysname = b.sysname)
    (a : PciAddress) : Sound table a := by
  refine ⟨?_, ?_⟩
  · intro e member
    obtain ⟨b, named⟩ := pci e ((List.takeWhile_sublist _).subset member)
    exact named ▸ legible_sysname b
  · cases first : table.find? (fun e => TakenFor e.sysname a) with
    | some e =>
        have member := List.mem_of_find?_eq_some first
        have taken : TakenFor e.sysname a := by simpa using List.find?_some first
        obtain ⟨b, named⟩ := pci e member
        have own : b = a := takenFor_sysname.mp (named ▸ taken)
        exact ⟨e, member, .pci (named.trans (congrArg PciAddress.sysname own)), rfl⟩
    | none =>
        intro e member denotes
        obtain ⟨b, named⟩ := pci e member
        have own : b = a := denotes_sysname.mp (named ▸ denotes)
        have passed := List.find?_eq_none.mp first e member
        exact passed (by simpa [named] using takenFor_sysname.mpr own)

end Table

/-- When the right node is found, and what that says of the names of PCI devices, of names by
bus, device and function, and of names of other devices. -/
theorem getBusidLookup_found_iff (devices : List UdevDevice) (a : PciAddress) :
    (FoundDevpath (getBusidLookup devices) a ↔ Sound (getBusidLookup devices) a) ∧
    (∀ b : PciAddress, Legible b.sysname ∧ (TakenFor b.sysname a ↔ b = a)) ∧
    (∀ bus dev func : List Byte, HexNumeral bus → HexNumeral dev → HexNumeral func →
      (Legible (busName bus dev func) ↔ (∀ b ∈ bus, isDigit 10 b = true) ∧
        (∀ b ∈ dev, isDigit 10 b = true) ∧ ∀ b ∈ func.head?, isDigit 10 b = true) ∧
      ((∀ b ∈ bus ++ dev ++ func, isDigit 10 b = true) →
        (TakenFor (busName bus dev func) a ↔ a.reading =
          ⟨0, strtol false (numeral 10 bus), strtol false (numeral 10 dev),
            strtol false (numeral 10 func)⟩))) ∧
    ∀ key, byte ':' ∉ key → ¬ Legible key := by
  refine ⟨foundDevpath_iff, fun b => ⟨legible_sysname b, takenFor_sysname⟩, ?_,
    fun _ absent => not_legible_of_no_colon absent⟩
  intro bus dev func hbus hdev hfunc
  refine ⟨legible_busName hbus hdev hfunc, fun decimal => ?_⟩
  rw [List.forall_mem_append, List.forall_mem_append] at decimal
  obtain ⟨⟨dbus, ddev⟩, dfunc⟩ := decimal
  exact takenFor_busName hbus hdev hfunc dbus ddev dfunc

/-- The virtual device `vgem` has no PCI parent, and no device is found beside it. -/
theorem vgem_aborts : ¬ ∀ (devices : List UdevDevice) (a : PciAddress),
    FoundDevpath (getBusidLookup devices) a := by
  intro all
  have aborts : findDevpath ⟨0, 1, 0, 0⟩ (getBusidLookup
      [⟨some (text "drm_minor"), some ⟨text "/dev/dri/card1", by decide⟩, some (text "vgem")⟩]) =
        .error (.assertion "ret == 3 or ret == 4") := by decide
  obtain ⟨devpath, found, -⟩ := all
    [⟨some (text "drm_minor"), some ⟨text "/dev/dri/card1", by decide⟩, some (text "vgem")⟩]
    ⟨0, 1, 0, 0⟩
  cases aborts.symm.trans found

end RadeonsiCompute
