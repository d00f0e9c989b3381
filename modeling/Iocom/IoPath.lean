import Iocom.LighthouseText
import Iocom.MemoryBlock

/-!
# IO paths

`ioc_identifiers.c` splits a path such as `signal.mblk.device12.network`.  The device name
and number share a buffer of `IOC_NAME_SZ` until the digits at its end are taken off, and
the number passes through an `os_short`.
-/

namespace Iocom

open Separated

/-- `IOC_SIGNAL_NAME_SZ`, `IOC_NAME_SZ` and `IOC_NETWORK_NAME_SZ`. -/
structure IoNameSizes where
  signalName : ℕ
  name : ℕ
  networkName : ℕ

/-- `iocExpectIoPath`. -/
inductive ExpectIoPath where
  | signal
  | memoryBlock
  | device
  | network
  deriving DecidableEq

/-- `iocIdentifiers`. -/
structure IoIdentifiers where
  signalName : List Char
  mblkName : List Char
  deviceName : List Char
  deviceNr : ℕ
  networkName : List Char
  deriving DecidableEq

/-- An `iocIdentifiers` which has been cleared. -/
def clearIdentifiers : IoIdentifiers where
  signalName := []
  mblkName := []
  deviceName := []
  deviceNr := 0
  networkName := []

/-- What `ioc_get_part_of_iopath` stores, where the path goes on, and what it returns. -/
structure IoPathPart where
  buf : List Char
  iopath : List Char
  more : Bool

/-- `ioc_get_part_of_iopath`. -/
def getPartOfIopath (iopath : List Char) (bufSz : ℕ) : IoPathPart :=
  let n := (iopath.takeWhile (· ≠ '.')).length + 1
  let buf := osStrncpy iopath (if bufSz < n then bufSz else n)
  let buf := if buf = ['*'] then [] else buf
  match iopath.dropWhile (· ≠ '.') with
  | [] => ⟨buf, [], false⟩
  | _ :: rest => ⟨buf, rest, true⟩

def splitDeviceNumber (buf : List Char) : List Char × ℕ :=
  let digits := (buf.reverse.takeWhile Char.isDigit).reverse
  if digits = [] then (buf, 0)
  else
    (buf.take (buf.length - digits.length), osUint (osShort (osalStrToInt digits)))

section

variable (sizes : IoNameSizes) (rootNetworkName : List Char)

/-- The label `only_network`. -/
def identifyNetwork (ids : IoIdentifiers) (iopath : List Char) : IoIdentifiers :=
  { ids with
    networkName :=
      osStrncpy (if iopath ≠ [] then iopath else rootNetworkName) sizes.networkName }

/-- From `IOC_EXPECT_DEVICE` on. -/
def identifyDevice (ids : IoIdentifiers) (iopath : List Char) : IoIdentifiers :=
  let part := getPartOfIopath iopath sizes.name
  let device := splitDeviceNumber part.buf
  identifyNetwork sizes rootNetworkName { ids with deviceName := device.1, deviceNr := device.2 }
    part.iopath

/-- From `IOC_EXPECT_MEMORY_BLOCK` on. -/
def identifyMblk (ids : IoIdentifiers) (iopath : List Char) : IoIdentifiers :=
  let part := getPartOfIopath iopath sizes.name
  let ids := { ids with mblkName := part.buf }
  if part.more then identifyDevice sizes rootNetworkName ids part.iopath
  else identifyNetwork sizes rootNetworkName ids part.iopath

/-- From `IOC_EXPECT_SIGNAL` on. -/
def identifySignal (ids : IoIdentifiers) (iopath : List Char) : IoIdentifiers :=
  let part := getPartOfIopath iopath sizes.signalName
  let ids := { ids with signalName := part.buf }
  if part.more then identifyMblk sizes rootNetworkName ids part.iopath
  else identifyNetwork sizes rootNetworkName ids part.iopath

/-- `ioc_iopath_to_identifiers`; the path can be `OS_NULL`. -/
def ioPathToIdentifiers (iopath : Option (List Char)) (expect : ExpectIoPath) :
    IoIdentifiers :=
  match iopath with
  | none => clearIdentifiers
  | some iopath =>
      match expect with
      | .signal => identifySignal sizes rootNetworkName clearIdentifiers iopath
      | .memoryBlock => identifyMblk sizes rootNetworkName clearIdentifiers iopath
      | .device => identifyDevice sizes rootNetworkName clearIdentifiers iopath
      | .network => identifyNetwork sizes rootNetworkName clearIdentifiers iopath

end

/-! ## Writing a path -/

/-- Names which fit in their buffers, and a device number; no number is 0, and no network
is empty. -/
structure IoPathNames (sizes : IoNameSizes) where
  signal : List Char
  mblk : List Char
  device : List Char
  number : ℕ
  network : List Char
  signal_fits : signal.length < sizes.signalName
  mblk_fits : mblk.length < sizes.name
  device_fits : device.length < sizes.name
  network_fits : network.length < sizes.networkName
  signal_ne : signal ≠ ['*']
  mblk_ne : mblk ≠ ['*']
  device_alpha : ∀ c ∈ device, c.isAlpha = true
  number_le : number ≤ 0x7FFFFFFF

namespace IoPathNames

variable {sizes : IoNameSizes} (names : IoPathNames sizes)

def deviceText : List Char :=
  names.device ++ if names.number = 0 then [] else osalIntToStr names.number

def devicePath : List Char :=
  names.deviceText ++ if names.network = [] then [] else '.' :: names.network

def ioPath : ExpectIoPath → List Char
  | .signal => names.signal ++ '.' :: (names.mblk ++ '.' :: names.devicePath)
  | .memoryBlock => names.mblk ++ '.' :: names.devicePath
  | .device => names.devicePath
  | .network => names.network

def identifiers (rootNetworkName : List Char) (expect : ExpectIoPath) : IoIdentifiers where
  signalName := if expect = .signal then names.signal else []
  mblkName := if expect = .signal ∨ expect = .memoryBlock then names.mblk else []
  deviceName := if expect = .network then [] else names.device
  deviceNr := if expect = .network then 0 else names.number
  networkName := if names.network = [] then rootNetworkName else names.network

/-- The device name and number fit in one buffer, and the number in an `os_short`. -/
def NumberFits : Prop :=
  names.number = 0 ∨ (names.number ≤ 0x7FFF ∧ names.deviceText.length < sizes.name)

def Separable : ExpectIoPath → Prop
  | .signal => '.' ∉ names.signal ∧ '.' ∉ names.mblk ∧ names.NumberFits
  | .memoryBlock => '.' ∉ names.mblk ∧ names.NumberFits
  | .device => names.NumberFits
  | .network => True

end IoPathNames

/-! ## Parts of a path -/

theorem getPartOfIopath_buf (iopath : List Char) (bufSz : ℕ) :
    (getPartOfIopath iopath bufSz).buf =
      if (iopath.takeWhile (· ≠ '.')).take (bufSz - 1) = ['*'] then []
      else (iopath.takeWhile (· ≠ '.')).take (bufSz - 1) := by
  have hcopied : osStrncpy iopath (if bufSz < (iopath.takeWhile (· ≠ '.')).length + 1 then bufSz
      else (iopath.takeWhile (· ≠ '.')).length + 1) =
        (iopath.takeWhile (· ≠ '.')).take (bufSz - 1) := by
    obtain ⟨rest, hrest⟩ := List.takeWhile_prefix (p := (· ≠ '.')) (l := iopath)
    generalize iopath.takeWhile (· ≠ '.') = part at hrest ⊢
    unfold osStrncpy
    rw [← hrest]
    split_ifs with hlt
    · exact List.take_append_of_le_length (by omega)
    · rw [Nat.add_sub_cancel, List.take_left, List.take_of_length_le (by omega)]
  unfold getPartOfIopath
  dsimp only
  rw [hcopied]
  split <;> rfl

theorem dot_notMem_getPartOfIopath (iopath : List Char) (bufSz : ℕ) :
    '.' ∉ (getPartOfIopath iopath bufSz).buf := by
  rw [getPartOfIopath_buf]
  split_ifs
  · exact List.not_mem_nil
  · intro hmem
    have hne := List.mem_takeWhile_imp (List.mem_of_mem_take hmem)
    exact absurd rfl (of_decide_eq_true hne)

theorem getPartOfIopath_cons {name : List Char} {bufSz : ℕ} (hname : '.' ∉ name)
    (hfits : name.length < bufSz) (hne : name ≠ ['*']) (rest : List Char) :
    getPartOfIopath (name ++ '.' :: rest) bufSz = ⟨name, rest, true⟩ := by
  have hsplit := before_sep_cons hname rest
  have hbuf := getPartOfIopath_buf (name ++ '.' :: rest) bufSz
  rw [hsplit.1, List.take_of_length_le (by omega), if_neg hne] at hbuf
  unfold getPartOfIopath at hbuf ⊢
  rw [hsplit.2] at hbuf ⊢
  exact congrArg (IoPathPart.mk · rest true) hbuf

/-! ## The device number -/

theorem isDigit_eq_false_of_isAlpha {c : Char} (h : c.isAlpha = true) : c.isDigit = false := by
  unfold Char.isAlpha Char.isUpper Char.isLower at h
  unfold Char.isDigit
  simp only [Bool.or_eq_true, Bool.and_eq_true, decide_eq_true_eq, UInt32.le_iff_toNat_le,
    ge_iff_le] at h
  simp only [Bool.and_eq_false_iff, decide_eq_false_iff_not, UInt32.le_iff_toNat_le, ge_iff_le]
  have hA : 'A'.val.toNat = 65 := rfl
  have ha : 'a'.val.toNat = 97 := rfl
  have h9 : '9'.val.toNat = 57 := rfl
  omega

/-- The digits behind a name which does not end with a digit. -/
theorem splitDeviceNumber_append {name digits : List Char}
    (hname : ∀ c ∈ name, c.isDigit = false) (hdigits : ∀ c ∈ digits, c.isDigit = true) :
    splitDeviceNumber (name ++ digits) =
      (name, if digits = [] then 0 else osUint (osShort (osalStrToInt digits))) := by
  have htake : ((name ++ digits).reverse.takeWhile Char.isDigit).reverse = digits := by
    have hrev : ∀ c ∈ digits.reverse, c.isDigit = true := fun c hc =>
      hdigits c (List.mem_reverse.mp hc)
    have hstop : ∀ c ∈ name.reverse.head?, c.isDigit = false := fun c hc =>
      hname c (List.mem_reverse.mp (List.mem_of_mem_head? hc))
    rw [List.reverse_append, (takeWhile_dropWhile_append hrev hstop).1, List.reverse_reverse]
  unfold splitDeviceNumber
  rw [htake]
  by_cases hnone : digits = []
  · rw [if_pos hnone, if_pos hnone, hnone, List.append_nil]
  · rw [if_neg hnone, if_neg hnone, List.length_append, Nat.add_sub_cancel, List.take_left']
    rfl

/-- The digits at the beginning of a number are a smaller number. -/
theorem ten_mul_osalStrToInt_le (digits rest : List Char) (hrest : rest ≠ []) :
    10 * osalStrToInt digits ≤ osalStrToInt (digits ++ rest) := by
  have hgrows : ∀ (text : List Char) (x : ℕ),
      x ≤ text.foldl (fun x c => 10 * x + (c.toNat - 0x30)) x := by
    intro text
    induction text with
    | nil => exact fun x => Nat.le_refl x
    | cons c text ih =>
        intro x
        have hmore := ih (10 * x + (c.toNat - 0x30))
        rw [List.foldl_cons]
        omega
  unfold osalStrToInt
  rw [List.foldl_append]
  cases rest with
  | nil => exact absurd rfl hrest
  | cons c rest =>
      rw [List.foldl_cons]
      exact Nat.le_trans (Nat.le_add_right _ _) (hgrows rest _)

theorem osUint_osShort_eq_iff {m n : ℕ} (hle : m ≤ n) (hn : n ≤ 0x7FFFFFFF) :
    osUint (osShort m) = n ↔ m = n ∧ n ≤ 0x7FFF := by
  unfold osUint osShort
  rw [Int.bmod_def]
  omega

theorem osalIntToStr_ne_nil {n : ℕ} (h : n ≠ 0) : osalIntToStr n ≠ [] := by
  unfold osalIntToStr
  rw [if_neg h]
  intro hnil
  rw [List.map_eq_nil_iff, List.reverse_eq_nil_iff, Nat.digits_eq_nil_iff_eq_zero] at hnil
  exact h hnil

namespace IoPathNames

variable {sizes : IoNameSizes} (names : IoPathNames sizes)

theorem device_isDigit : ∀ c ∈ names.device, c.isDigit = false := fun c hc =>
  isDigit_eq_false_of_isAlpha (names.device_alpha c hc)

theorem deviceText_alnum : ∀ c ∈ names.deviceText, c.isAlphanum = true := by
  intro c hc
  unfold Char.isAlphanum
  rw [Bool.or_eq_true]
  rcases List.mem_append.mp hc with hname | hdigits
  · exact Or.inl (names.device_alpha c hname)
  · split_ifs at hdigits
    · cases hdigits
    · exact Or.inr (osalIntToStr_isDigit names.number c hdigits)

/-- The device name and number which are taken from the buffer. -/
theorem splitDeviceNumber_deviceText :
    splitDeviceNumber (names.deviceText.take (sizes.name - 1)) = (names.device, names.number) ↔
      names.NumberFits := by
  have hname := names.device_isDigit
  have hdevice := names.device_fits
  unfold NumberFits deviceText
  by_cases hzero : names.number = 0
  · have hsplit := splitDeviceNumber_append hname fun c (hc : c ∈ []) => absurd hc List.not_mem_nil
    rw [if_pos rfl] at hsplit
    rw [if_pos hzero, List.append_nil, List.take_of_length_le (by omega)]
    rw [List.append_nil] at hsplit
    rw [hsplit, hzero]
    exact ⟨fun _ => Or.inl rfl, fun _ => rfl⟩
  · have hdigits := osalIntToStr_isDigit names.number
    rw [if_neg hzero, List.take_append, List.take_of_length_le (by omega)]
    rw [splitDeviceNumber_append hname fun c hc => hdigits c (List.mem_of_mem_take hc)]
    have hvalue := osalStrToInt_osalIntToStr names.number
    have hnumber := names.number_le
    have hcast : (if (osalIntToStr names.number).take (sizes.name - 1 - names.device.length) = []
        then 0 else osUint (osShort (osalStrToInt
          ((osalIntToStr names.number).take (sizes.name - 1 - names.device.length))))) =
          names.number ↔
        names.number ≤ 0x7FFF ∧ (names.device ++ osalIntToStr names.number).length <
          sizes.name := by
      generalize hroom : sizes.name - 1 - names.device.length = room
      rw [List.length_append]
      by_cases hfits : (osalIntToStr names.number).length ≤ room
      · rw [List.take_of_length_le hfits, if_neg (osalIntToStr_ne_nil hzero), hvalue,
          osUint_osShort_eq_iff (Nat.le_refl _) hnumber]
        exact ⟨fun h => ⟨h.2, by omega⟩, fun h => ⟨rfl, h.1⟩⟩
      · have hdropped : (osalIntToStr names.number).drop room ≠ [] := by
          rw [ne_eq, List.drop_eq_nil_iff]
          exact hfits
        have hless := ten_mul_osalStrToInt_le ((osalIntToStr names.number).take room) _ hdropped
        rw [List.take_append_drop, hvalue] at hless
        refine iff_of_false (fun heq => ?_) fun h => by omega
        split_ifs at heq with hnone
        · exact hzero heq.symm
        · have hsame := ((osUint_osShort_eq_iff (by omega) hnumber).mp heq).1
          omega
    rw [Prod.mk.injEq, hcast]
    exact ⟨fun h => Or.inr h.2, fun h => ⟨rfl, h.resolve_left hzero⟩⟩

theorem getPartOfIopath_devicePath :
    getPartOfIopath names.devicePath sizes.name =
      ⟨names.deviceText.take (sizes.name - 1), names.network, decide (names.network ≠ [])⟩ := by
  have halnum := names.deviceText_alnum
  have hdot : '.' ∉ names.deviceText := fun hmem => absurd (halnum '.' hmem) (by decide)
  have hstar : names.deviceText.take (sizes.name - 1) ≠ ['*'] := by
    intro hsame
    have hmem : '*' ∈ names.deviceText := List.mem_of_mem_take (hsame ▸ List.mem_singleton_self _)
    exact absurd (halnum '*' hmem) (by decide)
  have hbuf := getPartOfIopath_buf names.devicePath sizes.name
  have hsplit : names.devicePath.takeWhile (· ≠ '.') = names.deviceText ∧
      names.devicePath.dropWhile (· ≠ '.') =
        if names.network = [] then [] else '.' :: names.network := by
    refine before_sep hdot fun c hc => ?_
    split_ifs at hc
    · cases hc
    · exact (Option.some.inj hc).symm
  rw [hsplit.1, if_neg hstar] at hbuf
  unfold getPartOfIopath at hbuf ⊢
  rw [hsplit.2] at hbuf ⊢
  by_cases hnone : names.network = []
  · rw [hnone, if_pos rfl] at hbuf ⊢
    exact congrArg (IoPathPart.mk · [] false) hbuf
  · rw [if_neg hnone] at hbuf ⊢
    rw [decide_eq_true hnone]
    exact congrArg (IoPathPart.mk · names.network true) hbuf

variable {rootNetworkName : List Char}

theorem identifyNetwork_eq (hroot : rootNetworkName.length < sizes.networkName)
    (ids : IoIdentifiers) :
    identifyNetwork sizes rootNetworkName ids names.network =
      { ids with
        networkName := if names.network = [] then rootNetworkName else names.network } := by
  unfold identifyNetwork
  by_cases hnone : names.network = []
  · rw [if_neg (not_not.mpr hnone), if_pos hnone, osStrncpy_of_fits hroot]
  · rw [if_pos hnone, if_neg hnone, osStrncpy_of_fits names.network_fits]

theorem identifyDevice_eq (hroot : rootNetworkName.length < sizes.networkName)
    (ids : IoIdentifiers) :
    identifyDevice sizes rootNetworkName ids names.devicePath =
      { ids with
        deviceName := (splitDeviceNumber (names.deviceText.take (sizes.name - 1))).1
        deviceNr := (splitDeviceNumber (names.deviceText.take (sizes.name - 1))).2
        networkName := if names.network = [] then rootNetworkName else names.network } := by
  unfold identifyDevice
  rw [getPartOfIopath_devicePath]
  exact names.identifyNetwork_eq hroot _

theorem identifyDevice_eq_iff (hroot : rootNetworkName.length < sizes.networkName)
    (ids : IoIdentifiers) :
    identifyDevice sizes rootNetworkName ids names.devicePath =
        { ids with
          deviceName := names.device
          deviceNr := names.number
          networkName := if names.network = [] then rootNetworkName else names.network } ↔
      names.NumberFits := by
  rw [names.identifyDevice_eq hroot, ← names.splitDeviceNumber_deviceText, Prod.ext_iff]
  constructor
  · intro heq
    injection heq with _ _ hname hnr
    exact ⟨hname, hnr⟩
  · rintro ⟨hname, hnr⟩
    rw [hname, hnr]

/-- A name before the rest of a path is read back if it holds no dot. -/
theorem identifyMblk_eq_iff (hroot : rootNetworkName.length < sizes.networkName)
    (ids : IoIdentifiers) :
    identifyMblk sizes rootNetworkName ids (names.mblk ++ '.' :: names.devicePath) =
        { ids with
          mblkName := names.mblk
          deviceName := names.device
          deviceNr := names.number
          networkName := if names.network = [] then rootNetworkName else names.network } ↔
      '.' ∉ names.mblk ∧ names.NumberFits := by
  by_cases hdot : '.' ∈ names.mblk
  · refine iff_of_false (fun heq => ?_) fun h => h.1 hdot
    have hname : (identifyMblk sizes rootNetworkName ids
        (names.mblk ++ '.' :: names.devicePath)).mblkName =
          (getPartOfIopath (names.mblk ++ '.' :: names.devicePath) sizes.name).buf := by
      unfold identifyMblk identifyDevice identifyNetwork
      dsimp only
      split <;> rfl
    rw [heq] at hname
    dsimp only at hname
    rw [hname] at hdot
    exact dot_notMem_getPartOfIopath _ _ hdot
  · unfold identifyMblk
    rw [getPartOfIopath_cons hdot names.mblk_fits names.mblk_ne]
    exact (names.identifyDevice_eq_iff hroot { ids with mblkName := names.mblk }).trans
      ⟨fun h => ⟨hdot, h⟩, fun h => h.2⟩

theorem identifySignal_eq_iff (hroot : rootNetworkName.length < sizes.networkName)
    (ids : IoIdentifiers) :
    identifySignal sizes rootNetworkName ids
          (names.signal ++ '.' :: (names.mblk ++ '.' :: names.devicePath)) =
        { ids with
          signalName := names.signal
          mblkName := names.mblk
          deviceName := names.device
          deviceNr := names.number
          networkName := if names.network = [] then rootNetworkName else names.network } ↔
      '.' ∉ names.signal ∧ '.' ∉ names.mblk ∧ names.NumberFits := by
  by_cases hdot : '.' ∈ names.signal
  · refine iff_of_false (fun heq => ?_) fun h => h.1 hdot
    have hname : (identifySignal sizes rootNetworkName ids
        (names.signal ++ '.' :: (names.mblk ++ '.' :: names.devicePath))).signalName =
          (getPartOfIopath (names.signal ++ '.' :: (names.mblk ++ '.' :: names.devicePath))
            sizes.signalName).buf := by
      unfold identifySignal identifyMblk identifyDevice identifyNetwork
      dsimp only
      split
      · split <;> rfl
      · rfl
    rw [heq] at hname
    dsimp only at hname
    rw [hname] at hdot
    exact dot_notMem_getPartOfIopath _ _ hdot
  · unfold identifySignal
    rw [getPartOfIopath_cons hdot names.signal_fits names.signal_ne]
    exact (names.identifyMblk_eq_iff hroot { ids with signalName := names.signal }).trans
      ⟨fun h => ⟨hdot, h⟩, fun h => h.2⟩

end IoPathNames

/-- A path comes back as the identifiers which it was written with, if and only if its names
hold no dots and the device name and number fit. -/
theorem ioPathToIdentifiers_eq_iff {sizes : IoNameSizes} {rootNetworkName : List Char}
    (hroot : rootNetworkName.length < sizes.networkName) (names : IoPathNames sizes)
    (expect : ExpectIoPath) :
    ioPathToIdentifiers sizes rootNetworkName (some (names.ioPath expect)) expect =
        names.identifiers rootNetworkName expect ↔
      names.Separable expect := by
  cases expect with
  | signal => exact names.identifySignal_eq_iff hroot clearIdentifiers
  | memoryBlock => exact names.identifyMblk_eq_iff hroot clearIdentifiers
  | device => exact names.identifyDevice_eq_iff hroot clearIdentifiers
  | network => exact iff_of_true (names.identifyNetwork_eq hroot clearIdentifiers) trivial

def ioNameSizes : IoNameSizes where
  signalName := 32
  name := 16
  networkName := 24

/-- A device with the first number which is given to a device without one. -/
def autoDevicePath : IoPathNames ioNameSizes where
  signal := "light".toList
  mblk := "exp".toList
  device := "tea".toList
  number := 40001
  network := "cafenet".toList
  signal_fits := by decide
  mblk_fits := by decide
  device_fits := by decide
  network_fits := by decide
  signal_ne := by decide
  mblk_ne := by decide
  device_alpha := List.all_eq_true.mp (by decide)
  number_le := by omega

/-- The number comes back as -25535. -/
theorem auto_device_number_lost :
    autoDevicePath.ioPath .signal = "light.exp.tea40001.cafenet".toList ∧
      (ioPathToIdentifiers ioNameSizes [] (some (autoDevicePath.ioPath .signal))
        .signal).deviceNr = 4294941761 ∧
      ioPathToIdentifiers ioNameSizes [] (some (autoDevicePath.ioPath .signal)) .signal ≠
        autoDevicePath.identifiers [] .signal := by
  decide +kernel

def devicePath : IoPathNames ioNameSizes :=
  { autoDevicePath with
    number := 12
    number_le := by decide }

theorem ioPathToIdentifiers_devicePath :
    ioPathToIdentifiers ioNameSizes "cafenet".toList (some (devicePath.ioPath .signal)) .signal =
      devicePath.identifiers "cafenet".toList .signal :=
  (ioPathToIdentifiers_eq_iff (by decide) devicePath .signal).mpr
    ⟨by decide, by decide, Or.inr ⟨by decide, by decide⟩⟩

end Iocom
