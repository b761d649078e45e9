import Aesd.Driver.Operation

/-!
# The seek command

`AESDCHAR_IOCSEEKTO` names a write command and an offset inside it.  Reads walk
the entries from the read index, but the seek counts slots from index zero.  The
two agree exactly in the states where every slot has the size of the entry that
is read in its place.
-/

namespace Aesd.Driver

open Aesd.Memory Aesd.Transition Aesd.Word

namespace AesdSeekto

/-- The command names a byte of one of the lines. -/
def InRange (arg : AesdSeekto) (lines : List (List Byte)) : Prop :=
  ∃ line, lines[arg.writeCmd.toNat]? = some line ∧ arg.writeCmdOffset.toNat < line.length

/-- The position of that byte in the concatenated lines. -/
def position (arg : AesdSeekto) (lines : List (List Byte)) : Nat :=
  ((lines.take arg.writeCmd.toNat).map List.length).sum + arg.writeCmdOffset.toNat

theorem inRange_iff_lt (arg : AesdSeekto) (lines : List (List Byte)) :
    arg.InRange lines ↔
      arg.writeCmdOffset.toNat < (lines[arg.writeCmd.toNat]?.getD []).length := by
  rw [InRange]
  cases lines[arg.writeCmd.toNat]? <;> simp

theorem exists_of_lt {index offset : Nat} (command : index < 2 ^ 32) (small : offset < 2 ^ 32) :
    ∃ arg : AesdSeekto, arg.writeCmd.toNat = index ∧ arg.writeCmdOffset.toNat = offset :=
  ⟨⟨.ofNatLT index command, .ofNatLT offset small⟩, UInt32.toNat_ofNatLT, UInt32.toNat_ofNatLT⟩

end AesdSeekto

/-- The seek of one file addresses the lines in the order in which reads return
them. -/
structure SeeksInto (lines : List (List Byte)) (system : System) (file : FileId)
    (arg : AesdSeekto) : Prop where
  succeeds : (aesdIoctl .success file aesdcharIocseekto arg system).1 = 0 ↔ arg.InRange lines
  rejects : ¬arg.InRange lines →
    (aesdIoctl .success file aesdcharIocseekto arg system).1 = -einval ∧
      (aesdIoctl .success file aesdcharIocseekto arg system).2.fPos = system.fPos
  moves : arg.InRange lines →
    (aesdIoctl .success file aesdcharIocseekto arg system).2.fPos =
      Function.update system.fPos file (arg.position lines)
  reads : ∀ line count, lines[arg.writeCmd.toNat]? = some line →
    arg.writeCmdOffset.toNat < line.length → 0 < count → ∃ bytes system',
      aesdRead .success (some file) true count
          (aesdIoctl .success file aesdcharIocseekto arg system).2 =
        some ((bytes.length : Int), bytes, system') ∧
      bytes ≠ [] ∧ bytes <+: line.drop arg.writeCmdOffset.toNat
  keeps : (aesdIoctl .success file aesdcharIocseekto arg system).2.entriesBytes =
    system.entriesBytes

/-- Every slot has the size of the entry that is read in its place. -/
def SlotsAligned (buffer : AesdCircularBuffer) : Prop :=
  ∀ index, index < aesdcharMaxWriteOperationsSupported →
    (buffer.slot index).size =
      (buffer.slot ((buffer.outOffs + index) % aesdcharMaxWriteOperationsSupported)).size

instance (buffer : AesdCircularBuffer) : Decidable (SlotsAligned buffer) :=
  inferInstanceAs (Decidable (∀ index, index < aesdcharMaxWriteOperationsSupported → _ = _))

/-- The command passes the checks of `aesd_ioctl`. -/
theorem aesdIoctl_seekto (file : FileId) (arg : AesdSeekto) (system : System) :
    aesdIoctl .success file aesdcharIocseekto arg system =
      aesdAdjustFileOffset true file arg.writeCmd.toNat arg.writeCmdOffset.toNat system := by
  have valid : ¬(iocType aesdcharIocseekto ≠ aesdIocMagic ∨
      iocNr aesdcharIocseekto > aesdcharIocMaxnr) := by decide
  rw [aesdIoctl, if_neg valid, if_pos rfl]
  rfl

/-- The seek accepts a byte of the slot with the number of the command. -/
def Accepts (buffer : AesdCircularBuffer) (arg : AesdSeekto) : Prop :=
  arg.writeCmd.toNat < aesdcharMaxWriteOperationsSupported ∧
    arg.writeCmdOffset.toNat < (buffer.slot arg.writeCmd.toNat).size

theorem aesdIoctl_of_accepts (file : FileId) {arg : AesdSeekto} {system : System}
    (accepts : Accepts system.device.buffer arg) :
    aesdIoctl .success file aesdcharIocseekto arg system =
      (0, { system with
        fPos := Function.update system.fPos file
          (toLoff (addSize (updatedFposOffset system.device.buffer arg.writeCmd.toNat)
            arg.writeCmdOffset.toNat)) }) := by
  rw [aesdIoctl_seekto, aesdAdjustFileOffset, if_pos rfl, if_neg (Nat.not_le.mpr accepts.1),
    if_neg (Nat.not_le.mpr accepts.2)]

theorem aesdIoctl_of_not_accepts (file : FileId) {arg : AesdSeekto} {system : System}
    (rejects : ¬Accepts system.device.buffer arg) :
    aesdIoctl .success file aesdcharIocseekto arg system = (-einval, system) := by
  rw [aesdIoctl_seekto, aesdAdjustFileOffset, if_pos rfl]
  by_cases within : arg.writeCmd.toNat < aesdcharMaxWriteOperationsSupported
  · have outside :
        ¬arg.writeCmdOffset.toNat < (system.device.buffer.slot arg.writeCmd.toNat).size :=
      fun inside => rejects ⟨within, inside⟩
    rw [if_neg (Nat.not_le.mpr within), if_pos (Nat.not_lt.mp outside)]
  · rw [if_pos (Nat.not_lt.mp within)]

theorem aesdIoctl_eq_zero_iff (file : FileId) (arg : AesdSeekto) (system : System) :
    (aesdIoctl .success file aesdcharIocseekto arg system).1 = 0 ↔
      Accepts system.device.buffer arg := by
  by_cases accepts : Accepts system.device.buffer arg
  · simp only [aesdIoctl_of_accepts file accepts, accepts]
  · have failure : -einval ≠ 0 := by decide
    simp only [aesdIoctl_of_not_accepts file accepts, accepts, failure]

section

variable {system : System} {history : List Byte}

/-- The entry read at an index has the size of its line; behind the last line
the slots are empty. -/
theorem Represents.size_slot (represents : Represents system history) {index : Nat}
    (bound : index < aesdcharMaxWriteOperationsSupported) :
    (system.device.buffer.slot ((system.device.buffer.outOffs + index) %
        aesdcharMaxWriteOperationsSupported)).size =
      ((storedLines history)[index]?.getD []).length := by
  by_cases within : index < system.device.buffer.entries.length
  · have slot := system.device.buffer.entries_getElem? within
    have sizes := congrArg (fun sizes => sizes[index]?) represents.sizes_eq
    simp only [List.getElem?_map, slot, Option.map_some] at sizes
    cases line : (storedLines history)[index]? with
    | none =>
        rw [line] at sizes
        contradiction
    | some line' =>
        rw [line, Option.map_some, Option.some.injEq] at sizes
        exact sizes
  · have room : system.device.buffer.full = false := by
      rw [← Bool.not_eq_true, represents.wellFormed.full_iff]
      omega
    have filled := AesdCircularBuffer.Filling.length_entries represents.wellFormed
      represents.filling room
    rcases represents.filling room with ⟨start, above⟩
    have beyond : (storedLines history)[index]? = none := by
      rw [List.getElem?_eq_none_iff, ← represents.length_entries]
      omega
    have first : system.device.buffer.outOffs = 0 := start
    have behind : system.device.buffer.inOffs ≤ index := by omega
    have blank : system.device.buffer.slot index = .zero := above index behind
    rw [beyond, first, Nat.zero_add, Nat.mod_eq_of_lt bound, blank]
    rfl

/-- With aligned slots the loop over slots counts the bytes of the lines that are
read before the named one. -/
theorem Represents.updatedFposOffset_eq (represents : Represents system history)
    (aligned : SlotsAligned system.device.buffer) {index : Nat}
    (bound : index ≤ aesdcharMaxWriteOperationsSupported) :
    updatedFposOffset system.device.buffer index =
      (((storedLines history).take index).map List.length).sum := by
  induction index with
  | zero => rfl
  | succ index ih =>
      have total := sum_lengths_take_le (storedLines history) (index + 1)
      have small := represents.length_content_lt
      have within : index < aesdcharMaxWriteOperationsSupported := bound
      rw [updatedFposOffset, ih (Nat.le_of_lt bound), aligned index within,
        represents.size_slot within, sum_lengths_take_succ]
      rw [sum_lengths_take_succ] at total
      exact addSize_eq (Nat.lt_of_le_of_lt total (Nat.lt_trans small (by decide)))

/-- With aligned slots a command is accepted when it names a byte of a line. -/
theorem Represents.inRange_iff (represents : Represents system history)
    (aligned : SlotsAligned system.device.buffer) (arg : AesdSeekto) :
    arg.InRange (storedLines history) ↔ Accepts system.device.buffer arg := by
  have few : (storedLines history).length ≤ aesdcharMaxWriteOperationsSupported := by
    rw [LineStore.length_stored]
    exact Nat.min_le_right ..
  constructor
  · intro inRange
    have within : arg.writeCmd.toNat < aesdcharMaxWriteOperationsSupported := by
      rcases inRange with ⟨line, present, _⟩
      exact Nat.lt_of_lt_of_le (List.getElem?_eq_some_iff.mp present).1 few
    rw [AesdSeekto.inRange_iff_lt, ← represents.size_slot within, ← aligned _ within] at inRange
    exact ⟨within, inRange⟩
  · rintro ⟨within, inside⟩
    rw [AesdSeekto.inRange_iff_lt, ← represents.size_slot within, ← aligned _ within]
    exact inside

theorem AesdSeekto.InRange.position_lt {arg : AesdSeekto} {lines : List (List Byte)}
    (inRange : arg.InRange lines) : arg.position lines < lines.flatten.length := by
  rcases inRange with ⟨line, present, inside⟩
  have before := sum_lengths_take_le lines (arg.writeCmd.toNat + 1)
  rw [sum_lengths_take_succ, present, Option.getD_some] at before
  rw [position]
  omega

/-- With aligned slots an accepted command moves the file to its byte. -/
theorem Represents.aesdIoctl_moves (represents : Represents system history)
    (aligned : SlotsAligned system.device.buffer) (file : FileId) {arg : AesdSeekto}
    (inRange : arg.InRange (storedLines history)) :
    (aesdIoctl .success file aesdcharIocseekto arg system).2.fPos =
      Function.update system.fPos file (arg.position (storedLines history)) := by
  have accepts := (represents.inRange_iff aligned arg).mp inRange
  have small : arg.position (storedLines history) < 2 ^ 36 :=
    Nat.lt_trans inRange.position_lt represents.length_content_lt
  have sum : addSize (((storedLines history).take arg.writeCmd.toNat).map List.length).sum
      arg.writeCmdOffset.toNat = arg.position (storedLines history) :=
    addSize_eq (Nat.lt_trans small (by decide))
  rw [aesdIoctl_of_accepts file accepts,
    represents.updatedFposOffset_eq aligned (Nat.le_of_lt accepts.1), sum,
    toLoff_natCast (Nat.lt_trans small (by decide))]

theorem Represents.seeksInto (represents : Represents system history)
    (aligned : SlotsAligned system.device.buffer) (file : FileId) (arg : AesdSeekto) :
    SeeksInto (storedLines history) system file arg where
  succeeds := by rw [aesdIoctl_eq_zero_iff, represents.inRange_iff aligned]
  rejects outside := by
    rw [represents.inRange_iff aligned] at outside
    rw [aesdIoctl_of_not_accepts file outside]
    exact ⟨rfl, rfl⟩
  moves inRange := represents.aesdIoctl_moves aligned file inRange
  reads line count present inside positive := by
    have inRange : arg.InRange (storedLines history) := ⟨line, present, inside⟩
    have moved := represents.aesdIoctl_moves aligned file inRange
    have small : arg.position (storedLines history) < 2 ^ 36 :=
      Nat.lt_trans inRange.position_lt represents.length_content_lt
    rcases aesdIoctl_eq .success file aesdcharIocseekto arg system with ⟨ret, fPos, result⟩
    rw [result] at moved ⊢
    have there : toSize (fPos file) = arg.position (storedLines history) := by
      rw [show fPos = _ from moved, Function.update_self]
      exact toSize_natCast (Nat.lt_trans small (by decide))
    refine ⟨_, _, (represents.congr_fPos fPos).read_line count present inside there, ?_,
      List.take_prefix ..⟩
    rw [Ne, List.take_eq_nil_iff, List.drop_eq_nil_iff]
    omega
  keeps := by
    rcases aesdIoctl_eq .success file aesdcharIocseekto arg system with ⟨ret, fPos, result⟩
    rw [result]
    rfl

/-- Seeks that address every byte in reading order find it in the slot with the
number of the command. -/
theorem Represents.slotsAligned (represents : Represents system history)
    (addressed : ∀ file arg, SeeksInto (storedLines history) system file arg) :
    SlotsAligned system.device.buffer := by
  intro index bound
  rw [represents.size_slot bound]
  have short : ((storedLines history)[index]?.getD []).length < 2 ^ 32 := by
    cases present : (storedLines history)[index]? with
    | none => decide
    | some line => exact represents.length_stored_lt line (List.mem_of_getElem? present)
  have sameOffsets : ∀ offset, offset < 2 ^ 32 →
      (offset < (system.device.buffer.slot index).size ↔
        offset < ((storedLines history)[index]?.getD []).length) := by
    intro offset small
    rcases AesdSeekto.exists_of_lt (Nat.lt_trans bound (by decide)) small with
      ⟨arg, rfl, rfl⟩
    rw [← AesdSeekto.inRange_iff_lt, ← (addressed 0 arg).succeeds, aesdIoctl_eq_zero_iff]
    exact ⟨fun inside => ⟨bound, inside⟩, fun accepts => accepts.2⟩
  -- the smaller of two different sizes would be an offset that only one side admits
  rcases Nat.lt_trichotomy (system.device.buffer.slot index).size
      ((storedLines history)[index]?.getD []).length with less | same | greater
  · exact absurd ((sameOffsets _ (Nat.lt_trans less short)).mpr less) (Nat.lt_irrefl _)
  · exact same
  · exact absurd ((sameOffsets _ short).mp greater) (Nat.lt_irrefl _)

end

/-- In every state of a run, the seek command addresses the stored lines in
reading order exactly when every slot has the size of the entry that is read in
its place. -/
theorem seek_addresses_reading_order_iff (kmallocMaxSize : KmallocMaxSize)
    (operations : List Operation)
    (keeps : Along operationStep Operation.KeepsLine (aesdInitModule kmallocMaxSize) operations) :
    ∃ rets system lines,
      run operationStep (aesdInitModule kmallocMaxSize) operations = some (rets, system) ∧
      system.entriesBytes = some lines ∧
      ((∀ file arg, SeeksInto lines system file arg) ↔ SlotsAligned system.device.buffer) := by
  rcases (represents_init kmallocMaxSize).run_operations keeps with
    ⟨rets, system, execution, represents⟩
  exact ⟨rets, system, _, execution, represents.entriesBytes, represents.slotsAligned,
    fun aligned file arg => represents.seeksInto aligned file arg⟩

/-- Two lines in the first two slots. -/
theorem seek_addresses_reading_order_iff_two_lines :
    ∃ rets system, run operationStep (aesdInitModule ⟨64, by decide⟩)
        [.write ⟨.success, some 0, some [97, newline]⟩, .write ⟨.success, some 0, some [newline]⟩] =
          some (rets, system) ∧
      ∀ file arg, SeeksInto [[97, newline], [newline]] system file arg := by
  rcases seek_addresses_reading_order_iff ⟨64, by decide⟩
      [.write ⟨.success, some 0, some [97, newline]⟩, .write ⟨.success, some 0, some [newline]⟩]
      (by decide) with ⟨rets, system, lines, execution, entries, addressed_iff⟩
  refine ⟨rets, system, execution, ?_⟩
  cases execution
  cases entries
  exact addressed_iff.mpr (by decide)

/-- The eleventh line `"a\n"` sits in slot zero, and the oldest stored line
`"\n"` in slot one: the seek accepts offset one of command zero, which has one
byte. -/
theorem seek_addresses_slots :
    ¬∀ rets system lines, run operationStep (aesdInitModule ⟨64, by decide⟩)
        (List.replicate 10 (.write ⟨.success, some 0, some [newline]⟩) ++
          [.write ⟨.success, some 0, some [97, newline]⟩]) = some (rets, system) →
      system.entriesBytes = some lines → ∀ file arg, SeeksInto lines system file arg := by
  intro addressed
  have seek := addressed _ _ _ rfl rfl 0 ⟨0, 1⟩
  have outside := (AesdSeekto.inRange_iff_lt ..).mp (seek.succeeds.mp (by decide))
  exact absurd outside (by decide)

end Aesd.Driver
