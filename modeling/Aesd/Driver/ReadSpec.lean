import Aesd.Driver.Represents

/-!
# What one read delivers

A read finds its position inside one stored line, or at the end of the stored
content, and delivers a stretch of that line, whatever has failed before.  A
reader that goes on until a read delivers nothing obtains the whole rest of the
content.
-/

namespace Aesd.Driver

open Aesd.Memory Aesd.Word

/-- The lines that fit the circular buffer, in reading order. -/
abbrev lastContent (committed : List (List Byte)) : List Byte :=
  (lastLines committed).flatten

/-- The stored lines in reading order. -/
abbrev storedContent (history : List Byte) : List Byte :=
  LineStore.content aesdcharMaxWriteOperationsSupported newline history

/-- The state after bytes have been delivered through a file. -/
def System.advanced (system : System) (file : FileId) (amount : Nat) : System :=
  { system with fPos := Function.update system.fPos file (system.fPos file + amount) }

@[simp]
theorem System.advanced_zero (system : System) (file : FileId) :
    system.advanced file 0 = system := by
  simp [System.advanced]

theorem System.advanced_fPos (system : System) (file : FileId) (amount : Nat) :
    (system.advanced file amount).fPos file = system.fPos file + amount := by
  simp [System.advanced]

theorem System.advanced_advanced (system : System) (file : FileId) (first second : Nat) :
    (system.advanced file first).advanced file second = system.advanced file (first + second) := by
  simp [System.advanced, Int.add_assoc]

section

variable {system : System} {committed : List (List Byte)} {pending : List Byte}

theorem Carries.advanced (carries : Carries system committed pending) (file : FileId)
    (amount : Nat) : Carries (system.advanced file amount) committed pending :=
  carries.congr_fPos _

/-- Ten lines of allocated size are far from wrapping a `size_t` around. -/
theorem Carries.length_content_lt (carries : Carries system committed pending) :
    (lastContent committed).length < 2 ^ 36 := by
  have few : (lastLines committed).length ≤ 10 := by
    rw [← carries.length_entries]
    exact carries.wellFormed.length_entries_le
  have total := length_flatten_le fun line member =>
    Nat.le_of_lt (carries.length_lastLines_lt line member)
  have product := Nat.mul_le_mul_right (2 ^ 32) few
  show (lastLines committed).flatten.length < 2 ^ 36
  omega

theorem Carries.sum_sizes_lt (carries : Carries system committed pending) :
    (system.device.buffer.entries.map AesdBufferEntry.size).sum < 2 ^ 64 := by
  rw [carries.sizes_eq, sum_map_length]
  exact Nat.lt_trans carries.length_content_lt (by decide)

/-- The search for a byte of a stored line finds its slot, from which the rest of
the line can be read. -/
theorem Carries.find_line (carries : Carries system committed pending) {index offset : Nat}
    {line : List Byte} (present : (lastLines committed)[index]? = some line)
    (inside : offset < line.length) :
    ∃ slot, aesdCircularBufferFindEntryOffsetForFpos system.device.buffer
          ((((lastLines committed).take index).map List.length).sum + offset) =
        some (slot, offset) ∧
      subSize (system.device.buffer.slot slot).size offset = line.length - offset ∧
      ∀ amount, offset + amount ≤ line.length →
        system.heap.load (system.device.buffer.slot slot).buffptr offset amount =
          some ((line.drop offset).take amount) := by
  have located : locate ((lastLines committed).map List.length)
      ((((lastLines committed).take index).map List.length).sum + offset) =
        some (index, offset) := by
    rw [locate_eq_some_iff]
    refine ⟨line.length, ?_, inside, ?_⟩
    · rw [List.getElem?_map, present]
      rfl
    · rw [List.map_take]
  have small : (((lastLines committed).take index).map List.length).sum + offset < 2 ^ 64 := by
    have bound := carries.length_content_lt
    have before : ¬(lastContent committed).length ≤
        (((lastLines committed).take index).map List.length).sum + offset := by
      intro beyond
      have none := (locate_eq_none_iff _ _).mpr
        ((sum_map_length (lastLines committed)).trans_le beyond)
      rw [located] at none
      contradiction
    omega
  have short := carries.length_lastLines_lt line (List.mem_of_getElem? present)
  have found := AesdCircularBuffer.findEntry_eq_locate carries.wellFormed
    carries.sum_sizes_lt small
  rw [carries.sizes_eq, located] at found
  rcases carries.owns with ⟨stored, linesEq, entriesEq, _, holds⟩
  rw [← linesEq, List.getElem?_map, Option.map_eq_some_iff] at present
  rcases present with ⟨region, member, rfl⟩
  have within : index < system.device.buffer.entries.length := by
    rw [entriesEq, List.length_map]
    exact (List.getElem?_eq_some_iff.mp member).1
  have slot := system.device.buffer.entries_getElem? within
  rw [entriesEq, List.getElem?_map, member, Option.map_some, Option.some.injEq] at slot
  refine ⟨_, found, ?_, ?_⟩
  · rw [← slot]
    exact subSize_eq (Nat.lt_trans short (by decide)) (Nat.le_of_lt inside)
  · intro amount enough
    rw [← slot]
    exact load_stored holds (List.mem_of_getElem? member) enough

/-- A position is behind the content, or it is the position of a byte of a stored
line. -/
theorem Carries.find_cases (carries : Carries system committed pending) {position : Nat}
    (small : position < 2 ^ 64) :
    aesdCircularBufferFindEntryOffsetForFpos system.device.buffer position = none ∧
        (lastContent committed).length ≤ position ∨
      ∃ (index offset : Nat) (line rest : List Byte),
        (lastLines committed)[index]? = some line ∧ offset < line.length ∧
        position = (((lastLines committed).take index).map List.length).sum + offset ∧
        (lastContent committed).drop position = line.drop offset ++ rest := by
  rw [AesdCircularBuffer.findEntry_eq_locate carries.wellFormed carries.sum_sizes_lt small,
    carries.sizes_eq]
  cases located : locate ((lastLines committed).map List.length) position with
  | none =>
      left
      rw [locate_eq_none_iff, sum_map_length] at located
      exact ⟨rfl, located⟩
  | some found =>
      right
      rcases found with ⟨index, offset⟩
      rcases drop_flatten_of_locate located with ⟨line, present, inside, continues⟩
      rcases (locate_eq_some_iff ..).mp located with ⟨_, _, _, total⟩
      refine ⟨index, offset, line, _, present, inside, ?_, continues⟩
      rw [← total, List.map_take]

/-- Every read returns, and moves nothing but the position of its file. -/
theorem Carries.read_returns (carries : Carries system committed pending) (outcome : ReadOutcome)
    (filp : Option FileId) (buf : Bool) (count : Nat) :
    ∃ ret bytes fPos,
      aesdRead outcome filp buf count system = some (ret, bytes, { system with fPos := fPos }) := by
  cases filp with
  | none => exact ⟨-einval, [], system.fPos, rfl⟩
  | some file =>
  cases buf with
  | false => exact ⟨-einval, [], system.fPos, rfl⟩
  | true =>
  simp only [aesdRead]
  split
  · rcases carries.find_cases (toSize_lt (system.fPos file)) with
      ⟨absent, _⟩ | ⟨index, offset, line, _, present, inside, position, _⟩
    · rw [absent]
      exact ⟨0, [], system.fPos, rfl⟩
    · rcases carries.find_line present inside with ⟨slot, found, remaining, loads⟩
      rw [position]
      simp only [found, remaining]
      split
      · exact ⟨-efault, [], system.fPos, rfl⟩
      · rw [loads _ (by omega)]
        exact ⟨_, _, _, rfl⟩
  · exact ⟨-erestartsys, [], system.fPos, rfl⟩

/-- A read inside a stored line delivers as much of the rest of the line as is
wanted. -/
theorem Carries.read_line (carries : Carries system committed pending) {file : FileId}
    (count : Nat) {index offset : Nat} {line : List Byte}
    (present : (lastLines committed)[index]? = some line) (inside : offset < line.length)
    (position : toSize (system.fPos file) =
      (((lastLines committed).take index).map List.length).sum + offset) :
    aesdRead .success (some file) true count system =
      some ((((line.drop offset).take count).length : Int), (line.drop offset).take count,
        system.advanced file ((line.drop offset).take count).length) := by
  rcases carries.find_line present inside with ⟨slot, found, remaining, loads⟩
  have amount : min (line.length - offset) count = ((line.drop offset).take count).length := by
    rw [List.length_take, List.length_drop, Nat.min_comm]
  have loaded := loads (min (line.length - offset) count) (by omega)
  have delivered : (line.drop offset).take (min (line.length - offset) count) =
      (line.drop offset).take count := by
    rw [List.take_eq_take_iff, List.length_drop]
    omega
  rw [delivered, amount] at loaded
  simp only [aesdRead, ReadOutcome.success, position, found, remaining, copyFails, amount, loaded,
    Bool.not_true, Bool.false_and, Bool.false_eq_true, if_true, if_false, Option.map_some]
  rfl

/-- A read whose services succeed delivers what the content holds behind the
file position, at least one byte of it if one is wanted and there is one. -/
theorem Carries.read (carries : Carries system committed pending) (file : FileId) (count : Nat) :
    ∃ bytes, aesdRead .success (some file) true count system =
        some ((bytes.length : Int), bytes, system.advanced file bytes.length) ∧
      bytes <+: (lastContent committed).drop (toSize (system.fPos file)) ∧
      bytes.length ≤ count ∧
      (bytes = [] ↔ count = 0 ∨ (lastContent committed).length ≤ toSize (system.fPos file)) := by
  rcases carries.find_cases (toSize_lt (system.fPos file)) with
    ⟨absent, beyond⟩ | ⟨index, offset, line, rest, present, inside, position, continues⟩
  · refine ⟨[], ?_, List.nil_prefix, Nat.zero_le _, iff_of_true rfl (Or.inr beyond)⟩
    simp [aesdRead, ReadOutcome.success, absent]
  · have behind : ¬(lastContent committed).length ≤ toSize (system.fPos file) := by
      intro beyond
      have none := congrArg List.length (List.drop_of_length_le beyond ▸ continues)
      rw [List.length_nil, List.length_append, List.length_drop] at none
      omega
    refine ⟨(line.drop offset).take count, carries.read_line count present inside position,
      ?_, List.length_take_le .., ?_⟩
    · rw [continues]
      exact (List.take_prefix ..).trans (List.prefix_append ..)
    · rw [List.take_eq_nil_iff, List.drop_eq_nil_iff]
      omega

/-- What a read delivers and what is left to read behind it make up what was left
before. -/
theorem Carries.read_splits (carries : Carries system committed pending) (file : FileId)
    {count : Nat} (positive : 0 < count) :
    ∃ bytes, aesdRead .success (some file) true count system =
        some ((bytes.length : Int), bytes, system.advanced file bytes.length) ∧
      toSize ((system.advanced file bytes.length).fPos file) =
        toSize (system.fPos file) + bytes.length ∧
      (lastContent committed).drop (toSize (system.fPos file)) =
        bytes ++ (lastContent committed).drop (toSize (system.fPos file) + bytes.length) ∧
      (bytes = [] ↔ (lastContent committed).length ≤ toSize (system.fPos file)) := by
  rcases carries.read file count with ⟨bytes, result, ⟨rest, split⟩, _, empty_iff⟩
  rw [or_iff_right (Nat.pos_iff_ne_zero.mp positive)] at empty_iff
  refine ⟨bytes, result, ?_, ?_, empty_iff⟩
  · rw [System.advanced_fPos]
    apply toSize_add
    by_cases none : bytes = []
    · rw [none]
      exact toSize_lt _
    · have before := mt empty_iff.mpr none
      have bound := carries.length_content_lt
      have total := congrArg List.length split
      rw [List.length_append, List.length_drop] at total
      omega
  · rw [← List.drop_drop, ← split, List.drop_left]

/-- A read that does not fail does what it does when all its services succeed. -/
theorem aesdRead_of_nonneg {outcome : ReadOutcome} {file : FileId} {count : Nat} {ret : Int}
    {bytes : List Byte} {system' : System}
    (call : aesdRead outcome (some file) true count system = some (ret, bytes, system'))
    (nonneg : 0 ≤ ret) :
    aesdRead .success (some file) true count system = some (ret, bytes, system') := by
  rcases outcome with ⟨lock, copyToUser⟩
  cases lock with
  | false =>
      cases call
      exact absurd nonneg (by decide)
  | true =>
      simp only [aesdRead, ReadOutcome.success, if_true] at call ⊢
      split at call
      · exact call
      · split at call
        · cases call
          exact absurd nonneg (by decide)
        · simpa [copyFails] using call

/-! ## Reading to the end -/

/-- Read `count` bytes at a time until a read delivers nothing; `fuel` bounds the
number of reads. -/
def readToEnd (file : FileId) (count : Nat) : Nat → System → Option (List Byte × System)
  | 0, _ => none
  | fuel + 1, system =>
      (aesdRead .success (some file) true count system).bind fun (ret, bytes, system') =>
        if ret ≤ 0 then
          some ([], system')
        else
          (readToEnd file count fuel system').map fun rest => (bytes ++ rest.1, rest.2)

/-- A reader obtains all content behind its position. -/
theorem Carries.readToEnd (carries : Carries system committed pending) {file : FileId}
    {count fuel : Nat} (positive : 0 < count)
    (enough : (lastContent committed).length - toSize (system.fPos file) < fuel) :
    readToEnd file count fuel system =
      some ((lastContent committed).drop (toSize (system.fPos file)), system.advanced file
        ((lastContent committed).length - toSize (system.fPos file))) := by
  induction fuel generalizing system with
  | zero => exact absurd enough (Nat.not_lt_zero _)
  | succ fuel ih =>
      rcases carries.read_splits file positive with ⟨bytes, result, moved, split, empty_iff⟩
      rw [Driver.readToEnd, result, Option.bind_some]
      by_cases none : bytes = []
      · have beyond := empty_iff.mp none
        rw [List.drop_of_length_le beyond, Nat.sub_eq_zero_of_le beyond, none]
        rfl
      · have before := mt empty_iff.mpr none
        have delivered : 0 < bytes.length := List.length_pos_of_ne_nil none
        have total := congrArg List.length split
        rw [List.length_append, List.length_drop, List.length_drop] at total
        have later := ih (carries.advanced file bytes.length) (by omega)
        have notDone : ¬((bytes.length : Int) ≤ 0) := by omega
        have rest : bytes.length +
            ((lastContent committed).length - (toSize (system.fPos file) + bytes.length)) =
              (lastContent committed).length - toSize (system.fPos file) := by omega
        dsimp only
        rw [if_neg notDone, later, moved, Option.map_some, ← split, System.advanced_advanced, rest]

end

/-! ## Represented states -/

section

variable {system : System} {history : List Byte}

theorem Represents.advanced (represents : Represents system history) (file : FileId)
    (amount : Nat) : Represents (system.advanced file amount) history :=
  represents.congr_fPos _

theorem Represents.length_content_lt (represents : Represents system history) :
    (storedContent history).length < 2 ^ 36 :=
  represents.toCarries.length_content_lt

theorem Represents.read_line (represents : Represents system history) {file : FileId}
    (count : Nat) {index offset : Nat} {line : List Byte}
    (present : (storedLines history)[index]? = some line) (inside : offset < line.length)
    (position : toSize (system.fPos file) =
      (((storedLines history).take index).map List.length).sum + offset) :
    aesdRead .success (some file) true count system =
      some ((((line.drop offset).take count).length : Int), (line.drop offset).take count,
        system.advanced file ((line.drop offset).take count).length) :=
  represents.toCarries.read_line count present inside position

theorem Represents.read (represents : Represents system history) (file : FileId) (count : Nat) :
    ∃ bytes, aesdRead .success (some file) true count system =
        some ((bytes.length : Int), bytes, system.advanced file bytes.length) ∧
      bytes <+: (storedContent history).drop (toSize (system.fPos file)) ∧
      bytes.length ≤ count ∧
      (bytes = [] ↔ count = 0 ∨ (storedContent history).length ≤ toSize (system.fPos file)) :=
  represents.toCarries.read file count

theorem Represents.read_splits (represents : Represents system history) (file : FileId)
    {count : Nat} (positive : 0 < count) :
    ∃ bytes, aesdRead .success (some file) true count system =
        some ((bytes.length : Int), bytes, system.advanced file bytes.length) ∧
      toSize ((system.advanced file bytes.length).fPos file) =
        toSize (system.fPos file) + bytes.length ∧
      (storedContent history).drop (toSize (system.fPos file)) =
        bytes ++ (storedContent history).drop (toSize (system.fPos file) + bytes.length) ∧
      (bytes = [] ↔ (storedContent history).length ≤ toSize (system.fPos file)) :=
  represents.toCarries.read_splits file positive

theorem Represents.readToEnd (represents : Represents system history) {file : FileId}
    {count fuel : Nat} (positive : 0 < count)
    (enough : (storedContent history).length - toSize (system.fPos file) < fuel) :
    readToEnd file count fuel system =
      some ((storedContent history).drop (toSize (system.fPos file)), system.advanced file
        ((storedContent history).length - toSize (system.fPos file))) :=
  represents.toCarries.readToEnd positive enough

end

end Aesd.Driver
