import Aesd.Driver.SeekCommand

/-!
# Where a seek goes

Lines are committed to the slots in turn, and a seek command names a slot.  So in every
state of a run the seek addresses the ten slots in the order of their numbers, whatever
order reads return them in.
-/

namespace Aesd.Driver

open Aesd.Memory Aesd.Transition Aesd.Word

/-! ## The lines in the slots -/

/-- The slots after some lines: each line replaces what was in the next slot. -/
def slotLines (committed : List (List Byte)) : List (List Byte) :=
  committed.zipIdx.foldl
    (fun slots line => slots.set (line.2 % aesdcharMaxWriteOperationsSupported) line.1)
    (List.replicate aesdcharMaxWriteOperationsSupported [])

theorem slotLines_concat (committed : List (List Byte)) (line : List Byte) :
    slotLines (committed ++ [line]) =
      (slotLines committed).set (committed.length % aesdcharMaxWriteOperationsSupported) line := by
  simp [slotLines, List.zipIdx_append]

@[simp]
theorem length_slotLines (committed : List (List Byte)) :
    (slotLines committed).length = aesdcharMaxWriteOperationsSupported := by
  induction committed using List.reverseRecOn with
  | nil => rfl
  | append_singleton committed line ih => rw [slotLines_concat, List.length_set, ih]

/-- A line stays in its slot until ten more have been committed. -/
theorem slotLines_getElem? {committed : List (List Byte)} {number : Nat} {line : List Byte}
    (present : committed[number]? = some line)
    (recent : committed.length ≤ number + aesdcharMaxWriteOperationsSupported) :
    (slotLines committed)[number % aesdcharMaxWriteOperationsSupported]? = some line := by
  induction committed using List.reverseRecOn with
  | nil => contradiction
  | append_singleton committed last ih =>
      rw [List.length_append, List.length_singleton] at recent
      rw [slotLines_concat]
      by_cases newest : number = committed.length
      · subst newest
        rw [List.getElem?_concat_length] at present
        rw [List.getElem?_set_self, present]
        rw [length_slotLines]
        exact Nat.mod_lt _ (by decide)
      · have before : number < committed.length := by
          have inside := (List.getElem?_eq_some_iff.mp present).1
          rw [List.length_append, List.length_singleton] at inside
          omega
        have different : committed.length % aesdcharMaxWriteOperationsSupported ≠
            number % aesdcharMaxWriteOperationsSupported := by
          show committed.length % 10 ≠ number % 10
          have recent' : committed.length + 1 ≤ number + 10 := recent
          omega
        rw [List.getElem?_append_left before] at present
        rw [List.getElem?_set_ne different]
        exact ih present (Nat.le_of_succ_le recent)

/-- The slots of the buffer have the sizes of the lines that have been placed in turn. -/
structure InSlots (buffer : AesdCircularBuffer) (committed : List (List Byte)) : Prop where
  inOffs_eq : buffer.inOffs = committed.length % aesdcharMaxWriteOperationsSupported
  size_eq : ∀ index, index < aesdcharMaxWriteOperationsSupported →
    (buffer.slot index).size = ((slotLines committed)[index]?.getD []).length
  short : ∀ line ∈ slotLines committed, line.length < 2 ^ 32

theorem inSlots_init : InSlots aesdCircularBufferInit [] where
  inOffs_eq := rfl
  size_eq index bound := by
    rw [AesdCircularBuffer.slot_init]
    simp [slotLines, bound, AesdBufferEntry.zero]
  short line member := by
    rw [List.eq_of_mem_replicate member]
    decide

/-! ## Writes -/

/-- What a write leaves of the buffer: it is as before, or has one more entry. -/
inductive BufferStep (device device' : AesdDev) : Prop
  | keeps (buffer : device'.buffer = device.buffer) (buffSize : device'.buffSize = device.buffSize)
  | adds (cleared : AesdCircularBuffer) (addEntry : AesdBufferEntry)
      (wellFormed : device.buffer.WellFormed → cleared.WellFormed)
      (inOffs : cleared.inOffs = device.buffer.inOffs)
      (slot : ∀ index, index ≠ device.buffer.inOffs →
        cleared.slot index = device.buffer.slot index)
      (buffer : device'.buffer = aesdCircularBufferAddEntry cleared addEntry)
      (buffSize : device'.buffSize = addSize device.buffSize addEntry.size)

theorem commitEntry_bufferStep {device device' : AesdDev} {heap heap' : Heap Byte}
    (commit : commitEntry device heap = some (device', heap')) : BufferStep device device' := by
  simp only [commitEntry, Option.map_eq_some_iff, Prod.exists, Prod.mk.injEq] at commit
  rcases commit with ⟨cleared, _, freed, rfl, _⟩
  unfold freeOldestEntry at freed
  split at freed
  · simp only [Option.map_eq_some_iff, Prod.mk.injEq] at freed
    rcases freed with ⟨_, _, rfl, _⟩
    refine .adds { device.buffer with
        entry := device.buffer.entry.setIfInBounds device.buffer.inOffs .zero }
      ⟨device.writeBuffer, device.writeBufferSize⟩
      (fun wellFormed => ⟨wellFormed.1, wellFormed.2, wellFormed.3⟩) rfl ?_ rfl rfl
    intro index different
    simp [AesdCircularBuffer.slot, Vector.getElem?_setIfInBounds_ne (Ne.symm different)]
  · cases freed
    exact .adds _ _ id rfl (fun _ _ => rfl) rfl rfl

theorem aesdWriteLocked_bufferStep {outcome : WriteOutcome} {file : FileId} {writeData : Pointer}
    {count : Nat} {system system' : System} {ret : Int}
    (call : aesdWriteLocked outcome file writeData count system = some (ret, system')) :
    BufferStep system.device system'.device := by
  simp only [aesdWriteLocked, Option.bind_eq_bind, Option.bind_eq_some_iff] at call
  rcases call with ⟨data, _, ⟨writeBuffer, heap⟩, _, call⟩
  split at call
  · rcases Option.bind_eq_some_iff.mp call with ⟨_, _, result⟩
    simp only [Option.some.injEq, Prod.mk.injEq] at result
    rw [← result.2]
    exact .keeps rfl rfl
  · rcases Option.bind_eq_some_iff.mp call with ⟨_, _, call⟩
    split at call
    · simp only [Option.bind_eq_some_iff, Option.some.injEq, Prod.mk.injEq, Prod.exists] at call
      rcases call with ⟨device, _, commit, _, _, _, rfl⟩
      cases commitEntry_bufferStep commit with
      | keeps buffer buffSize => exact .keeps buffer buffSize
      | adds cleared addEntry wellFormed inOffs slot buffer buffSize =>
          exact .adds cleared addEntry wellFormed inOffs slot buffer buffSize
    · simp only [Option.bind_eq_some_iff, Option.some.injEq, Prod.mk.injEq, Prod.exists] at call
      rcases call with ⟨device, _, same, _, _, _, rfl⟩
      rw [← same.1]
      exact .keeps rfl rfl

theorem WriteCall.bufferStep {call : WriteCall} {system system' : System} {ret : Int}
    (written : call.run system = some (ret, system')) :
    BufferStep system.device system'.device := by
  unfold WriteCall.run aesdWrite at written
  split at written
  · simp only at written
    split at written
    · cases written
      exact .keeps rfl rfl
    · split at written
      · simp only [Option.map_eq_some_iff, Prod.mk.injEq] at written
        rcases written with ⟨_, _, _, rfl⟩
        exact .keeps rfl rfl
      · rcases Option.bind_eq_some_iff.mp written with ⟨heap, _, call⟩
        split at call
        · have step := aesdWriteLocked_bufferStep call
          exact step
        · cases call
          exact .keeps rfl rfl
  · cases written
    exact .keeps rfl rfl

section

variable {system system' : System} {committed committed' : List (List Byte)}
  {pending pending' : List Byte}

/-- The entry that a write adds is the line that it commits. -/
private theorem size_addEntry (carries' : Carries system' committed' pending')
    {cleared : AesdCircularBuffer} {addEntry : AesdBufferEntry} (wellFormed : cleared.WellFormed)
    (buffer : system'.device.buffer = aesdCircularBufferAddEntry cleared addEntry) :
    ∃ line, (lastLines committed').getLast? = some line ∧ addEntry.size = line.length := by
  have sizes := congrArg List.getLast? carries'.sizes_eq
  have stored : (cleared.entries ++ [addEntry]).rtake aesdcharMaxWriteOperationsSupported =
      cleared.entries.rtake 9 ++ [addEntry] := List.rtake_concat_succ ..
  rw [buffer, wellFormed.entries_addEntry, stored, List.map_append, List.map_singleton,
    List.getLast?_concat, List.getLast?_map] at sizes
  rcases Option.map_eq_some_iff.mp sizes.symm with ⟨line, last, same⟩
  exact ⟨line, last, same.symm⟩

/-- A line is placed in the slot at the write index. -/
theorem InSlots.add {buffer cleared : AesdCircularBuffer} (slots : InSlots buffer committed)
    (wellFormed : cleared.WellFormed) (inOffs : cleared.inOffs = buffer.inOffs)
    (slot : ∀ index, index ≠ buffer.inOffs → cleared.slot index = buffer.slot index)
    {addEntry : AesdBufferEntry} {line : List Byte} (size : addEntry.size = line.length)
    (short : line.length < 2 ^ 32) :
    InSlots (aesdCircularBufferAddEntry cleared addEntry) (committed ++ [line]) := by
  have place := slots.inOffs_eq
  constructor
  · show (cleared.inOffs + 1) % 10 = (committed ++ [line]).length % 10
    rw [inOffs, place, List.length_append, List.length_singleton, Nat.mod_add_mod]
  · intro index bound
    have update := congrFun (cleared.slot_setIfInBounds wellFormed.inOffs_lt addEntry) index
    have after : (aesdCircularBufferAddEntry cleared addEntry).slot index =
        Function.update cleared.slot cleared.inOffs addEntry index := update
    rw [after, slotLines_concat]
    by_cases same : index = buffer.inOffs
    · rw [inOffs, ← same, Function.update_self, ← place, ← same, List.getElem?_set_self, size]
      · rfl
      · rwa [length_slotLines]
    · rw [inOffs, Function.update_of_ne same, slot index same, ← place,
        List.getElem?_set_ne (Ne.symm same), slots.size_eq index bound]
  · intro other member
    rw [slotLines_concat] at member
    rcases List.mem_or_eq_of_mem_set member with old | rfl
    · exact slots.short other old
    · exact short

/-- A step of the buffer keeps the lines in their slots, and places the line it commits. -/
theorem InSlots.bufferStep (slots : InSlots system.device.buffer committed)
    (carries : Carries system committed pending) (carries' : Carries system' committed' pending')
    (grown : committed' = committed ∨ ∃ line, committed' = committed ++ [line])
    (step : BufferStep system.device system'.device) :
    InSlots system'.device.buffer committed' := by
  cases step with
  | keeps buffer buffSize =>
      rcases grown with rfl | ⟨line, rfl⟩
      · rwa [buffer]
      · have nothing : system.committedLine system' = [] := if_pos buffSize
        rw [carries.committedLine_concat carries'] at nothing
        contradiction
  | adds cleared addEntry wellFormed inOffs slot buffer buffSize =>
      rcases size_addEntry carries' (wellFormed carries.wellFormed) buffer with
        ⟨line, last, size⟩
      have member := List.mem_of_getLast? last
      have short := carries'.length_lastLines_lt line member
      rcases grown with rfl | ⟨line', rfl⟩
      · -- the cached total tells that a line has been committed
        have some' := List.length_pos_of_ne_nil
          (carries'.nonempty line (List.mem_of_mem_drop member))
        rw [carries'.buffSize_eq, carries.buffSize_eq, size, addSize] at buffSize
        omega
      · have stored : lastLines (committed ++ [line']) = committed.rtake 9 ++ [line'] :=
          List.rtake_concat_succ ..
        rw [stored, List.getLast?_concat, Option.some.injEq] at last
        subst last
        rw [buffer]
        exact slots.add (wellFormed carries.wellFormed) inOffs slot size short

theorem System.committedLine_cases (system system' : System) :
    system.committedLine system' = [] ∨ ∃ line, system.committedLine system' = [line] := by
  unfold System.committedLine
  split
  · exact Or.inl rfl
  · cases (system'.entriesBytes.getD []).getLast? with
    | none => exact Or.inl rfl
    | some line => exact Or.inr ⟨line, rfl⟩

/-- Every run of calls keeps the lines in their slots. -/
theorem InSlots.run_operations (slots : InSlots system.device.buffer committed)
    (carries : Carries system committed pending) {operations : List Operation} {rets : List Int}
    {target : System} (execution : run operationStep system operations = some (rets, target)) :
    InSlots target.device.buffer (committed ++ committedBy system operations) := by
  induction operations generalizing system committed pending rets with
  | nil =>
      cases execution
      simpa [committedBy] using slots
  | cons operation operations ih =>
      rcases (run_cons_eq_some_iff ..).mp execution with
        ⟨ret, middle, rest, first, remaining, rfl⟩
      rcases carries.operation operation with ⟨_, _, pending', same, carries'⟩
      cases Option.some.inj (first.symm.trans same)
      have slots' : InSlots middle.device.buffer (committed ++ system.committedLine middle) := by
        rcases carries.operation_moves operation with ⟨call, rfl⟩ | ⟨ret', fPos, moved, _⟩
        · apply slots.bufferStep carries carries' _ (WriteCall.bufferStep first)
          rcases system.committedLine_cases middle with none | ⟨line, one⟩
          · left
            rw [none, List.append_nil]
          · right
            exact ⟨line, by rw [one]⟩
        · cases Option.some.inj (first.symm.trans moved)
          rw [carries.committedLine_nil (carries.congr_fPos fPos), List.append_nil]
          exact slots
      have after := ih slots' carries' remaining
      rw [List.append_assoc] at after
      simpa only [committedBy, observe, first] using after

end

/-! ## The seek command -/

section

variable {system : System} {committed : List (List Byte)}

/-- The slots together are far from wrapping a `size_t` around. -/
theorem InSlots.length_flatten_lt {buffer : AesdCircularBuffer} (slots : InSlots buffer committed) :
    (slotLines committed).flatten.length < 2 ^ 36 := by
  have total := length_flatten_le fun line member => Nat.le_of_lt (slots.short line member)
  rw [length_slotLines] at total
  have most : (slotLines committed).flatten.length ≤ 10 * 2 ^ 32 := total
  omega

/-- The loop over slots counts the bytes of the lines in them. -/
theorem InSlots.updatedFposOffset_eq {buffer : AesdCircularBuffer}
    (slots : InSlots buffer committed) {index : Nat}
    (bound : index ≤ aesdcharMaxWriteOperationsSupported) :
    updatedFposOffset buffer index = (((slotLines committed).take index).map List.length).sum := by
  induction index with
  | zero => rfl
  | succ index ih =>
      have total := sum_lengths_take_le (slotLines committed) (index + 1)
      have small := slots.length_flatten_lt
      rw [updatedFposOffset, ih (Nat.le_of_lt bound), slots.size_eq index bound,
        sum_lengths_take_succ]
      rw [sum_lengths_take_succ] at total
      exact addSize_eq (Nat.lt_of_le_of_lt total (Nat.lt_trans small (by decide)))

/-- A command is accepted when it names a byte of the line in its slot. -/
theorem InSlots.inRange_iff {buffer : AesdCircularBuffer} (slots : InSlots buffer committed)
    (arg : AesdSeekto) : arg.InRange (slotLines committed) ↔ Accepts buffer arg := by
  constructor
  · intro inRange
    have within : arg.writeCmd.toNat < aesdcharMaxWriteOperationsSupported := by
      rcases inRange with ⟨line, present, _⟩
      rw [← length_slotLines committed]
      exact (List.getElem?_eq_some_iff.mp present).1
    rw [AesdSeekto.inRange_iff_lt, ← slots.size_eq _ within] at inRange
    exact ⟨within, inRange⟩
  · rintro ⟨within, inside⟩
    rw [AesdSeekto.inRange_iff_lt, ← slots.size_eq _ within]
    exact inside

/-- An accepted command moves the file to its byte, counted over the slots. -/
theorem InSlots.aesdIoctl_eq (slots : InSlots system.device.buffer committed) (file : FileId)
    {arg : AesdSeekto} (inRange : arg.InRange (slotLines committed)) :
    aesdIoctl .success file aesdcharIocseekto arg system =
      (0, { system with
        fPos := Function.update system.fPos file (arg.position (slotLines committed)) }) := by
  have accepts := (slots.inRange_iff arg).mp inRange
  have small : arg.position (slotLines committed) < 2 ^ 36 :=
    Nat.lt_trans inRange.position_lt slots.length_flatten_lt
  have sum : addSize (((slotLines committed).take arg.writeCmd.toNat).map List.length).sum
      arg.writeCmdOffset.toNat = arg.position (slotLines committed) :=
    addSize_eq (Nat.lt_trans small (by decide))
  rw [aesdIoctl_of_accepts file accepts, slots.updatedFposOffset_eq (Nat.le_of_lt accepts.1), sum,
    toLoff_natCast (Nat.lt_trans small (by decide))]

end

/-- In every state of a run, whatever has failed in it, a seek command names a slot: it
succeeds exactly if its offset is inside the latest line with the number of the slot
modulo ten, it moves only its own file, to that byte counted over the slots, and reads
then deliver the content from there; a refused command changes nothing. -/
theorem seek_goes_by_slots (kmallocMaxSize : KmallocMaxSize) (operations : List Operation)
    (file : FileId) (arg : AesdSeekto) :
    let committed := committedBy (aesdInitModule kmallocMaxSize) operations
    let slots := slotLines committed
    (∀ number line, committed[number]? = some line →
      committed.length ≤ number + aesdcharMaxWriteOperationsSupported →
      slots[number % aesdcharMaxWriteOperationsSupported]? = some line) ∧
    ∃ rets system, run operationStep (aesdInitModule kmallocMaxSize) operations =
        some (rets, system) ∧
      (¬arg.InRange slots → aesdIoctl .success file aesdcharIocseekto arg system =
        (-einval, system)) ∧
      (arg.InRange slots → ∃ moved, aesdIoctl .success file aesdcharIocseekto arg system =
          (0, moved) ∧
        moved = { system with
          fPos := Function.update system.fPos file (arg.position slots) } ∧
        ∀ count fuel, 0 < count → (lastContent committed).length < fuel → ∃ ended,
          readToEnd file count fuel moved =
            some ((lastContent committed).drop (arg.position slots), ended)) := by
  intro committed slots
  refine ⟨fun number line => slotLines_getElem?, ?_⟩
  rcases (carries_init kmallocMaxSize).run_operations operations with
    ⟨rets, system, pending, execution, carries⟩
  have placed := inSlots_init.run_operations (carries_init kmallocMaxSize) execution
  rw [List.nil_append] at placed carries
  refine ⟨rets, system, execution, ?_, ?_⟩
  · intro outside
    rw [placed.inRange_iff] at outside
    exact aesdIoctl_of_not_accepts file outside
  · intro inRange
    refine ⟨_, placed.aesdIoctl_eq file inRange, rfl, ?_⟩
    intro count fuel positive enough
    have small : arg.position slots < 2 ^ 36 :=
      Nat.lt_trans inRange.position_lt placed.length_flatten_lt
    have there : toSize (Function.update system.fPos file (arg.position slots : Int) file) =
        arg.position slots := by
      rw [Function.update_self]
      exact toSize_natCast (Nat.lt_trans small (by decide))
    have less : (lastContent committed).length -
        toSize (Function.update system.fPos file (arg.position slots : Int) file) < fuel :=
      Nat.lt_of_le_of_lt (Nat.sub_le ..) enough
    have read := (carries.congr_fPos
      (Function.update system.fPos file (arg.position slots))).readToEnd positive less
    dsimp only at read
    rw [there] at read
    exact ⟨_, read⟩

/-! ## Represented states -/

section

variable {system system' : System} {history : List Byte}

theorem committedLines_grows (history data : List Byte) :
    committedLines (history ++ consumed data) = committedLines history ∨
      ∃ line, committedLines (history ++ consumed data) = committedLines history ++ [line] := by
  have appended : (appendData (committedLines history) (pendingLine history) data).1 =
      committedLines (history ++ consumed data) := congrArg Prod.fst (appendData_eq history data)
  rw [← appended]
  unfold appendData
  split
  · exact Or.inr ⟨_, rfl⟩
  · exact Or.inl rfl

/-- A call that does not lose the line in progress keeps the lines in their slots. -/
theorem Represents.inSlots_operation (represents : Represents system history)
    (slots : InSlots system.device.buffer (committedLines history)) {operation : Operation}
    (keeps : operation.KeepsLine system) {ret : Int}
    (step : operationStep system operation = some (ret, system')) :
    Represents system' (history ++ operation.accepted ret) ∧
      InSlots system'.device.buffer (committedLines (history ++ operation.accepted ret)) := by
  rcases represents.operation keeps with ⟨_, _, same, represents'⟩
  cases Option.some.inj (step.symm.trans same)
  refine ⟨represents', ?_⟩
  rcases represents.operation_moves operation with ⟨call, rfl⟩ | ⟨ret', fPos, moved, nothing⟩
  · apply slots.bufferStep represents.toCarries represents'.toCarries _ (WriteCall.bufferStep step)
    rcases represents.write call with ⟨_, _, written, effect⟩
    cases Option.some.inj (step.symm.trans written)
    cases effect with
    | loses refused => exact absurd refused keeps
    | fails _ _ negative =>
        rw [Operation.accepted, Int.toNat_of_nonpos (Int.le_of_lt negative), List.take_zero,
          List.append_nil]
        exact Or.inl rfl
    | consumes =>
        have whole : call.data.take ((consumed call.data).length : Int).toNat =
            consumed call.data :=
          (List.prefix_iff_eq_take.mp (firstLine_isPrefix call.data)).symm
        rw [Operation.accepted, whole]
        exact committedLines_grows history call.data
  · cases Option.some.inj (step.symm.trans moved)
    rw [nothing, List.append_nil]
    exact slots

theorem Represents.inSlots_run (represents : Represents system history)
    (slots : InSlots system.device.buffer (committedLines history)) {operations : List Operation}
    (keeps : Along operationStep Operation.KeepsLine system operations) {rets : List Int}
    (execution : run operationStep system operations = some (rets, system')) :
    Represents system' (history ++ accepted operations rets) ∧
      InSlots system'.device.buffer (committedLines (history ++ accepted operations rets)) := by
  induction operations generalizing system history rets with
  | nil =>
      cases execution
      simpa using ⟨represents, slots⟩
  | cons operation operations ih =>
      rcases (run_cons_eq_some_iff ..).mp execution with
        ⟨ret, middle, rest, first, remaining, rfl⟩
      rcases represents.inSlots_operation slots keeps.1 first with ⟨represents', slots'⟩
      have after := ih represents' slots' (keeps.2 _ _ first) remaining
      rwa [List.append_assoc] at after

end

end Aesd.Driver
