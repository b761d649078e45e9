import Aesd.Driver.Operation
import Aesd.Transition.Simulation

/-!
# What one open file sees of the others

A write depends on the heap and the device only, and every other call depends on its
own position besides.  So the calls through some open files return and deliver what
they would if the other files had only been written to.
-/

namespace Aesd.Driver

open Aesd.Memory Aesd.Transition

/-- Run one call; the output is its return value, with the bytes it delivers. -/
def deliveryStep : Machine System Operation (Int × List Byte)
  | system, .openFile file => some ((0, []), aesdOpen file system)
  | system, .read outcome filp buf count =>
      (aesdRead outcome filp buf count system).map fun (ret, bytes, system') =>
        ((ret, bytes), system')
  | system, .write call => (call.run system).map fun (ret, system') => ((ret, []), system')
  | system, .llseek lock file offset whence =>
      let (ret, system') := aesdLlseek lock file offset whence system
      some ((ret, []), system')
  | system, .ioctl outcome file cmd arg =>
      let (ret, system') := aesdIoctl outcome file cmd arg system
      some ((ret, []), system')

/-- The open file that a call uses. -/
def Operation.filp : Operation → Option FileId
  | .openFile file => some file
  | .read _ filp _ _ => filp
  | .write call => call.filp
  | .llseek _ file _ _ => some file
  | .ioctl _ file _ _ => some file

/-- The call is a write, or uses one of the files. -/
def Operation.seenBy (files : FileId → Bool) : Operation → Bool
  | .write _ => true
  | operation => operation.filp.any files

theorem Operation.seenBy_of_filp {files : FileId → Bool} {operation : Operation} {file : FileId}
    (notWrite : ∀ write, operation ≠ .write write) (filp : operation.filp = some file) :
    operation.seenBy files = files file := by
  cases operation with
  | write write => exact absurd rfl (notWrite write)
  | _ => exact congrArg (fun filp : Option FileId => filp.any files) filp

/-- The states differ in the positions of other files only. -/
structure System.AlikeFor (files : FileId → Bool) (system system' : System) : Prop where
  heap : system'.heap = system.heap
  device : system'.device = system.device
  fPos : ∀ file, files file = true → system'.fPos file = system.fPos file

theorem System.AlikeFor.refl (files : FileId → Bool) (system : System) :
    system.AlikeFor files system :=
  ⟨rfl, rfl, fun _ _ => rfl⟩

/-! ## Writes -/

/-- The positions after a write that returned `ret`. -/
def positionsAfter (fPos : FileId → Int) (file : FileId) (ret : Int) : FileId → Int :=
  if 0 ≤ ret then Function.update fPos file (fPos file + ret) else fPos

/-- The position of a file after a write depends on its own position before. -/
theorem positionsAfter_congr {fPos fPos' : FileId → Int} {file other : FileId} {ret : Int}
    (same : fPos' other = fPos other) :
    positionsAfter fPos' file ret other = positionsAfter fPos file ret other := by
  unfold positionsAfter
  split
  · by_cases here : other = file
    · rw [← here, Function.update_self, Function.update_self, same]
    · rw [Function.update_of_ne here, Function.update_of_ne here, same]
  · exact same

section

variable {system system' : System} {outcome : WriteOutcome} {file : FileId} {ret : Int}

/-- What a write under the mutex returns, and does to the heap and the device, does not
depend on the positions. -/
theorem aesdWriteLocked_congr {writeData : Pointer} {count : Nat}
    (call : aesdWriteLocked outcome file writeData count system = some (ret, system'))
    (fPos : FileId → Int) :
    system'.fPos = positionsAfter system.fPos file ret ∧
      aesdWriteLocked outcome file writeData count { system with fPos := fPos } =
        some (ret, { system' with fPos := positionsAfter fPos file ret }) := by
  simp only [aesdWriteLocked, Option.bind_eq_bind, Option.bind_eq_some_iff] at call ⊢
  rcases call with ⟨data, loaded, ⟨writeBuffer, heap⟩, grown, call⟩
  by_cases null : writeBuffer = .null
  · rw [if_pos null] at call
    rcases Option.bind_eq_some_iff.mp call with ⟨unloaded, freed, result⟩
    simp only [Option.some.injEq, Prod.mk.injEq] at result
    rcases result with ⟨rfl, rfl⟩
    refine ⟨rfl, data, loaded, (writeBuffer, heap), grown, ?_⟩
    rw [if_pos null]
    exact Option.bind_eq_some_iff.mpr ⟨unloaded, freed, rfl⟩
  · rw [if_neg null] at call
    rcases Option.bind_eq_some_iff.mp call with ⟨longer, copied, call⟩
    have nonneg : (0 : Int) ≤ appendIndex data := Int.natCast_nonneg _
    split at call
    all_goals
      rename_i found
      rcases Option.bind_eq_some_iff.mp call with ⟨entry, committed, call⟩
      rcases Option.bind_eq_some_iff.mp call with ⟨unloaded, freed, result⟩
      simp only [Option.some.injEq, Prod.mk.injEq] at result
      rcases result with ⟨rfl, rfl⟩
      simp only [positionsAfter, if_pos nonneg]
      refine ⟨trivial, data, loaded, (writeBuffer, heap), grown, ?_⟩
      rw [if_neg null]
      apply Option.bind_eq_some_iff.mpr
      refine ⟨longer, copied, ?_⟩
      simp only [found, if_true, if_false]
      apply Option.bind_eq_some_iff.mpr
      exact ⟨entry, committed, Option.bind_eq_some_iff.mpr ⟨unloaded, freed, rfl⟩⟩

theorem aesdWrite_congr {buf : Option (List Byte)}
    (call : aesdWrite outcome (some file) buf system = some (ret, system'))
    (fPos : FileId → Int) :
    system'.fPos = positionsAfter system.fPos file ret ∧
      aesdWrite outcome (some file) buf { system with fPos := fPos } =
        some (ret, { system' with fPos := positionsAfter fPos file ret }) := by
  cases buf with
  | none =>
      simp only [aesdWrite, Option.some.injEq, Prod.mk.injEq] at call ⊢
      rcases call with ⟨rfl, rfl⟩
      exact ⟨rfl, rfl, rfl⟩
  | some data =>
      simp only [aesdWrite] at call ⊢
      split at call
      · rename_i null
        simp only [Option.some.injEq, Prod.mk.injEq] at call
        rcases call with ⟨rfl, rfl⟩
        rw [if_pos null]
        exact ⟨rfl, rfl⟩
      · rename_i granted
        rw [if_neg granted]
        split at call
        · rename_i fails
          simp only [Option.map_eq_some_iff, Prod.mk.injEq] at call
          rcases call with ⟨heap, freed, rfl, rfl⟩
          rw [if_pos fails, freed]
          exact ⟨rfl, rfl⟩
        · rename_i copies
          rw [if_neg copies]
          rcases Option.bind_eq_some_iff.mp call with ⟨heap, stored, call⟩
          rw [stored, Option.bind_some]
          split at call
          · rename_i locks
            rw [if_pos locks]
            exact aesdWriteLocked_congr call fPos
          · rename_i interrupted
            simp only [Option.some.injEq, Prod.mk.injEq] at call
            rcases call with ⟨rfl, rfl⟩
            rw [if_neg interrupted]
            exact ⟨rfl, rfl⟩

end

/-! ## The other calls -/

/-- A call leads from a state to another one by moving the position of one file, and it
does the same in every state that differs in the positions of other files. -/
structure MovesOnly (operation : Operation) (file : FileId) (system : System)
    (output : Int × List Byte) (target : System) (position : Int) : Prop where
  target_eq : target = { system with fPos := Function.update system.fPos file position }
  congr : ∀ fPos : FileId → Int, fPos file = system.fPos file →
    deliveryStep { system with fPos := fPos } operation =
      some (output, { system with fPos := Function.update fPos file position })

section

variable {system target : System} {operation : Operation} {file : FileId}
  {output : Int × List Byte}

/-- It is enough to know the call in the states that differ in other positions. -/
theorem exists_movesOnly (call : deliveryStep system operation = some (output, target))
    (output' : Int × List Byte) (position : Int)
    (result : ∀ fPos : FileId → Int, fPos file = system.fPos file →
      deliveryStep { system with fPos := fPos } operation =
        some (output', { system with fPos := Function.update fPos file position })) :
    ∃ position, MovesOnly operation file system output target position := by
  cases Option.some.inj ((result system.fPos rfl).symm.trans call)
  exact ⟨position, rfl, result⟩

/-- A call that does not look at the position leaves it. -/
theorem exists_movesOnly_of_still (call : deliveryStep system operation = some (output, target))
    (output' : Int × List Byte)
    (still : ∀ fPos : FileId → Int, fPos file = system.fPos file →
      deliveryStep { system with fPos := fPos } operation =
        some (output', { system with fPos := fPos })) :
    ∃ position, MovesOnly operation file system output target position := by
  apply exists_movesOnly call output' (system.fPos file)
  intro fPos same
  rw [← same, Function.update_eq_self]
  exact still fPos same

theorem movesOnly_read {outcome : ReadOutcome} {buf : Bool} {count : Nat}
    (call : deliveryStep system (.read outcome (some file) buf count) = some (output, target)) :
    ∃ position, MovesOnly (.read outcome (some file) buf count) file system output target
      position := by
  cases buf with
  | false => exact exists_movesOnly_of_still call (-einval, []) fun _ _ => rfl
  | true =>
  by_cases lock : outcome.lock = true
  · cases found : aesdCircularBufferFindEntryOffsetForFpos system.device.buffer
        (toSize (system.fPos file)) with
    | none =>
        apply exists_movesOnly_of_still call (0, [])
        intro fPos same
        simp only [deliveryStep, aesdRead, lock, if_true, same, found]
        rfl
    | some entry =>
        let newEntry := system.device.buffer.slot entry.1
        let bytesToCopy := min (subSize newEntry.size entry.2) count
        by_cases fails : copyFails outcome.copyToUser bytesToCopy = true
        · apply exists_movesOnly_of_still call (-efault, [])
          intro fPos same
          simp only [deliveryStep, aesdRead, lock, if_true, same, found]
          rw [if_pos fails]
          rfl
        · cases loaded : system.heap.load newEntry.buffptr entry.2 bytesToCopy with
          | none =>
              simp only [deliveryStep, aesdRead, lock, if_true, found] at call
              rw [if_neg fails, loaded] at call
              contradiction
          | some bytes =>
              apply exists_movesOnly call (bytesToCopy, bytes)
                (system.fPos file + (bytesToCopy : Nat))
              intro fPos same
              simp only [deliveryStep, aesdRead, lock, if_true, same, found]
              rw [if_neg fails, loaded]
              rfl
  · apply exists_movesOnly_of_still call (-erestartsys, [])
    intro fPos _
    simp only [deliveryStep, aesdRead, if_neg lock]
    rfl

theorem movesOnly_llseek {lock : Bool} {offset : Int} {whence : Whence}
    (call : deliveryStep system (.llseek lock file offset whence) = some (output, target)) :
    ∃ position, MovesOnly (.llseek lock file offset whence) file system output target
      position := by
  cases lock with
  | false => exact exists_movesOnly_of_still call (-erestartsys, []) fun _ _ => rfl
  | true =>
      let result := fixedSizeLlseek (system.fPos file) offset whence (toLoff system.device.buffSize)
      apply exists_movesOnly call (result.1, []) result.2
      intro fPos same
      simp only [deliveryStep, aesdLlseek, if_true, same, result]

theorem movesOnly_ioctl {outcome : IoctlOutcome} {cmd : UInt32} {arg : AesdSeekto}
    (call : deliveryStep system (.ioctl outcome file cmd arg) = some (output, target)) :
    ∃ position, MovesOnly (.ioctl outcome file cmd arg) file system output target position := by
  by_cases unsupported : iocType cmd ≠ aesdIocMagic ∨ iocNr cmd > aesdcharIocMaxnr
  · apply exists_movesOnly_of_still call (-enotty, [])
    intro fPos _
    simp only [deliveryStep, aesdIoctl, if_pos unsupported]
  by_cases seeks : cmd = aesdcharIocseekto
  · by_cases copies : outcome.copyFromUser = true
    · by_cases lock : outcome.lock = true
      · by_cases command : aesdcharMaxWriteOperationsSupported ≤ arg.writeCmd.toNat
        · apply exists_movesOnly_of_still call (-einval, [])
          intro fPos _
          simp only [deliveryStep, aesdIoctl, if_neg unsupported, if_pos seeks, if_pos copies,
            aesdAdjustFileOffset, if_pos lock, if_pos command]
        · by_cases beyond : (system.device.buffer.slot arg.writeCmd.toNat).size ≤
            arg.writeCmdOffset.toNat
          · apply exists_movesOnly_of_still call (-einval, [])
            intro fPos _
            simp only [deliveryStep, aesdIoctl, if_neg unsupported, if_pos seeks, if_pos copies,
              aesdAdjustFileOffset, if_pos lock, if_neg command, if_pos beyond]
          · apply exists_movesOnly call (0, [])
              (toLoff (addSize (updatedFposOffset system.device.buffer arg.writeCmd.toNat)
                arg.writeCmdOffset.toNat))
            intro fPos _
            simp only [deliveryStep, aesdIoctl, if_neg unsupported, if_pos seeks, if_pos copies,
              aesdAdjustFileOffset, if_pos lock, if_neg command, if_neg beyond]
      · apply exists_movesOnly_of_still call (-erestartsys, [])
        intro fPos _
        simp only [deliveryStep, aesdIoctl, if_neg unsupported, if_pos seeks, if_pos copies,
          aesdAdjustFileOffset, if_neg lock]
    · apply exists_movesOnly_of_still call (-efault, [])
      intro fPos _
      simp only [deliveryStep, aesdIoctl, if_neg unsupported, if_pos seeks, if_neg copies]
  · apply exists_movesOnly_of_still call (-enotty, [])
    intro fPos _
    simp only [deliveryStep, aesdIoctl, if_neg unsupported, if_neg seeks]

/-- A call other than a write moves at most the position of its own file. -/
theorem exists_movesOnly_of_not_write (call : deliveryStep system operation = some (output, target))
    (notWrite : ∀ write, operation ≠ .write write) :
    (∃ file position, operation.filp = some file ∧
        MovesOnly operation file system output target position) ∨
      operation.filp = none ∧ target = system ∧
        ∀ fPos, deliveryStep { system with fPos := fPos } operation =
          some (output, { system with fPos := fPos }) := by
  cases operation with
  | openFile file =>
      left
      have moves : ∃ position, MovesOnly (.openFile file) file system output target position :=
        exists_movesOnly call (0, []) 0 fun _ _ => rfl
      rcases moves with ⟨position, moves⟩
      exact ⟨file, position, rfl, moves⟩
  | read outcome filp buf count =>
      cases filp with
      | none =>
          right
          simp only [deliveryStep, aesdRead, Option.map_some, Option.some.injEq,
            Prod.mk.injEq] at call
          rcases call with ⟨rfl, rfl⟩
          exact ⟨rfl, rfl, fun _ => rfl⟩
      | some file =>
          left
          rcases movesOnly_read call with ⟨position, moves⟩
          exact ⟨file, position, rfl, moves⟩
  | write write => exact absurd rfl (notWrite write)
  | llseek lock file offset whence =>
      left
      rcases movesOnly_llseek call with ⟨position, moves⟩
      exact ⟨file, position, rfl, moves⟩
  | ioctl outcome file cmd arg =>
      left
      rcases movesOnly_ioctl call with ⟨position, moves⟩
      exact ⟨file, position, rfl, moves⟩

end

/-! ## Runs -/

section

variable {files : FileId → Bool} {system system' target : System} {operation : Operation}
  {output : Int × List Byte}

/-- A call that is not seen leads to a state that is alike. -/
theorem System.AlikeFor.hidden (alike : system.AlikeFor files system')
    (unseen : operation.seenBy files = false)
    (call : deliveryStep system operation = some (output, target)) :
    target.AlikeFor files system' := by
  have notWrite : ∀ write, operation ≠ .write write := by
    rintro write rfl
    contradiction
  rcases exists_movesOnly_of_not_write call notWrite with
    ⟨file, position, filp, moves⟩ | ⟨_, rfl, _⟩
  · rw [moves.target_eq]
    constructor
    · exact alike.heap
    · exact alike.device
    · intro other seen
      have different : other ≠ file := by
        rintro rfl
        rw [Operation.seenBy_of_filp notWrite filp, seen] at unseen
        contradiction
      rw [alike.fPos other seen]
      exact (Function.update_of_ne different ..).symm
  · exact alike

/-- A call that is seen does the same in states that are alike. -/
theorem System.AlikeFor.visible (alike : system.AlikeFor files system')
    (seen : operation.seenBy files = true)
    (call : deliveryStep system operation = some (output, target)) :
    ∃ target', deliveryStep system' operation = some (output, target') ∧
      target.AlikeFor files target' := by
  have same : ∃ fPos, system' = { system with fPos := fPos } :=
    ⟨system'.fPos, by rw [← alike.heap, ← alike.device]⟩
  rcases same with ⟨fPos, rfl⟩
  by_cases write : ∃ call, operation = .write call
  · rcases write with ⟨⟨outcome, filp, buf⟩, rfl⟩
    cases filp with
    | none =>
        simp only [deliveryStep, WriteCall.run, aesdWrite, Option.map_some, Option.some.injEq,
          Prod.mk.injEq] at call ⊢
        rcases call with ⟨rfl, rfl⟩
        exact ⟨_, ⟨rfl, rfl⟩, alike⟩
    | some file =>
        simp only [deliveryStep, WriteCall.run, Option.map_eq_some_iff, Prod.exists,
          Prod.mk.injEq] at call
        rcases call with ⟨ret, written, call, rfl, rfl⟩
        rcases aesdWrite_congr call fPos with ⟨positions, call'⟩
        refine ⟨{ written with fPos := positionsAfter fPos file ret }, ?_, rfl, rfl, ?_⟩
        · simp only [deliveryStep, WriteCall.run, call', Option.map_some]
        · intro other seen'
          rw [positions]
          exact positionsAfter_congr (alike.fPos other seen')
  · have notWrite : ∀ write, operation ≠ .write write := fun call eq => write ⟨call, eq⟩
    rcases exists_movesOnly_of_not_write call notWrite with
      ⟨file, position, filp, moves⟩ | ⟨filp, rfl, still⟩
    · have own : files file = true := by
        rwa [Operation.seenBy_of_filp notWrite filp] at seen
      refine ⟨_, moves.congr fPos (alike.fPos file own), ?_⟩
      rw [moves.target_eq]
      refine ⟨rfl, rfl, fun other seen' => ?_⟩
      by_cases here : other = file
      · subst here
        simp only [Function.update_self]
      · simp only [Function.update_of_ne here]
        exact alike.fPos other seen'
    · exact ⟨_, still fPos, alike⟩

end

/-- Leaving out all calls through other files but their writes changes nothing for the
calls that are left: in every run, from every state, they return and deliver the same,
and so do the writes; the device ends with the same heap and the same content. -/
theorem files_are_isolated (files : FileId → Bool) {system target : System}
    {operations : List Operation} {outputs : List (Int × List Byte)}
    (execution : run deliveryStep system operations = some (outputs, target)) :
    ∃ target', run deliveryStep system (operations.filter (Operation.seenBy files)) =
        some (outputsAt (Operation.seenBy files) operations outputs, target') ∧
      target.AlikeFor files target' :=
  run_filter (fun _ _ _ _ _ alike unseen call => alike.hidden unseen call)
    (fun _ _ _ _ _ alike seen call => alike.visible seen call) (.refl files system) execution

/-- The reads and the seek of another file between the write and the read of a file. -/
theorem files_are_isolated_between :
    ∃ target target',
      run deliveryStep (aesdInitModule ⟨64, by decide⟩)
          [.openFile 1, .write ⟨.success, some 0, some [97, 10]⟩, .read .success (some 1) true 1,
            .llseek true 1 0 .seekEnd, .openFile 0, .read .success (some 0) true 8] =
        some ([(0, []), (2, []), (1, [97]), (2, []), (0, []), (2, [97, 10])], target) ∧
      run deliveryStep (aesdInitModule ⟨64, by decide⟩)
          [.write ⟨.success, some 0, some [97, 10]⟩, .openFile 0,
            .read .success (some 0) true 8] =
        some ([(2, []), (0, []), (2, [97, 10])], target') ∧
      target.AlikeFor (· == 0) target' := by
  have outputs : (run deliveryStep (aesdInitModule ⟨64, by decide⟩)
      [.openFile 1, .write ⟨.success, some 0, some [97, 10]⟩, .read .success (some 1) true 1,
        .llseek true 1 0 .seekEnd, .openFile 0, .read .success (some 0) true 8]).map Prod.fst =
      some [(0, []), (2, []), (1, [97]), (2, []), (0, []), (2, [97, 10])] := by decide +kernel
  rcases Option.map_eq_some_iff.mp outputs with ⟨⟨_, target⟩, execution, rfl⟩
  rcases files_are_isolated (· == 0) execution with ⟨target', filtered, alike⟩
  exact ⟨target, target', execution, filtered, alike⟩

end Aesd.Driver
