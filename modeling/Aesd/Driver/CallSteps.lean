import Aesd.Driver.Lockstep

/-!
# The steps of one call

A call that goes on alone does what it does when it is run at once.  Before it waits for
the mutex it changes nothing but its own copy of the data; and when it is granted the
mutex, or is interrupted, it is known what it does, whatever others have done since.
-/

namespace Aesd.Driver

open Aesd.Memory Aesd.Transition

/-! ## A call that runs alone -/

/-- Hand back a reply and store its position. -/
def Reply.settle (result : Reply × System) : (Int × List Byte) × System :=
  (result.1.output, result.1.store result.2)

namespace Critical

@[simp]
theorem finish_done (fuel : Nat) (reply : Reply) (system : System) :
    (done reply).finish fuel system = some (reply, system) := by
  cases fuel <;> rfl

theorem finish_succ {critical : Critical} (busy : ∀ reply, critical ≠ done reply) (fuel : Nat)
    (system : System) :
    critical.finish (fuel + 1) system =
      (critical.step system).bind fun next => next.1.finish fuel next.2 := by
  cases critical with
  | done reply => exact absurd rfl (busy reply)
  | read | write | llseek | adjust => rfl

/-- What is left of a call that comes to its end has a next step. -/
theorem finish_cases {critical : Critical} {fuel : Nat} {system : System}
    {result : Reply × System} (ends : critical.finish fuel system = some result) :
    critical = done result.1 ∧ system = result.2 ∨
      (∀ reply, critical ≠ done reply) ∧ ∃ fuel' next, critical.step system = some next ∧
        next.1.finish fuel' next.2 = some result := by
  cases critical with
  | done reply =>
      rw [finish_done, Option.some.injEq] at ends
      exact Or.inl ⟨congrArg done (congrArg Prod.fst ends), congrArg Prod.snd ends⟩
  | read | write | llseek | adjust =>
      right
      cases fuel with
      | zero => contradiction
      | succ fuel =>
          rcases Option.bind_eq_some_iff.mp ends with ⟨next, step, ends⟩
          exact ⟨fun reply => by simp, fuel, next, step, ends⟩

end Critical

section

variable (system : System) (outcome : WriteOutcome) (file : FileId) (writeData : Pointer)
  (count : Nat)

/-- The end of a write that has appended its data. -/
private theorem finish_release (pos : Int) (append : Nat) (fuel : Nat) :
    ((Critical.write (.release append) outcome file pos writeData count).finish (fuel + 1)
        system).map Reply.settle =
      (kfree system.heap writeData).map fun heap =>
        ((↑append, []),
          { system with
            heap := heap
            fPos := Function.update system.fPos file (pos + append) }) := by
  rw [Critical.finish_succ (by simp)]
  cases freed : kfree system.heap writeData with
  | none => simp [Critical.step, writeLockedStep, freed]
  | some heap =>
      have nonneg : (0 : Int) ≤ append := Int.natCast_nonneg append
      simp [Critical.step, writeLockedStep, freed, Reply.settle, Reply.output, Reply.store, nonneg]

/-- The steps of a write under the mutex are the whole of it. -/
theorem finish_write :
    ((Critical.write .scan outcome file (system.fPos file) writeData count).finish 5 system).map
        Reply.settle =
      (aesdWriteLocked outcome file writeData count system).map fun (ret, system') =>
        ((ret, []), system') := by
  rw [Critical.finish_succ (by simp)]
  simp only [Critical.step, writeLockedStep, aesdWriteLocked, Option.bind_eq_bind]
  cases loaded : system.heap.load writeData 0 count with
  | none => simp
  | some data =>
      simp only [Option.map_some, Option.bind_some]
      rw [Critical.finish_succ (by simp)]
      simp only [Critical.step, writeLockedStep]
      cases grown : growWriteBuffer outcome system.device system.heap count (appendIndex data) with
      | none => simp
      | some result =>
          rcases result with ⟨writeBuffer, heap⟩
          simp only [Option.map_some, Option.bind_some]
          by_cases null : writeBuffer = .null
          · simp only [if_pos null]
            rw [Critical.finish_succ (by simp)]
            simp only [Critical.step, writeLockedStep]
            cases freed : kfree heap writeData with
            | none => simp
            | some heap =>
                simp [Reply.settle, Reply.output, Reply.store, show ¬enomem ≤ 0 by decide]
          · simp only [if_neg null]
            rw [Critical.finish_succ (by simp)]
            simp only [Critical.step, writeLockedStep]
            cases copied : memcpy heap writeBuffer system.device.writeBufferSize writeData
                (appendIndex data) with
            | none => simp
            | some heap =>
                simp only [Option.map_some, Option.bind_some]
                by_cases found : newline ∈ data
                · simp only [found, decide_true, if_true]
                  rw [Critical.finish_succ (by simp)]
                  simp only [Critical.step, writeLockedStep]
                  cases committed : commitEntry _ heap with
                  | none => simp
                  | some entry =>
                      simp only [Option.map_some, Option.bind_some]
                      rw [finish_release]
                      cases freed : kfree entry.2 writeData with
                      | none => simp
                      | some heap => simp
                · simp only [found, decide_false, Bool.false_eq_true, if_false]
                  rw [finish_release]
                  cases freed : kfree heap writeData with
                  | none => simp
                  | some heap => simp

end

/-! ## Before the mutex -/

/-- What the request for the copy of the data has been met with. -/
def Copies (limit : Nat) (outcome : WriteOutcome) (data : List Byte) (writeData : Pointer) :
    Prop :=
  data = [] ∧ writeData = .empty ∨
    data ≠ [] ∧ outcome.writeData.granted = true ∧ data.length ≤ limit ∧
      ∃ id, writeData = .block id

/-- The call has been handed `pos` and has not taken effect. -/
inductive Before (limit : Nat) : Operation → Int → Pc → Prop
  | start (operation : Operation) (pos : Int) : Before limit operation pos (.start pos)
  | copying {outcome : WriteOutcome} {file : FileId} {data : List Byte} {pos : Int}
      {writeData : Pointer} (copies : Copies limit outcome data writeData) :
      Before limit (.write ⟨outcome, some file, some data⟩) pos
        (.copying outcome file data pos writeData)
  | read (outcome : ReadOutcome) (file : FileId) (count : Nat) (pos : Int) :
      Before limit (.read outcome (some file) true count) pos
        (.locking (.read .find outcome file pos count))
  | write {outcome : WriteOutcome} {file : FileId} {data : List Byte} {pos : Int}
      {writeData : Pointer} (copies : Copies limit outcome data writeData)
      (copied : copyFails outcome.copyFromUser data.length = false) :
      Before limit (.write ⟨outcome, some file, some data⟩) pos
        (.locking (.write .scan outcome file pos writeData data.length))
  | llseek (lock : Bool) (file : FileId) (offset : Int) (whence : Whence) (pos : Int) :
      Before limit (.llseek lock file offset whence) pos (.locking (.llseek file offset whence))
  | ioctl {outcome : IoctlOutcome} {file : FileId} {arg : AesdSeekto} {pos : Int}
      (copied : outcome.copyFromUser = true) :
      Before limit (.ioctl outcome file aesdcharIocseekto arg) pos
        (.locking (.adjust file arg.writeCmd.toNat arg.writeCmdOffset.toNat))

/-- The copy of its data that a call has before it is granted the mutex. -/
def Call.copy : Call → Option (Nat × List Byte)
  | ⟨_, .copying outcome _ data _ (.block id)⟩ =>
      some (id, Heap.resized outcome.writeData [] data.length)
  | ⟨.write ⟨_, _, some data⟩, .locking (.write _ _ _ _ (.block id) _)⟩ => some (id, data)
  | _ => none

/-- The heap with one more block, for data that is not empty. -/
def Stores (heap heap₂ : Heap Byte) (data : List Byte) (copy : Pointer) : Prop :=
  data = [] ∧ copy = .empty ∧ heap₂ = heap ∨
    data ≠ [] ∧ copy = .block heap.next ∧ heap₂.limit = heap.limit ∧
      heap₂.next = heap.next + 1 ∧
      heap₂.block = Function.update heap.block heap.next (some data)

section

variable {outcome : WriteOutcome} {data : List Byte} {writeData : Pointer}

/-- Where a request has been met, it is met in every heap under the same limit. -/
theorem Copies.exists_copy {heap : Heap Byte} (copies : Copies heap.limit outcome data writeData) :
    ∃ copy heap₁ heap₂ heap₃, kmalloc outcome.writeData heap data.length = (copy, heap₁) ∧
      copy ≠ .null ∧ heap₁.store copy 0 data = some heap₂ ∧ Stores heap heap₂ data copy ∧
      kfree heap₁ copy = some heap₃ ∧ heap₃.limit = heap.limit ∧ heap.next ≤ heap₃.next ∧
      heap₃.block = heap.block := by
  rcases copies with ⟨rfl, _⟩ | ⟨nonempty, granted, fits, _⟩
  · exact ⟨.empty, heap, heap, heap, rfl, by simp, rfl, Or.inl ⟨rfl, rfl, rfl⟩, rfl, rfl, le_rfl,
      rfl⟩
  · have positive : data.length ≠ 0 := fun none => nonempty (List.eq_nil_of_length_eq_zero none)
    have made : kmalloc outcome.writeData heap data.length = (.block heap.next,
        heap.insert (Heap.resized outcome.writeData [] data.length)
          (Heap.length_resized_le _ _ fits)) := by
      simp only [kmalloc, Heap.malloc, if_neg positive]
      exact dif_pos ⟨granted, fits⟩
    have live : (heap.insert (Heap.resized outcome.writeData [] data.length)
        (Heap.length_resized_le _ _ fits)).block heap.next =
          some (Heap.resized outcome.writeData [] data.length) := Function.update_self ..
    rcases Heap.store_of_live live 0 nonempty with
      ⟨_, heap₂, stored, limit₂, next₂, block₂⟩ | ⟨outside, _⟩
    · refine ⟨.block heap.next, _, heap₂, _, made, by simp, stored, Or.inr ⟨nonempty, rfl, limit₂,
        next₂, ?_⟩, if_pos (by rw [live]; rfl), rfl, Nat.le_succ _, ?_⟩
      · rw [block₂, List.take_zero, List.nil_append, Nat.zero_add, List.drop_of_length_le (by simp),
          List.append_nil]
        exact Function.update_idem ..
      · show Function.update (Function.update heap.block heap.next _) heap.next none = heap.block
        rw [Function.update_idem, ← heap.fresh heap.next le_rfl, Function.update_eq_self]
    · rw [Heap.length_resized] at outside
      omega

variable {system : System}

/-- A write whose user copy fails leaves the heap as it was, but for a used identifier. -/
theorem aesdWrite_of_copyFails (copies : Copies system.heap.limit outcome data writeData)
    (fails : copyFails outcome.copyFromUser data.length = true) (file : FileId) :
    ∃ heap₃, aesdWrite outcome (some file) (some data) system =
        some (-efault, { system with heap := heap₃ }) ∧ heap₃.limit = system.heap.limit ∧
      system.heap.next ≤ heap₃.next ∧ heap₃.block = system.heap.block := by
  rcases copies.exists_copy with
    ⟨copy, heap₁, heap₂, heap₃, made, met, _, _, freed, limit₃, next₃, block₃⟩
  refine ⟨heap₃, ?_, limit₃, next₃, block₃⟩
  simp only [aesdWrite, made, if_neg met, fails, if_true, freed, Option.map_some]

/-- Another one has a copy of its data in the heap. -/
theorem aesdWrite_of_copied (copies : Copies system.heap.limit outcome data writeData)
    (copied : copyFails outcome.copyFromUser data.length = false) (file : FileId) :
    ∃ copy heap₂, Stores system.heap heap₂ data copy ∧
      aesdWrite outcome (some file) (some data) system =
        if outcome.lock then
          aesdWriteLocked outcome file copy data.length { system with heap := heap₂ }
        else
          some (-erestartsys, { system with heap := heap₂ }) := by
  rcases copies.exists_copy with
    ⟨copy, heap₁, heap₂, _, made, met, stored, stores, _, _, _, _⟩
  refine ⟨copy, heap₂, stores, ?_⟩
  simp only [aesdWrite, made, if_neg met, copied, Bool.false_eq_true, if_false, stored,
    Option.bind_some]

/-- The steps of a read under the mutex are the whole of it. -/
theorem finish_read (outcome : ReadOutcome) (locks : outcome.lock = true) (file : FileId)
    (count : Nat) (system : System) :
    deliveryStep system (.read outcome (some file) true count) =
      ((Critical.read .find outcome file (system.fPos file) count).finish 5 system).map
        Reply.settle := by
  rw [Critical.finish_succ (by simp)]
  simp only [Critical.step, readLockedStep, deliveryStep, aesdRead, locks, if_true]
  cases aesdCircularBufferFindEntryOffsetForFpos system.device.buffer
      (toSize (system.fPos file)) with
  | none => simp [Reply.settle, Reply.output, Reply.store]
  | some entry =>
      rcases entry with ⟨newEntry, byteOffset⟩
      simp only [Option.bind_some]
      rw [Critical.finish_succ (by simp)]
      simp only [Critical.step, readLockedStep]
      split
      · simp [Reply.settle, Reply.output, Reply.store]
      · cases system.heap.load _ _ _ with
        | none => simp
        | some bytes => simp [Reply.settle, Reply.output, Reply.store]

end

section

variable {ι : Type} [DecidableEq ι] {apart : ι → Option (Nat × List Byte)} {owner : ι}
  {pairs : Nat → Nat → Prop} {operation : Operation} {pos : Int} {critical : Critical}
  {device system : System}

/-- A call that is granted the mutex does under it what it does when it is run at once. -/
theorem Before.enter (before : Before system.heap.limit operation pos (.locking critical))
    (locks : operation.lock = true) {file : FileId} (filp : operation.filp = some file)
    (handed : pos = system.fPos file) (agree : device.Renames pairs apart file system)
    (own : apart owner = Call.copy ⟨operation, .locking critical⟩) :
    ∃ pairs' critical' mid, pairs ≤ pairs' ∧ critical.Paired pairs' file critical' ∧
      device.Renames pairs' (Function.update apart owner none) file mid ∧
      mid.fPos = system.fPos ∧
      deliveryStep system operation = (critical'.finish 5 mid).map Reply.settle := by
  have still (nothing : apart owner = none) : Function.update apart owner none = apart := by
    have same := Function.update_eq_self owner apart
    rwa [nothing] at same
  cases before with
  | read outcome other count pos =>
      cases Option.some.inj filp
      rw [still own, handed]
      exact ⟨pairs, _, system, le_rfl, .read .., agree, rfl, finish_read outcome locks ..⟩
  | llseek lock other offset whence pos =>
      cases Option.some.inj filp
      rw [still own]
      refine ⟨pairs, _, system, le_rfl, .llseek .., agree, rfl, ?_⟩
      cases (locks : lock = true)
      rfl
  | @ioctl outcome other arg pos copied =>
      cases Option.some.inj filp
      rw [still own]
      refine ⟨pairs, _, system, le_rfl, .adjust .., agree, rfl, ?_⟩
      have valid : ¬(iocType aesdcharIocseekto ≠ aesdIocMagic ∨
          iocNr aesdcharIocseekto > aesdcharIocMaxnr) := by decide
      have locks' : outcome.lock = true := locks
      simp only [deliveryStep, aesdIoctl, if_neg valid, if_true, copied, locks']
      rfl
  | @write outcome other data pos writeData copies copied =>
      cases Option.some.inj filp
      have locks' : outcome.lock = true := locks
      rcases aesdWrite_of_copied copies copied file with
        ⟨copy, heap₂, stores, result⟩
      rw [if_pos locks'] at result
      have same : deliveryStep system (.write ⟨outcome, some file, some data⟩) =
          ((Critical.write .scan outcome file pos copy data.length).finish 5
            { system with heap := heap₂ }).map Reply.settle := by
        have whole := finish_write { system with heap := heap₂ } outcome file copy data.length
        rw [handed, whole, ← result]
        rfl
      rcases stores with ⟨rfl, rfl, rfl⟩ | ⟨nonempty, rfl, limit₂, next₂, block₂⟩
      · rcases copies with ⟨_, rfl⟩ | ⟨nonempty, _⟩
        · rw [still own]
          exact ⟨pairs, _, system, le_rfl, .write _ _ _ .empty _, agree, rfl, same⟩
        · exact absurd rfl nonempty
      · rcases copies with ⟨empty, _⟩ | ⟨_, _, _, id, rfl⟩
        · exact absurd empty nonempty
        · exact ⟨_, _, { system with heap := heap₂ }, fun _ _ both => Or.inl both,
            .write _ _ _ (.block (Or.inr ⟨rfl, rfl⟩)) _,
            ⟨agree.heap.adopt own limit₂ next₂ block₂,
              agree.device.mono fun _ _ both => Or.inl both, agree.fPos⟩, rfl, same⟩

/-- A call whose wait is interrupted leaves nothing but the copy of its data. -/
theorem Before.interrupted (before : Before system.heap.limit operation pos (.locking critical))
    (interrupted : operation.lock = false) :
    ∃ heap₂, deliveryStep system operation =
        some ((-erestartsys, []), { system with heap := heap₂ }) ∧
      (Call.copy ⟨operation, .locking critical⟩ = none ∧ heap₂ = system.heap ∨
        ∃ entry, Call.copy ⟨operation, .locking critical⟩ = some entry ∧
          heap₂.limit = system.heap.limit ∧ heap₂.next = system.heap.next + 1 ∧
          heap₂.block =
            Function.update system.heap.block system.heap.next (some entry.2)) := by
  cases before with
  | read outcome file count pos =>
      refine ⟨system.heap, ?_, Or.inl ⟨rfl, rfl⟩⟩
      have none : outcome.lock = false := interrupted
      simp [deliveryStep, aesdRead, none]
  | llseek lock file offset whence pos =>
      refine ⟨system.heap, ?_, Or.inl ⟨rfl, rfl⟩⟩
      have none : lock = false := interrupted
      simp [deliveryStep, aesdLlseek, none]
  | @ioctl outcome file arg pos copied =>
      refine ⟨system.heap, ?_, Or.inl ⟨rfl, rfl⟩⟩
      have none : outcome.lock = false := interrupted
      have valid : ¬(iocType aesdcharIocseekto ≠ aesdIocMagic ∨
          iocNr aesdcharIocseekto > aesdcharIocMaxnr) := by decide
      simp only [deliveryStep, aesdIoctl, if_neg valid, if_true, copied, none]
      rfl
  | @write outcome file data pos writeData copies copied =>
      have none : ¬outcome.lock = true := by simpa [Operation.lock] using interrupted
      rcases aesdWrite_of_copied copies copied file with
        ⟨copy, heap₂, stores, result⟩
      rw [if_neg none] at result
      refine ⟨heap₂, by simp [deliveryStep, WriteCall.run, result], ?_⟩
      rcases stores with ⟨rfl, rfl, rfl⟩ | ⟨nonempty, rfl, limit₂, next₂, block₂⟩
      · rcases copies with ⟨_, rfl⟩ | ⟨nonempty, _⟩
        · exact Or.inl ⟨rfl, rfl⟩
        · exact absurd rfl nonempty
      · rcases copies with ⟨empty, _⟩ | ⟨_, _, _, id, rfl⟩
        · exact absurd empty nonempty
        · exact Or.inr ⟨(id, data), rfl, limit₂, next₂, block₂⟩

end

/-- A request is for nothing, or it is met with a new block, or it is refused. -/
theorem malloc_cases (grant : Grant Byte) (heap : Heap Byte) (size : Nat) :
    (size = 0 ∧ heap.malloc grant size = (.empty, heap)) ∨
      (size ≠ 0 ∧ grant.granted = true ∧ size ≤ heap.limit ∧
        ∃ heap₁, heap.malloc grant size = (.block heap.next, heap₁)) ∨
      size ≠ 0 ∧ ¬(grant.granted = true ∧ size ≤ heap.limit) ∧
        heap.malloc grant size = (.null, heap) := by
  simp only [Heap.malloc]
  by_cases none : size = 0
  · exact Or.inl ⟨none, if_pos none⟩
  · right
    rw [if_neg none]
    by_cases fits : grant.granted = true ∧ size ≤ heap.limit
    · exact Or.inl ⟨none, fits.1, fits.2, _, dif_pos fits⟩
    · exact Or.inr ⟨none, fits, dif_neg fits⟩

/-- The call returns at once, and moves at most a file that is opened. -/
def ReturnsAtOnce (operation : Operation) (pos : Int) (device system : System) : Prop :=
  ∃ ret moves, operation.begin pos device =
      (.returning (.plain ret), { device with fPos := moves device.fPos }) ∧
    deliveryStep system operation = some ((ret, []), { system with fPos := moves system.fPos }) ∧
    (moves = id ∨
      ∃ file, operation.filp = some file ∧ moves = fun fPos => Function.update fPos file 0)

/-- A call begins to wait for the mutex, requests a copy of its data, or returns. -/
theorem begin_cases (operation : Operation) (pos : Int) {device system : System}
    (limit : system.heap.limit = device.heap.limit) :
    (∃ critical, operation.begin pos device = (.locking critical, device) ∧
        Before system.heap.limit operation pos (.locking critical) ∧
        Call.copy ⟨operation, .locking critical⟩ = none) ∨
      (∃ outcome file data writeData heap, operation = .write ⟨outcome, some file, some data⟩ ∧
        kmalloc outcome.writeData device.heap data.length = (writeData, heap) ∧
        operation.begin pos device =
          (.copying outcome file data pos writeData, { device with heap := heap }) ∧
        Copies system.heap.limit outcome data writeData) ∨
      ReturnsAtOnce operation pos device system := by
  cases operation with
  | openFile file => exact Or.inr (Or.inr ⟨0, _, rfl, rfl, Or.inr ⟨file, rfl, rfl⟩⟩)
  | llseek lock file offset whence =>
      exact Or.inl ⟨_, rfl, .llseek lock file offset whence pos, rfl⟩
  | read outcome filp buf count =>
      cases filp with
      | none => exact Or.inr (Or.inr ⟨-einval, id, rfl, rfl, Or.inl rfl⟩)
      | some file =>
          cases buf with
          | false => exact Or.inr (Or.inr ⟨-einval, id, rfl, rfl, Or.inl rfl⟩)
          | true => exact Or.inl ⟨_, rfl, .read outcome file count pos, rfl⟩
  | ioctl outcome file cmd arg =>
      simp only [Operation.begin, ReturnsAtOnce, deliveryStep, aesdIoctl]
      by_cases invalid : iocType cmd ≠ aesdIocMagic ∨ iocNr cmd > aesdcharIocMaxnr
      · simp only [if_pos invalid]
        exact Or.inr (Or.inr ⟨-enotty, id, rfl, rfl, Or.inl rfl⟩)
      · simp only [if_neg invalid]
        by_cases seekto : cmd = aesdcharIocseekto
        · simp only [if_pos seekto]
          subst seekto
          cases copied : outcome.copyFromUser with
          | true => exact Or.inl ⟨_, rfl, .ioctl copied, rfl⟩
          | false => exact Or.inr (Or.inr ⟨-efault, id, rfl, rfl, Or.inl rfl⟩)
        · simp only [if_neg seekto]
          exact Or.inr (Or.inr ⟨-enotty, id, rfl, rfl, Or.inl rfl⟩)
  | write call =>
      rcases call with ⟨outcome, filp, buf⟩
      cases filp with
      | none => exact Or.inr (Or.inr ⟨-einval, id, rfl, rfl, Or.inl rfl⟩)
      | some file =>
          cases buf with
          | none => exact Or.inr (Or.inr ⟨-einval, id, rfl, rfl, Or.inl rfl⟩)
          | some data =>
              right
              simp only [Operation.begin, ReturnsAtOnce, deliveryStep, WriteCall.run, aesdWrite]
              rcases malloc_cases outcome.writeData device.heap data.length with
                ⟨none, made⟩ | ⟨some', granted, fits, heap₁, made⟩ | ⟨some', refused, made⟩
              · have empty := List.eq_nil_of_length_eq_zero none
                rw [made]
                exact Or.inl ⟨outcome, file, data, .empty, _, rfl, made, rfl, Or.inl ⟨empty, rfl⟩⟩
              · rw [made]
                exact Or.inl ⟨outcome, file, data, _, heap₁, rfl, made, rfl, Or.inr
                  ⟨fun empty => some' (empty ▸ rfl), granted, limit ▸ fits, _, rfl⟩⟩
              · right
                rw [made]
                refine ⟨-enomem, id, rfl, ?_, Or.inl rfl⟩
                rcases malloc_cases outcome.writeData system.heap data.length with
                  ⟨none, _⟩ | ⟨_, granted, fits, _⟩ | ⟨_, _, made'⟩
                · exact absurd none some'
                · exact absurd ⟨granted, limit ▸ fits⟩ refused
                · rw [made']
                  rfl

end Aesd.Driver
