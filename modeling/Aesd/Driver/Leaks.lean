import Aesd.Driver.Cleanup

/-!
# Which blocks are lost

A write whose lock is interrupted does not release its temporary copy, and one
that is refused the enlargement of a line in progress overwrites the only pointer
to that line.  Every other call leaves as many live blocks as the device accounts
for, and unloading leaves the block of a line in progress.
-/

namespace Aesd.Driver

open Aesd.Memory Aesd.Transition Aesd.Word

/-- The lock of the call is interrupted once its data has been copied. -/
def WriteCall.Interrupted (system : System) (call : WriteCall) : Prop :=
  call.filp.isSome ∧ call.data ≠ [] ∧ DataGranted call.outcome call.data system ∧
    copyFails call.outcome.copyFromUser call.data.length = false ∧ call.outcome.lock = false

instance (system : System) (call : WriteCall) : Decidable (call.Interrupted system) :=
  inferInstanceAs (Decidable (_ ∧ _))

/-- The blocks a device state accounts for. -/
def System.ownedBlocks (system : System) : List Nat :=
  system.ringBlocks ++ system.pendingBlocks

/-! ## Counting through a write -/

section

variable {system system' : System} {outcome : WriteOutcome} {file : FileId} {ret : Int}

/-- The blocks that an eviction releases. -/
def evictedBlocks (buffer : AesdCircularBuffer) (data : List Byte) : List Nat :=
  if newline ∈ data ∧ buffer.full = true then (buffer.slot buffer.inOffs).buffptr.ids else []

/-- The pointer to a line in progress is replaced; when nothing is granted, its block
stays. -/
private theorem card_growWriteBuffer {heap heap' : Heap Byte} {count append : Nat}
    {writeBuffer : Pointer}
    (grown : growWriteBuffer outcome system.device heap count append =
      some (writeBuffer, heap')) :
    heap'.live.card + (if writeBuffer = .null then [] else system.pendingBlocks).length =
      heap.live.card + writeBuffer.ids.length := by
  unfold growWriteBuffer at grown
  unfold System.pendingBlocks
  split at grown
  · rename_i idle
    have made := Heap.card_malloc outcome.writeBuffer heap count
    rw [show heap.malloc outcome.writeBuffer count = (writeBuffer, heap') from
      Option.some.inj grown] at made
    rw [if_pos idle, ite_self]
    exact made
  · rename_i unfinished
    rw [if_neg unfinished]
    exact Heap.card_realloc grown

private theorem ids_growWriteBuffer {heap heap' : Heap Byte} {count append : Nat}
    {writeBuffer : Pointer}
    (grown : growWriteBuffer outcome system.device heap count append =
      some (writeBuffer, heap'))
    (met : writeBuffer ≠ .null)
    (longer : system.device.writeBufferSize ≠ 0 →
      addSize append system.device.writeBufferSize ≠ 0) :
    writeBuffer.ids.length =
      if system.device.writeBufferSize = 0 ∧ count = 0 then 0 else 1 := by
  unfold growWriteBuffer at grown
  split at grown
  · rename_i idle
    simp only [idle, true_and]
    exact Heap.ids_malloc (Option.some.inj grown) met
  · rename_i unfinished
    simp only [unfinished, false_and, if_false]
    exact Heap.ids_realloc grown met (longer unfinished)

private theorem card_commitEntry {device device' : AesdDev} {heap heap' : Heap Byte}
    (committed : commitEntry device heap = some (device', heap')) :
    heap'.live.card + (if device.buffer.full = true then
      (device.buffer.slot device.buffer.inOffs).buffptr.ids else []).length = heap.live.card := by
  simp only [commitEntry, freeOldestEntry, Option.map_eq_some_iff, Prod.mk.injEq] at committed
  rcases committed with ⟨⟨buffer, rest⟩, freed, _, rfl⟩
  split at freed
  · rename_i full
    simp only [Option.map_eq_some_iff, Prod.mk.injEq] at freed
    rcases freed with ⟨_, released, _, rfl⟩
    rw [if_pos full]
    exact Heap.card_free released
  · rename_i room
    cases freed
    rw [if_neg room]
    rfl

/-- Under the mutex the write buffer takes the place of the line in progress, and
the temporary copy and an evicted line are released. -/
private theorem card_aesdWriteLocked {writeData : Pointer} {data : List Byte} {count : Nat}
    (loaded : system.heap.load writeData 0 count = some data)
    (longer : system.device.writeBufferSize ≠ 0 →
      addSize (appendIndex data) system.device.writeBufferSize ≠ 0)
    (call : aesdWriteLocked outcome file writeData count system = some (ret, system')) :
    ret < 0 ∧ system'.heap.live.card + writeData.ids.length = system.heap.live.card ∨
      0 ≤ ret ∧
        system'.device.writeBuffer.ids.length =
          (if system.device.writeBufferSize = 0 ∧ count = 0 then 0 else 1) ∧
        system'.heap.live.card + writeData.ids.length + system.pendingBlocks.length +
            (evictedBlocks system.device.buffer data).length =
          system.heap.live.card + system'.device.writeBuffer.ids.length := by
  simp only [aesdWriteLocked, loaded, Option.bind_eq_bind, Option.bind_some] at call
  rcases Option.bind_eq_some_iff.mp call with ⟨⟨writeBuffer, heap₁⟩, grown, call⟩
  have balance := card_growWriteBuffer grown
  split at call
  · rename_i refused
    rcases Option.bind_eq_some_iff.mp call with ⟨heap₂, freed, result⟩
    cases result
    have released := Heap.card_free freed
    rw [if_pos refused, show writeBuffer = .null from refused] at balance
    exact Or.inl ⟨by decide, released.trans balance⟩
  · rename_i granted
    have block := ids_growWriteBuffer grown granted longer
    rw [if_neg granted] at balance
    rcases Option.bind_eq_some_iff.mp call with ⟨heap₂, copied, call⟩
    rcases Option.bind_eq_some_iff.mp copied with ⟨bytes, _, stored⟩
    have same := Heap.live_store stored
    right
    split at call
    · rename_i present
      rcases Option.bind_eq_some_iff.mp call with ⟨⟨device, heap₃⟩, committed, call⟩
      rcases Option.bind_eq_some_iff.mp call with ⟨heap₄, freed, result⟩
      have released := Heap.card_free freed
      have evicted := card_commitEntry committed
      simp only [commitEntry, Option.map_eq_some_iff, Prod.mk.injEq] at committed
      rcases committed with ⟨_, _, rfl, rfl⟩
      cases result
      refine ⟨Int.natCast_nonneg _, block, ?_⟩
      simp only [evictedBlocks, present, true_and]
      rw [same] at evicted
      dsimp only at evicted released balance ⊢
      omega
    · rename_i absent
      rcases Option.bind_eq_some_iff.mp call with ⟨heap₃, freed, result⟩
      have released := Heap.card_free freed
      cases result
      refine ⟨Int.natCast_nonneg _, block, ?_⟩
      simp only [evictedBlocks, absent, false_and, if_false, List.length_nil]
      rw [same] at released
      dsimp only at released balance ⊢
      omega

/-- The data that has been copied is what is loaded. -/
private theorem load_copy {heap heap' : Heap Byte} {writeData : Pointer} {cells data : List Byte}
    (holds : heap.Holds (writeData.region cells ++ [])) (backs : writeData.Backs cells)
    (length : cells.length = data.length) (copied : heap.store writeData 0 data = some heap') :
    heap'.load writeData 0 data.length = some data := by
  rcases holds.store backs (show 0 + data.length ≤ cells.length by
    rw [length, Nat.zero_add]) with ⟨_, copied', _, holds'⟩
  cases copied.symm.trans copied'
  have holds₂ : heap'.Holds (writeData.region data ++ []) := by
    simpa [← length] using holds'
  have read := holds₂.load (backs.of_length_le (Nat.le_of_eq length.symm))
    (show 0 + data.length ≤ _ by rw [Nat.zero_add])
  rwa [List.drop_zero, List.take_length] at read

/-- A line in progress is enlarged to some size. -/
private theorem addSize_ne_zero {data : List Byte} {committed : List (List Byte)}
    {pending : List Byte} (carries : Carries system committed pending)
    (reached : DataGranted outcome data system) (unfinished : system.device.writeBufferSize ≠ 0) :
    addSize (appendIndex data) system.device.writeBufferSize ≠ 0 := by
  have small := carries.limit_lt
  have pending_le := carries.length_pending_le
  have append_le : (consumed data).length ≤ data.length := length_firstLine_le data
  rw [← carries.writeBufferSize_eq] at pending_le
  rw [addSize_eq] <;> rw [appendIndex_eq] <;> rcases reached with empty | granted <;> omega

/-- The blocks of a call that has been given memory for its data. -/
private theorem card_aesdWrite {data : List Byte} {committed : List (List Byte)}
    {pending : List Byte} (carries : Carries system committed pending)
    (call : aesdWrite outcome (some file) (some data) system = some (ret, system')) :
    ¬ReachesBuffer outcome data system ∧ system'.heap.live.card = system.heap.live.card +
        (if WriteCall.Interrupted system ⟨outcome, some file, some data⟩ then 1 else 0) ∨
      ReachesBuffer outcome data system ∧
        (ret < 0 ∧ system'.heap.live.card = system.heap.live.card ∨
          0 ≤ ret ∧
            system'.device.writeBuffer.ids.length =
              (if system.device.writeBufferSize = 0 ∧ data.length = 0 then 0 else 1) ∧
            system'.heap.live.card + system.pendingBlocks.length +
                (evictedBlocks system.device.buffer data).length =
              system.heap.live.card + system'.device.writeBuffer.ids.length) := by
  simp only [aesdWrite] at call
  have made := Heap.card_malloc outcome.writeData system.heap data.length
  rcases (Heap.holds_nil system.heap).malloc outcome.writeData data.length with
    ⟨writeData, heap₁, cells, allocated, dataGranted, length, backs, limit, holds⟩ |
      ⟨refused, nonempty, notGranted⟩
  · rw [allocated] at made
    have block := Heap.ids_malloc allocated backs.ne_null
    have reached : DataGranted outcome data system := or_iff_not_imp_left.mpr dataGranted
    simp only [allocated, if_neg backs.ne_null] at call
    split at call
    · rename_i copy
      rcases Option.map_eq_some_iff.mp call with ⟨heap₂, freed, result⟩
      cases result
      left
      refine ⟨fun reaches => absurd reaches.2.1 (by simp [copy]), ?_⟩
      rw [if_neg fun interrupted => absurd interrupted.2.2.2.1 (by simp [WriteCall.data, copy])]
      have released := Heap.card_free freed
      dsimp only at made released ⊢
      omega
    · rename_i copy
      rcases Option.bind_eq_some_iff.mp call with ⟨heap₂, copied, call⟩
      have same := Heap.live_store copied
      split at call
      · rename_i lock
        right
        have reaches : ReachesBuffer outcome data system :=
          ⟨reached, Bool.not_eq_true _ ▸ copy, lock⟩
        refine ⟨reaches, ?_⟩
        have loaded := load_copy holds backs length copied
        have longer := addSize_ne_zero carries reached
        have locked := @card_aesdWriteLocked { system with heap := heap₂ } _ _ _ _ _ _ _ loaded
          longer call
        rw [same] at locked
        have pendingSame : System.pendingBlocks { system with heap := heap₂ } =
          system.pendingBlocks := rfl
        rw [pendingSame] at locked
        dsimp only at made locked ⊢
        rcases locked with ⟨negative, balance⟩ | ⟨nonneg, ids, balance⟩
        · left
          refine ⟨negative, ?_⟩
          omega
        · right
          refine ⟨nonneg, ids, ?_⟩
          omega
      · rename_i lock
        cases call
        left
        refine ⟨fun reaches => lock reaches.2.2, ?_⟩
        dsimp only at made ⊢
        rw [same, made, block]
        by_cases empty : data = []
        · rw [if_pos (List.length_eq_zero_iff.mpr empty),
            if_neg fun interrupted => interrupted.2.1 empty]
        · have interrupted : WriteCall.Interrupted system ⟨outcome, some file, some data⟩ :=
            ⟨rfl, empty, reached, Bool.not_eq_true _ ▸ copy, Bool.not_eq_true _ ▸ lock⟩
          rw [if_neg (mt List.length_eq_zero_iff.mp empty), if_pos interrupted]
  · rw [refused] at call
    cases call
    have notReached : ¬DataGranted outcome data system := by
      rintro (empty | granted)
      · exact nonempty empty
      · exact notGranted granted
    left
    refine ⟨fun reaches => notReached reaches.1, ?_⟩
    rw [if_neg fun interrupted => notReached interrupted.2.2.1]
    rfl

/-- The same for a call that may lack arguments. -/
private theorem card_write {committed : List (List Byte)} {pending : List Byte}
    (carries : Carries system committed pending) {call : WriteCall} (file : call.filp.isSome)
    (buf : call.buf.isSome) (result : call.run system = some (ret, system')) :
    ¬ReachesBuffer call.outcome call.data system ∧
        system'.heap.live.card =
          system.heap.live.card + (if call.Interrupted system then 1 else 0) ∨
      ReachesBuffer call.outcome call.data system ∧
        (ret < 0 ∧ system'.heap.live.card = system.heap.live.card ∨
          0 ≤ ret ∧
            system'.device.writeBuffer.ids.length =
              (if system.device.writeBufferSize = 0 ∧ call.data.length = 0 then 0 else 1) ∧
            system'.heap.live.card + system.pendingBlocks.length +
                (evictedBlocks system.device.buffer call.data).length =
              system.heap.live.card + system'.device.writeBuffer.ids.length) := by
  rcases call with ⟨outcome, filp, data⟩
  rcases Option.isSome_iff_exists.mp file with ⟨file, rfl⟩
  rcases Option.isSome_iff_exists.mp buf with ⟨data, rfl⟩
  exact card_aesdWrite carries result

end

/-- The blocks that a call loses. -/
def WriteCall.lost (system : System) (call : WriteCall) : Nat :=
  if call.Interrupted system then 1
  else if call.GrowthRefused system then system.pendingBlocks.length
  else 0

theorem WriteCall.Interrupted.arguments {system : System} {call : WriteCall}
    (interrupted : call.Interrupted system) : call.filp.isSome ∧ call.buf.isSome := by
  refine ⟨interrupted.1, ?_⟩
  cases missing : call.buf with
  | some data => rfl
  | none => exact absurd (show call.data = [] by rw [WriteCall.data, missing]; rfl) interrupted.2.1

/-- A call without a file or without a buffer changes nothing. -/
theorem WriteCall.run_of_missing {system system' : System} {call : WriteCall} {ret : Int}
    (missing : ¬(call.filp.isSome ∧ call.buf.isSome))
    (result : call.run system = some (ret, system')) : system' = system := by
  rcases call with ⟨outcome, filp, buf⟩
  cases filp with
  | none =>
      cases result
      rfl
  | some file =>
      cases buf with
      | none =>
          cases result
          rfl
      | some data => exact absurd ⟨rfl, rfl⟩ missing

theorem WriteCall.Interrupted.not_reaches {system : System} {call : WriteCall}
    (interrupted : call.Interrupted system) : ¬ReachesBuffer call.outcome call.data system :=
  fun reaches => Bool.false_ne_true (interrupted.2.2.2.2.symm.trans reaches.2.2)

section

variable {system system' : System} {committed : List (List Byte)} {pending : List Byte}

theorem Carries.length_ringBlocks (carries : Carries system committed pending) :
    system.ringBlocks.length = (lastLines committed).length := by
  rcases carries.owns with ⟨stored, linesEq, entriesEq, _⟩
  rw [(carries.ringBlocks_perm entriesEq).length_eq, ← linesEq, List.length_map, List.length_map]

/-- A committed line takes a slot, which an evicted one has left if necessary. -/
private theorem Carries.length_lastLines_concat (carries : Carries system committed pending)
    {data : List Byte} (present : newline ∈ data) (line : List Byte) :
    (lastLines committed).length + 1 = (lastLines (committed ++ [line])).length +
      (evictedBlocks system.device.buffer data).length := by
  have window (lines : List (List Byte)) : (lastLines lines).length = min lines.length 10 := by
    show (lines.drop (lines.length - 10)).length = _
    rw [List.length_drop]
    omega
  have atTen : system.device.buffer.full = true ↔ (lastLines committed).length = 10 := by
    rw [carries.wellFormed.full_iff, carries.length_entries]
  rw [window, window, List.length_append, List.length_singleton]
  by_cases full : system.device.buffer.full = true
  · have ten := atTen.mp full
    have oldest := carries.wellFormed.entries_of_full full
    rcases carries.owns with ⟨stored, _, entriesEq, _⟩
    rw [entriesEq] at oldest
    cases stored with
    | nil => contradiction
    | cons region rest =>
        rw [List.map_cons, List.cons.injEq] at oldest
        rw [evictedBlocks, if_pos ⟨present, full⟩, ← oldest.1]
        show _ = _ + 1
        rw [window] at ten
        omega
  · have room := mt atTen.mpr full
    rw [evictedBlocks, if_neg fun both => full both.2, List.length_nil]
    rw [window] at room
    omega

/-- A failed call that keeps the line in progress. -/
private theorem Carries.fails_balance (carries : Carries system committed pending)
    (carries' : Carries system' committed pending)
    (kept : pending ≠ [] → system'.device.writeBuffer = system.device.writeBuffer) :
    system'.ownedBlocks.length = system.ownedBlocks.length := by
  have pendingSame : system'.pendingBlocks = system.pendingBlocks := by
    unfold System.pendingBlocks
    rw [carries.writeBufferSize_eq, carries'.writeBufferSize_eq]
    by_cases none : pending = []
    · have zero := List.length_eq_zero_iff.mpr none
      rw [if_pos zero, if_pos zero]
    · rw [kept none]
  rw [System.ownedBlocks, System.ownedBlocks, List.length_append, List.length_append, pendingSame,
    carries.length_ringBlocks, carries'.length_ringBlocks]

/-- Data that is appended stays in the write buffer, or goes to a slot with it. -/
private theorem Carries.consumes_balance (carries : Carries system committed pending)
    {data pending' : List Byte} (length : pending'.length = pending.length)
    (carries' : Carries system' (appendData committed pending' data).1
      (appendData committed pending' data).2)
    (block : system'.device.writeBuffer.ids.length =
      if system.device.writeBufferSize = 0 ∧ data.length = 0 then 0 else 1) :
    system'.ownedBlocks.length + (evictedBlocks system.device.buffer data).length =
      system.ringBlocks.length + system'.device.writeBuffer.ids.length := by
  have ring := carries.length_ringBlocks
  have ring' := carries'.length_ringBlocks
  have size' := carries'.writeBufferSize_eq
  rw [System.ownedBlocks, List.length_append]
  by_cases present : newline ∈ data
  · rw [appendData, if_pos present] at ring' size'
    have nonempty : ¬(system.device.writeBufferSize = 0 ∧ data.length = 0) := fun both =>
      List.ne_nil_of_mem present (List.length_eq_zero_iff.mp both.2)
    have window := carries.length_lastLines_concat present (pending' ++ consumed data)
    have idle : system'.pendingBlocks = [] := if_pos size'
    rw [if_neg nonempty] at block
    rw [idle, List.length_nil]
    dsimp only at ring'
    omega
  · rw [appendData, if_neg present] at ring' size'
    have whole : consumed data = data := firstLine_of_not_mem present
    have noEviction : evictedBlocks system.device.buffer data = [] :=
      if_neg fun both => present both.1
    rw [whole, List.length_append, length, ← carries.writeBufferSize_eq] at size'
    have pendingLength : system'.pendingBlocks.length =
        system'.device.writeBuffer.ids.length := by
      unfold System.pendingBlocks
      by_cases none : system.device.writeBufferSize = 0 ∧ data.length = 0
      · rw [if_pos (by omega), block, if_pos none]
        rfl
      · rw [if_neg (by omega)]
    rw [pendingLength, noEviction, List.length_nil]
    dsimp only at ring'
    omega

/-- The live blocks that a write leaves are those the device accounts for, those
that were not accounted for before, and those it loses. -/
theorem Carries.write_balance (carries : Carries system committed pending) {call : WriteCall}
    {ret : Int} (result : call.run system = some (ret, system')) :
    system'.heap.live.card + system.ownedBlocks.length =
      system.heap.live.card + system'.ownedBlocks.length + call.lost system := by
  rcases carries.write call with ⟨ret', system'', again, effect⟩
  cases result.symm.trans again
  have owned : system.ownedBlocks.length =
      system.ringBlocks.length + system.pendingBlocks.length := List.length_append ..
  cases effect with
  | fails notGranted notRefused negative unmoved limit kept carries' =>
      rw [WriteCall.lost, if_neg notRefused, carries.fails_balance carries' kept]
      by_cases arguments : call.filp.isSome ∧ call.buf.isSome
      · rcases card_write carries arguments.1 arguments.2 result with
          ⟨_, balance⟩ | ⟨reaches, ⟨_, balance⟩ | ⟨nonneg, _⟩⟩
        · omega
        · rw [if_neg fun interrupted => interrupted.not_reaches reaches]
          omega
        · omega
      · rw [if_neg fun interrupted => arguments interrupted.arguments,
          WriteCall.run_of_missing arguments result]
        rfl
  | loses refused unmoved limit device carries' =>
      have nothing : system'.pendingBlocks = [] := by
        rw [System.pendingBlocks, device]
        exact ite_self _
      rw [WriteCall.lost, if_neg fun interrupted => interrupted.not_reaches refused.2.2.1,
        if_pos refused]
      have owned' : system'.ownedBlocks.length = system'.ringBlocks.length := by
        rw [System.ownedBlocks, nothing, List.append_nil]
      rw [owned, owned', carries.length_ringBlocks, carries'.length_ringBlocks]
      rcases card_write carries refused.1 refused.2.1 result with
        ⟨notReached, _⟩ | ⟨_, ⟨_, balance⟩ | ⟨nonneg, _⟩⟩
      · exact absurd refused.2.2.1 notReached
      · omega
      · exact absurd nonneg (by decide)
  | consumes writer pending' granted isFile advanced limit kept length same carries' =>
      have notRefused : ¬call.GrowthRefused system :=
        fun refused => refused.2.2.2.2 granted.2.2.2
      rw [WriteCall.lost, if_neg fun interrupted => interrupted.not_reaches granted.2.2.1,
        if_neg notRefused]
      rcases card_write carries granted.1 granted.2.1 result with
        ⟨notReached, _⟩ | ⟨_, ⟨negative, _⟩ | ⟨_, block, balance⟩⟩
      · exact absurd granted.2.2.1 notReached
      · omega
      · have appended := carries.consumes_balance length carries' block
        omega

end

/-! ## Runs without losses -/

/-- The live blocks are those that the slots and a line in progress point to. -/
def System.Accounted (system : System) : Prop :=
  ∀ id, (system.heap.block id).isSome ↔
    (∃ index < aesdcharMaxWriteOperationsSupported,
      (system.device.buffer.slot index).buffptr = .block id) ∨
    (system.device.writeBufferSize ≠ 0 ∧ system.device.writeBuffer = .block id)

/-- The call does not lose a block. -/
def Operation.KeepsBlocks (system : System) : Operation → Prop
  | .write call => ¬call.Interrupted system ∧ ¬call.GrowthRefused system
  | _ => True

theorem Operation.keepsBlocks_of_not_write {system : System} {operation : Operation}
    (other : ¬∃ call, operation = .write call) : operation.KeepsBlocks system := by
  cases operation with
  | write call => exact absurd ⟨call, rfl⟩ other
  | openFile | read | llseek | ioctl => trivial

theorem Operation.KeepsBlocks.keepsLine {system : System} {operation : Operation}
    (keeps : operation.KeepsBlocks system) : operation.KeepsLine system := by
  cases operation with
  | write call => exact keeps.2
  | openFile | read | llseek | ioctl => trivial

theorem System.mem_ownedBlocks_iff (system : System) (id : Nat) :
    id ∈ system.ownedBlocks ↔
      (∃ index < aesdcharMaxWriteOperationsSupported,
        (system.device.buffer.slot index).buffptr = .block id) ∨
      (system.device.writeBufferSize ≠ 0 ∧ system.device.writeBuffer = .block id) := by
  have ring : id ∈ system.ringBlocks ↔ ∃ index < aesdcharMaxWriteOperationsSupported,
      (system.device.buffer.slot index).buffptr = .block id := by
    simp only [System.ringBlocks, List.mem_flatMap, AesdCircularBuffer.toList_entry, List.mem_map,
      List.mem_range, Pointer.mem_ids_iff]
    constructor
    · rintro ⟨_, ⟨index, bound, rfl⟩, same⟩
      exact ⟨index, bound, same⟩
    · rintro ⟨index, bound, same⟩
      exact ⟨_, ⟨index, bound, rfl⟩, same⟩
  have pending : id ∈ system.pendingBlocks ↔
      system.device.writeBufferSize ≠ 0 ∧ system.device.writeBuffer = .block id := by
    rw [System.pendingBlocks]
    split
    · simp [*]
    · simp [*, Pointer.mem_ids_iff]
  rw [System.ownedBlocks, List.mem_append, ring, pending]

section

variable {system system' : System} {history : List Byte}

theorem Carries.accounted_iff {committed : List (List Byte)} {pending : List Byte}
    (carries : Carries system committed pending) :
    system.Accounted ↔ system.heap.live.card = system.ownedBlocks.length := by
  have exactly := carries.holdsIds.live_iff
  rw [← System.ownedBlocks] at exactly
  rw [← exactly]
  simp only [System.Accounted, System.mem_ownedBlocks_iff]

/-- A line in progress is in a block. -/
theorem Represents.length_pendingBlocks (represents : Represents system history) :
    system.pendingBlocks.length = if system.device.writeBufferSize = 0 then 0 else 1 := by
  unfold System.pendingBlocks
  split
  · rfl
  · rename_i unfinished
    have some' : pendingLine history ≠ [] := by
      rw [represents.writeBufferSize_eq] at unfinished
      exact fun none => unfinished (congrArg List.length none)
    rcases represents.writeBuffer_live (Nat.pos_of_ne_zero unfinished)
      (represents.kept some') with ⟨id, _, isBlock, _⟩
    rw [isBlock]
    rfl

/-- A call keeps the blocks accounted for exactly when it does not lose one. -/
theorem Represents.operation_accounted_iff (represents : Represents system history)
    (accounted : system.Accounted) {operation : Operation} {ret : Int}
    (step : operationStep system operation = some (ret, system')) :
    system'.Accounted ↔ operation.KeepsBlocks system := by
  have owned := represents.accounted_iff.mp accounted
  by_cases isWrite : ∃ call, operation = .write call
  · rcases isWrite with ⟨call, rfl⟩
    have balance := represents.write_balance step
    rcases represents.toCarries.write call with ⟨ret', system'', again, effect⟩
    cases (show call.run system = some (ret, system') from step).symm.trans again
    rcases effect.commits represents.toCarries with ⟨_, carries'⟩
    rw [carries'.accounted_iff]
    rw [owned] at balance
    have lost : call.lost system = 0 ↔ ¬call.Interrupted system ∧ ¬call.GrowthRefused system := by
      unfold WriteCall.lost
      split
      · rename_i interrupted
        simp [interrupted]
      · split
        · rename_i refused
          rw [represents.length_pendingBlocks, if_neg refused.2.2.2.1]
          simp [refused]
        · simp [*]
    refine Iff.trans ?_ lost
    omega
  · rcases represents.operation_moves operation with found | ⟨ret', fPos, result, _⟩
    · exact absurd found isWrite
    · cases result.symm.trans step
      exact iff_of_true accounted (Operation.keepsBlocks_of_not_write isWrite)

/-- While no call loses a block, the device accounts for all of them. -/
theorem Represents.run_accounted (represents : Represents system history)
    (accounted : system.Accounted) {operations : List Operation}
    (keeps : Along operationStep Operation.KeepsBlocks system operations) {rets : List Int}
    (execution : run operationStep system operations = some (rets, system')) :
    system'.Accounted ∧ ∃ history', Represents system' history' := by
  have preserved : ∀ state operation ret target,
      (state.Accounted ∧ ∃ history', Represents state history') →
      Operation.KeepsBlocks state operation →
      operationStep state operation = some (ret, target) →
      target.Accounted ∧ ∃ history', Represents target history' := by
    rintro state operation ret target ⟨accounted, history, represents⟩ keeps step
    rcases represents.operation keeps.keepsLine with ⟨ret', target', again, represents'⟩
    cases step.symm.trans again
    exact ⟨(represents.operation_accounted_iff accounted step).mpr keeps, _, represents'⟩
  exact invariant_of_along preserved ⟨accounted, history, represents⟩ keeps execution

/-- Unloading releases everything exactly when no line is in progress. -/
theorem Represents.cleanup_empties_iff (represents : Represents system history)
    (accounted : system.Accounted) (unloaded : aesdCleanupModule system = some system') :
    (∀ id, system'.heap.block id = none) ↔ system.device.writeBufferSize = 0 := by
  rcases represents.cleanup with ⟨target, again, _, balance⟩
  cases unloaded.symm.trans again
  have owned := represents.accounted_iff.mp accounted
  have pending := represents.length_pendingBlocks
  rw [System.ownedBlocks, List.length_append] at owned
  have empty : (∀ id, system'.heap.block id = none) ↔ system'.heap.live.card = 0 := by
    rw [Finset.card_eq_zero, Finset.eq_empty_iff_forall_notMem]
    simp only [Heap.mem_live_iff, Bool.not_eq_true, Option.isSome_eq_false_iff,
      Option.isNone_iff_eq_none]
  rw [empty]
  split at pending <;> omega

end

theorem accounted_init (kmallocMaxSize : KmallocMaxSize) :
    (aesdInitModule kmallocMaxSize).Accounted := by
  rw [(carries_init kmallocMaxSize).accounted_iff]
  rfl

/-- In every state of a run, up to the unloading of the module, the live blocks are
those of the slots and of a line in progress, and after it there are none. -/
def LosesNoBlock (kmallocMaxSize : KmallocMaxSize) (operations : List Operation) : Prop :=
  (∀ front rets system, front <+: operations →
      run operationStep (aesdInitModule kmallocMaxSize) front = some (rets, system) →
      system.Accounted) ∧
    ∀ rets system system',
      run operationStep (aesdInitModule kmallocMaxSize) operations = some (rets, system) →
      aesdCleanupModule system = some system' → ∀ id, system'.heap.block id = none

/-- A run loses no block exactly when no lock of a write is interrupted behind the
copy of its data, no line in progress is refused its enlargement, and the module is
unloaded without a line in progress. -/
theorem loses_no_block_iff (kmallocMaxSize : KmallocMaxSize) (operations : List Operation) :
    LosesNoBlock kmallocMaxSize operations ↔
      Along operationStep Operation.KeepsBlocks (aesdInitModule kmallocMaxSize) operations ∧
        ∀ rets system,
          run operationStep (aesdInitModule kmallocMaxSize) operations = some (rets, system) →
          system.device.writeBufferSize = 0 := by
  have initial := represents_init kmallocMaxSize
  have accounted := accounted_init kmallocMaxSize
  have ends (keeps : Along operationStep Operation.KeepsBlocks (aesdInitModule kmallocMaxSize)
      operations) {rets : List Int} {system : System}
      (execution : run operationStep (aesdInitModule kmallocMaxSize) operations =
        some (rets, system)) :
      ∃ system', aesdCleanupModule system = some system' ∧
        ((∀ id, system'.heap.block id = none) ↔ system.device.writeBufferSize = 0) := by
    rcases initial.run_accounted accounted keeps execution with ⟨accounted', _, represents⟩
    rcases represents.cleanup with ⟨system', unloaded, _⟩
    exact ⟨system', unloaded, represents.cleanup_empties_iff accounted' unloaded⟩
  constructor
  · rintro ⟨accounts, empties⟩
    have keeps : Along operationStep Operation.KeepsBlocks (aesdInitModule kmallocMaxSize)
        operations := by
      clear ends empties
      induction operations using List.reverseRecOn with
      | nil => exact along_nil ..
      | append_singleton operations operation ih =>
          have front := ih fun front rets system isPrefix =>
            accounts front rets system (isPrefix.trans (List.prefix_append ..))
          rcases initial.toCarries.run_operations operations with ⟨rets, middle, _, before, carries⟩
          rcases carries.operation operation with ⟨ret, target, _, last, _⟩
          rcases initial.run_accounted accounted front before with ⟨accounted', _, represents⟩
          refine (along_concat_iff before operation).mpr ⟨front, ?_⟩
          exact (represents.operation_accounted_iff accounted' last).mp
            (accounts _ _ target List.prefix_rfl
              ((run_concat_eq_some_iff ..).mpr ⟨middle, rets, ret, before, last, rfl⟩))
    refine ⟨keeps, fun rets system execution => ?_⟩
    rcases ends keeps execution with ⟨system', unloaded, empties_iff⟩
    exact empties_iff.mp (empties rets system system' execution unloaded)
  · rintro ⟨keeps, idle⟩
    constructor
    · rintro front rets system ⟨back, rfl⟩ execution
      exact (initial.run_accounted accounted ((along_append_iff ..).mp keeps).1 execution).1
    · intro rets system system' execution unloaded
      rcases ends keeps execution with ⟨target, again, empties_iff⟩
      cases unloaded.symm.trans again
      exact empties_iff.mpr (idle rets system execution)

/-- A write of `"a"` whose lock is interrupted, a refused enlargement of `"a"`, and an
unloading behind `"a"` leave a block that nothing points to. -/
theorem writes_lose_blocks :
    ¬LosesNoBlock ⟨64, by decide⟩
        [.write ⟨{ WriteOutcome.success with lock := false }, some 0, some [97]⟩] ∧
      ¬LosesNoBlock ⟨64, by decide⟩
        [.write ⟨.success, some 0, some [97]⟩,
          .write ⟨{ WriteOutcome.success with writeBuffer := ⟨false, false, fun _ => 0⟩ }, some 0,
            some [98]⟩] ∧
      ¬LosesNoBlock ⟨64, by decide⟩ [.write ⟨.success, some 0, some [97]⟩] := by
  have noSlot (index id : Nat) : (aesdCircularBufferInit.slot index).buffptr ≠ .block id := by
    rw [AesdCircularBuffer.slot_init]
    exact Pointer.noConfusion
  refine ⟨?_, ?_, ?_⟩
  · intro none
    rcases (none.1 _ _ _ List.prefix_rfl rfl 0).mp rfl with ⟨index, _, slot⟩ | ⟨unfinished, _⟩
    · exact noSlot index 0 slot
    · exact unfinished rfl
  · intro none
    rcases (none.1 _ _ _ List.prefix_rfl rfl 1).mp rfl with ⟨index, _, slot⟩ | ⟨_, pointer⟩
    · exact noSlot index 1 slot
    · exact Pointer.noConfusion pointer
  · intro none
    exact absurd (congrArg Option.isSome (none.2 _ _ _ rfl rfl 1)) (by decide)

end Aesd.Driver
