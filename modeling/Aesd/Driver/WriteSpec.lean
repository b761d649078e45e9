import Aesd.Driver.Represents

/-!
# What one write does

Every write of a represented state returns, and it does one of three things: it
consumes its data up to the first newline, it fails and leaves the represented
word as it was, or the enlargement of the write buffer is refused, which loses
the pointer to the line in progress.
-/

namespace Aesd.Driver

open Aesd.Memory Aesd.Word

/-! ## The consumed prefix -/

/-- The scan for the first newline finds the end of the consumed prefix. -/
theorem appendIndex_eq (data : List Byte) : appendIndex data = (consumed data).length := by
  unfold appendIndex
  rcases firstLine_cases newline data with ⟨absent, whole⟩ | ⟨body, rest, absent, rfl, line⟩
  · have notFound : data.findIdx? (· == newline) = none := by
      rw [List.findIdx?_eq_none_iff]
      intro byte member
      exact beq_eq_false_iff_ne.mpr fun same => absent (same ▸ member)
    rw [notFound, consumed, whole]
  · have found : (body ++ newline :: rest).findIdx? (· == newline) = some body.length := by
      rw [List.findIdx?_append]
      have before : body.findIdx? (· == newline) = none := by
        rw [List.findIdx?_eq_none_iff]
        intro byte member
        exact beq_eq_false_iff_ne.mpr fun same => absent (same ▸ member)
      simp [before, List.findIdx?_cons]
    rw [found, consumed, line]
    simp

theorem take_appendIndex (data : List Byte) : data.take (appendIndex data) = consumed data := by
  rw [appendIndex_eq]
  exact (List.prefix_iff_eq_take.mp (firstLine_isPrefix data)).symm

/-! ## Which services a write needs -/

/-- The request for the temporary copy is met. -/
def DataGranted (outcome : WriteOutcome) (data : List Byte) (system : System) : Prop :=
  data.length = 0 ∨
    outcome.writeData.granted = true ∧ data.length ≤ system.heap.limit

/-- The request for the write buffer is met: a new block for a new line, an
enlarged one for a line in progress. -/
def BufferGranted (outcome : WriteOutcome) (data : List Byte) (system : System) : Prop :=
  if system.device.writeBufferSize = 0 then
    data.length = 0 ∨
      outcome.writeBuffer.granted = true ∧ data.length ≤ system.heap.limit
  else
    outcome.writeBuffer.granted = true ∧
      appendIndex data + system.device.writeBufferSize ≤ system.heap.limit

instance (outcome : WriteOutcome) (data : List Byte) (system : System) :
    Decidable (DataGranted outcome data system) :=
  inferInstanceAs (Decidable (_ ∨ _))

instance (outcome : WriteOutcome) (data : List Byte) (system : System) :
    Decidable (BufferGranted outcome data system) :=
  inferInstanceAs (Decidable
    (if system.device.writeBufferSize = 0 then
      data.length = 0 ∨ outcome.writeBuffer.granted = true ∧ data.length ≤ system.heap.limit
    else
      outcome.writeBuffer.granted = true ∧
        appendIndex data + system.device.writeBufferSize ≤ system.heap.limit))

/-- Everything before the request for the write buffer succeeds. -/
def ReachesBuffer (outcome : WriteOutcome) (data : List Byte) (system : System) : Prop :=
  DataGranted outcome data system ∧ copyFails outcome.copyFromUser data.length = false ∧
    outcome.lock = true

instance (outcome : WriteOutcome) (data : List Byte) (system : System) :
    Decidable (ReachesBuffer outcome data system) :=
  inferInstanceAs (Decidable (_ ∧ _))

/-- A write call as a caller issues it; either argument may be null. -/
structure WriteCall where
  outcome : WriteOutcome
  filp : Option FileId
  buf : Option (List Byte)

namespace WriteCall

/-- Run the call. -/
def run (call : WriteCall) (system : System) : Option (Int × System) :=
  aesdWrite call.outcome call.filp call.buf system

/-- The data of the call, empty for a null pointer. -/
def data (call : WriteCall) : List Byte :=
  call.buf.getD []

/-- Both arguments are present, and every allocation, user copy and lock of the
call succeeds. -/
def Granted (system : System) (call : WriteCall) : Prop :=
  call.filp.isSome ∧ call.buf.isSome ∧ ReachesBuffer call.outcome call.data system ∧
    BufferGranted call.outcome call.data system

/-- The call asks `krealloc` to enlarge the line in progress and is refused. -/
def GrowthRefused (system : System) (call : WriteCall) : Prop :=
  call.filp.isSome ∧ call.buf.isSome ∧ ReachesBuffer call.outcome call.data system ∧
    system.device.writeBufferSize ≠ 0 ∧ ¬BufferGranted call.outcome call.data system

instance (system : System) (call : WriteCall) : Decidable (call.Granted system) :=
  inferInstanceAs (Decidable (_ ∧ _))

instance (system : System) (call : WriteCall) : Decidable (call.GrowthRefused system) :=
  inferInstanceAs (Decidable (_ ∧ _))

end WriteCall

/-! ## The critical section -/

/-- What is carried once data has been appended to the line in progress. -/
def appendData (committed : List (List Byte)) (pending data : List Byte) :
    List (List Byte) × List Byte :=
  if newline ∈ data then (committed ++ [pending ++ consumed data], [])
  else (committed, pending ++ consumed data)

section Locked

variable {system : System} {committed : List (List Byte)} {pending : List Byte}
  {stored : List (Region Byte)}

/-- The write buffer is allocated or enlarged with its line kept and room for
the consumed data, or nothing changes.  A lost line leaves junk in its place. -/
private theorem growWriteBuffer_cases (system : System) (outcome : WriteOutcome)
    {data : List Byte} {front : List (Region Byte)} (limit_lt : system.heap.limit < 2 ^ 32)
    (fits : data.length ≤ system.heap.limit)
    (pendingFits : pending.length ≤ system.heap.limit)
    (writeBufferSize_eq : system.device.writeBufferSize = pending.length)
    (backs : pending ≠ [] → system.device.writeBuffer ≠ .null →
      system.device.writeBuffer.Backs pending)
    (holds : system.heap.Holds (pendingRegion system.device.writeBuffer pending ++ front)) :
    (∃ writeBuffer heap cells pending',
        growWriteBuffer outcome system.device system.heap data.length (appendIndex data) =
          some (writeBuffer, heap) ∧
        BufferGranted outcome data system ∧
        pending'.length = pending.length ∧
        (system.device.writeBuffer ≠ .null → pending' = pending) ∧
        pending' <+: cells ∧ pending'.length + appendIndex data ≤ cells.length ∧
        writeBuffer.Backs cells ∧ heap.limit = system.heap.limit ∧
        heap.Holds (writeBuffer.region cells ++ front)) ∨
      growWriteBuffer outcome system.device system.heap data.length (appendIndex data) =
          some (.null, system.heap) ∧
        ¬BufferGranted outcome data system := by
  have append_le : appendIndex data ≤ data.length := by
    rw [appendIndex_eq]
    exact length_firstLine_le data
  by_cases none : pending = []
  · -- a new line: `kmalloc`
    have size : system.device.writeBufferSize = 0 := by rw [writeBufferSize_eq, none]; rfl
    rw [pendingRegion, if_pos none, List.nil_append] at holds
    simp only [growWriteBuffer, BufferGranted, if_pos size, none]
    rcases holds.malloc outcome.writeBuffer data.length with
      ⟨pointer, heap, cells, result, granted, length, backs', limit, holds'⟩ |
        ⟨result, some', refused⟩
    · left
      refine ⟨pointer, heap, cells, [], congrArg some result, ?_, rfl, fun _ => rfl,
        List.nil_prefix, ?_, backs', limit, holds'⟩
      · exact or_iff_not_imp_left.mpr granted
      · rw [length, List.length_nil, Nat.zero_add]
        exact append_le
    · right
      constructor
      · exact congrArg some result
      · rintro (empty | granted)
        · exact some' empty
        · exact refused granted
  · have positive : pending.length ≠ 0 := fun zero => none (List.eq_nil_of_length_eq_zero zero)
    have size : system.device.writeBufferSize ≠ 0 := writeBufferSize_eq ▸ positive
    have sum : addSize (appendIndex data) system.device.writeBufferSize =
        appendIndex data + pending.length := by
      rw [writeBufferSize_eq]
      exact addSize_eq (by omega)
    rw [pendingRegion, if_neg none] at holds
    simp only [growWriteBuffer, BufferGranted, if_neg size, sum]
    simp only [writeBufferSize_eq]
    cases writeBuffer : system.device.writeBuffer with
    | null =>
        -- `krealloc` of a lost line allocates
        rw [writeBuffer] at holds
        rcases Heap.Holds.malloc holds outcome.writeBuffer
            (appendIndex data + pending.length) with
          ⟨pointer, heap, cells, result, granted, length, backs', limit, holds'⟩ |
            ⟨result, _, refused⟩
        · left
          have enough : pending.length ≤ cells.length := by omega
          refine ⟨pointer, heap, cells, cells.take pending.length, congrArg some result,
            granted (by omega), List.length_take_of_le enough, fun lost => absurd rfl lost,
            List.take_prefix .., ?_, backs', limit, holds'⟩
          rw [List.length_take_of_le enough, length, Nat.add_comm]
        · right
          exact ⟨congrArg some result, refused⟩
    | empty =>
        rw [writeBuffer] at backs
        exact absurd (backs none Pointer.noConfusion) none
    | block id =>
        rw [writeBuffer] at holds
        rcases Heap.Holds.realloc holds outcome.writeBuffer
            (show appendIndex data + pending.length ≠ 0 by omega) (Nat.le_add_left ..) with
          ⟨pointer, heap, cells, result, granted, isPrefix, length, backs', limit, holds'⟩ |
            ⟨result, refused⟩
        · left
          refine ⟨pointer, heap, cells, pending, result, granted, rfl, fun _ => rfl, isPrefix, ?_,
            backs', limit, holds'⟩
          rw [length, Nat.add_comm]
        · right
          exact ⟨result, refused⟩

private theorem map_rtake {α β : Type} (f : α → β) (list : List α) (n : Nat) :
    (list.rtake n).map f = (list.map f).rtake n := by
  simp [List.rtake, List.map_drop]

/-- The window of stored lines after one more line. -/
private theorem rtake_append_entry {buffer : AesdCircularBuffer}
    (wellFormed : buffer.WellFormed) (entriesEq : buffer.entries = stored.map entryOf)
    (region : Region Byte) :
    (stored ++ [region]).rtake aesdcharMaxWriteOperationsSupported =
      (if buffer.full then stored.tail else stored) ++ [region] := by
  have length : stored.length = buffer.entries.length := by rw [entriesEq, List.length_map]
  have bound : stored.length ≤ 10 := length ▸ wellFormed.length_entries_le
  have atTen : buffer.full = true ↔ stored.length = 10 := length ▸ wellFormed.full_iff
  rw [List.rtake, List.length_append, List.length_singleton]
  show List.drop (stored.length + 1 - 10) _ = _
  by_cases full : buffer.full = true
  · have ten := atTen.mp full
    have nonempty : 10 + 1 - 10 ≤ stored.length := by omega
    rw [if_pos full, ten, List.drop_append_of_le_length nonempty, List.drop_one]
  · have room : stored.length < 10 := Nat.lt_of_le_of_ne bound (full ∘ atTen.mpr)
    rw [if_neg full, Nat.sub_eq_zero_of_le room, List.drop_zero]

/-- Committing a line makes its block the newest entry and releases the block of
the entry it displaces. -/
private theorem commitEntry_eq (device : AesdDev) {heap : Heap Byte}
    {front : List (Region Byte)} (wellFormed : device.buffer.WellFormed)
    (entriesEq : device.buffer.entries = stored.map entryOf)
    (holds : heap.Holds (front ++ stored)) :
    ∃ heap', commitEntry device heap = some
        ({ device with
            buffer := aesdCircularBufferAddEntry device.buffer
              ⟨device.writeBuffer, device.writeBufferSize⟩
            buffSize := addSize device.buffSize device.writeBufferSize
            writeBufferSize := 0 }, heap') ∧
      heap'.limit = heap.limit ∧
      heap'.Holds (front ++ if device.buffer.full then stored.tail else stored) := by
  cases full : device.buffer.full with
  | false =>
      refine ⟨heap, ?_, rfl, by simpa using holds⟩
      simp [commitEntry, freeOldestEntry, full]
  | true =>
      have oldest := wellFormed.entries_of_full full
      rw [entriesEq] at oldest
      cases shape : stored with
      | nil =>
          rw [shape] at oldest
          contradiction
      | cons region rest =>
          rw [shape, List.map_cons, List.cons.injEq] at oldest
          rw [shape] at holds
          have moved : heap.Holds ((Pointer.block region.1).region region.2 ++ (front ++ rest)) :=
            holds.perm List.perm_middle
          rcases moved.free with ⟨heap', freed, limit, holds'⟩
          refine ⟨heap', ?_, limit, by simpa using holds'⟩
          have pointer : (device.buffer.slot device.buffer.inOffs).buffptr = .block region.1 := by
            rw [← oldest.1]
            rfl
          simp only [commitEntry, freeOldestEntry, full, if_true, pointer, kfree, freed,
            Option.map_some]
          simp [aesdCircularBufferAddEntry, full]

/-- Copying the consumed data behind the line in progress. -/
private theorem memcpy_consumed {heap : Heap Byte} {writeData writeBuffer : Pointer}
    {data cells pending : List Byte} {front : List (Region Byte)}
    (dataBacks : writeData.Backs data) (isPrefix : pending <+: cells)
    (room : pending.length + appendIndex data ≤ cells.length) (backs : writeBuffer.Backs cells)
    (holds : heap.Holds (writeBuffer.region cells ++ (writeData.region data ++ front))) :
    ∃ heap', memcpy heap writeBuffer pending.length writeData (appendIndex data) = some heap' ∧
      heap'.limit = heap.limit ∧
      heap'.Holds (writeBuffer.region (pending ++ consumed data) ++
        (writeData.region data ++ front)) := by
  have append_le : 0 + appendIndex data ≤ data.length := by
    rw [appendIndex_eq, Nat.zero_add]
    exact length_firstLine_le data
  have source : heap.Holds (writeData.region data ++ (writeBuffer.region cells ++ front)) := by
    apply holds.perm
    rw [← List.append_assoc, ← List.append_assoc]
    exact List.perm_append_comm.append_right front
  have loaded := source.load dataBacks append_le
  rw [List.drop_zero, take_appendIndex] at loaded
  rw [appendIndex_eq] at room
  rcases holds.store backs room with ⟨heap', stored', limit, holds'⟩
  refine ⟨heap', ?_, limit, holds'.weaken ?_⟩
  · rw [memcpy, loaded, Option.bind_some, stored']
  · rw [← List.prefix_iff_eq_take.mp isPrefix, ← List.append_assoc]
    exact List.prefix_append ..

/-- Data without a newline extends the line in progress. -/
private theorem Carries.extend (carries : Carries system committed pending)
    (linesEq : stored.map Prod.snd = lastLines committed)
    (entriesEq : system.device.buffer.entries = stored.map entryOf)
    {heap : Heap Byte} (limit : heap.limit = system.heap.limit) {longer : List Byte}
    (fits : longer.length ≤ system.heap.limit) {writeBuffer : Pointer}
    (backs : writeBuffer.Backs longer)
    (holds : heap.Holds (writeBuffer.region longer ++ stored)) (fPos : FileId → Int) :
    Carries
      { heap := heap
        device := { system.device with
          writeBuffer := writeBuffer
          writeBufferSize := longer.length }
        fPos := fPos } committed longer := by
  refine ⟨limit ▸ carries.limit_lt, carries.wellFormed, carries.filling, carries.nonempty, rfl,
    limit ▸ fits, carries.buffSize_eq, stored, linesEq, entriesEq, fun _ _ => backs, ?_⟩
  rw [pendingRegion]
  split
  · exact holds.tail
  · exact holds

/-- A line completed by a newline enters the circular buffer. -/
private theorem Carries.commit (carries : Carries system committed pending)
    (linesEq : stored.map Prod.snd = lastLines committed)
    (entriesEq : system.device.buffer.entries = stored.map entryOf)
    {heap : Heap Byte} (limit : heap.limit = system.heap.limit) {line : List Byte}
    (nonempty : line ≠ []) {writeBuffer : Pointer} (backs : writeBuffer.Backs line)
    (holds : heap.Holds (writeBuffer.region line ++
      if system.device.buffer.full then stored.tail else stored))
    (fPos : FileId → Int) :
    Carries
      { heap := heap
        device := { system.device with
          writeBuffer := writeBuffer
          buffer := aesdCircularBufferAddEntry system.device.buffer ⟨writeBuffer, line.length⟩
          buffSize := addSize system.device.buffSize line.length
          writeBufferSize := 0 }
        fPos := fPos } (committed ++ [line]) [] := by
  rcases backs.exists_block nonempty with ⟨id, rfl⟩
  have window := rtake_append_entry carries.wellFormed entriesEq (id, line)
  refine ⟨limit ▸ carries.limit_lt, carries.wellFormed.addEntry _,
    carries.filling.addEntry carries.wellFormed _, ?_, rfl, Nat.zero_le _, ?_,
    (if system.device.buffer.full then stored.tail else stored) ++ [(id, line)], ?_, ?_, ?_, ?_⟩
  · intro other member
    rcases List.mem_append.mp member with old | new
    · exact carries.nonempty other old
    · rw [List.mem_singleton.mp new]
      exact nonempty
  · rw [List.flatten_append, List.length_append, addSize, carries.buffSize_eq, Nat.mod_add_mod,
      List.flatten_singleton]
  · rw [← window, map_rtake, List.map_append, linesEq]
    exact Queue.rtake_append_rtake committed line
  · rw [carries.wellFormed.entries_addEntry, entriesEq, ← window, map_rtake, List.map_append]
    rfl
  · intro unfinished
    exact absurd rfl unfinished
  · rw [pendingRegion, if_pos rfl, List.nil_append]
    exact holds.perm List.perm_append_comm

/-- The temporary copy is released once the line in progress has been extended. -/
private theorem Carries.extend_free (carries : Carries system committed pending)
    (linesEq : stored.map Prod.snd = lastLines committed)
    (entriesEq : system.device.buffer.entries = stored.map entryOf)
    {heap : Heap Byte} (limit : heap.limit = system.heap.limit) {longer data : List Byte}
    {writeBuffer writeData : Pointer} (backs : writeBuffer.Backs longer)
    (holds : heap.Holds (writeBuffer.region longer ++ (writeData.region data ++ stored))) :
    ∃ heap', heap.free writeData = some heap' ∧ heap'.limit = system.heap.limit ∧
      ∀ fPos, Carries
        { heap := heap'
          device := { system.device with
            writeBuffer := writeBuffer
            writeBufferSize := longer.length }
          fPos := fPos } committed longer := by
  have fits : longer.length ≤ system.heap.limit := by
    rw [← limit]
    exact holds.length_le_of_backs backs
  have freeable : heap.Holds (writeData.region data ++ (writeBuffer.region longer ++ stored)) := by
    apply holds.perm
    rw [← List.append_assoc, ← List.append_assoc]
    exact List.perm_append_comm.append_right stored
  rcases freeable.free with ⟨heap', freed, limit', holds'⟩
  exact ⟨heap', freed, limit'.trans limit,
    carries.extend linesEq entriesEq (limit'.trans limit) fits backs holds'⟩

/-- The temporary copy is released once the line has been committed. -/
private theorem Carries.commit_free (carries : Carries system committed pending)
    (linesEq : stored.map Prod.snd = lastLines committed)
    (entriesEq : system.device.buffer.entries = stored.map entryOf)
    {heap : Heap Byte} (limit : heap.limit = system.heap.limit) {line data : List Byte}
    (nonempty : line ≠ []) {writeBuffer writeData : Pointer} (backs : writeBuffer.Backs line)
    (holds : heap.Holds (writeBuffer.region line ++ (writeData.region data ++ stored))) :
    ∃ heap' heap'' device', commitEntry { system.device with
            writeBuffer := writeBuffer
            writeBufferSize := line.length } heap = some (device', heap') ∧
      heap'.free writeData = some heap'' ∧ heap''.limit = system.heap.limit ∧
      device'.writeBuffer = writeBuffer ∧
      ∀ fPos, Carries { heap := heap'', device := device', fPos := fPos } (committed ++ [line])
        [] := by
  rw [← List.append_assoc] at holds
  rcases commitEntry_eq
      { system.device with writeBuffer := writeBuffer, writeBufferSize := line.length }
      carries.wellFormed entriesEq holds with ⟨heap', committed', limit', holds'⟩
  have freeable : heap'.Holds (writeData.region data ++ (writeBuffer.region line ++
      if system.device.buffer.full then stored.tail else stored)) := by
    apply holds'.perm
    rw [← List.append_assoc]
    exact List.perm_append_comm.append_right _
  rcases freeable.free with ⟨heap'', freed, limit'', holds''⟩
  have limits : heap''.limit = system.heap.limit := (limit''.trans limit').trans limit
  exact ⟨heap', heap'', _, committed', freed, limits, rfl,
    carries.commit linesEq entriesEq limits nonempty backs holds''⟩

/-- Under the mutex a write consumes its data, or is refused its write buffer.
The heap holds the temporary copy besides what the state owns. -/
private theorem aesdWriteLocked_cases (carries : Carries system committed pending)
    (owns : Owns system.heap system.device committed pending stored) (outcome : WriteOutcome)
    (file : FileId) {writeData : Pointer} {data : List Byte} {heap : Heap Byte}
    (fits : data.length ≤ system.heap.limit) (dataBacks : writeData.Backs data)
    (limit : heap.limit = system.heap.limit)
    (holds : heap.Holds (writeData.region data ++
      (pendingRegion system.device.writeBuffer pending ++ stored))) :
    (∃ system' pending', aesdWriteLocked outcome file writeData data.length
            { system with heap := heap } = some (((consumed data).length : Int), system') ∧
        BufferGranted outcome data system ∧
        system'.fPos = Function.update system.fPos file
          (system.fPos file + (consumed data).length) ∧
        system'.heap.limit = system.heap.limit ∧ system'.device.writeBuffer ≠ .null ∧
        pending'.length = pending.length ∧
        (system.device.writeBuffer ≠ .null → pending' = pending) ∧
        Carries system' (appendData committed pending' data).1
          (appendData committed pending' data).2) ∨
      ∃ heap', aesdWriteLocked outcome file writeData data.length { system with heap := heap } =
          some (-enomem, { system with
            heap := heap', device := { system.device with writeBuffer := .null } }) ∧
        ¬BufferGranted outcome data system ∧ heap'.limit = system.heap.limit ∧
        heap'.Holds (pendingRegion system.device.writeBuffer pending ++ stored) := by
  rcases owns with ⟨linesEq, entriesEq, backs, _⟩
  have limit_lt : heap.limit < 2 ^ 32 := limit ▸ carries.limit_lt
  have loaded := holds.load dataBacks (show 0 + data.length ≤ _ by rw [Nat.zero_add])
  rw [List.drop_zero, List.take_length] at loaded
  have holds₀ : heap.Holds (pendingRegion system.device.writeBuffer pending ++
      (writeData.region data ++ stored)) := by
    apply holds.perm
    rw [← List.append_assoc, ← List.append_assoc]
    exact List.perm_append_comm.append_right stored
  have sameLimit : BufferGranted outcome data { system with heap := heap } ↔
      BufferGranted outcome data system := by
    simp only [BufferGranted, limit]
  simp only [aesdWriteLocked, loaded, Option.bind_eq_bind, Option.bind_some]
  rcases growWriteBuffer_cases { system with heap := heap } outcome limit_lt (limit ▸ fits)
      (limit ▸ carries.length_pending_le) carries.writeBufferSize_eq backs holds₀ with
    ⟨writeBuffer, heap₁, cells, pending', grown, granted, length, same, isPrefix, room, backs₁,
      limit₁, holds₁⟩ | ⟨refused, notGranted⟩
  · left
    rcases memcpy_consumed dataBacks isPrefix room backs₁ holds₁ with
      ⟨heap₂, copied, limit₂, holds₂⟩
    have limit₂' : heap₂.limit = system.heap.limit := (limit₂.trans limit₁).trans limit
    have room' : (pending' ++ consumed data).length ≤ cells.length := by
      rw [List.length_append, ← appendIndex_eq]
      exact room
    have size : addSize system.device.writeBufferSize (appendIndex data) =
        (pending' ++ consumed data).length := by
      have pending_le := carries.length_pending_le
      have small := carries.limit_lt
      have append_le : (consumed data).length ≤ data.length := length_firstLine_le data
      rw [carries.writeBufferSize_eq, List.length_append, length, ← appendIndex_eq]
      rw [← appendIndex_eq] at append_le
      exact addSize_eq (by omega)
    rw [length, ← carries.writeBufferSize_eq] at copied
    simp only [grown, Option.bind_some, if_neg backs₁.ne_null, copied, size]
    have lineBacks := backs₁.of_length_le room'
    by_cases present : newline ∈ data
    · have nonempty : pending' ++ consumed data ≠ [] := by
        have some' : 0 < (consumed data).length := length_firstLine_pos (List.ne_nil_of_mem present)
        exact List.append_ne_nil_of_right_ne_nil _ (List.ne_nil_of_length_pos some')
      rcases carries.commit_free linesEq entriesEq limit₂' nonempty lineBacks holds₂ with
        ⟨heap₃, heap₄, device', committed', freed, limit₄, pointer, carries'⟩
      simp only [if_pos present, committed', kfree, freed, Option.bind_some, appendIndex_eq]
      refine ⟨_, pending', rfl, sameLimit.mp granted, rfl, limit₄, ?_, length, same, ?_⟩
      · exact pointer ▸ backs₁.ne_null
      · rw [appendData, if_pos present]
        exact carries' _
    · rcases carries.extend_free linesEq entriesEq limit₂' lineBacks holds₂ with
        ⟨heap₃, freed, limit₃, carries'⟩
      simp only [if_neg present, kfree, freed, Option.bind_some, appendIndex_eq]
      refine ⟨_, pending', rfl, sameLimit.mp granted, rfl, limit₃, backs₁.ne_null, length, same,
        ?_⟩
      rw [appendData, if_neg present]
      exact carries' _
  · right
    rcases holds.free with ⟨heap', freed, limit', holds'⟩
    refine ⟨heap', ?_, fun granted => notGranted (sameLimit.mpr granted), limit'.trans limit,
      holds'⟩
    simp only [refused, Option.bind_some, if_true, kfree, freed]

end Locked

/-! ## The whole call -/

/-- The three things a write can do to what a state carries. -/
inductive WriteResult (system : System) (committed : List (List Byte)) (pending : List Byte)
    (call : WriteCall) : Int → System → Prop
  | consumes (file : FileId) (pending' : List Byte) {system' : System}
      (granted : call.Granted system) (filp : call.filp = some file)
      (advanced : system'.fPos = Function.update system.fPos file
        (system.fPos file + (consumed call.data).length))
      (limit : system'.heap.limit = system.heap.limit)
      (kept : system'.device.writeBuffer ≠ .null)
      (length : pending'.length = pending.length)
      (same : system.device.writeBuffer ≠ .null → pending' = pending)
      (carries : Carries system' (appendData committed pending' call.data).1
        (appendData committed pending' call.data).2) :
      WriteResult system committed pending call ((consumed call.data).length : Int) system'
  | fails {ret : Int} {system' : System}
      (notGranted : ¬call.Granted system) (notRefused : ¬call.GrowthRefused system)
      (negative : ret < 0) (unmoved : system'.fPos = system.fPos)
      (limit : system'.heap.limit = system.heap.limit)
      (kept : pending ≠ [] → system'.device.writeBuffer = system.device.writeBuffer)
      (carries : Carries system' committed pending) :
      WriteResult system committed pending call ret system'
  | loses {system' : System}
      (refused : call.GrowthRefused system) (unmoved : system'.fPos = system.fPos)
      (limit : system'.heap.limit = system.heap.limit)
      (device : system'.device = { system.device with writeBuffer := .null })
      (carries : Carries system' committed pending) :
      WriteResult system committed pending call (-enomem) system'

section

variable {system : System} {committed : List (List Byte)} {pending : List Byte}
  {stored : List (Region Byte)}

/-- Blocks that nothing carried refers to may come and go. -/
private theorem Carries.of_holds (carries : Carries system committed pending)
    (owns : Owns system.heap system.device committed pending stored) {heap : Heap Byte}
    (limit : heap.limit = system.heap.limit)
    (holds : heap.Holds (pendingRegion system.device.writeBuffer pending ++ stored)) :
    Carries { system with heap := heap } committed pending :=
  ⟨limit ▸ carries.limit_lt, carries.wellFormed, carries.filling, carries.nonempty,
    carries.writeBufferSize_eq, limit ▸ carries.length_pending_le, carries.buffSize_eq,
    stored, owns.1, owns.2.1, owns.2.2.1, holds⟩

/-- The write buffer may be dropped, with its line in progress if there is one. -/
private theorem Carries.of_dropped (carries : Carries system committed pending)
    (owns : Owns system.heap system.device committed pending stored) {heap : Heap Byte}
    (limit : heap.limit = system.heap.limit)
    (holds : heap.Holds (pendingRegion system.device.writeBuffer pending ++ stored)) :
    Carries
      { system with heap := heap, device := { system.device with writeBuffer := .null } }
      committed pending := by
  have nothing : pendingRegion .null pending = [] := by
    unfold pendingRegion
    split <;> rfl
  refine ⟨limit ▸ carries.limit_lt, carries.wellFormed, carries.filling, carries.nonempty,
    carries.writeBufferSize_eq, limit ▸ carries.length_pending_le, carries.buffSize_eq,
    stored, owns.1, owns.2.1, fun _ lost => absurd rfl lost, ?_⟩
  rw [nothing, List.nil_append]
  exact holds.tail

/-- Every write returns, whatever has failed before, with one of the three
results. -/
theorem Carries.write (carries : Carries system committed pending) (call : WriteCall) :
    ∃ ret system', call.run system = some (ret, system') ∧
      WriteResult system committed pending call ret system' := by
  rcases carries.owns with ⟨stored, owns⟩
  rcases call with ⟨outcome, filp, buf⟩
  cases filp with
  | none =>
      exact ⟨-einval, system, rfl, .fails (fun granted => absurd granted.1 (by simp))
        (fun refused => absurd refused.1 (by simp)) (by decide) rfl rfl (fun _ => rfl) carries⟩
  | some file =>
  cases buf with
  | none =>
      exact ⟨-einval, system, rfl, .fails (fun granted => absurd granted.2.1 (by simp))
        (fun refused => absurd refused.2.1 (by simp)) (by decide) rfl rfl (fun _ => rfl) carries⟩
  | some data =>
  simp only [WriteCall.run, aesdWrite]
  rcases owns.2.2.2.malloc outcome.writeData data.length with
    ⟨writeData, heap₁, cells, made, dataGranted, length, backs, limit₁, holds₁⟩ |
      ⟨refused, nonempty, notGranted⟩
  · have fits : data.length ≤ system.heap.limit := by
      by_cases empty : data.length = 0
      · rw [empty]
        exact Nat.zero_le _
      · exact (dataGranted empty).2
    simp only [made, if_neg backs.ne_null]
    cases copy : copyFails outcome.copyFromUser data.length with
    | true =>
        rcases holds₁.free with ⟨heap₂, freed, limit₂, holds₂⟩
        refine ⟨-efault, { system with heap := heap₂ }, ?_, .fails ?_ ?_ (by decide) rfl
          (limit₂.trans limit₁) (fun _ => rfl) (carries.of_holds owns (limit₂.trans limit₁) holds₂)⟩
        · simp only [if_true, kfree, freed, Option.map_some]
        · intro granted
          exact absurd granted.2.2.1.2.1 (by simp [WriteCall.data, copy])
        · intro refused
          exact absurd refused.2.2.1.2.1 (by simp [WriteCall.data, copy])
    | false =>
        rcases holds₁.store backs
            (show 0 + data.length ≤ cells.length by rw [length, Nat.zero_add]) with
          ⟨heap₂, copied, limit₂, holds₂⟩
        rw [List.take_zero, List.nil_append, Nat.zero_add, ← length, List.drop_length,
          List.append_nil] at holds₂
        have limit₂' := limit₂.trans limit₁
        simp only [Bool.false_eq_true, if_false, copied, Option.bind_some]
        cases lock : outcome.lock with
        | false =>
            refine ⟨-erestartsys, { system with heap := heap₂ }, ?_, .fails ?_ ?_ (by decide) rfl
              limit₂' (fun _ => rfl) (carries.of_holds owns limit₂' holds₂.tail)⟩
            · simp
            · intro granted
              exact absurd granted.2.2.1.2.2 (by simp [lock])
            · intro refused
              exact absurd refused.2.2.1.2.2 (by simp [lock])
        | true =>
            have reaches : ReachesBuffer outcome data system :=
              ⟨or_iff_not_imp_left.mpr dataGranted, copy, lock⟩
            rcases aesdWriteLocked_cases carries owns outcome file fits
                (backs.of_length_le (Nat.le_of_eq length.symm)) limit₂' holds₂ with
              ⟨system', pending', result, granted, advanced, limit', kept, sameLength, same,
                carries'⟩ | ⟨heap₃, result, refused, limit₃, holds₃⟩
            · exact ⟨((consumed data).length : Int), system', by simpa using result,
                .consumes file pending' ⟨rfl, rfl, reaches, granted⟩ rfl advanced limit' kept
                  sameLength same carries'⟩
            · refine ⟨_, _, by simpa using result, ?_⟩
              by_cases idle : system.device.writeBufferSize = 0
              · have none : pending = [] := by
                  apply List.eq_nil_of_length_eq_zero
                  rw [← carries.writeBufferSize_eq]
                  exact idle
                exact .fails (fun granted => refused granted.2.2.2)
                  (fun growth => growth.2.2.2.1 idle) (by decide) rfl limit₃
                  (fun some' => absurd none some') (carries.of_dropped owns limit₃ holds₃)
              · exact .loses ⟨rfl, rfl, reaches, idle, refused⟩ rfl limit₃ rfl
                  (carries.of_dropped owns limit₃ holds₃)
  · rw [refused, if_pos rfl]
    have notReached : ¬ReachesBuffer outcome data system := by
      rintro ⟨empty | granted, _⟩
      · exact nonempty empty
      · exact notGranted granted
    exact ⟨-enomem, system, rfl, .fails (fun granted => notReached granted.2.2.1)
      (fun growth => notReached growth.2.2.1) (by decide) rfl rfl (fun _ => rfl) carries⟩

/-- A write adds the line it commits to what is carried. -/
theorem WriteResult.commits {call : WriteCall} {ret : Int} {system' : System}
    (result : WriteResult system committed pending call ret system')
    (carries : Carries system committed pending) :
    ∃ pending', Carries system' (committed ++ system.committedLine system') pending' := by
  have nothing {pending' : List Byte} (carries' : Carries system' committed pending') :
      Carries system' (committed ++ system.committedLine system') pending' := by
    rwa [carries.committedLine_nil carries', List.append_nil]
  cases result with
  | consumes file pending' granted filp advanced limit kept length same carries' =>
      by_cases present : newline ∈ call.data
      · rw [appendData, if_pos present] at carries'
        refine ⟨[], ?_⟩
        rwa [carries.committedLine_concat carries']
      · rw [appendData, if_neg present] at carries'
        exact ⟨_, nothing carries'⟩
  | fails notGranted notRefused negative unmoved limit kept carries' => exact ⟨_, nothing carries'⟩
  | loses refused unmoved limit device carries' => exact ⟨_, nothing carries'⟩

/-- A write leaves the positions of other files alone. -/
theorem WriteResult.fPos_of_ne {call : WriteCall} {ret : Int} {system' : System}
    (result : WriteResult system committed pending call ret system') {file : FileId}
    (other : call.filp ≠ some file) : system'.fPos file = system.fPos file := by
  cases result with
  | consumes file' pending' granted filp advanced limit kept length same carries' =>
      have different : file ≠ file' := fun eq => other (eq ▸ filp)
      rw [advanced, Function.update_of_ne different]
  | fails notGranted notRefused negative unmoved limit kept carries' => rw [unmoved]
  | loses refused unmoved limit device carries' => rw [unmoved]

end

/-! ## The word that has been accepted -/

/-- The three things a write of a represented state can do. -/
inductive WriteEffect (system : System) (history : List Byte) (call : WriteCall) :
    Int → System → Prop
  | consumes (file : FileId) {system' : System}
      (granted : call.Granted system) (filp : call.filp = some file)
      (advanced : system'.fPos = Function.update system.fPos file
        (system.fPos file + (consumed call.data).length))
      (limit : system'.heap.limit = system.heap.limit)
      (represents : Represents system' (history ++ consumed call.data)) :
      WriteEffect system history call ((consumed call.data).length : Int) system'
  | fails {ret : Int} {system' : System}
      (notGranted : ¬call.Granted system) (kept : ¬call.GrowthRefused system)
      (negative : ret < 0) (unmoved : system'.fPos = system.fPos)
      (limit : system'.heap.limit = system.heap.limit)
      (represents : Represents system' history) :
      WriteEffect system history call ret system'
  | loses {system' : System}
      (refused : call.GrowthRefused system) (unmoved : system'.fPos = system.fPos)
      (limit : system'.heap.limit = system.heap.limit)
      (device : system'.device = { system.device with writeBuffer := .null }) :
      WriteEffect system history call (-enomem) system'

/-- Appending data to the line in progress is accepting what is consumed of it. -/
theorem appendData_eq (history data : List Byte) :
    appendData (committedLines history) (pendingLine history) data =
      (committedLines (history ++ consumed data), pendingLine (history ++ consumed data)) := by
  by_cases present : newline ∈ data
  · rcases committedLines_append_line history List.not_mem_nil present with ⟨committed, pending⟩
    rw [List.nil_append] at committed pending
    rw [appendData, if_pos present, committed, pending, List.append_nil]
  · rcases lines_append_of_not_mem history present with ⟨committed, pending⟩
    rw [appendData, if_neg present, consumed, firstLine_of_not_mem present]
    exact Prod.ext committed.symm pending.symm

/-- Every write of a represented state returns with one of the three effects. -/
theorem Represents.write {system : System} {history : List Byte}
    (represents : Represents system history) (call : WriteCall) :
    ∃ ret system', call.run system = some (ret, system') ∧
      WriteEffect system history call ret system' := by
  rcases represents.toCarries.write call with ⟨ret, system', result, effect⟩
  refine ⟨ret, system', result, ?_⟩
  cases effect with
  | consumes file pending' granted filp advanced limit kept length same carries =>
      have samePending : pending' = pendingLine history := by
        by_cases none : pendingLine history = []
        · rw [none, List.length_nil] at length
          rw [none]
          exact List.eq_nil_of_length_eq_zero length
        · exact same (represents.kept none)
      rw [samePending, appendData_eq] at carries
      exact .consumes file granted filp advanced limit ⟨carries, fun _ => kept⟩
  | fails notGranted notRefused negative unmoved limit kept carries =>
      refine .fails notGranted notRefused negative unmoved limit ⟨carries, fun some' => ?_⟩
      rw [kept some']
      exact represents.kept some'
  | loses refused unmoved limit device carries => exact .loses refused unmoved limit device

end Aesd.Driver
