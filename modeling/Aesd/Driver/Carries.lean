import Aesd.Driver.BufferRing
import Aesd.Driver.Device
import Aesd.Memory.Ownership
import Aesd.Word.LineStore

/-!
# What a device state carries

Whatever has failed before, a device state carries the last ten of the lines
ever committed, each in a block of its own, and a number of bytes of a line in
progress.  These are in one more block, unless `krealloc` has refused to enlarge
it: then the pointer to it is lost, and the next line starts with junk of the
same length.
-/

namespace Aesd.Driver

open Aesd.Memory Aesd.Word

/-- The lines that fit the circular buffer. -/
abbrev lastLines (committed : List (List Byte)) : List (List Byte) :=
  committed.rtake aesdcharMaxWriteOperationsSupported

/-- The lines that newer ones have displaced. -/
abbrev displacedLines (committed : List (List Byte)) : List (List Byte) :=
  committed.rdrop aesdcharMaxWriteOperationsSupported

/-! ## Observations of a device state -/

namespace System

/-- The bytes an entry points to. -/
def entryBytes (system : System) (entry : AesdBufferEntry) : Option (List Byte) :=
  system.heap.load entry.buffptr 0 entry.size

/-- The bytes of the stored entries, walked from the read index. -/
def entriesBytes (system : System) : Option (List (List Byte)) :=
  system.device.buffer.entries.mapM system.entryBytes

/-- The first `write_buffer_size` bytes of the write buffer. -/
def pendingBytes (system : System) : Option (List Byte) :=
  system.heap.load system.device.writeBuffer 0 system.device.writeBufferSize

/-- The line that a call commits: the newest entry, when the cached total has
changed. -/
def committedLine (system system' : System) : List (List Byte) :=
  if system'.device.buffSize = system.device.buffSize then []
  else ((system'.entriesBytes.getD []).getLast?).toList

end System

/-! ## Blocks behind a device state -/

/-- The entry of a line that occupies the start of a block. -/
def entryOf (region : Region Byte) : AesdBufferEntry :=
  ⟨.block region.1, region.2.length⟩

/-- The region behind a line in progress; an empty one has none, whatever the
write buffer still points to. -/
def pendingRegion (writeBuffer : Pointer) (pending : List Byte) : List (Region Byte) :=
  if pending = [] then [] else writeBuffer.region pending

/-- The stored entries are the last lines, each at the start of a block of its
own, and a write buffer that is not lost holds the line in progress. -/
def Owns (heap : Heap Byte) (device : AesdDev) (committed : List (List Byte))
    (pending : List Byte) (stored : List (Region Byte)) : Prop :=
  stored.map Prod.snd = lastLines committed ∧
    device.buffer.entries = stored.map entryOf ∧
    (pending ≠ [] → device.writeBuffer ≠ .null → device.writeBuffer.Backs pending) ∧
    heap.Holds (pendingRegion device.writeBuffer pending ++ stored)

/-- Of the bytes in progress only the number is meaningful once the write buffer
is lost. -/
structure Carries (system : System) (committed : List (List Byte)) (pending : List Byte) :
    Prop where
  limit_lt : system.heap.limit < 2 ^ 32
  wellFormed : system.device.buffer.WellFormed
  filling : system.device.buffer.Filling
  nonempty : ∀ line ∈ committed, line ≠ []
  writeBufferSize_eq : system.device.writeBufferSize = pending.length
  length_pending_le : pending.length ≤ system.heap.limit
  buffSize_eq : system.device.buffSize = committed.flatten.length % 2 ^ 64
  owns : ∃ stored, Owns system.heap system.device committed pending stored

/-- A freshly loaded module carries nothing. -/
theorem carries_init (kmallocMaxSize : KmallocMaxSize) :
    Carries (aesdInitModule kmallocMaxSize) [] [] where
  limit_lt := kmallocMaxSize.2
  wellFormed := AesdCircularBuffer.wellFormed_init
  filling := AesdCircularBuffer.filling_init
  nonempty _ member := absurd member List.not_mem_nil
  writeBufferSize_eq := rfl
  length_pending_le := Nat.zero_le _
  buffSize_eq := rfl
  owns := ⟨[], rfl, AesdCircularBuffer.entries_init, fun pending => absurd rfl pending,
    Heap.holds_nil _⟩

/-- The bytes of a stored line can be read. -/
theorem load_stored {heap : Heap Byte} {front stored : List (Region Byte)}
    (holds : heap.Holds (front ++ stored)) {region : Region Byte} (member : region ∈ stored)
    {offset size : Nat} (inside : offset + size ≤ region.2.length) :
    heap.load (entryOf region).buffptr offset size = some ((region.2.drop offset).take size) := by
  rcases List.append_of_mem member with ⟨before, after, rfl⟩
  have front' : heap.Holds ((Pointer.block region.1).region region.2 ++
      (front ++ before ++ after)) := by
    apply holds.perm
    rw [← List.append_assoc]
    exact List.perm_middle
  exact front'.load trivial inside

private theorem mapM_load {heap : Heap Byte} {stored : List (Region Byte)}
    (loads : ∀ region ∈ stored, heap.load (entryOf region).buffptr 0 (entryOf region).size =
      some region.2) :
    (stored.map entryOf).mapM (fun entry => heap.load entry.buffptr 0 entry.size) =
      some (stored.map Prod.snd) := by
  induction stored with
  | nil => rfl
  | cons region rest ih =>
      have here := loads region List.mem_cons_self
      have later := ih fun other member => loads other (List.mem_cons_of_mem _ member)
      simp [List.mapM_cons, here, later]

namespace Carries

variable {system system' : System} {committed added : List (List Byte)}
  {pending pending' : List Byte}

/-- The file positions are not part of what is carried. -/
theorem congr_fPos (carries : Carries system committed pending) (fPos : FileId → Int) :
    Carries { system with fPos := fPos } committed pending :=
  ⟨carries.limit_lt, carries.wellFormed, carries.filling, carries.nonempty,
    carries.writeBufferSize_eq, carries.length_pending_le, carries.buffSize_eq, carries.owns⟩

/-- The stored entries read back as the last lines. -/
theorem entriesBytes (carries : Carries system committed pending) :
    system.entriesBytes = some (lastLines committed) := by
  rcases carries.owns with ⟨stored, linesEq, entriesEq, _, holds⟩
  rw [System.entriesBytes, entriesEq, ← linesEq]
  apply mapM_load
  intro region member
  have loaded := load_stored holds member (show 0 + region.2.length ≤ _ by rw [Nat.zero_add])
  rwa [List.drop_zero, List.take_length] at loaded

/-- A write buffer that is not lost reads back as the line in progress. -/
theorem pendingBytes (carries : Carries system committed pending)
    (kept : pending ≠ [] → system.device.writeBuffer ≠ .null) :
    system.pendingBytes = some pending := by
  rcases carries.owns with ⟨stored, _, _, backs, holds⟩
  rw [System.pendingBytes, carries.writeBufferSize_eq]
  by_cases none : pending = []
  · rw [none]
    simp [Heap.load]
  · rw [pendingRegion, if_neg none] at holds
    have loaded := holds.load (backs none (kept none))
      (show 0 + pending.length ≤ _ by rw [Nat.zero_add])
    rwa [List.drop_zero, List.take_length] at loaded

theorem length_entries (carries : Carries system committed pending) :
    system.device.buffer.entries.length = (lastLines committed).length := by
  rcases carries.owns with ⟨stored, linesEq, entriesEq, _⟩
  rw [entriesEq, ← linesEq, List.length_map, List.length_map]

theorem sizes_eq (carries : Carries system committed pending) :
    system.device.buffer.entries.map AesdBufferEntry.size =
      (lastLines committed).map List.length := by
  rcases carries.owns with ⟨stored, linesEq, entriesEq, _⟩
  rw [entriesEq, ← linesEq, List.map_map, List.map_map]
  rfl

theorem length_lastLines_lt (carries : Carries system committed pending) :
    ∀ line ∈ lastLines committed, line.length < 2 ^ 32 := by
  intro line member
  rcases carries.owns with ⟨stored, linesEq, _, _, holds⟩
  rw [← linesEq] at member
  rcases List.mem_map.mp member with ⟨region, inside, rfl⟩
  exact Nat.lt_of_le_of_lt (holds.tail.length_le inside) carries.limit_lt

/-- Nothing is committed as long as the cached total stays. -/
theorem committedLine_nil (carries : Carries system committed pending)
    (carries' : Carries system' committed pending') : system.committedLine system' = [] := by
  apply if_pos
  rw [carries.buffSize_eq, carries'.buffSize_eq]

/-- A line that has been added is the newest entry. -/
theorem committedLine_concat (carries : Carries system committed pending) {line : List Byte}
    (carries' : Carries system' (committed ++ [line]) pending') :
    system.committedLine system' = [line] := by
  have stored : lastLines (committed ++ [line]) = committed.rtake 9 ++ [line] :=
    List.rtake_concat_succ ..
  have member : line ∈ lastLines (committed ++ [line]) := by
    rw [stored]
    exact List.mem_append_right _ List.mem_cons_self
  have short := carries'.length_lastLines_lt line member
  have positive : 0 < line.length :=
    List.length_pos_of_ne_nil (carries'.nonempty line (List.mem_append_right _ List.mem_cons_self))
  have changed : system'.device.buffSize ≠ system.device.buffSize := by
    rw [carries.buffSize_eq, carries'.buffSize_eq, List.flatten_append, List.length_append,
      List.flatten_singleton]
    omega
  rw [System.committedLine, if_neg changed, carries'.entriesBytes, Option.getD_some, stored,
    List.getLast?_concat]
  rfl

end Carries

end Aesd.Driver
