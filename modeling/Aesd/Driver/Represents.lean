import Aesd.Driver.Carries

/-!
# What a device state stands for

A device state represents the word of all bytes it has accepted: the entries of
the circular buffer are the stored lines of that word, the write buffer holds
its incomplete line, and the blocks behind them are distinct and live.  The
cached total counts every line ever committed, stored or not.
-/

namespace Aesd.Driver

open Aesd.Memory Aesd.Word

/-- The complete lines of an accepted word. -/
abbrev committedLines (history : List Byte) : List (List Byte) :=
  lines newline history

/-- The last ten complete lines of an accepted word. -/
abbrev storedLines (history : List Byte) : List (List Byte) :=
  LineStore.stored aesdcharMaxWriteOperationsSupported newline history

/-- The incomplete line of an accepted word. -/
abbrev pendingLine (history : List Byte) : List Byte :=
  remainder newline history

/-- What one write consumes of its data. -/
abbrev consumed (data : List Byte) : List Byte :=
  firstLine newline data

/-- A line is committed behind what was pending. -/
theorem committedLines_append_line (history : List Byte) {front data : List Byte}
    (absent : newline ∉ front) (present : newline ∈ data) :
    committedLines (history ++ (front ++ consumed data)) =
        committedLines history ++ [pendingLine history ++ front ++ consumed data] ∧
      pendingLine (history ++ (front ++ consumed data)) = [] := by
  rcases firstLine_cases newline data with ⟨none, _⟩ | ⟨body, rest, clean, _, line⟩
  · exact absurd present none
  · have body' : newline ∉ front ++ body := by simp [absent, clean]
    rcases lines_append_line history body' with ⟨committed, pending⟩
    rw [consumed, line, ← List.append_assoc front, List.append_assoc _ front,
      ← List.append_assoc front]
    exact ⟨committed, pending⟩

/-! ## The representation -/

/-- The device carries the lines of the word, and its line in progress is not
lost. -/
structure Represents (system : System) (history : List Byte) : Prop
    extends Carries system (committedLines history) (pendingLine history) where
  kept : pendingLine history ≠ [] → system.device.writeBuffer ≠ .null

/-- A freshly loaded module has accepted nothing. -/
theorem represents_init (kmallocMaxSize : KmallocMaxSize) :
    Represents (aesdInitModule kmallocMaxSize) [] where
  toCarries := carries_init kmallocMaxSize
  kept pending := absurd rfl pending

section Observations

variable {system : System} {history : List Byte}

/-- The file positions are not part of what is represented. -/
theorem Represents.congr_fPos (represents : Represents system history) (fPos : FileId → Int) :
    Represents { system with fPos := fPos } history :=
  ⟨represents.toCarries.congr_fPos fPos, represents.kept⟩

/-- The stored entries read back as the stored lines. -/
theorem Represents.entriesBytes (represents : Represents system history) :
    system.entriesBytes = some (storedLines history) :=
  represents.toCarries.entriesBytes

/-- The write buffer reads back as the incomplete line. -/
theorem Represents.pendingBytes (represents : Represents system history) :
    system.pendingBytes = some (pendingLine history) :=
  represents.toCarries.pendingBytes represents.kept

theorem Represents.length_entries (represents : Represents system history) :
    system.device.buffer.entries.length = (storedLines history).length :=
  represents.toCarries.length_entries

theorem Represents.sizes_eq (represents : Represents system history) :
    system.device.buffer.entries.map AesdBufferEntry.size =
      (storedLines history).map List.length :=
  represents.toCarries.sizes_eq

/-- The flag tells that ten lines have been committed. -/
theorem Represents.full_iff (represents : Represents system history) :
    system.device.buffer.full = true ↔
      aesdcharMaxWriteOperationsSupported ≤ history.count newline := by
  rw [represents.wellFormed.full_iff, represents.length_entries, LineStore.length_stored]
  show min _ 10 = 10 ↔ 10 ≤ _
  omega

theorem Represents.length_stored_lt (represents : Represents system history) :
    ∀ line ∈ storedLines history, line.length < 2 ^ 32 :=
  represents.toCarries.length_lastLines_lt

end Observations

end Aesd.Driver
