import Aesd.Driver.Operation

/-!
# The size that seeking uses

`aesd_llseek` seeks against the cached `buff_size`.  Commits add to it and
evictions do not subtract from it, so it counts every byte ever committed.  It is
the size that reading sees exactly while the evicted bytes do not show in a
`size_t`, which is to say that none have been evicted.
-/

namespace Aesd.Driver

open Aesd.Memory Aesd.Transition Aesd.Word

/-- The bytes in lines that the device has displaced. -/
abbrev evictedBytes (history : List Byte) : List Byte :=
  (LineStore.evicted aesdcharMaxWriteOperationsSupported newline history).flatten

/-- Seeking and reading agree on a size: the cached size is the size of the
stored entries, a reader from position zero obtains `size` bytes, seeks succeed
up to there, and only there a read delivers nothing. -/
structure SizesAgree (system : System) (size : Nat) : Prop where
  cached : system.device.buffSize = (system.device.buffer.entries.map AesdBufferEntry.size).sum
  obtained : ∀ file count, 0 < count → ∃ fuel bytes system',
    readToEnd file count fuel (aesdOpen file system) = some (bytes, system') ∧
      bytes.length = size
  accepts : ∀ file position, 0 ≤ (aesdLlseek true file position .seekSet system).1 ↔
    0 ≤ position ∧ position ≤ size
  ends : ∀ file, (aesdLlseek true file 0 .seekEnd system).1 = size
  reads : ∀ file position count, 0 ≤ (aesdLlseek true file position .seekSet system).1 →
    0 < count → ∃ ret bytes system',
      aesdRead .success (some file) true count
          (aesdLlseek true file position .seekSet system).2 = some (ret, bytes, system') ∧
        (ret = 0 ↔ position = size)

section

variable {system : System} {history : List Byte}

/-- The committed lines are the evicted ones and the stored content. -/
theorem length_committedLines (history : List Byte) :
    (committedLines history).flatten.length =
      (evictedBytes history).length + (storedContent history).length := by
  have split : LineStore.evicted aesdcharMaxWriteOperationsSupported newline history ++
      storedLines history = committedLines history := LineStore.evicted_append_stored history
  rw [← split, List.flatten_append, List.length_append]
  rfl

theorem Represents.buffSize_eq_add (represents : Represents system history) :
    system.device.buffSize =
      ((evictedBytes history).length + (storedContent history).length) % 2 ^ 64 := by
  rw [represents.buffSize_eq, length_committedLines]

theorem Represents.sum_sizes (represents : Represents system history) :
    (system.device.buffer.entries.map AesdBufferEntry.size).sum =
      (storedContent history).length := by
  rw [represents.sizes_eq, sum_map_length]
  rfl

/-- The cached size is right exactly when the evicted bytes do not show in it. -/
theorem Represents.buffSize_eq_iff (represents : Represents system history) :
    system.device.buffSize = (storedContent history).length ↔
      2 ^ 64 ∣ (evictedBytes history).length := by
  have bound := represents.length_content_lt
  rw [represents.buffSize_eq_add]
  omega

/-- A seek from the start against a cached size that fits a `loff_t`. -/
private theorem aesdLlseek_seekSet {size : Nat} (cached : system.device.buffSize = size)
    (small : size < 2 ^ 63) (file : FileId) (position : Int) :
    aesdLlseek true file position .seekSet system =
      if position < 0 ∨ (size : Int) < position then
        (-einval, { system with fPos := Function.update system.fPos file (system.fPos file) })
      else (position, { system with fPos := Function.update system.fPos file position }) := by
  simp only [aesdLlseek, fixedSizeLlseek, vfsSetpos, cached, toLoff_natCast small, if_true]
  split <;> rfl

/-- With a right cached size, seeking and reading agree. -/
theorem Represents.sizesAgree (represents : Represents system history)
    (cached : system.device.buffSize = (storedContent history).length) :
    SizesAgree system (storedContent history).length where
  cached := by rw [cached, represents.sum_sizes]
  obtained file count positive := by
    have opened : Represents (aesdOpen file system) history := represents.congr_fPos _
    have start : toSize ((aesdOpen file system).fPos file) = 0 := by simp [aesdOpen, toSize]
    refine ⟨(storedContent history).length + 1, _, _,
      opened.readToEnd positive (Nat.lt_succ_of_le (Nat.sub_le ..)), ?_⟩
    rw [start, List.drop_zero]
  accepts file position := by
    have small : (storedContent history).length < 2 ^ 63 :=
      Nat.lt_trans represents.length_content_lt (by decide)
    rw [aesdLlseek_seekSet cached small]
    split
    · have negative : ¬(0 : Int) ≤ -einval := by decide
      simp only [negative, false_iff]
      omega
    · simp only
      omega
  ends file := by
    have small : (storedContent history).length < 2 ^ 63 :=
      Nat.lt_trans represents.length_content_lt (by decide)
    simp only [aesdLlseek, fixedSizeLlseek, cached, toLoff_natCast small, Int.zero_add, vfsSetpos,
      if_true]
    rw [if_neg (by omega)]
  reads file position count success positive := by
    have bound := represents.length_content_lt
    have small : (storedContent history).length < 2 ^ 63 := Nat.lt_trans bound (by decide)
    rw [aesdLlseek_seekSet cached small] at success ⊢
    split at success
    · have negative : ¬(0 : Int) ≤ -einval := by decide
      exact absurd success negative
    · rename_i inside
      rw [if_neg inside]
      simp only [not_or, Int.not_lt] at inside
      lift position to Nat using inside.1
      have moved : Represents { system with fPos := Function.update system.fPos file position }
          history := represents.congr_fPos _
      rcases moved.read file count with ⟨bytes, result, _, _, empty_iff⟩
      refine ⟨_, bytes, _, result, ?_⟩
      have there : toSize (Function.update system.fPos file (position : Int) file) = position := by
        rw [Function.update_self]
        exact toSize_natCast (by omega)
      rw [there] at empty_iff
      rw [Int.natCast_eq_zero, List.length_eq_zero_iff, empty_iff]
      omega

/-- Seeking and reading agree on a size exactly when the evicted bytes do not
show in the cached one. -/
theorem Represents.sizesAgree_iff (represents : Represents system history) :
    (∃ size, SizesAgree system size) ↔ 2 ^ 64 ∣ (evictedBytes history).length := by
  rw [← represents.buffSize_eq_iff]
  constructor
  · rintro ⟨size, agree⟩
    rw [agree.cached, represents.sum_sizes]
  · intro cached
    exact ⟨_, represents.sizesAgree cached⟩

end

/-- In every state of a run, seeking and reading agree on a size exactly when
the lines displaced so far have a total size that is a multiple of `2 ^ 64`: zero,
for any feasible run. -/
theorem seek_size_is_read_size_iff (kmallocMaxSize : KmallocMaxSize)
    (operations : List Operation)
    (keeps : Along operationStep Operation.KeepsLine (aesdInitModule kmallocMaxSize) operations) :
    ∃ rets system,
      run operationStep (aesdInitModule kmallocMaxSize) operations = some (rets, system) ∧
      ((∃ size, SizesAgree system size) ↔
        2 ^ 64 ∣ (evictedBytes (accepted operations rets)).length) := by
  rcases (represents_init kmallocMaxSize).run_operations keeps with
    ⟨rets, system, execution, represents⟩
  exact ⟨rets, system, execution, represents.sizesAgree_iff⟩

/-- One stored line: nothing has been displaced, and the sizes agree. -/
theorem seek_size_is_read_size_iff_one_line :
    ∃ rets system, run operationStep (aesdInitModule ⟨64, by decide⟩)
        [.write ⟨.success, some 0, some [97, newline]⟩] = some (rets, system) ∧
      ∃ size, SizesAgree system size := by
  rcases seek_size_is_read_size_iff ⟨64, by decide⟩
      [.write ⟨.success, some 0, some [97, newline]⟩] (by decide) with
    ⟨rets, system, execution, agree_iff⟩
  refine ⟨rets, system, execution, agree_iff.mpr ?_⟩
  cases execution
  decide

/-- After eleven lines of one byte the cached size is eleven, and ten bytes are
stored. -/
theorem seek_size_exceeds_read_size :
    ¬∀ rets system, run operationStep (aesdInitModule ⟨64, by decide⟩)
        (List.replicate 11 (.write ⟨.success, some 0, some [newline]⟩)) = some (rets, system) →
      ∃ size, SizesAgree system size := by
  intro agree
  rcases agree _ _ rfl with ⟨size, agrees⟩
  exact absurd agrees.cached (by decide)

end Aesd.Driver
