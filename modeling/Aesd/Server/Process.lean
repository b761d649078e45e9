import Aesd.Driver.Device
import Aesd.Transition.Run

/-!
# The server process

What the handler threads share: the device behind the data file, the descriptor
table of the process, the global `dataFileDescriptor` and the mutex.  An open
data file is an open file description of the device, identified by its
descriptor number.
-/

namespace Aesd.Server

open Aesd.Driver

/-- The access mode of an open data file. -/
inductive Access where
  | readOnly
  | readWrite
  deriving DecidableEq, Repr

/-- What a descriptor number refers to. -/
inductive Description where
  | dataFile (access : Access)
  | socket
  | other
  deriving DecidableEq, Repr

/-- The state shared by the handler threads `τ`; `lock` is the owner of the
mutex. -/
structure Process (τ : Type) where
  system : System
  descriptors : Nat → Option Description
  dataFileDescriptor : Int
  lock : Option τ

/-- A process with a freshly loaded device and open sockets at the descriptor
numbers below `sockets`. -/
def Process.fresh (τ : Type) (sockets : Nat) : Process τ where
  system := aesdInitModule ⟨4096, by decide⟩
  descriptors fd := if fd < sockets then some .socket else none
  dataFileDescriptor := 0
  lock := none

/-- The outcome the environment chooses for one step of a thread. -/
structure Outcome where
  /-- The system call of the step fails for a reason outside the server. -/
  fails : Bool
  /-- The number that an open returns. -/
  descriptor : Nat
  write : WriteOutcome
  read : ReadOutcome
  ioctl : IoctlOutcome
  /-- How much of its data a send accepts. -/
  accepted : Nat
  /-- What an uninitialised `struct aesd_seekto` contains. -/
  aesdSeektoData : AesdSeekto
  /-- What follows the receive buffer in memory. -/
  beyond : List Byte

/-- Everything succeeds. -/
def Outcome.success (descriptor : Nat) : Outcome where
  fails := false
  descriptor := descriptor
  write := .success
  read := .success
  ioctl := .success
  accepted := 1024
  aesdSeektoData := ⟨0, 0⟩
  beyond := []

namespace Process

variable {τ : Type}

/-- The access mode of the data file behind a descriptor number. -/
def dataFile (process : Process τ) (fd : Int) : Option Access :=
  if fd < 0 then
    none
  else
    match process.descriptors fd.toNat with
    | some (.dataFile access) => some access
    | _ => none

/-- The return value of a system call: errors are `-1`. -/
def sysReturn (ret : Int) : Int :=
  if ret < 0 then -1 else ret

/-- `open` returns some number that is not in use. -/
def sysOpen (outcome : Outcome) (access : Access) (process : Process τ) :
    Option (Int × Process τ) :=
  if outcome.fails then
    some (-1, process)
  else
    match process.descriptors outcome.descriptor with
    | some _ => none
    | none =>
        some (outcome.descriptor,
          { process with
            system := aesdOpen outcome.descriptor process.system
            descriptors := Function.update process.descriptors outcome.descriptor
              (some (.dataFile access)) })

/-- `close` releases the number, even when it reports an error. -/
def sysClose (outcome : Outcome) (fd : Int) (process : Process τ) : Int × Process τ :=
  if fd < 0 ∨ process.descriptors fd.toNat = none then
    (-1, process)
  else
    (if outcome.fails then -1 else 0,
      { process with descriptors := Function.update process.descriptors fd.toNat none })

/-- `write` to a data file that is open for writing. -/
def sysWrite (outcome : Outcome) (fd : Int) (data : List Byte) (process : Process τ) :
    Option (Int × Process τ) :=
  if outcome.fails ∨ process.dataFile fd ≠ some .readWrite then
    some (-1, process)
  else
    (aesdWrite outcome.write (some fd.toNat) (some data) process.system).map fun result =>
      (sysReturn result.1, { process with system := result.2 })

/-- `read` from an open data file; the bytes are part of the result. -/
def sysRead (outcome : Outcome) (fd : Int) (count : Nat) (process : Process τ) :
    Option (Int × List Byte × Process τ) :=
  if outcome.fails ∨ process.dataFile fd = none then
    some (-1, [], process)
  else
    (aesdRead outcome.read (some fd.toNat) true count process.system).map fun result =>
      (sysReturn result.1, result.2.1, { process with system := result.2.2 })

/-- `ioctl` with the seek command on an open data file. -/
def sysIoctl (outcome : Outcome) (fd : Int) (arg : AesdSeekto) (process : Process τ) :
    Int × Process τ :=
  if outcome.fails ∨ process.dataFile fd = none then
    (-1, process)
  else
    let result := aesdIoctl outcome.ioctl fd.toNat aesdcharIocseekto arg process.system
    (sysReturn result.1, { process with system := result.2 })

/-- Where the next read through the global starts. -/
def readPosition (process : Process τ) : Nat :=
  toSize (process.system.fPos process.dataFileDescriptor.toNat)

/-! ## What the calls leave alone -/

section

variable {process process' : Process τ} {outcome : Outcome} {fd ret : Int}

theorem sysOpen_cases {access : Access}
    (call : process.sysOpen outcome access = some (fd, process')) :
    outcome.fails = true ∧ fd = -1 ∧ process' = process ∨
      outcome.fails = false ∧ process.descriptors outcome.descriptor = none ∧
        fd = outcome.descriptor ∧
        process' = { process with
          system := aesdOpen outcome.descriptor process.system
          descriptors := Function.update process.descriptors outcome.descriptor
            (some (.dataFile access)) } := by
  unfold sysOpen at call
  cases fails : outcome.fails with
  | true =>
      rw [fails, if_pos rfl, Option.some.injEq, Prod.mk.injEq] at call
      exact Or.inl ⟨rfl, call.1.symm, call.2.symm⟩
  | false =>
      rw [fails, if_neg Bool.false_ne_true] at call
      split at call
      · contradiction
      · rename_i unused
        rw [Option.some.injEq, Prod.mk.injEq] at call
        exact Or.inr ⟨rfl, unused, call.1.symm, call.2.symm⟩

theorem sysClose_cases (outcome : Outcome) (fd : Int) (process : Process τ) :
    (process.sysClose outcome fd).2 = process ∨
      0 ≤ fd ∧ (process.sysClose outcome fd).2 = { process with
        descriptors := Function.update process.descriptors fd.toNat none } := by
  unfold sysClose
  split
  · exact Or.inl rfl
  · exact Or.inr ⟨by omega, rfl⟩

theorem sysWrite_cases {data : List Byte}
    (call : process.sysWrite outcome fd data = some (ret, process')) :
    ret = -1 ∧ process' = process ∨
      outcome.fails = false ∧ process.dataFile fd = some .readWrite ∧ ∃ result system',
        aesdWrite outcome.write (some fd.toNat) (some data) process.system =
          some (result, system') ∧
        ret = sysReturn result ∧ process' = { process with system := system' } := by
  unfold sysWrite at call
  split at call
  · rw [Option.some.injEq, Prod.mk.injEq] at call
    exact Or.inl ⟨call.1.symm, call.2.symm⟩
  · rename_i works
    simp only [not_or, Bool.not_eq_true, ne_eq, not_not] at works
    simp only [Option.map_eq_some_iff, Prod.exists, Prod.mk.injEq] at call
    rcases call with ⟨result, system', written, rfl, rfl⟩
    exact Or.inr ⟨works.1, works.2, result, system', written, rfl, rfl⟩

theorem sysRead_cases {count : Nat} {bytes : List Byte}
    (call : process.sysRead outcome fd count = some (ret, bytes, process')) :
    ret = -1 ∧ process' = process ∨
      outcome.fails = false ∧ process.dataFile fd ≠ none ∧ ∃ result system',
        aesdRead outcome.read (some fd.toNat) true count process.system =
          some (result, bytes, system') ∧
        ret = sysReturn result ∧ process' = { process with system := system' } := by
  unfold sysRead at call
  split at call
  · rw [Option.some.injEq, Prod.mk.injEq, Prod.mk.injEq] at call
    exact Or.inl ⟨call.1.symm, call.2.2.symm⟩
  · rename_i works
    simp only [not_or, Bool.not_eq_true] at works
    simp only [Option.map_eq_some_iff, Prod.exists, Prod.mk.injEq] at call
    rcases call with ⟨result, bytes', system', delivered, rfl, rfl, rfl⟩
    exact Or.inr ⟨works.1, works.2, result, system', delivered, rfl, rfl⟩

theorem sysIoctl_cases (outcome : Outcome) (fd : Int) (arg : AesdSeekto) (process : Process τ) :
    process.sysIoctl outcome fd arg = (-1, process) ∨
      outcome.fails = false ∧ process.dataFile fd ≠ none ∧
        process.sysIoctl outcome fd arg =
          (sysReturn (aesdIoctl outcome.ioctl fd.toNat aesdcharIocseekto arg process.system).1,
            { process with
              system := (aesdIoctl outcome.ioctl fd.toNat aesdcharIocseekto arg
                process.system).2 }) := by
  unfold sysIoctl
  split
  · exact Or.inl rfl
  · rename_i works
    simp only [not_or, Bool.not_eq_true] at works
    exact Or.inr ⟨works.1, works.2, rfl⟩

theorem dataFile_ne_none_iff (process : Process τ) (fd : Int) :
    process.dataFile fd ≠ none ↔
      0 ≤ fd ∧ ∃ access, process.descriptors fd.toNat = some (.dataFile access) := by
  unfold dataFile
  split
  · simp only [ne_eq, not_true_eq_false, false_iff, not_and]
    omega
  · split
    · rename_i present
      simp only [ne_eq, reduceCtorEq, not_false_eq_true, present, Option.some.injEq,
        Description.dataFile.injEq, exists_eq', and_true, true_iff]
      omega
    · rename_i absent
      simp only [ne_eq, not_true_eq_false, false_iff, not_and, not_exists]
      exact fun _ access => absent access

theorem dataFile_congr {process process' : Process τ}
    (same : process'.descriptors = process.descriptors) (fd : Int) :
    process'.dataFile fd = process.dataFile fd := by
  simp only [dataFile, same]

theorem dataFile_of_ne {process process' : Process τ} {number : Nat}
    {description : Option Description}
    (updated : process'.descriptors = Function.update process.descriptors number description)
    {fd : Int} (different : fd.toNat ≠ number) : process'.dataFile fd = process.dataFile fd := by
  simp only [dataFile, updated, Function.update_of_ne different]

theorem inUse_update {descriptors : Nat → Option Description} {number changed : Nat}
    {description : Option Description} (different : number ≠ changed)
    (used : descriptors number ≠ none) :
    Function.update descriptors changed description number ≠ none := by
  rwa [Function.update_of_ne different]

/-- A close leaves the other descriptors in use. -/
theorem inUse_sysClose {outcome : Outcome} {fd : Int} {number : Nat} {process : Process τ}
    (different : number ≠ fd.toNat) (used : process.descriptors number ≠ none) :
    (process.sysClose outcome fd).2.descriptors number ≠ none := by
  rcases sysClose_cases outcome fd process with same | ⟨_, same⟩
  · rwa [same]
  · rw [same]
    exact inUse_update different used

/-- No call on the data file touches the mutex or the global. -/
theorem sysOpen_frame {access : Access}
    (call : process.sysOpen outcome access = some (fd, process')) :
    process'.lock = process.lock ∧ process'.dataFileDescriptor = process.dataFileDescriptor := by
  rcases sysOpen_cases call with ⟨_, _, rfl⟩ | ⟨_, _, _, rfl⟩ <;> exact ⟨rfl, rfl⟩

theorem sysClose_frame (outcome : Outcome) (fd : Int) (process : Process τ) :
    (process.sysClose outcome fd).2.lock = process.lock ∧
      (process.sysClose outcome fd).2.dataFileDescriptor = process.dataFileDescriptor ∧
      (process.sysClose outcome fd).2.system = process.system := by
  rcases sysClose_cases outcome fd process with same | ⟨_, same⟩ <;> rw [same] <;>
    exact ⟨rfl, rfl, rfl⟩

theorem sysWrite_frame {data : List Byte}
    (call : process.sysWrite outcome fd data = some (ret, process')) :
    process'.lock = process.lock ∧ process'.dataFileDescriptor = process.dataFileDescriptor ∧
      process'.descriptors = process.descriptors := by
  rcases sysWrite_cases call with ⟨_, rfl⟩ | ⟨_, _, _, _, _, _, rfl⟩ <;> exact ⟨rfl, rfl, rfl⟩

theorem sysRead_frame {count : Nat} {bytes : List Byte}
    (call : process.sysRead outcome fd count = some (ret, bytes, process')) :
    process'.lock = process.lock ∧ process'.dataFileDescriptor = process.dataFileDescriptor ∧
      process'.descriptors = process.descriptors := by
  rcases sysRead_cases call with ⟨_, rfl⟩ | ⟨_, _, _, _, _, _, rfl⟩ <;> exact ⟨rfl, rfl, rfl⟩

theorem sysIoctl_frame (outcome : Outcome) (fd : Int) (arg : AesdSeekto) (process : Process τ) :
    (process.sysIoctl outcome fd arg).2.lock = process.lock ∧
      (process.sysIoctl outcome fd arg).2.dataFileDescriptor = process.dataFileDescriptor ∧
      (process.sysIoctl outcome fd arg).2.descriptors = process.descriptors := by
  rcases sysIoctl_cases outcome fd arg process with same | ⟨_, _, same⟩ <;> rw [same] <;>
    exact ⟨rfl, rfl, rfl⟩

end

end Process

end Aesd.Server
