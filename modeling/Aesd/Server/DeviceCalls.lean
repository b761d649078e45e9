import Aesd.Driver.Operation
import Aesd.Server.Process

/-!
# What the calls do to the device

A read and a seek move at most the position of their file, and a write is
consumed or leaves no trace.
-/

namespace Aesd.Server.Process

open Aesd.Driver

variable {τ : Type} {process process' : Process τ} {outcome : Outcome}

theorem sysRead_moves {committed : List (List Byte)} {pending bytes : List Byte} {fd ret : Int}
    {count : Nat} (carries : Carries process.system committed pending)
    (call : process.sysRead outcome fd count = some (ret, bytes, process')) :
    ∃ fPos, process' = { process with system := { process.system with fPos := fPos } } := by
  rcases sysRead_cases call with ⟨_, rfl⟩ | ⟨_, _, result, system', delivered, _, rfl⟩
  · exact ⟨process'.system.fPos, rfl⟩
  · rcases carries.read_returns outcome.read (some fd.toNat) true count with ⟨_, _, fPos, result'⟩
    cases Option.some.inj (delivered.symm.trans result')
    exact ⟨fPos, rfl⟩

theorem sysIoctl_moves (process : Process τ) (outcome : Outcome) (fd : Int) (arg : AesdSeekto) :
    ∃ fPos, (process.sysIoctl outcome fd arg).2 =
      { process with system := { process.system with fPos := fPos } } := by
  rcases sysIoctl_cases outcome fd arg process with still | ⟨_, _, moved⟩
  · exact ⟨process.system.fPos, by rw [still]⟩
  · rcases aesdIoctl_eq outcome.ioctl fd.toNat aesdcharIocseekto arg process.system with
      ⟨ret, fPos, result⟩
    exact ⟨fPos, by rw [moved, result]⟩

/-- A write is consumed up to its first newline, or fails without a trace. -/
theorem sysWrite_represents {history data : List Byte} {fd ret : Int}
    (represents : Represents process.system history)
    (keeps : ¬WriteCall.GrowthRefused process.system ⟨outcome.write, some fd.toNat, some data⟩)
    (call : process.sysWrite outcome fd data = some (ret, process')) :
    ret = -1 ∧ Represents process'.system history ∨
      ret = (consumed data).length ∧ Represents process'.system (history ++ consumed data) := by
  rcases sysWrite_cases call with
    ⟨failed, rfl⟩ | ⟨_, _, result, system', written, returned, rfl⟩
  · exact Or.inl ⟨failed, represents⟩
  · rcases represents.write ⟨outcome.write, some fd.toNat, some data⟩ with
      ⟨result', system'', run, effect⟩
    cases Option.some.inj (written.symm.trans run)
    cases effect with
    | consumes file granted filp advanced limit represents' =>
        right
        exact ⟨returned.trans (if_neg (Int.not_lt.mpr (Int.natCast_nonneg _))), represents'⟩
    | fails notGranted kept negative unmoved limit represents' =>
        left
        exact ⟨returned.trans (if_pos negative), represents'⟩
    | loses refused => exact absurd refused keeps

end Aesd.Server.Process
