import Aesd.Driver.ReadSpec
import Aesd.Driver.WriteRun

/-!
# Runs of file operations

The device as a machine whose events are the calls of its file operations.  As
long as no call is refused the enlargement of a line in progress, every state of
a run represents the word that the writes of the run have supplied.
-/

namespace Aesd.Driver

open Aesd.Memory Aesd.Transition Aesd.Word

/-- A call of a file operation, with the outcomes of the services it uses. -/
inductive Operation where
  | openFile (file : FileId)
  | read (outcome : ReadOutcome) (filp : Option FileId) (buf : Bool) (count : Nat)
  | write (call : WriteCall)
  | llseek (lock : Bool) (file : FileId) (offset : Int) (whence : Whence)
  | ioctl (outcome : IoctlOutcome) (file : FileId) (cmd : UInt32) (arg : AesdSeekto)

/-- Run one call; the output is its return value. -/
def operationStep : Machine System Operation Int
  | system, .openFile file => some (0, aesdOpen file system)
  | system, .read outcome filp buf count =>
      (aesdRead outcome filp buf count system).map fun result => (result.1, result.2.2)
  | system, .write call => call.run system
  | system, .llseek lock file offset whence => some (aesdLlseek lock file offset whence system)
  | system, .ioctl outcome file cmd arg => some (aesdIoctl outcome file cmd arg system)

namespace Operation

/-- The call is not a write that is refused the enlargement of a line in
progress; in particular, none of its allocations needs to fail. -/
def KeepsLine (system : System) : Operation → Prop
  | write call => ¬call.GrowthRefused system
  | _ => True

instance (system : System) : ∀ operation, Decidable (KeepsLine system operation)
  | write call => inferInstanceAs (Decidable (¬call.GrowthRefused system))
  | openFile .. => isTrue trivial
  | read .. => isTrue trivial
  | llseek .. => isTrue trivial
  | ioctl .. => isTrue trivial

/-- What a call that returned `ret` has added to the device. -/
def accepted : Operation → Int → List Byte
  | write call, ret => call.data.take ret.toNat
  | _, _ => []

end Operation

/-- The word that the writes of a run have supplied. -/
def accepted (operations : List Operation) (rets : List Int) : List Byte :=
  (List.zipWith Operation.accepted operations rets).flatten

@[simp]
theorem accepted_nil : accepted [] [] = [] :=
  rfl

@[simp]
theorem accepted_cons (operation : Operation) (operations : List Operation) (ret : Int)
    (rets : List Int) :
    accepted (operation :: operations) (ret :: rets) =
      operation.accepted ret ++ accepted operations rets :=
  rfl

/-- A seek changes at most the position of its file. -/
theorem aesdLlseek_eq (lock : Bool) (file : FileId) (offset : Int) (whence : Whence)
    (system : System) :
    ∃ ret fPos, aesdLlseek lock file offset whence system =
      (ret, { system with fPos := fPos }) := by
  unfold aesdLlseek
  split
  · exact ⟨_, _, rfl⟩
  · exact ⟨_, system.fPos, rfl⟩

/-- An ioctl changes at most the position of its file. -/
theorem aesdIoctl_eq (outcome : IoctlOutcome) (file : FileId) (cmd : UInt32) (arg : AesdSeekto)
    (system : System) :
    ∃ ret fPos, aesdIoctl outcome file cmd arg system = (ret, { system with fPos := fPos }) := by
  unfold aesdIoctl aesdAdjustFileOffset
  split
  · exact ⟨_, system.fPos, rfl⟩
  · split
    · split
      · split
        · split
          · exact ⟨_, system.fPos, rfl⟩
          · split
            · exact ⟨_, system.fPos, rfl⟩
            · exact ⟨_, _, rfl⟩
        · exact ⟨_, system.fPos, rfl⟩
      · exact ⟨_, system.fPos, rfl⟩
    · exact ⟨_, system.fPos, rfl⟩

/-- The lines that the calls of a run commit. -/
def committedBy (system : System) (operations : List Operation) : List (List Byte) :=
  observe operationStep (fun system _ _ system' => system.committedLine system') system operations

section

variable {system : System} {committed : List (List Byte)} {pending : List Byte}

/-- A call that is not a write returns, and changes at most the file positions. -/
theorem Carries.operation_moves (carries : Carries system committed pending)
    (operation : Operation) :
    (∃ call, operation = .write call) ∨
      ∃ ret fPos, operationStep system operation = some (ret, { system with fPos := fPos }) ∧
        operation.accepted ret = [] := by
  cases operation with
  | write call => exact Or.inl ⟨call, rfl⟩
  | openFile file => exact Or.inr ⟨0, _, rfl, rfl⟩
  | read outcome filp buf count =>
      right
      rcases carries.read_returns outcome filp buf count with ⟨ret, bytes, fPos, result⟩
      exact ⟨ret, fPos, by simp [operationStep, result], rfl⟩
  | llseek lock file offset whence =>
      right
      rcases aesdLlseek_eq lock file offset whence system with ⟨ret, fPos, result⟩
      exact ⟨ret, fPos, congrArg some result, rfl⟩
  | ioctl outcome file cmd arg =>
      right
      rcases aesdIoctl_eq outcome file cmd arg system with ⟨ret, fPos, result⟩
      exact ⟨ret, fPos, congrArg some result, rfl⟩

/-- Every call returns, whatever has failed before, and adds the line it commits
to what is carried. -/
theorem Carries.operation (carries : Carries system committed pending) (operation : Operation) :
    ∃ ret system' pending', operationStep system operation = some (ret, system') ∧
      Carries system' (committed ++ system.committedLine system') pending' := by
  rcases carries.operation_moves operation with ⟨call, rfl⟩ | ⟨ret, fPos, result, _⟩
  · rcases carries.write call with ⟨ret, system', result, effect⟩
    rcases effect.commits carries with ⟨pending', carries'⟩
    exact ⟨ret, system', pending', result, carries'⟩
  · have moved := carries.congr_fPos fPos
    refine ⟨ret, _, pending, result, ?_⟩
    rw [carries.committedLine_nil moved, List.append_nil]
    exact moved

/-- So does every run of calls. -/
theorem Carries.run_operations (carries : Carries system committed pending)
    (operations : List Operation) :
    ∃ rets target pending', run operationStep system operations = some (rets, target) ∧
      Carries target (committed ++ committedBy system operations) pending' := by
  induction operations generalizing system committed pending with
  | nil => exact ⟨[], system, pending, rfl, by simpa [committedBy] using carries⟩
  | cons operation operations ih =>
      rcases carries.operation operation with ⟨ret, middle, pending', first, carries'⟩
      rcases ih carries' with ⟨rets, target, pending'', remaining, carries''⟩
      refine ⟨ret :: rets, target, pending'',
        (run_cons_eq_some_iff ..).mpr ⟨ret, middle, rets, first, remaining, rfl⟩, ?_⟩
      rw [List.append_assoc] at carries''
      simpa only [committedBy, observe, first] using carries''

end

section

variable {system : System} {history : List Byte}

/-- Every call of a represented state returns, and the state it leaves
represents what it has accepted. -/
theorem Represents.operation (represents : Represents system history) {operation : Operation}
    (keeps : operation.KeepsLine system) :
    ∃ ret system', operationStep system operation = some (ret, system') ∧
      Represents system' (history ++ operation.accepted ret) := by
  rcases represents.operation_moves operation with ⟨call, rfl⟩ | ⟨ret, fPos, result, nothing⟩
  · rcases represents.write call with ⟨ret, system', result, effect⟩
    refine ⟨ret, system', result, ?_⟩
    cases effect with
    | loses refused => exact absurd refused keeps
    | fails _ _ negative _ _ still =>
        simpa [Operation.accepted, Int.toNat_of_nonpos (Int.le_of_lt negative)] using still
    | consumes _ _ _ _ _ still =>
        have prefixOf : consumed call.data = call.data.take (consumed call.data).length :=
          List.prefix_iff_eq_take.mp (firstLine_isPrefix call.data)
        simpa [Operation.accepted, ← prefixOf] using still
  · refine ⟨ret, _, result, ?_⟩
    rw [nothing, List.append_nil]
    exact represents.congr_fPos fPos

theorem Represents.run_operations (represents : Represents system history)
    {operations : List Operation}
    (keeps : Along operationStep Operation.KeepsLine system operations) :
    ∃ rets target, run operationStep system operations = some (rets, target) ∧
      Represents target (history ++ accepted operations rets) := by
  induction operations generalizing system history with
  | nil => exact ⟨[], system, rfl, by simpa using represents⟩
  | cons operation operations ih =>
      rcases represents.operation keeps.1 with ⟨ret, middle, first, represents'⟩
      rcases ih represents' (keeps.2 _ _ first) with ⟨rets, target, remaining, represents''⟩
      refine ⟨ret :: rets, target,
        (run_cons_eq_some_iff ..).mpr ⟨ret, middle, rets, first, remaining, rfl⟩, ?_⟩
      simpa using represents''

end

end Aesd.Driver
