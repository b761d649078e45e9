import Aesd.Driver.Isolation
import Aesd.Driver.Leaks
import Mathlib.Data.List.ReduceOption

/-!
# Loading and unloading the module

`aesd_init_module`, `aesd_cleanup_module` and the file operations between them, in a
kernel that other drivers use as well.  The variables of the module exist while it is
loaded; the heap outlives it.  The module has the kernel as its owner in
`aesd_fops`, so it is not unloaded while a file is open.
-/

namespace Aesd.Driver

open Aesd.Memory Aesd.Transition Aesd.Word

/-- A negative error number. -/
abbrev ErrorCode := { code : Int // code < 0 }

/-- The variables of the module, with the device number its `cdev` has been added
under, the positions of its files and the files that are open. -/
structure LoadedModule where
  aesdMajor : Nat
  cdev : Nat
  device : AesdDev
  fPos : FileId → Int
  opened : List FileId

/-- The heap, the registered device numbers and those that have a device, all with the
single minor number zero, and the module while it is loaded. -/
structure Kernel where
  heap : Heap Byte
  regions : Nat → Bool
  cdevs : Nat → Bool
  loaded : Option LoadedModule

/-- What the file operations work on. -/
def LoadedModule.system (module : LoadedModule) (heap : Heap Byte) : System :=
  ⟨heap, module.device, module.fPos⟩

/-- The module after a file operation; opening a file adds it to those that are open. -/
def LoadedModule.after (module : LoadedModule) (operation : Operation) (system : System) :
    LoadedModule :=
  { module with
    device := system.device
    fPos := system.fPos
    opened := match operation with
      | .openFile file => file :: module.opened
      | _ => module.opened }

/-- Outcomes of the services that loading calls. -/
structure LoadOutcome where
  allocChrdevRegion : Except ErrorCode Nat
  cdevAdd : Option ErrorCode

/-- Before the module has ever been loaded, with the devices of other drivers. -/
def Kernel.boot (kmallocMaxSize : KmallocMaxSize) (others : Nat → Bool) : Kernel where
  heap := Heap.initial kmallocMaxSize
  regions := others
  cdevs := others
  loaded := none

/-- Add the device under its number. -/
def aesdSetupCdev (cdevAdd : Option ErrorCode) (devno : Nat) (cdevs : Nat → Bool) :
    Int × (Nat → Bool) :=
  match cdevAdd with
  | some err => (err, cdevs)
  | none => (0, Function.update cdevs devno true)

namespace Kernel

/-- Load the module: `aesd_init_module`. -/
def aesdInitModule (outcome : LoadOutcome) (kernel : Kernel) : Int × Kernel :=
  match outcome.allocChrdevRegion with
  | .error result => (result, kernel)
  | .ok major =>
      let regions := Function.update kernel.regions major true
      let (result, cdevs) := aesdSetupCdev outcome.cdevAdd major kernel.cdevs
      if result ≠ 0 then
        (result, { kernel with regions := Function.update regions major false, cdevs := cdevs })
      else
        -- the description is zero all over, so the test that stands for an assignment
        -- of the write buffer does no harm
        (result, { kernel with
          regions := regions
          cdevs := cdevs
          loaded := some ⟨major, major, ⟨aesdCircularBufferInit, .null, 0, 0⟩, fun _ => 0, []⟩ })

/-- Unload the module: `aesd_cleanup_module`. -/
def aesdCleanupModule (module : LoadedModule) (kernel : Kernel) : Option Kernel :=
  (Driver.aesdCleanupModule (module.system kernel.heap)).map fun system =>
    { heap := system.heap
      regions := Function.update kernel.regions module.aesdMajor false
      cdevs := Function.update kernel.cdevs module.cdev false
      loaded := none }

/-- Run a file operation. -/
def fileOperation (module : LoadedModule) (operation : Operation) (kernel : Kernel) :
    Option (Int × Kernel) :=
  (operationStep (module.system kernel.heap) operation).map fun (ret, system) =>
    (ret, { kernel with
      heap := system.heap
      loaded := some (module.after operation system) })

end Kernel

/-- What happens to the module. -/
inductive ModuleEvent where
  | load (outcome : LoadOutcome)
  | call (operation : Operation)
  | release (file : FileId)
  | unload

/-- The kernel lets the event happen: a module is loaded once, under a number that is
not in use; a file that is not open is opened through the device, and an open one is
used and released; the module is unloaded when no file is open. -/
def ModuleEvent.allowed (kernel : Kernel) : ModuleEvent → Bool
  | .load outcome => kernel.loaded.isNone && match outcome.allocChrdevRegion with
      | .ok major => !kernel.regions major
      | .error _ => true
  | .call (.openFile file) => kernel.loaded.any fun module =>
      kernel.cdevs module.aesdMajor && !module.opened.contains file
  | .call operation => kernel.loaded.any fun module =>
      operation.filp.all module.opened.contains
  | .release file => kernel.loaded.any fun module => module.opened.contains file
  | .unload => kernel.loaded.any fun module => module.opened.isEmpty

/-- What an event does; the output is the return value. -/
def ModuleEvent.perform (kernel : Kernel) : ModuleEvent → Option (Int × Kernel)
  | .load outcome => some (kernel.aesdInitModule outcome)
  | .call operation => kernel.loaded.bind fun module => kernel.fileOperation module operation
  | .release file => kernel.loaded.map fun module =>
      (0, { kernel with loaded := some { module with opened := module.opened.erase file } })
  | .unload => kernel.loaded.bind fun module =>
      (kernel.aesdCleanupModule module).map fun kernel => (0, kernel)

def moduleStep : Machine Kernel ModuleEvent Int :=
  fun kernel event => if event.allowed kernel then event.perform kernel else none

theorem moduleStep_of_allowed {kernel : Kernel} {event : ModuleEvent}
    (allowed : event.allowed kernel = true) : moduleStep kernel event = event.perform kernel :=
  if_pos allowed

/-! ## What a run loses, and what it commits since the last load -/

/-- The blocks that a call loses. -/
def Operation.lost (system : System) : Operation → Nat
  | .write call => call.lost system
  | _ => 0

/-- The blocks that an event loses; at the unloading that of a line in progress. -/
def Kernel.lost (kernel : Kernel) (event : ModuleEvent) : Nat :=
  match event, kernel.loaded with
  | .call operation, some module => operation.lost (module.system kernel.heap)
  | .unload, some module => (module.system kernel.heap).pendingBlocks.length
  | _, _ => 0

/-- The blocks lost by a run. -/
def lostBlocks (kernel : Kernel) (events : List ModuleEvent) : Nat :=
  (observe moduleStep (fun kernel event _ _ => [kernel.lost event]) kernel events).sum

/-- A load, or the line that a call commits. -/
def Kernel.landmarks (kernel : Kernel) (event : ModuleEvent) (kernel' : Kernel) :
    List (Option (List Byte)) :=
  match event, kernel.loaded, kernel'.loaded with
  | .load _, _, _ => [none]
  | .call _, some module, some module' =>
      ((module.system kernel.heap).committedLine (module'.system kernel'.heap)).map some
  | _, _, _ => []

/-- The lines committed since the last load. -/
def linesSinceLoad (kernel : Kernel) (events : List ModuleEvent) : List (List Byte) :=
  ((observe moduleStep (fun kernel event _ kernel' => kernel.landmarks event kernel') kernel
    events).rtakeWhile Option.isSome).reduceOption

section

variable {source kernel kernel' : Kernel} {events : List ModuleEvent} {rets : List Int}
  {event : ModuleEvent} {ret : Int}

theorem lostBlocks_concat (execution : run moduleStep source events = some (rets, kernel))
    (step : moduleStep kernel event = some (ret, kernel')) :
    lostBlocks source (events ++ [event]) = lostBlocks source events + kernel.lost event := by
  rw [lostBlocks, observe_concat _ execution step, List.sum_append, List.sum_singleton]
  rfl

/-- A load starts the lines anew. -/
theorem linesSinceLoad_load (execution : run moduleStep source events = some (rets, kernel))
    {outcome : LoadOutcome} (step : moduleStep kernel (.load outcome) = some (ret, kernel')) :
    linesSinceLoad source (events ++ [.load outcome]) = [] := by
  rw [linesSinceLoad, observe_concat _ execution step]
  exact congrArg List.reduceOption (List.rtakeWhile_concat_neg _ _ _ (by decide))

theorem linesSinceLoad_append (lines : List (List Byte))
    (execution : run moduleStep source events = some (rets, kernel))
    (step : moduleStep kernel event = some (ret, kernel'))
    (marks : kernel.landmarks event kernel' = lines.map some) :
    linesSinceLoad source (events ++ [event]) = linesSinceLoad source events ++ lines := by
  rw [linesSinceLoad, observe_concat _ execution step, marks]
  clear marks
  induction lines using List.reverseRecOn with
  | nil =>
      rw [List.map_nil, List.append_nil, List.append_nil]
      rfl
  | append_singleton lines line ih =>
      rw [List.map_append, ← List.append_assoc, List.map_singleton, List.rtakeWhile_concat_pos _ _ _
        rfl, List.reduceOption_append, ih, List.append_assoc]
      rfl

/-- A call that is not a write changes at most the file positions. -/
private theorem exists_fPos_of_not_write {system system' : System} {committed : List (List Byte)}
    {pending : List Byte} (carries : Carries system committed pending) {operation : Operation}
    (notWrite : ∀ call, operation ≠ .write call)
    (step : operationStep system operation = some (ret, system')) :
    ∃ fPos, system' = { system with fPos := fPos } := by
  rcases carries.operation_moves operation with ⟨call, isWrite⟩ | ⟨ret', fPos, result, _⟩
  · exact absurd isWrite (notWrite call)
  · cases result.symm.trans step
    exact ⟨fPos, rfl⟩

theorem Carries.operation_balance {system system' : System} {committed : List (List Byte)}
    {pending : List Byte} (carries : Carries system committed pending) {operation : Operation}
    (step : operationStep system operation = some (ret, system')) :
    system'.heap.live.card + system.ownedBlocks.length =
      system.heap.live.card + system'.ownedBlocks.length + operation.lost system := by
  cases operation with
  | write call => exact carries.write_balance step
  | openFile | read | llseek | ioctl =>
      rcases exists_fPos_of_not_write carries (by rintro call ⟨⟩) step with ⟨fPos, rfl⟩
      rfl

theorem limit_aesdCleanupModule {system system' : System}
    (unloaded : Driver.aesdCleanupModule system = some system') :
    system'.heap.limit = system.heap.limit := by
  rcases Option.map_eq_some_iff.mp unloaded with ⟨heap, freed, rfl⟩
  rw [← List.foldlM_map] at freed
  exact Heap.limit_free_all freed

end

/-! ## The invariant -/

/-- A loaded module in a kernel that is otherwise as other drivers have left it. -/
def Kernel.serving (others : Nat → Bool) (heap : Heap Byte) (module : LoadedModule) : Kernel where
  heap := heap
  regions := Function.update others module.aesdMajor true
  cdevs := Function.update others module.aesdMajor true
  loaded := some module

/-- Without the module the kernel is as other drivers have left it, up to lost blocks;
with it, only its number and its device are added. -/
inductive Kernel.Sound (others : Nat → Bool) (lost : Nat) (lines : List (List Byte)) :
    Kernel → Prop where
  | idle (heap : Heap Byte) (small : heap.limit < 2 ^ 32) (balance : heap.live.card = lost) :
      Sound others lost lines ⟨heap, others, others, none⟩
  | busy (heap : Heap Byte) (module : LoadedModule) (pending : List Byte)
      (unused : others module.aesdMajor = false) (cdev : module.cdev = module.aesdMajor)
      (carries : Carries (module.system heap) lines pending)
      (balance : heap.live.card = (module.system heap).ownedBlocks.length + lost) :
      Sound others lost lines (Kernel.serving others heap module)

theorem Kernel.sound_boot (kmallocMaxSize : KmallocMaxSize) (others : Nat → Bool) :
    (Kernel.boot kmallocMaxSize others).Sound others 0 [] :=
  .idle _ kmallocMaxSize.2 (Finset.card_eq_zero.mpr (Heap.live_initial _))

/-- A zeroed device carries nothing, whatever other blocks there are. -/
theorem carries_zeroed {heap : Heap Byte} (small : heap.limit < 2 ^ 32) (fPos : FileId → Int) :
    Carries ⟨heap, ⟨aesdCircularBufferInit, .null, 0, 0⟩, fPos⟩ [] [] where
  limit_lt := small
  wellFormed := AesdCircularBuffer.wellFormed_init
  filling := AesdCircularBuffer.filling_init
  nonempty _ member := absurd member List.not_mem_nil
  writeBufferSize_eq := rfl
  length_pending_le := Nat.zero_le _
  buffSize_eq := rfl
  owns := ⟨[], rfl, AesdCircularBuffer.entries_init, fun pending => absurd rfl pending,
    Heap.holds_nil _⟩

section

variable {others : Nat → Bool} {lost : Nat} {lines : List (List Byte)} {kernel : Kernel}

/-- Taking back a number restores the table. -/
private theorem update_back {devno : Nat} (unused : others devno = false) :
    Function.update (Function.update others devno true) devno false = others := by
  rw [Function.update_idem, ← unused, Function.update_eq_self]

/-- A load that fails leaves nothing behind, and one that succeeds a module that
carries nothing. -/
theorem Kernel.Sound.load (sound : kernel.Sound others lost lines) {outcome : LoadOutcome}
    (allowed : (ModuleEvent.load outcome).allowed kernel = true) :
    (kernel.aesdInitModule outcome).2.Sound others lost [] := by
  cases sound with
  | busy => contradiction
  | idle heap small balance =>
      rcases outcome with ⟨region, cdevAdd⟩
      cases region with
      | error result => exact .idle heap small balance
      | ok major =>
          have unused : others major = false := by simpa [ModuleEvent.allowed] using allowed
          cases cdevAdd with
          | some err =>
              have failed : (err : Int) ≠ 0 := Int.ne_of_lt err.2
              simp only [aesdInitModule, aesdSetupCdev, ne_eq, failed, not_false_eq_true, if_true,
                update_back unused]
              exact .idle heap small balance
          | none =>
              exact .busy heap ⟨major, major, _, _, []⟩ [] unused rfl (carries_zeroed small _)
                (balance.trans (Nat.zero_add lost).symm)

/-- Every call through an open file returns. -/
theorem Kernel.Sound.call (sound : kernel.Sound others lost lines) {operation : Operation}
    (allowed : (ModuleEvent.call operation).allowed kernel = true) :
    ∃ ret kernel', moduleStep kernel (.call operation) = some (ret, kernel') ∧
      ∃ committed, kernel.landmarks (.call operation) kernel' = committed.map some ∧
        kernel'.Sound others (lost + kernel.lost (.call operation)) (lines ++ committed) := by
  cases sound with
  | idle heap small balance =>
      cases operation with
      | openFile | read | write | llseek | ioctl => contradiction
  | busy heap module pending unused cdev carries balance =>
      rcases carries.operation operation with ⟨ret, system', pending', result, carries'⟩
      have counted := carries.operation_balance result
      refine ⟨ret, serving others system'.heap (module.after operation system'), ?_,
        (module.system heap).committedLine system', rfl, ?_⟩
      · rw [moduleStep_of_allowed allowed]
        change (operationStep (module.system heap) operation).map _ = _
        rw [result]
        rfl
      · apply Sound.busy system'.heap (module.after operation system') pending' unused cdev carries'
        change system'.heap.live.card + _ = heap.live.card + _ + _ at counted
        change _ = system'.ownedBlocks.length + (lost + operation.lost (module.system heap))
        omega

/-- A module without open files can be unloaded. -/
theorem Kernel.Sound.unload (sound : kernel.Sound others lost lines)
    (allowed : ModuleEvent.unload.allowed kernel = true) :
    ∃ kernel', moduleStep kernel .unload = some (0, kernel') ∧
      kernel'.Sound others (lost + kernel.lost .unload) lines := by
  cases sound with
  | idle heap small balance => contradiction
  | busy heap module pending unused cdev carries balance =>
      rcases carries.cleanup with ⟨system', unloaded, _, released⟩
      have same : system'.heap.limit = heap.limit := limit_aesdCleanupModule unloaded
      refine ⟨⟨system'.heap, others, others, none⟩, ?_, ?_⟩
      · rw [moduleStep_of_allowed allowed]
        change ((Driver.aesdCleanupModule (module.system heap)).map _).map _ = _
        rw [unloaded, Option.map_some, Option.map_some, cdev]
        simp only [serving, update_back unused]
      · apply Sound.idle system'.heap (same ▸ carries.limit_lt)
        rw [System.ownedBlocks, List.length_append] at balance
        change system'.heap.live.card + _ = heap.live.card at released
        change _ = lost + (module.system heap).pendingBlocks.length
        omega

theorem Kernel.Sound.release (sound : kernel.Sound others lost lines) {file : FileId}
    (allowed : (ModuleEvent.release file).allowed kernel = true) :
    ∃ kernel', moduleStep kernel (.release file) = some (0, kernel') ∧
      kernel'.Sound others lost lines := by
  cases sound with
  | idle heap small balance => contradiction
  | busy heap module pending unused cdev carries balance =>
      refine ⟨serving others heap { module with opened := module.opened.erase file }, ?_, ?_⟩
      · rw [moduleStep_of_allowed allowed]
        rfl
      · exact .busy heap _ pending unused cdev carries balance

/-- Whatever the kernel lets happen returns. -/
theorem Kernel.Sound.isSome_iff (sound : kernel.Sound others lost lines) (event : ModuleEvent) :
    (moduleStep kernel event).isSome ↔ event.allowed kernel = true := by
  constructor
  · intro returns
    by_contra refused
    rw [moduleStep, if_neg refused] at returns
    contradiction
  · intro allowed
    cases event with
    | load outcome =>
        rw [moduleStep_of_allowed allowed]
        rfl
    | call operation =>
        rcases sound.call allowed with ⟨ret, kernel', step, _⟩
        exact Option.isSome_of_eq_some step
    | release file =>
        rcases sound.release allowed with ⟨kernel', step, _⟩
        exact Option.isSome_of_eq_some step
    | unload =>
        rcases sound.unload allowed with ⟨kernel', step, _⟩
        exact Option.isSome_of_eq_some step

theorem Kernel.sound_run {kmallocMaxSize : KmallocMaxSize} {events : List ModuleEvent}
    {rets : List Int}
    (execution : run moduleStep (Kernel.boot kmallocMaxSize others) events = some (rets, kernel)) :
    kernel.Sound others (lostBlocks (Kernel.boot kmallocMaxSize others) events)
      (linesSinceLoad (Kernel.boot kmallocMaxSize others) events) := by
  apply run_induction (motive := fun events _ kernel =>
    kernel.Sound others (lostBlocks (Kernel.boot kmallocMaxSize others) events)
      (linesSinceLoad (Kernel.boot kmallocMaxSize others) events)) ?_ ?_ execution
  · exact sound_boot kmallocMaxSize others
  · intro events rets kernel event ret kernel' front sound step
    have allowed := (sound.isSome_iff event).mp (Option.isSome_of_eq_some step)
    rw [lostBlocks_concat front step]
    cases event with
    | load outcome =>
        rw [linesSinceLoad_load front step]
        rw [moduleStep_of_allowed allowed] at step
        have loaded : (kernel.aesdInitModule outcome).2 = kernel' :=
          congrArg Prod.snd (Option.some.inj step)
        rw [← loaded]
        exact sound.load allowed
    | call operation =>
        rcases sound.call allowed with ⟨ret', target, again, committed, marks, sound'⟩
        cases step.symm.trans again
        rw [linesSinceLoad_append _ front step marks]
        exact sound'
    | release file =>
        rcases sound.release allowed with ⟨target, again, sound'⟩
        cases step.symm.trans again
        rw [linesSinceLoad_append [] front step rfl, List.append_nil]
        exact sound'
    | unload =>
        rcases sound.unload allowed with ⟨target, again, sound'⟩
        cases step.symm.trans again
        rw [linesSinceLoad_append [] front step rfl, List.append_nil]
        exact sound'

/-- At most ten slots and one line in progress. -/
theorem Carries.length_ownedBlocks_le {system : System} {committed : List (List Byte)}
    {pending : List Byte} (carries : Carries system committed pending) :
    system.ownedBlocks.length ≤ aesdcharMaxWriteOperationsSupported + 1 := by
  have ring : system.ringBlocks.length ≤ aesdcharMaxWriteOperationsSupported := by
    rw [carries.length_ringBlocks]
    show (committed.drop (committed.length - 10)).length ≤ 10
    rw [List.length_drop]
    omega
  have unfinished : system.pendingBlocks.length ≤ 1 := by
    unfold System.pendingBlocks
    split
    · exact Nat.zero_le 1
    · cases system.device.writeBuffer with
      | null | empty => exact Nat.zero_le 1
      | block id => exact Nat.le_refl 1
  rw [System.ownedBlocks, List.length_append]
  omega

end

/-- In every run of loads, calls, releases and unloadings, among other drivers and with
whatever failures, all that the kernel lets happen returns.  While the module is not
loaded, device numbers and devices are those of the other drivers and the live blocks are
the lost ones.  While it is, one number that was not in use and its device come in
addition, besides lost blocks there are those of the slots and of a line in progress, and
the slots hold the last lines committed since it was loaded. -/
theorem module_leaves_only_lost_blocks (kmallocMaxSize : KmallocMaxSize) (others : Nat → Bool)
    {events : List ModuleEvent} {rets : List Int} {kernel : Kernel}
    (execution : run moduleStep (Kernel.boot kmallocMaxSize others) events = some (rets, kernel)) :
    (∀ event : ModuleEvent, (moduleStep kernel event).isSome ↔ event.allowed kernel = true) ∧
      (kernel.loaded = none → kernel.regions = others ∧ kernel.cdevs = others ∧
        kernel.heap.live.card = lostBlocks (Kernel.boot kmallocMaxSize others) events) ∧
      ∀ module, kernel.loaded = some module →
        others module.aesdMajor = false ∧
        kernel.regions = Function.update others module.aesdMajor true ∧
        kernel.cdevs = Function.update others module.aesdMajor true ∧
        kernel.heap.live.card = (module.system kernel.heap).ownedBlocks.length +
          lostBlocks (Kernel.boot kmallocMaxSize others) events ∧
        (module.system kernel.heap).ownedBlocks.length ≤ 11 ∧
        (module.system kernel.heap).entriesBytes =
          some (lastLines (linesSinceLoad (Kernel.boot kmallocMaxSize others) events)) := by
  have sound := Kernel.sound_run execution
  refine ⟨sound.isSome_iff, ?_⟩
  cases sound with
  | idle heap small balance =>
      constructor
      · intro _
        exact ⟨rfl, rfl, balance⟩
      · intro module loaded
        contradiction
  | busy heap module pending unused cdev carries balance =>
      constructor
      · intro idle
        contradiction
      · rintro _ ⟨⟩
        exact ⟨unused, rfl, rfl, balance, carries.length_ownedBlocks_le, carries.entriesBytes⟩

/-- The device cannot be added at first; an unloading behind `"a"` loses a block, and the
next load knows nothing of it. -/
theorem module_leaves_only_lost_blocks_reload :
    ∃ kernel module, run moduleStep (Kernel.boot ⟨64, by decide⟩ (· == 1))
        [.load ⟨.ok 240, some ⟨-12, by decide⟩⟩, .load ⟨.ok 240, none⟩, .call (.openFile 0),
          .call (.write ⟨.success, some 0, some [97]⟩), .release 0, .unload,
          .load ⟨.ok 241, none⟩, .call (.openFile 0),
          .call (.write ⟨.success, some 0, some [98, 10]⟩)] =
        some ([-12, 0, 0, 1, 0, 0, 0, 0, 2], kernel) ∧
      kernel.loaded = some module ∧
      kernel.heap.live.card = (module.system kernel.heap).ownedBlocks.length + 1 ∧
      (module.system kernel.heap).entriesBytes = some [[98, 10]] := by
  have ends : (run moduleStep (Kernel.boot ⟨64, by decide⟩ (· == 1))
      [.load ⟨.ok 240, some ⟨-12, by decide⟩⟩, .load ⟨.ok 240, none⟩, .call (.openFile 0),
        .call (.write ⟨.success, some 0, some [97]⟩), .release 0, .unload,
        .load ⟨.ok 241, none⟩, .call (.openFile 0),
        .call (.write ⟨.success, some 0, some [98, 10]⟩)]).map
      (fun result => (result.1, result.2.loaded.isSome)) =
        some ([-12, 0, 0, 1, 0, 0, 0, 0, 2], true) := by decide +kernel
  rcases Option.map_eq_some_iff.mp ends with ⟨⟨rets, kernel⟩, execution, outcome⟩
  rcases Option.isSome_iff_exists.mp (congrArg Prod.snd outcome) with ⟨module, loaded⟩
  rw [show rets = _ from congrArg Prod.fst outcome] at execution
  rcases (module_leaves_only_lost_blocks _ _ execution).2.2 module loaded with
    ⟨_, _, _, balance, _, lines⟩
  exact ⟨kernel, module, execution, loaded, balance, lines⟩

end Aesd.Driver
