import Aesd.Server.DeviceCalls
import Aesd.Server.Handler

/-!
# The server among other users of the device

Handler threads run interleaved, and other processes use the device between
their steps.  Whatever happens, the device carries some lines, and what passes
through the calls of one thread can be followed along the run.
-/

namespace Aesd.Server

open Aesd.Driver Aesd.Transition

/-- A step of a handler thread, or a file operation of another process on the
device. -/
inductive ServerEvent (τ : Type) where
  | thread (self : τ) (outcome : Outcome)
  | device (operation : Operation)

section

variable {τ : Type} [DecidableEq τ]

/-- The server on a device that others use too; the output is the answer to the
thread that took the step. -/
def sharedStep : Machine (ServerState τ) (ServerEvent τ) (Option (τ × Answer))
  | server, .thread self outcome =>
      (serverStep server (self, outcome)).map fun result => (some (self, result.1), result.2)
  | server, .device operation =>
      (operationStep server.process.system operation).map fun result =>
        (none, { server with process := { server.process with system := result.2 } })

/-- A step leaves a handler alone, or is a step of it. -/
theorem sharedStep_cases {server server' : ServerState τ} {event : ServerEvent τ}
    {output : Option (τ × Answer)} (self : τ)
    (step : sharedStep server event = some (output, server')) :
    (∀ outcome, event ≠ .thread self outcome) ∧ (∀ answer, output ≠ some (self, answer)) ∧
        server'.handlers self = server.handlers self ∨
      ∃ outcome answer, event = .thread self outcome ∧ output = some (self, answer) ∧
        handlerStep self (server.handlers self, server.process) outcome =
          some (answer, server'.handlers self, server'.process) := by
  cases event with
  | device operation =>
      simp only [sharedStep, Option.map_eq_some_iff, Prod.exists, Prod.mk.injEq] at step
      rcases step with ⟨ret, system, _, rfl, rfl⟩
      exact Or.inl ⟨by rintro _ ⟨⟩, by rintro _ ⟨⟩, rfl⟩
  | thread thread outcome =>
      simp only [sharedStep, Option.map_eq_some_iff, Prod.exists, Prod.mk.injEq] at step
      rcases step with ⟨answer, server'', step, rfl, rfl⟩
      rcases serverStep_eq_some_iff.mp step with ⟨handler, process, taken, rfl⟩
      by_cases same : thread = self
      · subst same
        refine Or.inr ⟨outcome, answer, rfl, rfl, ?_⟩
        rw [taken]
        simp only [Function.update_self]
      · refine Or.inl ⟨?_, ?_, Function.update_of_ne (Ne.symm same) ..⟩
        · rintro _ ⟨⟩
          exact same rfl
        · rintro _ ⟨⟩
          exact same rfl

/-- The server can run one of its threads alone. -/
theorem run_shared {self : τ} {server : ServerState τ} {outcomes : List Outcome}
    {answers : List Answer} {handler : Handler} {process : Process τ}
    (execution : run (handlerStep self) (server.handlers self, server.process) outcomes =
      some (answers, handler, process)) :
    run sharedStep server (outcomes.map (.thread self)) =
      some (answers.map fun answer => some (self, answer),
        ⟨process, Function.update server.handlers self handler⟩) := by
  induction outcomes generalizing server answers with
  | nil =>
      simp only [run_nil, Option.some.injEq, Prod.mk.injEq] at execution
      rcases execution with ⟨rfl, rfl, rfl⟩
      simp
  | cons outcome outcomes ih =>
      rcases (run_cons_eq_some_iff ..).mp execution with
        ⟨answer, ⟨handler', process'⟩, rest, step, remaining, rfl⟩
      let middle : ServerState τ := ⟨process', Function.update server.handlers self handler'⟩
      have first : sharedStep server (.thread self outcome) =
          some (some (self, answer), middle) := by
        simp [sharedStep, serverStep, step, middle]
      have here : (middle.handlers self, middle.process) = (handler', process') := by
        simp [middle]
      have later := ih (here ▸ remaining)
      simp only [middle, Function.update_idem] at later
      exact (run_cons_eq_some_iff ..).mpr ⟨_, middle, _, first, later, rfl⟩

/-- What a view of its steps sees of one thread. -/
def ofThread {κ : Type} (self : τ) (view : Handler → Answer → Handler → List κ)
    (server : ServerState τ) (_ : ServerEvent τ) (output : Option (τ × Answer))
    (server' : ServerState τ) : List κ :=
  match output with
  | some (thread, answer) =>
      if thread = self then view (server.handlers self) answer (server'.handlers self) else []
  | none => []

theorem ofThread_of_ne {κ : Type} {self : τ} (view : Handler → Answer → Handler → List κ)
    {server server' : ServerState τ} {event : ServerEvent τ} {output : Option (τ × Answer)}
    (other : ∀ answer, output ≠ some (self, answer)) :
    ofThread self view server event output server' = [] := by
  cases output with
  | none => rfl
  | some result =>
      have different : result.1 ≠ self := by
        rintro rfl
        exact other result.2 rfl
      exact if_neg different

end

/-! ## The device along a run -/

section

variable {τ : Type} {self : τ} {outcome : Outcome} {handler handler' : Handler}
  {process process' : Process τ} {answer : Answer}

/-- The device carries some lines. -/
def Process.Intact (process : Process τ) : Prop :=
  ∃ committed pending, Carries process.system committed pending

/-- A write that reports no error has consumed its data up to the first newline. -/
theorem Process.sysWrite_intact {data : List Byte} {fd ret : Int} (intact : process.Intact)
    (call : process.sysWrite outcome fd data = some (ret, process')) :
    process'.Intact ∧ (ret ≠ -1 → ret = (consumed data).length) := by
  rcases Process.sysWrite_cases call with
    ⟨failed, rfl⟩ | ⟨_, _, result, system', written, returned, rfl⟩
  · exact ⟨intact, fun works => absurd failed works⟩
  · rcases intact with ⟨committed, pending, carries⟩
    rcases carries.write ⟨outcome.write, some fd.toNat, some data⟩ with
      ⟨result', system'', run, effect⟩
    cases Option.some.inj (written.symm.trans run)
    rcases effect.commits carries with ⟨pending', carries'⟩
    refine ⟨⟨_, pending', carries'⟩, fun works => ?_⟩
    cases effect with
    | consumes => exact returned.trans (if_neg (Int.not_lt.mpr (Int.natCast_nonneg _)))
    | fails _ _ negative => exact absurd (returned.trans (if_pos negative)) works
    | loses => exact absurd (returned.trans (if_pos (by decide))) works

theorem HandlerStep.intact
    (step : HandlerStep self outcome handler process answer handler' process')
    (intact : process.Intact) : process'.Intact := by
  have moved (fPos : FileId → Int) :
      Process.Intact { process with system := { process.system with fPos := fPos } } := by
    rcases intact with ⟨committed, pending, carries⟩
    exact ⟨committed, pending, carries.congr_fPos fPos⟩
  have close (fd : Int) : (process.sysClose outcome fd).2.Intact := by
    rw [Process.Intact, (Process.sysClose_frame ..).2.2]
    exact intact
  cases step with
  | openFile site fd _ pc call =>
      rcases Process.sysOpen_cases call with ⟨_, _, rfl⟩ | ⟨_, _, _, rfl⟩
      · exact intact
      · exact moved _
  | writeFails fd _ pc call => exact (Process.sysWrite_intact intact call).1
  | write fd ret _ pc call => exact (Process.sysWrite_intact intact call).1
  | readFails fd bytes _ pc call =>
      rcases intact with ⟨_, _, carries⟩
      rcases Process.sysRead_moves carries call with ⟨fPos, rfl⟩
      exact moved fPos
  | read fd ret bytes _ pc call =>
      rcases intact with ⟨_, _, carries⟩
      rcases Process.sysRead_moves carries call with ⟨fPos, rfl⟩
      exact moved fPos
  | ioctl fd =>
      rcases process.sysIoctl_moves outcome fd handler.aesdSeektoData with ⟨fPos, same⟩
      rw [same]
      exact moved fPos
  | closeData fd => exact close fd
  | closeFinal fd => exact close fd
  | _ => exact intact

variable [DecidableEq τ]

theorem sharedStep_intact {server server' : ServerState τ} {event : ServerEvent τ}
    {output : Option (τ × Answer)} (intact : server.process.Intact)
    (step : sharedStep server event = some (output, server')) : server'.process.Intact := by
  cases event with
  | device operation =>
      simp only [sharedStep, Option.map_eq_some_iff, Prod.exists, Prod.mk.injEq] at step
      rcases step with ⟨ret, system, step, _, rfl⟩
      rcases intact with ⟨committed, pending, carries⟩
      rcases carries.operation operation with ⟨ret', system', pending', step', carries'⟩
      cases Option.some.inj (step.symm.trans step')
      exact ⟨_, pending', carries'⟩
  | thread thread outcome =>
      simp only [sharedStep, Option.map_eq_some_iff, Prod.exists, Prod.mk.injEq] at step
      rcases step with ⟨answer, server'', step, _, rfl⟩
      rcases serverStep_eq_some_iff.mp step with ⟨handler, process, taken, rfl⟩
      exact (handlerStep_cases taken).intact intact

/-- The device is in a state that operations have left. -/
def Process.Loaded (process : Process τ) : Prop :=
  ∃ kmallocMaxSize operations rets,
    run operationStep (aesdInitModule kmallocMaxSize) operations = some (rets, process.system)

omit [DecidableEq τ] in
theorem Process.Loaded.intact (loaded : process.Loaded) : process.Intact := by
  rcases loaded with ⟨kmallocMaxSize, operations, rets, reached⟩
  rcases (carries_init kmallocMaxSize).run_operations operations with
    ⟨rets', system, pending, reached', carries⟩
  cases Option.some.inj (reached.symm.trans reached')
  exact ⟨_, pending, carries⟩

end

/-- One client of a server whose device is freshly loaded. -/
def oneClient (chunks : List Chunk) : ServerState Unit :=
  .start (Process.fresh Unit 4) (fun _ => 3) fun _ => chunks

end Aesd.Server
