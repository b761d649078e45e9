import Aesd.Server.Handler

/-!
# Who holds the mutex

A handler that leaves a critical section through a failed write or read returns
without unlocking.  In a run without such a failure the mutex is held exactly by
the handler that is inside its critical section; the first such failure leaves
it with a handler that has returned.
-/

namespace Aesd.Server

open Aesd.Driver Aesd.Transition

/-- Between the lock and the unlock. -/
def Pc.critical : Pc → Bool
  | .load use => use == .write || use == .read
  | .call use _ => use == .write || use == .read
  | .unlock _ => true
  | _ => false

/-- The data file could not be written or read. -/
def Answer.failedTransfer : Answer → Bool
  | .used .write _ ret => ret == -1
  | .used .read _ ret => ret == -1
  | _ => false

/-- The mutex is free, or held by a handler that has not returned. -/
def ServerState.HeldByLive {τ : Type} (server : ServerState τ) : Prop :=
  ∀ thread, server.process.lock = some thread →
    ∀ ok, (server.handlers thread).pc ≠ .returned ok

/-- What a step can do to the mutex. -/
inductive LockEffect {τ : Type} (self : τ) (handler : Handler) (process : Process τ)
    (answer : Answer) (handler' : Handler) (process' : Process τ) : Prop
  | keeps (answered : answer.failedTransfer = false)
      (section_eq : handler'.pc.critical = handler.pc.critical)
      (lock_eq : process'.lock = process.lock)
  | takes (answered : answer.failedTransfer = false) (free : process.lock = none)
      (outside : handler.pc.critical = false) (inside : handler'.pc.critical = true)
      (lock_eq : process'.lock = some self)
  | releases (answered : answer.failedTransfer = false) (inside : handler.pc.critical = true)
      (outside : handler'.pc.critical = false) (lock_eq : process'.lock = none)
  | abandons (answered : answer.failedTransfer = true) (inside : handler.pc.critical = true)
      (returned : handler'.pc = .returned false) (lock_eq : process'.lock = process.lock)

section

variable {τ : Type} {self : τ} {outcome : Outcome} {handler handler' : Handler}
  {process process' : Process τ} {answer : Answer}

theorem critical_afterIteration (handler : Handler) :
    handler.afterIteration.pc.critical = false := by
  simp only [Handler.afterIteration, Handler.goto]
  split
  · split <;> rfl
  · rfl

theorem critical_afterCheck (site : OpenSite) (fd : Int) :
    (site.afterCheck fd).critical = false := by
  rcases site.afterCheck_cases fd with ⟨_, _, failed⟩ | ⟨_, next⟩
  · rw [failed]
    rfl
  · rw [next]
    cases site <;> rfl

/-- Every step has one of the four effects on the mutex. -/
theorem HandlerStep.lockEffect
    (step : HandlerStep self outcome handler process answer handler' process') :
    LockEffect self handler process answer handler' process' := by
  cases step with
  | recvFails pc => exact .keeps rfl (by rw [pc]; rfl) rfl
  | recv pc => exact .keeps rfl (by rw [pc]; rfl) rfl
  | openFile site fd _ pc call => exact .keeps rfl (by rw [pc]; rfl) (Process.sysOpen_frame call).1
  | assign site fd pc => exact .keeps rfl (by rw [pc]; rfl) rfl
  | check site pc => exact .keeps rfl (by rw [pc]; exact critical_afterCheck ..) rfl
  | lock loop pc free =>
      exact .takes rfl free (by rw [pc]; rfl) (by cases loop <;> rfl) rfl
  | load use pc => exact .keeps rfl (by rw [pc]; rfl) rfl
  | ioctl fd pc =>
      exact .keeps rfl (by rw [pc]; exact critical_afterIteration _)
        (Process.sysIoctl_frame ..).1
  | writeFails fd _ pc call =>
      exact .abandons rfl (by rw [pc]; rfl) rfl (Process.sysWrite_frame call).1
  | write fd ret _ pc call works =>
      exact .keeps (beq_eq_false_iff_ne.mpr works) (by rw [pc]; rfl)
        (Process.sysWrite_frame call).1
  | closeData fd pc =>
      exact .keeps rfl (by rw [pc]; exact critical_afterIteration _)
        (Process.sysClose_frame ..).1
  | readFails fd bytes _ pc call =>
      exact .abandons rfl (by rw [pc]; rfl) rfl (Process.sysRead_frame call).1
  | read fd ret bytes _ pc call works =>
      exact .keeps (beq_eq_false_iff_ne.mpr works) (by rw [pc]; rfl)
        (Process.sysRead_frame call).1
  | unlock loop pc => exact .releases rfl (by rw [pc]; rfl) (by cases loop <;> rfl) rfl
  | sendFails pc => exact .keeps rfl (by rw [pc]; rfl) rfl
  | send pc =>
      refine .keeps rfl ?_ rfl
      rw [pc]
      by_cases done : handler.sendBuffer = [] <;> simp only [done, if_true, if_false] <;> rfl
  | closeSocket pc => exact .keeps rfl (by rw [pc]; rfl) rfl
  | complete pc => exact .keeps rfl (by rw [pc]; rfl) rfl
  | closeFinal fd pc => exact .keeps rfl (by rw [pc]; rfl) (Process.sysClose_frame ..).1

end

section

variable {τ : Type}

/-- The owner of the mutex is the handler inside its critical section. -/
def ServerState.LockInvariant (server : ServerState τ) : Prop :=
  ∀ thread, server.process.lock = some thread ↔ (server.handlers thread).pc.critical = true

theorem ServerState.LockInvariant.heldByLive {server : ServerState τ}
    (invariant : server.LockInvariant) : server.HeldByLive := by
  intro thread held ok returned
  have inside := (invariant thread).mp held
  rw [returned] at inside
  contradiction

theorem ServerState.lockInvariant_start (process : Process τ) (clientSocketFds : τ → Nat)
    (clients : τ → List Chunk) :
    (ServerState.start process clientSocketFds clients).LockInvariant := by
  intro thread
  simp [ServerState.start, clientDataHandler, Pc.critical]

variable [DecidableEq τ] {server server' : ServerState τ} {thread : τ} {outcome : Outcome}
  {answer : Answer}

/-- A step without a failed transfer keeps the invariant. -/
theorem ServerState.LockInvariant.step (invariant : server.LockInvariant)
    (step : serverStep server (thread, outcome) = some (answer, server'))
    (answered : answer.failedTransfer = false) : server'.LockInvariant := by
  rcases serverStep_eq_some_iff.mp step with ⟨handler, process, taken, rfl⟩
  have effect := (handlerStep_cases taken).lockEffect
  intro other
  show process.lock = some other ↔
    (Function.update server.handlers thread handler other).pc.critical = true
  by_cases same : other = thread
  · subst same
    rw [Function.update_self]
    cases effect with
    | keeps _ section_eq lock_eq =>
        rw [lock_eq, section_eq]
        exact invariant other
    | takes _ _ _ inside lock_eq => simp [lock_eq, inside]
    | releases _ _ outside lock_eq => simp [lock_eq, outside]
    | abandons failed => simp [failed] at answered
  · rw [Function.update_of_ne same]
    cases effect with
    | keeps _ _ lock_eq =>
        rw [lock_eq]
        exact invariant other
    | takes _ free _ _ lock_eq =>
        rw [← invariant other, lock_eq, free]
        simp [Ne.symm same]
    | releases _ inside _ lock_eq =>
        rw [← invariant other, lock_eq, (invariant thread).mpr inside]
        simp [Ne.symm same]
    | abandons failed => simp [failed] at answered

/-- A failed transfer leaves the mutex with a handler that has returned. -/
theorem ServerState.LockInvariant.not_heldByLive (invariant : server.LockInvariant)
    (step : serverStep server (thread, outcome) = some (answer, server'))
    (failed : answer.failedTransfer = true) : ¬server'.HeldByLive := by
  rcases serverStep_eq_some_iff.mp step with ⟨handler, process, taken, rfl⟩
  intro live
  cases (handlerStep_cases taken).lockEffect with
  | keeps answered => simp [answered] at failed
  | takes answered => simp [answered] at failed
  | releases answered => simp [answered] at failed
  | abandons _ inside returned lock_eq =>
      have held : process.lock = some thread := by
        rw [lock_eq]
        exact (invariant thread).mpr inside
      exact live thread held false (by simpa using returned)

theorem ServerState.LockInvariant.run (invariant : server.LockInvariant)
    {events : List (τ × Outcome)} {answers : List Answer}
    (execution : run serverStep server events = some (answers, server'))
    (answered : ∀ answer ∈ answers, answer.failedTransfer = false) : server'.LockInvariant := by
  induction events generalizing server answers with
  | nil =>
      rw [run_nil, Option.some.injEq, Prod.mk.injEq] at execution
      exact execution.2 ▸ invariant
  | cons event events ih =>
      rcases (run_cons_eq_some_iff ..).mp execution with
        ⟨answer, middle, rest, first, remaining, rfl⟩
      exact ih (invariant.step first (answered answer List.mem_cons_self)) remaining
        fun later member => answered later (List.mem_cons_of_mem _ member)

end

/-- Over all interleavings, chunks and failures: in every state of a run the
mutex is free or held by a handler that has not returned, exactly when no write
to and no read from the data file has failed in it. -/
theorem mutex_held_by_live_handler_iff {τ : Type} [DecidableEq τ] (process : Process τ)
    (clientSocketFds : τ → Nat) (clients : τ → List Chunk) (events : List (τ × Outcome))
    (answers : List Answer) (server : ServerState τ)
    (execution : run serverStep (.start process clientSocketFds clients) events =
      some (answers, server)) :
    (∀ front firstAnswers middle, front <+: events →
        run serverStep (.start process clientSocketFds clients) front =
          some (firstAnswers, middle) →
        middle.HeldByLive) ↔
      ∀ answer ∈ answers, answer.failedTransfer = false := by
  have initial := ServerState.lockInvariant_start process clientSocketFds clients
  constructor
  · intro live
    induction events using List.reverseRecOn generalizing answers server with
    | nil =>
        rw [run_nil, Option.some.injEq, Prod.mk.injEq] at execution
        simp [← execution.1]
    | append_singleton events event ih =>
        rcases (run_concat_eq_some_iff ..).mp execution with
          ⟨middle, firstAnswers, answer, before, last, rfl⟩
        have answered := ih firstAnswers middle before fun front firstAnswers middle isPrefix =>
          live front firstAnswers middle (isPrefix.trans (List.prefix_append ..))
        have invariant := initial.run before answered
        intro other member
        rcases List.mem_append.mp member with earlier | final
        · exact answered other earlier
        · rw [List.mem_singleton.mp final]
          by_contra failed
          exact invariant.not_heldByLive last (Bool.not_eq_false _ ▸ failed)
            (live _ _ _ List.prefix_rfl execution)
  · intro answered front firstAnswers middle isPrefix before
    rcases isPrefix with ⟨back, rfl⟩
    rcases (run_append_eq_some_iff ..).mp execution with
      ⟨middle', first, rest, before', _, rfl⟩
    rw [before, Option.some.injEq, Prod.mk.injEq] at before'
    rcases before' with ⟨rfl, rfl⟩
    exact (initial.run before fun answer member =>
      answered answer (List.mem_append_left _ member)).heldByLive

/-- A handler that has written its line. -/
theorem mutex_held_by_live_handler_iff_written :
    ∃ answers server,
      run serverStep (.start (.fresh Unit 1) (fun _ => 0) fun _ => [⟨[newline], by decide⟩])
        (List.replicate 8 ((), .success 1)) = some (answers, server) ∧
      ∀ front firstAnswers middle, front <+: List.replicate 8 ((), Outcome.success 1) →
        run serverStep (.start (.fresh Unit 1) (fun _ => 0) fun _ => [⟨[newline], by decide⟩])
          front = some (firstAnswers, middle) → middle.HeldByLive :=
  ⟨_, _, rfl, (mutex_held_by_live_handler_iff _ _ _ _ _ _ rfl).mpr (by decide)⟩

/-- A handler whose write fails returns with the mutex. -/
theorem failed_write_keeps_mutex :
    ¬∀ answers server,
      run serverStep (.start (.fresh Unit 1) (fun _ => 0) fun _ => [⟨[newline], by decide⟩])
        (List.replicate 6 ((), .success 1) ++ [((), { Outcome.success 1 with fails := true })]) =
          some (answers, server) → server.HeldByLive := by
  intro live
  exact live _ _ rfl () rfl false rfl

end Aesd.Server
