import Aesd.Server.Chunking
import Aesd.Server.Packets
import Aesd.Server.Sharing

/-!
# Who can go on

A handler that has not returned can take its next step unless it waits for the mutex.
At most one handler is in a critical section, and the mutex is never taken from it.  So
the server stands still only when each handler has returned, or waits for the mutex
that one of them has kept after a failed transfer.
-/

namespace Aesd.Server

open Aesd.Driver Aesd.Transition

/-! ## Steps that are possible -/

section

variable {τ : Type} {handler : Handler} {process : Process τ}

/-- Every write to an intact device returns. -/
theorem Process.Intact.sysWrite_isSome (intact : process.Intact) (outcome : Outcome) (fd : Int)
    (data : List Byte) : (process.sysWrite outcome fd data).isSome := by
  unfold Process.sysWrite
  split
  · rfl
  · rcases intact with ⟨committed, pending, carries⟩
    rcases carries.write ⟨outcome.write, some fd.toNat, some data⟩ with ⟨ret, system', result, _⟩
    have called : aesdWrite outcome.write (some fd.toNat) (some data) process.system =
        some (ret, system') := result
    rw [called]
    rfl

theorem Process.Intact.sysRead_isSome (intact : process.Intact) (outcome : Outcome) (fd : Int)
    (count : Nat) : (process.sysRead outcome fd count).isSome := by
  unfold Process.sysRead
  split
  · rfl
  · rcases intact with ⟨committed, pending, carries⟩
    rcases carries.read_returns outcome.read (some fd.toNat) true count with
      ⟨ret, bytes, fPos, result⟩
    rw [result]
    rfl

theorem Process.sysOpen_isSome {access : Access} {number : Nat}
    (unused : process.descriptors number = none) :
    (process.sysOpen (.success number) access).isSome := by
  simp [Process.sysOpen, Outcome.success, unused]

/-- The handler has come to a lock of the mutex. -/
def Handler.AtLock (handler : Handler) : Prop :=
  ∃ loop, handler.pc = .lock loop

/-- On an intact device with an unused descriptor number, a handler can take its next
step exactly if it has not returned and does not wait for the mutex. -/
theorem handlerStep_isSome_iff (self : τ) (intact : process.Intact)
    (finite : process.FinitelyOpen) :
    (∃ outcome, outcome.fails = false ∧ (handlerStep self (handler, process) outcome).isSome) ↔
      (∀ ok, handler.pc ≠ .returned ok) ∧ (handler.AtLock → process.lock = none) := by
  constructor
  · rintro ⟨outcome, _, possible⟩
    rcases Option.isSome_iff_exists.mp possible with ⟨⟨answer, handler', process'⟩, step⟩
    constructor
    · intro ok returned
      simp [handlerStep, returned] at step
    · rintro ⟨loop, pc⟩
      simp only [handlerStep, pc] at step
      split at step
      · contradiction
      · assumption
  · rintro ⟨live, free⟩
    rcases finite with ⟨number, unused⟩
    refine ⟨.success number, rfl, ?_⟩
    cases pc : handler.pc with
    | returned ok => exact absurd pc (live ok)
    | lock loop => simp [handlerStep, pc, free ⟨loop, pc⟩]
    | openFile site =>
        simp only [handlerStep, pc, Option.isSome_map]
        exact Process.sysOpen_isSome (unused number (Nat.le_refl _))
    | call use fd =>
        simp only [handlerStep, pc]
        cases use with
        | write =>
            simp only [useStep, Option.isSome_map]
            exact intact.sysWrite_isSome ..
        | read =>
            simp only [useStep, Option.isSome_map]
            exact intact.sysRead_isSome ..
        | ioctl => rfl
        | closeData => rfl
        | closeFinal => rfl
    | recv => simp [handlerStep, pc, Outcome.success]
    | send => simp [handlerStep, pc, Outcome.success]
    | assign site fd => simp [handlerStep, pc]
    | check site => simp [handlerStep, pc]
    | load use => simp [handlerStep, pc]
    | unlock loop => simp [handlerStep, pc]
    | closeSocket => simp [handlerStep, pc]
    | complete => simp [handlerStep, pc]

end

/-! ## The owner of the mutex -/

section

variable {τ : Type}

/-- A handler in a critical section owns the mutex, and the owner is in one or has
given up in it. -/
structure ServerState.Guarded (server : ServerState τ) : Prop where
  inside : ∀ thread, (server.handlers thread).pc.critical = true →
    server.process.lock = some thread
  owner : ∀ thread, server.process.lock = some thread →
    (server.handlers thread).pc.critical = true ∨ (server.handlers thread).pc = .returned false

theorem ServerState.guarded_start (process : Process τ) (clientSocketFds : τ → Nat)
    (clients : τ → List Chunk) :
    (ServerState.start process clientSocketFds clients).Guarded := by
  constructor
  · intro thread inside
    simp [ServerState.start, clientDataHandler, Pc.critical] at inside
  · intro thread held
    simp [ServerState.start] at held

/-- Two handlers are never in critical sections together. -/
theorem ServerState.Guarded.exclusive {server : ServerState τ} (guarded : server.Guarded)
    {first second : τ} (inside : (server.handlers first).pc.critical = true)
    (inside' : (server.handlers second).pc.critical = true) : first = second :=
  Option.some.inj ((guarded.inside first inside).symm.trans (guarded.inside second inside'))

variable [DecidableEq τ]

/-- Every step keeps the owner, failed transfers included. -/
theorem ServerState.Guarded.step {server server' : ServerState τ} {event : τ × Outcome}
    {answer : Answer} (guarded : server.Guarded)
    (step : serverStep server event = some (answer, server')) : server'.Guarded := by
  rcases event with ⟨thread, outcome⟩
  rcases serverStep_eq_some_iff.mp step with ⟨handler, process, taken, rfl⟩
  have live : (server.handlers thread).pc ≠ .returned false := by
    intro returned
    simp [handlerStep, returned] at taken
  have effect := (handlerStep_cases taken).lockEffect
  have own : handler.pc.critical = true → process.lock = some thread := by
    intro inside
    cases effect with
    | keeps _ section_eq lock_eq =>
        rw [lock_eq]
        exact guarded.inside thread (section_eq ▸ inside)
    | takes _ _ _ _ lock_eq => exact lock_eq
    | releases _ _ outside => simp [outside] at inside
    | abandons _ _ returned => simp [returned, Pc.critical] at inside
  have owns : process.lock = some thread →
      handler.pc.critical = true ∨ handler.pc = .returned false := by
    intro held
    cases effect with
    | keeps _ section_eq lock_eq =>
        rw [lock_eq] at held
        rw [section_eq]
        exact Or.inl ((guarded.owner thread held).resolve_right live)
    | takes _ _ _ inside => exact Or.inl inside
    | releases _ _ _ lock_eq => simp [lock_eq] at held
    | abandons _ _ returned => exact Or.inr returned
  have others : ∀ other, other ≠ thread →
      (process.lock = some other ↔ server.process.lock = some other) := by
    intro other different
    cases effect with
    | keeps _ _ lock_eq => rw [lock_eq]
    | takes _ free _ _ lock_eq => simp [lock_eq, free, Ne.symm different]
    | releases _ inside _ lock_eq =>
        simp [lock_eq, guarded.inside thread inside, Ne.symm different]
    | abandons _ _ _ lock_eq => rw [lock_eq]
  constructor
  · intro other
    by_cases same : other = thread
    · subst same
      simp only [Function.update_self]
      exact own
    · simp only [Function.update_of_ne same]
      exact fun inside => (others other same).mpr (guarded.inside other inside)
  · intro other
    by_cases same : other = thread
    · subst same
      simp only [Function.update_self]
      exact owns
    · simp only [Function.update_of_ne same]
      exact fun held => guarded.owner other ((others other same).mp held)

/-! ## Servers that stand still -/

/-- The handler can take its next step without a failed call. -/
def ServerState.CanStep (server : ServerState τ) (thread : τ) : Prop :=
  ∃ outcome, outcome.fails = false ∧ (serverStep server (thread, outcome)).isSome

/-- What every state of a run satisfies. -/
structure ServerState.Running (server : ServerState τ) : Prop where
  intact : server.process.Intact
  finite : server.process.FinitelyOpen
  guarded : server.Guarded

theorem ServerState.Running.step {server server' : ServerState τ} {event : τ × Outcome}
    {answer : Answer} (running : server.Running)
    (step : serverStep server event = some (answer, server')) : server'.Running := by
  rcases serverStep_eq_some_iff.mp step with ⟨handler, process, taken, rfl⟩
  have taken' := handlerStep_cases taken
  exact ⟨taken'.intact running.intact, taken'.finitelyOpen running.finite,
    running.guarded.step step⟩

theorem ServerState.Running.run {server server' : ServerState τ} {events : List (τ × Outcome)}
    {answers : List Answer} (running : server.Running)
    (execution : run serverStep server events = some (answers, server')) : server'.Running :=
  run_induction (motive := fun _ _ server => server.Running) running
    (fun _ _ _ _ _ _ _ running step => running.step step) execution

theorem ServerState.Running.canStep_iff {server : ServerState τ} (running : server.Running)
    (thread : τ) :
    server.CanStep thread ↔ (∀ ok, (server.handlers thread).pc ≠ .returned ok) ∧
      ((server.handlers thread).AtLock → server.process.lock = none) := by
  rw [← handlerStep_isSome_iff thread running.intact running.finite]
  simp [CanStep, serverStep]

/-- At most one handler is in a critical section; and in every state of a run, whatever has
failed, no handler can go on exactly if each has returned or waits for the mutex that a
handler has kept which returned after a failed transfer.  Without a failed transfer that
means that all have returned, and the mutex is free. -/
theorem server_stands_still_iff {process : Process τ} (loaded : process.Loaded)
    (finite : process.FinitelyOpen) (clientSocketFds : τ → Nat) (clients : τ → List Chunk)
    {events : List (τ × Outcome)} {answers : List Answer} {server : ServerState τ}
    (execution : run serverStep (.start process clientSocketFds clients) events =
      some (answers, server)) :
    (∀ first second, (server.handlers first).pc.critical = true →
      (server.handlers second).pc.critical = true → first = second) ∧
    ((∀ thread, ¬server.CanStep thread) ↔
      ∀ thread, (∃ ok, (server.handlers thread).pc = .returned ok) ∨
        (server.handlers thread).AtLock ∧ ∃ owner, server.process.lock = some owner ∧
          (server.handlers owner).pc = .returned false) ∧
    ((∀ answer ∈ answers, answer.failedTransfer = false) → (∀ thread, ¬server.CanStep thread) →
      (∀ thread, ∃ ok, (server.handlers thread).pc = .returned ok) ∧
        ∀ thread, server.process.lock ≠ some thread) := by
  have initial : (ServerState.start process clientSocketFds clients).Running :=
    ⟨loaded.intact, finite, ServerState.guarded_start process clientSocketFds clients⟩
  have running := initial.run execution
  have still : (∀ thread, ¬server.CanStep thread) ↔
      ∀ thread, (∃ ok, (server.handlers thread).pc = .returned ok) ∨
        (server.handlers thread).AtLock ∧ ∃ owner, server.process.lock = some owner ∧
          (server.handlers owner).pc = .returned false := by
    constructor
    · intro stuck thread
      by_cases live : ∀ ok, (server.handlers thread).pc ≠ .returned ok
      · right
        have waits := (running.canStep_iff thread).not.mp (stuck thread)
        simp only [not_and, not_forall] at waits
        rcases waits live with ⟨atLock, held⟩
        rcases Option.ne_none_iff_exists'.mp held with ⟨owner, owned⟩
        refine ⟨atLock, owner, owned, ?_⟩
        -- an owner inside its critical section could go on
        apply (running.guarded.owner owner owned).resolve_left
        intro inside
        apply stuck owner
        apply (running.canStep_iff owner).mpr
        constructor
        · intro ok returned
          simp [returned, Pc.critical] at inside
        · rintro ⟨loop, pc⟩
          simp [pc, Pc.critical] at inside
      · simp only [ne_eq, not_forall, not_not] at live
        exact Or.inl live
    · intro ends thread possible
      rcases (running.canStep_iff thread).mp possible with ⟨live, free⟩
      rcases ends thread with ⟨ok, returned⟩ | ⟨atLock, owner, owned, _⟩
      · exact live ok returned
      · rw [free atLock] at owned
        contradiction
  refine ⟨fun _ _ => running.guarded.exclusive, still, ?_⟩
  intro answered stuck
  have invariant := (ServerState.lockInvariant_start process clientSocketFds clients).run
    execution answered
  have returned : ∀ thread, ∃ ok, (server.handlers thread).pc = .returned ok := by
    intro thread
    apply (still.mp stuck thread).resolve_right
    rintro ⟨_, owner, owned, gone⟩
    exact invariant.heldByLive owner owned false gone
  refine ⟨returned, ?_⟩
  intro thread held
  rcases returned thread with ⟨ok, gone⟩
  exact invariant.heldByLive thread held ok gone

end

/-- The first handler keeps the mutex after a failed write, and the second comes to it. -/
def keptMutex : List (Bool × Outcome) :=
  List.replicate 6 (false, .success 6) ++
    (false, { Outcome.success 6 with fails := true }) :: List.replicate 4 (true, .success 7)

theorem server_stands_still_iff_kept :
    ∃ answers server, run serverStep twoHandlers keptMutex = some (answers, server) ∧
      ∀ thread, ¬server.CanStep thread := by
  have ends : (run serverStep twoHandlers keptMutex).map (fun result =>
      (result.2.process.lock, (result.2.handlers false).pc, (result.2.handlers true).pc)) =
        some (some false, .returned false, .lock .receive) := by decide +kernel
  rcases Option.map_eq_some_iff.mp ends with ⟨⟨answers, server⟩, execution, state⟩
  simp only [Prod.mk.injEq] at state
  rcases state with ⟨held, first, second⟩
  have loaded : (Process.fresh Bool 6).Loaded := ⟨⟨4096, by decide⟩, [], [], rfl⟩
  have finite : (Process.fresh Bool 6).FinitelyOpen := by
    refine ⟨6, fun number beyond => ?_⟩
    exact if_neg (Nat.not_lt.mpr beyond)
  refine ⟨answers, server, execution, ?_⟩
  apply (server_stands_still_iff loaded finite (fun thread => if thread then 5 else 4) twoClients
    execution).2.1.mpr
  intro thread
  cases thread with
  | false => exact Or.inl ⟨false, first⟩
  | true => exact Or.inr ⟨⟨.receive, second⟩, false, held, first⟩

end Aesd.Server
