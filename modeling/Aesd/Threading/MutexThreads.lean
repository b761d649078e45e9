import Aesd.Transition.Run
import Mathlib.Algebra.Order.Ring.Int
import Mathlib.Logic.Function.Basic

/-!
# Threads that obtain a mutex

A thread of `start_thread_obtaining_mutex` sleeps, obtains the mutex, holds it for
its time and releases it.  When a call fails it returns null at once, also between
the lock and the unlock; and the microseconds it sleeps are computed in 32 bits.
-/

namespace Aesd.Threading

open Aesd.Transition

/-! ## The threads -/

/-- The structure `thread_data`; all threads are given the same mutex. -/
structure ThreadData where
  waitToReleaseMs : UInt32
  waitToObtainMs : UInt32
  threadCompleteSuccess : Bool
  deriving DecidableEq, Repr

/-- The next call of `threadfunc`; at the end it sets its flag and returns. -/
inductive Pc where
  | sleep
  | lock
  | hold
  | unlock
  | complete
  | returned (ret : Option Nat)
  deriving DecidableEq, Repr

def Pc.hasReturned : Pc → Bool
  | .returned _ => true
  | _ => false

/-- Between the lock and the unlock. -/
def Pc.holds : Pc → Bool
  | .hold | .unlock => true
  | _ => false

/-- The next step is a call that can fail. -/
def Pc.isCall : Pc → Bool
  | .complete | .returned _ => false
  | _ => true

/-- A thread, with the address and the contents of its `thread_data`. -/
structure Thread where
  pc : Pc
  threadParam : Nat
  data : ThreadData
  deriving DecidableEq, Repr

def Thread.goto (thread : Thread) (pc : Pc) : Thread :=
  { thread with pc := pc }

/-- What a call has done; a `usleep` that succeeds lasts its argument at least. -/
inductive Call where
  | slept (microseconds : Nat)
  | obtained
  | released
  | failed
  deriving DecidableEq, Repr

/-- The argument of `usleep`, computed as an `unsigned int`. -/
def sleepArgument (ms : UInt32) : Nat :=
  (ms * 1000).toNat

section

variable {τ : Type}

/-- One step of `threadfunc`.  The lock waits while the mutex is held. -/
def threadfunc (self : τ) (works : Bool) (thread : Thread) (mutex : Option τ) :
    Option (Option Call × Thread × Option τ) :=
  let failed := some (some Call.failed, thread.goto (.returned none), mutex)
  match thread.pc with
  | .sleep =>
      if works then
        some (some (.slept (sleepArgument thread.data.waitToObtainMs)), thread.goto .lock, mutex)
      else
        failed
  | .lock =>
      if works then
        match mutex with
        | none => some (some .obtained, thread.goto .hold, some self)
        | some _ => none
      else
        failed
  | .hold =>
      if works then
        some (some (.slept (sleepArgument thread.data.waitToReleaseMs)), thread.goto .unlock,
          mutex)
      else
        -- the mutex stays locked
        failed
  | .unlock => if works then some (some .released, thread.goto .complete, none) else failed
  | .complete =>
      some (none,
        { thread with
          pc := .returned (some thread.threadParam)
          data := { thread.data with threadCompleteSuccess := true } }, mutex)
  | .returned _ => none

end

/-- What `malloc` returns, with the flag that happens to be in the block, and what
`pthread_create` returns. -/
structure StartOutcome where
  malloc : Option (Nat × Bool)
  pthreadCreate : Nat
  deriving DecidableEq, Repr

/-- Nothing without memory, since `exit(1)` ends the program; otherwise the thread,
if one has been created. -/
def startThreadObtainingMutex (waitToObtainMs waitToReleaseMs : Int32) (outcome : StartOutcome) :
    Option (Option Thread) :=
  outcome.malloc.map fun (threadFuncArgs, threadCompleteSuccess) =>
    if outcome.pthreadCreate = 0 then
      some
        { pc := .sleep
          threadParam := threadFuncArgs
          data :=
            { waitToReleaseMs := waitToReleaseMs.toUInt32
              waitToObtainMs := waitToObtainMs.toUInt32
              threadCompleteSuccess := threadCompleteSuccess } }
    else
      none

/-- The threads that share a mutex; `mutex` is its owner. -/
structure MutexThreads (τ : Type) where
  threads : τ → Option Thread
  mutex : Option τ
  exited : Bool

/-- Before the first thread is started. -/
def MutexThreads.start (τ : Type) : MutexThreads τ where
  threads _ := none
  mutex := none
  exited := false

/-- A call of `start_thread_obtaining_mutex` for the thread `self`, or a step of it. -/
inductive Event (τ : Type) where
  | start (self : τ) (waitToObtainMs waitToReleaseMs : Int32) (outcome : StartOutcome)
  | step (self : τ) (works : Bool)

/-- What a step shows: the result of a start, or the call of a thread. -/
inductive Output (τ : Type) where
  | started (created : Option Bool)
  | called (self : τ) (call : Option Call)

section

variable {τ : Type} [DecidableEq τ]

def MutexThreads.setThread (state : MutexThreads τ) (self : τ) (thread : Thread) :
    MutexThreads τ :=
  { state with threads := Function.update state.threads self (some thread) }

/-- One step of the program. -/
def mutexStep : Machine (MutexThreads τ) (Event τ) (Output τ)
  | state, .start self waitToObtainMs waitToReleaseMs outcome =>
      if state.exited || (state.threads self).isSome then
        none
      else
        match startThreadObtainingMutex waitToObtainMs waitToReleaseMs outcome with
        | none => some (.started none, { state with exited := true })
        | some none => some (.started (some false), state)
        | some (some thread) => some (.started (some true), state.setThread self thread)
  | state, .step self works =>
      if state.exited then
        none
      else
        (state.threads self).bind fun thread =>
          (threadfunc self works thread state.mutex).map fun (call, thread', mutex) =>
            (.called self call, { state.setThread self thread' with mutex := mutex })

/-- The call of a thread that an output shows. -/
def Output.callOf (self : τ) : Output τ → Option Call
  | .called other call => if other = self then call else none
  | .started _ => none

/-- The calls of a thread so far. -/
def callsOf (self : τ) (outputs : List (Output τ)) : List Call :=
  outputs.filterMap (Output.callOf self)

/-- The thread slept, obtained the mutex, held it for its time and released it. -/
def Thread.Accomplished (thread : Thread) (calls : List Call) : Prop :=
  calls = [.slept (thread.data.waitToObtainMs.toNat * 1000), .obtained,
    .slept (thread.data.waitToReleaseMs.toNat * 1000), .released]

instance (thread : Thread) (calls : List Call) : Decidable (thread.Accomplished calls) :=
  inferInstanceAs (Decidable (_ = _))

/-- No thread that has ended holds the mutex; a thread that has ended has returned its
own pointer, with the flag set exactly if it did all it had to do; and while some thread
has not ended, some thread can go on by a step in which no call fails. -/
structure MutexThreads.Lawful (outputs : List (Output τ)) (state : MutexThreads τ) : Prop where
  released : ∀ self, ∀ thread ∈ state.threads self, thread.pc.hasReturned = true →
    state.mutex ≠ some self
  reports : ∀ self, ∀ thread ∈ state.threads self, ∀ ret, thread.pc = .returned ret →
    ret = some thread.threadParam ∧
      (thread.data.threadCompleteSuccess = true ↔ thread.Accomplished (callsOf self outputs))
  goesOn : state.exited = false → ∀ self, ∀ thread ∈ state.threads self,
    thread.pc.hasReturned = false →
      ∃ other, (mutexStep state (.step other true)).isSome = true

/-- The microseconds of both times can be computed in 32 bits. -/
def ThreadData.TimesFit (data : ThreadData) : Prop :=
  data.waitToObtainMs.toNat * 1000 < 2 ^ 32 ∧ data.waitToReleaseMs.toNat * 1000 < 2 ^ 32

instance (data : ThreadData) : Decidable data.TimesFit :=
  inferInstanceAs (Decidable (_ ∧ _))

/-- The condition on a step: a call of a thread succeeds, and a thread that completes
has times that fit. -/
def MutexThreads.Succeeds (state : MutexThreads τ) : Event τ → Prop
  | .start .. => True
  | .step self works => ∀ thread ∈ state.threads self,
      (thread.pc.isCall = true → works = true) ∧ (thread.pc = .complete → thread.data.TimesFit)

instance (state : MutexThreads τ) : ∀ event, Decidable (state.Succeeds event)
  | .start .. => isTrue trivial
  | .step _ _ => inferInstanceAs (Decidable (∀ _ ∈ _, _))

/-- The steps of a thread in a word of events. -/
def Event.isStepOf (self : τ) : Event τ → Bool
  | .step other _ => other = self
  | .start .. => false

end

/-! ## The steps -/

section

variable {τ : Type} {self : τ} {works : Bool} {thread thread' : Thread} {mutex mutex' : Option τ}
  {call : Option Call}

/-- The steps of a thread. -/
inductive ThreadStep (self : τ) (thread : Thread) (mutex : Option τ) :
    Bool → Option Call → Thread → Option τ → Prop
  | fails (pc : thread.pc.isCall = true) :
      ThreadStep self thread mutex false (some .failed) (thread.goto (.returned none)) mutex
  | sleeps (pc : thread.pc = .sleep) :
      ThreadStep self thread mutex true
        (some (.slept (sleepArgument thread.data.waitToObtainMs))) (thread.goto .lock) mutex
  | locks (pc : thread.pc = .lock) (free : mutex = none) :
      ThreadStep self thread mutex true (some .obtained) (thread.goto .hold) (some self)
  | holds (pc : thread.pc = .hold) :
      ThreadStep self thread mutex true
        (some (.slept (sleepArgument thread.data.waitToReleaseMs))) (thread.goto .unlock) mutex
  | unlocks (pc : thread.pc = .unlock) :
      ThreadStep self thread mutex true (some .released) (thread.goto .complete) none
  | completes (works : Bool) (pc : thread.pc = .complete) :
      ThreadStep self thread mutex works none
        { thread with
          pc := .returned (some thread.threadParam)
          data := { thread.data with threadCompleteSuccess := true } } mutex

theorem threadfunc_fails (calls : thread.pc.isCall = true) :
    threadfunc self false thread mutex =
      some (some .failed, thread.goto (.returned none), mutex) := by
  unfold threadfunc
  cases pc : thread.pc with
  | complete => simp [pc, Pc.isCall] at calls
  | returned ret => simp [pc, Pc.isCall] at calls
  | _ => rfl

theorem threadfunc_cases
    (step : threadfunc self works thread mutex = some (call, thread', mutex')) :
    ThreadStep self thread mutex works call thread' mutex' := by
  have failed (calls : thread.pc.isCall = true) (broken : works = false) :
      ThreadStep self thread mutex works call thread' mutex' := by
    subst broken
    rw [threadfunc_fails calls, Option.some.injEq, Prod.mk.injEq, Prod.mk.injEq] at step
    rcases step with ⟨rfl, rfl, rfl⟩
    exact .fails calls
  cases pc : thread.pc with
  | sleep =>
      cases works with
      | false => exact failed (by rw [pc]; rfl) rfl
      | true =>
          simp only [threadfunc, pc, if_true, Option.some.injEq, Prod.mk.injEq] at step
          rcases step with ⟨rfl, rfl, rfl⟩
          exact .sleeps pc
  | lock =>
      cases works with
      | false => exact failed (by rw [pc]; rfl) rfl
      | true =>
          cases mutex with
          | some holder => simp [threadfunc, pc] at step
          | none =>
              simp only [threadfunc, pc, if_true, Option.some.injEq, Prod.mk.injEq] at step
              rcases step with ⟨rfl, rfl, rfl⟩
              exact .locks pc rfl
  | hold =>
      cases works with
      | false => exact failed (by rw [pc]; rfl) rfl
      | true =>
          simp only [threadfunc, pc, if_true, Option.some.injEq, Prod.mk.injEq] at step
          rcases step with ⟨rfl, rfl, rfl⟩
          exact .holds pc
  | unlock =>
      cases works with
      | false => exact failed (by rw [pc]; rfl) rfl
      | true =>
          simp only [threadfunc, pc, if_true, Option.some.injEq, Prod.mk.injEq] at step
          rcases step with ⟨rfl, rfl, rfl⟩
          exact .unlocks pc
  | complete =>
      simp only [threadfunc, pc, Option.some.injEq, Prod.mk.injEq] at step
      rcases step with ⟨rfl, rfl, rfl⟩
      exact .completes works pc
  | returned ret => simp [threadfunc, pc] at step

/-- The calls behind a thread that no call has failed. -/
def Thread.doneCalls (thread : Thread) : List Call :=
  let slept := Call.slept (sleepArgument thread.data.waitToObtainMs)
  let held := Call.slept (sleepArgument thread.data.waitToReleaseMs)
  match thread.pc with
  | .sleep => []
  | .lock => [slept]
  | .hold => [slept, .obtained]
  | .unlock => [slept, .obtained, held]
  | .complete | .returned _ => [slept, .obtained, held, .released]

theorem ThreadStep.doneCalls (step : ThreadStep self thread mutex works call thread' mutex')
    (meets : thread.pc.isCall = true → works = true) :
    thread'.doneCalls = thread.doneCalls ++ call.toList := by
  cases step with
  | fails pc => exact absurd (meets pc) Bool.false_ne_true
  | sleeps pc => simp [Thread.doneCalls, Thread.goto, pc]
  | locks pc => simp [Thread.doneCalls, Thread.goto, pc]
  | holds pc => simp [Thread.doneCalls, Thread.goto, pc]
  | unlocks pc => simp [Thread.doneCalls, Thread.goto, pc]
  | completes works pc => simp [Thread.doneCalls, pc]

/-- The owner of the mutex is between its lock and its unlock. -/
theorem ThreadStep.mutex_iff (step : ThreadStep self thread mutex works call thread' mutex')
    (meets : thread.pc.isCall = true → works = true)
    (owns : mutex = some self ↔ thread.pc.holds = true) :
    mutex' = some self ↔ thread'.pc.holds = true := by
  cases step with
  | fails pc => exact absurd (meets pc) Bool.false_ne_true
  | sleeps pc =>
      rw [owns, pc]
      rfl
  | locks pc free => exact iff_of_true rfl rfl
  | holds pc =>
      rw [owns, pc]
      rfl
  | unlocks pc => exact iff_of_false (by simp) (by simp [Thread.goto, Pc.holds])
  | completes works pc =>
      rw [owns, pc]
      rfl

/-- A step takes or gives back the mutex for its own thread only. -/
theorem ThreadStep.mutex_of_ne (step : ThreadStep self thread mutex works call thread' mutex')
    (owns : mutex = some self ↔ thread.pc.holds = true) {other : τ} (different : other ≠ self) :
    mutex' = some other ↔ mutex = some other := by
  cases step with
  | locks pc free => simp [free, Ne.symm different]
  | unlocks pc =>
      have held : mutex = some self := owns.mpr (by rw [pc]; rfl)
      simp [held, Ne.symm different]
  | _ => rfl

end

section

variable {τ : Type} [DecidableEq τ] {state state' : MutexThreads τ} {event : Event τ}
  {output : Output τ}

/-- The steps of the program. -/
inductive MutexStep (state : MutexThreads τ) : Event τ → Output τ → MutexThreads τ → Prop
  | exits (self : τ) (waitToObtainMs waitToReleaseMs : Int32) (outcome : StartOutcome) :
      MutexStep state (.start self waitToObtainMs waitToReleaseMs outcome) (.started none)
        { state with exited := true }
  | refuses (self : τ) (waitToObtainMs waitToReleaseMs : Int32) (outcome : StartOutcome) :
      MutexStep state (.start self waitToObtainMs waitToReleaseMs outcome)
        (.started (some false)) state
  | creates (self : τ) (waitToObtainMs waitToReleaseMs : Int32) (outcome : StartOutcome)
      (thread : Thread) (new : state.threads self = none) (pc : thread.pc = .sleep) :
      MutexStep state (.start self waitToObtainMs waitToReleaseMs outcome)
        (.started (some true)) (state.setThread self thread)
  | steps (self : τ) (works : Bool) (thread thread' : Thread) (call : Option Call)
      (mutex : Option τ) (going : state.exited = false) (found : state.threads self = some thread)
      (taken : ThreadStep self thread state.mutex works call thread' mutex) :
      MutexStep state (.step self works) (.called self call)
        { state.setThread self thread' with mutex := mutex }

theorem mutexStep_cases (step : mutexStep state event = some (output, state')) :
    MutexStep state event output state' := by
  cases event with
  | start self waitToObtainMs waitToReleaseMs outcome =>
      simp only [mutexStep] at step
      split at step
      · contradiction
      · rename_i new
        simp only [Bool.or_eq_true, not_or, Bool.not_eq_true, Option.isSome_eq_false_iff,
          Option.isNone_iff_eq_none] at new
        split at step
        · cases step
          exact .exits ..
        · cases step
          exact .refuses ..
        · rename_i thread created
          cases step
          refine .creates _ _ _ _ thread new.2 ?_
          simp only [startThreadObtainingMutex, Option.map_eq_some_iff] at created
          rcases created with ⟨⟨threadFuncArgs, threadCompleteSuccess⟩, _, created⟩
          split at created
          · cases created
            rfl
          · contradiction
  | step self works =>
      simp only [mutexStep] at step
      split at step
      · contradiction
      · rename_i going
        simp only [Option.bind_eq_some_iff, Option.map_eq_some_iff, Prod.exists,
          Prod.mk.injEq] at step
        rcases step with ⟨thread, found, call, thread', mutex, taken, rfl, rfl⟩
        exact .steps self works thread thread' call mutex (Bool.not_eq_true _ ▸ going) found
          (threadfunc_cases taken)

theorem mem_setThread {self other : τ} {thread otherThread : Thread} :
    otherThread ∈ (state.setThread self thread).threads other ↔
      other = self ∧ otherThread = thread ∨ other ≠ self ∧ otherThread ∈ state.threads other :=
  mem_update_some

theorem threads_setThread_of_ne {self other : τ} (thread : Thread) (different : other ≠ self) :
    (state.setThread self thread).threads other = state.threads other :=
  Function.update_of_ne different ..

end

/-! ## What holds without a failure -/

theorem sleepArgument_eq_iff (ms : UInt32) :
    sleepArgument ms = ms.toNat * 1000 ↔ ms.toNat * 1000 < 2 ^ 32 := by
  have wrapped : sleepArgument ms = ms.toNat * 1000 % 2 ^ 32 := UInt32.toNat_mul ..
  rw [wrapped]
  constructor
  · intro whole
    rw [← whole]
    exact Nat.mod_lt _ (by decide)
  · exact Nat.mod_eq_of_lt

/-- All calls succeeded; they are all there was to do if the times fit. -/
theorem Thread.accomplished_iff {thread : Thread}
    (done : thread.pc = .complete ∨ thread.pc.hasReturned = true) :
    thread.Accomplished thread.doneCalls ↔ thread.data.TimesFit := by
  have calls : thread.doneCalls =
      [.slept (sleepArgument thread.data.waitToObtainMs), .obtained,
        .slept (sleepArgument thread.data.waitToReleaseMs), .released] := by
    cases pc : thread.pc with
    | complete => simp [doneCalls, pc]
    | returned ret => simp [doneCalls, pc]
    | _ => simp [pc, Pc.hasReturned] at done
  rw [Accomplished, calls]
  simp [sleepArgument_eq_iff, ThreadData.TimesFit]

section

variable {τ : Type} [DecidableEq τ] {state state' : MutexThreads τ} {event : Event τ}
  {output : Output τ} {outputs : List (Output τ)}

theorem callsOf_concat (self : τ) (outputs : List (Output τ)) (output : Output τ) :
    callsOf self (outputs ++ [output]) =
      callsOf self outputs ++ (output.callOf self).toList := by
  rw [callsOf, List.filterMap_append]
  cases shown : output.callOf self with
  | none => simp [callsOf, shown]
  | some call => simp [callsOf, shown]

namespace MutexThreads

/-- The invariant of runs in which every step meets the condition. -/
structure Consistent (outputs : List (Output τ)) (state : MutexThreads τ) : Prop where
  calls : ∀ self, ∀ thread ∈ state.threads self, callsOf self outputs = thread.doneCalls
  unstarted : ∀ self, state.threads self = none → callsOf self outputs = []
  owner : ∀ self, state.mutex = some self ↔
    ∃ thread ∈ state.threads self, thread.pc.holds = true
  returned : ∀ self, ∀ thread ∈ state.threads self, ∀ ret, thread.pc = .returned ret →
    ret = some thread.threadParam ∧ thread.data.threadCompleteSuccess = true ∧
      thread.data.TimesFit

theorem consistent_start : Consistent [] (start τ) where
  calls := by rintro _ _ ⟨⟩
  unstarted _ _ := rfl
  owner _ := iff_of_false (by simp [start]) (by simp [start])
  returned := by rintro _ _ ⟨⟩

theorem Consistent.owner_iff (consistent : Consistent outputs state) {self : τ} {thread : Thread}
    (found : state.threads self = some thread) :
    state.mutex = some self ↔ thread.pc.holds = true := by
  rw [consistent.owner self]
  simp [found]

theorem Consistent.lawful (consistent : Consistent outputs state) : state.Lawful outputs := by
  constructor
  · intro self thread found returned held
    have inside := (consistent.owner_iff found).mp held
    cases pc : thread.pc <;> simp [pc, Pc.holds, Pc.hasReturned] at inside returned
  · intro self thread found ret pc
    rcases consistent.returned self thread found ret pc with ⟨own, flag, fit⟩
    rw [consistent.calls self thread found,
      Thread.accomplished_iff (.inr (by rw [pc]; rfl))]
    exact ⟨own, iff_of_true flag fit⟩
  · intro going self thread found running
    have enabled {other : τ} {otherThread : Thread}
        (found : state.threads other = some otherThread)
        (running : otherThread.pc.hasReturned = false)
        (free : otherThread.pc = .lock → state.mutex = none) :
        ∃ other, (mutexStep state (.step other true)).isSome = true := by
      refine ⟨other, ?_⟩
      cases pc : otherThread.pc with
      | returned ret => simp [pc, Pc.hasReturned] at running
      | lock => simp [mutexStep, going, found, threadfunc, pc, free pc]
      | _ => simp [mutexStep, going, found, threadfunc, pc]
    cases mutex : state.mutex with
    | none => exact enabled found running fun _ => mutex
    | some owner =>
        -- a thread that waits is overtaken by the owner
        rcases (consistent.owner owner).mp mutex with ⟨holder, found', inside⟩
        apply enabled found'
        · cases pc : holder.pc <;> simp [pc, Pc.holds, Pc.hasReturned] at inside ⊢
        · intro pc
          simp [pc, Pc.holds] at inside

/-- The result of a start says nothing about the calls of a thread. -/
theorem Consistent.started (consistent : Consistent outputs state) (created : Option Bool) :
    Consistent (outputs ++ [.started created]) state := by
  have quiet (self : τ) :
      callsOf self (outputs ++ [.started created]) = callsOf self outputs := by
    rw [callsOf_concat]
    exact List.append_nil _
  constructor
  · intro self
    rw [quiet]
    exact consistent.calls self
  · intro self
    rw [quiet]
    exact consistent.unstarted self
  · exact consistent.owner
  · exact consistent.returned

theorem Consistent.step (consistent : Consistent outputs state) (succeeds : state.Succeeds event)
    (step : MutexStep state event output state') : Consistent (outputs ++ [output]) state' := by
  cases step with
  | exits self waitToObtainMs waitToReleaseMs outcome =>
      have kept := consistent.started none
      exact ⟨kept.calls, kept.unstarted, kept.owner, kept.returned⟩
  | refuses self waitToObtainMs waitToReleaseMs outcome => exact consistent.started (some false)
  | creates self waitToObtainMs waitToReleaseMs outcome thread new pc =>
      have kept := consistent.started (some true)
      have notOwner : state.mutex ≠ some self := by
        rw [ne_eq, consistent.owner self]
        simp [new]
      constructor
      · apply forall_mem_update_some _ kept.calls
        rw [kept.unstarted self new, Thread.doneCalls, pc]
      · intro other absent
        by_cases same : other = self
        · exact kept.unstarted other (same ▸ new)
        · exact kept.unstarted other (threads_setThread_of_ne thread same ▸ absent)
      · intro other
        by_cases same : other = self
        · subst same
          apply iff_of_false notOwner
          rintro ⟨otherThread, member, inside⟩
          rcases mem_setThread.mp member with ⟨_, rfl⟩ | ⟨different, _⟩
          · simp [pc, Pc.holds] at inside
          · contradiction
        · rw [threads_setThread_of_ne thread same]
          exact consistent.owner other
      · apply forall_mem_update_some _ consistent.returned
        intro ret returned
        cases pc.symm.trans returned
  | steps self works thread thread' call mutex going found taken =>
      rcases succeeds thread found with ⟨calls, fit⟩
      have owns := consistent.owner_iff found
      constructor
      · intro other otherThread member
        rw [callsOf_concat]
        rcases mem_setThread.mp member with ⟨rfl, rfl⟩ | ⟨different, member⟩
        · rw [consistent.calls other thread found, taken.doneCalls calls]
          simp [Output.callOf]
        · rw [consistent.calls other otherThread member]
          simp [Output.callOf, Ne.symm different]
      · intro other absent
        have different : other ≠ self := by
          rintro rfl
          simp [setThread] at absent
        rw [callsOf_concat, consistent.unstarted other
          ((threads_setThread_of_ne thread' different).symm.trans absent)]
        simp [Output.callOf, Ne.symm different]
      · intro other
        by_cases same : other = self
        · subst same
          rw [taken.mutex_iff calls owns]
          simp [setThread]
        · rw [taken.mutex_of_ne owns same, consistent.owner other,
            ← threads_setThread_of_ne thread' same]
      · apply forall_mem_update_some _ consistent.returned
        intro ret returned
        cases taken with
        | fails pc => exact absurd (calls pc) Bool.false_ne_true
        | completes works pc =>
            cases returned
            exact ⟨rfl, rfl, fit pc⟩
        | _ => cases returned

/-- A step that misses the condition breaks the law. -/
theorem Consistent.succeeds (consistent : Consistent outputs state)
    (step : MutexStep state event output state') (lawful : state'.Lawful (outputs ++ [output])) :
    state.Succeeds event := by
  cases step with
  | exits => trivial
  | refuses => trivial
  | creates => trivial
  | steps self works thread thread' call mutex going found taken =>
      intro other found'
      cases found.symm.trans found'
      have reports := lawful.reports self thread' (mem_setThread.mpr (.inl ⟨rfl, rfl⟩))
      have worked (goesOn : thread.pc ≠ .complete) : (thread.pc.isCall = true → true = true) ∧
          (thread.pc = .complete → thread.data.TimesFit) :=
        ⟨fun _ => rfl, fun complete => absurd complete goesOn⟩
      cases taken with
      | fails pc =>
          have own := (reports none rfl).1
          contradiction
      | completes works pc =>
          constructor
          · intro calls
            rw [pc] at calls
            contradiction
          · intro _
            have done := (reports _ rfl).2.mp rfl
            rw [callsOf_concat, consistent.calls self thread found] at done
            apply (Thread.accomplished_iff (.inl pc)).mp
            simpa [Thread.Accomplished, Output.callOf] using done
      | sleeps pc => exact worked (by simp [pc])
      | locks pc => exact worked (by simp [pc])
      | holds pc => exact worked (by simp [pc])
      | unlocks pc => exact worked (by simp [pc])

end MutexThreads

end

/-! ## Whole runs -/

/-- The steps that a thread still makes. -/
def Pc.rest : Pc → Nat
  | .sleep => 5
  | .lock => 4
  | .hold => 3
  | .unlock => 2
  | .complete => 1
  | .returned _ => 0

theorem ThreadStep.rest_lt {τ : Type} {self : τ} {works : Bool} {thread thread' : Thread}
    {mutex mutex' : Option τ} {call : Option Call}
    (step : ThreadStep self thread mutex works call thread' mutex') :
    thread'.pc.rest < thread.pc.rest := by
  cases step with
  | fails pc =>
      cases here : thread.pc with
      | complete => simp [here, Pc.isCall] at pc
      | returned ret => simp [here, Pc.isCall] at pc
      | _ => simp [Thread.goto, Pc.rest]
  | sleeps pc => simp [Thread.goto, Pc.rest, pc]
  | locks pc => simp [Thread.goto, Pc.rest, pc]
  | holds pc => simp [Thread.goto, Pc.rest, pc]
  | unlocks pc => simp [Thread.goto, Pc.rest, pc]
  | completes works pc => simp [Pc.rest, pc]

section

variable {τ : Type} [DecidableEq τ]

/-- The number of steps of a thread in a word of events. -/
def stepsOf (self : τ) (events : List (Event τ)) : Nat :=
  events.countP (Event.isStepOf self)

theorem stepsOf_concat (self : τ) (events : List (Event τ)) (event : Event τ) :
    stepsOf self (events ++ [event]) =
      stepsOf self events + if event.isStepOf self then 1 else 0 := by
  simp [stepsOf, List.countP_append, List.countP_singleton]

/-- The steps that a thread has made and those that it still makes are five at most. -/
structure StepBound (name : τ) (events : List (Event τ)) (state : MutexThreads τ) : Prop where
  unstarted : state.threads name = none → stepsOf name events = 0
  started : ∀ thread ∈ state.threads name, stepsOf name events + thread.pc.rest ≤ 5

/-- Another step leaves the thread as it is. -/
theorem StepBound.idle {name : τ} {events : List (Event τ)} {event : Event τ}
    {state state' : MutexThreads τ} (bound : StepBound name events state)
    (foreign : event.isStepOf name = false) (unchanged : state'.threads name = state.threads name) :
    StepBound name (events ++ [event]) state' := by
  constructor
  · intro absent
    rw [stepsOf_concat, foreign]
    exact bound.unstarted (unchanged.symm.trans absent)
  · intro thread member
    rw [stepsOf_concat, foreign]
    exact bound.started thread (unchanged.symm.trans member)

theorem StepBound.step {name : τ} {events : List (Event τ)} {event : Event τ} {output : Output τ}
    {state state' : MutexThreads τ} (bound : StepBound name events state)
    (step : MutexStep state event output state') :
    StepBound name (events ++ [event]) state' := by
  cases step with
  | exits other _ _ outcome => exact bound.idle rfl rfl
  | refuses other _ _ outcome => exact bound.idle rfl rfl
  | creates other _ _ outcome thread new pc =>
      by_cases same : name = other
      · subst same
        constructor
        · intro absent
          simp [MutexThreads.setThread] at absent
        · intro otherThread member
          rcases mem_setThread.mp member with ⟨_, rfl⟩ | ⟨different, _⟩
          · rw [stepsOf_concat, bound.unstarted new, pc]
            exact Nat.le_refl 5
          · contradiction
      · exact bound.idle rfl (threads_setThread_of_ne thread same)
  | steps other works thread thread' call mutex going found taken =>
      by_cases same : name = other
      · subst same
        constructor
        · intro absent
          simp [MutexThreads.setThread] at absent
        · intro otherThread member
          rcases mem_setThread.mp member with ⟨_, rfl⟩ | ⟨different, _⟩
          · have before := bound.started thread found
            have lower := taken.rest_lt
            simp only [stepsOf_concat, Event.isStepOf, decide_true, if_true]
            omega
          · contradiction
      · have foreign : (Event.step other works).isStepOf name = false := by
          simp [Event.isStepOf, Ne.symm same]
        exact bound.idle foreign (threads_setThread_of_ne thread' same)

/-- No thread makes more than five steps. -/
theorem stepsOf_le (self : τ) {events : List (Event τ)} {outputs : List (Output τ)}
    {state : MutexThreads τ}
    (execution : run mutexStep (.start τ) events = some (outputs, state)) :
    stepsOf self events ≤ 5 := by
  have bound : StepBound self events state :=
    run_induction (motive := fun events _ state => StepBound self events state)
      ⟨fun _ => rfl, by rintro _ ⟨⟩⟩
      (fun _ _ _ _ _ _ _ before step => before.step (mutexStep_cases step)) execution
  cases found : state.threads self with
  | none =>
      rw [bound.unstarted found]
      exact Nat.zero_le 5
  | some thread => exact Nat.le_trans (Nat.le_add_right ..) (bound.started thread found)

/-- In every run, no thread makes more than five steps; and all states that it reaches
keep the law exactly when no call of a thread fails and every thread that completes has
times that fit. -/
theorem threads_report_iff {events : List (Event τ)} {outputs : List (Output τ)}
    {state : MutexThreads τ}
    (execution : run mutexStep (.start τ) events = some (outputs, state)) :
    (∀ self, stepsOf self events ≤ 5) ∧
      ((∀ front firstOutputs middle, front <+: events →
          run mutexStep (.start τ) front = some (firstOutputs, middle) →
          middle.Lawful firstOutputs) ↔
        Along mutexStep MutexThreads.Succeeds (.start τ) events) :=
  ⟨fun self => stepsOf_le self execution,
    forall_reached_iff_along (fun _ _ consistent => consistent.lawful)
      (fun _ _ _ _ _ consistent succeeds step =>
        consistent.step succeeds (mutexStep_cases step))
      (fun _ _ _ _ _ consistent step lawful =>
        consistent.succeeds (mutexStep_cases step) lawful)
      MutexThreads.consistent_start execution⟩

end

/-- Two threads, the second of which waits for the first. -/
def twoThreads : List (Event Bool) :=
  [.start true 10 20 ⟨some (1, false), 0⟩, .start false 10 20 ⟨some (2, true), 0⟩,
    .step true true, .step false true, .step true true, .step true true, .step true true,
    .step false true, .step true true, .step false true, .step false true, .step false true]

theorem threads_report_iff_twoThreads :
    ∃ outputs state, run mutexStep (.start Bool) twoThreads = some (outputs, state) ∧
      ∀ front firstOutputs middle, front <+: twoThreads →
        run mutexStep (.start Bool) front = some (firstOutputs, middle) →
        middle.Lawful firstOutputs :=
  ⟨_, _, rfl, (threads_report_iff rfl).2.mpr (by decide +kernel)⟩

/-- A `usleep` that fails behind the lock leaves the mutex with a thread that has
returned null; and a thread that is to hold the mutex for 4294968 milliseconds, which
are 704 microseconds in 32 bits, reports that it has. -/
theorem threads_break_law :
    (∃ outputs state, run mutexStep (.start Unit)
        [.start () 10 20 ⟨some (1, false), 0⟩, .step () true, .step () true, .step () false] =
          some (outputs, state) ∧ ¬state.Lawful outputs) ∧
      ∃ outputs state, run mutexStep (.start Unit)
        [.start () 10 4294968 ⟨some (1, false), 0⟩, .step () true, .step () true, .step () true,
          .step () true, .step () true] = some (outputs, state) ∧ ¬state.Lawful outputs := by
  constructor
  · refine ⟨_, _, rfl, fun lawful => ?_⟩
    exact lawful.released () _ rfl rfl rfl
  · refine ⟨_, _, rfl, fun lawful => ?_⟩
    have accomplished := (lawful.reports () _ rfl _ rfl).2.mp rfl
    exact absurd accomplished (by decide +kernel)

end Aesd.Threading
