import Aesd.Driver.Linearization
import Mathlib.Algebra.BigOperators.Group.Finset.Basic
import Mathlib.Algebra.Order.BigOperators.Group.Finset
import Mathlib.Algebra.Order.Ring.Int
import Mathlib.Data.Fintype.Basic

/-!
# Calls that come to an end

A call waits for nothing but the mutex, and the owner of the mutex waits for nothing.  Each
step brings a call nearer to its return, so the calls in progress come to an end in whatever
order they go on.
-/

namespace Aesd.Driver

open Aesd.Memory Aesd.Transition

/-! ## How far a call is from its return -/

def ReadStage.rank : ReadStage → Nat
  | .find => 2
  | .copy .. => 1

def WriteStage.rank : WriteStage → Nat
  | .scan => 5
  | .grow .. => 4
  | .append .. => 3
  | .commit _ => 2
  | .release _ => 1

/-- The steps that are left under the mutex, at most. -/
def Critical.rank : Critical → Nat
  | .read stage .. => stage.rank
  | .write stage .. => stage.rank
  | .llseek .. => 1
  | .adjust .. => 1
  | .done _ => 0

/-- The steps that are left of a call, at most. -/
def Pc.rank : Pc → Nat
  | .start _ => 10
  | .copying .. => 9
  | .locking _ => 8
  | .inside critical => critical.rank + 2
  | .returning _ => 1

theorem Critical.rank_le (critical : Critical) : critical.rank ≤ 5 := by
  cases critical with
  | read stage => cases stage <;> simp [rank, ReadStage.rank]
  | write stage => cases stage <;> simp [rank, WriteStage.rank]
  | llseek | adjust | done => simp [rank]

theorem Pc.rank_le (pc : Pc) : pc.rank ≤ 10 := by
  cases pc with
  | inside critical =>
      have few := critical.rank_le
      rw [rank]
      omega
  | start | copying | locking | returning => simp [rank]

/-- Each step under the mutex leaves fewer steps. -/
theorem Critical.rank_step {critical : Critical} {system : System} {next : Critical × System}
    (step : critical.step system = some next) : next.1.rank < critical.rank := by
  cases critical with
  | read stage outcome file pos count =>
      cases stage with
      | find =>
          simp only [Critical.step, readLockedStep] at step
          split at step
          · cases step
            simp [rank, ReadStage.rank]
          · cases step
            simp [rank, ReadStage.rank]
      | copy newEntry byteOffset =>
          simp only [Critical.step, readLockedStep] at step
          split at step
          · cases step
            simp [rank, ReadStage.rank]
          · rcases Option.map_eq_some_iff.mp step with ⟨bytes, _, rfl⟩
            simp [rank, ReadStage.rank]
  | write stage outcome file pos writeData count =>
      cases stage with
      | scan =>
          rcases Option.map_eq_some_iff.mp step with ⟨data, _, rfl⟩
          simp [rank, WriteStage.rank]
      | grow append newlineFound =>
          rcases Option.map_eq_some_iff.mp step with ⟨⟨writeBuffer, heap⟩, _, rfl⟩
          by_cases null : writeBuffer = .null
          · simp [rank, WriteStage.rank, null]
          · simp [rank, WriteStage.rank, null]
      | append append newlineFound =>
          rcases Option.map_eq_some_iff.mp step with ⟨heap, _, rfl⟩
          cases newlineFound <;> simp [rank, WriteStage.rank]
      | commit append =>
          rcases Option.map_eq_some_iff.mp step with ⟨⟨device, heap⟩, _, rfl⟩
          simp [rank, WriteStage.rank]
      | release retval =>
          rcases Option.map_eq_some_iff.mp step with ⟨heap, _, rfl⟩
          simp [rank, WriteStage.rank]
  | llseek file offset whence =>
      cases step
      simp [rank]
  | adjust file writeCmd writeCmdOffset =>
      cases step
      simp [rank]
  | done reply => contradiction

/-- So does what a call does before. -/
theorem Operation.rank_begin (operation : Operation) (pos : Int) (system : System) :
    (operation.begin pos system).1.rank < 10 := by
  cases operation with
  | openFile file => simp [begin, Pc.rank]
  | read outcome filp buf count =>
      cases filp <;> cases buf <;> simp [begin, Pc.rank]
  | write call =>
      rcases call with ⟨outcome, filp, buf⟩
      cases filp with
      | none => simp [begin, Pc.rank]
      | some file =>
          cases buf with
          | none => simp [begin, Pc.rank]
          | some data =>
              simp only [begin]
              split
              · simp [Pc.rank]
              · simp [Pc.rank]
  | llseek lock file offset whence => simp [begin, Pc.rank]
  | ioctl outcome file cmd arg =>
      simp only [begin]
      split
      · simp [Pc.rank]
      · split
        · split
          · simp [Pc.rank]
          · simp [Pc.rank]
        · simp [Pc.rank]

theorem rank_copyData {outcome : WriteOutcome} {file : FileId} {data : List Byte} {pos : Int}
    {writeData : Pointer} {system : System} {next : Pc × System}
    (step : copyData outcome file data pos writeData system = some next) : next.1.rank < 9 := by
  unfold copyData at step
  split at step
  · rcases Option.map_eq_some_iff.mp step with ⟨heap, _, rfl⟩
    simp [Pc.rank]
  · rcases Option.map_eq_some_iff.mp step with ⟨heap, _, rfl⟩
    simp [Pc.rank]

/-! ## Steps of calls in progress -/

/-- The steps that are left of a call in progress, if there is one. -/
def rankOf (call : Option Call) : Nat :=
  (call.map fun call => call.pc.rank).getD 0

section

variable {τ : Type} [DecidableEq τ]

/-- The next step of the call of a thread. -/
def advanceStep : Machine (SharedDevice τ) τ (Option (Int × List Byte)) :=
  fun device thread => callStep device (.advance thread)

variable {device target : SharedDevice τ} {thread : τ}

/-- A step changes the call of its thread only, and leaves fewer steps of it. -/
theorem SharedDevice.rank_advance {call : Call} {output : Option (Int × List Byte)}
    (step : device.advance thread call = some (output, target)) :
    ∃ later, target.calls = Function.update device.calls thread later ∧
      rankOf later < call.pc.rank := by
  rcases call with ⟨operation, pc⟩
  cases pc with
  | start pos =>
      cases step
      exact ⟨_, rfl, operation.rank_begin pos device.system⟩
  | copying outcome file data pos writeData =>
      rcases Option.map_eq_some_iff.mp step with ⟨⟨pc, system⟩, copied, same⟩
      cases same
      exact ⟨_, rfl, rank_copyData copied⟩
  | locking critical =>
      have few := critical.rank_le
      simp only [SharedDevice.advance] at step
      split at step
      · split at step
        · contradiction
        · cases step
          refine ⟨_, rfl, ?_⟩
          simp only [rankOf, Option.map_some, Option.getD_some, Pc.rank]
          omega
      · cases step
        exact ⟨_, rfl, by simp [rankOf, Pc.rank]⟩
  | inside critical =>
      by_cases finished : ∃ reply, critical = .done reply
      · rcases finished with ⟨reply, rfl⟩
        cases step
        exact ⟨_, rfl, by simp [rankOf, Pc.rank]⟩
      · rw [advance_inside fun reply same => finished ⟨reply, same⟩] at step
        rcases Option.map_eq_some_iff.mp step with ⟨next, taken, same⟩
        cases same
        exact ⟨_, rfl, Nat.add_lt_add_right (Critical.rank_step taken) 2⟩
  | returning reply =>
      cases step
      exact ⟨_, rfl, by simp [rankOf, Pc.rank]⟩

/-- The call waits for the mutex, and its wait is not interrupted. -/
def Call.Waits (call : Call) : Prop :=
  call.operation.lock = true ∧ ∃ critical, call.pc = .locking critical

/-- A call goes on, unless it waits and the mutex is not free. -/
theorem Tracks.goes_on {system : System} {owed : τ → Option (Int × List Byte)}
    {pairs : Nat → Nat → Prop} {late : Nat → Option (Nat × List Byte)} {mid base : System}
    (tracks : Tracks device system owed pairs late mid base) {call : Call}
    (here : device.calls thread = some call) :
    device.advance thread call = none ↔ call.Waits ∧ device.lock ≠ none := by
  rcases call with ⟨operation, pc⟩
  cases pc with
  | start pos => simp [SharedDevice.advance, Call.Waits]
  | copying outcome file data pos writeData =>
      rcases tracks.copying here with ⟨pc', system₁, copied, _⟩
      simp [SharedDevice.advance, Call.Waits, copied]
  | locking critical =>
      cases locks : operation.lock with
      | false => simp [SharedDevice.advance, Call.Waits, locks]
      | true =>
          cases owner : device.lock with
          | none => simp [SharedDevice.advance, locks, owner]
          | some other => simp [SharedDevice.advance, Call.Waits, locks, owner]
  | inside critical =>
      by_cases finished : ∃ reply, critical = .done reply
      · rcases finished with ⟨reply, rfl⟩
        simp [SharedDevice.advance, Call.Waits]
      · have busy : ∀ reply, critical ≠ .done reply := fun reply same => finished ⟨reply, same⟩
        rcases tracks.step here busy with ⟨next, taken, _⟩
        simp [SharedDevice.advance_inside busy, Call.Waits, taken]
  | returning reply => simp [SharedDevice.advance, Call.Waits]

/-- The owner of the mutex goes on. -/
theorem Tracks.owner_goes_on {system : System} {owed : τ → Option (Int × List Byte)}
    {pairs : Nat → Nat → Prop} {late : Nat → Option (Nat × List Byte)} {mid base : System}
    (tracks : Tracks device system owed pairs late mid base)
    (owner : device.lock = some thread) : advanceStep device thread ≠ none := by
  rcases (tracks.locked thread).mp owner with ⟨call, here, holds⟩
  intro stuck
  rw [advanceStep, callStep, here, Option.bind_some] at stuck
  rcases ((tracks.goes_on here).mp stuck).1 with ⟨_, critical, waits⟩
  rw [waits] at holds
  contradiction

/-! ## All calls -/

section

variable [Fintype τ]

/-- The steps that are left of all calls in progress, at most. -/
def SharedDevice.rank (device : SharedDevice τ) : Nat :=
  ∑ thread, rankOf (device.calls thread)

/-- The threads whose call is in progress. -/
def SharedDevice.inProgress (device : SharedDevice τ) : Finset τ :=
  Finset.univ.filter fun thread => (device.calls thread).isSome

omit [DecidableEq τ] in
theorem SharedDevice.rank_le (device : SharedDevice τ) :
    device.rank ≤ 10 * device.inProgress.card := by
  have each : ∀ thread, rankOf (device.calls thread) ≤
      if (device.calls thread).isSome then 10 else 0 := by
    intro thread
    cases device.calls thread with
    | none => exact Nat.le_refl 0
    | some call => exact call.pc.rank_le
  calc
    device.rank ≤ ∑ thread, if (device.calls thread).isSome then 10 else 0 :=
      Finset.sum_le_sum fun thread _ => each thread
    _ = 10 * device.inProgress.card := by
      rw [inProgress, ← Finset.sum_filter, Finset.sum_const, Nat.nsmul_eq_mul, Nat.mul_comm]

theorem SharedDevice.rank_step {reply : Option (Int × List Byte)}
    (step : advanceStep device thread = some (reply, target)) : target.rank < device.rank := by
  rcases Option.bind_eq_some_iff.mp step with ⟨call, here, step⟩
  rcases SharedDevice.rank_advance step with ⟨later, calls, fewer⟩
  have total := sum_update_add rankOf device.calls thread later
  rw [here] at total
  have before : rankOf (some call) = call.pc.rank := rfl
  rw [rank, rank, calls]
  omega

/-- A run of calls in progress has at most as many steps as are left. -/
theorem length_le_rank {threads : List τ} {replies : List (Option (Int × List Byte))}
    (execution : run advanceStep device threads = some (replies, target)) :
    threads.length ≤ device.rank := by
  have falls : ∀ rank (device : SharedDevice τ) thread reply target, rank = device.rank →
      advanceStep device thread = some (reply, target) →
        ∃ lower, lower < rank ∧ lower = target.rank := by
    rintro _ device thread reply target rfl step
    exact ⟨target.rank, SharedDevice.rank_step step, rfl⟩
  exact length_le_of_ranked falls rfl execution

omit [Fintype τ] in
theorem Tracked.run_advances {system : System} {owed : τ → Option (Int × List Byte)}
    (tracked : Tracked device system owed) {threads : List τ}
    {replies : List (Option (Int × List Byte))}
    (execution : run advanceStep device threads = some (replies, target)) :
    ∃ system' owed', Tracked target system' owed' := by
  induction threads generalizing device system owed replies with
  | nil =>
      cases execution
      exact ⟨system, owed, tracked⟩
  | cons thread threads ih =>
      rcases (run_cons_eq_some_iff ..).mp execution with ⟨reply, middle, rest, first, later, rfl⟩
      have own : (CallEvent.advance thread).OwnFile device := trivial
      rcases tracked.step own first with ⟨_, system', owed', _, tracked', _⟩
      exact ih tracked' later

end

/-- A call in progress cannot go on exactly while it waits for the mutex and another thread,
which can, is the owner.  The calls in progress have all returned after at most ten steps
for each, in whatever order they go on, and can be brought to return. -/
theorem only_the_mutex_is_waited_for [Fintype τ] (kmallocMaxSize : KmallocMaxSize)
    {events : List (CallEvent τ)} {outputs : List (Option (Int × List Byte))}
    (own : Along callStep (fun device event => event.OwnFile device) (.loaded kmallocMaxSize)
      events)
    (execution : run callStep (.loaded kmallocMaxSize) events = some (outputs, device)) :
    (∀ thread call, device.calls thread = some call →
      (advanceStep device thread = none ↔ call.Waits ∧
        ∃ owner, owner ≠ thread ∧ device.lock = some owner ∧
          advanceStep device owner ≠ none)) ∧
    (∀ threads replies target, run advanceStep device threads = some (replies, target) →
      threads.length ≤ 10 * device.inProgress.card ∧
        ((∀ thread, advanceStep target thread = none) →
          target.lock = none ∧ ∀ thread, target.calls thread = none)) ∧
    ∃ threads replies target, run advanceStep device threads = some (replies, target) ∧
      ∀ thread, target.calls thread = none := by
  rcases tracked_of_run kmallocMaxSize own execution with ⟨_, system, owed, _, tracked, _⟩
  have ends : ∀ threads replies target, run advanceStep device threads = some (replies, target) →
      (∀ thread, advanceStep target thread = none) →
        target.lock = none ∧ ∀ thread, target.calls thread = none := by
    intro threads replies target execution stuck
    rcases tracked.run_advances execution with ⟨_, _, pairs, late, mid, base, tracks⟩
    have free : target.lock = none := by
      rw [Option.eq_none_iff_forall_ne_some]
      exact fun owner owns => tracks.owner_goes_on owns (stuck owner)
    refine ⟨free, fun thread => ?_⟩
    cases here : target.calls thread with
    | none => rfl
    | some call =>
        have none' := stuck thread
        rw [advanceStep, callStep, here, Option.bind_some] at none'
        exact absurd free ((tracks.goes_on here).mp none').2
  refine ⟨fun thread call here => ?_, fun threads replies target execution => ⟨?_, ?_⟩, ?_⟩
  · rcases tracked with ⟨pairs, late, mid, base, tracks⟩
    rw [advanceStep, callStep, here, Option.bind_some, tracks.goes_on here]
    constructor
    · rintro ⟨waits, taken⟩
      rcases Option.ne_none_iff_exists'.mp taken with ⟨owner, owns⟩
      refine ⟨waits, owner, ?_, owns, tracks.owner_goes_on owns⟩
      rintro rfl
      rcases (tracks.locked owner).mp owns with ⟨call', here', holds⟩
      rcases waits with ⟨_, critical, waits⟩
      cases Option.some.inj (here.symm.trans here')
      rw [waits] at holds
      contradiction
    · rintro ⟨waits, owner, _, owns, _⟩
      exact ⟨waits, by simp [owns]⟩
  · exact (length_le_rank execution).trans device.rank_le
  · exact ends threads replies target execution
  · rcases exists_run_of_bounded (fun _ : τ => True) fun threads replies target execution =>
        length_le_rank execution with
      ⟨threads, replies, target, _, execution, stuck⟩
    exact ⟨threads, replies, target, execution,
      (ends threads replies target execution fun thread => stuck thread trivial).2⟩

end

/-- One thread waits for the mutex that another one has. -/
private def contended : List (CallEvent Bool) :=
  [.call true (.openFile 0), .advance true, .advance true,
    .call true (.read .success (some 0) true 4), .call false (.llseek true 1 0 .seekEnd),
    .advance true, .advance false, .advance true]

theorem only_the_mutex_is_waited_for_contended :
    ∃ outputs device,
      run callStep (.loaded ⟨64, by decide⟩) contended = some (outputs, device) ∧
      advanceStep device false = none ∧
      ∃ threads replies target, run advanceStep device threads = some (replies, target) ∧
        threads.length ≤ 10 * device.inProgress.card ∧ ∀ thread, target.calls thread = none := by
  have own : Along callStep (fun device event => event.OwnFile device)
      (.loaded ⟨64, by decide⟩) contended := by decide +kernel
  have ran : (run callStep (.loaded ⟨64, by decide⟩) contended).map (fun result =>
      (advanceStep result.2 false).isNone) = some true := by decide +kernel
  rcases Option.map_eq_some_iff.mp ran with ⟨⟨outputs, device⟩, execution, waits⟩
  rcases only_the_mutex_is_waited_for ⟨64, by decide⟩ own execution with
    ⟨_, bounded, threads, replies, target, ended, idle⟩
  exact ⟨outputs, device, execution, Option.isNone_iff_eq_none.mp waits, threads, replies, target,
    ended, (bounded threads replies target ended).1, idle⟩

end Aesd.Driver
