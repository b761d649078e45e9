import Aesd.Transition.Run
import Mathlib.Logic.Function.Basic

/-!
# Executing a command in a child process

`do_exec` and `do_exec_redirect` fork a child for their command and call `wait`,
which collects any child of the process that has ended.  A `wait` that fails leaves
the status as it was, which is then read all the same.
-/

namespace Aesd.Systemcalls

open Aesd.Transition

/-! ## The status of a process -/

/-- The number of a signal that ends a process. -/
abbrev Signal := { number : Nat // 0 < number ∧ number < 127 }

/-- How a process has ended. -/
inductive Fate where
  | exited (code : UInt8)
  | signaled (signal : Signal) (coreDumped : Bool)
  deriving DecidableEq

/-- The status that `wait` stores. -/
def Fate.status : Fate → UInt32
  | .exited code => code.toUInt32 <<< 8
  | .signaled signal coreDumped =>
      UInt32.ofNat signal.val ||| (if coreDumped then 0x80 else 0)

/-- The macro `WIFEXITED`. -/
def wifexited (status : UInt32) : Bool :=
  status &&& 0x7f = 0

/-- The macro `WEXITSTATUS`. -/
def wexitstatus (status : UInt32) : UInt32 :=
  (status &&& 0xff00) >>> 8

/-- What `execute_command` returns for a status. -/
def statusResult (status : UInt32) : Bool :=
  if wifexited status then wexitstatus status = 0 else false

theorem statusResult_exited (code : UInt8) :
    statusResult (Fate.exited code).status = true ↔ code = 0 := by
  have all : ∀ bits : BitVec 8,
      statusResult (Fate.exited (.ofBitVec bits)).status = true ↔ UInt8.ofBitVec bits = 0 := by
    decide +kernel
  exact all code.toBitVec

theorem statusResult_signaled (signal : Signal) (coreDumped : Bool) :
    statusResult (Fate.signaled signal coreDumped).status = false := by
  have all : ∀ number : Fin 127, 0 < number.val → ∀ coreDumped : Bool,
      wifexited (UInt32.ofNat number.val ||| (if coreDumped then 0x80 else 0)) = false := by
    decide +kernel
  have notExited : wifexited (Fate.signaled signal coreDumped).status = false :=
    all ⟨signal.val, signal.property.2⟩ signal.property.1 coreDumped
  rw [statusResult, notExited]
  rfl

/-- The status of an ended process reads as success if it has exited with zero. -/
theorem statusResult_eq_true_iff (fate : Fate) :
    statusResult fate.status = true ↔ fate = .exited 0 := by
  cases fate with
  | exited code => rw [statusResult_exited, Fate.exited.injEq]
  | signaled signal coreDumped => simp [statusResult_signaled]

/-! ## The children -/

/-- A `char *`; `none` is the null pointer. -/
abbrev CString := Option (List UInt8)

/-- A child of the process.  One that `execute_command` has forked has its `dup2`
and its `execv` to come before it runs the command. -/
inductive Child where
  | redirecting (command : List CString)
  | loading (command : List CString)
  | running
  | ended (fate : Fate)
  deriving DecidableEq

/-- The next thing that happens to a child: its call succeeds or fails, or it ends. -/
inductive ChildEvent where
  | dup2 (works : Bool)
  | execv (works : Bool)
  | ends (fate : Fate)

/-- The constant `EXIT_FAILURE`. -/
def exitFailure : UInt8 := 1

/-- The code of `execute_command` in the child, up to its end.  There is no program at
a null path; a signal can end a child at any time. -/
def executeCommandChild : Child → ChildEvent → Option Child
  | .redirecting command, .dup2 works =>
      some (if works then .loading command else .ended (.exited exitFailure))
  | .loading command, .execv works =>
      if works then
        command.head?.join.map fun _ => .running
      else
        some (.ended (.exited exitFailure))
  | .running, .ends fate => some (.ended fate)
  | .redirecting _, .ends (.signaled signal coreDumped)
  | .loading _, .ends (.signaled signal coreDumped) => some (.ended (.signaled signal coreDumped))
  | _, _ => none

/-- The child after the fork; without a `redirect_fd` it makes no `dup2`. -/
def forked (command : List CString) (redirectFd : Option Nat) : Child :=
  match redirectFd with
  | none => .loading command
  | some _ => .redirecting command

/-! ## The calling process -/

/-- The next call of the caller; `close` is made by `do_exec_redirect` only. -/
inductive Pc where
  | openOutput (command : List CString)
  | fork (command : List CString) (redirectFd : Option Nat)
  | wait (redirectFd : Option Nat)
  | close (result : Bool)
  | returned (result : Bool)
  deriving DecidableEq

/-- The caller, with its local variables, its children by their process ids, and those
of them whose status it has collected. -/
structure Caller where
  pc : Pc
  childPid : Option Nat
  status : UInt32
  children : Nat → Option Child
  collected : List Nat

/-- The array that the arguments are copied to. -/
def commandArray (arguments : List CString) : List CString :=
  arguments ++ [none]

/-- The caller before it calls `execute_command`, with what happens to be in `status`. -/
def callerAt (pc : Pc) (status : UInt32) (children : Nat → Option Child) : Caller where
  pc := pc
  childPid := none
  status := status
  children := children
  collected := []

/-- A call of `do_exec`. -/
def doExec (arguments : List CString) (status : UInt32) (children : Nat → Option Child) :
    Caller :=
  callerAt (.fork (commandArray arguments) none) status children

/-- A call of `do_exec_redirect`, which opens its output file first. -/
def doExecRedirect (arguments : List CString) (status : UInt32)
    (children : Nat → Option Child) : Caller :=
  callerAt (.openOutput (commandArray arguments)) status children

def Caller.goto (caller : Caller) (pc : Pc) : Caller :=
  { caller with pc := pc }

def Caller.setChild (caller : Caller) (pid : Nat) (child : Child) : Caller :=
  { caller with children := Function.update caller.children pid (some child) }

/-- `execute_command` returns, to `do_exec_redirect` if there is a file to close. -/
def Caller.commandReturns (caller : Caller) (redirectFd : Option Nat) (result : Bool) :
    Caller :=
  match redirectFd with
  | none => caller.goto (.returned result)
  | some _ => caller.goto (.close result)

/-- What a call of the caller returns, with `none` for -1, or a step of a child. -/
inductive Event where
  | openOutput (outputFd : Option Nat)
  | fork (childPid : Option Nat)
  | wait (pid : Option Nat)
  | close (works : Bool)
  | child (pid : Nat) (event : ChildEvent)

/-- A step of `execute_command` in the caller.  The new child has an id that no other child
has, and that is not zero, which is what `fork` returns in the child. -/
def executeCommand (caller : Caller) (event : Event) : Option Caller :=
  match caller.pc, event with
  | .fork _ redirectFd, .fork none => some (caller.commandReturns redirectFd false)
  | .fork command redirectFd, .fork (some pid) =>
      if pid = 0 || (caller.children pid).isSome then
        none
      else
        some { caller with
          pc := .wait redirectFd
          childPid := some pid
          children := Function.update caller.children pid (some (forked command redirectFd)) }
  | .wait redirectFd, .wait none =>
      -- the result of the call is not looked at
      some (caller.commandReturns redirectFd (statusResult caller.status))
  | .wait redirectFd, .wait (some pid) =>
      match caller.children pid with
      | some (.ended fate) =>
          if pid ∈ caller.collected then
            none
          else
            some ({ caller with
              status := fate.status
              collected := pid :: caller.collected }.commandReturns redirectFd
                (statusResult fate.status))
      | _ => none
  | _, _ => none

/-- One step of the caller or of a child. -/
def execStep : Machine Caller Event Unit := fun caller event =>
  (match caller.pc, event with
    | .openOutput _, .openOutput none => some (caller.goto (.returned false))
    | .openOutput command, .openOutput (some outputFd) =>
        some (caller.goto (.fork command (some outputFd)))
    | .close result, .close _ => some (caller.goto (.returned result))
    | _, .child pid event =>
        (caller.children pid).bind fun child =>
          (executeCommandChild child event).map (caller.setChild pid)
    | _, _ => executeCommand caller event).map fun caller' => ((), caller')

/-! ## Reporting the own command -/

/-- The child has exited normally with status zero. -/
def Caller.Succeeded (caller : Caller) (pid : Nat) : Prop :=
  caller.children pid = some (.ended (.exited 0))

/-- The result is true exactly if the fork succeeded and its child has exited with zero;
and no status of another child has been consumed. -/
structure Caller.Reports (caller : Caller) (result : Bool) : Prop where
  own : result = true ↔ ∃ pid ∈ caller.childPid, caller.Succeeded pid
  others : ∀ pid ∈ caller.collected, caller.childPid = some pid

def Event.waitOutcome : Event → Option (Option Nat)
  | .wait pid => some pid
  | _ => none

/-- What `wait` has returned, if it has been called. -/
def waitOutcome (events : List Event) : Option (Option Nat) :=
  events.findSome? Event.waitOutcome

/-- If there is a child, `wait` has returned it, or it has failed and what happened to be
in `status` reads as success exactly if the child has succeeded. -/
def Caller.WaitedForOwn (caller : Caller) (status : UInt32) (events : List Event) : Prop :=
  ∀ pid ∈ caller.childPid, waitOutcome events = some (some pid) ∨
    waitOutcome events = some none ∧ (statusResult status = true ↔ caller.Succeeded pid)

/-! ## The steps -/

/-- The steps of the caller and of its children. -/
inductive ExecStep : Caller → Event → Caller → Prop
  | openFails {caller command} (pc : caller.pc = .openOutput command) :
      ExecStep caller (.openOutput none) (caller.goto (.returned false))
  | opens {caller command} (pc : caller.pc = .openOutput command) (outputFd : Nat) :
      ExecStep caller (.openOutput (some outputFd))
        (caller.goto (.fork command (some outputFd)))
  | forkFails {caller command redirectFd} (pc : caller.pc = .fork command redirectFd) :
      ExecStep caller (.fork none) (caller.commandReturns redirectFd false)
  | forks {caller command redirectFd} (pc : caller.pc = .fork command redirectFd) {pid : Nat}
      (nonzero : pid ≠ 0) (fresh : caller.children pid = none) :
      ExecStep caller (.fork (some pid))
        { caller with
          pc := .wait redirectFd
          childPid := some pid
          children := Function.update caller.children pid (some (forked command redirectFd)) }
  | waitFails {caller redirectFd} (pc : caller.pc = .wait redirectFd) :
      ExecStep caller (.wait none)
        (caller.commandReturns redirectFd (statusResult caller.status))
  | waits {caller redirectFd} (pc : caller.pc = .wait redirectFd) {pid : Nat} {fate : Fate}
      (found : caller.children pid = some (.ended fate)) (waitable : pid ∉ caller.collected) :
      ExecStep caller (.wait (some pid))
        ({ caller with
          status := fate.status
          collected := pid :: caller.collected }.commandReturns redirectFd
            (statusResult fate.status))
  | closes {caller result} (pc : caller.pc = .close result) (works : Bool) :
      ExecStep caller (.close works) (caller.goto (.returned result))
  | child {caller pid child event child'} (found : caller.children pid = some child)
      (taken : executeCommandChild child event = some child') :
      ExecStep caller (.child pid event) (caller.setChild pid child')

theorem executeCommand_cases {caller caller' : Caller} {event : Event}
    (step : executeCommand caller event = some caller') : ExecStep caller event caller' := by
  unfold executeCommand at step
  split at step
  case h_1 _ _ command redirectFd pc =>
    cases step
    exact .forkFails pc
  case h_2 _ _ command redirectFd pid pc =>
    simp only [Option.ite_none_left_eq_some, Bool.or_eq_true, decide_eq_true_eq, not_or,
      Option.not_isSome_iff_eq_none, Option.some.injEq] at step
    rcases step with ⟨⟨nonzero, fresh⟩, rfl⟩
    exact .forks pc nonzero fresh
  case h_3 _ _ redirectFd pc =>
    cases step
    exact .waitFails pc
  case h_4 _ _ redirectFd pid pc =>
    split at step
    · simp only [Option.ite_none_left_eq_some, Option.some.injEq] at step
      rcases step with ⟨waitable, rfl⟩
      exact .waits pc ‹_› waitable
    · contradiction
  case h_5 => contradiction

theorem execStep_cases {caller caller' : Caller} {event : Event} {output : Unit}
    (step : execStep caller event = some (output, caller')) : ExecStep caller event caller' := by
  simp only [execStep, Option.map_eq_some_iff, Prod.mk.injEq, true_and] at step
  rcases step with ⟨target, step, rfl⟩
  split at step
  case h_1 _ _ command pc =>
    cases step
    exact .openFails pc
  case h_2 _ _ command outputFd pc =>
    cases step
    exact .opens pc outputFd
  case h_3 _ _ result works pc =>
    cases step
    exact .closes pc works
  case h_4 _ _ pid event =>
    simp only [Option.bind_eq_some_iff, Option.map_eq_some_iff] at step
    rcases step with ⟨child, found, child', taken, rfl⟩
    exact .child found taken
  case h_5 => exact executeCommand_cases step

/-! ## What a call has done -/

section

variable {status : UInt32} {events : List Event} {caller caller' : Caller}

/-- A call that has not come past its `wait`. -/
structure Waitless (status : UInt32) (events : List Event) (caller : Caller) : Prop where
  uncalled : waitOutcome events = none
  untouched : caller.status = status
  collected : caller.collected = []

/-- A call whose result is settled: there is no child, or `wait` has failed, or it has
collected a child that had ended. -/
inductive Settled (status : UInt32) (events : List Event) (caller : Caller) :
    Bool → Prop
  | unforked (childPid : caller.childPid = none) (collected : caller.collected = []) :
      Settled status events caller false
  | waitFailed {own : Nat} (childPid : caller.childPid = some own)
      (failed : waitOutcome events = some none) (collected : caller.collected = []) :
      Settled status events caller (statusResult status)
  | waited {own pid : Nat} {fate : Fate} (childPid : caller.childPid = some own)
      (returned : waitOutcome events = some (some pid)) (collected : caller.collected = [pid])
      (ended : caller.children pid = some (.ended fate)) :
      Settled status events caller (statusResult fate.status)

/-- What holds of the caller at one of its calls. -/
def TracksAt (status : UInt32) (events : List Event) (caller : Caller) : Pc → Prop
  | .openOutput _ | .fork _ _ => caller.childPid = none ∧ Waitless status events caller
  | .wait _ => (∃ own, caller.childPid = some own) ∧ Waitless status events caller
  | .close result | .returned result => Settled status events caller result

def Tracks (status : UInt32) (events : List Event) (caller : Caller) : Prop :=
  TracksAt status events caller caller.pc

theorem waitOutcome_concat (events : List Event) (event : Event) :
    waitOutcome (events ++ [event]) = (waitOutcome events).or event.waitOutcome := by
  simp [waitOutcome, List.findSome?_append]

theorem waitOutcome_concat_of_none {event : Event} (other : event.waitOutcome = none) :
    waitOutcome (events ++ [event]) = waitOutcome events := by
  rw [waitOutcome_concat, other, Option.or_none]

theorem tracks_doExec (arguments : List CString) (status : UInt32)
    (children : Nat → Option Child) : Tracks status [] (doExec arguments status children) :=
  ⟨rfl, rfl, rfl, rfl⟩

theorem tracks_doExecRedirect (arguments : List CString) (status : UInt32)
    (children : Nat → Option Child) :
    Tracks status [] (doExecRedirect arguments status children) :=
  ⟨rfl, rfl, rfl, rfl⟩

theorem Settled.goto {result : Bool} (settled : Settled status events caller result) (pc : Pc) :
    Settled status events (caller.goto pc) result := by
  cases settled with
  | unforked childPid collected => exact .unforked childPid collected
  | waitFailed childPid failed collected => exact .waitFailed childPid failed collected
  | waited childPid returned collected ended => exact .waited childPid returned collected ended

/-- `execute_command` leaves a settled result to its caller. -/
theorem Settled.tracks_commandReturns {result : Bool}
    (settled : Settled status events caller result) (redirectFd : Option Nat) :
    Tracks status events (caller.commandReturns redirectFd result) := by
  cases redirectFd with
  | none => exact settled.goto (.returned result)
  | some outputFd => exact settled.goto (.close result)

theorem executeCommandChild_ended {child child' : Child} {event : ChildEvent}
    (taken : executeCommandChild child event = some child') (fate : Fate) :
    child ≠ .ended fate := by
  rintro rfl
  simp [executeCommandChild] at taken

/-- What a child does keeps a settled result: the collected child has ended. -/
theorem Settled.setChild {result : Bool} (settled : Settled status events caller result)
    {pid : Nat} {child child' : Child} {event : ChildEvent}
    (found : caller.children pid = some child)
    (taken : executeCommandChild child event = some child') :
    Settled status events (caller.setChild pid child') result := by
  cases settled with
  | unforked childPid collected => exact .unforked childPid collected
  | waitFailed childPid failed collected => exact .waitFailed childPid failed collected
  | @waited own waited fate childPid returned collected ended =>
      have different : waited ≠ pid := by
        rintro rfl
        exact executeCommandChild_ended taken fate (Option.some.inj (found.symm.trans ended))
      exact .waited childPid returned collected
        ((Function.update_of_ne different ..).trans ended)

theorem Settled.concat {result : Bool} (settled : Settled status events caller result)
    {event : Event} (other : event.waitOutcome = none) :
    Settled status (events ++ [event]) caller result := by
  have same : waitOutcome (events ++ [event]) = waitOutcome events :=
    waitOutcome_concat_of_none other
  cases settled with
  | unforked childPid collected => exact .unforked childPid collected
  | waitFailed childPid failed collected =>
      exact .waitFailed childPid (same.trans failed) collected
  | waited childPid returned collected ended =>
      exact .waited childPid (same.trans returned) collected ended

theorem Waitless.concat (waitless : Waitless status events caller) {event : Event}
    (other : event.waitOutcome = none) : Waitless status (events ++ [event]) caller :=
  ⟨(waitOutcome_concat_of_none other).trans waitless.uncalled, waitless.untouched,
    waitless.collected⟩

theorem Waitless.waitOutcome_wait (waitless : Waitless status events caller)
    (pid : Option Nat) : waitOutcome (events ++ [.wait pid]) = some pid := by
  rw [waitOutcome_concat, waitless.uncalled]
  rfl

theorem TracksAt.child {pc : Pc} (tracks : TracksAt status events caller pc)
    {pid : Nat} {child child' : Child} {event : ChildEvent}
    (found : caller.children pid = some child)
    (taken : executeCommandChild child event = some child') :
    TracksAt status (events ++ [.child pid event]) (caller.setChild pid child') pc := by
  have waitless : Waitless status events caller →
      Waitless status (events ++ [.child pid event]) (caller.setChild pid child') :=
    fun before =>
      have after : Waitless status (events ++ [.child pid event]) caller := before.concat rfl
      ⟨after.uncalled, after.untouched, after.collected⟩
  cases pc with
  | openOutput command => exact ⟨tracks.1, waitless tracks.2⟩
  | fork command redirectFd => exact ⟨tracks.1, waitless tracks.2⟩
  | wait redirectFd => exact ⟨tracks.1, waitless tracks.2⟩
  | close result => exact (tracks.setChild found taken).concat rfl
  | returned result => exact (tracks.setChild found taken).concat rfl

theorem Tracks.step {event : Event} (tracks : Tracks status events caller)
    (step : ExecStep caller event caller') : Tracks status (events ++ [event]) caller' := by
  unfold Tracks at tracks
  cases step with
  | openFails pc =>
      rw [pc] at tracks
      exact .unforked tracks.1 tracks.2.collected
  | opens pc outputFd =>
      rw [pc] at tracks
      have waitless : Waitless status (events ++ [.openOutput (some outputFd)]) caller :=
        tracks.2.concat rfl
      exact ⟨tracks.1, waitless.uncalled, waitless.untouched, waitless.collected⟩
  | forkFails pc =>
      rw [pc] at tracks
      exact (Settled.unforked tracks.1 tracks.2.collected).tracks_commandReturns _
  | @forks _ _ pc pid nonzero fresh =>
      rw [pc] at tracks
      have waitless : Waitless status (events ++ [.fork (some pid)]) caller :=
        tracks.2.concat rfl
      exact ⟨⟨pid, rfl⟩, waitless.uncalled, waitless.untouched, waitless.collected⟩
  | waitFails pc =>
      rw [pc] at tracks
      rcases tracks with ⟨⟨own, childPid⟩, waitless⟩
      rw [waitless.untouched]
      exact (Settled.waitFailed childPid (waitless.waitOutcome_wait none)
        waitless.collected).tracks_commandReturns _
  | @waits _ pc pid fate found waitable =>
      rw [pc] at tracks
      rcases tracks with ⟨⟨own, childPid⟩, waitless⟩
      have settled : Settled status (events ++ [.wait (some pid)])
          { caller with status := fate.status, collected := pid :: caller.collected }
          (statusResult fate.status) :=
        .waited childPid (waitless.waitOutcome_wait (some pid))
          (congrArg (pid :: ·) waitless.collected) found
      exact settled.tracks_commandReturns _
  | closes pc works =>
      rw [pc] at tracks
      exact (tracks.concat rfl).goto _
  | child found taken => exact tracks.child found taken

theorem tracks_run {start : Caller} (initial : Tracks status [] start) {outputs : List Unit}
    (execution : run execStep start events = some (outputs, caller)) :
    Tracks status events caller :=
  run_induction (motive := fun events _ caller => Tracks status events caller) initial
    (fun _ _ _ _ _ _ _ tracks step => tracks.step (execStep_cases step)) execution

/-- A settled result reports the own command exactly if `wait` was for the own child. -/
theorem Settled.reports_iff {result : Bool} (settled : Settled status events caller result) :
    caller.Reports result ↔ caller.WaitedForOwn status events := by
  cases settled with
  | unforked childPid collected =>
      constructor
      · intro _ pid member
        simp [childPid] at member
      · intro _
        exact ⟨by simp [childPid], by simp [collected]⟩
  | @waitFailed own childPid failed collected =>
      constructor
      · intro reports pid member
        cases Option.some.inj (childPid.symm.trans member)
        have own := reports.own
        rw [childPid] at own
        exact .inr ⟨failed, by simpa using own⟩
      · intro waitedForOwn
        refine ⟨?_, by simp [collected]⟩
        rcases waitedForOwn own childPid with returned | ⟨_, agree⟩
        · simp [failed] at returned
        · simpa [childPid] using agree
  | @waited own pid fate childPid returned collected ended =>
      have succeeded : statusResult fate.status = true ↔ caller.Succeeded pid := by
        rw [statusResult_eq_true_iff, Caller.Succeeded, ended]
        simp
      constructor
      · intro reports otherPid member
        have same := reports.others pid (by simp [collected])
        exact .inl (returned.trans (congrArg some (same.symm.trans member)))
      · intro waitedForOwn
        rcases waitedForOwn own childPid with same | ⟨failed, _⟩
        · cases Option.some.inj (Option.some.inj (returned.symm.trans same))
          exact ⟨by simpa [childPid] using succeeded, by simp [collected, childPid]⟩
        · simp [returned] at failed

end

/-- A call of `do_exec` or `do_exec_redirect`. -/
inductive Call where
  | exec (arguments : List CString)
  | execRedirect (arguments : List CString)

def Call.start (status : UInt32) (children : Nat → Option Child) : Call → Caller
  | .exec arguments => doExec arguments status children
  | .execRedirect arguments => doExecRedirect arguments status children

theorem Call.tracks_start (status : UInt32) (children : Nat → Option Child) (call : Call) :
    Tracks status [] (call.start status children) := by
  cases call with
  | exec arguments => exact tracks_doExec arguments status children
  | execRedirect arguments => exact tracks_doExecRedirect arguments status children

/-- In every run of a call that has returned, the result reports the own command, and no
other status has been consumed, exactly if no child has been forked, or `wait` has
returned the own child, or it has failed and the old `status` happens to agree. -/
theorem own_command_reported_iff {call : Call} {status : UInt32}
    {children : Nat → Option Child} {events : List Event} {outputs : List Unit}
    {caller : Caller} {result : Bool}
    (execution : run execStep (call.start status children) events = some (outputs, caller))
    (returned : caller.pc = .returned result) :
    caller.Reports result ↔ caller.WaitedForOwn status events := by
  have tracks := tracks_run (call.tracks_start status children) execution
  unfold Tracks at tracks
  rw [returned] at tracks
  exact tracks.reports_iff

/-! ## A process without other children -/

/-- No child but the one that this call has forked. -/
def Caller.Alone (caller : Caller) : Prop :=
  ∀ pid, (caller.children pid).isSome = true → caller.childPid = some pid

theorem Call.alone_start (status : UInt32) (call : Call) :
    (call.start status fun _ => none).Alone := by
  intro pid present
  cases call with
  | exec arguments => simp [Call.start, doExec, callerAt] at present
  | execRedirect arguments => simp [Call.start, doExecRedirect, callerAt] at present

theorem Caller.Alone.commandReturns {caller : Caller} (alone : caller.Alone)
    (redirectFd : Option Nat) (result : Bool) :
    (caller.commandReturns redirectFd result).Alone := by
  cases redirectFd with
  | none => exact alone
  | some outputFd => exact alone

theorem Caller.Alone.step {status : UInt32} {events : List Event} {caller caller' : Caller}
    {event : Event} (alone : caller.Alone) (tracks : Tracks status events caller)
    (step : ExecStep caller event caller') : caller'.Alone := by
  cases step with
  | openFails pc => exact alone
  | opens pc outputFd => exact alone
  | forkFails pc => exact alone.commandReturns _ _
  | @forks _ _ pc pid nonzero fresh =>
      intro other present
      by_cases same : other = pid
      · exact congrArg some same.symm
      · rw [Tracks, pc] at tracks
        have before := alone other (by simpa [Function.update_of_ne same] using present)
        simp [tracks.1] at before
  | waitFails pc => exact alone.commandReturns _ _
  | waits pc found waitable =>
      apply Caller.Alone.commandReturns
      exact alone
  | closes pc works => exact alone
  | @child pid child event child' found taken =>
      intro other present
      by_cases same : other = pid
      · exact alone other (by simp [same, found])
      · exact alone other (by simpa [setChild, Function.update_of_ne same] using present)

/-- Without other children the own command is reported whenever `wait` does not fail. -/
theorem own_command_reported_of_alone {call : Call} {status : UInt32} {events : List Event}
    {outputs : List Unit} {caller : Caller} {result : Bool}
    (execution : run execStep (call.start status fun _ => none) events = some (outputs, caller))
    (returned : caller.pc = .returned result) (succeeds : waitOutcome events ≠ some none) :
    caller.Reports result := by
  have both : Tracks status events caller ∧ caller.Alone :=
    run_induction (motive := fun events _ caller => Tracks status events caller ∧ caller.Alone)
      ⟨call.tracks_start status _, call.alone_start status⟩
      (fun _ _ _ _ _ _ _ before step =>
        ⟨before.1.step (execStep_cases step), before.2.step before.1 (execStep_cases step)⟩)
      execution
  have settled := both.1
  rw [Tracks, returned] at settled
  apply settled.reports_iff.mpr
  intro own member
  cases settled with
  | unforked childPid collected => simp [childPid] at member
  | waitFailed childPid failed collected => exact absurd failed succeeds
  | @waited _ pid _ childPid waitReturned collected ended =>
      have same : caller.childPid = some pid := both.2 pid (by simp [ended])
      exact .inl (waitReturned.trans (congrArg some (same.symm.trans member)))

/-- One other child of the process, with the id 7. -/
def sibling (child : Child) : Nat → Option Child :=
  Function.update (fun _ => none) 7 (some child)

/-- A command that is redirected to its file and succeeds. -/
def redirectedRun : List Event :=
  [.openOutput (some 3), .fork (some 8), .child 8 (.dup2 true), .child 8 (.execv true),
    .child 8 (.ends (.exited 0)), .wait (some 8), .close true]

theorem own_command_reported_iff_redirected :
    ∃ outputs caller,
      run execStep ((Call.execRedirect [some [47, 116]]).start 0 (sibling .running))
        redirectedRun = some (outputs, caller) ∧
        caller.pc = .returned true ∧ caller.Reports true := by
  refine ⟨_, _, rfl, rfl, ?_⟩
  apply (@own_command_reported_iff (.execRedirect [some [47, 116]]) 0 (sibling .running)
    redirectedRun _ _ true rfl rfl).mpr
  intro pid member
  cases member
  exact .inl rfl

/-- The `execv` of the own child fails, and `wait` collects another child, which has exited
with zero; and the own child runs on while `wait` fails with a zero in `status`. -/
theorem another_command_reported :
    (∃ outputs caller,
      run execStep ((Call.exec [some [47, 116]]).start 1 (sibling (.ended (.exited 0))))
        [.fork (some 8), .child 8 (.execv false), .wait (some 7)] = some (outputs, caller) ∧
        caller.pc = .returned true ∧ ¬caller.Reports true) ∧
      ∃ outputs caller,
        run execStep ((Call.exec [some [47, 116]]).start 0 fun _ => none)
          [.fork (some 8), .child 8 (.execv true), .wait none] = some (outputs, caller) ∧
          caller.pc = .returned true ∧ ¬caller.Reports true := by
  constructor
  · refine ⟨_, _, rfl, rfl, fun reports => ?_⟩
    have same := reports.others 7 (by decide)
    exact absurd same (by decide)
  · refine ⟨_, _, rfl, rfl, fun reports => ?_⟩
    rcases reports.own.mp rfl with ⟨pid, ⟨⟩, succeeded⟩
    exact Child.noConfusion (Option.some.inj succeeded)

end Aesd.Systemcalls
