import Aesd.Transition.Run
import Mathlib.Logic.Function.Basic

/-!
# Termination by a signal

`handle_termination` and the main thread around it.  A handler installed by `signal` stays
installed, and its own signal is blocked in the thread until it returns; what is raised
meanwhile is pending, and is delivered before the thread goes on.  The other signal is not
blocked, so it can interrupt the handler, and any thread can be the one that is
interrupted.  What the functions of the library do is left out, except for their effect on
signals and on the listening socket.
-/

namespace Aesd.Server

open Aesd.Transition

/-! ## The handler -/

/-- `SIGINT` and `SIGTERM`. -/
inductive Signal where
  | sigint
  | sigterm
  deriving DecidableEq, Repr

/-- The next step of `handle_termination`.  A handler that finds the flag set raises its
signal again and returns. -/
inductive TerminationPc where
  | test
  | raiseAgain
  | returnAgain
  | setFlag
  | shutdown
  | signalCaught
  | cleanupOnExit
  | setDefault
  | raise
  | finish
  deriving DecidableEq, Repr

/-- The handler has found the flag clear, or is going to. -/
def TerminationPc.proceeds (fatalErrorInProgress : Bool) : TerminationPc → Bool
  | .test => !fatalErrorInProgress
  | .raiseAgain | .returnAgain => false
  | _ => true

/-- The handler has raised its signal, and returns next. -/
def TerminationPc.hasRaised : TerminationPc → Bool
  | .returnAgain | .finish => true
  | _ => false

/-- The handler has set the default for its signal. -/
def TerminationPc.hasReset : TerminationPc → Bool
  | .raise | .finish => true
  | _ => false

/-- How many steps a handler that proceeds has before it. -/
def TerminationPc.stepsLeft : TerminationPc → Nat
  | .test => 7
  | .setFlag => 6
  | .shutdown => 5
  | .signalCaught => 4
  | .cleanupOnExit => 3
  | .setDefault => 2
  | .raise => 1
  | .raiseAgain | .returnAgain | .finish => 0

/-- A handler that has been entered and has not returned. -/
structure Activation where
  sig : Signal
  pc : TerminationPc
  deriving DecidableEq, Repr

/-- The handlers that a thread is in, the innermost first, and its pending signals. -/
structure Interrupted where
  stack : List Activation
  pending : Signal → Bool

/-- The next step of the main thread, from the installation of the handlers on. -/
inductive MainLoop where
  | prepare
  | test
  | accept
  | serve
  | cleanupOnExit
  | exit
  deriving DecidableEq, Repr

/-- The threads `τ`, the disposition of the signals, and the globals that the handler and
the main thread share. -/
structure Signalled (τ : Type) where
  threads : τ → Interrupted
  mainThread : τ
  mainLoop : MainLoop
  fatalErrorInProgress : Bool
  socketShut : Bool
  signalCaught : Bool
  isDefault : Signal → Bool
  ended : Bool

/-- A signal arrives at a thread from outside; a pending one is delivered; or a thread
takes its next step, in which a call of the main thread succeeds or fails. -/
inductive SignalEvent (τ : Type) where
  | arrive (thread : τ) (sig : Signal)
  | deliver (thread : τ) (sig : Signal)
  | step (thread : τ) (ok : Bool)

def SignalEvent.arrives {τ : Type} : SignalEvent τ → Bool
  | .arrive .. => true
  | _ => false

namespace Interrupted

/-- The thread is in a handler of the signal. -/
def blocks (thread : Interrupted) (sig : Signal) : Bool :=
  thread.stack.any fun activation => activation.sig = sig

/-- The signal has to be delivered before the thread goes on. -/
def due (thread : Interrupted) (sig : Signal) : Bool :=
  thread.pending sig && !thread.blocks sig

/-- Enter the handler. -/
def enter (thread : Interrupted) (sig : Signal) : Interrupted where
  stack := ⟨sig, .test⟩ :: thread.stack
  pending := Function.update thread.pending sig false

end Interrupted

namespace Signalled

variable {τ : Type} [DecidableEq τ]

/-- Before any signal. -/
def start (mainThread : τ) : Signalled τ where
  threads _ := ⟨[], fun _ => false⟩
  mainThread := mainThread
  mainLoop := .prepare
  fatalErrorInProgress := false
  socketShut := false
  signalCaught := false
  isDefault _ := false
  ended := false

def setThread (state : Signalled τ) (thread : τ) (interrupted : Interrupted) : Signalled τ :=
  { state with threads := Function.update state.threads thread interrupted }

/-- A signal is delivered; its default is to end the process. -/
def receive (state : Signalled τ) (thread : τ) (sig : Signal) : Signalled τ :=
  if state.isDefault sig then { state with ended := true }
  else state.setThread thread ((state.threads thread).enter sig)

/-- One step of the innermost handler of a thread: `handle_termination`. -/
def handleTermination (state : Signalled τ) (thread : τ) (activation : Activation)
    (rest : List Activation) : Signalled τ :=
  let pending := (state.threads thread).pending
  let goto pc := state.setThread thread ⟨⟨activation.sig, pc⟩ :: rest, pending⟩
  let raise pc := state.setThread thread
    ⟨⟨activation.sig, pc⟩ :: rest, Function.update pending activation.sig true⟩
  match activation.pc with
  | .test => goto (if state.fatalErrorInProgress then .raiseAgain else .setFlag)
  | .raiseAgain => raise .returnAgain
  | .returnAgain => state.setThread thread ⟨rest, pending⟩
  | .setFlag => { goto .shutdown with fatalErrorInProgress := true }
  | .shutdown => { goto .signalCaught with socketShut := true }
  | .signalCaught => { goto .cleanupOnExit with signalCaught := true }
  | .cleanupOnExit => goto .setDefault
  | .setDefault =>
      { goto .raise with isDefault := Function.update state.isDefault activation.sig true }
  | .raise => raise .finish
  | .finish => state.setThread thread ⟨rest, pending⟩

/-- One step of the main thread.  Once the listening socket is shut down, `accept` fails. -/
def mainStep (state : Signalled τ) (ok : Bool) : Option (Signalled τ) :=
  match state.mainLoop with
  | .prepare => some { state with mainLoop := if ok then .test else .cleanupOnExit }
  | .test =>
      some { state with
        mainLoop := if state.fatalErrorInProgress then .cleanupOnExit else .accept }
  | .accept =>
      if ok then
        if state.socketShut then none else some { state with mainLoop := .serve }
      else
        some { state with mainLoop := .cleanupOnExit }
  | .serve => some { state with mainLoop := if ok then .test else .cleanupOnExit }
  | .cleanupOnExit => some { state with mainLoop := .exit }
  | .exit => some { state with ended := true }

/-- One event.  The threads that serve clients do nothing here. -/
def perform (state : Signalled τ) : SignalEvent τ → Option (Signalled τ)
  | .arrive thread sig =>
      if (state.threads thread).blocks sig then none else some (state.receive thread sig)
  | .deliver thread sig =>
      if (state.threads thread).due sig then some (state.receive thread sig) else none
  | .step thread ok =>
      if (state.threads thread).due .sigint || (state.threads thread).due .sigterm then
        none
      else
        match (state.threads thread).stack with
        | activation :: rest => some (state.handleTermination thread activation rest)
        | [] => if thread = state.mainThread then state.mainStep ok else none

end Signalled

/-- One event of a process that has not ended. -/
def signalStep {τ : Type} [DecidableEq τ] : Machine (Signalled τ) (SignalEvent τ) Unit :=
  fun state event =>
    if state.ended then none else (state.perform event).map fun state' => ((), state')

/-! ## The invariant -/

/-- A thread is not in two handlers of one signal; what its handlers have raised is pending,
and where they have set the default it is set. -/
structure Interrupted.Sound (isDefault : Signal → Bool) (thread : Interrupted) : Prop where
  nodup : (thread.stack.map Activation.sig).Nodup
  raised : ∀ activation ∈ thread.stack, activation.pc.hasRaised = true →
    thread.pending activation.sig = true
  reset : ∀ activation ∈ thread.stack, activation.pc.hasReset = true →
    isDefault activation.sig = true

def Signalled.Sound {τ : Type} (state : Signalled τ) : Prop :=
  ∀ thread, (state.threads thread).Sound state.isDefault

namespace Interrupted

variable {thread : Interrupted} {isDefault : Signal → Bool} {sig : Signal}

theorem blocks_iff : thread.blocks sig = true ↔ sig ∈ thread.stack.map Activation.sig := by
  simp only [blocks, List.any_eq_true, decide_eq_true_eq, List.mem_map]

theorem Sound.enter (sound : thread.Sound isDefault) (free : thread.blocks sig = false) :
    (thread.enter sig).Sound isDefault := by
  have outside : sig ∉ thread.stack.map Activation.sig := by
    rw [← blocks_iff, free]
    exact Bool.false_ne_true
  constructor
  · exact List.nodup_cons.mpr ⟨outside, sound.nodup⟩
  · intro activation member raised
    rcases List.mem_cons.mp member with rfl | member
    · contradiction
    · have different : activation.sig ≠ sig := fun same =>
        outside (same ▸ List.mem_map_of_mem member)
      show Function.update thread.pending sig false activation.sig = true
      rw [Function.update_of_ne different]
      exact sound.raised activation member raised
  · intro activation member reset
    rcases List.mem_cons.mp member with rfl | member
    · contradiction
    · exact sound.reset activation member reset

/-- A handler goes on, and the thread may have more pending signals. -/
theorem Sound.goto {activation : Activation} {rest : List Activation} {pc : TerminationPc}
    {pending : Signal → Bool} (sound : thread.Sound isDefault)
    (stack : thread.stack = activation :: rest)
    (more : ∀ sig, thread.pending sig = true → pending sig = true)
    (raised : pc.hasRaised = true → pending activation.sig = true)
    (reset : pc.hasReset = true → isDefault activation.sig = true) :
    Interrupted.Sound isDefault ⟨⟨activation.sig, pc⟩ :: rest, pending⟩ := by
  rcases sound with ⟨nodup, wasRaised, wasReset⟩
  rw [stack] at nodup wasRaised wasReset
  constructor
  · exact nodup
  · intro other member hasRaised
    rcases List.mem_cons.mp member with rfl | member
    · exact raised hasRaised
    · exact more _ (wasRaised other (List.mem_cons_of_mem _ member) hasRaised)
  · intro other member hasReset
    rcases List.mem_cons.mp member with rfl | member
    · exact reset hasReset
    · exact wasReset other (List.mem_cons_of_mem _ member) hasReset

theorem Sound.leave {activation : Activation} {rest : List Activation}
    (sound : thread.Sound isDefault) (stack : thread.stack = activation :: rest) :
    Interrupted.Sound isDefault ⟨rest, thread.pending⟩ := by
  rcases sound with ⟨nodup, wasRaised, wasReset⟩
  rw [stack] at nodup wasRaised wasReset
  exact ⟨(List.nodup_cons.mp nodup).2,
    fun other member => wasRaised other (List.mem_cons_of_mem _ member),
    fun other member => wasReset other (List.mem_cons_of_mem _ member)⟩

theorem Sound.mono {isDefault' : Signal → Bool} (sound : thread.Sound isDefault)
    (more : ∀ sig, isDefault sig = true → isDefault' sig = true) : thread.Sound isDefault' :=
  ⟨sound.nodup, sound.raised, fun activation member reset =>
    more _ (sound.reset activation member reset)⟩

end Interrupted

namespace Signalled

variable {τ : Type} [DecidableEq τ] {state state' : Signalled τ} {thread : τ} {sig : Signal}

omit [DecidableEq τ] in
theorem sound_start (mainThread : τ) : (start mainThread).Sound :=
  fun _ => ⟨List.nodup_nil, fun _ member => absurd member List.not_mem_nil,
    fun _ member => absurd member List.not_mem_nil⟩

@[simp]
theorem threads_setThread (state : Signalled τ) (thread : τ) (interrupted : Interrupted) :
    (state.setThread thread interrupted).threads thread = interrupted :=
  Function.update_self ..

theorem Sound.setThread (sound : state.Sound) {interrupted : Interrupted}
    (here : interrupted.Sound state.isDefault) : (state.setThread thread interrupted).Sound := by
  intro other
  show (Function.update state.threads thread interrupted other).Sound state.isDefault
  by_cases same : other = thread
  · rw [same, Function.update_self]
    exact here
  · rw [Function.update_of_ne same]
    exact sound other

theorem Sound.receive (sound : state.Sound) (free : (state.threads thread).blocks sig = false) :
    (state.receive thread sig).Sound := by
  unfold Signalled.receive
  split
  · exact sound
  · exact sound.setThread ((sound thread).enter free)

theorem Sound.handleTermination (sound : state.Sound) {activation : Activation}
    {rest : List Activation} (stack : (state.threads thread).stack = activation :: rest) :
    (state.handleTermination thread activation rest).Sound := by
  have goto (pc : TerminationPc) (notRaised : pc.hasRaised = false)
      (notReset : pc.hasReset = false) : (state.setThread thread
        ⟨⟨activation.sig, pc⟩ :: rest, (state.threads thread).pending⟩).Sound :=
    sound.setThread ((sound thread).goto stack (fun _ pending => pending)
      (fun raised => absurd raised (Bool.eq_false_iff.mp notRaised))
      fun reset => absurd reset (Bool.eq_false_iff.mp notReset))
  have raise (pc : TerminationPc)
      (reset : pc.hasReset = true → state.isDefault activation.sig = true) :
      (state.setThread thread ⟨⟨activation.sig, pc⟩ :: rest,
        Function.update (state.threads thread).pending activation.sig true⟩).Sound := by
    apply sound.setThread
    apply (sound thread).goto stack _ (fun _ => Function.update_self ..) reset
    intro sig pending
    by_cases same : sig = activation.sig
    · rw [same, Function.update_self]
    · rwa [Function.update_of_ne same]
  have leave : (state.setThread thread ⟨rest, (state.threads thread).pending⟩).Sound :=
    sound.setThread ((sound thread).leave stack)
  rcases activation with ⟨sig, pc⟩
  cases pc with
  | test =>
      unfold Signalled.handleTermination
      dsimp only
      split
      · exact goto .raiseAgain rfl rfl
      · exact goto .setFlag rfl rfl
  | raiseAgain => exact raise .returnAgain fun reset => absurd reset (by decide)
  | returnAgain => exact leave
  | setFlag => exact goto .shutdown rfl rfl
  | shutdown => exact goto .signalCaught rfl rfl
  | signalCaught => exact goto .cleanupOnExit rfl rfl
  | cleanupOnExit => exact goto .setDefault rfl rfl
  | setDefault =>
      have wider : Signalled.Sound { state with
          isDefault := Function.update state.isDefault sig true } := by
        intro other
        apply (sound other).mono
        intro other isDefault
        show Function.update state.isDefault sig true other = true
        by_cases same : other = sig
        · rw [same, Function.update_self]
        · rwa [Function.update_of_ne same]
      apply wider.setThread
      apply (wider thread).goto stack (fun _ pending => pending)
      · intro raised
        contradiction
      · intro _
        exact Function.update_self ..
  | raise =>
      apply raise .finish
      intro _
      exact (sound thread).reset ⟨sig, .raise⟩ (stack ▸ List.mem_cons_self) rfl
  | finish => exact leave

omit [DecidableEq τ] in
/-- The main thread changes where it is, and may end the process. -/
theorem mainStep_cases {ok : Bool} (step : state.mainStep ok = some state') :
    ∃ mainLoop ended, state' = { state with mainLoop := mainLoop, ended := ended } := by
  unfold mainStep at step
  split at step
  case h_3 =>
    split at step
    · split at step
      · contradiction
      · cases step
        exact ⟨_, _, rfl⟩
    · cases step
      exact ⟨_, _, rfl⟩
  all_goals
    cases step
    exact ⟨_, _, rfl⟩

/-- Nothing has to be delivered before the thread goes on. -/
def Ready (state : Signalled τ) (thread : τ) : Prop :=
  ∀ sig, (state.threads thread).due sig = false

omit [DecidableEq τ] in
theorem ready_iff : state.Ready thread ↔
    ((state.threads thread).due .sigint || (state.threads thread).due .sigterm) = false := by
  rw [Bool.or_eq_false_iff]
  constructor
  · intro ready
    exact ⟨ready .sigint, ready .sigterm⟩
  · rintro ⟨sigint, sigterm⟩ sig
    cases sig with
    | sigint => exact sigint
    | sigterm => exact sigterm

/-- The steps by what happens in them. -/
inductive Step (state : Signalled τ) : SignalEvent τ → Signalled τ → Prop
  | arrives (thread : τ) (sig : Signal) (free : (state.threads thread).blocks sig = false) :
      Step state (.arrive thread sig) (state.receive thread sig)
  | delivers (thread : τ) (sig : Signal) (due : (state.threads thread).due sig = true) :
      Step state (.deliver thread sig) (state.receive thread sig)
  | handles (thread : τ) (ok : Bool) (activation : Activation) (rest : List Activation)
      (ready : state.Ready thread) (stack : (state.threads thread).stack = activation :: rest) :
      Step state (.step thread ok) (state.handleTermination thread activation rest)
  | main (ok : Bool) (state' : Signalled τ) (ready : state.Ready state.mainThread)
      (stack : (state.threads state.mainThread).stack = [])
      (moved : state.mainStep ok = some state') :
      Step state (.step state.mainThread ok) state'

theorem perform_eq_some_iff {event : SignalEvent τ} :
    state.perform event = some state' ↔ state.Step event state' := by
  constructor
  · intro step
    unfold perform at step
    cases event with
    | arrive thread sig =>
        dsimp only at step
        split at step
        · contradiction
        · rename_i free
          cases step
          exact .arrives thread sig (Bool.not_eq_true _ ▸ free)
    | deliver thread sig =>
        dsimp only at step
        split at step
        · rename_i due
          cases step
          exact .delivers thread sig due
        · contradiction
    | step thread ok =>
        dsimp only at step
        split at step
        · contradiction
        · rename_i ready
          rw [Bool.not_eq_true, ← ready_iff] at ready
          split at step
          · rename_i activation rest stack
            cases step
            exact .handles thread ok activation rest ready stack
          · rename_i stack
            split at step
            · rename_i isMain
              subst isMain
              exact .main ok state' ready stack step
            · contradiction
  · intro step
    unfold perform
    cases step with
    | arrives thread sig free => simp only [free, Bool.false_eq_true, if_false]
    | delivers thread sig due => simp only [due, if_true]
    | handles thread ok activation rest ready stack =>
        simp only [ready_iff.mp ready, Bool.false_eq_true, if_false, stack]
    | main ok state' ready stack moved =>
        simp only [ready_iff.mp ready, Bool.false_eq_true, if_false, stack, if_true, moved]

/-- A process that has not ended makes just these steps. -/
theorem signalStep_eq_some_iff {event : SignalEvent τ} {output : Unit} :
    signalStep state event = some (output, state') ↔
      state.ended = false ∧ state.Step event state' := by
  rw [← perform_eq_some_iff, signalStep]
  cases state.ended with
  | true => simp
  | false => simp

theorem Sound.step (sound : state.Sound) {event : SignalEvent τ} (step : state.Step event state') :
    state'.Sound := by
  cases step with
  | arrives thread sig free => exact sound.receive free
  | delivers thread sig due =>
      rw [Interrupted.due, Bool.and_eq_true, Bool.not_eq_true'] at due
      exact sound.receive due.2
  | handles thread ok activation rest ready stack => exact sound.handleTermination stack
  | main ok _ ready stack moved =>
      rcases mainStep_cases moved with ⟨mainLoop, ended, rfl⟩
      exact sound

theorem sound_run {mainThread : τ} {events : List (SignalEvent τ)} {outputs : List Unit}
    (execution : run signalStep (start mainThread) events = some (outputs, state)) :
    state.Sound :=
  run_induction (motive := fun _ _ state => state.Sound) (sound_start mainThread)
    (fun _ _ _ _ _ _ _ sound step => sound.step (signalStep_eq_some_iff.mp step).2) execution

/-! ## Threads that lead to the end -/

/-- The process can end without another signal from outside. -/
def CanEnd (state : Signalled τ) : Prop :=
  ∃ events outputs target, (∀ event ∈ events, event.arrives = false) ∧
    run signalStep state events = some (outputs, target) ∧ target.ended = true

/-- A signal whose default is set is due; or nothing is due, and the thread is the main
thread outside of any handler, or its innermost handler proceeds, or raises a signal whose
default is set. -/
def LeadsToEnd (state : Signalled τ) (thread : τ) : Prop :=
  (∃ sig, (state.threads thread).due sig = true ∧ state.isDefault sig = true) ∨
    state.Ready thread ∧ match (state.threads thread).stack with
      | [] => thread = state.mainThread
      | activation :: _ => activation.pc.proceeds state.fatalErrorInProgress = true ∨
          state.isDefault activation.sig = true

/-! ### Threads that do -/

theorem CanEnd.of_ended (ended : state.ended = true) : state.CanEnd :=
  ⟨[], [], state, fun _ member => absurd member List.not_mem_nil, rfl, ended⟩

theorem CanEnd.of_step {event : SignalEvent τ} (going : state.ended = false)
    (inside : event.arrives = false) (step : state.Step event state') (later : state'.CanEnd) :
    state.CanEnd := by
  rcases later with ⟨events, outputs, target, without, execution, ended⟩
  refine ⟨event :: events, () :: outputs, target, ?_, ?_, ended⟩
  · intro other member
    rcases List.mem_cons.mp member with rfl | member
    · exact inside
    · exact without other member
  · exact (run_cons_eq_some_iff ..).mpr
      ⟨(), state', outputs, signalStep_eq_some_iff.mpr ⟨going, step⟩, execution, rfl⟩

theorem canEnd_of_due (going : state.ended = false) (due : (state.threads thread).due sig = true)
    (isDefault : state.isDefault sig = true) : state.CanEnd := by
  apply CanEnd.of_step going rfl (.delivers thread sig due)
  apply CanEnd.of_ended
  rw [receive, if_pos isDefault]

/-- A process that goes on, with a thread whose innermost handler is to take its next
step. -/
structure Handles (state : Signalled τ) (thread : τ) (activation : Activation)
    (rest : List Activation) : Prop where
  going : state.ended = false
  sound : state.Sound
  ready : state.Ready thread
  stack : (state.threads thread).stack = activation :: rest

theorem Handles.canEnd_of_step {activation : Activation} {rest : List Activation}
    (handles : state.Handles thread activation rest)
    (later : (state.handleTermination thread activation rest).CanEnd) : state.CanEnd :=
  .of_step handles.going rfl
    (.handles thread true activation rest handles.ready handles.stack) later

/-- A handler that has raised a signal whose default is set ends the process by
returning. -/
theorem Handles.canEnd_of_return {activation : Activation} {rest : List Activation}
    (handles : state.Handles thread activation rest) (raised : activation.pc.hasRaised = true)
    (isDefault : state.isDefault activation.sig = true) : state.CanEnd := by
  have sound := handles.sound thread
  have nodup := sound.nodup
  rw [handles.stack] at nodup
  have pending := sound.raised activation (handles.stack ▸ List.mem_cons_self) raised
  have returns : state.handleTermination thread activation rest =
      state.setThread thread ⟨rest, (state.threads thread).pending⟩ := by
    rcases activation with ⟨sig, pc⟩
    cases pc with
    | returnAgain | finish => rfl
    | _ => contradiction
  apply handles.canEnd_of_step
  rw [returns]
  have due : ((state.setThread thread ⟨rest, (state.threads thread).pending⟩).threads
      thread).due activation.sig = true := by
    rw [threads_setThread, Interrupted.due, Bool.and_eq_true, Bool.not_eq_true']
    refine ⟨pending, ?_⟩
    rw [← Bool.not_eq_true, Interrupted.blocks_iff]
    exact (List.nodup_cons.mp nodup).1
  exact canEnd_of_due (show (state.setThread thread ⟨rest, (state.threads thread).pending⟩).ended =
    false from handles.going) due isDefault

/-- A handler that stays where it is in its thread, and has at most raised its own
signal. -/
theorem Handles.next {activation : Activation} {rest : List Activation} {pc : TerminationPc}
    {pending : Signal → Bool} (handles : state.Handles thread activation rest)
    (here : (state.handleTermination thread activation rest).threads thread =
      ⟨⟨activation.sig, pc⟩ :: rest, pending⟩)
    (going : (state.handleTermination thread activation rest).ended = false)
    (same : ∀ sig, sig ≠ activation.sig → pending sig = (state.threads thread).pending sig) :
    (state.handleTermination thread activation rest).Handles thread ⟨activation.sig, pc⟩ rest where
  going := going
  sound := handles.sound.handleTermination handles.stack
  ready sig := by
    have blocks : (Interrupted.mk (⟨activation.sig, pc⟩ :: rest) pending).blocks sig =
        (state.threads thread).blocks sig := by
      rw [Interrupted.blocks, Interrupted.blocks, handles.stack]
      rfl
    rw [here, Interrupted.due, blocks]
    by_cases own : sig = activation.sig
    · have inside : (state.threads thread).blocks sig = true := by
        rw [Interrupted.blocks_iff, handles.stack, own]
        exact List.mem_cons_self
      rw [inside, Bool.not_true, Bool.and_false]
    · have ready := handles.ready sig
      rwa [Interrupted.due, ← same sig own] at ready
  stack := by rw [here]

/-- A handler that proceeds and has not raised its signal goes on to proceed. -/
theorem Handles.advances {activation : Activation} {rest : List Activation}
    (handles : state.Handles thread activation rest)
    (proceeds : activation.pc.proceeds state.fatalErrorInProgress = true)
    (notRaised : activation.pc.hasRaised = false) :
    ∃ pc : TerminationPc, pc.stepsLeft < activation.pc.stepsLeft ∧
      pc.proceeds (state.handleTermination thread activation rest).fatalErrorInProgress = true ∧
      (state.handleTermination thread activation rest).Handles thread ⟨activation.sig, pc⟩
        rest := by
  rcases activation with ⟨sig, pc⟩
  have stays {pc' : TerminationPc} (here : (state.handleTermination thread ⟨sig, pc⟩ rest).threads
      thread = ⟨⟨sig, pc'⟩ :: rest, (state.threads thread).pending⟩)
      (going : (state.handleTermination thread ⟨sig, pc⟩ rest).ended = false) :
      (state.handleTermination thread ⟨sig, pc⟩ rest).Handles thread ⟨sig, pc'⟩ rest :=
    handles.next here going fun _ _ => rfl
  cases pc with
  | test =>
      have clear : state.fatalErrorInProgress = false := by
        simpa [TerminationPc.proceeds] using proceeds
      refine ⟨.setFlag, Nat.lt_add_one _, rfl, stays ?_ handles.going⟩
      simp only [handleTermination, clear, Bool.false_eq_true, if_false, threads_setThread]
  | setFlag => exact ⟨.shutdown, Nat.lt_add_one _, rfl, stays (threads_setThread ..) handles.going⟩
  | shutdown =>
      exact ⟨.signalCaught, Nat.lt_add_one _, rfl, stays (threads_setThread ..) handles.going⟩
  | signalCaught =>
      exact ⟨.cleanupOnExit, Nat.lt_add_one _, rfl, stays (threads_setThread ..) handles.going⟩
  | cleanupOnExit =>
      exact ⟨.setDefault, Nat.lt_add_one _, rfl, stays (threads_setThread ..) handles.going⟩
  | setDefault =>
      exact ⟨.raise, Nat.lt_add_one _, rfl, stays (threads_setThread ..) handles.going⟩
  | raise =>
      refine ⟨.finish, Nat.lt_add_one _, rfl, ?_⟩
      exact handles.next (threads_setThread ..) handles.going
        fun _ different => Function.update_of_ne different ..
  | raiseAgain | returnAgain | finish => contradiction

/-- A handler that proceeds ends the process. -/
theorem Handles.canEnd_of_proceeds {activation : Activation} {rest : List Activation}
    (handles : state.Handles thread activation rest)
    (proceeds : activation.pc.proceeds state.fatalErrorInProgress = true) : state.CanEnd := by
  rcases activation with ⟨sig, pc⟩
  induction left : pc.stepsLeft using Nat.strong_induction_on generalizing state pc with
  | h left ih =>
      cases raised : pc.hasRaised with
      | true =>
          have reset : pc.hasReset = true := by
            cases pc with
            | finish => rfl
            | _ => contradiction
          exact handles.canEnd_of_return raised
            ((handles.sound thread).reset ⟨sig, pc⟩ (handles.stack ▸ List.mem_cons_self) reset)
      | false =>
          rcases handles.advances proceeds raised with ⟨pc', fewer, proceeds', handles'⟩
          subst left
          exact handles.canEnd_of_step (ih _ fewer pc' handles' proceeds' rfl)

/-- So does one that raises a signal whose default is set. -/
theorem Handles.canEnd_of_isDefault {activation : Activation} {rest : List Activation}
    (handles : state.Handles thread activation rest)
    (isDefault : state.isDefault activation.sig = true) : state.CanEnd := by
  rcases activation with ⟨sig, pc⟩
  have raiseAgain (state : Signalled τ) (isDefault : state.isDefault sig = true)
      (handles : state.Handles thread ⟨sig, .raiseAgain⟩ rest) : state.CanEnd := by
    apply handles.canEnd_of_step
    have raised := handles.next (threads_setThread ..) handles.going
      fun _ different => Function.update_of_ne different ..
    exact raised.canEnd_of_return rfl isDefault
  cases pc with
  | test =>
      cases fatal : state.fatalErrorInProgress with
      | false => exact handles.canEnd_of_proceeds (by rw [fatal]; rfl)
      | true =>
          apply handles.canEnd_of_step
          have again : state.handleTermination thread ⟨sig, .test⟩ rest =
              state.setThread thread
                ⟨⟨sig, .raiseAgain⟩ :: rest, (state.threads thread).pending⟩ := by
            simp only [handleTermination, fatal, if_true]
          apply raiseAgain
          · rw [again]
            exact isDefault
          · exact handles.next (again ▸ threads_setThread ..) (again ▸ handles.going) fun _ _ => rfl
  | raiseAgain => exact raiseAgain state isDefault handles
  | returnAgain => exact handles.canEnd_of_return rfl isDefault
  | setFlag | shutdown | signalCaught | cleanupOnExit | setDefault | raise | finish =>
      exact handles.canEnd_of_proceeds rfl

/-- The main thread leaves its loop once the flag is set. -/
theorem canEnd_of_main (going : state.ended = false) (ready : state.Ready state.mainThread)
    (stack : (state.threads state.mainThread).stack = [])
    (fatal : state.fatalErrorInProgress = true) : state.CanEnd := by
  have exits (state : Signalled τ) (going : state.ended = false)
      (ready : state.Ready state.mainThread)
      (stack : (state.threads state.mainThread).stack = []) (loop : state.mainLoop = .exit) :
      state.CanEnd := by
    apply CanEnd.of_step going rfl (.main true { state with ended := true } ready stack ?_)
      (.of_ended rfl)
    rw [mainStep, loop]
  have cleans (state : Signalled τ) (going : state.ended = false)
      (ready : state.Ready state.mainThread)
      (stack : (state.threads state.mainThread).stack = [])
      (loop : state.mainLoop = .cleanupOnExit) : state.CanEnd := by
    apply CanEnd.of_step going rfl (.main true { state with mainLoop := .exit } ready stack ?_)
    · exact exits _ going ready stack rfl
    · rw [mainStep, loop]
  by_cases exiting : state.mainLoop = .exit
  · exact exits state going ready stack exiting
  · by_cases cleaning : state.mainLoop = .cleanupOnExit
    · exact cleans state going ready stack cleaning
    · apply CanEnd.of_step going rfl
        (.main false { state with mainLoop := .cleanupOnExit } ready stack ?_)
      · exact cleans _ going ready stack rfl
      · cases loop : state.mainLoop with
        | exit | cleanupOnExit => contradiction
        | test => simp [mainStep, loop, fatal]
        | prepare | accept | serve => simp [mainStep, loop]

theorem LeadsToEnd.canEnd (sound : state.Sound) (going : state.ended = false)
    (fatal : state.fatalErrorInProgress = true) (leads : state.LeadsToEnd thread) :
    state.CanEnd := by
  rcases leads with ⟨sig, due, isDefault⟩ | ⟨ready, leads⟩
  · exact canEnd_of_due going due isDefault
  · cases stack : (state.threads thread).stack with
    | nil =>
        rw [stack] at leads
        subst leads
        exact canEnd_of_main going ready stack fatal
    | cons activation rest =>
        rw [stack] at leads
        have handles : state.Handles thread activation rest := ⟨going, sound, ready, stack⟩
        rcases leads with proceeds | isDefault
        · exact handles.canEnd_of_proceeds proceeds
        · exact handles.canEnd_of_isDefault isDefault

/-! ### Threads that do not -/

/-- The flag is set, and no thread leads to the end. -/
structure Hangs (state : Signalled τ) : Prop where
  sound : state.Sound
  going : state.ended = false
  fatal : state.fatalErrorInProgress = true
  noThread : ∀ thread, ¬state.LeadsToEnd thread

omit [DecidableEq τ] in
/-- Whether a thread leads to the end depends on it and on what is shared. -/
theorem LeadsToEnd.congr {thread : τ} (leads : state'.LeadsToEnd thread)
    (same : state'.threads thread = state.threads thread)
    (isDefault : state'.isDefault = state.isDefault)
    (fatal : state'.fatalErrorInProgress = state.fatalErrorInProgress)
    (mainThread : state'.mainThread = state.mainThread) : state.LeadsToEnd thread := by
  unfold LeadsToEnd Ready at *
  rwa [same, isDefault, fatal, mainThread] at leads

theorem Hangs.setThread (hangs : state.Hangs) {interrupted : Interrupted}
    (sound : interrupted.Sound state.isDefault)
    (here : ¬(state.setThread thread interrupted).LeadsToEnd thread) :
    (state.setThread thread interrupted).Hangs where
  sound := hangs.sound.setThread sound
  going := hangs.going
  fatal := hangs.fatal
  noThread other leads := by
    by_cases same : other = thread
    · exact here (same ▸ leads)
    · exact hangs.noThread other (leads.congr (Function.update_of_ne same ..) rfl rfl rfl)

omit [DecidableEq τ] in
/-- A handler leads to the end only if it proceeds, or raises a signal whose default is
set. -/
theorem Handles.leadsToEnd_iff {activation : Activation} {rest : List Activation}
    (handles : state.Handles thread activation rest) :
    state.LeadsToEnd thread ↔ activation.pc.proceeds state.fatalErrorInProgress = true ∨
      state.isDefault activation.sig = true := by
  rw [LeadsToEnd, handles.stack]
  constructor
  · rintro (⟨sig, due, _⟩ | ⟨_, leads⟩)
    · rw [handles.ready sig] at due
      contradiction
    · exact leads
  · intro leads
    exact Or.inr ⟨handles.ready, leads⟩

/-- A signal that is delivered meets the flag. -/
theorem Hangs.receive (hangs : state.Hangs) (due : (state.threads thread).due sig = true) :
    (state.receive thread sig).Hangs := by
  have notDefault : ¬state.isDefault sig = true := fun isDefault =>
    hangs.noThread thread (Or.inl ⟨sig, due, isDefault⟩)
  have free := due
  rw [Interrupted.due, Bool.and_eq_true, Bool.not_eq_true'] at free
  rw [Signalled.receive, if_neg notDefault]
  apply hangs.setThread ((hangs.sound thread).enter free.2)
  rw [LeadsToEnd, threads_setThread]
  rintro (⟨other, due', isDefault⟩ | ⟨_, proceeds | isDefault⟩)
  · apply hangs.noThread thread
    refine Or.inl ⟨other, ?_, isDefault⟩
    rw [Interrupted.due, Bool.and_eq_true, Bool.not_eq_true'] at due' ⊢
    have different : other ≠ sig := fun same => notDefault (same ▸ isDefault)
    have pending : Function.update (state.threads thread).pending sig false other = true := due'.1
    rw [Function.update_of_ne different] at pending
    refine ⟨pending, ?_⟩
    have unblocked := due'.2
    rw [← Bool.not_eq_true, Interrupted.blocks_iff] at unblocked ⊢
    exact fun inside => unblocked (List.mem_cons_of_mem _ inside)
  · rw [show (state.setThread thread _).fatalErrorInProgress = true from hangs.fatal] at proceeds
    contradiction
  · exact notDefault isDefault

/-- A handler that has been refused returns, and its signal is due again. -/
theorem Hangs.returnAgain (hangs : state.Hangs) {rest : List Activation}
    (handles : state.Handles thread ⟨sig, .returnAgain⟩ rest)
    (notDefault : ¬state.isDefault sig = true) :
    (state.setThread thread ⟨rest, (state.threads thread).pending⟩).Hangs := by
  have sound := hangs.sound thread
  have nodup := sound.nodup
  rw [handles.stack] at nodup
  have pending := sound.raised _ (handles.stack ▸ List.mem_cons_self) rfl
  apply hangs.setThread (sound.leave handles.stack)
  rw [LeadsToEnd, Ready, threads_setThread]
  rintro (⟨other, due, isDefault⟩ | ⟨ready, _⟩)
  · have different : other ≠ sig := fun same => notDefault (same ▸ isDefault)
    have settled := handles.ready other
    rw [Interrupted.due, Bool.and_eq_true, Bool.not_eq_true'] at due
    rw [Interrupted.due, due.1, Bool.true_and, Bool.not_eq_false', Interrupted.blocks_iff,
      handles.stack] at settled
    have outside := due.2
    rw [← Bool.not_eq_true, Interrupted.blocks_iff] at outside
    exact outside (List.mem_of_ne_of_mem different settled)
  · have due := ready sig
    rw [Interrupted.due, pending, Bool.true_and, Bool.not_eq_false', Interrupted.blocks_iff] at due
    exact (List.nodup_cons.mp nodup).1 due

/-- A handler that is refused stays refused. -/
theorem Hangs.goto (hangs : state.Hangs) {activation : Activation} {rest : List Activation}
    {pc : TerminationPc} {pending : Signal → Bool} (handles : state.Handles thread activation rest)
    (target : state.handleTermination thread activation rest =
      state.setThread thread ⟨⟨activation.sig, pc⟩ :: rest, pending⟩)
    (same : ∀ sig, sig ≠ activation.sig → pending sig = (state.threads thread).pending sig)
    (refused : pc.proceeds true = false) (notDefault : ¬state.isDefault activation.sig = true) :
    (state.handleTermination thread activation rest).Hangs := by
  have handles' := handles.next (target ▸ threads_setThread ..) (target ▸ hangs.going) same
  have sound := handles'.sound thread
  rw [target] at handles' sound ⊢
  rw [threads_setThread] at sound
  apply hangs.setThread sound
  rw [handles'.leadsToEnd_iff]
  rintro (proceeds | isDefault)
  · rw [show (state.setThread thread _).fatalErrorInProgress = true from hangs.fatal] at proceeds
    exact Bool.noConfusion (refused.symm.trans proceeds)
  · exact notDefault isDefault

/-- Without a signal from outside it stays so. -/
theorem Hangs.step (hangs : state.Hangs) {event : SignalEvent τ}
    (inside : event.arrives = false) (step : state.Step event state') : state'.Hangs := by
  cases step with
  | arrives thread sig free => contradiction
  | delivers thread sig due => exact hangs.receive due
  | handles thread ok activation rest ready stack =>
      have handles : state.Handles thread activation rest :=
        ⟨hangs.going, hangs.sound, ready, stack⟩
      have refused := mt handles.leadsToEnd_iff.mpr (hangs.noThread thread)
      rw [not_or, hangs.fatal] at refused
      rcases activation with ⟨sig, pc⟩
      cases pc with
      | test =>
          apply hangs.goto handles _ (fun _ _ => rfl) (show TerminationPc.raiseAgain.proceeds true =
            false from rfl) refused.2
          simp only [handleTermination, hangs.fatal, if_true]
      | raiseAgain =>
          exact hangs.goto handles rfl (fun _ different => Function.update_of_ne different ..)
            (show TerminationPc.returnAgain.proceeds true = false from rfl) refused.2
      | returnAgain => exact hangs.returnAgain handles refused.2
      | setFlag | shutdown | signalCaught | cleanupOnExit | setDefault | raise | finish =>
          exact absurd rfl refused.1
  | main ok _ ready stack moved =>
      refine absurd (Or.inr ⟨ready, ?_⟩) (hangs.noThread state.mainThread)
      rw [stack]

/-- A process that hangs cannot end. -/
theorem Hangs.not_canEnd (hangs : state.Hangs) : ¬state.CanEnd := by
  rintro ⟨events, outputs, target, without, execution, ended⟩
  have along : Along signalStep (fun _ event => event.arrives = false) state events :=
    along_of_forall fun event member _ => without event member
  have stays : target.Hangs := by
    apply invariant_of_along _ hangs along execution
    intro state event output target hangs inside step
    exact hangs.step inside (signalStep_eq_some_iff.mp step).2
  rw [stays.going] at ended
  contradiction

end Signalled

/-- Once the flag is set, in every state that the threads can reach with whatever signals at
whatever times, the process can still end without another signal exactly if some thread
leads to the end.  A handler that the other signal interrupts behind its test does not. -/
theorem shutdown_can_end_iff {τ : Type} [DecidableEq τ] {mainThread : τ}
    {events : List (SignalEvent τ)} {outputs : List Unit} {state : Signalled τ}
    (execution : run signalStep (Signalled.start mainThread) events = some (outputs, state))
    (going : state.ended = false) (fatal : state.fatalErrorInProgress = true) :
    state.CanEnd ↔ ∃ thread, state.LeadsToEnd thread := by
  have sound := Signalled.sound_run execution
  constructor
  · intro canEnd
    by_contra noThread
    exact Signalled.Hangs.not_canEnd ⟨sound, going, fatal, not_exists.mp noThread⟩ canEnd
  · rintro ⟨thread, leads⟩
    exact leads.canEnd sound going fatal

/-- A server without clients: it can end while it handles `SIGINT`, and when `SIGTERM`
interrupts the handler it cannot. -/
theorem shutdown_can_end_iff_twice :
    (∃ state, run signalStep (Signalled.start ())
        [.arrive () .sigint, .step () true, .step () true] = some ([(), (), ()], state) ∧
      state.CanEnd) ∧
    ∃ state, run signalStep (Signalled.start ())
        [.arrive () .sigint, .step () true, .step () true, .arrive () .sigterm] =
          some ([(), (), (), ()], state) ∧ ¬state.CanEnd := by
  constructor
  · have execution : run signalStep (Signalled.start ())
        [.arrive () .sigint, .step () true, .step () true] = some ([(), (), ()], _) := rfl
    refine ⟨_, execution, (shutdown_can_end_iff execution rfl rfl).mpr ⟨(), Or.inr ⟨?_, ?_⟩⟩⟩
    · intro sig
      cases sig <;> rfl
    · exact Or.inl rfl
  · have execution : run signalStep (Signalled.start ())
        [.arrive () .sigint, .step () true, .step () true, .arrive () .sigterm] =
          some ([(), (), (), ()], _) := rfl
    refine ⟨_, execution, fun canEnd => ?_⟩
    rcases (shutdown_can_end_iff execution rfl rfl).mp canEnd with
      ⟨⟨⟩, ⟨sig, _, isDefault⟩ | ⟨_, proceeds | isDefault⟩⟩
    · exact Bool.noConfusion isDefault
    · exact Bool.noConfusion proceeds
    · exact Bool.noConfusion isDefault

end Aesd.Server
