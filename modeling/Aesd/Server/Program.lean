import Aesd.Server.DescriptorLedger

/-!
# The descriptors of a whole run

`main_socket_application`, the handler of the present connection and
`handle_termination`, with the descriptors that they open and close.  Connections are
served one after another, so the main thread waits in `accept` while a handler runs.  A
termination signal is delivered to one of the two threads, which goes no further while it
runs `handle_termination`; the other one goes on during the cleanup.  Another signal
opens and closes nothing.
-/

namespace Aesd.Server

open Aesd.Driver Aesd.Transition

/-- The next close of `cleanup_on_exit`. -/
inductive CleanupPc where
  | dataFile
  | socket
  | client
  deriving DecidableEq, Repr

def CleanupPc.next : CleanupPc → Option CleanupPc
  | .dataFile => some .socket
  | .socket => some .client
  | .client => none

/-- The next call of the main thread; `cleanup` is its own `cleanup_on_exit`. -/
inductive MainPc where
  | getaddrinfo
  | socket
  | setsockopt
  | bind
  | runDaemon
  | listen
  | accept
  | malloc
  | create
  | cleanup (next : CleanupPc)
  | returned
  deriving DecidableEq, Repr

/-- The present client's socket has been accepted and has no handler. -/
def MainPc.hasClient : MainPc → Bool
  | .malloc | .create => true
  | _ => false

/-- A handler can be running. -/
def MainPc.waits : MainPc → Bool
  | .accept | .cleanup _ => true
  | _ => false

theorem MainPc.waits_of_hasClient {pc : MainPc} (client : pc.hasClient = true) :
    pc.waits = false := by
  cases pc <;> trivial

/-- Whether a termination signal has been caught, and by which thread; `next` is the next
close of its `cleanup_on_exit`, before the signal is raised again. -/
inductive Phase where
  | running
  | terminating (onMain : Bool) (next : Option CleanupPc)
  | ended
  deriving DecidableEq, Repr

namespace Phase

def mainRuns : Phase → Bool
  | .running => true
  | .terminating onMain _ => !onMain
  | .ended => false

def handlerRuns : Phase → Bool
  | .running => true
  | .terminating onMain _ => onMain
  | .ended => false

/-- `handle_termination` has not closed the data file. -/
def uncleaned : Phase → Bool
  | .running => true
  | .terminating _ next => next == some .dataFile
  | .ended => false

end Phase

/-- What the calls of `run_daemon` do, in the process that goes on. -/
structure DaemonOutcome where
  /-- `fork`, `setsid` and `chdir` succeed. -/
  detached : Bool
  /-- The number of `/dev/null`, if it could be opened. -/
  null : Option Nat
  /-- How many calls of `dup2` succeed. -/
  dups : Nat

structure Program where
  pc : MainPc
  process : Process Unit
  sockFd : Int
  clientSocketFd : Int
  /-- The flags `socket_open` and `client_fd_open` of `s_flags`. -/
  socketOpen : Bool
  clientFdOpen : Bool
  daemonMode : Bool
  /-- The handler that has not returned. -/
  handler : Option Handler
  phase : Phase
  /-- What the program has opened and not closed. -/
  opened : List Int
  /-- What it has opened and closed since the present client was accepted. -/
  connection : List (Entry Int)

/-- A call of the main thread with its result, a step of the handler, a signal that is
delivered to one of the two, or a step of `handle_termination`.  With `fatalError` the loop
of `accept_and_log_client` finds the flag set. -/
inductive ProgramEvent where
  | getaddrinfo (ok : Bool)
  | socket (fd : Option Nat)
  | setsockopt (ok : Bool)
  | bind (ok : Bool)
  | runDaemon (outcome : DaemonOutcome)
  | listen (ok : Bool)
  | fatalError
  | accept (fd : Option Nat)
  | malloc (ok : Bool)
  | pthreadCreate (ret : Nat) (incoming : List Chunk)
  | cleanup (outcome : Outcome)
  | handler (outcome : Outcome)
  | signal (onMain : Bool)
  | terminate (outcome : Outcome)

/-- The listening socket that is opened. -/
def ProgramEvent.listens : ProgramEvent → Option Nat
  | .socket fd => fd
  | _ => none

/-- A client is accepted. -/
def ProgramEvent.accepts : ProgramEvent → Bool
  | .accept (some _) => true
  | _ => false

/-- What the step closes is closed in a handler or in `cleanup_on_exit`. -/
def ProgramEvent.closes : ProgramEvent → Bool
  | .runDaemon _ => false
  | _ => true

/-- The program at its start, with standard input, output and error open. -/
def Program.start (system : System) (inherited : Nat → Bool) (daemonMode : Bool) : Program where
  pc := .getaddrinfo
  process :=
    { system := system
      descriptors := fun fd => if fd < 3 ∨ inherited fd = true then some .other else none
      dataFileDescriptor := 0
      lock := none }
  sockFd := 0
  clientSocketFd := 0
  socketOpen := false
  clientFdOpen := false
  daemonMode := daemonMode
  handler := none
  phase := .running
  opened := []
  connection := []

namespace DaemonOutcome

/-- The standard descriptors are closed and become copies of `/dev/null`. -/
def entries (outcome : DaemonOutcome) : List (Entry Int) :=
  if outcome.detached then
    [.closes 0, .closes 1, .closes 2] ++
      match outcome.null with
      | none => []
      | some fd =>
          .opens (fd : Int) ::
            ((([0, 1, 2].take outcome.dups).filter (· ≠ fd)).map fun number : Nat =>
              .opens (number : Int)) ++
            if 3 ≤ outcome.dups then [.closes (fd : Int)] else []
  else
    []

def succeeds (outcome : DaemonOutcome) : Bool :=
  outcome.detached && outcome.null.isSome && decide (3 ≤ outcome.dups)

end DaemonOutcome

namespace Process

/-- `socket` and `accept` return some number that is not in use. -/
def openSocket (fd : Nat) (process : Process Unit) : Option (Process Unit) :=
  if process.descriptors fd = none then
    some { process with descriptors := Function.update process.descriptors fd (some .socket) }
  else
    none

/-- The descriptors after entries of `run_daemon`. -/
def follow (process : Process Unit) : Entry Int → Process Unit
  | .opens fd =>
      { process with descriptors := Function.update process.descriptors fd.toNat (some .other) }
  | .closes fd => { process with descriptors := Function.update process.descriptors fd.toNat none }

theorem openSocket_eq_some {fd : Nat} {process process' : Process Unit}
    (result : process.openSocket fd = some process') :
    process.descriptors fd = none ∧ process' = { process with
      descriptors := Function.update process.descriptors fd (some .socket) } := by
  unfold openSocket at result
  split at result
  · rename_i unused
    exact ⟨unused, (Option.some.inj result).symm⟩
  · contradiction

/-- `/dev/null` gets some number that is not in use once the standard descriptors are
closed. -/
def runDaemon (outcome : DaemonOutcome) (process : Process Unit) : Option (Process Unit) :=
  if ∀ fd ∈ outcome.null, 3 ≤ fd → process.descriptors fd = none then
    some (outcome.entries.foldl follow process)
  else
    none

end Process

def Pc.hasReturned : Pc → Bool
  | .returned _ => true
  | _ => false

theorem Pc.eq_returned {pc : Pc} (returned : pc.hasReturned = true) : ∃ ok, pc = .returned ok := by
  cases pc with
  | returned ok => exact ⟨ok, rfl⟩
  | _ => contradiction

namespace Program

def goto (program : Program) (pc : MainPc) : Program :=
  { program with pc := pc }

/-- After a call of `main_socket_application`: an error leads to `cleanup_on_exit`. -/
def proceed (program : Program) (ok : Bool) (pc : MainPc) : Program :=
  program.goto (if ok then pc else .cleanup .dataFile)

/-- A close of `cleanup_on_exit`. -/
def cleanupOnExit (program : Program) (outcome : Outcome) :
    CleanupPc → List (Entry Int) × Program
  | .dataFile =>
      ([.closes program.process.dataFileDescriptor],
        { program with
          process := (program.process.sysClose outcome program.process.dataFileDescriptor).2 })
  | .socket =>
      if program.socketOpen then
        ([.closes program.sockFd],
          { program with
            process := (program.process.sysClose outcome program.sockFd).2
            socketOpen := false })
      else
        ([], program)
  | .client =>
      if program.clientFdOpen then
        ([.closes program.clientSocketFd],
          { program with
            process := (program.process.sysClose outcome program.clientSocketFd).2
            clientFdOpen := false })
      else
        ([], program)

/-- A call of the main thread. -/
def mainStep (program : Program) (event : ProgramEvent) : Option (List (Entry Int) × Program) :=
  match event, program.pc with
  | .getaddrinfo ok, .getaddrinfo => some ([], program.proceed ok .socket)
  | .socket none, .socket =>
      some ([], { program with pc := .cleanup .dataFile, sockFd := -1 })
  | .socket (some fd), .socket =>
      (program.process.openSocket fd).map fun process =>
        ([.opens (fd : Int)],
          { program with pc := .setsockopt, process := process, sockFd := fd })
  | .setsockopt ok, .setsockopt => some ([], program.proceed ok .bind)
  | .bind ok, .bind =>
      some ([], program.proceed ok (if program.daemonMode then .runDaemon else .listen))
  | .runDaemon outcome, .runDaemon =>
      (program.process.runDaemon outcome).map fun process =>
        (outcome.entries, { program.proceed outcome.succeeds .listen with process := process })
  | .listen ok, .listen => some ([], program.proceed ok .accept)
  | .fatalError, .accept =>
      if program.phase = .running then none
      else some ([], program.goto (.cleanup .dataFile))
  | .accept none, .accept =>
      some ([], { program with pc := .cleanup .dataFile, clientSocketFd := -1 })
  | .accept (some fd), .accept =>
      -- the handler before it has returned
      if program.handler.isSome then none
      else (program.process.openSocket fd).map fun process =>
        ([.opens (fd : Int)],
          { program with pc := .malloc, process := process, clientSocketFd := fd })
  | .malloc ok, .malloc => some ([], program.proceed ok .create)
  | .pthreadCreate ret incoming, .create =>
      if (ret : Int) = -1 then
        some ([], program.goto (.cleanup .dataFile))
      else
        -- without a thread the connection is left alone; the pass over the list that follows
        -- closes nothing, and joins only threads that return their `thread_data`
        some ([], { program with
          pc := .accept
          handler :=
            if ret = 0 then some (clientDataHandler program.clientSocketFd.toNat incoming)
            else none })
  | .cleanup outcome, .cleanup next =>
      let (entries, target) := program.cleanupOnExit outcome next
      some (entries, target.goto (next.next.elim .returned .cleanup))
  | _, _ => none

/-- A step of the handler. -/
def serve (program : Program) (outcome : Outcome) : Option (List (Entry Int) × Program) :=
  program.handler.bind fun handler =>
    (handlerStep () (handler, program.process) outcome).map fun (answer, handler', process) =>
      (handler.entries answer,
        { program with
          handler := if handler'.pc.hasReturned then none else some handler'
          process := process })

/-- A step of `handle_termination`: the next close, or the signal that ends the process. -/
def terminate (program : Program) (outcome : Outcome) : Option (List (Entry Int) × Program) :=
  match program.phase with
  | .terminating onMain (some next) =>
      let (entries, target) := program.cleanupOnExit outcome next
      some (entries, { target with phase := .terminating onMain next.next })
  | .terminating _ none => some ([], { program with phase := .ended })
  | _ => none

/-- One step of the program, without the ledgers. -/
def next (program : Program) : ProgramEvent → Option (List (Entry Int) × Program)
  | .handler outcome => if program.phase.handlerRuns then program.serve outcome else none
  | .signal onMain =>
      if program.phase = .running ∧ (onMain = true ∨ program.handler.isSome = true) then
        some ([], { program with phase := .terminating onMain (some .dataFile) })
      else
        none
  | .terminate outcome => program.terminate outcome
  | event => if program.phase.mainRuns then program.mainStep event else none

/-- The ledgers after a step. -/
def account (program : Program) (event : ProgramEvent) (entries : List (Entry Int))
    (target : Program) : Program :=
  { target with
    opened := outstanding program.opened entries
    connection := if event.accepts then entries else program.connection ++ entries }

end Program

/-- One step of the program, with what it opens and closes. -/
def programStep : Machine Program ProgramEvent (List (Entry Int))
  | program, event =>
      (program.next event).map fun (entries, target) =>
        (entries, program.account event entries target)

/-! ## Balance -/

/-- The listening socket is closed exactly once in the rest of the run. -/
def ListeningCloses : List (ProgramEvent × List (Entry Int)) → Prop
  | [] => True
  | (event, _) :: steps =>
      (∀ fd ∈ event.listens, closings (fd : Int) (steps.flatMap Prod.snd) = 1) ∧
        ListeningCloses steps

instance decidableListeningCloses :
    ∀ steps : List (ProgramEvent × List (Entry Int)), Decidable (ListeningCloses steps)
  | [] => isTrue trivial
  | (event, _) :: steps =>
      have := decidableListeningCloses steps
      inferInstanceAs (Decidable ((∀ fd ∈ event.listens, _) ∧ ListeningCloses steps))

namespace Program

/-- When a handler returns its client's socket and every data file it has opened have been
closed exactly once. -/
def HandlerCloses (program : Program) (event : ProgramEvent) : Prop :=
  ∀ result ∈ programStep program event, program.handler.isSome = true →
    result.2.handler = none → ClosedOnce result.2.connection

instance (program : Program) (event : ProgramEvent) : Decidable (program.HandlerCloses event) :=
  inferInstanceAs (Decidable (∀ result ∈ programStep program event, _ → _ → _))

/-- What a handler or cleanup closes has been opened and not yet closed. -/
def ClosesOpened (program : Program) (event : ProgramEvent) : Prop :=
  event.closes = true → ∀ result ∈ programStep program event, ClosesOpen program.opened result.1

instance (program : Program) (event : ProgramEvent) : Decidable (program.ClosesOpened event) :=
  inferInstanceAs (Decidable (_ → ∀ result ∈ programStep program event, _))

/-- Descriptors are balanced in a run: when a handler returns, when
`main_socket_application` returns, and at each close. -/
structure Balanced (program : Program) (events : List ProgramEvent)
    (outputs : List (List (Entry Int))) (final : Program) : Prop where
  handlers : Along programStep HandlerCloses program events
  listening : final.pc = .returned → ListeningCloses (events.zip outputs)
  closes : Along programStep ClosesOpened program events

theorem balanced_iff {program final : Program} {events : List ProgramEvent}
    {outputs : List (List (Entry Int))} :
    program.Balanced events outputs final ↔ Along programStep HandlerCloses program events ∧
      (final.pc = .returned → ListeningCloses (events.zip outputs)) ∧
        Along programStep ClosesOpened program events :=
  ⟨fun balanced => ⟨balanced.handlers, balanced.listening, balanced.closes⟩,
    fun ⟨handlers, listening, closes⟩ => ⟨handlers, listening, closes⟩⟩

instance (program final : Program) (events : List ProgramEvent)
    (outputs : List (List (Entry Int))) : Decidable (program.Balanced events outputs final) :=
  decidable_of_iff' _ balanced_iff

/-- The handler's data file is the one in the global. -/
def HasFile (program : Program) : Prop :=
  ∃ handler ∈ program.handler, handler.pc.dataFile program.process.dataFileDescriptor =
    some program.process.dataFileDescriptor

/-- The condition on a step: the main thread does not come to its own cleanup, the handler
meets its condition and takes no step once `handle_termination` has closed its data file,
and that closes the global only while the handler has its data file there. -/
def Proceeds (program : Program) : ProgramEvent → Prop
  | .cleanup _ => False
  | .handler outcome =>
      program.phase.uncleaned = true ∧
        ∀ handler ∈ program.handler, handler.Keeps program.process outcome
  | .terminate _ => program.phase.uncleaned = true → program.HasFile
  | _ => True

instance (program : Program) : Decidable program.HasFile :=
  inferInstanceAs (Decidable (∃ handler ∈ program.handler, _))

instance (program : Program) : ∀ event, Decidable (program.Proceeds event)
  | .cleanup _ => isFalse id
  | .handler _ => inferInstanceAs (Decidable (_ ∧ ∀ handler ∈ program.handler, _))
  | .terminate _ => inferInstanceAs (Decidable (_ → program.HasFile))
  | .getaddrinfo _ | .socket _ | .setsockopt _ | .bind _ | .runDaemon _ | .listen _ | .fatalError
  | .accept _ | .malloc _ | .pthreadCreate .. | .signal _ => isTrue trivial

end Program

/-! ## What a step keeps -/

/-- What the handler has opened and not closed is its own. -/
structure Handler.Balances (handler : Handler) (process : Process Unit)
    (connection : List (Entry Int)) (opened own others : List Int) : Prop where
  sound : Accounted.Sound ⟨handler, process, own⟩
  tidy : Accounted.Tidy ⟨handler, process, own⟩
  opened : opened = own ++ others
  proper : Proper [] connection
  outstanding : outstanding [] connection = own

namespace Program

def Serves (program : Program) (handler : Handler) : Prop :=
  ∃ own others, handler.Balances program.process program.connection program.opened own others

/-- The present client's socket is open and waits for its handler. -/
def OwnsClient (program : Program) : Prop :=
  0 ≤ program.clientSocketFd ∧
    program.process.descriptors program.clientSocketFd.toNat ≠ none ∧
    program.connection = [.opens program.clientSocketFd] ∧
    ∃ others, program.opened = program.clientSocketFd :: others

/-- The invariant of the steps that meet the condition. -/
structure Tidy (program : Program) : Prop where
  flags : program.socketOpen = false ∧ program.clientFdOpen = false
  going : program.pc ≠ .returned
  alone : program.pc.waits = false → program.handler = none
  client : program.pc.hasClient = true → program.OwnsClient
  serving : program.phase.uncleaned = true → ∀ handler ∈ program.handler, program.Serves handler

/-- What a step that meets the condition does. -/
structure Follows (program : Program) (event : ProgramEvent) (entries : List (Entry Int))
    (target : Program) : Prop where
  tidy : target.Tidy
  closes : event.closes = true → ClosesOpen program.opened entries
  handlers : program.handler.isSome = true → target.handler = none → ClosedOnce target.connection

variable {program target : Program} {event : ProgramEvent} {entries : List (Entry Int)}
  {outcome : Outcome} {fd : Option Nat} {ok : Bool}

theorem tidy_start (system : System) (inherited : Nat → Bool) (daemonMode : Bool) :
    (start system inherited daemonMode).Tidy := by
  constructor
  · exact ⟨rfl, rfl⟩
  · simp [start]
  · exact fun _ => rfl
  · rintro ⟨⟩
  · rintro _ _ ⟨⟩

/-- A step of the main thread that opens and closes nothing. -/
theorem Tidy.moves (tidy : program.Tidy) (quiet : event.accepts = false) {pc : MainPc}
    (sockFd clientSocketFd : Int) (going : pc ≠ .returned)
    (waits : pc.waits = false → program.pc.waits = false)
    (client : pc.hasClient = true →
      program.pc.hasClient = true ∧ clientSocketFd = program.clientSocketFd) :
    program.Follows event [] (program.account event []
      { program with pc := pc, sockFd := sockFd, clientSocketFd := clientSocketFd }) := by
  simp only [account, quiet, outstanding_nil, List.append_nil, Bool.false_eq_true, if_false]
  constructor
  · constructor
    · exact tidy.flags
    · exact going
    · exact fun leaves => tidy.alone (waits leaves)
    · intro hasClient
      rcases client hasClient with ⟨before, rfl⟩
      exact tidy.client before
    · exact tidy.serving
  · exact fun _ => trivial
  · intro running returned
    dsimp only at returned
    rw [returned] at running
    contradiction

/-- A step while there is no handler, and after which there is none. -/
theorem Tidy.unattended (tidy : program.Tidy) (before : program.handler = none)
    (after : target.handler = none)
    (flags : target.socketOpen = program.socketOpen ∧ target.clientFdOpen = program.clientFdOpen)
    (going : target.pc ≠ .returned) (client : target.pc.hasClient = true → target.OwnsClient)
    (closes : event.closes = true → ClosesOpen program.opened entries) :
    program.Follows event entries target := by
  constructor
  · constructor
    · exact ⟨flags.1.trans tidy.flags.1, flags.2.trans tidy.flags.2⟩
    · exact going
    · exact fun _ => after
    · exact client
    · rw [after]
      rintro _ _ ⟨⟩
  · exact closes
  · rw [before]
    rintro ⟨⟩

/-! ### The calls of the main thread -/

/-- A call at `here` that opens and closes nothing, and is followed by the one at `next`. -/
theorem Tidy.call (tidy : program.Tidy) (here next : MainPc) (ok : Bool)
    (quiet : event.accepts = false)
    (main : program.mainStep event =
      if program.pc = here then some ([], program.proceed ok next) else none)
    (taken : program.mainStep event = some (entries, target)) (leaves : here.waits = false)
    (going : next ≠ .returned) (client : next.hasClient = true → here.hasClient = true) :
    program.Follows event entries (program.account event entries target) := by
  rw [main] at taken
  split at taken
  · rename_i pc
    subst pc
    cases taken
    cases ok with
    | false =>
        exact tidy.moves quiet program.sockFd program.clientSocketFd (by simp) (by rintro ⟨⟩)
          (by rintro ⟨⟩)
    | true =>
        exact tidy.moves quiet program.sockFd program.clientSocketFd going (fun _ => leaves)
          fun hasClient => ⟨client hasClient, rfl⟩
  · contradiction

theorem Tidy.socket (tidy : program.Tidy)
    (taken : program.mainStep (.socket fd) = some (entries, target)) :
    program.Follows (.socket fd) entries (program.account (.socket fd) entries target) := by
  cases pc : program.pc with
  | socket =>
      have leaves : program.pc.waits = false := by rw [pc]; rfl
      cases fd with
      | none =>
          simp only [mainStep, pc, Option.some.injEq, Prod.mk.injEq] at taken
          rcases taken with ⟨rfl, rfl⟩
          exact tidy.moves rfl (-1) program.clientSocketFd (by simp) (by rintro ⟨⟩)
            (by rintro ⟨⟩)
      | some fd =>
          simp only [mainStep, pc, Option.map_eq_some_iff, Prod.mk.injEq] at taken
          rcases taken with ⟨process, _, rfl, rfl⟩
          have alone : program.handler = none := tidy.alone leaves
          exact tidy.unattended alone alone ⟨rfl, rfl⟩ (by simp [account]) (by rintro ⟨⟩)
            fun _ => trivial
  | _ => cases fd <;> simp [mainStep, pc] at taken

theorem Tidy.runDaemon (tidy : program.Tidy) {outcome : DaemonOutcome}
    (taken : program.mainStep (.runDaemon outcome) = some (entries, target)) :
    program.Follows (.runDaemon outcome) entries
      (program.account (.runDaemon outcome) entries target) := by
  cases pc : program.pc with
  | runDaemon =>
      have alone : program.handler = none := tidy.alone (by rw [pc]; rfl)
      simp only [mainStep, pc, Option.map_eq_some_iff, Prod.mk.injEq] at taken
      rcases taken with ⟨process, _, rfl, rfl⟩
      cases succeeds : outcome.succeeds with
      | false =>
          exact tidy.unattended alone alone ⟨rfl, rfl⟩ (by simp [account, proceed, goto])
            (by rintro ⟨⟩) (by rintro ⟨⟩)
      | true =>
          exact tidy.unattended alone alone ⟨rfl, rfl⟩ (by simp [account, proceed, goto])
            (by rintro ⟨⟩) (by rintro ⟨⟩)
  | _ => simp [mainStep, pc] at taken

theorem Tidy.fatalError (tidy : program.Tidy)
    (taken : program.mainStep .fatalError = some (entries, target)) :
    program.Follows .fatalError entries (program.account .fatalError entries target) := by
  cases pc : program.pc with
  | accept =>
      simp only [mainStep, pc] at taken
      split at taken
      · contradiction
      · cases taken
        exact tidy.moves rfl program.sockFd program.clientSocketFd (by simp) (by rintro ⟨⟩)
          (by rintro ⟨⟩)
  | _ => simp [mainStep, pc] at taken

theorem Tidy.accept (tidy : program.Tidy)
    (taken : program.mainStep (.accept fd) = some (entries, target)) :
    program.Follows (.accept fd) entries (program.account (.accept fd) entries target) := by
  cases pc : program.pc with
  | accept =>
      cases fd with
      | none =>
          simp only [mainStep, pc, Option.some.injEq, Prod.mk.injEq] at taken
          rcases taken with ⟨rfl, rfl⟩
          exact tidy.moves rfl program.sockFd (-1) (by simp) (by rintro ⟨⟩) (by rintro ⟨⟩)
      | some fd =>
          simp only [mainStep, pc] at taken
          split at taken
          · contradiction
          · rename_i returned
            rw [Bool.not_eq_true, Option.isSome_eq_false_iff, Option.isNone_iff_eq_none] at returned
            simp only [Option.map_eq_some_iff, Prod.mk.injEq] at taken
            rcases taken with ⟨process, opened, rfl, rfl⟩
            rcases Process.openSocket_eq_some opened with ⟨_, rfl⟩
            exact tidy.unattended returned returned ⟨rfl, rfl⟩ (by simp [account])
              (fun _ => ⟨Int.natCast_nonneg fd, by simp [account], rfl, _, rfl⟩) fun _ => trivial
  | _ => cases fd <;> simp [mainStep, pc] at taken

/-- A handler starts with its client's socket. -/
theorem OwnsClient.balances (owns : program.OwnsClient) (incoming : List Chunk) :
    ∃ others, (clientDataHandler program.clientSocketFd.toNat incoming).Balances program.process
      program.connection program.opened [program.clientSocketFd] others := by
  rcases owns with ⟨nonneg, used, connection, others, opened⟩
  have same : ((program.clientSocketFd.toNat : Nat) : Int) = program.clientSocketFd :=
    Int.toNat_of_nonneg nonneg
  have sound := Accounted.Sound.start incoming used
  have tidy := Accounted.Tidy.start program.clientSocketFd.toNat incoming program.process
  rw [Accounted.start, same] at sound tidy
  exact ⟨others, sound, tidy, opened, connection ▸ ⟨List.not_mem_nil, trivial⟩, connection ▸ rfl⟩

theorem Tidy.pthreadCreate (tidy : program.Tidy) {ret : Nat} {incoming : List Chunk}
    (taken : program.mainStep (.pthreadCreate ret incoming) = some (entries, target)) :
    program.Follows (.pthreadCreate ret incoming) entries
      (program.account (.pthreadCreate ret incoming) entries target) := by
  cases pc : program.pc with
  | create =>
      have created : (ret : Int) ≠ -1 := by omega
      have alone : program.handler = none := tidy.alone (by rw [pc]; rfl)
      simp only [mainStep, pc, if_neg created, Option.some.injEq, Prod.mk.injEq] at taken
      rcases taken with ⟨rfl, rfl⟩
      by_cases zero : ret = 0
      · rw [if_pos zero]
        rcases (tidy.client (by rw [pc]; rfl)).balances incoming with ⟨others, balances⟩
        constructor
        · constructor
          · exact tidy.flags
          · simp [account]
          · rintro ⟨⟩
          · rintro ⟨⟩
          · rintro _ _ ⟨⟩
            exact ⟨_, others, by simpa [account, ProgramEvent.accepts] using balances⟩
        · exact fun _ => trivial
        · rw [alone]
          rintro ⟨⟩
      · rw [if_neg zero]
        exact tidy.unattended alone rfl ⟨rfl, rfl⟩ (by simp [account]) (by rintro ⟨⟩)
          fun _ => trivial
  | _ => simp [mainStep, pc] at taken

/-! ### The handler and the termination -/

theorem Tidy.handler (tidy : program.Tidy) (uncleaned : program.phase.uncleaned = true)
    (keeps : ∀ handler ∈ program.handler, handler.Keeps program.process outcome)
    (taken : program.serve outcome = some (entries, target)) :
    program.Follows (.handler outcome) entries
      (program.account (.handler outcome) entries target) := by
  simp only [serve, Option.bind_eq_some_iff, Option.map_eq_some_iff, Prod.exists,
    Prod.mk.injEq] at taken
  rcases taken with ⟨handler, running, answer, handler', process, step, rfl, rfl⟩
  have occupied : program.handler ≠ none := by
    rw [running]
    simp
  rcases tidy.serving uncleaned handler running with ⟨own, others, balances⟩
  have next := balances.sound.step (handlerStep_cases step)
  have tidy' := next.tidy_iff.mpr ⟨balances.tidy, keeps handler running⟩
  have proper : Proper [] (program.connection ++ handler.entries answer) := by
    rw [proper_append, balances.outstanding]
    exact ⟨balances.proper, next.proper⟩
  have left : outstanding [] (program.connection ++ handler.entries answer) =
      outstanding own (handler.entries answer) := by
    rw [outstanding_append, balances.outstanding]
  have opened : outstanding program.opened (handler.entries answer) =
      outstanding own (handler.entries answer) ++ others := by
    rw [balances.opened]
    exact next.proper.outstanding_append others
  constructor
  · constructor
    · exact tidy.flags
    · exact tidy.going
    · exact fun leaves => absurd (tidy.alone leaves) occupied
    · intro hasClient
      exact absurd (tidy.alone (MainPc.waits_of_hasClient hasClient)) occupied
    · intro _ other serves
      dsimp only [account] at serves
      split at serves
      · contradiction
      · cases serves
        exact ⟨_, others, next.sound, tidy', opened, proper, left⟩
  · intro _
    rw [balances.opened]
    exact next.proper.closesOpen others
  · intro _ ended
    dsimp only [account] at ended
    split at ended
    · rename_i returned
      rcases Pc.eq_returned returned with ⟨ok, returned⟩
      have closed := (next.sound.tidy_iff_of_returned returned).mp tidy'
      exact ((proper.closedOnce_iff List.nodup_nil).mpr (left.trans closed)).2
    · contradiction

/-- A step that only changes how far the termination is. -/
theorem Tidy.turns (tidy : program.Tidy) (quiet : event.accepts = false) {phase : Phase}
    (uncleaned : phase.uncleaned = true → program.phase.uncleaned = true) :
    program.Follows event [] (program.account event [] { program with phase := phase }) := by
  simp only [account, quiet, outstanding_nil, List.append_nil, Bool.false_eq_true, if_false]
  constructor
  · exact ⟨tidy.flags, tidy.going, tidy.alone, tidy.client,
      fun before => tidy.serving (uncleaned before)⟩
  · exact fun _ => trivial
  · intro running returned
    dsimp only at returned
    rw [returned] at running
    contradiction

/-- Cleanup closes the data file of the handler. -/
theorem Tidy.closesFile (tidy : program.Tidy) {onMain : Bool}
    (uncleaned : program.phase.uncleaned = true) (hasFile : program.HasFile) :
    program.Follows (.terminate outcome) [.closes program.process.dataFileDescriptor]
      (program.account (.terminate outcome) [.closes program.process.dataFileDescriptor]
        { program with
          process := (program.process.sysClose outcome program.process.dataFileDescriptor).2
          phase := .terminating onMain (some .socket) }) := by
  rcases hasFile with ⟨handler, running, file⟩
  have occupied : program.handler ≠ none := by
    rw [running]
    simp
  rcases tidy.serving uncleaned handler running with ⟨own, others, balances⟩
  have owned : program.process.dataFileDescriptor ∈ own :=
    balances.sound.owned _ (.inr ⟨file, balances.tidy.hasFile _ file⟩)
  constructor
  · constructor
    · exact tidy.flags
    · exact tidy.going
    · exact fun leaves => absurd (tidy.alone leaves) occupied
    · intro hasClient
      exact absurd (tidy.alone (MainPc.waits_of_hasClient hasClient)) occupied
    · rintro ⟨⟩
  · intro _
    rw [balances.opened]
    exact ⟨List.mem_append_left others owned, trivial⟩
  · exact fun _ ended => absurd ended occupied

/-- The flags of the sockets are never set. -/
theorem Tidy.cleanupOnExit_eq (tidy : program.Tidy) (outcome : Outcome) :
    program.cleanupOnExit outcome .socket = ([], program) ∧
      program.cleanupOnExit outcome .client = ([], program) := by
  simp [cleanupOnExit, tidy.flags]

theorem Tidy.terminate (tidy : program.Tidy)
    (proceeds : program.phase.uncleaned = true → program.HasFile)
    (taken : program.terminate outcome = some (entries, target)) :
    program.Follows (.terminate outcome) entries
      (program.account (.terminate outcome) entries target) := by
  cases phase : program.phase with
  | running => simp [Program.terminate, phase] at taken
  | ended => simp [Program.terminate, phase] at taken
  | terminating onMain next =>
      cases next with
      | none =>
          simp only [Program.terminate, phase, Option.some.injEq, Prod.mk.injEq] at taken
          rcases taken with ⟨rfl, rfl⟩
          exact tidy.turns rfl (by rintro ⟨⟩)
      | some next =>
          simp only [Program.terminate, phase, Option.some.injEq, Prod.mk.injEq] at taken
          rcases taken with ⟨rfl, rfl⟩
          cases next with
          | dataFile =>
              have uncleaned : program.phase.uncleaned = true := by rw [phase]; rfl
              exact tidy.closesFile uncleaned (proceeds uncleaned)
          | socket =>
              rw [(tidy.cleanupOnExit_eq outcome).1]
              exact tidy.turns rfl (by rintro ⟨⟩)
          | client =>
              rw [(tidy.cleanupOnExit_eq outcome).2]
              exact tidy.turns rfl (by rintro ⟨⟩)

theorem Tidy.signal (tidy : program.Tidy) {onMain : Bool}
    (taken : program.next (.signal onMain) = some (entries, target)) :
    program.Follows (.signal onMain) entries
      (program.account (.signal onMain) entries target) := by
  simp only [next] at taken
  split at taken
  · rename_i running
    cases taken
    exact tidy.turns rfl fun _ => by rw [running.1]; rfl
  · contradiction

/-- A step that meets the condition. -/
theorem Tidy.step (tidy : program.Tidy) (proceeds : program.Proceeds event)
    (taken : programStep program event = some (entries, target)) :
    program.Follows event entries target := by
  simp only [programStep, Option.map_eq_some_iff, Prod.exists, Prod.mk.injEq] at taken
  rcases taken with ⟨_, next, taken, rfl, rfl⟩
  have main {event : ProgramEvent} {entries : List (Entry Int)}
      (taken : (if program.phase.mainRuns then program.mainStep event else none) =
        some (entries, next)) : program.mainStep event = some (entries, next) := by
    split at taken
    · exact taken
    · contradiction
  cases event with
  | getaddrinfo ok =>
      exact tidy.call .getaddrinfo .socket ok rfl
        (by cases pc : program.pc <;> simp [mainStep, pc]) (main taken) rfl (by simp) (by rintro ⟨⟩)
  | socket fd => exact tidy.socket (main taken)
  | setsockopt ok =>
      exact tidy.call .setsockopt .bind ok rfl
        (by cases pc : program.pc <;> simp [mainStep, pc]) (main taken) rfl (by simp) (by rintro ⟨⟩)
  | bind ok =>
      exact tidy.call .bind (if program.daemonMode then .runDaemon else .listen) ok rfl
        (by cases pc : program.pc <;> simp [mainStep, pc]) (main taken) rfl
        (by split <;> simp) (by split <;> rintro ⟨⟩)
  | runDaemon outcome => exact tidy.runDaemon (main taken)
  | listen ok =>
      exact tidy.call .listen .accept ok rfl
        (by cases pc : program.pc <;> simp [mainStep, pc]) (main taken) rfl (by simp) (by rintro ⟨⟩)
  | fatalError => exact tidy.fatalError (main taken)
  | accept fd => exact tidy.accept (main taken)
  | malloc ok =>
      exact tidy.call .malloc .create ok rfl
        (by cases pc : program.pc <;> simp [mainStep, pc]) (main taken) rfl (by simp) id
  | pthreadCreate ret incoming => exact tidy.pthreadCreate (main taken)
  | cleanup outcome => exact proceeds.elim
  | handler outcome =>
      simp only [Program.next] at taken
      split at taken
      · exact tidy.handler proceeds.1 proceeds.2 taken
      · contradiction
  | signal onMain => exact tidy.signal taken
  | terminate outcome => exact tidy.terminate proceeds taken

/-- What holds after a run whose steps meet the condition. -/
theorem Tidy.of_run {source : Program} (tidy : source.Tidy) {events : List ProgramEvent}
    {outputs : List (List (Entry Int))} (proceeds : Along programStep Proceeds source events)
    (execution : run programStep source events = some (outputs, program)) : program.Tidy :=
  along_induction (motive := fun _ _ state => state.Tidy) tidy
    (fun _ _ _ _ _ _ _ tidy proceeds taken => (tidy.step proceeds taken).tidy) proceeds execution

end Program

/-- The program with a freshly loaded device. -/
def freshProgram : Program :=
  .start (Process.fresh Unit 0).system (fun _ => false) false

/-- The calls until a client that sends `incoming` has its handler. -/
def connected (incoming : List Chunk) : List ProgramEvent :=
  [.getaddrinfo true, .socket (some 3), .setsockopt true, .bind true, .listen true,
    .accept (some 4), .malloc true, .pthreadCreate 0 incoming]

def hello : List Chunk :=
  [⟨[104, 105, 10], by decide⟩]

/-- Steps of the handler without errors, whose data file gets the number `fd`. -/
def served (steps fd : Nat) : List ProgramEvent :=
  List.replicate steps (.handler (.success fd))

/-- `handle_termination` to the end of the process. -/
def terminated : List ProgramEvent :=
  List.replicate 4 (.terminate (.success 0))

/-- A client is served, and the handler of the next one has its data file open when the
main thread catches a signal. -/
def interruptedRun : List ProgramEvent :=
  connected hello ++ served 27 5 ++ [.accept (some 7), .malloc true, .pthreadCreate 0 hello] ++
    served 3 8 ++ [.signal true] ++ served 2 8 ++ terminated

def BreaksBalance (events : List ProgramEvent) : Prop :=
  ∃ result ∈ run programStep freshProgram events,
    ¬freshProgram.Balanced events result.1 result.2

instance (events : List ProgramEvent) : Decidable (BreaksBalance events) :=
  inferInstanceAs (Decidable (∃ result ∈ run programStep freshProgram events, _))

end Aesd.Server
