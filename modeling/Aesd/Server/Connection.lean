import Aesd.Server.Service

/-!
# A data connection end to end

Connections are served one after another, each by a handler that runs alone.
After any such sequence, on a device that file operations have brought into any
state, a connection that sends one line has it committed, and is sent the stored
lines.
-/

namespace Aesd.Server

open Aesd.Driver Aesd.Transition Aesd.Word

/-- A connection: the thread that serves it, its socket, what its client sends,
and the outcomes of the steps of its handler. -/
structure Connection (τ : Type) where
  thread : τ
  clientSocketFd : Nat
  chunks : List Chunk
  outcomes : List Outcome

namespace Connection

variable {τ : Type}

/-- The handler at its start. -/
def start (connection : Connection τ) (process : Process τ) : Handler × Process τ :=
  (clientDataHandler connection.clientSocketFd connection.chunks, process)

/-- Every call of the handler succeeds. -/
def Succeeds (process : Process τ) (connection : Connection τ) : Prop :=
  Along (handlerStep connection.thread) Server.Succeeds (connection.start process)
    connection.outcomes

instance (process : Process τ) (connection : Connection τ) :
    Decidable (connection.Succeeds process) :=
  inferInstanceAs (Decidable (Along _ _ _ _))

end Connection

section

variable {τ : Type}

/-- Serve one connection to its end; the output is what its client is sent. -/
def serveStep : Machine (Process τ) (Connection τ) (List Byte)
  | process, connection =>
      (run (handlerStep connection.thread) (connection.start process) connection.outcomes).bind
        fun (_, handler, process') =>
          if handler.pc = .returned true then some (handler.sent, process') else none

/-- The word that connections supply. -/
def suppliedByAll (connections : List (Connection τ)) : List Byte :=
  connections.flatMap fun connection => suppliedBy clearedBuffer connection.chunks

theorem serveStep_eq_some_iff {process process' : Process τ} {connection : Connection τ}
    {sent : List Byte} :
    serveStep process connection = some (sent, process') ↔
      ∃ answers handler, run (handlerStep connection.thread) (connection.start process)
          connection.outcomes = some (answers, handler, process') ∧
        handler.pc = .returned true ∧ handler.sent = sent := by
  simp only [serveStep, Option.bind_eq_some_iff, Option.ite_none_right_eq_some, Option.some.injEq,
    Prod.exists, Prod.mk.injEq]
  constructor
  · rintro ⟨answers, handler, _, execution, returned, rfl, rfl⟩
    exact ⟨answers, handler, execution, returned, rfl⟩
  · rintro ⟨answers, handler, execution, returned, rfl⟩
    exact ⟨answers, handler, process', execution, returned, rfl, rfl⟩

/-- Connections that are served leave a device that represents what they have
supplied, and a free mutex. -/
theorem run_serveStep {process process' : Process τ} {history : List Byte}
    (represents : Represents process.system history) (unlocked : process.lock = none)
    {connections : List (Connection τ)} {sent : List (List Byte)}
    (succeeds : Along serveStep Connection.Succeeds process connections)
    (execution : run serveStep process connections = some (sent, process')) :
    Represents process'.system (history ++ suppliedByAll connections) ∧ process'.lock = none := by
  induction connections generalizing process history sent with
  | nil =>
      cases execution
      exact ⟨(List.append_nil history).symm ▸ represents, unlocked⟩
  | cons connection connections ih =>
      rcases (run_cons_eq_some_iff ..).mp execution with
        ⟨first, middle, rest, step, remaining, rfl⟩
      rcases serveStep_eq_some_iff.mp step with ⟨answers, handler, served, returned, rfl⟩
      have serving := (serving_start represents unlocked connection.clientSocketFd
        connection.chunks).run succeeds.1 served
      rcases serving.returned returned with ⟨_, unlocked', represents', _⟩
      have later := ih represents' unlocked' (succeeds.2 _ _ step) remaining
      rwa [List.append_assoc] at later

end

/-! ## One line -/

/-- Chunks of which none but the last has a newline carry one line. -/
theorem consumed_streamOf_concat {front : List Chunk} {last : Chunk}
    (absent : newline ∉ streamOf front) :
    consumed (streamOf (front ++ [last])) = streamOf front ++ consumed last.1 := by
  rw [streamOf_append, streamOf_cons, streamOf_nil, List.append_nil, consumed,
    firstLine_append_of_not_mem absent]

/-! ## A connection on a reachable device -/

/-- On a device in any state that operations and earlier connections have left, a
connection whose chunks carry one line and no command ends; it commits one line,
made of what was pending and of its own bytes up to the newline, and is sent the
last ten lines. -/
theorem data_connection_commits_and_echoes {τ : Type} (kmallocMaxSize : KmallocMaxSize)
    (operations : List Operation) (rets : List Int) (process : Process τ)
    (keeps : Along operationStep Operation.KeepsLine (aesdInitModule kmallocMaxSize) operations)
    (reached : run operationStep (aesdInitModule kmallocMaxSize) operations =
      some (rets, process.system))
    (unlocked : process.lock = none) (earlier : List (Connection τ))
    (earlierSucceed : Along serveStep Connection.Succeeds process earlier)
    (responses : List (List Byte)) (process' : Process τ)
    (earlierServed : run serveStep process earlier = some (responses, process'))
    (thread : τ) (clientSocketFd : Nat) (front : List Chunk) (last : Chunk)
    (frontPlain : ∀ chunk ∈ front, newline ∉ chunk.1) (lastEnds : newline ∈ last.1)
    (noCommand : NoCommand clearedBuffer (front ++ [last])) :
    let history := accepted operations rets ++ suppliedByAll earlier
    let line := pendingLine history ++ streamOf front ++ consumed last.1
    let stored := (committedLines history ++ [line]).rtake aesdcharMaxWriteOperationsSupported
    process'.system.entriesBytes = some (storedLines history) ∧
      process'.system.pendingBytes = some (pendingLine history) ∧
      ∀ outcomes,
        Along (handlerStep thread) Succeeds
          (clientDataHandler clientSocketFd (front ++ [last]), process') outcomes →
        serviceBound history (front ++ [last]) ≤ outcomes.length →
        ∃ used unused answers handler process'', outcomes = used ++ unused ∧
          run (handlerStep thread)
              (clientDataHandler clientSocketFd (front ++ [last]), process') used =
            some (answers, handler, process'') ∧
          handler.pc = .returned true ∧
          process''.system.entriesBytes = some stored ∧
          process''.system.pendingBytes = some [] ∧
          process''.system.device.buffSize =
            (process'.system.device.buffSize + line.length) % 2 ^ 64 ∧
          handler.sent = stored.flatten := by
  intro history line stored
  rcases (represents_init kmallocMaxSize).run_operations keeps with
    ⟨rets', system, reached', initial⟩
  cases Option.some.inj (reached.symm.trans reached')
  rw [List.nil_append] at initial
  rcases run_serveStep initial unlocked earlierSucceed earlierServed with
    ⟨represents, unlocked'⟩
  refine ⟨represents.entriesBytes, represents.pendingBytes, ?_⟩
  intro outcomes succeeds enough
  rcases serves represents unlocked' ⟨last, List.mem_append_right _ List.mem_cons_self, lastEnds⟩
    succeeds enough with
    ⟨used, unused, answers, handler, process'', split, execution, returned, serving⟩
  rcases serving.returned returned with ⟨_, _, final, delivers⟩
  have absent : newline ∉ streamOf front := by
    rw [mem_streamOf_iff]
    rintro ⟨chunk, member, found⟩
    exact frontPlain chunk member found
  rcases committedLines_append_line history absent lastEnds with ⟨committed, pending⟩
  rw [noCommand.suppliedBy_eq, consumed_streamOf_concat absent] at final delivers
  have storedEq : storedLines (history ++ (streamOf front ++ consumed last.1)) = stored :=
    congrArg (List.rtake · _) committed
  refine ⟨used, unused, answers, handler, process'', split, execution, returned, ?_, ?_, ?_, ?_⟩
  · rw [final.entriesBytes, storedEq]
  · rw [final.pendingBytes, pending]
  · rw [final.buffSize_eq, represents.buffSize_eq, committed, List.flatten_append,
      List.length_append,
      List.flatten_singleton, Nat.mod_add_mod]
  · rw [delivers noCommand.endsWithCommand_eq]
    exact congrArg List.flatten storedEq

/-- Another client leaves a line behind the pending byte `'x'`; the next one sends
`"b"` and `"c\nd"`, and is sent both lines. -/
theorem data_connection_commits_and_echoes_second :
    ∃ (source process' : Process Unit) (responses : List (List Byte)) (used : List Outcome)
      (answers : List Answer) (handler : Handler) (final : Process Unit),
      run operationStep (aesdInitModule ⟨4096, by decide⟩)
        [.write ⟨.success, some 0, some [120]⟩] = some ([1], source.system) ∧
      run serveStep source [⟨(), 3, [⟨[97, 10], by decide⟩], List.replicate 27 (.success 7)⟩] =
        some (responses, process') ∧
      run (handlerStep ())
          (clientDataHandler 3 [⟨[98], by decide⟩, ⟨[99, 10, 100], by decide⟩], process') used =
        some (answers, handler, final) ∧
      handler.pc = .returned true ∧
      final.system.entriesBytes = some [[120, 97, 10], [98, 99, 10]] ∧
      handler.sent = [120, 97, 10, 98, 99, 10] := by
  let operations : List Operation := [.write ⟨.success, some 0, some [120]⟩]
  let earlier : List (Connection Unit) :=
    [⟨(), 3, [⟨[97, 10], by decide⟩], List.replicate 27 (.success 7)⟩]
  let device := run operationStep (aesdInitModule ⟨4096, by decide⟩) operations
  let before (opened : List Int × System) : Process Unit :=
    { Process.fresh Unit 4 with system := opened.2 }
  have opens : ∃ opened, device = some opened := Option.isSome_iff_exists.mp (by decide +kernel)
  have rets : ∀ opened ∈ device, opened.1 = [1] := by decide +kernel
  have serves : ∀ opened ∈ device, (run serveStep (before opened) earlier).isSome ∧
      Along serveStep Connection.Succeeds (before opened) earlier := by decide +kernel
  have succeeds : ∀ opened ∈ device, ∀ served ∈ run serveStep (before opened) earlier,
      Along (handlerStep ()) Succeeds
        (clientDataHandler 3 [⟨[98], by decide⟩, ⟨[99, 10, 100], by decide⟩], served.2)
        (List.replicate 64 (.success 8)) := by decide +kernel
  rcases opens with ⟨⟨_, system⟩, reached⟩
  cases rets _ reached
  rcases serves _ reached with ⟨isServed, earlierSucceed⟩
  rcases Option.isSome_iff_exists.mp isServed with ⟨⟨responses, process'⟩, execution⟩
  rcases (data_connection_commits_and_echoes ⟨4096, by decide⟩ operations [1]
      (before ([1], system)) (by decide +kernel) reached rfl earlier earlierSucceed responses
      process' execution () 3 [⟨[98], by decide⟩] ⟨[99, 10, 100], by decide⟩ (by decide)
      (by decide) (by decide)).2.2 _ (succeeds _ reached _ execution) (by decide) with
    ⟨used, _, answers, handler, final, _, connection, returned, entries, _, _, sent⟩
  exact ⟨before ([1], system), process', responses, used, answers, handler, final, reached,
    execution, connection, returned, entries.trans (by decide), sent.trans (by decide)⟩

end Aesd.Server
