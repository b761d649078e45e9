import Aesd.Server.Packets
import Aesd.Server.Sharing
import Aesd.Transition.Simulation

/-!
# Runs of the server as runs of the driver

Whatever the handler threads do, and whatever fails, the device goes through a run of
file operations in the order of the steps.  So what holds of every run of the driver
holds of every interleaving of the server; in particular the writes of the handlers
take effect one after the other.
-/

namespace Aesd.Server

open Aesd.Driver Aesd.Transition Aesd.Word

/-! ## The operations of a step -/

section

variable {τ : Type}

/-- The file operation that a step of a handler runs, if its call comes to the device. -/
def Handler.operations (handler : Handler) (process : Process τ) (outcome : Outcome) :
    List Operation :=
  match handler.pc with
  | .openFile _ => if outcome.fails then [] else [.openFile outcome.descriptor]
  | .call .write fd =>
      if outcome.fails ∨ process.dataFile fd ≠ some .readWrite then []
      else [.write ⟨outcome.write, some fd.toNat, some handler.received⟩]
  | .call .read fd =>
      if outcome.fails ∨ process.dataFile fd = none then []
      else [.read outcome.read (some fd.toNat) true bufLen]
  | .call .ioctl fd =>
      if outcome.fails ∨ process.dataFile fd = none then []
      else [.ioctl outcome.ioctl fd.toNat aesdcharIocseekto handler.aesdSeektoData]
  | _ => []

variable {self : τ} {outcome : Outcome} {handler handler' : Handler}
  {process process' : Process τ} {answer : Answer}

theorem Process.run_sysWrite {fd ret : Int} (pc : handler.pc = .call .write fd)
    (call : process.sysWrite outcome fd handler.received = some (ret, process')) :
    ∃ rets, run operationStep process.system (handler.operations process outcome) =
      some (rets, process'.system) := by
  unfold Process.sysWrite at call
  simp only [Handler.operations, pc]
  split at call
  · rename_i refused
    cases call
    exact ⟨[], if_pos refused ▸ rfl⟩
  · rename_i works
    simp only [Option.map_eq_some_iff, Prod.exists, Prod.mk.injEq] at call
    rcases call with ⟨result, system', written, _, rfl⟩
    rw [if_neg works]
    exact ⟨[result], (run_cons_eq_some_iff ..).mpr ⟨result, system', [], written, rfl, rfl⟩⟩

theorem Process.run_sysRead {fd ret : Int} {bytes : List Byte} (pc : handler.pc = .call .read fd)
    (call : process.sysRead outcome fd bufLen = some (ret, bytes, process')) :
    ∃ rets, run operationStep process.system (handler.operations process outcome) =
      some (rets, process'.system) := by
  unfold Process.sysRead at call
  simp only [Handler.operations, pc]
  split at call
  · rename_i refused
    cases call
    exact ⟨[], if_pos refused ▸ rfl⟩
  · rename_i works
    simp only [Option.map_eq_some_iff, Prod.exists, Prod.mk.injEq] at call
    rcases call with ⟨result, delivered, system', read, _, _, rfl⟩
    rw [if_neg works]
    have step : operationStep process.system (.read outcome.read (some fd.toNat) true bufLen) =
        some (result, system') := by
      rw [operationStep, read, Option.map_some]
    exact ⟨[result], (run_cons_eq_some_iff ..).mpr ⟨result, system', [], step, rfl, rfl⟩⟩

theorem Process.run_sysIoctl {fd : Int} (pc : handler.pc = .call .ioctl fd) :
    ∃ rets, run operationStep process.system (handler.operations process outcome) =
      some (rets, (process.sysIoctl outcome fd handler.aesdSeektoData).2.system) := by
  simp only [Handler.operations, Process.sysIoctl, pc]
  split
  · exact ⟨[], rfl⟩
  · exact ⟨_, rfl⟩

/-- Each step runs its operation on the device. -/
theorem HandlerStep.operations
    (step : HandlerStep self outcome handler process answer handler' process') :
    ∃ rets, run operationStep process.system (handler.operations process outcome) =
      some (rets, process'.system) := by
  have none {pc : Pc} (here : handler.pc = pc)
      (nothing : ({ handler with pc := pc }).operations process outcome = [])
      (same : process'.system = process.system) :
      ∃ rets, run operationStep process.system (handler.operations process outcome) =
        some (rets, process'.system) := by
    subst here
    rw [same]
    exact ⟨[], nothing ▸ rfl⟩
  cases step with
  | openFile site fd _ pc call =>
      simp only [Handler.operations, pc]
      rcases Process.sysOpen_cases call with ⟨fails, _, rfl⟩ | ⟨works, _, _, rfl⟩
      · rw [fails]
        exact ⟨[], rfl⟩
      · rw [works]
        exact ⟨[0], rfl⟩
  | writeFails fd _ pc call => exact Process.run_sysWrite pc call
  | write fd ret _ pc call => exact Process.run_sysWrite pc call
  | readFails fd bytes _ pc call => exact Process.run_sysRead pc call
  | read fd ret bytes _ pc call => exact Process.run_sysRead pc call
  | ioctl fd pc => exact Process.run_sysIoctl pc
  | closeData fd pc => exact none pc rfl (Process.sysClose_frame ..).2.2
  | closeFinal fd pc => exact none pc rfl (Process.sysClose_frame ..).2.2
  | recvFails pc => exact none pc rfl rfl
  | recv pc => exact none pc rfl rfl
  | assign site fd pc => exact none pc rfl rfl
  | check site pc => exact none pc rfl rfl
  | lock loop pc => exact none pc rfl rfl
  | load use pc => exact none pc rfl rfl
  | unlock loop pc => exact none pc rfl rfl
  | sendFails pc => exact none pc rfl rfl
  | send pc => exact none pc rfl rfl
  | closeSocket pc => exact none pc rfl rfl
  | complete pc => exact none pc rfl rfl

end

/-! ## Refinement of the driver -/

section

variable {τ : Type} [DecidableEq τ]

/-- The file operations of a step of the server. -/
def ServerEvent.operations (server : ServerState τ) (event : ServerEvent τ)
    (_ : Option (τ × Answer)) (_ : ServerState τ) : List Operation :=
  match event with
  | .thread self outcome => (server.handlers self).operations server.process outcome
  | .device operation => [operation]

/-- The file operations of a run of the server, in the order of its steps. -/
def operationsOf (server : ServerState τ) (events : List (ServerEvent τ)) : List Operation :=
  observe sharedStep ServerEvent.operations server events

theorem sharedStep_matches :
    Matches (sharedStep : Machine (ServerState τ) _ _) operationStep ServerEvent.operations
      fun server system => server.process.system = system := by
  rintro server system event output server' rfl step
  cases event with
  | device operation =>
      simp only [sharedStep, Option.map_eq_some_iff, Prod.exists, Prod.mk.injEq] at step
      rcases step with ⟨ret, system, step, _, rfl⟩
      exact ⟨[ret], system, (run_cons_eq_some_iff ..).mpr ⟨ret, system, [], step, rfl, rfl⟩, rfl⟩
  | thread self outcome =>
      simp only [sharedStep, Option.map_eq_some_iff, Prod.exists, Prod.mk.injEq] at step
      rcases step with ⟨answer, _, step, _, rfl⟩
      rcases serverStep_eq_some_iff.mp step with ⟨handler, process, taken, rfl⟩
      rcases (handlerStep_cases taken).operations with ⟨rets, reached⟩
      exact ⟨rets, process.system, reached, rfl⟩

/-- Every run of the server, among other users of the device, with any chunks, any
interleaving and any failures, is a run of the driver from its initialization; at its
end the device carries the lines that the operations of the run have committed. -/
theorem server_refines_driver (kmallocMaxSize : KmallocMaxSize) {earlier : List Operation}
    {rets : List Int} {process : Process τ}
    (loaded : run operationStep (aesdInitModule kmallocMaxSize) earlier =
      some (rets, process.system))
    (clientSocketFds : τ → Nat) (clients : τ → List Chunk) {events : List (ServerEvent τ)}
    {outputs : List (Option (τ × Answer))} {server : ServerState τ}
    (execution : run sharedStep (.start process clientSocketFds clients) events =
      some (outputs, server)) :
    let operations := earlier ++ operationsOf (.start process clientSocketFds clients) events
    ∃ allRets pending,
      run operationStep (aesdInitModule kmallocMaxSize) operations =
        some (allRets, server.process.system) ∧
      Carries server.process.system (committedBy (aesdInitModule kmallocMaxSize) operations)
        pending := by
  intro operations
  have start : (ServerState.start process clientSocketFds clients).process.system =
      process.system := rfl
  rcases sharedStep_matches.run start execution with ⟨more, system, continued, rfl⟩
  have whole : run operationStep (aesdInitModule kmallocMaxSize) operations =
      some (rets ++ more, server.process.system) :=
    (run_append_eq_some_iff ..).mpr ⟨process.system, rets, more, loaded, continued, rfl⟩
  rcases (carries_init kmallocMaxSize).run_operations operations with
    ⟨_, target, pending, reached, carries⟩
  cases Option.some.inj (whole.symm.trans reached)
  exact ⟨_, pending, whole, carries⟩

end

/-- Two handlers in turn, and a read of another process between them. -/
def turnsWithReader : List (ServerEvent Bool) :=
  (iteration false).map (fun event => .thread event.1 event.2) ++
    .device (.read .success (some 9) true 4) ::
    (iteration true).map (fun event => .thread event.1 event.2)

theorem server_refines_driver_turns :
    ∃ outputs server allRets pending,
      run sharedStep twoHandlers turnsWithReader = some (outputs, server) ∧
      run operationStep (aesdInitModule ⟨4096, by decide⟩)
        ([] ++ operationsOf twoHandlers turnsWithReader) =
          some (allRets, server.process.system) ∧
      Carries server.process.system (committedBy (aesdInitModule ⟨4096, by decide⟩)
        ([] ++ operationsOf twoHandlers turnsWithReader)) pending := by
  have ran : (run sharedStep twoHandlers turnsWithReader).isSome := by decide +kernel
  rcases Option.isSome_iff_exists.mp ran with ⟨⟨outputs, server⟩, execution⟩
  have loaded : run operationStep (aesdInitModule ⟨4096, by decide⟩) [] =
      some ([], (Process.fresh Bool 6).system) := rfl
  rcases server_refines_driver ⟨4096, by decide⟩ loaded (fun thread => if thread then 5 else 4)
    twoClients execution with ⟨allRets, pending, refined, carries⟩
  exact ⟨outputs, server, allRets, pending, execution, refined, carries⟩

/-! ## The order of the writes -/

/-- The write of a step: the thread that made it, and what the device has taken. -/
def writeOf {τ : Type} (server : ServerState τ) (event : τ × Outcome) (answer : Answer)
    (_ : ServerState τ) : List (τ × List Byte) :=
  match answer with
  | .used .write _ _ => [(event.1, (server.handlers event.1).gives answer)]
  | _ => []

/-- The bytes of writes in their order. -/
def wordOf {τ : Type} (writes : List (τ × List Byte)) : List Byte :=
  (writes.map Prod.snd).flatten

theorem wordOf_append {τ : Type} (front back : List (τ × List Byte)) :
    wordOf (front ++ back) = wordOf front ++ wordOf back := by
  simp [wordOf]

theorem wordOf_writeOf {τ : Type} (server server' : ServerState τ) (event : τ × Outcome)
    (answer : Answer) :
    wordOf (writeOf server event answer server') = (server.handlers event.1).gives answer := by
  unfold writeOf
  split
  · simp [wordOf]
  · rename_i other
    cases answer with
    | used use fd ret =>
        cases use with
        | write => exact absurd rfl (other fd ret)
        | _ => rfl
    | _ => rfl

section

variable {τ : Type} [DecidableEq τ]

/-- The writes of one thread. -/
def writesBy (thread : τ) (writes : List (τ × List Byte)) : List (τ × List Byte) :=
  writes.filter fun write => write.1 = thread

theorem writesBy_append (thread : τ) (front back : List (τ × List Byte)) :
    writesBy thread (front ++ back) = writesBy thread front ++ writesBy thread back :=
  List.filter_append ..

theorem writesBy_writeOf_self (thread : τ) (outcome : Outcome) (answer : Answer)
    (server server' : ServerState τ) :
    writesBy thread (writeOf server (thread, outcome) answer server') =
      writeOf server (thread, outcome) answer server' := by
  unfold writeOf
  split
  · simp [writesBy]
  · rfl

theorem writesBy_writeOf_of_ne {thread : τ} {event : τ × Outcome} (different : event.1 ≠ thread)
    (server server' : ServerState τ) (answer : Answer) :
    writesBy thread (writeOf server event answer server') = [] := by
  unfold writeOf
  split
  · simp [writesBy, different]
  · rfl

/-- The state of a server whose device has taken the writes one after the other. -/
structure Serialized (history : List Byte) (clients : τ → List Chunk)
    (writes : List (τ × List Byte)) (server : ServerState τ) : Prop where
  represents : Represents server.process.system (history ++ wordOf writes)
  due : ∀ thread, (server.handlers thread).pc ≠ .returned false →
    wordOf (writesBy thread writes) ++ (server.handlers thread).due =
      suppliedBy clearedBuffer (clients thread)
  taken : ∀ thread, wordOf (writesBy thread writes) <+: suppliedBy clearedBuffer (clients thread)

theorem Serialized.step {history : List Byte} {clients : τ → List Chunk}
    {writes : List (τ × List Byte)} {server server' : ServerState τ} {event : τ × Outcome}
    {answer : Answer} (serialized : Serialized history clients writes server)
    (keeps : (server.handlers event.1).KeepsLine server.process event.2)
    (step : serverStep server event = some (answer, server')) :
    Serialized history clients (writes ++ writeOf server event answer server') server' := by
  rcases event with ⟨thread, outcome⟩
  rcases serverStep_eq_some_iff.mp step with ⟨handler', process', taken, rfl⟩
  have alive : (server.handlers thread).pc ≠ .returned false := by
    intro returned
    simp [handlerStep, returned] at taken
  have represents := (handlerStep_cases taken).represents serialized.represents keeps
  have due := (handlerStep_cases taken).due_eq serialized.represents keeps
  have whole := serialized.due thread alive
  constructor
  case represents =>
    rw [wordOf_append, wordOf_writeOf, ← List.append_assoc]
    exact represents
  case due =>
    intro other
    by_cases same : thread = other
    · subst same
      simp only [Function.update_self]
      intro alive'
      rw [writesBy_append, writesBy_writeOf_self, wordOf_append, wordOf_writeOf,
        List.append_assoc, ← due alive']
      exact whole
    · simp only [Function.update_of_ne (Ne.symm same)]
      rw [writesBy_append, writesBy_writeOf_of_ne same, List.append_nil]
      exact serialized.due other
  case taken =>
    intro other
    by_cases same : thread = other
    · subst same
      rw [writesBy_append, writesBy_writeOf_self, wordOf_append, wordOf_writeOf]
      by_cases alive' : handler'.pc = .returned false
      · -- a handler that gives up in this step has given nothing in it
        have nothing : (server.handlers thread).gives answer = [] := by
          rcases (handlerStep_cases taken).gives_cases with
            ⟨none, _⟩ | ⟨fd, _, ⟨_, none⟩ | rfl⟩
          · exact none
          · exact none
          · contradiction
        rw [nothing, List.append_nil]
        exact serialized.taken thread
      · rw [← whole, due alive', ← List.append_assoc]
        exact List.prefix_append ..
    · rw [writesBy_append, writesBy_writeOf_of_ne same, List.append_nil]
      exact serialized.taken other

/-- As long as no write is refused the enlargement of a line in progress, whatever else
fails and however the handlers interleave, their writes take effect one after the other:
the device shows the word of all of them in order.  The writes of each handler are, in their
order, a part from the start of what its chunks supply, and all of that once it has
returned; bytes behind a newline in a chunk and seek commands are not supplied. -/
theorem writes_take_effect_in_order {process : Process τ} (reachable : process.Reachable)
    (clientSocketFds : τ → Nat) (clients : τ → List Chunk) {events : List (τ × Outcome)}
    {answers : List Answer} {server : ServerState τ}
    (keeps : Along serverStep
      (fun server event => (server.handlers event.1).KeepsLine server.process event.2)
      (.start process clientSocketFds clients) events)
    (execution : run serverStep (.start process clientSocketFds clients) events =
      some (answers, server)) :
    let writes := observe serverStep writeOf (.start process clientSocketFds clients) events
    ∃ history, process.system.entriesBytes = some (storedLines history) ∧
      process.system.pendingBytes = some (pendingLine history) ∧
      server.process.system.entriesBytes = some (storedLines (history ++ wordOf writes)) ∧
      server.process.system.pendingBytes = some (pendingLine (history ++ wordOf writes)) ∧
      ∀ thread,
        wordOf (writesBy thread writes) <+: suppliedBy clearedBuffer (clients thread) ∧
        ((server.handlers thread).pc = .returned true →
          wordOf (writesBy thread writes) = suppliedBy clearedBuffer (clients thread)) := by
  intro writes
  rcases reachable.represents with ⟨history, represents⟩
  have initial : Serialized history clients []
      (ServerState.start process clientSocketFds clients) := by
    constructor
    · exact (List.append_nil history).symm ▸ represents
    · exact fun _ _ => rfl
    · exact fun _ => List.nil_prefix
  have final : Serialized history clients writes server := by
    apply along_induction (motive := fun events _ server => Serialized history clients
      (observe serverStep writeOf (.start process clientSocketFds clients) events) server)
      initial _ keeps execution
    intro front outputs middle event answer target reached serialized guarded step
    rw [observe_concat _ reached step]
    exact serialized.step guarded step
  refine ⟨history, represents.entriesBytes, represents.pendingBytes,
    final.represents.entriesBytes, final.represents.pendingBytes, ?_⟩
  intro thread
  constructor
  · exact final.taken thread
  · intro returned
    have alive : (server.handlers thread).pc ≠ .returned false := by
      rw [returned]
      decide
    have whole := final.due thread alive
    rwa [Handler.due_of_responding (by rw [returned]; rfl), List.append_nil] at whole

end

/-- Two clients whose chunks alternate, the second of them with its last iteration to
come. -/
theorem writes_take_effect_in_order_alternating :
    let events := iteration false ++ iteration true ++ iteration false
    ∃ answers server history, run serverStep twoHandlers events = some (answers, server) ∧
      server.process.system.entriesBytes =
        some (storedLines (history ++ wordOf (observe serverStep writeOf twoHandlers events))) ∧
      wordOf (writesBy true (observe serverStep writeOf twoHandlers events)) <+:
        suppliedBy clearedBuffer (twoClients true) := by
  intro events
  have ran : (run serverStep twoHandlers events).isSome := by decide +kernel
  rcases Option.isSome_iff_exists.mp ran with ⟨⟨answers, server⟩, execution⟩
  have reachable : (Process.fresh Bool 6).Reachable :=
    ⟨rfl, ⟨4096, by decide⟩, [], [], trivial, rfl⟩
  rcases writes_take_effect_in_order reachable (fun thread => if thread then 5 else 4) twoClients
    (by decide +kernel) execution with ⟨history, _, _, entries, _, threads⟩
  exact ⟨answers, server, history, execution, entries, (threads true).1⟩

end Aesd.Server
