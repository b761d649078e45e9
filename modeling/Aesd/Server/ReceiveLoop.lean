import Aesd.Server.Chunking
import Aesd.Server.Sharing

/-!
# The end of the receive loop

The receive loop is left when a chunk has a newline, or by an error.  Nothing
else ends it: once the client has closed its side, `recv` returns 0 at once, and
a handler that has met no newline opens the data file, writes nothing, closes it
and receives again.
-/

namespace Aesd.Server

open Aesd.Driver Aesd.Transition Aesd.Word

section

variable {τ : Type} [DecidableEq τ]

/-- Once everything has been received, `recv` returns 0 if the client has closed
its side, and fails otherwise. -/
def ClientEnds (self : τ) (closed : Bool) (server : ServerState τ) : ServerEvent τ → Prop
  | .thread thread outcome =>
      thread = self → (server.handlers self).pc = .recv → (server.handlers self).incoming = [] →
        outcome.fails = !closed
  | .device _ => True

/-- A `recv` has returned. -/
def Answer.isReceived : Answer → Bool
  | .received _ => true
  | _ => false

/-- A `recv` of the thread has returned. -/
def receivedBy (self : τ) : Option (τ × Answer) → Bool
  | some (thread, answer) => thread = self ∧ answer.isReceived
  | none => false

/-- The iterations of the receive loop of a thread. -/
def iterations (self : τ) (outputs : List (Option (τ × Answer))) : Nat :=
  outputs.countP (receivedBy self)

/-- On every reachable device, and whatever the other threads and processes do,
the receive loop of the thread iterates at most once for each chunk and once
more. -/
def LoopEnds (self : τ) (chunks : List Chunk) (closed : Bool) : Prop :=
  ∀ (process : Process τ) (clientSocketFds : τ → Nat) (clients : τ → List Chunk),
    process.Loaded → clients self = chunks →
    ∀ events outputs server,
      Along sharedStep (ClientEnds self closed) (.start process clientSocketFds clients) events →
      run sharedStep (.start process clientSocketFds clients) events = some (outputs, server) →
      iterations self outputs ≤ chunks.length + 1

theorem receivedBy_of_ne {self : τ} {output : Option (τ × Answer)}
    (other : ∀ answer, output ≠ some (self, answer)) : receivedBy self output = false := by
  cases output with
  | none => rfl
  | some result =>
      have different : result.1 ≠ self := by
        rintro rfl
        exact other result.2 rfl
      simp [receivedBy, different]

theorem iterations_concat (self : τ) (outputs : List (Option (τ × Answer)))
    (output : Option (τ × Answer)) :
    iterations self (outputs ++ [output]) =
      iterations self outputs + if receivedBy self output then 1 else 0 := by
  simp [iterations, List.countP_append, List.countP_singleton]

end

/-! ## Loops that end -/

section

variable {τ : Type} {self : τ} {outcome : Outcome} {handler handler' : Handler}
  {process process' : Process τ} {answer : Answer}

/-- A newline that ends the loop is still to come, or has been received. -/
theorem HandlerStep.ends
    (step : HandlerStep self outcome handler process answer handler' process')
    (ends : handler.Ends) : handler'.Ends := by
  unfold Handler.Ends at ends ⊢
  cases step.stageStep with
  | receives pc =>
      rw [pc] at ends
      have later := (ends_receive handler outcome ends).1
      cases stage : (handler.receive outcome).pc.stage with
      | receiving =>
          have pc' : (handler.receive outcome).pc = .openFile
              (if (handler.receive outcome).ioctlCheck then .seek else .data) := rfl
          rw [pc'] at stage
          split at stage <;> contradiction
      | writing => exact later
      | iterating => exact later
      | responding => trivial
  | writes pc =>
      rw [pc] at ends
      exact ends
  | keeps here stage =>
      rw [here, stage] at ends
      exact ends
  | iterates stage absent =>
      rw [stage] at ends
      exact ends.resolve_left absent
  | responds stage =>
      rw [stage]
      trivial

/-- While the handler goes on, its iterations so far and the chunks to come are
not more than all chunks; if the client closes its side, a newline is to come. -/
structure LoopBound (chunks : Nat) (closed : Bool) (count : Nat) (handler : Handler) : Prop where
  ends : closed = true → handler.Ends
  alive : (∀ ok, handler.pc ≠ .returned ok) → count + handler.incoming.length ≤ chunks
  total : count + handler.incoming.length ≤ chunks + 1

theorem LoopBound.step {chunks count : Nat} {closed : Bool}
    (bound : LoopBound chunks closed count handler)
    (guard : handler.pc = .recv → handler.incoming = [] → outcome.fails = !closed)
    (step : handlerStep self (handler, process) outcome = some (answer, handler', process')) :
    LoopBound chunks closed (count + if answer.isReceived then 1 else 0) handler' := by
  have unfinished : ∀ ok, handler.pc ≠ .returned ok := by
    intro ok pc
    simp [handlerStep, pc] at step
  have taken := handlerStep_cases step
  have ends : closed = true → handler'.Ends := fun shut => taken.ends (bound.ends shut)
  have before := bound.alive unfinished
  have quiet (still : handler'.incoming = handler.incoming) (silent : answer.isReceived = false) :
      LoopBound chunks closed (count + if answer.isReceived then 1 else 0) handler' := by
    rw [silent]
    constructor
    · exact ends
    · intro _
      rwa [still]
    · rw [still]
      exact bound.total
  cases taken with
  | recvFails pc fails =>
      constructor
      · exact ends
      · intro alive
        exact absurd rfl (alive false)
      · exact Nat.add_right_comm .. ▸ Nat.succ_le_succ before
  | recv pc works =>
      have shorter : (handler.receive outcome).incoming.length + 1 = handler.incoming.length := by
        cases incoming : handler.incoming with
        | nil =>
            -- an exhausted client that does not make `recv` fail has closed its side
            have shut : closed = true := by
              have verdict := guard pc incoming
              rw [works] at verdict
              exact (Bool.not_eq_false' _).mp verdict.symm
            have finite := bound.ends shut
            simp [Handler.Ends, pc, Pc.stage, incoming] at finite
        | cons chunk chunks => simp [Handler.receive, incoming]
      have same : count + 1 + (handler.receive outcome).incoming.length =
          count + handler.incoming.length := by
        rw [← shorter, Nat.add_assoc, Nat.add_comm 1]
      constructor
      · exact ends
      · intro _
        exact same ▸ before
      · exact same ▸ bound.total
  | _ => exact quiet rfl rfl

end

section

variable {τ : Type} [DecidableEq τ] {self : τ}

/-- The bound holds along every run of the server. -/
theorem loopEnds {chunks : List Chunk} {closed : Bool}
    (ends : closed = true → newline ∈ streamOf chunks) : LoopEnds self chunks closed := by
  rintro process clientSocketFds clients _ rfl events outputs server guarded execution
  suffices bound : LoopBound (clients self).length closed (iterations self outputs)
      (server.handlers self) from
    Nat.le_trans (Nat.le_add_right ..) bound.total
  refine along_induction (motive := fun _ outputs server =>
    LoopBound (clients self).length closed (iterations self outputs) (server.handlers self))
    ?_ ?_ guarded execution
  · constructor
    · intro shut
      exact mem_streamOf_iff.mp (ends shut)
    · intro _
      exact Nat.le_of_eq (Nat.zero_add _)
    · exact Nat.le_succ_of_le (Nat.le_of_eq (Nat.zero_add _))
  · intro _ outputs middle event output target _ bound guard step
    rw [iterations_concat]
    rcases sharedStep_cases self step with
      ⟨_, silent, same⟩ | ⟨outcome, answer, rfl, rfl, taken⟩
    · rw [same, receivedBy_of_ne silent]
      exact bound
    · have stepped := bound.step (guard rfl) taken
      simpa [receivedBy] using stepped

end

/-! ## Loops that go on -/

section

variable {τ : Type} {self : τ} {handler : Handler} {process : Process τ}

/-- A handler that is about to receive, whose client sends no newline, on a device
with room for a chunk and a line of others. -/
structure Waiting (handler : Handler) (process : Process τ) : Prop where
  pc : handler.pc = .recv
  unlocked : process.lock = none
  finite : process.FinitelyOpen
  unended : ∀ chunk ∈ handler.incoming, newline ∉ chunk.1
  room : bufLen < process.system.heap.limit
  represents : ∃ history, Represents process.system history ∧
    (pendingLine history).length ≤ bufLen

/-- An iteration on received data, with every call succeeding. -/
theorem run_dataBranch {number ret : Nat} {received : Handler} {system : System}
    (recv : handlerStep self (handler, process) (.success number) =
      some (.received received.bytesReceived, received, process))
    (branch : received.pc = .openFile .data)
    (next : received.afterIteration = received.goto .recv)
    (unlocked : process.lock = none) (unused : process.descriptors number = none)
    (written : aesdWrite .success (some number) (some received.received)
      (aesdOpen number process.system) = some ((ret : Int), system)) :
    ∃ answers, run (handlerStep self) (handler, process) (List.replicate 10 (.success number)) =
        some (answers, received.goto .recv,
          { process with system := system, dataFileDescriptor := number }) ∧
      answers.countP Answer.isReceived = 1 := by
  let opened : Process τ := { process with
    system := aesdOpen number process.system
    descriptors := Function.update process.descriptors number (some (.dataFile .readWrite)) }
  let assigned : Process τ := { opened with dataFileDescriptor := number }
  let locked : Process τ := { assigned with lock := some self }
  let stored : Process τ := { locked with system := system }
  let unlocked' : Process τ := { stored with lock := none }
  have openFile : handlerStep self (received, process) (.success number) =
      some (.opened number, received.goto (.assign .data number), opened) := by
    simp [handlerStep, branch, Process.sysOpen, unused, Outcome.success, OpenSite.access, opened]
  have assign : handlerStep self (received.goto (.assign .data number), opened)
      (.success number) = some (.silent, received.goto (.check .data), assigned) := rfl
  have check : handlerStep self (received.goto (.check .data), assigned) (.success number) =
      some (.silent, received.goto (.lock .receive), assigned) := rfl
  have lock : handlerStep self (received.goto (.lock .receive), assigned) (.success number) =
      some (.silent, received.goto (.load .write), locked) := by
    simp [handlerStep, Handler.goto, assigned, opened, locked, unlocked, Loop.use]
  have loadWrite : handlerStep self (received.goto (.load .write), locked) (.success number) =
      some (.silent, received.goto (.call .write number), locked) := rfl
  have write : handlerStep self (received.goto (.call .write number), locked) (.success number) =
      some (.used .write number ret, received.goto (.unlock .receive), stored) := by
    have file : locked.dataFile number = some .readWrite := by
      simp [Process.dataFile, locked, assigned, opened]
    have works : Process.sysReturn ret = ret := if_neg (by omega)
    have call : locked.sysWrite (.success number) number
        (received.goto (.call .write number)).received = some ((ret : Int), stored) := by
      show locked.sysWrite (.success number) number received.received = _
      simp [Process.sysWrite, file, Outcome.success, locked, assigned, opened, written, works,
        stored]
    have works' : (ret : Int) ≠ -1 := by omega
    simp only [handlerStep, useStep, Handler.goto] at call ⊢
    rw [call, Option.map_some, if_neg works']
  have unlock : handlerStep self (received.goto (.unlock .receive), stored) (.success number) =
      some (.silent, received.goto (.load .closeData), unlocked') := rfl
  have loadClose : handlerStep self (received.goto (.load .closeData), unlocked')
      (.success number) = some (.silent, received.goto (.call .closeData number), unlocked') := rfl
  have close : handlerStep self (received.goto (.call .closeData number), unlocked')
      (.success number) = some (.used .closeData number 0, received.goto .recv,
        { process with system := system, dataFileDescriptor := number }) := by
    have present : unlocked'.descriptors number ≠ none := by
      simp [unlocked', stored, locked, assigned, opened]
    have restored : Function.update unlocked'.descriptors number none = process.descriptors := by
      simp [unlocked', stored, locked, assigned, opened, ← unused]
    have call : unlocked'.sysClose (.success number) number =
        (0, { process with system := system, dataFileDescriptor := number }) := by
      simp [Process.sysClose, present, restored, Outcome.success, unlocked', stored, locked,
        assigned, unlocked]
    have iterated : (received.goto (.call .closeData number)).afterIteration =
        received.goto .recv := next
    show some (Answer.used .closeData number (unlocked'.sysClose (.success number) number).1,
      (received.goto (.call .closeData number)).afterIteration,
      (unlocked'.sysClose (.success number) number).2) = _
    rw [call, iterated]
  refine ⟨[.received received.bytesReceived, .opened number, .silent, .silent, .silent, .silent,
    .used .write number ret, .silent, .silent, .used .closeData number 0], ?_, rfl⟩
  simp only [List.replicate, run, recv, openFile, assign, check, lock, loadWrite, write, unlock,
    loadClose, close, Option.bind_some, Option.map_some]

/-- An iteration on a seek command, with every call succeeding. -/
theorem run_seekBranch {number : Nat} {received : Handler}
    (recv : handlerStep self (handler, process) (.success number) =
      some (.received received.bytesReceived, received, process))
    (branch : received.pc = .openFile .seek)
    (next : received.afterIteration = received.goto .recv)
    (unused : process.descriptors number = none) :
    ∃ answers process', run (handlerStep self) (handler, process)
        (List.replicate 6 (.success number)) = some (answers, received.goto .recv, process') ∧
      answers.countP Answer.isReceived = 1 ∧
      process'.lock = process.lock ∧
      process'.descriptors = Function.update process.descriptors number
        (some (.dataFile .readWrite)) ∧
      ∃ fPos, process'.system = { process.system with fPos := fPos } := by
  let opened : Process τ := { process with
    system := aesdOpen number process.system
    descriptors := Function.update process.descriptors number (some (.dataFile .readWrite)) }
  let assigned : Process τ := { opened with dataFileDescriptor := number }
  have openFile : handlerStep self (received, process) (.success number) =
      some (.opened number, received.goto (.assign .seek number), opened) := by
    simp [handlerStep, branch, Process.sysOpen, unused, Outcome.success, OpenSite.access, opened]
  have assign : handlerStep self (received.goto (.assign .seek number), opened)
      (.success number) = some (.silent, received.goto (.check .seek), assigned) := rfl
  have check : handlerStep self (received.goto (.check .seek), assigned) (.success number) =
      some (.silent, received.goto (.load .ioctl), assigned) := by
    have valid : (number : Int) ≠ -1 := by omega
    simp [handlerStep, Handler.goto, OpenSite.afterCheck, assigned, valid]
  have load : handlerStep self (received.goto (.load .ioctl), assigned) (.success number) =
      some (.silent, received.goto (.call .ioctl number), assigned) := rfl
  rcases assigned.sysIoctl_moves (.success number) number received.aesdSeektoData with
    ⟨fPos, moved⟩
  have ioctl : handlerStep self (received.goto (.call .ioctl number), assigned)
      (.success number) =
      some (.used .ioctl number
        (assigned.sysIoctl (.success number) number received.aesdSeektoData).1,
        received.goto .recv,
        { assigned with system := { assigned.system with fPos := fPos } }) := by
    have iterated : (received.goto (.call .ioctl number)).afterIteration = received.goto .recv :=
      next
    rw [← iterated, ← moved]
    rfl
  refine ⟨[.received received.bytesReceived, .opened number, .silent, .silent, .silent,
    .used .ioctl number (assigned.sysIoctl (.success number) number received.aesdSeektoData).1],
    { assigned with system := { assigned.system with fPos := fPos } }, ?_, rfl, rfl, rfl, fPos, rfl⟩
  simp only [List.replicate, run, recv, openFile, assign, check, load, ioctl, Option.bind_some,
    Option.map_some]

/-- A handler that waits while no line is pending comes back to its `recv`. -/
theorem Waiting.iterate (self : τ) (waiting : Waiting handler process) {history : List Byte}
    (represents : Represents process.system history) (idle : pendingLine history = []) :
    ∃ outcomes answers handler' process', (∀ outcome ∈ outcomes, outcome.fails = false) ∧
      run (handlerStep self) (handler, process) outcomes = some (answers, handler', process') ∧
      answers.countP Answer.isReceived = 1 ∧ Waiting handler' process' := by
  rcases waiting.finite with ⟨number, unused⟩
  have recv : handlerStep self (handler, process) (.success number) =
      some (.received (handler.receive (.success number)).bytesReceived,
        handler.receive (.success number), process) := by
    simp [handlerStep, waiting.pc, Outcome.success]
  have bytes := receive_received handler (.success number)
  have branch : (handler.receive (.success number)).pc = .openFile
      (if (handler.receive (.success number)).ioctlCheck then .seek else .data) := rfl
  have later : (handler.receive (.success number)).incoming = handler.incoming.tail := rfl
  generalize handler.receive (.success number) = received at *
  have absent : newline ∉ received.received := by
    rw [bytes]
    cases incoming : handler.incoming with
    | nil => exact List.not_mem_nil
    | cons chunk chunks => exact waiting.unended chunk (incoming ▸ List.mem_cons_self)
  have short : received.received.length ≤ bufLen := by
    rw [bytes]
    cases incoming : handler.incoming with
    | nil => exact Nat.zero_le _
    | cons chunk chunks => exact chunk.2.2
  have unended : ∀ chunk ∈ received.incoming, newline ∉ chunk.1 := by
    intro chunk member
    rw [later] at member
    exact waiting.unended chunk (List.mem_of_mem_tail member)
  have next : received.afterIteration = received.goto .recv := by
    simp [Handler.afterIteration, absent]
  have works : ∀ count, ∀ outcome ∈ List.replicate count (Outcome.success number),
      outcome.fails = false := by
    intro count outcome member
    rw [List.eq_of_mem_replicate member]
    rfl
  cases check : received.ioctlCheck with
  | false =>
      rw [check] at branch
      have represents' : Represents (aesdOpen number process.system) history :=
        represents.congr_fPos _
      have granted : WriteCall.Granted (aesdOpen number process.system)
          ⟨.success, some number, some received.received⟩ := by
        apply represents'.granted_of_fits
        · exact Nat.le_of_lt (Nat.lt_of_le_of_lt short waiting.room)
        · rw [idle, consumed, firstLine_of_not_mem absent, List.length_nil, Nat.zero_add]
          exact Nat.le_of_lt (Nat.lt_of_le_of_lt short waiting.room)
      rcases represents'.write_granted granted with ⟨system, written, _, limit, represents''⟩
      rcases run_dataBranch recv branch next waiting.unlocked (unused number (Nat.le_refl _))
        written with ⟨answers, execution, once⟩
      refine ⟨_, answers, _, _, works 10, execution, once, ?_⟩
      constructor
      · rfl
      · exact waiting.unlocked
      · exact waiting.finite
      · exact unended
      · rw [limit]
        exact waiting.room
      · refine ⟨_, represents'', ?_⟩
        have pending : pendingLine (history ++ received.received) = received.received := by
          have appended : pendingLine (history ++ received.received) =
              pendingLine history ++ received.received :=
            (lines_append_of_not_mem history absent).2
          rw [appended, idle, List.nil_append]
        show (pendingLine (history ++ consumed received.received)).length ≤ bufLen
        rw [consumed, firstLine_of_not_mem absent, pending]
        exact short
  | true =>
      rw [check] at branch
      rcases run_seekBranch recv branch next (unused number (Nat.le_refl _)) with
        ⟨answers, process', execution, once, sameLock, opened, fPos, sameSystem⟩
      refine ⟨_, answers, _, process', works 6, execution, once, ?_⟩
      constructor
      · rfl
      · exact sameLock.trans waiting.unlocked
      · exact waiting.finite.update opened
      · exact unended
      · rw [sameSystem]
        exact waiting.room
      · refine ⟨history, sameSystem ▸ represents.congr_fPos fPos, ?_⟩
        rw [idle]
        exact Nat.zero_le _

/-- A line of another process completes what is pending. -/
theorem Waiting.completeLine (waiting : Waiting handler process) :
    ∃ system history, operationStep process.system
        (.write ⟨.success, some 0, some [newline]⟩) = some (1, system) ∧
      Represents system history ∧ pendingLine history = [] ∧
      Waiting handler { process with system := system } := by
  rcases waiting.represents with ⟨history, represents, bounded⟩
  have granted : WriteCall.Granted process.system ⟨.success, some 0, some [newline]⟩ := by
    apply represents.granted_of_fits
    · exact Nat.lt_of_le_of_lt (Nat.zero_le _) waiting.room
    · exact Nat.le_trans (Nat.succ_le_succ bounded) waiting.room
  rcases represents.write_granted granted with ⟨system, written, _, limit, represents'⟩
  have idle : pendingLine (history ++ consumed [newline]) = [] :=
    (committedLines_append_line history List.not_mem_nil
      (show newline ∈ [newline] from List.mem_cons_self)).2
  refine ⟨system, _, written, represents', idle, waiting.pc, waiting.unlocked, waiting.finite,
    waiting.unended, ?_, _, represents', ?_⟩
  · rw [limit]
    exact waiting.room
  · show (pendingLine (history ++ consumed [newline])).length ≤ bufLen
    rw [idle]
    exact Nat.zero_le _

end

section

variable {τ : Type} [DecidableEq τ] {self : τ}

/-- A handler that waits can iterate as often as one likes. -/
theorem Waiting.goesOn {server : ServerState τ}
    (waiting : Waiting (server.handlers self) server.process) (count : Nat) :
    ∃ events outputs server',
      (∀ event ∈ events, ∀ state, ClientEnds self true state event) ∧
      run sharedStep server events = some (outputs, server') ∧
      iterations self outputs = count := by
  induction count generalizing server with
  | zero => exact ⟨[], [], server, by simp, rfl, rfl⟩
  | succ count ih =>
      rcases waiting.completeLine with ⟨system, history, written, represents, idle, waiting'⟩
      rcases waiting'.iterate self represents idle with
        ⟨outcomes, answers, handler, process, works, execution, once, waiting''⟩
      let completed : ServerState τ :=
        { server with process := { server.process with system := system } }
      let middle : ServerState τ := ⟨process, Function.update server.handlers self handler⟩
      have waitingMiddle : Waiting (middle.handlers self) middle.process := by
        simp only [middle, Function.update_self]
        exact waiting''
      rcases ih waitingMiddle with ⟨events, outputs, server', meets, later, counted⟩
      have first : sharedStep server (.device (.write ⟨.success, some 0, some [newline]⟩)) =
          some (none, completed) := by
        simp [sharedStep, written, completed]
      have iterated : run sharedStep completed (outcomes.map (.thread self)) =
          some (answers.map fun answer => some (self, answer), middle) :=
        run_shared execution
      have together := (run_append_eq_some_iff ..).mpr ⟨middle, _, _, iterated, later, rfl⟩
      refine ⟨.device (.write ⟨.success, some 0, some [newline]⟩) ::
          (outcomes.map (.thread self) ++ events), _, server', ?_,
        (run_cons_eq_some_iff ..).mpr ⟨_, completed, _, first, together, rfl⟩, ?_⟩
      · intro event member state
        simp only [List.mem_cons, List.mem_append, List.mem_map] at member
        rcases member with rfl | ⟨outcome, inside, rfl⟩ | inside
        · exact trivial
        · intro _ _ _
          exact works outcome inside
        · exact meets event inside state
      · have one : iterations self (answers.map fun answer => some (self, answer)) = 1 := by
          rw [iterations, List.countP_map, ← once]
          congr 1
          funext answer
          simp [receivedBy]
        have split : iterations self (none :: ((answers.map fun answer => some (self, answer)) ++
            outputs)) = iterations self (answers.map fun answer => some (self, answer)) +
              iterations self outputs := by
          simp [iterations, receivedBy, List.countP_append]
        rw [split, one, counted, Nat.add_comm]

/-- The receive loop of a thread ends exactly when `recv` fails in the end, or a
newline has been received. -/
theorem receive_loop_ends_iff (self : τ) (chunks : List Chunk) (closed : Bool) :
    LoopEnds self chunks closed ↔ (closed = true → newline ∈ streamOf chunks) := by
  constructor
  · intro ends shut
    subst shut
    by_contra absent
    let process : Process τ := Process.fresh τ 4
    let server : ServerState τ := .start process (fun _ => 3) fun _ => chunks
    have waiting : Waiting (server.handlers self) server.process := by
      constructor
      · rfl
      · rfl
      · exact ⟨4, fun number beyond => if_neg (Nat.not_lt.mpr beyond)⟩
      · intro chunk member found
        exact absent (mem_streamOf_iff.mpr ⟨chunk, member, found⟩)
      · exact (by decide : bufLen < 4096)
      · exact ⟨[], represents_init _, Nat.zero_le _⟩
    rcases waiting.goesOn (chunks.length + 2) with
      ⟨events, outputs, server', meets, execution, counted⟩
    have bounded := ends process (fun _ => 3) (fun _ => chunks)
      ⟨⟨4096, by decide⟩, [], [], rfl⟩ rfl events outputs server' (along_of_forall meets) execution
    omega
  · exact loopEnds

end

/-- A client that sends `"hi"` and closes its side: in 21 steps the handler
receives three times. -/
theorem closed_client_keeps_receiving :
    ¬LoopEnds () [⟨[104, 105], by decide⟩] true := by
  intro ends
  let events : List (ServerEvent Unit) := List.replicate 21 (.thread () (.success 4))
  have received : (run sharedStep (oneClient [⟨[104, 105], by decide⟩]) events).map
      (fun result => iterations () result.1) = some 3 := by decide +kernel
  rcases Option.map_eq_some_iff.mp received with ⟨⟨outputs, server⟩, execution, three⟩
  have meets : ∀ event ∈ events, ∀ state, ClientEnds () true state event := by
    intro event member state
    rw [List.eq_of_mem_replicate member]
    intro _ _ _
    rfl
  have bounded := ends (Process.fresh Unit 4) (fun _ => 3) _ ⟨⟨4096, by decide⟩, [], [], rfl⟩ rfl
    events outputs server (along_of_forall meets) execution
  rw [three] at bounded
  exact absurd bounded (by decide)

end Aesd.Server
