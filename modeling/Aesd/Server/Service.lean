import Aesd.Server.DeviceCalls
import Aesd.Server.Mutex
import Aesd.Server.Stream

/-!
# Serving one connection alone

A handler that runs alone, and whose calls all succeed, ends after a bounded
number of steps.  It has supplied the device with the chunks that no iteration
took for a seek command, each up to its first newline, and unless the last
iteration did, it has sent the stored lines.
-/

namespace Aesd.Server

open Aesd.Driver Aesd.Transition Aesd.Word

/-- The device is in a state that operations have left, and the mutex is free. -/
def Process.Reachable {τ : Type} (process : Process τ) : Prop :=
  process.lock = none ∧ ∃ kmallocMaxSize operations rets,
    Along operationStep Operation.KeepsLine (aesdInitModule kmallocMaxSize) operations ∧
    run operationStep (aesdInitModule kmallocMaxSize) operations = some (rets, process.system)

theorem Process.Reachable.represents {τ : Type} {process : Process τ}
    (reachable : process.Reachable) :
    ∃ history, Represents process.system history := by
  rcases reachable with ⟨_, kmallocMaxSize, operations, rets, keeps, reached⟩
  rcases (represents_init kmallocMaxSize).run_operations keeps with
    ⟨rets', system, reached', represents⟩
  cases Option.some.inj (reached.symm.trans reached')
  exact ⟨_, represents⟩

/-- The call that the handler makes at a step succeeds, and a send takes all it
is given. -/
def Handler.CallSucceeds {τ : Type} (handler : Handler) (process : Process τ)
    (outcome : Outcome) : Pc → Prop
  | .openFile _ => process.descriptors outcome.descriptor = none
  | .call .write fd =>
      WriteCall.Granted process.system ⟨outcome.write, some fd.toNat, some handler.received⟩
  | .call .ioctl _ => outcome.ioctl = .success
  | .call .read _ => outcome.read = .success
  | .send => handler.sendBuffer.length ≤ outcome.accepted
  | _ => True

instance {τ : Type} (handler : Handler) (process : Process τ) (outcome : Outcome) :
    ∀ pc, Decidable (handler.CallSucceeds process outcome pc)
  | .openFile _ => inferInstanceAs (Decidable (process.descriptors _ = none))
  | .call .write _ => inferInstanceAs (Decidable (WriteCall.Granted ..))
  | .call .ioctl _ => inferInstanceAs (Decidable (outcome.ioctl = _))
  | .call .read _ => inferInstanceAs (Decidable (outcome.read = _))
  | .send => inferInstanceAs (Decidable (_ ≤ _))
  | .recv | .assign .. | .check _ | .lock _ | .load _ | .unlock _ => isTrue trivial
  | .call .closeData _ | .call .closeFinal _ => isTrue trivial
  | .closeSocket | .complete | .returned _ => isTrue trivial

/-- The next step succeeds. -/
def Succeeds {τ : Type} (state : Handler × Process τ) (outcome : Outcome) : Prop :=
  outcome.fails = false ∧ state.1.CallSucceeds state.2 outcome state.1.pc

instance {τ : Type} (state : Handler × Process τ) (outcome : Outcome) :
    Decidable (Succeeds state outcome) :=
  inferInstanceAs (Decidable (_ ∧ _))

/-! ## What is still to come -/

/-- The part of the handler that a step belongs to. -/
inductive Stage where
  | receiving
  | writing
  | iterating
  | responding
  deriving DecidableEq, Repr

def Pc.stage : Pc → Stage
  | .recv => .receiving
  | .openFile .data | .assign .data _ | .check .data => .writing
  | .lock .receive | .load .write | .call .write _ => .writing
  | .unlock .receive | .load .closeData | .call .closeData _ => .iterating
  | .openFile .seek | .assign .seek _ | .check .seek => .iterating
  | .load .ioctl | .call .ioctl _ => .iterating
  | _ => .responding

/-- A failed open leaves its part of the handler. -/
theorem stage_afterCheck (site : OpenSite) (fd : Int) :
    (site.afterCheck fd).stage = (Pc.check site).stage ∨
      site.afterCheck fd = .returned false := by
  rcases site.afterCheck_cases fd with ⟨_, _, failed⟩ | ⟨_, next⟩
  · exact Or.inr failed
  · left
    rw [next]
    cases site <;> rfl

/-- How a step moves through the stages; a new iteration is for want of a newline. -/
inductive StageStep (outcome : Outcome) (handler : Handler) : Handler → Prop
  | receives (pc : handler.pc = .recv) : StageStep outcome handler (handler.receive outcome)
  | writes {fd : Int} (pc : handler.pc = .call .write fd) :
      StageStep outcome handler (handler.goto (.unlock .receive))
  | keeps {pc pc' : Pc} (here : handler.pc = pc) (stage : pc.stage = pc'.stage) :
      StageStep outcome handler (handler.goto pc')
  | iterates (stage : handler.pc.stage = .iterating) (absent : newline ∉ handler.received) :
      StageStep outcome handler (handler.goto .recv)
  | responds {handler' : Handler} (stage : handler'.pc.stage = .responding) :
      StageStep outcome handler handler'

theorem Handler.stageStep_afterIteration {outcome : Outcome} {handler : Handler}
    (stage : handler.pc.stage = .iterating) :
    StageStep outcome handler handler.afterIteration := by
  by_cases found : newline ∈ handler.received
  · apply StageStep.responds
    simp only [afterIteration, goto, if_pos found]
    split <;> rfl
  · have next : handler.afterIteration = handler.goto .recv := by
      simp [afterIteration, found]
    rw [next]
    exact .iterates stage found

theorem HandlerStep.stageStep {τ : Type} {self : τ} {outcome : Outcome}
    {handler handler' : Handler} {process process' : Process τ} {answer : Answer}
    (step : HandlerStep self outcome handler process answer handler' process') :
    StageStep outcome handler handler' := by
  cases step with
  | recv pc works => exact .receives pc
  | openFile site fd _ pc call => exact .keeps pc (by cases site <;> rfl)
  | assign site fd pc => exact .keeps pc (by cases site <;> rfl)
  | check site pc =>
      rcases stage_afterCheck site process.dataFileDescriptor with stage | failed
      · exact .keeps pc stage.symm
      · exact .responds (congrArg Pc.stage failed)
  | lock loop pc free => exact .keeps pc (by cases loop <;> rfl)
  | load use pc => exact .keeps pc (by cases use <;> rfl)
  | ioctl fd pc => exact Handler.stageStep_afterIteration (congrArg Pc.stage pc)
  | write fd ret _ pc => exact .writes pc
  | closeData fd pc => exact Handler.stageStep_afterIteration (congrArg Pc.stage pc)
  | unlock loop pc => exact .keeps pc (by cases loop <;> rfl)
  | send pc =>
      apply StageStep.responds
      by_cases none : handler.sendBuffer = [] <;> simp only [none, if_true, if_false] <;> rfl
  | _ => exact .responds rfl

/-- The branch of the receive loop that a step belongs to; true for the seek
command. -/
def Pc.branch : Pc → Option Bool
  | .openFile .data | .assign .data _ | .check .data => some false
  | .lock .receive | .load .write | .call .write _ => some false
  | .unlock .receive | .load .closeData | .call .closeData _ => some false
  | .openFile .seek | .assign .seek _ | .check .seek => some true
  | .load .ioctl | .call .ioctl _ => some true
  | _ => none

namespace Handler

/-- What the iterations after the present one are going to supply. -/
def later (handler : Handler) : List Byte :=
  if newline ∈ handler.received then []
  else suppliedBy handler.receiveBuffer handler.incoming

/-- What the handler is still going to supply. -/
def due (handler : Handler) : List Byte :=
  match handler.pc.stage with
  | .receiving => suppliedBy handler.receiveBuffer handler.incoming
  | .writing => consumed handler.received ++ handler.later
  | .iterating => handler.later
  | .responding => []

/-- Whether the receive loop ends with a seek command. -/
def verdict (handler : Handler) : Bool :=
  match handler.pc.stage with
  | .receiving => endsWithCommand handler.receiveBuffer handler.incoming
  | .responding => handler.ioctlCheck
  | _ =>
      if newline ∈ handler.received then handler.ioctlCheck
      else endsWithCommand handler.receiveBuffer handler.incoming

/-- A newline ends the receive loop. -/
def Ends (handler : Handler) : Prop :=
  match handler.pc.stage with
  | .receiving => ∃ chunk ∈ handler.incoming, newline ∈ chunk.1
  | .responding => True
  | _ => newline ∈ handler.received ∨ ∃ chunk ∈ handler.incoming, newline ∈ chunk.1

section

variable {τ : Type}

/-- The handler relies on descriptors that are open, and does not give up. -/
def Opened (handler : Handler) (process : Process τ) : Prop :=
  match handler.pc with
  | .assign site fd => process.dataFile fd = some site.access
  | .check site => process.dataFile process.dataFileDescriptor = some site.access
  | .lock .receive | .load .write | .load .ioctl =>
      process.dataFile process.dataFileDescriptor = some .readWrite
  | .call .write fd | .call .ioctl fd =>
      fd = process.dataFileDescriptor ∧ process.dataFile fd = some .readWrite
  | .lock .respond | .load .read | .unlock .respond | .send =>
      process.dataFile process.dataFileDescriptor ≠ none
  | .call .read fd => fd = process.dataFileDescriptor ∧ process.dataFile fd ≠ none
  | .returned ok => ok = true
  | _ => True

/-- Without a seek command, what has been sent and what is left to read make up
the stored lines. -/
def Delivers (content : List Byte) (handler : Handler) (process : Process τ) : Prop :=
  match handler.pc with
  | .assign .response fd =>
      handler.sent ++ content.drop (toSize (process.system.fPos fd.toNat)) = content
  | .check .response | .lock .respond | .load .read | .call .read _ =>
      handler.ioctlCheck = false →
        handler.sent ++ content.drop process.readPosition = content
  | .unlock .respond | .send =>
      (handler.ioctlCheck = false →
        handler.sent ++ handler.sendBuffer ++ content.drop process.readPosition = content) ∧
      (handler.sendBuffer = [] → content.length ≤ process.readPosition)
  | .closeSocket | .complete | .load .closeFinal | .call .closeFinal _ | .returned _ =>
      handler.ioctlCheck = false → handler.sent = content
  | _ => handler.sent = []

/-- An upper bound of the steps to come, for stored lines of a given total
length. -/
def rank (length : Nat) (handler : Handler) (process : Process τ) : Nat :=
  let remaining := length - process.readPosition
  let base := 5 * length + 10 * handler.incoming.length + 14
  match handler.pc with
  | .recv => base
  | .openFile .data => base + 9
  | .assign .data _ => base + 8
  | .check .data => base + 7
  | .lock .receive => base + 6
  | .load .write => base + 5
  | .call .write _ => base + 4
  | .unlock .receive => base + 3
  | .load .closeData => base + 2
  | .call .closeData _ => base + 1
  | .openFile .seek => base + 5
  | .assign .seek _ => base + 4
  | .check .seek => base + 3
  | .load .ioctl => base + 2
  | .call .ioctl _ => base + 1
  | .openFile .response => 5 * length + 13
  | .assign .response _ => 5 * length + 12
  | .check .response => 5 * length + 11
  | .lock .respond => 5 * remaining + 10
  | .load .read => 5 * remaining + 9
  | .call .read _ => 5 * remaining + 8
  | .unlock .respond => if handler.sendBuffer = [] then 6 else 5 * remaining + 12
  | .send => if handler.sendBuffer = [] then 5 else 5 * remaining + 11
  | .closeSocket => 4
  | .complete => 3
  | .load .closeFinal => 2
  | .call .closeFinal _ => 1
  | .returned _ => 0

end

end Handler

/-- The state of a handler that runs alone; `final` is the word that the device
represents in the end, and `limit` the bound of its allocator. -/
structure Serving {τ : Type} (limit : Nat) (final : List Byte) (command : Bool)
    (handler : Handler) (process : Process τ) : Prop where
  represents : ∃ history, Represents process.system history ∧
    process.system.heap.limit = limit ∧ history ++ handler.due = final
  verdict : handler.verdict = command
  branch : ∀ taken ∈ handler.pc.branch, handler.ioctlCheck = taken
  unlocked : handler.pc.critical = false → process.lock = none
  opened : handler.Opened process
  delivers : handler.Delivers (storedContent final) process

section

variable {τ : Type} {self : τ} {limit : Nat} {final : List Byte} {command : Bool}
  {handler : Handler} {process : Process τ} {outcome : Outcome}

/-- A step brings the end closer, if there is one. -/
def Closer (final : List Byte) (handler : Handler) (process : Process τ) (handler' : Handler)
    (process' : Process τ) : Prop :=
  handler.Ends → handler'.Ends ∧
    handler'.rank (storedContent final).length process' <
      handler.rank (storedContent final).length process

/-- The next step keeps what is still to come, and brings the end closer. -/
def Advances (self : τ) (limit : Nat) (final : List Byte) (command : Bool) (handler : Handler)
    (process : Process τ) (outcome : Outcome) : Prop :=
  ∃ answer handler' process',
    handlerStep self (handler, process) outcome = some (answer, handler', process') ∧
      Serving limit final command handler' process' ∧ Closer final handler process handler' process'

/-- A step that leads one place further. -/
private theorem closer_of_next {handler' : Handler} {process' : Process τ}
    (ends : handler'.Ends = handler.Ends)
    (rank : handler.rank (storedContent final).length process =
      handler'.rank (storedContent final).length process' + 1) :
    Closer final handler process handler' process' :=
  fun finite => ⟨ends ▸ finite, rank ▸ Nat.lt_succ_self _⟩

/-! ## The receive loop -/

/-- The bytes of the next `recv`. -/
theorem receive_received (handler : Handler) (outcome : Outcome) :
    (handler.receive outcome).received = (handler.incoming.head?.map Subtype.val).getD [] := by
  simp [Handler.received, Handler.receive, receiveInto]

/-- What a connection supplies is what its first iteration supplies and what
comes later. -/
theorem suppliedBy_receive (handler : Handler) (outcome : Outcome) :
    suppliedBy handler.receiveBuffer handler.incoming =
      (if (handler.receive outcome).ioctlCheck then []
        else consumed (handler.receive outcome).received) ++
        (handler.receive outcome).later := by
  rw [Handler.later, receive_received]
  cases incoming : handler.incoming with
  | nil => simp [Handler.receive, incoming, suppliedBy]
  | cons chunk chunks => simp [Handler.receive, incoming, suppliedBy]

theorem endsWithCommand_receive (handler : Handler) (outcome : Outcome) :
    endsWithCommand handler.receiveBuffer handler.incoming =
      if newline ∈ (handler.receive outcome).received then (handler.receive outcome).ioctlCheck
      else endsWithCommand (handler.receive outcome).receiveBuffer
        (handler.receive outcome).incoming := by
  rw [receive_received]
  cases incoming : handler.incoming with
  | nil => simp [Handler.receive, incoming, endsWithCommand]
  | cons chunk chunks => simp [Handler.receive, incoming, endsWithCommand]

theorem ends_receive (handler : Handler) (outcome : Outcome)
    (ends : ∃ chunk ∈ handler.incoming, newline ∈ chunk.1) :
    (newline ∈ (handler.receive outcome).received ∨
        ∃ chunk ∈ (handler.receive outcome).incoming, newline ∈ chunk.1) ∧
      (handler.receive outcome).incoming.length + 1 = handler.incoming.length := by
  rw [receive_received]
  rcases ends with ⟨last, member, found⟩
  cases incoming : handler.incoming with
  | nil => simp [incoming] at member
  | cons chunk chunks =>
      constructor
      · rcases List.mem_cons.mp (incoming ▸ member) with rfl | later
        · exact Or.inl found
        · right
          exact ⟨last, by simpa [Handler.receive, incoming] using later, found⟩
      · simp [Handler.receive, incoming]

private theorem Serving.recv (serving : Serving limit final command (handler.goto .recv) process)
    (works : outcome.fails = false) :
    Advances self limit final command (handler.goto .recv) process outcome := by
  rcases serving.represents with ⟨history, represents, bounded, total⟩
  have supplies := suppliedBy_receive (handler.goto .recv) outcome
  have decides := endsWithCommand_receive (handler.goto .recv) outcome
  have ends := ends_receive (handler.goto .recv) outcome
  have unsent : ((handler.goto .recv).receive outcome).sent = [] := serving.delivers
  have pc : ((handler.goto .recv).receive outcome).pc = .openFile
      (if ((handler.goto .recv).receive outcome).ioctlCheck then .seek else .data) := rfl
  have verdict := decides.symm.trans serving.verdict
  replace total := (congrArg (history ++ ·) supplies.symm).trans total
  refine ⟨.received ((handler.goto .recv).receive outcome).bytesReceived,
    (handler.goto .recv).receive outcome, process, by simp [handlerStep, Handler.goto, works], ?_⟩
  generalize (handler.goto .recv).receive outcome = handler' at *
  rcases handler' with ⟨pc', receiveBuffer, bytesReceived, ioctlCheck, aesdSeektoData, sendBuffer,
    clientSocketFd, isThreadComplete, incoming, sent⟩
  change pc' = .openFile (if ioctlCheck then .seek else .data) at pc
  subst pc
  cases ioctlCheck with
  | false =>
      constructor
      · exact ⟨⟨history, represents, bounded, total⟩, verdict, fun _ taken => Option.some.inj taken,
          fun _ => serving.unlocked rfl, trivial, unsent⟩
      · intro finite
        rcases ends finite with ⟨stillEnds, shorter⟩
        constructor
        · exact stillEnds
        · simp only [Handler.rank, Handler.goto, Bool.false_eq_true, if_false] at shorter ⊢
          omega
  | true =>
      constructor
      · exact ⟨⟨history, represents, bounded, total⟩, verdict, fun _ taken => Option.some.inj taken,
          fun _ => serving.unlocked rfl, trivial, unsent⟩
      · intro finite
        rcases ends finite with ⟨stillEnds, shorter⟩
        constructor
        · exact stillEnds
        · simp only [Handler.rank, Handler.goto, if_true] at shorter ⊢
          omega

/-- After an iteration the handler goes on receiving, or begins its response. -/
private theorem Serving.afterIteration {history : List Byte}
    (represents : Represents process.system history)
    (bounded : process.system.heap.limit = limit) (total : history ++ handler.later = final)
    (verdict : (if newline ∈ handler.received then handler.ioctlCheck
      else endsWithCommand handler.receiveBuffer handler.incoming) = command)
    (unlocked : process.lock = none) (unsent : handler.sent = [])
    (opened : handler.ioctlCheck = true → process.dataFile process.dataFileDescriptor ≠ none) :
    Serving limit final command handler.afterIteration process ∧
      (newline ∈ handler.received ∨ (∃ chunk ∈ handler.incoming, newline ∈ chunk.1) →
        handler.afterIteration.Ends ∧
        handler.afterIteration.rank (storedContent final).length process <
          5 * (storedContent final).length + 10 * handler.incoming.length + 15) := by
  by_cases found : newline ∈ handler.received
  · rw [if_pos found] at verdict
    rw [Handler.later, if_pos found, List.append_nil] at total
    cases check : handler.ioctlCheck with
    | false =>
        have next : handler.afterIteration = handler.goto (.openFile .response) := by
          simp [Handler.afterIteration, found, check]
        rw [next]
        constructor
        · exact ⟨⟨history, represents, bounded, (List.append_nil _).trans total⟩, verdict,
            by rintro _ ⟨⟩, fun _ => unlocked, trivial, unsent⟩
        · intro _
          constructor
          · exact trivial
          · simp only [Handler.rank, Handler.goto]
            omega
    | true =>
        have next : handler.afterIteration = handler.goto (.lock .respond) := by
          simp [Handler.afterIteration, found, check]
        rw [next]
        constructor
        · exact ⟨⟨history, represents, bounded, (List.append_nil _).trans total⟩, verdict,
            by rintro _ ⟨⟩, fun _ => unlocked, opened check,
            fun plain => Bool.noConfusion (check.symm.trans plain)⟩
        · intro _
          constructor
          · exact trivial
          · simp only [Handler.rank, Handler.goto]
            omega
  · rw [if_neg found] at verdict
    rw [Handler.later, if_neg found] at total
    have next : handler.afterIteration = handler.goto .recv := by
      simp [Handler.afterIteration, found]
    rw [next]
    constructor
    · exact ⟨⟨history, represents, bounded, total⟩, verdict, by rintro _ ⟨⟩, fun _ => unlocked,
        trivial, unsent⟩
    · intro finite
      constructor
      · exact finite.resolve_left found
      · simp only [Handler.rank, Handler.goto]
        omega

/-! ## Opening the data file -/

private theorem Serving.openFile {site : OpenSite}
    (serving : Serving limit final command (handler.goto (.openFile site)) process)
    (works : outcome.fails = false) (unused : process.descriptors outcome.descriptor = none) :
    Advances self limit final command (handler.goto (.openFile site)) process outcome := by
  rcases serving.represents with ⟨history, represents, bounded, total⟩
  let process' : Process τ := { process with
    system := aesdOpen outcome.descriptor process.system
    descriptors := Function.update process.descriptors outcome.descriptor
      (some (.dataFile site.access)) }
  have opens : process.sysOpen outcome site.access =
      some ((outcome.descriptor : Int), process') := by
    simp [Process.sysOpen, works, unused, process']
  have opened : process'.dataFile outcome.descriptor = some site.access := by
    simp [Process.dataFile, process']
  have start : process'.system.fPos outcome.descriptor = 0 := Function.update_self ..
  refine ⟨.opened outcome.descriptor, handler.goto (.assign site outcome.descriptor), process',
    ?_, ?_, ?_⟩
  · simp only [handlerStep, Handler.goto, opens, Option.map_some]
  · have represents' : Represents process'.system history := represents.congr_fPos _
    cases site with
    | seek =>
        exact ⟨⟨history, represents', bounded, total⟩, serving.verdict, serving.branch,
          fun _ => serving.unlocked rfl, opened, serving.delivers⟩
    | data =>
        exact ⟨⟨history, represents', bounded, total⟩, serving.verdict, serving.branch,
          fun _ => serving.unlocked rfl, opened, serving.delivers⟩
    | response =>
        have unsent : handler.sent = [] := serving.delivers
        refine ⟨⟨history, represents', bounded, total⟩, serving.verdict, serving.branch,
          fun _ => serving.unlocked rfl, opened, ?_⟩
        show handler.sent ++ (storedContent final).drop (toSize _) = storedContent final
        rw [unsent, Int.toNat_natCast, start]
        rfl
  · cases site <;> exact closer_of_next rfl rfl

private theorem Serving.assign {site : OpenSite} {fd : Int}
    (serving : Serving limit final command (handler.goto (.assign site fd)) process) :
    Advances self limit final command (handler.goto (.assign site fd)) process outcome := by
  refine ⟨.silent, handler.goto (.check site), { process with dataFileDescriptor := fd }, rfl, ?_⟩
  cases site with
  | seek =>
      exact ⟨⟨serving.represents, serving.verdict, serving.branch,
        fun _ => serving.unlocked rfl, serving.opened, serving.delivers⟩, closer_of_next rfl rfl⟩
  | data =>
      exact ⟨⟨serving.represents, serving.verdict, serving.branch,
        fun _ => serving.unlocked rfl, serving.opened, serving.delivers⟩, closer_of_next rfl rfl⟩
  | response =>
      exact ⟨⟨serving.represents, serving.verdict, serving.branch,
        fun _ => serving.unlocked rfl, serving.opened, fun _ => serving.delivers⟩,
        closer_of_next rfl rfl⟩

/-- The global is not the error value when it is a descriptor of the data file. -/
theorem ne_neg_one_of_dataFile {fd : Int} {access : Access}
    (opened : process.dataFile fd = some access) : fd ≠ -1 := by
  rintro rfl
  contradiction

private theorem Serving.check {site : OpenSite}
    (serving : Serving limit final command (handler.goto (.check site)) process) :
    Advances self limit final command (handler.goto (.check site)) process outcome := by
  have opened : process.dataFile process.dataFileDescriptor = some site.access := serving.opened
  have valid := ne_neg_one_of_dataFile opened
  refine ⟨.silent, handler.goto (site.afterCheck process.dataFileDescriptor), process, rfl, ?_⟩
  cases site with
  | seek =>
      rw [OpenSite.afterCheck, if_neg valid]
      exact ⟨⟨serving.represents, serving.verdict, serving.branch,
        fun _ => serving.unlocked rfl, opened, serving.delivers⟩, closer_of_next rfl rfl⟩
  | data =>
      exact ⟨⟨serving.represents, serving.verdict, serving.branch,
        fun _ => serving.unlocked rfl, opened, serving.delivers⟩, closer_of_next rfl rfl⟩
  | response =>
      rw [OpenSite.afterCheck, if_neg valid]
      refine ⟨⟨serving.represents, serving.verdict, serving.branch,
        fun _ => serving.unlocked rfl, ?_, serving.delivers⟩, ?_⟩
      · show process.dataFile process.dataFileDescriptor ≠ none
        rw [opened]
        exact Option.some_ne_none _
      · intro finite
        constructor
        · exact finite
        · simp only [Handler.rank, Handler.goto]
          omega

/-! ## The mutex -/

private theorem Serving.lock {loop : Loop}
    (serving : Serving limit final command (handler.goto (.lock loop)) process) :
    Advances self limit final command (handler.goto (.lock loop)) process outcome := by
  have free : process.lock = none := serving.unlocked rfl
  refine ⟨.silent, handler.goto (.load loop.use), { process with lock := some self }, ?_, ?_⟩
  · simp only [handlerStep, Handler.goto, free]
  · cases loop with
    | receive =>
        exact ⟨⟨serving.represents, serving.verdict, serving.branch,
          Bool.noConfusion, serving.opened, serving.delivers⟩, closer_of_next rfl rfl⟩
    | respond =>
        exact ⟨⟨serving.represents, serving.verdict, serving.branch,
          Bool.noConfusion, serving.opened, serving.delivers⟩, closer_of_next rfl rfl⟩

private theorem Serving.unlock {loop : Loop}
    (serving : Serving limit final command (handler.goto (.unlock loop)) process) :
    Advances self limit final command (handler.goto (.unlock loop)) process outcome := by
  refine ⟨.silent, handler.goto loop.afterUnlock, { process with lock := none }, rfl, ?_⟩
  cases loop with
  | receive =>
      exact ⟨⟨serving.represents, serving.verdict, serving.branch,
        fun _ => rfl, trivial, serving.delivers⟩, closer_of_next rfl rfl⟩
  | respond =>
      refine ⟨⟨serving.represents, serving.verdict, serving.branch,
        fun _ => rfl, serving.opened, serving.delivers⟩, ?_⟩
      intro finite
      constructor
      · exact finite
      · by_cases none : handler.sendBuffer = []
        · simp [Handler.rank, Handler.goto, Loop.afterUnlock, none]
        · simp [Handler.rank, Handler.goto, Loop.afterUnlock, none, Process.readPosition]

private theorem Serving.load {use : Use}
    (serving : Serving limit final command (handler.goto (.load use)) process) :
    Advances self limit final command (handler.goto (.load use)) process outcome := by
  refine ⟨.silent, handler.goto (.call use process.dataFileDescriptor), process, rfl, ?_⟩
  cases use with
  | ioctl =>
      exact ⟨⟨serving.represents, serving.verdict, serving.branch,
        serving.unlocked, ⟨rfl, serving.opened⟩, serving.delivers⟩, closer_of_next rfl rfl⟩
  | write =>
      exact ⟨⟨serving.represents, serving.verdict, serving.branch,
        serving.unlocked, ⟨rfl, serving.opened⟩, serving.delivers⟩, closer_of_next rfl rfl⟩
  | closeData =>
      exact ⟨⟨serving.represents, serving.verdict, serving.branch,
        serving.unlocked, trivial, serving.delivers⟩, closer_of_next rfl rfl⟩
  | read =>
      exact ⟨⟨serving.represents, serving.verdict, serving.branch,
        serving.unlocked, ⟨rfl, serving.opened⟩, serving.delivers⟩, closer_of_next rfl rfl⟩
  | closeFinal =>
      exact ⟨⟨serving.represents, serving.verdict, serving.branch,
        serving.unlocked, trivial, serving.delivers⟩, closer_of_next rfl rfl⟩

/-! ## The data file -/

private theorem Serving.write {fd : Int}
    (serving : Serving limit final command (handler.goto (.call .write fd)) process)
    (works : outcome.fails = false)
    (granted : WriteCall.Granted process.system
      ⟨outcome.write, some fd.toNat, some handler.received⟩) :
    Advances self limit final command (handler.goto (.call .write fd)) process outcome := by
  rcases serving.represents with ⟨history, represents, bounded, total⟩
  rcases serving.opened with ⟨loaded, opened⟩
  rcases represents.write_granted granted with ⟨system', result, _, sameLimit, represents'⟩
  have written : aesdWrite outcome.write (some fd.toNat) (some handler.received) process.system =
      some (((consumed handler.received).length : Int), system') := result
  have returned : Process.sysReturn ((consumed handler.received).length : Int) =
      (consumed handler.received).length := if_neg (by omega)
  have call : process.sysWrite outcome fd (handler.goto (.call .write fd)).received =
      some (((consumed handler.received).length : Int), { process with system := system' }) := by
    simp only [Process.sysWrite, works, opened, Bool.false_eq_true, ne_eq, not_true_eq_false,
      or_self, if_false]
    rw [show (handler.goto (.call .write fd)).received = handler.received from rfl, written,
      Option.map_some, returned]
  refine ⟨.used .write fd (consumed handler.received).length, handler.goto (.unlock .receive),
    { process with system := system' }, ?_, ?_, ?_⟩
  · have works' : ((consumed handler.received).length : Int) ≠ -1 := by omega
    simp only [handlerStep, useStep, Handler.goto] at call ⊢
    rw [call, Option.map_some, if_neg works']
  · refine ⟨⟨_, represents', sameLimit.trans bounded, ?_⟩, serving.verdict, serving.branch,
      fun outside => Bool.noConfusion outside, trivial, serving.delivers⟩
    exact (List.append_assoc ..).trans total
  · exact closer_of_next rfl rfl

private theorem Serving.ioctl {fd : Int}
    (serving : Serving limit final command (handler.goto (.call .ioctl fd)) process) :
    Advances self limit final command (handler.goto (.call .ioctl fd)) process outcome := by
  rcases serving.represents with ⟨history, represents, bounded, total⟩
  rcases serving.opened with ⟨loaded, opened⟩
  rcases process.sysIoctl_moves outcome fd handler.aesdSeektoData with ⟨fPos, same⟩
  refine ⟨.used .ioctl fd (process.sysIoctl outcome fd handler.aesdSeektoData).1,
    (handler.goto (.call .ioctl fd)).afterIteration,
    (process.sysIoctl outcome fd handler.aesdSeektoData).2, rfl, ?_⟩
  rw [same]
  let moved : Process τ := { process with system := { process.system with fPos := fPos } }
  have represents' : Represents moved.system history := represents.congr_fPos fPos
  apply Serving.afterIteration represents' bounded total serving.verdict (serving.unlocked rfl)
    serving.delivers
  intro _
  show process.dataFile process.dataFileDescriptor ≠ none
  rw [← loaded, opened]
  exact Option.some_ne_none _

private theorem Serving.closeData {fd : Int}
    (serving : Serving limit final command (handler.goto (.call .closeData fd)) process) :
    Advances self limit final command (handler.goto (.call .closeData fd)) process outcome := by
  rcases serving.represents with ⟨history, represents, bounded, total⟩
  have plain : handler.ioctlCheck = false := serving.branch false rfl
  rcases Process.sysClose_frame outcome fd process with ⟨sameLock, _, sameSystem⟩
  refine ⟨.used .closeData fd (process.sysClose outcome fd).1,
    (handler.goto (.call .closeData fd)).afterIteration, (process.sysClose outcome fd).2, rfl, ?_⟩
  apply Serving.afterIteration (sameSystem ▸ represents) (sameSystem ▸ bounded) total
    serving.verdict (sameLock.trans (serving.unlocked rfl)) serving.delivers
  intro command'
  exact Bool.noConfusion (plain.symm.trans command')

private theorem Serving.read {fd : Int}
    (serving : Serving limit final command (handler.goto (.call .read fd)) process)
    (works : outcome.fails = false) (granted : outcome.read = .success) :
    Advances self limit final command (handler.goto (.call .read fd)) process outcome := by
  rcases serving.represents with ⟨history, represents, bounded, total⟩
  rcases serving.opened with ⟨loaded, opened⟩
  subst loaded
  have whole : history = final := (List.append_nil _).symm.trans total
  subst whole
  rcases represents.read_splits process.dataFileDescriptor.toNat
    (show 0 < bufLen by decide) with ⟨bytes, result, moved, split, empty_iff⟩
  let process' : Process τ :=
    { process with system := process.system.advanced process.dataFileDescriptor.toNat bytes.length }
  have position : process'.readPosition = process.readPosition + bytes.length := moved
  have call : process.sysRead outcome process.dataFileDescriptor bufLen =
      some ((bytes.length : Int), bytes, process') := by
    have returned : Process.sysReturn (bytes.length : Int) = bytes.length := if_neg (by omega)
    simp only [Process.sysRead, works, opened, Bool.false_eq_true, or_self, if_false, granted]
    rw [result, Option.map_some, returned]
  refine ⟨.used .read process.dataFileDescriptor bytes.length,
    { handler with pc := .unlock .respond, sendBuffer := bytes }, process', ?_, ?_, ?_⟩
  · have works' : (bytes.length : Int) ≠ -1 := by omega
    simp only [handlerStep, useStep, Handler.goto, call, Option.map_some, if_neg works']
  · refine ⟨⟨history, represents.advanced .., bounded, total⟩, serving.verdict, serving.branch,
      fun outside => Bool.noConfusion outside, opened, ?_, ?_⟩
    · intro plain
      rw [position, List.append_assoc]
      exact (congrArg (handler.sent ++ ·) split.symm).trans (serving.delivers plain)
    · intro none
      rw [position]
      exact Nat.le_add_right_of_le (empty_iff.mp none)
  · have before : bytes ≠ [] → process.readPosition < (storedContent history).length := by
      intro some'
      exact Nat.not_le.mp (mt empty_iff.mpr some')
    intro finite
    constructor
    · exact finite
    · by_cases none : bytes = []
      · simp only [Handler.rank, Handler.goto, if_pos none]
        omega
      · have progress := List.length_pos_of_ne_nil none
        have inside := before none
        simp only [Handler.rank, Handler.goto, if_neg none, position]
        omega

/-! ## The response -/

private theorem Serving.send (serving : Serving limit final command (handler.goto .send) process)
    (works : outcome.fails = false) (accepts : handler.sendBuffer.length ≤ outcome.accepted) :
    Advances self limit final command (handler.goto .send) process outcome := by
  have accepted : min outcome.accepted handler.sendBuffer.length = handler.sendBuffer.length :=
    Nat.min_eq_right accepts
  rcases serving.delivers with ⟨delivers, exhausted⟩
  by_cases none : handler.sendBuffer = []
  · refine ⟨.sentBytes handler.sendBuffer.length,
      { handler with pc := .closeSocket, sent := handler.sent ++ handler.sendBuffer }, process,
      ?_, ?_, ?_⟩
    · simp [handlerStep, Handler.goto, works, none]
    · refine ⟨serving.represents, serving.verdict, serving.branch,
        fun _ => serving.unlocked rfl, trivial, ?_⟩
      intro plain
      have whole := delivers plain
      rwa [List.drop_of_length_le (exhausted none), List.append_nil] at whole
    · intro finite
      constructor
      · exact finite
      · simp [Handler.rank, Handler.goto, none]
  · refine ⟨.sentBytes handler.sendBuffer.length,
      { handler with pc := .lock .respond, sent := handler.sent ++ handler.sendBuffer }, process,
      ?_, ?_, ?_⟩
    · simp [handlerStep, Handler.goto, works, accepted, none]
    · exact ⟨serving.represents, serving.verdict, serving.branch,
        fun _ => serving.unlocked rfl, serving.opened, delivers⟩
    · intro finite
      constructor
      · exact finite
      · simp [Handler.rank, Handler.goto, none]

private theorem Serving.closeSocket
    (serving : Serving limit final command (handler.goto .closeSocket) process) :
    Advances self limit final command (handler.goto .closeSocket) process outcome :=
  ⟨.silent, handler.goto .complete,
    { process with
      descriptors := Function.update process.descriptors handler.clientSocketFd none },
    rfl, ⟨serving.represents, serving.verdict, serving.branch,
      fun _ => serving.unlocked rfl, trivial, serving.delivers⟩, closer_of_next rfl rfl⟩

private theorem Serving.complete
    (serving : Serving limit final command (handler.goto .complete) process) :
    Advances self limit final command (handler.goto .complete) process outcome :=
  ⟨.silent, { handler with pc := .load .closeFinal, isThreadComplete := true }, process, rfl,
    ⟨serving.represents, serving.verdict, serving.branch,
      fun _ => serving.unlocked rfl, trivial, serving.delivers⟩, closer_of_next rfl rfl⟩

private theorem Serving.closeFinal {fd : Int}
    (serving : Serving limit final command (handler.goto (.call .closeFinal fd)) process) :
    Advances self limit final command (handler.goto (.call .closeFinal fd)) process outcome := by
  rcases serving.represents with ⟨history, represents, bounded, total⟩
  rcases Process.sysClose_frame outcome fd process with ⟨sameLock, _, sameSystem⟩
  exact ⟨.used .closeFinal fd (process.sysClose outcome fd).1, handler.goto (.returned true),
    (process.sysClose outcome fd).2, rfl,
    ⟨⟨history, sameSystem ▸ represents, sameSystem ▸ bounded, total⟩, serving.verdict,
      serving.branch, fun _ => sameLock.trans (serving.unlocked rfl), rfl, serving.delivers⟩,
    closer_of_next rfl rfl⟩

/-- Every step of a handler that has not returned brings its end closer. -/
private theorem Serving.advances {pc : Pc}
    (serving : Serving limit final command (handler.goto pc) process)
    (unfinished : ∀ ok, pc ≠ .returned ok)
    (succeeds : Succeeds (handler.goto pc, process) outcome) :
    Advances self limit final command (handler.goto pc) process outcome := by
  rcases succeeds with ⟨works, granted⟩
  cases pc with
  | recv => exact serving.recv works
  | openFile site => exact serving.openFile works granted
  | assign site fd => exact serving.assign
  | check site => exact serving.check
  | lock loop => exact serving.lock
  | load use => exact serving.load
  | call use fd =>
      cases use with
      | ioctl => exact serving.ioctl
      | write => exact serving.write works granted
      | closeData => exact serving.closeData
      | read => exact serving.read works granted
      | closeFinal => exact serving.closeFinal
  | unlock loop => exact serving.unlock
  | send => exact serving.send works granted
  | closeSocket => exact serving.closeSocket
  | complete => exact serving.complete
  | returned ok => exact absurd rfl (unfinished ok)

/-! ## Whole connections -/

theorem serving_start {history : List Byte} (represents : Represents process.system history)
    (unlocked : process.lock = none) (clientSocketFd : Nat) (chunks : List Chunk) :
    Serving process.system.heap.limit (history ++ suppliedBy clearedBuffer chunks)
      (endsWithCommand clearedBuffer chunks) (clientDataHandler clientSocketFd chunks) process where
  represents := ⟨history, represents, rfl, rfl⟩
  verdict := rfl
  branch := by rintro _ ⟨⟩
  unlocked _ := unlocked
  opened := trivial
  delivers := rfl

/-- Successful steps keep what is still to come. -/
theorem Serving.run {handler' : Handler} {process' : Process τ} {outcomes : List Outcome}
    {answers : List Answer} (serving : Serving limit final command handler process)
    (succeeds : Along (handlerStep self) Succeeds (handler, process) outcomes)
    (execution : run (handlerStep self) (handler, process) outcomes =
      some (answers, handler', process')) :
    Serving limit final command handler' process' := by
  let invariant (state : Handler × Process τ) : Prop := Serving limit final command state.1 state.2
  suffices preserved : ∀ state outcome answer state', invariant state → Succeeds state outcome →
      handlerStep self state outcome = some (answer, state') → invariant state' from
    invariant_of_along preserved serving succeeds execution
  rintro ⟨handler, process⟩ outcome answer ⟨handler', process'⟩ serving succeeds step
  have unfinished : ∀ ok, handler.pc ≠ .returned ok := by
    intro ok pc
    simp [handlerStep, pc] at step
  have advances : Advances self limit final command handler process outcome :=
    Serving.advances serving unfinished succeeds
  rcases advances with ⟨_, _, _, step', serving', _⟩
  cases Option.some.inj (step.symm.trans step')
  exact serving'

/-- A handler that has returned has supplied everything. -/
theorem Serving.returned {ok : Bool} (serving : Serving limit final command handler process)
    (returned : handler.pc = .returned ok) :
    ok = true ∧ process.lock = none ∧ Represents process.system final ∧
      (command = false → handler.sent = storedContent final) := by
  have here : handler = handler.goto (.returned ok) := by rw [← returned]; rfl
  rw [here] at serving
  rcases serving.represents with ⟨history, represents, bounded, total⟩
  refine ⟨serving.opened, serving.unlocked rfl, ?_, ?_⟩
  · rw [← total]
    exact (List.append_nil history).symm ▸ represents
  · intro plain
    exact serving.delivers (serving.verdict.trans plain)

/-- An upper bound of the steps of a handler that runs alone. -/
def serviceBound (history : List Byte) (chunks : List Chunk) : Nat :=
  5 * (storedContent (history ++ suppliedBy clearedBuffer chunks)).length +
    10 * chunks.length + 14

theorem returned_of_rank_eq_zero {length : Nat} (zero : handler.rank length process = 0) :
    ∃ ok, handler.pc = .returned ok := by
  unfold Handler.rank at zero
  cases pc : handler.pc with
  | returned ok => exact ⟨ok, rfl⟩
  | recv => simp [pc] at zero
  | openFile site => cases site <;> simp [pc] at zero
  | assign site fd => cases site <;> simp [pc] at zero
  | check site => cases site <;> simp [pc] at zero
  | lock loop => cases loop <;> simp [pc] at zero
  | load use => cases use <;> simp [pc] at zero
  | call use fd => cases use <;> simp [pc] at zero
  | unlock loop =>
      by_cases none : handler.sendBuffer = [] <;> cases loop <;> simp [pc, none] at zero
  | send => by_cases none : handler.sendBuffer = [] <;> simp [pc, none] at zero
  | closeSocket => simp [pc] at zero
  | complete => simp [pc] at zero

/-- A connection with a newline is served. -/
theorem serves {history : List Byte} (represents : Represents process.system history)
    (unlocked : process.lock = none) {clientSocketFd : Nat} {chunks : List Chunk}
    {outcomes : List Outcome} (ends : ∃ chunk ∈ chunks, newline ∈ chunk.1)
    (succeeds : Along (handlerStep self) Succeeds
      (clientDataHandler clientSocketFd chunks, process) outcomes)
    (enough : serviceBound history chunks ≤ outcomes.length) :
    ∃ used unused answers handler' process', outcomes = used ++ unused ∧
      Transition.run (handlerStep self) (clientDataHandler clientSocketFd chunks, process) used =
        some (answers, handler', process') ∧
      handler'.pc = .returned true ∧
      Serving process.system.heap.limit (history ++ suppliedBy clearedBuffer chunks)
        (endsWithCommand clearedBuffer chunks) handler' process' := by
  let invariant (state : Handler × Process τ) : Prop :=
    Serving process.system.heap.limit (history ++ suppliedBy clearedBuffer chunks)
      (endsWithCommand clearedBuffer chunks) state.1 state.2 ∧ state.1.Ends
  let done (state : Handler × Process τ) : Prop := state.1.pc = .returned true
  let rank (state : Handler × Process τ) : Nat := state.1.rank
    (storedContent (history ++ suppliedBy clearedBuffer chunks)).length state.2
  have finished : ∀ state, invariant state → rank state = 0 → done state := by
    rintro ⟨handler, process⟩ ⟨serving, _⟩ zero
    rcases returned_of_rank_eq_zero zero with ⟨ok, pc⟩
    rcases serving.returned pc with ⟨rfl, _⟩
    exact pc
  have progress : ∀ state outcome, invariant state → ¬done state → Succeeds state outcome →
      ∃ answer state', handlerStep self state outcome = some (answer, state') ∧
        invariant state' ∧ rank state' < rank state := by
    rintro ⟨handler, process⟩ outcome ⟨serving, ends⟩ unfinished succeeds
    have unfinished' : ∀ ok, handler.pc ≠ .returned ok := by
      intro ok returned
      exact unfinished (returned.trans (congrArg _ (serving.returned returned).1))
    have advances : Advances self _ _ _ handler process outcome :=
      serving.advances unfinished' succeeds
    rcases advances with ⟨answer, handler', process', step, serving', closer⟩
    rcases closer ends with ⟨ends', lower⟩
    exact ⟨answer, (handler', process'), step, ⟨serving', ends'⟩, lower⟩
  have initial : invariant (clientDataHandler clientSocketFd chunks, process) :=
    ⟨serving_start represents unlocked clientSocketFd chunks, ends⟩
  rcases reaches_of_rank invariant done rank finished progress initial succeeds enough with
    ⟨used, unused, answers, ⟨handler', process'⟩, split, execution, ⟨serving, _⟩, returned⟩
  exact ⟨used, unused, answers, handler', process', split, execution, returned, serving⟩

end

end Aesd.Server
