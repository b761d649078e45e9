import Aesd.Driver.SlotOrder
import Aesd.Server.Connection
import Aesd.Server.Packets
import Aesd.Server.SeekParsing

/-!
# The server as a line service

Seen from its clients, the server stores the lines of one word.  A connection that sends
a line is sent what is stored; one that sends a seek command is sent the same from the
byte on that the command names.  Connections that are served one after another, on a
device in any state, are served as this service serves them.
-/

namespace Aesd.Server

open Aesd.Driver Aesd.Transition Aesd.Word

/-! ## The service -/

instance (arg : AesdSeekto) (lines : List (List Byte)) : Decidable (arg.InRange lines) :=
  decidable_of_iff _ (arg.inRange_iff_lt lines).symm

/-- What a client asks for: its bytes are stored, and it may have sent a command. -/
structure Request where
  supplied : List Byte
  command : Option AesdSeekto

/-- Where the response to a command starts; a command that is refused leaves the start. -/
def seekPosition (history : List Byte) (arg : AesdSeekto) : Nat :=
  if arg.InRange (slotLines (committedLines history)) then
    arg.position (slotLines (committedLines history))
  else
    0

/-- The response to a command, or to its absence. -/
def respond (history : List Byte) : Option AesdSeekto → List Byte
  | none => storedContent history
  | some arg => (storedContent history).drop (seekPosition history arg)

/-- The service stores what the client has supplied, and answers with what is stored. -/
def lineServiceStep : Machine (List Byte) Request (List Byte)
  | history, request =>
      some (respond (history ++ request.supplied) request.command, history ++ request.supplied)

/-! ## What a connection asks for -/

/-- The chunk that ends the receive loop is the seek command with this argument. -/
def SeekLine (arg : AesdSeekto) : List Chunk → Prop
  | [] => False
  | chunk :: chunks =>
      if newline ∈ chunk.1 then IsSeekCommand chunk.1 arg else SeekLine arg chunks

/-- The connection asks for the request: its stream has a newline, and ends with the
command of the request, or with none. -/
def Connection.Asks {τ : Type} (connection : Connection τ) (request : Request) : Prop :=
  request.supplied = suppliedBy clearedBuffer connection.chunks ∧
    match request.command with
    | none => endsWithCommand clearedBuffer connection.chunks = false
    | some arg => SeekLine arg connection.chunks

/-- With a command at the end of the stream, the last iteration takes the seek branch. -/
theorem SeekLine.endsWithCommand {arg : AesdSeekto} {chunks : List Chunk}
    (line : SeekLine arg chunks) (receiveBuffer : List Byte) :
    endsWithCommand receiveBuffer chunks = true := by
  induction chunks generalizing receiveBuffer with
  | nil => exact line.elim
  | cons chunk chunks ih =>
      simp only [SeekLine] at line
      simp only [Server.endsWithCommand]
      split at line
      · rename_i ends
        rcases line.isPrefix with ⟨rest, split⟩
        rw [if_pos ends, startsWithIoctlStr, receiveInto, ← split, List.append_assoc,
          List.take_left]
        exact beq_self_eq_true _
      · rename_i goesOn
        rw [if_neg goesOn]
        exact ih line _

/-- A newline ends the last numeral, whatever follows the chunk in memory. -/
theorem IsSeekCommand.readsAs {chunk : List Byte} {arg : AesdSeekto}
    (seek : IsSeekCommand chunk arg) (ends : newline ∈ chunk) (following : List Byte) :
    ReadsAs chunk following arg := by
  rcases seek with ⟨writeCmd, writeCmdOffset, rest, seek⟩
  refine ⟨writeCmd, writeCmdOffset, rest, seek, ?_⟩
  have noDigit {numeral : List Byte} (digits : ∀ digit ∈ numeral, isDigit digit = true) :
      newline ∉ numeral := fun member => absurd (digits newline member) (by decide)
  have later : newline ∈ rest := by
    rw [seek.split, List.mem_append, List.mem_append, List.mem_cons, List.mem_append] at ends
    rcases ends with text | command | comma | offset | later
    · exact absurd text (by decide +kernel)
    · exact absurd command (noDigit seek.command.digits)
    · exact absurd comma (by decide)
    · exact absurd offset (noDigit seek.offset.digits)
    · exact later
  rcases List.exists_cons_of_ne_nil (List.ne_nil_of_mem later) with ⟨byte, others, rfl⟩
  rw [List.cons_append, List.takeWhile_cons_of_neg (by simp [seek.ends byte rfl]),
    List.append_nil, seek.offset.value]
  exact storeDecimal_toNat _

/-! ## The command of a handler -/

/-- The handler is going to end its receive loop with the command. -/
def Handler.WillSeek (arg : AesdSeekto) (handler : Handler) : Prop :=
  match handler.pc.stage with
  | .receiving => SeekLine arg handler.incoming
  | .responding => True
  | _ =>
      if newline ∈ handler.received then handler.ioctlCheck = true ∧ handler.aesdSeektoData = arg
      else SeekLine arg handler.incoming

theorem willSeek_receive {handler : Handler} {arg : AesdSeekto}
    (line : SeekLine arg handler.incoming) (outcome : Outcome) :
    if newline ∈ (handler.receive outcome).received then
      (handler.receive outcome).ioctlCheck = true ∧
        (handler.receive outcome).aesdSeektoData = arg
    else SeekLine arg (handler.receive outcome).incoming := by
  cases incoming : handler.incoming with
  | nil =>
      rw [incoming] at line
      exact line.elim
  | cons chunk chunks =>
      have rest : (handler.receive outcome).incoming = chunks := by
        simp [Handler.receive, incoming]
      simp only [incoming, SeekLine] at line
      simp only [receive_received, incoming, List.head?_cons, Option.map_some, Option.getD_some,
        rest]
      split at line
      · rename_i ends
        rw [if_pos ends]
        have asked : (handler.receive outcome).request = some arg :=
          ((request_receive_iff handler outcome incoming).mpr
            (fun _ => ⟨arg, line.readsAs ends _⟩) arg).mpr line
        unfold Handler.request at asked
        split at asked
        · rename_i check
          exact ⟨check, Option.some.inj asked⟩
        · contradiction
      · rename_i goesOn
        rwa [if_neg goesOn]

section

variable {τ : Type} {self : τ} {outcome : Outcome} {handler handler' : Handler}
  {process process' : Process τ} {answer : Answer} {arg : AesdSeekto} {limit : Nat}
  {final : List Byte}

theorem HandlerStep.willSeek
    (step : HandlerStep self outcome handler process answer handler' process')
    (will : handler.WillSeek arg) : handler'.WillSeek arg := by
  unfold Handler.WillSeek at will ⊢
  cases step.stageStep with
  | receives pc =>
      rw [pc] at will
      have received := willSeek_receive will outcome
      cases stage : (handler.receive outcome).pc.stage with
      | receiving =>
          rcases pc_receive handler outcome with next | next
          · simp [next, Pc.stage] at stage
          · simp [next, Pc.stage] at stage
      | writing => exact received
      | iterating => exact received
      | responding => trivial
  | writes pc =>
      rw [pc] at will
      exact will
  | keeps here stage =>
      rw [here, stage] at will
      exact will
  | iterates stage absent =>
      rw [stage] at will
      simp only [if_neg absent] at will
      exact will
  | responds stage =>
      rw [stage]
      trivial

/-! ## The slots -/

theorem HandlerStep.bufferStep (intact : process.Intact)
    (step : HandlerStep self outcome handler process answer handler' process') :
    BufferStep process.system.device process'.system.device := by
  have same (device : process'.system.device = process.system.device) :
      BufferStep process.system.device process'.system.device :=
    .keeps (by rw [device]) (by rw [device])
  have writes {fd ret : Int}
      (call : process.sysWrite outcome fd handler.received = some (ret, process')) :
      BufferStep process.system.device process'.system.device := by
    rcases Process.sysWrite_cases call with
      ⟨_, rfl⟩ | ⟨_, _, result, system', written, _, rfl⟩
    · exact .keeps rfl rfl
    · have run : WriteCall.run ⟨outcome.write, some fd.toNat, some handler.received⟩
          process.system = some (result, system') := written
      exact WriteCall.bufferStep run
  have reads {fd ret : Int} {bytes : List Byte}
      (call : process.sysRead outcome fd bufLen = some (ret, bytes, process')) :
      process'.system.device = process.system.device := by
    rcases intact with ⟨_, _, carries⟩
    rcases Process.sysRead_moves carries call with ⟨fPos, rfl⟩
    rfl
  cases step with
  | openFile site fd _ pc call =>
      rcases Process.sysOpen_cases call with ⟨_, _, rfl⟩ | ⟨_, _, _, rfl⟩ <;> exact same rfl
  | writeFails fd _ pc call => exact writes call
  | write fd ret _ pc call => exact writes call
  | readFails fd bytes _ pc call => exact same (reads call)
  | read fd ret bytes _ pc call => exact same (reads call)
  | ioctl fd pc =>
      rcases process.sysIoctl_moves outcome fd handler.aesdSeektoData with ⟨fPos, moved⟩
      exact same (by rw [moved])
  | closeData fd pc => exact same (by rw [(Process.sysClose_frame ..).2.2])
  | closeFinal fd pc => exact same (by rw [(Process.sysClose_frame ..).2.2])
  | _ => exact same rfl

/-- A step that gives bytes to the device gives what a write consumes. -/
theorem HandlerStep.gives_consumed {history : List Byte}
    (represents : Represents process.system history) (keeps : handler.KeepsLine process outcome)
    (step : HandlerStep self outcome handler process answer handler' process') :
    handler.gives answer = [] ∨ handler.gives answer = consumed handler.received := by
  cases step with
  | write fd ret _ pc call works =>
      right
      have kept := keeps fd (by rw [pc]; rfl)
      rcases Process.sysWrite_represents represents kept call with ⟨failed, _⟩ | ⟨rfl, _⟩
      · exact absurd failed works
      · exact Handler.gives_write handler fd
  | writeFails fd _ pc call => exact Or.inl rfl
  | _ => exact Or.inl rfl

theorem keepsLine_of_succeeds (succeeds : Succeeds (handler, process) outcome) :
    handler.KeepsLine process outcome := by
  intro fd writes refused
  cases pc : handler.pc with
  | call use fd' =>
      cases use with
      | write =>
          have granted := succeeds.2
          simp only [pc, Handler.CallSucceeds] at granted
          simp only [pc, Pc.writes, Option.mem_def, Option.some.injEq] at writes
          subst writes
          exact refused.2.2.2.2 granted.2.2.2
      | _ => simp [pc, Pc.writes] at writes
  | _ => simp [pc, Pc.writes] at writes

/-- The device has what the handler does not still supply, with its lines in their slots. -/
def Placed (final : List Byte) (handler : Handler) (process : Process τ) : Prop :=
  ∃ history, Represents process.system history ∧ history ++ handler.due = final ∧
    InSlots process.system.device.buffer (committedLines history)

/-- The lines stay in their slots along the steps of a handler that goes on. -/
theorem Placed.step (placed : Placed final handler process)
    (keeps : handler.KeepsLine process outcome) (alive : handler'.pc ≠ .returned false)
    (step : HandlerStep self outcome handler process answer handler' process') :
    Placed final handler' process' := by
  rcases placed with ⟨history, represents, total, slots⟩
  have represents' := step.represents represents keeps
  have due := step.due_eq represents keeps alive
  refine ⟨_, represents', by rw [List.append_assoc, ← due, total], ?_⟩
  apply slots.bufferStep represents.toCarries represents'.toCarries _
    (step.bufferStep ⟨_, _, represents.toCarries⟩)
  rcases step.gives_consumed represents keeps with nothing | given
  · rw [nothing, List.append_nil]
    exact Or.inl rfl
  · rw [given]
    exact committedLines_grows history handler.received

/-! ## The response to a command -/

/-- The file that answers the command is at its start until the command moves it; then
what has been sent and what is left to read make up the response. -/
def Handler.Answers (content : List Byte) (position : Nat) (handler : Handler)
    (process : Process τ) : Prop :=
  match handler.pc with
  | .assign .seek fd | .call .ioctl fd => process.system.fPos fd.toNat = 0
  | .check .seek | .load .ioctl => process.system.fPos process.dataFileDescriptor.toNat = 0
  | .openFile .response | .assign .response _ | .check .response => False
  | .lock .respond | .load .read | .call .read _ =>
      handler.sent ++ content.drop process.readPosition = content.drop position
  | .unlock .respond | .send =>
      handler.sent ++ handler.sendBuffer ++ content.drop process.readPosition =
          content.drop position ∧
        (handler.sendBuffer = [] → content.length ≤ process.readPosition)
  | .closeSocket | .complete | .load .closeFinal | .call .closeFinal _ | .returned _ =>
      handler.sent = content.drop position
  | _ => True

/-- The state of a handler that is going to answer a command, and runs alone. -/
structure Seeking (final : List Byte) (arg : AesdSeekto) (handler : Handler)
    (process : Process τ) : Prop where
  placed : Placed final handler process
  will : handler.WillSeek arg
  answers : handler.Answers (storedContent final) (seekPosition final arg) process

/-- The command moves the file at its start to where the response starts. -/
theorem sysIoctl_seekPosition {fd : Int} (arg : AesdSeekto) (works : outcome.fails = false)
    (granted : outcome.ioctl = .success) (opened : process.dataFile fd ≠ none)
    (start : process.system.fPos fd.toNat = 0) {history : List Byte}
    (slots : InSlots process.system.device.buffer (committedLines history)) :
    toSize ((process.sysIoctl outcome fd arg).2.system.fPos fd.toNat) =
      seekPosition history arg := by
  have call : (process.sysIoctl outcome fd arg).2.system =
      (aesdIoctl .success fd.toNat aesdcharIocseekto arg process.system).2 := by
    simp [Process.sysIoctl, works, granted, opened]
  rw [call, seekPosition]
  split
  · rename_i inRange
    have small := Nat.lt_trans inRange.position_lt slots.length_flatten_lt
    rw [slots.aesdIoctl_eq fd.toNat inRange]
    simp only [Function.update_self]
    exact toSize_natCast (Nat.lt_trans small (by decide))
  · rename_i outside
    rw [aesdIoctl_of_not_accepts fd.toNat (mt (slots.inRange_iff arg).mpr outside), start]
    rfl

/-- The handler has not given up. -/
private theorem Serving.alive {command : Bool}
    (serving : Serving limit final command handler process) :
    handler.pc ≠ .returned false := by
  intro returned
  exact absurd (serving.returned returned).1 Bool.false_ne_true

/-- What a successful read delivers is the front of what was left to read. -/
private theorem Seeking.read {fd ret : Int} {bytes : List Byte}
    (serving : Serving limit final true handler process)
    (seeking : Seeking final arg handler process) (pc : handler.pc = .call .read fd)
    (granted : outcome.read = .success)
    (call : process.sysRead outcome fd bufLen = some (ret, bytes, process'))
    (works : ret ≠ -1) :
    handler.sent ++ bytes ++ (storedContent final).drop process'.readPosition =
        (storedContent final).drop (seekPosition final arg) ∧
      (bytes = [] → (storedContent final).length ≤ process'.readPosition) := by
  rcases serving.represents with ⟨history, represents, _, total⟩
  have whole : history = final := by
    rw [← total, Handler.due_of_responding (congrArg Pc.stage pc), List.append_nil]
  subst whole
  have opened := serving.opened
  have left := seeking.answers
  simp only [Handler.Opened, pc] at opened
  simp only [Handler.Answers, pc] at left
  rcases opened with ⟨rfl, _⟩
  rcases Process.sysRead_cases call with ⟨failed, _⟩ | ⟨_, _, result, system', delivered, _, rfl⟩
  · exact absurd failed works
  · rcases represents.read_splits process.dataFileDescriptor.toNat
      (show 0 < bufLen by decide) with ⟨bytes', success, moved, split, empty_iff⟩
    rw [granted] at delivered
    cases Option.some.inj (delivered.symm.trans success)
    have position : Process.readPosition
        { process with
          system := process.system.advanced process.dataFileDescriptor.toNat bytes.length } =
          process.readPosition + bytes.length := moved
    rw [position]
    constructor
    · rw [List.append_assoc, ← left]
      exact congrArg (handler.sent ++ ·) split.symm
    · intro none
      exact Nat.le_add_right_of_le (empty_iff.mp none)

/-- The open for a seek command leaves the file at its start. -/
private theorem Seeking.openFile {site : OpenSite} {fd : Int}
    (seeking : Seeking final arg handler process) (works : outcome.fails = false)
    (pc : handler.pc = .openFile site)
    (call : process.sysOpen outcome site.access = some (fd, process')) :
    (handler.goto (.assign site fd)).Answers (storedContent final) (seekPosition final arg)
      process' := by
  have before := seeking.answers
  cases site with
  | seek =>
      rcases Process.sysOpen_cases call with ⟨fails, _⟩ | ⟨_, _, rfl, rfl⟩
      · exact absurd (works.symm.trans fails) Bool.false_ne_true
      · exact Function.update_self ..
  | data => trivial
  | response => simp only [Handler.Answers, pc] at before

private theorem Seeking.assign {site : OpenSite} {fd : Int}
    (seeking : Seeking final arg handler process) (pc : handler.pc = .assign site fd) :
    (handler.goto (.check site)).Answers (storedContent final) (seekPosition final arg)
      { process with dataFileDescriptor := fd } := by
  have before := seeking.answers
  cases site with
  | seek =>
      simp only [Handler.Answers, pc] at before
      exact before
  | data => trivial
  | response => simp only [Handler.Answers, pc] at before

private theorem Seeking.check {site : OpenSite} (seeking : Seeking final arg handler process)
    (pc : handler.pc = .check site) :
    (handler.goto site.next).Answers (storedContent final) (seekPosition final arg) process := by
  have before := seeking.answers
  cases site with
  | seek =>
      simp only [Handler.Answers, pc] at before
      exact before
  | data => trivial
  | response => simp only [Handler.Answers, pc] at before

private theorem Seeking.load {use : Use} (seeking : Seeking final arg handler process)
    (pc : handler.pc = .load use) :
    (handler.goto (.call use process.dataFileDescriptor)).Answers (storedContent final)
      (seekPosition final arg) process := by
  have before := seeking.answers
  cases use with
  | ioctl =>
      simp only [Handler.Answers, pc] at before
      exact before
  | read =>
      simp only [Handler.Answers, pc] at before
      exact before
  | closeFinal =>
      simp only [Handler.Answers, pc] at before
      exact before
  | write => trivial
  | closeData => trivial

/-- The command with its newline moves the file, and its response is what is left to read. -/
private theorem Seeking.ioctl {fd : Int} (serving : Serving limit final true handler process)
    (seeking : Seeking final arg handler process) (succeeds : Succeeds (handler, process) outcome)
    (pc : handler.pc = .call .ioctl fd) :
    handler.afterIteration.Answers (storedContent final) (seekPosition final arg)
      (process.sysIoctl outcome fd handler.aesdSeektoData).2 := by
  rcases seeking.placed with ⟨history, represents, total, slots⟩
  have before := seeking.answers
  have opened := serving.opened
  have asked := seeking.will
  simp only [Handler.Answers, pc] at before
  simp only [Handler.Opened, pc] at opened
  simp only [Handler.WillSeek, pc, Pc.stage] at asked
  have unsent : handler.sent = [] := by
    have delivers := serving.delivers
    simpa only [Handler.Delivers, pc] using delivers
  by_cases found : newline ∈ handler.received
  · rw [if_pos found] at asked
    have next : handler.afterIteration = handler.goto (.lock .respond) := by
      simp [Handler.afterIteration, found, asked.1]
    have nothing : handler.due = [] := by
      simp [Handler.due, pc, Pc.stage, Handler.later, found]
    rw [nothing, List.append_nil] at total
    subst total
    have granted : outcome.ioctl = .success := by
      have granted := succeeds.2
      simpa only [pc, Handler.CallSucceeds] using granted
    have start := sysIoctl_seekPosition handler.aesdSeektoData succeeds.1 granted
      (by rw [opened.2]; exact Option.some_ne_none _) before slots
    have global := (Process.sysIoctl_frame outcome fd handler.aesdSeektoData process).2.1
    have position : (process.sysIoctl outcome fd handler.aesdSeektoData).2.readPosition =
        seekPosition history arg := by
      rw [Process.readPosition, global, ← opened.1, start, asked.2]
    rw [next]
    show handler.sent ++ (storedContent history).drop _ = _
    rw [unsent, position, List.nil_append]
  · have next : handler.afterIteration = handler.goto .recv := by
      simp [Handler.afterIteration, found]
    rw [next]
    trivial

/-- The chunk with the newline is a command, so it is not one that is written. -/
private theorem Seeking.closeData {fd : Int} (serving : Serving limit final true handler process)
    (seeking : Seeking final arg handler process) (pc : handler.pc = .call .closeData fd) :
    handler.afterIteration.Answers (storedContent final) (seekPosition final arg) process' := by
  have asked := seeking.will
  have plain : handler.ioctlCheck = false := serving.branch false (by rw [pc]; rfl)
  simp only [Handler.WillSeek, pc, Pc.stage] at asked
  by_cases found : newline ∈ handler.received
  · rw [if_pos found, plain] at asked
    exact absurd asked.1 Bool.false_ne_true
  · have next : handler.afterIteration = handler.goto .recv := by
      simp [Handler.afterIteration, found]
    rw [next]
    trivial

/-- What has been read is sent as a whole. -/
private theorem Seeking.send (seeking : Seeking final arg handler process)
    (succeeds : Succeeds (handler, process) outcome) (pc : handler.pc = .send) :
    Handler.Answers (storedContent final) (seekPosition final arg)
      { handler with
        pc := if handler.sendBuffer = [] then .closeSocket else .lock .respond
        sent := handler.sent ++
          handler.sendBuffer.take (min outcome.accepted handler.sendBuffer.length) }
      process := by
  have before := seeking.answers
  simp only [Handler.Answers, pc] at before
  have whole : min outcome.accepted handler.sendBuffer.length = handler.sendBuffer.length := by
    have accepts := succeeds.2
    simp only [pc, Handler.CallSucceeds] at accepts
    exact Nat.min_eq_right accepts
  rw [whole, List.take_length]
  by_cases none : handler.sendBuffer = []
  · rw [if_pos none]
    have all := before.1
    rwa [List.drop_of_length_le (before.2 none), List.append_nil] at all
  · rw [if_neg none]
    exact before.1

/-- Successful steps keep the response to the command. -/
theorem Seeking.step (serving : Serving limit final true handler process)
    (serving' : Serving limit final true handler' process')
    (seeking : Seeking final arg handler process)
    (succeeds : Succeeds (handler, process) outcome)
    (step : HandlerStep self outcome handler process answer handler' process') :
    Seeking final arg handler' process' := by
  have placed := seeking.placed.step (keepsLine_of_succeeds succeeds) serving'.alive step
  suffices answers : handler'.Answers (storedContent final) (seekPosition final arg) process' from
    ⟨placed, step.willSeek seeking.will, answers⟩
  have before := seeking.answers
  have works := succeeds.1
  cases step with
  | recvFails pc fails => exact absurd (works.symm.trans fails) Bool.false_ne_true
  | recv pc =>
      unfold Handler.Answers
      rcases pc_receive handler outcome with branch | branch <;> rw [branch] <;> trivial
  | openFile site fd _ pc call => exact seeking.openFile works pc call
  | assign site fd pc => exact seeking.assign pc
  | check site pc =>
      rcases site.afterCheck_cases process.dataFileDescriptor with ⟨_, _, failed⟩ | ⟨_, next⟩
      · exact absurd failed serving'.alive
      · rw [next]
        exact seeking.check pc
  | lock loop pc =>
      cases loop with
      | receive => trivial
      | respond =>
          simp only [Handler.Answers, pc] at before
          exact before
  | load use pc => exact seeking.load pc
  | ioctl fd pc => exact seeking.ioctl serving succeeds pc
  | writeFails fd _ pc call => exact absurd rfl serving'.alive
  | write fd ret _ pc call => trivial
  | closeData fd pc => exact seeking.closeData serving pc
  | readFails fd bytes _ pc call => exact absurd rfl serving'.alive
  | read fd ret bytes _ pc call delivered =>
      have granted : outcome.read = .success := by
        have granted := succeeds.2
        simpa only [pc, Handler.CallSucceeds] using granted
      have answered := seeking.read serving pc granted call delivered
      exact answered
  | unlock loop pc =>
      cases loop with
      | receive => trivial
      | respond =>
          simp only [Handler.Answers, pc] at before
          exact before
  | sendFails pc fails => exact absurd (works.symm.trans fails) Bool.false_ne_true
  | send pc => exact seeking.send succeeds pc
  | closeSocket pc =>
      simp only [Handler.Answers, pc] at before
      exact before
  | complete pc =>
      simp only [Handler.Answers, pc] at before
      exact before
  | closeFinal fd pc =>
      simp only [Handler.Answers, pc] at before
      exact before

/-! ## Whole connections -/

theorem Serving.step {command : Bool} (serving : Serving limit final command handler process)
    (succeeds : Succeeds (handler, process) outcome)
    (step : handlerStep self (handler, process) outcome = some (answer, handler', process')) :
    Serving limit final command handler' process' := by
  have along : Along (handlerStep self) Succeeds (handler, process) [outcome] :=
    ⟨succeeds, fun _ _ _ => trivial⟩
  exact serving.run along
    ((run_cons_eq_some_iff ..).mpr ⟨answer, (handler', process'), [], step, rfl, rfl⟩)

/-- A handler that has returned has left each line in its slot. -/
theorem Placed.run {command : Bool} {outcomes : List Outcome} {answers : List Answer}
    (placed : Placed final handler process) (serving : Serving limit final command handler process)
    (succeeds : Along (handlerStep self) Succeeds (handler, process) outcomes)
    (execution : Transition.run (handlerStep self) (handler, process) outcomes =
      some (answers, handler', process')) : Placed final handler' process' := by
  let invariant (state : Handler × Process τ) : Prop :=
    Serving limit final command state.1 state.2 ∧ Placed final state.1 state.2
  have preserved : ∀ state outcome answer state', invariant state → Succeeds state outcome →
      handlerStep self state outcome = some (answer, state') → invariant state' := by
    rintro ⟨handler, process⟩ outcome answer ⟨handler', process'⟩ ⟨serving, placed⟩ succeeds step
    have serving' := Serving.step serving succeeds step
    exact ⟨serving', Placed.step placed (keepsLine_of_succeeds succeeds) serving'.alive
      (handlerStep_cases step)⟩
  exact (invariant_of_along preserved ⟨serving, placed⟩ succeeds execution).2

/-- A handler that has answered a command has sent what is stored from its byte on. -/
theorem Seeking.run {outcomes : List Outcome} {answers : List Answer}
    (serving : Serving limit final true handler process)
    (seeking : Seeking final arg handler process)
    (succeeds : Along (handlerStep self) Succeeds (handler, process) outcomes)
    (execution : Transition.run (handlerStep self) (handler, process) outcomes =
      some (answers, handler', process'))
    (returned : handler'.pc = .returned true) :
    handler'.sent = (storedContent final).drop (seekPosition final arg) := by
  let invariant (state : Handler × Process τ) : Prop :=
    Serving limit final true state.1 state.2 ∧ Seeking final arg state.1 state.2
  have preserved : ∀ state outcome answer state', invariant state → Succeeds state outcome →
      handlerStep self state outcome = some (answer, state') → invariant state' := by
    rintro ⟨handler, process⟩ outcome answer ⟨handler', process'⟩ ⟨serving, seeking⟩ succeeds step
    have serving' := Serving.step serving succeeds step
    exact ⟨serving', Seeking.step serving serving' seeking succeeds (handlerStep_cases step)⟩
  have answered := (invariant_of_along preserved ⟨serving, seeking⟩ succeeds execution).2.answers
  simpa only [Handler.Answers, returned] using answered

/-- A connection is served as the service serves its request. -/
theorem Connection.Asks.served {connection : Connection τ} {request : Request}
    {history sent : List Byte} (asks : connection.Asks request)
    (represents : Represents process.system history) (unlocked : process.lock = none)
    (slots : InSlots process.system.device.buffer (committedLines history))
    (succeeds : connection.Succeeds process)
    (served : serveStep process connection = some (sent, process')) :
    sent = respond (history ++ request.supplied) request.command ∧
      Represents process'.system (history ++ request.supplied) ∧ process'.lock = none ∧
      InSlots process'.system.device.buffer (committedLines (history ++ request.supplied)) := by
  rcases asks with ⟨supplied, asked⟩
  rcases serveStep_eq_some_iff.mp served with ⟨answers, handler, execution, returned, rfl⟩
  have serving := serving_start represents unlocked connection.clientSocketFd connection.chunks
  rcases (serving.run succeeds execution).returned returned with ⟨_, unlocked', final, content⟩
  have placed : Placed (history ++ suppliedBy clearedBuffer connection.chunks)
      (clientDataHandler connection.clientSocketFd connection.chunks) process :=
    ⟨history, represents, rfl, slots⟩
  rcases placed.run serving succeeds execution with ⟨history', _, total, slots'⟩
  rw [Handler.due_of_responding (congrArg Pc.stage returned), List.append_nil] at total
  subst total
  rw [supplied]
  refine ⟨?_, final, unlocked', slots'⟩
  cases command : request.command with
  | none =>
      rw [command] at asked
      exact content asked
  | some arg =>
      rw [command] at asked
      have ends : endsWithCommand clearedBuffer connection.chunks = true :=
        SeekLine.endsWithCommand asked clearedBuffer
      rw [ends] at serving
      exact Seeking.run serving ⟨placed, asked, trivial⟩ succeeds execution returned

end

/-- Connections that are served one after another, on a device that file operations without
a refused enlargement have left and with the mutex free, are served as the line service
serves their requests, as long as no call fails and each send takes all it is given: each
line is sent what is then stored, and each seek command the same from the byte on that the
command names in the slots. -/
theorem server_refines_line_service {τ : Type} (kmallocMaxSize : KmallocMaxSize)
    {operations : List Operation} {rets : List Int} {process process' : Process τ}
    (keeps : Along operationStep Operation.KeepsLine (aesdInitModule kmallocMaxSize) operations)
    (reached : run operationStep (aesdInitModule kmallocMaxSize) operations =
      some (rets, process.system))
    (unlocked : process.lock = none) {connections : List (Connection τ)}
    {requests : List Request} (asks : List.Forall₂ Connection.Asks connections requests)
    (succeeds : Along serveStep Connection.Succeeds process connections)
    {responses : List (List Byte)}
    (served : run serveStep process connections = some (responses, process')) :
    ∃ history, run lineServiceStep (accepted operations rets) requests =
        some (responses, history) ∧
      process'.system.entriesBytes = some (storedLines history) ∧
      process'.system.pendingBytes = some (pendingLine history) := by
  have initial := (represents_init kmallocMaxSize).inSlots_run inSlots_init keeps reached
  rw [List.nil_append] at initial
  clear keeps reached
  rcases initial with ⟨represents, slots⟩
  generalize accepted operations rets = history at represents slots
  induction asks generalizing process history responses with
  | nil =>
      cases served
      exact ⟨history, rfl, represents.entriesBytes, represents.pendingBytes⟩
  | @cons connection request connections requests first rest ih =>
      rcases (run_cons_eq_some_iff ..).mp served with
        ⟨sent, middle, remaining, step, later, rfl⟩
      rcases first.served represents unlocked slots succeeds.1 step with
        ⟨rfl, represents', unlocked', slots'⟩
      rcases ih unlocked' (succeeds.2 _ _ step) later _ represents' slots' with
        ⟨final, service, entries, pending⟩
      exact ⟨final, (run_cons_eq_some_iff ..).mpr ⟨_, _, remaining, rfl, service, rfl⟩,
        entries, pending⟩

/-- Two lines and the seek command `"AESDCHAR_IOCSEEKTO:1,1\n"`. -/
def linesAndSeek : List (Connection Unit) :=
  [⟨(), 3, [⟨[97, 10], by decide⟩], List.replicate 27 (.success 7)⟩,
    ⟨(), 3, [⟨[98, 99, 10], by decide⟩], List.replicate 32 (.success 7)⟩,
    ⟨(), 3, [⟨ioctlStr ++ [49, 44, 49, 10], by decide⟩], List.replicate 20 (.success 7)⟩]

/-- `"a\n"` and `"bc\n"` are stored, and the seek is answered with the rest of the second
line. -/
theorem server_refines_line_service_seek :
    ∃ (process' : Process Unit) (history : List Byte),
      run serveStep (Process.fresh Unit 4) linesAndSeek =
        some ([[97, 10], [97, 10, 98, 99, 10], [99, 10]], process') ∧
      run lineServiceStep [] [⟨[97, 10], none⟩, ⟨[98, 99, 10], none⟩, ⟨[], some ⟨1, 1⟩⟩] =
        some ([[97, 10], [97, 10, 98, 99, 10], [99, 10]], history) ∧
      process'.system.entriesBytes = some (storedLines history) := by
  have seek : IsSeekCommand (ioctlStr ++ [49, 44, 49, 10]) ⟨1, 1⟩ :=
    ⟨[49], [49], [10], rfl, ⟨by decide, by decide +kernel, by decide⟩,
      ⟨by decide, by decide +kernel, by decide⟩, by decide +kernel⟩
  have line : SeekLine ⟨1, 1⟩ [⟨ioctlStr ++ [49, 44, 49, 10], by decide⟩] := by
    rw [SeekLine, if_pos (by decide +kernel)]
    exact seek
  have asks : List.Forall₂ Connection.Asks linesAndSeek
      [⟨[97, 10], none⟩, ⟨[98, 99, 10], none⟩, ⟨[], some ⟨1, 1⟩⟩] := by
    refine .cons ⟨by decide +kernel, ?_⟩ (.cons ⟨by decide +kernel, ?_⟩
      (.cons ⟨by decide +kernel, line⟩ .nil))
    · exact show endsWithCommand clearedBuffer [⟨[97, 10], _⟩] = false by decide +kernel
    · exact show endsWithCommand clearedBuffer [⟨[98, 99, 10], _⟩] = false by decide +kernel
  have ran : (run serveStep (Process.fresh Unit 4) linesAndSeek).map Prod.fst =
      some [[97, 10], [97, 10, 98, 99, 10], [99, 10]] := by decide +kernel
  rcases Option.map_eq_some_iff.mp ran with ⟨⟨responses, process'⟩, served, rfl⟩
  have reached : run operationStep (aesdInitModule ⟨4096, by decide⟩) [] =
      some ([], (Process.fresh Unit 4).system) := rfl
  have keeps : Along operationStep Operation.KeepsLine (aesdInitModule ⟨4096, by decide⟩) [] :=
    trivial
  rcases server_refines_line_service ⟨4096, by decide⟩ keeps reached rfl asks
    (by decide +kernel) served with ⟨history, service, entries, _⟩
  exact ⟨process', history, served, service, entries⟩

end Aesd.Server
