import Aesd.Server.Process
import Aesd.Server.Request

/-!
# The client handler

`client_data_handler` as a machine whose steps are its system calls, its mutex
operations, and its assignments to and reads of the global
`dataFileDescriptor`; computations on local variables belong to the step before
them.  The device build of the server is modelled, without logging.  The client
is part of the handler's state: the chunks its socket will deliver, and the
bytes it has been sent.
-/

namespace Aesd.Server

open Aesd.Driver Aesd.Transition

/-- The places where the data file is opened: for a seek command, for received
data, and for the response. -/
inductive OpenSite where
  | seek
  | data
  | response
  deriving DecidableEq, Repr

def OpenSite.access : OpenSite → Access
  | .seek => .readWrite
  | .data => .readWrite
  | .response => .readOnly

/-- The uses of the data file. -/
inductive Use where
  | ioctl
  | write
  | closeData
  | read
  | closeFinal
  deriving DecidableEq, Repr

/-- The two loops of the handler, each with a section under the mutex. -/
inductive Loop where
  | receive
  | respond
  deriving DecidableEq, Repr

/-- What is done under the mutex. -/
def Loop.use : Loop → Use
  | .receive => .write
  | .respond => .read

/-- The next step of a handler.  `assign` holds the return value of an open that
is to be stored in the global, and `call` the value that was loaded from it. -/
inductive Pc where
  | recv
  | openFile (site : OpenSite)
  | assign (site : OpenSite) (fd : Int)
  | check (site : OpenSite)
  | lock (loop : Loop)
  | load (use : Use)
  | call (use : Use) (fd : Int)
  | unlock (loop : Loop)
  | send
  | closeSocket
  | complete
  | returned (ok : Bool)
  deriving DecidableEq, Repr

/-- The test of the global after an open: only the branch for received data goes
on after a failure. -/
def OpenSite.afterCheck (site : OpenSite) (dataFileDescriptor : Int) : Pc :=
  match site with
  | .seek => if dataFileDescriptor = -1 then .returned false else .load .ioctl
  | .data => .lock .receive
  | .response => if dataFileDescriptor = -1 then .returned false else .lock .respond

/-- What an open is for. -/
def OpenSite.next : OpenSite → Pc
  | .seek => .load .ioctl
  | .data => .lock .receive
  | .response => .lock .respond

/-- After the test of a failed open the handler gives up, unless it is the open for
received data. -/
theorem OpenSite.afterCheck_cases (site : OpenSite) (fd : Int) :
    fd = -1 ∧ site ≠ .data ∧ site.afterCheck fd = .returned false ∨
      (site = .data ∨ fd ≠ -1) ∧ site.afterCheck fd = site.next := by
  by_cases failed : fd = -1
  · cases site with
    | seek => exact .inl ⟨failed, by simp, if_pos failed⟩
    | data => exact .inr ⟨.inl rfl, rfl⟩
    | response => exact .inl ⟨failed, by simp, if_pos failed⟩
  · right
    cases site with
    | seek => exact ⟨.inr failed, if_neg failed⟩
    | data => exact ⟨.inl rfl, rfl⟩
    | response => exact ⟨.inr failed, if_neg failed⟩

def Loop.afterUnlock : Loop → Pc
  | .receive => .load .closeData
  | .respond => .send

structure Handler where
  pc : Pc
  receiveBuffer : List Byte
  bytesReceived : Nat
  /-- Whether `ioctl_check` is zero. -/
  ioctlCheck : Bool
  aesdSeektoData : AesdSeekto
  /-- The first `bytes_from_file` bytes of the send buffer. -/
  sendBuffer : List Byte
  clientSocketFd : Nat
  isThreadComplete : Bool
  incoming : List Chunk
  sent : List Byte

/-- What a step shows of itself. -/
inductive Answer where
  | silent
  | received (ret : Int)
  | opened (fd : Int)
  | used (use : Use) (fd : Int) (ret : Int)
  | sentBytes (ret : Int)
  deriving DecidableEq, Repr

/-- A handler thread at its start. -/
def clientDataHandler (clientSocketFd : Nat) (incoming : List Chunk) : Handler where
  pc := .recv
  receiveBuffer := clearedBuffer
  bytesReceived := 0
  ioctlCheck := false
  aesdSeektoData := ⟨0, 0⟩
  sendBuffer := []
  clientSocketFd := clientSocketFd
  isThreadComplete := false
  incoming := incoming
  sent := []

namespace Handler

def goto (handler : Handler) (pc : Pc) : Handler :=
  { handler with pc := pc }

/-- The part of the receive buffer that the last `recv` filled. -/
def received (handler : Handler) : List Byte :=
  handler.receiveBuffer.take handler.bytesReceived

/-- After an iteration of the receive loop: `memchr` ends the loop, and without a
seek command the data file is opened for the response. -/
def afterIteration (handler : Handler) : Handler :=
  handler.goto <|
    if newline ∈ handler.received then
      if handler.ioctlCheck then .lock .respond else .openFile .response
    else
      .recv

/-- Receive a chunk, or nothing once the client has closed its side, and decide
which branch the iteration takes. -/
def receive (handler : Handler) (outcome : Outcome) : Handler :=
  let chunk := (handler.incoming.head?.map Subtype.val).getD []
  let receiveBuffer := receiveInto handler.receiveBuffer chunk
  let ioctlCheck := startsWithIoctlStr receiveBuffer
  { handler with
    pc := .openFile (if ioctlCheck then .seek else .data)
    receiveBuffer := receiveBuffer
    bytesReceived := chunk.length
    ioctlCheck := ioctlCheck
    aesdSeektoData :=
      if ioctlCheck then
        sscanfSeekto ((receiveBuffer ++ outcome.beyond).takeWhile (· != 0)) outcome.aesdSeektoData
      else
        handler.aesdSeektoData
    incoming := handler.incoming.tail }

end Handler

theorem pc_afterIteration (handler : Handler) :
    handler.afterIteration.pc = .recv ∨ handler.afterIteration.pc = .lock .respond ∨
      handler.afterIteration.pc = .openFile .response := by
  simp only [Handler.afterIteration, Handler.goto]
  split
  · split
    · exact Or.inr (Or.inl rfl)
    · exact Or.inr (Or.inr rfl)
  · exact Or.inl rfl

theorem pc_receive (handler : Handler) (outcome : Outcome) :
    (handler.receive outcome).pc = .openFile .seek ∨
      (handler.receive outcome).pc = .openFile .data := by
  have branch : (handler.receive outcome).pc = .openFile
      (if (handler.receive outcome).ioctlCheck then .seek else .data) := rfl
  rw [branch]
  split
  · exact Or.inl rfl
  · exact Or.inr rfl

section

variable {τ : Type} (self : τ)

/-- A use of the data file through the descriptor that was loaded. -/
def useStep (use : Use) (fd : Int) (outcome : Outcome) (handler : Handler)
    (process : Process τ) : Option (Answer × Handler × Process τ) :=
  match use with
  | .ioctl =>
      let (ret, process) := process.sysIoctl outcome fd handler.aesdSeektoData
      some (.used .ioctl fd ret, handler.afterIteration, process)
  | .write =>
      (process.sysWrite outcome fd handler.received).map fun (ret, process) =>
        (.used .write fd ret,
          handler.goto (if ret = -1 then .returned false else .unlock .receive), process)
  | .closeData =>
      let (ret, process) := process.sysClose outcome fd
      some (.used .closeData fd ret, handler.afterIteration, process)
  | .read =>
      (process.sysRead outcome fd bufLen).map fun (ret, bytes, process) =>
        (.used .read fd ret,
          if ret = -1 then handler.goto (.returned false)
          else { handler with pc := .unlock .respond, sendBuffer := bytes }, process)
  | .closeFinal =>
      let (ret, process) := process.sysClose outcome fd
      some (.used .closeFinal fd ret, handler.goto (.returned true), process)

/-- One step of the handler of thread `self`. -/
def handlerStep : Machine (Handler × Process τ) Outcome Answer
  | (handler, process), outcome =>
      match handler.pc with
      | .recv =>
          if outcome.fails then
            some (.received (-1), handler.goto (.returned false), process)
          else
            let handler := handler.receive outcome
            some (.received handler.bytesReceived, handler, process)
      | .openFile site =>
          (process.sysOpen outcome site.access).map fun (fd, process) =>
            (.opened fd, handler.goto (.assign site fd), process)
      | .assign site fd =>
          some (.silent, handler.goto (.check site), { process with dataFileDescriptor := fd })
      | .check site =>
          some (.silent, handler.goto (site.afterCheck process.dataFileDescriptor), process)
      | .lock loop =>
          match process.lock with
          | some _ => none
          | none =>
              some (.silent, handler.goto (.load loop.use), { process with lock := some self })
      | .load use => some (.silent, handler.goto (.call use process.dataFileDescriptor), process)
      | .call use fd => useStep use fd outcome handler process
      | .unlock loop =>
          some (.silent, handler.goto loop.afterUnlock, { process with lock := none })
      | .send =>
          if outcome.fails then
            some (.sentBytes (-1), handler.goto (.returned false), process)
          else
            let accepted := min outcome.accepted handler.sendBuffer.length
            some (.sentBytes accepted,
              { handler with
                pc := if handler.sendBuffer = [] then .closeSocket else .lock .respond
                sent := handler.sent ++ handler.sendBuffer.take accepted }, process)
      | .closeSocket =>
          some (.silent, handler.goto .complete,
            { process with
              descriptors := Function.update process.descriptors handler.clientSocketFd none })
      | .complete =>
          some (.silent, { handler with pc := .load .closeFinal, isThreadComplete := true },
            process)
      | .returned _ => none

/-- The steps of a handler, one constructor for each. -/
inductive HandlerStep (self : τ) (outcome : Outcome) (handler : Handler) (process : Process τ) :
    Answer → Handler → Process τ → Prop
  | recvFails (pc : handler.pc = .recv) (fails : outcome.fails = true) :
      HandlerStep self outcome handler process (.received (-1)) (handler.goto (.returned false))
        process
  | recv (pc : handler.pc = .recv) (works : outcome.fails = false) :
      HandlerStep self outcome handler process
        (.received (handler.receive outcome).bytesReceived) (handler.receive outcome) process
  | openFile (site : OpenSite) (fd : Int) (process' : Process τ)
      (pc : handler.pc = .openFile site)
      (call : process.sysOpen outcome site.access = some (fd, process')) :
      HandlerStep self outcome handler process (.opened fd) (handler.goto (.assign site fd))
        process'
  | assign (site : OpenSite) (fd : Int) (pc : handler.pc = .assign site fd) :
      HandlerStep self outcome handler process .silent (handler.goto (.check site))
        { process with dataFileDescriptor := fd }
  | check (site : OpenSite) (pc : handler.pc = .check site) :
      HandlerStep self outcome handler process .silent
        (handler.goto (site.afterCheck process.dataFileDescriptor)) process
  | lock (loop : Loop) (pc : handler.pc = .lock loop) (free : process.lock = none) :
      HandlerStep self outcome handler process .silent (handler.goto (.load loop.use))
        { process with lock := some self }
  | load (use : Use) (pc : handler.pc = .load use) :
      HandlerStep self outcome handler process .silent
        (handler.goto (.call use process.dataFileDescriptor)) process
  | ioctl (fd : Int) (pc : handler.pc = .call .ioctl fd) :
      HandlerStep self outcome handler process
        (.used .ioctl fd (process.sysIoctl outcome fd handler.aesdSeektoData).1)
        handler.afterIteration (process.sysIoctl outcome fd handler.aesdSeektoData).2
  | writeFails (fd : Int) (process' : Process τ) (pc : handler.pc = .call .write fd)
      (call : process.sysWrite outcome fd handler.received = some (-1, process')) :
      HandlerStep self outcome handler process (.used .write fd (-1))
        (handler.goto (.returned false)) process'
  | write (fd ret : Int) (process' : Process τ) (pc : handler.pc = .call .write fd)
      (call : process.sysWrite outcome fd handler.received = some (ret, process'))
      (works : ret ≠ -1) :
      HandlerStep self outcome handler process (.used .write fd ret)
        (handler.goto (.unlock .receive)) process'
  | closeData (fd : Int) (pc : handler.pc = .call .closeData fd) :
      HandlerStep self outcome handler process
        (.used .closeData fd (process.sysClose outcome fd).1) handler.afterIteration
        (process.sysClose outcome fd).2
  | readFails (fd : Int) (bytes : List Byte) (process' : Process τ)
      (pc : handler.pc = .call .read fd)
      (call : process.sysRead outcome fd bufLen = some (-1, bytes, process')) :
      HandlerStep self outcome handler process (.used .read fd (-1))
        (handler.goto (.returned false)) process'
  | read (fd ret : Int) (bytes : List Byte) (process' : Process τ)
      (pc : handler.pc = .call .read fd)
      (call : process.sysRead outcome fd bufLen = some (ret, bytes, process'))
      (works : ret ≠ -1) :
      HandlerStep self outcome handler process (.used .read fd ret)
        { handler with pc := .unlock .respond, sendBuffer := bytes } process'
  | unlock (loop : Loop) (pc : handler.pc = .unlock loop) :
      HandlerStep self outcome handler process .silent (handler.goto loop.afterUnlock)
        { process with lock := none }
  | sendFails (pc : handler.pc = .send) (fails : outcome.fails = true) :
      HandlerStep self outcome handler process (.sentBytes (-1))
        (handler.goto (.returned false)) process
  | send (pc : handler.pc = .send) (works : outcome.fails = false) :
      HandlerStep self outcome handler process
        (.sentBytes (min outcome.accepted handler.sendBuffer.length : Nat))
        { handler with
          pc := if handler.sendBuffer = [] then .closeSocket else .lock .respond
          sent := handler.sent ++
            handler.sendBuffer.take (min outcome.accepted handler.sendBuffer.length) } process
  | closeSocket (pc : handler.pc = .closeSocket) :
      HandlerStep self outcome handler process .silent (handler.goto .complete)
        { process with
          descriptors := Function.update process.descriptors handler.clientSocketFd none }
  | complete (pc : handler.pc = .complete) :
      HandlerStep self outcome handler process .silent
        { handler with pc := .load .closeFinal, isThreadComplete := true } process
  | closeFinal (fd : Int) (pc : handler.pc = .call .closeFinal fd) :
      HandlerStep self outcome handler process
        (.used .closeFinal fd (process.sysClose outcome fd).1) (handler.goto (.returned true))
        (process.sysClose outcome fd).2

/-- The machine takes exactly these steps with a descriptor. -/
theorem useStep_cases {self : τ} {use : Use} {fd : Int} {outcome : Outcome}
    {handler handler' : Handler} {process process' : Process τ} {answer : Answer}
    (pc : handler.pc = .call use fd)
    (step : useStep use fd outcome handler process = some (answer, handler', process')) :
    HandlerStep self outcome handler process answer handler' process' := by
  cases use with
  | ioctl =>
      simp only [useStep, Option.some.injEq, Prod.mk.injEq] at step
      rcases step with ⟨rfl, rfl, rfl⟩
      exact .ioctl fd pc
  | write =>
      simp only [useStep, Option.map_eq_some_iff, Prod.exists, Prod.mk.injEq] at step
      rcases step with ⟨ret, process', call, rfl, rfl, rfl⟩
      by_cases fails : ret = -1
      · subst fails
        exact .writeFails fd process' pc call
      · rw [if_neg fails]
        exact .write fd ret process' pc call fails
  | closeData =>
      simp only [useStep, Option.some.injEq, Prod.mk.injEq] at step
      rcases step with ⟨rfl, rfl, rfl⟩
      exact .closeData fd pc
  | read =>
      simp only [useStep, Option.map_eq_some_iff, Prod.exists, Prod.mk.injEq] at step
      rcases step with ⟨ret, bytes, process', call, rfl, rfl, rfl⟩
      by_cases fails : ret = -1
      · subst fails
        exact .readFails fd bytes process' pc call
      · rw [if_neg fails]
        exact .read fd ret bytes process' pc call fails
  | closeFinal =>
      simp only [useStep, Option.some.injEq, Prod.mk.injEq] at step
      rcases step with ⟨rfl, rfl, rfl⟩
      exact .closeFinal fd pc

/-- The machine takes exactly these steps. -/
theorem handlerStep_cases {self : τ} {outcome : Outcome} {handler handler' : Handler}
    {process process' : Process τ} {answer : Answer}
    (step : handlerStep self (handler, process) outcome = some (answer, handler', process')) :
    HandlerStep self outcome handler process answer handler' process' := by
  unfold handlerStep at step
  cases pc : handler.pc with
  | recv =>
      simp only [pc] at step
      cases fails : outcome.fails with
      | true =>
          simp only [fails, if_true, Option.some.injEq, Prod.mk.injEq] at step
          rcases step with ⟨rfl, rfl, rfl⟩
          exact .recvFails pc fails
      | false =>
          simp only [fails, Bool.false_eq_true, if_false, Option.some.injEq, Prod.mk.injEq] at step
          rcases step with ⟨rfl, rfl, rfl⟩
          exact .recv pc fails
  | openFile site =>
      simp only [pc, Option.map_eq_some_iff, Prod.exists, Prod.mk.injEq] at step
      rcases step with ⟨fd, process', call, rfl, rfl, rfl⟩
      exact .openFile site fd process' pc call
  | assign site fd =>
      simp only [pc, Option.some.injEq, Prod.mk.injEq] at step
      rcases step with ⟨rfl, rfl, rfl⟩
      exact .assign site fd pc
  | check site =>
      simp only [pc, Option.some.injEq, Prod.mk.injEq] at step
      rcases step with ⟨rfl, rfl, rfl⟩
      exact .check site pc
  | lock loop =>
      simp only [pc] at step
      cases free : process.lock with
      | some owner => simp [free] at step
      | none =>
          simp only [free, Option.some.injEq, Prod.mk.injEq] at step
          rcases step with ⟨rfl, rfl, rfl⟩
          exact .lock loop pc free
  | load use =>
      simp only [pc, Option.some.injEq, Prod.mk.injEq] at step
      rcases step with ⟨rfl, rfl, rfl⟩
      exact .load use pc
  | call use fd =>
      simp only [pc] at step
      exact useStep_cases pc step
  | unlock loop =>
      simp only [pc, Option.some.injEq, Prod.mk.injEq] at step
      rcases step with ⟨rfl, rfl, rfl⟩
      exact .unlock loop pc
  | send =>
      simp only [pc] at step
      cases fails : outcome.fails with
      | true =>
          simp only [fails, if_true, Option.some.injEq, Prod.mk.injEq] at step
          rcases step with ⟨rfl, rfl, rfl⟩
          exact .sendFails pc fails
      | false =>
          simp only [fails, Bool.false_eq_true, if_false, Option.some.injEq, Prod.mk.injEq] at step
          rcases step with ⟨rfl, rfl, rfl⟩
          exact .send pc fails
  | closeSocket =>
      simp only [pc, Option.some.injEq, Prod.mk.injEq] at step
      rcases step with ⟨rfl, rfl, rfl⟩
      exact .closeSocket pc
  | complete =>
      simp only [pc, Option.some.injEq, Prod.mk.injEq] at step
      rcases step with ⟨rfl, rfl, rfl⟩
      exact .complete pc
  | returned ok => simp [pc] at step

end

/-! ## Interleaving -/

/-- The handler threads over their common process. -/
structure ServerState (τ : Type) where
  process : Process τ
  handlers : τ → Handler

/-- The handlers at their start; the mutex is free. -/
def ServerState.start {τ : Type} (process : Process τ) (clientSocketFds : τ → Nat)
    (clients : τ → List Chunk) : ServerState τ where
  process := { process with lock := none }
  handlers thread := clientDataHandler (clientSocketFds thread) (clients thread)

section

variable {τ : Type} [DecidableEq τ]

/-- A scheduled thread takes its next step. -/
def serverStep : Machine (ServerState τ) (τ × Outcome) Answer
  | server, (thread, outcome) =>
      (handlerStep thread (server.handlers thread, server.process) outcome).map fun result =>
        (result.1, ⟨result.2.2, Function.update server.handlers thread result.2.1⟩)

/-- A step of the server is a step of one handler. -/
theorem serverStep_eq_some_iff {server server' : ServerState τ} {thread : τ} {outcome : Outcome}
    {answer : Answer} :
    serverStep server (thread, outcome) = some (answer, server') ↔
      ∃ handler process,
        handlerStep thread (server.handlers thread, server.process) outcome =
          some (answer, handler, process) ∧
        server' = ⟨process, Function.update server.handlers thread handler⟩ := by
  simp only [serverStep, Option.map_eq_some_iff, Prod.exists, Prod.mk.injEq]
  constructor
  · rintro ⟨_, handler, process, step, rfl, rfl⟩
    exact ⟨handler, process, step, rfl⟩
  · rintro ⟨handler, process, step, rfl⟩
    exact ⟨answer, handler, process, step, rfl, rfl⟩

end

end Aesd.Server
