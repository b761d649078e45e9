import Aesd.Server.Service

/-!
# The answer and the cutting of the stream

A stream can arrive cut into chunks in many ways.  The receive buffer is compared
with the text of the seek command after every chunk, so a cutting can make the
handler take a part of a line for a command.  The answer to a client is
independent of the cutting exactly for the streams of which no cutting does.
-/

namespace Aesd.Server

open Aesd.Driver Aesd.Transition Aesd.Word

section

variable {τ : Type} {self : τ} {limit : Nat} {final : List Byte} {command : Bool}
  {outcome : Outcome} {handler handler' : Handler} {process process' : Process τ}
  {answer : Answer}

/-! ## Outcomes that succeed -/

/-- Only finitely many descriptor numbers are in use. -/
def Process.FinitelyOpen (process : Process τ) : Prop :=
  ∃ bound, ∀ number, bound ≤ number → process.descriptors number = none

theorem Process.FinitelyOpen.update {process' : Process τ} (finite : process.FinitelyOpen)
    {number : Nat} {description : Option Description}
    (updated : process'.descriptors = Function.update process.descriptors number description) :
    process'.FinitelyOpen := by
  rcases finite with ⟨bound, unused⟩
  refine ⟨max bound (number + 1), ?_⟩
  intro other beyond
  have different : other ≠ number := by omega
  rw [updated, Function.update_of_ne different]
  exact unused other ((Nat.le_max_left ..).trans beyond)

/-- A step opens or closes at most one number. -/
theorem HandlerStep.finitelyOpen
    (step : HandlerStep self outcome handler process answer handler' process')
    (finite : process.FinitelyOpen) : process'.FinitelyOpen := by
  have close (fd : Int) : (process.sysClose outcome fd).2.FinitelyOpen := by
    rcases Process.sysClose_cases outcome fd process with same | ⟨_, same⟩
    · rwa [same]
    · exact finite.update (congrArg Process.descriptors same)
  have same {process'' : Process τ} (unchanged : process''.descriptors = process.descriptors) :
      process''.FinitelyOpen := by
    rwa [Process.FinitelyOpen, unchanged]
  cases step with
  | openFile site fd _ pc call =>
      rcases Process.sysOpen_cases call with ⟨_, _, rfl⟩ | ⟨_, _, _, rfl⟩
      · exact finite
      · exact finite.update rfl
  | closeData fd => exact close fd
  | closeFinal fd => exact close fd
  | closeSocket => exact finite.update rfl
  | writeFails fd _ pc call => exact same (Process.sysWrite_frame call).2.2
  | write fd ret _ pc call => exact same (Process.sysWrite_frame call).2.2
  | readFails fd bytes _ pc call => exact same (Process.sysRead_frame call).2.2
  | read fd ret bytes _ pc call => exact same (Process.sysRead_frame call).2.2
  | ioctl fd => exact same (Process.sysIoctl_frame ..).2.2
  | _ => exact finite

theorem HandlerStep.bytesReceived_le
    (step : HandlerStep self outcome handler process answer handler' process')
    (bounded : handler.bytesReceived ≤ bufLen) : handler'.bytesReceived ≤ bufLen := by
  cases step with
  | recv =>
      cases incoming : handler.incoming with
      | nil => simp [Handler.receive, incoming]
      | cons chunk chunks => simpa [Handler.receive, incoming] using chunk.2.2
  | _ => exact bounded

/-- With room for the line and a free number, the next step can succeed. -/
theorem Serving.exists_succeeds (serving : Serving limit final command handler process)
    (finite : process.FinitelyOpen) (received : handler.bytesReceived ≤ bufLen)
    (roomForChunk : bufLen ≤ limit) (roomForLine : final.length ≤ limit) :
    ∃ outcome, Succeeds (handler, process) outcome := by
  rcases finite with ⟨number, unused⟩
  refine ⟨{ Outcome.success number with accepted := handler.sendBuffer.length }, rfl, ?_⟩
  cases pc : handler.pc with
  | openFile site => exact unused number (Nat.le_refl _)
  | send => exact Nat.le_refl _
  | call use fd =>
      cases use with
      | write =>
          rcases serving.represents with ⟨history, represents, rfl, total⟩
          apply represents.granted_of_room
          · exact ((List.length_take_le ..).trans received).trans roomForChunk
          · have line := congrArg List.length total
            simp only [Handler.due, pc, Pc.stage, List.length_append] at line
            show history.length + (consumed handler.received).length ≤ _
            omega
      | ioctl => exact rfl
      | read => exact rfl
      | closeData => exact trivial
      | closeFinal => exact trivial
  | _ => exact trivial

/-- A connection with a newline can be served when there is room for its line. -/
theorem exists_served (self : τ) (clientSocketFd : Nat) {history : List Byte}
    (represents : Represents process.system history) (unlocked : process.lock = none)
    (finite : process.FinitelyOpen) {chunks : List Chunk} (found : newline ∈ streamOf chunks)
    (roomForChunk : bufLen ≤ process.system.heap.limit)
    (roomForLine : (history ++ consumed (streamOf chunks)).length ≤ process.system.heap.limit) :
    ∃ outcomes answers handler' process',
      Along (handlerStep self) Succeeds (clientDataHandler clientSocketFd chunks, process)
        outcomes ∧
      run (handlerStep self) (clientDataHandler clientSocketFd chunks, process) outcomes =
        some (answers, handler', process') ∧
      handler'.pc = .returned true := by
  have start := serving_start represents unlocked clientSocketFd chunks
  let invariant (state : Handler × Process τ) : Prop :=
    Serving process.system.heap.limit (history ++ suppliedBy clearedBuffer chunks)
      (endsWithCommand clearedBuffer chunks) state.1 state.2 ∧
      state.2.FinitelyOpen ∧ state.1.bytesReceived ≤ bufLen
  have roomForWord : (history ++ suppliedBy clearedBuffer chunks).length ≤
      process.system.heap.limit := by
    have shorter := length_suppliedBy_le clearedBuffer chunks
    rw [List.length_append] at roomForLine ⊢
    omega
  have enabled : ∀ state, invariant state → ∃ outcome, Succeeds state outcome ∧
      ∀ answer state', handlerStep self state outcome = some (answer, state') →
        invariant state' := by
    rintro ⟨handler, middle⟩ ⟨serving, finite, received⟩
    rcases serving.exists_succeeds finite received roomForChunk roomForWord with
      ⟨outcome, succeeds⟩
    refine ⟨outcome, succeeds, ?_⟩
    rintro answer ⟨handler', middle'⟩ step
    have taken := handlerStep_cases step
    have succeeds' : Along (handlerStep self) Succeeds (handler, middle) [outcome] :=
      ⟨succeeds, fun _ _ _ => trivial⟩
    have once : run (handlerStep self) (handler, middle) [outcome] =
        some ([answer], handler', middle') :=
      (run_cons_eq_some_iff ..).mpr ⟨answer, (handler', middle'), [], step, rfl, rfl⟩
    exact ⟨serving.run succeeds' once, taken.finitelyOpen finite, taken.bytesReceived_le received⟩
  have initial : invariant (clientDataHandler clientSocketFd chunks, process) :=
    ⟨start, finite, Nat.zero_le _⟩
  rcases exists_along invariant enabled initial (serviceBound history chunks) with
    ⟨outcomes, length, along⟩
  rcases serves represents unlocked (mem_streamOf_iff.mp found) along length.ge with
    ⟨used, unused, answers, handler', process', rfl, execution, returned, _⟩
  exact ⟨used, answers, handler', process', ((along_append_iff ..).mp along).1, execution, returned⟩

/-! ## Independence of the cutting -/

/-- A handler that runs alone, with every call succeeding, answers the chunks with
`sent` and leaves `process'`. -/
def Answers (self : τ) (process : Process τ) (chunks : List Chunk) (sent : List Byte)
    (process' : Process τ) : Prop :=
  ∃ clientSocketFd outcomes answers handler ok,
    Along (handlerStep self) Succeeds (clientDataHandler clientSocketFd chunks, process) outcomes ∧
    run (handlerStep self) (clientDataHandler clientSocketFd chunks, process) outcomes =
      some (answers, handler, process') ∧
    handler.pc = .returned ok ∧ handler.sent = sent

/-- On every reachable device, any two cuttings of the stream leave the same
content and are sent the same bytes. -/
def ChunkingIndependent (self : τ) (stream : List Byte) : Prop :=
  ∀ process : Process τ, process.Reachable →
    ∀ chunks chunks', streamOf chunks = stream → streamOf chunks' = stream →
    ∀ sent sent' process' process'',
      Answers self process chunks sent process' → Answers self process chunks' sent' process'' →
      process'.system.entriesBytes = process''.system.entriesBytes ∧
        process'.system.pendingBytes = process''.system.pendingBytes ∧ sent = sent'

/-- An answer leaves a device that represents what the chunks supplied. -/
theorem Answers.represents {history : List Byte} {chunks : List Chunk} {sent : List Byte}
    (represents : Represents process.system history) (unlocked : process.lock = none)
    (answered : Answers self process chunks sent process') :
    Represents process'.system (history ++ suppliedBy clearedBuffer chunks) ∧
      (endsWithCommand clearedBuffer chunks = false →
        sent = storedContent (history ++ suppliedBy clearedBuffer chunks)) := by
  rcases answered with
    ⟨clientSocketFd, outcomes, answers, handler, ok, succeeds, execution, returned, rfl⟩
  have serving := (serving_start represents unlocked clientSocketFd chunks).run succeeds execution
  exact (serving.returned returned).2.2

/-- Without a command the answer is determined by the stream. -/
theorem Answers.of_noCommand {history : List Byte} {chunks : List Chunk} {sent : List Byte}
    (represents : Represents process.system history) (unlocked : process.lock = none)
    (noCommand : NoCommand clearedBuffer chunks)
    (answered : Answers self process chunks sent process') :
    process'.system.entriesBytes =
        some (storedLines (history ++ consumed (streamOf chunks))) ∧
      process'.system.pendingBytes =
        some (pendingLine (history ++ consumed (streamOf chunks))) ∧
      sent = storedContent (history ++ consumed (streamOf chunks)) := by
  rcases answered.represents represents unlocked with ⟨final, delivers⟩
  rw [noCommand.suppliedBy_eq] at final delivers
  exact ⟨final.entriesBytes, final.pendingBytes, delivers noCommand.endsWithCommand_eq⟩

/-- A command that a cutting makes of a part of the line shows on an empty
device. -/
theorem ChunkingIndependent.noCommand {stream : List Byte} (found : newline ∈ stream)
    (fits : (consumed stream).length < 2 ^ 32)
    (independent : ChunkingIndependent self stream) {chunks : List Chunk}
    (cut : streamOf chunks = stream) : NoCommand clearedBuffer chunks := by
  by_contra command
  let process : Process τ :=
    { Process.fresh τ 4 with system := aesdInitModule ⟨2 ^ 32 - 1, by decide⟩ }
  have represents : Represents process.system [] := represents_init _
  have finite : process.FinitelyOpen := ⟨4, fun number beyond => if_neg (Nat.not_lt.mpr beyond)⟩
  have serves : ∀ chunks', streamOf chunks' = stream →
      ∃ sent process', Answers self process chunks' sent process' := by
    intro chunks' cut'
    rcases exists_served self 3 represents rfl finite
      (cut'.symm ▸ found) (show bufLen ≤ 2 ^ 32 - 1 by decide)
      (show ([] ++ consumed (streamOf chunks')).length ≤ 2 ^ 32 - 1 by
        rw [cut', List.nil_append]
        exact Nat.le_sub_one_of_lt fits) with
      ⟨outcomes, answers, handler, process', succeeds, execution, returned⟩
    exact ⟨handler.sent, process', 3, outcomes, answers, handler, true, succeeds, execution,
      returned, rfl⟩
  rcases serves chunks cut with ⟨sent, process', answered⟩
  rcases serves (singly stream) (streamOf_singly stream) with ⟨sent', process'', answered'⟩
  have reachable : process.Reachable := ⟨rfl, ⟨2 ^ 32 - 1, by decide⟩, [], [], trivial, rfl⟩
  rcases independent process reachable chunks (singly stream) cut (streamOf_singly stream) sent
    sent' process' process'' answered answered' with ⟨sameEntries, _, _⟩
  rw [(answered.represents represents rfl).1.entriesBytes,
    (answered'.of_noCommand represents rfl (noCommand_singly stream)).1, Option.some.injEq,
    List.nil_append, List.nil_append, streamOf_singly] at sameEntries
  have shorter := length_suppliedBy_lt command
  rw [cut] at shorter
  have oneLine : storedLines (consumed stream) = [consumed stream] := by
    have committed : committedLines (consumed stream) = [consumed stream] :=
      (committedLines_append_line [] List.not_mem_nil found).1
    exact congrArg (List.rtake · aesdcharMaxWriteOperationsSupported) committed
  have stored : (storedLines (suppliedBy clearedBuffer chunks)).flatten.length ≤
      (suppliedBy clearedBuffer chunks).length := LineStore.length_content_le _
  rw [sameEntries, oneLine, List.flatten_singleton] at stored
  exact absurd shorter (Nat.not_lt.mpr stored)

/-- Every cutting of a stream with a newline is answered.  The answer is
independent of the cutting if no cutting makes the handler take a chunk for a
command; for streams whose first line the allocator can hold, only then. -/
theorem chunking_independent_iff (self : τ) (stream : List Byte) (found : newline ∈ stream) :
    (∀ process : Process τ, process.Reachable → ∀ chunks, streamOf chunks = stream →
      ∃ bound, ∀ clientSocketFd outcomes,
        Along (handlerStep self) Succeeds (clientDataHandler clientSocketFd chunks, process)
          outcomes →
        bound ≤ outcomes.length →
        ∃ sent process', Answers self process chunks sent process') ∧
    ((∀ chunks, streamOf chunks = stream → NoCommand clearedBuffer chunks) →
      ChunkingIndependent self stream) ∧
    ((consumed stream).length < 2 ^ 32 →
      (ChunkingIndependent self stream ↔
        ∀ chunks, streamOf chunks = stream → NoCommand clearedBuffer chunks)) := by
  have sufficient : (∀ chunks, streamOf chunks = stream → NoCommand clearedBuffer chunks) →
      ChunkingIndependent self stream := by
    rintro noCommand process reachable chunks chunks' cut cut' sent sent' process' process''
      answered answered'
    rcases reachable.represents with ⟨history, represents⟩
    rcases answered.of_noCommand represents reachable.1 (noCommand chunks cut) with
      ⟨entries, pending, delivered⟩
    rcases answered'.of_noCommand represents reachable.1 (noCommand chunks' cut') with
      ⟨entries', pending', delivered'⟩
    rw [entries, entries', pending, pending', delivered, delivered', cut, cut']
    exact ⟨rfl, rfl, rfl⟩
  refine ⟨?_, sufficient, fun fits => ⟨?_, sufficient⟩⟩
  · intro process reachable chunks cut
    rcases reachable.represents with ⟨history, represents⟩
    refine ⟨serviceBound history chunks, ?_⟩
    intro clientSocketFd outcomes succeeds enough
    rcases serves represents reachable.1 (mem_streamOf_iff.mp (cut ▸ found)) succeeds enough with
      ⟨used, unused, answers, handler, process', rfl, execution, returned, _⟩
    exact ⟨handler.sent, process', clientSocketFd, used, answers, handler, true,
      ((along_append_iff ..).mp succeeds).1, execution, returned, rfl⟩
  · intro independent chunks cut
    exact independent.noCommand found fits cut

end

/-- No cutting of `"hi\n"` is long enough to contain a command. -/
theorem chunking_independent_iff_short : ChunkingIndependent () [104, 105, 10] := by
  apply (chunking_independent_iff () [104, 105, 10] (by decide)).2.1
  intro chunks cut
  apply noCommand_of_short
  intro chunk member
  have atMost : chunk.1.length ≤ (streamOf chunks).length :=
    (List.sublist_flatten_of_mem (List.mem_map_of_mem member)).length_le
  rw [cut] at atMost
  exact Nat.lt_of_le_of_lt atMost (by decide)

/-- The command `"AESDCHAR_IOCSEEKTO:0,0\n"` on a device that stores the line
`"x\n"`: in one chunk it is a seek, which succeeds; with its first letter in a
chunk of its own it is a line of data. -/
theorem command_answer_depends_on_cutting :
    let stream := ioctlStr ++ [48, 44, 48, 10]
    newline ∈ stream ∧ ¬ChunkingIndependent () stream ∧
      ∃ (process : Process Unit) (chunk : Chunk) (answers : List Answer)
        (result : Handler × Process Unit),
        process.Reachable ∧ streamOf [chunk] = stream ∧
        run (handlerStep ()) (clientDataHandler 3 [chunk], process)
          (List.replicate 20 (.success 4)) = some (answers, result) ∧
        Answer.used .ioctl 4 0 ∈ answers ∧ result.1.sent = [120, 10] := by
  intro stream
  let operations : List Operation := [.write ⟨.success, some 0, some [120, 10]⟩]
  let device := run operationStep (aesdInitModule ⟨4096, by decide⟩) operations
  let before (opened : List Int × System) : Process Unit :=
    { Process.fresh Unit 4 with system := opened.2 }
  let whole : List Chunk := [⟨stream, by decide⟩]
  let cut : List Chunk := [⟨stream.take 1, by decide⟩, ⟨stream.drop 1, by decide⟩]
  have opens : ∃ opened, device = some opened := Option.isSome_iff_exists.mp (by decide +kernel)
  have seeks : ∀ opened ∈ device,
      Along (handlerStep ()) Succeeds (clientDataHandler 3 whole, before opened)
        (List.replicate 20 (.success 4)) ∧
      (run (handlerStep ()) (clientDataHandler 3 whole, before opened)
        (List.replicate 20 (.success 4))).map
          (fun result => (result.2.1.pc, result.2.1.sent,
            decide (Answer.used .ioctl 4 0 ∈ result.1))) =
        some (.returned true, [120, 10], true) := by decide +kernel
  have writes : ∀ opened ∈ device,
      Along (handlerStep ()) Succeeds (clientDataHandler 3 cut, before opened)
        (List.replicate 42 (.success 4)) ∧
      (run (handlerStep ()) (clientDataHandler 3 cut, before opened)
        (List.replicate 42 (.success 4))).map
          (fun result => (result.2.1.pc, result.2.1.sent)) =
        some (.returned true, [120, 10] ++ stream) := by decide +kernel
  rcases opens with ⟨opened, reached⟩
  rcases seeks opened reached with ⟨succeeds, seek⟩
  rcases writes opened reached with ⟨succeeds', write⟩
  simp only [Option.map_eq_some_iff, Prod.exists, Prod.mk.injEq, decide_eq_true_eq] at seek write
  rcases seek with ⟨answers, handler, process', execution, returned, sent, seeked⟩
  rcases write with ⟨answers', handler', process'', execution', returned', sent'⟩
  have reachable : (before opened).Reachable :=
    ⟨rfl, ⟨4096, by decide⟩, operations, opened.1, by decide +kernel, reached⟩
  refine ⟨by decide, ?_, before opened, ⟨stream, by decide⟩, answers, (handler, process'),
    reachable, List.append_nil stream, execution, seeked, sent⟩
  intro independent
  rcases independent (before opened) reachable whole cut (List.append_nil stream)
    (by decide) _ _ process' process''
    ⟨3, _, answers, handler, true, succeeds, execution, returned, sent⟩
    ⟨3, _, answers', handler', true, succeeds', execution', returned', sent'⟩ with ⟨_, _, same⟩
  exact absurd same (by decide)

end Aesd.Server
