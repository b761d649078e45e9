import Aesd.Server.DescriptorUse
import Aesd.Server.ReceiveLoop

/-!
# Parsing seek commands

A chunk is a seek command when it consists of the text, a numeral, a comma and a
numeral, and goes on, if at all, with another character.  The handler looks at
the whole receive buffer instead, and does not look at the number of conversions,
so it seeks for other chunks as well, and digits left in the buffer by earlier
chunks extend the second numeral.
-/

namespace Aesd.Server

open Aesd.Driver Aesd.Transition

/-- The number that digits denote. -/
def valueOf (digits : List Byte) : Nat :=
  digits.foldl (fun value digit => 10 * value + (digit.toNat - 48)) 0

/-- A decimal numeral of a 32-bit number. -/
structure IsNumeral (numeral : List Byte) (number : UInt32) : Prop where
  nonempty : numeral ≠ []
  digits : ∀ digit ∈ numeral, isDigit digit = true
  value : valueOf numeral = number.toNat

/-- The parts of a seek command: the chunk is the text, the two numerals with a
comma between them, and a rest that does not begin with a digit. -/
structure SeekCommand (chunk : List Byte) (arg : AesdSeekto)
    (writeCmd writeCmdOffset rest : List Byte) : Prop where
  split : chunk = ioctlStr ++ (writeCmd ++ 44 :: (writeCmdOffset ++ rest))
  command : IsNumeral writeCmd arg.writeCmd
  offset : IsNumeral writeCmdOffset arg.writeCmdOffset
  ends : ∀ byte ∈ rest.head?, isDigit byte = false

/-- The chunk is the seek command with this argument. -/
def IsSeekCommand (chunk : List Byte) (arg : AesdSeekto) : Prop :=
  ∃ writeCmd writeCmdOffset rest, SeekCommand chunk arg writeCmd writeCmdOffset rest

/-- The chunk is the seek command with this argument, and the digits that follow
its last numeral in memory do not change the number that is stored. -/
def ReadsAs (chunk following : List Byte) (arg : AesdSeekto) : Prop :=
  ∃ writeCmd writeCmdOffset rest, SeekCommand chunk arg writeCmd writeCmdOffset rest ∧
    storeDecimal (valueOf (writeCmdOffset ++ (rest ++ following).takeWhile isDigit)) =
      arg.writeCmdOffset

/-! ## The conversions -/

/-- A digit is no white space, no sign, and not the end of a string. -/
theorem ne_of_isDigit {byte : Byte} (digit : isDigit byte = true) :
    isSpace byte = false ∧ byte ≠ 45 ∧ byte ≠ 43 ∧ byte ≠ 0 := by
  simp only [isDigit, Bool.and_eq_true, decide_eq_true_eq, UInt8.le_iff_toNat_le] at digit
  simp only [isSpace, Bool.or_eq_false_iff, Bool.and_eq_false_iff, beq_eq_false_iff_ne,
    decide_eq_false_iff_not, UInt8.le_iff_toNat_le, ne_eq, ← UInt8.toNat_inj]
  simp only [UInt8.reduceToNat] at *
  omega

/-- The conversion of a numeral takes in the digits that follow it. -/
theorem scanDecimal_append {numeral : List Byte} (nonempty : numeral ≠ [])
    (digits : ∀ digit ∈ numeral, isDigit digit = true) (tail : List Byte) :
    scanDecimal (numeral ++ tail) =
      some ((valueOf (numeral ++ tail.takeWhile isDigit) : Int), tail.dropWhile isDigit) := by
  rcases List.exists_cons_of_ne_nil nonempty with ⟨first, others, rfl⟩
  rcases ne_of_isDigit (digits first List.mem_cons_self) with ⟨noSpace, noMinus, noPlus, _⟩
  have start : ((first :: others) ++ tail).dropWhile isSpace = (first :: others) ++ tail := by
    simp [noSpace]
  have taken : ((first :: others) ++ tail).takeWhile isDigit =
      (first :: others) ++ tail.takeWhile isDigit := List.takeWhile_append_of_pos digits
  have dropped : ((first :: others) ++ tail).dropWhile isDigit = tail.dropWhile isDigit :=
    List.dropWhile_append_of_pos digits
  have minus : (((first :: others) ++ tail).head? == some 45) = false := by simp [noMinus]
  have plus : (((first :: others) ++ tail).head? == some 43) = false := by simp [noPlus]
  simp only [scanDecimal, start, minus, plus, Bool.or_self, Bool.false_eq_true, if_false, taken,
    dropped]
  rw [if_neg (by simp)]
  rfl

theorem storeDecimal_toNat (number : UInt32) : storeDecimal (number.toNat : Int) = number := by
  have small := number.toNat_lt
  have inside : max (-2 ^ 63) (min (2 ^ 63 - 1) (number.toNat : Int)) = number.toNat := by omega
  have same : ((number.toNat : Int) % 2 ^ 32).toNat = number.toNat := by omega
  rw [storeDecimal, inside, UInt32.ofInt, same]
  exact UInt32.ofNat_toNat

/-- Both conversions of a command succeed; the second takes in the digits that
follow its numeral. -/
theorem sscanfSeekto_append {number : UInt32} {writeCmd writeCmdOffset : List Byte}
    (command : IsNumeral writeCmd number) (nonempty : writeCmdOffset ≠ [])
    (digits : ∀ digit ∈ writeCmdOffset, isDigit digit = true) (tail : List Byte)
    (aesdSeektoData : AesdSeekto) :
    sscanfSeekto (ioctlStr ++ (writeCmd ++ 44 :: (writeCmdOffset ++ tail))) aesdSeektoData =
      ⟨number, storeDecimal (valueOf (writeCmdOffset ++ tail.takeWhile isDigit))⟩ := by
  have comma : isDigit 44 = false := by decide
  have first := scanDecimal_append command.nonempty command.digits
    (44 :: (writeCmdOffset ++ tail))
  rw [List.takeWhile_cons_of_neg (by simp [comma]), List.append_nil,
    List.dropWhile_cons_of_neg (by simp [comma])] at first
  have second := scanDecimal_append nonempty digits tail
  rw [sscanfSeekto, List.drop_left, first]
  simp only [List.head?_cons, if_true, List.tail_cons, second, command.value, storeDecimal_toNat]

namespace SeekCommand

variable {chunk following writeCmd writeCmdOffset rest : List Byte} {arg : AesdSeekto}

/-- What the handler reads when a command has been received. -/
theorem sscanf_eq (seek : SeekCommand chunk arg writeCmd writeCmdOffset rest)
    (following : List Byte) (aesdSeektoData : AesdSeekto) :
    sscanfSeekto ((chunk ++ following).takeWhile (· != 0)) aesdSeektoData =
      ⟨arg.writeCmd,
        storeDecimal (valueOf (writeCmdOffset ++ (rest ++ following).takeWhile isDigit))⟩ := by
  have inString {numeral : List Byte} (digits : ∀ digit ∈ numeral, isDigit digit = true) :
      ∀ digit ∈ numeral, (digit != 0) = true := by
    intro digit member
    exact bne_iff_ne.mpr (ne_of_isDigit (digits digit member)).2.2.2
  have text : ∀ letter ∈ ioctlStr, (letter != 0) = true := by decide +kernel
  have string : (chunk ++ following).takeWhile (· != 0) =
      ioctlStr ++
        (writeCmd ++ 44 :: (writeCmdOffset ++ (rest ++ following).takeWhile (· != 0))) := by
    rw [seek.split, List.append_assoc, List.takeWhile_append_of_pos text, List.append_assoc,
      List.takeWhile_append_of_pos (inString seek.command.digits), List.cons_append,
      List.takeWhile_cons_of_pos (by decide), List.append_assoc,
      List.takeWhile_append_of_pos (inString seek.offset.digits)]
  have sameDigits : ((rest ++ following).takeWhile (· != 0)).takeWhile isDigit =
      (rest ++ following).takeWhile isDigit := by
    rw [List.takeWhile_takeWhile]
    congr 1
    funext byte
    cases digit : isDigit byte with
    | false => simp
    | true => simpa using (ne_of_isDigit digit).2.2.2
  rw [string, sscanfSeekto_append seek.command seek.offset.nonempty seek.offset.digits, sameDigits]

end SeekCommand

/-- A chunk is at most one command. -/
theorem IsSeekCommand.unique {chunk : List Byte} {arg arg' : AesdSeekto}
    (seek : IsSeekCommand chunk arg) (seek' : IsSeekCommand chunk arg') : arg = arg' := by
  have scanned : ∀ {arg}, IsSeekCommand chunk arg → sscanfSeekto chunk ⟨0, 0⟩ = arg := by
    rintro ⟨number, offset⟩ ⟨writeCmd, writeCmdOffset, rest, seek⟩
    have clean : rest.takeWhile isDigit = [] := by
      cases rest with
      | nil => rfl
      | cons byte rest => exact List.takeWhile_cons_of_neg (by simp [seek.ends byte rfl])
    rw [seek.split, sscanfSeekto_append seek.command seek.offset.nonempty seek.offset.digits,
      clean, List.append_nil, seek.offset.value, storeDecimal_toNat]
  exact (scanned seek).symm.trans (scanned seek')

theorem IsSeekCommand.isPrefix {chunk : List Byte} {arg : AesdSeekto}
    (seek : IsSeekCommand chunk arg) : ioctlStr <+: chunk := by
  rcases seek with ⟨_, _, _, seek⟩
  exact ⟨_, seek.split.symm⟩

/-! ## One reception -/

/-- What the handler has decided to seek after it has received. -/
def Handler.request (handler : Handler) : Option AesdSeekto :=
  if handler.ioctlCheck then some handler.aesdSeektoData else none

/-- The handler asks for the command that the chunk is, and for nothing else,
exactly if a receive buffer that starts with the text reads as the chunk. -/
theorem request_receive_iff (handler : Handler) (outcome : Outcome) {chunk : Chunk}
    {chunks : List Chunk} (incoming : handler.incoming = chunk :: chunks) :
    (∀ arg, (handler.receive outcome).request = some arg ↔ IsSeekCommand chunk.1 arg) ↔
      (startsWithIoctlStr (receiveInto handler.receiveBuffer chunk.1) = true →
        ∃ arg, ReadsAs chunk.1
          (handler.receiveBuffer.drop chunk.1.length ++ outcome.beyond) arg) := by
  have check : (handler.receive outcome).ioctlCheck =
      startsWithIoctlStr (receiveInto handler.receiveBuffer chunk.1) := by
    simp [Handler.receive, incoming]
  rw [Handler.request, check]
  cases starts : startsWithIoctlStr (receiveInto handler.receiveBuffer chunk.1) with
  | false =>
      simp only [Bool.false_eq_true, if_false, reduceCtorEq, false_iff, false_implies, iff_true]
      intro arg seek
      rcases seek.isPrefix with ⟨rest, split⟩
      have matched : startsWithIoctlStr (receiveInto handler.receiveBuffer chunk.1) = true := by
        rw [startsWithIoctlStr, receiveInto, ← split, List.append_assoc, List.take_left]
        exact beq_self_eq_true _
      exact Bool.false_ne_true (starts.symm.trans matched)
  | true =>
      have scanned : (handler.receive outcome).aesdSeektoData =
          sscanfSeekto ((chunk.1 ++ (handler.receiveBuffer.drop chunk.1.length ++
            outcome.beyond)).takeWhile (· != 0)) outcome.aesdSeektoData := by
        simp only [Handler.receive, incoming, List.head?_cons, Option.map_some, Option.getD_some]
        rw [if_pos starts, receiveInto, List.append_assoc]
      simp only [if_true, Option.some.injEq, true_implies]
      constructor
      · intro exact'
        rcases (exact' _).mp rfl with ⟨writeCmd, writeCmdOffset, rest, seek⟩
        rw [seek.sscanf_eq] at scanned
        exact ⟨_, writeCmd, writeCmdOffset, rest, seek,
          (congrArg AesdSeekto.writeCmdOffset scanned).symm⟩
      · rintro ⟨arg, writeCmd, writeCmdOffset, rest, seek, stored⟩
        rw [seek.sscanf_eq, stored] at scanned
        rw [scanned]
        intro arg'
        constructor
        · rintro rfl
          exact ⟨writeCmd, writeCmdOffset, rest, seek⟩
        · exact fun seek' => IsSeekCommand.unique ⟨writeCmd, writeCmdOffset, rest, seek⟩ seek'

/-! ## The calls of an iteration -/

namespace Handler

/-- The argument of an `ioctl`. -/
def seeks (handler : Handler) : Answer → Handler → List AesdSeekto
  | .used .ioctl _ _, _ => [handler.aesdSeektoData]
  | _, _ => []

/-- The seek that the handler is about to make. -/
def pendingSeek (handler : Handler) : List AesdSeekto :=
  if handler.pc.branch = some true then [handler.aesdSeektoData] else []

theorem pendingSeek_receive (handler : Handler) (outcome : Outcome) :
    (handler.receive outcome).pendingSeek = (handler.receive outcome).request.toList := by
  have pc : (handler.receive outcome).pc =
      .openFile (if (handler.receive outcome).ioctlCheck then .seek else .data) := rfl
  cases check : (handler.receive outcome).ioctlCheck <;>
    simp [pendingSeek, request, pc, check, Pc.branch]

end Handler

section

variable {τ : Type} {self : τ} {outcome : Outcome} {handler handler' : Handler}
  {process process' : Process τ} {answer : Answer}

/-- Until it receives again, a handler makes the seek it has decided to make. -/
theorem HandlerStep.pendingSeek
    (step : HandlerStep self outcome handler process answer handler' process')
    (silent : answer.isReceived = false) :
    handler'.pc = .returned false ∨
      handler.pendingSeek = handler.seeks answer handler' ++ handler'.pendingSeek := by
  have same {pc pc' : Pc} (here : handler.pc = pc) (branch : pc.branch = pc'.branch) :
      handler.pendingSeek = (handler.goto pc').pendingSeek := by
    simp only [Handler.pendingSeek, here, branch, Handler.goto]
    rfl
  have idle {pc : Pc} {handler'' : Handler} (here : handler''.pc = pc)
      (outside : pc.branch ≠ some true) : handler''.pendingSeek = [] :=
    if_neg (here ▸ outside)
  have after : handler.afterIteration.pendingSeek = [] := by
    rcases pc_afterIteration handler with next | next | next
    · exact idle next (by decide)
    · exact idle next (by decide)
    · exact idle next (by decide)
  cases step with
  | recvFails pc => contradiction
  | recv pc => contradiction
  | openFile site fd _ pc => exact Or.inr (same pc (by cases site <;> rfl))
  | assign site fd pc => exact Or.inr (same pc (by cases site <;> rfl))
  | check site pc =>
      rcases site.afterCheck_cases process.dataFileDescriptor with ⟨_, _, failed⟩ | ⟨_, next⟩
      · exact Or.inl failed
      · right
        rw [next]
        exact same pc (by cases site <;> rfl)
  | lock loop pc => exact Or.inr (same pc (by cases loop <;> rfl))
  | load use pc => exact Or.inr (same pc (by cases use <;> rfl))
  | ioctl fd pc =>
      right
      rw [after, Handler.pendingSeek, pc]
      rfl
  | writeFails fd _ pc => exact Or.inl rfl
  | write fd ret _ pc => exact Or.inr (same pc rfl)
  | closeData fd pc => exact Or.inr ((idle pc (by rintro ⟨⟩)).trans after.symm)
  | readFails fd _ _ pc => exact Or.inl rfl
  | read fd ret bytes _ pc =>
      exact Or.inr (idle pc (by rintro ⟨⟩))
  | unlock loop pc => exact Or.inr (same pc (by cases loop <;> rfl))
  | sendFails pc => exact Or.inl rfl
  | send pc =>
      right
      rw [idle pc (by decide)]
      by_cases none : handler.sendBuffer = []
      · exact (idle (if_pos none) (by decide)).symm
      · exact (idle (if_neg none) (by decide)).symm
  | closeSocket pc => exact Or.inr (same pc rfl)
  | complete pc => exact Or.inr (same pc rfl)
  | closeFinal fd pc => exact Or.inr (same pc rfl)

variable [DecidableEq τ]

/-- The arguments with which a thread calls `ioctl` along a run. -/
def issued (self : τ) (source : ServerState τ) (events : List (ServerEvent τ)) :
    List AesdSeekto :=
  observe sharedStep (ofThread self Handler.seeks) source events

/-- So it does among other threads and processes. -/
theorem pendingSeek_run {source server : ServerState τ} {events : List (ServerEvent τ)}
    {outputs : List (Option (τ × Answer))}
    (execution : run sharedStep source events = some (outputs, server))
    (silent : iterations self outputs = 0) :
    (server.handlers self).pc = .returned false ∨
      (source.handlers self).pendingSeek =
        issued self source events ++ (server.handlers self).pendingSeek := by
  refine run_induction (motive := fun events outputs server => iterations self outputs = 0 →
    ((server.handlers self).pc = .returned false ∨ (source.handlers self).pendingSeek =
      issued self source events ++ (server.handlers self).pendingSeek)) ?_ ?_ execution silent
  · intro _
    exact Or.inr rfl
  · intro events outputs middle event output target front kept step silent
    rw [iterations_concat, Nat.add_eq_zero_iff] at silent
    rw [issued, observe_concat _ front step]
    rcases sharedStep_cases self step with
      ⟨_, foreign, same⟩ | ⟨outcome, answer, rfl, rfl, taken⟩
    · rw [ofThread_of_ne _ foreign, same, List.append_nil]
      exact kept silent.1
    · have notReceived : answer.isReceived = false := by
        simpa [receivedBy] using silent.2
      rcases kept silent.1 with gaveUp | before
      · simp [handlerStep, gaveUp] at taken
      · rcases (handlerStep_cases taken).pendingSeek notReceived with gaveUp | now
        · exact Or.inl gaveUp
        · right
          rw [before, now, ← List.append_assoc]
          simp only [ofThread, if_true]
          rfl

/-- In an iteration of the receive loop that is not given up, the handler issues
exactly the command that the chunk is, if it is one, exactly if a receive buffer
that starts with the text reads as the chunk. -/
theorem seek_commands_parsed_iff (self : τ) {source server : ServerState τ} {outcome : Outcome}
    {events : List (ServerEvent τ)} {outputs : List (Option (τ × Answer))} {chunk : Chunk}
    {chunks : List Chunk} (pc : (source.handlers self).pc = .recv)
    (incoming : (source.handlers self).incoming = chunk :: chunks)
    (works : outcome.fails = false)
    (execution : run sharedStep source (.thread self outcome :: events) = some (outputs, server))
    (once : iterations self outputs = 1) (alive : (server.handlers self).pc ≠ .returned false)
    (ended : (server.handlers self).pc.branch ≠ some true) :
    (∀ arg, arg ∈ issued self source (.thread self outcome :: events) ↔
        IsSeekCommand chunk.1 arg) ↔
      (startsWithIoctlStr (receiveInto (source.handlers self).receiveBuffer chunk.1) = true →
        ∃ arg, ReadsAs chunk.1
          ((source.handlers self).receiveBuffer.drop chunk.1.length ++ outcome.beyond) arg) := by
  rcases (run_cons_eq_some_iff ..).mp execution with
    ⟨output, middle, rest, first, remaining, rfl⟩
  rcases sharedStep_cases self first with ⟨foreign, _⟩ | ⟨outcome', answer, own, rfl, taken⟩
  · exact absurd rfl (foreign outcome)
  cases own
  simp only [handlerStep, pc, works, Bool.false_eq_true, if_false, Option.some.injEq,
    Prod.mk.injEq] at taken
  rcases taken with ⟨rfl, received, _⟩
  have silent : iterations self rest = 0 := by
    simpa [iterations, receivedBy, Answer.isReceived] using once
  have issues : issued self source (.thread self outcome :: events) =
      issued self middle events := by
    simp [issued, observe, first, ofThread, Handler.seeks]
  have all : issued self source (.thread self outcome :: events) =
      ((source.handlers self).receive outcome).request.toList := by
    have made := (pendingSeek_run remaining silent).resolve_left alive
    have idle : (server.handlers self).pendingSeek = [] := if_neg ended
    rw [idle, List.append_nil, ← received, Handler.pendingSeek_receive] at made
    exact issues.trans made.symm
  rw [← request_receive_iff (source.handlers self) outcome incoming]
  simp only [all, Option.mem_toList]

end

/-- The command `"AESDCHAR_IOCSEEKTO:1,2\n"` in a cleared buffer. -/
theorem seek_commands_parsed_iff_line :
    ⟨1, 2⟩ ∈ issued () (oneClient [⟨ioctlStr ++ [49, 44, 50, 10], by decide⟩])
      (List.replicate 6 (.thread () (.success 4))) := by
  let source : ServerState Unit := oneClient [⟨ioctlStr ++ [49, 44, 50, 10], by decide⟩]
  have seek : SeekCommand (ioctlStr ++ [49, 44, 50, 10]) ⟨1, 2⟩ [49] [50] [10] :=
    ⟨rfl, ⟨by decide, by decide +kernel, by decide⟩,
      ⟨by decide, by decide +kernel, by decide⟩, by decide +kernel⟩
  have iterated : (run sharedStep source (List.replicate 6 (.thread () (.success 4)))).map
      (fun result => (iterations () result.1, (result.2.handlers ()).pc)) =
        some (1, .lock .respond) := by decide +kernel
  rcases Option.map_eq_some_iff.mp iterated with ⟨⟨outputs, server⟩, execution, result⟩
  rw [Prod.mk.injEq] at result
  have reads : ReadsAs (ioctlStr ++ [49, 44, 50, 10])
      ((source.handlers ()).receiveBuffer.drop 23 ++ []) ⟨1, 2⟩ :=
    ⟨[49], [50], [10], seek, by decide +kernel⟩
  have exact' := seek_commands_parsed_iff () (show (source.handlers ()).pc = .recv from rfl) rfl rfl
    execution result.1 (by rw [result.2]; decide) (by rw [result.2]; decide)
  exact (exact'.mpr (fun _ => ⟨_, reads⟩) _).mpr ⟨_, _, _, seek⟩

/-- For `"AESDCHAR_IOCSEEKTO:x\n"` the handler seeks with what the uninitialised
structure contains; after `"AESDCHAR_IOCSEEKTO:1,23"` it takes the command
`"AESDCHAR_IOCSEEKTO:1,2"` for the one with offset 23. -/
theorem seeks_differ_from_commands :
    ¬(∀ arg, arg ∈ issued () (oneClient [⟨ioctlStr ++ [120, 10], by decide⟩])
        (List.replicate 6 (.thread () (.success 4))) ↔ IsSeekCommand (ioctlStr ++ [120, 10]) arg) ∧
    ∃ outputs middle, run sharedStep (oneClient [⟨ioctlStr ++ [49, 44, 50, 51], by decide⟩,
          ⟨ioctlStr ++ [49, 44, 50], by decide⟩]) (List.replicate 6 (.thread () (.success 4))) =
        some (outputs, middle) ∧
      ¬(∀ arg, arg ∈ issued () middle (List.replicate 6 (.thread () (.success 5))) ↔
        IsSeekCommand (ioctlStr ++ [49, 44, 50]) arg) := by
  constructor
  · intro exact'
    have seeks : ⟨0, 0⟩ ∈ issued () (oneClient [⟨ioctlStr ++ [120, 10], by decide⟩])
        (List.replicate 6 (.thread () (.success 4))) := by decide +kernel
    rcases (exact' ⟨0, 0⟩).mp seeks with ⟨writeCmd, writeCmdOffset, rest, seek⟩
    have scanned := scanDecimal_append seek.command.nonempty seek.command.digits
      (44 :: (writeCmdOffset ++ rest))
    rw [← List.append_cancel_left seek.split] at scanned
    exact absurd scanned (by simp [show scanDecimal [120, 10] = none by decide])
  · have second : (run sharedStep (oneClient [⟨ioctlStr ++ [49, 44, 50, 51], by decide⟩,
        ⟨ioctlStr ++ [49, 44, 50], by decide⟩]) (List.replicate 6 (.thread () (.success 4)))).map
          (fun result => issued () result.2 (List.replicate 6 (.thread () (.success 5)))) =
        some [⟨1, 23⟩] := by decide +kernel
    rcases Option.map_eq_some_iff.mp second with ⟨⟨outputs, middle⟩, execution, seeks⟩
    refine ⟨outputs, middle, execution, ?_⟩
    intro exact'
    have seek : SeekCommand (ioctlStr ++ [49, 44, 50]) ⟨1, 2⟩ [49] [50] [] :=
      ⟨rfl, ⟨by decide, by decide +kernel, by decide⟩,
        ⟨by decide, by decide +kernel, by decide⟩, by decide +kernel⟩
    have member := (exact' ⟨1, 2⟩).mpr ⟨_, _, _, seek⟩
    rw [seeks] at member
    exact absurd member (by decide)

end Aesd.Server
