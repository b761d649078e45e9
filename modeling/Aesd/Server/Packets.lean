import Aesd.Server.Service

/-!
# Packets of concurrent clients

The driver assembles lines in one write buffer for all descriptors, and the
mutex of the server covers a single write.  A run in which every write continues
the packet that its own handler has begun commits whole packets, each of them
once; two handlers whose chunks alternate mix their packets in one line.
-/

namespace Aesd.Server

open Aesd.Driver Aesd.Transition Aesd.Word

/-- One newline, at the end. -/
def IsPacket (bytes : List Byte) : Prop :=
  ∃ body, newline ∉ body ∧ bytes = body ++ [newline]

theorem IsPacket.mem {bytes : List Byte} (packet : IsPacket bytes) : newline ∈ bytes := by
  rcases packet with ⟨body, _, rfl⟩
  simp

/-- Nothing follows the newline of a packet. -/
theorem IsPacket.eq_nil_of_mem {bytes front back : List Byte} (packet : IsPacket bytes)
    (split : front ++ back = bytes) (found : newline ∈ front) : back = [] := by
  rcases packet with ⟨body, absent, rfl⟩
  rcases List.eq_nil_or_concat back with none | ⟨rest, last, rfl⟩
  · exact none
  · rw [List.concat_eq_append, ← List.append_assoc] at split
    have same := (List.append_inj' split rfl).1
    rw [← same] at absent
    exact absurd (List.mem_append_left rest found) absent

/-! ## What a step gives to the device -/

namespace Handler

/-- The bytes that the device takes in a step. -/
def gives (handler : Handler) : Answer → List Byte
  | .used .write _ ret => handler.received.take ret.toNat
  | _ => []

theorem gives_write (handler : Handler) (fd : Int) :
    handler.gives (.used .write fd (consumed handler.received).length) =
      consumed handler.received :=
  (List.prefix_iff_eq_take.mp (firstLine_isPrefix handler.received)).symm

theorem mem_received_of_mem_gives {handler : Handler} {answer : Answer} {byte : Byte}
    (member : byte ∈ handler.gives answer) : byte ∈ handler.received := by
  unfold gives at member
  split at member
  · exact List.mem_of_mem_take member
  · contradiction

theorem due_goto {handler : Handler} {pc : Pc} (stage : handler.pc.stage = pc.stage) :
    (handler.goto pc).due = handler.due := by
  simp only [due, stage]
  rfl

theorem due_of_responding {handler : Handler} (stage : handler.pc.stage = .responding) :
    handler.due = [] := by
  simp only [due, stage]

theorem due_receive (handler : Handler) (outcome : Outcome) :
    (handler.receive outcome).due = suppliedBy handler.receiveBuffer handler.incoming := by
  rw [suppliedBy_receive handler outcome]
  have pc : (handler.receive outcome).pc =
      .openFile (if (handler.receive outcome).ioctlCheck then .seek else .data) := rfl
  cases check : (handler.receive outcome).ioctlCheck <;> simp [due, pc, check, Pc.stage]

theorem due_afterIteration (handler : Handler) : handler.afterIteration.due = handler.later := by
  unfold afterIteration later
  split
  · split
    · rfl
    · rfl
  · rfl

/-- The handler has not come to the newline of its stream. -/
def Unfinished (handler : Handler) : Prop :=
  match handler.pc.stage with
  | .receiving => handler.due ≠ []
  | .writing => handler.due ≠ []
  | .iterating => newline ∈ handler.received ∨ handler.due ≠ []
  | .responding => True

end Handler

section

variable {τ : Type} {self : τ} {outcome : Outcome} {handler handler' : Handler}
  {process process' : Process τ} {answer : Answer}

/-- The descriptor of the write that is the next call. -/
def Pc.writes : Pc → Option Int
  | .call .write fd => some fd
  | _ => none

/-- The write that is the next call is not refused the enlargement of a line in
progress. -/
def Handler.KeepsLine (handler : Handler) (process : Process τ) (outcome : Outcome) : Prop :=
  ∀ fd ∈ handler.pc.writes, ¬WriteCall.GrowthRefused process.system
    ⟨outcome.write, some fd.toNat, some handler.received⟩

instance (handler : Handler) (process : Process τ) (outcome : Outcome) :
    Decidable (handler.KeepsLine process outcome) :=
  inferInstanceAs (Decidable (∀ fd ∈ handler.pc.writes, _))

/-- The device takes what the step gives. -/
theorem HandlerStep.represents {history : List Byte} (represents : Represents process.system history)
    (keeps : handler.KeepsLine process outcome)
    (step : HandlerStep self outcome handler process answer handler' process') :
    Represents process'.system (history ++ handler.gives answer) := by
  have still (fPos : FileId → Int) :
      Represents { process.system with fPos := fPos } (history ++ []) :=
    (List.append_nil history).symm ▸ represents.congr_fPos fPos
  have read {fd ret : Int} {bytes : List Byte} {process'' : Process τ}
      (call : process.sysRead outcome fd bufLen = some (ret, bytes, process'')) :
      Represents process''.system (history ++ []) := by
    rcases Process.sysRead_moves represents.toCarries call with ⟨fPos, rfl⟩
    exact still fPos
  cases step with
  | recvFails pc => exact still _
  | recv pc works => exact still _
  | openFile site fd _ pc call =>
      rcases Process.sysOpen_cases call with ⟨_, _, rfl⟩ | ⟨_, _, _, rfl⟩
      · exact still _
      · exact still _
  | assign site fd pc => exact still _
  | check site pc => exact still _
  | lock loop pc free => exact still _
  | load use pc => exact still _
  | ioctl fd pc =>
      rcases process.sysIoctl_moves outcome fd handler.aesdSeektoData with ⟨fPos, moved⟩
      rw [moved]
      exact still fPos
  | writeFails fd _ pc call =>
      rcases Process.sysWrite_represents represents (keeps fd (congrArg Pc.writes pc)) call with
        ⟨_, represents'⟩ | ⟨impossible, _⟩
      · exact (List.append_nil history).symm ▸ represents'
      · omega
  | write fd ret _ pc call works =>
      rcases Process.sysWrite_represents represents (keeps fd (congrArg Pc.writes pc)) call with
        ⟨failed, _⟩ | ⟨rfl, represents'⟩
      · exact absurd failed works
      · rw [Handler.gives_write]
        exact represents'
  | closeData fd pc =>
      rw [(Process.sysClose_frame ..).2.2]
      exact still _
  | readFails fd bytes _ pc call => exact read call
  | read fd ret bytes _ pc call works => exact read call
  | unlock loop pc => exact still _
  | sendFails pc => exact still _
  | send pc => exact still _
  | closeSocket pc => exact still _
  | complete pc => exact still _
  | closeFinal fd pc =>
      rw [(Process.sysClose_frame ..).2.2]
      exact still _

/-- A handler that goes on has the rest still to give. -/
theorem HandlerStep.due_eq {history : List Byte} (represents : Represents process.system history)
    (keeps : handler.KeepsLine process outcome)
    (step : HandlerStep self outcome handler process answer handler' process')
    (alive : handler'.pc ≠ .returned false) :
    handler.due = handler.gives answer ++ handler'.due := by
  have same {pc pc' : Pc} (here : handler.pc = pc) (stage : pc.stage = pc'.stage) :
      handler.due = [] ++ (handler.goto pc').due :=
    (Handler.due_goto ((congrArg Pc.stage here).trans stage)).symm
  cases step with
  | recvFails pc => exact absurd rfl alive
  | recv pc works =>
      rw [Handler.due_receive]
      simp [Handler.due, pc, Pc.stage, Handler.gives]
  | openFile site fd _ pc call => exact same pc (by cases site <;> rfl)
  | assign site fd pc => exact same pc (by cases site <;> rfl)
  | check site pc =>
      rcases stage_afterCheck site process.dataFileDescriptor with stage | failed
      · exact same pc stage.symm
      · exact absurd failed alive
  | lock loop pc free => exact same pc (by cases loop <;> rfl)
  | load use pc => exact same pc (by cases use <;> rfl)
  | ioctl fd pc =>
      rw [Handler.due_afterIteration]
      simp [Handler.due, pc, Pc.stage, Handler.gives]
  | writeFails fd _ pc call => exact absurd rfl alive
  | write fd ret _ pc call works =>
      rcases Process.sysWrite_represents represents (keeps fd (congrArg Pc.writes pc)) call with
        ⟨failed, _⟩ | ⟨rfl, _⟩
      · exact absurd failed works
      · rw [Handler.gives_write]
        simp only [Handler.due, pc, Pc.stage]
        rfl
  | closeData fd pc =>
      rw [Handler.due_afterIteration]
      simp [Handler.due, pc, Pc.stage, Handler.gives]
  | readFails fd bytes _ pc call => exact absurd rfl alive
  | read fd ret bytes _ pc call works =>
      rw [Handler.due_of_responding (by rw [pc]; rfl)]
      rfl
  | unlock loop pc => exact same pc (by cases loop <;> rfl)
  | sendFails pc => exact absurd rfl alive
  | send pc =>
      rw [Handler.due_of_responding (by rw [pc]; rfl), Handler.due_of_responding]
      · rfl
      · by_cases none : handler.sendBuffer = [] <;> simp only [none, if_true, if_false] <;> rfl
  | closeSocket pc => exact same pc rfl
  | complete pc =>
      rw [Handler.due_of_responding (by rw [pc]; rfl)]
      rfl
  | closeFinal fd pc => exact same pc rfl

/-- Only a write gives something to the device. -/
theorem HandlerStep.gives_cases
    (step : HandlerStep self outcome handler process answer handler' process') :
    handler.gives answer = [] ∧ handler.pc.writes = none ∨
      ∃ fd, handler.pc = .call .write fd ∧
        (handler'.pc = .returned false ∧ handler.gives answer = [] ∨
          handler' = handler.goto (.unlock .receive)) := by
  have none {pc : Pc} (here : handler.pc = pc) (notWrite : pc.writes = none) :
      handler.pc.writes = none := here ▸ notWrite
  cases step with
  | writeFails fd _ pc => exact Or.inr ⟨fd, pc, Or.inl ⟨rfl, rfl⟩⟩
  | write fd ret _ pc => exact Or.inr ⟨fd, pc, Or.inr rfl⟩
  | recvFails pc => exact Or.inl ⟨rfl, none pc rfl⟩
  | recv pc => exact Or.inl ⟨rfl, none pc rfl⟩
  | openFile site fd _ pc => exact Or.inl ⟨rfl, none pc rfl⟩
  | assign site fd pc => exact Or.inl ⟨rfl, none pc rfl⟩
  | check site pc => exact Or.inl ⟨rfl, none pc rfl⟩
  | lock loop pc => exact Or.inl ⟨rfl, none pc rfl⟩
  | load use pc => exact Or.inl ⟨rfl, none pc rfl⟩
  | ioctl fd pc => exact Or.inl ⟨rfl, none pc rfl⟩
  | closeData fd pc => exact Or.inl ⟨rfl, none pc rfl⟩
  | readFails fd _ _ pc => exact Or.inl ⟨rfl, none pc rfl⟩
  | read fd ret _ _ pc => exact Or.inl ⟨rfl, none pc rfl⟩
  | unlock loop pc => exact Or.inl ⟨rfl, none pc rfl⟩
  | sendFails pc => exact Or.inl ⟨rfl, none pc rfl⟩
  | send pc => exact Or.inl ⟨rfl, none pc rfl⟩
  | closeSocket pc => exact Or.inl ⟨rfl, none pc rfl⟩
  | complete pc => exact Or.inl ⟨rfl, none pc rfl⟩
  | closeFinal fd pc => exact Or.inl ⟨rfl, none pc rfl⟩

/-- Apart from a write, a handler that has not come to its newline keeps what it
has still to give. -/
theorem HandlerStep.unfinished (unfinished : handler.Unfinished)
    (step : HandlerStep self outcome handler process answer handler' process')
    (due_eq : handler'.pc ≠ .returned false → handler'.due = handler.due)
    (notWrite : ∀ fd, handler.pc ≠ .call .write fd) : handler'.Unfinished := by
  unfold Handler.Unfinished at unfinished ⊢
  cases step.stageStep with
  | receives pc =>
      have left : (handler.receive outcome).due ≠ [] := by
        rw [due_eq Pc.noConfusion]
        rwa [pc] at unfinished
      cases stage : (handler.receive outcome).pc.stage with
      | receiving => exact left
      | writing => exact left
      | iterating => exact Or.inr left
      | responding => trivial
  | @writes fd pc => exact absurd pc (notWrite fd)
  | keeps here stage =>
      rw [Handler.due_goto ((congrArg Pc.stage here).trans stage)]
      rwa [here, stage] at unfinished
  | iterates stage absent =>
      have same : (handler.goto .recv).due = handler.due := by
        rw [due_eq Pc.noConfusion]
      rw [stage] at unfinished
      exact (congrArg (· ≠ []) same).mpr (unfinished.resolve_left absent)
  | responds stage =>
      rw [stage]
      trivial

end

/-! ## Runs of the server -/

section

variable {τ : Type}

/-- The call that the step made has failed. -/
def Answer.failed : Answer → Bool
  | .silent => false
  | .received ret => ret == -1
  | .opened fd => fd == -1
  | .used _ _ ret => ret == -1
  | .sentBytes ret => ret == -1

/-- The line that a step commits. -/
def committedLine (server : ServerState τ) (_ : τ × Outcome) (_ : Answer)
    (server' : ServerState τ) : List (List Byte) :=
  server.process.system.committedLine server'.process.system

/-- A write continues the packet of its own handler: with what is pending in the
device, what the handler has still to give makes up its packet.  The write is not
refused the enlargement of a line in progress. -/
def ContinuesOwnPacket (clients : τ → List Chunk) (server : ServerState τ)
    (event : τ × Outcome) : Prop :=
  (server.handlers event.1).KeepsLine server.process event.2 ∧
    ∀ _ ∈ (server.handlers event.1).pc.writes, ∀ pending ∈ server.process.system.pendingBytes,
      pending ++ (server.handlers event.1).due = streamOf (clients event.1)

instance (clients : τ → List Chunk) (server : ServerState τ) (event : τ × Outcome) :
    Decidable (ContinuesOwnPacket clients server event) :=
  inferInstanceAs (Decidable (_ ∧ ∀ _ ∈ (server.handlers event.1).pc.writes,
    ∀ pending ∈ server.process.system.pendingBytes, _))

/-- What holds along a run, given the lines committed before and during it, and
the bytes taken from each handler. -/
structure PacketInvariant (clients : τ → List Chunk) (before committed : List (List Byte))
    (taken : τ → List Byte) (server : ServerState τ) : Prop where
  order : ∃ history, ∃ order : List τ, Represents server.process.system history ∧
    committedLines history = before ++ committed ∧
    committed = order.map (fun thread => streamOf (clients thread)) ∧ order.Nodup ∧
    ∀ thread, thread ∈ order ↔ taken thread = streamOf (clients thread)
  due : ∀ thread, (server.handlers thread).pc ≠ .returned false →
    taken thread ++ (server.handlers thread).due = streamOf (clients thread)
  unfinished : ∀ thread, (server.handlers thread).Unfinished

theorem committedLine_of_same {server server' : ServerState τ} {history history' : List Byte}
    (represents : Represents server.process.system history)
    (represents' : Represents server'.process.system history')
    (same : committedLines history' = committedLines history) (event : τ × Outcome)
    (answer : Answer) : committedLine server event answer server' = [] :=
  represents.committedLine_nil (same ▸ represents'.toCarries)

theorem committedLine_of_append {server server' : ServerState τ} {history history' : List Byte}
    {line : List Byte} (represents : Represents server.process.system history)
    (represents' : Represents server'.process.system history')
    (added : committedLines history' = committedLines history ++ [line]) (event : τ × Outcome)
    (answer : Answer) : committedLine server event answer server' = [line] :=
  represents.committedLine_concat (added ▸ represents'.toCarries)

variable [DecidableEq τ]

/-- The bytes that the device takes from one handler. -/
def takenFrom (thread : τ) (server : ServerState τ) (event : τ × Outcome) (answer : Answer)
    (_ : ServerState τ) : List Byte :=
  if event.1 = thread then (server.handlers event.1).gives answer else []

/-- The lines that a run commits are whole packets, each of one client; a client
is among them exactly if the device has taken its whole packet. -/
def CommitsPackets (clients : τ → List Chunk) (source : ServerState τ)
    (events : List (τ × Outcome)) : Prop :=
  ∃ order : List τ, order.Nodup ∧
    observe serverStep committedLine source events =
      order.map (fun thread => streamOf (clients thread)) ∧
    ∀ thread, thread ∈ order ↔
      observe serverStep (takenFrom thread) source events = streamOf (clients thread)

omit [DecidableEq τ] in
/-- The device has taken no newline from a handler that has something to give. -/
theorem PacketInvariant.not_mem_taken {clients : τ → List Chunk}
    {before committed : List (List Byte)} {taken : τ → List Byte} {server : ServerState τ}
    (packets : ∀ thread, IsPacket (streamOf (clients thread)))
    (invariant : PacketInvariant clients before committed taken server) {thread : τ}
    (alive : (server.handlers thread).pc ≠ .returned false)
    (some' : (server.handlers thread).due ≠ []) : newline ∉ taken thread :=
  fun found => some' ((packets thread).eq_nil_of_mem (invariant.due thread alive) found)

omit [DecidableEq τ] in
/-- The bytes that end a packet commit it. -/
private theorem committedLines_append_packet {history taken gives packet : List Byte}
    (isPacket : IsPacket packet) (pending : pendingLine history = taken) (some' : gives ≠ [])
    (whole : taken ++ gives = packet) :
    committedLines (history ++ gives) = committedLines history ++ [packet] := by
  rcases isPacket with ⟨body, absent, isPacket⟩
  rcases (List.eq_nil_or_concat gives).resolve_left some' with ⟨rest, last, rfl⟩
  rw [isPacket, List.concat_eq_append, ← List.append_assoc] at whole
  rcases List.append_inj' whole rfl with ⟨bodyEq, lastEq⟩
  cases lastEq
  rw [← bodyEq] at absent
  have clean : newline ∉ rest := fun inside => absent (List.mem_append_right _ inside)
  rw [List.concat_eq_append, committedLines, (lines_append_line history clean).1]
  rw [show remainder newline history = taken from pending, isPacket, ← bodyEq, List.append_assoc]

omit [DecidableEq τ] in
/-- Without its newline the packet is not complete, before or after a write. -/
theorem PacketInvariant.whole_iff {clients : τ → List Chunk} {before committed : List (List Byte)}
    {taken : τ → List Byte} {server : ServerState τ} {thread : τ} {gives : List Byte}
    (packets : ∀ thread, IsPacket (streamOf (clients thread)))
    (invariant : PacketInvariant clients before committed taken server)
    (alive : (server.handlers thread).pc ≠ .returned false)
    (some' : gives ≠ [] → (server.handlers thread).due ≠ []) (absent : newline ∉ gives) :
    taken thread = streamOf (clients thread) ↔
      taken thread ++ gives = streamOf (clients thread) := by
  by_cases none : gives = []
  · rw [none, List.append_nil]
  · have clean := invariant.not_mem_taken packets alive (some' none)
    have newlineIn := (packets thread).mem
    constructor
    · intro complete
      exact absurd (complete ▸ newlineIn) clean
    · intro complete
      rcases List.mem_append.mp (complete ▸ newlineIn) with inside | inside
      · exact absurd inside clean
      · exact absurd inside absent

/-- The lines and the order of the packets after a step that gives `gives` to the
device. -/
private theorem PacketInvariant.order_step {clients : τ → List Chunk}
    {before committed : List (List Byte)} {taken : τ → List Byte} {server server' : ServerState τ}
    {thread : τ} {outcome : Outcome} {answer : Answer} {gives : List Byte}
    (packets : ∀ thread, IsPacket (streamOf (clients thread)))
    (invariant : PacketInvariant clients before committed taken server)
    (device : ∀ history, Represents server.process.system history →
      Represents server'.process.system (history ++ gives))
    (alive : (server.handlers thread).pc ≠ .returned false)
    (some' : gives ≠ [] → (server.handlers thread).due ≠ [])
    (continues : gives ≠ [] → ∀ pending ∈ server.process.system.pendingBytes,
      pending ++ (server.handlers thread).due = streamOf (clients thread))
    (ends : newline ∈ gives → taken thread ++ gives = streamOf (clients thread)) :
    ∃ history, ∃ order : List τ, Represents server'.process.system history ∧
      committedLines history =
        before ++ (committed ++ committedLine server (thread, outcome) answer server') ∧
      committed ++ committedLine server (thread, outcome) answer server' =
        order.map (fun thread => streamOf (clients thread)) ∧ order.Nodup ∧
      ∀ other, other ∈ order ↔
        taken other ++ (if thread = other then gives else []) = streamOf (clients other) := by
  rcases invariant.order with ⟨history, order, represents, lines, committedEq, nodup, whole⟩
  have represents' := device history represents
  have whole_other : ∀ other, thread ≠ other → (other ∈ order ↔
      taken other ++ (if thread = other then gives else []) = streamOf (clients other)) := by
    intro other different
    rw [if_neg different, List.append_nil]
    exact whole other
  by_cases found : newline ∈ gives
  · -- the write ends the packet, and commits it
    have some'' : gives ≠ [] := List.ne_nil_of_mem found
    have packet := ends found
    have notYet : thread ∉ order := by
      intro member
      have complete := (whole thread).mp member
      rw [← complete] at packet
      exact some'' (List.append_right_eq_self.mp packet)
    have pending : pendingLine history = taken thread := by
      have own := continues some'' _ represents.pendingBytes
      rw [← invariant.due thread alive] at own
      exact List.append_cancel_right own
    have committed' := committedLines_append_packet (packets thread) pending some'' packet
    refine ⟨history ++ gives, order ++ [thread], represents', ?_, ?_, ?_, ?_⟩
    · rw [committedLine_of_append represents represents' committed', committed', lines,
        List.append_assoc]
    · rw [committedLine_of_append represents represents' committed', List.map_append, committedEq]
      rfl
    · rw [List.nodup_append]
      refine ⟨nodup, List.pairwise_singleton .., ?_⟩
      rintro other member _ last rfl
      rw [List.mem_singleton.mp last] at member
      exact notYet member
    · intro other
      by_cases same : thread = other
      · subst same
        rw [if_pos rfl]
        exact iff_of_true (List.mem_append_right _ List.mem_cons_self) packet
      · rw [← whole_other other same, List.mem_append, List.mem_singleton,
          or_iff_left (Ne.symm same)]
  · have committed' : committedLines (history ++ gives) = committedLines history :=
      (lines_append_of_not_mem history found).1
    rw [committedLine_of_same represents represents' committed', List.append_nil]
    refine ⟨history ++ gives, order, represents', committed'.trans lines, committedEq, nodup, ?_⟩
    intro other
    by_cases same : thread = other
    · subst same
      rw [if_pos rfl, whole thread]
      exact invariant.whole_iff packets alive some' found
    · exact whole_other other same

/-- A step keeps the invariant when its write continues the packet of its own
handler. -/
theorem PacketInvariant.step {clients : τ → List Chunk} {before committed : List (List Byte)}
    {taken : τ → List Byte} {server server' : ServerState τ} {event : τ × Outcome}
    {answer : Answer} (packets : ∀ thread, IsPacket (streamOf (clients thread)))
    (invariant : PacketInvariant clients before committed taken server)
    (continues : ContinuesOwnPacket clients server event)
    (step : serverStep server event = some (answer, server')) :
    PacketInvariant clients before (committed ++ committedLine server event answer server')
      (fun thread => taken thread ++ takenFrom thread server event answer server') server' := by
  rcases event with ⟨thread, outcome⟩
  rcases serverStep_eq_some_iff.mp step with ⟨handler', process', taken', rfl⟩
  have alive : (server.handlers thread).pc ≠ .returned false := by
    intro returned
    simp [handlerStep, returned] at taken'
  have unfinished := invariant.unfinished thread
  have due := invariant.due thread alive
  replace taken' := handlerStep_cases taken'
  -- the equation for what is still to give holds on any history; one is at hand
  rcases invariant.order with ⟨history, _, represents, _⟩
  have dueEq := taken'.due_eq represents continues.1
  have writing : ∀ fd, (server.handlers thread).pc = .call .write fd →
      (server.handlers thread).due ≠ [] := by
    intro fd pc
    rwa [Handler.Unfinished, pc] at unfinished
  constructor
  case order =>
    have device : ∀ history, Represents server.process.system history →
        Represents process'.system (history ++ (server.handlers thread).gives answer) :=
      fun history represents => taken'.represents represents continues.1
    apply invariant.order_step packets device alive
    · intro some'
      rcases taken'.gives_cases with ⟨none, _⟩ | ⟨fd, pc, _⟩
      · exact absurd none some'
      · exact writing fd pc
    · intro some'
      rcases taken'.gives_cases with ⟨none, _⟩ | ⟨fd, pc, _⟩
      · exact absurd none some'
      · exact continues.2 fd (congrArg Pc.writes pc)
    · intro found
      rcases taken'.gives_cases with ⟨none, _⟩ | ⟨fd, pc, ⟨_, none⟩ | rfl⟩
      · exact absurd (none ▸ found) List.not_mem_nil
      · exact absurd (none ▸ found) List.not_mem_nil
      · rw [dueEq Pc.noConfusion, ← List.append_assoc] at due
        have last := (packets thread).eq_nil_of_mem due (List.mem_append_right _ found)
        rwa [last, List.append_nil] at due
  case due =>
    intro other
    by_cases same : thread = other
    · subst same
      simp only [takenFrom, if_true, Function.update_self]
      intro alive'
      rw [List.append_assoc, ← dueEq alive']
      exact due
    · simp only [takenFrom, if_neg same, Function.update_of_ne (Ne.symm same), List.append_nil]
      exact invariant.due other
  case unfinished =>
    intro other
    by_cases same : thread = other
    · subst same
      simp only [Function.update_self]
      rcases taken'.gives_cases with ⟨none, notWrite⟩ | ⟨fd, pc, ⟨returned, _⟩ | rfl⟩
      · apply taken'.unfinished unfinished
        · intro alive'
          rw [dueEq alive', none, List.nil_append]
        · intro fd pc
          rw [pc] at notWrite
          contradiction
      · rw [Handler.Unfinished, returned]
        trivial
      · by_cases found : newline ∈ (server.handlers thread).received
        · exact Or.inl found
        · right
          intro last
          rw [dueEq Pc.noConfusion, last, List.append_nil] at due
          rcases List.mem_append.mp (due ▸ (packets thread).mem) with inside | inside
          · exact invariant.not_mem_taken packets alive (writing fd pc) inside
          · exact found (Handler.mem_received_of_mem_gives inside)
    · simp only [Function.update_of_ne (Ne.symm same)]
      exact invariant.unfinished other

/-- A run in which every write continues the packet of its own handler commits
packets: whatever the interleaving, every line is the whole packet of one client,
and every packet that was written whole is committed once.  The first write of
such a run finds nothing pending in the device. -/
theorem continued_packets_are_not_intermixed (process : Process τ) (reachable : process.Reachable)
    (clientSocketFds : τ → Nat) (clients : τ → List Chunk)
    (packets : ∀ thread, IsPacket (streamOf (clients thread)))
    (noCommand : ∀ thread, NoCommand clearedBuffer (clients thread))
    (events : List (τ × Outcome)) (answers : List Answer) (server : ServerState τ)
    (continues : Along serverStep (ContinuesOwnPacket clients)
      (ServerState.start process clientSocketFds clients) events)
    (execution : run serverStep (ServerState.start process clientSocketFds clients) events =
      some (answers, server)) :
    CommitsPackets clients (ServerState.start process clientSocketFds clients) events := by
  let source := ServerState.start process clientSocketFds clients
  rcases reachable.represents with ⟨history, represents⟩
  have initial : PacketInvariant clients (committedLines history) [] (fun _ => []) source := by
    have whole : ∀ thread, (source.handlers thread).due = streamOf (clients thread) := by
      intro thread
      rcases packets thread with ⟨body, absent, isPacket⟩
      have line : consumed (streamOf (clients thread)) = streamOf (clients thread) := by
        rw [isPacket, consumed, firstLine_append_delimiter absent]
      exact (noCommand thread).suppliedBy_eq.trans line
    have some' : ∀ thread, streamOf (clients thread) ≠ [] :=
      fun thread => List.ne_nil_of_mem (packets thread).mem
    constructor
    case order =>
      refine ⟨history, [], represents, (List.append_nil _).symm, rfl, List.nodup_nil, ?_⟩
      intro thread
      exact iff_of_false List.not_mem_nil (some' thread).symm
    case due => exact fun thread _ => whole thread
    case unfinished =>
      intro thread
      exact (congrArg (· ≠ []) (whole thread)).mpr (some' thread)
  have final : PacketInvariant clients (committedLines history)
      (observe serverStep committedLine source events)
      (fun thread => observe serverStep (takenFrom thread) source events) server := by
    refine along_induction (motive := fun events _ server =>
      PacketInvariant clients (committedLines history)
        (observe serverStep committedLine source events)
        (fun thread => observe serverStep (takenFrom thread) source events) server)
      initial ?_ continues execution
    intro front outputs middle event answer target reached invariant guarded step
    have next := invariant.step packets guarded step
    simp only [observe_concat _ reached step]
    exact next
  rcases final.order with ⟨_, order, _, _, committed, nodup, whole⟩
  exact ⟨order, nodup, committed, whole⟩

end

/-- The clients of the two runs below, with two chunks each. -/
def twoClients : Bool → List Chunk
  | false => [⟨[97], by decide⟩, ⟨[98, 10], by decide⟩]
  | true => [⟨[99], by decide⟩, ⟨[100, 10], by decide⟩]

theorem isPacket_twoClients (thread : Bool) : IsPacket (streamOf (twoClients thread)) := by
  cases thread with
  | false => exact ⟨[97, 98], by decide, rfl⟩
  | true => exact ⟨[99, 100], by decide, rfl⟩

/-- Their handlers at the start. -/
def twoHandlers : ServerState Bool :=
  ServerState.start (Process.fresh Bool 6) (fun thread => if thread then 5 else 4) twoClients

/-- One iteration of the receive loop, in which every call succeeds. -/
def iteration (thread : Bool) : List (Bool × Outcome) :=
  List.replicate 10 (thread, .success 6)

/-- Two clients that write one after the other commit their packets. -/
theorem continued_packets_are_not_intermixed_in_turn :
    (run serverStep twoHandlers
      (iteration false ++ iteration false ++ iteration true ++ iteration true)).isSome ∧
    CommitsPackets twoClients twoHandlers
      (iteration false ++ iteration false ++ iteration true ++ iteration true) := by
  let events := iteration false ++ iteration false ++ iteration true ++ iteration true
  have ran : (run serverStep twoHandlers events).isSome := by decide +kernel
  constructor
  · exact ran
  · rcases Option.isSome_iff_exists.mp ran with ⟨⟨answers, server⟩, execution⟩
    exact continued_packets_are_not_intermixed (Process.fresh Bool 6)
      ⟨rfl, ⟨4096, by decide⟩, [], [], trivial, rfl⟩ (fun thread => if thread then 5 else 4)
      twoClients isPacket_twoClients (by decide) events answers server (by decide +kernel) execution

/-- Two clients whose chunks alternate mix the packets `"ab\n"` and `"cd\n"`,
although no call fails. -/
theorem alternating_writes_intermix_packets :
    let events := iteration false ++ iteration true ++ iteration false
    (∀ thread, IsPacket (streamOf (twoClients thread))) ∧
      (∀ thread, NoCommand clearedBuffer (twoClients thread)) ∧
      twoHandlers.process.Reachable ∧ twoHandlers.process.system.pendingBytes = some [] ∧
      Along serverStep (fun server event =>
        Succeeds (server.handlers event.1, server.process) event.2) twoHandlers events ∧
      (∃ answers server, run serverStep twoHandlers events = some (answers, server) ∧
        ∀ answer ∈ answers, answer.failed = false) ∧
      observe serverStep committedLine twoHandlers events = [[97, 99, 98, 10]] ∧
      ¬CommitsPackets twoClients twoHandlers events := by
  intro events
  have mixed : observe serverStep committedLine twoHandlers events = [[97, 99, 98, 10]] := by
    decide +kernel
  have ran : ((run serverStep twoHandlers events).map fun result =>
      result.1.all fun answer => !answer.failed) = some true := by decide +kernel
  refine ⟨isPacket_twoClients, by decide, ⟨rfl, ⟨4096, by decide⟩, [], [], trivial, rfl⟩,
    by decide, by decide +kernel, ?_, mixed, ?_⟩
  · rcases Option.map_eq_some_iff.mp ran with ⟨⟨answers, server⟩, execution, works⟩
    exact ⟨answers, server, execution, by simpa using works⟩
  · rintro ⟨order, _, committed, _⟩
    have member : [97, 99, 98, 10] ∈ order.map (fun thread => streamOf (twoClients thread)) := by
      rw [← committed, mixed]
      exact List.mem_cons_self
    rcases List.mem_map.mp member with ⟨thread, _, same⟩
    cases thread <;> exact absurd same (by decide)

end Aesd.Server
