import Aesd.Server.DescriptorUse
import Aesd.Server.Packets
import Aesd.Server.Response
import Aesd.Server.Sharing

/-!
# Short counts

The driver consumes a write up to its first newline, and a send may accept a part
of its data; the handler acts on neither count.  A handler that returns without
an error has lost nothing exactly if nothing follows the first newline in its
chunk, and every send has taken all it was given.
-/

namespace Aesd.Server

open Aesd.Driver Aesd.Transition Aesd.Word

namespace Handler

/-- What `recv` returns. -/
def receives (_ : Handler) : Answer → Handler → List Byte
  | .received ret, handler' => handler'.receiveBuffer.take ret.toNat
  | _, _ => []

/-- What the device accepts of a write. -/
def writes (handler : Handler) (answer : Answer) (_ : Handler) : List Byte :=
  handler.gives answer

/-- What is read from the device. -/
def reads (_ : Handler) : Answer → Handler → List Byte
  | .used .read _ ret, handler' => if ret = -1 then [] else handler'.sendBuffer
  | _, _ => []

/-- What `send` accepts. -/
def sends (handler : Handler) : Answer → Handler → List Byte
  | .sentBytes ret, _ => handler.sendBuffer.take ret.toNat
  | _, _ => []

end Handler

/-- Nothing follows the first newline in its chunk. -/
def EndsAtNewline (chunks : List Chunk) : Prop :=
  ∀ chunk ∈ chunks.find? fun chunk => newline ∈ chunk.1, consumed chunk.1 = chunk.1

instance (chunks : List Chunk) : Decidable (EndsAtNewline chunks) :=
  inferInstanceAs (Decidable (∀ chunk ∈ chunks.find? _, _))

theorem endsAtNewline_nil : EndsAtNewline [] := by
  rintro _ ⟨⟩

theorem endsAtNewline_cons (chunk : Chunk) (chunks : List Chunk) :
    EndsAtNewline (chunk :: chunks) ↔
      if newline ∈ chunk.1 then consumed chunk.1 = chunk.1 else EndsAtNewline chunks := by
  by_cases found : newline ∈ chunk.1 <;> simp [EndsAtNewline, found]

section

variable {τ : Type} [DecidableEq τ]

/-- The bytes that a view sees of one thread along a run. -/
def passed (self : τ) (view : Handler → Answer → Handler → List Byte) (source : ServerState τ)
    (events : List (ServerEvent τ)) : List Byte :=
  observe sharedStep (ofThread self view) source events

/-- The device has accepted every byte that `recv` returned to the thread, and
`send` every byte that was read, once and in order. -/
def LosesNothing (self : τ) (source : ServerState τ) (events : List (ServerEvent τ)) : Prop :=
  passed self Handler.receives source events = passed self Handler.writes source events ∧
    passed self Handler.reads source events = passed self Handler.sends source events

instance (self : τ) (source : ServerState τ) (events : List (ServerEvent τ)) :
    Decidable (LosesNothing self source events) :=
  inferInstanceAs (Decidable (_ ∧ _))

/-- A send of the thread takes all it is given. -/
def SendsWhole (self : τ) (server : ServerState τ) : ServerEvent τ → Prop
  | .thread thread outcome =>
      thread = self → (server.handlers self).pc = .send →
        (server.handlers self).sendBuffer.length ≤ outcome.accepted
  | .device _ => True

instance (self : τ) (server : ServerState τ) : ∀ event, Decidable (SendsWhole self server event)
  | .thread _ _ => inferInstanceAs (Decidable (_ → _ → _))
  | .device _ => isTrue trivial

end

/-! ## What is on its way -/

namespace Handler

/-- What has been received, but not accepted by the device. -/
def left (handler : Handler) : List Byte :=
  match handler.pc.stage with
  | .receiving => []
  | .writing => handler.received
  | _ => handler.received.drop (consumed handler.received).length

/-- The condition on the chunks, as far as it is still open. -/
def Tidy (handler : Handler) : Prop :=
  match handler.pc.stage with
  | .receiving => EndsAtNewline handler.incoming
  | _ =>
      if newline ∈ handler.received then consumed handler.received = handler.received
      else EndsAtNewline handler.incoming

/-- No iteration takes the seek branch. -/
def Plain (handler : Handler) : Prop :=
  startsWithIoctlStr handler.receiveBuffer = false ∧
    match handler.pc.stage with
    | .receiving => NoCommand handler.receiveBuffer handler.incoming
    | .responding => True
    | _ => newline ∈ handler.received ∨ NoCommand handler.receiveBuffer handler.incoming

/-- What has been read and not yet passed to `send`. -/
def held (handler : Handler) : List Byte :=
  if handler.pc.holds then handler.sendBuffer else []

end Handler

/-- The bytes received, written, read and sent so far; `whole` tells that no send
has been short. -/
structure Accounts (chunks : List Chunk) (received written fetched sent : List Byte) (whole : Prop)
    (handler : Handler) : Prop where
  plain : handler.Plain
  branch : handler.pc.branch ≠ some true
  received : received = written ++ handler.left
  tidy : EndsAtNewline chunks ↔ handler.Tidy
  found : handler.pc.stage = .responding → newline ∈ handler.received
  complete : whole → fetched = sent ++ handler.held
  short : ¬whole → (sent ++ handler.held).length < fetched.length

theorem accounts_start (clientSocketFd : Nat) {chunks : List Chunk}
    (noCommand : NoCommand clearedBuffer chunks) :
    Accounts chunks [] [] [] [] True (clientDataHandler clientSocketFd chunks) where
  plain := ⟨(by decide : startsWithIoctlStr clearedBuffer = false), noCommand⟩
  branch := (by decide : (none : Option Bool) ≠ some true)
  received := rfl
  tidy := Iff.rfl
  found := Stage.noConfusion
  complete _ := rfl
  short lost := absurd trivial lost

section

variable {τ : Type} {self : τ} {outcome : Outcome} {handler handler' : Handler}
  {process process' : Process τ} {answer : Answer} {chunks : List Chunk}
  {received written fetched sent : List Byte} {whole : Prop}

/-- What is held does not change. -/
theorem Accounts.of_held {received' written' : List Byte}
    (accounts : Accounts chunks received written fetched sent whole handler)
    (held : handler'.held = handler.held) (plain : handler'.Plain)
    (branch : handler'.pc.branch ≠ some true) (total : received' = written' ++ handler'.left)
    (tidy : EndsAtNewline chunks ↔ handler'.Tidy)
    (found : handler'.pc.stage = .responding → newline ∈ handler'.received) :
    Accounts chunks received' written' fetched sent whole handler' where
  plain := plain
  branch := branch
  received := total
  tidy := tidy
  found := found
  complete := held ▸ accounts.complete
  short := held ▸ accounts.short

/-- A step between two calls. -/
theorem Accounts.goto (accounts : Accounts chunks received written fetched sent whole handler)
    {pc : Pc} (stage : handler.pc.stage = pc.stage) (holds : handler.pc.holds = pc.holds)
    (branch : handler.pc.branch = pc.branch) :
    Accounts chunks received written fetched sent whole (handler.goto pc) := by
  have plain : (handler.goto pc).Plain ↔ handler.Plain := by
    simp only [Handler.Plain, stage]
    rfl
  have left : (handler.goto pc).left = handler.left := by
    simp only [Handler.left, stage]
    rfl
  have tidy : (handler.goto pc).Tidy ↔ handler.Tidy := by
    simp only [Handler.Tidy, stage]
    rfl
  have held : (handler.goto pc).held = handler.held := by
    simp only [Handler.held, holds]
    rfl
  apply accounts.of_held held
  · exact plain.mpr accounts.plain
  · exact fun seeks => accounts.branch (branch.trans seeks)
  · rw [left]
    exact accounts.received
  · rw [tidy]
    exact accounts.tidy
  · exact fun responding => accounts.found (stage.trans responding)

/-- After the close that ends an iteration. -/
theorem Accounts.afterIteration {fd : Int}
    (accounts : Accounts chunks received written fetched sent whole handler)
    (pc : handler.pc = .call .closeData fd) :
    Accounts chunks received written fetched sent whole handler.afterIteration := by
  have total := accounts.received
  rw [Handler.left, pc] at total
  have tidy := accounts.tidy
  rw [Handler.Tidy, pc] at tidy
  have idle : handler.held = [] := by
    rw [Handler.held, pc]
    rfl
  rcases accounts.plain with ⟨plain, later⟩
  rw [pc] at later
  by_cases found : newline ∈ handler.received
  · have next : ∃ pc', handler.afterIteration = handler.goto pc' ∧ pc'.stage = .responding ∧
        pc'.holds = false ∧ pc'.branch = none := by
      cases check : handler.ioctlCheck with
      | true =>
          exact ⟨.lock .respond, by simp [Handler.afterIteration, found, check], rfl, rfl, rfl⟩
      | false =>
          exact ⟨.openFile .response, by simp [Handler.afterIteration, found, check], rfl, rfl, rfl⟩
    rcases next with ⟨pc', next, stage, holds, branch⟩
    have idle' : (handler.goto pc').held = handler.held := by
      rw [idle]
      simp [Handler.held, Handler.goto, holds]
    rw [next]
    apply accounts.of_held idle'
    · simp only [Handler.Plain, Handler.goto, stage]
      exact ⟨plain, trivial⟩
    · simp [Handler.goto, branch]
    · simp only [Handler.left, Handler.goto, stage]
      exact total
    · simp only [Handler.Tidy, Handler.goto, stage]
      exact tidy
    · exact fun _ => found
  · have next : handler.afterIteration = handler.goto .recv := by
      simp [Handler.afterIteration, found]
    have nothing : handler.received.drop (consumed handler.received).length = [] := by
      rw [consumed, firstLine_of_not_mem found, List.drop_length]
    rw [next]
    have idle' : (handler.goto .recv).held = handler.held := idle.symm
    apply accounts.of_held idle'
    · exact ⟨plain, later.resolve_left found⟩
    · exact (by decide : (none : Option Bool) ≠ some true)
    · exact total.trans (congrArg (written ++ ·) nothing)
    · simp only [if_neg found] at tidy
      exact tidy
    · exact Stage.noConfusion

/-- The bytes of a chunk are left for the write. -/
theorem Accounts.recv (accounts : Accounts chunks received written fetched sent whole handler)
    (outcome : Outcome) (pc : handler.pc = .recv) :
    Accounts chunks
      (received ++ handler.receives (.received (handler.receive outcome).bytesReceived)
        (handler.receive outcome))
      (written ++ []) (fetched ++ []) (sent ++ []) whole (handler.receive outcome) := by
  have bytes := receive_received handler outcome
  rcases accounts.plain with ⟨plain, open'⟩
  have later : NoCommand handler.receiveBuffer handler.incoming := by
    rw [pc] at open'
    exact open'
  have total : received = written := by
    have none := accounts.received
    rw [Handler.left, pc] at none
    exact none.trans (List.append_nil written)
  have tidy : EndsAtNewline chunks ↔ EndsAtNewline handler.incoming := by
    have here := accounts.tidy
    rw [Handler.Tidy, pc] at here
    exact here
  have idle : handler.held = [] := by
    rw [Handler.held, pc]
    rfl
  have stillPlain : startsWithIoctlStr (handler.receive outcome).receiveBuffer = false ∧
      (newline ∈ (handler.receive outcome).received ∨
        NoCommand (handler.receive outcome).receiveBuffer (handler.receive outcome).incoming) := by
    rw [bytes]
    cases incoming : handler.incoming with
    | nil =>
        simp only [Handler.receive, incoming, receiveInto]
        exact ⟨plain, Or.inr trivial⟩
    | cons chunk chunks =>
        simp only [Handler.receive, incoming]
        rw [incoming] at later
        exact later
  have stillTidy : EndsAtNewline chunks ↔
      if newline ∈ (handler.receive outcome).received then
        consumed (handler.receive outcome).received = (handler.receive outcome).received
      else EndsAtNewline (handler.receive outcome).incoming := by
    rw [tidy, bytes]
    cases incoming : handler.incoming with
    | nil => simp [Handler.receive, incoming, endsAtNewline_nil]
    | cons chunk chunks => simp [Handler.receive, incoming, endsAtNewline_cons]
  have data : (handler.receive outcome).pc = .openFile .data := by
    have check : (handler.receive outcome).ioctlCheck = false := stillPlain.1
    have branch : (handler.receive outcome).pc =
        .openFile (if (handler.receive outcome).ioctlCheck then .seek else .data) := rfl
    simpa [check] using branch
  have returned : handler.receives (.received (handler.receive outcome).bytesReceived)
      (handler.receive outcome) = (handler.receive outcome).received := rfl
  rw [returned]
  generalize handler.receive outcome = handler' at *
  have idle' : handler'.held = handler.held := by
    rw [idle, Handler.held, data]
    rfl
  simp only [List.append_nil]
  apply accounts.of_held idle'
  · rw [Handler.Plain, data]
    exact stillPlain
  · rw [data]
    decide
  · rw [Handler.left, data, total]
    rfl
  · rw [Handler.Tidy, data]
    exact stillTidy
  · rw [data]
    exact Stage.noConfusion

/-- The device accepts the chunk up to its first newline. -/
theorem Accounts.write (accounts : Accounts chunks received written fetched sent whole handler)
    {fd : Int} (pc : handler.pc = .call .write fd) :
    Accounts chunks (received ++ [])
      (written ++ handler.gives (.used .write fd (consumed handler.received).length))
      (fetched ++ []) (sent ++ []) whole (handler.goto (.unlock .receive)) := by
  have plain := accounts.plain
  rw [Handler.Plain, pc] at plain
  have tidy := accounts.tidy
  rw [Handler.Tidy, pc] at tidy
  have total := accounts.received
  rw [Handler.left, pc] at total
  have idle : (handler.goto (.unlock .receive)).held = handler.held := by
    rw [Handler.held, Handler.held, pc]
    rfl
  simp only [List.append_nil]
  apply accounts.of_held idle
  · exact plain
  · exact (by decide : some false ≠ some true)
  · rw [total, List.append_assoc]
    exact congrArg (written ++ ·) (List.take_append_drop ..).symm
  · exact tidy
  · exact Stage.noConfusion

/-- What has been read is held until the send. -/
theorem Accounts.read (accounts : Accounts chunks received written fetched sent whole handler)
    {fd ret : Int} (pc : handler.pc = .call .read fd) (bytes : List Byte) (works : ret ≠ -1) :
    Accounts chunks (received ++ []) (written ++ [])
      (fetched ++ handler.reads (.used .read fd ret)
        { handler with pc := .unlock .respond, sendBuffer := bytes })
      (sent ++ []) whole { handler with pc := .unlock .respond, sendBuffer := bytes } := by
  have plain := accounts.plain
  rw [Handler.Plain, pc] at plain
  have tidy := accounts.tidy
  rw [Handler.Tidy, pc] at tidy
  have total := accounts.received
  rw [Handler.left, pc] at total
  have idle : handler.held = [] := by
    rw [Handler.held, pc]
    rfl
  have holds : Handler.held { handler with pc := .unlock .respond, sendBuffer := bytes } = bytes :=
    rfl
  have taken : handler.reads (.used .read fd ret)
      { handler with pc := .unlock .respond, sendBuffer := bytes } = bytes := if_neg works
  have complete := accounts.complete
  have short := accounts.short
  rw [idle, List.append_nil] at complete short
  simp only [List.append_nil, taken]
  constructor
  · exact plain
  · exact (by decide : (none : Option Bool) ≠ some true)
  · exact total
  · exact tidy
  · exact fun _ => accounts.found (by rw [pc]; rfl)
  · intro all
    rw [holds, complete all]
  · intro lost
    rw [holds, List.length_append, List.length_append]
    exact Nat.add_lt_add_right (short lost) _

/-- A send takes a part of what is held; the rest is forgotten. -/
theorem Accounts.send (accounts : Accounts chunks received written fetched sent whole handler)
    (pc : handler.pc = .send) {whole' : Prop}
    (counted : whole' ↔ whole ∧ handler.sendBuffer.length ≤ outcome.accepted) :
    Accounts chunks (received ++ []) (written ++ []) (fetched ++ [])
      (sent ++ handler.sendBuffer.take
        (min outcome.accepted handler.sendBuffer.length)) whole'
      { handler with
        pc := if handler.sendBuffer = [] then .closeSocket else .lock .respond
        sent := handler.sent ++
          handler.sendBuffer.take (min outcome.accepted handler.sendBuffer.length) } := by
  have plain := accounts.plain
  rw [Handler.Plain, pc] at plain
  have tidy := accounts.tidy
  rw [Handler.Tidy, pc] at tidy
  have total := accounts.received
  rw [Handler.left, pc] at total
  have holds : handler.held = handler.sendBuffer := by
    rw [Handler.held, pc]
    rfl
  have complete := accounts.complete
  have short := accounts.short
  rw [holds] at complete short
  have next : ∃ pc', (if handler.sendBuffer = [] then Pc.closeSocket else .lock .respond) = pc' ∧
      pc'.stage = .responding ∧ pc'.holds = false ∧ pc'.branch = none := by
    by_cases none : handler.sendBuffer = []
    · exact ⟨.closeSocket, if_pos none, rfl, rfl, rfl⟩
    · exact ⟨.lock .respond, if_neg none, rfl, rfl, rfl⟩
  rcases next with ⟨pc', next, stage, released, branch⟩
  rw [next]
  simp only [List.append_nil]
  constructor
  · simp only [Handler.Plain, stage]
    exact ⟨plain.1, trivial⟩
  · simp [branch]
  · simp only [Handler.left, stage]
    exact total
  · simp only [Handler.Tidy, stage]
    exact tidy
  · exact fun _ => accounts.found (by rw [pc]; rfl)
  · intro all
    rcases counted.mp all with ⟨before, takes⟩
    simp only [Handler.held, released]
    rw [complete before, Nat.min_eq_right takes, List.take_length]
    simp
  · intro lost
    simp only [Handler.held, released, Bool.false_eq_true, if_false, List.append_nil,
      List.length_append, List.length_take]
    by_cases before : whole
    · have partly : outcome.accepted < handler.sendBuffer.length := by
        by_contra takes
        exact lost (counted.mpr ⟨before, Nat.not_lt.mp takes⟩)
      rw [complete before, List.length_append]
      omega
    · have already := short before
      rw [List.length_append] at already
      omega

/-- A step of a handler that has not been asked to seek accounts for its bytes. -/
theorem Accounts.step (accounts : Accounts chunks received written fetched sent whole handler)
    (intact : process.Intact) {whole' : Prop}
    (counted : whole' ↔
      whole ∧ (handler.pc = .send → handler.sendBuffer.length ≤ outcome.accepted))
    (step : HandlerStep self outcome handler process answer handler' process') :
    handler'.pc = .returned false ∨
      Accounts chunks (received ++ handler.receives answer handler')
        (written ++ handler.writes answer handler') (fetched ++ handler.reads answer handler')
        (sent ++ handler.sends answer handler') whole' handler' := by
  have same {pc : Pc} (here : handler.pc = pc) (notSend : pc ≠ .send) : whole' = whole := by
    rw [counted, here]
    exact propext (and_iff_left fun sends => absurd sends notSend)
  have quiet {pc pc' : Pc} (here : handler.pc = pc) (notSend : pc ≠ .send)
      (stage : pc.stage = pc'.stage) (holds : pc.holds = pc'.holds)
      (branch : pc.branch = pc'.branch) :
      Accounts chunks (received ++ []) (written ++ []) (fetched ++ []) (sent ++ []) whole'
        (handler.goto pc') := by
    rw [same here notSend]
    simp only [List.append_nil]
    exact accounts.goto (here ▸ stage) (here ▸ holds) (here ▸ branch)
  have command {pc : Pc} (here : handler.pc = pc) (seeks : pc.branch = some true) : False :=
    accounts.branch (here ▸ seeks)
  cases step with
  | recvFails pc => exact Or.inl rfl
  | recv pc works =>
      right
      exact same pc Pc.noConfusion ▸ accounts.recv outcome pc
  | openFile site fd _ pc call =>
      right
      exact quiet pc Pc.noConfusion (by cases site <;> rfl) rfl (by cases site <;> rfl)
  | assign site fd pc =>
      right
      exact quiet pc Pc.noConfusion (by cases site <;> rfl) rfl (by cases site <;> rfl)
  | check site pc =>
      cases site with
      | seek => exact (command pc rfl).elim
      | data => exact Or.inr (quiet pc Pc.noConfusion rfl rfl rfl)
      | response =>
          rcases OpenSite.response.afterCheck_cases process.dataFileDescriptor with
            ⟨_, _, failed⟩ | ⟨_, next⟩
          · exact Or.inl failed
          · right
            rw [next]
            exact quiet pc Pc.noConfusion rfl rfl rfl
  | lock loop pc free =>
      right
      exact quiet pc Pc.noConfusion (by cases loop <;> rfl) (by cases loop <;> rfl)
        (by cases loop <;> rfl)
  | load use pc =>
      right
      exact quiet pc Pc.noConfusion (by cases use <;> rfl) (by cases use <;> rfl)
        (by cases use <;> rfl)
  | ioctl fd pc => exact (command pc rfl).elim
  | writeFails fd _ pc call => exact Or.inl rfl
  | write fd ret _ pc call works =>
      right
      have taken := (Process.sysWrite_intact intact call).2 works
      subst taken
      exact same pc Pc.noConfusion ▸ accounts.write pc
  | closeData fd pc =>
      right
      rw [same pc Pc.noConfusion]
      have after := accounts.afterIteration pc
      simpa [Handler.receives, Handler.writes, Handler.gives, Handler.reads, Handler.sends]
        using after
  | readFails fd bytes _ pc call => exact Or.inl rfl
  | read fd ret bytes _ pc call works =>
      right
      exact same pc Pc.noConfusion ▸ accounts.read pc bytes works
  | unlock loop pc =>
      right
      exact quiet pc Pc.noConfusion (by cases loop <;> rfl) (by cases loop <;> rfl)
        (by cases loop <;> rfl)
  | sendFails pc fails => exact Or.inl rfl
  | send pc works =>
      right
      refine accounts.send pc (counted.trans (and_congr_right fun _ => ?_))
      exact ⟨fun takes => takes pc, fun takes _ => takes⟩
  | closeSocket pc =>
      right
      exact quiet pc Pc.noConfusion rfl rfl rfl
  | complete pc =>
      right
      have next := @quiet _ (.load .closeFinal) pc Pc.noConfusion rfl rfl rfl
      exact ⟨next.plain, next.branch, next.received, next.tidy, next.found, next.complete,
        next.short⟩
  | closeFinal fd pc =>
      right
      exact quiet pc Pc.noConfusion rfl rfl rfl

end

/-! ## Runs without an error -/

section

variable {τ : Type} {self : τ} {outcome : Outcome} {handler handler' : Handler}
  {process process' : Process τ} {answer : Answer}

/-- A step whose call works does not give up, and the number it is going to assign
is a descriptor. -/
theorem HandlerStep.works
    (step : HandlerStep self outcome handler process answer handler' process')
    (works : answer.failed = false)
    (checks : ∀ site, handler.pc = .check site → process.dataFileDescriptor ≠ -1) :
    handler'.pc ≠ .returned false ∧ (∀ site fd, handler'.pc = .assign site fd → fd ≠ -1) ∧
      ∀ site, handler'.pc = .check site →
        handler.pc = .assign site process'.dataFileDescriptor := by
  have goes {pc : Pc} (here : handler'.pc = pc) (alive : pc ≠ .returned false)
      (noAssign : pc.assignment = none) (noCheck : ∀ site, pc ≠ .check site) :
      handler'.pc ≠ .returned false ∧ (∀ site fd, handler'.pc = .assign site fd → fd ≠ -1) ∧
        ∀ site, handler'.pc = .check site →
          handler.pc = .assign site process'.dataFileDescriptor := by
    rw [here]
    refine ⟨alive, ?_, fun site same => absurd same (noCheck site)⟩
    rintro site fd rfl
    contradiction
  have after (same : handler' = handler.afterIteration) :
      handler'.pc ≠ .returned false ∧ (∀ site fd, handler'.pc = .assign site fd → fd ≠ -1) ∧
        ∀ site, handler'.pc = .check site →
          handler.pc = .assign site process'.dataFileDescriptor := by
    rcases pc_afterIteration handler with next | next | next
    · exact goes (same ▸ next) Pc.noConfusion rfl fun _ => Pc.noConfusion
    · exact goes (same ▸ next) Pc.noConfusion rfl fun _ => Pc.noConfusion
    · exact goes (same ▸ next) Pc.noConfusion rfl fun _ => Pc.noConfusion
  cases step with
  | recvFails pc => contradiction
  | writeFails fd _ pc => contradiction
  | readFails fd _ _ pc => contradiction
  | sendFails pc => contradiction
  | openFile site fd _ pc call =>
      refine ⟨Pc.noConfusion, ?_, fun _ => Pc.noConfusion⟩
      rintro _ _ ⟨⟩ rfl
      contradiction
  | assign site fd pc =>
      refine ⟨Pc.noConfusion, fun _ _ => Pc.noConfusion, ?_⟩
      rintro _ ⟨⟩
      exact pc
  | check site pc =>
      have valid := checks site pc
      cases site with
      | seek => exact goes (if_neg valid) Pc.noConfusion rfl fun _ => Pc.noConfusion
      | data => exact goes rfl Pc.noConfusion rfl fun _ => Pc.noConfusion
      | response => exact goes (if_neg valid) Pc.noConfusion rfl fun _ => Pc.noConfusion
  | ioctl fd pc => exact after rfl
  | closeData fd pc => exact after rfl
  | unlock loop pc =>
      cases loop with
      | receive => exact goes rfl Pc.noConfusion rfl fun _ => Pc.noConfusion
      | respond => exact goes rfl Pc.noConfusion rfl fun _ => Pc.noConfusion
  | send pc works =>
      by_cases none : handler.sendBuffer = []
      · exact goes (if_pos none) Pc.noConfusion rfl fun _ => Pc.noConfusion
      · exact goes (if_neg none) Pc.noConfusion rfl fun _ => Pc.noConfusion
  | closeFinal fd pc =>
      exact goes rfl (show Pc.returned true ≠ .returned false by decide) rfl
        fun _ => Pc.noConfusion
  | _ => exact goes rfl Pc.noConfusion rfl fun _ => Pc.noConfusion

variable [DecidableEq τ]

/-- No call of a thread has returned an error. -/
def ErrorFree (outputs : List (Option (τ × Answer))) : Prop :=
  ∀ thread answer, some (thread, answer) ∈ outputs → answer.failed = false

/-- No handler has given up or is going to find an error in the global. -/
structure Unfailing (server : ServerState τ) : Prop where
  alive : ∀ thread, (server.handlers thread).pc ≠ .returned false
  assigns : ∀ thread site fd, (server.handlers thread).pc = .assign site fd → fd ≠ -1
  checks : ∀ thread site, (server.handlers thread).pc = .check site →
    server.process.dataFileDescriptor ≠ -1

theorem Unfailing.step {server server' : ServerState τ} (unfailing : Unfailing server)
    {event : ServerEvent τ} {output : Option (τ × Answer)}
    (works : ∀ thread answer, output = some (thread, answer) → answer.failed = false)
    (step : sharedStep server event = some (output, server')) : Unfailing server' := by
  cases event with
  | device operation =>
      simp only [sharedStep, Option.map_eq_some_iff, Prod.exists, Prod.mk.injEq] at step
      rcases step with ⟨ret, system, _, _, rfl⟩
      exact ⟨unfailing.alive, unfailing.assigns, unfailing.checks⟩
  | thread self outcome =>
      have others : ∀ thread, thread ≠ self →
          server'.handlers thread = server.handlers thread := by
        intro thread different
        rcases sharedStep_cases thread step with ⟨_, _, same⟩ | ⟨_, _, own, _⟩
        · exact same
        · exact absurd (ServerEvent.thread.inj own).1.symm different
      rcases sharedStep_cases self step with ⟨other, _⟩ | ⟨_, answer, _, shown, taken⟩
      · exact absurd rfl (other outcome)
      · have stepped := handlerStep_cases taken
        rcases stepped.works (works self answer shown) (unfailing.checks self) with
          ⟨alive, assigns, checks⟩
        constructor
        · intro thread
          by_cases same : thread = self
          · exact same ▸ alive
          · rw [others thread same]
            exact unfailing.alive thread
        · intro thread
          by_cases same : thread = self
          · exact same ▸ assigns
          · rw [others thread same]
            exact unfailing.assigns thread
        · intro thread site pc
          by_cases same : thread = self
          · subst same
            exact unfailing.assigns thread site _ (checks site pc)
          · rw [others thread same] at pc
            rcases stepped.dataFileDescriptor_cases with unchanged | ⟨site', assigned⟩
            · rw [unchanged]
              exact unfailing.checks thread site pc
            · exact unfailing.assigns self site' _ assigned

/-- A handler returns without an error when no call returns one. -/
theorem Unfailing.run {source server : ServerState τ} (unfailing : Unfailing source)
    {events : List (ServerEvent τ)} {outputs : List (Option (τ × Answer))}
    (execution : run sharedStep source events = some (outputs, server))
    (works : ErrorFree outputs) : Unfailing server := by
  refine run_induction (motive := fun _ outputs server => ErrorFree outputs → Unfailing server)
    (fun _ => unfailing) ?_ execution works
  intro _ outputs middle event output target _ kept step works
  apply (kept fun thread answer member => works thread answer (List.mem_append_left _ member)).step
    _ step
  rintro thread answer rfl
  exact works thread answer (List.mem_append_right _ List.mem_cons_self)

end

/-! ## What a run loses -/

section

variable {τ : Type} [DecidableEq τ]

/-- What a handler that has not given up owes along a run. -/
theorem accounts_run (self : τ) {process : Process τ} (intact : process.Intact)
    {clientSocketFds : τ → Nat} {clients : τ → List Chunk}
    (noCommand : NoCommand clearedBuffer (clients self)) {events : List (ServerEvent τ)}
    {outputs : List (Option (τ × Answer))} {server : ServerState τ}
    (execution : run sharedStep (.start process clientSocketFds clients) events =
      some (outputs, server)) :
    (server.handlers self).pc = .returned false ∨
      Accounts (clients self)
        (passed self Handler.receives (.start process clientSocketFds clients) events)
        (passed self Handler.writes (.start process clientSocketFds clients) events)
        (passed self Handler.reads (.start process clientSocketFds clients) events)
        (passed self Handler.sends (.start process clientSocketFds clients) events)
        (Along sharedStep (SendsWhole self) (.start process clientSocketFds clients) events)
        (server.handlers self) := by
  suffices both : server.process.Intact ∧ _ from both.2
  refine run_induction (motive := fun events _ server => server.process.Intact ∧
    ((server.handlers self).pc = .returned false ∨
      Accounts (clients self)
        (passed self Handler.receives (.start process clientSocketFds clients) events)
        (passed self Handler.writes (.start process clientSocketFds clients) events)
        (passed self Handler.reads (.start process clientSocketFds clients) events)
        (passed self Handler.sends (.start process clientSocketFds clients) events)
        (Along sharedStep (SendsWhole self) (.start process clientSocketFds clients) events)
        (server.handlers self))) ?_ ?_ execution
  · exact ⟨intact, Or.inr (accounts_start _ noCommand)⟩
  · intro events outputs middle event output target front held step
    refine ⟨sharedStep_intact held.1 step, ?_⟩
    simp only [passed, observe_concat _ front step, along_concat_iff front event]
    rcases sharedStep_cases self step with
      ⟨foreign, silent, same⟩ | ⟨outcome, answer, rfl, rfl, taken⟩
    · have guard : SendsWhole self middle event := by
        cases event with
        | device operation => exact trivial
        | thread thread outcome =>
            intro own _
            exact absurd (own ▸ rfl) (foreign outcome)
      simp only [ofThread_of_ne _ silent, List.append_nil, same, guard, and_true]
      exact held.2
    · rcases held.2 with gaveUp | accounts
      · simp [handlerStep, gaveUp] at taken
      · simp only [ofThread, if_true]
        refine accounts.step held.1 (and_congr_right fun _ => ?_) (handlerStep_cases taken)
        exact ⟨fun guard pc => guard rfl pc, fun takes _ pc => takes pc⟩

theorem consumed_eq_iff (data : List Byte) :
    consumed data = data ↔ data.drop (consumed data).length = [] := by
  rw [List.drop_eq_nil_iff]
  constructor
  · intro whole
    rw [whole]
  · intro short
    exact (firstLine_isPrefix data).eq_of_length_le short

/-- A handler that has returned without an error has lost nothing exactly if
nothing follows the first newline in its chunk, and every send has taken all. -/
theorem Accounts.losesNothing_iff {self : τ} {source : ServerState τ}
    {events : List (ServerEvent τ)} {chunks : List Chunk} {handler : Handler} {whole : Prop}
    (accounts : Accounts chunks (passed self Handler.receives source events)
      (passed self Handler.writes source events) (passed self Handler.reads source events)
      (passed self Handler.sends source events) whole handler)
    (returned : handler.pc = .returned true) :
    LosesNothing self source events ↔ EndsAtNewline chunks ∧ whole := by
  have found := accounts.found (by rw [returned]; rfl)
  have received := accounts.received
  rw [Handler.left, returned] at received
  have tidy : EndsAtNewline chunks ↔ consumed handler.received = handler.received := by
    have here := accounts.tidy
    rw [Handler.Tidy, returned] at here
    exact here.trans (by simp [Pc.stage, found])
  have idle : handler.held = [] := by
    rw [Handler.held, returned]
    rfl
  apply and_congr
  · rw [tidy, consumed_eq_iff, received]
    exact List.append_right_eq_self
  · constructor
    · intro same
      by_contra lost
      have short := accounts.short lost
      rw [idle, List.append_nil, same] at short
      exact Nat.lt_irrefl _ short
    · intro all
      have complete := accounts.complete all
      rwa [idle, List.append_nil] at complete

/-- In a run of the server in which no call returns an error, a handler that is not
asked to seek passes on every byte exactly if nothing follows the first newline in
its chunk, and every send takes all it is given. -/
theorem loses_nothing_iff (self : τ) {process : Process τ} (loaded : process.Loaded)
    {clientSocketFds : τ → Nat} {clients : τ → List Chunk}
    (noCommand : NoCommand clearedBuffer (clients self)) {events : List (ServerEvent τ)}
    {outputs : List (Option (τ × Answer))} {server : ServerState τ}
    (execution : run sharedStep (.start process clientSocketFds clients) events =
      some (outputs, server))
    (works : ErrorFree outputs) {ok : Bool} (returned : (server.handlers self).pc = .returned ok) :
    LosesNothing self (.start process clientSocketFds clients) events ↔
      EndsAtNewline (clients self) ∧
        Along sharedStep (SendsWhole self) (.start process clientSocketFds clients) events := by
  have start : Unfailing (.start process clientSocketFds clients) :=
    ⟨fun _ => Pc.noConfusion, fun _ _ _ => Pc.noConfusion, fun _ _ => Pc.noConfusion⟩
  have alive := (start.run execution works).alive self
  rcases accounts_run self loaded.intact noCommand execution with gaveUp | accounts
  · exact absurd gaveUp alive
  · apply accounts.losesNothing_iff
    cases ok with
    | true => exact returned
    | false => exact absurd returned alive

end

theorem errorFree_of_all {τ : Type} {outputs : List (Option (τ × Answer))}
    (all : (outputs.all fun output => output.all fun result => !result.2.failed) = true) :
    ErrorFree outputs := by
  intro thread answer member
  have works := List.all_eq_true.mp all _ member
  simpa using works

/-- A client that sends `"hi\n"` in one chunk. -/
theorem loses_nothing_iff_line :
    LosesNothing () (oneClient [⟨[104, 105, 10], by decide⟩])
      (List.replicate 27 (.thread () (.success 4))) := by
  let start : ServerState Unit := oneClient [⟨[104, 105, 10], by decide⟩]
  let events : List (ServerEvent Unit) := List.replicate 27 (.thread () (.success 4))
  have whole : Along sharedStep (SendsWhole ()) start events := by decide +kernel
  have served : (run sharedStep start events).map (fun result =>
      (result.1.all fun output => output.all fun answer => !answer.2.failed,
        (result.2.handlers ()).pc)) = some (true, .returned true) := by decide +kernel
  rcases Option.map_eq_some_iff.mp served with ⟨⟨outputs, server⟩, execution, result⟩
  rw [Prod.mk.injEq] at result
  exact (loses_nothing_iff () ⟨⟨4096, by decide⟩, [], [], rfl⟩ (by decide) execution
    (errorFree_of_all result.1) result.2).mpr ⟨by decide, whole⟩

/-- A handler that runs alone, all its calls with one outcome, returns without an
error or a seek, but has lost bytes. -/
def LosesBytes (chunks : List Chunk) (outcome : Outcome) : Prop :=
  ∃ (events : List (ServerEvent Unit)) (outputs : List (Option (Unit × Answer)))
    (server : ServerState Unit),
    (∀ event ∈ events, event = .thread () outcome) ∧ NoCommand clearedBuffer chunks ∧
    run sharedStep (oneClient chunks) events = some (outputs, server) ∧
    ErrorFree outputs ∧ (server.handlers ()).pc = .returned true ∧
    ¬LosesNothing () (oneClient chunks) events

/-- Of the chunk `"a\nb"` the device accepts two bytes; of the line `"hi\n"` a send
that accepts one byte at a time sends the first. -/
theorem short_counts_lose_bytes :
    LosesBytes [⟨[97, 10, 98], by decide⟩] (.success 4) ∧
      LosesBytes [⟨[104, 105, 10], by decide⟩] { Outcome.success 4 with accepted := 1 } := by
  have loses : ∀ chunks outcome, NoCommand clearedBuffer chunks →
      (run sharedStep (oneClient chunks) (List.replicate 27 (.thread () outcome))).map
        (fun result => (result.1.all fun output => output.all fun answer => !answer.2.failed,
          (result.2.handlers ()).pc)) = some (true, .returned true) →
      ¬LosesNothing () (oneClient chunks) (List.replicate 27 (.thread () outcome)) →
      LosesBytes chunks outcome := by
    intro chunks outcome noCommand served lost
    rcases Option.map_eq_some_iff.mp served with ⟨⟨outputs, server⟩, execution, result⟩
    rw [Prod.mk.injEq] at result
    exact ⟨_, outputs, server, fun _ => List.eq_of_mem_replicate, noCommand, execution,
      errorFree_of_all result.1, result.2, lost⟩
  constructor
  · exact loses _ _ (by decide) (by decide +kernel) (by decide +kernel)
  · exact loses _ _ (by decide) (by decide +kernel) (by decide +kernel)

end Aesd.Server
