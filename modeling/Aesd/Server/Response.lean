import Aesd.Server.DeviceCalls
import Aesd.Server.Handler

/-!
# The response and concurrent writers

The position of an open file counts from the oldest stored line, and the mutex is
free between two reads of the send loop.  A response is therefore made of
stretches of the sequence of all lines ever committed, one for each read that
delivers bytes.  No byte is sent twice, and what is skipped between two
stretches is as long as what has been displaced between the two reads.
-/

namespace Aesd.Server

open Aesd.Driver Aesd.Transition Aesd.Word

/-- A read of the send loop: the lines committed before it, the position of the
file, and the bytes delivered. -/
structure Transfer where
  committed : List (List Byte)
  position : Nat
  bytes : List Byte

namespace Transfer

/-- The lines that had been displaced. -/
def displaced (transfer : Transfer) : List (List Byte) :=
  displacedLines transfer.committed

/-- Where the delivered bytes start in the sequence of all lines. -/
def start (transfer : Transfer) : Nat :=
  transfer.displaced.flatten.length + transfer.position

/-- The second read starts behind the first one, further on by as much as has
been displaced in between. -/
def Follows (first second : Transfer) : Prop :=
  ∃ gap, second.displaced = first.displaced ++ gap ∧
    second.start = first.start + first.bytes.length + gap.flatten.length

/-- The second read starts where the first one ends. -/
def Continues (first second : Transfer) : Prop :=
  second.start = first.start + first.bytes.length

end Transfer

/-! ## A handler among writers -/

/-- A handler and what it works on, with the lines committed so far and the last
read of the handler. -/
structure Response (τ : Type) where
  committed : List (List Byte)
  lastRead : Transfer
  handler : Handler
  process : Process τ

/-- The handler takes a step, or another client writes through the driver. -/
inductive ResponseEvent where
  | handler (outcome : Outcome)
  | client (call : WriteCall)

section

variable {τ : Type} (self : τ)

/-- A handler at the top of its send loop. -/
def Response.start (committed : List (List Byte)) (handler : Handler) (process : Process τ) :
    Response τ where
  committed := committed
  lastRead := ⟨[], 0, []⟩
  handler := handler.goto (.lock .respond)
  process := process

/-- The last read after a step that leads to `handler'`. -/
def Response.readOf (response : Response τ) (handler' : Handler) : Answer → Transfer
  | .used .read fd _ =>
      ⟨response.committed, toSize (response.process.system.fPos fd.toNat), handler'.sendBuffer⟩
  | _ => response.lastRead

/-- One step; the output is the answer to the handler, if it was its step. -/
def responseStep : Machine (Response τ) ResponseEvent (Option Answer)
  | response, .handler outcome =>
      (handlerStep self (response.handler, response.process) outcome).map fun result =>
        (some result.1,
          { response with
            lastRead := response.readOf result.2.1 result.1
            handler := result.2.1
            process := result.2.2 })
  | response, .client call =>
      (call.run response.process.system).map fun result =>
        (none,
          { response with
            committed := response.committed ++ response.process.system.committedLine result.2
            process := { response.process with system := result.2 } })

/-- A send takes all it is given, and other clients use files of their own. -/
def Response.Permits (response : Response τ) : ResponseEvent → Prop
  | .handler outcome =>
      response.handler.pc = .send → outcome.fails = false →
        response.handler.sendBuffer.length ≤ outcome.accepted
  | .client call => call.filp ≠ some response.process.dataFileDescriptor.toNat

instance (response : Response τ) : ∀ event, Decidable (response.Permits event)
  | .handler _ => inferInstanceAs (Decidable (_ → _ → _))
  | .client _ => inferInstanceAs (Decidable (_ ≠ _))

/-- The read whose bytes a step sends. -/
def sentTransfer (response : Response τ) (_ : ResponseEvent) (answer : Option Answer)
    (_ : Response τ) : List Transfer :=
  match answer with
  | some (.sentBytes ret) => if ret ≤ 0 then [] else [response.lastRead]
  | _ => []

end

/-! ## What a run of the send loop keeps -/

/-- The steps from the top of the send loop on. -/
def Pc.responds : Pc → Bool
  | .lock .respond | .load .read | .call .read _ | .unlock .respond | .send => true
  | .closeSocket | .complete | .load .closeFinal | .call .closeFinal _ | .returned _ => true
  | _ => false

/-- Between a read and the send of its bytes. -/
def Pc.holds : Pc → Bool
  | .unlock .respond | .send => true
  | _ => false

/-- Between a send and the next read. -/
def Pc.seeks : Pc → Bool
  | .lock .respond | .load .read | .call .read _ => true
  | _ => false

/-- The second read follows the first on the same file. -/
def Transfer.Precedes (first second : Transfer) : Prop :=
  first.committed <+: second.committed ∧ second.position = first.position + first.bytes.length

/-- The bytes are a stretch of the sequence of all lines. -/
def Transfer.Inside (transfer : Transfer) : Prop :=
  transfer.bytes <+: transfer.committed.flatten.drop transfer.start

/-- What holds along a run of the send loop that has sent `transfers`. -/
structure Responding {τ : Type} (transfers : List Transfer) (response : Response τ) : Prop where
  carries : ∃ pending, Carries response.process.system response.committed pending
  responds : response.handler.pc.responds = true
  loaded : ∀ fd, response.handler.pc = .call .read fd → fd = response.process.dataFileDescriptor
  sent : response.handler.sent = (transfers.map Transfer.bytes).flatten
  inside : ∀ transfer ∈ transfers,
    transfer.Inside ∧ transfer.bytes ≠ [] ∧ transfer.committed <+: response.committed
  precedes : transfers.IsChain Transfer.Precedes
  seeks : response.handler.pc.seeks = true → ∀ last ∈ transfers.getLast?,
    response.process.readPosition = last.position + last.bytes.length
  holds : response.handler.pc.holds = true →
    response.lastRead.Inside ∧ response.lastRead.bytes = response.handler.sendBuffer ∧
      response.lastRead.committed <+: response.committed ∧
      response.process.readPosition =
        response.lastRead.position + response.lastRead.bytes.length ∧
      ∀ last ∈ transfers.getLast?, last.Precedes response.lastRead

/-- A stretch stays a stretch at the same place while lines are committed. -/
theorem Transfer.Inside.grow {transfer : Transfer} (inside : transfer.Inside)
    {committed : List (List Byte)} (grown : transfer.committed <+: committed) :
    transfer.bytes <+: committed.flatten.drop transfer.start := by
  rcases grown with ⟨more, rfl⟩
  rw [List.flatten_append]
  exact isPrefix_drop_append inside more.flatten

/-- What a read delivers is a stretch that starts behind the displaced lines. -/
theorem Transfer.inside_of_content {transfer : Transfer}
    (delivered : transfer.bytes <+: (lastContent transfer.committed).drop transfer.position) :
    transfer.Inside := by
  have whole : transfer.displaced.flatten ++ lastContent transfer.committed =
      transfer.committed.flatten := by
    rw [displaced, ← List.flatten_append, LineStore.rdrop_append_rtake]
  rwa [Inside, ← whole, start, ← List.drop_drop, List.drop_left]

theorem Transfer.Precedes.follows {first second : Transfer} (precedes : first.Precedes second) :
    first.Follows second := by
  rcases precedes with ⟨grown, position⟩
  have kept : first.displaced <+: second.displaced := LineStore.rdrop_isPrefix grown
  rcases kept with ⟨gap, displaced⟩
  refine ⟨gap, displaced.symm, ?_⟩
  rw [start, start, ← displaced, List.flatten_append, List.length_append, position]
  omega

section

variable {τ : Type} {self : τ} {transfers : List Transfer} {response response' : Response τ}

/-- Another client's write only adds to what has been committed. -/
theorem Responding.client (responding : Responding transfers response) {call : WriteCall}
    (other : response.Permits (.client call)) {answer : Option Answer}
    (step : responseStep self response (.client call) = some (answer, response')) :
    Responding (transfers ++ sentTransfer response (.client call) answer response') response' := by
  rcases responding.carries with ⟨pending, carries⟩
  rcases carries.write call with ⟨ret, system', result, effect⟩
  simp only [responseStep, result, Option.map_some, Option.some.injEq, Prod.mk.injEq] at step
  rcases step with ⟨rfl, rfl⟩
  have grows : response.committed <+:
      response.committed ++ response.process.system.committedLine system' := List.prefix_append ..
  have position : toSize (system'.fPos response.process.dataFileDescriptor.toNat) =
      response.process.readPosition := congrArg toSize (effect.fPos_of_ne other)
  simp only [sentTransfer, List.append_nil]
  constructor
  case carries => exact effect.commits carries
  case responds => exact responding.responds
  case loaded => exact responding.loaded
  case sent => exact responding.sent
  case inside =>
    intro transfer member
    rcases responding.inside transfer member with ⟨inside, nonempty, grown⟩
    exact ⟨inside, nonempty, grown.trans grows⟩
  case precedes => exact responding.precedes
  case seeks => exact fun seeks last member => position.trans (responding.seeks seeks last member)
  case holds =>
    intro holds
    rcases responding.holds holds with ⟨inside, bytes, grown, next, precedes⟩
    exact ⟨inside, bytes, grown.trans grows, position.trans next, precedes⟩

/-- A step that sends nothing and leaves the file position alone. -/
private theorem Responding.quiet (responding : Responding transfers response)
    {handler' : Handler} {process' : Process τ}
    (system : process'.system = response.process.system)
    (dataFileDescriptor : process'.dataFileDescriptor = response.process.dataFileDescriptor)
    (sent : handler'.sent = response.handler.sent)
    (sendBuffer : handler'.sendBuffer = response.handler.sendBuffer)
    (responds : handler'.pc.responds = true)
    (loaded : ∀ fd, handler'.pc = .call .read fd → fd = process'.dataFileDescriptor)
    (seeks : handler'.pc.seeks = true → response.handler.pc.seeks = true)
    (holds : handler'.pc.holds = true → response.handler.pc.holds = true) :
    Responding transfers { response with handler := handler', process := process' } := by
  have position : process'.readPosition = response.process.readPosition := by
    rw [Process.readPosition, system, dataFileDescriptor]
    rfl
  constructor
  case carries => exact system ▸ responding.carries
  case responds => exact responds
  case loaded => exact loaded
  case sent => exact sent.trans responding.sent
  case inside => exact responding.inside
  case precedes => exact responding.precedes
  case seeks => exact fun now => position ▸ responding.seeks (seeks now)
  case holds =>
    intro now
    rw [sendBuffer, position]
    exact responding.holds (holds now)

/-- A read delivers a stretch of the sequence of all lines, behind what has been
sent. -/
private theorem Responding.read (responding : Responding transfers response) {fd ret : Int}
    {bytes : List Byte} {process' : Process τ} {outcome : Outcome}
    (pc : response.handler.pc = .call .read fd)
    (call : response.process.sysRead outcome fd bufLen = some (ret, bytes, process'))
    (works : ret ≠ -1) :
    Responding transfers
      { response with
        lastRead := ⟨response.committed, toSize (response.process.system.fPos fd.toNat), bytes⟩
        handler := { response.handler with pc := .unlock .respond, sendBuffer := bytes }
        process := process' } := by
  rcases responding.carries with ⟨pending, carries⟩
  have own := responding.loaded fd pc
  subst own
  rcases Process.sysRead_cases call with
    ⟨failed, _⟩ | ⟨_, _, result, system', delivered, returned, rfl⟩
  · exact absurd failed works
  · have nonneg : 0 ≤ result := by
      by_contra negative
      exact works (returned.trans (if_pos (Int.not_le.mp negative)))
    rcases carries.read_splits response.process.dataFileDescriptor.toNat
        (show 0 < bufLen by decide) with ⟨bytes', success, moved, split, _⟩
    have same := Option.some.inj ((aesdRead_of_nonneg delivered nonneg).symm.trans success)
    simp only [Prod.mk.injEq] at same
    rcases same with ⟨_, rfl, rfl⟩
    constructor
    case carries => exact ⟨pending, carries.advanced ..⟩
    case responds => rfl
    case loaded => exact fun _ => Pc.noConfusion
    case sent => exact responding.sent
    case inside => exact responding.inside
    case precedes => exact responding.precedes
    case seeks => exact Bool.noConfusion
    case holds =>
      intro _
      refine ⟨Transfer.inside_of_content ?_, rfl, List.prefix_rfl, moved, ?_⟩
      · exact split ▸ List.prefix_append ..
      · intro last member
        rcases responding.inside last (List.mem_of_getLast? member) with ⟨_, _, grown⟩
        exact ⟨grown, responding.seeks (by rw [pc]; rfl) last member⟩

/-- A failed read ends the response. -/
private theorem Responding.readFails (responding : Responding transfers response) {fd ret : Int}
    {bytes : List Byte} {process' : Process τ} {outcome : Outcome} {lastRead : Transfer}
    (call : response.process.sysRead outcome fd bufLen = some (ret, bytes, process')) :
    Responding transfers
      { response with
        lastRead := lastRead
        handler := response.handler.goto (.returned false)
        process := process' } := by
  rcases responding.carries with ⟨pending, carries⟩
  constructor
  case carries =>
    rcases Process.sysRead_moves carries call with ⟨fPos, rfl⟩
    exact ⟨pending, carries.congr_fPos fPos⟩
  case responds => rfl
  case loaded => exact fun _ => Pc.noConfusion
  case sent => exact responding.sent
  case inside => exact responding.inside
  case precedes => exact responding.precedes
  case seeks => exact Bool.noConfusion
  case holds => exact Bool.noConfusion

/-- A send of everything that has been read extends the response by one stretch. -/
private theorem Responding.send (responding : Responding transfers response)
    (pc : response.handler.pc = .send) (some' : response.handler.sendBuffer ≠ []) :
    Responding (transfers ++ [response.lastRead])
      { response with
        handler := { response.handler with
          pc := .lock .respond
          sent := response.handler.sent ++ response.handler.sendBuffer } } := by
  rcases responding.holds (by rw [pc]; rfl) with ⟨inside, bytes, grown, position, precedes⟩
  constructor
  case carries => exact responding.carries
  case responds => rfl
  case loaded => exact fun _ => Pc.noConfusion
  case sent =>
    rw [responding.sent, List.map_append, List.flatten_append, ← bytes]
    simp
  case inside =>
    intro transfer member
    rcases List.mem_append.mp member with old | new
    · exact responding.inside transfer old
    · rw [List.mem_singleton.mp new]
      exact ⟨inside, bytes ▸ some', grown⟩
  case precedes =>
    rw [List.isChain_append]
    refine ⟨responding.precedes, List.isChain_singleton _, ?_⟩
    intro last member first new
    cases new
    exact precedes last member
  case seeks =>
    intro _ last member
    rw [List.getLast?_concat] at member
    cases member
    exact position
  case holds => exact Bool.noConfusion

/-- A step of the handler sends what it has read, or nothing. -/
theorem Responding.handler (responding : Responding transfers response) {outcome : Outcome}
    (permits : response.Permits (.handler outcome)) {answer : Option Answer}
    (step : responseStep self response (.handler outcome) = some (answer, response')) :
    Responding (transfers ++ sentTransfer response (.handler outcome) answer response')
      response' := by
  simp only [responseStep, Option.map_eq_some_iff, Prod.exists, Prod.mk.injEq] at step
  rcases step with ⟨answer', handler', process', step, rfl, rfl⟩
  have elsewhere {pc : Pc} (here : response.handler.pc = pc) (outside : pc.responds = false) :
      False := by
    rw [← here, responding.responds] at outside
    contradiction
  have still {response'' : Response τ} (kept : Responding transfers response'') :
      Responding (transfers ++ []) response'' := (List.append_nil transfers).symm ▸ kept
  replace step := handlerStep_cases step
  cases step with
  | lock loop pc free =>
      cases loop with
      | receive => exact (elsewhere pc rfl).elim
      | respond =>
          exact still (responding.quiet rfl rfl rfl rfl rfl (fun _ => Pc.noConfusion)
            (fun _ => by rw [pc]; rfl) Bool.noConfusion)
  | load use pc =>
      cases use with
      | read =>
          exact still (responding.quiet rfl rfl rfl rfl rfl
            (fun _ same => (Pc.call.inj same).2.symm) (fun _ => by rw [pc]; rfl) Bool.noConfusion)
      | closeFinal =>
          exact still (responding.quiet rfl rfl rfl rfl rfl
            (fun _ same => absurd (Pc.call.inj same).1 (by decide)) Bool.noConfusion
            Bool.noConfusion)
      | ioctl => exact (elsewhere pc rfl).elim
      | write => exact (elsewhere pc rfl).elim
      | closeData => exact (elsewhere pc rfl).elim
  | readFails fd bytes _ pc call => exact still (responding.readFails call)
  | read fd ret bytes _ pc call works => exact still (responding.read pc call works)
  | unlock loop pc =>
      cases loop with
      | receive => exact (elsewhere pc rfl).elim
      | respond =>
          exact still (responding.quiet rfl rfl rfl rfl rfl (fun _ => Pc.noConfusion)
            Bool.noConfusion (fun _ => by rw [pc]; rfl))
  | sendFails pc fails =>
      exact still (responding.quiet rfl rfl rfl rfl rfl (fun _ => Pc.noConfusion)
        Bool.noConfusion Bool.noConfusion)
  | send pc works =>
      have all : min outcome.accepted response.handler.sendBuffer.length =
          response.handler.sendBuffer.length := Nat.min_eq_right (permits pc works)
      simp only [sentTransfer, all, List.take_length, Response.readOf]
      by_cases none : response.handler.sendBuffer = []
      · simp only [none, List.length_nil]
        exact still (responding.quiet rfl rfl (List.append_nil _) none.symm rfl
          (fun _ => Pc.noConfusion) Bool.noConfusion Bool.noConfusion)
      · have positive := List.length_pos_of_ne_nil none
        rw [if_neg none, if_neg (by omega)]
        exact responding.send pc none
  | closeSocket pc =>
      exact still (responding.quiet rfl rfl rfl rfl rfl (fun _ => Pc.noConfusion)
        Bool.noConfusion Bool.noConfusion)
  | complete pc =>
      exact still (responding.quiet rfl rfl rfl rfl rfl (fun _ => Pc.noConfusion)
        Bool.noConfusion Bool.noConfusion)
  | closeFinal fd pc =>
      rcases Process.sysClose_frame outcome fd response.process with ⟨_, same, system⟩
      exact still (responding.quiet system same rfl rfl rfl (fun _ => Pc.noConfusion)
        Bool.noConfusion Bool.noConfusion)
  | recvFails pc => exact (elsewhere pc rfl).elim
  | recv pc => exact (elsewhere pc rfl).elim
  | openFile site fd _ pc => exact (elsewhere pc rfl).elim
  | assign site fd pc => exact (elsewhere pc rfl).elim
  | check site pc => exact (elsewhere pc rfl).elim
  | ioctl fd pc => exact (elsewhere pc rfl).elim
  | writeFails fd _ pc => exact (elsewhere pc rfl).elim
  | write fd ret _ pc => exact (elsewhere pc rfl).elim
  | closeData fd pc => exact (elsewhere pc rfl).elim

/-- The reads whose bytes a run sends. -/
def transfersOf (self : τ) (source : Response τ) (events : List ResponseEvent) : List Transfer :=
  observe (responseStep self) sentTransfer source events

/-- A run of the send loop among writers keeps the invariant. -/
theorem Responding.run {source : Response τ} (initial : Responding [] source)
    {events : List ResponseEvent} {answers : List (Option Answer)}
    (permits : Along (responseStep self) Response.Permits source events)
    (execution : run (responseStep self) source events = some (answers, response)) :
    Responding (transfersOf self source events) response := by
  refine along_induction (motive := fun events _ response =>
    Responding (transfersOf self source events) response) initial ?_ permits execution
  intro front outputs middle event answer target reached responding permitted step
  rw [transfersOf, observe_concat _ reached step]
  cases event with
  | handler outcome => exact responding.handler permitted step
  | client call => exact responding.client permitted step

/-- Nothing displaced between two reads and no gap between them are the same. -/
theorem Transfer.Follows.continues_iff {first second : Transfer} (follows : first.Follows second)
    (nonempty : ∀ line ∈ second.displaced, line ≠ []) :
    first.Continues second ↔ second.displaced = first.displaced := by
  rcases follows with ⟨gap, displaced, start⟩
  rw [Continues, start, displaced]
  constructor
  · intro close
    have empty : gap.flatten = [] := List.eq_nil_of_length_eq_zero (by omega)
    rw [List.flatten_eq_nil_iff] at empty
    rcases List.eq_nil_or_concat gap with none | ⟨rest, line, rfl⟩
    · rw [none, List.append_nil]
    · exact absurd (empty line (by simp)) (nonempty line (by simp [displaced]))
  · intro same
    rw [List.append_right_eq_self.mp same]
    rfl

/-- What a response is made of: the bytes of its reads, which are stretches of the
sequence of all lines.  It has no gaps exactly if nothing is displaced between
two of its reads. -/
structure Response.MadeOf (response : Response τ) (transfers : List Transfer) : Prop where
  sent : response.handler.sent = (transfers.map Transfer.bytes).flatten
  stretches : ∀ transfer ∈ transfers, transfer.bytes ≠ [] ∧
    transfer.bytes <+: response.committed.flatten.drop transfer.start
  follows : transfers.IsChain Transfer.Follows
  continues_iff : transfers.IsChain Transfer.Continues ↔
    transfers.IsChain fun first second => second.displaced = first.displaced
  contiguous : transfers.IsChain Transfer.Continues →
    ∃ first, response.handler.sent <+: response.committed.flatten.drop first

theorem Responding.madeOf (responding : Responding transfers response) :
    response.MadeOf transfers := by
  rcases responding.carries with ⟨pending, carries⟩
  have stretches : ∀ transfer ∈ transfers, transfer.bytes ≠ [] ∧
      transfer.bytes <+: response.committed.flatten.drop transfer.start := by
    intro transfer member
    rcases responding.inside transfer member with ⟨inside, nonempty, grown⟩
    exact ⟨nonempty, inside.grow grown⟩
  have follows : transfers.IsChain Transfer.Follows :=
    responding.precedes.imp fun _ _ precedes => precedes.follows
  have nonempty : ∀ transfer ∈ transfers, ∀ line ∈ transfer.displaced, line ≠ [] := by
    intro transfer member line inside
    have grown := (responding.inside transfer member).2.2
    exact carries.nonempty line (grown.subset (List.mem_of_mem_take inside))
  constructor
  case sent => exact responding.sent
  case stretches => exact stretches
  case follows => exact follows
  case continues_iff =>
    rw [List.isChain_iff_getElem] at follows
    rw [List.isChain_iff_getElem, List.isChain_iff_getElem]
    have pair : ∀ (index : Nat) (inside : index + 1 < transfers.length),
        transfers[index].Continues transfers[index + 1] ↔
          transfers[index + 1].displaced = transfers[index].displaced := fun index inside =>
      (follows index inside).continues_iff (nonempty _ (List.getElem_mem inside))
    exact forall₂_congr pair
  case contiguous =>
    intro continues
    let spans := transfers.map fun transfer => (transfer.start, transfer.bytes)
    have sent : response.handler.sent = (spans.map Prod.snd).flatten := by
      rw [responding.sent, List.map_map]
      rfl
    rw [sent]
    cases head : spans.head? with
    | none =>
        rw [List.head?_eq_none_iff.mp head]
        exact ⟨0, List.nil_prefix⟩
    | some first =>
        refine ⟨first.1, flatten_isPrefix_of_adjacent ?_ ?_ first head⟩
        · intro span member
          rcases List.mem_map.mp member with ⟨transfer, inside, rfl⟩
          exact (stretches transfer inside).2
        · exact (List.isChain_map _).mpr continues

/-- Whatever other clients commit between the reads of a send loop, each read
that delivers bytes sends a stretch of the sequence of all lines, and the next
one starts behind it, further on by as many bytes as have been displaced in between. -/
theorem response_skips_what_is_displaced (kmallocMaxSize : KmallocMaxSize)
    (operations : List Operation) (rets : List Int) (handler : Handler) (process : Process τ)
    (reached : Transition.run operationStep (aesdInitModule kmallocMaxSize) operations =
      some (rets, process.system))
    (unsent : handler.sent = []) (events : List ResponseEvent) (answers : List (Option Answer))
    (response : Response τ)
    (permits : Along (responseStep self) Response.Permits
      (.start (committedBy (aesdInitModule kmallocMaxSize) operations) handler process) events)
    (execution : Transition.run (responseStep self)
      (.start (committedBy (aesdInitModule kmallocMaxSize) operations) handler process) events =
        some (answers, response)) :
    response.MadeOf (transfersOf self
      (.start (committedBy (aesdInitModule kmallocMaxSize) operations) handler process)
      events) := by
  rcases (carries_init kmallocMaxSize).run_operations operations with
    ⟨rets', system, pending, reached', carries⟩
  cases Option.some.inj (reached.symm.trans reached')
  rw [List.nil_append] at carries
  have initial : Responding [] (Response.start
      (committedBy (aesdInitModule kmallocMaxSize) operations) handler process) := by
    constructor
    case carries => exact ⟨pending, carries⟩
    case responds => rfl
    case loaded => exact fun _ => Pc.noConfusion
    case sent => exact unsent
    case inside => exact fun _ member => absurd member List.not_mem_nil
    case precedes => exact List.isChain_nil
    case seeks => exact fun _ _ member => absurd member (by simp)
    case holds => exact Bool.noConfusion
  exact (initial.run permits execution).madeOf

end

/-! ## Two responses -/

/-- The lines `"a\n"`, `"b\n"` and so on are written, and a file is opened. -/
def letterLines (count : Nat) : List Operation :=
  (List.range count).map (fun index =>
    .write ⟨.success, some 0, some [97 + UInt8.ofNat index, newline]⟩) ++ [.openFile 6]

/-- A process that is about to send these lines through the file it has opened. -/
def lettersReader (count : Nat) : Process Unit where
  system := ((run operationStep (aesdInitModule ⟨64, by decide⟩) (letterLines count)).map
    Prod.snd).getD (aesdInitModule ⟨64, by decide⟩)
  descriptors := Function.update (fun _ => none) 6 (some (.dataFile .readOnly))
  dataFileDescriptor := 6
  lock := none

def lettersStart (count : Nat) : Response Unit :=
  .start (committedBy (aesdInitModule ⟨64, by decide⟩) (letterLines count))
    (clientDataHandler 5 []) (lettersReader count)

/-- Two iterations of the send loop; between them another client commits the line
`"z\n"`. -/
def writerBetweenReads : List ResponseEvent :=
  List.replicate 5 (.handler (.success 7)) ++
    .client ⟨.success, some 1, some [122, newline]⟩ :: List.replicate 5 (.handler (.success 7))

theorem lettersReader_reached {count : Nat}
    (ran : (run operationStep (aesdInitModule ⟨64, by decide⟩) (letterLines count)).isSome) :
    ∃ rets, run operationStep (aesdInitModule ⟨64, by decide⟩) (letterLines count) =
      some (rets, (lettersReader count).system) := by
  rcases Option.isSome_iff_exists.mp ran with ⟨⟨rets, system⟩, execution⟩
  refine ⟨rets, ?_⟩
  rw [lettersReader, execution]
  rfl

/-- While the circular buffer is filling, the new line follows what has been
sent. -/
theorem response_skips_what_is_displaced_filling :
    ∃ rets answers response,
      run operationStep (aesdInitModule ⟨64, by decide⟩) (letterLines 1) =
        some (rets, (lettersReader 1).system) ∧
      run (responseStep ()) (lettersStart 1) writerBetweenReads = some (answers, response) ∧
      response.handler.sent = [97, 10, 122, 10] ∧
      response.MadeOf (transfersOf () (lettersStart 1) writerBetweenReads) := by
  have ran : ((run (responseStep ()) (lettersStart 1) writerBetweenReads).map fun result =>
      result.2.handler.sent) = some [97, 10, 122, 10] := by decide +kernel
  rcases lettersReader_reached (show (run operationStep (aesdInitModule ⟨64, by decide⟩)
    (letterLines 1)).isSome by decide +kernel) with ⟨rets, reached⟩
  rcases Option.map_eq_some_iff.mp ran with ⟨⟨answers, response⟩, execution, sent⟩
  exact ⟨rets, answers, response, reached, execution, sent,
    response_skips_what_is_displaced ⟨64, by decide⟩ (letterLines 1) rets (clientDataHandler 5 [])
      (lettersReader 1) reached rfl writerBetweenReads answers response (by decide +kernel)
      execution⟩

/-- Once the circular buffer is full, the new line displaces the line `"a\n"` that
has been sent, and the next read skips the line `"b\n"`. -/
theorem displaced_line_leaves_hole :
    ∃ rets answers response,
      run operationStep (aesdInitModule ⟨64, by decide⟩) (letterLines 10) =
        some (rets, (lettersReader 10).system) ∧
      Along (responseStep ()) Response.Permits (lettersStart 10) writerBetweenReads ∧
      run (responseStep ()) (lettersStart 10) writerBetweenReads = some (answers, response) ∧
      response.handler.sent = [97, 10, 99, 10] ∧
      ¬response.handler.sent <:+: response.committed.flatten := by
  have ran : ((run (responseStep ()) (lettersStart 10) writerBetweenReads).map fun result =>
      (result.2.handler.sent, decide (result.2.handler.sent <:+: result.2.committed.flatten))) =
        some ([97, 10, 99, 10], false) := by decide +kernel
  rcases lettersReader_reached (show (run operationStep (aesdInitModule ⟨64, by decide⟩)
    (letterLines 10)).isSome by decide +kernel) with ⟨rets, reached⟩
  rcases Option.map_eq_some_iff.mp ran with ⟨⟨answers, response⟩, execution, result⟩
  rw [Prod.mk.injEq, decide_eq_false_iff_not] at result
  exact ⟨rets, answers, response, reached, by decide +kernel, execution, result⟩

end Aesd.Server
