import Aesd.Server.Handler
import Mathlib.Data.Fintype.Basic

/-!
# Who uses which descriptor

The handlers keep the descriptor of the data file in one global variable.  A run
is judged by its trace: a thread holds what its latest open returned until that
number is closed.  When no handler assigns the global while another one is still
going to read it, every use of the data file is a use of the descriptor the
thread holds.
-/

namespace Aesd.Server

open Aesd.Driver Aesd.Transition

def Use.closes : Use → Bool
  | .closeData => true
  | .closeFinal => true
  | _ => false

section

variable {τ : Type} [DecidableEq τ]

/-- What a thread holds after one more entry of the trace. -/
def heldAfter (thread : τ) (current : Option Int) : τ × Answer → Option Int
  | (other, .opened fd) =>
      if other = thread then if fd < 0 then none else some fd else current
  | (_, .used use fd _) => if use.closes = true ∧ current = some fd then none else current
  | _ => current

/-- The descriptor of a thread's latest open, while nobody has closed it. -/
def held (thread : τ) (trace : List (τ × Answer)) : Option Int :=
  trace.foldl (heldAfter thread) none

omit [DecidableEq τ] in
/-- The answers of a run with the threads that received them. -/
def traceOf (events : List (τ × Outcome)) (answers : List Answer) : List (τ × Answer) :=
  (events.map Prod.fst).zip answers

/-- One step of a run uses the descriptor its thread holds, and leaves alone what
other threads hold: the number stays open, with its position. -/
structure UsesOwn (trace : List (τ × Answer)) (server : ServerState τ) (thread : τ)
    (answer : Answer) (server' : ServerState τ) : Prop where
  own : ∀ use fd ret, answer = .used use fd ret → held thread trace = some fd
  others : ∀ other fd, other ≠ thread → held other trace = some fd →
    held other (trace ++ [(thread, answer)]) = some fd ∧
      server'.process.dataFile fd = server.process.dataFile fd ∧
      server'.process.dataFile fd ≠ none ∧
      server'.process.system.fPos fd.toNat = server.process.system.fPos fd.toNat

/-- Every step of a run uses its own descriptor. -/
def HandlersUseOwn (source : ServerState τ) (events : List (τ × Outcome)) : Prop :=
  ∀ front event back answers middle answer target, events = front ++ event :: back →
    run serverStep source front = some (answers, middle) →
    serverStep middle event = some (answer, target) →
    UsesOwn (traceOf front answers) middle event.1 answer target

/-! ## The condition -/

/-- Whether the global is still going to be read before the next assignment to
it; `found` tells whether the received chunk has a newline, which ends the
receive loop. -/
def Pc.reads (found : Bool) : Pc → Bool
  | .check _ => true
  | .lock _ => true
  | .load _ => true
  | .call .ioctl _ => found
  | .call .write _ => true
  | .call .read _ => true
  | .unlock _ => true
  | .send => true
  | .closeSocket => true
  | .complete => true
  | _ => false

/-- The handler is still going to read the value it has assigned to the global. -/
def Handler.Live (handler : Handler) : Prop :=
  handler.pc.reads (newline ∈ handler.received) = true

instance (handler : Handler) : Decidable handler.Live :=
  inferInstanceAs (Decidable (_ = true))

/-- The assignment that is the next step. -/
def Pc.assignment : Pc → Option (OpenSite × Int)
  | .assign site fd => some (site, fd)
  | _ => none

/-- An assignment to the global happens while no other handler is going to read
it, and the one for received data stores a descriptor. -/
def AssignsAlone (server : ServerState τ) (event : τ × Outcome) : Prop :=
  ∀ assignment ∈ (server.handlers event.1).pc.assignment,
    (∀ other, other ≠ event.1 → ¬(server.handlers other).Live) ∧
      (assignment.1 = .data → assignment.2 ≠ -1)

instance [Fintype τ] (server : ServerState τ) (event : τ × Outcome) :
    Decidable (AssignsAlone server event) :=
  inferInstanceAs (Decidable (∀ assignment ∈ (server.handlers event.1).pc.assignment, _ ∧ _))

end

/-! ## What a thread knows about its descriptor -/

/-- The branch of the receive loop that writes to the data file. -/
def Pc.inDataBranch : Pc → Bool
  | .openFile site => site == .data
  | .assign site _ => site == .data
  | .check site => site == .data
  | .lock loop => loop == .receive
  | .load use => use == .write || use == .closeData
  | .call use _ => use == .write || use == .closeData
  | .unlock loop => loop == .receive
  | _ => false

/-- The client's socket is still open. -/
def Pc.socketOpen : Pc → Bool
  | .complete => false
  | .load use => use != .closeFinal
  | .call use _ => use != .closeFinal
  | .returned _ => false
  | _ => true

/-- What a handler that holds `current` relies on, given the value of the
global. -/
def Handler.Knows (current : Option Int) (dataFileDescriptor : Int) (handler : Handler) : Prop :=
  match handler.pc with
  | .assign _ fd => fd = -1 ∨ current = some fd
  | .check site => site ≠ .data ∧ dataFileDescriptor = -1 ∨ current = some dataFileDescriptor
  | .lock _ => current = some dataFileDescriptor
  | .load _ => current = some dataFileDescriptor
  | .call .ioctl fd => current = some fd ∧ (newline ∈ handler.received → dataFileDescriptor = fd)
  | .call .write fd => current = some fd ∧ dataFileDescriptor = fd
  | .call .read fd => current = some fd ∧ dataFileDescriptor = fd
  | .call .closeData fd => current = some fd
  | .call .closeFinal fd => current = some fd
  | .unlock _ => current = some dataFileDescriptor
  | .send => current = some dataFileDescriptor
  | .closeSocket => current = some dataFileDescriptor
  | .complete => current = some dataFileDescriptor
  | _ => True

theorem Handler.Knows.call {current : Option Int} {dataFileDescriptor : Int} {handler : Handler}
    (knows : handler.Knows current dataFileDescriptor) {use : Use} {fd : Int}
    (pc : handler.pc = .call use fd) : current = some fd := by
  rw [Handler.Knows, pc] at knows
  cases use with
  | ioctl => exact knows.1
  | write => exact knows.1
  | closeData => exact knows
  | read => exact knows.1
  | closeFinal => exact knows

/-- A handler that is not going to read the global does not depend on it. -/
theorem Handler.Knows.of_not_live {current : Option Int} {dataFileDescriptor : Int}
    {handler : Handler} (knows : handler.Knows current dataFileDescriptor)
    (dead : ¬handler.Live) (dataFileDescriptor' : Int) :
    handler.Knows current dataFileDescriptor' := by
  unfold Handler.Knows at knows ⊢
  unfold Handler.Live at dead
  cases pc : handler.pc with
  | call use fd =>
      cases use with
      | ioctl =>
          simp only [pc] at knows dead ⊢
          exact ⟨knows.1, fun found => absurd (decide_eq_true found) dead⟩
      | write => simp [pc, Pc.reads] at dead
      | read => simp [pc, Pc.reads] at dead
      | closeData => simpa only [pc] using knows
      | closeFinal => simpa only [pc] using knows
  | assign site fd => simpa only [pc] using knows
  | recv => trivial
  | openFile site => trivial
  | returned ok => trivial
  | check site => simp [pc, Pc.reads] at dead
  | lock loop => simp [pc, Pc.reads] at dead
  | load use => simp [pc, Pc.reads] at dead
  | unlock loop => simp [pc, Pc.reads] at dead
  | send => simp [pc, Pc.reads] at dead
  | closeSocket => simp [pc, Pc.reads] at dead
  | complete => simp [pc, Pc.reads] at dead

section

variable {τ : Type} {self : τ} {outcome : Outcome} {handler handler' : Handler}
  {process process' : Process τ} {answer : Answer}

/-- Only an assignment changes the global. -/
theorem HandlerStep.dataFileDescriptor_cases
    (step : HandlerStep self outcome handler process answer handler' process') :
    process'.dataFileDescriptor = process.dataFileDescriptor ∨
      ∃ site, handler.pc = .assign site process'.dataFileDescriptor := by
  cases step with
  | assign site fd pc => exact Or.inr ⟨site, pc⟩
  | openFile site fd _ pc call => exact Or.inl (Process.sysOpen_frame call).2
  | ioctl fd pc => exact Or.inl (Process.sysIoctl_frame ..).2.1
  | writeFails fd _ pc call => exact Or.inl (Process.sysWrite_frame call).2.1
  | write fd ret _ pc call => exact Or.inl (Process.sysWrite_frame call).2.1
  | closeData fd pc => exact Or.inl (Process.sysClose_frame ..).2.1
  | readFails fd _ _ pc call => exact Or.inl (Process.sysRead_frame call).2.1
  | read fd ret _ _ pc call => exact Or.inl (Process.sysRead_frame call).2.1
  | closeFinal fd pc => exact Or.inl (Process.sysClose_frame ..).2.1
  | _ => exact Or.inl rfl

/-- A handler begins to depend on the global by assigning it. -/
theorem HandlerStep.live
    (step : HandlerStep self outcome handler process answer handler' process')
    (branch : handler.pc.inDataBranch = true → handler.ioctlCheck = false)
    (live : handler'.Live) : handler.Live ∨ ∃ site fd, handler.pc = .assign site fd := by
  have still {pc : Pc} (here : handler.pc = pc) (reads : (handler.goto pc).Live) :
      handler.Live ∨ ∃ site fd, handler.pc = .assign site fd := by
    left
    rw [Handler.Live, here]
    exact reads
  cases step with
  | recvFails => exact absurd live Bool.false_ne_true
  | recv => exact absurd live Bool.false_ne_true
  | openFile => exact absurd live Bool.false_ne_true
  | assign site fd pc => exact Or.inr ⟨site, fd, pc⟩
  | check site pc => exact still pc rfl
  | lock loop pc => exact still pc rfl
  | load use pc => exact still pc rfl
  | ioctl fd pc =>
      by_cases found : newline ∈ handler.received
      · exact still pc (decide_eq_true found)
      · simp [Handler.Live, Pc.reads, Handler.afterIteration, Handler.goto, found] at live
  | writeFails => exact absurd live Bool.false_ne_true
  | write fd ret _ pc => exact still pc rfl
  | closeData fd pc =>
      have plain := branch (by rw [pc]; rfl)
      by_cases found : newline ∈ handler.received <;>
        simp [Handler.Live, Pc.reads, Handler.afterIteration, Handler.goto, found, plain] at live
  | readFails => exact absurd live Bool.false_ne_true
  | read fd ret bytes _ pc => exact still pc rfl
  | unlock loop pc => exact still pc rfl
  | sendFails => exact absurd live Bool.false_ne_true
  | send pc => exact still pc rfl
  | closeSocket pc => exact still pc rfl
  | complete pc => exact still pc rfl
  | closeFinal => exact absurd live Bool.false_ne_true

theorem Handler.inDataBranch_afterIteration (handler : Handler) :
    handler.afterIteration.pc.inDataBranch = false := by
  simp only [Handler.afterIteration, Handler.goto]
  split
  · split <;> rfl
  · rfl

/-- The branch for data is entered without a seek command. -/
theorem HandlerStep.branch
    (step : HandlerStep self outcome handler process answer handler' process')
    (branch : handler.pc.inDataBranch = true → handler.ioctlCheck = false)
    (inside : handler'.pc.inDataBranch = true) : handler'.ioctlCheck = false := by
  have still {pc : Pc} (here : handler.pc = pc) (within : pc.inDataBranch = true) :
      handler.ioctlCheck = false := branch (here ▸ within)
  cases step with
  | recv pc =>
      have entered : (Pc.openFile (if (handler.receive outcome).ioctlCheck then .seek else .data)
        ).inDataBranch = true := inside
      cases check : (handler.receive outcome).ioctlCheck with
      | false => rfl
      | true => simp [check, Pc.inDataBranch] at entered
  | openFile site fd _ pc => exact still pc inside
  | assign site fd pc => exact still pc inside
  | check site pc =>
      rcases site.afterCheck_cases process.dataFileDescriptor with ⟨_, _, failed⟩ | ⟨_, next⟩
      · rw [failed] at inside
        contradiction
      · rw [next] at inside
        cases site with
        | seek => contradiction
        | data => exact still pc rfl
        | response => contradiction
  | lock loop pc => cases loop <;> simp_all [Handler.goto, Loop.use, Pc.inDataBranch]
  | load use pc => exact still pc inside
  | ioctl fd pc => exact absurd inside (by simp [Handler.inDataBranch_afterIteration])
  | writeFails => contradiction
  | write fd ret _ pc => exact still pc rfl
  | closeData fd pc => exact absurd inside (by simp [Handler.inDataBranch_afterIteration])
  | readFails => contradiction
  | read => contradiction
  | unlock loop pc => cases loop <;> simp_all [Handler.goto, Loop.afterUnlock, Pc.inDataBranch]
  | sendFails => contradiction
  | send pc => by_cases done : handler.sendBuffer = [] <;> simp [done, Pc.inDataBranch] at inside
  | closeSocket => contradiction
  | complete => contradiction
  | closeFinal => contradiction
  | recvFails => contradiction

/-! ## What a step leaves alone -/

theorem HandlerStep.pc_of_used
    (step : HandlerStep self outcome handler process answer handler' process')
    {use : Use} {fd ret : Int} (used : answer = .used use fd ret) : handler.pc = .call use fd := by
  cases step with
  | ioctl fd pc => cases used; exact pc
  | writeFails fd _ pc => cases used; exact pc
  | write fd ret _ pc => cases used; exact pc
  | closeData fd pc => cases used; exact pc
  | readFails fd _ _ pc => cases used; exact pc
  | read fd ret _ _ pc => cases used; exact pc
  | closeFinal fd pc => cases used; exact pc
  | _ => contradiction

theorem HandlerStep.used_of_pc
    (step : HandlerStep self outcome handler process answer handler' process')
    {use : Use} {fd : Int} (pc : handler.pc = .call use fd) : ∃ ret, answer = .used use fd ret := by
  cases step with
  | ioctl fd' pc' => cases pc.symm.trans pc'; exact ⟨_, rfl⟩
  | writeFails fd' _ pc' => cases pc.symm.trans pc'; exact ⟨_, rfl⟩
  | write fd' ret _ pc' => cases pc.symm.trans pc'; exact ⟨_, rfl⟩
  | closeData fd' pc' => cases pc.symm.trans pc'; exact ⟨_, rfl⟩
  | readFails fd' _ _ pc' => cases pc.symm.trans pc'; exact ⟨_, rfl⟩
  | read fd' ret _ _ pc' => cases pc.symm.trans pc'; exact ⟨_, rfl⟩
  | closeFinal fd' pc' => cases pc.symm.trans pc'; exact ⟨_, rfl⟩
  | recvFails pc' => cases pc.symm.trans pc'
  | recv pc' => cases pc.symm.trans pc'
  | openFile site fd' _ pc' => cases pc.symm.trans pc'
  | assign site fd' pc' => cases pc.symm.trans pc'
  | check site pc' => cases pc.symm.trans pc'
  | lock loop pc' => cases pc.symm.trans pc'
  | load use' pc' => cases pc.symm.trans pc'
  | unlock loop pc' => cases pc.symm.trans pc'
  | sendFails pc' => cases pc.symm.trans pc'
  | send pc' => cases pc.symm.trans pc'
  | closeSocket pc' => cases pc.symm.trans pc'
  | complete pc' => cases pc.symm.trans pc'

/-- A new descriptor was not in use, and is the data file afterwards. -/
theorem HandlerStep.opened
    (step : HandlerStep self outcome handler process answer handler' process') {fd : Int}
    (opened : answer = .opened fd) (nonneg : 0 ≤ fd) :
    process.descriptors fd.toNat = none ∧ process'.dataFile fd ≠ none := by
  cases step with
  | openFile site fd' _ pc call =>
      cases opened
      rcases Process.sysOpen_cases call with ⟨_, rfl, _⟩ | ⟨_, unused, rfl, rfl⟩
      · contradiction
      · refine ⟨unused, (Process.dataFile_ne_none_iff ..).mpr ⟨nonneg, site.access, ?_⟩⟩
        simp
  | _ => contradiction

/-- An open data file stays as it is, unless the step closes its number. -/
theorem HandlerStep.dataFile_eq
    (step : HandlerStep self outcome handler process answer handler' process') {fd : Int}
    (isOpen : process.dataFile fd ≠ none)
    (notClosed : ∀ use, use.closes = true → handler.pc ≠ .call use fd)
    (socket : handler.pc = .closeSocket →
      process.descriptors handler.clientSocketFd = some .socket) :
    process'.dataFile fd = process.dataFile fd := by
  rcases (Process.dataFile_ne_none_iff ..).mp isOpen with ⟨nonneg, access, present⟩
  have closing {use : Use} {other : Int} (closes : use.closes = true)
      (pc : handler.pc = .call use other) :
      (process.sysClose outcome other).2.dataFile fd = process.dataFile fd := by
    rcases Process.sysClose_cases outcome other process with same | ⟨nonneg', same⟩
    · rw [same]
    · rw [same]
      refine Process.dataFile_of_ne rfl fun number => notClosed use closes ?_
      rw [pc, show other = fd by omega]
  cases step with
  | openFile site other _ pc call =>
      rcases Process.sysOpen_cases call with ⟨_, _, rfl⟩ | ⟨_, unused, _, rfl⟩
      · rfl
      · refine Process.dataFile_of_ne rfl fun number => ?_
        rw [← number, present] at unused
        contradiction
  | ioctl other pc => exact Process.dataFile_congr (Process.sysIoctl_frame ..).2.2 fd
  | writeFails other _ pc call => exact Process.dataFile_congr (Process.sysWrite_frame call).2.2 fd
  | write other ret _ pc call => exact Process.dataFile_congr (Process.sysWrite_frame call).2.2 fd
  | closeData other pc => exact closing rfl pc
  | readFails other _ _ pc call => exact Process.dataFile_congr (Process.sysRead_frame call).2.2 fd
  | read other ret _ _ pc call => exact Process.dataFile_congr (Process.sysRead_frame call).2.2 fd
  | closeSocket pc =>
      refine Process.dataFile_of_ne rfl fun number => ?_
      rw [← number, present] at socket
      exact absurd (socket pc) (by simp)
  | closeFinal other pc => exact closing rfl pc
  | _ => rfl

/-- The position of an open data file stays as it is, unless the step uses its
number. -/
theorem HandlerStep.fPos_eq
    (step : HandlerStep self outcome handler process answer handler' process') {fd : Int}
    (isOpen : process.dataFile fd ≠ none) (notUsed : ∀ use, handler.pc ≠ .call use fd) :
    process'.system.fPos fd.toNat = process.system.fPos fd.toNat := by
  rcases (Process.dataFile_ne_none_iff ..).mp isOpen with ⟨nonneg, access, present⟩
  have different {use : Use} {other : Int} (pc : handler.pc = .call use other)
      (nonneg' : 0 ≤ other) : fd.toNat ≠ other.toNat := by
    intro number
    apply notUsed use
    rw [pc, show other = fd by omega]
  have writing {other ret : Int} (pc : handler.pc = .call .write other)
      (call : process.sysWrite outcome other handler.received = some (ret, process')) :
      process'.system.fPos fd.toNat = process.system.fPos fd.toNat := by
    rcases Process.sysWrite_cases call with ⟨_, rfl⟩ | ⟨_, writable, _, _, written, _, rfl⟩
    · rfl
    · have isOpen' : process.dataFile other ≠ none := by simp [writable]
      exact aesdWrite_fPos written (different pc ((Process.dataFile_ne_none_iff ..).mp isOpen').1)
  have reading {other ret : Int} {bytes : List Byte} (pc : handler.pc = .call .read other)
      (call : process.sysRead outcome other bufLen = some (ret, bytes, process')) :
      process'.system.fPos fd.toNat = process.system.fPos fd.toNat := by
    rcases Process.sysRead_cases call with ⟨_, rfl⟩ | ⟨_, isOpen', _, _, delivered, _, rfl⟩
    · rfl
    · exact aesdRead_fPos delivered (different pc ((Process.dataFile_ne_none_iff ..).mp isOpen').1)
  cases step with
  | openFile site other _ pc call =>
      rcases Process.sysOpen_cases call with ⟨_, _, rfl⟩ | ⟨_, unused, _, rfl⟩
      · rfl
      · refine Function.update_of_ne (fun number => ?_) ..
        rw [← number, present] at unused
        contradiction
  | ioctl other pc =>
      rcases Process.sysIoctl_cases outcome other handler.aesdSeektoData process with
        same | ⟨_, isOpen', same⟩
      · rw [same]
      · rw [same]
        exact aesdIoctl_fPos _ _ _ (different pc ((Process.dataFile_ne_none_iff ..).mp isOpen').1)
  | writeFails other _ pc call => exact writing pc call
  | write other ret _ pc call => exact writing pc call
  | closeData other pc => rw [(Process.sysClose_frame ..).2.2]
  | readFails other _ _ pc call => exact reading pc call
  | read other ret _ _ pc call => exact reading pc call
  | closeFinal other pc => rw [(Process.sysClose_frame ..).2.2]
  | _ => rfl

/-- A socket stays open, unless the step is the close of it. -/
theorem HandlerStep.socket_eq
    (step : HandlerStep self outcome handler process answer handler' process') {number : Nat}
    (socket : process.descriptors number = some .socket)
    (isOpen : ∀ use fd, handler.pc = .call use fd → process.dataFile fd ≠ none)
    (notClosed : handler.pc = .closeSocket → handler.clientSocketFd ≠ number) :
    process'.descriptors number = some .socket := by
  have closing {use : Use} {other : Int} (pc : handler.pc = .call use other) :
      (process.sysClose outcome other).2.descriptors number = some .socket := by
    rcases Process.sysClose_cases outcome other process with same | ⟨_, same⟩
    · rw [same]
      exact socket
    · rw [same]
      refine (Function.update_of_ne (fun same => ?_) ..).trans socket
      rcases (Process.dataFile_ne_none_iff ..).mp (isOpen use other pc) with ⟨_, access, present⟩
      rw [← same, socket] at present
      simp at present
  cases step with
  | openFile site other _ pc call =>
      rcases Process.sysOpen_cases call with ⟨_, _, rfl⟩ | ⟨_, unused, _, rfl⟩
      · exact socket
      · refine (Function.update_of_ne (fun same => ?_) ..).trans socket
        rw [← same, socket] at unused
        contradiction
  | ioctl other pc => rw [(Process.sysIoctl_frame ..).2.2, socket]
  | writeFails other _ pc call => rw [(Process.sysWrite_frame call).2.2, socket]
  | write other ret _ pc call => rw [(Process.sysWrite_frame call).2.2, socket]
  | closeData other pc => exact closing pc
  | readFails other _ _ pc call => rw [(Process.sysRead_frame call).2.2, socket]
  | read other ret _ _ pc call => rw [(Process.sysRead_frame call).2.2, socket]
  | closeSocket pc => exact (Function.update_of_ne (Ne.symm (notClosed pc)) ..).trans socket
  | closeFinal other pc => exact closing pc
  | _ => exact socket

/-- A handler keeps its socket number, and does not reopen its socket. -/
theorem HandlerStep.clientSocketFd_eq
    (step : HandlerStep self outcome handler process answer handler' process') :
    handler'.clientSocketFd = handler.clientSocketFd := by
  cases step <;> rfl

theorem HandlerStep.socketOpen
    (step : HandlerStep self outcome handler process answer handler' process')
    (isOpen : handler'.pc.socketOpen = true) :
    handler.pc.socketOpen = true ∧ handler.pc ≠ .closeSocket := by
  have still {pc : Pc} (here : handler.pc = pc) (before : pc.socketOpen = true)
      (other : pc ≠ .closeSocket) : handler.pc.socketOpen = true ∧ handler.pc ≠ .closeSocket :=
    here ▸ ⟨before, other⟩
  cases step with
  | recvFails => contradiction
  | recv pc => exact still pc rfl (by simp)
  | openFile site fd _ pc => exact still pc rfl (by simp)
  | assign site fd pc => exact still pc rfl (by simp)
  | check site pc => exact still pc rfl (by simp)
  | lock loop pc => exact still pc rfl (by simp)
  | load use pc => exact still pc isOpen (by simp)
  | ioctl fd pc => exact still pc rfl (by simp)
  | writeFails => contradiction
  | write fd ret _ pc => exact still pc rfl (by simp)
  | closeData fd pc => exact still pc rfl (by simp)
  | readFails => contradiction
  | read fd ret _ _ pc => exact still pc rfl (by simp)
  | unlock loop pc => exact still pc rfl (by simp)
  | sendFails => contradiction
  | send pc => exact still pc rfl (by simp)
  | closeSocket => contradiction
  | complete => contradiction
  | closeFinal => contradiction

variable [DecidableEq τ] {current : Option Int}

/-- A step keeps what its own thread relies on. -/
theorem HandlerStep.knows
    (step : HandlerStep self outcome handler process answer handler' process')
    (knows : handler.Knows current process.dataFileDescriptor)
    (branch : handler.pc.inDataBranch = true → handler.ioctlCheck = false)
    (stores : ∀ fd, handler.pc = .assign .data fd → fd ≠ -1) :
    handler'.Knows (heldAfter self current (self, answer)) process'.dataFileDescriptor := by
  cases step with
  | recvFails => trivial
  | recv => trivial
  | openFile site fd _ pc call =>
      rcases Process.sysOpen_cases call with ⟨_, rfl, rfl⟩ | ⟨_, _, rfl, rfl⟩
      · exact Or.inl rfl
      · right
        simp [heldAfter]
  | assign site fd pc =>
      rw [Handler.Knows, pc] at knows
      rcases knows with failed | stored
      · left
        refine ⟨?_, failed⟩
        rintro rfl
        exact stores fd pc failed
      · exact Or.inr stored
  | check site pc =>
      rw [Handler.Knows, pc] at knows
      rcases site.afterCheck_cases process.dataFileDescriptor with
        ⟨_, _, failed⟩ | ⟨allowed, next⟩
      · rw [failed]
        trivial
      · rw [next]
        have opened := knows.resolve_left fun failed => allowed.elim failed.1 (· failed.2)
        cases site <;> exact opened
  | lock loop pc =>
      rw [Handler.Knows, pc] at knows
      exact knows
  | load use pc =>
      rw [Handler.Knows, pc] at knows
      cases use with
      | ioctl => exact ⟨knows, fun _ => rfl⟩
      | write => exact ⟨knows, rfl⟩
      | closeData => exact knows
      | read => exact ⟨knows, rfl⟩
      | closeFinal => exact knows
  | ioctl fd pc =>
      rw [Handler.Knows, pc] at knows
      rw [(Process.sysIoctl_frame ..).2.1]
      by_cases found : newline ∈ handler.received
      · by_cases check : handler.ioctlCheck = true
        · simp [Handler.Knows, Handler.afterIteration, Handler.goto, found, check, heldAfter,
            Use.closes, knows.1, knows.2 found]
        · simp [Handler.Knows, Handler.afterIteration, Handler.goto, found, check]
      · simp [Handler.Knows, Handler.afterIteration, Handler.goto, found]
  | writeFails => trivial
  | write fd ret _ pc call =>
      rw [Handler.Knows, pc] at knows
      rw [(Process.sysWrite_frame call).2.1]
      simpa [Handler.Knows, Handler.goto, heldAfter, Use.closes, knows.2] using knows.1
  | closeData fd pc =>
      have plain := branch (by rw [pc]; rfl)
      by_cases found : newline ∈ handler.received <;>
        simp [Handler.Knows, Handler.afterIteration, Handler.goto, found, plain]
  | readFails => trivial
  | read fd ret bytes _ pc call =>
      rw [Handler.Knows, pc] at knows
      rw [(Process.sysRead_frame call).2.1]
      simpa [Handler.Knows, heldAfter, Use.closes, knows.2] using knows.1
  | unlock loop pc =>
      rw [Handler.Knows, pc] at knows
      cases loop <;> exact knows
  | sendFails => trivial
  | send pc =>
      rw [Handler.Knows, pc] at knows
      by_cases done : handler.sendBuffer = [] <;>
        simpa [Handler.Knows, done, heldAfter] using knows
  | closeSocket pc =>
      rw [Handler.Knows, pc] at knows
      exact knows
  | complete pc =>
      rw [Handler.Knows, pc] at knows
      exact knows
  | closeFinal => trivial

end

end Aesd.Server
