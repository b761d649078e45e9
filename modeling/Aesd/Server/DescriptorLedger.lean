import Aesd.Server.DescriptorUse
import Aesd.Server.Service
import Aesd.Transition.Ledger

/-!
# The descriptors of one connection

Which descriptors a handler that runs alone opens and closes.  It always closes
what it has opened; whether it closes all of it depends on how it returns and on
the seek commands it has received.
-/

namespace Aesd.Server

open Aesd.Driver Aesd.Transition

/-- What a step of a handler opens and closes. -/
def Handler.entries (handler : Handler) : Answer → List (Entry Int)
  | .opened fd => if fd < 0 then [] else [.opens fd]
  | .used .closeData fd _ => [.closes fd]
  | .used .closeFinal fd _ => [.closes fd]
  | _ => if handler.pc = .closeSocket then [.closes handler.clientSocketFd] else []

/-- A handler that runs alone, with what it has opened and not closed. -/
structure Accounted where
  handler : Handler
  process : Process Unit
  opened : List Int

/-- A step of a handler with its entries in the ledger. -/
def accountedStep : Machine Accounted Outcome (List (Entry Int))
  | accounted, outcome =>
      (handlerStep () (accounted.handler, accounted.process) outcome).map fun result =>
        let entries := accounted.handler.entries result.1
        (entries, ⟨result.2.1, result.2.2, outstanding accounted.opened entries⟩)

/-- A handler at its start owns the client's socket. -/
def Accounted.start (clientSocketFd : Nat) (incoming : List Chunk) (process : Process Unit) :
    Accounted where
  handler := clientDataHandler clientSocketFd incoming
  process := process
  opened := [clientSocketFd]

/-! ## What a handler owns -/

/-- The data file that a handler has opened last and is going to use or to close,
given the value of the global; it is `-1` if it could not be opened. -/
def Pc.dataFile (dataFileDescriptor : Int) : Pc → Option Int
  | .recv | .openFile _ | .returned _ => none
  | .assign _ fd => some fd
  | .call _ fd => some fd
  | _ => some dataFileDescriptor

/-- The client's socket has not been closed. -/
def Pc.ownsSocket : Pc → Bool
  | .complete | .load .closeFinal | .call .closeFinal _ | .returned true => false
  | _ => true

/-- What a handler is still going to close. -/
def Handler.Owns (handler : Handler) (dataFileDescriptor fd : Int) : Prop :=
  handler.pc.ownsSocket = true ∧ fd = handler.clientSocketFd ∨
    handler.pc.dataFile dataFileDescriptor = some fd ∧ 0 ≤ fd

/-- The places that are reached only with an open data file. -/
def Pc.needsFile : Pc → Bool
  | .load use => use != .write
  | .call use _ => use != .write
  | .lock loop => loop == .respond
  | .unlock _ | .send | .closeSocket | .complete => true
  | _ => false

/-- The descriptor of the call that comes next. -/
def Pc.uses : Pc → Option Int
  | .call _ fd => some fd
  | _ => none

/-- The handler has returned after an error. -/
def Pc.gaveUp : Pc → Bool
  | .returned ok => !ok
  | _ => false

theorem Pc.ne_returned_of_gaveUp {pc : Pc} (alive : pc.gaveUp = false) : pc ≠ .returned false := by
  rintro rfl
  contradiction

namespace Accounted

/-- The invariant of a handler that runs alone. -/
structure Sound (accounted : Accounted) : Prop where
  owned : ∀ fd, accounted.handler.Owns accounted.process.dataFileDescriptor fd →
    fd ∈ accounted.opened
  nodup : accounted.opened.Nodup
  inUse : ∀ fd ∈ accounted.opened, 0 ≤ fd ∧ accounted.process.descriptors fd.toNat ≠ none
  apart : accounted.handler.pc.ownsSocket = true →
    accounted.handler.pc.dataFile accounted.process.dataFileDescriptor ≠
      some (accounted.handler.clientSocketFd : Int)
  loaded : ∀ use fd, accounted.handler.pc = .call use fd →
    accounted.process.dataFileDescriptor = fd
  exists_file : accounted.handler.pc.needsFile = true →
    ∀ fd ∈ accounted.handler.pc.dataFile accounted.process.dataFileDescriptor, 0 ≤ fd
  failed : ∀ fd ∈ accounted.handler.pc.dataFile accounted.process.dataFileDescriptor,
    fd = -1 ∨ 0 ≤ fd
  branch : ∀ taken ∈ accounted.handler.pc.branch, accounted.handler.ioctlCheck = taken

/-- Everything is still going to be closed. -/
structure Tidy (accounted : Accounted) : Prop where
  complete : ∀ fd ∈ accounted.opened,
    accounted.handler.Owns accounted.process.dataFileDescriptor fd
  working : accounted.handler.pc ≠ .returned false
  hasFile : ∀ fd ∈ accounted.handler.pc.dataFile accounted.process.dataFileDescriptor, 0 ≤ fd

end Accounted

/-- The condition on a step: the calls whose errors end the handler succeed, and a seek
command comes with its newline. -/
def Handler.Keeps (handler : Handler) (process : Process Unit) (outcome : Outcome) : Prop :=
  match handler.pc with
  | .recv => outcome.fails = false
  | .openFile _ => outcome.fails = false
  | .call .ioctl _ => newline ∈ handler.received
  | .call .write fd => (process.sysWrite outcome fd handler.received).all (·.1 != -1) = true
  | .call .read fd => (process.sysRead outcome fd bufLen).all (·.1 != -1) = true
  | .send => outcome.fails = false
  | _ => True

instance (handler : Handler) (process : Process Unit) (outcome : Outcome) :
    Decidable (handler.Keeps process outcome) := by
  unfold Handler.Keeps
  split <;> infer_instance

/-! ## The steps -/

/-- A step makes proper entries, and everything is still going to be closed exactly if it
was before and the step meets the condition. -/
structure Accounted.Follows (outcome : Outcome) (source : Accounted)
    (entries : List (Entry Int)) (target : Accounted) : Prop where
  proper : Proper source.opened entries
  opened : target.opened = outstanding source.opened entries
  sound : target.Sound
  tidy_iff : target.Tidy ↔ source.Tidy ∧ source.handler.Keeps source.process outcome

section

variable {handler handler' : Handler} {process process' : Process Unit} {opened : List Int}
  {outcome : Outcome} {answer : Answer}

/-- A step that opens and closes nothing and goes on with the same descriptors. -/
theorem Accounted.Sound.quiet (sound : Sound ⟨handler, process, opened⟩) {pc pc' : Pc}
    (here : handler.pc = pc) (there : handler'.pc = pc')
    (entries : handler.entries answer = []) (keeps : handler.Keeps process outcome)
    (alive : pc.gaveUp = false ∧ pc'.gaveUp = false)
    (socket : handler'.clientSocketFd = handler.clientSocketFd)
    (descriptors : process'.descriptors = process.descriptors)
    (ownsSocket : pc'.ownsSocket = pc.ownsSocket)
    (file : pc'.dataFile process'.dataFileDescriptor = pc.dataFile process.dataFileDescriptor)
    (loaded : pc'.uses = none ∨ pc'.uses = some process'.dataFileDescriptor)
    (needs : pc'.needsFile = false ∨ ∀ fd ∈ pc.dataFile process.dataFileDescriptor, 0 ≤ fd)
    (branch : ∀ taken ∈ pc'.branch, handler'.ioctlCheck = taken) :
    Follows outcome ⟨handler, process, opened⟩ (handler.entries answer)
      ⟨handler', process', outstanding opened (handler.entries answer)⟩ := by
  subst here there
  have owns (fd : Int) : handler'.Owns process'.dataFileDescriptor fd ↔
      handler.Owns process.dataFileDescriptor fd := by
    rw [Handler.Owns, Handler.Owns, ownsSocket, socket, file]
  rw [entries, outstanding_nil]
  constructor
  · exact trivial
  · rfl
  · constructor
    · exact fun fd owned => sound.owned fd ((owns fd).mp owned)
    · exact sound.nodup
    · rw [descriptors]
      exact sound.inUse
    · rw [ownsSocket, file, socket]
      exact sound.apart
    · intro use fd call
      dsimp only at call
      rw [call] at loaded
      rcases loaded with none | same
      · cases none
      · exact (Option.some.inj same).symm
    · rw [file]
      rcases needs with plain | nonneg
      · intro needed
        exact Bool.noConfusion (plain.symm.trans needed)
      · exact fun _ => nonneg
    · rw [file]
      exact sound.failed
    · exact branch
  · rw [and_iff_left keeps]
    constructor
    · intro tidy
      exact ⟨fun fd member => (owns fd).mp (tidy.complete fd member),
        Pc.ne_returned_of_gaveUp alive.1, file ▸ tidy.hasFile⟩
    · intro tidy
      exact ⟨fun fd member => (owns fd).mpr (tidy.complete fd member),
        Pc.ne_returned_of_gaveUp alive.2, file.symm ▸ tidy.hasFile⟩

/-- A handler that gives up, or receives the next chunk, forgets its data file. -/
theorem Accounted.Sound.forget (sound : Sound ⟨handler, process, opened⟩)
    (pc : handler'.pc = .recv ∨ handler'.pc = .returned false)
    (socket : handler'.clientSocketFd = handler.clientSocketFd)
    (descriptors : process'.descriptors = process.descriptors)
    (ownsSocket : handler.pc.ownsSocket = true) : Sound ⟨handler', process', opened⟩ := by
  have none : handler'.pc.dataFile process'.dataFileDescriptor = none := by
    rcases pc with pc | pc <;> rw [pc] <;> rfl
  constructor
  · rintro fd (⟨_, rfl⟩ | ⟨file, _⟩)
    · exact sound.owned _ (.inl ⟨ownsSocket, congrArg _ socket⟩)
    · rw [none] at file
      contradiction
  · exact sound.nodup
  · rw [descriptors]
    exact sound.inUse
  · rw [none]
    simp
  · rcases pc with pc | pc <;> rw [pc] <;> simp
  · rw [none]
    simp
  · rw [none]
    simp
  · rcases pc with pc | pc <;> rw [pc] <;> rintro _ ⟨⟩

theorem Accounted.Sound.givesUp (sound : Sound ⟨handler, process, opened⟩)
    (entries : handler.entries answer = [])
    (fails : Tidy ⟨handler, process, opened⟩ → ¬handler.Keeps process outcome)
    (descriptors : process'.descriptors = process.descriptors)
    (ownsSocket : handler.pc.ownsSocket = true) :
    Follows outcome ⟨handler, process, opened⟩ (handler.entries answer)
      ⟨handler.goto (.returned false), process',
        outstanding opened (handler.entries answer)⟩ := by
  rw [entries, outstanding_nil]
  constructor
  · exact trivial
  · rfl
  · exact sound.forget (.inr rfl) rfl descriptors ownsSocket
  · exact iff_of_false (fun tidy => tidy.working rfl) fun both => fails both.1 both.2

theorem Accounted.Sound.member (sound : Sound ⟨handler, process, opened⟩) {use : Use} {fd : Int}
    (pc : handler.pc = .call use fd) (needs : use ≠ .write) : 0 ≤ fd ∧ fd ∈ opened := by
  have file : handler.pc.dataFile process.dataFileDescriptor = some fd := by rw [pc]; rfl
  have nonneg : 0 ≤ fd := sound.exists_file (by simpa [pc, Pc.needsFile] using needs) fd file
  exact ⟨nonneg, sound.owned fd (.inr ⟨file, nonneg⟩)⟩

/-- A handler that closes what it owns no longer owns it. -/
theorem Accounted.Sound.owned_erase {owns : Int → Prop} {fd : Int}
    (sound : Sound ⟨handler, process, opened⟩)
    (rest : ∀ other, owns other ↔
      handler.Owns process.dataFileDescriptor other ∧ other ≠ fd) :
    ∀ other, owns other → other ∈ opened.erase fd := by
  intro other owned
  rcases (rest other).mp owned with ⟨before, different⟩
  exact sound.nodup.mem_erase_iff.mpr ⟨different, sound.owned other before⟩

/-- When it owned everything, it owns everything else. -/
theorem Accounted.Sound.complete_erase_iff {owns : Int → Prop} {fd : Int}
    (sound : Sound ⟨handler, process, opened⟩)
    (own : handler.Owns process.dataFileDescriptor fd)
    (rest : ∀ other, owns other ↔
      handler.Owns process.dataFileDescriptor other ∧ other ≠ fd) :
    (∀ other ∈ opened.erase fd, owns other) ↔
      ∀ other ∈ opened, handler.Owns process.dataFileDescriptor other := by
  constructor
  · intro complete other within
    by_cases same : other = fd
    · exact same.symm ▸ own
    · have kept := sound.nodup.mem_erase_iff.mpr ⟨same, within⟩
      exact ((rest other).mp (complete other kept)).1
  · intro complete other within
    rcases sound.nodup.mem_erase_iff.mp within with ⟨different, within⟩
    exact (rest other).mpr ⟨complete other within, different⟩

/-- A descriptor of another number stays in use. -/
theorem Accounted.Sound.inUse_erase (sound : Sound ⟨handler, process, opened⟩) {fd : Int}
    {descriptors : Nat → Option Description}
    (inUse : ∀ other : Nat, (other : Int) ≠ fd → process.descriptors other ≠ none →
      descriptors other ≠ none) :
    ∀ other ∈ opened.erase fd, 0 ≤ other ∧ descriptors other.toNat ≠ none := by
  intro other within
  rcases sound.nodup.mem_erase_iff.mp within with ⟨different, within⟩
  rcases sound.inUse other within with ⟨nonneg, before⟩
  constructor
  · exact nonneg
  · exact inUse other.toNat (by rwa [Int.toNat_of_nonneg nonneg]) before

/-- A step that closes the data file. -/
theorem Accounted.Sound.closes (sound : Sound ⟨handler, process, opened⟩) {use : Use} {fd : Int}
    (pc : handler.pc = .call use fd) (needs : use ≠ .write)
    (entries : handler.entries answer = [.closes fd])
    (keeps : handler.Keeps process outcome)
    (next : handler'.pc = .recv ∨ handler'.pc = .openFile .response ∨
      handler'.pc = .returned true)
    (socket : handler'.clientSocketFd = handler.clientSocketFd)
    (ownsSocket : handler'.pc.ownsSocket = handler.pc.ownsSocket) :
    Follows outcome ⟨handler, process, opened⟩ (handler.entries answer)
      ⟨handler', (process.sysClose outcome fd).2,
        outstanding opened (handler.entries answer)⟩ := by
  rcases sound.member pc needs with ⟨nonneg, member⟩
  have before : handler.pc.dataFile process.dataFileDescriptor = some fd := by rw [pc]; rfl
  have apart := sound.apart
  rw [before] at apart
  have file (fd : Int) : handler'.pc.dataFile fd = none := by
    rcases next with pc | pc | pc <;> rw [pc] <;> rfl
  have rest (other : Int) :
      handler'.Owns (process.sysClose outcome fd).2.dataFileDescriptor other ↔
        handler.Owns process.dataFileDescriptor other ∧ other ≠ fd := by
    rw [Handler.Owns, Handler.Owns, ownsSocket, socket, file, before]
    constructor
    · rintro (⟨owned, rfl⟩ | ⟨none, _⟩)
      · exact ⟨.inl ⟨owned, rfl⟩, fun same => apart owned (congrArg some same.symm)⟩
      · contradiction
    · rintro ⟨owned | ⟨same, _⟩, different⟩
      · exact .inl owned
      · exact absurd (Option.some.inj same).symm different
  rw [entries, outstanding_cons, outstanding_nil, record]
  constructor
  · exact ⟨member, trivial⟩
  · rfl
  · constructor
    · exact sound.owned_erase rest
    · exact sound.nodup.erase fd
    · apply sound.inUse_erase
      intro other different inUse
      exact Process.inUse_sysClose (by omega) inUse
    · dsimp only
      rw [file]
      simp
    · intro use fd call
      rcases next with pc | pc | pc <;> rw [pc] at call <;> cases call
    · dsimp only
      rw [file]
      simp
    · dsimp only
      rw [file]
      simp
    · rcases next with pc | pc | pc <;> rw [pc] <;> rintro _ ⟨⟩
  · rw [and_iff_left keeps]
    have complete := sound.complete_erase_iff (.inr ⟨before, nonneg⟩) rest
    constructor
    · intro tidy
      refine ⟨complete.mp tidy.complete, ?_, ?_⟩
      · dsimp only
        rw [pc]
        simp
      · dsimp only
        rw [before]
        rintro _ ⟨⟩
        exact nonneg
    · intro tidy
      refine ⟨complete.mpr tidy.complete, ?_, ?_⟩
      · rcases next with pc | pc | pc <;> rw [pc] <;> simp
      · dsimp only
        rw [file]
        simp

/-- The step that closes the client's socket. -/
theorem Accounted.Sound.closeSocket (sound : Sound ⟨handler, process, opened⟩)
    (pc : handler.pc = .closeSocket) :
    Follows outcome ⟨handler, process, opened⟩ (handler.entries .silent)
      ⟨handler.goto .complete,
        { process with
          descriptors := Function.update process.descriptors handler.clientSocketFd none },
        outstanding opened (handler.entries .silent)⟩ := by
  have own : handler.Owns process.dataFileDescriptor handler.clientSocketFd :=
    .inl ⟨by rw [pc]; rfl, rfl⟩
  have apart : some process.dataFileDescriptor ≠ some (handler.clientSocketFd : Int) := by
    have apart := sound.apart (by rw [pc]; rfl)
    rwa [pc] at apart
  have nonneg : 0 ≤ process.dataFileDescriptor :=
    sound.exists_file (by rw [pc]; rfl) _ (by rw [pc]; rfl)
  have rest (other : Int) :
      (handler.goto .complete).Owns process.dataFileDescriptor other ↔
        handler.Owns process.dataFileDescriptor other ∧ other ≠ handler.clientSocketFd := by
    rw [Handler.Owns, Handler.Owns, pc]
    constructor
    · rintro (⟨closed, _⟩ | ⟨found, nonneg⟩)
      · contradiction
      · exact ⟨.inr ⟨found, nonneg⟩, fun same => apart (same ▸ found)⟩
    · rintro ⟨⟨_, same⟩ | found, different⟩
      · exact absurd same different
      · exact .inr found
  have entries : handler.entries .silent = [.closes (handler.clientSocketFd : Int)] := if_pos pc
  rw [entries, outstanding_cons, outstanding_nil, record]
  constructor
  · exact ⟨sound.owned _ own, trivial⟩
  · rfl
  · constructor
    · exact sound.owned_erase rest
    · exact sound.nodup.erase _
    · apply sound.inUse_erase
      intro other different inUse
      exact Process.inUse_update (by omega) inUse
    · rintro ⟨⟩
    · rintro _ _ ⟨⟩
    · rintro _ _ ⟨⟩
      exact nonneg
    · rintro _ ⟨⟩
      exact .inr nonneg
    · rintro _ ⟨⟩
  · have keeps : handler.Keeps process outcome := by
      rw [Handler.Keeps, pc]
      trivial
    rw [and_iff_left keeps]
    have complete := sound.complete_erase_iff own rest
    constructor
    · intro tidy
      refine ⟨complete.mp tidy.complete, ?_, ?_⟩
      · rw [pc]
        simp
      · rw [pc]
        rintro _ ⟨⟩
        exact nonneg
    · intro tidy
      refine ⟨complete.mpr tidy.complete, ?_, ?_⟩
      · rintro ⟨⟩
      · rintro _ ⟨⟩
        exact nonneg

/-- The step that opens the data file. -/
theorem Accounted.Sound.opens (sound : Sound ⟨handler, process, opened⟩) {site : OpenSite}
    (pc : handler.pc = .openFile site) (works : outcome.fails = false)
    (unused : process.descriptors outcome.descriptor = none) :
    Follows outcome ⟨handler, process, opened⟩ [.opens (outcome.descriptor : Int)]
      ⟨handler.goto (.assign site outcome.descriptor),
        { process with
          system := aesdOpen outcome.descriptor process.system
          descriptors := Function.update process.descriptors outcome.descriptor
            (some (.dataFile site.access)) },
        outcome.descriptor :: opened⟩ := by
  have fresh : (outcome.descriptor : Int) ∉ opened := fun member =>
    (sound.inUse _ member).2 unused
  have socket : (handler.clientSocketFd : Int) ∈ opened :=
    sound.owned _ (.inl ⟨by rw [pc]; rfl, rfl⟩)
  constructor
  · exact ⟨fresh, trivial⟩
  · rfl
  · constructor
    · rintro other (⟨_, rfl⟩ | ⟨found, _⟩)
      · exact List.mem_cons_of_mem _ socket
      · cases found
        exact List.mem_cons_self
    · exact List.nodup_cons.mpr ⟨fresh, sound.nodup⟩
    · intro other within
      by_cases same : other = outcome.descriptor
      · subst same
        exact ⟨Int.natCast_nonneg _, by simp⟩
      · have within := (List.mem_cons.mp within).resolve_left same
        rcases sound.inUse other within with ⟨nonneg, inUse⟩
        constructor
        · exact nonneg
        · exact Process.inUse_update (by omega) inUse
    · intro _ same
      have reused : (outcome.descriptor : Int) = handler.clientSocketFd := Option.some.inj same
      exact fresh (reused ▸ socket)
    · rintro _ _ ⟨⟩
    · rintro ⟨⟩
    · rintro _ ⟨⟩
      exact .inr (Int.natCast_nonneg _)
    · intro taken member
      apply sound.branch taken
      rw [pc]
      cases site <;> exact member
  · have keeps : handler.Keeps process outcome := by
      rw [Handler.Keeps, pc]
      exact works
    rw [and_iff_left keeps]
    constructor
    · intro tidy
      constructor
      · intro other within
        rcases tidy.complete other (List.mem_cons_of_mem _ within) with owned | ⟨found, _⟩
        · exact .inl ⟨by rw [pc]; rfl, owned.2⟩
        · cases found
          contradiction
      · rw [pc]
        simp
      · rw [pc]
        rintro _ ⟨⟩
    · intro tidy
      constructor
      · intro other within
        rcases List.mem_cons.mp within with rfl | within
        · exact .inr ⟨rfl, Int.natCast_nonneg _⟩
        · rcases tidy.complete other within with owned | ⟨found, _⟩
          · exact .inl ⟨rfl, owned.2⟩
          · rw [pc] at found
            contradiction
      · rintro ⟨⟩
      · rintro _ ⟨⟩
        exact Int.natCast_nonneg _

/-- An open that fails is noticed later. -/
theorem Accounted.Sound.opensNothing (sound : Sound ⟨handler, process, opened⟩) {site : OpenSite}
    (pc : handler.pc = .openFile site) (fails : outcome.fails = true) :
    Follows outcome ⟨handler, process, opened⟩ []
      ⟨handler.goto (.assign site (-1)), process, opened⟩ := by
  constructor
  · exact trivial
  · rfl
  · constructor
    · rintro other (⟨_, rfl⟩ | ⟨found, nonneg⟩)
      · exact sound.owned _ (.inl ⟨by rw [pc]; rfl, rfl⟩)
      · cases found
        contradiction
    · exact sound.nodup
    · exact sound.inUse
    · intro _ same
      have negative : (-1 : Int) = handler.clientSocketFd := Option.some.inj same
      omega
    · rintro _ _ ⟨⟩
    · rintro ⟨⟩
    · rintro _ ⟨⟩
      exact .inl rfl
    · intro taken member
      apply sound.branch taken
      rw [pc]
      cases site <;> exact member
  · have notKept : ¬handler.Keeps process outcome := by simp [Handler.Keeps, pc, fails]
    apply iff_of_false _ fun both => notKept both.2
    intro tidy
    have nonneg : (0 : Int) ≤ -1 := tidy.hasFile (-1) rfl
    contradiction

/-- A handler that goes on to receive after a seek command has lost its data file. -/
theorem Accounted.Sound.leaks (sound : Sound ⟨handler, process, opened⟩) {fd : Int}
    (pc : handler.pc = .call .ioctl fd) (pc' : handler.afterIteration.pc = .recv)
    (entries : handler.entries answer = []) (fails : ¬handler.Keeps process outcome)
    (descriptors : process'.descriptors = process.descriptors) :
    Follows outcome ⟨handler, process, opened⟩ (handler.entries answer)
      ⟨handler.afterIteration, process', outstanding opened (handler.entries answer)⟩ := by
  rw [entries, outstanding_nil]
  constructor
  · exact trivial
  · rfl
  · exact sound.forget (.inl pc') rfl descriptors (by rw [pc]; rfl)
  · apply iff_of_false _ fun both => fails both.2
    intro tidy
    have apart := sound.apart (by rw [pc]; rfl)
    rcases tidy.complete fd (sound.member pc (by simp)).2 with ⟨_, same⟩ | ⟨found, _⟩
    · rw [pc] at apart
      exact apart (congrArg some same)
    · rw [pc'] at found
      contradiction

theorem Handler.entries_silent (pc : handler.pc ≠ .closeSocket) : handler.entries .silent = [] :=
  if_neg pc

/-- The branch of the receive loop is still the one that was taken. -/
theorem Accounted.Sound.still (sound : Sound ⟨handler, process, opened⟩) {pc pc' : Pc}
    (here : handler.pc = pc) (same : pc'.branch = pc.branch) :
    ∀ taken ∈ pc'.branch, handler.ioctlCheck = taken := by
  rw [same, ← here]
  exact sound.branch

theorem Accounted.Sound.file (sound : Sound ⟨handler, process, opened⟩) {pc : Pc}
    (here : handler.pc = pc) (needs : pc.needsFile = true) :
    ∀ fd ∈ pc.dataFile process.dataFileDescriptor, 0 ≤ fd := by
  subst here
  exact sound.exists_file needs

/-- Outside the receive loop no branch has been taken. -/
theorem Pc.branch_outside {pc : Pc} {check : Bool} (outside : pc.branch = none) :
    ∀ taken ∈ pc.branch, check = taken := by
  rw [outside]
  simp

theorem Accounted.Sound.receives (sound : Sound ⟨handler, process, opened⟩)
    (pc : handler.pc = .recv) (works : outcome.fails = false) {ret : Int} :
    Follows outcome ⟨handler, process, opened⟩ (handler.entries (.received ret))
      ⟨handler.receive outcome, process,
        outstanding opened (handler.entries (.received ret))⟩ := by
  have pc' : (handler.receive outcome).pc =
      .openFile (if (handler.receive outcome).ioctlCheck then .seek else .data) := rfl
  have keeps : handler.Keeps process outcome := by
    rw [Handler.Keeps, pc]
    exact works
  have branch : ∀ taken ∈ (handler.receive outcome).pc.branch,
      (handler.receive outcome).ioctlCheck = taken := by
    rw [pc']
    cases (handler.receive outcome).ioctlCheck <;> rintro _ ⟨⟩ <;> rfl
  exact sound.quiet pc pc' (if_neg (by rw [pc]; simp)) keeps ⟨rfl, rfl⟩ rfl rfl rfl rfl
    (.inl rfl) (.inl rfl) branch

theorem Accounted.Sound.opensFile (sound : Sound ⟨handler, process, opened⟩) {site : OpenSite}
    {fd : Int} (pc : handler.pc = .openFile site)
    (call : process.sysOpen outcome site.access = some (fd, process')) :
    Follows outcome ⟨handler, process, opened⟩ (handler.entries (.opened fd))
      ⟨handler.goto (.assign site fd), process',
        outstanding opened (handler.entries (.opened fd))⟩ := by
  rcases Process.sysOpen_cases call with ⟨fails, rfl, rfl⟩ | ⟨works, unused, rfl, rfl⟩
  · exact sound.opensNothing pc fails
  · have entries : handler.entries (.opened outcome.descriptor) =
        [.opens (outcome.descriptor : Int)] := by simp [Handler.entries]
    rw [entries]
    exact sound.opens pc works unused

/-- The test of the global after an open. -/
theorem Accounted.Sound.checks (sound : Sound ⟨handler, process, opened⟩) {site : OpenSite}
    (pc : handler.pc = .check site) :
    Follows outcome ⟨handler, process, opened⟩ (handler.entries .silent)
      ⟨handler.goto (site.afterCheck process.dataFileDescriptor), process,
        outstanding opened (handler.entries .silent)⟩ := by
  have silent : handler.entries .silent = [] := Handler.entries_silent (by rw [pc]; simp)
  have file : handler.pc.dataFile process.dataFileDescriptor =
      some process.dataFileDescriptor := by rw [pc]; rfl
  rcases site.afterCheck_cases process.dataFileDescriptor with
    ⟨unopened, _, gaveUp⟩ | ⟨allowed, next⟩
  · rw [gaveUp]
    apply sound.givesUp silent _ rfl (by rw [pc]; rfl)
    intro tidy
    have nonneg : 0 ≤ process.dataFileDescriptor := tidy.hasFile _ file
    omega
  · have keeps : handler.Keeps process outcome := by rw [Handler.Keeps, pc]; trivial
    have needs : site.next.needsFile = false ∨
        ∀ fd ∈ (Pc.check site).dataFile process.dataFileDescriptor, 0 ≤ fd := by
      rcases allowed with rfl | opened
      · exact .inl rfl
      · right
        rintro _ ⟨⟩
        exact (sound.failed _ file).resolve_left opened
    have branch : ∀ taken ∈ site.next.branch, handler.ioctlCheck = taken := by
      cases site with
      | seek => exact sound.still pc rfl
      | data => exact sound.still pc rfl
      | response => exact Pc.branch_outside rfl
    exact sound.quiet pc next silent keeps ⟨rfl, by cases site <;> rfl⟩ rfl rfl
      (by cases site <;> rfl) (by cases site <;> rfl) (.inl (by cases site <;> rfl)) needs branch

theorem Accounted.Sound.locks (sound : Sound ⟨handler, process, opened⟩) {loop : Loop}
    (pc : handler.pc = .lock loop) :
    Follows outcome ⟨handler, process, opened⟩ (handler.entries .silent)
      ⟨handler.goto (.load loop.use), { process with lock := some () },
        outstanding opened (handler.entries .silent)⟩ := by
  have silent : handler.entries .silent = [] := Handler.entries_silent (by rw [pc]; simp)
  have keeps : handler.Keeps process outcome := by rw [Handler.Keeps, pc]; trivial
  cases loop with
  | receive =>
      exact sound.quiet pc rfl silent keeps ⟨rfl, rfl⟩ rfl rfl rfl rfl (.inl rfl) (.inl rfl)
        (sound.still pc rfl)
  | respond =>
      exact sound.quiet pc rfl silent keeps ⟨rfl, rfl⟩ rfl rfl rfl rfl (.inl rfl)
        (.inr (sound.file pc rfl)) (Pc.branch_outside rfl)

theorem Accounted.Sound.unlocks (sound : Sound ⟨handler, process, opened⟩) {loop : Loop}
    (pc : handler.pc = .unlock loop) :
    Follows outcome ⟨handler, process, opened⟩ (handler.entries .silent)
      ⟨handler.goto loop.afterUnlock, { process with lock := none },
        outstanding opened (handler.entries .silent)⟩ := by
  have silent : handler.entries .silent = [] := Handler.entries_silent (by rw [pc]; simp)
  have keeps : handler.Keeps process outcome := by rw [Handler.Keeps, pc]; trivial
  cases loop with
  | receive =>
      exact sound.quiet pc rfl silent keeps ⟨rfl, rfl⟩ rfl rfl rfl rfl (.inl rfl)
        (.inr (sound.file pc rfl)) (sound.still pc rfl)
  | respond =>
      exact sound.quiet pc rfl silent keeps ⟨rfl, rfl⟩ rfl rfl rfl rfl (.inl rfl)
        (.inr (sound.file pc rfl)) (Pc.branch_outside rfl)

theorem Accounted.Sound.loads (sound : Sound ⟨handler, process, opened⟩) {use : Use}
    (pc : handler.pc = .load use) :
    Follows outcome ⟨handler, process, opened⟩ (handler.entries .silent)
      ⟨handler.goto (.call use process.dataFileDescriptor), process,
        outstanding opened (handler.entries .silent)⟩ := by
  have needs := (Pc.load use).needsFile.eq_false_or_eq_true.symm.imp_right (sound.file pc)
  have branch : ∀ taken ∈ (Pc.call use process.dataFileDescriptor).branch,
      handler.ioctlCheck = taken := sound.still pc (by cases use <;> rfl)
  exact sound.quiet pc rfl (Handler.entries_silent (by rw [pc]; simp))
    (by rw [Handler.Keeps, pc]; trivial) ⟨rfl, rfl⟩ rfl rfl (by cases use <;> rfl) rfl
    (.inr rfl) needs branch

/-- A seek command is followed by the response, or its data file is lost. -/
theorem Accounted.Sound.seeks (sound : Sound ⟨handler, process, opened⟩) {fd ret : Int}
    (pc : handler.pc = .call .ioctl fd)
    (descriptors : process'.descriptors = process.descriptors)
    (global : process'.dataFileDescriptor = fd) :
    Follows outcome ⟨handler, process, opened⟩ (handler.entries (.used .ioctl fd ret))
      ⟨handler.afterIteration, process',
        outstanding opened (handler.entries (.used .ioctl fd ret))⟩ := by
  have check : handler.ioctlCheck = true := sound.branch true (by rw [pc]; rfl)
  have entries : handler.entries (.used .ioctl fd ret) = [] := if_neg (by rw [pc]; simp)
  by_cases found : newline ∈ handler.received
  · have pc' : handler.afterIteration.pc = .lock .respond := by
      simp [Handler.afterIteration, Handler.goto, found, check]
    exact sound.quiet pc pc' entries (by rw [Handler.Keeps, pc]; exact found) ⟨rfl, rfl⟩ rfl
      descriptors rfl (congrArg some global) (.inl rfl) (.inr (sound.file pc rfl))
      (Pc.branch_outside rfl)
  · have pc' : handler.afterIteration.pc = .recv := by
      simp [Handler.afterIteration, Handler.goto, found]
    exact sound.leaks pc pc' entries (by rw [Handler.Keeps, pc]; exact found) descriptors

theorem Accounted.Sound.writes (sound : Sound ⟨handler, process, opened⟩) {fd ret : Int}
    (pc : handler.pc = .call .write fd)
    (call : process.sysWrite outcome fd handler.received = some (ret, process'))
    (works : ret ≠ -1) :
    Follows outcome ⟨handler, process, opened⟩ (handler.entries (.used .write fd ret))
      ⟨handler.goto (.unlock .receive), process',
        outstanding opened (handler.entries (.used .write fd ret))⟩ := by
  have frame := Process.sysWrite_frame call
  have keeps : handler.Keeps process outcome := by simp [Handler.Keeps, pc, call, works]
  have nonneg : 0 ≤ fd := by
    rcases Process.sysWrite_cases call with ⟨fails, _⟩ | ⟨_, found, _⟩
    · contradiction
    · exact ((process.dataFile_ne_none_iff fd).mp (by rw [found]; simp)).1
  have global : process'.dataFileDescriptor = fd :=
    frame.2.1.trans (sound.loaded .write fd pc)
  have needs : ∀ other ∈ (Pc.call .write fd).dataFile process.dataFileDescriptor, 0 ≤ other := by
    rintro _ ⟨⟩
    exact nonneg
  exact sound.quiet pc rfl (if_neg (by rw [pc]; simp)) keeps ⟨rfl, rfl⟩ rfl frame.2.2 rfl
    (congrArg some global) (.inl rfl) (.inr needs) (sound.still pc rfl)

theorem Accounted.Sound.reads (sound : Sound ⟨handler, process, opened⟩) {fd ret : Int}
    {bytes : List Byte} (pc : handler.pc = .call .read fd)
    (call : process.sysRead outcome fd bufLen = some (ret, bytes, process'))
    (works : ret ≠ -1) :
    Follows outcome ⟨handler, process, opened⟩ (handler.entries (.used .read fd ret))
      ⟨{ handler with pc := .unlock .respond, sendBuffer := bytes }, process',
        outstanding opened (handler.entries (.used .read fd ret))⟩ := by
  have frame := Process.sysRead_frame call
  have keeps : handler.Keeps process outcome := by simp [Handler.Keeps, pc, call, works]
  have global : process'.dataFileDescriptor = fd := frame.2.1.trans (sound.loaded .read fd pc)
  exact sound.quiet pc rfl (if_neg (by rw [pc]; simp)) keeps ⟨rfl, rfl⟩ rfl frame.2.2 rfl
    (congrArg some global) (.inl rfl) (.inr (sound.file pc rfl)) (Pc.branch_outside rfl)

theorem Accounted.Sound.closesData (sound : Sound ⟨handler, process, opened⟩) {fd ret : Int}
    (pc : handler.pc = .call .closeData fd) :
    Follows outcome ⟨handler, process, opened⟩ (handler.entries (.used .closeData fd ret))
      ⟨handler.afterIteration, (process.sysClose outcome fd).2,
        outstanding opened (handler.entries (.used .closeData fd ret))⟩ := by
  have plain : handler.ioctlCheck = false := sound.branch false (by rw [pc]; rfl)
  have keeps : handler.Keeps process outcome := by rw [Handler.Keeps, pc]; trivial
  have pc' : handler.afterIteration.pc = .recv ∨
      handler.afterIteration.pc = .openFile .response := by
    by_cases found : newline ∈ handler.received <;>
      simp [Handler.afterIteration, Handler.goto, found, plain]
  rcases pc' with pc' | pc'
  · exact sound.closes pc (by simp) rfl keeps (.inl pc') rfl (by rw [pc, pc']; rfl)
  · exact sound.closes pc (by simp) rfl keeps (.inr (.inl pc')) rfl (by rw [pc, pc']; rfl)

theorem Accounted.Sound.sends (sound : Sound ⟨handler, process, opened⟩)
    (pc : handler.pc = .send) (works : outcome.fails = false) {ret : Int} {sent : List Byte} :
    Follows outcome ⟨handler, process, opened⟩ (handler.entries (.sentBytes ret))
      ⟨{ handler with
          pc := if handler.sendBuffer = [] then .closeSocket else .lock .respond
          sent := sent }, process,
        outstanding opened (handler.entries (.sentBytes ret))⟩ := by
  have entries : handler.entries (.sentBytes ret) = [] := if_neg (by rw [pc]; simp)
  have keeps : handler.Keeps process outcome := by rw [Handler.Keeps, pc]; exact works
  by_cases empty : handler.sendBuffer = []
  · exact sound.quiet pc (if_pos empty) entries keeps ⟨rfl, rfl⟩ rfl rfl rfl rfl (.inl rfl)
      (.inr (sound.file pc rfl)) (Pc.branch_outside rfl)
  · exact sound.quiet pc (if_neg empty) entries keeps ⟨rfl, rfl⟩ rfl rfl rfl rfl (.inl rfl)
      (.inr (sound.file pc rfl)) (Pc.branch_outside rfl)

theorem Accounted.Sound.step (sound : Sound ⟨handler, process, opened⟩)
    (step : HandlerStep () outcome handler process answer handler' process') :
    Follows outcome ⟨handler, process, opened⟩ (handler.entries answer)
      ⟨handler', process', outstanding opened (handler.entries answer)⟩ := by
  cases step with
  | recvFails pc fails =>
      exact sound.givesUp (if_neg (by rw [pc]; simp)) (by simp [Handler.Keeps, pc, fails])
        rfl (by rw [pc]; rfl)
  | recv pc works => exact sound.receives pc works
  | openFile site fd process' pc call => exact sound.opensFile pc call
  | assign site fd pc =>
      exact sound.quiet pc rfl (Handler.entries_silent (by rw [pc]; simp))
        (by rw [Handler.Keeps, pc]; trivial) ⟨rfl, rfl⟩ rfl rfl rfl rfl (.inl rfl) (.inl rfl)
        (sound.still pc (by cases site <;> rfl))
  | check site pc => exact sound.checks pc
  | lock loop pc free => exact sound.locks pc
  | load use pc => exact sound.loads pc
  | ioctl fd pc =>
      have frame := process.sysIoctl_frame outcome fd handler.aesdSeektoData
      exact sound.seeks pc frame.2.2 (frame.2.1.trans (sound.loaded .ioctl fd pc))
  | writeFails fd process' pc call =>
      exact sound.givesUp (if_neg (by rw [pc]; simp)) (by simp [Handler.Keeps, pc, call])
        (Process.sysWrite_frame call).2.2 (by rw [pc]; rfl)
  | write fd ret process' pc call works => exact sound.writes pc call works
  | closeData fd pc => exact sound.closesData pc
  | readFails fd bytes process' pc call =>
      exact sound.givesUp (if_neg (by rw [pc]; simp)) (by simp [Handler.Keeps, pc, call])
        (Process.sysRead_frame call).2.2 (by rw [pc]; rfl)
  | read fd ret bytes process' pc call works => exact sound.reads pc call works
  | unlock loop pc => exact sound.unlocks pc
  | sendFails pc fails =>
      exact sound.givesUp (if_neg (by rw [pc]; simp)) (by simp [Handler.Keeps, pc, fails])
        rfl (by rw [pc]; rfl)
  | send pc works => exact sound.sends pc works
  | closeSocket pc => exact sound.closeSocket pc
  | complete pc =>
      exact sound.quiet pc rfl (Handler.entries_silent (by rw [pc]; simp))
        (by rw [Handler.Keeps, pc]; trivial) ⟨rfl, rfl⟩ rfl rfl rfl rfl (.inl rfl)
        (.inr (sound.file pc rfl)) (Pc.branch_outside rfl)
  | closeFinal fd pc =>
      exact sound.closes pc (by simp) rfl (by rw [Handler.Keeps, pc]; trivial) (.inr (.inr rfl))
        rfl (by rw [pc]; rfl)

end

/-! ## Whole connections -/

namespace Accounted

variable {source target : Accounted} {outcome : Outcome} {entries : List (Entry Int)}

theorem accountedStep_cases (step : accountedStep source outcome = some (entries, target)) :
    ∃ answer, HandlerStep () outcome source.handler source.process answer target.handler
        target.process ∧ entries = source.handler.entries answer ∧
      target.opened = outstanding source.opened entries := by
  simp only [accountedStep, Option.map_eq_some_iff, Prod.exists, Prod.mk.injEq] at step
  rcases step with ⟨answer, handler, process, step, rfl, rfl⟩
  exact ⟨answer, handlerStep_cases step, rfl, rfl⟩

theorem Sound.follows (sound : source.Sound)
    (step : accountedStep source outcome = some (entries, target)) :
    Follows outcome source entries target := by
  rcases source with ⟨handler, process, opened⟩
  rcases target with ⟨handler', process', opened'⟩
  rcases accountedStep_cases step with ⟨answer, taken, rfl, same⟩
  dsimp only at taken same
  subst same
  exact sound.step taken

variable {outcomes : List Outcome} {outputs : List (List (Entry Int))}

theorem Sound.start {clientSocketFd : Nat} {process : Process Unit} (incoming : List Chunk)
    (socket : process.descriptors clientSocketFd ≠ none) :
    (start clientSocketFd incoming process).Sound := by
  constructor
  · rintro _ (⟨_, rfl⟩ | ⟨found, _⟩)
    · exact List.mem_singleton_self _
    · contradiction
  · exact List.nodup_singleton _
  · intro fd member
    rw [List.mem_singleton.mp member]
    exact ⟨Int.natCast_nonneg _, socket⟩
  · rintro _ ⟨⟩
  · rintro _ _ ⟨⟩
  · rintro ⟨⟩
  · rintro _ ⟨⟩
  · rintro _ ⟨⟩

theorem Tidy.start (clientSocketFd : Nat) (incoming : List Chunk) (process : Process Unit) :
    (start clientSocketFd incoming process).Tidy := by
  constructor
  · intro fd member
    exact .inl ⟨rfl, List.mem_singleton.mp member⟩
  · rintro ⟨⟩
  · rintro _ ⟨⟩

/-- What a handler that runs alone opens and closes. -/
theorem Sound.of_run (sound : source.Sound)
    (execution : run accountedStep source outcomes = some (outputs, target)) :
    Proper source.opened outputs.flatten ∧
      target.opened = outstanding source.opened outputs.flatten ∧ target.Sound := by
  apply run_induction (motive := fun _ outputs state => Proper source.opened outputs.flatten ∧
    state.opened = outstanding source.opened outputs.flatten ∧ state.Sound) _ _ execution
  · exact ⟨trivial, rfl, sound⟩
  · rintro _ outputs middle outcome entries target _ ⟨proper, opened, sound⟩ step
    have next := sound.follows step
    rw [List.flatten_append, List.flatten_singleton, proper_append, outstanding_append, ← opened]
    exact ⟨⟨proper, next.proper⟩, next.opened, next.sound⟩

/-- A handler that has returned has nothing left to close exactly if it has closed
everything. -/
theorem Sound.tidy_iff_of_returned (sound : source.Sound) {ok : Bool}
    (returned : source.handler.pc = .returned ok) : source.Tidy ↔ source.opened = [] := by
  cases ok with
  | false =>
      have socket : (source.handler.clientSocketFd : Int) ∈ source.opened :=
        sound.owned _ (.inl ⟨by rw [returned]; rfl, rfl⟩)
      apply iff_of_false (fun tidy => tidy.working returned)
      intro empty
      rw [empty] at socket
      contradiction
  | true =>
      constructor
      · intro tidy
        apply List.eq_nil_iff_forall_not_mem.mpr
        intro fd member
        rcases tidy.complete fd member with ⟨owned, _⟩ | ⟨found, _⟩
        · rw [returned] at owned
          contradiction
        · rw [returned] at found
          contradiction
      · intro empty
        constructor
        · rw [empty]
          simp
        · rw [returned]
          simp
        · rw [returned]
          rintro _ ⟨⟩

/-- The condition for a whole connection. -/
def KeepsAll (source : Accounted) (outcomes : List Outcome) : Prop :=
  Along accountedStep (fun accounted outcome =>
    accounted.handler.Keeps accounted.process outcome) source outcomes

instance (source : Accounted) (outcomes : List Outcome) : Decidable (source.KeepsAll outcomes) :=
  inferInstanceAs (Decidable (Along ..))

/-- A handler that has returned has closed its socket and everything it has opened
exactly once exactly if all its steps met the condition. -/
theorem closedOnce_iff_keepsAll {clientSocketFd : Nat} {incoming : List Chunk}
    {process : Process Unit} (socket : process.descriptors clientSocketFd ≠ none)
    (execution : run accountedStep (start clientSocketFd incoming process) outcomes =
      some (outputs, target)) {ok : Bool} (returned : target.handler.pc = .returned ok) :
    closings (clientSocketFd : Int) outputs.flatten = 1 ∧ ClosedOnce outputs.flatten ↔
      (start clientSocketFd incoming process).KeepsAll outcomes := by
  have sound := Sound.start incoming socket
  rcases sound.of_run execution with ⟨proper, opened, sound'⟩
  have closed := proper.closedOnce_iff (List.nodup_singleton _)
  rw [← opened, ← sound'.tidy_iff_of_returned returned] at closed
  have tidy : target.Tidy ↔ (start clientSocketFd incoming process).KeepsAll outcomes :=
    iff_along_of_step
      (fun _ _ _ _ sound step => ⟨(sound.follows step).sound, (sound.follows step).tidy_iff⟩)
      sound (Tidy.start clientSocketFd incoming process) execution
  rw [← tidy, ← closed]
  simp [start]

theorem closedOnce_iff_keepsAll_served :
    ∃ result ∈ run accountedStep (start 0 [⟨[104, 105, 10], by decide⟩] (Process.fresh Unit 1))
        (List.replicate 27 (.success 5)),
      closings ((0 : Nat) : Int) result.1.flatten = 1 ∧ ClosedOnce result.1.flatten := by
  have served : ∃ result ∈ run accountedStep
      (start 0 [⟨[104, 105, 10], by decide⟩] (Process.fresh Unit 1))
        (List.replicate 27 (.success 5)), result.2.handler.pc = .returned true := by
    decide +kernel
  rcases served with ⟨⟨outputs, target⟩, execution, returned⟩
  exact ⟨(outputs, target), execution,
    (closedOnce_iff_keepsAll (by decide) execution returned).mpr (by decide +kernel)⟩

end Accounted

end Aesd.Server
