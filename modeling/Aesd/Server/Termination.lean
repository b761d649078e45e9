import Aesd.Driver.Reassembly
import Aesd.Server.Progress
import Aesd.Server.ReceiveLoop
import Aesd.Transition.Simulation
import Mathlib.Algebra.BigOperators.Group.Finset.Basic
import Mathlib.Algebra.Order.BigOperators.Group.Finset
import Mathlib.Algebra.Order.Ring.Int
import Mathlib.Data.Fintype.Basic

/-!
# Handlers that come to an end

Handlers share the device, its positions and the global, so one can make another read
again from the start.  Still each interleaving is finite when each client sends a
newline: opens, writes and seeks are bounded by the chunks, and between two of them the
reads can only use up what is stored.
-/

namespace Aesd.Driver

open Aesd.Word

/-! ## What the device holds, and what has not been read -/

namespace System

/-- The bytes in the slots of the circular buffer and in the write buffer. -/
def occupied (system : System) : Nat :=
  (system.device.buffer.entries.map AesdBufferEntry.size).sum + system.device.writeBufferSize

/-- How much files can still deliver of a content of the given size. -/
def unread (bound : Nat) (files : Finset FileId) (system : System) : Nat :=
  ∑ file ∈ files, (bound - toSize (system.fPos file))

theorem unread_le (bound : Nat) (files : Finset FileId) (system : System) :
    system.unread bound files ≤ bound * files.card := by
  rw [Nat.mul_comm]
  exact Finset.sum_le_card_nsmul files _ bound fun file _ => Nat.sub_le ..

variable {system system' : System} {file : FileId}

/-- A file that is moved can deliver the whole content again. -/
theorem unread_insert_le (bound : Nat) (files : Finset FileId)
    (others : ∀ other, other ≠ file → system'.fPos other = system.fPos other) :
    system'.unread bound (insert file files) ≤ system.unread bound files + bound := by
  have same : ∑ other ∈ files.erase file, (bound - toSize (system'.fPos other)) =
      ∑ other ∈ files.erase file, (bound - toSize (system.fPos other)) := by
    apply Finset.sum_congr rfl
    intro other member
    rw [others other (Finset.ne_of_mem_erase member)]
  have fewer : ∑ other ∈ files.erase file, (bound - toSize (system.fPos other)) ≤
      system.unread bound files :=
    Finset.sum_le_sum_of_subset (Finset.erase_subset file files)
  have whole : system'.unread bound (insert file files) =
      (bound - toSize (system'.fPos file)) +
        ∑ other ∈ files.erase file, (bound - toSize (system'.fPos other)) := by
    rw [unread, ← Finset.insert_erase (Finset.mem_insert_self file files),
      Finset.erase_insert_eq_erase, Finset.sum_insert (Finset.notMem_erase file files)]
  omega

/-- Delivered bytes are not delivered again. -/
theorem unread_advanced_lt {bound amount : Nat} {files : Finset FileId} (member : file ∈ files)
    (positive : 0 < amount)
    (inside : toSize (system.fPos file) + amount ≤ bound)
    (fits : toSize (system.fPos file) + amount < 2 ^ 64) :
    (system.advanced file amount).unread bound files < system.unread bound files := by
  have there : toSize ((system.advanced file amount).fPos file) =
      toSize (system.fPos file) + amount := by
    rw [advanced_fPos]
    exact toSize_add fits
  apply Finset.sum_lt_sum
  · intro other _
    by_cases same : other = file
    · subst same
      omega
    · have still : (system.advanced file amount).fPos other = system.fPos other :=
        Function.update_of_ne same ..
      rw [still]
  · exact ⟨file, member, by omega⟩

end System

theorem length_lastContent_concat_le (committed : List (List Byte)) (line : List Byte) :
    (lastContent (committed ++ [line])).length ≤ (lastContent committed).length + line.length := by
  have stored : lastLines (committed ++ [line]) = committed.rtake 9 ++ [line] :=
    List.rtake_concat_succ ..
  have fewer : List.Sublist (committed.rtake 9) (lastLines committed) :=
    List.drop_sublist_drop_left committed (Nat.sub_le_sub_left (by decide) committed.length)
  have content : lastContent (committed ++ [line]) = (committed.rtake 9).flatten ++ line := by
    rw [lastContent, stored, List.flatten_append, List.flatten_singleton]
  rw [content, List.length_append]
  exact Nat.add_le_add_right fewer.flatten.length_le _

section

variable {system system' : System} {committed : List (List Byte)} {pending : List Byte}

theorem Carries.occupied_eq (carries : Carries system committed pending) :
    system.occupied = (lastContent committed).length + pending.length := by
  rw [System.occupied, carries.sizes_eq, sum_map_length, carries.writeBufferSize_eq]

theorem Carries.occupied_lt (carries : Carries system committed pending) :
    system.occupied < 2 ^ 64 := by
  have content := carries.length_content_lt
  have limit := carries.limit_lt
  have line := carries.length_pending_le
  rw [carries.occupied_eq]
  omega

/-- A write adds at most its data. -/
theorem WriteResult.occupied_le {call : WriteCall} {ret : Int}
    (result : WriteResult system committed pending call ret system')
    (carries : Carries system committed pending) :
    system'.occupied ≤ system.occupied + call.data.length := by
  rw [carries.occupied_eq]
  cases result with
  | consumes file pending' granted filp advanced limit kept length same carries' =>
      have part : (consumed call.data).length ≤ call.data.length := length_firstLine_le _
      rw [carries'.occupied_eq]
      unfold appendData
      split
      · have added := length_lastContent_concat_le committed (pending' ++ consumed call.data)
        rw [List.length_append] at added
        simp only [List.length_nil]
        omega
      · simp only [List.length_append]
        omega
  | fails notGranted notRefused negative unmoved limit kept carries' =>
      rw [carries'.occupied_eq]
      exact Nat.le_add_right ..
  | loses refused unmoved limit device carries' =>
      rw [carries'.occupied_eq]
      exact Nat.le_add_right ..

end

end Aesd.Driver

namespace Aesd.Server

open Aesd.Driver Aesd.Transition

/-! ## The data of a handler -/

section

variable {τ : Type} {self : τ} {outcome : Outcome} {handler handler' : Handler}
  {process process' : Process τ} {answer : Answer}

/-- How much the handler can still write. -/
def Handler.unwritten (handler : Handler) : Nat :=
  (if handler.pc.stage = .writing then handler.received.length else 0) +
    (streamOf handler.incoming).length

theorem Handler.unwritten_goto_le {handler : Handler} {pc : Pc}
    (stage : pc.stage = .writing → handler.pc.stage = .writing) :
    (handler.goto pc).unwritten ≤ handler.unwritten := by
  apply Nat.add_le_add_right
  show (if pc.stage = .writing then handler.received.length else 0) ≤ _
  split
  · rename_i writing
    rw [if_pos (stage writing)]
  · exact Nat.zero_le _

theorem Handler.unwritten_receive_le (handler : Handler) (outcome : Outcome) :
    (handler.receive outcome).unwritten ≤ handler.unwritten := by
  have part : (handler.receive outcome).received.length ≤
      ((handler.incoming.head?.map Subtype.val).getD []).length := List.length_take_le ..
  have stream : ((handler.incoming.head?.map Subtype.val).getD []).length +
      (streamOf handler.incoming.tail).length = (streamOf handler.incoming).length := by
    cases handler.incoming with
    | nil => rfl
    | cons chunk chunks => simp
  have rest : (handler.receive outcome).incoming = handler.incoming.tail := rfl
  unfold Handler.unwritten
  rw [rest]
  split <;> omega

theorem stage_afterIteration_ne (handler : Handler) :
    handler.afterIteration.pc.stage ≠ .writing := by
  rcases pc_afterIteration handler with pc | pc | pc <;> rw [pc] <;> exact Stage.noConfusion

theorem Process.sysWrite_occupied_le {data : List Byte} {fd ret : Int} (intact : process.Intact)
    (call : process.sysWrite outcome fd data = some (ret, process')) :
    process'.system.occupied ≤ process.system.occupied + data.length := by
  rcases Process.sysWrite_cases call with
    ⟨_, rfl⟩ | ⟨_, _, result, system', written, _, rfl⟩
  · exact Nat.le_add_right ..
  · rcases intact with ⟨committed, pending, carries⟩
    rcases carries.write ⟨outcome.write, some fd.toNat, some data⟩ with
      ⟨result', system'', run, effect⟩
    cases Option.some.inj (written.symm.trans run)
    exact effect.occupied_le carries

/-- What a handler writes to the device it no longer has to write. -/
theorem HandlerStep.occupied_le (intact : process.Intact)
    (step : HandlerStep self outcome handler process answer handler' process') :
    process'.system.occupied + handler'.unwritten ≤
      process.system.occupied + handler.unwritten := by
  have quiet (same : process'.system.device = process.system.device)
      (less : handler'.unwritten ≤ handler.unwritten) :
      process'.system.occupied + handler'.unwritten ≤
        process.system.occupied + handler.unwritten := by
    simp only [System.occupied, same]
    omega
  have next {pc : Pc} (pc' : Pc) (here : handler.pc = pc)
      (stage : pc'.stage = .writing → pc.stage = .writing) :
      (handler.goto pc').unwritten ≤ handler.unwritten :=
    Handler.unwritten_goto_le fun writing => here ▸ stage writing
  have iterates : handler.afterIteration.unwritten ≤ handler.unwritten :=
    Handler.unwritten_goto_le fun writing => absurd writing (stage_afterIteration_ne handler)
  have writes {pc : Pc} {fd ret : Int} (here : handler.pc = .call .write fd)
      (stage : pc.stage ≠ .writing)
      (call : process.sysWrite outcome fd handler.received = some (ret, process')) :
      process'.system.occupied + (handler.goto pc).unwritten ≤
        process.system.occupied + handler.unwritten := by
    have added := Process.sysWrite_occupied_le intact call
    have before : handler.unwritten =
        handler.received.length + (streamOf handler.incoming).length := by
      rw [Handler.unwritten, here]
      rfl
    have after : (handler.goto pc).unwritten = (streamOf handler.incoming).length := by
      simp [Handler.unwritten, Handler.goto, stage]
    omega
  have reads {fd ret : Int} {bytes : List Byte}
      (call : process.sysRead outcome fd bufLen = some (ret, bytes, process')) :
      process'.system.device = process.system.device := by
    rcases intact with ⟨_, _, carries⟩
    rcases Process.sysRead_moves carries call with ⟨fPos, rfl⟩
    rfl
  cases step with
  | recvFails pc => exact quiet rfl (next _ pc (by simp [Pc.stage]))
  | recv pc => exact quiet rfl (handler.unwritten_receive_le outcome)
  | openFile site fd _ pc call =>
      apply quiet
      · rcases Process.sysOpen_cases call with ⟨_, _, rfl⟩ | ⟨_, _, _, rfl⟩ <;> rfl
      · exact next _ pc (by cases site <;> simp [Pc.stage])
  | assign site fd pc => exact quiet rfl (next _ pc (by cases site <;> simp [Pc.stage]))
  | check site pc =>
      apply quiet rfl (next _ pc _)
      rcases stage_afterCheck site process.dataFileDescriptor with stage | failed
      · exact fun writing => stage ▸ writing
      · simp [failed, Pc.stage]
  | lock loop pc => exact quiet rfl (next _ pc (by cases loop <;> simp [Pc.stage, Loop.use]))
  | load use pc => exact quiet rfl (next _ pc (by cases use <;> simp [Pc.stage]))
  | ioctl fd pc =>
      rcases process.sysIoctl_moves outcome fd handler.aesdSeektoData with ⟨fPos, same⟩
      exact quiet (by rw [same]) iterates
  | writeFails fd _ pc call => exact writes pc Stage.noConfusion call
  | write fd ret _ pc call => exact writes pc Stage.noConfusion call
  | closeData fd pc => exact quiet (by rw [(Process.sysClose_frame ..).2.2]) iterates
  | readFails fd bytes _ pc call => exact quiet (reads call) (next _ pc (by simp [Pc.stage]))
  | read fd ret bytes _ pc call =>
      exact quiet (reads call) (next (.unlock .respond) pc (by simp [Pc.stage]))
  | unlock loop pc =>
      exact quiet rfl (next _ pc (by cases loop <;> simp [Pc.stage, Loop.afterUnlock]))
  | sendFails pc => exact quiet rfl (next _ pc (by simp [Pc.stage]))
  | send pc =>
      apply quiet rfl
      apply next (if handler.sendBuffer = [] then .closeSocket else .lock .respond) pc
      split <;> simp [Pc.stage]
  | closeSocket pc => exact quiet rfl (next _ pc (by simp [Pc.stage]))
  | complete pc => exact quiet rfl (next (.load .closeFinal) pc (by simp [Pc.stage]))
  | closeFinal fd pc =>
      exact quiet (by rw [(Process.sysClose_frame ..).2.2]) (next _ pc (by simp [Pc.stage]))

end

/-! ## The steps of a handler -/

/-- A bound on the steps to the return, where `credit` pays for a move of a position,
`iterations` for the receive loop, and `ended` tells that nothing was read. -/
def Pc.toDo (credit iterations : Nat) (ended : Bool) : Pc → Nat
  | .recv => iterations
  | .openFile .data => iterations + 2 * credit + 9
  | .assign .data _ => iterations + credit + 8
  | .check .data => iterations + credit + 7
  | .lock .receive => iterations + credit + 6
  | .load .write => iterations + credit + 5
  | .call .write _ => iterations + credit + 4
  | .unlock .receive => iterations + 3
  | .load .closeData => iterations + 2
  | .call .closeData _ => iterations + 1
  | .openFile .seek => iterations + 2 * credit + 5
  | .assign .seek _ => iterations + credit + 4
  | .check .seek => iterations + credit + 3
  | .load .ioctl => iterations + credit + 2
  | .call .ioctl _ => iterations + credit + 1
  | .openFile .response => credit + 13
  | .assign .response _ => 12
  | .check .response => 11
  | .lock .respond => 10
  | .load .read => 9
  | .call .read _ => 8
  | .unlock .respond => if ended then 6 else 12
  | .send => if ended then 5 else 11
  | .closeSocket => 4
  | .complete => 3
  | .load .closeFinal => 2
  | .call .closeFinal _ => 1
  | .returned _ => 0

/-- The receive loop over some chunks, and the response. -/
def iterationSteps (credit chunks : Nat) : Nat :=
  14 + credit + chunks * (10 + 2 * credit)

def Handler.toDo (credit : Nat) (handler : Handler) : Nat :=
  handler.pc.toDo credit (iterationSteps credit handler.incoming.length)
    (decide (handler.sendBuffer = []))

/-- The numbers of all open data files are among some numbers. -/
def Process.Covers {τ : Type} (files : Finset FileId) (process : Process τ) : Prop :=
  ∀ number access, process.descriptors number = some (.dataFile access) → number ∈ files

section

variable {τ : Type} {self : τ} {outcome : Outcome} {handler handler' : Handler}
  {process process' : Process τ} {answer : Answer} {files : Finset FileId} {credit : Nat}

theorem Process.Covers.congr (covers : process.Covers files)
    (same : process'.descriptors = process.descriptors) : process'.Covers files := by
  intro number access
  rw [same]
  exact covers number access

theorem Process.Covers.mono {more : Finset FileId} (covers : process.Covers files)
    (subset : files ⊆ more) : process.Covers more :=
  fun number access present => subset (covers number access present)

theorem Process.Covers.released {number : Nat} (covers : process.Covers files)
    (released : process'.descriptors = Function.update process.descriptors number none) :
    process'.Covers files := by
  intro other access
  rw [released]
  by_cases same : other = number
  · subst same
    simp
  · rw [Function.update_of_ne same]
    exact covers other access

theorem Process.Covers.sysClose {fd : Int} (covers : process.Covers files) :
    (process.sysClose outcome fd).2.Covers files := by
  rcases Process.sysClose_cases outcome fd process with same | ⟨_, same⟩
  · rwa [same]
  · rw [same]
    exact covers.released rfl

theorem Process.Covers.mem {fd : Int} (covers : process.Covers files)
    (opened : process.dataFile fd ≠ none) : fd.toNat ∈ files := by
  rcases ((process.dataFile_ne_none_iff fd).mp opened).2 with ⟨access, present⟩
  exact covers fd.toNat access present

theorem Process.Covers.sysOpen {access : Access} {fd : Int} (covers : process.Covers files)
    (call : process.sysOpen outcome access = some (fd, process')) :
    process'.Covers (insert outcome.descriptor files) := by
  rcases Process.sysOpen_cases call with ⟨_, _, rfl⟩ | ⟨_, _, _, rfl⟩
  · exact covers.mono (Finset.subset_insert ..)
  · intro number access'
    by_cases same : number = outcome.descriptor
    · intro _
      exact same ▸ Finset.mem_insert_self ..
    · simp only [Function.update_of_ne same]
      exact fun present => Finset.mem_insert_of_mem (covers number access' present)

/-! ## What a step pays -/

/-- A step brings the return of its handler nearer; the credit pays for a move of a
position, and what was unread for a read that delivers bytes. -/
inductive Pays (credit : Nat) (files : Finset FileId) (handler : Handler) (process : Process τ)
    (handler' : Handler) (process' : Process τ) : Prop
  | quiet (fewer : handler'.toDo credit < handler.toDo credit)
      (still : process'.system.fPos = process.system.fPos) (covers : process'.Covers files)
  | moves (file : FileId) (fewer : handler'.toDo credit + credit < handler.toDo credit)
      (others : ∀ other, other ≠ file → process'.system.fPos other = process.system.fPos other)
      (covers : process'.Covers (insert file files))
  | delivers (file : FileId) (amount : Nat) (more : handler'.toDo credit < handler.toDo credit + 5)
      (positive : 0 < amount) (member : file ∈ files)
      (inside : toSize (process.system.fPos file) + amount ≤ process.system.occupied)
      (advanced : process'.system = process.system.advanced file amount)
      (covers : process'.Covers files)

theorem iterationSteps_succ (credit chunks : Nat) :
    iterationSteps credit (chunks + 1) = iterationSteps credit chunks + 10 + 2 * credit := by
  unfold iterationSteps
  rw [Nat.add_mul]
  omega

theorem Handler.toDo_afterIteration (handler : Handler) (credit : Nat) :
    handler.afterIteration.toDo credit ≤ iterationSteps credit handler.incoming.length := by
  unfold afterIteration toDo goto
  split
  · split
    · simp only [Pc.toDo, iterationSteps]
      omega
    · simp only [Pc.toDo, iterationSteps]
      omega
  · exact Nat.le_refl _

/-- Receiving a chunk pays for its iteration. -/
theorem Handler.toDo_receive {handler : Handler} (pc : handler.pc = .recv)
    (some' : handler.incoming ≠ []) (outcome : Outcome) (credit : Nat) :
    (handler.receive outcome).toDo credit < handler.toDo credit := by
  rcases List.exists_cons_of_ne_nil some' with ⟨chunk, chunks, incoming⟩
  have before : handler.toDo credit =
      iterationSteps credit chunks.length + 10 + 2 * credit := by
    rw [toDo, pc, incoming]
    exact iterationSteps_succ ..
  have rest : (handler.receive outcome).incoming = chunks := by
    simp [receive, incoming]
  rw [before, toDo, rest]
  rcases pc_receive handler outcome with branch | branch
  · rw [branch]
    simp only [Pc.toDo]
    omega
  · rw [branch]
    simp only [Pc.toDo]
    omega

/-- A read delivers nothing and changes nothing, or moves on by what it delivers. -/
theorem Process.sysRead_advances {fd ret : Int} {bytes : List Byte} (intact : process.Intact)
    (call : process.sysRead outcome fd bufLen = some (ret, bytes, process')) :
    bytes = [] ∧ process' = process ∨ process.dataFile fd ≠ none ∧ 0 < bytes.length ∧
      toSize (process.system.fPos fd.toNat) + bytes.length ≤ process.system.occupied ∧
      process'.system = process.system.advanced fd.toNat bytes.length := by
  unfold Process.sysRead at call
  split at call
  · cases call
    exact Or.inl ⟨rfl, rfl⟩
  · rename_i works
    simp only [Option.map_eq_some_iff, Prod.exists, Prod.mk.injEq] at call
    rcases call with ⟨result, bytes', system', delivered, _, rfl, rfl⟩
    rcases intact with ⟨committed, pending, carries⟩
    rcases carries.read_cases outcome.read (some fd.toNat) true bufLen with
      ⟨ret', bytes, system'', run, effect⟩
    cases Option.some.inj (delivered.symm.trans run)
    rcases effect with ⟨_, rfl, rfl⟩ | ⟨file, filp, _, _, rfl, window, _, _⟩
    · exact Or.inl ⟨rfl, rfl⟩
    · cases filp
      by_cases none : bytes' = []
      · left
        rw [none, List.length_nil, System.advanced_zero]
        exact ⟨rfl, rfl⟩
      · right
        have some' : 0 < bytes'.length := List.length_pos_of_ne_nil none
        have least : bytes'.length ≤ (lastContent committed).length -
            toSize (process.system.fPos fd.toNat) := by
          rw [← List.length_drop, window]
          exact List.length_take_le' ..
        refine ⟨fun closed => works (Or.inr closed), some', ?_, rfl⟩
        rw [carries.occupied_eq]
        omega

theorem iterationSteps_pos (credit chunks : Nat) : 14 + credit ≤ iterationSteps credit chunks :=
  Nat.le_add_right ..

/-- A place with less to do, for any number of iterations that are still to come. -/
theorem Handler.toDo_goto_lt {pc pc' : Pc} (cost : Nat) (here : handler.pc = pc)
    (less : ∀ iterations ended, 14 + credit ≤ iterations →
      pc'.toDo credit iterations ended + cost < pc.toDo credit iterations ended) :
    (handler.goto pc').toDo credit + cost < handler.toDo credit := by
  rw [Handler.toDo, Handler.toDo, here]
  exact less _ _ (iterationSteps_pos ..)

/-- The end of an iteration. -/
theorem Handler.toDo_afterIteration_lt {pc : Pc} (cost : Nat) (here : handler.pc = pc)
    (less : ∀ iterations ended, iterations + cost < pc.toDo credit iterations ended) :
    handler.afterIteration.toDo credit + cost < handler.toDo credit := by
  have loop := handler.toDo_afterIteration credit
  have before : handler.toDo credit = pc.toDo credit
      (iterationSteps credit handler.incoming.length) (decide (handler.sendBuffer = [])) := by
    rw [Handler.toDo, here]
  rw [before]
  exact Nat.lt_of_le_of_lt (Nat.add_le_add_right loop cost) (less ..)

/-- A step that moves no position. -/
theorem Pays.goto {pc pc' : Pc} {target : Process τ} (here : handler.pc = pc)
    (still : target.system = process.system) (covers : target.Covers files)
    (less : ∀ iterations ended, 14 + credit ≤ iterations →
      pc'.toDo credit iterations ended < pc.toDo credit iterations ended) :
    Pays credit files handler process (handler.goto pc') target :=
  .quiet (Handler.toDo_goto_lt 0 here less) (by rw [still]) covers

theorem Pays.openFile {site : OpenSite} {fd : Int} (covers : process.Covers files)
    (pc : handler.pc = .openFile site)
    (call : process.sysOpen outcome site.access = some (fd, process')) :
    Pays credit files handler process (handler.goto (.assign site fd)) process' := by
  apply Pays.moves outcome.descriptor _ _ (covers.sysOpen call)
  · apply Handler.toDo_goto_lt credit pc
    intro iterations ended enough
    cases site <;> simp only [Pc.toDo] <;> omega
  · intro other different
    rcases Process.sysOpen_cases call with ⟨_, _, rfl⟩ | ⟨_, _, _, rfl⟩
    · rfl
    · exact Function.update_of_ne different ..

theorem Pays.ioctl {fd : Int} (covers : process.Covers files)
    (pc : handler.pc = .call .ioctl fd) :
    Pays credit files handler process handler.afterIteration
      (process.sysIoctl outcome fd handler.aesdSeektoData).2 := by
  apply Pays.moves fd.toNat
  · exact Handler.toDo_afterIteration_lt credit pc fun _ _ => Nat.lt_succ_self _
  · intro other different
    rcases process.sysIoctl_cases outcome fd handler.aesdSeektoData with same | ⟨_, _, same⟩
    · rw [same]
    · rw [same]
      exact aesdIoctl_fPos _ _ _ different
  · exact (covers.congr (Process.sysIoctl_frame ..).2.2).mono (Finset.subset_insert ..)

theorem Pays.write {pc' : Pc} {fd ret : Int} (covers : process.Covers files)
    (here : handler.pc = .call .write fd)
    (call : process.sysWrite outcome fd handler.received = some (ret, process'))
    (less : ∀ iterations ended, pc'.toDo credit iterations ended ≤ iterations + 3) :
    Pays credit files handler process (handler.goto pc') process' := by
  apply Pays.moves fd.toNat
  · apply Handler.toDo_goto_lt credit here
    intro iterations ended enough
    have most := less iterations ended
    simp only [Pc.toDo.eq_7]
    omega
  · intro other different
    rcases Process.sysWrite_cases call with
      ⟨_, rfl⟩ | ⟨_, _, result, system', written, _, rfl⟩
    · rfl
    · exact aesdWrite_fPos written different
  · exact (covers.congr (Process.sysWrite_frame call).2.2).mono (Finset.subset_insert ..)

theorem Pays.read {pc' : Pc} {fd ret : Int} {bytes : List Byte} (intact : process.Intact)
    (covers : process.Covers files) (buffer : List Byte)
    (call : process.sysRead outcome fd bufLen = some (ret, bytes, process'))
    (none : bytes = [] → ({ handler with pc := pc', sendBuffer := buffer }).toDo credit <
      handler.toDo credit)
    (more : ({ handler with pc := pc', sendBuffer := buffer }).toDo credit <
      handler.toDo credit + 5) :
    Pays credit files handler process { handler with pc := pc', sendBuffer := buffer }
      process' := by
  rcases Process.sysRead_advances intact call with
    ⟨nothing, same⟩ | ⟨opened, positive, inside, advanced⟩
  · exact .quiet (none nothing) (by rw [same]) (by rwa [same])
  · exact .delivers fd.toNat bytes.length more positive (covers.mem opened) inside advanced
      (covers.congr (Process.sysRead_frame call).2.2)

/-- Each step pays, while a newline is to come. -/
theorem HandlerStep.pays (intact : process.Intact) (ends : handler.Ends)
    (covers : process.Covers files)
    (step : HandlerStep self outcome handler process answer handler' process') :
    Pays credit files handler process handler' process' := by
  cases step with
  | recvFails pc =>
      apply Pays.goto pc rfl covers
      intro iterations ended enough
      simp only [Pc.toDo]
      omega
  | recv pc works =>
      apply Pays.quiet (Handler.toDo_receive pc _ outcome credit) rfl covers
      intro exhausted
      simp [Handler.Ends, pc, Pc.stage, exhausted] at ends
  | openFile site fd _ pc call => exact .openFile covers pc call
  | assign site fd pc =>
      refine .goto pc rfl (covers.congr rfl) ?_
      intro iterations ended enough
      cases site <;> simp only [Pc.toDo] <;> omega
  | check site pc =>
      apply Pays.goto pc rfl covers
      intro iterations ended enough
      rcases site.afterCheck_cases process.dataFileDescriptor with ⟨_, _, next⟩ | ⟨_, next⟩ <;>
        rw [next] <;> cases site <;> simp only [Pc.toDo, OpenSite.next] <;> omega
  | lock loop pc free =>
      refine .goto pc rfl (covers.congr rfl) ?_
      intro iterations ended enough
      cases loop <;> simp only [Pc.toDo, Loop.use] <;> omega
  | load use pc =>
      apply Pays.goto pc rfl covers
      intro iterations ended enough
      cases use <;> simp only [Pc.toDo] <;> omega
  | ioctl fd pc => exact .ioctl covers pc
  | writeFails fd _ pc call => exact .write covers pc call fun _ _ => Nat.zero_le _
  | write fd ret _ pc call => exact .write covers pc call fun _ _ => Nat.le_refl _
  | closeData fd pc =>
      exact .quiet (Handler.toDo_afterIteration_lt 0 pc fun _ _ => Nat.lt_succ_self _)
        (by rw [(Process.sysClose_frame ..).2.2]) covers.sysClose
  | readFails fd bytes _ pc call =>
      have last : (handler.goto (.returned false)).toDo credit < handler.toDo credit :=
        Handler.toDo_goto_lt 0 pc fun _ _ _ => Nat.succ_pos _
      exact .read intact covers handler.sendBuffer call (fun _ => last) (Nat.lt_add_right 5 last)
  | read fd ret bytes _ pc call =>
      have before : handler.toDo credit = 8 := by
        rw [Handler.toDo, pc]
        rfl
      have after : ({ handler with pc := .unlock .respond, sendBuffer := bytes }).toDo credit =
          if decide (bytes = []) then 6 else 12 := rfl
      refine .read intact covers bytes call ?_ ?_
      · rintro rfl
        rw [after, before]
        decide
      · rw [after, before]
        split <;> decide
  | unlock loop pc =>
      refine .goto pc rfl (covers.congr rfl) ?_
      intro iterations ended enough
      cases loop <;> cases ended <;> simp [Pc.toDo, Loop.afterUnlock]
  | sendFails pc =>
      apply Pays.goto pc rfl covers
      intro iterations ended enough
      cases ended <;> simp [Pc.toDo]
  | send pc =>
      apply Pays.quiet _ rfl covers
      rw [Handler.toDo, Handler.toDo, pc]
      by_cases none : handler.sendBuffer = [] <;> simp [none, Pc.toDo]
  | closeSocket pc =>
      exact .goto pc rfl (covers.released rfl) fun _ _ _ => Nat.lt_succ_self _
  | complete pc =>
      have next : (handler.goto (.load .closeFinal)).toDo credit < handler.toDo credit :=
        Handler.toDo_goto_lt 0 pc fun _ _ _ => Nat.lt_succ_self _
      exact .quiet next rfl covers
  | closeFinal fd pc =>
      exact .goto pc (Process.sysClose_frame ..).2.2 covers.sysClose fun _ _ _ => Nat.succ_pos _

end

/-! ## All handlers together -/

section

variable {τ : Type} [Fintype τ]

/-- What each state of a run keeps: whatever may still be written fits the bound, and the
rank bounds the steps of all handlers. -/
structure ServerState.Ranked (bound rank : Nat) (server : ServerState τ) : Prop where
  intact : server.process.Intact
  ends : ∀ thread, (server.handlers thread).Ends
  room : server.process.system.occupied + ∑ thread, (server.handlers thread).unwritten ≤ bound
  covered : ∃ files, server.process.Covers files ∧
    ∑ thread, (server.handlers thread).toDo (5 * bound) +
      5 * server.process.system.unread bound files ≤ rank

theorem ServerState.ranked_start {process : Process τ} (intact : process.Intact)
    (clientSocketFds : τ → Nat) {clients : τ → List Chunk}
    (lines : ∀ thread, newline ∈ streamOf (clients thread)) {bound : Nat}
    (room : process.system.occupied + ∑ thread, (streamOf (clients thread)).length ≤ bound)
    {opened : Finset FileId} (covers : process.Covers opened) :
    (ServerState.start process clientSocketFds clients).Ranked bound
      (∑ thread, iterationSteps (5 * bound) (clients thread).length +
        5 * (bound * opened.card)) := by
  have unwritten : ∀ thread, ((ServerState.start process clientSocketFds clients).handlers
      thread).unwritten = (streamOf (clients thread)).length := fun _ => Nat.zero_add _
  constructor
  · exact intact
  · intro thread
    exact mem_streamOf_iff.mp (lines thread)
  · simp only [unwritten]
    exact room
  · refine ⟨opened, covers, ?_⟩
    have most := System.unread_le bound opened process.system
    exact Nat.add_le_add_left (Nat.mul_le_mul_left 5 most) _

variable [DecidableEq τ]

theorem ServerState.Ranked.step {bound rank : Nat} {server server' : ServerState τ}
    {event : τ × Outcome} {answer : Answer} (ranked : server.Ranked bound rank)
    (step : serverStep server event = some (answer, server')) :
    ∃ lower, lower < rank ∧ server'.Ranked bound lower := by
  rcases event with ⟨thread, outcome⟩
  rcases serverStep_eq_some_iff.mp step with ⟨handler, process, taken, rfl⟩
  have taken' := handlerStep_cases taken
  rcases ranked.covered with ⟨files, covers, rank_eq⟩
  have room : process.system.occupied +
      ∑ other, (Function.update server.handlers thread handler other).unwritten ≤ bound := by
    have written := taken'.occupied_le ranked.intact
    have total := sum_update_add Handler.unwritten server.handlers thread handler
    have before := ranked.room
    omega
  have ends : ∀ other, (Function.update server.handlers thread handler other).Ends := by
    intro other
    by_cases same : other = thread
    · subst same
      rw [Function.update_self]
      exact taken'.ends (ranked.ends other)
    · rw [Function.update_of_ne same]
      exact ranked.ends other
  have total := sum_update_add (Handler.toDo (5 * bound)) server.handlers thread handler
  suffices lowered : ∃ files', process.Covers files' ∧
      handler.toDo (5 * bound) + 5 * process.system.unread bound files' <
        (server.handlers thread).toDo (5 * bound) +
          5 * server.process.system.unread bound files by
    rcases lowered with ⟨files', covers', less⟩
    refine ⟨∑ other, (Function.update server.handlers thread handler other).toDo (5 * bound) +
      5 * process.system.unread bound files', by omega, taken'.intact ranked.intact, ends, room,
      files', covers', Nat.le_refl _⟩
  have paid : Pays (5 * bound) files (server.handlers thread) server.process handler process :=
    taken'.pays ranked.intact (ranked.ends thread) covers
  cases paid with
  | quiet fewer still covers' =>
      refine ⟨files, covers', ?_⟩
      rw [System.unread, still]
      exact Nat.add_lt_add_right fewer _
  | moves file fewer others covers' =>
      have restored := System.unread_insert_le bound files others
      exact ⟨insert file files, covers', by omega⟩
  | delivers file amount more positive member inside advanced covers' =>
      rcases ranked.intact with ⟨_, _, carries⟩
      have room := ranked.room
      have used := System.unread_advanced_lt member positive
        (Nat.le_trans inside (Nat.le_trans (Nat.le_add_right ..) room))
        (Nat.lt_of_le_of_lt inside carries.occupied_lt)
      rw [advanced]
      exact ⟨files, covers', by omega⟩

/-- When each client sends a newline, a run of the server is bounded for every interleaving
of the handlers: by the chunks of the clients, what the device holds and what the clients
send, and the data files that are open at the start.  So each run can be completed, without
failing calls, to one after which no handler can go on. -/
theorem server_run_is_bounded {process : Process τ} (loaded : process.Loaded)
    {opened : Finset FileId} (covers : process.Covers opened) (clientSocketFds : τ → Nat)
    {clients : τ → List Chunk} (lines : ∀ thread, newline ∈ streamOf (clients thread))
    {events : List (τ × Outcome)} {answers : List Answer} {server : ServerState τ}
    (execution : run serverStep (.start process clientSocketFds clients) events =
      some (answers, server)) :
    let bound := process.system.occupied + ∑ thread, (streamOf (clients thread)).length
    events.length ≤ ∑ thread, (14 + 5 * bound + (clients thread).length * (10 + 10 * bound)) +
      5 * bound * opened.card ∧
    ∃ rest more final, (∀ event ∈ rest, event.2.fails = false) ∧
      run serverStep server rest = some (more, final) ∧ ∀ thread, ¬final.CanStep thread := by
  intro bound
  have start := ServerState.ranked_start loaded.intact clientSocketFds lines
    (Nat.le_refl bound) covers
  have falls : ∀ rank (source : ServerState τ) event answer target, source.Ranked bound rank →
      serverStep source event = some (answer, target) →
      ∃ lower, lower < rank ∧ target.Ranked bound lower :=
    fun _ _ _ _ _ ranked step => ranked.step step
  have limited {events : List (τ × Outcome)} {answers : List Answer} {server : ServerState τ}
      (execution : run serverStep (.start process clientSocketFds clients) events =
        some (answers, server)) :
      events.length ≤ ∑ thread, iterationSteps (5 * bound) (clients thread).length +
        5 * (bound * opened.card) :=
    length_le_of_ranked falls start execution
  constructor
  · have factors : 10 + 10 * bound = 10 + 2 * (5 * bound) := by omega
    rw [factors, Nat.mul_assoc]
    exact limited execution
  · have shorter : ∀ rest more target, run serverStep server rest = some (more, target) →
        rest.length ≤ ∑ thread, iterationSteps (5 * bound) (clients thread).length +
          5 * (bound * opened.card) := by
      intro rest more target continued
      have whole := limited ((run_append_eq_some_iff ..).mpr
        ⟨server, answers, more, execution, continued, rfl⟩)
      rw [List.length_append] at whole
      exact Nat.le_of_add_left_le whole
    rcases exists_run_of_bounded (fun event => event.2.fails = false) shorter with
      ⟨rest, more, final, works, continued, ends⟩
    refine ⟨rest, more, final, works, continued, ?_⟩
    rintro thread ⟨outcome, fails, possible⟩
    rw [ends (thread, outcome) fails] at possible
    contradiction

end

theorem server_run_is_bounded_turns :
    ∃ answers server, run serverStep twoHandlers (iteration false ++ iteration true) =
        some (answers, server) ∧
      ∃ rest more final, (∀ event ∈ rest, event.2.fails = false) ∧
        run serverStep server rest = some (more, final) ∧ ∀ thread, ¬final.CanStep thread := by
  have ran : (run serverStep twoHandlers (iteration false ++ iteration true)).isSome := by
    decide +kernel
  rcases Option.isSome_iff_exists.mp ran with ⟨⟨answers, server⟩, execution⟩
  have loaded : (Process.fresh Bool 6).Loaded := ⟨⟨4096, by decide⟩, [], [], rfl⟩
  have covers : (Process.fresh Bool 6).Covers ∅ := by
    intro number access
    simp only [Process.fresh]
    split <;> simp
  exact ⟨answers, server, execution,
    (server_run_is_bounded loaded covers (fun thread => if thread then 5 else 4)
      (fun thread => (isPacket_twoClients thread).mem) execution).2⟩

end Aesd.Server
