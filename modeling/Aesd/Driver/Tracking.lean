import Aesd.Driver.CallSteps

/-!
# A device that several threads call

A call takes effect when it is granted the mutex, or when it returns without it.  Until it
has released the mutex, the device is on the way to what the whole call, run at once, has
made of it; meanwhile others may have been interrupted, which leaves further copies of data.
Each step of each call keeps this.
-/

namespace Aesd.Driver

open Aesd.Memory Aesd.Transition

/-! ## Calls that are run at once -/

/-- A call that is run at once returns, and moves at most its own file. -/
theorem Carries.delivery {system : System} {committed : List (List Byte)} {pending : List Byte}
    (carries : Carries system committed pending) (operation : Operation) :
    ∃ output target, deliveryStep system operation = some (output, target) ∧
      (∃ committed' pending', Carries target committed' pending') ∧
      target.heap.limit = system.heap.limit ∧
      ∀ file, operation.filp ≠ some file → target.fPos file = system.fPos file := by
  by_cases writes : ∃ call, operation = .write call
  · rcases writes with ⟨call, rfl⟩
    rcases carries.write call with ⟨ret, target, result, effect⟩
    rcases effect.commits carries with ⟨pending', carries'⟩
    refine ⟨(ret, []), target, by simp [deliveryStep, result], ⟨_, pending', carries'⟩, ?_,
      fun file other => effect.fPos_of_ne other⟩
    cases effect with
    | consumes file pending' granted filp advanced limit => exact limit
    | fails notGranted notRefused negative unmoved limit => exact limit
    | loses refused unmoved limit => exact limit
  · have returns : ∃ output target, deliveryStep system operation = some (output, target) := by
      cases operation with
      | openFile file => exact ⟨_, _, rfl⟩
      | write call => exact absurd ⟨call, rfl⟩ writes
      | llseek lock file offset whence => exact ⟨_, _, rfl⟩
      | ioctl outcome file cmd arg => exact ⟨_, _, rfl⟩
      | read outcome filp buf count =>
          rcases carries.read_returns outcome filp buf count with ⟨ret, bytes, fPos, result⟩
          exact ⟨(ret, bytes), _, by rw [deliveryStep, result]; rfl⟩
    rcases returns with ⟨output, target, result⟩
    refine ⟨output, target, result, ?_⟩
    rcases exists_movesOnly_of_not_write result fun call same => writes ⟨call, same⟩ with
      ⟨file, position, filp, moves⟩ | ⟨_, rfl, _⟩
    · rw [moves.target_eq]
      refine ⟨⟨committed, pending, carries.congr_fPos _⟩, rfl, fun other different => ?_⟩
      apply Function.update_of_ne
      rintro rfl
      exact different filp
    · exact ⟨⟨committed, pending, carries⟩, rfl, fun _ _ => rfl⟩

/-! ## The device between the calls -/

/-- What is left to the owner of the mutex leads, on the device `mid`, to `base` and to the
reply it is owed. -/
def Runs (pairs : Nat → Nat → Prop) (device system mid base : System)
    (owed : Option (Int × List Byte)) (operation : Operation) (critical : Critical) : Prop :=
  ∃ file critical' fuel reply, operation.filp = some file ∧
    critical.Paired pairs file critical' ∧ critical'.finish fuel mid = some (reply, base) ∧
    mid.fPos file = device.fPos file ∧ (reply.store base).fPos file = system.fPos file ∧
    owed = some reply.output

/-- A call has been handed the position of its file, or is owed a reply that sets it. -/
def Call.Sound (pairs : Nat → Nat → Prop) (device system mid base : System)
    (owed : Option (Int × List Byte)) (call : Call) : Prop :=
  match call.pc with
  | .inside critical => Runs pairs device system mid base owed call.operation critical
  | .returning reply =>
      owed = some reply.output ∧
        (∀ file pos, reply.back = some (file, pos) → call.operation.filp = some file) ∧
        ∀ file, call.operation.filp = some file →
          (reply.store device).fPos file = system.fPos file
  | pc =>
      owed = none ∧ ∃ pos, Before system.heap.limit call.operation pos pc ∧
        ∀ file, call.operation.filp = some file →
          device.fPos file = system.fPos file ∧ pos = system.fPos file

theorem Reply.store_heap (reply : Reply) (system : System) :
    (reply.store system).heap = system.heap := by
  unfold Reply.store
  split
  · rfl
  · rfl

theorem Reply.store_device (reply : Reply) (system : System) :
    (reply.store system).device = system.device := by
  unfold Reply.store
  split
  · rfl
  · rfl

theorem Reply.store_fPos_congr {reply : Reply} {system system' : System} {file : FileId}
    (same : system'.fPos file = system.fPos file) :
    (reply.store system').fPos file = (reply.store system).fPos file := by
  unfold Reply.store
  split
  · rename_i other pos _
    by_cases here : file = other
    · simp only [here, Function.update_self]
    · simp only [Function.update_of_ne here, same]
  · exact same

/-- A reply moves at most the file it names. -/
theorem Reply.store_fPos_of_ne {reply : Reply} {system : System} {file : FileId}
    (other : ∀ pos, reply.back ≠ some (file, pos)) :
    (reply.store system).fPos file = system.fPos file := by
  unfold Reply.store
  split
  · rename_i there pos named
    apply Function.update_of_ne
    rintro rfl
    exact other pos named
  · rfl

/-- The call has taken effect. -/
def Pc.applied : Pc → Bool
  | .inside _ => true
  | .returning _ => true
  | _ => false

/-- The call is the owner of the mutex. -/
def Pc.holds : Pc → Bool
  | .inside _ => true
  | _ => false

/-- What holds of a call does not depend on other files, and only for the owner of the mutex
on what the device leads to. -/
theorem Call.Sound.congr {pairs pairs' : Nat → Nat → Prop}
    {device device' system system' mid mid' base base' : System}
    {owed : Option (Int × List Byte)} {call : Call}
    (sound : call.Sound pairs device system mid base owed)
    (limit : system'.heap.limit = system.heap.limit)
    (fPos : ∀ file, call.operation.filp = some file →
      device'.fPos file = device.fPos file ∧ system'.fPos file = system.fPos file)
    (same : call.pc.holds = true → pairs' = pairs ∧ mid' = mid ∧ base' = base) :
    call.Sound pairs' device' system' mid' base' owed := by
  rcases call with ⟨operation, pc⟩
  have before (sound : owed = none ∧ ∃ pos, Before system.heap.limit operation pos pc ∧
      ∀ file, operation.filp = some file →
        device.fPos file = system.fPos file ∧ pos = system.fPos file) :
      owed = none ∧ ∃ pos, Before system'.heap.limit operation pos pc ∧
        ∀ file, operation.filp = some file →
          device'.fPos file = system'.fPos file ∧ pos = system'.fPos file := by
    rcases sound with ⟨nothing, pos, before, handed⟩
    refine ⟨nothing, pos, limit ▸ before, fun file filp => ?_⟩
    rw [(fPos file filp).1, (fPos file filp).2]
    exact handed file filp
  cases pc with
  | start pos => exact before sound
  | copying outcome file data pos writeData => exact before sound
  | locking critical => exact before sound
  | inside critical =>
      rcases same rfl with ⟨rfl, rfl, rfl⟩
      rcases sound with ⟨file, critical', fuel, reply, filp, paired, ends, here, there, owes⟩
      refine ⟨file, critical', fuel, reply, filp, paired, ends, ?_, ?_, owes⟩
      · rw [(fPos file filp).1]
        exact here
      · rw [(fPos file filp).2]
        exact there
  | returning reply =>
      rcases sound with ⟨owes, named, there⟩
      refine ⟨owes, named, fun file filp => ?_⟩
      rw [(fPos file filp).2, Reply.store_fPos_congr (fPos file filp).1]
      exact there file filp

section

variable {τ : Type} [DecidableEq τ]

/-- The copies of their data that calls have before they are granted the mutex. -/
def SharedDevice.copies (device : SharedDevice τ) (thread : τ) : Option (Nat × List Byte) :=
  (device.calls thread).bind Call.copy

/-- The device on which the calls go on agrees with `mid`, and with what is left to the owner
of the mutex `mid` leads to `base`; `system`, on which the calls are run at once, is `base`
with the copies of interrupted calls that have come since. -/
structure Tracks (device : SharedDevice τ) (system : System)
    (owed : τ → Option (Int × List Byte)) (pairs : Nat → Nat → Prop)
    (late : Nat → Option (Nat × List Byte)) (mid base : System) : Prop where
  renames : device.system.heap.Renames pairs (Sum.elim device.copies late) mid.heap
  paired : device.system.device.Paired pairs mid.device
  grows : base.heap.Grows late system.heap
  sameDevice : system.device = base.device
  carries : ∃ committed pending, Carries system committed pending
  limit : system.heap.limit = device.system.heap.limit
  sound : ∀ thread call, device.calls thread = some call →
    call.Sound pairs device.system system mid base (owed thread)
  idle : ∀ thread, device.calls thread = none → owed thread = none
  unused : ∀ file, (∀ thread call, device.calls thread = some call →
    call.operation.filp ≠ some file) → device.system.fPos file = system.fPos file
  single : ∀ thread other call call' file, device.calls thread = some call →
    device.calls other = some call' → call.operation.filp = some file →
    call'.operation.filp = some file → thread = other
  locked : ∀ thread, device.lock = some thread ↔
    ∃ call, device.calls thread = some call ∧ call.pc.holds = true
  free : device.lock = none → mid = base

section

variable {device : SharedDevice τ} {system : System} {owed : τ → Option (Int × List Byte)}
  {pairs : Nat → Nat → Prop} {late : Nat → Option (Nat × List Byte)} {mid base : System}
  {thread : τ} {operation : Operation} {pc : Pc}

theorem SharedDevice.copies_update (device : SharedDevice τ) (thread : τ)
    (system' : System) (lock' : Option τ) (next : Option Call) :
    SharedDevice.copies
        ⟨system', lock', Function.update device.calls thread next⟩ =
      Function.update device.copies thread (next.bind Call.copy) := by
  funext other
  by_cases same : other = thread
  · subst same
    simp [SharedDevice.copies]
  · simp [SharedDevice.copies, Function.update_of_ne same]

/-- A call that goes on changes its own file only, and what the device leads to only as the
owner of the mutex or when there is none. -/
theorem Tracks.goOn (tracks : Tracks device system owed pairs late mid base)
    (here : device.calls thread = some ⟨operation, pc⟩) {pc' : Pc} {system₁ : System}
    {lock' : Option τ} {system' : System} {owes : Option (Int × List Byte)}
    {pairs' : Nat → Nat → Prop} {late' : Nat → Option (Nat × List Byte)} {mid' base' : System}
    (renames : system₁.heap.Renames pairs'
      (Sum.elim (Function.update device.copies thread (Call.copy ⟨operation, pc'⟩)) late')
      mid'.heap)
    (paired : system₁.device.Paired pairs' mid'.device)
    (grows : base'.heap.Grows late' system'.heap) (sameDevice : system'.device = base'.device)
    (carries : ∃ committed pending, Carries system' committed pending)
    (limit₁ : system₁.heap.limit = device.system.heap.limit)
    (limit' : system'.heap.limit = system.heap.limit)
    (fPos : ∀ file, operation.filp ≠ some file →
      system₁.fPos file = device.system.fPos file ∧ system'.fPos file = system.fPos file)
    (sound : Call.Sound pairs' system₁ system' mid' base' owes ⟨operation, pc'⟩)
    (others : ∀ other call, other ≠ thread → device.calls other = some call →
      call.pc.holds = true → pairs' = pairs ∧ mid' = mid ∧ base' = base)
    (lock : ∀ other, lock' = some other ↔
      if other = thread then pc'.holds = true else device.lock = some other)
    (free : lock' = none → mid' = base') :
    Tracks { device.goesOn thread operation pc' system₁ with lock := lock' } system'
      (Function.update owed thread owes) pairs' late' mid' base' where
  renames := by
    rw [SharedDevice.goesOn, SharedDevice.copies_update]
    exact renames
  paired := paired
  grows := grows
  sameDevice := sameDevice
  carries := carries
  limit := by
    rw [limit', tracks.limit]
    exact limit₁.symm
  sound := by
    intro other call found
    by_cases same : other = thread
    · subst same
      simp only [SharedDevice.goesOn, Function.update_self, Option.some.injEq] at found
      subst found
      rw [Function.update_self]
      exact sound
    · simp only [SharedDevice.goesOn, Function.update_of_ne same] at found
      rw [Function.update_of_ne same]
      apply (tracks.sound other call found).congr limit'
      · intro file filp
        apply fPos
        intro mine
        exact same (tracks.single other thread _ _ file found here filp mine)
      · exact others other call same found
  idle := by
    intro other none
    by_cases same : other = thread
    · subst same
      simp [SharedDevice.goesOn] at none
    · simp only [SharedDevice.goesOn, Function.update_of_ne same] at none
      rw [Function.update_of_ne same]
      exact tracks.idle other none
  unused := by
    intro file unused
    have mine : operation.filp ≠ some file := by
      apply unused thread ⟨operation, pc'⟩
      simp [SharedDevice.goesOn]
    show system₁.fPos file = system'.fPos file
    rw [(fPos file mine).1, (fPos file mine).2]
    apply tracks.unused
    intro other call found
    by_cases same : other = thread
    · subst same
      rw [here, Option.some.injEq] at found
      subst found
      exact mine
    · apply unused other call
      simpa [SharedDevice.goesOn, Function.update_of_ne same] using found
  single := by
    have before : ∀ other call, Function.update device.calls thread
        (some ⟨operation, pc'⟩) other = some call →
          ∃ call', device.calls other = some call' ∧ call'.operation = call.operation := by
      intro other call found
      rcases mem_update_some.mp found with ⟨rfl, rfl⟩ | ⟨_, found⟩
      · exact ⟨_, here, rfl⟩
      · exact ⟨call, found, rfl⟩
    intro first second call call' file found found' filp filp'
    rcases before first call found with ⟨was, there, same⟩
    rcases before second call' found' with ⟨was', there', same'⟩
    exact tracks.single first second was was' file there there' (same ▸ filp) (same' ▸ filp')
  locked := by
    intro other
    rw [lock other]
    by_cases same : other = thread
    · subst same
      simp [SharedDevice.goesOn]
    · rw [if_neg same, tracks.locked other]
      simp [SharedDevice.goesOn, Function.update_of_ne same]
  free := free

/-- The mutex stays where it is when a call goes on without it. -/
theorem Tracks.lock_iff (tracks : Tracks device system owed pairs late mid base)
    (here : device.calls thread = some ⟨operation, pc⟩) {pc' : Pc} (same : pc'.holds = pc.holds)
    (other : τ) :
    device.lock = some other ↔ if other = thread then pc'.holds = true
      else device.lock = some other := by
  split
  · rename_i mine
    subst mine
    rw [tracks.locked other, here, same]
    simp
  · exact Iff.rfl

/-- A call that goes on without the mutex changes at most its copy of the data, its file,
and the device on which the calls are run at once. -/
theorem Tracks.outside (tracks : Tracks device system owed pairs late mid base)
    (here : device.calls thread = some ⟨operation, pc⟩) (out : pc.holds = false) {pc' : Pc}
    (out' : pc'.holds = false) {system₁ system' : System} {owes : Option (Int × List Byte)}
    {late' : Nat → Option (Nat × List Byte)}
    (sound : Call.Sound pairs system₁ system' mid base owes ⟨operation, pc'⟩)
    (renames : system₁.heap.Renames pairs
      (Sum.elim (Function.update device.copies thread (Call.copy ⟨operation, pc'⟩)) late')
      mid.heap)
    (device₁ : system₁.device = device.system.device)
    (grows : base.heap.Grows late' system'.heap) (device' : system'.device = system.device)
    (carries : ∃ committed pending, Carries system' committed pending)
    (limit₁ : system₁.heap.limit = device.system.heap.limit)
    (limit' : system'.heap.limit = system.heap.limit)
    (fPos : ∀ file, operation.filp ≠ some file →
      system₁.fPos file = device.system.fPos file ∧ system'.fPos file = system.fPos file) :
    Tracks (device.goesOn thread operation pc' system₁) system'
      (Function.update owed thread owes) pairs late' mid base :=
  tracks.goOn here renames (device₁ ▸ tracks.paired) grows (device'.trans tracks.sameDevice)
    carries limit₁ limit' fPos sound (fun _ _ _ _ _ => ⟨rfl, rfl, rfl⟩)
    (tracks.lock_iff here (out'.trans out.symm)) tracks.free

omit [DecidableEq τ] in
theorem SharedDevice.copies_eq (here : device.calls thread = some ⟨operation, pc⟩) :
    device.copies thread = Call.copy ⟨operation, pc⟩ := by
  simp [SharedDevice.copies, here]

omit [DecidableEq τ] in
/-- While nobody has the mutex, the device agrees with the one on which the calls are run at
once. -/
theorem Tracks.agrees (tracks : Tracks device system owed pairs late mid base)
    (free : device.lock = none) :
    ∃ pairs', device.system.heap.Renames pairs' device.copies system.heap ∧
      device.system.device.Paired pairs' system.device := by
  have renames := tracks.renames
  have paired := tracks.paired
  rw [tracks.free free] at renames paired
  refine ⟨_, renames.absorb tracks.grows, ?_⟩
  rw [tracks.sameDevice]
  exact paired.mono fun _ _ both => Or.inl both

end

/-- The device is tracked by one on which the calls are run at once. -/
def Tracked (device : SharedDevice τ) (system : System) (owed : τ → Option (Int × List Byte)) :
    Prop :=
  ∃ pairs late mid base, Tracks device system owed pairs late mid base

/-- The call goes on without an effect, or it takes effect. -/
def Proceeds (system : System) (owed : τ → Option (Int × List Byte)) (thread : τ)
    (operation : Operation) (pc pc' : Pc) (target : SharedDevice τ) : Prop :=
  pc'.applied = pc.applied ∧ Tracked target system owed ∨
    (pc.applied = false ∧ pc'.applied = true) ∧ ∃ result system',
      deliveryStep system operation = some (result, system') ∧
        Tracked target system' (Function.update owed thread (some result))

theorem Before.exists_filp {limit : Nat} {operation : Operation} {pos : Int}
    {critical : Critical} (before : Before limit operation pos (.locking critical)) :
    ∃ file, operation.filp = some file := by
  cases before with
  | read outcome file count pos => exact ⟨file, rfl⟩
  | @write outcome file data pos writeData copies copied => exact ⟨file, rfl⟩
  | llseek lock file offset whence pos => exact ⟨file, rfl⟩
  | @ioctl outcome file arg pos copied => exact ⟨file, rfl⟩

/-! ## What each step does -/

section

variable {device : SharedDevice τ} {system : System} {owed : τ → Option (Int × List Byte)}
  {pairs : Nat → Nat → Prop} {late : Nat → Option (Nat × List Byte)} {mid base : System}
  {thread : τ} {operation : Operation}

/-- Giving a thread what it has changes nothing. -/
theorem update_of_eq {α β : Type} [DecidableEq α] {f : α → β} {a : α} {b : β} (same : f a = b) :
    Function.update f a b = f := by
  rw [← same, Function.update_eq_self]

theorem Call.copy_returning (operation : Operation) (reply : Reply) :
    Call.copy ⟨operation, .returning reply⟩ = none := by
  simp [Call.copy]

theorem Call.copy_inside (operation : Operation) (critical : Critical) :
    Call.copy ⟨operation, .inside critical⟩ = none := by
  simp [Call.copy]

/-- A call begins to wait, requests a copy of its data, or returns at once. -/
theorem Tracks.start (tracks : Tracks device system owed pairs late mid base) {pos : Int}
    (here : device.calls thread = some ⟨operation, .start pos⟩) :
    let next := operation.begin pos device.system
    Proceeds system owed thread operation (.start pos) next.1
      (device.goesOn thread operation next.1 next.2) := by
  rcases tracks.sound thread _ here with ⟨nothing, pos', before, handed⟩
  cases before with
  | start operation pos =>
  have noCopy : device.copies thread = none := SharedDevice.copies_eq here
  rcases begin_cases operation pos tracks.limit with
    ⟨critical, begins, before, noCopy'⟩ |
      ⟨outcome, file, data, writeData, heap, rfl, made, begins, copies⟩ |
      ⟨ret, moves, begins, result, moves_eq⟩
  · rw [begins]
    have sound : Call.Sound pairs device.system system mid base none
        ⟨operation, .locking critical⟩ := ⟨rfl, pos, before, handed⟩
    have renames := tracks.renames
    rw [← update_of_eq (noCopy.trans noCopy'.symm)] at renames
    have next := tracks.outside here rfl rfl sound renames rfl tracks.grows rfl tracks.carries
      rfl rfl (fun _ _ => ⟨rfl, rfl⟩)
    rw [update_of_eq nothing] at next
    exact Or.inl ⟨rfl, pairs, late, mid, base, next⟩
  · rw [begins]
    have apart : Sum.elim device.copies late (.inl thread) = none := noCopy
    have renames := tracks.renames.malloc_apart apart outcome.writeData data.length
    rw [show device.system.heap.malloc outcome.writeData data.length = (writeData, heap) from made,
      Sum.update_elim_inl] at renames
    have limit₁ : heap.limit = device.system.heap.limit := by
      have same := Heap.limit_malloc outcome.writeData device.system.heap data.length
      rwa [show device.system.heap.malloc outcome.writeData data.length = (writeData, heap)
        from made] at same
    have sound : Call.Sound pairs { device.system with heap := heap } system mid base none
        ⟨.write ⟨outcome, some file, some data⟩, .copying outcome file data pos writeData⟩ :=
      ⟨rfl, pos, .copying copies, handed⟩
    have copy : (writeData.ids.head?.map fun id =>
        (id, Heap.resized outcome.writeData [] data.length)) =
        Call.copy ⟨.write ⟨outcome, some file, some data⟩,
          .copying outcome file data pos writeData⟩ := by
      cases writeData with
      | null => rfl
      | empty => rfl
      | block id => rfl
    rw [copy] at renames
    have next := tracks.outside here rfl rfl sound renames rfl tracks.grows rfl tracks.carries
      limit₁ rfl (fun _ _ => ⟨rfl, rfl⟩)
    rw [update_of_eq nothing] at next
    exact Or.inl ⟨rfl, pairs, late, mid, base, next⟩
  · rw [begins]
    right
    refine ⟨⟨rfl, rfl⟩, (ret, []), _, result, pairs, late, mid, base, ?_⟩
    have moved : ∀ file, (operation.filp ≠ some file →
          moves device.system.fPos file = device.system.fPos file ∧
            moves system.fPos file = system.fPos file) ∧
        (operation.filp = some file →
          moves device.system.fPos file = moves system.fPos file) := by
      intro file
      rcases moves_eq with rfl | ⟨opened, filp, rfl⟩
      · exact ⟨fun _ => ⟨rfl, rfl⟩, fun filp => (handed file filp).1⟩
      · by_cases same : file = opened
        · subst same
          exact ⟨fun other => absurd filp other, fun _ => by simp⟩
        · have other : some opened ≠ some file := fun eq => same (Option.some.inj eq).symm
          rw [filp]
          exact ⟨fun _ => ⟨Function.update_of_ne same .., Function.update_of_ne same ..⟩,
            fun eq => absurd eq other⟩
    have carries' : ∃ committed pending,
        Carries { system with fPos := moves system.fPos } committed pending := by
      rcases tracks.carries with ⟨committed, pending, carries⟩
      exact ⟨committed, pending, carries.congr_fPos _⟩
    have sound : Call.Sound pairs { device.system with fPos := moves device.system.fPos }
        { system with fPos := moves system.fPos } mid base (some (ret, []))
        ⟨operation, .returning (.plain ret)⟩ :=
      ⟨rfl, fun _ _ absurd' => by contradiction, fun file filp => (moved file).2 filp⟩
    have renames := tracks.renames
    rw [← update_of_eq (noCopy.trans (Call.copy_returning operation (.plain ret)).symm)] at renames
    exact tracks.outside here rfl rfl sound renames rfl tracks.grows rfl carries' rfl rfl
      (fun file other => (moved file).1 other)

/-- The copy of the data is filled, or released when the user copy fails. -/
theorem Tracks.copying (tracks : Tracks device system owed pairs late mid base)
    {outcome : WriteOutcome} {file : FileId} {data : List Byte} {pos : Int} {writeData : Pointer}
    (here : device.calls thread =
      some ⟨operation, .copying outcome file data pos writeData⟩) :
    ∃ pc' system₁, copyData outcome file data pos writeData device.system = some (pc', system₁) ∧
      Proceeds system owed thread operation (.copying outcome file data pos writeData) pc'
        (device.goesOn thread operation pc' system₁) := by
  rcases tracks.sound thread _ here with ⟨nothing, pos', before, handed⟩
  cases before with
  | copying copies =>
  have copy := SharedDevice.copies_eq here
  by_cases fails : copyFails outcome.copyFromUser data.length = true
  · -- the request has been in vain, here as in a call that is run at once
    have released : ∃ heap₁, kfree device.system.heap writeData = some heap₁ ∧
        heap₁.limit = device.system.heap.limit ∧
        heap₁.Renames pairs (Sum.elim (Function.update device.copies thread none) late)
          mid.heap := by
      rcases copies with ⟨_, rfl⟩ | ⟨_, _, _, id, rfl⟩
      · have noCopy : device.copies thread = none := copy
        rw [update_of_eq noCopy]
        exact ⟨_, rfl, rfl, tracks.renames⟩
      · have own : Sum.elim device.copies late (.inl thread) =
            some (id, Heap.resized outcome.writeData [] data.length) := copy
        rcases tracks.renames.free_apart own with ⟨heap₁, freed, limit₁, renames⟩
        rw [Sum.update_elim_inl] at renames
        exact ⟨heap₁, freed, limit₁, renames⟩
    rcases released with ⟨heap₁, freed, limit₁, renames⟩
    refine ⟨.returning (.plain (-efault)), { device.system with heap := heap₁ },
      by simp [copyData, fails, freed], Or.inr ⟨⟨rfl, rfl⟩, ?_⟩⟩
    rcases aesdWrite_of_copyFails copies fails file with ⟨heap₃, result, limit₃, next₃, block₃⟩
    refine ⟨(-efault, []), { system with heap := heap₃ },
      by simp [deliveryStep, WriteCall.run, result], pairs, late, mid, base, ?_⟩
    have carries' : ∃ committed pending,
        Carries { system with heap := heap₃ } committed pending := by
      rcases tracks.carries with ⟨committed, pending, carries⟩
      rcases carries.delivery (.write ⟨outcome, some file, some data⟩) with
        ⟨output, target, result', carries', _⟩
      simp only [deliveryStep, WriteCall.run, result, Option.map_some, Option.some.injEq,
        Prod.mk.injEq] at result'
      rw [result'.2]
      exact carries'
    have sound : Call.Sound pairs { device.system with heap := heap₁ }
        { system with heap := heap₃ } mid base (some (-efault, []))
        ⟨.write ⟨outcome, some file, some data⟩, .returning (.plain (-efault))⟩ :=
      ⟨rfl, fun _ _ absurd' => by contradiction, fun file filp => (handed file filp).1⟩
    exact tracks.outside here rfl rfl sound renames rfl
      (tracks.grows.skip limit₃ next₃ block₃) rfl carries' limit₁ limit₃ fun _ _ => ⟨rfl, rfl⟩
  · have copied := Bool.eq_false_iff.mpr fails
    have filled : ∃ heap₁, device.system.heap.store writeData 0 data = some heap₁ ∧
        heap₁.limit = device.system.heap.limit ∧
        heap₁.Renames pairs (Sum.elim (Function.update device.copies thread
          (Call.copy ⟨.write ⟨outcome, some file, some data⟩,
            .locking (.write .scan outcome file pos writeData data.length)⟩)) late) mid.heap := by
      rcases copies with ⟨rfl, rfl⟩ | ⟨_, _, _, id, rfl⟩
      · have noCopy : device.copies thread = Call.copy ⟨.write ⟨outcome, some file, some []⟩,
            .locking (.write .scan outcome file pos .empty ([] : List Byte).length)⟩ := copy
        rw [update_of_eq noCopy]
        exact ⟨_, rfl, rfl, tracks.renames⟩
      · have own : Sum.elim device.copies late (.inl thread) =
            some (id, Heap.resized outcome.writeData [] data.length) := copy
        rcases tracks.renames.store_apart own (Heap.length_resized ..) with
          ⟨heap₁, stored, limit₁, renames⟩
        rw [Sum.update_elim_inl] at renames
        exact ⟨heap₁, stored, limit₁, renames⟩
    rcases filled with ⟨heap₁, stored, limit₁, renames⟩
    refine ⟨.locking (.write .scan outcome file pos writeData data.length),
      { device.system with heap := heap₁ }, by simp [copyData, fails, stored], Or.inl ⟨rfl, ?_⟩⟩
    have sound : Call.Sound pairs { device.system with heap := heap₁ } system mid base none
        ⟨.write ⟨outcome, some file, some data⟩,
          .locking (.write .scan outcome file pos writeData data.length)⟩ :=
      ⟨rfl, pos, .write copies copied, handed⟩
    have next := tracks.outside here rfl rfl sound renames rfl tracks.grows rfl tracks.carries
      limit₁ rfl fun _ _ => ⟨rfl, rfl⟩
    rw [update_of_eq nothing] at next
    exact ⟨pairs, late, mid, base, next⟩

/-- An interrupted call leaves the copy of its data. -/
theorem Tracks.interrupted (tracks : Tracks device system owed pairs late mid base)
    {critical : Critical} (here : device.calls thread = some ⟨operation, .locking critical⟩)
    (interrupted : operation.lock = false) :
    Proceeds system owed thread operation (.locking critical)
      (.returning (.plain (-erestartsys)))
      (device.goesOn thread operation (.returning (.plain (-erestartsys))) device.system) := by
  rcases tracks.sound thread _ here with ⟨nothing, pos, before, handed⟩
  have copy := SharedDevice.copies_eq here
  rcases before.interrupted interrupted with ⟨heap₂, result, left⟩
  have carries' : ∃ committed pending,
      Carries { system with heap := heap₂ } committed pending := by
    rcases tracks.carries with ⟨committed, pending, carries⟩
    rcases carries.delivery operation with ⟨output, target, result', carries', _⟩
    rw [result, Option.some.injEq, Prod.mk.injEq] at result'
    rw [result'.2]
    exact carries'
  have sound : Call.Sound pairs device.system { system with heap := heap₂ } mid base
      (some (-erestartsys, [])) ⟨operation, .returning (.plain (-erestartsys))⟩ :=
    ⟨rfl, fun _ _ absurd' => by contradiction, fun file filp => (handed file filp).1⟩
  have leaves : ∃ late', heap₂.limit = system.heap.limit ∧ base.heap.Grows late' heap₂ ∧
      device.system.heap.Renames pairs
        (Sum.elim (Function.update device.copies thread none) late') mid.heap := by
    rcases left with ⟨noCopy, rfl⟩ | ⟨entry, own, limit₂, next₂, block₂⟩
    · rw [update_of_eq (copy.trans noCopy)]
      exact ⟨late, rfl, tracks.grows, tracks.renames⟩
    · refine ⟨_, limit₂, tracks.grows.insert entry limit₂ next₂ block₂, ?_⟩
      exact tracks.renames.handOver (copy.trans own) tracks.grows.late_next
  rcases leaves with ⟨late', limit₂, grows, renames⟩
  refine Or.inr ⟨⟨rfl, rfl⟩, (-erestartsys, []), _, result, pairs, late', mid, base, ?_⟩
  rw [← Call.copy_returning operation (.plain (-erestartsys))] at renames
  exact tracks.outside here rfl rfl sound renames rfl grows rfl carries' rfl limit₂
    fun _ _ => ⟨rfl, rfl⟩

/-- A call takes effect when it is granted the mutex. -/
theorem Tracks.lock (tracks : Tracks device system owed pairs late mid base)
    {critical : Critical} (here : device.calls thread = some ⟨operation, .locking critical⟩)
    (locks : operation.lock = true) (free : device.lock = none) :
    Proceeds system owed thread operation (.locking critical) (.inside critical)
      { device.goesOn thread operation (.inside critical) device.system with
        lock := some thread } := by
  rcases tracks.sound thread _ here with ⟨nothing, pos, before, handed⟩
  rcases before.exists_filp with ⟨file, filp⟩
  rcases tracks.agrees free with ⟨pairs₁, renames₁, paired₁⟩
  have agree : device.system.Renames pairs₁ device.copies file system :=
    ⟨renames₁, paired₁, (handed file filp).1.symm⟩
  rcases before.enter locks filp (handed file filp).2 agree (SharedDevice.copies_eq here) with
    ⟨pairs', critical', mid', _, paired', agree', still, result⟩
  rcases tracks.carries with ⟨committed, pending, carries⟩
  rcases carries.delivery operation with ⟨output, target, result', carries', limit', others⟩
  rw [result] at result'
  rcases Option.map_eq_some_iff.mp result' with ⟨⟨reply, base'⟩, ends, settled⟩
  simp only [Reply.settle, Prod.mk.injEq] at settled
  rcases settled with ⟨rfl, rfl⟩
  refine Or.inr ⟨⟨rfl, rfl⟩, reply.output, _, result.trans result', pairs', fun _ => none, mid',
    base', ?_⟩
  have renames : device.system.heap.Renames pairs'
      (Sum.elim (Function.update device.copies thread
        (Call.copy ⟨operation, .inside critical⟩)) fun _ : Nat => none) mid'.heap := by
    rw [Call.copy_inside]
    exact agree'.heap.withNone
  have grows : base'.heap.Grows (fun _ => none) (reply.store base').heap := by
    rw [Reply.store_heap]
    exact .refl _
  have sound : Call.Sound pairs' device.system (reply.store base') mid' base' (some reply.output)
      ⟨operation, .inside critical⟩ :=
    ⟨file, critical', 5, reply, filp, paired', ends, agree'.fPos, rfl, rfl⟩
  have lock : ∀ other, some thread = some other ↔
      if other = thread then (Pc.inside critical).holds = true else device.lock = some other := by
    intro other
    by_cases same : other = thread
    · simp [same, Pc.holds]
    · simp [same, Ne.symm same, free]
  have nobody : ∀ other call, other ≠ thread → device.calls other = some call →
      call.pc.holds = true → pairs' = pairs ∧ mid' = mid ∧ base' = base := by
    intro other call _ found holds
    have owner := (tracks.locked other).mpr ⟨call, found, holds⟩
    rw [free] at owner
    contradiction
  exact tracks.goOn here renames agree'.device grows (Reply.store_device ..) carries' rfl limit'
    (fun other different => ⟨rfl, others other different⟩) sound nobody lock fun absurd' => by
      contradiction

/-- A step under the mutex leads to the same end. -/
theorem Tracks.step (tracks : Tracks device system owed pairs late mid base)
    {critical : Critical} (here : device.calls thread = some ⟨operation, .inside critical⟩)
    (busy : ∀ reply, critical ≠ .done reply) :
    ∃ next, critical.step device.system = some next ∧
      Proceeds system owed thread operation (.inside critical) (.inside next.1)
        (device.goesOn thread operation (.inside next.1) next.2) := by
  rcases tracks.sound thread _ here with
    ⟨file, critical', fuel, reply, filp, paired, ends, there, settled, owes⟩
  have busy' : ∀ reply, critical' ≠ .done reply := by
    rintro other rfl
    cases paired
    exact busy _ rfl
  rcases Critical.finish_cases ends with ⟨same, _⟩ | ⟨_, fuel', next', step', ends'⟩
  · exact absurd same (busy' reply)
  have agree : device.system.Renames pairs (Sum.elim device.copies late) file mid :=
    ⟨tracks.renames, tracks.paired, there⟩
  have lockstep := paired.step agree
  rw [step'] at lockstep
  cases step : critical.step device.system with
  | none =>
      rw [step] at lockstep
      cases lockstep
  | some next =>
      rw [step] at lockstep
      cases lockstep with
      | some follows =>
      rcases follows with ⟨pairs', _, nexts, agree', others⟩
      refine ⟨next, rfl, Or.inl ⟨rfl, pairs', late, next'.2, base, ?_⟩⟩
      have renames : next.2.heap.Renames pairs'
          (Sum.elim (Function.update device.copies thread
            (Call.copy ⟨operation, .inside next.1⟩)) late) next'.2.heap := by
        rw [update_of_eq ((SharedDevice.copies_eq here).trans ((Call.copy_inside ..).trans
          (Call.copy_inside ..).symm))]
        exact agree'.heap
      have sound : Call.Sound pairs' next.2 system next'.2 base (owed thread)
          ⟨operation, .inside next.1⟩ :=
        ⟨file, next'.1, fuel', reply, filp, nexts, ends', agree'.fPos, settled, owes⟩
      have owner : ∀ other call, other ≠ thread → device.calls other = some call →
          call.pc.holds = true → pairs' = pairs ∧ next'.2 = mid ∧ base = base := by
        intro other call different found holds
        have mine := (tracks.locked thread).mpr ⟨_, here, rfl⟩
        have theirs := (tracks.locked other).mpr ⟨call, found, holds⟩
        rw [mine, Option.some.injEq] at theirs
        exact absurd theirs.symm different
      have held : device.lock ≠ none := by
        rw [(tracks.locked thread).mpr ⟨_, here, rfl⟩]
        simp
      have after := tracks.goOn here renames agree'.device tracks.grows tracks.sameDevice
        tracks.carries (Critical.limit_step step) rfl
        (fun other different => ⟨others other fun same => different (same ▸ filp), rfl⟩) sound
        owner (tracks.lock_iff here rfl) fun none => absurd none held
      rw [Function.update_eq_self] at after
      exact after

/-- When everything is done, the device agrees with what it has led to. -/
theorem Tracks.unlock (tracks : Tracks device system owed pairs late mid base) {reply : Reply}
    (here : device.calls thread = some ⟨operation, .inside (.done reply)⟩) :
    Proceeds system owed thread operation (.inside (.done reply)) (.returning reply)
      { device.goesOn thread operation (.returning reply) device.system with lock := none } := by
  rcases tracks.sound thread _ here with
    ⟨file, critical', fuel, reply', filp, paired, ends, there, settled, owes⟩
  cases paired with
  | done reply named =>
  rw [Critical.finish_done, Option.some.injEq, Prod.mk.injEq] at ends
  rcases ends with ⟨rfl, rfl⟩
  refine Or.inl ⟨rfl, pairs, late, mid, mid, ?_⟩
  have renames := tracks.renames
  rw [← update_of_eq ((SharedDevice.copies_eq here).trans ((Call.copy_inside ..).trans
    (Call.copy_returning operation reply).symm))] at renames
  have sound : Call.Sound pairs device.system system mid mid (owed thread)
      ⟨operation, .returning reply⟩ := by
    refine ⟨owes, fun other pos back => named other pos back ▸ filp, fun other filp' => ?_⟩
    cases Option.some.inj (filp.symm.trans filp')
    rw [← settled]
    exact Reply.store_fPos_congr there.symm
  have lock : ∀ other, none = some other ↔
      if other = thread then (Pc.returning reply).holds = true
        else device.lock = some other := by
    intro other
    rw [(tracks.locked thread).mpr ⟨_, here, rfl⟩]
    by_cases same : other = thread
    · simp [same, Pc.holds]
    · simp [same, Ne.symm same]
  have after := tracks.goOn here renames tracks.paired tracks.grows tracks.sameDevice
    tracks.carries rfl rfl (fun _ _ => ⟨rfl, rfl⟩) sound (fun _ _ _ _ _ => ⟨rfl, rfl, rfl⟩) lock
    fun _ => rfl
  rw [Function.update_eq_self] at after
  exact after

/-- A call that returns stores its position back. -/
theorem Tracks.ret (tracks : Tracks device system owed pairs late mid base) {reply : Reply}
    (here : device.calls thread = some ⟨operation, .returning reply⟩) :
    owed thread = some reply.output ∧
      Tracked { device with
          system := reply.store device.system
          calls := Function.update device.calls thread none }
        system (Function.update owed thread none) := by
  rcases tracks.sound thread _ here with ⟨owes, named, settled⟩
  have elsewhere : ∀ file, operation.filp ≠ some file →
      (reply.store device.system).fPos file = device.system.fPos file := by
    intro file other
    apply Reply.store_fPos_of_ne
    exact fun pos back => other (named file pos back)
  have nothing : device.copies thread = none :=
    (SharedDevice.copies_eq here).trans (Call.copy_returning ..)
  refine ⟨owes, pairs, late, mid, base, ?_⟩
  exact {
    renames := by
      rw [SharedDevice.copies_update, Option.bind_none, update_of_eq nothing]
      show (reply.store device.system).heap.Renames _ _ _
      rw [Reply.store_heap]
      exact tracks.renames
    paired := by
      show (reply.store device.system).device.Paired _ _
      rw [Reply.store_device]
      exact tracks.paired
    grows := tracks.grows
    sameDevice := tracks.sameDevice
    carries := tracks.carries
    limit := by
      show _ = (reply.store device.system).heap.limit
      rw [Reply.store_heap]
      exact tracks.limit
    sound := by
      intro other call there
      rcases mem_update_none.mp there with ⟨different, before⟩
      rw [Function.update_of_ne different]
      apply (tracks.sound other call before).congr rfl
      · intro file filp
        refine ⟨elsewhere file fun mine => ?_, rfl⟩
        exact different (tracks.single other thread _ _ file before here filp mine)
      · exact fun _ => ⟨rfl, rfl, rfl⟩
    idle := by
      intro other none
      by_cases same : other = thread
      · subst same
        exact Function.update_self ..
      · rw [Function.update_of_ne same]
        exact tracks.idle other ((Function.update_of_ne same ..).symm.trans none)
    unused := by
      intro file unused
      by_cases mine : operation.filp = some file
      · exact settled file mine
      · show (reply.store device.system).fPos file = system.fPos file
        rw [elsewhere file mine]
        apply tracks.unused
        intro other call before
        by_cases same : other = thread
        · subst same
          rw [here, Option.some.injEq] at before
          subst before
          exact mine
        · exact unused other call ((Function.update_of_ne same ..).trans before)
    single := by
      intro first second call call' file there there' filp filp'
      exact tracks.single first second call call' file (mem_update_none.mp there).2
        (mem_update_none.mp there').2 filp filp'
    locked := by
      intro other
      rw [tracks.locked other]
      constructor
      · rintro ⟨call, before, holds⟩
        have different : other ≠ thread := by
          rintro rfl
          rw [here, Option.some.injEq] at before
          subst before
          contradiction
        exact ⟨call, mem_update_none.mpr ⟨different, before⟩, holds⟩
      · rintro ⟨call, there, holds⟩
        exact ⟨call, (mem_update_none.mp there).2, holds⟩
    free := tracks.free }

/-- A call starts on a file that no other call uses. -/
theorem Tracks.call (tracks : Tracks device system owed pairs late mid base)
    (none' : device.calls thread = none)
    (own : ∀ file, operation.filp = some file → ∀ other call,
      device.calls other = some call → call.operation.filp ≠ some file) :
    Tracked (device.goesOn thread operation
      (.start ((operation.filp.map device.system.fPos).getD 0)) device.system) system owed := by
  have kept : ∀ other call, device.calls other = some call → Function.update device.calls thread
      (some ⟨operation, .start ((operation.filp.map device.system.fPos).getD 0)⟩) other =
        some call := by
    intro other call before
    have different : other ≠ thread := by
      rintro rfl
      cases none'.symm.trans before
    exact mem_update_some.mpr (.inr ⟨different, before⟩)
  refine ⟨pairs, late, mid, base, ?_⟩
  exact {
    renames := by
      have nothing : device.copies thread = none := by simp [SharedDevice.copies, none']
      have copies : (device.goesOn thread operation
          (.start ((operation.filp.map device.system.fPos).getD 0)) device.system).copies =
            Function.update device.copies thread none := device.copies_update ..
      rw [copies, update_of_eq nothing]
      exact tracks.renames
    paired := tracks.paired
    grows := tracks.grows
    sameDevice := tracks.sameDevice
    carries := tracks.carries
    limit := tracks.limit
    sound := by
      intro other call there
      rcases mem_update_some.mp there with ⟨rfl, rfl⟩ | ⟨_, before⟩
      · refine ⟨tracks.idle other none', _, .start .., fun file filp => ?_⟩
        have here := tracks.unused file fun other call before => own file filp other call before
        have filp' : operation.filp = some file := filp
        rw [filp', Option.map_some, Option.getD_some]
        exact ⟨here, here⟩
      · exact tracks.sound other call before
    idle := by
      intro other none
      apply tracks.idle
      cases before : device.calls other with
      | none => rfl
      | some call =>
          have still := kept other call before
          rw [show Function.update device.calls thread _ other = Option.none from none] at still
          contradiction
    unused := fun file unused => tracks.unused file fun other call before =>
      unused other call (kept other call before)
    single := by
      intro first second call call' file there there' filp filp'
      rcases mem_update_some.mp there with ⟨rfl, rfl⟩ | ⟨_, before⟩
      · rcases mem_update_some.mp there' with ⟨rfl, _⟩ | ⟨_, before'⟩
        · rfl
        · exact absurd filp' (own file filp second call' before')
      · rcases mem_update_some.mp there' with ⟨rfl, rfl⟩ | ⟨_, before'⟩
        · exact absurd filp (own file filp' first call before)
        · exact tracks.single first second call call' file before before' filp filp'
    locked := by
      intro other
      rw [show (device.goesOn thread operation _ device.system).lock = device.lock from rfl,
        tracks.locked other]
      constructor
      · rintro ⟨call, before, holds⟩
        exact ⟨call, kept other call before, holds⟩
      · rintro ⟨call, there, holds⟩
        rcases mem_update_some.mp there with ⟨_, rfl⟩ | ⟨_, before⟩
        · contradiction
        · exact ⟨call, before, holds⟩
    free := tracks.free }

end

end

end Aesd.Driver
