import Aesd.Driver.Tracking

/-!
# Concurrent calls take effect one at a time

However the steps of the calls of several threads follow each other, each call takes effect
at one moment between its call and its return, and returns what it returns when all of them
are run at once, in the order of these moments.
-/

namespace Aesd.Driver

open Aesd.Memory Aesd.Transition

section

variable {τ : Type} [DecidableEq τ]

/-! ## Steps and effects -/

/-- The thread that takes the step. -/
def CallEvent.thread : CallEvent τ → τ
  | .call thread _ => thread
  | .advance thread => thread

/-- What a thread calls. -/
def CallEvent.called (thread : τ) : CallEvent τ → Option Operation
  | .call other operation => if other = thread then some operation else none
  | .advance _ => none

/-- A call is through a file that no other call uses. -/
def CallEvent.OwnFile (device : SharedDevice τ) : CallEvent τ → Prop
  | .call _ operation => ∀ other, ∀ call ∈ device.calls other, ∀ file ∈ operation.filp,
      call.operation.filp ≠ some file
  | .advance _ => True

instance [Fintype τ] (device : SharedDevice τ) :
    ∀ event : CallEvent τ, Decidable (event.OwnFile device)
  | .call _ operation => inferInstanceAs (Decidable (∀ other, ∀ call ∈ device.calls other,
      ∀ file ∈ operation.filp, call.operation.filp ≠ some file))
  | .advance _ => isTrue trivial

/-- The calls that take effect in a step: they are granted the mutex, or return without
it. -/
def effectOf (source : SharedDevice τ) (event : CallEvent τ) (_ : Option (Int × List Byte))
    (target : SharedDevice τ) : List (τ × Operation) :=
  match source.calls event.thread, target.calls event.thread with
  | some call, some call' =>
      if call.pc.applied = false ∧ call'.pc.applied = true then [(event.thread, call.operation)]
      else []
  | _, _ => []

/-- The call of a thread that has not taken effect. -/
def SharedDevice.toDo (device : SharedDevice τ) (thread : τ) : List Operation :=
  match device.calls thread with
  | some call => if call.pc.applied then [] else [call.operation]
  | none => []

/-- What a thread has called. -/
def callsOf (thread : τ) (events : List (CallEvent τ)) : List Operation :=
  events.filterMap (CallEvent.called thread)

/-- What a thread has been returned. -/
def returnsTo (thread : τ) (events : List (CallEvent τ))
    (outputs : List (Option (Int × List Byte))) : List (Int × List Byte) :=
  (outputsAt (fun event => event.thread = thread) events outputs).filterMap id

/-- The calls of a thread among those that have taken effect. -/
def effectsOf (thread : τ) (effects : List (τ × Operation)) : List Operation :=
  (effects.filter fun effect => effect.1 = thread).map Prod.snd

/-- What the calls of a thread return when all of them are run at once. -/
def resultsOf (thread : τ) (effects : List (τ × Operation)) (results : List (Int × List Byte)) :
    List (Int × List Byte) :=
  outputsAt (fun effect => effect.1 = thread) effects results

/-- A step accounts for what each thread has called and is owed. -/
def Accounts (device target : SharedDevice τ) (owed owed' : τ → Option (Int × List Byte))
    (event : CallEvent τ) (output : Option (Int × List Byte)) (effects : List (τ × Operation))
    (results : List (Int × List Byte)) : Prop :=
  ∀ thread, device.toDo thread ++ callsOf thread [event] =
      effectsOf thread effects ++ target.toDo thread ∧
    (owed thread).toList ++ resultsOf thread effects results =
      returnsTo thread [event] [output] ++ (owed' thread).toList

section

variable {device target : SharedDevice τ} {system : System}
  {owed : τ → Option (Int × List Byte)}

/-- The owner of the mutex takes its next step. -/
theorem SharedDevice.advance_inside {thread : τ} {operation : Operation} {critical : Critical}
    (busy : ∀ reply, critical ≠ .done reply) :
    device.advance thread ⟨operation, .inside critical⟩ =
      (critical.step device.system).map fun next =>
        (none, device.goesOn thread operation (.inside next.1) next.2) := by
  cases critical with
  | done reply => exact absurd rfl (busy reply)
  | read | write | llseek | adjust => rfl

omit [DecidableEq τ] in
/-- Nothing is owed to a call that has not taken effect. -/
theorem Tracks.owed_eq_none {pairs : Nat → Nat → Prop} {late : Nat → Option (Nat × List Byte)}
    {mid base : System} (tracks : Tracks device system owed pairs late mid base) {thread : τ}
    {call : Call} (here : device.calls thread = some call) (waits : call.pc.applied = false) :
    owed thread = none := by
  have sound := tracks.sound thread call here
  rcases call with ⟨operation, pc⟩
  cases pc with
  | start pos => exact sound.1
  | copying outcome file data pos writeData => exact sound.1
  | locking critical => exact sound.1
  | inside critical => contradiction
  | returning reply => contradiction

/-- A step that goes on with a call is matched by the calls that take effect in it. -/
theorem Tracked.goesOn (tracked : Tracked device system owed) {thread : τ} {operation : Operation}
    {pc pc' : Pc} (here : device.calls thread = some ⟨operation, pc⟩)
    (proceeds : Proceeds system owed thread operation pc pc' target)
    (calls : target.calls = Function.update device.calls thread (some ⟨operation, pc'⟩)) :
    ∃ results system' owed',
      run deliveryStep system ((effectOf device (.advance thread) none target).map Prod.snd) =
        some (results, system') ∧
      Tracked target system' owed' ∧
      Accounts device target owed owed' (.advance thread) none
        (effectOf device (.advance thread) none target) results := by
  have there : target.calls thread = some ⟨operation, pc'⟩ := by
    rw [calls, Function.update_self]
  have others : ∀ other, other ≠ thread → target.toDo other = device.toDo other := by
    intro other different
    rw [SharedDevice.toDo, SharedDevice.toDo, calls, Function.update_of_ne different]
  rcases proceeds with ⟨same, tracked'⟩ | ⟨⟨waits, applied⟩, result, system', run', tracked'⟩
  · have none' : effectOf device (.advance thread) none target = [] := by
      simp only [effectOf, CallEvent.thread, here, there, same]
      simp
    rw [none']
    refine ⟨[], system, owed, rfl, tracked', fun other => ⟨?_, ?_⟩⟩
    · by_cases mine : other = thread
      · subst mine
        simp [callsOf, CallEvent.called, effectsOf, SharedDevice.toDo, here, there, same]
      · simp [callsOf, CallEvent.called, effectsOf, others other mine]
    · simp [resultsOf, returnsTo, outputsAt_cons]
  · have one : effectOf device (.advance thread) none target = [(thread, operation)] := by
      simp only [effectOf, CallEvent.thread, here, there, waits, applied]
      simp
    have nothing : owed thread = none := by
      rcases tracked with ⟨pairs, late, mid, base, tracks⟩
      exact tracks.owed_eq_none here waits
    rw [one]
    refine ⟨[result], system', _, (run_cons_eq_some_iff ..).mpr
      ⟨result, system', [], run', rfl, rfl⟩, tracked', fun other => ⟨?_, ?_⟩⟩
    · by_cases mine : other = thread
      · subst mine
        simp [callsOf, CallEvent.called, effectsOf, SharedDevice.toDo, here, there, waits, applied]
      · simp [callsOf, CallEvent.called, effectsOf, others other mine, Ne.symm mine]
    · by_cases mine : other = thread
      · subst mine
        simp [resultsOf, returnsTo, outputsAt_cons, nothing, CallEvent.thread]
      · simp [resultsOf, returnsTo, outputsAt_cons, Ne.symm mine, Function.update_of_ne mine,
          CallEvent.thread]

/-- Every step of a call in progress is matched by the calls that take effect in it. -/
theorem Tracked.advance (tracked : Tracked device system owed) {thread : τ} {call : Call}
    {output : Option (Int × List Byte)} (here : device.calls thread = some call)
    (step : device.advance thread call = some (output, target)) :
    ∃ results system' owed',
      run deliveryStep system ((effectOf device (.advance thread) output target).map Prod.snd) =
        some (results, system') ∧
      Tracked target system' owed' ∧
      Accounts device target owed owed' (.advance thread) output
        (effectOf device (.advance thread) output target) results := by
  rcases tracked with ⟨pairs, late, mid, base, tracks⟩
  have tracked : Tracked device system owed := ⟨pairs, late, mid, base, tracks⟩
  rcases call with ⟨operation, pc⟩
  cases pc with
  | start pos =>
      cases step
      exact tracked.goesOn here (tracks.start here) rfl
  | copying outcome file data pos writeData =>
      rcases tracks.copying here with ⟨pc', system₁, copied, proceeds⟩
      simp only [SharedDevice.advance, copied, Option.map_some, Option.some.injEq,
        Prod.mk.injEq] at step
      rcases step with ⟨rfl, rfl⟩
      exact tracked.goesOn here proceeds rfl
  | locking critical =>
      cases locks : operation.lock with
      | false =>
          simp only [SharedDevice.advance, locks, Bool.false_eq_true, if_false, Option.some.injEq,
            Prod.mk.injEq] at step
          rcases step with ⟨rfl, rfl⟩
          exact tracked.goesOn here (tracks.interrupted here locks) rfl
      | true =>
          simp only [SharedDevice.advance, locks, if_true] at step
          split at step
          · contradiction
          · rename_i free
            cases step
            exact tracked.goesOn here (tracks.lock here locks free) rfl
  | inside critical =>
      by_cases finished : ∃ reply, critical = .done reply
      · rcases finished with ⟨reply, rfl⟩
        cases step
        exact tracked.goesOn here (tracks.unlock here) rfl
      · have busy : ∀ reply, critical ≠ .done reply := fun reply same => finished ⟨reply, same⟩
        rcases tracks.step here busy with ⟨next, taken, proceeds⟩
        rw [SharedDevice.advance_inside busy, taken] at step
        cases step
        exact tracked.goesOn here proceeds rfl
  | returning reply =>
      cases step
      rcases tracks.ret here with ⟨owes, tracked'⟩
      refine ⟨[], system, _, ?_, tracked', fun other => ⟨?_, ?_⟩⟩
      · simp [effectOf, CallEvent.thread, here]
      · by_cases mine : other = thread
        · subst mine
          simp [callsOf, CallEvent.called, effectsOf, effectOf, CallEvent.thread, here,
            SharedDevice.toDo, Pc.applied]
        · simp [callsOf, CallEvent.called, effectsOf, effectOf, CallEvent.thread, here,
            SharedDevice.toDo, Function.update_of_ne mine]
      · by_cases mine : other = thread
        · subst mine
          simp [resultsOf, returnsTo, outputsAt_cons, effectOf, CallEvent.thread, here, owes]
        · simp [resultsOf, returnsTo, outputsAt_cons, effectOf, CallEvent.thread, here,
            Ne.symm mine, Function.update_of_ne mine]

/-- So is every step. -/
theorem Tracked.step (tracked : Tracked device system owed) {event : CallEvent τ}
    {output : Option (Int × List Byte)} (own : event.OwnFile device)
    (step : callStep device event = some (output, target)) :
    ∃ results system' owed',
      run deliveryStep system ((effectOf device event output target).map Prod.snd) =
        some (results, system') ∧
      Tracked target system' owed' ∧
      Accounts device target owed owed' event output (effectOf device event output target)
        results := by
  cases event with
  | advance thread =>
      rcases Option.bind_eq_some_iff.mp step with ⟨call, here, step⟩
      exact tracked.advance here step
  | call thread operation =>
      cases none' : device.calls thread with
      | some call =>
          simp only [callStep, none'] at step
          contradiction
      | none =>
          simp only [callStep, none', Option.some.injEq, Prod.mk.injEq] at step
          rcases step with ⟨rfl, rfl⟩
          rcases tracked with ⟨pairs, late, mid, base, tracks⟩
          refine ⟨[], system, owed, ?_, tracks.call none'
            fun file filp other call found => own other call found file filp, fun other => ⟨?_, ?_⟩⟩
          · simp [effectOf, CallEvent.thread, none']
          · by_cases mine : other = thread
            · subst mine
              simp [callsOf, CallEvent.called, effectsOf, effectOf, CallEvent.thread, none',
                SharedDevice.toDo, SharedDevice.goesOn, Pc.applied]
            · simp [callsOf, CallEvent.called, effectsOf, effectOf, CallEvent.thread, none',
                SharedDevice.toDo, SharedDevice.goesOn, Function.update_of_ne mine, Ne.symm mine]
          · simp [resultsOf, returnsTo, outputsAt_cons, effectOf, CallEvent.thread, none']

end

/-! ## Runs -/

omit [DecidableEq τ] in
/-- Nothing is called on the device that has been loaded. -/
theorem tracked_loaded (kmallocMaxSize : KmallocMaxSize) :
    Tracked (.loaded kmallocMaxSize : SharedDevice τ) (aesdInitModule kmallocMaxSize)
      fun _ => none := by
  refine ⟨fun _ _ => False, fun _ => none, aesdInitModule kmallocMaxSize,
    aesdInitModule kmallocMaxSize, ?_⟩
  exact {
    renames := (Heap.renames_initial kmallocMaxSize.1).withNone
    paired := aesdDev_paired_init
    grows := .refl _
    sameDevice := rfl
    carries := ⟨[], [], carries_init kmallocMaxSize⟩
    limit := rfl
    sound := fun _ _ found => by contradiction
    idle := fun _ _ => rfl
    unused := fun _ _ => rfl
    single := fun _ _ _ _ _ found => by contradiction
    locked := by
      intro thread
      constructor
      · intro owner
        contradiction
      · rintro ⟨call, found, _⟩
        contradiction
    free := fun _ => rfl }

/-- What each thread has called has taken effect, except for a call in progress, and has been
returned what it returns when all calls are run at once, except for a call in progress. -/
theorem tracked_of_run (kmallocMaxSize : KmallocMaxSize) {events : List (CallEvent τ)}
    {outputs : List (Option (Int × List Byte))} {device : SharedDevice τ}
    (own : Along callStep (fun device event => event.OwnFile device) (.loaded kmallocMaxSize)
      events)
    (execution : run callStep (.loaded kmallocMaxSize) events = some (outputs, device)) :
    ∃ results system owed,
      run deliveryStep (aesdInitModule kmallocMaxSize)
          ((observe callStep effectOf (.loaded kmallocMaxSize) events).map Prod.snd) =
        some (results, system) ∧
      Tracked device system owed ∧
      ∀ thread, callsOf thread events =
          effectsOf thread (observe callStep effectOf (.loaded kmallocMaxSize) events) ++
            device.toDo thread ∧
        resultsOf thread (observe callStep effectOf (.loaded kmallocMaxSize) events) results =
          returnsTo thread events outputs ++ (owed thread).toList := by
  apply along_induction (motive := fun events outputs device => ∃ results system owed,
      run deliveryStep (aesdInitModule kmallocMaxSize)
          ((observe callStep effectOf (.loaded kmallocMaxSize) events).map Prod.snd) =
        some (results, system) ∧
      Tracked device system owed ∧
      ∀ thread, callsOf thread events =
          effectsOf thread (observe callStep effectOf (.loaded kmallocMaxSize) events) ++
            device.toDo thread ∧
        resultsOf thread (observe callStep effectOf (.loaded kmallocMaxSize) events) results =
          returnsTo thread events outputs ++ (owed thread).toList) _ _ own execution
  · exact ⟨[], _, _, rfl, tracked_loaded kmallocMaxSize, fun _ => ⟨rfl, rfl⟩⟩
  · rintro events outputs middle event output target first
      ⟨results, system, owed, reached, tracked, accounted⟩ ownEvent step
    rcases tracked.step ownEvent step with ⟨results', system', owed', more, tracked', accounts⟩
    rw [observe_concat effectOf first step]
    have lengths : results.length =
        (observe callStep effectOf (.loaded kmallocMaxSize) events).length := by
      rw [length_of_run reached, List.length_map]
    refine ⟨results ++ results', system', owed', ?_, tracked', fun thread => ⟨?_, ?_⟩⟩
    · rw [List.map_append]
      exact (run_append_eq_some_iff ..).mpr ⟨system, results, results', reached, more, rfl⟩
    · have called := (accounted thread).1
      have calls := (accounts thread).1
      simp only [callsOf, List.filterMap_append, effectsOf, List.filter_append,
        List.map_append] at called calls ⊢
      rw [called, List.append_assoc, calls, List.append_assoc]
    · have returned := (accounted thread).2
      have returns := (accounts thread).2
      simp only [resultsOf, returnsTo, outputsAt_append _ lengths,
        outputsAt_append _ (length_of_run first), List.filterMap_append] at returned returns ⊢
      rw [returned, List.append_assoc, returns, List.append_assoc]

omit [DecidableEq τ] in
theorem Tracks.lock_eq_none {device : SharedDevice τ} {system : System}
    {owed : τ → Option (Int × List Byte)} {pairs : Nat → Nat → Prop}
    {late : Nat → Option (Nat × List Byte)} {mid base : System}
    (tracks : Tracks device system owed pairs late mid base)
    (idle : ∀ thread, device.calls thread = none) : device.lock = none := by
  rw [Option.eq_none_iff_forall_ne_some]
  intro thread owner
  rcases (tracks.locked thread).mp owner with ⟨call, found, _⟩
  rw [idle thread] at found
  contradiction

omit [DecidableEq τ] in
/-- A thread has at most one call that has not taken effect, or is owed at most one reply. -/
theorem Tracked.toDo_add_owed_le_one {device : SharedDevice τ} {system : System}
    {owed : τ → Option (Int × List Byte)} (tracked : Tracked device system owed) (thread : τ) :
    (device.toDo thread).length + (owed thread).toList.length ≤ 1 := by
  rcases tracked with ⟨pairs, late, mid, base, tracks⟩
  cases found : device.calls thread with
  | none =>
      rw [tracks.idle thread found]
      simp [SharedDevice.toDo, found]
  | some call =>
      cases applied : call.pc.applied with
      | false =>
          rw [tracks.owed_eq_none found applied]
          simp [SharedDevice.toDo, found, applied]
      | true => simp [SharedDevice.toDo, found, applied]

/-- The calls have taken effect one after the other, each before it has returned: run at once
in this order, they return what the threads have been returned, and while nobody has the
mutex the device stores what they make it store.  When no call is in progress, nothing else
has been called or returned, and the positions and the number of live blocks are theirs. -/
theorem calls_take_effect_one_at_a_time (kmallocMaxSize : KmallocMaxSize)
    {events : List (CallEvent τ)} {outputs : List (Option (Int × List Byte))}
    {device : SharedDevice τ}
    (own : Along callStep (fun device event => event.OwnFile device) (.loaded kmallocMaxSize)
      events)
    (execution : run callStep (.loaded kmallocMaxSize) events = some (outputs, device)) :
    let effects := observe callStep effectOf (.loaded kmallocMaxSize) events
    ∃ results system,
      run deliveryStep (aesdInitModule kmallocMaxSize) (effects.map Prod.snd) =
        some (results, system) ∧
      (∀ thread, effectsOf thread effects <+: callsOf thread events ∧
        returnsTo thread events outputs <+: resultsOf thread effects results ∧
        (callsOf thread events).length ≤ (returnsTo thread events outputs).length + 1) ∧
      (device.lock = none → device.system.entriesBytes = system.entriesBytes ∧
        device.system.pendingBytes = system.pendingBytes) ∧
      ((∀ thread, device.calls thread = none) →
        (∀ thread, effectsOf thread effects = callsOf thread events ∧
          returnsTo thread events outputs = resultsOf thread effects results) ∧
        device.lock = none ∧ device.system.fPos = system.fPos ∧
        device.system.heap.live.card = system.heap.live.card) := by
  intro effects
  rcases tracked_of_run kmallocMaxSize own execution with
    ⟨results, system, owed, reached, tracked, accounted⟩
  have atMostOne := tracked.toDo_add_owed_le_one
  rcases tracked with ⟨pairs, late, mid, base, tracks⟩
  refine ⟨results, system, reached, fun thread => ?_, fun free => ?_, fun idle => ?_⟩
  · rcases accounted thread with ⟨called, returned⟩
    have balance : (effectsOf thread effects).length =
        (resultsOf thread effects results).length := by
      rw [effectsOf, List.length_map, resultsOf, length_outputsAt]
      rw [length_of_run reached, List.length_map]
    refine ⟨⟨_, called.symm⟩, ⟨_, returned.symm⟩, ?_⟩
    have calls : (callsOf thread events).length =
        (effectsOf thread effects).length + (device.toDo thread).length := by
      rw [called, List.length_append]
    have replies : (resultsOf thread effects results).length =
        (returnsTo thread events outputs).length + (owed thread).toList.length := by
      rw [returned, List.length_append]
    have one := atMostOne thread
    omega
  · rcases tracks.agrees free with ⟨pairs', renames, paired⟩
    rcases paired.bytes_eq renames with ⟨entries, pending⟩
    exact ⟨entries.symm, pending.symm⟩
  · have free := tracks.lock_eq_none idle
    refine ⟨fun thread => ?_, free, ?_, ?_⟩
    · rcases accounted thread with ⟨called, returned⟩
      rw [SharedDevice.toDo, idle thread, List.append_nil] at called
      rw [tracks.idle thread (idle thread), Option.toList_none, List.append_nil] at returned
      exact ⟨called.symm, returned.symm⟩
    · funext file
      apply tracks.unused
      intro thread call found
      rw [idle thread] at found
      contradiction
    · rcases tracks.agrees free with ⟨pairs', renames, _⟩
      symm
      apply renames.card_live
      intro thread
      simp [SharedDevice.copies, idle thread]

end

/-- One thread writes a line while another one opens a file and waits to read. -/
private def overlapping : List (CallEvent Bool) :=
  [.call true (.write ⟨.success, some 0, some [97, 10]⟩), .advance true, .advance true,
    .call false (.openFile 1), .advance false, .advance false, .advance true,
    .call false (.read .success (some 1) true 8), .advance false, .advance true, .advance true,
    .advance true, .advance true, .advance true, .advance true, .advance false, .advance false,
    .advance true, .advance false, .advance false, .advance false]

theorem calls_take_effect_one_at_a_time_overlapping :
    ∃ outputs device results system,
      run callStep (.loaded ⟨64, by decide⟩) overlapping = some (outputs, device) ∧
      run deliveryStep (aesdInitModule ⟨64, by decide⟩)
          [.openFile 1, .write ⟨.success, some 0, some [97, 10]⟩,
            .read .success (some 1) true 8] = some (results, system) ∧
      returnsTo true overlapping outputs = [(2, [])] ∧
      returnsTo false overlapping outputs = [(0, []), (2, [97, 10])] ∧
      results = [(0, []), (2, []), (2, [97, 10])] ∧
      device.system.entriesBytes = system.entriesBytes ∧ device.system.fPos = system.fPos := by
  have own : Along callStep (fun device event => event.OwnFile device)
      (.loaded ⟨64, by decide⟩) overlapping := by decide +kernel
  have ran : (run callStep (.loaded ⟨64, by decide⟩) overlapping).map (fun result =>
      (returnsTo true overlapping result.1, returnsTo false overlapping result.1,
        (result.2.calls true).isNone, (result.2.calls false).isNone)) =
      some ([(2, [])], [(0, []), (2, [97, 10])], true, true) := by decide +kernel
  have order : (observe callStep effectOf (.loaded ⟨64, by decide⟩) overlapping).map Prod.snd =
      [.openFile 1, .write ⟨.success, some 0, some [97, 10]⟩, .read .success (some 1) true 8] := by
    rfl
  have alone : (run deliveryStep (aesdInitModule ⟨64, by decide⟩)
      [.openFile 1, .write ⟨.success, some 0, some [97, 10]⟩,
        .read .success (some 1) true 8]).map Prod.fst =
      some [(0, []), (2, []), (2, [97, 10])] := by decide +kernel
  rcases Option.map_eq_some_iff.mp ran with ⟨⟨outputs, device⟩, execution, returned⟩
  simp only [Prod.mk.injEq, Option.isNone_iff_eq_none] at returned
  rcases returned with ⟨toTrue, toFalse, idleTrue, idleFalse⟩
  rcases calls_take_effect_one_at_a_time ⟨64, by decide⟩ own execution with
    ⟨results, system, reached, _, stored, ended⟩
  have idle : ∀ thread, device.calls thread = none := by
    intro thread
    cases thread with
    | false => exact idleFalse
    | true => exact idleTrue
  rcases ended idle with ⟨_, free, positions, _⟩
  rw [order] at reached
  rw [reached, Option.map_some, Option.some.injEq] at alone
  exact ⟨outputs, device, results, system, execution, reached, toTrue, toFalse, alone,
    (stored free).1, positions⟩

end Aesd.Driver
