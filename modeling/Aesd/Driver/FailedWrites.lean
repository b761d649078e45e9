import Aesd.Driver.WriteRun

/-!
# Runs with failing writes

A run of writes is compared with the run from which its failed calls are left
out.  The two agree at every point exactly as long as no enlargement of the
write buffer is refused: that failure overwrites the only pointer to the line in
progress and keeps its length.
-/

namespace Aesd.Driver

open Aesd.Memory Aesd.Transition Aesd.Word

/-- What a device state shows: stored entries, pending bytes, cached size and
file positions. -/
structure Observation where
  entries : Option (List (List Byte))
  pending : Option (List Byte)
  buffSize : Nat
  fPos : FileId → Int

def System.observation (system : System) : Observation :=
  ⟨system.entriesBytes, system.pendingBytes, system.device.buffSize, system.fPos⟩

/-- The calls that did not return an error. -/
def successful (calls : List WriteCall) (rets : List Int) : List WriteCall :=
  ((calls.zip rets).filter fun answered => decide (0 ≤ answered.2)).map Prod.fst

/-- The run ends as it would without its failed calls, and its stored lines are
a stretch of what the successful ones supplied. -/
def FailuresLeaveNoTrace (kmallocMaxSize : KmallocMaxSize) (calls : List WriteCall) : Prop :=
  ∃ rets system rets' system' stored,
    run writeStep (aesdInitModule kmallocMaxSize) calls = some (rets, system) ∧
    run writeStep (aesdInitModule kmallocMaxSize) (successful calls rets) =
      some (rets', system') ∧
    system.observation = system'.observation ∧
    system.entriesBytes = some stored ∧
    stored.flatten <:+: supplied (successful calls rets)

theorem successful_cons_of_nonneg {ret : Int} (nonneg : 0 ≤ ret) (call : WriteCall)
    (calls : List WriteCall) (rets : List Int) :
    successful (call :: calls) (ret :: rets) = call :: successful calls rets := by
  simp [successful, nonneg]

theorem successful_cons_of_neg {ret : Int} (negative : ret < 0) (call : WriteCall)
    (calls : List WriteCall) (rets : List Int) :
    successful (call :: calls) (ret :: rets) = successful calls rets := by
  simp [successful, Int.not_le.mpr negative]

theorem successful_concat_of_neg {calls : List WriteCall} {rets : List Int}
    (answered : rets.length = calls.length) {ret : Int} (negative : ret < 0)
    (call : WriteCall) :
    successful (calls ++ [call]) (rets ++ [ret]) = successful calls rets := by
  simp [successful, List.zip_append answered.symm, Int.not_le.mpr negative]

/-- A device state shows its word. -/
theorem Represents.observation_eq {system system' : System} {history : List Byte}
    (represents : Represents system history) (represents' : Represents system' history)
    (samePositions : system.fPos = system'.fPos) :
    system.observation = system'.observation := by
  simp only [System.observation, represents.entriesBytes, represents'.entriesBytes,
    represents.pendingBytes, represents'.pendingBytes, represents.buffSize_eq,
    represents'.buffSize_eq, samePositions]

/-- States of one word under one limit grant the same calls. -/
theorem Represents.granted_iff {system system' : System} {history : List Byte}
    (represents : Represents system history) (represents' : Represents system' history)
    (sameLimit : system.heap.limit = system'.heap.limit) (call : WriteCall) :
    call.Granted system ↔ call.Granted system' := by
  simp only [WriteCall.Granted, ReachesBuffer, DataGranted, BufferGranted,
    represents.writeBufferSize_eq, represents'.writeBufferSize_eq, sameLimit]

/-- A run without a refused enlargement keeps step with its successful calls. -/
private theorem Represents.run_successful {source source' : System} {history : List Byte}
    (represents : Represents source history) (represents' : Represents source' history)
    (samePositions : source.fPos = source'.fPos)
    (sameLimit : source.heap.limit = source'.heap.limit) {calls : List WriteCall}
    (kept : Along writeStep (fun system call => ¬call.GrowthRefused system) source calls) :
    ∃ rets target rets' target', run writeStep source calls = some (rets, target) ∧
      run writeStep source' (successful calls rets) = some (rets', target') ∧
      target.fPos = target'.fPos ∧
      Represents target (history ++ supplied (successful calls rets)) ∧
      Represents target' (history ++ supplied (successful calls rets)) := by
  induction calls generalizing source source' history with
  | nil =>
      exact ⟨[], source, [], source', rfl, rfl, samePositions,
        by simpa [successful] using represents,
        by simpa [successful] using represents'⟩
  | cons call calls ih =>
      rcases represents.write call with ⟨ret, middle, first, effect⟩
      have later := kept.2 _ _ first
      cases effect with
      | loses refused => exact absurd refused kept.1
      | fails _ _ negative unmoved limit still =>
          rcases ih still represents' (unmoved.trans samePositions) (limit.trans sameLimit)
            later with ⟨rets, target, rets', target', remaining, without, positions, ends⟩
          refine ⟨ret :: rets, target, rets', target', ?_, ?_, positions, ?_⟩
          · exact (run_cons_eq_some_iff ..).mpr ⟨_, middle, _, first, remaining, rfl⟩
          · rw [successful_cons_of_neg negative]
            exact without
          · rw [successful_cons_of_neg negative]
            exact ends
      | consumes file granted filp advanced limit still =>
          have granted' := (represents.granted_iff represents' sameLimit call).mp granted
          rcases represents'.write_granted granted' with
            ⟨middle', first', advanced', limit', still'⟩
          have positions : middle.fPos = middle'.fPos := by
            rcases represents.write_granted granted with ⟨again, sameCall, moved, _⟩
            rw [first, Option.some.injEq, Prod.mk.injEq] at sameCall
            funext other
            rw [sameCall.2, moved, advanced', samePositions]
          rcases ih still still' positions ((limit.trans sameLimit).trans limit'.symm) later with
            ⟨rets, target, rets', target', remaining, without, ends⟩
          refine ⟨_, target, ((consumed call.data).length : Int) :: rets', target',
            (run_cons_eq_some_iff ..).mpr ⟨_, middle, _, first, remaining, rfl⟩, ?_⟩
          rw [successful_cons_of_nonneg (Int.natCast_nonneg _)]
          refine ⟨(run_cons_eq_some_iff ..).mpr ⟨_, middle', _, first', without, rfl⟩, ?_⟩
          rw [supplied_cons, ← List.append_assoc]
          exact ends

/-- A refused enlargement leaves a length without bytes. -/
private theorem WriteCall.GrowthRefused.pendingBytes_eq_none {system system' : System}
    {call : WriteCall} (refused : call.GrowthRefused system)
    (device : system'.device = { system.device with writeBuffer := .null }) :
    system'.pendingBytes = none := by
  have positive : system.device.writeBufferSize ≠ 0 := refused.2.2.2.1
  simp [System.pendingBytes, device, Heap.load, positive]

/-- The failed calls of a run leave no trace at any of its points exactly when
none of its calls is refused the enlargement of a line in progress. -/
theorem failures_leave_no_trace_iff (kmallocMaxSize : KmallocMaxSize) (calls : List WriteCall) :
    (∀ front, front <+: calls → FailuresLeaveNoTrace kmallocMaxSize front) ↔
      Along writeStep (fun system call => ¬call.GrowthRefused system)
        (aesdInitModule kmallocMaxSize) calls := by
  have initial := represents_init kmallocMaxSize
  constructor
  · intro noTrace
    induction calls using List.reverseRecOn with
    | nil => exact along_nil ..
    | append_singleton calls call ih =>
        have along := ih fun front isPrefix =>
          noTrace front (isPrefix.trans (List.prefix_append ..))
        rcases initial.run_successful initial rfl rfl along with
          ⟨rets, middle, _, _, before, _, _, represents, _⟩
        refine (along_concat_iff before call).mpr ⟨along, fun refused => ?_⟩
        rcases noTrace _ List.prefix_rfl with
          ⟨rets', system, without, system', _, execution, execution', same, _⟩
        rcases represents.write call with ⟨ret, target, last, effect⟩
        cases effect with
        | consumes _ granted => exact refused.2.2.2.2 granted.2.2.2
        | fails _ kept => exact kept refused
        | loses _ _ _ device =>
            have whole := (run_concat_eq_some_iff ..).mpr ⟨middle, rets, _, before, last, rfl⟩
            rw [execution, Option.some.injEq, Prod.mk.injEq] at whole
            rcases whole with ⟨rfl, rfl⟩
            -- the other run stops before the refused call, where every line is intact
            rw [successful_concat_of_neg (length_of_run before) (by decide)] at execution'
            rcases initial.run_successful initial rfl rfl along with
              ⟨rets₂, _, _, intact, before₂, without₂, _, _, represents'⟩
            rw [before, Option.some.injEq, Prod.mk.injEq] at before₂
            rw [← before₂.1, execution', Option.some.injEq, Prod.mk.injEq] at without₂
            have pending := congrArg Observation.pending same
            rw [System.observation, System.observation, without₂.2,
              refused.pendingBytes_eq_none device, represents'.pendingBytes] at pending
            contradiction
  · intro kept front isPrefix
    rcases isPrefix with ⟨back, rfl⟩
    have along := ((along_append_iff ..).mp kept).1
    rcases initial.run_successful initial rfl rfl along with
      ⟨rets, target, rets', target', execution, without, positions, represents, represents'⟩
    refine ⟨rets, target, rets', target', _, execution, without,
      represents.observation_eq represents' positions, represents.entriesBytes, ?_⟩
    exact ⟨_, _, LineStore.evicted_append_content_append_remainder _⟩

/-- After `"ab"` an enlargement for `"cd"` is refused, and then `"e\n"` is
written: the stored line starts with two bytes that nobody wrote. -/
theorem refused_growth_leaves_trace :
    ¬FailuresLeaveNoTrace ⟨64, by decide⟩
      [⟨.success, some 0, some [97, 98]⟩,
        ⟨{ WriteOutcome.success with writeBuffer := ⟨false, false, fun _ => 0⟩ }, some 0,
          some [99, 100]⟩,
        ⟨.success, some 0, some [101, 10]⟩] := by
  rintro ⟨rets, system, rets', system', stored, execution, without, same, _⟩
  cases execution
  cases without
  have stored := congrArg Observation.entries same
  exact absurd stored (by decide)

end Aesd.Driver
