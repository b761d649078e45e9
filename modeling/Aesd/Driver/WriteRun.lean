import Aesd.Driver.WriteSpec
import Aesd.Transition.Run

/-!
# Runs of writes

A run of writes whose services all succeed refines the store of the last ten
lines: each call supplies its data up to the first newline, and the device shows
the word supplied so far.  A caller that re-issues what a short return left over
therefore ends, and the way it cut its data does not matter.
-/

namespace Aesd.Driver

open Aesd.Memory Aesd.Transition Aesd.Word

/-- Writes as events; the output is the return value. -/
def writeStep : Machine System WriteCall Int :=
  fun system call => call.run system

/-- The word that calls supply to the device. -/
def supplied (calls : List WriteCall) : List Byte :=
  calls.flatMap fun call => consumed call.data

/-- How far calls move the position of one file. -/
def advance (file : FileId) (calls : List WriteCall) : Nat :=
  ((calls.filter fun call => call.filp = some file).map fun call =>
    (consumed call.data).length).sum

@[simp]
theorem supplied_nil : supplied [] = [] :=
  rfl

@[simp]
theorem supplied_cons (call : WriteCall) (calls : List WriteCall) :
    supplied (call :: calls) = consumed call.data ++ supplied calls :=
  rfl

@[simp]
theorem advance_nil (file : FileId) : advance file [] = 0 :=
  rfl

theorem advance_cons (file : FileId) (call : WriteCall) (calls : List WriteCall) :
    advance file (call :: calls) =
      (if call.filp = some file then (consumed call.data).length else 0) +
        advance file calls := by
  by_cases same : call.filp = some file
  · simp [advance, same]
  · simp [advance, same]

/-- A granted write consumes its data. -/
theorem Represents.write_granted {system : System} {history : List Byte}
    (represents : Represents system history) {call : WriteCall} (granted : call.Granted system) :
    ∃ system', call.run system = some (((consumed call.data).length : Int), system') ∧
      (∀ file, system'.fPos file = system.fPos file +
        if call.filp = some file then (consumed call.data).length else 0) ∧
      system'.heap.limit = system.heap.limit ∧
      Represents system' (history ++ consumed call.data) := by
  rcases represents.write call with ⟨ret, system', result, effect⟩
  cases effect with
  | consumes file _ filp advanced limit represents' =>
      refine ⟨system', result, ?_, limit, represents'⟩
      intro other
      rw [advanced, filp]
      by_cases same : other = file
      · rw [same, Function.update_self, if_pos rfl]
      · have different : ¬some file = some other := fun eq => same (Option.some.inj eq).symm
        rw [Function.update_of_ne same, if_neg different]
        simp
  | fails notGranted => exact absurd granted notGranted
  | loses refused => exact absurd granted.2.2.2 refused.2.2.2.2

/-- A write is granted while its data and the line in progress fit the allocator. -/
theorem Represents.granted_of_fits {system : System} {history data : List Byte}
    (represents : Represents system history) (file : FileId)
    (roomForData : data.length ≤ system.heap.limit)
    (roomForLine : (pendingLine history).length + (consumed data).length ≤ system.heap.limit) :
    WriteCall.Granted system ⟨.success, some file, some data⟩ := by
  refine ⟨rfl, rfl, ⟨Or.inr ⟨rfl, roomForData⟩, rfl, rfl⟩, ?_⟩
  unfold BufferGranted
  split
  · exact Or.inr ⟨rfl, roomForData⟩
  · constructor
    · exact rfl
    · rw [appendIndex_eq, represents.writeBufferSize_eq, Nat.add_comm]
      exact roomForLine

/-- So it is while everything ever accepted fits. -/
theorem Represents.granted_of_room {system : System} {history data : List Byte}
    (represents : Represents system history) (file : FileId)
    (roomForData : data.length ≤ system.heap.limit)
    (roomForLine : history.length + (consumed data).length ≤ system.heap.limit) :
    WriteCall.Granted system ⟨.success, some file, some data⟩ := by
  apply represents.granted_of_fits file roomForData
  have whole : ((committedLines history).flatten ++ pendingLine history).length =
      history.length := congrArg List.length (flatten_lines_append_remainder history)
  rw [List.length_append] at whole
  omega

/-- Granted calls succeed, and their data accumulates. -/
theorem Represents.run_granted {source : System} {history : List Byte}
    (represents : Represents source history) {calls : List WriteCall}
    (granted : Along writeStep WriteCall.Granted source calls) :
    ∃ target, run writeStep source calls =
        some (calls.map fun call => ((consumed call.data).length : Int), target) ∧
      (∀ file, target.fPos file = source.fPos file + advance file calls) ∧
      target.heap.limit = source.heap.limit ∧
      Represents target (history ++ supplied calls) := by
  induction calls generalizing source history with
  | nil => exact ⟨source, rfl, by simp, rfl, by simpa using represents⟩
  | cons call calls ih =>
      rcases represents.write_granted granted.1 with
        ⟨middle, first, moved, limit, represents'⟩
      rcases ih represents' (granted.2 _ _ first) with
        ⟨target, remaining, advanced, limit', represents''⟩
      refine ⟨target, ?_, ?_, limit'.trans limit, by simpa using represents''⟩
      · exact (run_cons_eq_some_iff ..).mpr ⟨_, middle, _, first, remaining, rfl⟩
      · intro file
        rw [advanced, moved, advance_cons]
        push_cast
        exact Int.add_assoc ..

/-! ## Re-issuing what a short return left over -/

/-- One call of a caller with pieces to write: a piece that was not consumed
whole is replaced by its unconsumed suffix. -/
def reissueStep (file : FileId) : Machine (List (List Byte) × System) WriteOutcome Int
  | ([], _), _ => none
  | (piece :: pieces, system), outcome =>
      (aesdWrite outcome (some file) (some piece) system).map fun (ret, system') =>
        (ret, if ret = piece.length then pieces else piece.drop ret.toNat :: pieces, system')

/-- Every service of the next call succeeds. -/
def ReissueGranted (file : FileId) : List (List Byte) × System → WriteOutcome → Prop
  | ([], _), _ => True
  | (piece :: _, system), outcome => WriteCall.Granted system ⟨outcome, some file, some piece⟩

instance (file : FileId) : ∀ state outcome, Decidable (ReissueGranted file state outcome)
  | ([], _), _ => isTrue trivial
  | (_ :: _, _), _ => inferInstanceAs (Decidable (WriteCall.Granted _ _))

/-- A caller needs at most one call for each byte and one for each piece. -/
def reissueBound (pieces : List (List Byte)) : Nat :=
  pieces.flatten.length + pieces.length

/-- One call brings the caller closer to its end, without changing the word it
is about to supply. -/
private theorem Represents.reissue_step {system : System} {history : List Byte}
    (represents : Represents system history) {file : FileId} {piece : List Byte}
    {pieces : List (List Byte)} {outcome : WriteOutcome}
    (granted : ReissueGranted file (piece :: pieces, system) outcome) :
    ∃ ret left system', reissueStep file (piece :: pieces, system) outcome =
        some (ret, left, system') ∧
      reissueBound left < reissueBound (piece :: pieces) ∧
      ∃ history', Represents system' history' ∧
        history' ++ left.flatten = history ++ (piece :: pieces).flatten := by
  rcases represents.write_granted granted with ⟨system', result, _, _, represents'⟩
  have called : aesdWrite outcome (some file) (some piece) system =
      some (((consumed piece).length : Int), system') := result
  have atMost : (consumed piece).length ≤ piece.length := length_firstLine_le piece
  have isPrefix : consumed piece <+: piece := firstLine_isPrefix piece
  by_cases whole : (consumed piece).length = piece.length
  · have same : consumed piece = piece := isPrefix.eq_of_length whole
    refine ⟨((consumed piece).length : Int), pieces, system', ?_, ?_, history ++ piece, ?_, ?_⟩
    · simp [reissueStep, called, whole]
    · simp only [reissueBound, List.flatten_cons, List.length_append, List.length_cons]
      omega
    · rw [← same]
      exact represents'
    · simp
  · have short : (consumed piece).length < piece.length := Nat.lt_of_le_of_ne atMost whole
    have some' : piece ≠ [] := List.ne_nil_of_length_pos (Nat.zero_lt_of_lt short)
    have progress : 0 < (consumed piece).length := length_firstLine_pos some'
    have notWhole : ((consumed piece).length : Int) ≠ piece.length := by exact_mod_cast whole
    refine ⟨((consumed piece).length : Int), piece.drop (consumed piece).length :: pieces,
      system', ?_, ?_, history ++ consumed piece, represents', ?_⟩
    · simp [reissueStep, called, notWhole]
    · simp only [reissueBound, List.flatten_cons, List.length_append, List.length_cons,
        List.length_drop]
      omega
    · rcases isPrefix with ⟨rest, split⟩
      have suffix : piece.drop (consumed piece).length = rest :=
        (congrArg (List.drop _) split.symm).trans List.drop_left
      rw [suffix, List.flatten_cons, List.flatten_cons, List.append_assoc,
        ← List.append_assoc _ rest, split]

/-- With every call granted the caller ends within its bound, having supplied
its pieces. -/
theorem Represents.reissue {system : System} {history : List Byte}
    (represents : Represents system history) {file : FileId} {pieces : List (List Byte)}
    {outcomes : List WriteOutcome}
    (granted : Along (reissueStep file) (ReissueGranted file) (pieces, system) outcomes)
    (enough : reissueBound pieces ≤ outcomes.length) :
    ∃ used unused rets final, outcomes = used ++ unused ∧
      run (reissueStep file) (pieces, system) used = some (rets, [], final) ∧
      Represents final (history ++ pieces.flatten) := by
  -- the word written so far and the pieces to come add up to one word
  let invariant (state : List (List Byte) × System) : Prop :=
    ∃ word, Represents state.2 word ∧ word ++ state.1.flatten = history ++ pieces.flatten
  have finished : ∀ state : List (List Byte) × System,
      invariant state → reissueBound state.1 = 0 → state.1 = [] := by
    intro state _ zero
    exact List.eq_nil_of_length_eq_zero (Nat.eq_zero_of_add_eq_zero zero).2
  have progress : ∀ state outcome, invariant state → ¬state.1 = [] →
      ReissueGranted file state outcome →
      ∃ ret target, reissueStep file state outcome = some (ret, target) ∧ invariant target ∧
        reissueBound target.1 < reissueBound state.1 := by
    rintro ⟨left, middle⟩ outcome ⟨word, represents', sameWord⟩ unfinished granted'
    cases left with
    | nil => exact absurd rfl unfinished
    | cons piece left =>
        rcases represents'.reissue_step granted' with
          ⟨ret, left', middle', step, closer, word', represents'', sameWord'⟩
        exact ⟨ret, (left', middle'), step, ⟨word', represents'', sameWord'.trans sameWord⟩, closer⟩
  rcases reaches_of_rank invariant _ _ finished progress ⟨history, represents, rfl⟩ granted enough
    with ⟨used, unused, rets, ⟨left, final⟩, split, execution, ⟨word, represents', sameWord⟩, rfl⟩
  rw [List.flatten_nil, List.append_nil] at sameWord
  exact ⟨used, unused, rets, final, split, execution, sameWord ▸ represents'⟩

/-! ## Refinement of the line store -/

/-- Granted writes return what they consume, and the device shows the last ten
lines and the incomplete line of the word they supply.  A caller that then
writes pieces, re-issuing unconsumed suffixes, ends with the lines of its data
whatever the pieces are. -/
theorem granted_writes_refine_line_store (kmallocMaxSize : KmallocMaxSize)
    (calls : List WriteCall)
    (granted : Along writeStep WriteCall.Granted (aesdInitModule kmallocMaxSize) calls) :
    ∃ system, run writeStep (aesdInitModule kmallocMaxSize) calls =
        some (calls.map fun call => ((consumed call.data).length : Int), system) ∧
      (∀ file, system.fPos file = advance file calls) ∧
      system.entriesBytes = some (storedLines (supplied calls)) ∧
      system.pendingBytes = some (pendingLine (supplied calls)) ∧
      (system.device.buffer.full = true ↔
        aesdcharMaxWriteOperationsSupported ≤ (supplied calls).count newline) ∧
      ∀ (file : FileId) (pieces : List (List Byte)) (outcomes : List WriteOutcome),
        Along (reissueStep file) (ReissueGranted file) (pieces, system) outcomes →
        reissueBound pieces ≤ outcomes.length →
        ∃ used unused rets final, outcomes = used ++ unused ∧
          run (reissueStep file) (pieces, system) used = some (rets, [], final) ∧
          final.entriesBytes = some (storedLines (supplied calls ++ pieces.flatten)) ∧
          final.pendingBytes = some (pendingLine (supplied calls ++ pieces.flatten)) := by
  rcases (represents_init kmallocMaxSize).run_granted granted with
    ⟨system, execution, advanced, _, represents⟩
  rw [List.nil_append] at represents
  refine ⟨system, execution, ?_, represents.entriesBytes, represents.pendingBytes,
    represents.full_iff, ?_⟩
  · intro file
    rw [advanced]
    exact Int.zero_add _
  · intro file pieces outcomes along enough
    rcases represents.reissue along enough with
      ⟨used, unused, rets, final, split, remaining, represents'⟩
    exact ⟨used, unused, rets, final, split, remaining, represents'.entriesBytes,
      represents'.pendingBytes⟩

/-- Two files share the line `"ab\n"`; the second call returns short, and a
caller that goes on with `"c\nd"` needs a second call for the rest. -/
theorem granted_writes_refine_line_store_shared :
    ∃ system used unused rets final,
      run writeStep (aesdInitModule ⟨64, by decide⟩)
        [⟨.success, some 0, some [97]⟩, ⟨.success, some 1, some [98, 10, 99]⟩] =
          some ([1, 2], system) ∧
      List.replicate 4 WriteOutcome.success = used ++ unused ∧
      run (reissueStep 1) ([[99, 10, 100]], system) used = some (rets, [], final) ∧
      final.entriesBytes = some [[97, 98, 10], [99, 10]] ∧ final.pendingBytes = some [100] := by
  rcases granted_writes_refine_line_store ⟨64, by decide⟩
      [⟨.success, some 0, some [97]⟩, ⟨.success, some 1, some [98, 10, 99]⟩] (by decide) with
    ⟨system, execution, _, _, _, _, reissue⟩
  have along : Along (reissueStep 1) (ReissueGranted 1) ([[99, 10, 100]], system)
      (List.replicate 4 WriteOutcome.success) := by
    cases execution
    decide
  rcases reissue 1 [[99, 10, 100]] (List.replicate 4 .success) along (by decide) with
    ⟨used, unused, rets, final, split, rest, entries, pending⟩
  exact ⟨system, used, unused, rets, final, execution, split, rest, entries, pending⟩

end Aesd.Driver
