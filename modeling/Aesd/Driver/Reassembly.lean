import Aesd.Driver.Operation

/-!
# Reads reassemble the content

Every call of `read` delivers a stretch of one stored line, or fails without a
trace.  Together the reads of one file deliver the content from where they
started to where they have come, while other files commit lines and nothing is
evicted.
-/

namespace Aesd.Driver

open Aesd.Memory Aesd.Transition Aesd.Word

/-- What a successful read may deliver of stored lines: a stretch of their
concatenation that ends with the line it starts in. -/
def Delivers (lines : List (List Byte)) (position count : Nat) (bytes : List Byte) : Prop :=
  bytes = (lines.flatten.drop position).take bytes.length ∧
    (bytes.length = 0 ↔ count = 0 ∨ lines.flatten.length ≤ position) ∧
    (position < lines.flatten.length → ∃ (index offset : Nat) (line : List Byte),
      lines[index]? = some line ∧ offset < line.length ∧
      ((lines.take index).map List.length).sum + offset = position ∧
      bytes.length = min count (line.length - offset))

/-- A window with room keeps its lines when one is added. -/
theorem lastLines_concat_of_room {committed : List (List Byte)}
    (room : (lastLines committed).length < aesdcharMaxWriteOperationsSupported)
    (line : List Byte) : lastLines (committed ++ [line]) = lastLines committed ++ [line] := by
  rw [lastLines, List.rtake, List.length_drop] at room
  have few : committed.length < aesdcharMaxWriteOperationsSupported := by omega
  rw [lastLines, lastLines, List.rtake, List.rtake, List.length_append, List.length_singleton,
    Nat.sub_eq_zero_of_le few, Nat.sub_eq_zero_of_le (Nat.le_of_lt few)]
  rfl

/-- The error returns of a read. -/
theorem aesdRead_of_neg {outcome : ReadOutcome} {filp : Option FileId} {buf : Bool} {count : Nat}
    {system system' : System} {ret : Int} {bytes : List Byte}
    (call : aesdRead outcome filp buf count system = some (ret, bytes, system'))
    (negative : ret < 0) : bytes = [] ∧ system' = system := by
  simp only [aesdRead] at call
  split at call
  · split at call
    · split at call
      · cases call
        exact ⟨rfl, rfl⟩
      · split at call
        · cases call
          exact ⟨rfl, rfl⟩
        · simp only [Option.map_eq_some_iff, Prod.mk.injEq] at call
          rcases call with ⟨_, _, rfl, _⟩
          omega
    · cases call
      exact ⟨rfl, rfl⟩
  · cases call
    exact ⟨rfl, rfl⟩

/-- A read without a file or without a buffer fails. -/
theorem aesdRead_arguments {outcome : ReadOutcome} {filp : Option FileId} {buf : Bool} {count : Nat}
    {system system' : System} {ret : Int} {bytes : List Byte}
    (call : aesdRead outcome filp buf count system = some (ret, bytes, system'))
    (nonneg : 0 ≤ ret) : buf = true ∧ ∃ file, filp = some file := by
  cases filp with
  | none =>
      cases call
      exact absurd nonneg (by decide)
  | some file =>
      cases buf with
      | false =>
          cases call
          exact absurd nonneg (by decide)
      | true => exact ⟨rfl, file, rfl⟩

section

variable {system : System} {committed : List (List Byte)} {pending : List Byte}

/-- A read whose services succeed, line by line. -/
theorem Carries.read_delivers (carries : Carries system committed pending) (file : FileId)
    (count : Nat) :
    ∃ bytes, aesdRead .success (some file) true count system =
        some ((bytes.length : Int), bytes, system.advanced file bytes.length) ∧
      Delivers (lastLines committed) (toSize (system.fPos file)) count bytes := by
  rcases carries.read file count with ⟨bytes, result, isPrefix, _, empty_iff⟩
  refine ⟨bytes, result, List.prefix_iff_eq_take.mp isPrefix, ?_, ?_⟩
  · rw [List.length_eq_zero_iff]
    exact empty_iff
  · intro before
    rcases carries.find_cases (toSize_lt (system.fPos file)) with
      ⟨_, beyond⟩ | ⟨index, offset, line, _, present, inside, position, _⟩
    · exact absurd before (Nat.not_lt_of_le beyond)
    · refine ⟨index, offset, line, present, inside, position.symm, ?_⟩
      have same := result.symm.trans (carries.read_line count present inside position)
      simp only [Option.some.injEq, Prod.mk.injEq] at same
      rw [same.2.1, List.length_take, List.length_drop]

/-- Every read delivers, or fails without a trace. -/
theorem Carries.read_cases (carries : Carries system committed pending) (outcome : ReadOutcome)
    (filp : Option FileId) (buf : Bool) (count : Nat) :
    ∃ ret bytes system', aesdRead outcome filp buf count system = some (ret, bytes, system') ∧
      (ret < 0 ∧ bytes = [] ∧ system' = system ∨
        ∃ file, filp = some file ∧ buf = true ∧ ret = bytes.length ∧
          system' = system.advanced file bytes.length ∧
          Delivers (lastLines committed) (toSize (system.fPos file)) count bytes) := by
  rcases carries.read_returns outcome filp buf count with ⟨ret, bytes, fPos, result⟩
  refine ⟨ret, bytes, _, result, ?_⟩
  rcases Int.lt_or_le ret 0 with negative | nonneg
  · exact Or.inl ⟨negative, aesdRead_of_neg result negative⟩
  · right
    rcases aesdRead_arguments result nonneg with ⟨rfl, file, rfl⟩
    have succeeds := aesdRead_of_nonneg result nonneg
    rcases carries.read_delivers file count with ⟨bytes', result', delivers⟩
    cases succeeds.symm.trans result'
    exact ⟨file, rfl, rfl, rfl, rfl, delivers⟩

end

/-! ## A reader among writers -/

/-- The call commits a line into a full buffer. -/
def WriteCall.Evicts (system : System) (call : WriteCall) : Prop :=
  system.device.buffer.full = true ∧ call.Granted system ∧ newline ∈ call.data

namespace Operation

/-- Only reads move the position of the file, and no stored line is evicted. -/
def LeavesTo (file : FileId) (system : System) : Operation → Prop
  | openFile other => other ≠ file
  | read .. => True
  | write call => call.filp ≠ some file ∧ ¬call.Evicts system
  | llseek _ other _ _ => other ≠ file
  | ioctl _ other _ _ => other ≠ file

/-- What a call delivers through a file. -/
def delivers (file : FileId) (system : System) : Operation → List Byte
  | read outcome filp buf count =>
      if filp = some file then
        ((aesdRead outcome filp buf count system).map fun result => result.2.1).getD []
      else
        []
  | _ => []

end Operation

/-- What the calls of a run deliver through a file. -/
def delivered (file : FileId) (system : System) (operations : List Operation) : List Byte :=
  observe operationStep (fun system operation _ _ => operation.delivers file system) system
    operations

/-- A file has been read from `start`, and what it has been delivered is the stretch
of the content up to its position. -/
def HasRead (file : FileId) (start : Nat) (bytes : List Byte) (system : System) : Prop :=
  ∃ committed pending, Carries system committed pending ∧
    toSize (system.fPos file) = start + bytes.length ∧
    bytes <+: (lastContent committed).drop start

section

variable {system system' : System} {committed : List (List Byte)} {pending bytes : List Byte}
  {file : FileId} {start : Nat}

/-- A read adds what it delivers. -/
private theorem Carries.hasRead_read (carries : Carries system committed pending)
    (position : toSize (system.fPos file) = start + bytes.length)
    (inside : bytes <+: (lastContent committed).drop start) {count : Nat} {more : List Byte}
    (delivers : Delivers (lastLines committed) (toSize (system.fPos file)) count more) :
    HasRead file start (bytes ++ more) (system.advanced file more.length) := by
  have next : more <+: (lastContent committed).drop (start + bytes.length) := by
    rw [← position]
    exact List.prefix_iff_eq_take.mpr delivers.1
  refine ⟨committed, pending, carries.advanced file more.length, ?_,
    append_isPrefix_drop inside next⟩
  rw [System.advanced_fPos, List.length_append, ← Nat.add_assoc, ← position]
  apply toSize_add
  by_cases none : more.length = 0
  · rw [none]
    exact toSize_lt _
  · have bound := carries.length_content_lt
    have short := next.length_le
    rw [List.length_drop] at short
    omega

/-- A write to another file that evicts nothing only extends the content. -/
private theorem Carries.hasRead_write (carries : Carries system committed pending)
    (position : toSize (system.fPos file) = start + bytes.length)
    (inside : bytes <+: (lastContent committed).drop start) {call : WriteCall} {ret : Int}
    (other : call.filp ≠ some file) (keeps : ¬call.Evicts system)
    (result : WriteResult system committed pending call ret system') :
    HasRead file start bytes system' := by
  have unmoved : toSize (system'.fPos file) = start + bytes.length := by
    rw [result.fPos_of_ne other]
    exact position
  cases result with
  | fails notGranted notRefused negative unmoved' limit kept carries' =>
      exact ⟨committed, pending, carries', unmoved, inside⟩
  | loses refused unmoved' limit device carries' =>
      exact ⟨committed, pending, carries', unmoved, inside⟩
  | consumes writer pending' granted filp advanced limit kept length same carries' =>
      by_cases present : newline ∈ call.data
      · rw [appendData, if_pos present] at carries'
        have room : system.device.buffer.full ≠ true := fun full =>
          keeps ⟨full, granted, present⟩
        have few : (lastLines committed).length < 10 := by
          have atMost := carries.wellFormed.length_entries_le
          have notTen := mt carries.wellFormed.full_iff.mpr room
          rw [carries.length_entries] at atMost notTen
          exact Nat.lt_of_le_of_ne atMost notTen
        refine ⟨_, _, carries', unmoved, ?_⟩
        rw [lastContent, lastLines_concat_of_room few, List.flatten_append]
        exact isPrefix_drop_append inside _
      · rw [appendData, if_neg present] at carries'
        exact ⟨_, _, carries', unmoved, inside⟩

/-- Every permitted call keeps what has been delivered a stretch of the content. -/
theorem HasRead.step (hasRead : HasRead file start bytes system) {operation : Operation}
    (leaves : operation.LeavesTo file system) {ret : Int}
    (step : operationStep system operation = some (ret, system')) :
    HasRead file start (bytes ++ operation.delivers file system) system' := by
  rcases hasRead with ⟨committed, pending, carries, position, inside⟩
  -- a call of another file moves at most its own position
  have quiet {fPos : FileId → Int} (same : fPos file = system.fPos file) :
      HasRead file start (bytes ++ []) { system with fPos := fPos } := by
    rw [List.append_nil]
    exact ⟨committed, pending, carries.congr_fPos fPos, (congrArg toSize same).trans position,
      inside⟩
  cases operation with
  | openFile other =>
      cases step
      exact quiet (Function.update_of_ne (Ne.symm leaves) ..)
  | llseek lock other offset whence =>
      rcases aesdLlseek_eq lock other offset whence system with ⟨ret', fPos, result⟩
      have moved := aesdLlseek_fPos lock offset whence system (Ne.symm leaves)
      simp only [operationStep, result, Option.some.injEq, Prod.mk.injEq] at step
      rw [result] at moved
      rw [← step.2]
      exact quiet moved
  | ioctl outcome other cmd arg =>
      rcases aesdIoctl_eq outcome other cmd arg system with ⟨ret', fPos, result⟩
      have moved : (aesdIoctl outcome other cmd arg system).2.fPos file = system.fPos file :=
        aesdIoctl_fPos outcome cmd arg (Ne.symm leaves)
      simp only [operationStep, result, Option.some.injEq, Prod.mk.injEq] at step
      rw [result] at moved
      rw [← step.2]
      exact quiet moved
  | write call =>
      rcases carries.write call with ⟨ret', system'', result, effect⟩
      simp only [operationStep, result, Option.some.injEq, Prod.mk.injEq] at step
      show HasRead file start (bytes ++ []) system'
      rw [← step.2, List.append_nil]
      exact carries.hasRead_write position inside leaves.1 leaves.2 effect
  | read outcome filp buf count =>
      rcases carries.read_cases outcome filp buf count with ⟨ret', more, system'', result, read⟩
      simp only [operationStep, result, Option.map_some, Option.some.injEq, Prod.mk.injEq] at step
      simp only [Operation.delivers, result, Option.map_some, Option.getD_some]
      rw [← step.2]
      rcases read with ⟨_, rfl, rfl⟩ | ⟨reader, rfl, _, _, rfl, delivers⟩
      · rw [ite_self]
        exact quiet rfl
      · by_cases own : reader = file
        · rw [own] at delivers ⊢
          rw [if_pos rfl]
          exact carries.hasRead_read position inside delivers
        · have different : ¬some reader = some file := fun eq => own (Option.some.inj eq)
          rw [if_neg different]
          exact quiet (Function.update_of_ne (Ne.symm own) ..)

theorem HasRead.run (hasRead : HasRead file start bytes system) {operations : List Operation}
    (leaves : Along operationStep (Operation.LeavesTo file) system operations)
    {rets : List Int} {target : System}
    (execution : run operationStep system operations = some (rets, target)) :
    HasRead file start (bytes ++ delivered file system operations) target := by
  refine along_induction (motive := fun operations _ target =>
    HasRead file start (bytes ++ delivered file system operations) target) ?_ ?_ leaves execution
  · simpa [delivered] using hasRead
  · intro operations rets middle operation ret target first hypothesis meets last
    rw [delivered, observe_concat _ first last, ← List.append_assoc]
    exact hypothesis.step meets last

/-- A read that wants bytes and delivers none has come to the end of the content. -/
theorem HasRead.complete (hasRead : HasRead file start bytes system) {outcome : ReadOutcome}
    {count : Nat} (positive : 0 < count)
    (step : operationStep system (.read outcome (some file) true count) = some (0, system')) :
    (Operation.read outcome (some file) true count).delivers file system = [] ∧
      ∃ lines, system'.entriesBytes = some lines ∧ bytes = lines.flatten.drop start := by
  rcases hasRead with ⟨committed, pending, carries, position, inside⟩
  rcases carries.read_cases outcome (some file) true count with
    ⟨ret, more, system'', result, read⟩
  simp only [operationStep, result, Option.map_some, Option.some.injEq, Prod.mk.injEq] at step
  rcases step with ⟨rfl, rfl⟩
  rcases read with ⟨negative, _⟩ | ⟨reader, same, _, length, rfl, _, none_iff, _⟩
  · exact absurd negative (Int.lt_irrefl 0)
  · cases same
    have none : more.length = 0 := Int.natCast_eq_zero.mp length.symm
    have beyond := (none_iff.mp none).resolve_left (Nat.ne_of_gt positive)
    rw [none, System.advanced_zero]
    refine ⟨?_, lastLines committed, carries.entriesBytes, ?_⟩
    · simp only [Operation.delivers, result, Option.map_some, Option.getD_some, if_true]
      exact List.length_eq_zero_iff.mp none
    · apply inside.eq_of_length_le
      show ((lastLines committed).flatten.drop start).length ≤ bytes.length
      rw [List.length_drop]
      omega

end

/-- In every reachable device state, and for every file position and count, a read
delivers as much as is wanted of the line its position is in, moves the position by
what it has delivered, and leaves everything as it was when it fails; it does not fail
when the services it calls succeed.  Whatever
else happens between them, short of evicting a line or moving the position, the
reads of a file up to one that delivers nothing have therefore delivered the
content as it is then, from where they started. -/
theorem reads_reassemble_content (kmallocMaxSize : KmallocMaxSize) (before : List Operation) :
    ∃ rets system lines,
      run operationStep (aesdInitModule kmallocMaxSize) before = some (rets, system) ∧
      system.entriesBytes = some lines ∧
      (∀ fPos outcome filp buf count, ∃ ret bytes system',
        aesdRead outcome filp buf count { system with fPos := fPos } =
          some (ret, bytes, system') ∧
        (ret < 0 ∧ bytes = [] ∧ system' = { system with fPos := fPos } ∨
          ∃ file, filp = some file ∧ buf = true ∧ ret = bytes.length ∧
            system' = System.advanced { system with fPos := fPos } file bytes.length ∧
            ∀ position : Nat, fPos file = position → position < 2 ^ 63 →
              Delivers lines position count bytes) ∧
        (outcome = .success → filp ≠ none → buf = true → 0 ≤ ret)) ∧
      ∀ (fPos : FileId → Int) file (start : Nat), fPos file = start → start ≤ lines.flatten.length →
        ∀ operations outcome count rets' target, 0 < count →
          Along operationStep (Operation.LeavesTo file) { system with fPos := fPos } operations →
          run operationStep { system with fPos := fPos }
            (operations ++ [.read outcome (some file) true count]) = some (rets' ++ [0], target) →
          ∃ lines', target.entriesBytes = some lines' ∧
            delivered file { system with fPos := fPos }
              (operations ++ [.read outcome (some file) true count]) =
                lines'.flatten.drop start := by
  rcases (carries_init kmallocMaxSize).run_operations before with
    ⟨rets, system, pending, execution, carries⟩
  refine ⟨rets, system, _, execution, carries.entriesBytes, ?_, ?_⟩
  · intro fPos outcome filp buf count
    rcases (carries.congr_fPos fPos).read_cases outcome filp buf count with
      ⟨ret, bytes, system', result, failed | ⟨file, isFile, isBuffer, length, moved, delivers⟩⟩
    · refine ⟨ret, bytes, system', result, Or.inl failed, ?_⟩
      rintro rfl isFile rfl
      rcases Option.ne_none_iff_exists'.mp isFile with ⟨file, rfl⟩
      rcases (carries.congr_fPos fPos).read_delivers file count with ⟨_, delivered, _⟩
      cases result.symm.trans delivered
      exact Int.natCast_nonneg _
    · refine ⟨ret, bytes, system', result, Or.inr ⟨file, isFile, isBuffer, length, moved, ?_⟩,
        fun _ _ _ => length ▸ Int.natCast_nonneg _⟩
      intro position same small
      have converted : toSize (fPos file) = position := by
        rw [same]
        exact toSize_natCast (Nat.lt_trans small (by decide))
      rwa [← converted]
  · intro fPos file start same within operations outcome count rets' target positive leaves
      execution'
    rcases (run_concat_eq_some_iff ..).mp execution' with ⟨middle, front, ret, first, last, split⟩
    rw [← (List.append_singleton_inj.mp split).2] at last
    have converted : toSize (fPos file) = start := by
      rw [same]
      exact toSize_natCast (Nat.lt_of_le_of_lt within
        (Nat.lt_trans carries.length_content_lt (by decide)))
    have started : HasRead file start [] { system with fPos := fPos } :=
      ⟨_, pending, carries.congr_fPos fPos, converted, List.nil_prefix⟩
    rcases (started.run leaves first).complete positive last with ⟨nothing, lines', now, whole⟩
    refine ⟨lines', now, ?_⟩
    rw [delivered, observe_concat _ first last, nothing, List.append_nil, ← whole]
    rfl

/-- `"a\n"` and `"b\n"` are written through one file. -/
def twoLines : List Operation :=
  [.write ⟨.success, some 0, some [97, newline]⟩, .write ⟨.success, some 0, some [98, newline]⟩]

/-- Another file reads from the start until a read returns 0. -/
theorem reads_reassemble_content_twoLines :
    ∃ rets system target lines,
      run operationStep (aesdInitModule ⟨64, by decide⟩) twoLines = some (rets, system) ∧
      run operationStep { system with fPos := fun _ => 0 }
        (List.replicate 2 (.read .success (some 1) true 10) ++
          [.read .success (some 1) true 10]) = some ([2, 2] ++ [0], target) ∧
      target.entriesBytes = some lines ∧
      delivered 1 { system with fPos := fun _ => 0 }
        (List.replicate 2 (.read .success (some 1) true 10) ++
          [.read .success (some 1) true 10]) = lines.flatten := by
  rcases reads_reassemble_content ⟨64, by decide⟩ twoLines with
    ⟨rets, system, stored, execution, entries, _, reassembles⟩
  have ran : ((run operationStep (aesdInitModule ⟨64, by decide⟩) twoLines).bind fun result =>
      (run operationStep { result.2 with fPos := fun _ => 0 }
        (List.replicate 2 (.read .success (some 1) true 10) ++
          [.read .success (some 1) true 10])).map Prod.fst) = some ([2, 2] ++ [0]) := by
    decide +kernel
  rw [execution, Option.bind_some] at ran
  rcases Option.map_eq_some_iff.mp ran with ⟨⟨_, target⟩, reads, rfl⟩
  have leaves : Along operationStep (Operation.LeavesTo 1) { system with fPos := fun _ => 0 }
      (List.replicate 2 (.read .success (some 1) true 10)) := by
    apply along_of_forall
    intro operation member state
    rw [List.eq_of_mem_replicate member]
    trivial
  rcases reassembles (fun _ => 0) 1 0 rfl (Nat.zero_le _) _ .success 10 [2, 2] target
    (by decide) leaves reads with ⟨lines, now, whole⟩
  exact ⟨rets, system, target, lines, execution, reads, now, whole⟩

end Aesd.Driver
