import Mathlib.Data.List.Infix
import Mathlib.Logic.Function.Basic

/-!
# Runs of partial machines with outputs

A machine answers an event with an output and a successor state, or refuses
it.  Its runs consume a word of events, and fail as a whole as soon as one event
is refused.  The snoc form of a run is the induction principle used for
invariants and for quantities that accumulate along the run.
-/

namespace Aesd.Transition

universe u v w x

variable {σ : Type u} {ε : Type v} {ω : Type w} {κ : Type x}

/-- A partial machine: `none` means that the event is not enabled. -/
abbrev Machine (σ : Type u) (ε : Type v) (ω : Type w) :=
  σ → ε → Option (ω × σ)

/-- Consume a word of events, collecting the outputs in order. -/
def run (next : Machine σ ε ω) : σ → List ε → Option (List ω × σ)
  | state, [] => some ([], state)
  | state, event :: events =>
      (next state event).bind fun first =>
        (run next first.2 events).map fun rest => (first.1 :: rest.1, rest.2)

@[simp]
theorem run_nil (next : Machine σ ε ω) (state : σ) :
    run next state [] = some ([], state) :=
  rfl

theorem run_cons_eq_some_iff (next : Machine σ ε ω) (source target : σ)
    (event : ε) (events : List ε) (outputs : List ω) :
    run next source (event :: events) = some (outputs, target) ↔
      ∃ output middle rest, next source event = some (output, middle) ∧
        run next middle events = some (rest, target) ∧
        outputs = output :: rest := by
  simp only [run, Option.bind_eq_some_iff, Option.map_eq_some_iff,
    Prod.exists, Prod.mk.injEq]
  constructor
  · rintro ⟨output, middle, first, rest, last, remaining, rfl, rfl⟩
    exact ⟨output, middle, rest, first, remaining, rfl⟩
  · rintro ⟨output, middle, rest, first, remaining, rfl⟩
    exact ⟨output, middle, first, rest, target, remaining, rfl, rfl⟩

/-- A run over a concatenation splits at the intermediate state. -/
theorem run_append_eq_some_iff (next : Machine σ ε ω) (source target : σ)
    (first second : List ε) (outputs : List ω) :
    run next source (first ++ second) = some (outputs, target) ↔
      ∃ middle front back, run next source first = some (front, middle) ∧
        run next middle second = some (back, target) ∧
        outputs = front ++ back := by
  induction first generalizing source outputs with
  | nil => simp
  | cons event events ih =>
      simp only [List.cons_append, run_cons_eq_some_iff, ih]
      constructor
      · rintro ⟨output, next', rest, step, ⟨middle, front, back, run₁, run₂, rfl⟩, rfl⟩
        exact ⟨middle, output :: front, back,
          ⟨output, next', front, step, run₁, rfl⟩, run₂, rfl⟩
      · rintro ⟨middle, _, back, ⟨output, next', front, step, run₁, rfl⟩, run₂, rfl⟩
        exact ⟨output, next', front ++ back, step,
          ⟨middle, front, back, run₁, run₂, rfl⟩, rfl⟩

theorem run_concat_eq_some_iff (next : Machine σ ε ω) (source target : σ)
    (events : List ε) (event : ε) (outputs : List ω) :
    run next source (events ++ [event]) = some (outputs, target) ↔
      ∃ middle front output, run next source events = some (front, middle) ∧
        next middle event = some (output, target) ∧
        outputs = front ++ [output] := by
  simp only [run_append_eq_some_iff, run_cons_eq_some_iff, run_nil,
    Option.some.injEq, Prod.mk.injEq]
  constructor
  · rintro ⟨middle, front, _, first, ⟨output, _, _, step, ⟨rfl, rfl⟩, rfl⟩, rfl⟩
    exact ⟨middle, front, output, first, step, rfl⟩
  · rintro ⟨middle, front, output, first, step, rfl⟩
    exact ⟨middle, front, [output], first, ⟨output, target, [], step, ⟨rfl, rfl⟩, rfl⟩, rfl⟩

/-- A run emits one output for each event. -/
theorem length_of_run {next : Machine σ ε ω} {source target : σ}
    {events : List ε} {outputs : List ω}
    (execution : run next source events = some (outputs, target)) :
    outputs.length = events.length := by
  induction events generalizing source outputs with
  | nil =>
      simp only [run_nil, Option.some.injEq, Prod.mk.injEq] at execution
      simp [← execution.1]
  | cons event events ih =>
      obtain ⟨output, middle, rest, _, remaining, rfl⟩ :=
        (run_cons_eq_some_iff next source target event events outputs).mp execution
      simp [ih remaining]

/-- Induction along a run, extending the word at its end.  The motive sees the
word consumed so far, the outputs so far, and the state reached. -/
theorem run_induction {next : Machine σ ε ω} {source : σ}
    {motive : List ε → List ω → σ → Prop}
    (initial : motive [] [] source)
    (step : ∀ events outputs middle event output target,
      run next source events = some (outputs, middle) →
      motive events outputs middle →
      next middle event = some (output, target) →
      motive (events ++ [event]) (outputs ++ [output]) target)
    {events : List ε} {outputs : List ω} {target : σ}
    (execution : run next source events = some (outputs, target)) :
    motive events outputs target := by
  induction events using List.reverseRecOn generalizing outputs target with
  | nil =>
      simp only [run_nil, Option.some.injEq, Prod.mk.injEq] at execution
      obtain ⟨rfl, rfl⟩ := execution
      exact initial
  | append_singleton events event ih =>
      obtain ⟨middle, front, output, first, last, rfl⟩ :=
        (run_concat_eq_some_iff next source target events event outputs).mp execution
      exact step events front middle event output target first (ih first) last

/-! ## Runs whose steps all meet a condition -/

/-- Every step the word takes starts in a state that meets `guard` for its
event. -/
def Along (next : Machine σ ε ω) (guard : σ → ε → Prop) : σ → List ε → Prop
  | _, [] => True
  | state, event :: events =>
      guard state event ∧
        ∀ output target, next state event = some (output, target) →
          Along next guard target events

@[simp]
theorem along_nil (next : Machine σ ε ω) (guard : σ → ε → Prop) (state : σ) :
    Along next guard state [] :=
  trivial

instance decidableAlong (next : Machine σ ε ω) (guard : σ → ε → Prop)
    [decide : ∀ state event, Decidable (guard state event)] :
    ∀ source events, Decidable (Along next guard source events)
  | _, [] => isTrue trivial
  | source, event :: events =>
      match step : next source event with
      | none => decidable_of_iff (guard source event) (by simp [Along, step])
      | some (output, target) =>
          have := decidableAlong next guard target events
          decidable_of_iff (guard source event ∧ Along next guard target events) (by
            simp only [Along, step, Option.some.injEq, Prod.mk.injEq, and_imp]
            exact ⟨fun ⟨now, later⟩ => ⟨now, fun _ _ _ same => same ▸ later⟩,
              fun ⟨now, later⟩ => ⟨now, later output target rfl rfl⟩⟩)

theorem along_of_forall {next : Machine σ ε ω} {guard : σ → ε → Prop} {source : σ}
    {events : List ε} (meets : ∀ event ∈ events, ∀ state, guard state event) :
    Along next guard source events := by
  induction events generalizing source with
  | nil => exact trivial
  | cons event events ih =>
      constructor
      · exact meets event List.mem_cons_self source
      · intro _ target _
        exact ih fun other member => meets other (List.mem_cons_of_mem event member)

theorem along_append_iff (next : Machine σ ε ω) (guard : σ → ε → Prop)
    (source : σ) (first second : List ε) :
    Along next guard source (first ++ second) ↔
      Along next guard source first ∧
        ∀ outputs middle, run next source first = some (outputs, middle) →
          Along next guard middle second := by
  induction first generalizing source with
  | nil => simp [run]
  | cons event events ih =>
      simp only [List.cons_append, Along, ih, run_cons_eq_some_iff]
      constructor
      · rintro ⟨start, rest⟩
        refine ⟨⟨start, fun output middle step => (rest output middle step).1⟩, ?_⟩
        rintro outputs target ⟨output, middle, tail, step, remaining, rfl⟩
        exact (rest output middle step).2 tail target remaining
      · rintro ⟨⟨start, rest⟩, last⟩
        refine ⟨start, fun output middle step => ⟨rest output middle step, ?_⟩⟩
        intro outputs target remaining
        exact last (output :: outputs) target ⟨output, middle, outputs, step, remaining, rfl⟩

/-- A run meets a condition when each of its steps does. -/
theorem along_of_splits {next : Machine σ ε ω} {guard : σ → ε → Prop} {source : σ}
    {events : List ε}
    (meets : ∀ front event back outputs middle, events = front ++ event :: back →
      run next source front = some (outputs, middle) → guard middle event) :
    Along next guard source events := by
  induction events generalizing source with
  | nil => exact trivial
  | cons event events ih =>
      constructor
      · exact meets [] event events [] source rfl rfl
      · intro output target step
        apply ih
        rintro front later back outputs middle rfl remaining
        exact meets (event :: front) later back (output :: outputs) middle rfl
          ((run_cons_eq_some_iff ..).mpr ⟨output, target, outputs, step, remaining, rfl⟩)

theorem along_concat_iff {next : Machine σ ε ω} {guard : σ → ε → Prop}
    {source middle : σ} {events : List ε} {outputs : List ω}
    (execution : run next source events = some (outputs, middle)) (event : ε) :
    Along next guard source (events ++ [event]) ↔
      Along next guard source events ∧ guard middle event := by
  rw [along_append_iff]
  simp only [execution, Option.some.injEq, Prod.mk.injEq, and_imp, Along]
  constructor
  · rintro ⟨front, last⟩
    exact ⟨front, (last outputs middle rfl rfl).1⟩
  · rintro ⟨front, last⟩
    constructor
    · exact front
    · rintro _ _ rfl rfl
      exact ⟨last, fun _ _ _ => trivial⟩

/-- Guarded induction along a run: `run_induction` where each step also knows
that its source met the guard. -/
theorem along_induction {next : Machine σ ε ω} {guard : σ → ε → Prop} {source : σ}
    {motive : List ε → List ω → σ → Prop}
    (initial : motive [] [] source)
    (step : ∀ events outputs middle event output target,
      run next source events = some (outputs, middle) →
      motive events outputs middle → guard middle event →
      next middle event = some (output, target) →
      motive (events ++ [event]) (outputs ++ [output]) target)
    {events : List ε} {outputs : List ω} {target : σ}
    (guarded : Along next guard source events)
    (execution : run next source events = some (outputs, target)) :
    motive events outputs target := by
  refine run_induction (motive := fun events outputs target =>
    Along next guard source events → motive events outputs target)
    (fun _ => initial) ?_ execution guarded
  intro events outputs middle event output target first hypothesis last along
  obtain ⟨front, guardLast⟩ := (along_concat_iff first event).mp along
  exact step events outputs middle event output target first (hypothesis front) guardLast last

/-- A state predicate preserved by the guarded steps holds at the end of every
guarded run. -/
theorem invariant_of_along {next : Machine σ ε ω} {guard : σ → ε → Prop}
    {invariant : σ → Prop}
    (preserved : ∀ state event output target, invariant state → guard state event →
      next state event = some (output, target) → invariant target)
    {source target : σ} {events : List ε} {outputs : List ω}
    (initial : invariant source) (guarded : Along next guard source events)
    (execution : run next source events = some (outputs, target)) :
    invariant target :=
  along_induction (motive := fun _ _ state => invariant state) initial
    (fun _ _ middle event output target _ held guardMiddle step =>
      preserved middle event output target held guardMiddle step)
    guarded execution

/-- What each step keeps exactly when it meets the guard, a run keeps exactly when
all its steps do. -/
theorem iff_along_of_step {next : Machine σ ε ω} {guard : σ → ε → Prop}
    {invariant good : σ → Prop}
    (preserved : ∀ state event output target, invariant state →
      next state event = some (output, target) →
      invariant target ∧ (good target ↔ good state ∧ guard state event))
    {source target : σ} {events : List ε} {outputs : List ω}
    (initial : invariant source) (start : good source)
    (execution : run next source events = some (outputs, target)) :
    good target ↔ Along next guard source events := by
  have both : invariant target ∧ (good target ↔ Along next guard source events) := by
    apply run_induction (motive := fun events _ state =>
      invariant state ∧ (good state ↔ Along next guard source events)) _ _ execution
    · exact ⟨initial, iff_of_true start trivial⟩
    · rintro events outputs middle event output target first ⟨held, soFar⟩ step
      rcases preserved middle event output target held step with ⟨held', now⟩
      rw [along_concat_iff first, ← soFar]
      exact ⟨held', now⟩
  exact both.2

/-- When an invariant is kept by the guarded steps and implies that a state is good,
and a step that misses the guard leads to a state that is not, all states that a run
reaches are good exactly when all its steps are guarded. -/
theorem forall_reached_iff_along {next : Machine σ ε ω} {guard : σ → ε → Prop}
    {invariant good : List ω → σ → Prop}
    (sound : ∀ outputs state, invariant outputs state → good outputs state)
    (preserved : ∀ outputs state event output target, invariant outputs state →
      guard state event → next state event = some (output, target) →
      invariant (outputs ++ [output]) target)
    (necessary : ∀ outputs state event output target, invariant outputs state →
      next state event = some (output, target) → good (outputs ++ [output]) target →
      guard state event)
    {source target : σ} {events : List ε} {outputs : List ω}
    (initial : invariant [] source)
    (execution : run next source events = some (outputs, target)) :
    (∀ front firstOutputs middle, front <+: events →
        run next source front = some (firstOutputs, middle) → good firstOutputs middle) ↔
      Along next guard source events := by
  have holds {front : List ε} {firstOutputs : List ω} {middle : σ}
      (guarded : Along next guard source front)
      (reached : run next source front = some (firstOutputs, middle)) :
      invariant firstOutputs middle :=
    along_induction (motive := fun _ outputs state => invariant outputs state) initial
      (fun _ outputs state event output target _ held meets step =>
        preserved outputs state event output target held meets step) guarded reached
  constructor
  · apply run_induction (motive := fun events _ _ => (∀ front firstOutputs middle,
      front <+: events → run next source front = some (firstOutputs, middle) →
        good firstOutputs middle) → Along next guard source events) _ _ execution
    · exact fun _ => trivial
    · intro events outputs middle event output target first guarded step allGood
      have soFar := guarded fun front firstOutputs state isPrefix =>
        allGood front firstOutputs state (isPrefix.trans (List.prefix_append ..))
      have whole : run next source (events ++ [event]) = some (outputs ++ [output], target) :=
        (run_concat_eq_some_iff ..).mpr ⟨middle, outputs, output, first, step, rfl⟩
      have last := allGood _ _ _ List.prefix_rfl whole
      exact (along_concat_iff first event).mpr
        ⟨soFar, necessary _ _ _ _ _ (holds soFar first) step last⟩
  · rintro guarded front firstOutputs middle ⟨back, rfl⟩ reached
    exact sound _ _ (holds ((along_append_iff ..).mp guarded).1 reached)

/-! ## Runs with their history -/

/-- A machine that remembers its events and their outputs. -/
def remembering (next : Machine σ ε ω) : Machine (List (ε × ω) × σ) ε ω
  | (history, state), event =>
      (next state event).map fun (output, target) =>
        (output, (history ++ [(event, output)], target))

theorem remembering_eq_some_iff {next : Machine σ ε ω} {state target : σ}
    {history history' : List (ε × ω)} {event : ε} {output : ω} :
    remembering next (history, state) event = some (output, (history', target)) ↔
      next state event = some (output, target) ∧ history' = history ++ [(event, output)] := by
  simp only [remembering, Option.map_eq_some_iff, Prod.exists, Prod.mk.injEq]
  constructor
  · rintro ⟨output, target, step, rfl, rfl, rfl⟩
    exact ⟨step, rfl⟩
  · rintro ⟨step, rfl⟩
    exact ⟨output, target, step, rfl, rfl, rfl⟩

/-- Remembering does not change the runs. -/
theorem exists_run_remembering_iff {next : Machine σ ε ω} {source target : σ}
    {history : List (ε × ω)} {events : List ε} {outputs : List ω} :
    (∃ history', run (remembering next) (history, source) events =
        some (outputs, (history', target))) ↔
      run next source events = some (outputs, target) := by
  induction events generalizing history source outputs with
  | nil => simp
  | cons event events ih =>
      rw [run_cons_eq_some_iff]
      constructor
      · rintro ⟨history', execution⟩
        rcases (run_cons_eq_some_iff ..).mp execution with
          ⟨output, ⟨before, middle⟩, rest, step, remaining, rfl⟩
        exact ⟨output, middle, rest, (remembering_eq_some_iff.mp step).1,
          ih.mp ⟨history', remaining⟩, rfl⟩
      · rintro ⟨output, middle, rest, step, remaining, rfl⟩
        rcases ih.mpr remaining with ⟨history', remaining⟩
        exact ⟨history', (run_cons_eq_some_iff ..).mpr
          ⟨output, _, rest, remembering_eq_some_iff.mpr ⟨step, rfl⟩, remaining, rfl⟩⟩

/-! ## Runs that end -/

/-- When every guarded step from an unfinished state keeps the invariant and
lowers the rank, a guarded word of at least that many events finishes. -/
theorem reaches_of_rank {next : Machine σ ε ω} {guard : σ → ε → Prop}
    (invariant done : σ → Prop) (rank : σ → Nat)
    (finished : ∀ state, invariant state → rank state = 0 → done state)
    (progress : ∀ state event, invariant state → ¬done state → guard state event →
      ∃ output target, next state event = some (output, target) ∧ invariant target ∧
        rank target < rank state)
    {source : σ} {events : List ε} (initial : invariant source)
    (guarded : Along next guard source events) (enough : rank source ≤ events.length) :
    ∃ used unused outputs target, events = used ++ unused ∧
      run next source used = some (outputs, target) ∧ invariant target ∧ done target := by
  induction events generalizing source with
  | nil =>
      exact ⟨[], [], [], source, rfl, rfl, initial,
        finished source initial (Nat.le_zero.mp enough)⟩
  | cons event events ih =>
      by_cases ended : done source
      · exact ⟨[], event :: events, [], source, rfl, rfl, initial, ended⟩
      · obtain ⟨output, middle, step, kept, lower⟩ := progress source event initial ended guarded.1
        have enough' : rank middle ≤ events.length := by
          rw [List.length_cons] at enough
          omega
        obtain ⟨used, unused, outputs, target, rfl, remaining, ends⟩ :=
          ih kept (guarded.2 _ _ step) enough'
        exact ⟨event :: used, unused, output :: outputs, target, rfl,
          (run_cons_eq_some_iff ..).mpr ⟨output, middle, outputs, step, remaining, rfl⟩, ends⟩

/-- When every state of an invariant has a guarded event that keeps it, there are
guarded words of every length. -/
theorem exists_along {next : Machine σ ε ω} {guard : σ → ε → Prop} (invariant : σ → Prop)
    (enabled : ∀ state, invariant state → ∃ event, guard state event ∧
      ∀ output target, next state event = some (output, target) → invariant target)
    {source : σ} (initial : invariant source) (length : Nat) :
    ∃ events : List ε, events.length = length ∧ Along next guard source events := by
  induction length generalizing source with
  | zero => exact ⟨[], rfl, trivial⟩
  | succ length ih =>
      obtain ⟨event, meets, keeps⟩ := enabled source initial
      cases step : next source event with
      | none =>
          refine ⟨event :: List.replicate length event, by simp, meets, ?_⟩
          intro output target taken
          rw [step] at taken
          contradiction
      | some result =>
          obtain ⟨events, rfl, along⟩ := ih (keeps result.1 result.2 step)
          refine ⟨event :: events, rfl, meets, ?_⟩
          intro output target taken
          cases Option.some.inj (step.symm.trans taken)
          exact along

/-! ## Quantities observed along a run -/

/-- Concatenate what `view` sees at the successive steps of a run. -/
def observe (next : Machine σ ε ω) (view : σ → ε → ω → σ → List κ) :
    σ → List ε → List κ
  | _, [] => []
  | state, event :: events =>
      match next state event with
      | none => []
      | some (output, target) =>
          view state event output target ++ observe next view target events

@[simp]
theorem observe_nil (next : Machine σ ε ω) (view : σ → ε → ω → σ → List κ) (state : σ) :
    observe next view state [] = [] :=
  rfl

theorem observe_concat {next : Machine σ ε ω} (view : σ → ε → ω → σ → List κ)
    {source middle target : σ} {events : List ε} {outputs : List ω} {event : ε} {output : ω}
    (execution : run next source events = some (outputs, middle))
    (step : next middle event = some (output, target)) :
    observe next view source (events ++ [event]) =
      observe next view source events ++ view middle event output target := by
  induction events generalizing source outputs with
  | nil =>
      simp only [run_nil, Option.some.injEq, Prod.mk.injEq] at execution
      obtain ⟨rfl, rfl⟩ := execution
      simp [observe, step]
  | cons first events ih =>
      obtain ⟨output', next', rest, firstStep, remaining, rfl⟩ :=
        (run_cons_eq_some_iff next source middle first events outputs).mp execution
      simp only [List.cons_append, observe, firstStep, ih remaining, List.append_assoc]

/-! ## States that are tables of parts -/

section

variable {ι : Type u} {π : Type v} [DecidableEq ι] {table : ι → Option π} {here : ι} {part : π}

/-- A part of an updated table is the new one, or an old one in another place. -/
theorem mem_update_some {there : ι} {other : π} :
    other ∈ Function.update table here (some part) there ↔
      there = here ∧ other = part ∨ there ≠ here ∧ other ∈ table there := by
  by_cases same : there = here
  · subst same
    simp [eq_comm]
  · simp [same]

theorem mem_update_none {there : ι} {other : π} :
    other ∈ Function.update table here none there ↔ there ≠ here ∧ other ∈ table there := by
  by_cases same : there = here
  · subst same
    simp
  · simp [same]

theorem forall_mem_update_some {holds : ι → π → Prop} (new : holds here part)
    (old : ∀ there, ∀ other ∈ table there, holds there other) :
    ∀ there, ∀ other ∈ Function.update table here (some part) there, holds there other := by
  intro there other member
  rcases mem_update_some.mp member with ⟨rfl, rfl⟩ | ⟨_, member⟩
  · exact new
  · exact old there other member

end

end Aesd.Transition
