import Aesd.Transition.Run
import Mathlib.Algebra.BigOperators.Group.Finset.Basic

/-!
# Runs that are matched by runs

One machine is matched by another when each of its steps is a run of the other one;
then so are its runs.  A machine is matched by itself without the events that a part
of its state does not see.  And a run is no longer than any number that each of its
steps lowers; then some run comes to an end.
-/

namespace Aesd.Transition

universe u v w

variable {σ : Type u} {ε : Type v} {ω : Type w} {σ' : Type u} {ε' : Type v} {ω' : Type w}

/-! ## Refinement -/

/-- A step from related states is matched by a run over the word that `view` sees in
it. -/
def Matches (next : Machine σ ε ω) (next' : Machine σ' ε' ω') (view : σ → ε → ω → σ → List ε')
    (related : σ → σ' → Prop) : Prop :=
  ∀ source source' event output target, related source source' →
    next source event = some (output, target) →
    ∃ outputs' target', run next' source' (view source event output target) =
      some (outputs', target') ∧ related target target'

/-- Steps that are matched make runs that are. -/
theorem Matches.run {next : Machine σ ε ω} {next' : Machine σ' ε' ω'}
    {view : σ → ε → ω → σ → List ε'} {related : σ → σ' → Prop}
    (step : Matches next next' view related) {source target : σ} {source' : σ'}
    {events : List ε} {outputs : List ω} (start : related source source')
    (execution : run next source events = some (outputs, target)) :
    ∃ outputs' target', Transition.run next' source' (observe next view source events) =
      some (outputs', target') ∧ related target target' := by
  apply run_induction (motive := fun events _ target => ∃ outputs' target',
    Transition.run next' source' (observe next view source events) = some (outputs', target') ∧
      related target target') _ _ execution
  · exact ⟨[], source', rfl, start⟩
  · rintro events outputs middle event output target first ⟨front, middle', reached, here⟩ last
    rcases step middle middle' event output target here last with ⟨back, target', more, there⟩
    rw [observe_concat view first last]
    exact ⟨front ++ back, target',
      (run_append_eq_some_iff ..).mpr ⟨middle', front, back, reached, more, rfl⟩, there⟩

/-! ## Events that are not seen -/

/-- The outputs at the events that are seen. -/
def outputsAt (seen : ε → Bool) (events : List ε) (outputs : List ω) : List ω :=
  ((events.zip outputs).filter fun step => seen step.1).map Prod.snd

@[simp]
theorem outputsAt_nil (seen : ε → Bool) : outputsAt seen [] ([] : List ω) = [] :=
  rfl

theorem outputsAt_cons (seen : ε → Bool) (event : ε) (events : List ε) (output : ω)
    (outputs : List ω) :
    outputsAt seen (event :: events) (output :: outputs) =
      if seen event then output :: outputsAt seen events outputs
      else outputsAt seen events outputs := by
  cases visible : seen event <;> simp [outputsAt, visible]

theorem outputsAt_append (seen : ε → Bool) {first : List ε} {outputs : List ω}
    (same : outputs.length = first.length) (second : List ε) (outputs' : List ω) :
    outputsAt seen (first ++ second) (outputs ++ outputs') =
      outputsAt seen first outputs ++ outputsAt seen second outputs' := by
  simp [outputsAt, List.zip_append same.symm]

/-- There is one of them for each event that is seen. -/
theorem length_outputsAt (seen : ε → Bool) {events : List ε} {outputs : List ω}
    (same : outputs.length = events.length) :
    (outputsAt seen events outputs).length = (events.filter seen).length := by
  have zipped : (events.zip outputs).map Prod.fst = events :=
    List.map_fst_zip (Nat.le_of_eq same.symm)
  rw [outputsAt, List.length_map, ← List.length_map Prod.fst]
  nth_rewrite 2 [← zipped]
  rw [List.filter_map]
  rfl

/-- Events that are not seen can be left out of a run: the others have the same
outputs, and lead to a state that is alike. -/
theorem run_filter {next : Machine σ ε ω} {seen : ε → Bool} {alike : σ → σ → Prop}
    (hidden : ∀ state state' event output target, alike state state' → seen event = false →
      next state event = some (output, target) → alike target state')
    (visible : ∀ state state' event output target, alike state state' → seen event = true →
      next state event = some (output, target) →
      ∃ target', next state' event = some (output, target') ∧ alike target target')
    {source source' target : σ} {events : List ε} {outputs : List ω}
    (start : alike source source')
    (execution : run next source events = some (outputs, target)) :
    ∃ target', run next source' (events.filter seen) =
      some (outputsAt seen events outputs, target') ∧ alike target target' := by
  induction events generalizing source source' outputs with
  | nil =>
      simp only [run_nil, Option.some.injEq, Prod.mk.injEq] at execution
      rcases execution with ⟨rfl, rfl⟩
      exact ⟨source', rfl, start⟩
  | cons event events ih =>
      rcases (run_cons_eq_some_iff ..).mp execution with
        ⟨output, middle, rest, first, remaining, rfl⟩
      rw [outputsAt_cons]
      cases seen' : seen event with
      | false =>
          rw [List.filter_cons_of_neg (by simp [seen'])]
          exact ih (hidden source source' event output middle start seen' first) remaining
      | true =>
          rcases visible source source' event output middle start seen' first with
            ⟨middle', first', there⟩
          rcases ih there remaining with ⟨target', remaining', alike'⟩
          rw [List.filter_cons_of_pos seen']
          exact ⟨target', (run_cons_eq_some_iff ..).mpr
            ⟨output, middle', _, first', remaining', rfl⟩, alike'⟩

/-! ## Bounded runs -/

/-- Changing one value changes a sum by its measure. -/
theorem sum_update_add {ι α : Type} [Fintype ι] [DecidableEq ι] (measure : α → Nat)
    (values : ι → α) (index : ι) (value : α) :
    ∑ other, measure (Function.update values index value other) + measure (values index) =
      ∑ other, measure (values other) + measure value := by
  have others : ∑ other ∈ Finset.univ.erase index,
        measure (Function.update values index value other) =
      ∑ other ∈ Finset.univ.erase index, measure (values other) := by
    apply Finset.sum_congr rfl
    intro other member
    rw [Function.update_of_ne (Finset.ne_of_mem_erase member)]
  rw [← Finset.add_sum_erase _ _ (Finset.mem_univ index), others, Function.update_self,
    ← Finset.add_sum_erase _ _ (Finset.mem_univ index)]
  omega

/-- When each step from a state that is ranked leads to a state of lower rank, a run
has at most as many steps as the rank of its source. -/
theorem length_le_of_ranked {next : Machine σ ε ω} {ranked : Nat → σ → Prop}
    (falls : ∀ rank state event output target, ranked rank state →
      next state event = some (output, target) → ∃ lower, lower < rank ∧ ranked lower target)
    {rank : Nat} {source target : σ} {events : List ε} {outputs : List ω}
    (start : ranked rank source)
    (execution : run next source events = some (outputs, target)) : events.length ≤ rank := by
  induction events generalizing rank source outputs with
  | nil => exact Nat.zero_le _
  | cons event events ih =>
      rcases (run_cons_eq_some_iff ..).mp execution with
        ⟨output, middle, rest, first, remaining, rfl⟩
      rcases falls rank source event output middle start first with ⟨lower, less, there⟩
      have later := ih there remaining
      rw [List.length_cons]
      omega

/-- When runs are bounded, some run over allowed events leads to a state in which no
allowed event is possible. -/
theorem exists_run_of_bounded {next : Machine σ ε ω} (allowed : ε → Prop) {bound : Nat}
    {source : σ}
    (bounded : ∀ events outputs target, run next source events = some (outputs, target) →
      events.length ≤ bound) :
    ∃ events outputs target, (∀ event ∈ events, allowed event) ∧
      run next source events = some (outputs, target) ∧
      ∀ event, allowed event → next target event = none := by
  induction bound generalizing source with
  | zero =>
      refine ⟨[], [], source, fun _ member => absurd member List.not_mem_nil, rfl, ?_⟩
      intro event _
      by_contra possible
      rcases Option.ne_none_iff_exists'.mp possible with ⟨⟨output, target⟩, step⟩
      have longer := bounded [event] [output] target
        ((run_cons_eq_some_iff ..).mpr ⟨output, target, [], step, rfl, rfl⟩)
      exact absurd longer (Nat.not_succ_le_zero 0)
  | succ bound ih =>
      by_cases possible : ∃ event, allowed event ∧ next source event ≠ none
      · rcases possible with ⟨event, permitted, possible⟩
        rcases Option.ne_none_iff_exists'.mp possible with ⟨⟨output, middle⟩, step⟩
        have shorter : ∀ events outputs target, run next middle events =
            some (outputs, target) → events.length ≤ bound := by
          intro events outputs target execution
          apply Nat.le_of_succ_le_succ
          exact bounded (event :: events) (output :: outputs) target
            ((run_cons_eq_some_iff ..).mpr ⟨output, middle, outputs, step, execution, rfl⟩)
        rcases ih shorter with ⟨events, outputs, target, permitted', execution, ends⟩
        refine ⟨event :: events, output :: outputs, target, ?_,
          (run_cons_eq_some_iff ..).mpr ⟨output, middle, outputs, step, execution, rfl⟩, ends⟩
        intro other member
        rcases List.mem_cons.mp member with rfl | member
        · exact permitted
        · exact permitted' other member
      · simp only [not_exists, not_and, not_not] at possible
        exact ⟨[], [], source, fun _ member => absurd member List.not_mem_nil, rfl, possible⟩

end Aesd.Transition
