import Aesd.Server.Threads

/-!
# The law of the life cycle

Which runs keep the law of the life cycle.  The condition on a step is about what has
happened before it: what `pthread_create` returned, which handlers have completed or
returned, and to which nodes passes of the accept loop have come since then.
-/

namespace Aesd.Server

open Aesd.Transition

/-! ## The condition -/

/-- The events of a run up to some step, with the nodes that passes came to. -/
abbrev History :=
  List (LifeEvent × Option Nat)

/-- What `pthread_create` returns. -/
def LifeEvent.created : LifeEvent → Option Nat
  | .pthreadCreate ret => some ret
  | _ => none

namespace History

/-- What the last `pthread_create` has returned. -/
def created (history : History) : Option Nat :=
  (history.filterMap fun step => step.1.created).getLast?

/-- The handler of the node has set `isThreadComplete`. -/
def Completed (history : History) (node : Nat) : Prop :=
  .complete node ∈ history.map Prod.fst

/-- The handler of the node has returned, without an error or with one. -/
def Ended (history : History) (node : Nat) : Prop :=
  .ends node true ∈ history.map Prod.fst ∨ .ends node false ∈ history.map Prod.fst

/-- A pass has come to the node since its handler set `isThreadComplete`. -/
def Passed (node : Nat) : History → Prop
  | [] => False
  | (event, _) :: history =>
      event = .complete node ∧ some node ∈ history.map Prod.snd ∨ Passed node history

instance (history : History) (node : Nat) : Decidable (history.Completed node) :=
  inferInstanceAs (Decidable (_ ∈ _))

instance (history : History) (node : Nat) : Decidable (history.Ended node) :=
  inferInstanceAs (Decidable (_ ∈ _ ∨ _ ∈ _))

instance decidablePassed (node : Nat) : ∀ history : History, Decidable (history.Passed node)
  | [] => isFalse id
  | (event, _) :: history =>
      have := decidablePassed node history
      inferInstanceAs (Decidable (event = _ ∧ _ ∈ _ ∨ Passed node history))

end History

/-- The condition on a step, by what has happened before it.  The last `pthread_create`
before an insertion has returned 0.  A pass comes to no node that a pass has come to since
its completion.  A signal does not arrive before the insertion of a node whose handler has
returned.  Cleanup comes to a node after its completion and, if its handler has returned,
after a pass has come to it since.  A handler returns without an error, and while its node
is in the list or about to be inserted. -/
def Timely (history : History) (listener : Listener) : LifeEvent → Prop
  | .insert => history.created = some 0
  | .visit => ∀ node ∈ listener.pc.visited, ¬history.Passed node
  | .signal => ∀ node ∈ listener.pc.inserted, ¬history.Ended node
  | .free =>
      ∀ node ∈ listener.head.head?,
        history.Completed node ∧ (history.Ended node → history.Passed node)
  | .ends node ok => ok = true ∧ (node ∈ listener.head ∨ listener.pc.inserted = some node)
  | _ => True

instance (history : History) (listener : Listener) :
    ∀ event, Decidable (Timely history listener event)
  | .insert => inferInstanceAs (Decidable (_ = _))
  | .visit => inferInstanceAs (Decidable (∀ node ∈ listener.pc.visited, _))
  | .signal => inferInstanceAs (Decidable (∀ node ∈ listener.pc.inserted, _))
  | .free => inferInstanceAs (Decidable (∀ node ∈ listener.head.head?, _ ∧ (_ → _)))
  | .ends _ _ => inferInstanceAs (Decidable (_ ∧ (_ ∨ _)))
  | .accept _ | .malloc _ | .pthreadCreate _ | .complete _ => isTrue trivial

/-- All steps of a run are timely. -/
def AllTimely (events : List LifeEvent) : Prop :=
  Along (remembering lifeStep) (fun state event => Timely state.1 state.2 event) ([], .start)
    events

instance (events : List LifeEvent) : Decidable (AllTimely events) :=
  inferInstanceAs (Decidable (Along ..))

section

variable {listener listener' : Listener} {event : LifeEvent}

/-! ## Orderly runs -/

/-- What orderly runs add: a node whose handler has ended is freed only after it has been
joined, and until then it is in the list or about to be inserted. -/
structure Listener.Tidy (listener : Listener) : Prop extends listener.Sound where
  settled : ∀ node, ∀ clientNode ∈ listener.nodes node, ∀ ok,
    clientNode.thread = some (.ended ok) → clientNode.freed = true → clientNode.joins ≠ 0
  held : ∀ node, ∀ clientNode ∈ listener.nodes node, ∀ ok,
    clientNode.thread = some (.ended ok) → clientNode.freed = false →
      node ∈ listener.head ∨ listener.pc.inserted = some node

theorem Listener.tidy_start : Listener.start.Tidy where
  created := by rintro _ ⟨⟩
  joinedOnce := by rintro _ _ ⟨⟩
  freedLate := by rintro _ _ ⟨⟩
  settled := by rintro _ _ ⟨⟩
  held := by rintro _ _ ⟨⟩

theorem Listener.exists_setNode {node other : Nat} {after : ClientNode}
    {holds : ClientNode → Prop} (found : ∃ clientNode ∈ listener.nodes node, holds clientNode)
    (replaced : node = other → holds after) :
    ∃ clientNode ∈ (listener.setNode other after).nodes node, holds clientNode := by
  by_cases same : node = other
  · exact ⟨after, mem_setNode.mpr (.inl ⟨same, rfl⟩), replaced same⟩
  · rcases found with ⟨clientNode, member, kept⟩
    exact ⟨clientNode, mem_setNode.mpr (.inr ⟨same, member⟩), kept⟩

theorem Listener.created_setNode {node : Nat} (after : ClientNode)
    (created : ∀ other ∈ listener.head, ∃ otherNode ∈ listener.nodes other,
      otherNode.thread ≠ none) (thread : after.thread ≠ none) :
    ∀ other ∈ listener.head, ∃ otherNode ∈ (listener.setNode node after).nodes other,
      otherNode.thread ≠ none :=
  fun other member => exists_setNode (created other member) fun _ => thread

/-- A new node's handler has not ended. -/
theorem Listener.Tidy.creates (consistent : listener.Consistent) (tidy : listener.Tidy)
    (pc : listener.pc = .create) (ret : Nat) :
    Tidy { listener.setNode listener.allocated (.fresh ret) with
      pc := .insert listener.allocated
      allocated := listener.allocated + 1 } := by
  have started : ∀ ok, (ClientNode.fresh ret).thread ≠ some (.ended ok) := by
    intro ok
    unfold ClientNode.fresh
    split <;> simp
  constructor
  · constructor
    · intro node member
      have older : node ≠ listener.allocated := Nat.ne_of_lt (consistent.present node member)
      exact exists_setNode (tidy.created node member) fun same => absurd same older
    · exact forall_setNode (Nat.zero_le 1) tidy.joinedOnce
    · exact forall_setNode (by rintro ⟨⟩) tidy.freedLate
  · exact forall_setNode (fun ok thread => absurd thread (started ok)) tidy.settled
  · intro node clientNode member ok thread kept
    rcases mem_setNode.mp member with ⟨_, rfl⟩ | ⟨_, member⟩
    · exact absurd thread (started ok)
    · exact .inl ((tidy.held node clientNode member ok thread kept).resolve_right
        (by simp [pc, LoopPc.inserted]))

/-- The node that is inserted has a thread. -/
theorem Listener.Tidy.inserts {node : Nat} (tidy : listener.Tidy)
    (orderly : listener.Orderly .insert) (pc : listener.pc = .insert node) :
    Tidy { listener with
      pc := .visit (node :: listener.head)
      head := node :: listener.head } := by
  constructor
  · constructor
    · intro other listed
      rcases List.mem_cons.mp listed with rfl | listed
      · exact orderly other (by rw [pc]; rfl)
      · exact tidy.created other listed
    · exact tidy.joinedOnce
    · exact tidy.freedLate
  · exact tidy.settled
  · intro other clientNode member ok thread kept
    rcases tidy.held other clientNode member ok thread kept with listed | inserting
    · exact .inl (List.mem_cons_of_mem node listed)
    · rw [pc] at inserting
      cases inserting
      exact .inl List.mem_cons_self

/-- A pass joins a thread that no pass has joined. -/
theorem Listener.Tidy.joins {node : Nat} {rest : List Nat} {clientNode : ClientNode} {ok : Bool}
    {pc' : LoopPc} {threadRetVal : Bool} (tidy : listener.Tidy)
    (orderly : listener.Orderly .visit) (pc : listener.pc = .visit (node :: rest))
    (found : listener.nodes node = some clientNode)
    (complete : clientNode.isThreadComplete = true)
    (thread : clientNode.thread = some (.ended ok)) :
    Tidy { listener.setNode node { clientNode with joins := clientNode.joins + 1 } with
      pc := pc', threadRetVal := threadRetVal } := by
  have first : clientNode.joins = 0 := orderly node (by rw [pc]; rfl) clientNode found complete
  have listed {other : Nat} (held : other ∈ listener.head ∨
      listener.pc.inserted = some other) : other ∈ listener.head :=
    held.resolve_right (by simp [pc, LoopPc.inserted])
  constructor
  · constructor
    · exact created_setNode _ tidy.created (by simp [thread])
    · exact forall_setNode (by simp [first]) tidy.joinedOnce
    · exact forall_setNode (tidy.freedLate node clientNode found) tidy.freedLate
  · exact forall_setNode (fun _ _ _ => Nat.succ_ne_zero _) tidy.settled
  · exact forall_setNode
      (fun ok thread kept => .inl (listed (tidy.held node clientNode found ok thread kept)))
      fun other otherNode member ok thread kept =>
        .inl (listed (tidy.held other otherNode member ok thread kept))

/-- Cleanup frees a node whose handler no longer runs. -/
theorem Listener.Tidy.frees {node : Nat} {rest : List Nat} {clientNode : ClientNode}
    (tidy : listener.Tidy) (orderly : listener.Orderly .free)
    (head : listener.head = node :: rest) (found : listener.nodes node = some clientNode) :
    Tidy { listener.setNode node { clientNode with freed := true } with head := rest } := by
  have allowed := orderly node (by rw [head]; rfl) clientNode found
  rcases tidy.created node (by simp [head]) with ⟨clientNode', found', created⟩
  cases found.symm.trans found'
  constructor
  · constructor
    · intro other member
      exact created_setNode { clientNode with freed := true } tidy.created created
        other (head ▸ List.mem_cons_of_mem node member)
    · exact forall_setNode (tidy.joinedOnce node clientNode found) tidy.joinedOnce
    · exact forall_setNode (fun _ thread => (allowed .running thread).1 rfl) tidy.freedLate
  · exact forall_setNode (fun ok thread _ => (allowed (.ended ok) thread).2 rfl) tidy.settled
  · intro other otherNode member ok thread kept
    rcases mem_setNode.mp member with ⟨_, rfl⟩ | ⟨different, member⟩
    · contradiction
    · rcases tidy.held other otherNode member ok thread kept with listed | inserting
      · rw [head] at listed
        exact .inl ((List.mem_cons.mp listed).resolve_left different)
      · exact .inr inserting

/-- A handler ends while its node is in the list or about to be inserted. -/
theorem Listener.Tidy.ends {node : Nat} {clientNode : ClientNode} {ok : Bool}
    (consistent : listener.Consistent) (tidy : listener.Tidy)
    (orderly : listener.Orderly (.ends node ok))
    (found : listener.nodes node = some clientNode) :
    (listener.setNode node { clientNode with thread := some (.ended ok) }).Tidy := by
  have kept : clientNode.freed = false := by
    rcases orderly.2 with listed | inserting
    · exact consistent.listed node clientNode found listed
    · exact (consistent.inserted node clientNode found inserting).1
  constructor
  · constructor
    · exact created_setNode _ tidy.created (by simp)
    · exact forall_setNode (tidy.joinedOnce node clientNode found) tidy.joinedOnce
    · exact forall_setNode (by simp) tidy.freedLate
  · exact forall_setNode (by simp [kept]) tidy.settled
  · exact forall_setNode (fun _ _ _ => orderly.2) tidy.held

theorem Listener.Tidy.step (consistent : listener.Consistent) (tidy : listener.Tidy)
    (orderly : listener.Orderly event) (step : LifeStep listener event listener') :
    listener'.Tidy := by
  cases step with
  | moves event pc' going _ _ _ apart cleans ends =>
      refine ⟨⟨tidy.created, tidy.joinedOnce, tidy.freedLate⟩, tidy.settled, ?_⟩
      intro node clientNode member ok thread kept
      exact .inl ((tidy.held node clientNode member ok thread kept).resolve_right (by simp [apart]))
  | creates ret pc => exact Tidy.creates consistent tidy pc ret
  | inserts node pc => exact tidy.inserts orderly pc
  | drops node pc =>
      refine ⟨⟨tidy.created, tidy.joinedOnce, tidy.freedLate⟩, tidy.settled, ?_⟩
      intro other clientNode member ok thread kept
      rcases tidy.held other clientNode member ok thread kept with listed | inserting
      · exact .inl listed
      · have running := orderly other inserting clientNode member (.ended ok) thread
        contradiction
  | joins node rest clientNode ok threadRetVal pc found complete thread =>
      exact tidy.joins orderly pc found complete thread
  | frees node rest clientNode pc head found => exact tidy.frees orderly head found
  | completes node clientNode going found thread =>
      constructor
      · constructor
        · exact created_setNode _ tidy.created (by simp)
        · exact forall_setNode (tidy.joinedOnce node clientNode found) tidy.joinedOnce
        · exact forall_setNode (by simp) tidy.freedLate
      · exact forall_setNode (by simp) tidy.settled
      · exact forall_setNode (by simp) tidy.held
  | ends node clientNode ok going found thread => exact Tidy.ends consistent tidy orderly found

/-! ## Other runs -/

/-- The handler of the node has ended and will not be joined any more. -/
def Listener.Lost (listener : Listener) (node : Nat) : Prop :=
  ∃ clientNode ∈ listener.nodes node, ∃ ok, clientNode.thread = some (.ended ok) ∧
    (ok = false ∨ clientNode.joins = 0 ∧ (listener.pc = .cleanup ∨ listener.pc = .done))

theorem Listener.Lost.step {node : Nat} (consistent : listener.Consistent)
    (lost : listener.Lost node) (step : LifeStep listener event listener') :
    listener'.Lost node := by
  rcases lost with ⟨clientNode, found, ok, thread, never⟩
  cases step with
  | moves event pc' going _ _ _ apart cleans ends =>
      rcases never with failed | ⟨unjoined, cleaning | done⟩
      · exact ⟨clientNode, found, ok, thread, .inl failed⟩
      · exact ⟨clientNode, found, ok, thread, .inr ⟨unjoined, .inr (cleans cleaning)⟩⟩
      · contradiction
  | creates ret pc =>
      have different : node ≠ listener.allocated := by
        rintro rfl
        cases found.symm.trans (consistent.absent _ (Nat.le_refl _))
      rw [pc] at never
      have failed : ok = false := by simpa using never
      exact exists_setNode ⟨clientNode, found, ok, thread, .inl failed⟩
        fun same => absurd same different
  | inserts other pc =>
      rw [pc] at never
      have failed : ok = false := by simpa using never
      exact ⟨clientNode, found, ok, thread, .inl failed⟩
  | drops other pc =>
      rw [pc] at never
      have failed : ok = false := by simpa using never
      exact ⟨clientNode, found, ok, thread, .inl failed⟩
  | joins other rest otherNode _ threadRetVal pc found' complete thread' =>
      rw [pc] at never
      have failed : ok = false := by simpa using never
      apply exists_setNode ⟨clientNode, found, ok, thread, .inl failed⟩
      rintro rfl
      cases found.symm.trans found'
      exact ⟨ok, thread, .inl failed⟩
  | frees other rest otherNode pc head found' =>
      apply exists_setNode ⟨clientNode, found, ok, thread, never⟩
      rintro rfl
      cases found.symm.trans found'
      exact ⟨ok, thread, never⟩
  | completes other otherNode going found' thread' =>
      apply exists_setNode ⟨clientNode, found, ok, thread, never⟩
      rintro rfl
      cases found.symm.trans found'
      cases thread.symm.trans thread'
  | ends other otherNode ok' going found' thread' =>
      apply exists_setNode ⟨clientNode, found, ok, thread, never⟩
      rintro rfl
      cases found.symm.trans found'
      cases ok' <;> cases thread.symm.trans thread'

/-- A lost handler stays lost. -/
theorem Listener.Lost.run {node : Nat} {events : List LifeEvent} {outputs : List (Option Nat)}
    (consistent : listener.Consistent) (lost : listener.Lost node)
    (execution : run lifeStep listener events = some (outputs, listener')) :
    listener'.Lost node := by
  have both : listener'.Consistent ∧ listener'.Lost node :=
    run_induction (motive := fun _ _ state => state.Consistent ∧ state.Lost node)
      ⟨consistent, lost⟩
      (fun _ _ _ _ _ _ _ held step =>
        ⟨held.1.step (lifeStep_cases step).1, held.2.step held.1 (lifeStep_cases step).1⟩) execution
  exact both.2

theorem Listener.Lost.not_collected {node : Nat} (consistent : listener.Consistent)
    (lost : listener.Lost node) : ¬listener.Collected := by
  intro collected
  rcases lost with ⟨clientNode, found, ok, thread, never⟩
  have joined := (collected node clientNode found ok thread).1
  rcases never with rfl | ⟨unjoined, _⟩
  · cases thread.symm.trans (consistent.joined node clientNode found joined)
  · contradiction

/-- A step that keeps the list sound and loses no handler is orderly. -/
theorem Listener.orderly_of_sound (consistent : listener.Consistent)
    (step : LifeStep listener event listener') (sound : listener'.Sound)
    (kept : ∀ node, ¬listener'.Lost node) : listener.Orderly event := by
  cases step with
  | moves event pc' going orderly _ _ apart cleans ends => exact orderly
  | creates ret pc => trivial
  | inserts node pc =>
      intro other inserting
      rw [pc] at inserting
      cases inserting
      exact sound.created node List.mem_cons_self
  | drops node pc =>
      intro other inserting clientNode found progress thread
      cases progress with
      | ended ok =>
          have unjoined := (consistent.inserted other clientNode found inserting).2
          exact absurd ⟨clientNode, found, ok, thread, .inr ⟨unjoined, .inl rfl⟩⟩ (kept other)
      | running => rfl
      | complete => rfl
  | joins node rest clientNode ok threadRetVal pc found complete thread =>
      have once : clientNode.joins + 1 ≤ 1 :=
        sound.joinedOnce node _ (self_mem_setNode _ node _)
      intro other visited otherNode found' _
      rw [pc] at visited
      cases visited
      cases found.symm.trans found'
      exact Nat.le_zero.mp (Nat.le_of_succ_le_succ once)
  | frees node rest clientNode pc head found =>
      have member := self_mem_setNode listener node { clientNode with freed := true }
      have ended := sound.freedLate node { clientNode with freed := true } member rfl
      intro other first otherNode found' progress thread
      rw [head] at first
      cases first
      cases found.symm.trans found'
      constructor
      · rintro rfl
        exact ended thread
      · intro hasEnded unjoined
        cases progress with
        | ended ok =>
            exact kept node ⟨{ clientNode with freed := true }, member, ok, thread,
              .inr ⟨unjoined, .inl pc⟩⟩
        | running => contradiction
        | complete => contradiction
  | completes node clientNode going found thread => trivial
  | ends node clientNode ok going found thread =>
      have member := self_mem_setNode listener node
        { clientNode with thread := some (.ended ok) }
      constructor
      · by_contra failed
        exact kept node ⟨{ clientNode with thread := some (.ended ok) }, member, ok, rfl,
          .inl (Bool.eq_false_of_not_eq_true failed)⟩
      · by_contra gone
        rw [not_or] at gone
        have away := consistent.unlisted node clientNode found gone.1
        have unjoined : clientNode.joins = 0 :=
          consistent.joins_eq_zero found (by rw [thread]; cases ok <;> simp)
        exact kept node ⟨{ clientNode with thread := some (.ended ok) }, member, ok, rfl,
          .inr ⟨unjoined, away.resolve_left gone.2⟩⟩

theorem orderly_of_keepsLaw {events : List LifeEvent} {outputs : List (Option Nat)}
    (execution : run lifeStep Listener.start events = some (outputs, listener))
    (law : Listener.KeepsLaw events listener) :
    Along lifeStep Listener.Orderly Listener.start events := by
  rcases law with ⟨sound, collected⟩
  apply along_of_splits
  rintro front event back outputs' middle rfl before
  rcases (run_append_eq_some_iff ..).mp execution with ⟨_, _, rest, first, second, rfl⟩
  cases before.symm.trans first
  rcases (run_cons_eq_some_iff ..).mp second with ⟨output, next, last, step, remaining, rfl⟩
  have after : run lifeStep Listener.start (front ++ [event]) =
      some (outputs' ++ [output], next) :=
    (run_concat_eq_some_iff ..).mpr ⟨middle, outputs', output, first, step, rfl⟩
  have prefixed : front ++ [event] <+: front ++ event :: back := by simp
  apply Listener.orderly_of_sound (Listener.consistent_of_run first) (lifeStep_cases step).1
  · exact sound _ prefixed _ next after
  · intro node lost
    exact (lost.run (Listener.consistent_of_run after) remaining).not_collected
      (Listener.consistent_of_run execution) collected

theorem keepsLaw_of_orderly {events : List LifeEvent} {outputs : List (Option Nat)}
    (execution : run lifeStep Listener.start events = some (outputs, listener))
    (done : listener.pc = .done)
    (orderly : Along lifeStep Listener.Orderly Listener.start events) :
    Listener.KeepsLaw events listener := by
  have tidy {front : List LifeEvent} {outputs' : List (Option Nat)} {middle : Listener}
      (guarded : Along lifeStep Listener.Orderly Listener.start front)
      (reached : run lifeStep Listener.start front = some (outputs', middle)) :
      middle.Consistent ∧ middle.Tidy :=
    along_induction (motive := fun _ _ state => state.Consistent ∧ state.Tidy)
      ⟨Listener.consistent_start, Listener.tidy_start⟩
      (fun _ _ _ _ _ _ _ held orderly step =>
        ⟨held.1.step (lifeStep_cases step).1, held.2.step held.1 orderly (lifeStep_cases step).1⟩)
      guarded reached
  constructor
  · rintro front ⟨back, rfl⟩ outputs' middle reached
    exact (tidy ((along_append_iff ..).mp orderly).1 reached).2.toSound
  · rcases tidy orderly execution with ⟨consistent, tidy⟩
    intro node clientNode found ok ended
    have unlisted : node ∉ listener.head := by
      rw [consistent.done done]
      exact List.not_mem_nil
    have freed : clientNode.freed = true := by
      by_contra notFreed
      have held := tidy.held node clientNode found ok ended (Bool.eq_false_of_not_eq_true notFreed)
      simp [unlisted, done, LoopPc.inserted] at held
    exact ⟨tidy.settled node clientNode found ok ended freed, unlisted, freed⟩

/-! ## What has happened -/

section

variable {history : History} {node : Nat} {visited : Option Nat}

theorem History.completed_concat :
    (history ++ [(event, visited)]).Completed node ↔
      history.Completed node ∨ event = .complete node := by
  simp [History.Completed, eq_comm]

theorem History.ended_concat :
    (history ++ [(event, visited)]).Ended node ↔
      history.Ended node ∨ ∃ ok, event = .ends node ok := by
  simp only [History.Ended, List.map_append, List.map_cons, List.map_nil, List.mem_append,
    List.mem_singleton, Bool.exists_bool, eq_comm (a := event)]
  tauto

theorem History.created_concat :
    (history ++ [(event, visited)]).created = event.created.or history.created := by
  simp only [History.created, List.filterMap_append]
  cases created : event.created <;> simp [created]

/-- A pass comes to a node after its completion in the last step, or has come to it before. -/
theorem History.passed_concat :
    (history ++ [(event, visited)]).Passed node ↔
      history.Passed node ∨ history.Completed node ∧ visited = some node := by
  induction history with
  | nil => simp [Passed, Completed]
  | cons step history ih =>
      rw [List.cons_append, Passed, ih, Passed]
      simp only [Completed, List.map_append, List.map_cons, List.map_nil, List.mem_append,
        List.mem_cons, List.not_mem_nil, or_false, eq_comm (a := some node), eq_comm (b := step.1)]
      tauto

theorem History.Passed.completed (passed : history.Passed node) : history.Completed node := by
  induction history with
  | nil => exact passed.elim
  | cons step history ih =>
      rcases passed with ⟨completes, _⟩ | passed
      · exact List.mem_cons.mpr (.inl completes.symm)
      · exact List.mem_cons_of_mem _ (ih passed)

/-- The histories tell the same of a node. -/
structure History.Agrees (history history' : History) (node : Nat) : Prop where
  completed : history'.Completed node ↔ history.Completed node
  ended : history'.Ended node ↔ history.Ended node
  passed : history'.Passed node ↔ history.Passed node

theorem History.agrees_concat (other : event.handler ≠ some node)
    (passes : history.Completed node → visited ≠ some node) :
    history.Agrees (history ++ [(event, visited)]) node := by
  constructor
  · rw [completed_concat, or_iff_left]
    rintro rfl
    exact other rfl
  · rw [ended_concat, or_iff_left]
    rintro ⟨ok, rfl⟩
    exact other rfl
  · rw [passed_concat, or_iff_left]
    rintro ⟨completed, comes⟩
    exact passes completed comes

/-- The nodes show what has happened to them. -/
structure Listener.Recorded (listener : Listener) (history : History) : Prop where
  created : ∀ node ∈ listener.pc.inserted, ∃ clientNode ∈ listener.nodes node,
    clientNode.thread ≠ none ↔ history.created = some 0
  completed : ∀ node, ∀ clientNode ∈ listener.nodes node,
    (history.Completed node ↔ clientNode.isThreadComplete = true)
  ended : ∀ node, ∀ clientNode ∈ listener.nodes node,
    (history.Ended node ↔ ∃ ok, clientNode.thread = some (.ended ok))
  passed : ∀ node, ∀ clientNode ∈ listener.nodes node,
    (history.Passed node ↔ clientNode.joins ≠ 0)
  unknown : ∀ node, listener.nodes node = none →
    ¬history.Completed node ∧ ¬history.Ended node ∧ ¬history.Passed node

theorem Listener.recorded_start : Listener.start.Recorded [] where
  created := by rintro _ ⟨⟩
  completed := by rintro _ _ ⟨⟩
  ended := by rintro _ _ ⟨⟩
  passed := by rintro _ _ ⟨⟩
  unknown _ _ := ⟨List.not_mem_nil, by simp [History.Ended], id⟩

/-- A step of the main thread that changes no node. -/
theorem Listener.Recorded.moves {pc' : LoopPc} {head : List Nat}
    (recorded : listener.Recorded history)
    (quiet : event.handler = none)
    (passes : ∀ node ∈ visited, ∀ clientNode ∈ listener.nodes node,
      clientNode.isThreadComplete = false)
    (apart : pc'.inserted = none) :
    Recorded { listener with pc := pc', head := head } (history ++ [(event, visited)]) := by
  have agrees (node : Nat) : history.Agrees (history ++ [(event, visited)]) node := by
    apply History.agrees_concat (by simp [quiet])
    intro completed comes
    cases found : listener.nodes node with
    | none => exact (recorded.unknown node found).1 completed
    | some clientNode =>
        have complete := (recorded.completed node clientNode found).mp completed
        rw [passes node comes clientNode found] at complete
        contradiction
  constructor
  · rw [apart]
    rintro _ ⟨⟩
  · exact fun node clientNode found =>
      (agrees node).completed.trans (recorded.completed node clientNode found)
  · exact fun node clientNode found =>
      (agrees node).ended.trans (recorded.ended node clientNode found)
  · exact fun node clientNode found =>
      (agrees node).passed.trans (recorded.passed node clientNode found)
  · intro node unknown
    rw [(agrees node).completed, (agrees node).ended, (agrees node).passed]
    exact recorded.unknown node unknown

/-- A step that changes one node, of which the history then tells what it shows. -/
theorem Listener.Recorded.replace {before : ClientNode} {pc' : LoopPc} {head : List Nat}
    {threadRetVal : Bool} (recorded : listener.Recorded history)
    (found : listener.nodes node = some before) (after : ClientNode)
    (agrees : ∀ other, other ≠ node → history.Agrees (history ++ [(event, visited)]) other)
    (quiet : event.created = none) (thread : after.thread ≠ none ↔ before.thread ≠ none)
    (completed : (history ++ [(event, visited)]).Completed node ↔ after.isThreadComplete = true)
    (ended : (history ++ [(event, visited)]).Ended node ↔ ∃ ok, after.thread = some (.ended ok))
    (passed : (history ++ [(event, visited)]).Passed node ↔ after.joins ≠ 0)
    (inserted : ∀ other ∈ pc'.inserted, other ∈ listener.pc.inserted) :
    Recorded
      { listener.setNode node after with pc := pc', head := head, threadRetVal := threadRetVal }
      (history ++ [(event, visited)]) := by
  constructor
  · intro other inserting
    rw [History.created_concat, quiet, Option.none_or]
    apply exists_setNode (recorded.created other (inserted other inserting))
    rintro rfl
    rcases recorded.created other (inserted other inserting) with ⟨_, found', created⟩
    cases found.symm.trans found'
    exact thread.trans created
  · intro other otherNode member
    rcases mem_setNode.mp member with ⟨rfl, rfl⟩ | ⟨different, member⟩
    · exact completed
    · exact (agrees other different).completed.trans (recorded.completed other otherNode member)
  · intro other otherNode member
    rcases mem_setNode.mp member with ⟨rfl, rfl⟩ | ⟨different, member⟩
    · exact ended
    · exact (agrees other different).ended.trans (recorded.ended other otherNode member)
  · intro other otherNode member
    rcases mem_setNode.mp member with ⟨rfl, rfl⟩ | ⟨different, member⟩
    · exact passed
    · exact (agrees other different).passed.trans (recorded.passed other otherNode member)
  · intro other unknown
    have different : other ≠ node := by
      rintro rfl
      simp [setNode] at unknown
    have unknown' : listener.nodes other = none := by
      rw [← unknown]
      exact (Function.update_of_ne different ..).symm
    rw [(agrees other different).completed, (agrees other different).ended,
      (agrees other different).passed]
    exact recorded.unknown other unknown'

/-- Nothing has happened to a new node. -/
theorem Listener.Recorded.creates (recorded : listener.Recorded history)
    (unused : listener.nodes listener.allocated = none) (ret : Nat) :
    Recorded
      { listener.setNode listener.allocated (.fresh ret) with
        pc := .insert listener.allocated
        allocated := listener.allocated + 1 }
      (history ++ [(.pthreadCreate ret, none)]) := by
  have agrees (node : Nat) : history.Agrees (history ++ [(.pthreadCreate ret, none)]) node :=
    History.agrees_concat (by rintro ⟨⟩) (by rintro _ ⟨⟩)
  have nothing := recorded.unknown _ unused
  constructor
  · rintro _ ⟨⟩
    apply Exists.intro (ClientNode.fresh ret)
    constructor
    · exact self_mem_setNode ..
    · rw [History.created_concat, LifeEvent.created, Option.some_or, ClientNode.fresh]
      by_cases zero : ret = 0 <;> simp [zero]
  · apply forall_setNode
    · rw [(agrees _).completed]
      exact iff_of_false nothing.1 Bool.false_ne_true
    · exact fun node clientNode found =>
        (agrees node).completed.trans (recorded.completed node clientNode found)
  · apply forall_setNode
    · rw [(agrees _).ended]
      apply iff_of_false nothing.2.1
      unfold ClientNode.fresh
      split <;> simp
    · exact fun node clientNode found =>
        (agrees node).ended.trans (recorded.ended node clientNode found)
  · apply forall_setNode
    · rw [(agrees _).passed]
      exact iff_of_false nothing.2.2 (absurd rfl)
    · exact fun node clientNode found =>
        (agrees node).passed.trans (recorded.passed node clientNode found)
  · intro node unknown
    have different : node ≠ listener.allocated := by
      rintro rfl
      simp [setNode] at unknown
    have unknown' : listener.nodes node = none := by
      rw [← unknown]
      exact (Function.update_of_ne different ..).symm
    rw [(agrees node).completed, (agrees node).ended, (agrees node).passed]
    exact recorded.unknown node unknown'

/-- A pass that joins a thread. -/
theorem Listener.Recorded.joins {clientNode : ClientNode} {pc' : LoopPc} {threadRetVal : Bool}
    (recorded : listener.Recorded history) (found : listener.nodes node = some clientNode)
    (complete : clientNode.isThreadComplete = true) (apart : pc'.inserted = none) :
    Recorded
      { listener.setNode node { clientNode with joins := clientNode.joins + 1 } with
        pc := pc', threadRetVal := threadRetVal }
      (history ++ [(.visit, some node)]) := by
  have completed := (recorded.completed node clientNode found).mpr complete
  apply recorded.replace found { clientNode with joins := clientNode.joins + 1 }
  · exact fun other different => History.agrees_concat (by rintro ⟨⟩) fun _ same =>
      different (Option.some.inj same).symm
  · rfl
  · rfl
  · rw [History.completed_concat]
    exact iff_of_true (.inl completed) complete
  · rw [History.ended_concat, or_iff_left (by simp)]
    exact recorded.ended node clientNode found
  · rw [History.passed_concat]
    exact iff_of_true (.inr ⟨completed, rfl⟩) (Nat.succ_ne_zero _)
  · rw [apart]
    rintro _ ⟨⟩

theorem Listener.Recorded.step (consistent : listener.Consistent)
    (recorded : listener.Recorded history) (step : LifeStep listener event listener') :
    listener'.Recorded (history ++ [(event, listener.comesTo event)]) := by
  cases step with
  | moves event pc' going orderly quiet passes apart cleans ends =>
      exact recorded.moves quiet passes apart.2
  | creates ret pc => exact recorded.creates (consistent.absent _ (Nat.le_refl _)) ret
  | inserts node pc => exact recorded.moves rfl (by rintro _ ⟨⟩) rfl
  | drops node pc => exact recorded.moves rfl (by rintro _ ⟨⟩) rfl
  | joins node rest clientNode ok threadRetVal pc found complete thread =>
      have comes : listener.comesTo .visit = some node := by
        rw [Listener.comesTo, pc]
        rfl
      rw [comes]
      exact recorded.joins found complete (by cases threadRetVal <;> rfl)
  | frees node rest clientNode pc head found =>
      have agrees (other : Nat) : history.Agrees (history ++ [(.free, none)]) other :=
        History.agrees_concat (by rintro ⟨⟩) (by rintro _ ⟨⟩)
      exact recorded.replace found _ (fun other _ => agrees other) rfl Iff.rfl
        ((agrees node).completed.trans (recorded.completed node clientNode found))
        ((agrees node).ended.trans (recorded.ended node clientNode found))
        ((agrees node).passed.trans (recorded.passed node clientNode found)) fun _ => id
  | completes node clientNode going found thread =>
      apply recorded.replace found
        { clientNode with isThreadComplete := true, thread := some .complete }
      · intro other different
        apply History.agrees_concat _ (by rintro _ ⟨⟩)
        exact fun same => different (Option.some.inj same).symm
      · rfl
      · simp [thread]
      · rw [History.completed_concat]
        exact iff_of_true (.inr rfl) rfl
      · rw [History.ended_concat, or_iff_left (by simp), recorded.ended node clientNode found]
        simp [thread]
      · rw [History.passed_concat, or_iff_left (by rintro ⟨_, ⟨⟩⟩)]
        exact recorded.passed node clientNode found
      · exact fun _ => id
  | ends node clientNode ok going found thread =>
      apply recorded.replace found { clientNode with thread := some (.ended ok) }
      · intro other different
        apply History.agrees_concat _ (by rintro _ ⟨⟩)
        exact fun same => different (Option.some.inj same).symm
      · rfl
      · simp [thread]
      · rw [History.completed_concat, or_iff_left (by simp)]
        exact recorded.completed node clientNode found
      · rw [History.ended_concat]
        exact iff_of_true (.inr ⟨ok, rfl⟩) ⟨ok, rfl⟩
      · rw [History.passed_concat, or_iff_left (by rintro ⟨_, ⟨⟩⟩)]
        exact recorded.passed node clientNode found
      · exact fun _ => id

/-- A timely step does what the law needs. -/
theorem Listener.Recorded.orderly (recorded : listener.Recorded history)
    (consistent : listener.Consistent) (timely : Timely history listener event) :
    listener.Orderly event := by
  cases event with
  | insert =>
      intro node inserting
      rcases recorded.created node inserting with ⟨clientNode, found, created⟩
      exact ⟨clientNode, found, created.mpr timely⟩
  | visit =>
      intro node visited clientNode found _
      by_contra joined
      exact timely node visited ((recorded.passed node clientNode found).mpr joined)
  | signal =>
      intro node inserting clientNode found progress thread
      cases progress with
      | ended ok =>
          exact absurd ((recorded.ended node clientNode found).mpr ⟨ok, thread⟩)
            (timely node inserting)
      | running => rfl
      | complete => rfl
  | free =>
      intro node first clientNode found progress thread
      rcases timely node first with ⟨completed, passed⟩
      have complete := (recorded.completed node clientNode found).mp completed
      constructor
      · rintro rfl
        rcases (consistent.marked node clientNode found).mp complete with other | other
        · cases thread.symm.trans other
        · cases thread.symm.trans other
      · intro hasEnded
        cases progress with
        | ended ok =>
            exact (recorded.passed node clientNode found).mp
              (passed ((recorded.ended node clientNode found).mpr ⟨ok, thread⟩))
        | running => contradiction
        | complete => contradiction
  | ends node ok => exact timely
  | _ => trivial

/-- Something has happened only to nodes that have been allocated. -/
theorem Listener.Recorded.exists_of_happened (recorded : listener.Recorded history)
    (happened : history.Ended node ∨ history.Passed node) :
    ∃ clientNode, listener.nodes node = some clientNode := by
  cases found : listener.nodes node with
  | some clientNode => exact ⟨clientNode, rfl⟩
  | none =>
      rcases recorded.unknown node found with ⟨_, notEnded, notPassed⟩
      exact absurd happened (not_or.mpr ⟨notEnded, notPassed⟩)

/-- A step that does what the law needs is timely. -/
theorem Listener.Recorded.timely (recorded : listener.Recorded history)
    (consistent : listener.Consistent) (sound : listener.Sound) (orderly : listener.Orderly event)
    (step : listener.next event = some listener') : Timely history listener event := by
  cases event with
  | insert =>
      cases pc : listener.pc with
      | insert node =>
          have inserting : node ∈ listener.pc.inserted := by rw [pc]; rfl
          rcases recorded.created node inserting with ⟨clientNode, found, created⟩
          rcases orderly node inserting with ⟨clientNode', found', thread⟩
          cases (show listener.nodes node = _ from found).symm.trans found'
          exact created.mp thread
      | _ => simp [Listener.next, pc] at step
  | visit =>
      intro node visited passed
      rcases recorded.exists_of_happened (.inr passed) with ⟨clientNode, found⟩
      have complete := (recorded.completed node clientNode found).mp passed.completed
      exact (recorded.passed node clientNode found).mp passed
        (orderly node visited clientNode found complete)
  | signal =>
      intro node inserting ended
      rcases recorded.exists_of_happened (.inl ended) with ⟨clientNode, found⟩
      rcases (recorded.ended node clientNode found).mp ended with ⟨ok, thread⟩
      have unended := orderly node inserting clientNode found (.ended ok) thread
      contradiction
  | free =>
      intro node first
      rcases sound.created node (List.mem_of_mem_head? first) with ⟨clientNode, found, created⟩
      rcases Option.ne_none_iff_exists'.mp created with ⟨progress, thread⟩
      rcases orderly node first clientNode found progress thread with ⟨stopped, joined⟩
      constructor
      · rw [recorded.completed node clientNode found, consistent.marked node clientNode found]
        cases progress with
        | running => exact absurd rfl stopped
        | complete => exact .inl thread
        | ended ok => exact .inr (consistent.joined node clientNode found (joined rfl))
      · intro ended
        rcases (recorded.ended node clientNode found).mp ended with ⟨ok, thread'⟩
        cases thread.symm.trans thread'
        exact (recorded.passed node clientNode found).mpr (joined rfl)
  | ends node ok => exact orderly
  | _ => trivial

/-- What always holds of a run with its history. -/
theorem Listener.recorded_of_run {events : List LifeEvent} {outputs : List (Option Nat)}
    (execution : run (remembering lifeStep) ([], .start) events =
      some (outputs, (history, listener))) : listener.Consistent ∧ listener.Recorded history := by
  apply run_induction (motive := fun _ _ state => state.2.Consistent ∧ state.2.Recorded state.1)
    _ _ execution
  · exact ⟨consistent_start, recorded_start⟩
  · rintro _ _ ⟨history, middle⟩ event output ⟨history', target⟩ _ ⟨consistent, recorded⟩ step
    rcases remembering_eq_some_iff.mp step with ⟨plain, rfl⟩
    rcases lifeStep_cases plain with ⟨taken, rfl⟩
    exact ⟨consistent.step taken, recorded.step consistent taken⟩

theorem timely_of_keepsLaw {events : List LifeEvent} {outputs : List (Option Nat)}
    (execution : run lifeStep Listener.start events = some (outputs, listener))
    (law : Listener.KeepsLaw events listener) : AllTimely events := by
  have orderly := orderly_of_keepsLaw execution law
  apply along_of_splits
  rintro front event back outputs' ⟨history, middle⟩ rfl before
  have reached := exists_run_remembering_iff.mp ⟨history, before⟩
  rcases Listener.recorded_of_run before with ⟨consistent, recorded⟩
  rcases (run_append_eq_some_iff ..).mp execution with ⟨_, _, rest, first, second, _⟩
  cases reached.symm.trans first
  rcases (run_cons_eq_some_iff ..).mp second with ⟨_, next, _, step, _, _⟩
  rcases Option.map_eq_some_iff.mp step with ⟨_, step, _⟩
  exact recorded.timely consistent (law.1 front (List.prefix_append ..) _ _ reached)
    (((along_append_iff ..).mp orderly).2 _ _ reached).1 step

theorem orderly_of_timely {events : List LifeEvent} (timely : AllTimely events) :
    Along lifeStep Listener.Orderly Listener.start events := by
  apply along_of_splits
  rintro front event back outputs middle rfl before
  rcases exists_run_remembering_iff.mpr before with ⟨history, before⟩
  rcases Listener.recorded_of_run before with ⟨consistent, recorded⟩
  exact recorded.orderly consistent (((along_append_iff ..).mp timely).2 _ _ before).1

end

/-- A run to the end that does not keep the law. -/
def BreaksLaw (events : List LifeEvent) : Prop :=
  ∃ outputs final, run lifeStep Listener.start events = some (outputs, final) ∧
    final.pc = .done ∧ ¬Listener.KeepsLaw events final

end

end Aesd.Server
