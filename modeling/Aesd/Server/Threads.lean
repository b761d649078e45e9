import Aesd.Server.Handler

/-!
# The life of the handler threads

`accept_and_log_client` allocates a node for each connection, creates its thread
and then joins the threads whose nodes are marked complete; `cleanup_on_exit`
frees the nodes.  The threads end in any order.  A node stays in the list when
its thread has been joined or could not be created, and cleanup joins nothing.
-/

namespace Aesd.Server

open Aesd.Transition

/-- What a handler thread does: it runs, it has set `isThreadComplete` and no
longer uses its node, or it has returned `thread_param` or, on an error, null. -/
inductive Progress where
  | running
  | complete
  | ended (ok : Bool)
  deriving DecidableEq, Repr

def Progress.hasEnded : Progress → Bool
  | .ended _ => true
  | _ => false

/-- A node of the list, with its thread if one was created, and how often that
thread has been joined. -/
structure ClientNode where
  isThreadComplete : Bool
  thread : Option Progress
  joins : Nat
  freed : Bool
  deriving DecidableEq, Repr

/-- The next step of the main thread; `visit` holds the rest of the list. -/
inductive LoopPc where
  | accept
  | malloc
  | create
  | insert (node : Nat)
  | visit (nodes : List Nat)
  | cleanup
  | done
  deriving DecidableEq, Repr

/-- The node that a pass of the loop comes to. -/
def LoopPc.visited : LoopPc → Option Nat
  | .visit (node :: _) => some node
  | _ => none

/-- The node that is about to be inserted. -/
def LoopPc.inserted : LoopPc → Option Nat
  | .insert node => some node
  | _ => none

/-- The loop and its list; nodes are numbered in the order of their allocation. -/
structure Listener where
  pc : LoopPc
  head : List Nat
  nodes : Nat → Option ClientNode
  allocated : Nat
  /-- Whether `threadRetVal` is not null. -/
  threadRetVal : Bool

/-- Before the first connection. -/
def Listener.start : Listener where
  pc := .accept
  head := []
  nodes _ := none
  allocated := 0
  threadRetVal := false

def Listener.setNode (listener : Listener) (node : Nat) (clientNode : ClientNode) : Listener :=
  { listener with nodes := Function.update listener.nodes node (some clientNode) }

/-- A step of the main thread, a termination signal, or a handler that completes
or ends. -/
inductive LifeEvent where
  | accept (ok : Bool)
  | malloc (ok : Bool)
  | pthreadCreate (ret : Nat)
  | insert
  | visit
  | signal
  | free
  | complete (node : Nat)
  | ends (node : Nat) (ok : Bool)
  deriving DecidableEq, Repr

/-- The node of a new connection. -/
def ClientNode.fresh (ret : Nat) : ClientNode where
  isThreadComplete := false
  thread := if ret = 0 then some .running else none
  joins := 0
  freed := false

/-- The visit of a node: a complete thread is joined, once it has ended.  A second
join reports an error number, which is not tested for, and stores nothing. -/
def visitNode (listener : Listener) (node : Nat) (rest : List Nat) (clientNode : ClientNode) :
    Option Listener :=
  if clientNode.isThreadComplete then
    match clientNode.thread with
    | some (.ended ok) =>
        let threadRetVal := if clientNode.joins = 0 then ok else listener.threadRetVal
        some { listener.setNode node { clientNode with joins := clientNode.joins + 1 } with
          pc := if threadRetVal then .visit rest else .cleanup
          threadRetVal := threadRetVal }
    | _ => none
  else
    some { listener with pc := .visit rest }

/-- Cleanup frees the first node of the list, or ends. -/
def freeNode (listener : Listener) : Option Listener :=
  match listener.head with
  | [] => some { listener with pc := .done }
  | node :: rest =>
      (listener.nodes node).map fun clientNode =>
        { listener.setNode node { clientNode with freed := true } with head := rest }

/-- The step of a handler thread. -/
def threadStep (listener : Listener) (node : Nat) (step : Progress → Option Progress) :
    Option Listener :=
  if listener.pc = .done then
    none
  else
    (listener.nodes node).bind fun clientNode =>
      (clientNode.thread.bind step).map fun progress =>
        listener.setNode node
          { clientNode with
            isThreadComplete := clientNode.isThreadComplete || progress == .complete
            thread := some progress }

/-- `isThreadComplete` is set at the end of a handler that has met no error. -/
def Progress.completes : Progress → Option Progress
  | .running => some .complete
  | _ => none

def Progress.ends (ok : Bool) : Progress → Option Progress
  | .running => if ok then none else some (.ended false)
  | .complete => if ok then some (.ended true) else none
  | .ended _ => none

/-- The listener after a step of the main thread or of a handler. -/
def Listener.next (listener : Listener) (event : LifeEvent) : Option Listener :=
  match event, listener.pc with
  | .accept ok, .accept => some { listener with pc := if ok then .malloc else .cleanup }
  | .malloc ok, .malloc => some { listener with pc := if ok then .create else .cleanup }
  | .pthreadCreate ret, .create =>
      if (ret : Int) = -1 then
        some { listener with pc := .cleanup }
      else
        some { listener.setNode listener.allocated (.fresh ret) with
          pc := .insert listener.allocated
          allocated := listener.allocated + 1 }
  | .insert, .insert node =>
      some { listener with pc := .visit (node :: listener.head), head := node :: listener.head }
  | .visit, .visit [] => some { listener with pc := .accept }
  | .visit, .visit (node :: rest) => (listener.nodes node).bind (visitNode listener node rest)
  | .signal, .cleanup => none
  | .signal, .done => none
  | .signal, _ => some { listener with pc := .cleanup }
  | .free, .cleanup => freeNode listener
  | .complete node, _ => threadStep listener node Progress.completes
  | .ends node ok, _ => threadStep listener node (Progress.ends ok)
  | _, _ => none

/-- The node that a pass comes to in the step. -/
def Listener.comesTo (listener : Listener) : LifeEvent → Option Nat
  | .visit => listener.pc.visited
  | _ => none

/-- One step, which shows the node that a pass comes to. -/
def lifeStep : Machine Listener LifeEvent (Option Nat)
  | listener, event =>
      (listener.next event).map fun listener' => (listener.comesTo event, listener')

/-! ## The law of the life cycle -/

namespace Listener

/-- Every node in the list belongs to a thread that was created, no thread has been
joined twice, and no node has been freed while its handler runs. -/
structure Sound (listener : Listener) : Prop where
  created : ∀ node ∈ listener.head, ∃ clientNode ∈ listener.nodes node, clientNode.thread ≠ none
  joinedOnce : ∀ node, ∀ clientNode ∈ listener.nodes node, clientNode.joins ≤ 1
  freedLate : ∀ node, ∀ clientNode ∈ listener.nodes node, clientNode.freed = true →
    clientNode.thread ≠ some .running

/-- Every handler that has ended has been joined, and its node is freed. -/
def Collected (listener : Listener) : Prop :=
  ∀ node, ∀ clientNode ∈ listener.nodes node, ∀ ok, clientNode.thread = some (.ended ok) →
    clientNode.joins ≠ 0 ∧ node ∉ listener.head ∧ clientNode.freed = true

/-- The law for a run to its end: it is kept at every moment, and at the end no handler
is left over. -/
def KeepsLaw (events : List LifeEvent) (final : Listener) : Prop :=
  (∀ front, front <+: events → ∀ outputs middle,
    run lifeStep Listener.start front = some (outputs, middle) → middle.Sound) ∧ final.Collected

/-- What the law needs of a step: the node that is inserted has a thread; a node that a
pass finds complete has not been joined; a handler ends without an error, and before its
node has left the list; when a signal keeps a node from being inserted its handler has not
ended; and when cleanup comes to a node its handler no longer runs and, if it has ended,
has been joined. -/
def Orderly (listener : Listener) : LifeEvent → Prop
  | .insert =>
      ∀ node ∈ listener.pc.inserted, ∃ clientNode ∈ listener.nodes node, clientNode.thread ≠ none
  | .visit =>
      ∀ node ∈ listener.pc.visited, ∀ clientNode ∈ listener.nodes node,
        clientNode.isThreadComplete = true → clientNode.joins = 0
  | .signal =>
      ∀ node ∈ listener.pc.inserted, ∀ clientNode ∈ listener.nodes node,
        ∀ progress ∈ clientNode.thread, progress.hasEnded = false
  | .free =>
      ∀ node ∈ listener.head.head?, ∀ clientNode ∈ listener.nodes node,
        ∀ progress ∈ clientNode.thread, progress ≠ .running ∧
          (progress.hasEnded = true → clientNode.joins ≠ 0)
  | .ends node ok => ok = true ∧ (node ∈ listener.head ∨ listener.pc.inserted = some node)
  | _ => True

instance (listener : Listener) : ∀ event, Decidable (listener.Orderly event)
  | .insert => inferInstanceAs (Decidable (∀ node ∈ listener.pc.inserted,
      ∃ clientNode ∈ listener.nodes node, _))
  | .visit => inferInstanceAs (Decidable (∀ node ∈ listener.pc.visited,
      ∀ clientNode ∈ listener.nodes node, _ → _))
  | .free => inferInstanceAs (Decidable (∀ node ∈ listener.head.head?,
      ∀ clientNode ∈ listener.nodes node, ∀ progress ∈ clientNode.thread, _ ∧ (_ → _)))
  | .signal => inferInstanceAs (Decidable (∀ node ∈ listener.pc.inserted,
      ∀ clientNode ∈ listener.nodes node, ∀ progress ∈ clientNode.thread, _))
  | .ends _ _ => inferInstanceAs (Decidable (_ ∧ (_ ∨ _)))
  | .accept _ | .malloc _ | .pthreadCreate _ | .complete _ => isTrue trivial

end Listener

/-- The node whose handler takes the step. -/
def LifeEvent.handler : LifeEvent → Option Nat
  | .complete node => some node
  | .ends node _ => some node
  | _ => none

/-! ## The steps -/

/-- The steps by what they do to the list and its nodes. -/
inductive LifeStep (listener : Listener) : LifeEvent → Listener → Prop
  | moves (event : LifeEvent) (pc' : LoopPc) (going : listener.pc ≠ .done)
      (orderly : listener.Orderly event) (quiet : event.handler = none)
      (passes : ∀ node ∈ listener.comesTo event, ∀ clientNode ∈ listener.nodes node,
        clientNode.isThreadComplete = false)
      (apart : listener.pc.inserted = none ∧ pc'.inserted = none)
      (cleans : listener.pc = .cleanup → pc' = .done)
      (ends : pc' = .done → listener.pc = .cleanup ∧ listener.head = []) :
      LifeStep listener event { listener with pc := pc' }
  | creates (ret : Nat) (pc : listener.pc = .create) :
      LifeStep listener (.pthreadCreate ret)
        { listener.setNode listener.allocated (.fresh ret) with
          pc := .insert listener.allocated
          allocated := listener.allocated + 1 }
  | inserts (node : Nat) (pc : listener.pc = .insert node) :
      LifeStep listener .insert
        { listener with pc := .visit (node :: listener.head), head := node :: listener.head }
  | drops (node : Nat) (pc : listener.pc = .insert node) :
      LifeStep listener .signal { listener with pc := .cleanup }
  | joins (node : Nat) (rest : List Nat) (clientNode : ClientNode) (ok threadRetVal : Bool)
      (pc : listener.pc = .visit (node :: rest)) (found : listener.nodes node = some clientNode)
      (complete : clientNode.isThreadComplete = true)
      (thread : clientNode.thread = some (.ended ok)) :
      LifeStep listener .visit
        { listener.setNode node { clientNode with joins := clientNode.joins + 1 } with
          pc := if threadRetVal then .visit rest else .cleanup
          threadRetVal := threadRetVal }
  | frees (node : Nat) (rest : List Nat) (clientNode : ClientNode) (pc : listener.pc = .cleanup)
      (head : listener.head = node :: rest) (found : listener.nodes node = some clientNode) :
      LifeStep listener .free
        { listener.setNode node { clientNode with freed := true } with head := rest }
  | completes (node : Nat) (clientNode : ClientNode) (going : listener.pc ≠ .done)
      (found : listener.nodes node = some clientNode)
      (thread : clientNode.thread = some .running) :
      LifeStep listener (.complete node)
        (listener.setNode node
          { clientNode with isThreadComplete := true, thread := some .complete })
  | ends (node : Nat) (clientNode : ClientNode) (ok : Bool) (going : listener.pc ≠ .done)
      (found : listener.nodes node = some clientNode)
      (thread : clientNode.thread = some (if ok then .complete else .running)) :
      LifeStep listener (.ends node ok)
        (listener.setNode node { clientNode with thread := some (.ended ok) })

theorem threadStep_eq_some {listener listener' : Listener} {node : Nat}
    {step : Progress → Option Progress} (result : threadStep listener node step = some listener') :
    listener.pc ≠ .done ∧ ∃ clientNode before after, listener.nodes node = some clientNode ∧
      clientNode.thread = some before ∧ step before = some after ∧
      listener' = listener.setNode node
        { clientNode with
          isThreadComplete := clientNode.isThreadComplete || after == .complete
          thread := some after } := by
  unfold threadStep at result
  split at result
  · contradiction
  · rename_i going
    simp only [Option.bind_eq_some_iff, Option.map_eq_some_iff] at result
    rcases result with ⟨clientNode, found, after, ⟨before, thread, stepped⟩, rfl⟩
    exact ⟨going, clientNode, before, after, found, thread, stepped, rfl⟩

section

variable {listener listener' : Listener} {event : LifeEvent}

/-- A move of the main thread before cleanup. -/
theorem LifeStep.ofMove {pc pc' : LoopPc} (here : listener.pc = pc)
    (main : pc ≠ .cleanup ∧ pc ≠ .done) (notDone : pc' ≠ .done)
    (apart : pc.inserted = none ∧ pc'.inserted = none) (orderly : listener.Orderly event)
    (quiet : event.handler = none)
    (passes : ∀ node ∈ listener.comesTo event, ∀ clientNode ∈ listener.nodes node,
      clientNode.isThreadComplete = false) :
    LifeStep listener event { listener with pc := pc' } :=
  .moves event pc' (here ▸ main.2) orderly quiet passes (here ▸ apart)
    (fun cleans => absurd (here.symm.trans cleans) main.1) fun ends => absurd ends notDone

/-- The steps until a client has its node and its thread. -/
theorem lifeStep_cases_accept (step : listener.next event = some listener')
    (accepts : (∃ ok, event = .accept ok) ∨ (∃ ok, event = .malloc ok) ∨
      ∃ ret, event = .pthreadCreate ret) : LifeStep listener event listener' := by
  rcases accepts with ⟨ok, rfl⟩ | ⟨ok, rfl⟩ | ⟨ret, rfl⟩
  · cases pc : listener.pc with
    | accept =>
        simp only [Listener.next, pc, Option.some.injEq] at step
        subst step
        exact .ofMove pc (by decide) (by cases ok <;> decide) (by cases ok <;> decide) trivial rfl
          (by rintro _ ⟨⟩)
    | _ => simp [Listener.next, pc] at step
  · cases pc : listener.pc with
    | malloc =>
        simp only [Listener.next, pc, Option.some.injEq] at step
        subst step
        exact .ofMove pc (by decide) (by cases ok <;> decide) (by cases ok <;> decide) trivial rfl
          (by rintro _ ⟨⟩)
    | _ => simp [Listener.next, pc] at step
  · cases pc : listener.pc with
    | create =>
        have created : (ret : Int) ≠ -1 := by omega
        simp only [Listener.next, pc, if_neg created, Option.some.injEq] at step
        subst step
        exact .creates ret pc
    | _ => simp [Listener.next, pc] at step

/-- The step of a pass. -/
theorem lifeStep_cases_visit (step : listener.next .visit = some listener') :
    LifeStep listener .visit listener' := by
  cases pc : listener.pc with
  | visit nodes =>
      cases nodes with
      | nil =>
          simp only [Listener.next, pc, Option.some.injEq] at step
          subst step
          exact .ofMove pc (by simp) (by simp) ⟨rfl, rfl⟩
            (by simp [Listener.Orderly, LoopPc.visited, pc]) rfl
            (by simp [Listener.comesTo, LoopPc.visited, pc])
      | cons node rest =>
          simp only [Listener.next, pc, Option.bind_eq_some_iff] at step
          rcases step with ⟨clientNode, found, visited⟩
          unfold visitNode at visited
          cases complete : clientNode.isThreadComplete with
          | false =>
              simp only [complete, Bool.false_eq_true, if_false, Option.some.injEq] at visited
              subst visited
              exact .ofMove pc (by simp) (by simp) ⟨rfl, rfl⟩
                (by simp [Listener.Orderly, LoopPc.visited, pc, found, complete]) rfl
                (by simp [Listener.comesTo, LoopPc.visited, pc, found, complete])
          | true =>
              rw [if_pos complete] at visited
              split at visited
              · rename_i ok thread
                cases visited
                exact .joins node rest clientNode ok _ pc found complete thread
              · contradiction
  | _ => simp [Listener.next, pc] at step

theorem lifeStep_cases_signal (step : listener.next .signal = some listener') :
    LifeStep listener .signal listener' := by
  cases pc : listener.pc with
  | cleanup => simp [Listener.next, pc] at step
  | done => simp [Listener.next, pc] at step
  | insert node =>
      simp only [Listener.next, pc, Option.some.injEq] at step
      subst step
      exact .drops node pc
  | _ =>
      simp only [Listener.next, pc, Option.some.injEq] at step
      subst step
      exact .ofMove pc (by simp) (by simp) ⟨rfl, rfl⟩
        (by simp [Listener.Orderly, LoopPc.inserted, pc]) rfl (by rintro _ ⟨⟩)

theorem lifeStep_cases_free (step : listener.next .free = some listener') :
    LifeStep listener .free listener' := by
  cases pc : listener.pc with
  | cleanup =>
      simp only [Listener.next, pc, freeNode] at step
      split at step
      · rename_i empty
        cases step
        exact .moves .free .done (by rw [pc]; decide) (by simp [Listener.Orderly, empty]) rfl
          (by rintro _ ⟨⟩) (by rw [pc]; decide) (fun _ => rfl) (fun _ => ⟨pc, empty⟩)
      · rename_i node rest head
        simp only [Option.map_eq_some_iff] at step
        rcases step with ⟨clientNode, found, rfl⟩
        exact .frees node rest clientNode pc head found
  | _ => simp [Listener.next, pc] at step

theorem lifeStep_cases_complete {node : Nat}
    (step : threadStep listener node Progress.completes = some listener') :
    LifeStep listener (.complete node) listener' := by
  rcases threadStep_eq_some step with
    ⟨going, clientNode, before, after, found, thread, stepped, rfl⟩
  cases before with
  | running =>
      cases stepped
      have next := LifeStep.completes node clientNode going found thread
      simpa using next
  | complete => contradiction
  | ended ok => contradiction

theorem lifeStep_cases_ends {node : Nat} {ok : Bool}
    (step : threadStep listener node (Progress.ends ok) = some listener') :
    LifeStep listener (.ends node ok) listener' := by
  rcases threadStep_eq_some step with
    ⟨going, clientNode, before, after, found, thread, stepped, rfl⟩
  have both : after = .ended ok ∧ before = if ok then .complete else .running := by
    cases before <;> cases ok <;> simp_all [Progress.ends]
  rcases both with ⟨rfl, rfl⟩
  have unmarked : (Progress.ended ok == .complete) = false := rfl
  rw [unmarked, Bool.or_false]
  exact .ends node clientNode ok going found thread

/-- The machine takes exactly these steps. -/
theorem lifeStep_cases {visited : Option Nat}
    (step : lifeStep listener event = some (visited, listener')) :
    LifeStep listener event listener' ∧ visited = listener.comesTo event := by
  simp only [lifeStep, Option.map_eq_some_iff, Prod.mk.injEq] at step
  rcases step with ⟨_, step, rfl, rfl⟩
  apply And.intro _ rfl
  cases event with
  | accept ok => exact lifeStep_cases_accept step (.inl ⟨ok, rfl⟩)
  | malloc ok => exact lifeStep_cases_accept step (.inr (.inl ⟨ok, rfl⟩))
  | pthreadCreate ret => exact lifeStep_cases_accept step (.inr (.inr ⟨ret, rfl⟩))
  | insert =>
      cases pc : listener.pc with
      | insert node =>
          simp only [Listener.next, pc, Option.some.injEq] at step
          subst step
          exact .inserts node pc
      | _ => simp [Listener.next, pc] at step
  | visit => exact lifeStep_cases_visit step
  | signal => exact lifeStep_cases_signal step
  | free => exact lifeStep_cases_free step
  | complete node => exact lifeStep_cases_complete step
  | ends node ok => exact lifeStep_cases_ends step

end

/-! ## What always holds -/

namespace Listener

/-- What the list and its nodes satisfy in every run. -/
structure Consistent (listener : Listener) : Prop where
  marked : ∀ node, ∀ clientNode ∈ listener.nodes node, (clientNode.isThreadComplete = true ↔
    clientNode.thread = some .complete ∨ clientNode.thread = some (.ended true))
  joined : ∀ node, ∀ clientNode ∈ listener.nodes node, clientNode.joins ≠ 0 →
    clientNode.thread = some (.ended true)
  listed : ∀ node, ∀ clientNode ∈ listener.nodes node, node ∈ listener.head →
    clientNode.freed = false
  unlisted : ∀ node, ∀ clientNode ∈ listener.nodes node, node ∉ listener.head →
    listener.pc.inserted = some node ∨ listener.pc = .cleanup ∨ listener.pc = .done
  inserted : ∀ node, ∀ clientNode ∈ listener.nodes node, listener.pc.inserted = some node →
    clientNode.freed = false ∧ clientNode.joins = 0
  fresh : ∀ node ∈ listener.pc.inserted, node < listener.allocated ∧ node ∉ listener.head
  present : ∀ node ∈ listener.head, node < listener.allocated
  absent : ∀ node, listener.allocated ≤ node → listener.nodes node = none
  nodup : listener.head.Nodup
  done : listener.pc = .done → listener.head = []

theorem consistent_start : Listener.start.Consistent where
  marked := by rintro _ _ ⟨⟩
  joined := by rintro _ _ ⟨⟩
  listed := by rintro _ _ ⟨⟩
  unlisted := by rintro _ _ ⟨⟩
  inserted := by rintro _ _ ⟨⟩
  fresh := by rintro _ ⟨⟩
  present := by rintro _ ⟨⟩
  absent _ _ := rfl
  nodup := List.nodup_nil
  done := by rintro ⟨⟩

theorem mem_setNode {listener : Listener} {node : Nat} {clientNode : ClientNode} {other : Nat}
    {otherNode : ClientNode} :
    otherNode ∈ (listener.setNode node clientNode).nodes other ↔
      other = node ∧ otherNode = clientNode ∨
        other ≠ node ∧ otherNode ∈ listener.nodes other :=
  mem_update_some

theorem self_mem_setNode (listener : Listener) (node : Nat) (clientNode : ClientNode) :
    clientNode ∈ (listener.setNode node clientNode).nodes node :=
  mem_setNode.mpr (.inl ⟨rfl, rfl⟩)

theorem forall_setNode {listener : Listener} {node : Nat} {clientNode : ClientNode}
    {holds : Nat → ClientNode → Prop} (new : holds node clientNode)
    (old : ∀ other, ∀ otherNode ∈ listener.nodes other, holds other otherNode) :
    ∀ other, ∀ otherNode ∈ (listener.setNode node clientNode).nodes other,
      holds other otherNode :=
  forall_mem_update_some new old

theorem Consistent.absent_setNode {listener : Listener} {node : Nat} {before : ClientNode}
    (consistent : listener.Consistent) (found : listener.nodes node = some before)
    (after : ClientNode) :
    ∀ other, listener.allocated ≤ other → (listener.setNode node after).nodes other = none := by
  intro other above
  have different : other ≠ node := by
    rintro rfl
    cases found.symm.trans (consistent.absent other above)
  exact (Function.update_of_ne different ..).trans (consistent.absent other above)

/-- A thread that has not returned from its handler without an error is not joined. -/
theorem Consistent.joins_eq_zero {listener : Listener} {node : Nat} {clientNode : ClientNode}
    (consistent : listener.Consistent) (found : listener.nodes node = some clientNode)
    (thread : clientNode.thread ≠ some (.ended true)) : clientNode.joins = 0 := by
  by_contra joined
  exact thread (consistent.joined node clientNode found joined)

/-- A node is replaced by another that is freed if it is. -/
theorem Consistent.replace {listener : Listener} {node : Nat} {before : ClientNode}
    {pc' : LoopPc} {threadRetVal : Bool} (consistent : listener.Consistent)
    (found : listener.nodes node = some before) (after : ClientNode)
    (freed : after.freed = before.freed)
    (marked : after.isThreadComplete = true ↔
      after.thread = some .complete ∨ after.thread = some (.ended true))
    (joined : after.joins ≠ 0 → after.thread = some (.ended true))
    (unjoined : listener.pc.inserted = some node → after.joins = 0)
    (pcs : pc' = listener.pc ∨
      ∃ nodes, listener.pc = .visit nodes ∧ (pc' = .cleanup ∨ ∃ rest, pc' = .visit rest)) :
    Consistent { listener.setNode node after with pc := pc', threadRetVal := threadRetVal } := by
  have pcInserted : pc'.inserted = listener.pc.inserted := by
    rcases pcs with rfl | ⟨_, pc, rfl | ⟨_, rfl⟩⟩
    · rfl
    · rw [pc]
      rfl
    · rw [pc]
      rfl
  have cleaning : listener.pc = .cleanup ∨ listener.pc = .done → pc' = .cleanup ∨ pc' = .done := by
    rcases pcs with rfl | ⟨_, pc, _⟩
    · exact id
    · rintro (cleaning | done) <;> rw [pc] at * <;> contradiction
  have unlisted (other : Nat) (otherNode : ClientNode) (member : otherNode ∈ listener.nodes other)
      (notListed : other ∉ listener.head) :
      pc'.inserted = some other ∨ pc' = .cleanup ∨ pc' = .done :=
    (consistent.unlisted other otherNode member notListed).imp (pcInserted ▸ id) cleaning
  constructor
  · exact forall_setNode marked consistent.marked
  · exact forall_setNode joined consistent.joined
  · exact forall_setNode (freed ▸ consistent.listed node before found) consistent.listed
  · exact forall_setNode (unlisted node before found) unlisted
  · rw [pcInserted]
    apply forall_setNode _ consistent.inserted
    intro inserting
    exact ⟨freed.trans (consistent.inserted node before found inserting).1, unjoined inserting⟩
  · exact pcInserted ▸ consistent.fresh
  · exact consistent.present
  · exact consistent.absent_setNode found after
  · exact consistent.nodup
  · rintro rfl
    rcases pcs with done | ⟨_, _, done | ⟨_, done⟩⟩
    · exact consistent.done done.symm
    · contradiction
    · contradiction

end Listener

section

variable {listener listener' : Listener} {event : LifeEvent}

theorem Listener.Consistent.moves {pc' : LoopPc} (consistent : listener.Consistent)
    (apart : listener.pc.inserted = none ∧ pc'.inserted = none)
    (going : listener.pc ≠ .done) (cleans : listener.pc = .cleanup → pc' = .done)
    (ends : pc' = .done → listener.head = []) : Consistent { listener with pc := pc' } := by
  constructor
  · exact consistent.marked
  · exact consistent.joined
  · exact consistent.listed
  · intro node clientNode member notListed
    rcases consistent.unlisted node clientNode member notListed with inserting | cleaning | done
    · cases apart.1.symm.trans inserting
    · exact .inr (.inr (cleans cleaning))
    · contradiction
  · intro node clientNode member inserting
    cases apart.2.symm.trans inserting
  · intro node inserting
    cases apart.2.symm.trans inserting
  · exact consistent.present
  · exact consistent.absent
  · exact consistent.nodup
  · exact ends

/-- The new node has not been used before. -/
theorem Listener.Consistent.creates (consistent : listener.Consistent)
    (pc : listener.pc = .create) (ret : Nat) :
    Consistent { listener.setNode listener.allocated (.fresh ret) with
      pc := .insert listener.allocated
      allocated := listener.allocated + 1 } := by
  have older {node : Nat} {clientNode : ClientNode}
      (member : clientNode ∈ listener.nodes node) : node ∈ listener.head := by
    by_contra notListed
    have away := consistent.unlisted node clientNode member notListed
    simp [pc, LoopPc.inserted] at away
  have unlisted : listener.allocated ∉ listener.head := fun listed =>
    Nat.lt_irrefl _ (consistent.present _ listed)
  constructor
  · apply Listener.forall_setNode _ consistent.marked
    apply iff_of_false Bool.false_ne_true
    unfold ClientNode.fresh
    split <;> simp
  · exact Listener.forall_setNode (absurd rfl) consistent.joined
  · exact Listener.forall_setNode (fun _ => rfl) consistent.listed
  · exact Listener.forall_setNode (fun _ => .inl rfl)
      fun _ _ member notListed => absurd (older member) notListed
  · rintro node clientNode member ⟨⟩
    rcases Listener.mem_setNode.mp member with ⟨_, rfl⟩ | ⟨different, _⟩
    · exact ⟨rfl, rfl⟩
    · contradiction
  · rintro node ⟨⟩
    exact ⟨Nat.lt_succ_self _, unlisted⟩
  · exact fun node member => Nat.lt_succ_of_lt (consistent.present node member)
  · intro node above
    have different : node ≠ listener.allocated := Nat.ne_of_gt above
    exact (Function.update_of_ne different ..).trans
      (consistent.absent node (Nat.le_of_succ_le above))
  · exact consistent.nodup
  · rintro ⟨⟩

theorem Listener.Consistent.inserts {node : Nat} (consistent : listener.Consistent)
    (pc : listener.pc = .insert node) :
    Consistent { listener with
      pc := .visit (node :: listener.head)
      head := node :: listener.head } := by
  have inserting : listener.pc.inserted = some node := by rw [pc]; rfl
  rcases consistent.fresh node inserting with ⟨created, unlisted⟩
  constructor
  · exact consistent.marked
  · exact consistent.joined
  · intro other clientNode member listed
    rcases List.mem_cons.mp listed with rfl | listed
    · exact (consistent.inserted other clientNode member inserting).1
    · exact consistent.listed other clientNode member listed
  · intro other clientNode member notListed
    rw [List.mem_cons, not_or] at notListed
    have away := consistent.unlisted other clientNode member notListed.2
    have same : node = other := by simpa [pc, LoopPc.inserted] using away
    exact absurd same.symm notListed.1
  · rintro _ _ _ ⟨⟩
  · rintro _ ⟨⟩
  · intro other listed
    rcases List.mem_cons.mp listed with rfl | listed
    · exact created
    · exact consistent.present other listed
  · exact consistent.absent
  · exact List.nodup_cons.mpr ⟨unlisted, consistent.nodup⟩
  · rintro ⟨⟩

theorem Listener.Consistent.frees {node : Nat} {rest : List Nat} {clientNode : ClientNode}
    (consistent : listener.Consistent) (pc : listener.pc = .cleanup)
    (head : listener.head = node :: rest) (found : listener.nodes node = some clientNode) :
    Consistent { listener.setNode node { clientNode with freed := true } with head := rest } := by
  have nodup := consistent.nodup
  rw [head, List.nodup_cons] at nodup
  have cleaning : listener.pc.inserted = none := by rw [pc]; rfl
  constructor
  · exact Listener.forall_setNode (consistent.marked node clientNode found) consistent.marked
  · exact Listener.forall_setNode (consistent.joined node clientNode found) consistent.joined
  · intro other otherNode member listed
    rcases Listener.mem_setNode.mp member with ⟨rfl, rfl⟩ | ⟨_, member⟩
    · exact absurd listed nodup.1
    · exact consistent.listed other otherNode member (head ▸ List.mem_cons_of_mem node listed)
  · exact fun _ _ _ _ => .inr (.inl pc)
  · intro _ _ _ inserting
    cases cleaning.symm.trans inserting
  · intro _ inserting
    cases cleaning.symm.trans inserting
  · intro other listed
    exact consistent.present other (head ▸ List.mem_cons_of_mem node listed)
  · exact consistent.absent_setNode found _
  · exact nodup.2
  · intro done
    cases pc.symm.trans done

theorem Listener.Consistent.ends {node : Nat} {clientNode : ClientNode} {ok : Bool}
    (consistent : listener.Consistent) (found : listener.nodes node = some clientNode)
    (thread : clientNode.thread = some (if ok then .complete else .running)) :
    (listener.setNode node { clientNode with thread := some (.ended ok) }).Consistent := by
  have notJoined : clientNode.joins = 0 :=
    consistent.joins_eq_zero found (by rw [thread]; cases ok <;> simp)
  have marked : clientNode.isThreadComplete = true ↔
      some (Progress.ended ok) = some .complete ∨
        some (Progress.ended ok) = some (.ended true) := by
    rw [consistent.marked node clientNode found, thread]
    cases ok <;> simp
  exact consistent.replace found _ rfl marked (absurd notJoined) (fun _ => notJoined) (.inl rfl)

/-- A node that is joined belongs to a handler that has returned without an error. -/
theorem Listener.Consistent.returned {node : Nat} {clientNode : ClientNode} {ok : Bool}
    (consistent : listener.Consistent) (found : listener.nodes node = some clientNode)
    (complete : clientNode.isThreadComplete = true)
    (thread : clientNode.thread = some (.ended ok)) : clientNode.thread = some (.ended true) := by
  rcases (consistent.marked node clientNode found).mp complete with marked | marked
  · cases thread.symm.trans marked
  · exact marked

theorem Listener.Consistent.step (consistent : listener.Consistent)
    (step : LifeStep listener event listener') : listener'.Consistent := by
  cases step with
  | moves event pc' going orderly quiet passes apart cleans ends =>
      exact consistent.moves apart going cleans fun done => (ends done).2
  | creates ret pc => exact consistent.creates pc ret
  | inserts node pc => exact consistent.inserts pc
  | drops node pc =>
      exact {
        consistent with
        unlisted := fun _ _ _ _ => .inr (.inl rfl)
        inserted := by rintro _ _ _ ⟨⟩
        fresh := by rintro _ ⟨⟩
        done := by rintro ⟨⟩ }
  | joins node rest clientNode ok threadRetVal pc found complete thread =>
      have returned := consistent.returned found complete thread
      apply consistent.replace found { clientNode with joins := clientNode.joins + 1 } rfl
        (iff_of_true complete (.inr returned)) (fun _ => returned)
      · rw [pc]
        rintro ⟨⟩
      · cases threadRetVal with
        | true => exact .inr ⟨_, pc, .inr ⟨rest, rfl⟩⟩
        | false => exact .inr ⟨_, pc, .inl rfl⟩
  | frees node rest clientNode pc head found => exact consistent.frees pc head found
  | completes node clientNode going found thread =>
      have notJoined : clientNode.joins = 0 :=
        consistent.joins_eq_zero found (by rw [thread]; simp)
      exact consistent.replace found _ rfl (iff_of_true rfl (.inl rfl)) (absurd notJoined)
        (fun _ => notJoined) (.inl rfl)
  | ends node clientNode ok going found thread => exact consistent.ends found thread

theorem Listener.consistent_of_run {events : List LifeEvent} {outputs : List (Option Nat)}
    (execution : run lifeStep Listener.start events = some (outputs, listener)) :
    listener.Consistent :=
  run_induction (motive := fun _ _ state => state.Consistent) Listener.consistent_start
    (fun _ _ _ _ _ _ _ consistent step => consistent.step (lifeStep_cases step).1) execution

end

/-! ## The handlers -/

/-- What a handler shows the accept loop. -/
def Pc.progress : Pc → Progress
  | .load .closeFinal => .complete
  | .call .closeFinal _ => .complete
  | .returned ok => .ended ok
  | _ => .running

/-- The node is that of the handler. -/
def ClientNode.Tracks (clientNode : ClientNode) (handler : Handler) : Prop :=
  clientNode.thread = some handler.pc.progress ∧
    clientNode.isThreadComplete = handler.isThreadComplete

theorem ClientNode.tracks_fresh (clientSocketFd : Nat) (incoming : List Chunk) :
    (ClientNode.fresh 0).Tracks (clientDataHandler clientSocketFd incoming) :=
  ⟨rfl, rfl⟩

section

variable {τ : Type} {self : τ} {outcome : Outcome} {handler handler' : Handler}
  {process process' : Process τ} {answer : Answer}

theorem progress_afterIteration (handler : Handler) :
    handler.afterIteration.pc.progress = .running ∧
      handler.afterIteration.isThreadComplete = handler.isThreadComplete := by
  rcases pc_afterIteration handler with pc | pc | pc <;> rw [pc] <;> exact ⟨rfl, rfl⟩

theorem progress_afterCheck (site : OpenSite) (fd : Int) :
    (site.afterCheck fd).progress = .running ∨
      (site.afterCheck fd).progress = .ended false := by
  rcases site.afterCheck_cases fd with ⟨_, _, failed⟩ | ⟨_, next⟩
  · exact .inr (congrArg Pc.progress failed)
  · left
    rw [next]
    cases site <;> rfl

/-- A step of a handler leaves what it shows alone, or completes it, or ends it. -/
theorem HandlerStep.progress_cases
    (step : HandlerStep self outcome handler process answer handler' process') :
    handler'.pc.progress = handler.pc.progress ∧
        handler'.isThreadComplete = handler.isThreadComplete ∨
      handler.pc.progress.completes = some handler'.pc.progress ∧
        handler'.isThreadComplete = true ∨
      ∃ ok, handler.pc.progress.ends ok = some handler'.pc.progress ∧
        handler'.isThreadComplete = handler.isThreadComplete := by
  cases step with
  | recvFails pc fails => exact .inr (.inr ⟨false, by rw [pc]; rfl, rfl⟩)
  | recv pc works => exact .inl ⟨by rw [pc]; rfl, rfl⟩
  | openFile site fd process' pc call => exact .inl ⟨by rw [pc]; rfl, rfl⟩
  | assign site fd pc => exact .inl ⟨by rw [pc]; rfl, rfl⟩
  | check site pc =>
      rcases progress_afterCheck site process.dataFileDescriptor with running | ended
      · exact .inl ⟨by rw [pc]; exact running, rfl⟩
      · exact .inr (.inr ⟨false, by rw [pc]; exact congrArg some ended.symm, rfl⟩)
  | lock loop pc free => cases loop <;> exact .inl ⟨by rw [pc]; rfl, rfl⟩
  | load use pc => cases use <;> exact .inl ⟨by rw [pc]; rfl, rfl⟩
  | ioctl fd pc => exact .inl (by rw [pc]; exact progress_afterIteration handler)
  | writeFails fd process' pc call => exact .inr (.inr ⟨false, by rw [pc]; rfl, rfl⟩)
  | write fd ret process' pc call works => exact .inl ⟨by rw [pc]; rfl, rfl⟩
  | closeData fd pc => exact .inl (by rw [pc]; exact progress_afterIteration handler)
  | readFails fd bytes process' pc call => exact .inr (.inr ⟨false, by rw [pc]; rfl, rfl⟩)
  | read fd ret bytes process' pc call works => exact .inl ⟨by rw [pc]; rfl, rfl⟩
  | unlock loop pc => cases loop <;> exact .inl ⟨by rw [pc]; rfl, rfl⟩
  | sendFails pc fails => exact .inr (.inr ⟨false, by rw [pc]; rfl, rfl⟩)
  | send pc works =>
      refine .inl ⟨?_, rfl⟩
      rw [pc]
      split <;> rfl
  | closeSocket pc => exact .inl ⟨by rw [pc]; rfl, rfl⟩
  | complete pc => exact .inr (.inl ⟨by rw [pc]; rfl, rfl⟩)
  | closeFinal fd pc => exact .inr (.inr ⟨true, by rw [pc]; rfl, rfl⟩)

theorem Progress.eq_complete {before after : Progress} (stepped : before.completes = some after) :
    after = .complete := by
  cases before with
  | running =>
      cases stepped
      rfl
  | complete => contradiction
  | ended ok => contradiction

theorem Progress.eq_ended {ok : Bool} {before after : Progress}
    (stepped : before.ends ok = some after) : after = .ended ok := by
  cases before <;> cases ok <;> simp_all [Progress.ends]

theorem threadStep_eq {listener : Listener} {node : Nat} {clientNode : ClientNode}
    {next : Progress → Option Progress} {before after : Progress} (going : listener.pc ≠ .done)
    (found : listener.nodes node = some clientNode) (thread : clientNode.thread = some before)
    (stepped : next before = some after) :
    threadStep listener node next = some (listener.setNode node
      { clientNode with
        isThreadComplete := clientNode.isThreadComplete || after == .complete
        thread := some after }) := by
  rw [threadStep, if_neg going, found, Option.bind_some, thread, Option.bind_some, stepped]
  rfl

/-- Until the program ends the life cycle follows each step of a handler, and the step
changes nothing else than the node of the handler. -/
theorem HandlerStep.followed {listener : Listener} {node : Nat} {clientNode : ClientNode}
    (step : HandlerStep self outcome handler process answer handler' process')
    (going : listener.pc ≠ .done) (found : listener.nodes node = some clientNode)
    (tracks : clientNode.Tracks handler) :
    clientNode.Tracks handler' ∨
      ∃ event clientNode', clientNode'.Tracks handler' ∧
        lifeStep listener event = some (none, listener.setNode node clientNode') := by
  rcases step.progress_cases with ⟨progress, flag⟩ | ⟨stepped, flag⟩ | ⟨ok, stepped, flag⟩
  · exact .inl ⟨progress ▸ tracks.1, flag ▸ tracks.2⟩
  · have next := threadStep_eq going found tracks.1 stepped
    rw [Progress.eq_complete stepped] at next
    refine .inr ⟨.complete node, _, ⟨?_, ?_⟩, congrArg (Option.map fun state => (none, state)) next⟩
    · exact congrArg some (Progress.eq_complete stepped).symm
    · rw [flag]
      exact Bool.or_true _
  · have next := threadStep_eq going found tracks.1 stepped
    rw [Progress.eq_ended stepped] at next
    refine .inr ⟨.ends node ok, _, ⟨?_, ?_⟩, congrArg (Option.map fun state => (none, state)) next⟩
    · exact congrArg some (Progress.eq_ended stepped).symm
    · rw [flag, ← tracks.2]
      exact Bool.or_false _

end

end Aesd.Server
