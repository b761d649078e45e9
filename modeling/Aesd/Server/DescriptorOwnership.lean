import Aesd.Server.DescriptorUse

/-!
# Handlers use their own descriptors

The invariant of runs in which the global is assigned by one handler at a time:
at most one handler is going to read it, it holds the descriptor of that
handler, and different handlers hold different open descriptors.
-/

namespace Aesd.Server

open Aesd.Driver Aesd.Transition

section

variable {τ : Type} [DecidableEq τ]

structure DescriptorInvariant (trace : List (τ × Answer)) (server : ServerState τ) : Prop where
  knows : ∀ thread, (server.handlers thread).Knows (held thread trace)
    server.process.dataFileDescriptor
  branch : ∀ thread, (server.handlers thread).pc.inDataBranch = true →
    (server.handlers thread).ioctlCheck = false
  alone : ∀ thread other, (server.handlers thread).Live → (server.handlers other).Live →
    thread = other
  isOpen : ∀ thread fd, held thread trace = some fd → server.process.dataFile fd ≠ none
  distinct : ∀ thread other fd, held thread trace = some fd → held other trace = some fd →
    thread = other
  socket : ∀ thread, (server.handlers thread).pc.socketOpen = true →
    server.process.descriptors (server.handlers thread).clientSocketFd = some .socket
  ownSocket : ∀ thread other, (server.handlers thread).clientSocketFd =
    (server.handlers other).clientSocketFd → thread = other

/-- The handlers start with an open socket each. -/
theorem DescriptorInvariant.start (process : Process τ) {clientSocketFds : τ → Nat}
    (sockets : ∀ thread, process.descriptors (clientSocketFds thread) = some .socket)
    (injective : Function.Injective clientSocketFds) (clients : τ → List Chunk) :
    DescriptorInvariant [] (.start process clientSocketFds clients) where
  knows _ := trivial
  branch _ _ := rfl
  alone _ _ live := absurd live Bool.false_ne_true
  isOpen _ _ holds := by simp [held] at holds
  distinct _ _ _ holds := by simp [held] at holds
  socket thread _ := sockets thread
  ownSocket _ _ same := injective same

theorem held_concat (thread : τ) (trace : List (τ × Answer)) (entry : τ × Answer) :
    held thread (trace ++ [entry]) = heldAfter thread (held thread trace) entry := by
  rw [held, List.foldl_append]
  rfl

omit [DecidableEq τ] in
theorem traceOf_concat {events : List (τ × Outcome)} {answers : List Answer}
    (answered : answers.length = events.length) (event : τ × Outcome) (answer : Answer) :
    traceOf (events ++ [event]) (answers ++ [answer]) =
      traceOf events answers ++ [(event.1, answer)] := by
  rw [traceOf, List.map_append, List.zip_append (by rw [List.length_map, answered])]
  rfl

/-- After a step of its own a thread holds what it has just opened, or what it
held before and has not closed. -/
theorem heldAfter_self_cases {thread : τ} {current : Option Int} {answer : Answer} {fd : Int}
    (holds : heldAfter thread current (thread, answer) = some fd) :
    answer = .opened fd ∧ 0 ≤ fd ∨
      current = some fd ∧ ∀ use ret, use.closes = true → answer ≠ .used use fd ret := by
  cases answer with
  | opened other =>
      left
      by_cases negative : other < 0
      · simp [heldAfter, negative] at holds
      · simp only [heldAfter, if_true, if_neg negative, Option.some.injEq] at holds
        exact ⟨by rw [holds], by omega⟩
  | used use other ret =>
      right
      by_cases closed : use.closes = true ∧ current = some other
      · simp [heldAfter, closed] at holds
      · rw [heldAfter, if_neg closed] at holds
        constructor
        · exact holds
        · rintro use' ret' closes same
          cases same
          exact closed ⟨closes, holds⟩
  | silent => exact Or.inr ⟨holds, by simp⟩
  | received => exact Or.inr ⟨holds, by simp⟩
  | sentBytes => exact Or.inr ⟨holds, by simp⟩

section

variable {trace : List (τ × Answer)} {server : ServerState τ} {thread : τ} {outcome : Outcome}
  {answer : Answer} {handler : Handler} {process : Process τ}

/-- A step leaves what other threads hold. -/
theorem DescriptorInvariant.held_other (invariant : DescriptorInvariant trace server)
    (step : HandlerStep thread outcome (server.handlers thread) server.process answer handler
      process) {other : τ} (different : other ≠ thread) :
    held other (trace ++ [(thread, answer)]) = held other trace := by
  rw [held_concat]
  cases answered : answer with
  | opened fd => simp [heldAfter, Ne.symm different]
  | used use fd ret =>
      have own := (invariant.knows thread).call (step.pc_of_used answered)
      have kept : ¬(use.closes = true ∧ held other trace = some fd) :=
        fun closed => different (invariant.distinct other thread fd closed.2 own)
      simp [heldAfter, kept]
  | silent => rfl
  | received => rfl
  | sentBytes => rfl

/-- No thread holds a number that a step has just opened. -/
theorem DescriptorInvariant.fresh (invariant : DescriptorInvariant trace server)
    (step : HandlerStep thread outcome (server.handlers thread) server.process answer handler
      process) {fd : Int} (opened : answer = .opened fd) (nonneg : 0 ≤ fd) (other : τ) :
    held other trace ≠ some fd := by
  intro holds
  rcases (Process.dataFile_ne_none_iff ..).mp (invariant.isOpen other fd holds) with
    ⟨_, access, present⟩
  rw [(step.opened opened nonneg).1] at present
  contradiction

/-- What is held and not closed by the step stays open. -/
theorem DescriptorInvariant.dataFile_eq (invariant : DescriptorInvariant trace server)
    (step : HandlerStep thread outcome (server.handlers thread) server.process answer handler
      process) {other : τ} {fd : Int} (holds : held other trace = some fd)
    (kept : ∀ use ret, use.closes = true → answer ≠ .used use fd ret) :
    process.dataFile fd = server.process.dataFile fd := by
  refine step.dataFile_eq (invariant.isOpen other fd holds) ?_
    fun pc => invariant.socket thread (by rw [pc]; rfl)
  intro use closes pc
  rcases step.used_of_pc pc with ⟨ret, used⟩
  exact kept use ret closes used

/-- Another thread's descriptor is not the one that the step uses. -/
theorem DescriptorInvariant.not_used (invariant : DescriptorInvariant trace server) {other : τ}
    (different : other ≠ thread) {fd : Int} (holds : held other trace = some fd) (use : Use) :
    (server.handlers thread).pc ≠ .call use fd :=
  fun pc => different (invariant.distinct other thread fd holds ((invariant.knows thread).call pc))

theorem DescriptorInvariant.isOpen_after (invariant : DescriptorInvariant trace server)
    (step : HandlerStep thread outcome (server.handlers thread) server.process answer handler
      process) {other : τ} {fd : Int} (holds : held other (trace ++ [(thread, answer)]) = some fd) :
    process.dataFile fd ≠ none := by
  by_cases same : other = thread
  · subst same
    rw [held_concat] at holds
    rcases heldAfter_self_cases holds with ⟨opened, nonneg⟩ | ⟨before, kept⟩
    · exact (step.opened opened nonneg).2
    · rw [invariant.dataFile_eq step before kept]
      exact invariant.isOpen other fd before
  · rw [invariant.held_other step same] at holds
    rw [invariant.dataFile_eq step holds fun use ret _ used =>
      invariant.not_used same holds use (step.pc_of_used used)]
    exact invariant.isOpen other fd holds

theorem DescriptorInvariant.distinct_after (invariant : DescriptorInvariant trace server)
    (step : HandlerStep thread outcome (server.handlers thread) server.process answer handler
      process) {other : τ} (different : other ≠ thread) {fd : Int}
    (holds : held thread (trace ++ [(thread, answer)]) = some fd) :
    held other (trace ++ [(thread, answer)]) ≠ some fd := by
  rw [invariant.held_other step different]
  rw [held_concat] at holds
  rcases heldAfter_self_cases holds with ⟨opened, nonneg⟩ | ⟨before, _⟩
  · exact invariant.fresh step opened nonneg other
  · exact fun same => different (invariant.distinct other thread fd same before)

omit [DecidableEq τ] in
/-- The global changes only while no other handler is going to read it. -/
theorem HandlerStep.dataFileDescriptor_eq
    (step : HandlerStep thread outcome (server.handlers thread) server.process answer handler
      process) (alone : AssignsAlone server (thread, outcome)) {other : τ}
    (different : other ≠ thread) (live : (server.handlers other).Live) :
    process.dataFileDescriptor = server.process.dataFileDescriptor := by
  rcases step.dataFileDescriptor_cases with same | ⟨site, pc⟩
  · exact same
  · exact absurd live ((alone (site, _) (by rw [pc]; rfl)).1 other different)

/-- After a step a live handler of another thread excludes one of the stepping
thread. -/
theorem DescriptorInvariant.alone_after (invariant : DescriptorInvariant trace server)
    (step : HandlerStep thread outcome (server.handlers thread) server.process answer handler
      process) (alone : AssignsAlone server (thread, outcome)) {other : τ}
    (different : other ≠ thread) (live : handler.Live) : ¬(server.handlers other).Live := by
  intro live'
  rcases step.live (invariant.branch thread) live with before | ⟨site, fd, pc⟩
  · exact different (invariant.alone other thread live' before)
  · exact (alone (site, fd) (by rw [pc]; rfl)).1 other different live'

theorem DescriptorInvariant.knows_after (invariant : DescriptorInvariant trace server)
    (step : HandlerStep thread outcome (server.handlers thread) server.process answer handler
      process) (alone : AssignsAlone server (thread, outcome)) (other : τ) :
    (Function.update server.handlers thread handler other).Knows
      (held other (trace ++ [(thread, answer)])) process.dataFileDescriptor := by
  by_cases same : other = thread
  · subst same
    rw [Function.update_self, held_concat]
    exact step.knows (invariant.knows other) (invariant.branch other)
      fun fd pc => (alone (.data, fd) (by rw [pc]; rfl)).2 rfl
  · rw [Function.update_of_ne same, invariant.held_other step same]
    by_cases live : (server.handlers other).Live
    · rw [step.dataFileDescriptor_eq alone same live]
      exact invariant.knows other
    · exact (invariant.knows other).of_not_live live _

theorem DescriptorInvariant.socket_after (invariant : DescriptorInvariant trace server)
    (step : HandlerStep thread outcome (server.handlers thread) server.process answer handler
      process) (other : τ)
    (isOpen : (Function.update server.handlers thread handler other).pc.socketOpen = true) :
    process.descriptors (Function.update server.handlers thread handler other).clientSocketFd =
      some .socket := by
  have uses : ∀ use fd, (server.handlers thread).pc = .call use fd →
      server.process.dataFile fd ≠ none :=
    fun use fd pc => invariant.isOpen thread fd ((invariant.knows thread).call pc)
  by_cases same : other = thread
  · subst same
    rw [Function.update_self] at isOpen ⊢
    rcases step.socketOpen isOpen with ⟨before, notClosing⟩
    rw [step.clientSocketFd_eq]
    exact step.socket_eq (invariant.socket other before) uses fun pc => absurd pc notClosing
  · rw [Function.update_of_ne same] at isOpen ⊢
    exact step.socket_eq (invariant.socket other isOpen) uses fun _ number =>
      same (invariant.ownSocket other thread number.symm)

/-- A step under the condition keeps the invariant. -/
theorem DescriptorInvariant.step (invariant : DescriptorInvariant trace server)
    (step : HandlerStep thread outcome (server.handlers thread) server.process answer handler
      process) (alone : AssignsAlone server (thread, outcome)) :
    DescriptorInvariant (trace ++ [(thread, answer)])
      ⟨process, Function.update server.handlers thread handler⟩ where
  knows := invariant.knows_after step alone
  branch other := by
    by_cases same : other = thread
    · subst same
      simpa using step.branch (invariant.branch other)
    · simpa [Function.update_of_ne same] using invariant.branch other
  alone first second := by
    by_cases same : first = thread
    · by_cases same' : second = thread
      · exact fun _ _ => same.trans same'.symm
      · subst same
        simpa [Function.update_of_ne same'] using fun live live' =>
          absurd live' (invariant.alone_after step alone same' live)
    · by_cases same' : second = thread
      · subst same'
        simpa [Function.update_of_ne same] using fun live live' =>
          absurd live (invariant.alone_after step alone same live')
      · simpa [Function.update_of_ne same, Function.update_of_ne same'] using
          invariant.alone first second
  isOpen _ _ holds := invariant.isOpen_after step holds
  distinct first second fd holds holds' := by
    by_cases same : first = thread
    · by_cases same' : second = thread
      · exact same.trans same'.symm
      · subst same
        exact absurd holds' (invariant.distinct_after step same' holds)
    · by_cases same' : second = thread
      · subst same'
        exact absurd holds (invariant.distinct_after step same holds')
      · rw [invariant.held_other step same] at holds
        rw [invariant.held_other step same'] at holds'
        exact invariant.distinct first second fd holds holds'
  socket := invariant.socket_after step
  ownSocket first second := by
    have kept : ∀ other, (Function.update server.handlers thread handler other).clientSocketFd =
        (server.handlers other).clientSocketFd := by
      intro other
      by_cases same : other = thread
      · subst same
        rw [Function.update_self, step.clientSocketFd_eq]
      · rw [Function.update_of_ne same]
    show (Function.update server.handlers thread handler first).clientSocketFd =
      (Function.update server.handlers thread handler second).clientSocketFd → first = second
    rw [kept, kept]
    exact invariant.ownSocket first second

/-- A step under the invariant uses its own descriptor. -/
theorem DescriptorInvariant.usesOwn (invariant : DescriptorInvariant trace server)
    (step : HandlerStep thread outcome (server.handlers thread) server.process answer handler
      process) (handlers : τ → Handler) :
    UsesOwn trace server thread answer ⟨process, handlers⟩ where
  own use fd ret used := (invariant.knows thread).call (step.pc_of_used used)
  others other fd different holds := by
    have kept := invariant.dataFile_eq step holds fun use ret _ used =>
      invariant.not_used different holds use (step.pc_of_used used)
    refine ⟨(invariant.held_other step different).trans holds, kept, ?_, ?_⟩
    · rw [kept]
      exact invariant.isOpen other fd holds
    · exact step.fPos_eq (invariant.isOpen other fd holds) (invariant.not_used different holds)

end

/-- A run under the condition keeps the invariant. -/
theorem DescriptorInvariant.run {source target : ServerState τ}
    (initial : DescriptorInvariant [] source) {events : List (τ × Outcome)}
    {answers : List Answer} (guarded : Along serverStep AssignsAlone source events)
    (execution : run serverStep source events = some (answers, target)) :
    DescriptorInvariant (traceOf events answers) target := by
  refine along_induction (motive := fun events answers state =>
    DescriptorInvariant (traceOf events answers) state) initial ?_ guarded execution
  intro events answers middle event answer target before invariant alone step
  rcases serverStep_eq_some_iff.mp step with ⟨handler, process, taken, rfl⟩
  rw [traceOf_concat (length_of_run before)]
  exact invariant.step (handlerStep_cases taken) alone

end

/-- Over all interleavings: when every assignment of the global happens while no
other handler is going to read it, and received data is written only after a
successful open, every use of the data file is a use of the descriptor that the
same thread opened last and nobody has closed, and no step touches a descriptor
that another thread holds. -/
theorem handlers_use_own_descriptors {τ : Type} [DecidableEq τ] (process : Process τ)
    (clientSocketFds : τ → Nat) (clients : τ → List Chunk)
    (sockets : ∀ thread, process.descriptors (clientSocketFds thread) = some .socket)
    (injective : Function.Injective clientSocketFds) (events : List (τ × Outcome))
    (guarded : Along serverStep AssignsAlone (.start process clientSocketFds clients) events) :
    HandlersUseOwn (.start process clientSocketFds clients) events := by
  intro front event back answers middle answer target split before step
  subst split
  have guardedFront := ((along_append_iff ..).mp guarded).1
  have initial := DescriptorInvariant.start process sockets injective clients
  have invariant := initial.run guardedFront before
  rcases serverStep_eq_some_iff.mp step with ⟨handler, process', taken, rfl⟩
  exact invariant.usesOwn (handlerStep_cases taken) _

/-- Two clients served one after the other. -/
theorem handlers_use_own_descriptors_in_turn :
    HandlersUseOwn (.start (.fresh Bool 2) (fun thread => thread.toNat)
        fun _ => [⟨[newline], by decide⟩])
      (List.replicate 27 (true, .success 2) ++ List.replicate 32 (false, .success 2)) := by
  apply handlers_use_own_descriptors
  · decide
  · exact fun first second => by cases first <;> cases second <;> decide
  · decide +kernel

/-- The second client opens and assigns its descriptor `3` between the first
client's assignment of `2` and its write, which then goes through `3`. -/
theorem handler_uses_foreign_descriptor :
    ¬HandlersUseOwn (.start (.fresh Bool 2) (fun thread => thread.toNat)
        fun _ => [⟨[newline], by decide⟩])
      (List.replicate 3 (true, .success 2) ++ List.replicate 3 (false, .success 3) ++
        List.replicate 4 (true, .success 2)) := by
  intro own
  have uses := own (List.replicate 3 (true, .success 2) ++ List.replicate 3 (false, .success 3) ++
    List.replicate 3 (true, .success 2)) (true, .success 2) [] _ _ _ _ rfl rfl rfl
  exact absurd (uses.own .write 3 1 rfl) (by decide)

end Aesd.Server
