import Mathlib.Logic.Function.Basic
import ReactorRpc.Library.Runs
import ReactorRpc.Library.Threads

namespace ReactorRpc
open Streams
universe u v

namespace EventLoop

/-- An event `epoll_wait` reports: of the wakeup channel or of another one. -/
inductive Event
  | wakeup
  | channel
  deriving DecidableEq

/-- Where the thread that runs `loop()` is: not in it, about to call `epoll_wait`,
in it, between two events it reported, in a callback of a channel, or in
`doPendingFunctors` behind the swap, with the functor it is in and the rest of
the batch. -/
inductive Phase (F : Type v)
  | outside
  | polling
  | waiting
  | dispatching (events : List Event)
  | inCallback (events : List Event)
  | running (current : Option F) (rest : List F)

/-- Where a thread is in `queueInLoop` or in `quit`: in neither, or between the
push or the assignment and its `wakeup()`. -/
inductive Posting
  | idle
  | pushed
  | quitting
  deriving DecidableEq

/-- A functor with a thread, and whether `looping_` was set. -/
structure Invocation (Thread : Type u) (F : Type v) where
  thread : Thread
  functor : F
  looping : Bool

/-- A loop: its members, what its threads are doing, and histories: the functors
pushed and those executed by `doPendingFunctors`, with the number of swaps before,
the calls of `runInLoop` and all executions. -/
structure State (Thread : Type u) (F : Type v) where
  pendingFunctors : List F := []
  counter : Nat := 0
  quit : Bool := false
  looping : Bool := false
  phase : Phase F := .outside
  posting : Thread → Posting := fun _ => .idle
  swaps : Nat := 0
  pushed : List (F × Nat) := []
  executed : List (F × Nat) := []
  calls : List (Invocation Thread F) := []
  executions : List (Invocation Thread F) := []

variable {Thread : Type u} {F : Type v}

section Members
variable [DecidableEq Thread]

/-- The thread that constructed the loop is `threadId_`. -/
def isInLoopThread (threadId t : Thread) : Bool := decide (threadId = t)

@[simp]
theorem isInLoopThread_iff {threadId t : Thread} : isInLoopThread threadId t = true ↔ threadId = t :=
  decide_eq_true_iff

def queueInLoop (threadId t : Thread) (cb : F) (s : State Thread F) : State Thread F :=
  { s with
    pendingFunctors := s.pendingFunctors ++ [cb]
    pushed := s.pushed ++ [(cb, s.swaps)]
    posting := if isInLoopThread threadId t then s.posting else Function.update s.posting t .pushed }

def runInLoop (threadId t : Thread) (cb : F) (s : State Thread F) : State Thread F :=
  if isInLoopThread threadId t then { s with executions := s.executions ++ [⟨t, cb, s.looping⟩] }
  else queueInLoop threadId t cb s

def quitLoop (threadId t : Thread) (s : State Thread F) : State Thread F :=
  { s with
    quit := true
    posting := if isInLoopThread threadId t then s.posting else Function.update s.posting t .quitting }

/-- `write` of a one to a non-blocking eventfd: it fails when the counter is full. -/
def eventfdWrite (counter : Nat) : Nat :=
  if counter < 0xfffffffffffffffe then counter + 1 else counter

def wakeup (t : Thread) (s : State Thread F) : State Thread F :=
  { s with counter := eventfdWrite s.counter, posting := Function.update s.posting t .idle }

end Members

/-- The thread that runs the loop calls other code only from these places. -/
inductive Phase.Calls : Phase F → Prop
  | outside : Phase.Calls .outside
  | inCallback (events : List Event) : Phase.Calls (.inCallback events)
  | functor (cb : F) (rest : List F) : Phase.Calls (.running (some cb) rest)

/-- A thread is free to call a member of the loop. -/
structure State.MayCall (runner t : Thread) (s : State Thread F) : Prop where
  idle : s.posting t = .idle
  outside : t = runner → Phase.Calls s.phase

inductive Action (Thread : Type u) (F : Type v)
  | queueInLoop (t : Thread) (cb : F)
  | runInLoop (t : Thread) (cb : F)
  | quit (t : Thread)
  | wakeup (t : Thread)
  | loop
  | epollWait
  | polled (events : List Event)
  | handleEvent
  | callbackReturns
  | swap
  | call
  | functorReturns
  | again

/-- The steps of the threads, for a loop constructed by one thread and run by
another or the same one. Each locked section is one step, as are `wakeup`, the
read of the eventfd and the entry into a callback or a functor and the return. -/
inductive Step [DecidableEq Thread] (threadId runner : Thread) :
    State Thread F → Action Thread F → State Thread F → Prop
  | queueInLoop {s : State Thread F} (t : Thread) (cb : F) (free : s.MayCall runner t) :
      Step threadId runner s (.queueInLoop t cb) (queueInLoop threadId t cb s)
  | runInLoop {s : State Thread F} (t : Thread) (cb : F) (free : s.MayCall runner t) :
      Step threadId runner s (.runInLoop t cb)
        { runInLoop threadId t cb s with calls := s.calls ++ [⟨t, cb, s.looping⟩] }
  | quit {s : State Thread F} (t : Thread) (free : s.MayCall runner t) :
      Step threadId runner s (.quit t) (quitLoop threadId t s)
  | wakeup {s : State Thread F} (t : Thread) (due : s.posting t ≠ .idle) :
      Step threadId runner s (.wakeup t) (wakeup t s)
  | loop {s : State Thread F} (outside : s.phase = .outside) (idle : s.posting runner = .idle)
      (goes : s.quit = false) :
      Step threadId runner s .loop { s with looping := true, phase := .polling }
  | epollWait {s : State Thread F} (polling : s.phase = .polling) :
      Step threadId runner s .epollWait { s with phase := .waiting }
  | polled {s : State Thread F} (events : List Event) (waiting : s.phase = .waiting)
      (readable : .wakeup ∈ events → s.counter ≠ 0) :
      Step threadId runner s (.polled events) { s with phase := .dispatching events }
  | wakeupEvent {s : State Thread F} {events : List Event}
      (next : s.phase = .dispatching (.wakeup :: events)) :
      Step threadId runner s .handleEvent { s with counter := 0, phase := .dispatching events }
  | channelEvent {s : State Thread F} {events : List Event}
      (next : s.phase = .dispatching (.channel :: events)) :
      Step threadId runner s .handleEvent { s with phase := .inCallback events }
  | callbackReturns {s : State Thread F} {events : List Event} (inside : s.phase = .inCallback events)
      (idle : s.posting runner = .idle) :
      Step threadId runner s .callbackReturns { s with phase := .dispatching events }
  | swap {s : State Thread F} (through : s.phase = .dispatching []) :
      Step threadId runner s .swap
        { s with
          pendingFunctors := []
          phase := .running none s.pendingFunctors
          swaps := s.swaps + 1 }
  | call {s : State Thread F} {cb : F} {rest : List F} (next : s.phase = .running none (cb :: rest)) :
      Step threadId runner s .call
        { s with
          phase := .running (some cb) rest
          executed := s.executed ++ [(cb, s.swaps)]
          executions := s.executions ++ [⟨runner, cb, s.looping⟩] }
  | functorReturns {s : State Thread F} {cb : F} {rest : List F}
      (inside : s.phase = .running (some cb) rest) (idle : s.posting runner = .idle) :
      Step threadId runner s .functorReturns { s with phase := .running none rest }
  | again {s : State Thread F} (done : s.phase = .running none []) (goes : s.quit = false) :
      Step threadId runner s .again { s with phase := .polling }
  | leave {s : State Thread F} (done : s.phase = .running none []) (quits : s.quit = true) :
      Step threadId runner s .again { s with looping := false, phase := .outside }

/-- The functors of the current batch that have not been started. -/
def Phase.batch : Phase F → List F
  | .running _ rest => rest
  | _ => []

/-- The functors executed, taken by the last swap and queued are those pushed, in
order; what has been taken was pushed before the last swap. -/
structure Ordered (s : State Thread F) : Prop where
  sequence : s.executed.map Prod.fst ++ s.phase.batch ++ s.pendingFunctors = s.pushed.map Prod.fst
  stamped : ∀ entry ∈ s.pushed, entry.2 ≤ s.swaps
  taken : ∀ (k : Nat) (entry : F × Nat), s.pushed[k]? = some entry →
    k < s.executed.length + s.phase.batch.length → entry.2 < s.swaps
  later : ∀ (k : Nat) (entry done : F × Nat), s.pushed[k]? = some entry → s.executed[k]? = some done →
    entry.2 < done.2

theorem Ordered.start : Ordered ({} : State Thread F) := by
  refine ⟨rfl, nofun, ?_, ?_⟩
  · intro k entry found
    cases k <;> cases found
  · intro k entry done found
    cases k <;> cases found

/-- A step that neither pushes, swaps nor starts a functor keeps the order. -/
theorem Ordered.keep {s t : State Thread F} (ordered : Ordered s)
    (pending : t.pendingFunctors = s.pendingFunctors) (batch : t.phase.batch = s.phase.batch)
    (swaps : t.swaps = s.swaps) (pushed : t.pushed = s.pushed) (executed : t.executed = s.executed) :
    Ordered t where
  sequence := by rw [pending, batch, pushed, executed, ordered.sequence]
  stamped := by rw [pushed, swaps]; exact ordered.stamped
  taken := by rw [pushed, executed, batch, swaps]; exact ordered.taken
  later := by rw [pushed, executed]; exact ordered.later

theorem Ordered.swap {s : State Thread F} (ordered : Ordered s) (through : s.phase = .dispatching []) :
    Ordered { s with
      pendingFunctors := []
      phase := .running none s.pendingFunctors
      swaps := s.swaps + 1 } where
  sequence := by
    have sequence := ordered.sequence
    rw [through] at sequence
    simpa only [Phase.batch, List.append_nil] using sequence
  stamped entry member := Nat.le_succ_of_le (ordered.stamped entry member)
  taken k entry found _ := Nat.lt_succ_of_le (ordered.stamped entry (List.mem_of_getElem? found))
  later := ordered.later

theorem Ordered.call {s : State Thread F} (ordered : Ordered s) {cb : F} {rest : List F}
    (next : s.phase = .running none (cb :: rest)) (runner : Thread) :
    Ordered { s with
      phase := .running (some cb) rest
      executed := s.executed ++ [(cb, s.swaps)]
      executions := s.executions ++ [⟨runner, cb, s.looping⟩] } where
  sequence := by
    have sequence := ordered.sequence
    rw [next] at sequence
    simp only [Phase.batch, List.map_append, ← sequence, List.append_assoc]
    rfl
  stamped := ordered.stamped
  taken k entry found before := by
    refine ordered.taken k entry found ?_
    simp only [next, Phase.batch, List.length_append, List.length_cons, List.length_nil] at before ⊢
    omega
  later k entry done found executed := by
    rcases threads_append_iff.mp executed with old | ⟨last, rfl⟩
    · exact ordered.later k entry done found old
    · refine ordered.taken k entry found ?_
      simp only [next, Phase.batch, List.length_cons]
      omega

variable [DecidableEq Thread]

theorem Ordered.queueInLoop {s : State Thread F} (ordered : Ordered s) (threadId t : Thread) (cb : F) :
    Ordered (queueInLoop threadId t cb s) where
  sequence := by
    simp only [EventLoop.queueInLoop, List.map_append, ← ordered.sequence, List.append_assoc]
    rfl
  stamped entry member := by
    rcases List.mem_append.mp member with old | new
    · exact ordered.stamped entry old
    · rw [List.mem_singleton.mp new]
      exact Nat.le_refl _
  taken k entry found before := by
    have counted := congrArg List.length ordered.sequence
    simp only [List.length_append, List.length_map] at counted
    change k < s.executed.length + s.phase.batch.length at before
    rcases threads_append_iff.mp found with old | ⟨last, _⟩
    · exact ordered.taken k entry old before
    · omega
  later k entry done found executed := by
    have counted := congrArg List.length ordered.sequence
    simp only [List.length_append, List.length_map] at counted
    have inside : k < s.executed.length := (List.getElem?_eq_some_iff.mp executed).1
    rcases threads_append_iff.mp found with old | ⟨last, _⟩
    · exact ordered.later k entry done old executed
    · omega

theorem Ordered.next {threadId runner : Thread} {s t : State Thread F} {action : Action Thread F}
    (ordered : Ordered s) (step : Step threadId runner s action t) : Ordered t := by
  cases step with
  | queueInLoop t cb => exact ordered.queueInLoop threadId t cb
  | runInLoop t cb =>
    rw [runInLoop]
    split
    · exact ordered.keep rfl rfl rfl rfl rfl
    · exact (ordered.queueInLoop threadId t cb).keep rfl rfl rfl rfl rfl
  | swap through => exact ordered.swap through
  | call next => exact ordered.call next runner
  | quit | wakeup => exact ordered.keep rfl rfl rfl rfl rfl
  | loop at_ | epollWait at_ | polled _ at_ | wakeupEvent at_ | channelEvent at_ | callbackReturns at_
  | functorReturns at_ | again at_ | leave at_ =>
    exact ordered.keep rfl (by rw [at_]; rfl) rfl rfl rfl

/-- Whatever the threads and the functors post, at every moment the functors
executed by `doPendingFunctors`, the rest of the batch and the queued ones are
those pushed so far, in order, and each is executed in a batch swapped out after
it was pushed. -/
theorem functors_in_order {threadId runner : Thread} {s : State Thread F}
    (run : Runs (Step threadId runner) {} s) :
    s.executed.map Prod.fst ++ s.phase.batch ++ s.pendingFunctors = s.pushed.map Prod.fst ∧
    ∀ (k : Nat) (entry done : F × Nat), s.pushed[k]? = some entry → s.executed[k]? = some done →
      entry.1 = done.1 ∧ entry.2 < done.2 := by
  have ordered : Ordered s := run.invariant (fun _ _ _ here step => Ordered.next here step) Ordered.start
  refine ⟨ordered.sequence, fun k entry done found executed => ⟨?_, ordered.later k entry done found executed⟩⟩
  have place := congrArg (·[k]?) ordered.sequence
  have inside : k < (s.executed.map Prod.fst).length := by
    rw [List.length_map]
    exact (List.getElem?_eq_some_iff.mp executed).1
  rw [List.append_assoc] at place
  simp only [List.getElem?_append_left inside, List.getElem?_map, executed, found, Option.map_some] at place
  exact (Option.some.inj place).symm

/-- A functor posts another one while it runs: that one is left to the next batch. -/
theorem functors_in_order_reentrant : ∃ s : State Nat Nat, Runs (Step 0 1) {} s ∧
    s.executed = [(10, 1), (11, 2)] ∧
    s.executed.map Prod.fst ++ s.phase.batch ++ s.pendingFunctors = s.pushed.map Prod.fst := by
  have pushed : Runs (Step 0 1) ({} : State Nat Nat) _ := .one (.queueInLoop 2 10 ⟨rfl, nofun⟩)
  have woken := pushed.tail ⟨_, .wakeup 2 (by decide)⟩
  have looping := woken.tail ⟨_, .loop rfl rfl rfl⟩
  have waiting := looping.tail ⟨_, .epollWait rfl⟩
  have polled := waiting.tail ⟨_, .polled [.wakeup] rfl (fun _ => by decide)⟩
  have read := polled.tail ⟨_, .wakeupEvent rfl⟩
  have swapped := read.tail ⟨_, .swap rfl⟩
  have called := swapped.tail ⟨_, .call rfl⟩
  have posted := called.tail ⟨_, .queueInLoop 1 11 ⟨rfl, fun _ => .functor 10 []⟩⟩
  have again := posted.tail ⟨_, .wakeup 1 (by decide)⟩
  have returned := again.tail ⟨_, .functorReturns rfl rfl⟩
  have second := returned.tail ⟨_, .again rfl rfl⟩
  have waits := second.tail ⟨_, .epollWait rfl⟩
  have reported := waits.tail ⟨_, .polled [] rfl nofun⟩
  have taken := reported.tail ⟨_, .swap rfl⟩
  have run := taken.tail ⟨_, .call rfl⟩
  exact ⟨_, run, rfl, (functors_in_order run).1⟩

/-- The calls of the constructing thread are executed where they are made, and
everything else is executed by the thread that runs the loop. -/
structure Affine (threadId runner : Thread) (s : State Thread F) : Prop where
  direct : ∀ call ∈ s.calls, call.thread = threadId → call ∈ s.executions
  others : ∀ done ∈ s.executions, done.thread = runner ∨ done.thread = threadId ∧ done ∈ s.calls

theorem Affine.next {threadId runner : Thread} {s t : State Thread F} {action : Action Thread F}
    (affine : Affine threadId runner s) (step : Step threadId runner s action t) :
    Affine threadId runner t := by
  cases step with
  | runInLoop t cb =>
    rw [runInLoop]
    by_cases own : threadId = t
    · rw [if_pos (isInLoopThread_iff.mpr own)]
      refine ⟨fun call member thread => ?_, fun done member => ?_⟩
      · rcases List.mem_append.mp member with old | new
        · exact List.mem_append_left _ (affine.direct call old thread)
        · exact List.mem_append_right _ new
      · rcases List.mem_append.mp member with old | new
        · exact (affine.others done old).imp_right (And.imp_right (List.mem_append_left _))
        · refine .inr ⟨?_, List.mem_append_right _ new⟩
          rw [List.mem_singleton.mp new, own]
    · rw [if_neg (mt isInLoopThread_iff.mp own)]
      refine ⟨fun call member thread => ?_, fun done member => ?_⟩
      · rcases List.mem_append.mp member with old | new
        · exact affine.direct call old thread
        · rw [List.mem_singleton.mp new] at thread
          exact absurd thread.symm own
      · exact (affine.others done member).imp_right (And.imp_right (List.mem_append_left _))
  | call next =>
    refine ⟨fun call member thread => List.mem_append_left _ (affine.direct call member thread),
      fun done member => ?_⟩
    rcases List.mem_append.mp member with old | new
    · exact affine.others done old
    · rw [List.mem_singleton.mp new]
      exact .inl rfl
  | queueInLoop | quit | wakeup | loop | epollWait | polled | wakeupEvent | channelEvent
  | callbackReturns | swap | functorReturns | again | leave =>
    exact ⟨affine.direct, affine.others⟩

/-- In every run the functors are executed by the thread that runs the loop
exactly when that thread has constructed it or the constructing thread makes no
call of `runInLoop` meanwhile; `isInLoopThread` tells the running thread exactly
when it is the constructing one. -/
theorem executed_by_runner_iff {threadId runner : Thread} {s : State Thread F}
    (run : Runs (Step threadId runner) {} s) :
    ((∀ done ∈ s.executions, done.looping = true → done.thread = runner) ↔
      threadId = runner ∨ ∀ call ∈ s.calls, call.looping = true → call.thread ≠ threadId) ∧
    ((∀ t, isInLoopThread threadId t = true ↔ t = runner) ↔ threadId = runner) := by
  have affine : Affine threadId runner s :=
    run.invariant (fun _ _ _ here step => Affine.next here step) ⟨nofun, nofun⟩
  constructor
  · constructor
    · intro here
      by_cases same : threadId = runner
      · exact .inl same
      · refine .inr fun call member looping thread => same ?_
        rw [← thread]
        exact here call (affine.direct call member thread) looping
    · rintro (same | none) done member looping
      · rcases affine.others done member with own | ⟨own, _⟩
        · exact own
        · exact own.trans same
      · rcases affine.others done member with own | ⟨own, called⟩
        · exact own
        · exact absurd own (none done called looping)
  · constructor
    · exact fun all => (all threadId).mp (isInLoopThread_iff.mpr rfl)
    · rintro rfl t
      exact isInLoopThread_iff.trans eq_comm

theorem executed_by_runner_same : ∃ s : State Nat Nat, Runs (Step 0 0) {} s ∧
    s.executions ≠ [] ∧ ∀ done ∈ s.executions, done.looping = true → done.thread = 0 := by
  have pushed : Runs (Step 0 0) ({} : State Nat Nat) _ := .one (.runInLoop 1 10 ⟨rfl, nofun⟩)
  have looping := pushed.tail ⟨_, .loop rfl rfl rfl⟩
  have waiting := looping.tail ⟨_, .epollWait rfl⟩
  have polled := waiting.tail ⟨_, .polled [] rfl nofun⟩
  have swapped := polled.tail ⟨_, .swap rfl⟩
  have run := swapped.tail ⟨_, .call rfl⟩
  exact ⟨_, run, nofun, (executed_by_runner_iff run).1.mpr (.inl rfl)⟩

/-- The thread that constructed a loop which another one runs executes a functor
itself. -/
theorem executed_by_constructor : ¬∀ (threadId runner : Nat) (s : State Nat Nat),
    Runs (Step threadId runner) {} s →
      ∀ done ∈ s.executions, done.looping = true → done.thread = runner := by
  intro always
  have looping : Runs (Step 0 1) ({} : State Nat Nat) _ := .one (.loop rfl rfl rfl)
  have run := looping.tail ⟨_, .runInLoop 0 10 ⟨rfl, nofun⟩⟩
  exact absurd (always 0 1 _ run _ (List.mem_singleton_self _) rfl) (by decide)

end EventLoop
end ReactorRpc
