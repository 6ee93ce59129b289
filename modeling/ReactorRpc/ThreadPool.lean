import ReactorRpc.Library.Runs
import ReactorRpc.Library.Threads

namespace ReactorRpc
open Streams
universe u

/-- A task with its place in the order of the calls of `enqueue`, and the worker
that has taken it. -/
structure Job (T : Type u) where
  worker : Nat
  ticket : Nat
  task : T
  deriving DecidableEq

/-- Where a worker is in its loop: about to lock `mutex_`, holding it in front of
the predicate of `wait`, holding it with the predicate found false, blocked on
`cond_`, in `task()` with the lock released, or back from the thread function. -/
inductive Worker (T : Type u)
  | ready
  | holding
  | parking
  | blocked
  | running (ticket : Nat) (task : T)
  | exited
  deriving DecidableEq

/-- Where the destructor is: not started or before its lock, between `stop_ = true`
and `notify_all`, at a `join`, or through. -/
inductive Destructor
  | alive
  | stopping
  | joining (worker : Nat)
  | returned
  deriving DecidableEq

namespace ThreadPool

/-- The pool, with the holder of `mutex_`, the number of calls of `enqueue` between
their push and their `notify_one`, and what has been enqueued, popped and run. -/
structure State (T : Type u) where
  tasks : List T := []
  stop : Bool := false
  mutex : Option Nat := none
  workers : List (Worker T)
  notifying : Nat := 0
  destructor : Destructor := .alive
  enqueued : List T := []
  popped : List (Job T) := []
  ran : List (Job T) := []

/-- The constructor with a number of threads. -/
def start (T : Type u) (threads : Nat) : State T := { workers := List.replicate threads .ready }

inductive Action (T : Type u)
  | push (task : T)
  | notifyOne
  | lock (i : Nat)
  | test (i : Nat)
  | block (i : Nat)
  | wake (i : Nat)
  | run (i : Nat)
  | stop
  | notifyAll
  | join

variable {T : Type u}

/-- The predicate the workers wait for. -/
def State.predicate (s : State T) : Bool := s.stop || !s.tasks.isEmpty

/-- What `notify_all` does to a worker. -/
def Worker.notified : Worker T → Worker T
  | .blocked => .ready
  | w => w

/-- The steps of the threads. `notify_one` wakes one of the blocked workers, if
there are any; a blocked worker may also wake on its own. -/
inductive Step : State T → Action T → State T → Prop
  | push {s : State T} (task : T) (free : s.mutex = none) (alive : s.destructor = .alive) :
      Step s (.push task)
        { s with
          tasks := s.tasks ++ [task]
          notifying := s.notifying + 1
          enqueued := s.enqueued ++ [task] }
  | notifyOne {s : State T} {i : Nat} (due : 0 < s.notifying)
      (here : s.workers[i]? = some .blocked) :
      Step s .notifyOne
        { s with notifying := s.notifying - 1, workers := s.workers.set i .ready }
  | notifyNone {s : State T} (due : 0 < s.notifying) (awake : ∀ w ∈ s.workers, w ≠ .blocked) :
      Step s .notifyOne { s with notifying := s.notifying - 1 }
  | lock {s : State T} {i : Nat} (here : s.workers[i]? = some .ready) (free : s.mutex = none) :
      Step s (.lock i) { s with mutex := some i, workers := s.workers.set i .holding }
  | wait {s : State T} {i : Nat} (here : s.workers[i]? = some .holding)
      (fails : s.predicate = false) :
      Step s (.test i) { s with workers := s.workers.set i .parking }
  | block {s : State T} {i : Nat} (here : s.workers[i]? = some .parking) :
      Step s (.block i) { s with mutex := none, workers := s.workers.set i .blocked }
  | wake {s : State T} {i : Nat} (here : s.workers[i]? = some .blocked) :
      Step s (.wake i) { s with workers := s.workers.set i .ready }
  | exit {s : State T} {i : Nat} (here : s.workers[i]? = some .holding) (stopped : s.stop = true)
      (drained : s.tasks = []) :
      Step s (.test i) { s with mutex := none, workers := s.workers.set i .exited }
  | pop {s : State T} {i : Nat} {task : T} {tasks : List T} (here : s.workers[i]? = some .holding)
      (front : s.tasks = task :: tasks) :
      Step s (.test i)
        { s with
          mutex := none
          tasks := tasks
          workers := s.workers.set i (.running s.popped.length task)
          popped := s.popped ++ [⟨i, s.popped.length, task⟩] }
  | run {s : State T} {i ticket : Nat} {task : T}
      (here : s.workers[i]? = some (.running ticket task)) :
      Step s (.run i)
        { s with workers := s.workers.set i .ready, ran := s.ran ++ [⟨i, ticket, task⟩] }
  | stop {s : State T} (free : s.mutex = none) (alive : s.destructor = .alive) :
      Step s .stop { s with stop := true, destructor := .stopping }
  | notifyAll {s : State T} (stopping : s.destructor = .stopping) :
      Step s .notifyAll
        { s with workers := s.workers.map Worker.notified, destructor := .joining 0 }
  | join {s : State T} {j : Nat} (joining : s.destructor = .joining j)
      (ended : s.workers[j]? = some .exited) :
      Step s .join { s with destructor := .joining (j + 1) }
  | returned {s : State T} (joined : s.destructor = .joining s.workers.length) :
      Step s .join { s with destructor := .returned }

/-- What has been enqueued, popped and run, and what the workers have in hand,
agree with each other. -/
structure Sound (s : State T) : Prop where
  order : s.popped.map Job.task ++ s.tasks = s.enqueued
  tickets : ∀ (k : Nat) (job : Job T), s.popped[k]? = some job → job.ticket = k
  inHand : ∀ i k task, s.workers[i]? = some (.running k task) →
    ⟨i, k, task⟩ ∈ s.popped ∧ ⟨i, k, task⟩ ∉ s.ran
  ranPopped : ∀ job ∈ s.ran, job ∈ s.popped
  ranOnce : s.ran.Nodup
  taken : ∀ job ∈ s.popped, job ∈ s.ran ∨ s.workers[job.worker]? = some (.running job.ticket job.task)

theorem Sound.start (T : Type u) (threads : Nat) : Sound (start T threads) where
  order := rfl
  tickets k job here := by simp [ThreadPool.start] at here
  inHand i k task here := by
    have ready := (List.mem_replicate.mp (List.mem_of_getElem? here)).2
    cases ready
  ranPopped job member := by cases member
  ranOnce := List.nodup_nil
  taken job member := by cases member

theorem Sound.ticket_lt {s : State T} (sound : Sound s) {job : Job T} (popped : job ∈ s.popped) :
    job.ticket < s.popped.length := by
  obtain ⟨k, here⟩ := List.mem_iff_getElem?.mp popped
  rw [sound.tickets k job here]
  exact (List.getElem?_eq_some_iff.mp here).1

/-- No two jobs have the same ticket. -/
theorem Sound.same {s : State T} (sound : Sound s) {job job' : Job T} (popped : job ∈ s.popped)
    (popped' : job' ∈ s.popped) (ticket : job.ticket = job'.ticket) : job = job' := by
  obtain ⟨k, here⟩ := List.mem_iff_getElem?.mp popped
  obtain ⟨k', here'⟩ := List.mem_iff_getElem?.mp popped'
  rw [sound.tickets k job here, sound.tickets k' job' here'] at ticket
  rw [ticket] at here
  exact Option.some.inj (here.symm.trans here')

/-- A step that moves no task leaves the account as it is. -/
theorem Sound.idle {s t : State T} (sound : Sound s) (tasks : t.tasks = s.tasks)
    (enqueued : t.enqueued = s.enqueued) (popped : t.popped = s.popped) (ran : t.ran = s.ran)
    (running : ∀ (i k : Nat) (task : T), t.workers[i]? = some (.running k task) ↔
      s.workers[i]? = some (.running k task)) : Sound t where
  order := by rw [tasks, enqueued, popped, sound.order]
  tickets := by rw [popped]; exact sound.tickets
  inHand i k task here := by
    rw [popped, ran]
    exact sound.inHand i k task ((running i k task).mp here)
  ranPopped := by rw [popped, ran]; exact sound.ranPopped
  ranOnce := by rw [ran]; exact sound.ranOnce
  taken job member := by
    rw [popped] at member
    rw [ran, running]
    exact sound.taken job member

theorem running_set {workers : List (Worker T)} {i : Nat} {x y : Worker T}
    (here : workers[i]? = some x) (before : ∀ k task, x ≠ .running k task)
    (after : ∀ k task, y ≠ .running k task) (j k : Nat) (task : T) :
    (workers.set i y)[j]? = some (.running k task) ↔ workers[j]? = some (.running k task) := by
  rw [threads_set_iff here]
  constructor
  · rintro (⟨_, same⟩ | ⟨_, other⟩)
    · exact absurd same.symm (after k task)
    · exact other
  · intro busy
    refine .inr ⟨?_, busy⟩
    rintro rfl
    exact before k task (Option.some.inj (here.symm.trans busy))

theorem of_notified {workers : List (Worker T)} {i : Nat} {w : Worker T}
    (found : (workers.map Worker.notified)[i]? = some w) (other : w ≠ .ready) :
    workers[i]? = some w ∧ w ≠ .blocked := by
  rw [List.getElem?_map, Option.map_eq_some_iff] at found
  obtain ⟨v, here, rfl⟩ := found
  cases v with
  | blocked => exact absurd rfl other
  | _ => exact ⟨here, by simp [Worker.notified]⟩

theorem notified_of {workers : List (Worker T)} {i : Nat} {w : Worker T}
    (here : workers[i]? = some w) (awake : w ≠ .blocked) :
    (workers.map Worker.notified)[i]? = some w := by
  rw [List.getElem?_map, here]
  cases w with
  | blocked => exact absurd rfl awake
  | _ => rfl

/-- Popping moves the first queued task into the worker's hands, under the next ticket. -/
theorem Sound.pop {s : State T} (sound : Sound s) {i : Nat} {task : T} {tasks : List T}
    (here : s.workers[i]? = some .holding) (front : s.tasks = task :: tasks) :
    Sound { s with
      mutex := none
      tasks := tasks
      workers := s.workers.set i (.running s.popped.length task)
      popped := s.popped ++ [⟨i, s.popped.length, task⟩] } where
  order := by
    rw [← sound.order, front, List.map_append, List.append_assoc]
    rfl
  tickets k job at_ := by
    rcases threads_append_iff.mp at_ with old | ⟨last, rfl⟩
    · exact sound.tickets k job old
    · exact last.symm
  inHand j k x busy := by
    rcases (threads_set_iff here).mp busy with ⟨rfl, same⟩ | ⟨_, other⟩
    · cases same
      refine ⟨List.mem_append_right _ (List.mem_singleton_self _), fun already => ?_⟩
      exact Nat.lt_irrefl _ (sound.ticket_lt (sound.ranPopped _ already))
    · obtain ⟨popped, unrun⟩ := sound.inHand j k x other
      exact ⟨List.mem_append_left _ popped, unrun⟩
  ranPopped job member := List.mem_append_left _ (sound.ranPopped job member)
  ranOnce := sound.ranOnce
  taken job member := by
    rcases List.mem_append.mp member with old | new
    · refine (sound.taken job old).imp_right fun busy => threads_set_other ?_ busy _
      intro same
      rw [same, here] at busy
      cases busy
    · rw [List.mem_singleton.mp new]
      exact .inr (threads_set_self here _)

/-- Running a task moves it from the worker's hands to what has been run. -/
theorem Sound.run {s : State T} (sound : Sound s) {i ticket : Nat} {task : T}
    (here : s.workers[i]? = some (.running ticket task)) :
    Sound { s with workers := s.workers.set i .ready, ran := s.ran ++ [⟨i, ticket, task⟩] } where
  order := sound.order
  tickets := sound.tickets
  inHand j k x busy := by
    rcases (threads_set_iff here).mp busy with ⟨_, same⟩ | ⟨elsewhere, other⟩
    · cases same
    · obtain ⟨popped, unrun⟩ := sound.inHand j k x other
      refine ⟨popped, fun already => ?_⟩
      rcases List.mem_append.mp already with before | now
      · exact unrun before
      · cases List.mem_singleton.mp now
        exact elsewhere rfl
  ranPopped job member := by
    rcases List.mem_append.mp member with before | now
    · exact sound.ranPopped job before
    · rw [List.mem_singleton.mp now]
      exact (sound.inHand i ticket task here).1
  ranOnce := by
    refine List.nodup_append.mpr ⟨sound.ranOnce, by simp, fun job before job' now same => ?_⟩
    rw [same, List.mem_singleton.mp now] at before
    exact (sound.inHand i ticket task here).2 before
  taken job member := by
    rcases sound.taken job member with before | busy
    · exact .inl (List.mem_append_left _ before)
    · by_cases same : job.worker = i
      · rw [same, here] at busy
        cases busy
        exact .inl (List.mem_append_right _ (List.mem_singleton.mpr (by rw [← same])))
      · exact .inr (threads_set_other same busy _)

theorem Sound.next {s t : State T} {action : Action T} (sound : Sound s) (step : Step s action t) :
    Sound t := by
  cases step with
  | push task =>
    refine ⟨?_, sound.tickets, sound.inHand, sound.ranPopped, sound.ranOnce, sound.taken⟩
    rw [← sound.order, List.append_assoc]
  | pop here front => exact sound.pop here front
  | run here => exact sound.run here
  | notifyAll =>
    exact sound.idle rfl rfl rfl rfl fun i k task =>
      ⟨fun busy => (of_notified busy nofun).1, fun busy => notified_of busy nofun⟩
  | notifyOne _ here | lock here | wait here | block here | wake here | exit here =>
    exact sound.idle rfl rfl rfl rfl (running_set here nofun nofun)
  | notifyNone | stop | join | returned =>
    exact sound.idle rfl rfl rfl rfl fun _ _ _ => Iff.rfl

/-- A worker that holds `mutex_` between two of its steps. -/
inductive Worker.Inside : Worker T → Prop
  | holding : Worker.Inside .holding
  | parking : Worker.Inside .parking

/-- A worker that will come back to the queue. -/
def Worker.Active (w : Worker T) : Prop := w ≠ .blocked ∧ w ≠ .exited

/-- What the lock, the predicate and the notifications guarantee: a worker that
found the predicate false keeps the lock until it blocks, so that nothing is
pushed and the pool is not stopped in between. -/
structure Guarded (s : State T) : Prop where
  staffed : s.workers ≠ []
  owner : ∀ (i : Nat) (w : Worker T), s.workers[i]? = some w → Worker.Inside w → s.mutex = some i
  parking : ∀ i : Nat, s.workers[i]? = some .parking → s.tasks = [] ∧ s.stop = false
  exited : ∀ i : Nat, s.workers[i]? = some .exited → s.tasks = [] ∧ s.stop = true
  stopping : s.stop = false ↔ s.destructor = .alive
  alerted : s.tasks ≠ [] → 0 < s.notifying ∨ ∃ (i : Nat) (w : Worker T),
    s.workers[i]? = some w ∧ Worker.Active w
  joined : ∀ j, s.destructor = .joining j → ∀ i < j, s.workers[i]? = some .exited
  returned : s.destructor = .returned → ∀ (i : Nat) (w : Worker T), s.workers[i]? = some w → w = .exited
  woken : ∀ j, s.destructor = .joining j → ∀ i : Nat, s.workers[i]? ≠ some .blocked

theorem Guarded.start (T : Type u) {threads : Nat} (some : 1 ≤ threads) :
    Guarded (start T threads) := by
  have ready : ∀ (i : Nat) (w : Worker T), (ThreadPool.start T threads).workers[i]? = Option.some w →
      w = .ready := fun i w here => (List.mem_replicate.mp (List.mem_of_getElem? here)).2
  refine ⟨?_, ?_, ?_, ?_, ?_, nofun, nofun, nofun, nofun⟩
  · simp only [ThreadPool.start, ne_eq, List.replicate_eq_nil_iff]
    omega
  · intro i w here inside
    rw [ready i w here] at inside
    cases inside
  · exact fun i here => nomatch ready i _ here
  · exact fun i here => nomatch ready i _ here
  · exact ⟨fun _ => rfl, fun _ => rfl⟩

/-- A move of one worker, which is not back from its thread function: what it has
to keep for the others, and what the place it goes to asks for. -/
theorem Guarded.move {s t : State T} (guarded : Guarded s) {i : Nat} {x y : Worker T}
    (here : s.workers[i]? = some x) (live : x ≠ .exited) (workers : t.workers = s.workers.set i y)
    (stop : t.stop = s.stop) (destructor : t.destructor = s.destructor)
    (emptied : s.tasks = [] → t.tasks = [])
    (kept : ∀ j, j ≠ i → s.mutex = some j → t.mutex = some j)
    (inside : Worker.Inside y → t.mutex = some i)
    (parks : y = .parking → t.tasks = [] ∧ s.stop = false)
    (exits : y = .exited → t.tasks = [] ∧ s.stop = true) (blocks : y = .blocked → s.stop = false)
    (alerted : t.tasks = [] ∨ Worker.Active y) : Guarded t where
  staffed empty := by
    rw [workers, List.set_eq_nil_iff] at empty
    exact guarded.staffed empty
  owner j w at_ locked := by
    rw [workers, threads_set_iff here] at at_
    rcases at_ with ⟨rfl, rfl⟩ | ⟨other, same⟩
    · exact inside locked
    · exact kept j other (guarded.owner j w same locked)
  parking j at_ := by
    rw [workers, threads_set_iff here] at at_
    rw [stop]
    rcases at_ with ⟨_, same⟩ | ⟨_, same⟩
    · exact parks same.symm
    · exact (guarded.parking j same).imp_left emptied
  exited j at_ := by
    rw [workers, threads_set_iff here] at at_
    rw [stop]
    rcases at_ with ⟨_, same⟩ | ⟨_, same⟩
    · exact exits same.symm
    · exact (guarded.exited j same).imp_left emptied
  stopping := by
    rw [stop, destructor]
    exact guarded.stopping
  alerted queued := by
    refine .inr ⟨i, y, ?_, alerted.resolve_left queued⟩
    rw [workers]
    exact threads_set_self here _
  joined j at_ k before := by
    rw [destructor] at at_
    have gone := guarded.joined j at_ k before
    rw [workers]
    refine threads_set_other ?_ gone _
    rintro rfl
    exact live (Option.some.inj (here.symm.trans gone))
  returned at_ j w found := by
    rw [destructor] at at_
    exact absurd (guarded.returned at_ i x here) live
  woken j at_ k found := by
    rw [destructor] at at_
    rw [workers, threads_set_iff here] at found
    rcases found with ⟨_, same⟩ | ⟨_, same⟩
    · have alive := guarded.stopping.mp (blocks same.symm)
      rw [alive] at at_
      cases at_
    · exact guarded.woken j at_ k same

/-- While nobody holds `mutex_`, no worker is inside. -/
theorem Guarded.outside {s : State T} (guarded : Guarded s) (free : s.mutex = none) {i : Nat}
    {w : Worker T} (here : s.workers[i]? = some w) : ¬Worker.Inside w := by
  intro inside
  have owner := guarded.owner i w here inside
  rw [free] at owner
  cases owner

/-- Whoever is inside holds `mutex_`, so nobody else does. -/
theorem Guarded.alone {s : State T} (guarded : Guarded s) {i j : Nat} {w : Worker T}
    (here : s.workers[i]? = some w) (inside : Worker.Inside w) (other : j ≠ i)
    (owner : s.mutex = some j) : False :=
  other (Option.some.inj (owner.symm.trans (guarded.owner i w here inside)))

/-- There is a worker. -/
theorem Guarded.someone {s : State T} (guarded : Guarded s) :
    ∃ (i : Nat) (w : Worker T), w ∈ s.workers ∧ s.workers[i]? = some w := by
  obtain ⟨w, member⟩ := List.exists_mem_of_ne_nil _ guarded.staffed
  obtain ⟨i, found⟩ := List.mem_iff_getElem?.mp member
  exact ⟨i, w, member, found⟩

/-- No worker leaves a running pool. -/
theorem Guarded.none_exited {s : State T} (guarded : Guarded s) (running : s.stop = false) (i : Nat) :
    s.workers[i]? ≠ some .exited := by
  intro found
  rw [(guarded.exited i found).2] at running
  cases running

/-- The destructor never starts the pool again. -/
theorem Guarded.stays_stopped {s : State T} (guarded : Guarded s) (begun : s.destructor ≠ .alive)
    {d : Destructor} (later : d ≠ .alive) : s.stop = false ↔ d = .alive :=
  ⟨fun running => absurd (guarded.stopping.mp running) begun, fun alive => absurd alive later⟩

theorem Guarded.notifyAll {s : State T} (guarded : Guarded s) (stopping : s.destructor = .stopping) :
    Guarded { s with workers := s.workers.map Worker.notified, destructor := .joining 0 } where
  staffed empty := guarded.staffed (List.map_eq_nil_iff.mp empty)
  owner i w found inside := by
    cases inside with
    | holding => exact guarded.owner i _ (of_notified found nofun).1 .holding
    | parking => exact guarded.owner i _ (of_notified found nofun).1 .parking
  parking i found := guarded.parking i (of_notified found nofun).1
  exited i found := guarded.exited i (of_notified found nofun).1
  stopping := guarded.stays_stopped (by rw [stopping]; nofun) nofun
  alerted queued := by
    exact (guarded.alerted queued).imp_right fun ⟨i, w, found, active⟩ =>
      ⟨i, w, notified_of found active.1, active⟩
  joined j joining i before := by
    cases joining
    omega
  returned := nofun
  woken j joining i found := (of_notified found nofun).2 rfl

theorem Guarded.next {s t : State T} {action : Action T} (guarded : Guarded s)
    (step : Step s action t) : Guarded t := by
  cases step with
  | push task free alive =>
    have running := guarded.stopping.mpr alive
    refine ⟨guarded.staffed, guarded.owner, ?_, ?_, guarded.stopping, fun _ => .inl (Nat.succ_pos _),
      guarded.joined, guarded.returned, guarded.woken⟩
    · exact fun i found => absurd .parking (guarded.outside free found)
    · exact fun i found => absurd found (guarded.none_exited running i)
  | notifyNone due awake =>
    refine ⟨guarded.staffed, guarded.owner, guarded.parking, guarded.exited, guarded.stopping,
      fun queued => .inr ?_, guarded.joined, guarded.returned, guarded.woken⟩
    obtain ⟨i, w, member, found⟩ := guarded.someone
    refine ⟨i, w, found, awake w member, ?_⟩
    rintro rfl
    exact queued (guarded.exited i found).1
  | notifyOne _ here | wake here | run here =>
    exact guarded.move here nofun rfl rfl rfl id (fun _ _ owner => owner) nofun nofun nofun nofun
      (.inr ⟨nofun, nofun⟩)
  | lock here free =>
    refine guarded.move here nofun rfl rfl rfl id (fun j _ owner => ?_) (fun _ => rfl) nofun nofun nofun
      (.inr ⟨nofun, nofun⟩)
    rw [free] at owner
    cases owner
  | wait here fails =>
    have empty : s.tasks = [] ∧ s.stop = false := by
      simpa [State.predicate, and_comm] using fails
    exact guarded.move here nofun rfl rfl rfl id (fun _ _ owner => owner)
      (fun _ => guarded.owner _ _ here .holding) (fun _ => empty) nofun nofun (.inr ⟨nofun, nofun⟩)
  | block here =>
    obtain ⟨empty, running⟩ := guarded.parking _ here
    exact guarded.move here nofun rfl rfl rfl id
      (fun j other owner => (guarded.alone here .parking other owner).elim) nofun nofun nofun
      (fun _ => running) (.inl empty)
  | exit here stopped drained =>
    exact guarded.move here nofun rfl rfl rfl id
      (fun j other owner => (guarded.alone here .holding other owner).elim) nofun nofun
      (fun _ => ⟨drained, stopped⟩) nofun (.inl drained)
  | pop here front =>
    refine guarded.move here nofun rfl rfl rfl (fun empty => ?_)
      (fun j other owner => (guarded.alone here .holding other owner).elim) nofun nofun nofun nofun
      (.inr ⟨nofun, nofun⟩)
    rw [front] at empty
    cases empty
  | stop free alive =>
    have running := guarded.stopping.mpr alive
    refine ⟨guarded.staffed, guarded.owner, ?_, ?_, ⟨nofun, nofun⟩, guarded.alerted, nofun, nofun, nofun⟩
    · exact fun i found => absurd .parking (guarded.outside free found)
    · exact fun i found => absurd found (guarded.none_exited running i)
  | notifyAll stopping => exact guarded.notifyAll stopping
  | @join j joining ended =>
    refine ⟨guarded.staffed, guarded.owner, guarded.parking, guarded.exited,
      guarded.stays_stopped (by rw [joining]; nofun) nofun, guarded.alerted, ?_, nofun,
      fun _ _ => guarded.woken j joining⟩
    intro k counted i before
    cases counted
    rcases Nat.lt_succ_iff_lt_or_eq.mp before with earlier | rfl
    · exact guarded.joined j joining i earlier
    · exact ended
  | returned joined =>
    refine ⟨guarded.staffed, guarded.owner, guarded.parking, guarded.exited,
      guarded.stays_stopped (by rw [joined]; nofun) nofun, guarded.alerted, nofun, ?_, nofun⟩
    intro _ i w found
    have gone := guarded.joined _ joined i (List.getElem?_eq_some_iff.mp found).1
    exact Option.some.inj (found.symm.trans gone)

theorem run_invariant {threads : Nat} (some : 1 ≤ threads) {s : State T}
    (run : Runs Step (start T threads) s) : Sound s ∧ Guarded s := by
  refine run.invariant (P := fun s => Sound s ∧ Guarded s) ?_ ⟨.start T threads, .start T some⟩
  rintro s action t ⟨sound, guarded⟩ step
  exact ⟨sound.next step, guarded.next step⟩

/-- When the destructor is through, nothing is queued. -/
theorem Guarded.drained {s : State T} (guarded : Guarded s) (returned : s.destructor = .returned) :
    s.tasks = [] := by
  obtain ⟨i, w, _, found⟩ := guarded.someone
  rw [guarded.returned returned i w found] at found
  exact (guarded.exited i found).1

/-- Nothing is in hand either: what has been enqueued has been run. -/
theorem Sound.drained {s : State T} (sound : Sound s) (guarded : Guarded s)
    (returned : s.destructor = .returned) {k : Nat} {task : T} (enqueued : s.enqueued[k]? = some task) :
    ∃ worker, Job.mk worker k task ∈ s.ran := by
  have order := sound.order
  rw [guarded.drained returned, List.append_nil] at order
  rw [← order, List.getElem?_map, Option.map_eq_some_iff] at enqueued
  obtain ⟨job, popped, rfl⟩ := enqueued
  refine ⟨job.worker, ?_⟩
  rw [← sound.tickets k job popped]
  refine (sound.taken job (List.mem_of_getElem? popped)).resolve_right fun busy => ?_
  cases guarded.returned returned _ _ busy

/-- In every reachable state the popped and the queued tasks are the enqueued ones
in order; every popped task is in the hands of the one worker that popped it or
has been run by it, once; nothing is queued while every worker is blocked and no
notification is due; and when the destructor returns, every enqueued task has
been run. -/
theorem each_task_once {threads : Nat} (some : 1 ≤ threads) {s : State T}
    (run : Runs Step (start T threads) s) :
    s.popped.map Job.task ++ s.tasks = s.enqueued ∧
    (∀ (k : Nat) (job : Job T), s.popped[k]? = .some job → job.ticket = k) ∧
    (∀ job : Job T, job ∈ s.popped ↔
      job ∈ s.ran ∨ s.workers[job.worker]? = .some (.running job.ticket job.task)) ∧
    (∀ job ∈ s.ran, s.workers[job.worker]? ≠ .some (.running job.ticket job.task)) ∧
    s.ran.Nodup ∧ (∀ job ∈ s.ran, ∀ job' ∈ s.ran, job.ticket = job'.ticket → job = job') ∧
    (s.destructor = .returned → s.tasks = [] ∧
      ∀ (k : Nat) (task : T), s.enqueued[k]? = .some task → ∃ worker, Job.mk worker k task ∈ s.ran) ∧
    (s.tasks ≠ [] → s.notifying = 0 → ∃ w ∈ s.workers, w ≠ .blocked) := by
  obtain ⟨sound, guarded⟩ := run_invariant some run
  refine ⟨sound.order, sound.tickets, fun job => ⟨sound.taken job, ?_⟩, ?_, sound.ranOnce, ?_, ?_, ?_⟩
  · rintro (ran | busy)
    · exact sound.ranPopped job ran
    · exact (sound.inHand _ _ _ busy).1
  · exact fun job ran busy => (sound.inHand _ _ _ busy).2 ran
  · exact fun job ran job' ran' => sound.same (sound.ranPopped job ran) (sound.ranPopped job' ran')
  · exact fun returned =>
      ⟨guarded.drained returned, fun k task => sound.drained guarded returned⟩
  · intro queued quiet
    obtain ⟨i, w, found, active⟩ := (guarded.alerted queued).resolve_left (by omega)
    exact ⟨w, List.mem_of_getElem? found, active.1⟩

/-- One worker pops and runs a task, and the pool is destroyed. -/
theorem each_task_once_run : ∃ s : State Nat, Runs Step (start Nat 1) s ∧
    s.destructor = .returned ∧ s.tasks = [] ∧ ∃ worker, Job.mk worker 0 5 ∈ s.ran := by
  have pushed : Runs Step (start Nat 1) _ := .one (@Step.push _ _ 5 rfl rfl)
  have locked := pushed.tail ⟨_, @Step.lock _ _ 0 rfl rfl⟩
  have popped := locked.tail ⟨_, @Step.pop _ _ 0 5 [] rfl rfl⟩
  have ran := popped.tail ⟨_, @Step.run _ _ 0 0 5 rfl⟩
  have stopped := ran.tail ⟨_, .stop rfl rfl⟩
  have notified := stopped.tail ⟨_, .notifyAll rfl⟩
  have again := notified.tail ⟨_, @Step.lock _ _ 0 rfl rfl⟩
  have ended := again.tail ⟨_, @Step.exit _ _ 0 rfl rfl rfl⟩
  have joined := ended.tail ⟨_, @Step.join _ _ 0 rfl rfl⟩
  have run := joined.tail ⟨_, .returned rfl⟩
  have once := (each_task_once (le_refl 1) run).2.2.2.2.2.2.1 rfl
  exact ⟨_, run, rfl, once.1, once.2 0 5 rfl⟩

end ThreadPool
end ReactorRpc
