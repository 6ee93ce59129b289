import ReactorRpc.ServerIntake

namespace ReactorRpc
open Streams

section Progress
variable [Protobuf] {Conn Msg Env : Type} {registry : RpcServiceRegistry Msg Env}

/-- What is still to be done about the request a worker has in hand. -/
def WorkerPhase.load : WorkerPhase registry Conn → Nat
  | .waiting => 0
  | .running _ => 4
  | .posting _ => 3

namespace RpcServer

/-- What the loop thread has in hand. -/
def State.loopLoad (s : State registry Conn) : Nat :=
  match s.loop with
  | .polling => 0
  | .inMessage conn => (s.inputBuffer conn).readableBytes + 1
  | .runningFunctors functors => functors.length

/-- What is left to do about all that has been read. -/
def State.work (s : State registry Conn) : Nat :=
  s.loopLoad + 5 * s.tasks.length + gathered WorkerPhase.load s.workers + 2 * s.pendingFunctors.length

/-- The loop thread polls, the queues are empty, and the workers wait. -/
structure Finished (s : State registry Conn) : Prop where
  polling : s.loop = .polling
  tasks : s.tasks = []
  waiting : ∀ worker ∈ s.workers, worker = .waiting
  functors : s.functors = []

theorem load_set {workers : List (WorkerPhase registry Conn)} {i : Nat} {worker : WorkerPhase registry Conn}
    (here : workers[i]? = some worker) (next : WorkerPhase registry Conn) :
    gathered WorkerPhase.load (workers.set i next) + worker.load =
      gathered WorkerPhase.load workers + next.load := by
  obtain ⟨front, back, around, set, _⟩ := threads_around here
  rw [set, around, gathered_around, gathered_around]
  omega

/-- A worker with something in hand. -/
theorem exists_busy {workers : List (WorkerPhase registry Conn)} (busy : gathered WorkerPhase.load workers ≠ 0) :
    ∃ (i : Nat) (worker : WorkerPhase registry Conn), workers[i]? = some worker ∧ worker.load ≠ 0 := by
  by_contra none
  push Not at none
  refine busy (List.sum_eq_zero fun load there => ?_)
  obtain ⟨worker, inside, rfl⟩ := List.mem_map.mp there
  obtain ⟨i, here⟩ := List.mem_iff_getElem?.mp inside
  exact none i worker here

theorem waiting_of_load {workers : List (WorkerPhase registry Conn)} (idle : gathered WorkerPhase.load workers = 0) :
    ∀ worker ∈ workers, worker = .waiting := by
  intro worker there
  obtain ⟨i, here⟩ := List.mem_iff_getElem?.mp there
  obtain ⟨front, back, around, _⟩ := threads_around here
  rw [around, gathered_around] at idle
  have zero : worker.load = 0 := by omega
  cases worker with
  | waiting => rfl
  | running => cases zero
  | posting => cases zero

/-- A step that reads nothing. -/
def Unread (_ : State registry Conn) (label : Label registry Conn) : Prop :=
  ∀ conn data, label ≠ .read conn data

theorem unread_internal (s : State registry Conn) : Unread s .internal := fun _ _ => nofun

theorem unread_send (s : State registry Conn) (reply : Reply registry Conn) : Unread s (.send reply) := fun _ _ => nofun

/-- The loop thread has looked for events or functors and has found none. -/
def Looks (s next : State registry Conn) : Prop := next = { s with loop := next.loop }

variable [DecidableEq Conn]

/-- The steps of a server on what it has read. -/
abbrev Finishing : State registry Conn → Label registry Conn → State registry Conn → Prop :=
  Restricted Unread Step

/-- A step on what has been read takes work off, unless the loop thread looks for functors or for
events and finds none. -/
theorem work_cases {s next : State registry Conn} {label : Label registry Conn} (step : Finishing s label next) :
    next.work < s.work ∨ next.work = s.work ∧ Looks s next ∧ next.loop ≠ s.loop ∧
      (s.loop = .runningFunctors [] ∨ s.loop = .polling ∧ s.pendingFunctors = []) := by
  obtain ⟨unread, step⟩ := step
  cases step with
  | read conn data => exact absurd rfl (unread conn data)
  | drained loop round =>
    left
    simp only [State.work, State.loopLoad, loop]
    omega
  | refuse loop round unparsable =>
    left
    have less := onMessageRound_shrinks round
    simp only [State.work, State.loopLoad, loop, Function.update_self]
    omega
  | enqueue loop round parses =>
    left
    have less := onMessageRound_shrinks round
    simp only [State.work, State.loopLoad, loop, Function.update_self, List.length_append, List.length_singleton]
    omega
  | @pop i task rest waiting front =>
    left
    have load := load_set waiting (.running task)
    simp only [WorkerPhase.load] at load
    simp only [State.work, State.loopLoad, front, List.length_cons]
    omega
  | @dispatch i task running env =>
    left
    have load := load_set running (.posting ⟨task, env, _, rfl⟩)
    simp only [WorkerPhase.load] at load
    simp only [State.work, State.loopLoad]
    omega
  | @post i posted posting =>
    left
    have load := load_set posting .waiting
    simp only [WorkerPhase.load] at load
    simp only [State.work, State.loopLoad, List.length_append, List.length_singleton]
    omega
  | takeFunctors polling =>
    cases pending : s.pendingFunctors with
    | nil =>
      right
      refine ⟨?_, ?_, ?_, .inr ⟨polling, rfl⟩⟩
      · simp only [State.work, State.loopLoad, polling, pending]
        rfl
      · rw [Looks, ← pending]
      · rw [polling]
        rintro ⟨⟩
    | cons posted pending_ =>
      left
      simp only [State.work, State.loopLoad, polling, pending, List.length_cons, List.length_nil]
      omega
  | runFunctor running =>
    left
    simp only [State.work, State.loopLoad, running, List.length_cons]
    omega
  | functorsRun running =>
    right
    refine ⟨?_, rfl, ?_, .inl running⟩
    · simp only [State.work, State.loopLoad, running]
      rfl
    · rw [running]
      rintro ⟨⟩

theorem work_le {s next : State registry Conn} {label : Label registry Conn} (step : Finishing s label next) :
    next.work ≤ s.work := by
  rcases work_cases step with less | ⟨same, _⟩
  · exact less.le
  · exact same.le

theorem Step.workers_length {s next : State registry Conn} {label : Label registry Conn} (step : Step s label next) :
    next.workers.length = s.workers.length := by
  cases step with
  | pop => exact List.length_set
  | dispatch => exact List.length_set
  | post => exact List.length_set
  | _ => rfl

/-- What a worker or the queue has in hand moves on, whatever the loop thread does. -/
theorem pool_progress [Nonempty Env] {s : State registry Conn} (workers : 0 < s.workers.length)
    (busy : s.tasks ≠ [] ∨ gathered WorkerPhase.load s.workers ≠ 0) :
    ∃ next, Finishing s .internal next ∧ next.loop = s.loop := by
  obtain ⟨env⟩ := ‹Nonempty Env›
  by_cases idle : gathered WorkerPhase.load s.workers = 0
  · obtain ⟨task, rest, front⟩ := List.exists_cons_of_ne_nil (busy.resolve_right (not_not.mpr idle))
    have first : s.workers[0]? = some s.workers[0] := List.getElem?_eq_getElem workers
    have waits := waiting_of_load idle _ (List.getElem_mem workers)
    exact ⟨_, ⟨unread_internal _, .pop (waits ▸ first) front⟩, rfl⟩
  · obtain ⟨i, worker, here, load⟩ := exists_busy idle
    cases worker with
    | waiting => exact absurd rfl load
    | running task => exact ⟨_, ⟨unread_internal _, .dispatch here env⟩, rfl⟩
    | posting posted => exact ⟨_, ⟨unread_internal _, .post here⟩, rfl⟩

/-- A step in which the loop thread does not look for something in vain takes work off. -/
theorem work_less {s next : State registry Conn} {label : Label registry Conn} (step : Finishing s label next)
    (moves : next.loop = s.loop ∨ s.loop ≠ .runningFunctors [] ∧ (s.loop = .polling → s.pendingFunctors ≠ [])) :
    ∃ next, Runs Finishing s next ∧ next.work < s.work := by
  refine ⟨next, .one step, (work_cases step).resolve_right ?_⟩
  rintro ⟨_, _, changed, stuck⟩
  rcases moves with same | ⟨running, pending⟩
  · exact changed same
  · rcases stuck with none | ⟨polling, empty⟩
    · exact running none
    · exact pending polling empty

/-- What the connections have gathered moves on while the loop thread is in `onMessage`. -/
theorem message_progress {s : State registry Conn} {conn : Conn} (loop : s.loop = .inMessage conn) :
    ∃ next, Runs Finishing s next ∧ next.work < s.work := by
  have here : s.loop ≠ .runningFunctors [] ∧ (s.loop = .polling → s.pendingFunctors ≠ []) := by
    rw [loop]
    exact ⟨nofun, nofun⟩
  cases round : onMessageRound (s.inputBuffer conn) with
  | mk found after =>
    cases found with
    | none => exact work_less ⟨unread_internal _, .drained loop round⟩ (.inr here)
    | some frame =>
      cases parsed : RpcRequest.parse frame.msgData with
      | none => exact work_less ⟨unread_send _ _, .refuse loop round parsed⟩ (.inr here)
      | some request => exact work_less ⟨unread_internal _, .enqueue loop round parsed⟩ (.inr here)

/-- Where the pool has nothing in hand, the loop thread has. -/
theorem loop_progress {s : State registry Conn} (noTasks : s.tasks = [])
    (idle : gathered WorkerPhase.load s.workers = 0) (left : s.work ≠ 0) :
    ∃ next, Runs Finishing s next ∧ next.work < s.work := by
  cases loop : s.loop with
  | inMessage conn => exact message_progress loop
  | polling =>
    have pending : s.pendingFunctors ≠ [] := by
      intro none
      simp [State.work, State.loopLoad, loop, noTasks, idle, none] at left
    exact work_less ⟨unread_internal _, .takeFunctors loop⟩ (.inr ⟨by rw [loop]; exact nofun, fun _ => pending⟩)
  | runningFunctors functors =>
    cases functors with
    | cons posted rest =>
      refine work_less ⟨unread_send _ _, .runFunctor loop⟩ (.inr ⟨by rw [loop]; exact nofun, fun polling => ?_⟩)
      rw [loop] at polling
      cases polling
    | nil =>
      have pending : 0 < s.pendingFunctors.length := by
        simp only [State.work, State.loopLoad, loop, noTasks, idle, List.length_nil] at left
        omega
      -- the functors that have been posted meanwhile are the next batch
      have back : Finishing s .internal { s with loop := .polling } := ⟨unread_internal _, .functorsRun loop⟩
      have taken := (Runs.one back).tail ⟨.internal, unread_internal _, @Step.takeFunctors _ _ _ _ _ _ _ rfl⟩
      refine ⟨_, taken, ?_⟩
      simp only [State.work, State.loopLoad, loop, List.length_nil]
      omega

/-- A server with work left gets on with it. -/
theorem progress [Nonempty Env] {s : State registry Conn} (workers : 0 < s.workers.length) (left : s.work ≠ 0) :
    ∃ next, Runs Finishing s next ∧ next.work < s.work := by
  by_cases busy : s.tasks ≠ [] ∨ gathered WorkerPhase.load s.workers ≠ 0
  · obtain ⟨next, step, same⟩ := pool_progress workers busy
    exact work_less step (.inl same)
  · push Not at busy
    exact loop_progress busy.1 busy.2 left

omit [DecidableEq Conn] in
theorem finished_of_work {s : State registry Conn} (polling : s.loop = .polling) (none : s.work = 0) :
    Finished s := by
  simp only [State.work, State.loopLoad, polling] at none
  have tasks : s.tasks = [] := List.length_eq_zero_iff.mp (by omega)
  have pending : s.pendingFunctors = [] := List.length_eq_zero_iff.mp (by omega)
  refine ⟨polling, tasks, waiting_of_load (by omega), ?_⟩
  rw [State.functors, pending, polling]
  rfl

theorem Step.extracted {s next : State registry Conn} {label : Label registry Conn} (step : Step s label next) :
    s.extracted <+: next.extracted := by
  cases step with
  | refuse => exact List.prefix_append _ _
  | enqueue => exact List.prefix_append _ _
  | _ => exact List.prefix_rfl

/-- A server without work left may have to go back to its poll. -/
theorem polls_of_work {s : State registry Conn} (none : s.work = 0) :
    ∃ later, Runs Finishing s later ∧ later.loop = .polling ∧ later.work = 0 := by
  cases loop : s.loop with
  | polling => exact ⟨s, .refl, loop, none⟩
  | inMessage conn =>
    simp only [State.work, State.loopLoad, loop] at none
    omega
  | runningFunctors functors =>
    cases functors with
    | nil =>
      have back : Finishing s .internal { s with loop := .polling } := ⟨unread_internal _, .functorsRun loop⟩
      exact ⟨_, .one back, rfl, Nat.le_zero.mp (none ▸ work_le back)⟩
    | cons posted rest =>
      simp only [State.work, State.loopLoad, loop, List.length_cons] at none
      omega

/-- A server with at least one worker, whose handlers return, is never stuck. As long as it reads nothing, its
threads take no more steps than there is work, whatever their order, but for those in which the loop thread
looks for functors or events and finds none. From every reachable state they can get to one with all queues
empty, where every request that has been extracted from any connection is answered. -/
theorem answers_all_extracted [Nonempty Env] (threads : Nat) (some : 0 < threads) {s : State registry Conn}
    (reached : Runs Step (State.new registry Conn threads) s) :
    (∀ (n : Nat) (path : Nat → State registry Conn), path 0 = s →
        (∀ k, k < n → Moves Finishing (path k) (path (k + 1))) → ∀ busy : Finset Nat,
          (∀ k ∈ busy, k < n ∧ ¬Looks (path k) (path (k + 1))) → busy.card ≤ s.work) ∧
      ∃ later, Runs Finishing s later ∧ Finished later ∧
        (later.replies.map Reply.source).Perm later.extracted ∧ s.extracted <+: later.extracted := by
  constructor
  · rintro n path rfl steps busy works
    refine (Nat.le_add_right _ _).trans
      (@busy_le _ State.work path n (fun k within => ?_) busy fun k there => ?_)
    · obtain ⟨label, step⟩ := steps k within
      exact work_le step
    · obtain ⟨within, working⟩ := works k there
      obtain ⟨label, step⟩ := steps k within
      exact ⟨within, (work_cases step).resolve_right fun idle => working idle.2.1⟩
  · have size : s.workers.length = threads :=
      reached.invariant (P := fun t => t.workers.length = threads)
        (fun _ _ _ same step => step.workers_length.trans same) List.length_replicate
    obtain ⟨t, run, _, none⟩ := Runs.finishes State.work (fun _ _ _ same step => step.2.workers_length.trans same)
      (fun u same left => progress (by rw [same]; exact some) left) size
    obtain ⟨later, back, polling, rest⟩ := polls_of_work none
    have finished := finished_of_work polling rest
    have whole : Runs Finishing s later := run.trans back
    have conserved := whole.invariant (P := Conserved) (fun _ _ _ inv step => inv.step step.2)
      ((conserved_new registry Conn threads).run reached)
    have requests := conserved.requests
    rw [State.inFlight_idle finished.tasks finished.waiting finished.functors, add_zero] at requests
    have grown := whole.invariant (P := fun t => s.extracted <+: t.extracted)
      (fun _ _ _ before step => before.trans step.2.extracted) List.prefix_rfl
    exact ⟨later, whole, finished, (Multiset.coe_eq_coe.mp requests).symm, grown⟩

end RpcServer
end Progress

namespace RpcServer
open Protobuf.Sample

/-- A request that a server with one worker has enqueued. -/
theorem answers_all_extracted_enqueued :
    let registry : RpcServiceRegistry Unit Unit := RpcServiceRegistry.empty
    ∃ s later : State registry Bool, s.extracted = [⟨true, ⟨7, [10, 1, 97]⟩⟩] ∧ s.replies = [] ∧
      Runs Finishing s later ∧ ∃ reply ∈ later.replies, reply.source = ⟨true, ⟨7, [10, 1, 97]⟩⟩ := by
  intro registry
  let frame : Frame := ⟨7, [10, 1, 97], by decide, by decide⟩
  have content : (ConnBuffer.new.readFd (.ok frame.encode)).contents = frame.encode ++ [] := by
    rw [ConnBuffer.contents_readFd_ok, ConnBuffer.contents_new, List.nil_append, List.append_nil]
  have arrived : nextFrame (ConnBuffer.new.readFd (.ok frame.encode)).contents = some (frame, []) := by
    rw [content, nextFrame_encode]
  obtain ⟨after, round, _⟩ := onMessageRound_frame arrived
  have read : Runs Step (State.new registry Bool 1) _ :=
    .one (.read true frame.encode (List.length_pos_iff.mp (frame_prefixCode.pos frame)) rfl)
  have parses : RpcRequest.parse frame.extracted.msgData = some ⟨[97], [], []⟩ := by decide
  have enqueued := read.tail ⟨_, @Step.enqueue _ _ _ _ _ _ _ true frame.extracted after _ rfl
    (by simpa only [Function.update_self, State.new] using round) parses⟩
  obtain ⟨later, run, _, answered, grown⟩ := (answers_all_extracted 1 (by decide) enqueued).2
  obtain ⟨reply, there, source⟩ := List.mem_map.mp (answered.mem_iff.mpr (grown.subset List.mem_cons_self))
  exact ⟨_, later, rfl, rfl, run, reply, there, source⟩

end RpcServer
end ReactorRpc
