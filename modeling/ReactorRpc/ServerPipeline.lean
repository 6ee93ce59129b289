import Mathlib.Algebra.BigOperators.Group.Multiset.Basic
import ReactorRpc.Library.Runs
import ReactorRpc.Library.Threads
import ReactorRpc.ServerStream

namespace ReactorRpc
open Streams

/-- A request frame and the connection it came in on. -/
structure Received (Conn : Type) where
  conn : Conn
  frame : Extracted

section Pipeline
variable [Protobuf]

/-- What `onMessage` enqueues for a request it has parsed. -/
structure Task (Conn : Type) where
  source : Received Conn
  request : RpcRequest
  parses : RpcRequest.parse source.frame.msgData = some request

variable {Conn Msg Env : Type}

/-- What a worker posts to the loop once it has run the request. -/
structure Posted (registry : RpcServiceRegistry Msg Env) (Conn : Type) where
  task : Task Conn
  env : Env
  serializedResp : Bytes
  serialized : serializedResp = (RpcServer.dispatchRequest registry task.request env).serialize

/-- What is passed to a connection's `send`: the answer to a frame that does
not parse, or the result of a request. -/
inductive Reply (registry : RpcServiceRegistry Msg Env) (Conn : Type)
  | wrongProto (source : Received Conn) (unparsable : RpcRequest.parse source.frame.msgData = none)
  | result (posted : Posted registry Conn)

namespace Reply
variable {registry : RpcServiceRegistry Msg Env}

def source : Reply registry Conn → Received Conn
  | .wrongProto source _ => source
  | .result posted => posted.task.source

def payload : Reply registry Conn → Bytes
  | .wrongProto _ _ => ({ errorCode := ErrorCode.WRONG_PROTO } : RpcResponse).serialize
  | .result posted => posted.serializedResp

def posted? : Reply registry Conn → Option (Posted registry Conn)
  | .wrongProto _ _ => none
  | .result posted => some posted

/-- The bytes passed to `send`. -/
def bytes (r : Reply registry Conn) : Bytes := RpcCodec.packWithId r.source.frame.reqId r.payload

/-- What a reply says: an error for a frame that is no request, and the result
of running the request otherwise. -/
theorem answers (reply : Reply registry Conn) :
    match RpcRequest.parse reply.source.frame.msgData with
    | none => reply.payload = ({ errorCode := ErrorCode.WRONG_PROTO } : RpcResponse).serialize
    | some request => ∃ env, reply.payload = (RpcServer.dispatchRequest registry request env).serialize := by
  cases reply with
  | wrongProto source unparsable =>
    simp only [Reply.source, unparsable]
    rfl
  | result posted =>
    simp only [Reply.source, posted.task.parses]
    exact ⟨posted.env, posted.serialized⟩

end Reply

/-- Where a worker thread is: waiting for a task, running one, or about to post
its result. -/
inductive WorkerPhase (registry : RpcServiceRegistry Msg Env) (Conn : Type)
  | waiting
  | running (task : Task Conn)
  | posting (posted : Posted registry Conn)

/-- Where the loop thread is: between events, in `onMessage` for a connection,
or in `doPendingFunctors` with these left to run. -/
inductive LoopPhase (registry : RpcServiceRegistry Msg Env) (Conn : Type)
  | polling
  | inMessage (conn : Conn)
  | runningFunctors (functors : List (Posted registry Conn))

namespace RpcServer

/-- A server: its connections' input buffers, the queue and the threads of its
pool, the functors posted to its loop, and a record of the frames extracted,
the requests dispatched and the replies passed to `send`. -/
structure State (registry : RpcServiceRegistry Msg Env) (Conn : Type) where
  inputBuffer : Conn → ConnBuffer
  tasks : List (Task Conn)
  workers : List (WorkerPhase registry Conn)
  pendingFunctors : List (Posted registry Conn)
  loop : LoopPhase registry Conn
  extracted : List (Received Conn)
  dispatched : List (Posted registry Conn)
  replies : List (Reply registry Conn)

inductive Label (registry : RpcServiceRegistry Msg Env) (Conn : Type)
  | read (conn : Conn) (data : Bytes)
  | send (reply : Reply registry Conn)
  | internal

variable {registry : RpcServiceRegistry Msg Env}

def State.new (registry : RpcServiceRegistry Msg Env) (Conn : Type) (threads : Nat) :
    State registry Conn where
  inputBuffer _ := ConnBuffer.new
  tasks := []
  workers := List.replicate threads .waiting
  pendingFunctors := []
  loop := .polling
  extracted := []
  dispatched := []
  replies := []

variable [DecidableEq Conn]

/-- The steps of the loop thread and of the workers. -/
inductive Step : State registry Conn → Label registry Conn → State registry Conn → Prop
  | read {s : State registry Conn} (conn : Conn) (data : Bytes) (some : data ≠ [])
      (polling : s.loop = .polling) :
      Step s (.read conn data)
        { s with
          inputBuffer := Function.update s.inputBuffer conn ((s.inputBuffer conn).readFd (.ok data))
          loop := .inMessage conn }
  | drained {s : State registry Conn} {conn : Conn} {after : ConnBuffer}
      (loop : s.loop = .inMessage conn) (round : onMessageRound (s.inputBuffer conn) = (none, after)) :
      Step s .internal
        { s with inputBuffer := Function.update s.inputBuffer conn after, loop := .polling }
  | refuse {s : State registry Conn} {conn : Conn} {frame : Extracted} {after : ConnBuffer}
      (loop : s.loop = .inMessage conn)
      (round : onMessageRound (s.inputBuffer conn) = (some frame, after))
      (unparsable : RpcRequest.parse frame.msgData = none) :
      Step s (.send (.wrongProto ⟨conn, frame⟩ unparsable))
        { s with
          inputBuffer := Function.update s.inputBuffer conn after
          extracted := s.extracted ++ [⟨conn, frame⟩]
          replies := s.replies ++ [.wrongProto ⟨conn, frame⟩ unparsable] }
  | enqueue {s : State registry Conn} {conn : Conn} {frame : Extracted} {after : ConnBuffer}
      {request : RpcRequest} (loop : s.loop = .inMessage conn)
      (round : onMessageRound (s.inputBuffer conn) = (some frame, after))
      (parses : RpcRequest.parse frame.msgData = some request) :
      Step s .internal
        { s with
          inputBuffer := Function.update s.inputBuffer conn after
          extracted := s.extracted ++ [⟨conn, frame⟩]
          tasks := s.tasks ++ [⟨⟨conn, frame⟩, request, parses⟩] }
  | pop {s : State registry Conn} {i : Nat} {task : Task Conn} {rest : List (Task Conn)}
      (waiting : s.workers[i]? = some .waiting) (front : s.tasks = task :: rest) :
      Step s .internal { s with tasks := rest, workers := s.workers.set i (.running task) }
  | dispatch {s : State registry Conn} {i : Nat} {task : Task Conn}
      (running : s.workers[i]? = some (.running task)) (env : Env) :
      Step s .internal
        { s with
          workers := s.workers.set i (.posting ⟨task, env, _, rfl⟩)
          dispatched := s.dispatched ++ [⟨task, env, _, rfl⟩] }
  | post {s : State registry Conn} {i : Nat} {posted : Posted registry Conn}
      (posting : s.workers[i]? = some (.posting posted)) :
      Step s .internal
        { s with
          workers := s.workers.set i .waiting
          pendingFunctors := s.pendingFunctors ++ [posted] }
  | takeFunctors {s : State registry Conn} (polling : s.loop = .polling) :
      Step s .internal
        { s with pendingFunctors := [], loop := .runningFunctors s.pendingFunctors }
  | runFunctor {s : State registry Conn} {posted : Posted registry Conn}
      {rest : List (Posted registry Conn)} (running : s.loop = .runningFunctors (posted :: rest)) :
      Step s (.send (.result posted))
        { s with loop := .runningFunctors rest, replies := s.replies ++ [.result posted] }
  | functorsRun {s : State registry Conn} (running : s.loop = .runningFunctors []) :
      Step s .internal { s with loop := .polling }

end RpcServer

/-- The request a worker has in hand. -/
def WorkerPhase.sources {registry : RpcServiceRegistry Msg Env} :
    WorkerPhase registry Conn → Multiset (Received Conn)
  | .waiting => 0
  | .running task => {task.source}
  | .posting posted => {posted.task.source}

def WorkerPhase.results {registry : RpcServiceRegistry Msg Env} :
    WorkerPhase registry Conn → Multiset (Posted registry Conn)
  | .posting posted => {posted}
  | _ => 0

def LoopPhase.functors {registry : RpcServiceRegistry Msg Env} :
    LoopPhase registry Conn → List (Posted registry Conn)
  | .runningFunctors functors => functors
  | _ => []

namespace RpcServer
variable {registry : RpcServiceRegistry Msg Env}

/-- The functor queue: the functors posted, and those the loop has taken to run. -/
def State.functors (s : State registry Conn) : List (Posted registry Conn) :=
  s.pendingFunctors ++ s.loop.functors

/-- The requests in the task queue, in a worker or in the functor queue. -/
def State.inFlight (s : State registry Conn) : Multiset (Received Conn) :=
  ↑(s.tasks.map Task.source) + gathered WorkerPhase.sources s.workers +
    ↑(s.functors.map fun posted => posted.task.source)

/-- The results in a worker or in the functor queue. -/
def State.results (s : State registry Conn) : Multiset (Posted registry Conn) :=
  gathered WorkerPhase.results s.workers + ↑s.functors

/-- Every request is either answered or in flight, and every dispatched one
either answered or waiting to be. -/
structure Conserved (s : State registry Conn) : Prop where
  requests : (s.extracted : Multiset (Received Conn)) = ↑(s.replies.map Reply.source) + s.inFlight
  results : (s.dispatched : Multiset (Posted registry Conn)) =
    ↑(s.replies.filterMap Reply.posted?) + s.results

theorem conserved_new (registry : RpcServiceRegistry Msg Env) (Conn : Type) (threads : Nat) :
    Conserved (State.new registry Conn threads) := by
  constructor
  · simp [State.new, State.inFlight, State.functors, LoopPhase.functors,
      gathered_idle (show WorkerPhase.sources (.waiting : WorkerPhase registry Conn) = 0 from rfl)]
  · simp [State.new, State.results, State.functors, LoopPhase.functors,
      gathered_idle (show WorkerPhase.results (.waiting : WorkerPhase registry Conn) = 0 from rfl)]

/-- Nothing is in flight once the queues are empty and the workers wait. -/
theorem State.inFlight_idle {s : State registry Conn} (tasks : s.tasks = [])
    (workers : ∀ worker ∈ s.workers, worker = .waiting) (functors : s.functors = []) :
    s.inFlight = 0 := by
  have waiting : gathered WorkerPhase.sources s.workers = 0 := by
    rw [List.eq_replicate_of_mem workers]
    exact gathered_idle (show WorkerPhase.sources (.waiting : WorkerPhase registry Conn) = 0 from rfl) _
  simp only [State.inFlight, tasks, waiting, functors, List.map_nil, Multiset.coe_nil, add_zero]

omit [Protobuf] in
theorem coe_cons {α : Type} (first : α) (rest : List α) :
    ((first :: rest : List α) : Multiset α) = {first} + ↑rest := by
  rw [← Multiset.cons_coe, Multiset.singleton_add]

/-- A step that moves no request and no result. -/
theorem Conserved.quiet {s next : State registry Conn} (inv : Conserved s)
    (extracted : next.extracted = s.extracted) (replies : next.replies = s.replies)
    (dispatched : next.dispatched = s.dispatched) (tasks : next.tasks = s.tasks)
    (workers : next.workers = s.workers) (functors : next.functors = s.functors) : Conserved next := by
  constructor
  · rw [extracted, replies, inv.requests, State.inFlight, State.inFlight, tasks, workers, functors]
  · rw [dispatched, replies, inv.results, State.results, State.results, workers, functors]

variable [DecidableEq Conn]

theorem Conserved.step {s next : State registry Conn} {label : Label registry Conn}
    (inv : Conserved s) (step : Step s label next) : Conserved next := by
  have ⟨requests, results⟩ := inv
  simp only [State.inFlight, State.results, State.functors, List.map_append, ← Multiset.coe_add]
    at requests results
  cases step with
  | read conn data some polling =>
    exact inv.quiet rfl rfl rfl rfl rfl (by simp [State.functors, polling, LoopPhase.functors])
  | drained loop round =>
    exact inv.quiet rfl rfl rfl rfl rfl (by simp [State.functors, loop, LoopPhase.functors])
  | refuse loop round unparsable =>
    refine ⟨?_, ?_⟩
    · simp only [State.inFlight, State.functors, List.map_append, List.map_cons, List.map_nil,
        Multiset.coe_singleton, ← Multiset.coe_add, requests, Reply.source]
      abel
    · simp only [State.results, State.functors, List.filterMap_append, List.filterMap_cons,
        List.filterMap_nil, List.append_nil, ← Multiset.coe_add, results, Reply.posted?]
  | enqueue loop round parses =>
    refine ⟨?_, ?_⟩
    · simp only [State.inFlight, State.functors, List.map_append, List.map_cons, List.map_nil,
        Multiset.coe_singleton, ← Multiset.coe_add, requests]
      abel
    · simp only [State.results, State.functors, ← Multiset.coe_add, results]
  | pop waiting first =>
    obtain ⟨front, back, around, set, _⟩ := threads_around waiting
    rw [around, first, gathered_around, List.map_cons, coe_cons] at requests
    rw [around, gathered_around] at results
    refine ⟨?_, ?_⟩
    · simp only [State.inFlight, State.functors, set, gathered_around, List.map_append,
        ← Multiset.coe_add, requests, WorkerPhase.sources]
      abel
    · simp only [State.results, State.functors, set, gathered_around, ← Multiset.coe_add, results,
        WorkerPhase.results]
  | dispatch running env =>
    obtain ⟨front, back, around, set, _⟩ := threads_around running
    rw [around, gathered_around] at requests results
    refine ⟨?_, ?_⟩
    · simp only [State.inFlight, State.functors, set, gathered_around, List.map_append,
        ← Multiset.coe_add, requests, WorkerPhase.sources]
    · simp only [State.results, State.functors, set, gathered_around, Multiset.coe_singleton, ← Multiset.coe_add,
        results, WorkerPhase.results]
      abel
  | post posting =>
    obtain ⟨front, back, around, set, _⟩ := threads_around posting
    rw [around, gathered_around] at requests results
    refine ⟨?_, ?_⟩
    · simp only [State.inFlight, State.functors, set, gathered_around, List.map_append, List.map_cons,
        List.map_nil, Multiset.coe_singleton, ← Multiset.coe_add, requests, WorkerPhase.sources]
      abel
    · simp only [State.results, State.functors, set, gathered_around, Multiset.coe_singleton, ← Multiset.coe_add,
        results, WorkerPhase.results]
      abel
  | takeFunctors polling =>
    exact inv.quiet rfl rfl rfl rfl rfl (by simp [State.functors, polling, LoopPhase.functors])
  | runFunctor running =>
    rw [running] at requests results
    simp only [LoopPhase.functors, List.map_cons, coe_cons] at requests results
    refine ⟨?_, ?_⟩
    · simp only [State.inFlight, State.functors, LoopPhase.functors, List.map_append, List.map_cons,
        List.map_nil, Multiset.coe_singleton, ← Multiset.coe_add, requests, Reply.source]
      abel
    · simp only [State.results, State.functors, LoopPhase.functors, List.filterMap_append,
        List.filterMap_cons, List.filterMap_nil, Multiset.coe_singleton, ← Multiset.coe_add, results, Reply.posted?]
      abel
  | functorsRun running =>
    exact inv.quiet rfl rfl rfl rfl rfl (by simp [State.functors, running, LoopPhase.functors])

theorem Conserved.run {s later : State registry Conn} (inv : Conserved s) (run : Runs Step s later) :
    Conserved later :=
  run.invariant (fun _ _ _ inv step => inv.step step) inv

omit [DecidableEq Conn] in
/-- A server replies to what it has extracted. -/
theorem Conserved.source_mem {s : State registry Conn} (inv : Conserved s) {reply : Reply registry Conn}
    (replied : reply ∈ s.replies) : reply.source ∈ s.extracted := by
  have there : reply.source ∈ (s.extracted : Multiset (Received Conn)) := by
    rw [inv.requests, Multiset.mem_add, Multiset.mem_coe]
    exact .inl (List.mem_map.mpr ⟨reply, replied, rfl⟩)
  exact Multiset.mem_coe.mp there

omit [DecidableEq Conn] in
/-- A result that has been sent has been dispatched. -/
theorem Conserved.posted_mem {s : State registry Conn} (inv : Conserved s) {posted : Posted registry Conn}
    (replied : .result posted ∈ s.replies) : posted ∈ s.dispatched := by
  have there : posted ∈ (s.dispatched : Multiset (Posted registry Conn)) := by
    rw [inv.results, Multiset.mem_add, Multiset.mem_coe]
    exact .inl (List.mem_filterMap.mpr ⟨_, replied, rfl⟩)
  exact Multiset.mem_coe.mp there

/-- The requests of one connection, by their ids. -/
def idsOn (conn : Conn) (requests : Multiset (Received Conn)) : Multiset UInt64 :=
  (requests.filter fun r => r.conn = conn).map fun r => r.frame.reqId

omit [Protobuf] in
theorem idsOn_add (conn : Conn) (front back : Multiset (Received Conn)) :
    idsOn conn (front + back) = idsOn conn front + idsOn conn back := by
  simp only [idsOn, Multiset.filter_add, Multiset.map_add]

/-- In every reachable state the replies sent on a connection are, by their ids,
the requests extracted from it but for those in flight; once nothing is in
flight, they are the replies to exactly these requests, each with its own id
and with the answer to it. -/
theorem one_response_per_request (threads : Nat) (s : State registry Conn)
    (reached : Runs Step (State.new registry Conn threads) s) (conn : Conn) :
    let extracted : Multiset (Received Conn) := ↑s.extracted
    let answered : Multiset (Received Conn) := ↑(s.replies.map Reply.source)
    idsOn conn answered ≤ idsOn conn extracted ∧
      idsOn conn extracted - idsOn conn answered = idsOn conn s.inFlight ∧
      (s.tasks = [] → (∀ worker ∈ s.workers, worker = .waiting) → s.functors = [] →
        (extracted.filter fun r => r.conn = conn) = answered.filter fun r => r.conn = conn) ∧
      ∀ reply ∈ s.replies,
        reply.bytes = RpcCodec.packWithId reply.source.frame.reqId reply.payload ∧
          match RpcRequest.parse reply.source.frame.msgData with
          | none => reply.payload = ({ errorCode := ErrorCode.WRONG_PROTO } : RpcResponse).serialize
          | some request => ∃ env, reply.payload = (dispatchRequest registry request env).serialize := by
  intro extracted answered
  have requests : extracted = answered + s.inFlight :=
    ((conserved_new registry Conn threads).run reached).requests
  have ids : idsOn conn extracted = idsOn conn answered + idsOn conn s.inFlight := by
    rw [requests, idsOn_add]
  refine ⟨?_, ?_, ?_, fun reply _ => ⟨rfl, Reply.answers reply⟩⟩
  · rw [ids]
    exact Multiset.le_add_right _ _
  · rw [ids, add_tsub_cancel_left]
  · intro tasks workers functors
    rw [requests, State.inFlight_idle tasks workers functors, add_zero]

end RpcServer
end Pipeline

namespace RpcServer
open Protobuf.Sample

/-- Two requests are read on one of the connections of a server with one worker, which has answered
the first one. -/
theorem one_response_in_flight :
    let registry : RpcServiceRegistry Unit Unit := RpcServiceRegistry.empty
    ∃ s : State registry Bool, Runs Step (State.new registry Bool 1) s ∧
      s.extracted = [⟨true, ⟨7, [10, 1, 97]⟩⟩, ⟨true, ⟨8, [10, 1, 98]⟩⟩] ∧
      s.replies.map Reply.source = [⟨true, ⟨7, [10, 1, 97]⟩⟩] ∧ idsOn true s.inFlight = {8} ∧
      ∀ reply ∈ s.replies, ∃ env, reply.payload = (dispatchRequest registry ⟨[97], [], []⟩ env).serialize := by
  intro registry
  let first : Frame := ⟨7, [10, 1, 97], by decide, by decide⟩
  let second : Frame := ⟨8, [10, 1, 98], by decide, by decide⟩
  have nonempty : first.encode ++ second.encode ≠ [] :=
    List.append_ne_nil_of_left_ne_nil (List.length_pos_iff.mp (frame_prefixCode.pos first)) _
  have content : (ConnBuffer.new.readFd (.ok (first.encode ++ second.encode))).contents =
      first.encode ++ (second.encode ++ []) := by
    rw [ConnBuffer.contents_readFd_ok, ConnBuffer.contents_new, List.nil_append, List.append_nil]
  have arrived : nextFrame (ConnBuffer.new.readFd (.ok (first.encode ++ second.encode))).contents =
      some (first, second.encode ++ []) := by
    rw [content, nextFrame_encode]
  obtain ⟨between, round, left⟩ := onMessageRound_frame arrived
  have waiting : nextFrame between.contents = some (second, []) := by rw [left, nextFrame_encode]
  obtain ⟨after, round', empty⟩ := onMessageRound_frame waiting
  have drained : onMessageRound after = (none, after) := onMessageRound_waiting (by rw [empty]; rfl)
  have read : Runs Step (State.new registry Bool 1) _ :=
    .one (.read true (first.encode ++ second.encode) nonempty rfl)
  have enqueued := read.tail ⟨_, @Step.enqueue _ _ _ _ _ _ _ true first.extracted between ⟨[97], [], []⟩ rfl
    (by simpa only [Function.update_self, State.new] using round) (by decide)⟩
  have both := enqueued.tail ⟨_, @Step.enqueue _ _ _ _ _ _ _ true second.extracted after ⟨[98], [], []⟩ rfl
    (by simpa only [Function.update_self] using round') (by decide)⟩
  have polling := both.tail ⟨_, @Step.drained _ _ _ _ _ _ _ true after rfl
    (by simpa only [Function.update_self] using drained)⟩
  have popped := polling.tail ⟨_, @Step.pop _ _ _ _ _ _ _ 0 _ _ rfl rfl⟩
  have ran := popped.tail ⟨_, @Step.dispatch _ _ _ _ _ _ _ 0 _ rfl ()⟩
  have posted := ran.tail ⟨_, @Step.post _ _ _ _ _ _ _ 0 _ rfl⟩
  have taken := posted.tail ⟨_, .takeFunctors rfl⟩
  obtain ⟨s, sent, extracted, reply, replies, source⟩ : ∃ s : State registry Bool,
      Runs Step (State.new registry Bool 1) s ∧ s.extracted = [⟨true, first.extracted⟩, ⟨true, second.extracted⟩] ∧
        ∃ reply, s.replies = [reply] ∧ reply.source = ⟨true, first.extracted⟩ :=
    ⟨_, taken.tail ⟨_, .runFunctor rfl⟩, rfl, _, rfl, rfl⟩
  obtain ⟨_, waits, _, answers⟩ := one_response_per_request 1 s sent true
  have answer := (answers reply (replies ▸ List.mem_cons_self)).2
  rw [extracted, replies, List.map_singleton, source] at waits
  rw [source] at answer
  refine ⟨s, sent, extracted, by rw [replies, List.map_singleton, source]; rfl, waits.symm.trans (by decide), ?_⟩
  rw [replies, List.forall_mem_singleton]
  exact answer

end RpcServer
end ReactorRpc
