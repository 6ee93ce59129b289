import ReactorRpc.ServerPipeline

namespace ReactorRpc
open Streams

variable [Protobuf] {Conn Msg Env : Type} {registry : RpcServiceRegistry Msg Env}

namespace RpcServer

/-- The connections a server hears from are its own. -/
structure Serves (own : Conn → Prop) (s : State registry Conn) : Prop where
  reading : ∀ conn, s.loop = .inMessage conn → own conn
  extracted : ∀ r ∈ s.extracted, own r.conn

theorem serves_new (own : Conn → Prop) (registry : RpcServiceRegistry Msg Env) (threads : Nat) :
    Serves own (State.new registry Conn threads) where
  reading := by intro conn loop; cases loop
  extracted := by intro r there; cases there

variable [DecidableEq Conn]

/-- The frames a server has extracted from one of its connections. -/
def takenOn (conn : Conn) (extracted : List (Received Conn)) : List Extracted :=
  (extracted.filter fun r => r.conn = conn).map Received.frame

/-- A server's position in the stream of one of its connections. -/
def Reading (frames : List Frame) (later : Bytes) (conn : Conn) (s : State registry Conn) : Prop :=
  ∃ got : List Frame, takenOn conn s.extracted = got.map Frame.extracted ∧
    Receiving Frame.encode frames later (got, (s.inputBuffer conn).contents)

/-- What a step reads from a connection. -/
def Label.arriving : Label registry Conn → Conn → Bytes
  | .read other data, conn => if other = conn then data else []
  | _, _ => []

theorem Label.arriving_other {label : Label registry Conn} {conn : Conn}
    (other : ∀ data, label ≠ .read conn data) : label.arriving conn = [] := by
  cases label with
  | read conn' data =>
    refine if_neg ?_
    rintro rfl
    exact other data rfl
  | send => rfl
  | internal => rfl

omit [Protobuf] in
theorem takenOn_append (conn other : Conn) (extracted : List (Received Conn)) (frame : Extracted) :
    takenOn conn (extracted ++ [⟨other, frame⟩]) =
      takenOn conn extracted ++ if other = conn then [frame] else [] := by
  by_cases same : other = conn
  · simp [takenOn, same]
  · simp [takenOn, same]

omit [Protobuf] in
/-- Where all requests with an id are on one connection, that connection
decides how many there are. -/
theorem countP_takenOn {extracted : List (Received Conn)} {conn : Conn} {id : UInt64}
    (on : ∀ r ∈ extracted, r.frame.reqId = id → r.conn = conn) :
    extracted.countP (fun r => r.frame.reqId = id) =
      ((takenOn conn extracted).map Extracted.reqId).count id := by
  rw [takenOn, List.map_map, List.count, List.countP_map, List.countP_filter]
  refine List.countP_congr fun r there => ?_
  have conn := on r there
  simp only [Function.comp, decide_eq_true_eq, Bool.and_eq_true, beq_iff_eq]
  exact ⟨fun same => ⟨same, conn same⟩, And.left⟩

/-- A round of `onMessage` on some connection, which takes a frame off. -/
theorem Reading.take {frames : List Frame} {later : Bytes} {conn other : Conn}
    {s next : State registry Conn} {frame : Extracted} {after : ConnBuffer}
    (here : Reading frames later conn s)
    (round : onMessageRound (s.inputBuffer other) = (some frame, after))
    (buffer : next.inputBuffer = Function.update s.inputBuffer other after)
    (extracted : next.extracted = s.extracted ++ [⟨other, frame⟩]) : Reading frames later conn next := by
  obtain ⟨got, listed, position⟩ := here
  have taken := takenOn_append conn other s.extracted frame
  rw [← extracted] at taken
  by_cases same : other = conn
  · subst other
    rw [if_pos rfl] at taken
    obtain ⟨left, whole, stream⟩ := position
    rcases onMessageRound_cases stream with waits | ⟨f, rest, more, rfl, took, remains⟩
    · cases round.symm.trans waits
    · cases round.symm.trans took
      refine ⟨got ++ [f], by rw [taken, listed, List.map_append, List.map_singleton], more, ?_, ?_⟩
      · rw [whole, List.append_assoc, List.singleton_append]
      · rw [buffer, Function.update_self]
        exact remains
  · rw [if_neg same, List.append_nil] at taken
    refine ⟨got, taken.trans listed, ?_⟩
    rw [buffer, Function.update_of_ne (Ne.symm same)]
    exact position

/-- No step of a server takes it out of the stream of a connection. -/
theorem Reading.step {frames : List Frame} {later : Bytes} {conn : Conn} {s next : State registry Conn}
    {label : Label registry Conn} (step : Step s label next)
    (here : Reading frames (label.arriving conn ++ later) conn s) : Reading frames later conn next := by
  cases step with
  | read other data some polling =>
    obtain ⟨got, listed, position⟩ := here
    refine ⟨got, listed, ?_⟩
    by_cases same : other = conn
    · subst other
      rw [Label.arriving, if_pos rfl] at position
      simp only [Function.update_self, ConnBuffer.contents_readFd_ok]
      exact position.arrive
    · rw [Label.arriving, if_neg same] at position
      simp only [Function.update_of_ne (Ne.symm same)]
      exact position
  | drained loop round =>
    rename_i other after
    obtain ⟨got, listed, position⟩ := here
    refine ⟨got, listed, ?_⟩
    by_cases same : other = conn
    · subst other
      obtain ⟨left, whole, stream⟩ := position
      simp only [Function.update_self]
      rcases onMessageRound_cases stream with waits | ⟨f, rest, more, _, took, _⟩
      · cases round.symm.trans waits
        exact ⟨left, whole, stream⟩
      · cases round.symm.trans took
    · simp only [Function.update_of_ne (Ne.symm same)]
      exact position
  | refuse loop round unparsable => exact here.take round rfl rfl
  | enqueue loop round parses => exact here.take round rfl rfl
  | _ => exact here

theorem Serves.step {own : Conn → Prop} {s next : State registry Conn} {label : Label registry Conn}
    (inv : Serves own s) (step : Step s label next)
    (reads : ∀ conn data, label = .read conn data → own conn) : Serves own next := by
  have more : ∀ {conn : Conn} (frame : Extracted), s.loop = .inMessage conn →
      ∀ r ∈ s.extracted ++ [⟨conn, frame⟩], own r.conn := by
    intro conn frame loop r there
    rcases List.mem_append.mp there with there | new
    · exact inv.extracted r there
    · rw [List.mem_singleton.mp new]
      exact inv.reading conn loop
  cases step with
  | read conn data => exact ⟨fun other loop => (by cases loop; exact reads conn data rfl), inv.extracted⟩
  | drained => exact ⟨fun conn loop => (by cases loop), inv.extracted⟩
  | refuse loop => exact ⟨inv.reading, more _ loop⟩
  | enqueue loop => exact ⟨inv.reading, more _ loop⟩
  | pop => exact ⟨inv.reading, inv.extracted⟩
  | dispatch => exact ⟨inv.reading, inv.extracted⟩
  | post => exact ⟨inv.reading, inv.extracted⟩
  | takeFunctors => exact ⟨fun conn loop => (by cases loop), inv.extracted⟩
  | runFunctor => exact ⟨fun conn loop => (by cases loop), inv.extracted⟩
  | functorsRun => exact ⟨fun conn loop => (by cases loop), inv.extracted⟩

/-- A server keeps its replies, and what it sends is one of them. -/
theorem Step.replies {s next : State registry Conn} {label : Label registry Conn}
    (step : Step s label next) :
    (∀ reply ∈ s.replies, reply ∈ next.replies) ∧ ∀ reply, label = .send reply → reply ∈ next.replies := by
  cases step with
  | refuse loop round unparsable =>
    refine ⟨fun reply there => List.mem_append_left _ there, ?_⟩
    intro reply sent
    cases sent
    exact List.mem_append_right _ List.mem_cons_self
  | runFunctor running =>
    refine ⟨fun reply there => List.mem_append_left _ there, ?_⟩
    intro reply sent
    cases sent
    exact List.mem_append_right _ List.mem_cons_self
  | _ => exact ⟨fun reply there => there, fun reply sent => by cases sent⟩

end RpcServer

/-- A worker with a result has run a request it took. -/
theorem WorkerPhase.results_le (worker : WorkerPhase registry Conn) :
    worker.results.map (fun posted => posted.task.source) ≤ worker.sources := by
  cases worker with
  | waiting => exact Multiset.zero_le _
  | running task => exact Multiset.zero_le _
  | posting posted => exact le_refl _

namespace RpcServer

theorem gathered_results_le (workers : List (WorkerPhase registry Conn)) :
    (gathered WorkerPhase.results workers).map (fun posted => posted.task.source) ≤
      gathered WorkerPhase.sources workers := by
  induction workers with
  | nil => exact Multiset.zero_le _
  | cons worker workers ih =>
    simp only [gathered, List.map_cons, List.sum_cons, Multiset.map_add] at ih ⊢
    exact add_le_add worker.results_le ih

theorem replies_posted_le (replies : List (Reply registry Conn)) :
    ((replies.filterMap Reply.posted? : Multiset (Posted registry Conn)).map
      fun posted => posted.task.source) ≤ (replies.map Reply.source : Multiset (Received Conn)) := by
  induction replies with
  | nil => exact Multiset.zero_le _
  | cons reply replies ih =>
    cases reply with
    | wrongProto source unparsable =>
      rw [List.filterMap_cons, List.map_cons, coe_cons]
      exact ih.trans (Multiset.le_add_left _ _)
    | result posted =>
      rw [List.filterMap_cons, List.map_cons, coe_cons]
      simp only [Reply.posted?, coe_cons, Multiset.map_add, Multiset.map_singleton]
      exact add_le_add (le_refl _) ih

/-- Every request that has been dispatched has been extracted, and at least as
often. -/
theorem Conserved.dispatched_le {s : State registry Conn} (inv : Conserved s) :
    (s.dispatched : Multiset (Posted registry Conn)).map (fun posted => posted.task.source) ≤
      (s.extracted : Multiset (Received Conn)) := by
  rw [inv.results, inv.requests, Multiset.map_add, State.results, Multiset.map_add, State.inFlight]
  refine add_le_add (replies_posted_le s.replies) ?_
  rw [Multiset.map_coe]
  exact add_le_add ((gathered_results_le s.workers).trans (Multiset.le_add_left _ _)) (le_refl _)

theorem Conserved.dispatched_source {s : State registry Conn} (inv : Conserved s)
    {posted : Posted registry Conn} (there : posted ∈ s.dispatched) :
    posted.task.source ∈ s.extracted :=
  Multiset.mem_coe.mp (Multiset.mem_of_le inv.dispatched_le (Multiset.mem_map_of_mem _ there))

/-- A request extracted once is dispatched at most once. -/
theorem Conserved.dispatched_once {s : State registry Conn} (inv : Conserved s) {id : UInt64}
    (once : s.extracted.countP (fun r => r.frame.reqId = id) ≤ 1) {posted : Posted registry Conn}
    (there : posted ∈ s.dispatched) (own : posted.task.source.frame.reqId = id) :
    (s.dispatched.filter fun q => q.task.source.frame.reqId = id) = [posted] := by
  have within : (s.dispatched.map fun q => q.task.source).Subperm s.extracted := inv.dispatched_le
  have fewer := (within.countP_le fun r => r.frame.reqId = id).trans once
  rw [List.countP_map, List.countP_eq_length_filter] at fewer
  have found : posted ∈ s.dispatched.filter fun q => q.task.source.frame.reqId = id :=
    List.mem_filter.mpr ⟨there, decide_eq_true own⟩
  have most : (s.dispatched.filter fun q => q.task.source.frame.reqId = id).length ≤ 1 := fewer
  obtain ⟨only, same⟩ := List.length_eq_one_iff.mp (le_antisymm most (List.length_pos_of_mem found))
  rw [same] at found
  rw [List.mem_singleton.mp found]
  exact same

/-- A request alone on its connection can be answered. -/
theorem answered_alone (registry : RpcServiceRegistry Msg Env) {f : Frame} {request : RpcRequest}
    (parses : RpcRequest.parse f.payload = some request) (env : Env) {s : State registry Unit}
    (read : Step (State.new registry Unit 1) (.read () f.encode) s) :
    ∃ later next : State registry Unit,
      Relation.ReflTransGen (fun before after => Step before .internal after) s later ∧
        Step later (.send (.result ⟨⟨⟨(), f.extracted⟩, request, parses⟩, env, _, rfl⟩)) next := by
  have content : (ConnBuffer.new.readFd (.ok f.encode)).contents = f.encode ++ [] := by
    rw [ConnBuffer.contents_readFd_ok, ConnBuffer.contents_new, List.nil_append, List.append_nil]
  have arrived : nextFrame (ConnBuffer.new.readFd (.ok f.encode)).contents = some (f, []) := by
    rw [content, nextFrame_encode]
  obtain ⟨after, round, empty⟩ := onMessageRound_frame arrived
  have last : onMessageRound after = (none, after) := onMessageRound_waiting (by rw [empty]; rfl)
  let task : Task Unit := ⟨⟨(), f.extracted⟩, request, parses⟩
  let posted : Posted registry Unit := ⟨task, env, _, rfl⟩
  let start : State registry Unit :=
    { State.new registry Unit 1 with
      inputBuffer := Function.update (State.new registry Unit 1).inputBuffer () (ConnBuffer.new.readFd (.ok f.encode))
      loop := .inMessage () }
  have enqueued : Relation.ReflTransGen (fun before after => Step before .internal after) start _ :=
    .single (@Step.enqueue _ _ _ _ _ _ start () f.extracted after request rfl round parses)
  have popped := enqueued.tail (@Step.pop _ _ _ _ _ _ _ 0 task [] rfl rfl)
  have dispatched := popped.tail (@Step.dispatch _ _ _ _ _ _ _ 0 task rfl env)
  have done := dispatched.tail (@Step.post _ _ _ _ _ _ _ 0 posted rfl)
  have drained := done.tail (@Step.drained _ _ _ _ _ _ _ () after rfl last)
  have taken := drained.tail (.takeFunctors rfl)
  cases read
  exact ⟨_, _, taken, @Step.runFunctor _ _ _ _ _ _ _ posted [] rfl⟩

end RpcServer
end ReactorRpc
