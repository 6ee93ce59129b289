import ReactorRpc.Delivery
import ReactorRpc.ServerIntake
import ReactorRpc.System

namespace ReactorRpc
open Streams

section EndToEnd
variable [Protobuf] {ServerId Conn Msg Env : Type} {registry : ServerId → RpcServiceRegistry Msg Env}

namespace System

/-- Some server has sent this response as its reply to a request with this id. -/
def Answered (servers : (i : ServerId) → RpcServer.State (registry i) Conn) (id : UInt64)
    (rsp : RpcResponse) : Prop :=
  ∃ i, ∃ reply ∈ (servers i).replies, reply.source.frame.reqId = id ∧ reply.response = rsp

/-- What a connection carries back: the servers' replies. -/
def Downstream (servers : (i : ServerId) → RpcServer.State (registry i) Conn) (later : Bytes)
    (buf : ConnBuffer) : Prop :=
  ∃ frames got : List ResponseFrame, (∀ f ∈ frames, Answered servers f.id f.rsp) ∧
    Receiving ResponseFrame.encode frames later (got, buf.contents)

/-- A read of the client takes at most one response off the stream, an answer. -/
theorem Downstream.read {servers : (i : ServerId) → RpcServer.State (registry i) Conn}
    {data rest : Bytes} {buf after : ConnBuffer} {found : Option (UInt64 × RpcResponse)}
    (here : Downstream servers (data ++ rest) buf)
    (unpacked : RpcChannel.unpackResponse (buf.readFd (.ok data)) = (found, after)) :
    Downstream servers rest after ∧ ∀ id rsp, found = some (id, rsp) → Answered servers id rsp := by
  obtain ⟨frames, got, answered, position⟩ := here
  obtain ⟨left, whole, stream⟩ := position.arrive
  rw [← ConnBuffer.contents_readFd_ok] at stream
  rcases RpcChannel.unpackResponse_cases stream with waits | ⟨f, later, more, rfl, took, remains⟩
  · cases unpacked.symm.trans waits
    exact ⟨⟨frames, got, answered, left, whole, stream⟩, nofun⟩
  · cases unpacked.symm.trans took
    refine ⟨⟨frames, got ++ [f], answered, more, ?_, remains⟩, ?_⟩
    · simp only [whole, List.append_assoc, List.singleton_append]
    · intro id rsp same
      cases same
      exact answered f (whole ▸ List.mem_append_right _ List.mem_cons_self)

variable [DecidableEq Conn]

/-- What a connection carries to its server: frames of attempts sent on it, no
two with one id, of which the server has extracted the first. -/
def Upstream {registry : RpcServiceRegistry Msg Env} (channel : RpcChannel.State Conn) (conn : Conn)
    (later : Bytes) (server : RpcServer.State registry Conn) : Prop :=
  ∃ frames : List Frame, (∀ f ∈ frames, channel.SentOn conn f.id f.payload) ∧
    (frames.map Frame.id).Nodup ∧ RpcServer.Reading frames later conn server

/-- Everything in flight is accounted for. -/
structure Delivered (serverOf : Conn → ServerId) (s : System registry Conn) : Prop where
  channel : RpcChannel.Consistent s.channel
  exchanged : ∀ (k : Nat) (a : Attempt Conn), s.channel.attempts[k]? = some a → a.request.Exchanged
  servers : ∀ i, RpcServer.Conserved (s.servers i)
  serves : ∀ i, RpcServer.Serves (fun conn => serverOf conn = i) (s.servers i)
  upstream : ∀ conn, Upstream s.channel conn (s.toServer conn) (s.servers (serverOf conn))
  downstream : ∀ conn, Downstream s.servers (s.toClient conn) (s.inputBuffer conn)
  reported : ∀ id rsp, s.channel.Reported id rsp → Answered s.servers id rsp

theorem delivered_new (serverOf : Conn → ServerId) (threads : ServerId → Nat) :
    Delivered serverOf (System.new registry Conn threads) where
  channel := RpcChannel.consistent_new
  exchanged := by intro k a here; cases here
  servers i := RpcServer.conserved_new (registry i) Conn (threads i)
  serves i := RpcServer.serves_new _ (registry i) (threads i)
  upstream conn := by
    refine ⟨[], fun f there => absurd there List.not_mem_nil, .nil, [], rfl, ?_⟩
    simp only [new, RpcServer.State.new, ConnBuffer.contents_new]
    exact Receiving.start []
  downstream conn := by
    refine ⟨[], [], fun f there => absurd there List.not_mem_nil, ?_⟩
    simp only [new, ConnBuffer.contents_new]
    exact Receiving.start []
  reported id rsp reported := by
    obtain ⟨k, there⟩ := (RpcChannel.State.reported_idle rfl id rsp).mp reported
    cases there

variable {serverOf : Conn → ServerId} {s : System registry Conn}

/-- A step of the channel, if it keeps to requests that can be exchanged and
takes in no response but an answer. -/
theorem Delivered.call (inv : Delivered serverOf s) {next : RpcChannel.State Conn}
    {action : RpcChannel.Action Conn} (step : RpcChannel.Step s.channel action next)
    (exchanged : ∀ call kind conn request, action = .pack call kind conn request → request.Exchanged)
    (answered : ∀ id rsp, action = .response id rsp → Answered s.servers id rsp) :
    Delivered serverOf { s with channel := next } := by
  refine { inv with channel := inv.channel.step step, exchanged := ?_, upstream := ?_, reported := ?_ }
  · intro k b now
    rcases step.origin now with ⟨a, here, same⟩ | ⟨call, kind, conn, packed⟩
    · rw [same]
      exact inv.exchanged k a here
    · exact exchanged call kind conn b.request packed
  · intro conn
    obtain ⟨frames, sent, ids, reading⟩ := inv.upstream conn
    exact ⟨frames, fun f there => step.sentOn (sent f there), ids, reading⟩
  · intro id rsp now
    rcases step.reported now with before | response
    · exact inv.reported id rsp before
    · exact answered id rsp response

/-- A frame sent on a connection carries an id of its own. -/
theorem Delivered.send [DecidableEq ServerId] (inv : Delivered serverOf s) {k : Nat} {a : Attempt Conn}
    {next : RpcChannel.State Conn} (here : s.channel.attempts[k]? = some a)
    (step : RpcChannel.Step s.channel (.send k) next) (few : s.channel.attempts.length < 2 ^ 64) :
    Delivered serverOf
      { s with
        channel := next
        toServer := Function.update s.toServer a.conn
          (s.toServer a.conn ++ RpcCodec.packWithId a.id a.request.serialize) } := by
  have moved := inv.call step nofun nofun
  refine { moved with upstream := ?_ }
  obtain ⟨nonempty, fits, _⟩ := inv.exchanged k a here
  have sentNow : a.phase = .registered ∧ next.SentOn a.conn a.id a.request.serialize := by
    cases step with
    | send there registered =>
      cases here.symm.trans there
      exact ⟨registered, k, _, threads_set_self here _, rfl, trivial, rfl, rfl⟩
  intro conn
  by_cases same : conn = a.conn
  · subst conn
    obtain ⟨frames, sent, ids, got, listed, position⟩ := inv.upstream a.conn
    let frame : Frame := ⟨a.id, a.request.serialize, nonempty, fits⟩
    have unused : ∀ f ∈ frames, f.id ≠ a.id := by
      intro f there equal
      obtain ⟨j, b, atJ, _, phase, id, _⟩ := sent f there
      cases inv.channel.distinct few atJ here (id.trans equal)
      cases here.symm.trans atJ
      rw [sentNow.1] at phase
      exact phase
    refine ⟨frames ++ [frame], ?_, ?_, got, listed, ?_⟩
    · intro f there
      rcases List.mem_append.mp there with there | new
      · exact step.sentOn (sent f there)
      · rw [List.mem_singleton.mp new]
        exact sentNow.2
    · rw [List.map_append, List.map_singleton]
      refine List.Nodup.append ids (List.nodup_singleton _) ?_
      intro id before new
      obtain ⟨f, there, rfl⟩ := List.mem_map.mp before
      exact unused f there (List.mem_singleton.mp new)
    · simp only [Function.update_self]
      exact position.extend frame
  · simp only [Function.update_of_ne same]
    exact moved.upstream conn

/-- What arrives at the client, as far as its connections are concerned. -/
theorem Delivered.receive (inv : Delivered serverOf s) {conn : Conn} {rest : Bytes}
    {after : ConnBuffer} (downstream : Downstream s.servers rest after) :
    Delivered serverOf
      { s with
        inputBuffer := Function.update s.inputBuffer conn after
        toClient := Function.update s.toClient conn rest } := by
  refine { inv with downstream := ?_ }
  intro other
  by_cases same : other = conn
  · subst other
    simp only [Function.update_self]
    exact downstream
  · simp only [Function.update_of_ne same]
    exact inv.downstream other

/-- A server keeps the answers it has given. -/
theorem Answered.serve [DecidableEq ServerId]
    {servers : (i : ServerId) → RpcServer.State (registry i) Conn} {id : UInt64} {rsp : RpcResponse}
    (answered : Answered servers id rsp) {i : ServerId} {label : RpcServer.Label (registry i) Conn}
    {next : RpcServer.State (registry i) Conn} (step : RpcServer.Step (servers i) label next) :
    Answered (Function.update servers i next) id rsp := by
  obtain ⟨j, reply, there, answers⟩ := answered
  refine ⟨j, reply, ?_, answers⟩
  by_cases same : j = i
  · subst j
    rw [Function.update_self]
    exact step.replies.1 reply there
  · rwa [Function.update_of_ne same]

/-- A step of a server, which may read from its own connections. -/
theorem Delivered.serve [DecidableEq ServerId] (inv : Delivered serverOf s) {i : ServerId}
    {label : RpcServer.Label (registry i) Conn} {next : RpcServer.State (registry i) Conn}
    (later : Conn → Bytes) (step : RpcServer.Step (s.servers i) label next)
    (own : ∀ conn data, label = .read conn data → serverOf conn = i)
    (reads : ∀ conn, s.toServer conn = label.arriving conn ++ later conn) :
    Delivered serverOf
      { s with servers := Function.update s.servers i next, toServer := later } := by
  refine { inv with servers := ?_, serves := ?_, upstream := ?_, downstream := ?_, reported := ?_ }
  · rw [Function.forall_update_iff s.servers (p := fun i => RpcServer.Conserved)]
    exact ⟨(inv.servers i).step step, fun j _ => inv.servers j⟩
  · rw [Function.forall_update_iff s.servers
      (p := fun j => RpcServer.Serves fun conn => serverOf conn = j)]
    exact ⟨(inv.serves i).step step own, fun j _ => inv.serves j⟩
  · intro conn
    obtain ⟨frames, sent, ids, reading⟩ := inv.upstream conn
    refine ⟨frames, sent, ids, ?_⟩
    rw [reads conn] at reading
    by_cases same : serverOf conn = i
    · subst i
      simp only [Function.update_self]
      exact reading.step step
    · rw [RpcServer.Label.arriving_other fun data read => same (own conn data read),
        List.nil_append] at reading
      simp only [ne_eq, same, not_false_iff, Function.update_of_ne]
      exact reading
  · intro conn
    obtain ⟨frames, got, answered, position⟩ := inv.downstream conn
    exact ⟨frames, got, fun f there => (answered f there).serve step, position⟩
  · intro id rsp reported
    exact (inv.reported id rsp reported).serve step

/-- A reply of a server on its way. -/
theorem Delivered.reply (inv : Delivered serverOf s) {f : ResponseFrame} (conn : Conn)
    (answered : Answered s.servers f.id f.rsp) :
    Delivered serverOf
      { s with toClient := Function.update s.toClient conn (s.toClient conn ++ f.encode) } := by
  refine { inv with downstream := ?_ }
  intro other
  by_cases same : other = conn
  · subst other
    simp only [Function.update_self]
    obtain ⟨frames, got, answers, position⟩ := inv.downstream conn
    refine ⟨frames ++ [f], got, ?_, position.extend f⟩
    intro g there
    rcases List.mem_append.mp there with there | new
    · exact answers g there
    · rw [List.mem_singleton.mp new]
      exact answered
  · simp only [Function.update_of_ne same]
    exact inv.downstream other

variable [DecidableEq ServerId] {next : System registry Conn}

theorem Delivered.step (inv : Delivered serverOf s) (few : s.channel.attempts.length < 2 ^ 64)
    (step : Step serverOf s next) : Delivered serverOf next := by
  cases step with
  | pack exchanged step =>
    refine inv.call step ?_ ?_
    · intro call kind conn request same
      cases same
      exact exchanged
    · intro id rsp same
      cases same
  | send here step => exact inv.send here step few
  | call inside step =>
    refine inv.call step ?_ ?_
    · rintro _ _ _ _ rfl
      exact inside.elim
    · rintro _ _ rfl
      exact inside.elim
  | clientRead arrived nonempty unpacked step =>
    rename_i conn data rest id rsp after
    have stream := inv.downstream conn
    rw [arrived] at stream
    obtain ⟨downstream, answered⟩ := stream.read unpacked
    refine Delivered.receive (s := { s with channel := _ }) (inv.call step ?_ ?_) downstream
    · intro call kind conn request same
      cases same
    · intro id rsp same
      cases same
      exact answered id rsp rfl
  | clientWait arrived nonempty unpacked idle =>
    rename_i conn data rest after
    have stream := inv.downstream conn
    rw [arrived] at stream
    exact inv.receive (stream.read unpacked).1
  | serverRead arrived step =>
    rename_i conn data rest next
    refine inv.serve _ step ?_ ?_
    · intro other data' same
      cases same
      rfl
    · intro other
      by_cases same : conn = other
      · subst other
        simp only [RpcServer.Label.arriving, if_pos, Function.update_self, arrived]
      · simp only [RpcServer.Label.arriving, same, if_false, List.nil_append,
          Function.update_of_ne (Ne.symm same)]
  | serverSend exchanged step =>
    rename_i i next reply
    have served := inv.serve s.toServer step (fun _ _ same => by cases same) (fun _ => rfl)
    have sent : reply ∈ next.replies := step.replies.2 reply rfl
    refine Delivered.reply (f := reply.frame exchanged) served reply.source.conn
      ⟨i, reply, ?_, rfl, rfl⟩
    simp only [Function.update_self]
    exact sent
  | serve step =>
    exact inv.serve s.toServer step (fun _ _ same => by cases same) (fun _ => rfl)

theorem Step.attempts_grow (step : Step serverOf s next) :
    s.channel.attempts.length ≤ next.channel.attempts.length := by
  cases step with
  | pack _ step => exact RpcChannel.attempts_grow step
  | send _ step => exact RpcChannel.attempts_grow step
  | call _ step => exact RpcChannel.attempts_grow step
  | clientRead _ _ _ step => exact RpcChannel.attempts_grow step
  | _ => exact Nat.le_refl _

theorem Delivered.run {threads : ServerId → Nat}
    (reached : Relation.ReflTransGen (Step serverOf) (System.new registry Conn threads) s)
    (few : s.channel.attempts.length < 2 ^ 64) : Delivered serverOf s := by
  induction reached with
  | refl => exact delivered_new serverOf threads
  | tail _ step ih =>
    have fewBefore := Nat.lt_of_le_of_lt step.attempts_grow few
    exact (ih fewBefore).step fewBefore step

omit [DecidableEq ServerId] in
/-- What a server has extracted was sent to it. -/
theorem Delivered.taken (inv : Delivered serverOf s) {i : ServerId} {r : Received Conn}
    (there : r ∈ (s.servers i).extracted) :
    serverOf r.conn = i ∧ s.channel.SentOn r.conn r.frame.reqId r.frame.msgData := by
  have own := (inv.serves i).extracted r there
  subst i
  obtain ⟨frames, sent, _, got, listed, left, whole, _⟩ := inv.upstream r.conn
  have taken : r.frame ∈ RpcServer.takenOn r.conn (s.servers (serverOf r.conn)).extracted :=
    List.mem_map.mpr ⟨r, List.mem_filter.mpr ⟨there, decide_eq_true rfl⟩, rfl⟩
  rw [listed] at taken
  obtain ⟨f, inside, same⟩ := List.mem_map.mp taken
  have sentF := sent f (whole ▸ List.mem_append_left _ inside)
  rw [← same]
  exact ⟨rfl, sentF⟩

omit [DecidableEq Conn] in
/-- An attempt is the only one to have been sent under its id. -/
theorem sentOn_attempt {channel : RpcChannel.State Conn} (inv : RpcChannel.Consistent channel)
    (few : channel.attempts.length < 2 ^ 64) {k : Nat} {a : Attempt Conn}
    (here : channel.attempts[k]? = some a) {conn : Conn} {payload : Bytes}
    (sent : channel.SentOn conn a.id payload) : a.conn = conn ∧ a.request.serialize = payload := by
  obtain ⟨j, b, atJ, on, _, id, carries⟩ := sent
  cases inv.distinct few atJ here id
  cases here.symm.trans atJ
  exact ⟨on, carries⟩

omit [DecidableEq ServerId] in
/-- No server extracts two requests with one id. -/
theorem Delivered.taken_once (inv : Delivered serverOf s) (few : s.channel.attempts.length < 2 ^ 64)
    (i : ServerId) {k : Nat} {a : Attempt Conn} (here : s.channel.attempts[k]? = some a) :
    (s.servers i).extracted.countP (fun r => r.frame.reqId = a.id) ≤ 1 := by
  have on : ∀ r ∈ (s.servers i).extracted, r.frame.reqId = a.id →
      serverOf r.conn = i ∧ r.conn = a.conn := by
    intro r there same
    obtain ⟨own, sent⟩ := inv.taken there
    rw [same] at sent
    exact ⟨own, (sentOn_attempt inv.channel few here sent).1.symm⟩
  by_cases mine : serverOf a.conn = i
  · subst i
    obtain ⟨frames, _, ids, got, listed, left, whole, _⟩ := inv.upstream a.conn
    have distinct : (got.map Frame.id).Nodup := by
      rw [whole, List.map_append] at ids
      exact ids.of_append_left
    have names : (got.map Frame.extracted).map Extracted.reqId = got.map Frame.id := List.map_map
    rw [RpcServer.countP_takenOn fun r there same => (on r there same).2, listed, names]
    exact List.nodup_iff_count_le_one.mp distinct a.id
  · rw [List.countP_eq_zero.mpr]
    · exact Nat.zero_le 1
    · intro r there same
      obtain ⟨own, conn⟩ := on r there (of_decide_eq_true same)
      exact mine (conn ▸ own)

/-- What a server does on its own, the system does. -/
theorem serve_runs {i : ServerId} {later : RpcServer.State (registry i) Conn}
    (run : Relation.ReflTransGen (fun before after => RpcServer.Step before .internal after)
      (s.servers i) later) :
    Relation.ReflTransGen (Step serverOf) s { s with servers := Function.update s.servers i later } := by
  induction run with
  | refl => rw [Function.update_eq_self]
  | tail before step ih =>
    rename_i here after
    let reached : System registry Conn := { s with servers := Function.update s.servers i here }
    have now : RpcServer.Step (reached.servers i) .internal after := by
      simpa only [reached, Function.update_self] using step
    have moved : Step serverOf reached _ := .serve now
    simp only [reached, Function.update_idem] at moved
    exact ih.tail moved

theorem reply_runs {i : ServerId} {later next : RpcServer.State (registry i) Conn}
    {reply : Reply (registry i) Conn}
    (run : Relation.ReflTransGen (fun before after => RpcServer.Step before .internal after)
      (s.servers i) later)
    (exchanged : reply.response.Exchanged) (step : RpcServer.Step later (.send reply) next) :
    Relation.ReflTransGen (Step serverOf) s
      { s with
        servers := Function.update s.servers i next
        toClient := Function.update s.toClient reply.source.conn
          (s.toClient reply.source.conn ++ reply.bytes) } := by
  have served : Relation.ReflTransGen (Step serverOf) s _ := serve_runs run
  have reached : RpcServer.Step (Function.update s.servers i later i) (.send reply) next := by
    rwa [Function.update_self]
  have replied := served.tail (.serverSend exchanged reached)
  rwa [Function.update_idem] at replied

/-- A synchronous call can be answered. -/
theorem call_answered (registry : RpcServiceRegistry Msg Env) {request : RpcRequest}
    (exchanged : request.Exchanged) {env : Env} {rsp : RpcResponse}
    (result : RpcServer.dispatchRequest registry request env = rsp) (answerable : rsp.Exchanged) :
    ∃ s : System (fun _ : Unit => registry) Unit,
      Relation.ReflTransGen (Step fun _ => ()) (System.new _ Unit fun _ => 1) s ∧
        s.channel.attempts.length = 1 ∧ s.channel.completed = [⟨0, 0, rsp⟩] := by
  subst result
  let rsp := RpcServer.dispatchRequest registry request env
  let attempt (phase : AttemptPhase) (future : Option RpcResponse) : Attempt Unit :=
    ⟨0, .sync, (), request, 0, phase, future⟩
  let start : System (fun _ : Unit => registry) Unit := System.new _ Unit fun _ => 1
  let frame : Frame := ⟨0, request.serialize, exchanged.nonempty, exchanged.fits⟩
  have packed : Relation.ReflTransGen (Step fun _ => ()) start _ :=
    .single (.pack exchanged (.pack 0 .sync () request))
  have registered := packed.tail (.call (show RpcChannel.Action.Inside (.register 0) from trivial)
    (@RpcChannel.Step.registerSync _ _ 0 (attempt .packed none) rfl rfl rfl))
  have sent := registered.tail (.send (k := 0) (a := attempt .registered none) rfl (.send rfl rfl))
  have read : RpcServer.Step (start.servers ()) (.read () frame.encode) _ :=
    .read () frame.encode (List.length_pos_iff.mp (frame_prefixCode.pos frame)) rfl
  have arrived := sent.tail
    (@Step.serverRead _ _ _ _ _ _ _ _ _ _ () frame.encode [] _ (List.append_nil _).symm read)
  obtain ⟨later, next, run, reply⟩ := RpcServer.answered_alone registry exchanged.parses env read
  let answer : Reply registry Unit :=
    .result ⟨⟨⟨(), frame.extracted⟩, request, exchanged.parses⟩, env, _, rfl⟩
  have replied := arrived.trans
    (reply_runs (i := ()) run (show answer.response.Exchanged from answerable) reply)
  have content : (ConnBuffer.new.readFd (.ok answer.bytes)).contents =
      (answer.frame answerable).encode ++ [] := by
    rw [ConnBuffer.contents_readFd_ok, ConnBuffer.contents_new, List.nil_append, List.append_nil]
    rfl
  have whole : nextResponse (ConnBuffer.new.readFd (.ok answer.bytes)).contents =
      some (answer.frame answerable, []) := by
    rw [content, nextResponse_encode]
  obtain ⟨after, unpacked, _⟩ := RpcChannel.unpackResponse_frame whole
  have nonempty : answer.bytes ≠ [] :=
    List.length_pos_iff.mp (response_prefixCode.pos (answer.frame answerable))
  have parsed := replied.tail (@Step.clientRead _ _ _ _ _ _ _ _ _ _ _ () answer.bytes [] _ _ _
    (List.append_nil _).symm nonempty unpacked (.response _ _ rfl))
  have done := parsed.tail (.call (show RpcChannel.Action.Inside .findSync from trivial)
    (@RpcChannel.Step.syncHit _ _ 0 rsp 0 (attempt .sent none) rfl rfl rfl))
  exact ⟨_, done, rfl, rfl⟩

/-- Whatever the interleaving and however the streams are cut, a response that
completes a call is the result of `dispatchRequest` on the request its own
attempt packed, on the server of the attempt's connection; this was run once
for the id, by that server alone, and no other attempt has the id. -/
theorem completion_matches (serverOf : Conn → ServerId) (threads : ServerId → Nat)
    (s : System registry Conn)
    (reached : Relation.ReflTransGen (Step serverOf) (System.new registry Conn threads) s)
    (few : s.channel.attempts.length < 2 ^ 64) (c : Completion) (done : c ∈ s.channel.completed) :
    ∃ a, s.channel.attempts[c.attempt]? = some a ∧ a.id = c.id ∧
      (∀ (j : Nat) (b : Attempt Conn), s.channel.attempts[j]? = some b → b.id = c.id → j = c.attempt) ∧
      (a.kind = .sync → a.future = some c.rsp) ∧
      (∃ posted : Posted (registry (serverOf a.conn)) Conn,
        ((s.servers (serverOf a.conn)).dispatched.filter fun q => q.task.source.frame.reqId = c.id) =
            [posted] ∧
          posted.task.source.conn = a.conn ∧ posted.task.request = a.request ∧
          c.rsp = RpcServer.dispatchRequest (registry (serverOf a.conn)) a.request posted.env) ∧
      ∀ i, i ≠ serverOf a.conn → ∀ q ∈ (s.servers i).dispatched, q.task.source.frame.reqId ≠ c.id := by
  have inv := Delivered.run reached few
  obtain ⟨a, here, same, _, future⟩ := inv.channel.completed c done
  have others : ∀ (j : Nat) (b : Attempt Conn), s.channel.attempts[j]? = some b → b.id = c.id →
      j = c.attempt :=
    fun j b there equal => inv.channel.distinct few there here (equal.trans same.symm)
  obtain ⟨i, reply, replied, id, response⟩ := inv.reported c.id c.rsp (.inr (.inr (.inr ⟨_, done⟩)))
  obtain ⟨own, sent⟩ := inv.taken ((inv.servers i).source_mem replied)
  rw [id, ← same] at sent
  obtain ⟨conn, carries⟩ := sentOn_attempt inv.channel few here sent
  have parses := (inv.exchanged _ a here).parses
  rw [carries] at parses
  cases reply with
  | wrongProto source unparsable => cases parses.symm.trans unparsable
  | result posted =>
    have mine : serverOf a.conn = i := conn ▸ own
    subst i
    have request := Option.some.inj (posted.task.parses.symm.trans parses)
    have once := inv.taken_once few (serverOf a.conn) here
    rw [same] at once
    refine ⟨a, here, same, others, future, ⟨posted, ?_, conn.symm, request, ?_⟩, ?_⟩
    · exact (inv.servers _).dispatched_once once ((inv.servers _).posted_mem replied) id
    · rw [← response, ← request]
      rfl
    · intro j differ q there equal
      obtain ⟨ownJ, sentJ⟩ := inv.taken ((inv.servers j).dispatched_source there)
      rw [equal, ← same] at sentJ
      have connJ := (sentOn_attempt inv.channel few here sentJ).1
      exact differ (ownJ.symm.trans (congrArg serverOf connJ.symm))

end System
end EndToEnd

namespace System
open Protobuf.Sample

theorem completion_matches_answered :
    ∃ s : System (fun _ : Unit => RpcChannel.constantRegistry (.returned [1, 2])) Unit,
      s.channel.completed = [⟨0, 0, { result := [1, 2] }⟩] ∧
        ∃ posted, ((s.servers ()).dispatched.filter fun q => q.task.source.frame.reqId = 0) = [posted] ∧
          { result := [1, 2] } = RpcServer.dispatchRequest
            (RpcChannel.constantRegistry (.returned [1, 2])) posted.task.request posted.env := by
  have request : RpcChannel.echoRequest.Exchanged := ⟨by decide, by decide, by decide⟩
  have answerable : ({ result := [1, 2] } : RpcResponse).Exchanged := ⟨by decide, by decide, by decide⟩
  obtain ⟨s, reached, attempts, completed⟩ := call_answered _ request
    (RpcChannel.dispatchRequest_constant (.returned [1, 2])) answerable
  have few : s.channel.attempts.length < 2 ^ 64 := by rw [attempts]; decide
  have done : ⟨0, 0, { result := [1, 2] }⟩ ∈ s.channel.completed := by
    rw [completed]
    exact List.mem_singleton.mpr rfl
  obtain ⟨a, _, _, _, _, ⟨posted, once, _, same, answer⟩, _⟩ :=
    completion_matches (fun _ => ()) (fun _ => 1) s reached few _ done
  exact ⟨s, completed, posted, once, by rw [same]; exact answer⟩

end System
end ReactorRpc
