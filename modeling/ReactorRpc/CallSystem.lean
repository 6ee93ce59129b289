import ReactorRpc.CallReports
import ReactorRpc.EndToEnd
import ReactorRpc.Library.Joint
import Mathlib.Algebra.Order.BigOperators.Group.Finset

namespace ReactorRpc
open Streams

variable {ServerId Conn Msg Env : Type} {registry : ServerId → RpcServiceRegistry Msg Env}

/-- A request of a call is under this id. -/
def RpcChannel.State.Asked (s : RpcChannel.State Conn) (call : Nat) (id : UInt64) : Prop :=
  ∃ a ∈ s.attempts, a.call = call ∧ a.id = id

instance (s : RpcChannel.State Conn) (call : Nat) (id : UInt64) : Decidable (s.Asked call id) :=
  inferInstanceAs (Decidable (∃ a ∈ s.attempts, a.call = call ∧ a.id = id))

/-- All attempts of a call are made with the one request. -/
def RpcChannel.State.Asks (s : RpcChannel.State Conn) (call : Nat) (request : RpcRequest) : Prop :=
  ∀ a ∈ s.attempts, a.call = call → a.request = request

theorem RpcChannel.State.Asks.step {s t : RpcChannel.State Conn} {call : Nat} {request : RpcRequest}
    (asks : s.Asks call request) {action : RpcChannel.Action Conn} (step : RpcChannel.Step s action t)
    (own : ∀ kind conn other, action = .pack call kind conn other → other = request) :
    t.Asks call request := by
  intro a there mine
  obtain ⟨k, here⟩ := List.getElem?_of_mem there
  rcases RpcChannel.attempt_origin step here with ⟨b, old, moved, _⟩ | ⟨_, _, kind, conn, other, packed, new⟩
  · rw [moved] at mine ⊢
    exact asks b (List.mem_of_getElem? old) mine
  · subst new
    cases mine
    exact own kind conn other packed

namespace System
variable [Protobuf]

/-- How often a server has dispatched a request of a call. -/
def executions (s : System registry Conn) (call : Nat) (i : ServerId) : Nat :=
  (s.servers i).dispatched.countP fun posted => s.channel.Asked call posted.task.source.frame.reqId

section
variable [DecidableEq ServerId] [DecidableEq Conn] {serverOf : Conn → ServerId} {s t : System registry Conn}

theorem Step.channel (step : Step serverOf s t) :
    (∃ action, RpcChannel.Step s.channel action t.channel) ∨ t.channel = s.channel := by
  cases step with
  | pack _ step | send _ step | call _ step | clientRead _ _ _ step => exact .inl ⟨_, step⟩
  | clientWait | serverRead | serverSend | serve => exact .inr rfl

/-- The attempts that a call has packed stay, and are made by the channel. -/
theorem Step.packed (step : Step serverOf s t) (call : Nat) :
    s.channel.packed call ≤ t.channel.packed call ∧
      (t.channel.packed call = s.channel.packed call → t.channel = s.channel ∨
        ∃ action, RpcChannel.Step s.channel action t.channel ∧
          ∀ kind conn request, action ≠ .pack call kind conn request) := by
  rcases step.channel with ⟨action, moved⟩ | still
  · have more := RpcChannel.packed_after moved call
    refine ⟨by omega, fun same => .inr ⟨action, moved, ?_⟩⟩
    rintro kind conn request rfl
    have one : [call].count call = 1 := List.count_singleton_self
    simp only [RpcChannel.Action.packs] at more
    omega
  · rw [still]
    exact ⟨le_rfl, fun _ => .inl rfl⟩

theorem channel_run (run : Relation.ReflTransGen (Step serverOf) s t) :
    Runs RpcChannel.Step s.channel t.channel := by
  induction run with
  | refl => exact .refl
  | tail _ step ih =>
    rcases step.channel with ⟨action, moved⟩ | still
    · exact ih.tail ⟨action, moved⟩
    · exact still ▸ ih

omit [DecidableEq ServerId] in
/-- Nothing is dispatched under an id of a call but what an attempt of it has sent to the server. -/
theorem Delivered.dispatched_sent (inv : Delivered serverOf s) (few : s.channel.attempts.length < 2 ^ 64)
    {i : ServerId} {posted : Posted (registry i) Conn} (there : posted ∈ (s.servers i).dispatched)
    {k : Nat} {a : Attempt Conn} (here : s.channel.attempts[k]? = some a)
    (same : a.id = posted.task.source.frame.reqId) :
    serverOf a.conn = i ∧ RpcChannel.AttemptPhase.FrameSent a.phase = true ∧ posted.task.request = a.request := by
  obtain ⟨own, j, b, atJ, conn, sent, id, carries⟩ := inv.taken ((inv.servers i).dispatched_source there)
  cases inv.channel.distinct few atJ here (id.trans same.symm)
  cases here.symm.trans atJ
  refine ⟨conn ▸ own, ?_, ?_⟩
  · cases phase : a.phase with
    | packed | registered =>
      rw [phase] at sent
      exact sent.elim
    | sent | timedOut | returned => rfl
  · have parses := posted.task.parses
    rw [← carries, (inv.exchanged k a here).parses] at parses
    exact (Option.some.inj parses).symm

/-- A server dispatches each frame that a call has sent to it at most once, and nothing
else of the call. -/
theorem Delivered.executions_le (inv : Delivered serverOf s) (few : s.channel.attempts.length < 2 ^ 64)
    (call : Nat) (i : ServerId) :
    s.executions call i ≤ ((s.channel.frames call).map fun a => serverOf a.conn).count i := by
  let own : List (Posted (registry i) Conn) := (s.servers i).dispatched.filter fun posted =>
    s.channel.Asked call posted.task.source.frame.reqId
  let ids : List UInt64 := own.map fun posted => posted.task.source.frame.reqId
  let sent := (s.channel.frames call).filter fun a => serverOf a.conn = i
  have asked : ∀ posted ∈ own, posted ∈ (s.servers i).dispatched ∧
      ∃ (k : Nat) (a : Attempt Conn), s.channel.attempts[k]? = some a ∧ a.call = call ∧
        a.id = posted.task.source.frame.reqId := by
    intro posted member
    obtain ⟨there, asked⟩ := List.mem_filter.mp member
    obtain ⟨a, present, mine, same⟩ := of_decide_eq_true asked
    obtain ⟨k, here⟩ := List.getElem?_of_mem present
    exact ⟨there, k, a, here, mine, same⟩
  have once : ids.Nodup := by
    refine List.nodup_iff_count_le_one.mpr fun id => ?_
    by_cases member : id ∈ ids
    · obtain ⟨posted, inside, rfl⟩ := List.mem_map.mp member
      obtain ⟨there, k, a, here, _, same⟩ := asked posted inside
      have extracted := inv.taken_once few i here
      rw [same] at extracted
      have alone := (inv.servers i).dispatched_once extracted there rfl
      have dispatched : (s.servers i).dispatched.countP
          (fun q => q.task.source.frame.reqId = posted.task.source.frame.reqId) ≤ 1 := by
        rw [List.countP_eq_length_filter, alone, List.length_singleton]
      rw [List.count, List.countP_map]
      exact List.filter_sublist.countP_le.trans dispatched
    · rw [List.count_eq_zero.mpr member]
      exact Nat.zero_le 1
  have within : ids ⊆ sent.map Attempt.id := by
    intro id member
    obtain ⟨posted, inside, rfl⟩ := List.mem_map.mp member
    obtain ⟨there, k, a, here, mine, same⟩ := asked posted inside
    obtain ⟨served, frame, _⟩ := inv.dispatched_sent few there here same
    refine List.mem_map.mpr ⟨a, List.mem_filter.mpr ⟨List.mem_filter.mpr ⟨List.mem_of_getElem? here, ?_⟩, ?_⟩, same⟩
    · simp [mine, frame]
    · exact decide_eq_true served
  have bound := (List.subperm_of_subset once within).length_le
  rw [List.length_map, List.length_map] at bound
  rw [executions, List.countP_eq_length_filter, List.count, List.countP_map, List.countP_eq_length_filter]
  exact bound

/-- All servers together dispatch a call at most once for each frame it has sent. -/
theorem Delivered.sum_executions_le (inv : Delivered serverOf s) (few : s.channel.attempts.length < 2 ^ 64)
    (call : Nat) (servers : Finset ServerId) :
    ∑ i ∈ servers, s.executions call i ≤ (s.channel.frames call).length := by
  let sentTo := (s.channel.frames call).map fun a => serverOf a.conn
  have each : ∀ i ∈ servers, s.executions call i ≤ sentTo.count i :=
    fun i _ => inv.executions_le few call i
  have all : ∑ i ∈ servers, sentTo.count i ≤ ∑ i ∈ sentTo.toFinset, sentTo.count i := by
    refine Finset.sum_le_sum_of_ne_zero fun i _ counted => ?_
    exact List.mem_toFinset.mpr (List.count_pos_iff.mp (Nat.pos_of_ne_zero counted))
  rw [List.sum_toFinset_count_eq_length, List.length_map] at all
  exact (Finset.sum_le_sum each).trans all

omit [DecidableEq ServerId] in
/-- A response that a call has met is what a server has replied to a request of it. -/
theorem Delivered.answer (inv : Delivered serverOf s) (few : s.channel.attempts.length < 2 ^ 64)
    {call : Nat} {request : RpcRequest} (asks : s.channel.Asks call request) {rsp : RpcResponse}
    (happened : s.channel.Happened call (.answered rsp)) :
    ∃ i, ∃ posted ∈ (s.servers i).dispatched, s.channel.Asked call posted.task.source.frame.reqId ∧
      posted.task.request = request ∧ rsp = RpcServer.dispatchRequest (registry i) request posted.env := by
  obtain ⟨k, a, here, mine, completed⟩ := happened rsp rfl
  have asked := List.mem_of_getElem? here
  obtain ⟨i, reply, replied, id, response⟩ := inv.reported a.id rsp (.inr (.inr (.inr ⟨k, completed⟩)))
  obtain ⟨own, sent⟩ := inv.taken ((inv.servers i).source_mem replied)
  rw [id] at sent
  obtain ⟨conn, carries⟩ := sentOn_attempt inv.channel few here sent
  have parses := (inv.exchanged k a here).parses
  rw [carries] at parses
  cases reply with
  | wrongProto source unparsable => cases parses.symm.trans unparsable
  | result posted =>
    have same := Option.some.inj (posted.task.parses.symm.trans parses)
    rw [asks a asked mine] at same
    refine ⟨i, posted, (inv.servers i).posted_mem replied, ⟨a, asked, mine, id.symm⟩, same, ?_⟩
    rw [← response, ← same]
    rfl

/-- A request that has been dispatched is the only one, if no more can have been. -/
theorem Delivered.executed_once (inv : Delivered serverOf s) (few : s.channel.attempts.length < 2 ^ 64)
    {call : Nat} (single : (s.channel.frames call).length ≤ 1) {i : ServerId}
    {posted : Posted (registry i) Conn} (there : posted ∈ (s.servers i).dispatched)
    (asked : s.channel.Asked call posted.task.source.frame.reqId) :
    s.executions call i = 1 ∧ ∀ j, j ≠ i → s.executions call j = 0 := by
  have run : 0 < s.executions call i := List.countP_pos_iff.mpr ⟨posted, there, decide_eq_true asked⟩
  have most := (inv.sum_executions_le few call {i}).trans single
  rw [Finset.sum_singleton] at most
  refine ⟨by omega, fun j other => ?_⟩
  have both := (inv.sum_executions_le few call {j, i}).trans single
  rw [Finset.sum_pair other] at both
  omega

end

/-- A packed attempt can be answered by its server: it is sent, and its response is read. -/
theorem attempt_answered (registry : RpcServiceRegistry Msg Env) {request : RpcRequest}
    (exchanged : request.Exchanged) {env : Env} {rsp : RpcResponse}
    (result : RpcServer.dispatchRequest registry request env = rsp) (answerable : rsp.Exchanged)
    (call : Nat) (kind : CallKind) {channel : RpcChannel.State Unit}
    (packed : RpcChannel.Step {} (.pack call kind () request) channel) :
    ∃ (s : System (fun _ : Unit => registry) Unit) (registered : RpcChannel.State Unit),
      Relation.ReflTransGen (Step fun _ => ())
        { System.new (fun _ : Unit => registry) Unit (fun _ => 1) with channel } s ∧
      RpcChannel.Step channel (.register 0) registered ∧
      s.channel =
        { registered with
          attempts := [⟨call, kind, (), request, 0, .sent, none⟩], loop := .parsed 0 rsp } := by
  subst result
  let attempt (phase : AttemptPhase) : Attempt Unit := ⟨call, kind, (), request, 0, phase, none⟩
  let start : System (fun _ : Unit => registry) Unit := System.new _ Unit fun _ => 1
  let frame : Frame := ⟨0, request.serialize, exchanged.nonempty, exchanged.fits⟩
  obtain ⟨tables, entered, attempts, idle⟩ : ∃ registered, RpcChannel.Step channel (.register 0) registered ∧
      registered.attempts = [attempt .registered] ∧ registered.loop = .idle := by
    cases packed
    cases kind with
    | sync => exact ⟨_, @RpcChannel.Step.registerSync _ _ 0 (attempt .packed) rfl rfl rfl, rfl, rfl⟩
    | async => exact ⟨_, @RpcChannel.Step.registerAsync _ _ 0 (attempt .packed) rfl rfl rfl, rfl, rfl⟩
  have registered : Relation.ReflTransGen (Step fun _ => ()) { start with channel } _ :=
    .single (.call (show RpcChannel.Action.Inside (.register 0) from trivial) entered)
  have here : tables.attempts[0]? = some (attempt .registered) := by rw [attempts]; rfl
  have sent := registered.tail (.send (k := 0) here (.send here rfl))
  have read : RpcServer.Step (start.servers ()) (.read () frame.encode) _ :=
    .read () frame.encode (List.length_pos_iff.mp (frame_prefixCode.pos frame)) rfl
  have arrived := sent.tail
    (@Step.serverRead _ _ _ _ _ _ _ _ _ _ () frame.encode [] _ (List.append_nil _).symm read)
  obtain ⟨later, next, run, reply⟩ := RpcServer.answered_alone registry exchanged.parses env read
  let answer : Reply registry Unit :=
    .result ⟨⟨⟨(), frame.extracted⟩, request, exchanged.parses⟩, env, _, rfl⟩
  have replied := arrived.trans
    (reply_runs (i := ()) run (show answer.response.Exchanged from answerable) reply)
  have content : (ConnBuffer.new.readFd (.ok answer.bytes)).contents =
      (answer.frame answerable).encode ++ [] := by
    rw [ConnBuffer.contents_readFd_ok, ConnBuffer.contents_new, List.nil_append, List.append_nil]
    rfl
  have whole : nextResponse (ConnBuffer.new.readFd (.ok answer.bytes)).contents =
      some (answer.frame answerable, []) := by
    rw [content, nextResponse_encode]
  obtain ⟨after, unpacked, _⟩ := RpcChannel.unpackResponse_frame whole
  have nonempty : answer.bytes ≠ [] :=
    List.length_pos_iff.mp (response_prefixCode.pos (answer.frame answerable))
  have parsed := replied.tail (@Step.clientRead _ _ _ _ _ _ _ _ _ _ _ () answer.bytes [] _ _ _
    (List.append_nil _).symm nonempty unpacked (.response _ _ idle))
  refine ⟨_, tables, parsed, entered, ?_⟩
  simp only [attempts]
  rfl

end System

/-- What each step of a caller keeps of the requests of its call, a run of it keeps. -/
theorem asks_run {Client Label : Type} {channel : Client → RpcChannel.State Conn}
    {Step : Client → Label → Client → Prop} {call : Nat} {request : RpcRequest}
    (kept : ∀ s label t, (channel s).Asks call request → Step s label t → (channel t).Asks call request)
    {s t : Client} (run : Runs Step s t) (new : ∀ a ∈ (channel s).attempts, a.call ≠ call) :
    (channel t).Asks call request :=
  run.invariant kept fun a there mine => absurd mine (new a there)

namespace SyncCall

section
variable [Protobuf] {Reply : Type}

/-- A system in which a thread is in a synchronous call. -/
abbrev Running (registry : ServerId → RpcServiceRegistry Msg Env) (Conn Reply : Type) :=
  Joint (System.channel : System registry Conn → _) (State.channel : State Conn Reply → _)

def enter (c : SyncCall Reply) (system : System registry Conn) (loadBalancer : LoadBalancer) :
    Running registry Conn Reply :=
  ⟨system, c.start system.channel loadBalancer, rfl⟩

variable [DecidableEq ServerId] [DecidableEq Conn] {c : SyncCall Reply}

/-- The steps of the system and of the thread, which sends and waits in the channel of the system. -/
abbrev SystemStep (c : SyncCall Reply) (serverOf : Conn → ServerId) :
    Running registry Conn Reply → Running registry Conn Reply → Prop :=
  Joint.Step (System.Step serverOf) (Moves (Step c))

omit [Protobuf] [DecidableEq ServerId] [DecidableEq Conn] in
theorem Step.asks {s t : State Conn Reply} {action : Action Conn} (step : Step c s action t)
    (asks : s.channel.Asks c.call c.request) : t.channel.Asks c.call c.request := by
  cases step with
  | pack connected step =>
    refine asks.step step ?_
    intro kind conn other same
    cases same
    rfl
  | channel step other => exact asks.step step fun kind conn request same => absurd same (other kind conn request)
  | _ => exact asks

omit [Protobuf] [DecidableEq ServerId] [DecidableEq Conn] in
theorem frames_le {channel : RpcChannel.State Conn} (reached : Runs RpcChannel.Step {} channel)
    (new : ∀ a ∈ channel.attempts, a.call ≠ c.call) {loadBalancer : LoadBalancer} {s : State Conn Reply}
    (run : Runs (Step c) (c.start channel loadBalancer) s) : (s.channel.frames c.call).length ≤ c.limit := by
  have accounted := (Accounted.start (RpcChannel.consistent_new.run reached) new loadBalancer).run run
  exact (RpcChannel.frames_le_packed s.channel c.call).trans accounted.packed_le

/-- The system moves on while the thread waits. -/
theorem follow {serverOf : Conn → ServerId} {s : Running registry Conn Reply} {last : System registry Conn}
    (run : Relation.ReflTransGen (System.Step serverOf) s.left last)
    (others : last.channel.packed c.call = s.left.channel.packed c.call) :
    Relation.ReflTransGen (c.SystemStep serverOf) s
      ⟨last, { s.right with channel := last.channel }, rfl⟩ := by
  refine Joint.follow (fun caller channel => { caller with channel }) (fun _ _ => rfl) (fun _ => rfl)
    (fun _ _ _ => rfl) (fun _ _ step => (step.packed c.call).1) ?_ run others
  intro before after caller step same agree
  rcases (step.packed c.call).2 same with still | ⟨action, moved, other⟩
  · exact .inr still
  · rw [agree] at moved
    exact .inl ⟨.channel action, .channel moved other⟩

/-- A synchronous call can be answered. -/
theorem answered (registry : RpcServiceRegistry Msg Env) (c : SyncCall Reply) (allowed : c.Allowed 0)
    (exchanged : c.request.Exchanged) {env : Env} {rsp : RpcResponse}
    (result : RpcServer.dispatchRequest registry c.request env = rsp) (answerable : rsp.Exchanged)
    (ok : rsp.errorCode = ErrorCode.NO_ERROR) :
    ∃ s : Running (fun _ : Unit => registry) Unit Reply,
      Relation.ReflTransGen (c.SystemStep fun _ => ()) (c.enter (System.new _ Unit fun _ => 1) {}) s ∧
        s.left.channel.attempts.length = 1 ∧ s.right.phase = .returned ∧
        s.right.controller = c.controller ∧ s.right.response = c.parseFromString rsp.result c.response := by
  let addr := asciiText "10.0.0.1:80"
  let start : Running (fun _ : Unit => registry) Unit Reply := c.enter (System.new _ Unit fun _ => 1) {}
  let attempt (phase : AttemptPhase) (future : Option RpcResponse) : Attempt Unit :=
    ⟨c.call, .sync, (), c.request, 0, phase, future⟩
  have entered : Relation.ReflTransGen (c.SystemStep fun _ => ()) start _ :=
    .single (.alone ⟨_, .again rfl allowed⟩ (by rfl))
  have selected := entered.tail (.alone ⟨_, @Step.select _ _ _ _ [addr] 0 rfl nofun (by decide)⟩ (by rfl))
  have connected := selected.tail (.alone ⟨_, .connect () rfl ⟨_, 80, rfl⟩⟩ (by rfl))
  have pack : RpcChannel.Step ({} : RpcChannel.State Unit) (.pack c.call .sync () c.request) _ :=
    .pack c.call .sync () c.request
  obtain ⟨system, tables, run, entry, parsed⟩ :=
    System.attempt_answered registry exchanged result answerable c.call .sync pack
  have packed := connected.tail (.together (.pack exchanged pack) ⟨_, .pack rfl pack⟩ (by rfl))
  cases entry with
  | registerAsync here kind =>
    cases here
    cases kind
  | registerSync here =>
  cases here
  have ready := packed.trans (follow run (by rw [parsed]; rfl))
  obtain ⟨channel, inputBuffer, servers, toServer, toClient⟩ := system
  cases parsed
  let waiting : RpcChannel.State Unit :=
    { nextId := 1, pendingSync := PendingTable.insert (fun _ => none) 0 0,
      attempts := [attempt .sent none], loop := .parsed 0 rsp }
  have hit : RpcChannel.Step waiting .findSync _ :=
    @RpcChannel.Step.syncHit _ waiting 0 rsp 0 (attempt .sent none) rfl rfl rfl
  have set := ready.tail (.together (.call (show RpcChannel.Action.Inside .findSync from trivial) hit)
    ⟨_, .channel hit nofun⟩ (by rfl))
  let fulfilled : RpcChannel.State Unit :=
    { nextId := 1, pendingSync := PendingTable.erase waiting.pendingSync 0,
      attempts := [attempt .sent (some rsp)], completed := [⟨0, 0, rsp⟩] }
  have wake : RpcChannel.Step fulfilled (.get 0) _ :=
    @RpcChannel.Step.get _ fulfilled 0 (attempt .sent (some rsp)) rsp rfl rfl rfl rfl
  have got := set.tail (.together (.call (show RpcChannel.Action.Inside (.get 0) from trivial) wake)
    ⟨_, .channel wake nofun⟩ (by rfl))
  have fine : callResult rsp = .parseFromString rsp.result := if_neg (not_not.mpr ok)
  have back := got.tail (.alone ⟨_, @Step.succeed _ _ _ _ _ rsp.result 0
    (attempt (.returned (callResult rsp)) (some rsp)) rfl rfl (congrArg AttemptPhase.returned fine)⟩ (by rfl))
  exact ⟨_, back, rfl, rfl, rfl, rfl⟩

/-- With indivisible sends and requests and responses that can be exchanged, all servers together
dispatch a synchronous call at most once for each frame that it has sent, whatever the interleaving,
the retries and the loss of responses. It sends at most one frame if it is not idempotent, and one
for each round of its loop otherwise. -/
theorem executions_bounded (c : SyncCall Reply) (serverOf : Conn → ServerId) (threads : ServerId → Nat)
    (system : System registry Conn)
    (reached : Relation.ReflTransGen (System.Step serverOf) (System.new registry Conn threads) system)
    (new : ∀ a ∈ system.channel.attempts, a.call ≠ c.call) (loadBalancer : LoadBalancer)
    (s : Running registry Conn Reply)
    (run : Relation.ReflTransGen (c.SystemStep serverOf) (c.enter system loadBalancer) s)
    (few : s.left.channel.attempts.length < 2 ^ 64) (servers : Finset ServerId) :
    ∑ i ∈ servers, s.left.executions c.call i ≤ (s.left.channel.frames c.call).length ∧
      (s.left.channel.frames c.call).length ≤
        if c.controller.idempotent then (c.controller.maxRetries + 1).toNat else 1 := by
  have inv := System.Delivered.run (reached.trans (Joint.run_left run)) few
  refine ⟨inv.sum_executions_le few c.call servers, ?_⟩
  rw [s.agree]
  exact frames_le (System.channel_run reached) new (Joint.run_right run)

end

open Protobuf.Sample

/-- One that is not to be repeated. -/
theorem executions_bounded_answered :
    ∃ s : Running (fun _ : Unit => RpcChannel.constantRegistry (.returned [1, 2])) Unit Bytes,
      s.right.phase = .returned ∧ s.right.response = [1, 2] ∧
        ∑ i ∈ {()}, s.left.executions 0 i ≤ (s.left.channel.frames 0).length ∧
        (s.left.channel.frames 0).length ≤ 1 := by
  let c : SyncCall Bytes := ⟨0, RpcChannel.echoRequest, { idempotent := false }, [], fun result _ => result⟩
  obtain ⟨s, run, attempts, returned, _, response⟩ := answered _ c ⟨by decide, .inl rfl⟩
    ⟨by decide, by decide, by decide⟩ (RpcChannel.dispatchRequest_constant (.returned [1, 2]))
    ⟨by decide, by decide, by decide⟩ rfl
  have few : s.left.channel.attempts.length < 2 ^ 64 := by rw [attempts]; decide
  exact ⟨s, returned, response,
    executions_bounded c (fun _ => ()) (fun _ => 1) _ .refl nofun {} s run few {()}⟩

section
variable [Protobuf] {Reply : Type} [DecidableEq ServerId] [DecidableEq Conn]

section
variable {c : SyncCall Reply} {serverOf : Conn → ServerId} {threads : ServerId → Nat}
  {system : System registry Conn} {loadBalancer : LoadBalancer} {s : Running registry Conn Reply}

/-- The response that a call has succeeded with comes from a server that has dispatched it. -/
theorem success_dispatched
    (reached : Relation.ReflTransGen (System.Step serverOf) (System.new registry Conn threads) system)
    (new : ∀ a ∈ system.channel.attempts, a.call ≠ c.call)
    (run : Relation.ReflTransGen (c.SystemStep serverOf) (c.enter system loadBalancer) s)
    (few : s.left.channel.attempts.length < 2 ^ 64) (returned : s.right.phase = .returned)
    (succeeded : s.right.controller.failed = false) :
    ∃ i, ∃ posted ∈ (s.left.servers i).dispatched,
      s.left.channel.Asked c.call posted.task.source.frame.reqId ∧ posted.task.request = c.request ∧
        (RpcServer.dispatchRequest (registry i) c.request posted.env).errorCode = ErrorCode.NO_ERROR ∧
        s.right.response =
          c.parseFromString (RpcServer.dispatchRequest (registry i) c.request posted.env).result c.response := by
  have inv := System.Delivered.run (reached.trans (Joint.run_left run)) few
  have asks : s.right.channel.Asks c.call c.request :=
    asks_run (fun _ _ _ asks step => step.asks asks) (Joint.run_right run) new
  rw [← s.agree] at asks
  obtain ⟨outcomes, happened, reports⟩ :=
    callMethod_of_run (System.channel_run reached) loadBalancer (Joint.run_right run) returned
  rcases Caller.callMethod_cases reports with ⟨_, failed, _⟩ | ⟨rsp, ⟨k, _, met, ok, _⟩, message, _⟩
  · cases failed.symm.trans succeeded
  have answered := happened k
  rw [met, ← s.agree] at answered
  obtain ⟨i, posted, there, asked, same, result⟩ := inv.answer few asks answered
  refine ⟨i, posted, there, asked, same, result ▸ ok, ?_⟩
  rw [← result]
  exact message

end

/-- With indivisible sends and requests and responses that can be exchanged, a synchronous call
that has succeeded has been dispatched under the id of one of its attempts, with its own request,
and has decoded the result of that. If it is not idempotent, this was the only time that any
server has dispatched it. -/
theorem success_executed (c : SyncCall Reply) (serverOf : Conn → ServerId) (threads : ServerId → Nat)
    (system : System registry Conn)
    (reached : Relation.ReflTransGen (System.Step serverOf) (System.new registry Conn threads) system)
    (new : ∀ a ∈ system.channel.attempts, a.call ≠ c.call) (loadBalancer : LoadBalancer)
    (s : Running registry Conn Reply)
    (run : Relation.ReflTransGen (c.SystemStep serverOf) (c.enter system loadBalancer) s)
    (few : s.left.channel.attempts.length < 2 ^ 64) (returned : s.right.phase = .returned)
    (succeeded : s.right.controller.failed = false) :
    ∃ i, ∃ posted ∈ (s.left.servers i).dispatched,
      s.left.channel.Asked c.call posted.task.source.frame.reqId ∧ posted.task.request = c.request ∧
        (RpcServer.dispatchRequest (registry i) c.request posted.env).errorCode = ErrorCode.NO_ERROR ∧
        s.right.response =
          c.parseFromString (RpcServer.dispatchRequest (registry i) c.request posted.env).result c.response ∧
        (c.controller.idempotent = false →
          s.left.executions c.call i = 1 ∧ ∀ j, j ≠ i → s.left.executions c.call j = 0) := by
  have inv := System.Delivered.run (reached.trans (Joint.run_left run)) few
  obtain ⟨i, posted, there, asked, same, ok, message⟩ := success_dispatched reached new run few returned succeeded
  refine ⟨i, posted, there, asked, same, ok, message, fun once => ?_⟩
  have frames := frames_le (System.channel_run reached) new (Joint.run_right run)
  rw [limit, once, ← s.agree] at frames
  exact inv.executed_once few frames there asked

end

theorem success_executed_answered :
    ∃ s : Running (fun _ : Unit => RpcChannel.constantRegistry (.returned [1, 2])) Unit Bytes,
      s.right.phase = .returned ∧ s.right.response = [1, 2] ∧ s.left.executions 0 () = 1 := by
  let c : SyncCall Bytes := ⟨0, RpcChannel.echoRequest, { idempotent := false }, [], fun result _ => result⟩
  obtain ⟨s, run, attempts, returned, controller, response⟩ := answered _ c ⟨by decide, .inl rfl⟩
    ⟨by decide, by decide, by decide⟩ (RpcChannel.dispatchRequest_constant (.returned [1, 2]))
    ⟨by decide, by decide, by decide⟩ rfl
  have few : s.left.channel.attempts.length < 2 ^ 64 := by rw [attempts]; decide
  obtain ⟨_, _, _, _, _, _, _, once⟩ := success_executed c (fun _ => ()) (fun _ => 1) _ .refl nofun {} s run few
    returned (by rw [controller])
  exact ⟨s, returned, response, (once rfl).1⟩

end SyncCall

namespace AsyncCall

section
variable [Protobuf] {Reply : Type}

/-- A system in which an asynchronous call is made. -/
abbrev Running (registry : ServerId → RpcServiceRegistry Msg Env) (Conn Reply : Type) :=
  Joint (System.channel : System registry Conn → _) (State.channel : State Conn Reply → _)

def enter (c : AsyncCall Reply) (system : System registry Conn) (loadBalancer : LoadBalancer) :
    Running registry Conn Reply :=
  ⟨system, c.start system.channel loadBalancer, rfl⟩

variable [DecidableEq ServerId] [DecidableEq Conn] {c : AsyncCall Reply}

abbrev SystemStep (c : AsyncCall Reply) (serverOf : Conn → ServerId) :
    Running registry Conn Reply → Running registry Conn Reply → Prop :=
  Joint.Step (System.Step serverOf) (Moves (Step c))

omit [Protobuf] [DecidableEq ServerId] [DecidableEq Conn] in
theorem Step.asks {s t : State Conn Reply} {action : Action Conn} (step : Step c s action t)
    (asks : s.channel.Asks c.call c.request) : t.channel.Asks c.call c.request := by
  cases step with
  | pack connected step =>
    refine asks.step step ?_
    intro kind conn other same
    cases same
    rfl
  | done _ _ step => exact asks.step step nofun
  | channel step other _ => exact asks.step step fun kind conn request same => absurd same (other kind conn request)
  | _ => exact asks

/-- How many attempts the call may have packed where it is. -/
def AsyncPhase.share : AsyncPhase Conn → Nat
  | .addressing => 0
  | .connecting _ => 0
  | .connected _ => 0
  | _ => 1

omit [Protobuf] [DecidableEq ServerId] [DecidableEq Conn] in
/-- An asynchronous call packs one attempt at most. -/
theorem packed_le {s t : State Conn Reply} {action : Action Conn} (step : Step c s action t)
    (within : s.channel.packed c.call ≤ AsyncPhase.share s.phase) :
    t.channel.packed c.call ≤ AsyncPhase.share t.phase := by
  have none : ∀ {action : RpcChannel.Action Conn}, (∀ kind conn request, action ≠ .pack c.call kind conn request) →
      action.packs.count c.call = 0 := by
    intro action other
    refine List.count_eq_zero.mpr fun packs => ?_
    cases action with
    | pack call kind conn request => exact other kind conn request (List.mem_singleton.mp packs ▸ rfl)
    | _ => cases packs
  cases step with
  | noServers _ phase | noConnection phase _ | select phase _ _ | connect _ phase _ | getAddressesThrew phase
  | getConnectionThrew phase _ =>
    rw [phase] at within
    exact within.trans (Nat.zero_le _)
  | pack phase step =>
    rw [phase] at within
    have more := RpcChannel.packed_after step c.call
    have one : [c.call].count c.call = 1 := List.count_singleton_self
    simp only [RpcChannel.Action.packs, AsyncPhase.share] at more within ⊢
    omega
  | done phase _ step =>
    rw [phase] at within
    rw [RpcChannel.packed_after step, @none .done nofun]
    exact within
  | channel step other _ =>
    rw [RpcChannel.packed_after step, none other]
    exact within
  | otherSelect => exact within

omit [Protobuf] [DecidableEq ServerId] [DecidableEq Conn] in
theorem completed_grow {s t : RpcChannel.State Conn} {action : RpcChannel.Action Conn}
    (step : RpcChannel.Step s action t) :
    s.completed.length ≤ t.completed.length ∧ (action = .done → s.completed.length < t.completed.length) := by
  cases step with
  | syncHit => exact ⟨by simp, nofun⟩
  | done => exact ⟨by simp, fun _ => by simp⟩
  | _ => exact ⟨le_rfl, nofun⟩

/-- The system moves on while the call is pending and no callback is run. -/
theorem follow {serverOf : Conn → ServerId} {s : Running registry Conn Reply} {last : System registry Conn}
    (run : Relation.ReflTransGen (System.Step serverOf) s.left last)
    (others : last.channel.packed c.call + last.channel.completed.length =
      s.left.channel.packed c.call + s.left.channel.completed.length) :
    Relation.ReflTransGen (c.SystemStep serverOf) s
      ⟨last, { s.right with channel := last.channel }, rfl⟩ := by
  have grow : ∀ {s t : System registry Conn}, System.Step serverOf s t →
      s.channel.completed.length ≤ t.channel.completed.length := by
    intro s t step
    rcases step.channel with ⟨action, moved⟩ | still
    · exact (completed_grow moved).1
    · rw [still]
  refine Joint.follow (fun caller channel => { caller with channel }) (fun _ _ => rfl) (fun _ => rfl)
    (fun _ _ _ => rfl) (fun _ _ step => Nat.add_le_add (step.packed c.call).1 (grow step)) ?_ run others
  intro before after caller step same agree
  have packed := (step.packed c.call).1
  have completed := grow step
  rcases (step.packed c.call).2 (by omega) with still | ⟨action, moved, other⟩
  · exact .inr still
  · have waits : action ≠ .done := by
      intro done
      have more := (completed_grow moved).2 done
      omega
    rw [agree] at moved
    exact .inl ⟨.channel action, .channel moved other fun done => absurd done waits⟩

/-- An asynchronous call can be answered. -/
theorem answered (registry : RpcServiceRegistry Msg Env) (c : AsyncCall Reply)
    (exchanged : c.request.Exchanged) {env : Env} {rsp : RpcResponse}
    (result : RpcServer.dispatchRequest registry c.request env = rsp) (answerable : rsp.Exchanged) :
    ∃ s : Running (fun _ : Unit => registry) Unit Reply,
      Relation.ReflTransGen (c.SystemStep fun _ => ()) (c.enter (System.new _ Unit fun _ => 1) {}) s ∧
        s.left.channel.attempts.length = 1 ∧ s.right.phase = .done ∧
        s.right.caller = c.caller.answer c.parseFromString rsp := by
  let addr := asciiText "10.0.0.1:80"
  let start : Running (fun _ : Unit => registry) Unit Reply := c.enter (System.new _ Unit fun _ => 1) {}
  have selected : Relation.ReflTransGen (c.SystemStep fun _ => ()) start _ :=
    .single (.alone ⟨_, @Step.select _ _ _ _ [addr] 0 rfl nofun (by decide)⟩ (by rfl))
  have connected := selected.tail (.alone ⟨_, .connect () rfl ⟨_, 80, rfl⟩⟩ (by rfl))
  have pack : RpcChannel.Step ({} : RpcChannel.State Unit) (.pack c.call .async () c.request) _ :=
    .pack c.call .async () c.request
  obtain ⟨system, tables, run, entry, parsed⟩ :=
    System.attempt_answered registry exchanged result answerable c.call .async pack
  have packed := connected.tail (.together (.pack exchanged pack) ⟨_, .pack rfl pack⟩ (by rfl))
  cases entry with
  | registerSync here kind =>
    cases here
    cases kind
  | registerAsync here =>
  cases here
  have ready := packed.trans (follow run (by rw [parsed]; rfl))
  obtain ⟨channel, inputBuffer, servers, toServer, toClient⟩ := system
  cases parsed
  let waiting (loop : ResponsePhase) : RpcChannel.State Unit :=
    { nextId := 1, pendingAsync := PendingTable.insert (fun _ => none) 0 0,
      attempts := [⟨c.call, .async, (), c.request, 0, .sent, none⟩], loop }
  have miss : RpcChannel.Step (waiting (.parsed 0 rsp)) .findSync _ := .syncMiss rfl rfl
  have missed := ready.tail (.together (.call (show RpcChannel.Action.Inside .findSync from trivial) miss)
    ⟨_, .channel miss nofun nofun⟩ (by rfl))
  have hit : RpcChannel.Step (waiting (.syncMissed 0 rsp)) .findAsync _ :=
    @RpcChannel.Step.asyncHit _ _ 0 rsp 0 rfl rfl
  have found := missed.tail (.together (.call (show RpcChannel.Action.Inside .findAsync from trivial) hit)
    ⟨_, .channel hit nofun nofun⟩ (by rfl))
  have finish : RpcChannel.Step
      { waiting (.running 0 0 rsp) with pendingAsync := (waiting .idle).pendingAsync.erase 0 } .done _ :=
    @RpcChannel.Step.done _ _ 0 0 rsp rfl
  have done := found.tail (.together (.call (show RpcChannel.Action.Inside .done from trivial) finish)
    ⟨_, @Step.done _ _ _ _ 0 0 rsp _ rfl rfl finish⟩ (by rfl))
  exact ⟨_, done, rfl, rfl, rfl⟩

/-- With indivisible sends and requests and responses that can be exchanged, an asynchronous call is
dispatched at most once on all servers together. When `done` has been run and the controller has
not failed, it has been dispatched exactly once, under its own id and with its own request, and the
message is what the result of that decodes to. -/
theorem executed_at_most_once (c : AsyncCall Reply) (serverOf : Conn → ServerId) (threads : ServerId → Nat)
    (system : System registry Conn)
    (reached : Relation.ReflTransGen (System.Step serverOf) (System.new registry Conn threads) system)
    (new : ∀ a ∈ system.channel.attempts, a.call ≠ c.call) (loadBalancer : LoadBalancer)
    (s : Running registry Conn Reply)
    (run : Relation.ReflTransGen (c.SystemStep serverOf) (c.enter system loadBalancer) s)
    (few : s.left.channel.attempts.length < 2 ^ 64) :
    (∀ servers : Finset ServerId, ∑ i ∈ servers, s.left.executions c.call i ≤ 1) ∧
      (s.right.phase = .done → s.right.caller.controller.failed = false →
        ∃ i, ∃ posted ∈ (s.left.servers i).dispatched,
          s.left.channel.Asked c.call posted.task.source.frame.reqId ∧ posted.task.request = c.request ∧
            (RpcServer.dispatchRequest (registry i) c.request posted.env).errorCode = ErrorCode.NO_ERROR ∧
            s.right.caller.response =
              c.parseFromString (RpcServer.dispatchRequest (registry i) c.request posted.env).result c.response ∧
            s.left.executions c.call i = 1 ∧ ∀ j, j ≠ i → s.left.executions c.call j = 0) := by
  have inv := System.Delivered.run (reached.trans (Joint.run_left run)) few
  have asks : s.right.channel.Asks c.call c.request :=
    asks_run (fun _ _ _ asks step => step.asks asks) (Joint.run_right run) new
  have steps : Runs (Step c) (c.start system.channel loadBalancer) s.right := Joint.run_right run
  have none : system.channel.packed c.call = 0 := by
    refine List.count_eq_zero.mpr fun there => ?_
    obtain ⟨a, member, same⟩ := List.mem_map.mp there
    exact new a member same
  have share : s.right.channel.packed c.call ≤ AsyncPhase.share s.right.phase :=
    steps.invariant (fun _ _ _ within step => packed_le step within) none.le
  have packed : s.right.channel.packed c.call ≤ 1 := by
    cases phase : s.right.phase <;> rw [phase] at share <;> simp only [AsyncPhase.share] at share <;> omega
  have frames : (s.left.channel.frames c.call).length ≤ 1 := by
    rw [s.agree]
    exact (RpcChannel.frames_le_packed s.right.channel c.call).trans packed
  refine ⟨fun servers => (inv.sum_executions_le few c.call servers).trans frames, fun done succeeded => ?_⟩
  rw [← s.agree] at asks
  obtain ⟨outcome, happened, reports⟩ :=
    callMethod_of_run (System.channel_run reached) loadBalancer (Joint.run_right run) done
  rcases Caller.callMethod_cases reports with ⟨_, failed, _⟩ | ⟨rsp, ⟨_, _, met, ok, _⟩, message, _⟩
  · cases failed.symm.trans succeeded
  cases met
  rw [← s.agree] at happened
  obtain ⟨i, posted, there, asked, same, result⟩ := inv.answer few asks happened
  refine ⟨i, posted, there, asked, same, result ▸ ok, ?_, inv.executed_once few frames there asked⟩
  rw [← result]
  exact message

end

open Protobuf.Sample

theorem executed_at_most_once_answered :
    ∃ s : Running (fun _ : Unit => RpcChannel.constantRegistry (.returned [1, 2])) Unit Bytes,
      s.right.phase = .done ∧ s.right.caller.response = [1, 2] ∧ s.left.executions 0 () = 1 := by
  let c : AsyncCall Bytes := ⟨0, RpcChannel.echoRequest, {}, [], fun result _ => result⟩
  obtain ⟨s, run, attempts, done, caller⟩ := answered _ c ⟨by decide, by decide, by decide⟩
    (RpcChannel.dispatchRequest_constant (.returned [1, 2])) ⟨by decide, by decide, by decide⟩
  have few : s.left.channel.attempts.length < 2 ^ 64 := by rw [attempts]; decide
  obtain ⟨_, _, _, _, _, _, _, once, _⟩ := (executed_at_most_once c (fun _ => ()) (fun _ => 1) _ .refl nofun {} s
    run few).2 done (by rw [caller]; rfl)
  exact ⟨s, done, by rw [caller]; rfl, once⟩

end AsyncCall
end ReactorRpc
