import ReactorRpc.BenchmarkRounds
import ReactorRpc.MathCalls

namespace ReactorRpc.Benchmark
open Streams Math

section
variable [Protobuf] {Conn Msg Env : Type} [DecidableEq Conn] {registry : RpcServiceRegistry Msg Env}

/-- The benchmark: its workers, the server they measure, and what is under way between them on each
connection. -/
structure State (registry : RpcServiceRegistry Msg Env) (Conn : Type) where
  workers : List (Worker Conn)
  server : RpcServer.State registry Conn
  toServer : Conn → Bytes
  toClient : Conn → Bytes

/-- The workers with the connections that each of them has created. -/
def State.start (registry : RpcServiceRegistry Msg Env) (threads : Nat) (method : Bytes)
    (fds : List (List Conn)) : State registry Conn where
  workers := fds.mapIdx fun threadId fds => Worker.new threadId method fds
  server := RpcServer.State.new registry Conn threads
  toServer _ := []
  toClient _ := []

/-- The steps of the workers and of the server. A read takes any part of what is under way on its
connection, which need not ever arrive. -/
inductive Step : State registry Conn → State registry Conn → Prop
  | work {s : State registry Conn} {i : Nat} {w next : Worker Conn} (here : s.workers[i]? = some w)
      (step : w.Step .inside next) : Step s { s with workers := s.workers.set i next }
  | send {s : State registry Conn} {i : Nat} {w next : Worker Conn} {fd : Conn} {data : Bytes}
      (here : s.workers[i]? = some w) (step : w.Step (.send fd data) next) :
      Step s
        { s with
          workers := s.workers.set i next
          toServer := Function.update s.toServer fd (s.toServer fd ++ data) }
  | recv {s : State registry Conn} {i : Nat} {w next : Worker Conn} {fd : Conn} {data rest : Bytes}
      (here : s.workers[i]? = some w) (arrived : s.toClient fd = data ++ rest)
      (step : w.Step (.recv fd data) next) :
      Step s
        { s with workers := s.workers.set i next, toClient := Function.update s.toClient fd rest }
  | serverRead {s : State registry Conn} {conn : Conn} {data rest : Bytes} {next : RpcServer.State registry Conn}
      (arrived : s.toServer conn = data ++ rest) (step : RpcServer.Step s.server (.read conn data) next) :
      Step s { s with server := next, toServer := Function.update s.toServer conn rest }
  | serverSend {s : State registry Conn} {reply : Reply registry Conn} {next : RpcServer.State registry Conn}
      (fits : 8 + reply.payload.length < 2 ^ 32) (step : RpcServer.Step s.server (.send reply) next) :
      Step s
        { s with
          server := next
          toClient := Function.update s.toClient reply.source.conn (s.toClient reply.source.conn ++ reply.bytes) }
  | serve {s : State registry Conn} {next : RpcServer.State registry Conn}
      (step : RpcServer.Step s.server .internal next) : Step s { s with server := next }

/-- A worker is on its own connections. -/
structure Worker.Within (w : Worker Conn) : Prop where
  under : ∀ round left got, w.phase.under = some (round, left, got) → round.fd ∈ w.fds
  counted : ∀ c ∈ w.counted, c.round.fd ∈ w.fds

omit [DecidableEq Conn] in
theorem Worker.Step.fds {w next : Worker Conn} {action : Action Conn} (step : w.Step action next) :
    next.fds = w.fds := by
  cases step with
  | length => unfold Worker.takeLength; dsimp only; split <;> rfl
  | body => unfold Worker.takeBody; dsimp only; split <;> rfl
  | _ => rfl

omit [DecidableEq Conn] in
theorem Worker.Step.failed {w next : Worker Conn} {action : Action Conn} (step : w.Step action next) :
    ∀ fd ∈ w.failed, fd ∈ next.failed := by
  intro fd there
  cases step with
  | sendFails => exact List.mem_cons_of_mem _ there
  | lengthFails => exact List.mem_cons_of_mem _ there
  | bodyFails => exact List.mem_cons_of_mem _ there
  | length =>
    unfold Worker.takeLength
    dsimp only
    split
    · exact List.mem_cons_of_mem _ there
    · exact there
  | body => unfold Worker.takeBody; dsimp only; split <;> exact there
  | _ => exact there

omit [DecidableEq Conn] in
theorem Worker.Within.step {w next : Worker Conn} {action : Action Conn} (within : w.Within)
    (step : w.Step action next) : next.Within := by
  have on : ∀ {round : Round Conn} {left got : Bytes}, w.phase.under = some (round, left, got) → round.fd ∈ w.fds :=
    fun under => within.under _ _ _ under
  cases step with
  | start first second idle chosen =>
    refine ⟨?_, within.counted⟩
    intro round left got same
    cases same
    exact List.mem_of_getElem? chosen
  | send some sending => exact ⟨fun _ _ _ same => by cases same; exact on (by rw [sending]; rfl), within.counted⟩
  | sent sending => exact ⟨fun _ _ _ same => by cases same; exact on (by rw [sending]; rfl), within.counted⟩
  | recvLength some fits reading =>
    exact ⟨fun _ _ _ same => by cases same; exact on (by rw [reading]; rfl), within.counted⟩
  | recvBody some fits reading =>
    exact ⟨fun _ _ _ same => by cases same; exact on (by rw [reading]; rfl), within.counted⟩
  | sendFails => exact ⟨nofun, within.counted⟩
  | lengthFails => exact ⟨nofun, within.counted⟩
  | bodyFails => exact ⟨nofun, within.counted⟩
  | stop => exact ⟨nofun, within.counted⟩
  | length whole reading =>
    unfold Worker.takeLength
    dsimp only
    split
    · exact ⟨nofun, within.counted⟩
    · exact ⟨fun _ _ _ same => by cases same; exact on (by rw [reading]; rfl), within.counted⟩
  | body whole reading =>
    unfold Worker.takeBody
    dsimp only
    split
    · exact ⟨nofun, within.counted⟩
    · refine ⟨nofun, fun c there => ?_⟩
      rcases List.mem_append.mp there with old | new
      · exact within.counted c old
      · rw [List.mem_singleton.mp new]
        exact on (by rw [reading]; rfl)

/-- A worker moves nothing on the connections of others. -/
theorem Worker.Within.only {w next : Worker Conn} {action : Action Conn} (within : w.Within)
    (step : w.Step action next) {conn : Conn} (other : conn ∉ w.fds) :
    action.sentOn conn = [] ∧ action.readFrom conn = [] := by
  have off : ∀ {round : Round Conn} {left got : Bytes}, w.phase.under = some (round, left, got) → round.fd ≠ conn := by
    rintro round left got under rfl
    exact other (within.under _ _ _ under)
  cases step with
  | send some sending => exact ⟨if_neg (off (by rw [sending]; rfl)), rfl⟩
  | recvLength some fits reading => exact ⟨rfl, if_neg (off (by rw [reading]; rfl))⟩
  | recvBody some fits reading => exact ⟨rfl, if_neg (off (by rw [reading]; rfl))⟩
  | _ => exact ⟨rfl, rfl⟩

variable [LawfulProtobuf]

/-- What holds in every state of the benchmark. -/
structure Kept (s : State registry Conn) : Prop where
  conserved : RpcServer.Conserved s.server
  within : ∀ (i : Nat) (w : Worker Conn), s.workers[i]? = some w → w.Within
  apart : ∀ (i j : Nat) (w v : Worker Conn) (fd : Conn), s.workers[i]? = some w → s.workers[j]? = some v →
    fd ∈ w.fds → fd ∈ v.fds → i = j
  sound : ∀ (i : Nat) (w : Worker Conn) (conn : Conn), s.workers[i]? = some w → conn ∈ w.fds → conn ∉ w.failed →
    Sound conn s.server (s.toServer conn) (s.toClient conn) w

theorem kept_start (registry : RpcServiceRegistry Msg Env) (threads : Nat) (method : Bytes)
    {fds : List (List Conn)} (distinct : fds.Pairwise List.Disjoint) :
    Kept (State.start registry threads method fds) := by
  have created : ∀ {i : Nat} {w : Worker Conn}, (State.start registry threads method fds).workers[i]? = some w →
      ∃ own, fds[i]? = some own ∧ Worker.new i method own = w := by
    intro i w here
    rw [State.start, List.getElem?_mapIdx] at here
    exact Option.map_eq_some_iff.mp here
  refine ⟨RpcServer.conserved_new registry Conn threads, ?_, ?_, ?_⟩
  · intro i w here
    obtain ⟨own, _, rfl⟩ := created here
    exact ⟨nofun, nofun⟩
  · intro i j w v fd first second left right
    obtain ⟨own, at_i, rfl⟩ := created first
    obtain ⟨own', at_j, rfl⟩ := created second
    obtain ⟨inside, rfl⟩ := List.getElem?_eq_some_iff.mp at_i
    obtain ⟨inside', rfl⟩ := List.getElem?_eq_some_iff.mp at_j
    have disjoint := List.pairwise_iff_getElem.mp distinct
    rcases Nat.lt_trichotomy i j with before | same | behind
    · exact (disjoint i j inside inside' before left right).elim
    · exact same
    · exact (disjoint j i inside' inside behind right left).elim
  · intro i w conn here _ _
    obtain ⟨own, _, rfl⟩ := created here
    refine ⟨⟨[], .settled nofun ⟨⟨[], rfl, ?_⟩, rfl, rfl⟩, le_rfl⟩, nofun⟩
    simp only [State.start, RpcServer.State.new, ConnBuffer.contents_new]
    exact Receiving.start []

variable {s : State registry Conn}

theorem Kept.work (kept : Kept s) {i : Nat} {w next : Worker Conn} {action : Action Conn} {up down : Conn → Bytes}
    (here : s.workers[i]? = some w) (step : w.Step action next)
    (sends : ∀ conn, up conn = s.toServer conn ++ action.sentOn conn)
    (reads : ∀ conn, s.toClient conn = action.readFrom conn ++ down conn) :
    Kept { s with workers := s.workers.set i next, toServer := up, toClient := down } := by
  have same : ∀ {j : Nat} {v : Worker Conn}, (s.workers.set i next)[j]? = some v →
      ∃ v', s.workers[j]? = some v' ∧ v.fds = v'.fds := by
    intro j v there
    rcases (threads_set_iff here).mp there with ⟨rfl, rfl⟩ | ⟨_, there⟩
    · exact ⟨w, here, step.fds⟩
    · exact ⟨v, there, rfl⟩
  refine { kept with within := ?_, apart := ?_, sound := ?_ }
  · intro j v there
    rcases (threads_set_iff here).mp there with ⟨_, rfl⟩ | ⟨_, there⟩
    · exact (kept.within i w here).step step
    · exact kept.within j v there
  · intro j k v u fd first second left right
    obtain ⟨v', at_j, fds⟩ := same first
    obtain ⟨u', at_k, fds'⟩ := same second
    exact kept.apart j k v' u' fd at_j at_k (fds ▸ left) (fds' ▸ right)
  · intro j v conn there own sound
    rcases (threads_set_iff here).mp there with ⟨_, rfl⟩ | ⟨other, there⟩
    · have before := kept.sound i w conn here (step.fds ▸ own) fun failed => sound (step.failed conn failed)
      rw [reads conn] at before
      simp only [sends conn]
      exact before.workerStep step sound
    · have elsewhere : conn ∉ w.fds := fun there' => other (kept.apart j i v w conn there here own there')
      obtain ⟨nothing, unread⟩ := (kept.within i w here).only step elsewhere
      have before := kept.sound j v conn there own sound
      rw [reads conn, unread] at before
      simp only [sends conn, nothing, List.append_nil]
      exact before

theorem Kept.serve (kept : Kept s) {next : RpcServer.State registry Conn} {label : RpcServer.Label registry Conn}
    {up down : Conn → Bytes} (step : RpcServer.Step s.server label next)
    (fits : ∀ conn, ∀ reply ∈ label.leaving conn, 8 + reply.payload.length < 2 ^ 32)
    (reads : ∀ conn, s.toServer conn = label.arriving conn ++ up conn)
    (sends : ∀ conn, down conn = s.toClient conn ++ (label.leaving conn).flatMap Reply.bytes) :
    Kept { s with server := next, toServer := up, toClient := down } := by
  have conserved := kept.conserved.step step
  refine { kept with conserved := conserved, sound := ?_ }
  intro i w conn here own sound
  have before := kept.sound i w conn here own sound
  rw [reads conn] at before
  simp only [sends conn]
  exact before.serverStep conserved step (fits conn)

theorem Kept.step (kept : Kept s) {next : State registry Conn} (step : Step s next) : Kept next := by
  have updated : ∀ (f : Conn → Bytes) (fd conn : Conn) (data : Bytes),
      Function.update f fd (f fd ++ data) conn = f conn ++ if fd = conn then data else [] := by
    intro f fd conn data
    by_cases same : fd = conn
    · subst conn
      rw [Function.update_self, if_pos rfl]
    · rw [Function.update_of_ne (Ne.symm same), if_neg same, List.append_nil]
  have taken : ∀ {f : Conn → Bytes} {fd : Conn} {data rest : Bytes}, f fd = data ++ rest →
      ∀ conn, f conn = (if fd = conn then data else []) ++ Function.update f fd rest conn := by
    intro f fd data rest arrived conn
    by_cases same : fd = conn
    · subst conn
      rw [Function.update_self, if_pos rfl, arrived]
    · rw [Function.update_of_ne (Ne.symm same), if_neg same, List.nil_append]
  have same : ∀ (f : Conn → Bytes) (conn : Conn), f conn = f conn ++ [] := fun f conn => (List.append_nil _).symm
  cases step with
  | work here step => exact kept.work here step (same s.toServer) fun _ => rfl
  | send here step => exact kept.work here step (fun conn => updated s.toServer _ conn _) fun _ => rfl
  | recv here arrived step => exact kept.work here step (same s.toServer) (taken arrived)
  | serverRead arrived step => exact kept.serve step nofun (taken arrived) (same s.toClient)
  | @serverSend reply next fits step =>
    refine kept.serve step (fun conn reply' there => ?_) (fun _ => rfl) fun conn => ?_
    · rcases (RpcServer.Label.send reply).leaving_cases conn with quiet | ⟨sent, label, _, leaving⟩
      · rw [quiet] at there
        cases there
      · cases label
        rw [leaving] at there
        rw [List.mem_singleton.mp there]
        exact fits
    · rw [updated, RpcServer.Label.leaving]
      split
      · rw [List.flatMap_singleton]
      · rfl
  | serve step => exact kept.serve step nofun (fun _ => rfl) (same s.toClient)

theorem Kept.run {threads : Nat} {method : Bytes} {fds : List (List Conn)} (distinct : fds.Pairwise List.Disjoint)
    (run : Relation.ReflTransGen Step (State.start registry threads method fds) s) : Kept s := by
  induction run with
  | refl => exact kept_start registry threads method distinct
  | tail _ step ih => exact ih.step step

omit [DecidableEq Conn] in
/-- The reply to a round is the result of its request. -/
theorem Own.dispatched {c : Counted Conn} {server : RpcServer.State registry Conn} (own : Own server c)
    (conserved : RpcServer.Conserved server) :
    c.respId = c.round.id ∧ ∃ posted ∈ server.dispatched,
      posted.task.source = ⟨c.round.fd, c.round.extracted⟩ ∧ posted.task.request = c.round.request ∧
        RpcResponse.parse posted.serializedResp = some c.resp := by
  obtain ⟨id, reply, there, source, parsed⟩ := own
  have request := c.round.exchanged.parses
  cases reply with
  | wrongProto received unparsable =>
    simp only [Reply.source] at source
    rw [source] at unparsable
    cases request.symm.trans unparsable
  | result posted =>
    simp only [Reply.source] at source
    have parses := posted.task.parses
    rw [source] at parses
    exact ⟨id, posted, conserved.posted_mem there, source, Option.some_inj.mp (parses.symm.trans request), parsed⟩

/-- The rounds of a connection that are over have been dispatched. -/
theorem Position.dispatched {done : List (Round Conn)} {conn : Conn} {server : RpcServer.State registry Conn}
    {up down : Bytes} {phase : Phase Conn} (position : Position done conn server up down phase)
    (conserved : RpcServer.Conserved server) :
    done.length ≤ server.dispatched.countP fun posted => posted.task.source.conn = conn := by
  obtain ⟨rounds, replied, more⟩ : ∃ rounds : List (Round Conn),
      (server.repliesOn conn).map (fun reply => reply.source.frame) = rounds.map Round.extracted ∧
        done.length ≤ rounds.length := by
    cases position with
    | settled _ settled => exact ⟨done, settled.replied, le_rfl⟩
    | @awaiting round _ _ _ _ awaiting =>
      rcases awaiting.replied with ⟨replied, _⟩ | ⟨_, replied⟩
      · exact ⟨done, replied, le_rfl⟩
      · exact ⟨done ++ [round], replied, by rw [List.length_append]; exact Nat.le_add_right _ _⟩
  have results : (server.replies.filterMap Reply.posted?).Subperm server.dispatched := by
    refine Multiset.coe_le.mp ?_
    rw [conserved.results]
    exact Multiset.le_add_right _ _
  have size := congrArg List.length replied
  rw [List.length_map, List.length_map] at size
  have same : (server.repliesOn conn).length =
      (server.replies.filterMap Reply.posted?).countP fun posted => posted.task.source.conn = conn := by
    rw [RpcServer.State.repliesOn, ← List.countP_eq_length_filter, List.countP_filterMap]
    refine List.countP_congr fun reply there => ?_
    cases reply with
    | wrongProto received unparsable =>
      refine iff_of_false (fun on => ?_) (by simp [Reply.posted?])
      have listed : received.frame ∈ rounds.map Round.extracted := by
        rw [← replied]
        exact List.mem_map.mpr ⟨_, List.mem_filter.mpr ⟨there, on⟩, rfl⟩
      obtain ⟨round, _, own⟩ := List.mem_map.mp listed
      rw [← own] at unparsable
      cases round.exchanged.parses.symm.trans unparsable
    | result posted => rfl
  calc done.length ≤ rounds.length := more
    _ = (server.repliesOn conn).length := size.symm
    _ = _ := same
    _ ≤ _ := results.countP_le _

omit [LawfulProtobuf] in
/-- A server does the rest of its steps. -/
theorem serve_runs {later : RpcServer.State registry Conn}
    (run : Relation.ReflTransGen (fun before after => RpcServer.Step before .internal after) s.server later) :
    Relation.ReflTransGen Step s { s with server := later } := by
  induction run with
  | refl => exact .refl
  | tail _ step ih => exact ih.tail (.serve step)

omit [Protobuf] [LawfulProtobuf] [DecidableEq Conn] in
theorem takeLength_eq (w : Worker Conn) (round : Round Conn) {respLen : Nat} (large : 8 ≤ respLen)
    (small : respLen ≤ 64 * 1024 * 1024) :
    w.takeLength round (beBytes 4 respLen) = { w with phase := .readingBody round respLen [] } := by
  have length : (ntohl (loadWord (beBytes 4 respLen))).toNat = respLen := by
    rw [ntohl_loadWord (beBytes_length 4 _).ge, List.take_of_length_le (beBytes_length 4 _).le, beNat_beBytes]
    omega
  rw [Worker.takeLength, length]
  exact if_neg (by omega)

omit [LawfulProtobuf] [DecidableEq Conn] in
theorem takeBody_eq (w : Worker Conn) (round : Round Conn) (id : UInt64) {payload : Bytes} {resp : RpcResponse}
    (parsed : RpcResponse.parse payload = some resp) :
    w.takeBody round (beBytes 8 id.toNat ++ payload) =
      { w with
        phase := .idle
        totalRequests := w.totalRequests + 1
        counted := w.counted ++ [⟨round, id, resp⟩] } := by
  simp only [Worker.takeBody, respId_eq, List.drop_left' (beBytes_length 8 _), parsed]

omit [LawfulProtobuf] in
/-- A worker that waits for a response can read it and count it. -/
theorem response_counted {i : Nat} {w : Worker Conn} {round : Round Conn} {id : UInt64} {payload : Bytes}
    {resp : RpcResponse} {start : State registry Conn} (reached : Relation.ReflTransGen Step start s)
    (here : s.workers[i]? = some w) (reading : w.phase = .readingLength round [])
    (small : 8 + payload.length ≤ 64 * 1024 * 1024) (parsed : RpcResponse.parse payload = some resp)
    (arrived : s.toClient round.fd = beBytes 4 (8 + payload.length) ++ (beBytes 8 id.toNat ++ payload)) :
    ∃ t next, Relation.ReflTransGen Step start t ∧ t.workers[i]? = some next ∧ next.fds = w.fds ∧
      next.failed = w.failed ∧ next.counted = w.counted ++ [⟨round, id, resp⟩] := by
  have filled : ∀ {k n : Nat}, 0 < k → beBytes k n ≠ [] := fun positive =>
    List.length_pos_iff.mp (by rwa [beBytes_length])
  have size : (beBytes 8 id.toNat ++ payload).length = 8 + payload.length := by
    rw [List.length_append, beBytes_length]
  let waiting : Worker Conn := { w with phase := .readingLength round (beBytes 4 (8 + payload.length)) }
  let reading_ (got : Bytes) : Worker Conn := { w with phase := .readingBody round (8 + payload.length) got }
  let last : Worker Conn :=
    { w with
      phase := .idle
      totalRequests := w.totalRequests + 1
      counted := w.counted ++ [⟨round, id, resp⟩] }
  let at_ (worker : Worker Conn) (rest : Bytes) : State registry Conn :=
    { s with workers := s.workers.set i worker, toClient := Function.update s.toClient round.fd rest }
  have there : ∀ worker rest, (at_ worker rest).workers[i]? = some worker := fun worker _ =>
    threads_set_self here worker
  have prefixed : Step s (at_ waiting (beBytes 8 id.toNat ++ payload)) :=
    .recv here arrived (@Worker.Step.recvLength _ _ _ round [] _ (filled (by decide))
      (by rw [beBytes_length]; rfl) reading)
  have sized : Step (at_ waiting (beBytes 8 id.toNat ++ payload)) (at_ (reading_ []) (beBytes 8 id.toNat ++ payload)) := by
    have step := Step.work (there waiting (beBytes 8 id.toNat ++ payload)) (.length (beBytes_length 4 _) rfl)
    rwa [takeLength_eq _ _ (Nat.le_add_right _ _) small, List.set_set] at step
  have whole : Step (at_ (reading_ []) (beBytes 8 id.toNat ++ payload))
      (at_ (reading_ (beBytes 8 id.toNat ++ payload)) []) := by
    have step := @Step.recv _ _ _ _ _ _ _ i _ _ round.fd _ [] (there (reading_ []) (beBytes 8 id.toNat ++ payload))
      (by simp only [at_, Function.update_self]; exact (List.append_nil _).symm)
      (.recvBody (List.append_ne_nil_of_left_ne_nil (filled (by decide)) _) (by rw [size]; exact (Nat.zero_add _).le) rfl)
    rwa [List.set_set, Function.update_idem] at step
  have counted : Step (at_ (reading_ (beBytes 8 id.toNat ++ payload)) []) (at_ last []) := by
    have step := Step.work (there (reading_ (beBytes 8 id.toNat ++ payload)) []) (.body size rfl)
    rwa [takeBody_eq _ _ _ parsed, List.set_set] at step
  exact ⟨_, last, (((reached.tail prefixed).tail sized).tail whole).tail counted, there last [], rfl, rfl, rfl⟩

/-- A round can be answered and counted. -/
theorem round_counted (registry : RpcServiceRegistry Msg Env) (method : Bytes) (first second : Nat) {env : Env}
    {rsp : RpcResponse} (exchanged : rsp.Exchanged)
    (result : RpcServer.dispatchRequest registry (Round.request ⟨(), 0, method, first, second⟩) env = rsp) :
    ∃ (s : State registry Unit) (w : Worker Unit),
      Relation.ReflTransGen Step (State.start registry 1 method [[()]]) s ∧ s.workers[0]? = some w ∧
        w.fds = [()] ∧ w.failed = [] ∧ w.counted = [⟨⟨(), 0, method, first, second⟩, 0, rsp⟩] := by
  let round : Round Unit := ⟨(), 0, method, first, second⟩
  let s₀ : State registry Unit := State.start registry 1 method [[()]]
  have begun : Relation.ReflTransGen Step s₀ _ := .single (@Step.work _ _ _ _ _ _ s₀ 0 _ _ rfl
    (@Worker.Step.start _ _ _ () first second rfl rfl))
  have nonempty : round.frame.encode ≠ [] := List.length_pos_iff.mp (frame_prefixCode.pos round.frame)
  have written := begun.tail (@Step.send _ _ _ _ _ _ _ 0 _ _ () round.frame.encode rfl
    (@Worker.Step.send _ _ _ round round.frame.encode [] nonempty (congrArg _ (List.append_nil _).symm)))
  have sent := written.tail (@Step.work _ _ _ _ _ _ _ 0 _ _ rfl (@Worker.Step.sent _ _ _ round rfl))
  have read : RpcServer.Step (RpcServer.State.new registry Unit 1) (.read () round.frame.encode) _ :=
    .read () round.frame.encode nonempty rfl
  have arrived := sent.tail (@Step.serverRead _ _ _ _ _ _ _ () round.frame.encode [] _
    (List.append_nil _).symm read)
  obtain ⟨later, next, run, reply⟩ := RpcServer.answered_alone registry round.exchanged.parses env read
  let answer : Reply registry Unit := .result ⟨⟨⟨(), round.extracted⟩, round.request, round.exchanged.parses⟩, env, _, rfl⟩
  have payload : answer.payload = rsp.serialize := by rw [← result]; rfl
  have size : 8 + answer.payload.length ≤ 64 * 1024 * 1024 := by
    have fits := exchanged.fits
    rw [← payload] at fits
    simp only [maxPayload, maxFrame] at fits
    omega
  have served := arrived.trans (serve_runs run)
  have replied := served.tail (@Step.serverSend _ _ _ _ _ _ _ answer next (by omega) reply)
  have bytes : answer.bytes = beBytes 4 (8 + answer.payload.length) ++ (beBytes 8 (0 : UInt64).toNat ++ answer.payload) := by
    rw [Reply.bytes, packWithId_eq, List.append_assoc]
    rfl
  let first_ : Worker Unit := Worker.new 0 method [()]
  let asked : Worker Unit :=
    { first_ with connIdx := 1, requestId := first_.requestId + 1, phase := .readingLength round [] }
  have known : RpcResponse.parse answer.payload = some rsp := payload ▸ exchanged.parses
  obtain ⟨t, w, last, here, own, sound, counted⟩ :=
    @response_counted _ Unit Msg Env _ registry _ 0 asked round 0 _ rsp s₀ replied rfl rfl size known bytes
  exact ⟨t, w, last, here, own, sound, counted⟩

omit [LawfulProtobuf] [DecidableEq Conn] in
/-- A round for `Add` asks for the sum of its numbers. -/
theorem Round.request_add {round : Round Conn} (add : round.method ≠ asciiText "sub") :
    round.request = addition round.a round.b := by
  rw [Round.request, Round.args, if_neg add, if_neg add]
  rfl

/-- A response with a sum can be exchanged. -/
theorem sum_exchanged (sum : Int32) :
    RpcResponse.Exchanged { errorCode := ErrorCode.NO_ERROR, result := AddResponse.serialize ⟨some sum⟩ } := by
  have number := @int32Field_length_le _ _ 1 (by decide) (by decide) (some sum)
  have field : AddResponse.serialize ⟨some sum⟩ = int32Field 1 (some sum) :=
    serializeAsString_short (number.trans (by decide))
  have some_ : 0 < (int32Field 1 (some sum)).length := by
    rw [int32Field, LawfulProtobuf.writeInt32_eq 1 _ (by decide) (by decide)]
    exact Nat.succ_pos _
  have short := @optionalField_length_short _ _ 3 (by decide) (by decide) _ (Nat.lt_of_le_of_lt number (by decide))
  have long := optionalField_length_le 3 (int32Field 1 (some sum))
  have small : (optionalField 3 (int32Field 1 (some sum))).length ≤ 13 := by omega
  have text : validUtf8 [] := by decide
  rw [field]
  have internal : RpcResponse.internalSerialize { errorCode := ErrorCode.NO_ERROR, result := int32Field 1 (some sum) } =
      optionalField 3 (int32Field 1 (some sum)) := rfl
  have written : RpcResponse.serialize { errorCode := ErrorCode.NO_ERROR, result := int32Field 1 (some sum) } =
      optionalField 3 (int32Field 1 (some sum)) :=
    LawfulProtobuf.serializeAsString_within _ (internal ▸ small.trans (by decide))
  refine ⟨?_, ?_, ?_⟩
  · rw [written]
    exact List.length_pos_iff.mp (by omega)
  · rw [written]
    exact small.trans (by decide)
  · rw [written, ← internal]
    exact RpcResponse.parse_internalSerialize text (internal ▸ small.trans (by decide))

/-- The benchmark does not look at the id of a response. Still, whatever the interleaving of its workers and
the server's threads, on a connection where no round has been given up every response that is counted is the
result of the request of its own round, under its id, and no more of them are counted than the server has
dispatched. -/
theorem counted_own (registry : RpcServiceRegistry Msg Env) (threads : Nat) (method : Bytes)
    (fds : List (List Conn)) (distinct : fds.Pairwise List.Disjoint) {s : State registry Conn}
    (run : Relation.ReflTransGen Step (State.start registry threads method fds) s) {i : Nat} {w : Worker Conn}
    (here : s.workers[i]? = some w) :
    (∀ c ∈ w.counted, c.round.fd ∉ w.failed → c.respId = c.round.id ∧ ∃ posted ∈ s.server.dispatched,
        posted.task.source = ⟨c.round.fd, c.round.extracted⟩ ∧ posted.task.request = c.round.request ∧
          RpcResponse.parse posted.serializedResp = some c.resp) ∧
      ∀ fd ∈ w.fds, fd ∉ w.failed →
        w.counted.countP (fun c => c.round.fd = fd) ≤
          s.server.dispatched.countP fun posted => posted.task.source.conn = fd := by
  have kept := Kept.run distinct run
  refine ⟨fun c counted sound => ?_, fun fd own sound => ?_⟩
  · have own := (kept.within i w here).counted c counted
    exact ((kept.sound i w _ here own sound).own c counted rfl).dispatched kept.conserved
  · obtain ⟨done, position, few⟩ := (kept.sound i w fd here own sound).position
    exact few.trans (position.dispatched kept.conserved)

end

open Protobuf.Sample

/-- A round that adds 3 and 4, on a server with `MathService`. -/
theorem counted_own_seven :
    let services : Reflection.ServiceRegistry Message Unit :=
      Reflection.ServiceRegistry.empty.registerService (MathServiceImpl {})
    ∃ (s : State services.plain Unit) (w : Worker Unit) (c : Counted Unit),
      s.workers[0]? = some w ∧ w.counted = [c] ∧ c.respId = c.round.id ∧
        1 ≤ s.server.dispatched.countP fun posted => posted.task.source.conn = () := by
  intro services
  have registered : services.findService (asciiText "math.MathService") = some (MathServiceImpl {}) :=
    Reflection.ServiceRegistry.findService_registerService .empty (@MathServiceImpl _ Unit {})
  obtain ⟨s, w, run, here, fds, sound, counted⟩ := round_counted services.plain [] 3 4 (sum_exchanged 7)
    (dispatch_addition registered 3 4 ())
  obtain ⟨own, fewer⟩ := counted_own services.plain 1 [] [[()]] (List.pairwise_singleton _ _) run here
  have one : w.counted.countP (fun c => c.round.fd = ()) = 1 := by rw [counted]; rfl
  refine ⟨s, w, _, here, counted, (own _ (by rw [counted]; exact List.mem_cons_self) (by rw [sound]; exact nofun)).1, ?_⟩
  exact one.ge.trans (fewer () (by rw [fds]; exact List.mem_cons_self) (by rw [sound]; exact nofun))

section
variable [Protobuf] [LawfulProtobuf] {Conn Env : Type} [DecidableEq Conn]

/-- What the benchmark counts with a server that has `MathService` are sums of the numbers it has drawn, as
long as no round has been given up on their connections. -/
theorem additions_measured {left : Leftovers} {services : Reflection.ServiceRegistry Message Env}
    (registered : services.findService (asciiText "math.MathService") = some (MathServiceImpl left)) (threads : Nat)
    (method : Bytes) (fds : List (List Conn)) (distinct : fds.Pairwise List.Disjoint)
    {s : State services.plain Conn}
    (run : Relation.ReflTransGen Step (State.start services.plain threads method fds) s) {i : Nat} {w : Worker Conn}
    (here : s.workers[i]? = some w) {c : Counted Conn} (counted : c ∈ w.counted)
    (add : c.round.method ≠ asciiText "sub") (sound : c.round.fd ∉ w.failed) :
    c.resp.errorCode = ErrorCode.NO_ERROR ∧ ∃ sum : Int32, AddResponse.parse c.resp.result = some ⟨some sum⟩ ∧
      sum.toInt = c.round.first % 1000 + c.round.second % 1000 := by
  have kept := Kept.run distinct run
  have own := (kept.within i w here).counted c counted
  obtain ⟨_, posted, _, _, request, parsed⟩ :=
    ((kept.sound i w _ here own sound).own c counted rfl).dispatched kept.conserved
  rw [posted.serialized, request, Round.request_add add, dispatch_addition registered,
    (sum_exchanged (c.round.a + c.round.b)).parses] at parsed
  have number : ∀ n : Nat, (Int32.ofNat (n % 1000)).toInt = (n % 1000 : Nat) := by
    intro n
    exact Int32.toInt_ofNat_of_lt (by omega)
  have a : c.round.a.toInt = (c.round.first % 1000 : Nat) := number _
  have b : c.round.b.toInt = (c.round.second % 1000 : Nat) := number _
  rw [← Option.some_inj.mp parsed]
  refine ⟨rfl, _, AddResponse.parse_serialize _, ?_⟩
  rw [toInt_add_exact (by omega) (by omega), a, b]
  norm_cast

end

/-- 3 and 4 are measured as 7. -/
theorem additions_measured_seven :
    let services : Reflection.ServiceRegistry Message Unit :=
      Reflection.ServiceRegistry.empty.registerService (MathServiceImpl {})
    ∃ (s : State services.plain Unit) (w : Worker Unit) (c : Counted Unit) (sum : Int32),
      s.workers[0]? = some w ∧ w.counted = [c] ∧ AddResponse.parse c.resp.result = some ⟨some sum⟩ ∧ sum.toInt = 7 := by
  intro services
  have registered : services.findService (asciiText "math.MathService") = some (MathServiceImpl {}) :=
    Reflection.ServiceRegistry.findService_registerService .empty (@MathServiceImpl _ Unit {})
  obtain ⟨s, w, run, here, _, sound, counted⟩ := round_counted services.plain [] 3 4 (sum_exchanged 7)
    (dispatch_addition registered 3 4 ())
  obtain ⟨_, sum, decoded, value⟩ := additions_measured registered 1 [] [[()]] (List.pairwise_singleton _ _) run here
    (by rw [counted]; exact List.mem_cons_self) (by decide) (by rw [sound]; exact nofun)
  exact ⟨s, w, _, sum, here, counted, decoded, value⟩

end ReactorRpc.Benchmark
