import ReactorRpc.BenchmarkWorker
import ReactorRpc.ServerIntake

namespace ReactorRpc
open Streams

variable [Protobuf] {Conn Msg Env : Type} {registry : RpcServiceRegistry Msg Env}

namespace RpcServer

/-- What a step puts on a connection. -/
def Label.leaving [DecidableEq Conn] : Label registry Conn → Conn → List (Reply registry Conn)
  | .send reply, conn => if reply.source.conn = conn then [reply] else []
  | _, _ => []

/-- The replies of a server on one of its connections. -/
def State.repliesOn [DecidableEq Conn] (s : State registry Conn) (conn : Conn) : List (Reply registry Conn) :=
  s.replies.filter fun reply => reply.source.conn = conn

variable [DecidableEq Conn]

theorem Label.leaving_cases (label : Label registry Conn) (conn : Conn) :
    label.leaving conn = [] ∨
      ∃ reply, label = .send reply ∧ reply.source.conn = conn ∧ label.leaving conn = [reply] := by
  cases label with
  | send reply =>
    by_cases same : reply.source.conn = conn
    · exact .inr ⟨reply, rfl, same, if_pos same⟩
    · exact .inl (if_neg same)
  | _ => exact .inl rfl

theorem Step.repliesOn {s next : State registry Conn} {label : Label registry Conn}
    (step : Step s label next) (conn : Conn) :
    next.repliesOn conn = s.repliesOn conn ++ label.leaving conn := by
  have more : ∀ reply : Reply registry Conn,
      (s.replies ++ [reply]).filter (fun reply => reply.source.conn = conn) =
        s.repliesOn conn ++ if reply.source.conn = conn then [reply] else [] := by
    intro reply
    rw [List.filter_append, List.filter_singleton]
    simp [State.repliesOn]
  cases step with
  | refuse => exact more _
  | runFunctor => exact more _
  | _ => exact (List.append_nil _).symm

/-- The replies on a connection are to frames that are among those sent on it, each no more
often than it has been sent. -/
theorem Conserved.repliesOn_subperm {s : State registry Conn} (inv : Conserved s) {frames : List Frame}
    {later : Bytes} {conn : Conn} (reading : Reading frames later conn s) :
    ((s.repliesOn conn).map fun reply => reply.source.frame).Subperm (frames.map Frame.extracted) := by
  obtain ⟨got, listed, left, whole, _⟩ := reading
  have within : (s.replies.map Reply.source : Multiset (Received Conn)) ≤ s.extracted := by
    rw [inv.requests]
    exact Multiset.le_add_right _ _
  have here := (Multiset.coe_le.mp within).filter fun r => r.conn = conn
  have frames_ : ((s.repliesOn conn).map fun reply => reply.source.frame) =
      takenOn conn (s.replies.map Reply.source) := by
    rw [takenOn, List.filter_map, List.map_map]
    rfl
  simp only at whole
  rw [frames_, whole, List.map_append]
  refine List.Subperm.trans ?_ (List.sublist_append_left _ _).subperm
  rw [← listed]
  exact Multiset.coe_le.mp (Multiset.map_le_map (Multiset.coe_le.mpr here))

end RpcServer

namespace Benchmark
variable [LawfulProtobuf] [DecidableEq Conn]

/-- A connection between rounds: the server has replied to each of them, and nothing is left to read. -/
structure Settled (done : List (Round Conn)) (conn : Conn) (server : RpcServer.State registry Conn)
    (up down : Bytes) : Prop where
  reading : RpcServer.Reading (done.map Round.frame) up conn server
  replied : (server.repliesOn conn).map (fun reply => reply.source.frame) = done.map Round.extracted
  empty : down = []

/-- A connection in a round, of whose request these bytes are still to be sent and of whose response
these have been read. -/
structure Awaiting (done : List (Round Conn)) (round : Round Conn) (left got : Bytes) (conn : Conn)
    (server : RpcServer.State registry Conn) (up down : Bytes) : Prop where
  reading : RpcServer.Reading ((done ++ [round]).map Round.frame) (up ++ left) conn server
  replied : (server.repliesOn conn).map (fun reply => reply.source.frame) = done.map Round.extracted ∧
        got = [] ∧ down = [] ∨
      (∃ reply ∈ server.replies, reply.source = ⟨conn, round.extracted⟩ ∧ 8 + reply.payload.length < 2 ^ 32 ∧
        reply.bytes = got ++ down) ∧
      (server.repliesOn conn).map (fun reply => reply.source.frame) = (done ++ [round]).map Round.extracted

/-- The round a worker is in, what is left of its request, and what it has of the response. -/
def Phase.under : Phase Conn → Option (Round Conn × Bytes × Bytes)
  | .sending round left => some (round, left, [])
  | .readingLength round got => some (round, [], got)
  | .readingBody round respLen got => some (round, [], beBytes 4 respLen ++ got)
  | _ => none

/-- Where a connection stands on which no round has been given up. -/
inductive Position (done : List (Round Conn)) (conn : Conn) (server : RpcServer.State registry Conn)
    (up down : Bytes) (phase : Phase Conn) : Prop
  | settled (away : ∀ round left got, phase.under = some (round, left, got) → round.fd ≠ conn)
      (settled : Settled done conn server up down)
  | awaiting {round : Round Conn} {left got : Bytes} (under : phase.under = some (round, left, got))
      (on : round.fd = conn) (awaiting : Awaiting done round left got conn server up down)

omit [DecidableEq Conn] in
theorem map_frame_extracted (rounds : List (Round Conn)) :
    (rounds.map Round.frame).map Frame.extracted = rounds.map Round.extracted := List.map_map

/-- No step of the server moves a connection to another round. -/
theorem Position.serverStep {done : List (Round Conn)} {conn : Conn} {server next : RpcServer.State registry Conn}
    {label : RpcServer.Label registry Conn} {up down : Bytes} {phase : Phase Conn}
    (position : Position done conn server (label.arriving conn ++ up) down phase)
    (conserved : RpcServer.Conserved next) (step : RpcServer.Step server label next)
    (fits : ∀ reply ∈ label.leaving conn, 8 + reply.payload.length < 2 ^ 32) :
    Position done conn next up (down ++ (label.leaving conn).flatMap Reply.bytes) phase := by
  have grown := congrArg (List.map fun reply => reply.source.frame) (step.repliesOn conn)
  rw [List.map_append] at grown
  cases position with
  | settled away settled =>
    have reading := settled.reading.step step
    have within := conserved.repliesOn_subperm reading
    rw [grown, settled.replied, map_frame_extracted] at within
    have quiet : label.leaving conn = [] := by
      have most := within.length_le
      rw [List.length_append, List.length_map, List.length_map] at most
      exact List.length_eq_zero_iff.mp (by omega)
    rw [quiet] at grown ⊢
    rw [List.map_nil, List.append_nil] at grown
    refine .settled away ⟨reading, grown.trans settled.replied, ?_⟩
    rw [settled.empty]
    rfl
  | @awaiting round left got under on awaiting =>
    have before := awaiting.reading
    rw [List.append_assoc] at before
    have reading := before.step step
    have within := conserved.repliesOn_subperm reading
    rw [grown, map_frame_extracted] at within
    refine .awaiting under on ⟨reading, ?_⟩
    rcases awaiting.replied with ⟨replied, rfl, rfl⟩ | ⟨⟨reply, there, source, small, bytes⟩, replied⟩
    · rw [replied, List.map_append, List.subperm_append_left] at within
      rw [replied] at grown
      rcases label.leaving_cases conn with quiet | ⟨reply, rfl, same, leaving⟩
      · rw [quiet] at grown ⊢
        rw [List.map_nil, List.append_nil] at grown
        exact .inl ⟨grown, rfl, rfl⟩
      · rw [leaving] at grown within fits ⊢
        have own : reply.source.frame = round.extracted :=
          List.mem_singleton.mp (List.singleton_subperm_iff.mp within)
        refine .inr ⟨⟨reply, step.replies.2 reply rfl, ?_, fits reply List.mem_cons_self, ?_⟩, ?_⟩
        · rw [← same, ← own]
        · rw [List.flatMap_singleton, List.nil_append, List.nil_append]
        · rw [grown, List.map_append, List.map_singleton, List.map_singleton, own]
    · rw [replied] at within grown
      have quiet : label.leaving conn = [] := by
        have most := within.length_le
        rw [List.length_append, List.length_map, List.length_map] at most
        exact List.length_eq_zero_iff.mp (by omega)
      rw [quiet] at grown ⊢
      rw [List.map_nil, List.append_nil] at grown
      refine .inr ⟨⟨reply, step.replies.1 reply there, source, small, ?_⟩, grown⟩
      rw [bytes, List.flatMap_nil, List.append_nil]

/-- A connection that a worker is not on stays where it is. -/
theorem Position.away {done : List (Round Conn)} {conn : Conn} {server : RpcServer.State registry Conn}
    {up down : Bytes} {phase next : Phase Conn} (position : Position done conn server up down phase)
    (before : ∀ round left got, phase.under = some (round, left, got) → round.fd ≠ conn)
    (after : ∀ round left got, next.under = some (round, left, got) → round.fd ≠ conn) :
    Position done conn server up down next := by
  cases position with
  | settled _ settled => exact .settled after settled
  | awaiting under on => exact absurd on (before _ _ _ under)

theorem Position.here {done : List (Round Conn)} {conn : Conn} {server : RpcServer.State registry Conn}
    {up down : Bytes} {phase : Phase Conn} (position : Position done conn server up down phase)
    {round : Round Conn} {left got : Bytes} (under : phase.under = some (round, left, got))
    (on : round.fd = conn) : Awaiting done round left got conn server up down := by
  cases position with
  | settled away => exact absurd on (away _ _ _ under)
  | awaiting under' _ awaiting =>
    cases under.symm.trans under'
    exact awaiting

theorem Position.between {done : List (Round Conn)} {conn : Conn} {server : RpcServer.State registry Conn}
    {up down : Bytes} {phase : Phase Conn} (position : Position done conn server up down phase)
    (none : phase.under = none) : Settled done conn server up down := by
  cases position with
  | settled _ settled => exact settled
  | awaiting under => cases none.symm.trans under

/-- A round begins with its request. -/
theorem Settled.begin {done : List (Round Conn)} {conn : Conn} {server : RpcServer.State registry Conn}
    {up down : Bytes} (settled : Settled done conn server up down) (round : Round Conn) :
    Awaiting done round round.frame.encode [] conn server up down := by
  obtain ⟨got, listed, position⟩ := settled.reading
  refine ⟨⟨got, listed, ?_⟩, .inl ⟨settled.replied, rfl, settled.empty⟩⟩
  rw [List.map_append]
  exact position.extend round.frame

theorem Awaiting.send {done : List (Round Conn)} {round : Round Conn} {data left got : Bytes} {conn : Conn}
    {server : RpcServer.State registry Conn} {up down : Bytes}
    (awaiting : Awaiting done round (data ++ left) got conn server up down) :
    Awaiting done round left got conn server (up ++ data) down := by
  have reading := awaiting.reading
  rw [← List.append_assoc] at reading
  exact ⟨reading, awaiting.replied⟩

theorem Awaiting.recv {done : List (Round Conn)} {round : Round Conn} {data left got : Bytes} {conn : Conn}
    {server : RpcServer.State registry Conn} {up down : Bytes} (some : data ≠ [])
    (awaiting : Awaiting done round left got conn server up (data ++ down)) :
    Awaiting done round left (got ++ data) conn server up down := by
  refine ⟨awaiting.reading, .inr ?_⟩
  rcases awaiting.replied with ⟨_, _, empty⟩ | ⟨⟨reply, there, source, small, bytes⟩, replied⟩
  · exact absurd (List.append_eq_nil_iff.mp empty).1 some
  · exact ⟨⟨reply, there, source, small, by rw [bytes, List.append_assoc]⟩, replied⟩

/-- A response that has been read whole is the reply to the round, and nothing is behind it. -/
theorem Awaiting.whole {done : List (Round Conn)} {round : Round Conn} {respLen : Nat} {got : Bytes}
    {conn : Conn} {server : RpcServer.State registry Conn} {up down : Bytes}
    (awaiting : Awaiting done round [] (beBytes 4 respLen ++ got) conn server up down)
    (whole : got.length = respLen) :
    Settled (done ++ [round]) conn server up down ∧
      ∃ reply ∈ server.replies, reply.source = ⟨conn, round.extracted⟩ ∧
        got = beBytes 8 round.id.toNat ++ reply.payload := by
  have reading := awaiting.reading
  rw [List.append_nil] at reading
  rcases awaiting.replied with ⟨_, nothing, _⟩ | ⟨⟨reply, there, source, small, bytes⟩, replied⟩
  · have length := congrArg List.length nothing
    rw [List.length_append, beBytes_length, List.length_nil] at length
    omega
  · have id : reply.source.frame.reqId = round.id := by rw [source]; rfl
    rw [Reply.bytes, packWithId_eq, id, List.append_assoc, List.append_assoc] at bytes
    obtain ⟨prefix_, rest⟩ := List.append_inj bytes (by rw [beBytes_length, beBytes_length])
    have size := congrArg List.length rest
    simp only [List.length_append, beBytes_length, whole] at size
    have length := congrArg beNat prefix_
    rw [beNat_beBytes, beNat_beBytes, Nat.mod_eq_of_lt (by omega), Nat.mod_eq_of_lt (by omega)] at length
    have empty : down = [] := List.length_eq_zero_iff.mp (by omega)
    rw [empty, List.append_nil] at rest
    exact ⟨⟨reading, replied, empty⟩, reply, there, source, rest.symm⟩

namespace Action

/-- What a step of a worker sends on a connection. -/
def sentOn : Action Conn → Conn → Bytes
  | .send fd data, conn => if fd = conn then data else []
  | .recv _ _, _ => []
  | .inside, _ => []

/-- What a step of a worker reads from a connection. -/
def readFrom : Action Conn → Conn → Bytes
  | .recv fd data, conn => if fd = conn then data else []
  | .send _ _, _ => []
  | .inside, _ => []

end Action

/-- The response is the server's reply to the round. -/
def Own (server : RpcServer.State registry Conn) (c : Counted Conn) : Prop :=
  c.respId = c.round.id ∧ ∃ reply ∈ server.replies, reply.source = ⟨c.round.fd, c.round.extracted⟩ ∧
    RpcResponse.parse reply.payload = some c.resp

/-- What holds of a connection on which no round has been given up: it is between rounds or in one, and
what has been counted on it are replies to rounds that are over. -/
structure Sound (conn : Conn) (server : RpcServer.State registry Conn) (up down : Bytes)
    (w : Worker Conn) : Prop where
  position : ∃ done, Position done conn server up down w.phase ∧
    w.counted.countP (fun c => c.round.fd = conn) ≤ done.length
  own : ∀ c ∈ w.counted, c.round.fd = conn → Own server c

/-- A step of a worker that is in a round on another connection. -/
theorem Sound.elsewhere {conn : Conn} {server : RpcServer.State registry Conn} {up down : Bytes}
    {w next : Worker Conn} (sound : Sound conn server up down w)
    (before : ∀ round left got, w.phase.under = some (round, left, got) → round.fd ≠ conn)
    (after : ∀ round left got, next.phase.under = some (round, left, got) → round.fd ≠ conn)
    (counted : ∀ c ∈ next.counted, c ∈ w.counted ∨ c.round.fd ≠ conn)
    (count : next.counted.countP (fun c => c.round.fd = conn) = w.counted.countP fun c => c.round.fd = conn) :
    Sound conn server up down next := by
  obtain ⟨done, position, few⟩ := sound.position
  refine ⟨⟨done, position.away before after, count ▸ few⟩, fun c there on => ?_⟩
  rcases counted c there with old | other
  · exact sound.own c old on
  · exact absurd on other

/-- A step of a worker that counts nothing, on the connection that it is on. -/
theorem Sound.moves {conn : Conn} {server : RpcServer.State registry Conn} {up down up' down' : Bytes}
    {w next : Worker Conn} (sound : Sound conn server up down w) {round : Round Conn} {left got left' got' : Bytes}
    (before : w.phase.under = some (round, left, got)) (after : next.phase.under = some (round, left', got'))
    (on : round.fd = conn) (counted : next.counted = w.counted)
    (moves : ∀ done, Awaiting done round left got conn server up down →
      Awaiting done round left' got' conn server up' down') : Sound conn server up' down' next := by
  obtain ⟨done, position, few⟩ := sound.position
  exact ⟨⟨done, .awaiting after on (moves done (position.here before on)), counted ▸ few⟩, counted ▸ sound.own⟩

omit [Protobuf] [LawfulProtobuf] [DecidableEq Conn] in
theorem mem_fail {w : Worker Conn} {fd conn : Conn} (kept : conn ∉ (w.fail fd).failed) : fd ≠ conn := by
  rintro rfl
  exact kept List.mem_cons_self

omit [Protobuf] [LawfulProtobuf] in
theorem respId_eq (id : UInt64) (payload : Bytes) :
    RpcCodec.ntohll (loadLong (beBytes 8 id.toNat ++ payload)) = id := by
  have enough : 8 ≤ (beBytes 8 id.toNat ++ payload).length := by
    rw [List.length_append, beBytes_length]
    exact Nat.le_add_right _ _
  apply UInt64.toNat_inj.mp
  rw [ntohll_loadLong enough, List.take_left' (beBytes_length 8 _), beNat_beBytes]
  exact Nat.mod_eq_of_lt id.toNat_lt

/-- A response that has been read whole ends its round, and it is counted only as what it is. -/
theorem Sound.body {conn : Conn} {server : RpcServer.State registry Conn} {up down : Bytes} {w : Worker Conn}
    (sound : Sound conn server up down w) {round : Round Conn} {respLen : Nat} {got : Bytes}
    (whole : got.length = respLen) (reading : w.phase = .readingBody round respLen got) :
    Sound conn server up down (w.takeBody round got) := by
  have under : w.phase.under = some (round, [], beBytes 4 respLen ++ got) := by rw [reading]; rfl
  by_cases on : round.fd = conn
  · obtain ⟨done, position, few⟩ := sound.position
    obtain ⟨settled, reply, there, source, bytes⟩ := (position.here under on).whole whole
    have fewer : w.counted.countP (fun c => c.round.fd = conn) ≤ (done ++ [round]).length := by
      rw [List.length_append]
      exact few.trans (Nat.le_add_right _ _)
    have payload : got.drop 8 = reply.payload := by
      rw [bytes]
      exact List.drop_left' (beBytes_length 8 _)
    have id : RpcCodec.ntohll (loadLong got) = round.id := by rw [bytes, respId_eq]
    unfold Worker.takeBody
    dsimp only
    split
    · exact ⟨⟨_, .settled nofun settled, fewer⟩, sound.own⟩
    · rename_i resp parsed
      refine ⟨⟨_, .settled nofun settled, ?_⟩, ?_⟩
      · rw [List.countP_append, List.length_append]
        exact Nat.add_le_add few List.countP_le_length
      · intro c counted here
        rcases List.mem_append.mp counted with old | new
        · exact sound.own c old here
        · rw [List.mem_singleton.mp new]
          exact ⟨id, reply, there, on ▸ source, payload ▸ parsed⟩
  · have before : ∀ r left got', w.phase.under = some (r, left, got') → r.fd ≠ conn := by
      intro r left got' same
      cases under.symm.trans same
      exact on
    unfold Worker.takeBody
    dsimp only
    split
    · exact sound.elsewhere before nofun (fun c there => .inl there) rfl
    · refine sound.elsewhere before nofun (fun c there => ?_) ?_
      · rcases List.mem_append.mp there with old | new
        · exact .inl old
        · rw [List.mem_singleton.mp new]
          exact .inr on
      · rw [List.countP_append, List.countP_singleton, if_neg (by simpa using on), Nat.add_zero]

/-- The length of a response on a connection that has not failed with it. -/
theorem Sound.length {conn : Conn} {server : RpcServer.State registry Conn} {up down : Bytes} {w : Worker Conn}
    (sound : Sound conn server up down w) {round : Round Conn} {got : Bytes} (whole : got.length = 4)
    (reading : w.phase = .readingLength round got) (kept : conn ∉ (w.takeLength round got).failed) :
    Sound conn server up down (w.takeLength round got) := by
  have under : w.phase.under = some (round, [], got) := by rw [reading]; rfl
  have before : round.fd ≠ conn → ∀ r left got', w.phase.under = some (r, left, got') → r.fd ≠ conn := by
    intro other r left got' same
    cases under.symm.trans same
    exact other
  unfold Worker.takeLength at kept ⊢
  dsimp only at kept ⊢
  split at kept
  · rename_i outside
    rw [if_pos outside]
    exact sound.elsewhere (before (mem_fail kept)) nofun (fun c there => .inl there) rfl
  · rename_i inside
    rw [if_neg inside]
    by_cases on : round.fd = conn
    · refine sound.moves under rfl on rfl fun done awaiting => ?_
      have length : beBytes 4 (ntohl (loadWord got)).toNat = got := by
        rw [ntohl_loadWord whole.ge, List.take_of_length_le whole.le]
        conv_lhs => rw [← whole]
        exact beBytes_beNat got
      rw [length, List.append_nil]
      exact awaiting
    · refine sound.elsewhere (before on) ?_ (fun c there => .inl there) rfl
      intro r left got' same
      cases same
      exact on

theorem Sound.workerStep {conn : Conn} {server : RpcServer.State registry Conn} {up down : Bytes}
    {w next : Worker Conn} {action : Action Conn}
    (sound : Sound conn server up (action.readFrom conn ++ down) w) (step : w.Step action next)
    (kept : conn ∉ next.failed) : Sound conn server (up ++ action.sentOn conn) down next := by
  have away : ∀ {round : Round Conn} {left got : Bytes} {phase : Phase Conn},
      phase.under = some (round, left, got) → round.fd ≠ conn →
      ∀ r left' got', phase.under = some (r, left', got') → r.fd ≠ conn := by
    intro round left got phase under other r left' got' same
    cases under.symm.trans same
    exact other
  cases step with
  | @start fd first second idle chosen =>
    rw [Action.sentOn, List.append_nil]
    have none : w.phase.under = none := by rw [idle]; rfl
    by_cases on : fd = conn
    · obtain ⟨done, position, few⟩ := sound.position
      exact ⟨⟨done, .awaiting rfl on ((position.between none).begin _), few⟩, sound.own⟩
    · exact sound.elsewhere (fun _ _ _ same => by cases none.symm.trans same) (away rfl on)
        (fun c there => .inl there) rfl
  | @send round data left some sending =>
    have under : w.phase.under = Option.some (round, data ++ left, []) := by rw [sending]; rfl
    by_cases on : round.fd = conn
    · rw [Action.sentOn, if_pos on]
      exact sound.moves under rfl on rfl fun _ awaiting => awaiting.send
    · rw [Action.sentOn, if_neg on, List.append_nil]
      exact sound.elsewhere (away under on) (away rfl on) (fun c there => .inl there) rfl
  | @sendFails round left some sending =>
    rw [Action.sentOn, List.append_nil]
    have under : w.phase.under = Option.some (round, left, []) := by rw [sending]; rfl
    exact sound.elsewhere (away under (mem_fail kept)) nofun (fun c there => .inl there) rfl
  | @sent round sending =>
    rw [Action.sentOn, List.append_nil]
    have under : w.phase.under = some (round, [], []) := by rw [sending]; rfl
    by_cases on : round.fd = conn
    · exact sound.moves under rfl on rfl fun _ awaiting => awaiting
    · exact sound.elsewhere (away under on) (away rfl on) (fun c there => .inl there) rfl
  | @recvLength round got data some within reading =>
    rw [Action.sentOn, List.append_nil]
    have under : w.phase.under = Option.some (round, [], got) := by rw [reading]; rfl
    by_cases on : round.fd = conn
    · rw [Action.readFrom, if_pos on] at sound
      exact sound.moves under rfl on rfl fun _ awaiting => awaiting.recv some
    · rw [Action.readFrom, if_neg on] at sound
      exact sound.elsewhere (away under on) (away rfl on) (fun c there => .inl there) rfl
  | @lengthFails round got short reading =>
    rw [Action.sentOn, List.append_nil]
    have under : w.phase.under = some (round, [], got) := by rw [reading]; rfl
    exact sound.elsewhere (away under (mem_fail kept)) nofun (fun c there => .inl there) rfl
  | length whole reading =>
    rw [Action.sentOn, List.append_nil]
    exact Sound.length sound whole reading kept
  | @recvBody round respLen got data some within reading =>
    rw [Action.sentOn, List.append_nil]
    have under : w.phase.under = Option.some (round, [], beBytes 4 respLen ++ got) := by rw [reading]; rfl
    by_cases on : round.fd = conn
    · rw [Action.readFrom, if_pos on] at sound
      refine sound.moves under rfl on rfl fun _ awaiting => ?_
      rw [← List.append_assoc]
      exact awaiting.recv some
    · rw [Action.readFrom, if_neg on] at sound
      exact sound.elsewhere (away under on) (away rfl on) (fun c there => .inl there) rfl
  | @bodyFails round respLen got short reading =>
    rw [Action.sentOn, List.append_nil]
    have under : w.phase.under = some (round, [], beBytes 4 respLen ++ got) := by rw [reading]; rfl
    exact sound.elsewhere (away under (mem_fail kept)) nofun (fun c there => .inl there) rfl
  | body whole reading =>
    rw [Action.sentOn, List.append_nil]
    exact Sound.body sound whole reading
  | stop idle =>
    rw [Action.sentOn, List.append_nil]
    exact sound.elsewhere (fun _ _ _ same => by rw [idle] at same; cases same) nofun (fun c there => .inl there) rfl

theorem Sound.serverStep {conn : Conn} {server next : RpcServer.State registry Conn}
    {label : RpcServer.Label registry Conn} {up down : Bytes} {w : Worker Conn}
    (sound : Sound conn server (label.arriving conn ++ up) down w) (conserved : RpcServer.Conserved next)
    (step : RpcServer.Step server label next) (fits : ∀ reply ∈ label.leaving conn, 8 + reply.payload.length < 2 ^ 32) :
    Sound conn next up (down ++ (label.leaving conn).flatMap Reply.bytes) w := by
  obtain ⟨⟨done, position, few⟩, own⟩ := sound
  refine ⟨⟨done, position.serverStep conserved step fits, few⟩, fun c counted on => ?_⟩
  obtain ⟨id, reply, there, source, parsed⟩ := own c counted on
  exact ⟨id, reply, step.replies.1 reply there, source, parsed⟩

end Benchmark
end ReactorRpc
