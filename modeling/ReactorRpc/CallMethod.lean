import ReactorRpc.PendingCalls

namespace ReactorRpc
open Streams

structure CustomController where
  failed : Bool := false
  errText : Bytes := []
  maxRetries : Int := 2
  idempotent : Bool := true
  deriving DecidableEq

namespace CustomController

def reset (ctl : CustomController) : CustomController := { ctl with failed := false, errText := [] }

def setFailed (ctl : CustomController) (reason : Bytes) : CustomController :=
  { ctl with failed := true, errText := reason }

end CustomController

inductive LoadBalanceType
  | ROUND_ROBIN
  | RANDOM
  deriving DecidableEq

structure LoadBalancer where
  type : LoadBalanceType := .ROUND_ROBIN
  index : UInt32 := 0
  deriving DecidableEq

/-- `select`, with what the random distribution draws. -/
def LoadBalancer.select (balancer : LoadBalancer) (addresses : List Bytes) (draw : Nat) :
    Bytes × LoadBalancer :=
  if addresses = [] then ([], balancer)
  else match balancer.type with
    | .ROUND_ROBIN =>
      (addresses.getD (balancer.index.toNat % addresses.length) [],
        { balancer with index := balancer.index + 1 })
    | .RANDOM => (addresses.getD draw [], balancer)

def isSpace (c : UInt8) : Bool := c = 32 || (9 ≤ c && c ≤ 13)

def isDigit (c : UInt8) : Bool := 48 ≤ c && c ≤ 57

/-- `std::stoi`, which throws when there is no number, or one that is no `int`. -/
def stoi (text : Bytes) : Option Int :=
  let text := text.dropWhile isSpace
  let unsigned := if text.head? = some 45 ∨ text.head? = some 43 then text.tail else text
  let digits := unsigned.takeWhile isDigit
  let magnitude := digits.foldl (fun (value : Int) c => 10 * value + (c.toNat - 48)) 0
  let value := if text.head? = some 45 then -magnitude else magnitude
  if digits = [] ∨ value < -2 ^ 31 ∨ 2 ^ 31 ≤ value then none else some value

/-- What `getConnection` takes an address for. -/
inductive Endpoint
  | noColon
  | invalidPort
  | endpoint (ip : Bytes) (port : UInt16)
  deriving DecidableEq

def parseAddress (addr : Bytes) : Endpoint :=
  if 58 ∈ addr then
    match stoi (addr.drop (addr.idxOf 58 + 1)) with
    | none => .invalidPort
    | some port => .endpoint (addr.take (addr.idxOf 58)) (UInt16.ofInt port)
  else .noColon

/-- An address in which `getConnection` finds an ip and a port. -/
def WellFormed (addr : Bytes) : Prop := ∃ ip port, parseAddress addr = .endpoint ip port

/-- A synchronous call of `CallMethod`: the controller and the response message it
is given, the request, and what parsing does to the message. -/
structure SyncCall (Msg : Type) where
  call : Nat
  request : RpcRequest
  controller : CustomController
  response : Msg
  parseFromString : Bytes → Msg → Msg

/-- A `doCall` that has returned: the address it had selected, and whether it succeeded. -/
structure DoCall where
  addr : Option Bytes
  ok : Bool
  deriving DecidableEq

/-- Where the calling thread is: at the head of the loop, in `doCall` before
`select`, `getConnection` and `fetch_add` and from then on, behind a `doCall` that
has failed, back from `CallMethod`, or out of it with an exception. -/
inductive CallPhase (Conn : Type)
  | retry
  | addressing
  | connecting (addr : Bytes)
  | connected (addr : Bytes) (conn : Conn)
  | waiting (addr : Bytes) (k : Nat)
  | failed
  | returned
  | threw

namespace RpcChannel
variable {Conn : Type}

/-- How many attempts a call has packed. -/
def State.packed (s : State Conn) (call : Nat) : Nat := (s.attempts.map Attempt.call).count call

theorem packed_after {s t : State Conn} {action : Action Conn} (step : Step s action t) (call : Nat) :
    t.packed call = s.packed call + action.packs.count call := by
  rw [State.packed, calls_after step, List.count_append]
  rfl

def AttemptPhase.FrameSent : AttemptPhase → Bool
  | .sent => true
  | .timedOut => true
  | .returned _ => true
  | _ => false

/-- The attempts of a call whose request frames have been sent. -/
def State.frames (s : State Conn) (call : Nat) : List (Attempt Conn) :=
  s.attempts.filter fun a => a.call = call && AttemptPhase.FrameSent a.phase

theorem frames_le_packed (s : State Conn) (call : Nat) : (s.frames call).length ≤ s.packed call := by
  rw [State.frames, State.packed, List.count_eq_countP, List.countP_map, ← List.countP_eq_length_filter]
  refine List.countP_mono_left fun a _ sent => ?_
  have own := (Bool.and_eq_true_iff.mp sent).1
  simpa using own

end RpcChannel

namespace SyncCall
variable {Conn Msg : Type}

/-- The channel, its balancer, and the state of the call with its loop variable `i`
and the record of its `doCall`s. -/
structure State (Conn Msg : Type) where
  channel : RpcChannel.State Conn
  loadBalancer : LoadBalancer
  controller : CustomController
  response : Msg
  i : Nat := 0
  phase : CallPhase Conn := .retry
  done : List DoCall := []

def start (c : SyncCall Msg) (channel : RpcChannel.State Conn) (loadBalancer : LoadBalancer) :
    State Conn Msg :=
  { channel, loadBalancer, controller := c.controller, response := c.response }

/-- The loop makes a `doCall` with this `i`. -/
def Allowed (c : SyncCall Msg) (i : Nat) : Prop :=
  (i : Int) ≤ c.controller.maxRetries ∧ (i = 0 ∨ c.controller.idempotent = true)

/-- How many frames the call may send. -/
def limit (c : SyncCall Msg) : Nat :=
  if c.controller.idempotent then (c.controller.maxRetries + 1).toNat else 1

theorem Allowed.lt_limit {c : SyncCall Msg} {i : Nat} (allowed : c.Allowed i) : i < c.limit := by
  obtain ⟨below, first | idempotent⟩ := allowed
  · subst first
    unfold limit
    split <;> omega
  · rw [limit, if_pos idempotent]
    omega

inductive Action (Conn : Type)
  | loop
  | select (addrs : List Bytes) (draw : Nat)
  | getAddressesThrew
  | getConnection (conn : Option Conn)
  | getConnectionThrew
  | pack
  | back
  | reset
  | channel (action : RpcChannel.Action Conn)
  | otherSelect

/-- The steps of the thread of the call, and those of others on the channel. The
packed attempt goes its way in the channel. -/
inductive Step (c : SyncCall Msg) : State Conn Msg → Action Conn → State Conn Msg → Prop
  | again {s : State Conn Msg} (head : s.phase = .retry) (allowed : c.Allowed s.i) :
      Step c s .loop { s with phase := .addressing }
  | exhausted {s : State Conn Msg} (head : s.phase = .retry) (exhausted : ¬c.Allowed s.i) :
      Step c s .loop
        { s with
          controller := s.controller.setFailed (asciiText "all retries exhausted")
          phase := .returned }
  | noServers {s : State Conn Msg} (draw : Nat) (addressing : s.phase = .addressing) :
      Step c s (.select [] draw)
        { s with
          controller := s.controller.setFailed (asciiText "no available servers")
          phase := .failed
          done := s.done ++ [⟨none, false⟩] }
  | select {s : State Conn Msg} {addrs : List Bytes} {draw : Nat} (addressing : s.phase = .addressing)
      (some_ : addrs ≠ []) (inside : draw < addrs.length) :
      Step c s (.select addrs draw)
        { s with
          loadBalancer := (s.loadBalancer.select addrs draw).2
          phase := .connecting (s.loadBalancer.select addrs draw).1 }
  | getAddressesThrew {s : State Conn Msg} (addressing : s.phase = .addressing) :
      Step c s .getAddressesThrew { s with phase := .threw }
  | noConnection {s : State Conn Msg} {addr : Bytes} (connecting : s.phase = .connecting addr)
      (number : parseAddress addr ≠ .invalidPort) :
      Step c s (.getConnection none)
        { s with
          controller := s.controller.setFailed (asciiText "connection failed")
          phase := .failed
          done := s.done ++ [⟨some addr, false⟩] }
  | connect {s : State Conn Msg} {addr : Bytes} (conn : Conn) (connecting : s.phase = .connecting addr)
      (wellFormed : WellFormed addr) :
      Step c s (.getConnection (some conn)) { s with phase := .connected addr conn }
  | getConnectionThrew {s : State Conn Msg} {addr : Bytes} (connecting : s.phase = .connecting addr)
      (invalid : parseAddress addr = .invalidPort) :
      Step c s .getConnectionThrew { s with phase := .threw }
  | pack {s : State Conn Msg} {addr : Bytes} {conn : Conn} {next : RpcChannel.State Conn}
      (connected : s.phase = .connected addr conn)
      (step : RpcChannel.Step s.channel (.pack c.call .sync conn c.request) next) :
      Step c s .pack
        { s with channel := next, phase := .waiting addr s.channel.attempts.length }
  | fail {s : State Conn Msg} {addr errorMsg : Bytes} {k : Nat} {a : Attempt Conn}
      (waiting : s.phase = .waiting addr k) (here : s.channel.attempts[k]? = some a)
      (returned : a.phase = .returned (.setFailed errorMsg)) :
      Step c s .back
        { s with
          controller := s.controller.setFailed errorMsg
          phase := .failed
          done := s.done ++ [⟨some addr, false⟩] }
  | succeed {s : State Conn Msg} {addr result : Bytes} {k : Nat} {a : Attempt Conn}
      (waiting : s.phase = .waiting addr k) (here : s.channel.attempts[k]? = some a)
      (returned : a.phase = .returned (.parseFromString result)) :
      Step c s .back
        { s with
          response := c.parseFromString result s.response
          phase := .returned
          done := s.done ++ [⟨some addr, true⟩] }
  | reset {s : State Conn Msg} (failed : s.phase = .failed) :
      Step c s .reset
        { s with controller := s.controller.reset, i := s.i + 1, phase := .retry }
  | channel {s : State Conn Msg} {action : RpcChannel.Action Conn} {next : RpcChannel.State Conn}
      (step : RpcChannel.Step s.channel action next)
      (other : ∀ kind conn request, action ≠ .pack c.call kind conn request) :
      Step c s (.channel action) { s with channel := next }
  | otherSelect {s : State Conn Msg} :
      Step c s .otherSelect
        { s with loadBalancer := { s.loadBalancer with index := s.loadBalancer.index + 1 } }

/-- The `doCall`s made so far are `n` that have failed. -/
structure Unanswered (c : SyncCall Msg) (done : List DoCall) (response : Msg) (n : Nat) : Prop where
  length : done.length = n
  failures : ∀ x ∈ done, x.ok = false
  untouched : response = c.response

theorem Unanswered.next {c : SyncCall Msg} {done : List DoCall} {response : Msg} {n : Nat}
    (unanswered : Unanswered c done response n) (addr : Option Bytes) :
    Unanswered c (done ++ [⟨addr, false⟩]) response (n + 1) where
  length := by rw [List.length_append, unanswered.length, List.length_singleton]
  failures x there := by
    rcases List.mem_append.mp there with old | new
    · exact unanswered.failures x old
    · rw [List.mem_singleton.mp new]
  untouched := unanswered.untouched

/-- The last `doCall` has succeeded, and no other. -/
def Answered (done : List DoCall) : Prop :=
  ∃ before addr, done = before ++ [⟨addr, true⟩] ∧ ∀ x ∈ before, x.ok = false

theorem Answered.ends {done before after : List DoCall} {x : DoCall} (answered : Answered done)
    (split : done = before ++ x :: after) (ok : x.ok = true) : after = [] := by
  obtain ⟨front, addr, rfl, failures⟩ := answered
  rcases List.eq_nil_or_concat' after with none | ⟨more, last, rfl⟩
  · exact none
  · have same : front ++ [⟨addr, true⟩] = (before ++ x :: more) ++ [last] := by
      rw [split, List.append_assoc, List.cons_append]
    have earlier : x ∈ front := by
      rw [(List.append_inj' same rfl).1]
      exact List.mem_append_right _ (List.mem_cons_self ..)
    rw [failures x earlier] at ok
    cases ok

/-- The controller has not failed, unless it had at entry. -/
def Fine (c : SyncCall Msg) (controller : CustomController) : Prop :=
  c.controller.failed = false → controller.failed = false

/-- The account of a call in a `doCall`, all earlier ones of which have failed. -/
def Calling (c : SyncCall Msg) (s : State Conn Msg) (packed : Nat) : Prop :=
  Unanswered c s.done s.response s.i ∧ s.channel.packed c.call ≤ packed ∧ s.i < c.limit ∧
    Fine c s.controller

/-- The account of a call at each place: how many `doCall`s it has made, how many
attempts it has packed, and whether the controller has failed. -/
def Place (c : SyncCall Msg) (s : State Conn Msg) : CallPhase Conn → Prop
  | .retry => Unanswered c s.done s.response s.i ∧ s.channel.packed c.call ≤ s.i ∧ s.i ≤ c.limit ∧
      Fine c s.controller
  | .addressing => Calling c s s.i
  | .connecting _ => Calling c s s.i
  | .connected _ _ => Calling c s s.i
  | .waiting _ _ => Calling c s (s.i + 1)
  | .failed => Unanswered c s.done s.response (s.i + 1) ∧ s.channel.packed c.call ≤ s.i + 1 ∧
      s.i < c.limit
  | .returned => s.channel.packed c.call ≤ c.limit ∧
      (Unanswered c s.done s.response s.i ∧ ¬c.Allowed s.i ∧ s.controller.failed = true ∨
        Answered s.done ∧ Fine c s.controller)
  | .threw => Unanswered c s.done s.response s.i ∧ s.channel.packed c.call ≤ s.i ∧ s.i < c.limit

/-- The account of a call whose attempts are the ones of its id from `base` on: each
has returned but the one that the call waits for. -/
structure Accounted (c : SyncCall Msg) (base : Nat) (s : State Conn Msg) : Prop where
  consistent : RpcChannel.Consistent s.channel
  grown : base ≤ s.channel.attempts.length
  own : ∀ k a, s.channel.attempts[k]? = some a → a.call = c.call → base ≤ k ∧ a.kind = .sync ∧
    ((∃ result, a.phase = .returned result) ∨ ∃ addr, s.phase = .waiting addr k)
  place : Place c s s.phase

variable {c : SyncCall Msg} {base : Nat} {s t : State Conn Msg}

theorem Accounted.start {channel : RpcChannel.State Conn} (consistent : RpcChannel.Consistent channel)
    (new : ∀ a ∈ channel.attempts, a.call ≠ c.call) (loadBalancer : LoadBalancer) :
    Accounted c channel.attempts.length (c.start channel loadBalancer) where
  consistent := consistent
  grown := le_rfl
  own k a here mine := absurd mine (new a (List.mem_of_getElem? here))
  place := by
    refine ⟨⟨rfl, fun x there => absurd there List.not_mem_nil, rfl⟩, ?_, Nat.zero_le _, id⟩
    refine Nat.le_of_eq (List.count_eq_zero.mpr fun there => ?_)
    obtain ⟨a, member, same⟩ := List.mem_map.mp there
    exact new a member same

/-- All attempts of the call have returned. -/
def Settled (c : SyncCall Msg) (s : State Conn Msg) : Prop :=
  ∀ (k : Nat) (a : Attempt Conn), s.channel.attempts[k]? = some a → a.call = c.call →
    ∃ result, a.phase = .returned result

theorem Accounted.settled (accounted : Accounted c base s) {phase : CallPhase Conn}
    (current : s.phase = phase) (elsewhere : ∀ addr k, phase ≠ .waiting addr k) : Settled c s := by
  intro k a here mine
  obtain ⟨_, _, returned | ⟨addr, waiting⟩⟩ := accounted.own k a here mine
  · exact returned
  · exact absurd (current.symm.trans waiting) (elsewhere addr k)

theorem Accounted.settled_back (accounted : Accounted c base s) {addr : Bytes} {k : Nat}
    {a : Attempt Conn} {result : CallResult} (waiting : s.phase = .waiting addr k)
    (here : s.channel.attempts[k]? = some a) (returned : a.phase = .returned result) : Settled c s := by
  intro j b there mine
  obtain ⟨_, _, back | ⟨_, current⟩⟩ := accounted.own j b there mine
  · exact back
  · cases waiting.symm.trans current
    cases here.symm.trans there
    exact ⟨result, returned⟩

/-- The call moves on while none of its attempts is under way. -/
theorem Accounted.move (accounted : Accounted c base s) (settled : Settled c s)
    (same : t.channel = s.channel) (place : Place c t t.phase) : Accounted c base t where
  consistent := same ▸ accounted.consistent
  grown := same ▸ accounted.grown
  own k a here mine := by
    rw [same] at here
    obtain ⟨after, sync, _⟩ := accounted.own k a here mine
    exact ⟨after, sync, .inl (settled k a here mine)⟩
  place := place

theorem Accounted.pack (accounted : Accounted c base s) {addr : Bytes} {conn : Conn}
    {next : RpcChannel.State Conn} (connected : s.phase = .connected addr conn)
    (step : RpcChannel.Step s.channel (.pack c.call .sync conn c.request) next) :
    Accounted c base
      { s with channel := next, phase := .waiting addr s.channel.attempts.length } := by
  have settled := accounted.settled connected nofun
  have place := accounted.place
  rw [connected] at place
  obtain ⟨unanswered, packed, below, fine⟩ := place
  constructor
  · exact accounted.consistent.step step
  · exact accounted.grown.trans (RpcChannel.attempts_grow step)
  · intro k a there mine
    rcases RpcChannel.attempt_origin step there with ⟨b, here, moved, _⟩ | ⟨last, _, _, _, _, act, new⟩
    · have own : b.call = c.call := by rw [← mine, moved]
      obtain ⟨after, sync, _⟩ := accounted.own k b here own
      obtain ⟨result, returned⟩ := settled k b here own
      have kept := (RpcChannel.Returned.step ⟨here, sync, result, returned⟩ accounted.consistent step).1.1
      cases there.symm.trans kept
      exact ⟨after, sync, .inl ⟨result, returned⟩⟩
    · cases act
      subst last new
      exact ⟨accounted.grown, rfl, .inr ⟨addr, rfl⟩⟩
  · refine ⟨unanswered, ?_, below, fine⟩
    have more : next.packed c.call = s.channel.packed c.call + [c.call].count c.call :=
      RpcChannel.packed_after step c.call
    rw [List.count_singleton_self] at more
    exact more.trans_le (Nat.succ_le_succ packed)

theorem Accounted.channel (accounted : Accounted c base s) {action : RpcChannel.Action Conn}
    {next : RpcChannel.State Conn} (step : RpcChannel.Step s.channel action next)
    (other : ∀ kind conn request, action ≠ .pack c.call kind conn request) :
    Accounted c base { s with channel := next } := by
  constructor
  · exact accounted.consistent.step step
  · exact accounted.grown.trans (RpcChannel.attempts_grow step)
  · intro k a there mine
    rcases RpcChannel.attempt_origin step there with ⟨b, here, moved, _⟩ | ⟨_, _, _, _, _, act, new⟩
    · have own : b.call = c.call := by rw [← mine, moved]
      obtain ⟨after, sync, returned | waiting⟩ := accounted.own k b here own
      · obtain ⟨result, returned⟩ := returned
        have kept := (RpcChannel.Returned.step ⟨here, sync, result, returned⟩ accounted.consistent step).1.1
        cases there.symm.trans kept
        exact ⟨after, sync, .inl ⟨result, returned⟩⟩
      · refine ⟨after, ?_, .inr waiting⟩
        rw [moved]
        exact sync
    · subst new
      cases mine
      exact absurd act (other _ _ _)
  · have same : next.packed c.call = s.channel.packed c.call := by
      rw [RpcChannel.packed_after step, Nat.add_eq_left, List.count_eq_zero]
      intro packs
      cases action with
      | pack call kind conn request => exact other kind conn request (List.mem_singleton.mp packs ▸ rfl)
      | _ => cases packs
    have place := accounted.place
    cases phase : s.phase <;> simpa only [Place, Calling, phase, same] using place

theorem Accounted.step (accounted : Accounted c base s) {action : Action Conn}
    (step : Step c s action t) : Accounted c base t := by
  have place := accounted.place
  cases step with
  | again head allowed =>
    rw [head] at place
    obtain ⟨unanswered, packed, _, fine⟩ := place
    exact accounted.move (accounted.settled head nofun) rfl ⟨unanswered, packed, allowed.lt_limit, fine⟩
  | exhausted head exhausted =>
    rw [head] at place
    obtain ⟨unanswered, packed, below, _⟩ := place
    exact accounted.move (accounted.settled head nofun) rfl
      ⟨packed.trans below, .inl ⟨unanswered, exhausted, rfl⟩⟩
  | noServers draw addressing =>
    rw [addressing] at place
    obtain ⟨unanswered, packed, below, _⟩ := place
    exact accounted.move (accounted.settled addressing nofun) rfl
      ⟨unanswered.next none, packed.trans (Nat.le_succ _), below⟩
  | select addressing _ _ =>
    rw [addressing] at place
    exact accounted.move (accounted.settled addressing nofun) rfl place
  | getAddressesThrew addressing =>
    rw [addressing] at place
    obtain ⟨unanswered, packed, below, _⟩ := place
    exact accounted.move (accounted.settled addressing nofun) rfl ⟨unanswered, packed, below⟩
  | noConnection connecting _ =>
    rw [connecting] at place
    obtain ⟨unanswered, packed, below, _⟩ := place
    exact accounted.move (accounted.settled connecting nofun) rfl
      ⟨unanswered.next _, packed.trans (Nat.le_succ _), below⟩
  | connect conn connecting _ =>
    rw [connecting] at place
    exact accounted.move (accounted.settled connecting nofun) rfl place
  | getConnectionThrew connecting _ =>
    rw [connecting] at place
    obtain ⟨unanswered, packed, below, _⟩ := place
    exact accounted.move (accounted.settled connecting nofun) rfl ⟨unanswered, packed, below⟩
  | pack connected step => exact accounted.pack connected step
  | fail waiting here returned =>
    rw [waiting] at place
    obtain ⟨unanswered, packed, below, _⟩ := place
    have settled := accounted.settled_back waiting here returned
    exact accounted.move settled rfl ⟨unanswered.next _, packed, below⟩
  | succeed waiting here returned =>
    rw [waiting] at place
    obtain ⟨unanswered, packed, below, fine⟩ := place
    have settled := accounted.settled_back waiting here returned
    have answered : ∀ addr, Answered (s.done ++ [⟨addr, true⟩]) :=
      fun addr => ⟨_, addr, rfl, unanswered.failures⟩
    exact accounted.move settled rfl ⟨packed.trans below, .inr ⟨answered _, fine⟩⟩
  | reset failed =>
    rw [failed] at place
    obtain ⟨unanswered, packed, below⟩ := place
    exact accounted.move (accounted.settled failed nofun) rfl ⟨unanswered, packed, below, fun _ => rfl⟩
  | channel step other => exact accounted.channel step other
  | otherSelect => exact ⟨accounted.consistent, accounted.grown, accounted.own, place⟩

theorem Accounted.run (accounted : Accounted c base s) (run : Runs (Step c) s t) : Accounted c base t :=
  run.invariant (fun _ _ _ accounted step => accounted.step step) accounted

theorem Accounted.packed_le (accounted : Accounted c base s) : s.channel.packed c.call ≤ c.limit := by
  have place := accounted.place
  cases phase : s.phase <;> rw [phase] at place
  case retry => exact place.2.1.trans place.2.2.1
  case addressing | connecting | connected => exact place.2.1.trans (Nat.le_of_lt place.2.2.1)
  case threw => exact place.2.1.trans (Nat.le_of_lt place.2.2)
  case waiting => exact place.2.1.trans place.2.2.1
  case failed => exact place.2.1.trans place.2.2
  case returned => exact place.1

/-- Until `CallMethod` is back, no `doCall` has succeeded. -/
theorem Accounted.failures (accounted : Accounted c base s) (still : s.phase ≠ .returned) :
    ∀ x ∈ s.done, x.ok = false := by
  have place := accounted.place
  cases phase : s.phase <;> rw [phase] at place
  case returned => exact absurd phase still
  all_goals exact place.1.failures

/-- The end of a call: the retries are exhausted, or its last `doCall` has succeeded. -/
theorem Accounted.outcome (accounted : Accounted c base s) (returned : s.phase = .returned) :
    Unanswered c s.done s.response s.i ∧ ¬c.Allowed s.i ∧ s.controller.failed = true ∨
      Answered s.done ∧ Fine c s.controller := by
  have place := accounted.place
  rw [returned] at place
  exact place.2

/-- Every attempt of a call that is back has returned. -/
theorem Accounted.returned (accounted : Accounted c base s) (returned : s.phase = .returned) {k : Nat}
    {a : Attempt Conn} (here : s.channel.attempts[k]? = some a) (mine : a.call = c.call) :
    RpcChannel.Returned s.channel k a := by
  obtain ⟨_, sync, _⟩ := accounted.own k a here mine
  exact ⟨here, sync, accounted.settled returned nofun k a here mine⟩

end SyncCall
end ReactorRpc
