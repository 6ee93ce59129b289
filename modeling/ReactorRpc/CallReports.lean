import Mathlib.Data.List.GetD
import ReactorRpc.CallOutcomes

namespace ReactorRpc
open Streams

namespace RpcChannel
variable {Conn : Type}

/-- A step keeps every attempt, and what it was made for. -/
theorem attempt_kept {s t : State Conn} {action : Action Conn} (step : Step s action t) {k : Nat}
    {a : Attempt Conn} (here : s.attempts[k]? = some a) :
    ∃ b, t.attempts[k]? = some b ∧ b.call = a.call ∧ b.id = a.id := by
  have inside := (List.getElem?_eq_some_iff.mp here).1
  have there := List.getElem?_eq_getElem (inside.trans_le (attempts_grow step))
  rcases attempt_origin step there with ⟨b, old, moved, _⟩ | ⟨last, _⟩
  · cases here.symm.trans old
    exact ⟨_, there, by rw [moved], by rw [moved]⟩
  · omega

/-- An attempt that has returned has timed out or has a response. -/
def Justified (s : State Conn) : Prop :=
  ∀ (k : Nat) (a : Attempt Conn) (result : CallResult), s.attempts[k]? = some a →
    a.phase = .returned result → result = timeoutResult ∨ ∃ rsp, a.future = some rsp ∧ result = callResult rsp

theorem Justified.move {s t : State Conn} (justified : Justified s) {k : Nat} {a b : Attempt Conn}
    (here : s.attempts[k]? = some a) (attempts : t.attempts = s.attempts.set k b)
    (moved : ∀ result, b.phase = .returned result →
      result = timeoutResult ∨ ∃ rsp, b.future = some rsp ∧ result = callResult rsp) : Justified t := by
  intro j c result there phase
  rw [attempts] at there
  rcases (threads_set_iff here).mp there with ⟨_, rfl⟩ | ⟨_, old⟩
  · exact moved result phase
  · exact justified j c result old phase

theorem Justified.step {s t : State Conn} (justified : Justified s) (inv : Consistent s)
    {action : Action Conn} (step : Step s action t) : Justified t := by
  cases step with
  | pack =>
    intro k a result there phase
    rcases threads_append_iff.mp there with old | ⟨_, rfl⟩
    · exact justified k a result old phase
    · cases phase
  | registerSync here | registerAsync here | send here | timeout here =>
    exact justified.move here rfl fun _ phase => by cases phase
  | removePending here =>
    exact justified.move here rfl fun _ phase => .inl (AttemptPhase.returned.inj phase).symm
  | get here kind waiting set =>
    exact justified.move here rfl fun _ phase => .inr ⟨_, set, (AttemptPhase.returned.inj phase).symm⟩
  | @syncHit _ _ k a _ found here =>
    refine justified.move here rfl fun result (phase : a.phase = .returned result) => ?_
    have opened := (inv.waits found here).opened
    rw [phase] at opened
    exact absurd opened id
  | response | syncMiss | asyncHit | asyncMiss | done => exact justified

theorem Justified.run {s t : State Conn} (justified : Justified s) (inv : Consistent s) (run : Runs Step s t) :
    Justified t := by
  have kept : ∀ (s : State Conn) (action : Action Conn) (t : State Conn),
      Consistent s ∧ Justified s → Step s action t → Consistent t ∧ Justified t :=
    fun s action t both step => ⟨both.1.step step, both.2.step both.1 step⟩
  exact (run.invariant kept ⟨inv, justified⟩).2

theorem completed_kept {s t : State Conn} {action : Action Conn} (step : Step s action t) {c : Completion}
    (completed : c ∈ s.completed) : c ∈ t.completed := by
  cases step with
  | syncHit | done => exact List.mem_append_left _ completed
  | _ => exact completed

/-- A response that a call has met is one that an attempt of the call was completed with. -/
def State.Happened (s : State Conn) (call : Nat) (outcome : Outcome) : Prop :=
  ∀ rsp, outcome = .answered rsp →
    ∃ k a, s.attempts[k]? = some a ∧ a.call = call ∧ ⟨k, a.id, rsp⟩ ∈ s.completed

theorem State.Happened.step {s t : State Conn} {call : Nat} {outcome : Outcome}
    (happened : s.Happened call outcome) {action : Action Conn} (step : Step s action t) :
    t.Happened call outcome := by
  intro rsp answered
  obtain ⟨k, a, here, mine, completed⟩ := happened rsp answered
  obtain ⟨b, there, same, id⟩ := attempt_kept step here
  rw [← id] at completed
  exact ⟨k, b, there, same.trans mine, completed_kept step completed⟩

theorem State.Happened.missed {s : State Conn} {call : Nat} {outcome : Outcome}
    (missed : ∀ rsp, outcome ≠ .answered rsp) : s.Happened call outcome :=
  fun rsp answered => absurd answered (missed rsp)

theorem State.Happened.answered {s : State Conn} {k : Nat} {a : Attempt Conn} {rsp : RpcResponse}
    (here : s.attempts[k]? = some a) (completed : ⟨k, a.id, rsp⟩ ∈ s.completed) :
    s.Happened a.call (.answered rsp) := by
  intro other same
  cases same
  exact ⟨k, a, here, rfl, completed⟩

end RpcChannel

namespace Caller
variable {Msg : Type}

/-- What the loop has made of the controller and the message after these outcomes. -/
def after (parseFromString : Bytes → Msg → Msg) (caller : Caller Msg) (outcomes : List Outcome) : Caller Msg :=
  outcomes.foldl (fun caller outcome => (caller.doCall parseFromString outcome).2.reset) caller

/-- The loop goes on behind outcomes that are not good. -/
theorem retryLoop_after {parseFromString : Bytes → Msg → Msg} {outcomes : Nat → Outcome}
    {made : List Outcome} (caller : Caller Msg) (i left : Nat) (bad : ∀ outcome ∈ made, ¬outcome.Good)
    (same : ∀ j (inside : j < made.length), outcomes (i + j) = made[j]) :
    caller.retryLoop parseFromString outcomes (made.length + left) i =
      (caller.after parseFromString made).retryLoop parseFromString outcomes left (i + made.length) := by
  induction made generalizing caller i with
  | nil => rw [List.length_nil, Nat.zero_add, Nat.add_zero, after, List.foldl_nil]
  | cons outcome made ih =>
    obtain ⟨here, rest⟩ := List.forall_mem_cons.mp bad
    have met : outcomes i = outcome := same 0 (Nat.zero_lt_succ _)
    obtain ⟨reason, failed⟩ := @doCall_bad _ parseFromString caller _ here
    have later : ∀ j (inside : j < made.length), outcomes (i + 1 + j) = made[j] := by
      intro j inside
      rw [Nat.add_right_comm, Nat.add_assoc]
      exact same (j + 1) (Nat.succ_lt_succ inside)
    have round : caller.retryLoop parseFromString outcomes (made.length + 1 + left) i =
        (caller.setFailed reason).reset.retryLoop parseFromString outcomes (made.length + left) (i + 1) := by
      rw [Nat.add_right_comm, retryLoop, met, failed]
    have folded : caller.after parseFromString (outcome :: made) =
        (caller.setFailed reason).reset.after parseFromString made := by
      rw [after, List.foldl_cons, failed, after]
    rw [List.length_cons, round, ih _ (i + 1) rest later, folded, Nat.add_assoc i, Nat.add_comm 1]

theorem after_append {parseFromString : Bytes → Msg → Msg} (caller : Caller Msg) (made : List Outcome)
    (outcome : Outcome) :
    caller.after parseFromString (made ++ [outcome]) =
      ((caller.after parseFromString made).doCall parseFromString outcome).2.reset := by
  rw [after, List.foldl_append, List.foldl_cons, List.foldl_nil, after]

/-- The loop is exhausted when all its outcomes are bad. -/
theorem retryLoop_exhausted {parseFromString : Bytes → Msg → Msg} {caller : Caller Msg}
    {made : List Outcome} (bad : ∀ outcome ∈ made, ¬outcome.Good) :
    caller.retryLoop parseFromString (fun i => made.getD i .noServers) made.length 0 =
      (caller.after parseFromString made).setFailed (asciiText "all retries exhausted") := by
  have same : ∀ j (inside : j < made.length), made.getD (0 + j) .noServers = made[j] := by
    intro j inside
    rw [Nat.zero_add, List.getD_eq_getElem _ _ inside]
  exact retryLoop_after caller 0 0 bad same

/-- The loop ends with the first response without an error. -/
theorem retryLoop_answered {parseFromString : Bytes → Msg → Msg} {caller : Caller Msg}
    {made : List Outcome} (bad : ∀ outcome ∈ made, ¬outcome.Good) {rsp : RpcResponse}
    (ok : rsp.errorCode = ErrorCode.NO_ERROR) {rounds : Nat} (inside : made.length < rounds) :
    caller.retryLoop parseFromString (fun i => made.getD i (.answered rsp)) rounds 0 =
      { caller.after parseFromString made with
        response := parseFromString rsp.result (caller.after parseFromString made).response } := by
  obtain ⟨left, rfl⟩ := Nat.exists_eq_add_of_lt inside
  have same : ∀ j (inside : j < made.length), made.getD (0 + j) (.answered rsp) = made[j] := by
    intro j inside
    rw [Nat.zero_add, List.getD_eq_getElem _ _ inside]
  have here : made.getD (0 + made.length) (.answered rsp) = .answered rsp := by
    rw [Nat.zero_add, List.getD_eq_default _ _ le_rfl]
  rw [Nat.add_assoc, retryLoop_after caller 0 (left + 1) bad same, retryLoop, here, doCall_good ok]

end Caller

namespace SyncCall
variable {Conn Msg : Type}

def caller (c : SyncCall Msg) : Caller Msg := ⟨c.controller, c.response⟩

def State.caller (s : State Conn Msg) : Caller Msg := ⟨s.controller, s.response⟩

/-- The `doCall`s made so far have met these outcomes, and the loop has gone on behind each. -/
structure Met (c : SyncCall Msg) (channel : RpcChannel.State Conn) (i : Nat) (caller : Caller Msg)
    (made : List Outcome) : Prop where
  length : made.length = i
  bad : ∀ outcome ∈ made, ¬outcome.Good
  happened : ∀ outcome ∈ made, channel.Happened c.call outcome
  reports : caller = c.caller.after c.parseFromString made

/-- What the controller and the message tell at each place: what `callMethod` makes of
the outcomes so far. -/
def Tells (c : SyncCall Msg) (s : State Conn Msg) : CallPhase Conn → Prop
  | .retry => s.i ≤ c.controller.rounds ∧ ∃ made, Met c s.channel s.i s.caller made
  | .addressing => s.i < c.controller.rounds ∧ ∃ made, Met c s.channel s.i s.caller made
  | .connecting _ => s.i < c.controller.rounds ∧ ∃ made, Met c s.channel s.i s.caller made
  | .connected _ _ => s.i < c.controller.rounds ∧ ∃ made, Met c s.channel s.i s.caller made
  | .waiting _ k => s.i < c.controller.rounds ∧ (∃ made, Met c s.channel s.i s.caller made) ∧
      ∃ a, s.channel.attempts[k]? = some a ∧ a.call = c.call
  | .failed => s.i < c.controller.rounds ∧ ∃ caller made outcome,
      Met c s.channel s.i caller made ∧ ¬outcome.Good ∧ s.channel.Happened c.call outcome ∧
        s.caller = (caller.doCall c.parseFromString outcome).2
  | .returned => ∃ outcomes, (∀ i, s.channel.Happened c.call (outcomes i)) ∧
      c.caller.callMethod c.parseFromString false outcomes = some s.caller
  | .threw => True

structure Told (c : SyncCall Msg) (s : State Conn Msg) : Prop where
  consistent : RpcChannel.Consistent s.channel
  justified : RpcChannel.Justified s.channel
  tells : Tells c s s.phase

variable {c : SyncCall Msg} {s t : State Conn Msg}

theorem Told.start {channel : RpcChannel.State Conn} (consistent : RpcChannel.Consistent channel)
    (justified : RpcChannel.Justified channel) (loadBalancer : LoadBalancer) :
    Told c (c.start channel loadBalancer) where
  consistent := consistent
  justified := justified
  tells := ⟨Nat.zero_le _, [], rfl, List.forall_mem_nil _, List.forall_mem_nil _, rfl⟩

/-- The call moves on and leaves the channel alone. -/
theorem Told.move (told : Told c s) (same : t.channel = s.channel) (tells : Tells c t t.phase) : Told c t :=
  ⟨same ▸ told.consistent, same ▸ told.justified, tells⟩

theorem Met.happened_getD {channel : RpcChannel.State Conn} {i : Nat} {caller : Caller Msg}
    {made : List Outcome} (met : Met c channel i caller made) {outcome : Outcome}
    (happened : channel.Happened c.call outcome) (j : Nat) : channel.Happened c.call (made.getD j outcome) := by
  by_cases inside : j < made.length
  · rw [List.getD_eq_getElem _ _ inside]
    exact met.happened _ (List.getElem_mem inside)
  · rw [List.getD_eq_default _ _ (Nat.le_of_not_lt inside)]
    exact happened

theorem Met.next {channel : RpcChannel.State Conn} {i : Nat} {caller : Caller Msg} {made : List Outcome}
    (met : Met c channel i caller made) {outcome : Outcome} (bad : ¬outcome.Good)
    (happened : channel.Happened c.call outcome) :
    Met c channel (i + 1) (caller.doCall c.parseFromString outcome).2.reset (made ++ [outcome]) where
  length := by rw [List.length_append, met.length, List.length_singleton]
  bad := List.forall_mem_append.mpr ⟨met.bad, List.forall_mem_singleton.mpr bad⟩
  happened := List.forall_mem_append.mpr ⟨met.happened, List.forall_mem_singleton.mpr happened⟩
  reports := by rw [Caller.after_append, ← met.reports]

theorem Met.channel {channel next : RpcChannel.State Conn} {i : Nat} {caller : Caller Msg}
    {made : List Outcome} (met : Met c channel i caller made)
    {action : RpcChannel.Action Conn} (step : RpcChannel.Step channel action next) :
    Met c next i caller made :=
  ⟨met.length, met.bad, fun outcome member => (met.happened outcome member).step step, met.reports⟩

theorem Told.channel (told : Told c s) {action : RpcChannel.Action Conn} {next : RpcChannel.State Conn}
    (step : RpcChannel.Step s.channel action next) : Told c { s with channel := next } := by
  refine ⟨told.consistent.step step, told.justified.step told.consistent step, ?_⟩
  have tells := told.tells
  cases phase : s.phase with rw [phase] at tells
  | retry | addressing | connecting | connected =>
    obtain ⟨below, made, met⟩ := tells
    exact ⟨below, made, met.channel step⟩
  | waiting addr k =>
    obtain ⟨below, ⟨made, met⟩, a, here, mine⟩ := tells
    obtain ⟨b, there, call, _⟩ := RpcChannel.attempt_kept step here
    exact ⟨below, ⟨made, met.channel step⟩, b, there, call.trans mine⟩
  | failed =>
    obtain ⟨below, caller, made, outcome, met, bad, happened, reports⟩ := tells
    exact ⟨below, caller, made, outcome, met.channel step, bad,
      happened.step step, reports⟩
  | returned =>
    obtain ⟨outcomes, happened, reports⟩ := tells
    exact ⟨outcomes, fun i => (happened i).step step, reports⟩
  | threw => trivial

theorem Told.succeed (told : Told c s) {addr result : Bytes} {k : Nat} {a : Attempt Conn}
    (waiting : s.phase = .waiting addr k) (here : s.channel.attempts[k]? = some a)
    (returned : a.phase = .returned (.parseFromString result)) :
    ∃ outcomes, (∀ i, s.channel.Happened c.call (outcomes i)) ∧
      c.caller.callMethod c.parseFromString false outcomes =
        some ⟨s.controller, c.parseFromString result s.response⟩ := by
  have tells := told.tells
  rw [waiting] at tells
  obtain ⟨below, ⟨made, met⟩, b, there, mine⟩ := tells
  cases here.symm.trans there
  rcases told.justified k a _ here returned with late | ⟨rsp, set, answered⟩
  · cases late
  obtain ⟨ok, rfl⟩ : rsp.errorCode = ErrorCode.NO_ERROR ∧ result = rsp.result := by
    unfold callResult at answered
    split at answered
    · cases answered
    · rename_i fine
      exact ⟨not_not.mp fine, CallResult.parseFromString.inj answered⟩
  have happened := RpcChannel.State.Happened.answered here (told.consistent.future k a rsp here set).2
  rw [mine] at happened
  refine ⟨fun i => made.getD i (.answered rsp), met.happened_getD happened, ?_⟩
  have ends := @Caller.retryLoop_answered _ c.parseFromString c.caller _ met.bad _ ok _ (met.length ▸ below)
  rw [← met.reports] at ends
  exact congrArg some ends

theorem Told.fail (told : Told c s) {addr errorMsg : Bytes} {k : Nat} {a : Attempt Conn}
    (waiting : s.phase = .waiting addr k) (here : s.channel.attempts[k]? = some a)
    (returned : a.phase = .returned (.setFailed errorMsg)) :
    s.i < c.controller.rounds ∧ ∃ caller made outcome,
      Met c s.channel s.i caller made ∧ ¬outcome.Good ∧ s.channel.Happened c.call outcome ∧
        s.caller.setFailed errorMsg = (caller.doCall c.parseFromString outcome).2 := by
  have tells := told.tells
  rw [waiting] at tells
  obtain ⟨below, ⟨made, met⟩, b, there, mine⟩ := tells
  cases here.symm.trans there
  refine ⟨below, s.caller, made, ?_⟩
  rcases told.justified k a _ here returned with late | ⟨rsp, set, answered⟩
  · cases late
    exact ⟨.timedOut, met, id, RpcChannel.State.Happened.missed nofun, rfl⟩
  · obtain ⟨error, rfl⟩ : rsp.errorCode ≠ ErrorCode.NO_ERROR ∧ errorMsg = rsp.errorMsg := by
      unfold callResult at answered
      split at answered
      · rename_i error
        exact ⟨error, CallResult.setFailed.inj answered⟩
      · cases answered
    have happened := RpcChannel.State.Happened.answered here (told.consistent.future k a rsp here set).2
    rw [mine] at happened
    exact ⟨.answered rsp, met, error, happened, (if_pos error).symm⟩

theorem Told.step (told : Told c s) {action : Action Conn} (step : Step c s action t) : Told c t := by
  have tells := told.tells
  cases step with
  | again head allowed =>
    rw [head] at tells
    exact told.move rfl ⟨(allowed_iff c s.i).mp allowed, tells.2⟩
  | exhausted head exhausted =>
    rw [head] at tells
    obtain ⟨below, made, met⟩ := tells
    have all : made.length = c.controller.rounds :=
      met.length.trans (le_antisymm below (Nat.le_of_not_lt fun more => exhausted ((allowed_iff c s.i).mpr more)))
    have missed : s.channel.Happened c.call .noServers := RpcChannel.State.Happened.missed nofun
    refine told.move rfl ⟨_, met.happened_getD missed, ?_⟩
    have ends := @Caller.retryLoop_exhausted _ c.parseFromString c.caller _ met.bad
    rw [all, ← met.reports] at ends
    exact congrArg some ends
  | noServers draw addressing =>
    rw [addressing] at tells
    obtain ⟨below, made, met⟩ := tells
    exact told.move rfl ⟨below, _, made, .noServers, met, id, RpcChannel.State.Happened.missed nofun, rfl⟩
  | select addressing _ _ =>
    rw [addressing] at tells
    exact told.move rfl tells
  | getAddressesThrew | getConnectionThrew => exact told.move rfl trivial
  | noConnection connecting _ =>
    rw [connecting] at tells
    obtain ⟨below, made, met⟩ := tells
    exact told.move rfl ⟨below, _, made, .noConnection, met, id, RpcChannel.State.Happened.missed nofun, rfl⟩
  | connect conn connecting _ =>
    rw [connecting] at tells
    exact told.move rfl tells
  | pack connected step =>
    rw [connected] at tells
    obtain ⟨below, made, met⟩ := tells
    have inv := told.consistent
    refine ⟨inv.step step, told.justified.step inv step, below, ⟨made, met.channel step⟩, ?_⟩
    cases step
    exact ⟨_, threads_append_iff.mpr (.inr ⟨rfl, rfl⟩), rfl⟩
  | fail waiting here returned => exact told.move rfl (told.fail waiting here returned)
  | succeed waiting here returned => exact told.move rfl (told.succeed waiting here returned)
  | reset failed =>
    rw [failed] at tells
    obtain ⟨below, caller, made, outcome, met, bad, happened, reports⟩ := tells
    have next := met.next bad happened
    rw [← reports] at next
    exact told.move rfl ⟨below, _, next⟩
  | channel step other => exact told.channel step
  | otherSelect => exact told.move rfl tells

/-- A run of a call, among any other threads, ends as `callMethod` does on outcomes
that have happened in it. -/
theorem callMethod_of_run {channel : RpcChannel.State Conn} (reached : Runs RpcChannel.Step {} channel)
    (loadBalancer : LoadBalancer) (run : Runs (Step c) (c.start channel loadBalancer) s)
    (returned : s.phase = .returned) :
    ∃ outcomes, (∀ i, s.channel.Happened c.call (outcomes i)) ∧
      c.caller.callMethod c.parseFromString false outcomes = some s.caller := by
  have consistent := RpcChannel.consistent_new.run reached
  have justified := RpcChannel.Justified.run (fun _ _ _ none => by cases none) RpcChannel.consistent_new reached
  have told : Told c s :=
    run.invariant (fun _ _ _ told step => told.step step) (Told.start consistent justified loadBalancer)
  have tells := told.tells
  rwa [returned] at tells

end SyncCall

/-- An asynchronous call of `CallMethod`. -/
structure AsyncCall (Msg : Type) where
  call : Nat
  request : RpcRequest
  controller : CustomController
  response : Msg
  parseFromString : Bytes → Msg → Msg

/-- Where an asynchronous call is: in `doCallAsync` before `select`, `getConnection` and
`fetch_add`, from then on, behind `done`, or out of `doCallAsync` with an exception. -/
inductive AsyncPhase (Conn : Type)
  | addressing
  | connecting (addr : Bytes)
  | connected (conn : Conn)
  | pending (k : Nat)
  | done
  | threw

namespace AsyncCall
variable {Conn Msg : Type}

def caller (c : AsyncCall Msg) : Caller Msg := ⟨c.controller, c.response⟩

structure State (Conn Msg : Type) where
  channel : RpcChannel.State Conn
  loadBalancer : LoadBalancer
  caller : Caller Msg
  phase : AsyncPhase Conn := .addressing

def start (c : AsyncCall Msg) (channel : RpcChannel.State Conn) (loadBalancer : LoadBalancer) :
    State Conn Msg :=
  { channel, loadBalancer, caller := c.caller }

inductive Action (Conn : Type)
  | select (addrs : List Bytes) (draw : Nat)
  | getAddressesThrew
  | getConnection (conn : Option Conn)
  | getConnectionThrew
  | pack
  | done
  | channel (action : RpcChannel.Action Conn)
  | otherSelect

/-- The steps of the call, and those of others on the channel. The packed attempt goes
its way in the channel until the loop thread runs its callback. -/
inductive Step (c : AsyncCall Msg) : State Conn Msg → Action Conn → State Conn Msg → Prop
  | noServers {s : State Conn Msg} (draw : Nat) (addressing : s.phase = .addressing) :
      Step c s (.select [] draw)
        { s with caller := s.caller.setFailed (asciiText "no servers"), phase := .done }
  | select {s : State Conn Msg} {addrs : List Bytes} {draw : Nat} (addressing : s.phase = .addressing)
      (some_ : addrs ≠ []) (inside : draw < addrs.length) :
      Step c s (.select addrs draw)
        { s with
          loadBalancer := (s.loadBalancer.select addrs draw).2
          phase := .connecting (s.loadBalancer.select addrs draw).1 }
  | getAddressesThrew {s : State Conn Msg} (addressing : s.phase = .addressing) :
      Step c s .getAddressesThrew { s with phase := .threw }
  | noConnection {s : State Conn Msg} {addr : Bytes} (connecting : s.phase = .connecting addr)
      (number : parseAddress addr ≠ .invalidPort) :
      Step c s (.getConnection none)
        { s with caller := s.caller.setFailed (asciiText "connect failed"), phase := .done }
  | connect {s : State Conn Msg} {addr : Bytes} (conn : Conn) (connecting : s.phase = .connecting addr)
      (wellFormed : WellFormed addr) :
      Step c s (.getConnection (some conn)) { s with phase := .connected conn }
  | getConnectionThrew {s : State Conn Msg} {addr : Bytes} (connecting : s.phase = .connecting addr)
      (invalid : parseAddress addr = .invalidPort) :
      Step c s .getConnectionThrew { s with phase := .threw }
  | pack {s : State Conn Msg} {conn : Conn} {next : RpcChannel.State Conn}
      (connected : s.phase = .connected conn)
      (step : RpcChannel.Step s.channel (.pack c.call .async conn c.request) next) :
      Step c s .pack { s with channel := next, phase := .pending s.channel.attempts.length }
  | done {s : State Conn Msg} {k : Nat} {id : UInt64} {rsp : RpcResponse} {next : RpcChannel.State Conn}
      (pending : s.phase = .pending k) (running : s.channel.loop = .running k id rsp)
      (step : RpcChannel.Step s.channel .done next) :
      Step c s .done
        { s with channel := next, caller := s.caller.answer c.parseFromString rsp, phase := .done }
  | channel {s : State Conn Msg} {action : RpcChannel.Action Conn} {next : RpcChannel.State Conn}
      (step : RpcChannel.Step s.channel action next)
      (other : ∀ kind conn request, action ≠ .pack c.call kind conn request)
      (elsewhere : action = .done → ∀ k id rsp, s.phase = .pending k → s.channel.loop ≠ .running k id rsp) :
      Step c s (.channel action) { s with channel := next }
  | otherSelect {s : State Conn Msg} :
      Step c s .otherSelect
        { s with loadBalancer := { s.loadBalancer with index := s.loadBalancer.index + 1 } }

/-- Until `done` is run the controller and the message are as they were, and then as
`callMethod` leaves them. -/
def Tells (c : AsyncCall Msg) (s : State Conn Msg) : AsyncPhase Conn → Prop
  | .pending k => s.caller = c.caller ∧ ∃ a, s.channel.attempts[k]? = some a ∧ a.call = c.call
  | .done => ∃ outcome, s.channel.Happened c.call outcome ∧
      c.caller.callMethod c.parseFromString true (fun _ => outcome) = some s.caller
  | _ => s.caller = c.caller

structure Told (c : AsyncCall Msg) (s : State Conn Msg) : Prop where
  consistent : RpcChannel.Consistent s.channel
  tells : Tells c s s.phase

variable {c : AsyncCall Msg} {s t : State Conn Msg}

theorem Told.channel (told : Told c s) {action : RpcChannel.Action Conn} {next : RpcChannel.State Conn}
    (step : RpcChannel.Step s.channel action next) : Told c { s with channel := next } := by
  refine ⟨told.consistent.step step, ?_⟩
  have tells := told.tells
  cases phase : s.phase with rw [phase] at tells
  | pending k =>
    obtain ⟨untouched, a, here, mine⟩ := tells
    obtain ⟨b, there, call, _⟩ := RpcChannel.attempt_kept step here
    exact ⟨untouched, b, there, call.trans mine⟩
  | done =>
    obtain ⟨outcome, happened, reports⟩ := tells
    exact ⟨outcome, happened.step step, reports⟩
  | addressing | connecting | connected | threw => exact tells

theorem Told.done (told : Told c s) {k : Nat} {id : UInt64} {rsp : RpcResponse}
    {next : RpcChannel.State Conn} (pending : s.phase = .pending k)
    (running : s.channel.loop = .running k id rsp) (step : RpcChannel.Step s.channel .done next) :
    Told c { s with channel := next, caller := s.caller.answer c.parseFromString rsp, phase := .done } := by
  have inv := told.consistent
  have tells := told.tells
  rw [pending] at tells
  obtain ⟨untouched, a, here, mine⟩ := tells
  obtain ⟨b, there, rfl, _⟩ := inv.running k id rsp running
  cases here.symm.trans there
  refine ⟨inv.step step, .answered rsp, ?_, congrArg some (by rw [untouched])⟩
  cases step with
  | done now =>
    cases running.symm.trans now
    rw [← mine]
    exact .answered here (List.mem_append_right _ (List.mem_singleton_self _))

theorem Told.step (told : Told c s) {action : Action Conn} (step : Step c s action t) : Told c t := by
  have tells := told.tells
  cases step with
  | noServers draw addressing =>
    rw [addressing] at tells
    refine ⟨told.consistent, .noServers, .missed nofun, ?_⟩
    show _ = some (s.caller.setFailed (asciiText "no servers"))
    rw [tells]
    rfl
  | noConnection connecting _ =>
    rw [connecting] at tells
    refine ⟨told.consistent, .noConnection, .missed nofun, ?_⟩
    show _ = some (s.caller.setFailed (asciiText "connect failed"))
    rw [tells]
    rfl
  | select phase _ _ | connect _ phase _ | getAddressesThrew phase | getConnectionThrew phase _ =>
    rw [phase] at tells
    exact ⟨told.consistent, tells⟩
  | pack connected step =>
    rw [connected] at tells
    refine ⟨told.consistent.step step, tells, ?_⟩
    cases step
    exact ⟨_, threads_append_iff.mpr (.inr ⟨rfl, rfl⟩), rfl⟩
  | done pending running step => exact told.done pending running step
  | channel step _ _ => exact told.channel step
  | otherSelect => exact ⟨told.consistent, tells⟩

/-- A run of an asynchronous call, among any other threads, that has come to `done` has
ended as `callMethod` does on an outcome that has happened in it. -/
theorem callMethod_of_run {channel : RpcChannel.State Conn} (reached : Runs RpcChannel.Step {} channel)
    (loadBalancer : LoadBalancer) (run : Runs (Step c) (c.start channel loadBalancer) s)
    (done : s.phase = .done) :
    ∃ outcome, s.channel.Happened c.call outcome ∧
      c.caller.callMethod c.parseFromString true (fun _ => outcome) = some s.caller := by
  have start : Told c (c.start channel loadBalancer) := ⟨RpcChannel.consistent_new.run reached, rfl⟩
  have told : Told c s := run.invariant (fun _ _ _ told step => told.step step) start
  have tells := told.tells
  rwa [done] at tells

end AsyncCall
end ReactorRpc
