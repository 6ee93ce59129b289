import Mathlib.Logic.Function.Basic
import ReactorRpc.ConnectionEvents
import ReactorRpc.Library.Entries
import ReactorRpc.Library.Runs
import ReactorRpc.Library.Threads

namespace ReactorRpc
open Streams
universe u

/-- Where a call of `getConnection` is: before its first locked section, past it
without a connection, with a new connection it has not stored, or back. -/
inductive GetPhase
  | entered
  | missed
  | created (conn : Nat)
  | returned (conn : Option Nat)
  deriving DecidableEq

/-- A call of `getConnection`, with the connections for which `handleClose` had
run when it began. -/
structure GetCall (Addr : Type u) where
  addr : Addr
  dead : List Nat
  phase : GetPhase := .entered

namespace ConnectionCache

/-- `connections_` of an `RpcChannel`, the connections it has created, by address,
those for which `handleClose` has run, those it has shut down and those it has
replaced, and its calls of `getConnection`. -/
structure State (Addr : Type u) where
  connections : Addr → Option Nat := fun _ => none
  created : List Addr := []
  closed : List Nat := []
  shut : List Nat := []
  replaced : List Nat := []
  calls : List (GetCall Addr) := []

variable {Addr : Type u}

/-- A client connection has no close callback. -/
def State.handleClose (c : Nat) (s : State Addr) : State Addr :=
  TcpConnection.handleClose none { s with closed := s.closed ++ [c] }

/-- An event of a client connection, as far as it concerns the cache. -/
def State.handleEvent (c : Nat) (revents : UInt32) (result : Except Buffer.Errno Bytes)
    (s : State Addr) : State Addr :=
  Channel.handleEvent id (TcpConnection.callbacks
    (TcpConnection.afterRead id (State.handleClose c) result) id (State.handleClose c)) revents s

inductive Action (Addr : Type u)
  | call (addr : Addr)
  | lookup (k : Nat)
  | fail (k : Nat)
  | create (k : Nat)
  | store (k : Nat)
  | event (c : Nat) (revents : UInt32) (result : Except Buffer.Errno Bytes)
  | close

/-- The steps of the threads in `getConnection` and `close`, a locked section each,
and of the loop thread. `fail` is a call that returns no connection: a bad address,
no socket, or `connect` fails at once. -/
inductive Step [DecidableEq Addr] : State Addr → Action Addr → State Addr → Prop
  | call {s : State Addr} (addr : Addr) :
      Step s (.call addr) { s with calls := s.calls ++ [{ addr, dead := s.closed }] }
  | hit {s : State Addr} {k c : Nat} {call : GetCall Addr} (here : s.calls[k]? = some call)
      (entered : call.phase = .entered) (found : s.connections call.addr = some c) :
      Step s (.lookup k)
        { s with calls := s.calls.set k { call with phase := .returned (some c) } }
  | miss {s : State Addr} {k : Nat} {call : GetCall Addr} (here : s.calls[k]? = some call)
      (entered : call.phase = .entered) (missing : s.connections call.addr = none) :
      Step s (.lookup k) { s with calls := s.calls.set k { call with phase := .missed } }
  | fail {s : State Addr} {k : Nat} {call : GetCall Addr} (here : s.calls[k]? = some call)
      (missed : call.phase = .missed) :
      Step s (.fail k) { s with calls := s.calls.set k { call with phase := .returned none } }
  | create {s : State Addr} {k : Nat} {call : GetCall Addr} (here : s.calls[k]? = some call)
      (missed : call.phase = .missed) :
      Step s (.create k)
        { s with
          created := s.created ++ [call.addr]
          calls := s.calls.set k { call with phase := .created s.created.length } }
  | store {s : State Addr} {k c : Nat} {call : GetCall Addr} (here : s.calls[k]? = some call)
      (created : call.phase = .created c) :
      Step s (.store k)
        { s with
          connections := Function.update s.connections call.addr (some c)
          replaced := s.replaced ++ (s.connections call.addr).toList
          calls := s.calls.set k { call with phase := .returned (some c) } }
  | event {s : State Addr} {c : Nat} (revents : UInt32) (result : Except Buffer.Errno Bytes)
      (exists_ : c < s.created.length) :
      Step s (.event c revents result) (s.handleEvent c revents result)
  | close {s : State Addr} (conns : List Nat)
      (all : ∀ c, c ∈ conns ↔ ∃ addr, s.connections addr = some c) :
      Step s .close { s with connections := fun _ => none, shut := s.shut ++ conns }

/-- All an event does to the cache: it is noted when `handleClose` runs. -/
theorem handleEvent_eq (c : Nat) (revents : UInt32) (result : Except Buffer.Errno Bytes)
    (s : State Addr) :
    s.handleEvent c revents result =
      if endsConnection revents result then { s with closed := s.closed ++ [c] } else s := by
  unfold endsConnection State.handleEvent
  by_cases gone : hangsUp revents = true
  · rw [gone, Bool.true_or, if_pos rfl]
    rcases @Channel.handleEvent_hangsUp _ id _ _ s rfl gone with close | error
    · rw [close]
      rfl
    · rw [error]
      rfl
  · have there := Bool.eq_false_iff.mpr gone
    rw [@Channel.handleEvent_served _ id _ _ s rfl there, there, Bool.false_or]
    simp only [TcpConnection.callbacks, TcpConnection.afterRead, id, ite_self]
    cases hasEvents revents EPOLLIN with
    | false => rfl
    | true => cases readEvent result <;> rfl

/-- No connection for which `handleClose` has run is stored or about to be, and
none has been handed out by a call that began afterwards. -/
structure Living (s : State Addr) : Prop where
  known : ∀ c ∈ s.closed, c < s.created.length
  stored : ∀ addr c, s.connections addr = some c → c ∉ s.closed ∧ c < s.created.length
  inFlight : ∀ (k c : Nat) (call : GetCall Addr), s.calls[k]? = some call → call.phase = .created c →
    c ∉ s.closed ∧ c < s.created.length
  dead : ∀ (k c : Nat) (call : GetCall Addr), s.calls[k]? = some call → c ∈ call.dead → c ∈ s.closed
  returned : ∀ (k c : Nat) (call : GetCall Addr), s.calls[k]? = some call →
    call.phase = .returned (some c) → c ∉ call.dead

/-- A call has returned a connection for which `handleClose` had run before it began. -/
def Haunted (s : State Addr) : Prop :=
  ∃ (k c : Nat) (call : GetCall Addr), s.calls[k]? = some call ∧ call.phase = .returned (some c) ∧
    c ∈ call.dead

theorem Living.start : Living ({} : State Addr) := ⟨nofun, nofun, nofun, nofun, nofun⟩

theorem Living.not_haunted {s : State Addr} (living : Living s) : ¬Haunted s := by
  rintro ⟨k, c, call, here, back, dead⟩
  exact living.returned k c call here back dead

/-- A call moves on. -/
theorem Living.move {s : State Addr} (living : Living s) {k : Nat} {call : GetCall Addr}
    (here : s.calls[k]? = some call) {phase : GetPhase}
    (flight : ∀ c, phase = .created c → c ∉ s.closed ∧ c < s.created.length)
    (back : ∀ c, phase = .returned (some c) → c ∉ s.closed) :
    Living { s with calls := s.calls.set k { call with phase := phase } } where
  known := living.known
  stored := living.stored
  inFlight j c other found created := by
    rcases (threads_set_iff here).mp found with ⟨_, rfl⟩ | ⟨_, same⟩
    · exact flight c created
    · exact living.inFlight j c other same created
  dead j c other found member := by
    rcases (threads_set_iff here).mp found with ⟨_, rfl⟩ | ⟨_, same⟩
    · exact living.dead k c call here member
    · exact living.dead j c other same member
  returned j c other found returned := by
    rcases (threads_set_iff here).mp found with ⟨_, rfl⟩ | ⟨_, same⟩
    · exact fun member => back c returned (living.dead k c call here member)
    · exact living.returned j c other same returned

theorem Living.create {s : State Addr} (living : Living s) (addr : Addr) :
    Living { s with created := s.created ++ [addr] } := by
  have grows : s.created.length < (s.created ++ [addr]).length := by simp
  refine ⟨?_, ?_, ?_, living.dead, living.returned⟩
  · exact fun c member => (living.known c member).trans grows
  · exact fun a c found => (living.stored a c found).imp_right fun below => below.trans grows
  · exact fun k c call here created =>
      (living.inFlight k c call here created).imp_right fun below => below.trans grows

theorem Living.closed {s : State Addr} (living : Living s) {c : Nat} (exists_ : c < s.created.length)
    (free : ∀ addr, s.connections addr ≠ some c)
    (stranded : ∀ (k : Nat) (call : GetCall Addr), s.calls[k]? = some call → call.phase ≠ .created c) :
    Living { s with closed := s.closed ++ [c] } where
  known d member := by
    rcases List.mem_append.mp member with old | new
    · exact living.known d old
    · rw [List.mem_singleton.mp new]
      exact exists_
  stored addr d found := by
    refine ⟨fun member => ?_, (living.stored addr d found).2⟩
    rcases List.mem_append.mp member with old | new
    · exact (living.stored addr d found).1 old
    · rw [List.mem_singleton.mp new] at found
      exact free addr found
  inFlight k d call here created := by
    refine ⟨fun member => ?_, (living.inFlight k d call here created).2⟩
    rcases List.mem_append.mp member with old | new
    · exact (living.inFlight k d call here created).1 old
    · rw [List.mem_singleton.mp new] at created
      exact stranded k call here created
  dead k d call here member := List.mem_append_left _ (living.dead k d call here member)
  returned := living.returned

/-- Nobody can be handed the connection any more: it is not in `connections_`, and
no call is about to store it there. -/
structure Released (s : State Addr) (c : Nat) : Prop where
  free : ∀ addr, s.connections addr ≠ some c
  stranded : ∀ (k : Nat) (call : GetCall Addr), s.calls[k]? = some call → call.phase ≠ .created c

/-- `handleClose` runs only for connections that nobody can be handed any more. -/
def ClosesReleased (s : State Addr) : Action Addr → Prop
  | .event c revents result => endsConnection revents result = true → Released s c
  | _ => True

variable [DecidableEq Addr]

theorem Living.next {s t : State Addr} {action : Action Addr} (living : Living s)
    (harmless : ClosesReleased s action) (step : Step s action t) : Living t := by
  cases step with
  | call addr =>
    refine ⟨living.known, living.stored, ?_, ?_, ?_⟩
    · intro k c call found created
      rcases threads_append_iff.mp found with old | ⟨_, rfl⟩
      · exact living.inFlight k c call old created
      · cases created
    · intro k c call found member
      rcases threads_append_iff.mp found with old | ⟨_, rfl⟩
      · exact living.dead k c call old member
      · exact member
    · intro k c call found returned
      rcases threads_append_iff.mp found with old | ⟨_, rfl⟩
      · exact living.returned k c call old returned
      · cases returned
  | @hit k c call here entered found =>
    refine living.move here nofun fun d same => ?_
    cases same
    exact (living.stored call.addr c found).1
  | miss here | fail here => exact living.move here nofun nofun
  | @create k call here missed =>
    refine (living.create call.addr).move here (fun d same => ?_) nofun
    cases same
    refine ⟨fun member => Nat.lt_irrefl _ (living.known _ member), ?_⟩
    simp
  | @store k c call here created =>
    have alive := living.inFlight k c call here created
    have put : Living { s with
        connections := Function.update s.connections call.addr (some c)
        replaced := s.replaced ++ (s.connections call.addr).toList } := by
      refine ⟨living.known, fun addr d found => ?_, living.inFlight, living.dead, living.returned⟩
      rcases entered_iff.mp found with ⟨_, rfl⟩ | ⟨_, old⟩
      · exact alive
      · exact living.stored addr d old
    refine put.move here nofun fun d same => ?_
    cases same
    exact alive.1
  | @event c revents result exists_ =>
    rw [handleEvent_eq]
    split
    · rename_i gone
      obtain ⟨free, stranded⟩ := harmless gone
      exact living.closed exists_ free stranded
    · exact living
  | close conns all => exact ⟨living.known, nofun, living.inFlight, living.dead, living.returned⟩

/-- A new call is handed what is stored, dead or not. -/
theorem handed_out {s : State Addr} {addr : Addr} {c : Nat} (found : s.connections addr = some c)
    (dead : c ∈ s.closed) : ∃ u, Runs Step s u ∧ Haunted u := by
  have place : (s.calls ++ [({ addr, dead := s.closed } : GetCall Addr)])[s.calls.length]? =
      some { addr, dead := s.closed } := by simp
  have called : Runs Step s _ := .one (.call addr)
  have back := called.tail ⟨_, @Step.hit _ _ _ s.calls.length c _ place rfl found⟩
  refine ⟨_, back, s.calls.length, c, _, threads_set_self place _, rfl, dead⟩

/-- A connection that was still to be handed out when `handleClose` ran is handed out. -/
theorem closed_handed_out {s : State Addr} {c : Nat} (dead : c ∈ s.closed) (reachable : ¬Released s c) :
    ∃ u, Runs Step s u ∧ Haunted u := by
  by_cases stored : ∃ addr, s.connections addr = some c
  · obtain ⟨addr, found⟩ := stored
    exact handed_out found dead
  · have waiting : ∃ (k : Nat) (call : GetCall Addr), s.calls[k]? = some call ∧ call.phase = .created c := by
      by_contra none
      push Not at stored none
      exact reachable ⟨stored, none⟩
    obtain ⟨k, call, here, created⟩ := waiting
    have stores : Runs Step s _ := .one (.store here created)
    let after : State Addr :=
      { s with
        connections := Function.update s.connections call.addr (some c)
        replaced := s.replaced ++ (s.connections call.addr).toList
        calls := s.calls.set k { call with phase := .returned (some c) } }
    have found : after.connections call.addr = some c := Function.update_self ..
    obtain ⟨u, run, haunted⟩ := handed_out found dead
    exact ⟨u, stores.trans run, haunted⟩

/-- As long as `handleClose` runs only for connections that nobody can be handed
any more, no dead one is handed out; after any other run of it, one is in some
continuation. -/
theorem dead_never_returned {s : State Addr} (run : Runs (Restricted ClosesReleased Step) {} s) :
    ¬Haunted s ∧ ∀ action t, Step s action t → ¬ClosesReleased s action →
      ∃ u, Runs Step t u ∧ Haunted u := by
  have living : Living s := run.kept (P := Living) (fun _ _ _ => Living.next) Living.start
  refine ⟨living.not_haunted, fun action t step harmful => ?_⟩
  cases step with
  | @event c revents result exists_ =>
    obtain ⟨gone, reachable⟩ := Classical.not_imp.mp harmful
    rw [handleEvent_eq, if_pos gone]
    exact closed_handed_out (List.mem_append_right _ (List.mem_singleton_self c))
      fun released => reachable ⟨released.free, released.stranded⟩
  | _ => exact absurd trivial harmful

/-- A call creates and stores a connection, `close` drops it, and only then its
peer closes it. -/
theorem dead_never_returned_dropped : ∃ s : State Nat,
    Runs (Restricted ClosesReleased Step) {} s ∧ s.closed = [0] ∧ ¬Haunted s := by
  have start : Runs (Restricted ClosesReleased Step) ({} : State Nat) _ := .refl
  have called := start.allow (.call 9) trivial
  have missed := called.allow (@Step.miss _ _ _ 0 _ rfl rfl rfl) trivial
  have created := missed.allow (@Step.create _ _ _ 0 _ rfl rfl) trivial
  have stored := created.allow (@Step.store _ _ _ 0 0 _ rfl rfl) trivial
  have held : ∀ c, c ∈ [0] ↔ ∃ addr, Function.update (fun _ : Nat => none) 9 (some 0) addr = some c := by
    intro c
    simp only [entered_iff, List.mem_singleton]
    grind
  have dropped := stored.allow (.close [0] held) trivial
  have closed := dropped.allow (@Step.event _ _ _ 0 EPOLLIN (.ok []) Nat.one_pos)
    fun _ => ⟨nofun, fun k call here => by cases k <;> cases here; exact nofun⟩
  exact ⟨_, closed, rfl, (dead_never_returned closed).1⟩

/-- The peer closes a stored connection, and the next call is handed it. -/
theorem dead_returned : ¬∀ s : State Nat, Runs Step {} s → ¬Haunted s := by
  intro never
  have called : Runs Step ({} : State Nat) _ := .one (.call 9)
  have missed := called.tail ⟨_, @Step.miss _ _ _ 0 _ rfl rfl rfl⟩
  have created := missed.tail ⟨_, @Step.create _ _ _ 0 _ rfl rfl⟩
  have stored := created.tail ⟨_, @Step.store _ _ _ 0 0 _ rfl rfl⟩
  have ended := stored.tail ⟨_, @Step.event _ _ _ 0 EPOLLIN (.ok []) Nat.one_pos⟩
  have again := ended.tail ⟨_, .call 9⟩
  have back := again.tail ⟨_, @Step.hit _ _ _ 1 0 _ rfl rfl rfl⟩
  exact never _ back ⟨1, 0, _, rfl, rfl, List.mem_singleton_self 0⟩

end ConnectionCache
end ReactorRpc
