import ReactorRpc.CallMethod

namespace ReactorRpc
open Streams

namespace LoadBalancer

/-- The address selected with the `j`-th number that `fetch_add` draws from `index` on. -/
def ticket (index : UInt32) (addrs : List Bytes) (j : Nat) : Bytes :=
  addrs.getD ((index + UInt32.ofNat j).toNat % addrs.length) []

theorem ticket_mem {addrs : List Bytes} (some_ : addrs ≠ []) (index : UInt32) (j : Nat) :
    ticket index addrs j ∈ addrs := by
  have inside := Nat.mod_lt (index + UInt32.ofNat j).toNat (List.length_pos_iff.mpr some_)
  rw [ticket, List.getD_eq_getElem?_getD, List.getElem?_eq_getElem inside]
  exact List.getElem_mem inside

end LoadBalancer

/-- How many steps are left of an attempt at most, counting two for its return. -/
def AttemptPhase.left : AttemptPhase → Nat
  | .packed => 6
  | .registered => 5
  | .sent => 4
  | .timedOut => 3
  | .returned _ => 2

namespace RpcChannel
variable {Conn : Type}

/-- The attempt that an action of its own thread moves on. -/
def Action.moves : Action Conn → Option Nat
  | .register k => some k
  | .send k => some k
  | .timeout k => some k
  | .removePending k => some k
  | .get k => some k
  | _ => none

/-- No step takes an attempt back, and one of its own thread takes it forward. -/
theorem attempt_after {s t : State Conn} {action : Action Conn} (step : Step s action t) {k : Nat}
    {a : Attempt Conn} (here : s.attempts[k]? = some a) :
    ∃ b, t.attempts[k]? = some b ∧ b.kind = a.kind ∧ b.phase.left ≤ a.phase.left ∧
      (action.moves = some k → b.phase.left < a.phase.left) := by
  have moved : ∀ {j : Nat} {x y : Attempt Conn}, s.attempts[j]? = some x → y.kind = x.kind →
      y.phase.left < x.phase.left → ∃ b, (s.attempts.set j y)[k]? = some b ∧ b.kind = a.kind ∧
        b.phase.left ≤ a.phase.left ∧ (some j = some k → b.phase.left < a.phase.left) := by
    intro j x y there kind less
    by_cases same : k = j
    · subst same
      cases here.symm.trans there
      exact ⟨y, threads_set_self here y, kind, Nat.le_of_lt less, fun _ => less⟩
    · refine ⟨a, threads_set_other same here y, rfl, le_rfl, fun other => ?_⟩
      exact absurd (Option.some.inj other).symm same
  cases step with
  | pack => exact ⟨a, threads_append_iff.mpr (.inl here), rfl, le_rfl, fun none => (nomatch none)⟩
  | registerSync there _ phase | registerAsync there _ phase | send there phase =>
    exact moved there rfl (by rw [phase]; simp only [AttemptPhase.left]; omega)
  | timeout there _ phase _ | removePending there phase | get there _ phase _ =>
    exact moved there rfl (by rw [phase]; simp only [AttemptPhase.left]; omega)
  | @syncHit id rsp j x _ _ there =>
    by_cases same : k = j
    · subst same
      cases here.symm.trans there
      exact ⟨_, threads_set_self here _, rfl, le_rfl, fun none => (nomatch none)⟩
    · exact ⟨a, threads_set_other same here _, rfl, le_rfl, fun none => (nomatch none)⟩
  | response | syncMiss | asyncHit | asyncMiss | done =>
    exact ⟨a, here, rfl, le_rfl, fun none => (nomatch none)⟩

end RpcChannel

/-- The address that the current `doCall` has selected. -/
def CallPhase.addr {Conn : Type} : CallPhase Conn → Option Bytes
  | .connecting addr => some addr
  | .connected addr _ => some addr
  | .waiting addr _ => some addr
  | _ => none

namespace SyncCall
variable {Conn Msg : Type} {c : SyncCall Msg} {base : Nat} {s t : State Conn Msg}

/-- The attempt that the call waits for is one of the channel. -/
def Current (s : State Conn Msg) : Prop :=
  ∀ addr k, s.phase = .waiting addr k → ∃ a, s.channel.attempts[k]? = some a ∧ a.kind = .sync

theorem Current.step (current : Current s) {action : Action Conn} (step : Step c s action t) :
    Current t := by
  cases step with
  | pack _ step =>
    intro addr k phase
    cases phase
    cases step
    exact ⟨_, threads_append_iff.mpr (.inr ⟨rfl, rfl⟩), rfl⟩
  | channel step _ =>
    intro addr k phase
    obtain ⟨a, here, sync⟩ := current addr k phase
    obtain ⟨b, there, kind, _⟩ := RpcChannel.attempt_after step here
    exact ⟨b, there, kind.trans sync⟩
  | otherSelect => exact current
  | _ =>
    intro addr k phase
    cases phase

/-- A step of the thread of the call. -/
def Own (s : State Conn Msg) : Action Conn → Prop
  | .channel action => ∃ addr k, s.phase = .waiting addr k ∧ action.moves = some k
  | .otherSelect => False
  | _ => True

/-- How many steps the thread of the call has before it at most. -/
def left (c : SyncCall Msg) (s : State Conn Msg) : Nat :=
  match s.phase with
  | .retry => 10 * (c.limit + 1 - s.i)
  | .addressing => 10 * (c.limit - s.i) + 9
  | .connecting _ => 10 * (c.limit - s.i) + 8
  | .connected _ _ => 10 * (c.limit - s.i) + 7
  | .waiting _ k => 10 * (c.limit - s.i) + (s.channel.attempts[k]?).elim 0 fun a => a.phase.left
  | .failed => 10 * (c.limit - s.i) + 1
  | .returned => 0
  | .threw => 0

/-- While the call is in progress, all `getAddresses` returns is the list `addrs`, and
no other call selects an address. -/
def Steady (addrs : List Bytes) : Action Conn → Prop
  | .select list _ => list = addrs
  | .getAddressesThrew => False
  | .otherSelect => False
  | _ => True

/-- The `doCall`s of a call take the tickets behind `index` one after the other. -/
structure Ticketed (index : UInt32) (addrs : List Bytes) (s : State Conn Msg) : Prop where
  robin : s.loadBalancer.type = .ROUND_ROBIN
  drawn : s.loadBalancer.index =
    index + UInt32.ofNat (s.done.length + s.phase.addr.toList.length)
  done : ∀ j x, s.done[j]? = some x → x.addr = some (LoadBalancer.ticket index addrs j)
  current : ∀ addr, s.phase.addr = some addr → addr = LoadBalancer.ticket index addrs s.done.length
  calm : s.phase ≠ .threw

theorem Ticketed.start {channel : RpcChannel.State Conn} {balancer : LoadBalancer} {addrs : List Bytes}
    (robin : balancer.type = .ROUND_ROBIN) : Ticketed balancer.index addrs (c.start channel balancer) where
  robin := robin
  drawn := (UInt32.add_zero _).symm
  done j x there := by cases there
  current addr selected := by cases selected
  calm threw := by cases threw

section
variable {index : UInt32} {addrs : List Bytes}

/-- The selected address, if any, is that of the next ticket. -/
theorem Ticketed.of_same (ticketed : Ticketed index addrs s) (balancer : t.loadBalancer = s.loadBalancer)
    (done : t.done = s.done) (addr : t.phase.addr = s.phase.addr) (calm : t.phase ≠ .threw) :
    Ticketed index addrs t where
  robin := balancer ▸ ticketed.robin
  drawn := by rw [balancer, done, addr, ticketed.drawn]
  done := done ▸ ticketed.done
  current := by
    rw [addr, done]
    exact ticketed.current
  calm := calm

/-- A `doCall` for the selected address returns. -/
theorem Ticketed.back (ticketed : Ticketed index addrs s) {addr : Bytes} {ok : Bool}
    (selected : s.phase.addr = some addr) (balancer : t.loadBalancer = s.loadBalancer)
    (done : t.done = s.done ++ [⟨some addr, ok⟩]) (none_ : t.phase.addr = none) (calm : t.phase ≠ .threw) :
    Ticketed index addrs t where
  robin := balancer ▸ ticketed.robin
  drawn := by
    rw [balancer, ticketed.drawn, selected, none_, done, List.length_append]
    rfl
  done j x there := by
    rw [done] at there
    rcases threads_append_iff.mp there with old | ⟨rfl, rfl⟩
    · exact ticketed.done j x old
    · rw [ticketed.current addr selected]
  current addr selected := by
    rw [none_] at selected
    cases selected
  calm := calm

theorem Ticketed.next (ticketed : Ticketed index addrs s) (some_ : addrs ≠ [])
    (wellFormed : ∀ addr ∈ addrs, WellFormed addr) {action : Action Conn}
    (steady : Steady addrs action) (step : Step c s action t) : Ticketed index addrs t := by
  cases step with
  | again head _ => exact ticketed.of_same rfl rfl (by rw [head]; rfl) nofun
  | exhausted head _ => exact ticketed.of_same rfl rfl (by rw [head]; rfl) nofun
  | noServers _ _ => exact absurd steady.symm some_
  | @select list draw addressing _ _ =>
    cases steady
    have before := ticketed.drawn
    simp only [addressing, CallPhase.addr, Option.toList_none, List.length_nil, Nat.add_zero] at before
    simp only [LoadBalancer.select, if_neg some_, ticketed.robin]
    constructor
    · rfl
    · simp only [CallPhase.addr, Option.toList_some, List.length_singleton, before, UInt32.ofNat_add,
        UInt32.add_assoc]
      rfl
    · exact ticketed.done
    · intro addr selected
      cases selected
      rw [LoadBalancer.ticket, before]
    · exact nofun
  | getAddressesThrew _ => exact steady.elim
  | noConnection connecting _ => exact ticketed.back (by rw [connecting]; rfl) rfl rfl rfl nofun
  | connect _ connecting _ => exact ticketed.of_same rfl rfl (by rw [connecting]; rfl) nofun
  | @getConnectionThrew addr connecting invalid =>
    have current := ticketed.current addr (by rw [connecting]; rfl)
    obtain ⟨ip, port, good⟩ := wellFormed addr (current ▸ LoadBalancer.ticket_mem some_ _ _)
    cases invalid.symm.trans good
  | pack connected _ => exact ticketed.of_same rfl rfl (by rw [connected]; rfl) nofun
  | fail waiting _ _ => exact ticketed.back (by rw [waiting]; rfl) rfl rfl rfl nofun
  | succeed waiting _ _ => exact ticketed.back (by rw [waiting]; rfl) rfl rfl rfl nofun
  | reset failed => exact ticketed.of_same rfl rfl (by rw [failed]; rfl) nofun
  | channel _ _ => exact ticketed.of_same rfl rfl rfl ticketed.calm
  | otherSelect => exact steady.elim

end

end SyncCall
end ReactorRpc
