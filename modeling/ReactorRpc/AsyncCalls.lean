import ReactorRpc.ConnectionCache
import ReactorRpc.PendingCalls

namespace ReactorRpc
open Streams
universe u

namespace ConnectionCache
variable {Addr : Type u} [DecidableEq Addr]

/-- A connection that its peer has not closed and that is held in `connections_`. -/
structure Usable (s : State Addr) (conn : Nat) : Prop where
  opened : conn ∉ s.closed
  held : ∃ addr, s.connections addr = some conn

/-- A step closes a connection, or takes it out of `connections_`. -/
def Drops (s : State Addr) (conn : Nat) : Action Addr → Prop
  | .event c revents result => c = conn ∧ endsConnection revents result = true
  | .close => ∃ addr, s.connections addr = some conn
  | .store k => ∃ (call : GetCall Addr) (c : Nat), s.calls[k]? = some call ∧ call.phase = .created c ∧
      c ≠ conn ∧ s.connections call.addr = some conn ∧
        ∀ addr, s.connections addr = some conn → addr = call.addr
  | _ => False

/-- A usable connection stays usable exactly through the steps that do not drop it. -/
theorem Usable.next_iff {s t : State Addr} {action : Action Addr} {conn : Nat}
    (usable : Usable s conn) (step : Step s action t) : Usable t conn ↔ ¬Drops s conn action := by
  obtain ⟨opened, addr, held⟩ := usable
  cases step with
  | call | hit | miss | fail | create => exact ⟨fun _ => id, fun _ => ⟨opened, addr, held⟩⟩
  | close => exact ⟨fun gone => (nomatch gone.held), fun kept => absurd ⟨addr, held⟩ kept⟩
  | @event c revents result =>
    rw [handleEvent_eq]
    split
    · rename_i gone
      simp only [Drops, gone, and_true]
      constructor
      · rintro ⟨still, _⟩ rfl
        exact still (List.mem_append_right _ (List.mem_singleton_self c))
      · intro other
        refine ⟨fun member => ?_, addr, held⟩
        rcases List.mem_append.mp member with old | new
        · exact opened old
        · exact other (List.mem_singleton.mp new).symm
    · rename_i there
      exact ⟨fun _ drops => there drops.2, fun _ => ⟨opened, addr, held⟩⟩
  | @store k c call here created =>
    constructor
    · rintro ⟨_, place, still⟩ ⟨call', c', here', created', other, _, only⟩
      cases here.symm.trans here'
      cases created.symm.trans created'
      rcases entered_iff.mp still with ⟨_, same⟩ | ⟨elsewhere, old⟩
      · exact other same
      · exact elsewhere (only place old)
    · intro kept
      refine ⟨opened, ?_⟩
      by_cases same : c = conn
      · exact ⟨call.addr, entered_iff.mpr (.inl ⟨rfl, same⟩)⟩
      · by_contra lost
        have only : ∀ place, s.connections place = some conn → place = call.addr := by
          intro place found
          by_contra elsewhere
          exact lost ⟨place, entered_iff.mpr (.inr ⟨elsewhere, found⟩)⟩
        exact kept ⟨call, c, here, created, same, only addr held ▸ held, only⟩

end ConnectionCache

namespace RpcChannel
variable {Conn : Type}

/-- An entry of `pendingAsync_` was there before, or has just been made. -/
theorem entry_before {s t : State Conn} {action : Action Conn} (step : Step s action t) {id : UInt64}
    {k : Nat} (found : t.pendingAsync id = some k) :
    s.pendingAsync id = some k ∨ action = .register k ∧
      ∃ a, s.attempts[k]? = some a ∧ a.kind = .async ∧ a.id = id := by
  cases step with
  | registerAsync here kind =>
    rcases entered_iff.mp found with ⟨rfl, rfl⟩ | ⟨_, old⟩
    · exact .inr ⟨rfl, _, here, kind, rfl⟩
    · exact .inl old
  | asyncHit => exact .inl (erased_iff.mp found).2
  | _ => exact .inl found

/-- An entry of `pendingAsync_` stays, is overwritten, or its callback is run. -/
theorem entry_after {s t : State Conn} {action : Action Conn} (step : Step s action t) {id : UInt64}
    {k : Nat} (found : s.pendingAsync id = some k) :
    t.pendingAsync id = some k ∨ (∃ rsp, t.loop = .running k id rsp) ∨
      ∃ j a, action = .register j ∧ s.attempts[j]? = some a ∧ a.kind = .async ∧ a.id = id := by
  cases step with
  | @registerAsync j a here kind =>
    by_cases same : id = a.id
    · exact .inr (.inr ⟨j, a, rfl, here, kind, same.symm⟩)
    · exact .inl (entered_iff.mpr (.inr ⟨same, found⟩))
  | @asyncHit other rsp j missed hit =>
    by_cases same : id = other
    · subst same
      cases found.symm.trans hit
      exact .inr (.inl ⟨rsp, rfl⟩)
    · exact .inl (erased_iff.mpr ⟨same, found⟩)
  | _ => exact .inl found

/-- What is finished stays finished, and what runs finishes. -/
theorem finished_after {s t : State Conn} {action : Action Conn} (step : Step s action t) {k : Nat}
    (finished : k ∈ s.finished) : k ∈ t.finished := by
  cases step with
  | syncHit | done =>
    rw [finished_push rfl]
    exact List.mem_append_left _ finished
  | _ => exact finished

theorem running_after {s t : State Conn} {action : Action Conn} (step : Step s action t) {k : Nat}
    {id : UInt64} {rsp : RpcResponse} (running : s.loop = .running k id rsp) :
    t.loop = .running k id rsp ∨ k ∈ t.finished := by
  cases step with
  | done now =>
    cases running.symm.trans now
    right
    rw [finished_push rfl]
    exact List.mem_append_right _ (List.mem_singleton_self k)
  | response _ _ now | syncHit now | syncMiss now | asyncHit now | asyncMiss now =>
    cases running.symm.trans now
  | _ => exact .inl running

end RpcChannel

/-- A client channel: its cache of connections, and its calls. -/
structure ClientChannel (Addr : Type u) where
  cache : ConnectionCache.State Addr := {}
  calls : RpcChannel.State Nat := {}

namespace ClientChannel
variable {Addr : Type u}

inductive Action (Addr : Type u)
  | cache (action : ConnectionCache.Action Addr)
  | call (action : RpcChannel.Action Nat)

/-- A call of `getConnection` has returned the connection. -/
def HandedOut (s : ConnectionCache.State Addr) (conn : Nat) : Prop :=
  ∃ (k : Nat) (call : GetCall Addr), s.calls[k]? = some call ∧ call.phase = .returned (some conn)

/-- Every call is made on a connection that `getConnection` has returned. -/
inductive Step [DecidableEq Addr] : ClientChannel Addr → Action Addr → ClientChannel Addr → Prop
  | cache {s : ClientChannel Addr} {action : ConnectionCache.Action Addr}
      {next : ConnectionCache.State Addr} (step : ConnectionCache.Step s.cache action next) :
      Step s (.cache action) { s with cache := next }
  | call {s : ClientChannel Addr} {action : RpcChannel.Action Nat} {next : RpcChannel.State Nat}
      (step : RpcChannel.Step s.calls action next)
      (obtained : ∀ call kind conn request, action = .pack call kind conn request →
        HandedOut s.cache conn) :
      Step s (.call action) { s with calls := next }

/-- An asynchronous call is pending on a connection. -/
def Pending (s : RpcChannel.State Nat) (conn : Nat) : Prop :=
  ∃ id k a, s.pendingAsync id = some k ∧ s.attempts[k]? = some a ∧ a.conn = conn

/-- No connection is closed or dropped while an asynchronous call is pending on it,
and such a call is entered on a usable connection, under an id that has no entry. -/
def Harmless (s : ClientChannel Addr) : Action Addr → Prop
  | .cache action => ∀ conn, ConnectionCache.Drops s.cache conn action → ¬Pending s.calls conn
  | .call (.register k) => ∀ a, s.calls.attempts[k]? = some a → a.kind = .async →
      ConnectionCache.Usable s.cache a.conn ∧ s.calls.pendingAsync a.id = none
  | _ => True

/-- Every pending asynchronous call was made on a connection that is still usable. -/
def Attached (s : ClientChannel Addr) : Prop :=
  ∀ id k a, s.calls.pendingAsync id = some k → s.calls.attempts[k]? = some a →
    ConnectionCache.Usable s.cache a.conn

/-- Every accepted asynchronous call is pending, its `done` runs or has run. -/
def Accounted (s : RpcChannel.State Nat) : Prop :=
  ∀ (k : Nat) (a : Attempt Nat), s.attempts[k]? = some a → a.kind = .async → a.phase ≠ .packed →
    s.pendingAsync a.id = some k ∨ (∃ id rsp, s.loop = .running k id rsp) ∨ k ∈ s.finished

theorem Accounted.next {s t : RpcChannel.State Nat} {action : RpcChannel.Action Nat}
    (accounted : Accounted s) (step : RpcChannel.Step s action t)
    (vacant : ∀ k a, action = .register k → s.attempts[k]? = some a → a.kind = .async →
      s.pendingAsync a.id = none) : Accounted t := by
  intro k a there kind begun
  rcases RpcChannel.attempt_origin step there with ⟨b, here, moved, before⟩ | ⟨_, _, _, _, _, _, rfl⟩
  · have id : b.id = a.id := by rw [moved]
    have same : b.kind = a.kind := by rw [moved]
    by_cases registers : action = .register k
    · subst registers
      cases step with
      | registerSync here' sync =>
        cases here.symm.trans here'
        rw [← same, sync] at kind
        cases kind
      | registerAsync here' =>
        cases here.symm.trans here'
        rw [← id]
        exact .inl (Function.update_self ..)
    · rcases accounted k b here (same.trans kind) (before begun registers) with
        entry | ⟨id', rsp, running⟩ | finished
      · rcases RpcChannel.entry_after step entry with kept | ⟨rsp, running⟩ | ⟨j, other, act, atJ, async, clash⟩
        · exact .inl (id ▸ kept)
        · exact .inr (.inl ⟨b.id, rsp, running⟩)
        · have none := vacant j other act atJ async
          rw [clash, entry] at none
          cases none
      · rcases RpcChannel.running_after step running with still | finished
        · exact .inr (.inl ⟨id', rsp, still⟩)
        · exact .inr (.inr finished)
      · exact .inr (.inr (RpcChannel.finished_after step finished))
  · exact absurd rfl begun

theorem Attached.call {s : ClientChannel Addr} {action : RpcChannel.Action Nat}
    {next : RpcChannel.State Nat} (attached : Attached s) (consistent : RpcChannel.Consistent s.calls)
    (harmless : Harmless s (.call action)) (step : RpcChannel.Step s.calls action next) :
    Attached { s with calls := next } := by
  intro id k a found there
  rcases RpcChannel.entry_before step found with old | ⟨rfl, b, here, kind, _⟩
  · obtain ⟨b, here, _⟩ := consistent.async id k old
    rcases RpcChannel.attempt_origin step there with ⟨b', here', moved, _⟩ | ⟨last, _⟩
    · rw [moved]
      exact attached id k b' old here'
    · have inside := (List.getElem?_eq_some_iff.mp here).1
      omega
  · rcases RpcChannel.attempt_origin step there with ⟨b', here', moved, _⟩ | ⟨last, _⟩
    · cases here.symm.trans here'
      rw [moved]
      exact (harmless b here kind).1
    · have inside := (List.getElem?_eq_some_iff.mp here).1
      omega

/-- Entering an asynchronous call keeps the account only on a usable connection and
under a free id. -/
theorem Attached.registered {s : ClientChannel Addr} {k : Nat} {next : RpcChannel.State Nat}
    (consistent : RpcChannel.Consistent s.calls)
    (step : RpcChannel.Step s.calls (.register k) next) (attached : Attached { s with calls := next })
    (accounted : Accounted next) : Harmless s (.call (.register k)) := by
  intro a here kind
  cases step with
  | registerSync here' sync =>
    cases here.symm.trans here'
    cases kind.symm.trans sync
  | registerAsync here' kind' packed =>
    cases here.symm.trans here'
    constructor
    · exact attached a.id k { a with phase := .registered } (Function.update_self ..)
        (threads_set_self here _)
    · by_contra taken
      obtain ⟨j, found⟩ := Option.ne_none_iff_exists'.mp taken
      obtain ⟨b, atJ, id, async, begun, unfinished, still⟩ := consistent.async a.id j found
      have other : j ≠ k := by
        rintro rfl
        cases here.symm.trans atJ
        exact begun packed
      rcases accounted j b (threads_set_other other atJ _) async begun with
        entry | ⟨id', rsp, running⟩ | finished
      · rw [id] at entry
        exact other (Option.some.inj (entry.symm.trans (Function.update_self ..)))
      · exact still id' rsp running
      · exact unfinished finished

/-- What holds of a channel as long as no asynchronous call is orphaned. -/
structure Sound (s : ClientChannel Addr) : Prop where
  consistent : RpcChannel.Consistent s.calls
  attached : Attached s
  accounted : Accounted s.calls

theorem Sound.start : Sound ({} : ClientChannel Addr) where
  consistent := RpcChannel.consistent_new
  attached _ _ _ found := nomatch found
  accounted := nofun

/-- The `done` of an accepted call whose connection is gone runs or has run, once. -/
theorem Sound.gone {s : ClientChannel Addr} (sound : Sound s) {k : Nat} {a : Attempt Nat}
    (here : s.calls.attempts[k]? = some a) (kind : a.kind = .async) (begun : a.phase ≠ .packed)
    (gone : ¬ConnectionCache.Usable s.cache a.conn) :
    (∃ id rsp, s.calls.loop = .running k id rsp) ∨ s.calls.finished.count k = 1 := by
  rcases sound.accounted k a here kind begun with entry | running | finished
  · exact absurd (sound.attached a.id k a entry here) gone
  · exact .inl running
  · exact .inr (List.count_eq_one_of_mem sound.consistent.once finished)

variable [DecidableEq Addr]

theorem Attached.cache_iff {s : ClientChannel Addr} {action : ConnectionCache.Action Addr}
    {next : ConnectionCache.State Addr} (attached : Attached s)
    (step : ConnectionCache.Step s.cache action next) :
    Attached { s with cache := next } ↔ Harmless s (.cache action) := by
  constructor
  · rintro still conn drops ⟨id, k, a, found, here, rfl⟩
    exact ((attached id k a found here).next_iff step).mp (still id k a found here) drops
  · intro harmless id k a found here
    refine ((attached id k a found here).next_iff step).mpr fun drops => ?_
    exact harmless a.conn drops ⟨id, k, a, found, here, rfl⟩

/-- A step keeps every asynchronous call attached and accounted for exactly when
it is harmless. -/
theorem Sound.next_iff {s t : ClientChannel Addr} {action : Action Addr} (sound : Sound s)
    (step : Step s action t) : Attached t ∧ Accounted t.calls ↔ Harmless s action := by
  cases step with
  | cache step =>
    rw [sound.attached.cache_iff step]
    exact and_iff_left sound.accounted
  | @call action next step =>
    constructor
    · rintro ⟨attached, accounted⟩
      cases action with
      | register k => exact attached.registered sound.consistent step accounted
      | _ => trivial
    · intro harmless
      refine ⟨sound.attached.call sound.consistent harmless step, sound.accounted.next step ?_⟩
      rintro k a rfl here kind
      exact (harmless a here kind).2

theorem Sound.next {s t : ClientChannel Addr} {action : Action Addr} (sound : Sound s)
    (harmless : Harmless s action) (step : Step s action t) : Sound t := by
  obtain ⟨attached, accounted⟩ := (sound.next_iff step).mpr harmless
  refine ⟨?_, attached, accounted⟩
  cases step with
  | cache => exact sound.consistent
  | call step => exact sound.consistent.step step

/-- As long as no connection is closed or dropped while an asynchronous call is
pending on it, and calls are entered on usable connections under free ids, every
pending call was made on a usable connection, and the `done` of a call whose
connection is gone runs or has run, once; any other step orphans a call. -/
theorem async_attached {s : ClientChannel Addr} (run : Runs (Restricted Harmless Step) {} s) :
    Attached s ∧
    (∀ (k : Nat) (a : Attempt Nat), s.calls.attempts[k]? = some a → a.kind = .async →
      a.phase ≠ .packed → ¬ConnectionCache.Usable s.cache a.conn →
        (∃ id rsp, s.calls.loop = .running k id rsp) ∨ s.calls.finished.count k = 1) ∧
    (∀ k, s.calls.finished.count k ≤ 1) ∧
    ∀ action t, Step s action t → (Attached t ∧ Accounted t.calls ↔ Harmless s action) := by
  have sound : Sound s := run.kept (P := Sound) (fun _ _ _ => Sound.next) Sound.start
  refine ⟨sound.attached, fun k a here kind begun => sound.gone here kind begun, ?_, ?_⟩
  · exact List.nodup_iff_count_le_one.mp sound.consistent.once
  · exact fun action t step => sound.next_iff step

/-- An asynchronous call is answered, and only then its connection is closed. -/
theorem async_attached_answered : ∃ s : ClientChannel Nat, Runs (Restricted Harmless Step) {} s ∧
    s.cache.closed = [0] ∧ Attached s ∧ s.calls.finished.count 0 = 1 := by
  let attempt (phase : AttemptPhase) : Attempt Nat := ⟨0, .async, 0, {}, 0, phase, none⟩
  have first : ∀ (call : Nat) (kind : CallKind) (conn : Nat) (request : RpcRequest),
      RpcChannel.Action.pack 0 .async 0 {} = .pack call kind conn request →
        @HandedOut Nat
          { connections := Function.update (fun _ => none) 9 (some 0), created := [9],
            calls := [⟨9, [], .returned (some 0)⟩] } conn := by
    intro call kind conn request same
    cases same
    exact ⟨0, _, rfl, rfl⟩
  have start : Runs (Restricted Harmless Step) ({} : ClientChannel Nat) _ := .refl
  have called := start.allow (.cache (.call 9)) nofun
  have missed := called.allow (.cache (@ConnectionCache.Step.miss _ _ _ 0 _ rfl rfl rfl)) nofun
  have created := missed.allow (.cache (@ConnectionCache.Step.create _ _ _ 0 _ rfl rfl)) nofun
  have stored := created.allow (.cache (@ConnectionCache.Step.store _ _ _ 0 0 _ rfl rfl))
    fun conn _ pending => nomatch pending
  have packed := stored.allow (.call (.pack 0 .async 0 {}) first) trivial
  have registered := packed.allow
    (.call (@RpcChannel.Step.registerAsync _ _ 0 (attempt .packed) rfl rfl rfl) nofun) ?_
  · have sent := registered.allow
      (.call (@RpcChannel.Step.send _ _ 0 (attempt .registered) rfl rfl) nofun) trivial
    have parsed := sent.allow (.call (.response 0 {} rfl) nofun) trivial
    have notSync := parsed.allow (.call (.syncMiss rfl rfl) nofun) trivial
    have hit := notSync.allow (.call (@RpcChannel.Step.asyncHit _ _ 0 {} 0 rfl rfl) nofun) trivial
    have done := hit.allow (.call (.done rfl) nofun) trivial
    have closed := done.allow (.cache (@ConnectionCache.Step.event _ _ _ 0 EPOLLIN (.ok []) Nat.one_pos)) ?_
    · have result := async_attached closed
      refine ⟨_, closed, rfl, result.1, ?_⟩
      refine (result.2.1 0 (attempt .sent) rfl rfl nofun ?_).resolve_left nofun
      exact fun usable => usable.opened (List.mem_singleton_self 0)
    · rintro conn _ ⟨id, k, a, found, _⟩
      obtain ⟨other, before⟩ := erased_iff.mp found
      rcases entered_iff.mp before with ⟨same, _⟩ | ⟨_, old⟩
      · exact other same
      · cases old
  · rintro a here _
    cases here
    exact ⟨⟨nofun, 9, rfl⟩, rfl⟩

/-- A peer that closes a connection with an asynchronous call pending on it
orphans the call. -/
theorem async_orphaned : ¬∀ s : ClientChannel Nat, Runs Step {} s → Attached s := by
  intro always
  let attempt (phase : AttemptPhase) : Attempt Nat := ⟨0, .async, 0, {}, 0, phase, none⟩
  have called : Runs Step ({} : ClientChannel Nat) _ := .one (.cache (.call 9))
  have missed := called.tail ⟨_, .cache (@ConnectionCache.Step.miss _ _ _ 0 _ rfl rfl rfl)⟩
  have created := missed.tail ⟨_, .cache (@ConnectionCache.Step.create _ _ _ 0 _ rfl rfl)⟩
  have stored := created.tail ⟨_, .cache (@ConnectionCache.Step.store _ _ _ 0 0 _ rfl rfl)⟩
  have packed := stored.tail ⟨_, .call (.pack 0 .async 0 {}) fun _ _ _ _ same => by
    cases same
    exact ⟨0, _, rfl, rfl⟩⟩
  have registered := packed.tail
    ⟨_, .call (@RpcChannel.Step.registerAsync _ _ 0 (attempt .packed) rfl rfl rfl) nofun⟩
  have sent := registered.tail ⟨_, .call (@RpcChannel.Step.send _ _ 0 (attempt .registered) rfl rfl) nofun⟩
  have closed := sent.tail
    ⟨_, .cache (@ConnectionCache.Step.event _ _ _ 0 EPOLLIN (.ok []) Nat.one_pos)⟩
  have usable := always _ closed 0 0 (attempt .sent) rfl rfl
  exact usable.opened (List.mem_singleton_self 0)

end ClientChannel
end ReactorRpc
