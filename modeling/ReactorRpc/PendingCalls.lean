import Mathlib.Data.List.Nodup
import ReactorRpc.ClientStream
import ReactorRpc.Library.Entries
import ReactorRpc.Library.Runs
import ReactorRpc.Library.Threads

namespace ReactorRpc
open Streams

inductive CallKind
  | sync
  | async
  deriving DecidableEq

/-- Where an attempt is: in `doCall` or `doCallAsync` with its request packed,
entered into its table, sent (and, if synchronous, waited for), given up by
`wait_for`, or back from `doCall`. -/
inductive AttemptPhase
  | packed
  | registered
  | sent
  | timedOut
  | returned (result : CallResult)
  deriving DecidableEq

/-- A run of `doCall` or of `doCallAsync` for a call of `CallMethod`, which
makes another one for each retry. -/
structure Attempt (Conn : Type) where
  call : Nat
  kind : CallKind
  conn : Conn
  request : RpcRequest
  id : UInt64
  phase : AttemptPhase := .packed
  future : Option RpcResponse := none

/-- A promise set, or a callback run, with a response that carried `id`. -/
structure Completion where
  attempt : Nat
  id : UInt64
  rsp : RpcResponse
  deriving DecidableEq

/-- Where the loop thread is in `onRpcResponse`. -/
inductive ResponsePhase
  | idle
  | parsed (id : UInt64) (rsp : RpcResponse)
  | syncMissed (id : UInt64) (rsp : RpcResponse)
  | running (attempt : Nat) (id : UInt64) (rsp : RpcResponse)
  deriving DecidableEq

namespace RpcChannel

/-- A channel: its counter and tables, the attempts in the order of their ids,
its loop thread and what that has completed. -/
structure State (Conn : Type) where
  nextId : UInt64 := 0
  pendingSync : PendingTable Nat := fun _ => none
  pendingAsync : PendingTable Nat := fun _ => none
  attempts : List (Attempt Conn) := []
  loop : ResponsePhase := .idle
  completed : List Completion := []

inductive Action (Conn : Type)
  | pack (call : Nat) (kind : CallKind) (conn : Conn) (request : RpcRequest)
  | register (k : Nat)
  | send (k : Nat)
  | timeout (k : Nat)
  | removePending (k : Nat)
  | get (k : Nat)
  | response (id : UInt64) (rsp : RpcResponse)
  | findSync
  | findAsync
  | done

variable {Conn : Type}

/-- What `doCall` leaves when `wait_for` has timed out. -/
def timeoutResult : CallResult := .setFailed (asciiText "request timeout")

/-- The steps of the threads that call and of the loop thread. Each locked
section is one step, as are `fetch_add`, `send`, `wait_for` and the callback. -/
inductive Step : State Conn → Action Conn → State Conn → Prop
  | pack {s : State Conn} (call : Nat) (kind : CallKind) (conn : Conn) (request : RpcRequest) :
      Step s (.pack call kind conn request)
        { s with
          nextId := s.nextId + 1
          attempts := s.attempts ++ [{ call, kind, conn, request, id := s.nextId }] }
  | registerSync {s : State Conn} {k : Nat} {a : Attempt Conn} (here : s.attempts[k]? = some a)
      (kind : a.kind = .sync) (packed : a.phase = .packed) :
      Step s (.register k)
        { s with
          pendingSync := s.pendingSync.insert a.id k
          attempts := s.attempts.set k { a with phase := .registered } }
  | registerAsync {s : State Conn} {k : Nat} {a : Attempt Conn} (here : s.attempts[k]? = some a)
      (kind : a.kind = .async) (packed : a.phase = .packed) :
      Step s (.register k)
        { s with
          pendingAsync := s.pendingAsync.insert a.id k
          attempts := s.attempts.set k { a with phase := .registered } }
  | send {s : State Conn} {k : Nat} {a : Attempt Conn} (here : s.attempts[k]? = some a)
      (registered : a.phase = .registered) :
      Step s (.send k) { s with attempts := s.attempts.set k { a with phase := .sent } }
  | timeout {s : State Conn} {k : Nat} {a : Attempt Conn} (here : s.attempts[k]? = some a)
      (kind : a.kind = .sync) (waiting : a.phase = .sent) (unset : a.future = none) :
      Step s (.timeout k) { s with attempts := s.attempts.set k { a with phase := .timedOut } }
  | removePending {s : State Conn} {k : Nat} {a : Attempt Conn} (here : s.attempts[k]? = some a)
      (late : a.phase = .timedOut) :
      Step s (.removePending k)
        { s with
          pendingSync := s.pendingSync.erase a.id
          attempts := s.attempts.set k { a with phase := .returned timeoutResult } }
  | get {s : State Conn} {k : Nat} {a : Attempt Conn} {rsp : RpcResponse}
      (here : s.attempts[k]? = some a) (kind : a.kind = .sync) (waiting : a.phase = .sent)
      (set : a.future = some rsp) :
      Step s (.get k)
        { s with attempts := s.attempts.set k { a with phase := .returned (callResult rsp) } }
  | response {s : State Conn} (id : UInt64) (rsp : RpcResponse) (idle : s.loop = .idle) :
      Step s (.response id rsp) { s with loop := .parsed id rsp }
  | syncHit {s : State Conn} {id : UInt64} {rsp : RpcResponse} {k : Nat} {a : Attempt Conn}
      (parsed : s.loop = .parsed id rsp) (found : s.pendingSync id = some k)
      (here : s.attempts[k]? = some a) :
      Step s .findSync
        { s with
          pendingSync := s.pendingSync.erase id
          attempts := s.attempts.set k { a with future := some rsp }
          loop := .idle
          completed := s.completed ++ [⟨k, id, rsp⟩] }
  | syncMiss {s : State Conn} {id : UInt64} {rsp : RpcResponse} (parsed : s.loop = .parsed id rsp)
      (missing : s.pendingSync id = none) :
      Step s .findSync { s with loop := .syncMissed id rsp }
  | asyncHit {s : State Conn} {id : UInt64} {rsp : RpcResponse} {k : Nat}
      (missed : s.loop = .syncMissed id rsp) (found : s.pendingAsync id = some k) :
      Step s .findAsync
        { s with pendingAsync := s.pendingAsync.erase id, loop := .running k id rsp }
  | asyncMiss {s : State Conn} {id : UInt64} {rsp : RpcResponse}
      (missed : s.loop = .syncMissed id rsp) (missing : s.pendingAsync id = none) :
      Step s .findAsync { s with loop := .idle }
  | done {s : State Conn} {k : Nat} {id : UInt64} {rsp : RpcResponse}
      (running : s.loop = .running k id rsp) :
      Step s .done { s with loop := .idle, completed := s.completed ++ [⟨k, id, rsp⟩] }

/-- The attempts whose promise has been set or whose callback has run. -/
def State.finished (s : State Conn) : List Nat := s.completed.map Completion.attempt

theorem finished_push {s t : State Conn} {c : Completion} (pushed : t.completed = s.completed ++ [c]) :
    t.finished = s.finished ++ [c.attempt] := by
  rw [State.finished, pushed, List.map_append]
  rfl

/-- An attempt that can have an entry in a table. -/
def AttemptPhase.Open : AttemptPhase → Prop
  | .registered => True
  | .sent => True
  | .timedOut => True
  | _ => False

/-- The counter, the attempts, the tables, the loop thread and the completions
agree with each other. -/
structure Consistent (s : State Conn) : Prop where
  next : s.nextId = UInt64.ofNat s.attempts.length
  ids : ∀ k a, s.attempts[k]? = some a → a.id = UInt64.ofNat k
  sync : ∀ id k, s.pendingSync id = some k → ∃ a, s.attempts[k]? = some a ∧ a.id = id ∧
    a.kind = .sync ∧ AttemptPhase.Open a.phase ∧ a.future = none
  async : ∀ id k, s.pendingAsync id = some k → ∃ a, s.attempts[k]? = some a ∧ a.id = id ∧
    a.kind = .async ∧ a.phase ≠ .packed ∧ k ∉ s.finished ∧ ∀ id rsp, s.loop ≠ .running k id rsp
  running : ∀ k id rsp, s.loop = .running k id rsp → ∃ a, s.attempts[k]? = some a ∧ a.id = id ∧
    a.kind = .async ∧ a.phase ≠ .packed ∧ k ∉ s.finished
  completed : ∀ c ∈ s.completed, ∃ a, s.attempts[c.attempt]? = some a ∧ a.id = c.id ∧
    a.phase ≠ .packed ∧ (a.kind = .sync → a.future = some c.rsp)
  once : s.finished.Nodup
  future : ∀ k a rsp, s.attempts[k]? = some a → a.future = some rsp →
    a.kind = .sync ∧ ⟨k, a.id, rsp⟩ ∈ s.completed

theorem consistent_new : Consistent ({} : State Conn) where
  next := rfl
  ids := by intro k a here; cases here
  sync := by intro id k found; cases found
  async := by intro id k found; cases found
  running := by intro k id rsp loop; cases loop
  completed := by intro c there; cases there
  once := .nil
  future := by intro k a rsp here; cases here

/-- No two attempts share an id unless more than 2^64 have been drawn from the first of them on. -/
theorem Consistent.distinct_since {s : State Conn} (inv : Consistent s) {base : Nat}
    (few : s.attempts.length ≤ base + 2 ^ 64) {j k : Nat} {a b : Attempt Conn} (afterJ : base ≤ j)
    (afterK : base ≤ k) (atJ : s.attempts[j]? = some a) (atK : s.attempts[k]? = some b)
    (same : a.id = b.id) : j = k := by
  have boundJ := (List.getElem?_eq_some_iff.mp atJ).1
  have boundK := (List.getElem?_eq_some_iff.mp atK).1
  rw [inv.ids j a atJ, inv.ids k b atK] at same
  have values := congrArg UInt64.toNat same
  rw [UInt64.toNat_ofNat', UInt64.toNat_ofNat'] at values
  omega

/-- As long as fewer than 2^64 ids have been drawn, no two attempts share one. -/
theorem Consistent.distinct {s : State Conn} (inv : Consistent s) (few : s.attempts.length < 2 ^ 64)
    {j k : Nat} {a b : Attempt Conn} (atJ : s.attempts[j]? = some a) (atK : s.attempts[k]? = some b)
    (same : a.id = b.id) : j = k :=
  inv.distinct_since (by omega) (Nat.zero_le j) (Nat.zero_le k) atJ atK same

/-- What has finished had been entered, and the promise of a synchronous attempt is set. -/
theorem Consistent.of_finished {s : State Conn} (inv : Consistent s) {k : Nat} {a : Attempt Conn}
    (here : s.attempts[k]? = some a) (finished : k ∈ s.finished) :
    a.phase ≠ .packed ∧ (a.kind = .sync → a.future ≠ none) := by
  obtain ⟨c, there, rfl⟩ := List.mem_map.mp finished
  obtain ⟨b, atK, _, opened, set⟩ := inv.completed c there
  cases here.symm.trans atK
  refine ⟨opened, fun sync => ?_⟩
  rw [set sync]
  exact nofun

/-- An attempt that its entry in `pendingSync_` is found for. -/
structure Waits (s : State Conn) (id : UInt64) (k : Nat) (a : Attempt Conn) : Prop where
  id : a.id = id
  kind : a.kind = .sync
  opened : AttemptPhase.Open a.phase
  unset : a.future = none
  unfinished : k ∉ s.finished

theorem Consistent.waits {s : State Conn} (inv : Consistent s) {id : UInt64} {k : Nat} {a : Attempt Conn}
    (found : s.pendingSync id = some k) (here : s.attempts[k]? = some a) : Waits s id k a := by
  obtain ⟨b, there, same, kind, opened, unset⟩ := inv.sync id k found
  cases here.symm.trans there
  exact ⟨same, kind, opened, unset, fun finished => (inv.of_finished here finished).2 kind unset⟩

/-- Nothing has happened yet to an attempt that is not in a table. -/
theorem Consistent.fresh {s : State Conn} (inv : Consistent s) {k : Nat} {a : Attempt Conn}
    (here : s.attempts[k]? = some a) (packed : a.phase = .packed) :
    a.future = none ∧ k ∉ s.finished ∧ ∀ id rsp, s.loop ≠ .running k id rsp := by
  have unfinished : k ∉ s.finished := fun finished => (inv.of_finished here finished).1 packed
  refine ⟨?_, unfinished, ?_⟩
  · cases future : a.future with
    | none => rfl
    | some rsp =>
      have there := (inv.future k a rsp here future).2
      exact absurd (List.mem_map.mpr ⟨_, there, rfl⟩) unfinished
  · intro id rsp running
    obtain ⟨b, atK, _, _, opened, _⟩ := inv.running k id rsp running
    cases here.symm.trans atK
    exact opened packed

theorem Consistent.ids_set {s : State Conn} (inv : Consistent s) {k : Nat} {a b : Attempt Conn}
    (here : s.attempts[k]? = some a) (same : b.id = a.id) (j : Nat) (c : Attempt Conn)
    (there : (s.attempts.set k b)[j]? = some c) : c.id = UInt64.ofNat j := by
  rcases (threads_set_iff here).mp there with ⟨rfl, rfl⟩ | ⟨_, there⟩
  · exact same.trans (inv.ids j a here)
  · exact inv.ids j c there

/-- An attempt moves on to another phase. -/
theorem Consistent.move {s : State Conn} (inv : Consistent s) {k : Nat} {a : Attempt Conn}
    (here : s.attempts[k]? = some a) {phase : AttemptPhase} (opened : phase ≠ .packed)
    (entry : ∀ id, s.pendingSync id = some k → AttemptPhase.Open phase) :
    Consistent { s with attempts := s.attempts.set k { a with phase } } := by
  have mine : (s.attempts.set k { a with phase })[k]? = some { a with phase } :=
    threads_set_self here _
  have other : ∀ j b, j ≠ k → s.attempts[j]? = some b →
      (s.attempts.set k { a with phase })[j]? = some b :=
    fun j b differ there => threads_set_other differ there _
  constructor
  · simpa only [List.length_set] using inv.next
  · exact inv.ids_set here rfl
  · intro id j found
    obtain ⟨b, there, same, kind, phases, unset⟩ := inv.sync id j found
    by_cases at_k : j = k
    · subst j
      cases here.symm.trans there
      exact ⟨_, mine, same, kind, entry id found, unset⟩
    · exact ⟨b, other j b at_k there, same, kind, phases, unset⟩
  · intro id j found
    obtain ⟨b, there, same, kind, begun, rest⟩ := inv.async id j found
    by_cases at_k : j = k
    · subst j
      cases here.symm.trans there
      exact ⟨_, mine, same, kind, opened, rest⟩
    · exact ⟨b, other j b at_k there, same, kind, begun, rest⟩
  · intro j id rsp running
    obtain ⟨b, there, same, kind, begun, rest⟩ := inv.running j id rsp running
    by_cases at_k : j = k
    · subst j
      cases here.symm.trans there
      exact ⟨_, mine, same, kind, opened, rest⟩
    · exact ⟨b, other j b at_k there, same, kind, begun, rest⟩
  · intro c there
    obtain ⟨b, atC, same, begun, set⟩ := inv.completed c there
    by_cases at_k : c.attempt = k
    · rw [at_k] at atC ⊢
      cases here.symm.trans atC
      exact ⟨_, mine, same, opened, set⟩
    · exact ⟨b, other _ b at_k atC, same, begun, set⟩
  · exact inv.once
  · intro j b rsp there set
    rcases (threads_set_iff here).mp there with ⟨rfl, rfl⟩ | ⟨_, there⟩
    · exact inv.future j a rsp here set
    · exact inv.future j b rsp there set

/-- The loop thread moves on to a phase in which no callback runs. -/
theorem Consistent.moveLoop {s : State Conn} (inv : Consistent s) {loop : ResponsePhase}
    (quiet : ∀ k id rsp, loop ≠ .running k id rsp) : Consistent { s with loop } := by
  refine { inv with async := ?_, running := fun k id rsp running => absurd running (quiet k id rsp) }
  intro id k found
  obtain ⟨a, here, same, kind, begun, unfinished, _⟩ := inv.async id k found
  exact ⟨a, here, same, kind, begun, unfinished, quiet k⟩

theorem Consistent.eraseSync {s : State Conn} (inv : Consistent s) (id : UInt64) :
    Consistent { s with pendingSync := s.pendingSync.erase id } :=
  { inv with sync := fun other k found => inv.sync other k (erased_iff.mp found).2 }

theorem Consistent.insertSync {s : State Conn} (inv : Consistent s) {k : Nat} {a : Attempt Conn}
    (here : s.attempts[k]? = some a) (kind : a.kind = .sync) (phase : AttemptPhase.Open a.phase)
    (unset : a.future = none) : Consistent { s with pendingSync := s.pendingSync.insert a.id k } := by
  refine { inv with sync := ?_ }
  intro id j found
  rcases entered_iff.mp found with ⟨rfl, rfl⟩ | ⟨_, found⟩
  · exact ⟨a, here, rfl, kind, phase, unset⟩
  · exact inv.sync id j found

theorem Consistent.insertAsync {s : State Conn} (inv : Consistent s) {k : Nat} {a : Attempt Conn}
    (here : s.attempts[k]? = some a) (kind : a.kind = .async) (begun : a.phase ≠ .packed)
    (unfinished : k ∉ s.finished) (still : ∀ id rsp, s.loop ≠ .running k id rsp) :
    Consistent { s with pendingAsync := s.pendingAsync.insert a.id k } := by
  refine { inv with async := ?_ }
  intro id j found
  rcases entered_iff.mp found with ⟨rfl, rfl⟩ | ⟨_, found⟩
  · exact ⟨a, here, rfl, kind, begun, unfinished, still⟩
  · exact inv.async id j found

theorem Consistent.pack {s : State Conn} (inv : Consistent s) (call : Nat) (kind : CallKind)
    (conn : Conn) (request : RpcRequest) :
    Consistent { s with
      nextId := s.nextId + 1
      attempts := s.attempts ++ [{ call, kind, conn, request, id := s.nextId }] } := by
  have old : ∀ {j : Nat} {b : Attempt Conn}, s.attempts[j]? = some b →
      (s.attempts ++ [{ call, kind, conn, request, id := s.nextId }])[j]? = some b :=
    fun there => threads_append_iff.mpr (.inl there)
  constructor
  · simp [inv.next]
  · intro j b there
    rcases threads_append_iff.mp there with there | ⟨rfl, rfl⟩
    · exact inv.ids j b there
    · exact inv.next
  · intro id j found
    obtain ⟨b, there, rest⟩ := inv.sync id j found
    exact ⟨b, old there, rest⟩
  · intro id j found
    obtain ⟨b, there, rest⟩ := inv.async id j found
    exact ⟨b, old there, rest⟩
  · intro j id rsp running
    obtain ⟨b, there, rest⟩ := inv.running j id rsp running
    exact ⟨b, old there, rest⟩
  · intro c there
    obtain ⟨b, atC, rest⟩ := inv.completed c there
    exact ⟨b, old atC, rest⟩
  · exact inv.once
  · intro j b rsp there set
    rcases threads_append_iff.mp there with there | ⟨rfl, rfl⟩
    · exact inv.future j b rsp there set
    · cases set

theorem Consistent.register {s next : State Conn} {k : Nat} (inv : Consistent s)
    (step : Step s (.register k) next) : Consistent next := by
  cases step with
  | registerSync here kind packed =>
    rename_i a
    have unset := (inv.fresh here packed).1
    have moved := inv.move here (show AttemptPhase.registered ≠ .packed by simp) (fun _ _ => trivial)
    have now := threads_set_self here { a with phase := .registered }
    have entered := moved.insertSync now kind trivial unset
    exact entered
  | registerAsync here kind packed =>
    rename_i a
    obtain ⟨_, unfinished, still⟩ := inv.fresh here packed
    have moved := inv.move here (show AttemptPhase.registered ≠ .packed by simp) (fun _ _ => trivial)
    have now := threads_set_self here { a with phase := .registered }
    have entered := moved.insertAsync now kind (by simp) unfinished still
    exact entered

theorem Consistent.removePending {s next : State Conn} {k : Nat} (inv : Consistent s)
    (step : Step s (.removePending k) next) : Consistent next := by
  cases step with
  | removePending here late =>
    rename_i a
    have erased := inv.eraseSync a.id
    have moved := erased.move here (show AttemptPhase.returned timeoutResult ≠ .packed by simp) ?_
    · exact moved
    · intro id found
      obtain ⟨differ, found⟩ := erased_iff.mp found
      exact absurd (inv.waits found here).id.symm differ

/-- `wait_for` and `future.get` come after the entry is gone. -/
theorem Consistent.get {s next : State Conn} {k : Nat} (inv : Consistent s)
    (step : Step s (.get k) next) : Consistent next := by
  cases step with
  | get here kind waiting set =>
    refine inv.move here (by simp) ?_
    intro id found
    have unset := (inv.waits found here).unset
    rw [set] at unset
    cases unset

theorem once_append {finished : List Nat} {k : Nat} (once : finished.Nodup) (unfinished : k ∉ finished) :
    (finished ++ [k]).Nodup := by
  refine List.nodup_append.mpr ⟨once, List.pairwise_singleton _ k, ?_⟩
  intro j there j' new same
  rw [List.mem_singleton.mp new] at same
  exact unfinished (same ▸ there)

theorem Consistent.findSync {s next : State Conn} (inv : Consistent s)
    (step : Step s .findSync next) : Consistent next := by
  cases step with
  | syncHit parsed found here =>
    rename_i id rsp k a
    obtain ⟨same, kind, phase, _, unfinished⟩ := inv.waits found here
    have begun : a.phase ≠ .packed := by
      intro packed
      rw [packed] at phase
      exact phase
    have mine : (s.attempts.set k { a with future := some rsp })[k]? =
        some { a with future := some rsp } := threads_set_self here _
    have other : ∀ j b, j ≠ k → s.attempts[j]? = some b →
        (s.attempts.set k { a with future := some rsp })[j]? = some b :=
      fun j b differ there => threads_set_other differ there _
    constructor
    · simpa only [List.length_set] using inv.next
    · exact inv.ids_set here rfl
    · intro id' j found'
      obtain ⟨differ, found'⟩ := erased_iff.mp found'
      obtain ⟨b, atJ, same', rest⟩ := inv.sync id' j found'
      refine ⟨b, other j b ?_ atJ, same', rest⟩
      rintro rfl
      cases here.symm.trans atJ
      exact differ (same'.symm.trans same)
    · intro id' j found'
      obtain ⟨b, atJ, same', kind', begun', unfinished', _⟩ := inv.async id' j found'
      have at_other : j ≠ k := by
        rintro rfl
        cases here.symm.trans atJ
        cases kind.symm.trans kind'
      refine ⟨b, other j b at_other atJ, same', kind', begun', ?_, fun _ _ running => by cases running⟩
      rw [finished_push rfl]
      exact List.not_mem_append unfinished' (mt List.mem_singleton.mp at_other)
    · intro j id' rsp' running
      cases running
    · intro c there
      rcases List.mem_append.mp there with there | new
      · obtain ⟨b, atC, same', begun', set⟩ := inv.completed c there
        have at_other : c.attempt ≠ k := by
          intro at_k
          exact unfinished (at_k ▸ List.mem_map.mpr ⟨c, there, rfl⟩)
        exact ⟨b, other _ b at_other atC, same', begun', set⟩
      · cases List.mem_singleton.mp new
        exact ⟨_, mine, same, begun, fun _ => rfl⟩
    · rw [finished_push rfl]
      exact once_append inv.once unfinished
    · intro j b rsp' there set
      rcases (threads_set_iff here).mp there with ⟨rfl, rfl⟩ | ⟨_, there⟩
      · cases set
        exact ⟨kind, List.mem_append_right _ (by simp [same])⟩
      · obtain ⟨kind', done⟩ := inv.future j b rsp' there set
        exact ⟨kind', List.mem_append_left _ done⟩
  | syncMiss parsed missing => exact inv.moveLoop nofun

theorem Consistent.findAsync {s next : State Conn} (inv : Consistent s)
    (step : Step s .findAsync next) : Consistent next := by
  cases step with
  | asyncHit missed found =>
    rename_i id rsp k
    obtain ⟨a, here, same, kind, begun, unfinished, _⟩ := inv.async id k found
    refine { inv with async := ?_, running := ?_ }
    · intro id' j found'
      obtain ⟨differ, found'⟩ := erased_iff.mp found'
      obtain ⟨b, atJ, same', kind', begun', unfinished', _⟩ := inv.async id' j found'
      refine ⟨b, atJ, same', kind', begun', unfinished', ?_⟩
      intro _ _ running
      cases running
      cases here.symm.trans atJ
      exact differ (same'.symm.trans same)
    · intro j id' rsp' running
      cases running
      exact ⟨a, here, same, kind, begun, unfinished⟩
  | asyncMiss missed missing => exact inv.moveLoop nofun

theorem Consistent.done {s next : State Conn} (inv : Consistent s) (step : Step s .done next) :
    Consistent next := by
  cases step with
  | done running =>
    rename_i k id rsp
    obtain ⟨a, here, same, kind, begun, unfinished⟩ := inv.running k id rsp running
    refine ⟨inv.next, inv.ids, inv.sync, ?_, fun _ _ _ running => (by cases running), ?_, ?_, ?_⟩
    · intro id' j found
      obtain ⟨b, atJ, same', kind', begun', unfinished', still⟩ := inv.async id' j found
      refine ⟨b, atJ, same', kind', begun', ?_, fun _ _ running => by cases running⟩
      rw [finished_push rfl]
      refine List.not_mem_append unfinished' ?_
      intro new
      cases List.mem_singleton.mp new
      exact still id rsp running
    · intro c there
      rcases List.mem_append.mp there with there | new
      · exact inv.completed c there
      · cases List.mem_singleton.mp new
        refine ⟨a, here, same, begun, fun sync => ?_⟩
        cases kind.symm.trans sync
    · rw [finished_push rfl]
      exact once_append inv.once unfinished
    · intro j b rsp' there set
      obtain ⟨kind', done⟩ := inv.future j b rsp' there set
      exact ⟨kind', List.mem_append_left _ done⟩

theorem Consistent.step {s next : State Conn} {action : Action Conn} (inv : Consistent s)
    (step : Step s action next) : Consistent next := by
  cases action with
  | pack call kind conn request =>
    cases step
    exact inv.pack call kind conn request
  | register k => exact inv.register step
  | send k =>
    cases step with
    | send here registered => exact inv.move here (by simp) (fun _ _ => trivial)
  | timeout k =>
    cases step with
    | timeout here kind waiting unset => exact inv.move here (by simp) (fun _ _ => trivial)
  | removePending k => exact inv.removePending step
  | get k => exact inv.get step
  | response id rsp =>
    cases step
    exact inv.moveLoop nofun
  | findSync => exact inv.findSync step
  | findAsync => exact inv.findAsync step
  | done => exact inv.done step

theorem Consistent.run {s later : State Conn} (inv : Consistent s) (run : Runs Step s later) :
    Consistent later :=
  run.invariant (fun _ _ _ inv step => inv.step step) inv

theorem attempts_grow {s next : State Conn} {action : Action Conn} (step : Step s action next) :
    s.attempts.length ≤ next.attempts.length := by
  cases step <;> simp

/-- An attempt after a step is the one before it, moved on, or newly packed. -/
theorem attempt_origin {s t : State Conn} {action : Action Conn} (step : Step s action t) {k : Nat}
    {a : Attempt Conn} (there : t.attempts[k]? = some a) :
    (∃ b, s.attempts[k]? = some b ∧ a = { b with phase := a.phase, future := a.future } ∧
      (a.phase ≠ .packed → action ≠ .register k → b.phase ≠ .packed)) ∨
    k = s.attempts.length ∧ ∃ call kind conn request, action = .pack call kind conn request ∧
      a = { call, kind, conn, request, id := s.nextId } := by
  cases step with
  | pack call kind conn request =>
    rcases threads_append_iff.mp there with old | ⟨last, new⟩
    · exact .inl ⟨a, old, rfl, fun begun _ => begun⟩
    · exact .inr ⟨last, call, kind, conn, request, rfl, new⟩
  | registerSync here _ _ | registerAsync here _ _ =>
    rcases (threads_set_iff here).mp there with ⟨rfl, rfl⟩ | ⟨_, old⟩
    · exact .inl ⟨_, here, rfl, fun _ other => absurd rfl other⟩
    · exact .inl ⟨a, old, rfl, fun begun _ => begun⟩
  | send here phase | timeout here _ phase _ | removePending here phase | get here _ phase _ =>
    rcases (threads_set_iff here).mp there with ⟨rfl, rfl⟩ | ⟨_, old⟩
    · exact .inl ⟨_, here, rfl, fun _ _ => by rw [phase]; exact nofun⟩
    · exact .inl ⟨a, old, rfl, fun begun _ => begun⟩
  | syncHit _ _ here =>
    rcases (threads_set_iff here).mp there with ⟨rfl, rfl⟩ | ⟨_, old⟩
    · exact .inl ⟨_, here, rfl, fun begun _ => begun⟩
    · exact .inl ⟨a, old, rfl, fun begun _ => begun⟩
  | response | syncMiss | asyncHit | asyncMiss | done =>
    exact .inl ⟨a, there, rfl, fun begun _ => begun⟩

/-- The call that an action packs an attempt for. -/
def Action.packs : Action Conn → List Nat
  | .pack call _ _ _ => [call]
  | _ => []

/-- A step adds to the attempts of a call by packing one. -/
theorem calls_after {s t : State Conn} {action : Action Conn} (step : Step s action t) :
    t.attempts.map Attempt.call = s.attempts.map Attempt.call ++ action.packs := by
  have moved : ∀ {k : Nat} {a b : Attempt Conn}, s.attempts[k]? = some a → b.call = a.call →
      (s.attempts.set k b).map Attempt.call = s.attempts.map Attempt.call ++ [] := by
    intro k a b here same
    obtain ⟨front, back, split, replaced, _⟩ := threads_around here
    rw [replaced, split, List.append_nil, List.map_append, List.map_append, List.map_cons, List.map_cons, same]
  cases step with
  | pack => exact List.map_append
  | registerSync here | registerAsync here | send here | timeout here | removePending here | get here =>
    exact moved here rfl
  | syncHit _ _ here => exact moved here rfl
  | response | syncMiss | asyncHit | asyncMiss | done => exact (List.append_nil _).symm

/-- A synchronous attempt that `doCall` has returned from. -/
def Returned (s : State Conn) (k : Nat) (a : Attempt Conn) : Prop :=
  s.attempts[k]? = some a ∧ a.kind = .sync ∧ ∃ result, a.phase = .returned result

/-- No step touches an attempt that has returned, and what it completes is not
that attempt. -/
theorem Returned.step {s next : State Conn} {action : Action Conn} {k : Nat} {a : Attempt Conn}
    (returned : Returned s k a) (inv : Consistent s) (step : Step s action next) :
    Returned next k a ∧ ∃ more, next.completed = s.completed ++ more ∧ ∀ c ∈ more, c.attempt ≠ k := by
  obtain ⟨here, kind, result, phase⟩ := returned
  have same : s.completed = s.completed ++ [] ∧ ∀ c ∈ ([] : List Completion), c.attempt ≠ k :=
    ⟨(List.append_nil _).symm, fun c there => absurd there List.not_mem_nil⟩
  have apart : ∀ {j : Nat} {b c : Attempt Conn}, s.attempts[j]? = some b → b.phase ≠ a.phase →
      (s.attempts.set j c)[k]? = some a := by
    intro j b c there differ
    refine threads_set_other ?_ here _
    rintro rfl
    cases here.symm.trans there
    exact differ rfl
  cases step with
  | pack => exact ⟨⟨threads_append_iff.mpr (.inl here), kind, result, phase⟩, [], same⟩
  | registerSync there _ other | registerAsync there _ other | send there other =>
    exact ⟨⟨apart there (by simp [phase, other]), kind, result, phase⟩, [], same⟩
  | timeout there _ other _ | removePending there other | get there _ other _ =>
    exact ⟨⟨apart there (by simp [phase, other]), kind, result, phase⟩, [], same⟩
  | response | syncMiss | asyncHit | asyncMiss => exact ⟨⟨here, kind, result, phase⟩, [], same⟩
  | syncHit parsed found there =>
    rename_i id rsp j b
    have opened := (inv.waits found there).opened
    have differ : b.phase ≠ a.phase := by
      intro equal
      rw [equal, phase] at opened
      exact opened
    refine ⟨⟨apart there differ, kind, result, phase⟩, [_], rfl, ?_⟩
    intro c new
    rw [List.mem_singleton.mp new]
    rintro rfl
    cases here.symm.trans there
    exact differ rfl
  | done running =>
    rename_i j id rsp
    obtain ⟨b, atJ, _, async, _⟩ := inv.running j id rsp running
    refine ⟨⟨here, kind, result, phase⟩, [_], rfl, ?_⟩
    intro c new
    rw [List.mem_singleton.mp new]
    rintro rfl
    cases here.symm.trans atJ
    cases kind.symm.trans async

/-- From its return on, an attempt stays as it is, whatever the peers send. -/
theorem Returned.run {s later : State Conn} {k : Nat} {a : Attempt Conn} (returned : Returned s k a)
    (inv : Consistent s) (run : Runs Step s later) :
    Returned later k a ∧ ∃ more, later.completed = s.completed ++ more ∧ ∀ c ∈ more, c.attempt ≠ k := by
  induction run with
  | refl => exact ⟨returned, [], (List.append_nil _).symm, fun c there => absurd there List.not_mem_nil⟩
  | tail before last ih =>
    obtain ⟨action, last⟩ := last
    obtain ⟨still, more, log, others⟩ := ih
    obtain ⟨now, last, grown, other⟩ := still.step (inv.run before) last
    refine ⟨now, more ++ last, by rw [grown, log, List.append_assoc], ?_⟩
    intro c there
    rcases List.mem_append.mp there with there | there
    · exact others c there
    · exact other c there

/-- The tables have no entry for an attempt that has returned. -/
theorem Returned.no_entry {s : State Conn} {k : Nat} {a : Attempt Conn} (returned : Returned s k a)
    (inv : Consistent s) (few : s.attempts.length < 2 ^ 64) :
    s.pendingSync a.id = none ∧ s.pendingAsync a.id = none := by
  obtain ⟨here, kind, result, phase⟩ := returned
  refine ⟨Option.eq_none_iff_forall_not_mem.mpr ?_, Option.eq_none_iff_forall_not_mem.mpr ?_⟩
  · intro j found
    obtain ⟨b, atJ, same, _, opened, _⟩ := inv.sync a.id j found
    cases inv.distinct few atJ here same
    cases here.symm.trans atJ
    rw [phase] at opened
    exact opened
  · intro j found
    obtain ⟨b, atJ, same, async, _⟩ := inv.async a.id j found
    cases inv.distinct few atJ here same
    cases here.symm.trans atJ
    cases kind.symm.trans async

/-- The entries of the two tables: each belongs to one attempt, under the id it
has drawn, and no id is in both. -/
theorem Consistent.entries {s : State Conn} (inv : Consistent s) (few : s.attempts.length < 2 ^ 64) :
    (∀ id k, s.pendingSync id = some k ∨ s.pendingAsync id = some k →
        id < s.nextId ∧ ∃ a, s.attempts[k]? = some a ∧ a.id = id) ∧
      ∀ id, s.pendingSync id = none ∨ s.pendingAsync id = none := by
  have below : ∀ (id : UInt64) (k : Nat) (a : Attempt Conn), s.attempts[k]? = some a → a.id = id → id < s.nextId := by
    rintro id k a here rfl
    have bound := (List.getElem?_eq_some_iff.mp here).1
    rw [inv.ids k a here, inv.next, UInt64.lt_iff_toNat_lt,
      UInt64.toNat_ofNat_of_lt' (by simp [UInt64.size]; omega),
      UInt64.toNat_ofNat_of_lt' (by simp [UInt64.size]; omega)]
    exact bound
  constructor
  · rintro id k (found | found)
    · obtain ⟨a, here, same, _⟩ := inv.sync id k found
      exact ⟨below id k a here same, a, here, same⟩
    · obtain ⟨a, here, same, _⟩ := inv.async id k found
      exact ⟨below id k a here same, a, here, same⟩
  · intro id
    cases sync : s.pendingSync id with
    | none => exact .inl rfl
    | some k =>
      cases async : s.pendingAsync id with
      | none => exact .inr rfl
      | some j =>
        obtain ⟨a, atK, sameK, kind, _⟩ := inv.sync id k sync
        obtain ⟨b, atJ, sameJ, other, _⟩ := inv.async id j async
        cases inv.distinct few atK atJ (sameK.trans sameJ.symm)
        cases atK.symm.trans atJ
        cases kind.symm.trans other

/-- In every reachable state each pending id is below the counter, in one table
only and the id of one attempt; no attempt is completed twice, and only by a
response with its own id; and once `doCall` has returned, in every later state
its id is in neither table, the attempt is unchanged and no later completion is
its own or carries its id. -/
theorem pending_tables (s : State Conn) (reached : Runs Step {} s) (few : s.attempts.length < 2 ^ 64) :
    (∀ id k, s.pendingSync id = some k ∨ s.pendingAsync id = some k →
        id < s.nextId ∧ (∃ a, s.attempts[k]? = some a ∧ a.id = id) ∧
          ∀ j b, s.attempts[j]? = some b → b.id = id → j = k) ∧
      (∀ id, s.pendingSync id = none ∨ s.pendingAsync id = none) ∧
      (∀ k, s.finished.count k ≤ 1) ∧
      (∀ c ∈ s.completed, ∃ a, s.attempts[c.attempt]? = some a ∧ a.id = c.id) ∧
      (∀ k a rsp, s.attempts[k]? = some a → a.future = some rsp → ⟨k, a.id, rsp⟩ ∈ s.completed) ∧
      ∀ later k a, Runs Step s later → later.attempts.length < 2 ^ 64 → Returned s k a →
        later.pendingSync a.id = none ∧ later.pendingAsync a.id = none ∧
          later.attempts[k]? = some a ∧
          ∃ more, later.completed = s.completed ++ more ∧ ∀ c ∈ more, c.attempt ≠ k ∧ c.id ≠ a.id := by
  have inv := consistent_new.run reached
  obtain ⟨entry, apart⟩ := inv.entries few
  refine ⟨?_, apart, ?_, ?_, ?_, ?_⟩
  · intro id k found
    obtain ⟨below, a, here, same⟩ := entry id k found
    refine ⟨below, ⟨a, here, same⟩, fun j b there own => ?_⟩
    exact inv.distinct few there here (own.trans same.symm)
  · exact List.nodup_iff_count_le_one.mp inv.once
  · intro c there
    obtain ⟨a, here, same, _⟩ := inv.completed c there
    exact ⟨a, here, same⟩
  · intro k a rsp here set
    exact (inv.future k a rsp here set).2
  · intro later k a run fewLater returned
    have invLater := inv.run run
    obtain ⟨still, more, log, others⟩ := returned.run inv run
    obtain ⟨noSync, noAsync⟩ := still.no_entry invLater fewLater
    refine ⟨noSync, noAsync, still.1, more, log, fun c there => ⟨others c there, fun same => ?_⟩⟩
    obtain ⟨b, atC, own, _⟩ := invLater.completed c (log ▸ List.mem_append_right _ there)
    exact others c there (invLater.distinct fewLater atC still.1 (own.trans same))

/-- A synchronous call that is answered. -/
theorem pending_tables_answered : ∃ s : State Unit, s.completed = [⟨0, 0, {}⟩] ∧
    s.finished.count 0 ≤ 1 ∧ s.pendingSync 0 = none ∧ s.pendingAsync 0 = none := by
  let attempt (phase : AttemptPhase) (future : Option RpcResponse) : Attempt Unit :=
    ⟨0, .sync, (), {}, 0, phase, future⟩
  have packed : Runs Step ({} : State Unit) _ := .one (.pack 0 .sync () {})
  have registered := packed.tail ⟨_, @Step.registerSync _ _ 0 (attempt .packed none) rfl rfl rfl⟩
  have sent := registered.tail ⟨_, @Step.send _ _ 0 (attempt .registered none) rfl rfl⟩
  have parsed := sent.tail ⟨_, .response 0 {} rfl⟩
  have set := parsed.tail ⟨_, @Step.syncHit _ _ 0 {} 0 (attempt .sent none) rfl rfl rfl⟩
  have back := set.tail ⟨_, @Step.get _ _ 0 (attempt .sent (some {})) {} rfl rfl rfl rfl⟩
  obtain ⟨_, _, once, _, _, returned⟩ := pending_tables _ back (by decide)
  obtain ⟨noSync, noAsync, _⟩ := returned _ 0 _ .refl (by decide) ⟨rfl, rfl, _, rfl⟩
  exact ⟨_, rfl, once 0, noSync, noAsync⟩

end RpcChannel
end ReactorRpc
