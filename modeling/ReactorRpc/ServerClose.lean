import ReactorRpc.ConnectionEvents
import ReactorRpc.Library.Runs
import ReactorRpc.Library.Threads

namespace ReactorRpc
open Streams

/-- A connection of the server: whether `connections_` holds it, how many tasks and
functors do, and whether it has been destroyed; how often `handleClose` and the
close callback have run, how many handlers began after `handleClose` had run, and
how often `handleEvent` has read a member of the destroyed channel. -/
structure ServerConn where
  held : Bool := true
  refs : Nat := 0
  destroyed : Bool := false
  closes : Nat := 0
  callbacks : Nat := 0
  late : Nat := 0
  touches : Nat := 0
  deriving DecidableEq

namespace ServerConn

/-- A member of the channel is read. -/
def touch (c : ServerConn) : ServerConn :=
  if c.destroyed then { c with touches := c.touches + 1 } else c

/-- A handler begins. -/
def enter (c : ServerConn) : ServerConn :=
  if 0 < c.closes then { c with late := c.late + 1 } else c

/-- The last reference is gone. -/
def settle (c : ServerConn) : ServerConn :=
  if c.held = false ∧ c.refs = 0 then { c with destroyed := true } else c

/-- The close callback that the server sets erases the connection. -/
def closeCallback (c : ServerConn) : ServerConn :=
  { c with callbacks := c.callbacks + 1, held := false }.settle

def handleClose (c : ServerConn) : ServerConn :=
  TcpConnection.handleClose (some closeCallback) { c.enter with closes := c.closes + 1 }

/-- `handleRead`, with the number of tasks that `onMessage` enqueues, each of which
holds the connection. -/
def handleRead (result : Except Buffer.Errno Bytes) (tasks : Nat) (c : ServerConn) : ServerConn :=
  TcpConnection.afterRead (fun c => { c with refs := c.refs + tasks }) handleClose result c.enter

def handleWrite (c : ServerConn) : ServerConn := c.enter

/-- What the loop does for an event of the connection. -/
def handleEvent (revents : UInt32) (result : Except Buffer.Errno Bytes) (tasks : Nat) (c : ServerConn) :
    ServerConn :=
  Channel.handleEvent touch (TcpConnection.callbacks (handleRead result tasks) handleWrite handleClose)
    revents c.touch

/-- A task or a functor has run and lets go of the connection. -/
def release (c : ServerConn) : ServerConn := { c with refs := c.refs - 1 }.settle

end ServerConn

namespace ServerLoop

/-- The connections, in the order they were accepted, and the events that
`epoll_wait` has reported and the loop has not handled. -/
structure State where
  conns : List ServerConn := []
  batch : List (Nat × UInt32) := []

inductive Action
  | accept
  | poll (events : List (Nat × UInt32))
  | dispatch (result : Except Buffer.Errno Bytes) (tasks : Nat)
  | copy (i : Nat)
  | release (i : Nat)

/-- The steps of the loop thread, and of the workers and functors that copy and
let go of their references. The kernel reports at most one event for each
connection, and none for a destroyed one, whose descriptor is closed. -/
inductive Step : State → Action → State → Prop
  | accept {s : State} : Step s .accept { s with conns := s.conns ++ [{}] }
  | poll {s : State} (events : List (Nat × UInt32)) (idle : s.batch = [])
      (distinct : (events.map Prod.fst).Nodup)
      (registered : ∀ event ∈ events, ∃ c, s.conns[event.1]? = some c ∧ c.destroyed = false) :
      Step s (.poll events) { s with batch := events }
  | dispatch {s : State} {i : Nat} {revents : UInt32} {rest : List (Nat × UInt32)} {c : ServerConn}
      (result : Except Buffer.Errno Bytes) (tasks : Nat) (next : s.batch = (i, revents) :: rest)
      (here : s.conns[i]? = some c) :
      Step s (.dispatch result tasks)
        { s with conns := s.conns.set i (c.handleEvent revents result tasks), batch := rest }
  | copy {s : State} {i : Nat} {c : ServerConn} (here : s.conns[i]? = some c) (holds : 0 < c.refs) :
      Step s (.copy i) { s with conns := s.conns.set i { c with refs := c.refs + 1 } }
  | release {s : State} {i : Nat} {c : ServerConn} (here : s.conns[i]? = some c) (holds : 0 < c.refs) :
      Step s (.release i) { s with conns := s.conns.set i c.release }

end ServerLoop

namespace ServerConn

/-- After `handleClose` no handler has run again and the close callback has run
once, and `handleEvent` has left the destroyed channel alone. -/
structure ClosedOnce (c : ServerConn) : Prop where
  once : 0 < c.closes → c.closes = 1 ∧ c.callbacks = 1 ∧ c.late = 0
  untouched : c.touches = 0

/-- A connection `handleClose` has not run for. -/
structure Opened (c : ServerConn) : Prop where
  held : c.held = true
  alive : c.destroyed = false
  closes : c.closes = 0
  callbacks : c.callbacks = 0
  late : c.late = 0
  touches : c.touches = 0

/-- A connection that `handleClose` has destroyed. -/
structure Gone (c : ServerConn) : Prop where
  refs : c.refs = 0
  destroyed : c.destroyed = true
  once : c.ClosedOnce

theorem enter_kept (c : ServerConn) : c.enter.refs = c.refs ∧ c.enter.destroyed = c.destroyed ∧
    c.enter.closes = c.closes ∧ c.enter.touches = c.touches := by
  unfold enter
  split <;> exact ⟨rfl, rfl, rfl, rfl⟩

theorem touches_le (c : ServerConn) : c.touches ≤ c.touch.touches := by
  unfold touch
  split
  · exact Nat.le_succ _
  · exact Nat.le_refl _

theorem Opened.touch {c : ServerConn} (opened : c.Opened) : c.touch = c := by
  rw [ServerConn.touch, opened.alive]
  rfl

theorem Opened.enter {c : ServerConn} (opened : c.Opened) : c.enter = c := by
  rw [ServerConn.enter, opened.closes]
  rfl

theorem Opened.closedOnce {c : ServerConn} (opened : c.Opened) : c.ClosedOnce := by
  refine ⟨fun closed => ?_, opened.touches⟩
  rw [opened.closes] at closed
  omega

theorem Opened.refs {c : ServerConn} (opened : c.Opened) (refs : Nat) : { c with refs := refs }.Opened :=
  ⟨opened.held, opened.alive, opened.closes, opened.callbacks, opened.late, opened.touches⟩

theorem Opened.release {c : ServerConn} (opened : c.Opened) : c.release.Opened := by
  rw [ServerConn.release, settle, if_neg (by simp [opened.held])]
  exact opened.refs _

/-- Closing a connection that nobody else holds destroys it. -/
theorem Opened.handleClose {c : ServerConn} (opened : c.Opened) (last : c.refs = 0) :
    c.handleClose.Gone := by
  simp only [ServerConn.handleClose, TcpConnection.handleClose, closeCallback, opened.enter, settle, last,
    and_self, if_true]
  exact ⟨rfl, rfl, fun _ => ⟨by rw [opened.closes], by rw [opened.callbacks], opened.late⟩, opened.touches⟩

/-- An event that does not close the connection leaves it open. -/
theorem Opened.served {c : ServerConn} (opened : c.Opened) {revents : UInt32}
    {result : Except Buffer.Errno Bytes} (stays : endsConnection revents result = false) (tasks : Nat) :
    (c.handleEvent revents result tasks).Opened := by
  obtain ⟨there, open_⟩ := Bool.or_eq_false_iff.mp stays
  rw [handleEvent, opened.touch, Channel.handleEvent_served opened.touch there]
  have read : (if hasEvents revents EPOLLIN then TcpConnection.callbacks (handleRead result tasks)
      handleWrite ServerConn.handleClose .read c else c).Opened := by
    split
    · rename_i readable
      rw [readable, Bool.true_and] at open_
      simp only [TcpConnection.callbacks, handleRead, opened.enter, TcpConnection.afterRead]
      cases event : readEvent result with
      | message => exact opened.refs _
      | close =>
        rw [event] at open_
        cases open_
      | ignored => exact opened
    · exact opened
  rw [read.touch]
  dsimp only
  split
  · rw [read.touch]
    change (ServerConn.enter _).Opened
    rw [read.enter]
    exact read
  · exact read

/-- A hang-up or an error of a connection that nobody else holds destroys it, and
`handleEvent` returns. -/
theorem Opened.hungUp {c : ServerConn} (opened : c.Opened) {revents : UInt32}
    (gone : hangsUp revents = true) (last : c.refs = 0) (result : Except Buffer.Errno Bytes)
    (tasks : Nat) : (c.handleEvent revents result tasks).Gone := by
  rw [handleEvent, opened.touch]
  rcases Channel.handleEvent_hangsUp opened.touch gone with close | error
  · rw [close]
    exact opened.handleClose last
  · rw [error]
    exact opened.handleClose last

/-- The events for which it is `handleRead` that closes. -/
theorem read_closes {revents : UInt32} {result : Except Buffer.Errno Bytes}
    (there : hangsUp revents = false) (ends : endsConnection revents result = true) :
    hasEvents revents EPOLLIN = true ∧ readEvent result = .close := by
  rw [endsConnection, there, Bool.false_or, Bool.and_eq_true] at ends
  exact ends.imp_right fun close => by simpa using close

/-- End of file on the last reference: `handleEvent` goes on with the destroyed channel. -/
theorem Opened.readsGone {c : ServerConn} (opened : c.Opened) {revents : UInt32}
    {result : Except Buffer.Errno Bytes} (there : hangsUp revents = false)
    (ends : endsConnection revents result = true) (last : c.refs = 0) (tasks : Nat) :
    ¬(c.handleEvent revents result tasks).ClosedOnce := by
  obtain ⟨readable, close⟩ := read_closes there ends
  have gone := opened.handleClose last
  have touched : 0 < c.handleClose.touch.touches := by
    rw [ServerConn.touch, gone.destroyed, if_pos rfl]
    exact Nat.succ_pos _
  rw [handleEvent, opened.touch, Channel.handleEvent_served opened.touch there, readable, if_pos rfl]
  simp only [TcpConnection.callbacks, handleRead, opened.enter, TcpConnection.afterRead, close]
  intro closedOnce
  have untouched := closedOnce.untouched
  split at untouched
  · have grows := touches_le c.handleClose.touch
    rw [handleWrite, (enter_kept _).2.2.2] at untouched
    omega
  · omega

/-- A connection that `handleClose` has run for and that somebody still holds. -/
structure Lingering (c : ServerConn) : Prop where
  alive : c.destroyed = false
  closed : 0 < c.closes

theorem Lingering.touch {c : ServerConn} (lingering : c.Lingering) : c.touch = c := by
  rw [ServerConn.touch, lingering.alive]
  rfl

theorem handleClose_lingers {c : ServerConn} (alive : c.destroyed = false) (held : 0 < c.refs) :
    c.handleClose.Lingering := by
  obtain ⟨refs, destroyed, closes, _⟩ := enter_kept c
  have stays : ¬c.enter.refs = 0 := by omega
  simp only [handleClose, TcpConnection.handleClose, closeCallback, settle, stays, and_false, if_false]
  exact ⟨destroyed.trans alive, Nat.succ_pos _⟩

theorem Opened.lingers {c : ServerConn} (opened : c.Opened) {revents : UInt32}
    {result : Except Buffer.Errno Bytes} (ends : endsConnection revents result = true)
    (held : 0 < c.refs) (tasks : Nat) : (c.handleEvent revents result tasks).Lingering := by
  have lingers := handleClose_lingers opened.alive held
  rw [handleEvent, opened.touch]
  cases gone : hangsUp revents with
  | true =>
    rcases Channel.handleEvent_hangsUp opened.touch gone with close | error
    · rw [close]
      exact lingers
    · rw [error]
      exact lingers
  | false =>
    obtain ⟨readable, close⟩ := read_closes gone ends
    rw [Channel.handleEvent_served opened.touch gone, readable, if_pos rfl]
    simp only [TcpConnection.callbacks, handleRead, opened.enter, TcpConnection.afterRead, close,
      lingers.touch]
    split
    · obtain ⟨_, destroyed, closes, _⟩ := enter_kept c.handleClose
      exact ⟨destroyed.trans lingers.alive, closes ▸ lingers.closed⟩
    · exact lingers

/-- The next hang-up of such a connection runs a handler again. -/
theorem Lingering.again {c : ServerConn} (lingering : c.Lingering) {revents : UInt32}
    (gone : hangsUp revents = true) (result : Except Buffer.Errno Bytes) (tasks : Nat) :
    ¬(c.handleEvent revents result tasks).ClosedOnce := by
  have closes : 1 < c.handleClose.closes := by
    have before := lingering.closed
    have same := (enter_kept c).2.2.1
    simp only [handleClose, TcpConnection.handleClose, closeCallback, settle]
    split <;> simp only <;> omega
  rw [handleEvent, lingering.touch]
  intro closedOnce
  have never : c.handleClose.ClosedOnce := by
    rcases Channel.handleEvent_hangsUp lingering.touch gone with close | error
    · rwa [close] at closedOnce
    · rwa [error] at closedOnce
  have once := (never.once (by omega)).1
  omega

end ServerConn

namespace ServerLoop

/-- `handleClose` runs only where `handleEvent` returns after it, and only for a
connection that no task and no functor holds. -/
def Harmless (s : State) : Action → Prop
  | .dispatch result _ => ∀ (i : Nat) (revents : UInt32) (rest : List (Nat × UInt32)) (c : ServerConn),
      s.batch = (i, revents) :: rest → s.conns[i]? = some c → endsConnection revents result = true →
        hangsUp revents = true ∧ c.refs = 0
  | _ => True

/-- Every connection is open or gone, and the events at hand are of open ones. -/
structure Settled (s : State) : Prop where
  conns : ∀ (i : Nat) (c : ServerConn), s.conns[i]? = some c → c.Opened ∨ c.Gone
  distinct : (s.batch.map Prod.fst).Nodup
  waiting : ∀ event ∈ s.batch, ∃ c, s.conns[event.1]? = some c ∧ c.Opened

theorem Settled.start : Settled {} := ⟨nofun, List.nodup_nil, nofun⟩

theorem Settled.closedOnce {s : State} (settled : Settled s) {i : Nat} {c : ServerConn}
    (here : s.conns[i]? = some c) : c.ClosedOnce := by
  rcases settled.conns i c here with opened | gone
  · exact opened.closedOnce
  · exact gone.once

theorem Settled.opened {s : State} (settled : Settled s) {i : Nat} {c : ServerConn}
    (here : s.conns[i]? = some c) (holds : 0 < c.refs) : c.Opened := by
  refine (settled.conns i c here).resolve_right fun gone => ?_
  rw [gone.refs] at holds
  exact Nat.lt_irrefl 0 holds

theorem Settled.accept {s : State} (settled : Settled s) : Settled { s with conns := s.conns ++ [{}] } where
  conns i c found := by
    rcases threads_append_iff.mp found with old | ⟨_, rfl⟩
    · exact settled.conns i c old
    · exact .inl ⟨rfl, rfl, rfl, rfl, rfl, rfl⟩
  distinct := settled.distinct
  waiting event member := by
    obtain ⟨c, here, opened⟩ := settled.waiting event member
    exact ⟨c, threads_append_iff.mpr (.inl here), opened⟩

/-- One connection changes, and only an open one may have an event at hand. -/
theorem Settled.move {s : State} (settled : Settled s) {i : Nat} {c d : ServerConn}
    (here : s.conns[i]? = some c) (next : d.Opened ∨ d.Gone ∧ i ∉ s.batch.map Prod.fst) :
    Settled { s with conns := s.conns.set i d } where
  conns j e found := by
    rcases (threads_set_iff here).mp found with ⟨_, rfl⟩ | ⟨_, same⟩
    · exact next.imp_right And.left
    · exact settled.conns j e same
  distinct := settled.distinct
  waiting event member := by
    by_cases same : event.1 = i
    · have opened := next.resolve_right fun gone => gone.2 (same ▸ List.mem_map_of_mem member)
      exact ⟨d, same ▸ threads_set_self here d, opened⟩
    · obtain ⟨e, there, opened⟩ := settled.waiting event member
      exact ⟨e, threads_set_other same there d, opened⟩

/-- The loop takes the next event, which is of an open connection. -/
theorem Settled.take {s : State} (settled : Settled s) {i : Nat} {revents : UInt32}
    {rest : List (Nat × UInt32)} {c : ServerConn} (next : s.batch = (i, revents) :: rest)
    (here : s.conns[i]? = some c) :
    Settled { s with batch := rest } ∧ i ∉ rest.map Prod.fst ∧ c.Opened := by
  have distinct := settled.distinct
  have waiting := settled.waiting
  rw [next] at distinct waiting
  obtain ⟨fresh, others⟩ := List.nodup_cons.mp distinct
  obtain ⟨d, found, opened⟩ := waiting (i, revents) (List.mem_cons_self ..)
  cases here.symm.trans found
  exact ⟨⟨settled.conns, others, fun event member => waiting event (List.mem_cons_of_mem _ member)⟩,
    fresh, opened⟩

theorem Settled.next {s t : State} {action : Action} (settled : Settled s)
    (harmless : Harmless s action) (step : Step s action t) : Settled t := by
  cases step with
  | accept => exact settled.accept
  | poll events idle distinct registered =>
    refine ⟨settled.conns, distinct, fun event member => ?_⟩
    obtain ⟨c, here, alive⟩ := registered event member
    refine ⟨c, here, (settled.conns _ c here).resolve_right fun gone => ?_⟩
    rw [gone.destroyed] at alive
    cases alive
  | @dispatch i revents rest c result tasks next here =>
    obtain ⟨taken, fresh, opened⟩ := settled.take next here
    refine taken.move here ?_
    cases ends : endsConnection revents result with
    | false => exact .inl (opened.served ends tasks)
    | true =>
      obtain ⟨gone, last⟩ := harmless i revents rest c next here ends
      exact .inr ⟨opened.hungUp gone last result tasks, fresh⟩
  | copy here holds => exact settled.move here (.inl ((settled.opened here holds).refs _))
  | release here holds => exact settled.move here (.inl (settled.opened here holds).release)

/-- Some connection has been handled after its close. -/
def Reopened (s : State) : Prop := ∃ (i : Nat) (c : ServerConn), s.conns[i]? = some c ∧ ¬c.ClosedOnce

/-- The loop comes to the end of its batch, and a connection without an event there
is as before. -/
theorem drained {s : State} {batch : List (Nat × UInt32)} {i : Nat} {c : ServerConn}
    (next : s.batch = batch) (known : ∀ event ∈ batch, ∃ d, s.conns[event.1]? = some d)
    (fresh : i ∉ batch.map Prod.fst) (here : s.conns[i]? = some c) :
    ∃ u, Runs Step s u ∧ u.batch = [] ∧ u.conns[i]? = some c := by
  induction batch generalizing s with
  | nil => exact ⟨s, .refl, next, here⟩
  | cons event rest ih =>
    obtain ⟨other, away⟩ := not_or.mp (mt List.mem_cons.mpr fresh)
    obtain ⟨d, found⟩ := known event (List.mem_cons_self ..)
    have handled : Runs Step s _ := .one (.dispatch (.ok []) 0 next found)
    let after : State :=
      { s with conns := s.conns.set event.1 (d.handleEvent event.2 (.ok []) 0), batch := rest }
    have others : ∀ later ∈ rest, ∃ e, after.conns[later.1]? = some e := by
      intro later member
      by_cases same : later.1 = event.1
      · rw [same]
        exact ⟨_, threads_set_self found _⟩
      · obtain ⟨e, there⟩ := known later (List.mem_cons_of_mem _ member)
        exact ⟨e, threads_set_other same there _⟩
    have still : after.conns[i]? = some c := threads_set_other other here _
    obtain ⟨u, run, emptied, place⟩ := ih rfl others away still
    exact ⟨u, handled.trans run, emptied, place⟩

/-- The poller reports a connection that is closed and still held once more. -/
theorem reported_again {s : State} {i : Nat} {c : ServerConn} (empty : s.batch = [])
    (here : s.conns[i]? = some c) (lingering : c.Lingering) : ∃ u, Runs Step s u ∧ Reopened u := by
  have reported : Runs Step s { s with batch := [(i, EPOLLHUP)] } := by
    refine .one (.poll [(i, EPOLLHUP)] empty (List.nodup_singleton i) fun event member => ?_)
    rw [List.mem_singleton.mp member]
    exact ⟨c, here, lingering.alive⟩
  have handled := reported.tail ⟨_, .dispatch (.ok []) 0 rfl here⟩
  exact ⟨_, handled, i, _, threads_set_self here _, lingering.again (by decide) (.ok []) 0⟩

/-- As long as `handleClose` runs only where `handleEvent` returns after it, and for
connections that nobody else holds, a connection is left alone once it has run; after
any other run of it, one is handled again in some continuation. -/
theorem closed_once {s : State} (run : Runs (Restricted Harmless Step) {} s) :
    (∀ (i : Nat) (c : ServerConn), s.conns[i]? = some c → c.ClosedOnce) ∧
      ∀ action t, Step s action t → ¬Harmless s action → ∃ u, Runs Step t u ∧ Reopened u := by
  have settled : Settled s := run.kept (P := Settled) (fun _ _ _ => Settled.next) Settled.start
  refine ⟨fun i c here => settled.closedOnce here, fun action t step harmful => ?_⟩
  cases step with
  | @dispatch i revents rest c result tasks next here =>
    obtain ⟨taken, fresh, opened⟩ := settled.take next here
    have ends : endsConnection revents result = true := by
      by_contra stays
      refine harmful fun j events others d next' here' ends => ?_
      cases next.symm.trans next'
      exact absurd ends stays
    have place := threads_set_self here (c.handleEvent revents result tasks)
    by_cases last : c.refs = 0
    · have there : hangsUp revents = false := by
        refine Bool.eq_false_iff.mpr fun gone => harmful fun j events others d next' here' _ => ?_
        cases next.symm.trans next'
        cases here.symm.trans here'
        exact ⟨gone, last⟩
      exact ⟨_, .refl, i, _, place, opened.readsGone there ends last tasks⟩
    · have lingering := opened.lingers ends (Nat.pos_of_ne_zero last) tasks
      let after : State :=
        { s with conns := s.conns.set i (c.handleEvent revents result tasks), batch := rest }
      have known : ∀ event ∈ rest, ∃ d, after.conns[event.1]? = some d := by
        intro event member
        obtain ⟨d, there, _⟩ := taken.waiting event member
        have other : event.1 ≠ i := fun same => fresh (same ▸ List.mem_map_of_mem member)
        exact ⟨d, threads_set_other other there _⟩
      obtain ⟨u, emptied, empty, still⟩ := drained (s := after) rfl known fresh place
      obtain ⟨v, again, reopened⟩ := reported_again empty still lingering
      exact ⟨v, emptied.trans again, reopened⟩
  | _ => exact absurd trivial harmful

/-- The peer of the only connection is gone, and nobody else holds it. -/
theorem closed_once_hung_up : ∃ s : State, Runs (Restricted Harmless Step) {} s ∧
    (∃ c, s.conns[0]? = some c ∧ c.destroyed = true ∧ c.callbacks = 1) ∧
    ∀ (i : Nat) (c : ServerConn), s.conns[i]? = some c → c.ClosedOnce := by
  have start : Runs (Restricted Harmless Step) ({} : State) _ := .refl
  have accepted := start.allow .accept trivial
  have reported := accepted.allow
    (.poll [(0, EPOLLHUP)] rfl (List.nodup_singleton 0) fun event member => by
      rw [List.mem_singleton.mp member]
      exact ⟨_, rfl, rfl⟩) trivial
  have handled := reported.allow (.dispatch (.ok []) 0 rfl rfl) fun i revents rest c next here _ => by
    cases next
    cases here
    exact ⟨by decide, rfl⟩
  exact ⟨_, handled, ⟨_, rfl, by decide⟩, (closed_once handled).1⟩

/-- The peer of the only connection closes it: `handleRead` destroys it, and
`handleEvent` reads its `revents_`. -/
theorem closed_then_read : ¬∀ s : State, Runs Step {} s →
    ∀ (i : Nat) (c : ServerConn), s.conns[i]? = some c → c.ClosedOnce := by
  intro never
  have accepted : Runs Step ({} : State) _ := .one .accept
  have reported := accepted.tail ⟨_, .poll [(0, EPOLLIN)] rfl (List.nodup_singleton 0) fun event member => by
    rw [List.mem_singleton.mp member]
    exact ⟨_, rfl, rfl⟩⟩
  have handled := reported.tail ⟨_, .dispatch (.ok []) 0 rfl rfl⟩
  have touched := (never _ handled 0 _ rfl).untouched
  exact absurd touched (by decide)

end ServerLoop
end ReactorRpc
