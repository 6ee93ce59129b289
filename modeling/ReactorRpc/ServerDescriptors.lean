import ReactorRpc.Registration
import ReactorRpc.ServerClose

namespace ReactorRpc
open Streams

namespace Poller

/-- What holds of the tables whatever channels have been destroyed: what is in the interest
set is in the table, and is a live channel. -/
structure Sound (s : Poller) : Prop extends Owned s where
  unlisted : ∀ fd, s.channels fd = none → s.interest fd = none
  watching : ∀ fd event, s.interest fd = some event → ∃ ch, s.live event.ptr = some ch ∧ ch.fd = fd

variable {s : Poller} {p : Ptr} {ch next : LiveChannel}

/-- A channel that has the entry of its descriptor, in both tables or in neither, enters its new events. -/
theorem update_heard (fresh : s.channels next.fd = none ∧ s.interest next.fd = none ∨
      s.channels next.fd ≠ none ∧ s.interest next.fd ≠ none) :
    (s.update p next).interest = Function.update s.interest next.fd (some ⟨next.events, p⟩) := by
  unfold update updateChannel
  rcases fresh with ⟨free, none⟩ | ⟨listed, watched⟩
  · simp only [free, epollCtl, none]
  · obtain ⟨q, entry⟩ := Option.ne_none_iff_exists'.mp listed
    obtain ⟨event, present⟩ := Option.ne_none_iff_exists'.mp watched
    simp only [entry, epollCtl, present]

/-- A channel whose descriptor has a stale entry in `channels_` changes nothing in the kernel. -/
theorem update_deaf (listed : s.channels next.fd ≠ none) (absent : s.interest next.fd = none) :
    (s.update p next).interest = s.interest := by
  obtain ⟨q, entry⟩ := Option.ne_none_iff_exists'.mp listed
  unfold update updateChannel
  simp only [entry, epollCtl, absent]

theorem epollCtl_other {interest : Fd → Option EpollEvent} {op : EpollCtl} {fd other : Fd} {event : EpollEvent}
    (differ : other ≠ fd) : epollCtl interest op fd event other = interest other := by
  unfold epollCtl
  cases op <;> cases interest fd <;> first | rfl | exact Function.update_of_ne differ ..

theorem update_interest_other {fd : Fd} (other : fd ≠ next.fd) :
    (s.update p next).interest fd = s.interest fd := by
  unfold update updateChannel
  dsimp only
  split <;> exact epollCtl_other other

/-- `channels_` only grows. -/
theorem update_channels (fd : Fd) :
    (s.update p next).channels fd = none ↔ s.channels fd = none ∧ fd ≠ next.fd := by
  unfold update updateChannel
  dsimp only
  cases entry : s.channels next.fd with
  | none =>
    dsimp only
    rw [entered_none_iff, and_comm]
  | some q =>
    refine ⟨fun free => ⟨free, ?_⟩, And.left⟩
    rintro rfl
    cases entry.symm.trans free

/-- What an update leaves in the interest set under its descriptor is its own. -/
theorem Sound.update_interest (inv : Sound s) {event : EpollEvent}
    (watched : (s.update p next).interest next.fd = some event) : event = ⟨next.events, p⟩ := by
  by_cases free : s.channels next.fd = none
  · rw [update_heard (.inl ⟨free, inv.unlisted _ free⟩), Function.update_self] at watched
    exact (Option.some.inj watched).symm
  · by_cases absent : s.interest next.fd = none
    · rw [update_deaf free absent, absent] at watched
      cases watched
    · rw [update_heard (.inr ⟨free, absent⟩), Function.update_self] at watched
      exact (Option.some.inj watched).symm

theorem Sound.update (inv : Sound s) (here : s.live p = some ch) (same : next.fd = ch.fd) :
    Sound (s.update p next) where
  toOwned := inv.toOwned.update here same
  unlisted fd free := by
    obtain ⟨before, other⟩ := (update_channels fd).mp free
    rw [update_interest_other other]
    exact inv.unlisted fd before
  watching fd event watched := by
    rw [update_live]
    by_cases own : fd = next.fd
    · subst own
      rw [inv.update_interest watched]
      exact ⟨_, Function.update_self .., rfl⟩
    · rw [update_interest_other own] at watched
      obtain ⟨other, there, fd⟩ := inv.watching fd event watched
      refine ⟨other, entered_iff.mpr (.inr ⟨?_, there⟩), fd⟩
      rintro rfl
      cases here.symm.trans there
      exact own (fd.symm.trans same.symm)

theorem Sound.create (inv : Sound s) {fd : Fd} (free : s.live p = none) (fresh : s.isOpen fd = false) :
    Sound (s.create p fd) where
  toOwned := inv.toOwned.create fresh
  unlisted := inv.unlisted
  watching other event watched := by
    obtain ⟨ch, there, same⟩ := inv.watching other event watched
    refine ⟨ch, entered_iff.mpr (.inr ⟨?_, there⟩), same⟩
    rintro rfl
    cases free.symm.trans there

theorem Sound.destroy (inv : Sound s) (here : s.live p = some ch) : Sound (s.destroy p ch) where
  toOwned := inv.toOwned.destroy here
  unlisted fd free := by
    obtain ⟨before, other⟩ := (update_channels fd).mp free
    refine (Function.update_of_ne other ..).trans ?_
    rw [update_interest_other other]
    exact inv.unlisted fd before
  watching fd event watched := by
    obtain ⟨other, watched⟩ := erased_iff.mp watched
    rw [@update_interest_other s p { ch with toChannel := ch.toChannel.remove } fd other] at watched
    obtain ⟨ch', there, same⟩ := inv.watching fd event watched
    refine ⟨ch', (destroy_live s p _ ch ch').mpr ⟨?_, there⟩, same⟩
    rintro rfl
    cases here.symm.trans there
    exact other same.symm

theorem sound_new {isOpen : Fd → Bool} {wakeupFd : Fd} (fresh : isOpen wakeupFd = false)
    (wakeupChannel : Ptr) : Sound (new isOpen wakeupFd wakeupChannel) := by
  have empty : Sound ⟨fun _ => none, fun _ => none, fun _ => none, isOpen⟩ := by
    refine ⟨⟨?_, ?_⟩, fun _ _ => rfl, ?_⟩
    · intro p ch there; cases there
    · intro p q ch other there; cases there
    · intro fd event there; cases there
  exact (empty.create rfl fresh).update (Function.update_self ..) rfl

end Poller

/-- A connection that the server has accepted: its channel and its descriptor, whether no channel of
the loop has had the descriptor before, what has become of it, and how many events of it the loop
has handled. -/
structure Accepted where
  ptr : Ptr
  fd : Fd
  first : Bool
  conn : ServerConn := {}
  handled : Nat := 0
  deriving DecidableEq

/-- What the loop does for an event of the connection. -/
def Accepted.handleEvent (revents : UInt32) (result : Except Buffer.Errno Bytes) (tasks : Nat) (c : Accepted) :
    Accepted :=
  { c with conn := c.conn.handleEvent revents result tasks, handled := c.handled + 1 }

namespace RpcServer.Descriptors

/-- The tables of the server's loop, the channel and the descriptor of its acceptor, the connections
in the order they were accepted, the events of theirs that `epoll_wait` has reported and the loop has
not handled, and the most connections that have been there at once. -/
structure State where
  poller : Poller
  acceptChannel : Ptr
  listenFd : Fd
  conns : List Accepted := []
  batch : List (Nat × UInt32) := []
  peak : Nat := 0

/-- How many connections have not been destroyed. -/
def State.alive (s : State) : Nat := s.conns.countP fun c => !c.conn.destroyed

/-- The loop, the acceptor and `start`. -/
def State.start (isOpen : Fd → Bool) (wakeupFd : Fd) (wakeupChannel : Ptr) (listenFd : Fd)
    (acceptChannel : Ptr) : State where
  poller := ((Poller.new isOpen wakeupFd wakeupChannel).create acceptChannel listenFd).connectEstablished
    acceptChannel { fd := listenFd }
  acceptChannel := acceptChannel
  listenFd := listenFd

/-- `Acceptor::handleRead` and the callback that the server sets: the new connection goes into
`connections_`, and its channel reads. -/
def State.accept (s : State) (p : Ptr) (fd : Fd) : State :=
  { s with
    poller := (s.poller.create p fd).connectEstablished p { fd := fd }
    conns := s.conns ++ [{ ptr := p, fd := fd, first := (s.poller.channels fd).isNone }]
    peak := max s.peak (s.alive + 1) }

/-- A connection has changed, and its channel and socket are destroyed with it. -/
def State.move (s : State) (i : Nat) (c : Accepted) : State :=
  { s with
    poller := if c.conn.destroyed then (s.poller.step (.destroy c.ptr)).getD s.poller else s.poller
    conns := s.conns.set i c }

inductive Action
  | accept (p : Ptr) (fd : Fd)
  | poll (events : List (Nat × UInt32))
  | dispatch (result : Except Buffer.Errno Bytes) (tasks : Nat)
  | write (op : Poller.Op)
  | copy (i : Nat)
  | release (i : Nat)

/-- What happens to the connections. The poller reports events of the channels whose addresses the
interest set carries, and the loop handles them one by one; a connection that is there may ask for
write events or no longer; the workers and functors copy and let go of their references. -/
inductive Step : State → Action → State → Prop
  | accept {s : State} {p : Ptr} {fd : Fd} {events : UInt32}
      (listening : s.poller.interest s.listenFd = some ⟨events, s.acceptChannel⟩)
      (free : s.poller.live p = none) (closed : s.poller.isOpen fd = false) :
      Step s (.accept p fd) (s.accept p fd)
  | poll {s : State} (events : List (Nat × UInt32)) (idle : s.batch = [])
      (distinct : (events.map Prod.fst).Nodup)
      (reported : ∀ event ∈ events, ∃ c fd watched, s.conns[event.1]? = some c ∧ c.conn.destroyed = false ∧
        s.poller.interest fd = some ⟨watched, c.ptr⟩) :
      Step s (.poll events) { s with batch := events }
  -- an event left over from a connection that a worker has destroyed meanwhile is not handled: the loop
  -- would read a channel that is no longer there, and what follows from that is undefined
  | dispatch {s : State} {i : Nat} {c : Accepted} {revents : UInt32} {rest : List (Nat × UInt32)}
      (result : Except Buffer.Errno Bytes) (tasks : Nat) (next : s.batch = (i, revents) :: rest)
      (here : s.conns[i]? = some c) (alive : c.conn.destroyed = false) :
      Step s (.dispatch result tasks)
        { s.move i (c.handleEvent revents result tasks) with batch := rest }
  | write {s : State} {c : Accepted} {op : Poller.Op} {next : Poller} (here : c ∈ s.conns)
      (alive : c.conn.destroyed = false) (writes : op = .enableWriting c.ptr ∨ op = .disableWriting c.ptr)
      (stepped : s.poller.step op = some next) :
      Step s (.write op) { s with poller := next }
  | copy {s : State} {i : Nat} {c : Accepted} (here : s.conns[i]? = some c)
      (alive : c.conn.destroyed = false) (holds : 0 < c.conn.refs) :
      Step s (.copy i) (s.move i { c with conn := { c.conn with refs := c.conn.refs + 1 } })
  | release {s : State} {i : Nat} {c : Accepted} (here : s.conns[i]? = some c)
      (alive : c.conn.destroyed = false) (holds : 0 < c.conn.refs) :
      Step s (.release i) (s.move i { c with conn := c.conn.release })

/-- The poller reports an event of one connection. -/
theorem Step.report {s : State} {i : Nat} {c : Accepted} {fd : Fd} {watched : UInt32} (revents : UInt32)
    (idle : s.batch = []) (here : s.conns[i]? = some c) (alive : c.conn.destroyed = false)
    (entered : s.poller.interest fd = some ⟨watched, c.ptr⟩) :
    Step s (.poll [(i, revents)]) { s with batch := [(i, revents)] } := by
  refine .poll _ idle (List.nodup_singleton i) fun event there => ?_
  rw [List.mem_singleton.mp there]
  exact ⟨c, fd, watched, here, alive, entered⟩

/-- What holds of the connections whatever becomes of them. A connection whose descriptor is not new
to the loop is not in the interest set, and nothing has ever happened to it. -/
structure Kept (s : State) : Prop where
  sound : s.poller.Sound
  alive : ∀ (i : Nat) (c : Accepted), s.conns[i]? = some c → c.conn.destroyed = false →
    ∃ ch, s.poller.live c.ptr = some ch ∧ ch.fd = c.fd ∧
      (c.first = true → s.poller.interest c.fd = some ⟨ch.events, c.ptr⟩)
  apart : ∀ (i j : Nat) (c d : Accepted), s.conns[i]? = some c → s.conns[j]? = some d →
    c.conn.destroyed = false → d.conn.destroyed = false → c.ptr = d.ptr → i = j
  deaf : ∀ (i : Nat) (c : Accepted), s.conns[i]? = some c → c.first = false →
    s.poller.interest c.fd = none ∧ c.conn = {} ∧ c.handled = 0
  listed : ∀ c ∈ s.conns, s.poller.channels c.fd ≠ none
  known : ∀ fd, s.poller.channels fd ≠ none → s.poller.isOpen fd = true ∨ ∃ c ∈ s.conns, c.fd = fd
  first : ∀ (i : Nat) (c : Accepted), s.conns[i]? = some c →
    (c.first = true ↔ c.fd ∉ (s.conns.map Accepted.fd).take i)
  batch : ∀ event ∈ s.batch, ∃ c, s.conns[event.1]? = some c ∧ c.first = true

variable {s : State} {i j : Nat} {c d : Accepted}

theorem Kept.fds_apart (inv : Kept s) (atI : s.conns[i]? = some c) (atJ : s.conns[j]? = some d)
    (aliveI : c.conn.destroyed = false) (aliveJ : d.conn.destroyed = false) (same : c.fd = d.fd) : i = j := by
  obtain ⟨ch, here, fd, _⟩ := inv.alive i c atI aliveI
  obtain ⟨other, there, fd', _⟩ := inv.alive j d atJ aliveJ
  have ptr := inv.sound.distinct _ _ ch other here there (fd.trans (same.trans fd'.symm))
  exact inv.apart i j c d atI atJ aliveI aliveJ ptr

theorem Kept.deaf_alive (inv : Kept s) (here : s.conns[i]? = some c) (later : c.first = false) :
    c.conn.destroyed = false := by
  rw [(inv.deaf i c here later).2.1]

/-- One connection changes, and the poller with it as far as that connection is concerned. -/
theorem Kept.change (inv : Kept s) (here : s.conns[i]? = some c) (alive : c.conn.destroyed = false)
    (ptr : d.ptr = c.ptr) (fd : d.fd = c.fd) (first : d.first = c.first) {poller : Poller}
    (sound : poller.Sound)
    (mine : d.conn.destroyed = false → ∃ ch, poller.live c.ptr = some ch ∧ ch.fd = c.fd ∧
      (c.first = true → poller.interest c.fd = some ⟨ch.events, c.ptr⟩))
    (quiet : c.first = false → poller.interest c.fd = none ∧ d.conn = {} ∧ d.handled = 0)
    (live : ∀ p ch, p ≠ c.ptr → s.poller.live p = some ch → poller.live p = some ch)
    (interest : ∀ f, f ≠ c.fd → poller.interest f = s.poller.interest f)
    (channels : ∀ f, poller.channels f = none ↔ s.poller.channels f = none)
    (isOpen : ∀ f, f ≠ c.fd → poller.isOpen f = s.poller.isOpen f) :
    Kept { s with poller, conns := s.conns.set i d } where
  sound := sound
  alive j e found there := by
    rcases (threads_set_iff here).mp found with ⟨_, rfl⟩ | ⟨differ, old⟩
    · rw [ptr, fd, first]
      exact mine there
    · obtain ⟨ch, at_, same, heard⟩ := inv.alive j e old there
      have otherPtr : e.ptr ≠ c.ptr := fun equal => differ (inv.apart j i e c old here there alive equal)
      have otherFd : e.fd ≠ c.fd := fun equal => differ (inv.fds_apart old here there alive equal)
      exact ⟨ch, live _ ch otherPtr at_, same, fun served => (interest _ otherFd).trans (heard served)⟩
  apart j k e f atJ atK aliveJ aliveK same := by
    rcases (threads_set_iff here).mp atJ with ⟨rfl, rfl⟩ | ⟨differJ, oldJ⟩
    · rcases (threads_set_iff here).mp atK with ⟨rfl, rfl⟩ | ⟨_, oldK⟩
      · rfl
      · exact inv.apart j k c f here oldK alive aliveK (ptr.symm.trans same)
    · rcases (threads_set_iff here).mp atK with ⟨rfl, rfl⟩ | ⟨_, oldK⟩
      · exact inv.apart j k e c oldJ here aliveJ alive (same.trans ptr)
      · exact inv.apart j k e f oldJ oldK aliveJ aliveK same
  deaf j e found later := by
    rcases (threads_set_iff here).mp found with ⟨_, rfl⟩ | ⟨differ, old⟩
    · rw [fd]
      exact quiet (first.symm.trans later)
    · obtain ⟨absent, rest⟩ := inv.deaf j e old later
      have otherFd : e.fd ≠ c.fd := fun equal =>
        differ (inv.fds_apart old here (inv.deaf_alive old later) alive equal)
      exact ⟨(interest _ otherFd).trans absent, rest⟩
  listed e member := by
    obtain ⟨j, found⟩ := List.getElem?_of_mem member
    intro free
    rcases (threads_set_iff here).mp found with ⟨_, rfl⟩ | ⟨_, old⟩
    · exact inv.listed c (List.mem_of_getElem? here) ((channels _).mp (fd ▸ free))
    · exact inv.listed e (List.mem_of_getElem? old) ((channels _).mp free)
  known f listed := by
    have mem : ∃ e ∈ s.conns.set i d, e.fd = c.fd :=
      ⟨d, List.mem_of_getElem? (threads_set_self here d), fd⟩
    by_cases own : f = c.fd
    · exact .inr (own ▸ mem)
    · rcases inv.known f fun free => listed ((channels f).mpr free) with opened | ⟨e, member, same⟩
      · exact .inl ((isOpen f own).trans opened)
      · obtain ⟨j, found⟩ := List.getElem?_of_mem member
        by_cases at_i : j = i
        · subst at_i
          cases here.symm.trans found
          exact .inr (same ▸ mem)
        · exact .inr ⟨e, List.mem_of_getElem? (threads_set_other at_i found d), same⟩
  first j e found := by
    have fds : (s.conns.set i d).map Accepted.fd = s.conns.map Accepted.fd := by
      have same : (s.conns.map Accepted.fd)[i]? = some d.fd := by rw [List.getElem?_map, here, fd]; rfl
      obtain ⟨inside, value⟩ := List.getElem?_eq_some_iff.mp same
      rw [List.map_set, ← value, List.set_getElem_self]
    rw [fds]
    rcases (threads_set_iff here).mp found with ⟨rfl, rfl⟩ | ⟨_, old⟩
    · rw [first, fd]
      exact inv.first j c here
    · exact inv.first j e old
  batch event waiting := by
    obtain ⟨e, found, heard⟩ := inv.batch event waiting
    by_cases at_i : event.1 = i
    · rw [at_i] at found ⊢
      cases here.symm.trans found
      exact ⟨d, threads_set_self here d, first.trans heard⟩
    · exact ⟨e, threads_set_other at_i found d, heard⟩

/-- The poller reports events, or the loop has handled one. -/
theorem Kept.rebatch (inv : Kept s) {batch : List (Nat × UInt32)}
    (heard : ∀ event ∈ batch, ∃ c, s.conns[event.1]? = some c ∧ c.first = true) : Kept { s with batch } :=
  { inv with batch := heard }

/-- Only a connection with a new descriptor gets an event, which is one of that descriptor. -/
theorem Kept.reported (inv : Kept s) (here : s.conns[i]? = some c) (alive : c.conn.destroyed = false)
    {fd : Fd} {events : UInt32} (reported : s.poller.interest fd = some ⟨events, c.ptr⟩) :
    fd = c.fd ∧ c.first = true := by
  obtain ⟨ch, there, same, _⟩ := inv.alive i c here alive
  obtain ⟨other, watched, fd⟩ := inv.sound.watching _ _ reported
  cases there.symm.trans watched
  obtain rfl := fd.symm.trans same
  refine ⟨rfl, ?_⟩
  by_contra later
  have absent := (inv.deaf i c here (Bool.eq_false_iff.mpr later)).1
  cases absent.symm.trans reported

/-- A connection with a new descriptor changes, or is destroyed. -/
theorem Kept.move (inv : Kept s) (here : s.conns[i]? = some c) (alive : c.conn.destroyed = false)
    (heard : c.first = true) (ptr : d.ptr = c.ptr) (fd : d.fd = c.fd) (first : d.first = c.first) :
    Kept (s.move i d) := by
  obtain ⟨ch, there, same, watched⟩ := inv.alive i c here alive
  have served : c.first = false → False := fun later => by rw [heard] at later; cases later
  cases gone : d.conn.destroyed with
  | false =>
    have still : s.move i d = { s with poller := s.poller, conns := s.conns.set i d } := by
      simp only [State.move, gone, Bool.false_eq_true, if_false]
    rw [still]
    exact inv.change here alive ptr fd first inv.sound (fun _ => ⟨ch, there, same, watched⟩)
      (fun later => (served later).elim) (fun _ _ _ old => old) (fun _ _ => rfl) (fun _ => Iff.rfl) (fun _ _ => rfl)
  | true =>
    have destroyed : s.move i d = { s with poller := s.poller.destroy c.ptr ch, conns := s.conns.set i d } := by
      simp only [State.move, gone, if_true, Poller.step, ptr, there, Option.map_some, Option.getD_some]
    rw [destroyed]
    let removed : LiveChannel := { ch with toChannel := ch.toChannel.remove }
    have own : removed.fd = c.fd := same
    refine inv.change here alive ptr fd first (inv.sound.destroy there) (fun there => by rw [gone] at there; cases there)
      (fun later => (served later).elim) ?_ ?_ ?_ ?_
    · exact fun p other differ old => (Poller.destroy_live s.poller c.ptr p ch other).mpr ⟨differ, old⟩
    · intro f other
      refine (Function.update_of_ne (same.symm ▸ other) ..).trans ?_
      exact @Poller.update_interest_other s.poller c.ptr removed f (own ▸ other)
    · intro f
      refine (@Poller.update_channels s.poller c.ptr removed f).trans (and_iff_left_of_imp ?_)
      rintro free rfl
      exact inv.listed c (List.mem_of_getElem? here) (own ▸ free)
    · intro f other
      refine (Function.update_of_ne (same.symm ▸ other) ..).trans ?_
      rw [Poller.update_isOpen]

/-- A connection that is there asks for other events, and gets them if it is in the interest set. -/
theorem Kept.write (inv : Kept s) (member : c ∈ s.conns) (alive : c.conn.destroyed = false)
    {op : Poller.Op} {next : Poller} (writes : op = .enableWriting c.ptr ∨ op = .disableWriting c.ptr)
    (stepped : s.poller.step op = some next) : Kept { s with poller := next } := by
  obtain ⟨i, here⟩ := List.getElem?_of_mem member
  obtain ⟨ch, there, same, watched⟩ := inv.alive i c here alive
  obtain ⟨changed, fd, rfl⟩ : ∃ changed : LiveChannel, changed.fd = ch.fd ∧ next = s.poller.update c.ptr changed := by
    rcases writes with rfl | rfl
    · rw [Poller.step, there] at stepped
      exact ⟨{ ch with toChannel := ch.toChannel.enableWriting }, rfl, (Option.some.inj stepped).symm⟩
    · rw [Poller.step, there] at stepped
      exact ⟨{ ch with toChannel := ch.toChannel.disableWriting }, rfl, (Option.some.inj stepped).symm⟩
  have own : changed.fd = c.fd := fd.trans same
  have listed := inv.listed c member
  have unchanged : s.conns.set i c = s.conns := by
    obtain ⟨inside, value⟩ := List.getElem?_eq_some_iff.mp here
    rw [← value, List.set_getElem_self]
  have kept := inv.change here alive rfl rfl rfl (inv.sound.update there fd)
    (fun _ => ?_) (fun later => ?_) (fun p other differ old => ?_) (fun f other => ?_) (fun f => ?_) (fun f _ => ?_)
  · rwa [unchanged] at kept
  · refine ⟨{ changed with updated := true }, ?_, own, fun heard => ?_⟩
    · rw [Poller.update_live, Function.update_self]
    · have present := watched heard
      rw [Poller.update_heard (.inr ⟨own ▸ listed, fun absent => ?_⟩), own, Function.update_self]
      rw [own] at absent
      cases absent.symm.trans present
  · obtain ⟨absent, rest⟩ := inv.deaf i c here later
    rw [Poller.update_deaf (own ▸ listed) (own ▸ absent)]
    exact ⟨absent, rest⟩
  · rw [Poller.update_live]
    exact entered_iff.mpr (.inr ⟨differ, old⟩)
  · exact Poller.update_interest_other (own ▸ other)
  · refine (Poller.update_channels f).trans (and_iff_left_of_imp ?_)
    rintro free rfl
    exact listed (own ▸ free)
  · rw [Poller.update_isOpen]

/-- A descriptor that is free is new to the loop exactly if no connection has had it. -/
theorem Kept.new_iff (inv : Kept s) {fd : Fd} (closed : s.poller.isOpen fd = false) :
    s.poller.channels fd = none ↔ fd ∉ s.conns.map Accepted.fd := by
  constructor
  · rintro free there
    obtain ⟨c, member, rfl⟩ := List.mem_map.mp there
    exact inv.listed c member free
  · intro unused
    by_contra listed
    rcases inv.known fd listed with opened | ⟨c, member, rfl⟩
    · cases opened.symm.trans closed
    · exact unused (List.mem_map_of_mem member)

theorem Kept.accept (inv : Kept s) {p : Ptr} {fd : Fd} (free : s.poller.live p = none)
    (closed : s.poller.isOpen fd = false) : Kept (s.accept p fd) := by
  let created := s.poller.create p fd
  let reading : LiveChannel := { toChannel := Channel.enableReading { fd := fd }, reading := true }
  have placed : created.live p = some { fd := fd } := Function.update_self ..
  have absent : s.poller.interest fd = none := by
    by_contra watched
    obtain ⟨event, watched⟩ := Option.ne_none_iff_exists'.mp watched
    obtain ⟨ch, there, rfl⟩ := inv.sound.watching fd event watched
    cases (inv.sound.opened _ ch there).symm.trans closed
  have old : ∀ (j : Nat) (e : Accepted), s.conns[j]? = some e → e.conn.destroyed = false →
      e.ptr ≠ p ∧ e.fd ≠ fd := by
    intro j e found there
    obtain ⟨ch, at_, same, _⟩ := inv.alive j e found there
    refine ⟨?_, ?_⟩
    · rintro rfl
      cases free.symm.trans at_
    · rintro rfl
      exact inv.sound.fresh closed at_ same
  have unchanged : ∀ f, f ≠ fd → (created.update p reading).interest f = s.poller.interest f :=
    fun f other => @Poller.update_interest_other created p reading f other
  have grown : ∀ f, (created.update p reading).channels f = none ↔ s.poller.channels f = none ∧ f ≠ fd :=
    fun f => @Poller.update_channels created p reading f
  constructor
  · exact (inv.sound.create free closed).update placed rfl
  · intro j e found there
    simp only [State.accept, Poller.connectEstablished, Poller.update_live]
    rcases threads_append_iff.mp found with before | ⟨_, rfl⟩
    · obtain ⟨ch, at_, same, heard⟩ := inv.alive j e before there
      obtain ⟨ptr, other⟩ := old j e before there
      refine ⟨ch, entered_iff.mpr (.inr ⟨ptr, entered_iff.mpr (.inr ⟨ptr, at_⟩)⟩), same, fun first => ?_⟩
      exact (unchanged e.fd other).trans (heard first)
    · refine ⟨_, Function.update_self .., rfl, fun first => ?_⟩
      have unlisted : s.poller.channels fd = none := Option.isNone_iff_eq_none.mp first
      have entered := @Poller.update_heard created p reading (.inl ⟨unlisted, absent⟩)
      exact (congrFun entered fd).trans (Function.update_self ..)
  · intro j k e f atJ atK aliveJ aliveK same
    rcases threads_append_iff.mp atJ with oldJ | ⟨rfl, rfl⟩
    · rcases threads_append_iff.mp atK with oldK | ⟨rfl, rfl⟩
      · exact inv.apart j k e f oldJ oldK aliveJ aliveK same
      · exact absurd same (old j e oldJ aliveJ).1
    · rcases threads_append_iff.mp atK with oldK | ⟨rfl, rfl⟩
      · exact absurd same.symm (old k f oldK aliveK).1
      · rfl
  · intro j e found later
    rcases threads_append_iff.mp found with before | ⟨_, rfl⟩
    · obtain ⟨none, rest⟩ := inv.deaf j e before later
      exact ⟨(unchanged e.fd (old j e before (inv.deaf_alive before later)).2).trans none, rest⟩
    · refine ⟨?_, rfl, rfl⟩
      have listed : s.poller.channels fd ≠ none := by
        intro unlisted
        rw [unlisted] at later
        cases later
      exact (congrFun (@Poller.update_deaf created p reading listed absent) fd).trans absent
  · intro e member unlisted
    obtain ⟨before, other⟩ := (grown e.fd).mp unlisted
    rcases List.mem_append.mp member with old | new
    · exact inv.listed e old before
    · rw [List.mem_singleton.mp new] at other
      exact other rfl
  · intro f listed
    by_cases own : f = fd
    · exact .inr ⟨_, List.mem_append_right _ (List.mem_singleton_self _), own.symm⟩
    · rcases inv.known f fun unlisted => listed ((grown f).mpr ⟨unlisted, own⟩) with opened | ⟨e, member, same⟩
      · refine .inl ?_
        simp only [State.accept, Poller.connectEstablished, Poller.update_isOpen, Poller.create]
        rw [Function.update_of_ne own, opened]
      · exact .inr ⟨e, List.mem_append_left _ member, same⟩
  · intro j e found
    simp only [State.accept, List.map_append]
    rcases threads_append_iff.mp found with before | ⟨rfl, rfl⟩
    · have inside : j ≤ (s.conns.map Accepted.fd).length := by
        rw [List.length_map]
        exact Nat.le_of_lt (List.getElem?_eq_some_iff.mp before).1
      rw [List.take_append_of_le_length inside]
      exact inv.first j e before
    · have all : s.conns.length = (s.conns.map Accepted.fd).length := (List.length_map _).symm
      rw [all, List.take_left, Option.isNone_iff_eq_none]
      exact inv.new_iff closed
  · intro event waiting
    obtain ⟨e, found, heard⟩ := inv.batch event waiting
    exact ⟨e, threads_append_iff.mpr (.inl found), heard⟩

/-- Only a connection with a new descriptor is held by tasks and functors. -/
theorem Kept.holds_first (inv : Kept s) (here : s.conns[i]? = some c) (holds : 0 < c.conn.refs) :
    c.first = true := by
  by_contra later
  have idle := (inv.deaf i c here (Bool.eq_false_iff.mpr later)).2.1
  rw [idle] at holds
  exact Nat.lt_irrefl 0 holds

/-- Only a connection with a new descriptor has an event to be handled. -/
theorem Kept.next_first {revents : UInt32} {rest : List (Nat × UInt32)} (inv : Kept s)
    (next : s.batch = (i, revents) :: rest) (here : s.conns[i]? = some c) : c.first = true := by
  obtain ⟨e, found, heard⟩ := inv.batch (i, revents) (next ▸ List.mem_cons_self)
  cases here.symm.trans found
  exact heard

theorem Kept.step {t : State} {action : Action} (inv : Kept s) (step : Step s action t) : Kept t := by
  cases step with
  | accept _ free closed => exact inv.accept free closed
  | poll _ _ _ reported =>
    refine inv.rebatch fun event there => ?_
    obtain ⟨c, _, _, here, alive, watched⟩ := reported event there
    exact ⟨c, here, (inv.reported here alive watched).2⟩
  | @dispatch i c revents _ result tasks next here alive =>
    have moved : Kept (s.move i (c.handleEvent revents result tasks)) :=
      inv.move here alive (inv.next_first next here) rfl rfl rfl
    exact moved.rebatch fun event there => moved.batch event (next ▸ List.mem_cons_of_mem _ there)
  | write member alive writes stepped => exact inv.write member alive writes stepped
  | copy here alive holds | release here alive holds =>
    exact inv.move here alive (inv.holds_first here holds) rfl rfl rfl

theorem kept_start {isOpen : Fd → Bool} {wakeupFd listenFd : Fd} {wakeupChannel acceptChannel : Ptr}
    (freshWakeup : isOpen wakeupFd = false) (freshListen : isOpen listenFd = false)
    (differ : listenFd ≠ wakeupFd) (apart : acceptChannel ≠ wakeupChannel) :
    Kept (State.start isOpen wakeupFd wakeupChannel listenFd acceptChannel) := by
  let loop := Poller.new isOpen wakeupFd wakeupChannel
  have free : loop.live acceptChannel = none := by
    simp only [loop, Poller.new, Poller.connectEstablished, Poller.update_live, Poller.create,
      Function.update_of_ne apart]
  have closed : loop.isOpen listenFd = false := by
    simp only [loop, Poller.new, Poller.connectEstablished, Poller.update_isOpen, Poller.create,
      Function.update_of_ne differ, freshListen]
  have placed : (loop.create acceptChannel listenFd).live acceptChannel = some { fd := listenFd } :=
    Function.update_self ..
  have sound := (Poller.sound_new freshWakeup wakeupChannel).create free closed
  have registered : (State.start isOpen wakeupFd wakeupChannel listenFd acceptChannel).poller.Registered :=
    ((Poller.registered_new freshWakeup wakeupChannel).create free closed).update placed rfl
  refine ⟨sound.update placed rfl, fun _ _ here => (by cases here), fun _ _ _ _ here => (by cases here),
    fun _ _ here => (by cases here), fun _ here => (by cases here), fun fd listed => .inl ?_,
    fun _ _ here => (by cases here), fun _ waiting => (by cases waiting)⟩
  obtain ⟨p, entry⟩ := Option.ne_none_iff_exists'.mp listed
  obtain ⟨ch, there, _, rfl⟩ := (registered.listed fd p).mp entry
  exact registered.opened p ch there

/-- In every state of a server, a connection whose descriptor an earlier one had is not in the interest
set: no event of it has been handled, and it stays in `connections_` with its descriptor open. A
connection with a new descriptor is in the interest set with its channel until it is destroyed. -/
theorem handled_iff_new {isOpen : Fd → Bool} {wakeupFd listenFd : Fd} {wakeupChannel acceptChannel : Ptr}
    (freshWakeup : isOpen wakeupFd = false) (freshListen : isOpen listenFd = false)
    (differ : listenFd ≠ wakeupFd) (apart : acceptChannel ≠ wakeupChannel)
    (run : Runs Step (State.start isOpen wakeupFd wakeupChannel listenFd acceptChannel) s) (i : Nat) (c : Accepted)
    (here : s.conns[i]? = some c) :
    (c.fd ∈ (s.conns.map Accepted.fd).take i →
        c.handled = 0 ∧ c.conn.held = true ∧ s.poller.isOpen c.fd = true ∧ s.poller.interest c.fd = none) ∧
      (c.fd ∉ (s.conns.map Accepted.fd).take i → c.conn.destroyed = false →
        ∃ events, s.poller.interest c.fd = some ⟨events, c.ptr⟩) := by
  have inv : Kept s := run.invariant (fun _ _ _ inv step => inv.step step)
    (kept_start freshWakeup freshListen differ apart)
  refine ⟨fun used => ?_, fun unused there => ?_⟩
  · have later : c.first = false := Bool.eq_false_iff.mpr fun first => (inv.first i c here).mp first used
    obtain ⟨absent, idle, handled⟩ := inv.deaf i c here later
    obtain ⟨ch, there, same, _⟩ := inv.alive i c here (inv.deaf_alive here later)
    exact ⟨handled, by rw [idle], same ▸ inv.sound.opened c.ptr ch there, absent⟩
  · obtain ⟨ch, _, _, watched⟩ := inv.alive i c here there
    exact ⟨ch.events, watched ((inv.first i c here).mpr unused)⟩

/-- The first connection has been closed, and the second one has its descriptor. -/
theorem handled_iff_new_reused : ∃ (s : State) (c d : Accepted), s.conns = [c, d] ∧ c.fd = 7 ∧ d.fd = 7 ∧
    c.conn.destroyed = true ∧ d.conn.held = true ∧ s.poller.interest 7 = none := by
  have start : Runs Step (State.start (· < 5) 5 50 6 60) _ := .refl
  have accepted := start.tail ⟨_, @Step.accept _ 100 7 _ rfl rfl rfl⟩
  have reported := accepted.tail ⟨_, @Step.report _ 0 _ 7 _ EPOLLHUP rfl rfl rfl rfl⟩
  have closed := reported.tail ⟨_, @Step.dispatch _ 0 _ EPOLLHUP [] (.ok []) 0 rfl rfl rfl⟩
  have again := closed.tail ⟨_, @Step.accept _ 200 7 _ rfl rfl rfl⟩
  obtain ⟨_, held, _, absent⟩ := (handled_iff_new rfl rfl (by decide) (by decide) again 1 _ rfl).1 (by decide)
  exact ⟨_, _, _, rfl, rfl, rfl, by decide, held, absent⟩

/-- The descriptors of the connections that satisfy a condition. -/
def State.fds (s : State) (p : Accepted → Bool) : List Fd := (s.conns.filter p).map Accepted.fd

theorem State.fds_nodup {p : Accepted → Bool}
    (distinct : ∀ (i j : Nat) (c d : Accepted), i < j → s.conns[i]? = some c → s.conns[j]? = some d →
      p c = true → p d = true → c.fd ≠ d.fd) : (s.fds p).Nodup := by
  rw [State.fds, List.Nodup, List.pairwise_map, List.pairwise_filter, List.pairwise_iff_getElem]
  intro i j inI inJ before holdsI holdsJ
  exact distinct i j _ _ before (List.getElem?_eq_getElem inI) (List.getElem?_eq_getElem inJ) holdsI holdsJ

/-- No descriptor is new to the loop twice. -/
theorem Kept.firsts_nodup (inv : Kept s) : (s.fds Accepted.first).Nodup := by
  refine State.fds_nodup fun i j c d before atI atJ _ first same => ?_
  refine (inv.first j d atJ).mp first ?_
  refine List.mem_take_iff_getElem.mpr ⟨i, ?_, ?_⟩
  · have inside := (List.getElem?_eq_some_iff.mp atI).1
    rw [List.length_map]
    exact Nat.lt_min.mpr ⟨before, inside⟩
  · rw [List.getElem_map, (List.getElem?_eq_some_iff.mp atI).2, same]

theorem Kept.alive_nodup (inv : Kept s) : (s.fds fun c => !c.conn.destroyed).Nodup := by
  refine State.fds_nodup fun i j c d before atI atJ aliveI aliveJ same => ?_
  have equal := inv.fds_apart atI atJ (by simpa using aliveI) (by simpa using aliveJ) same
  exact Nat.ne_of_lt before equal

theorem Kept.later_nodup (inv : Kept s) : (s.fds fun c => !c.first).Nodup := by
  refine State.fds_nodup fun i j c d before atI atJ laterI laterJ same => ?_
  have equal := inv.fds_apart atI atJ (inv.deaf_alive atI (by simpa using laterI))
    (inv.deaf_alive atJ (by simpa using laterJ)) same
  exact Nat.ne_of_lt before equal

theorem State.fds_within {p : Accepted → Bool} {fds : List Fd} (nodup : (s.fds p).Nodup)
    (within : ∀ c ∈ s.conns, p c = true → c.fd ∈ fds) : s.conns.countP p ≤ fds.length := by
  have subset : s.fds p ⊆ fds := by
    intro fd member
    obtain ⟨c, inside, rfl⟩ := List.mem_map.mp member
    obtain ⟨there, holds⟩ := List.mem_filter.mp inside
    exact within c there holds
  have bound := (List.subperm_of_subset nodup subset).length_le
  rwa [State.fds, List.length_map, ← List.countP_eq_length_filter] at bound

/-- A server accepts no more than two connections with one descriptor in all its life, however often
its connections are closed: with descriptors below a limit, it accepts no more than twice as many
connections, of which no more than the limit are ever served. -/
theorem accepted_le {isOpen : Fd → Bool} {wakeupFd listenFd : Fd} {wakeupChannel acceptChannel : Ptr}
    (freshWakeup : isOpen wakeupFd = false) (freshListen : isOpen listenFd = false)
    (differ : listenFd ≠ wakeupFd) (apart : acceptChannel ≠ wakeupChannel)
    (run : Runs Step (State.start isOpen wakeupFd wakeupChannel listenFd acceptChannel) s) :
    (∀ fd, (s.conns.map Accepted.fd).count fd ≤ 2) ∧
      ∀ limit, (∀ c ∈ s.conns, c.fd < limit) →
        s.conns.length ≤ 2 * limit ∧ s.conns.countP (fun c => 0 < c.handled) ≤ limit := by
  have inv : Kept s := run.invariant (fun _ _ _ inv step => inv.step step)
    (kept_start freshWakeup freshListen differ apart)
  refine ⟨fun fd => ?_, fun limit below => ?_⟩
  · have first := List.nodup_iff_count_le_one.mp inv.firsts_nodup fd
    have later := List.nodup_iff_count_le_one.mp inv.later_nodup fd
    have both : (s.conns.map Accepted.fd).count fd =
        (s.fds Accepted.first).count fd + (s.fds fun c => !c.first).count fd := by
      simp only [State.fds, List.count, List.countP_map, List.countP_filter]
      rw [List.countP_eq_countP_filter_add s.conns _ Accepted.first, List.countP_filter, List.countP_filter]
    omega
  · have within : ∀ c ∈ s.conns, c.fd ∈ List.range limit := fun c there => List.mem_range.mpr (below c there)
    have first := State.fds_within inv.firsts_nodup fun c there _ => within c there
    have later := State.fds_within inv.later_nodup fun c there _ => within c there
    have all := List.length_eq_countP_add_countP Accepted.first (l := s.conns)
    rw [List.length_range] at first later
    have handled : s.conns.countP (fun c => 0 < c.handled) ≤ s.conns.countP Accepted.first := by
      refine List.countP_mono_left fun c there event => ?_
      obtain ⟨i, here⟩ := List.getElem?_of_mem there
      by_contra later
      have none := (inv.deaf i c here (Bool.eq_false_iff.mpr later)).2.2
      rw [none] at event
      cases event
    simp only [Bool.not_eq_true, Bool.decide_eq_false] at all
    omega

/-- One descriptor, twice. -/
theorem accepted_le_reused : ∃ s : State, (s.conns.map Accepted.fd).count 7 = 2 ∧
    s.conns.length ≤ 16 ∧ s.conns.countP (fun c => 0 < c.handled) ≤ 8 := by
  have start : Runs Step (State.start (· < 5) 5 50 6 60) _ := .refl
  have accepted := start.tail ⟨_, @Step.accept _ 100 7 _ rfl rfl rfl⟩
  have reported := accepted.tail ⟨_, @Step.report _ 0 _ 7 _ EPOLLHUP rfl rfl rfl rfl⟩
  have closed := reported.tail ⟨_, @Step.dispatch _ 0 _ EPOLLHUP [] (.ok []) 0 rfl rfl rfl⟩
  have again := closed.tail ⟨_, @Step.accept _ 200 7 _ rfl rfl rfl⟩
  obtain ⟨_, bound⟩ := accepted_le rfl rfl (by decide) (by decide) again
  have below := bound 8 fun c there => by
    rcases List.mem_cons.mp there with rfl | there
    · decide
    · rw [List.mem_singleton.mp there]
      decide
  exact ⟨_, rfl, below.1, below.2⟩

/-- The system hands out the lowest descriptor that is free. -/
def Lowest (s : State) : Action → Prop
  | .accept _ fd => ∀ f < fd, s.poller.isOpen f = true
  | _ => True

/-- When the lowest free descriptor is handed out each time, those that connections have had are the
ones from `base` on, as many as there have been connections at once. -/
structure Dense (base : Fd) (s : State) : Prop extends Kept s where
  low : ∀ fd < base, s.poller.isOpen fd = true
  high : ∀ fd, base + s.peak ≤ fd → s.poller.isOpen fd = false
  within : ∀ c ∈ s.conns, base ≤ c.fd ∧ c.fd < base + s.peak
  used : ∀ fd, base ≤ fd → fd < base + s.peak → fd ∈ s.conns.map Accepted.fd
  held : ∀ fd, base ≤ fd → s.poller.isOpen fd = true → fd ∈ s.fds fun c => !c.conn.destroyed
  firsts : s.conns.countP Accepted.first = s.peak

theorem mem_range {base n fd : Fd} (above : base ≤ fd) (below : fd < base + n) :
    fd ∈ List.range' base n := by
  rw [List.mem_range'_1]
  exact ⟨above, below⟩

theorem Dense.alive_le {base : Fd} (inv : Dense base s) : s.alive ≤ s.peak := by
  have bound := @State.fds_within s _ (List.range' base s.peak) inv.alive_nodup fun c there _ =>
    mem_range (inv.within c there).1 (inv.within c there).2
  rwa [List.length_range'] at bound

/-- With fewer connections there than there have been, one of their descriptors is free. -/
theorem Dense.gap {base : Fd} (inv : Dense base s) (fewer : s.alive < s.peak) :
    ∃ fd, base ≤ fd ∧ fd < base + s.peak ∧ s.poller.isOpen fd = false := by
  by_contra none
  have subset : List.range' base s.peak ⊆ s.fds fun c => !c.conn.destroyed := by
    intro fd member
    obtain ⟨above, below⟩ := List.mem_range'_1.mp member
    refine inv.held fd above ?_
    by_contra closed
    exact none ⟨fd, above, below, Bool.eq_false_iff.mpr closed⟩
  have bound := (List.subperm_of_subset List.nodup_range' subset).length_le
  rw [List.length_range', State.fds, List.length_map, ← List.countP_eq_length_filter] at bound
  exact absurd fewer (Nat.not_lt.mpr bound)

/-- With as many connections there as there have ever been, all of their descriptors are open. -/
theorem Dense.full {base : Fd} (inv : Dense base s) (all : s.alive = s.peak) {fd : Fd} (above : base ≤ fd)
    (below : fd < base + s.peak) : s.poller.isOpen fd = true := by
  have subset : (s.fds fun c => !c.conn.destroyed) ⊆ List.range' base s.peak := by
    intro f member
    obtain ⟨c, inside, rfl⟩ := List.mem_map.mp member
    have there := (List.mem_filter.mp inside).1
    exact mem_range (inv.within c there).1 (inv.within c there).2
  have many : (List.range' base s.peak).length ≤ (s.fds fun c => !c.conn.destroyed).length := by
    rw [List.length_range', State.fds, List.length_map, ← List.countP_eq_length_filter]
    exact all.ge
  have same := (List.subperm_of_subset inv.alive_nodup subset).perm_of_length_le many
  obtain ⟨c, inside, rfl⟩ := List.mem_map.mp (same.mem_iff.mpr (mem_range above below))
  obtain ⟨there, holds⟩ := List.mem_filter.mp inside
  obtain ⟨i, here⟩ := List.getElem?_of_mem there
  obtain ⟨ch, live, fd, _⟩ := inv.alive i c here (by simpa using holds)
  exact fd ▸ inv.sound.opened _ ch live

/-- The next descriptor is a new one exactly if there are as many connections as there have ever been. -/
theorem Dense.lowest {base : Fd} (inv : Dense base s) {fd : Fd} (closed : s.poller.isOpen fd = false)
    (lowest : ∀ f < fd, s.poller.isOpen f = true) :
    base ≤ fd ∧ (s.alive = s.peak → fd = base + s.peak) ∧ (s.alive < s.peak → fd < base + s.peak) := by
  have above : base ≤ fd := by
    by_contra below
    cases (inv.low fd (Nat.not_le.mp below)).symm.trans closed
  refine ⟨above, fun all => ?_, fun fewer => ?_⟩
  · have beyond : base + s.peak ≤ fd := by
      by_contra below
      cases (inv.full all above (Nat.not_le.mp below)).symm.trans closed
    refine le_antisymm (Nat.le_of_not_lt fun further => ?_) beyond
    cases (inv.high _ le_rfl).symm.trans (lowest _ further)
  · obtain ⟨gap, _, below, free⟩ := inv.gap fewer
    by_contra beyond
    cases free.symm.trans (lowest gap (Nat.lt_of_lt_of_le below (Nat.not_lt.mp beyond)))

theorem Dense.accept {base : Fd} (inv : Dense base s) {p : Ptr} {fd : Fd} (free : s.poller.live p = none)
    (closed : s.poller.isOpen fd = false) (lowest : ∀ f < fd, s.poller.isOpen f = true) :
    Dense base (s.accept p fd) ∧
      ((s.poller.channels fd).isNone = true ↔ s.alive = s.peak) := by
  obtain ⟨above, full, fewer⟩ := inv.lowest closed lowest
  have most := inv.alive_le
  have isOpen : (s.accept p fd).poller.isOpen = Function.update s.poller.isOpen fd true := by
    simp only [State.accept, Poller.connectEstablished, Poller.update_isOpen, Poller.create]
  have isNew : (s.poller.channels fd).isNone = true ↔ fd ∉ s.conns.map Accepted.fd :=
    Option.isNone_iff_eq_none.trans (inv.new_iff closed)
  have exactly : (s.poller.channels fd).isNone = true ↔ s.alive = s.peak := by
    rw [isNew]
    constructor
    · intro unused
      by_contra differ
      exact unused (inv.used fd above (fewer (lt_of_le_of_ne most differ)))
    · intro all there
      obtain ⟨c, member, same⟩ := List.mem_map.mp there
      have below := (inv.within c member).2
      rw [same, full all] at below
      exact Nat.lt_irrefl _ below
  have mem : fd ∈ (s.accept p fd).fds fun c => !c.conn.destroyed := by
    rw [State.fds, State.accept, List.filter_append, List.map_append]
    exact List.mem_append_right _ (List.mem_singleton_self fd)
  have raised : s.alive = s.peak → (s.accept p fd).peak = s.peak + 1 := by
    intro all
    rw [← all]
    exact (congrArg (max · _) all.symm).trans (max_eq_right (Nat.le_succ _))
  have same : s.alive < s.peak → (s.accept p fd).peak = s.peak := fun less => max_eq_left less
  have grows : base + s.peak ≤ base + (s.accept p fd).peak := Nat.add_le_add_left (le_max_left ..) base
  have beyond : fd < base + (s.accept p fd).peak := by
    rcases Nat.eq_or_lt_of_le most with all | less
    · rw [raised all, full all]
      exact Nat.lt_succ_self _
    · exact Nat.lt_of_lt_of_le (fewer less) grows
  refine ⟨{ toKept := Kept.accept inv.toKept free closed, low := ?_, high := ?_, within := ?_, used := ?_,
            held := ?_, firsts := ?_ }, exactly⟩
  · intro f below
    rw [isOpen, Function.update_of_ne (Nat.ne_of_lt (Nat.lt_of_lt_of_le below above))]
    exact inv.low f below
  · intro f further
    rw [isOpen, Function.update_of_ne (Nat.ne_of_gt (Nat.lt_of_lt_of_le beyond further))]
    exact inv.high f (Nat.le_trans grows further)
  · intro c member
    rcases List.mem_append.mp member with old | new
    · have bounds := inv.within c old
      exact ⟨bounds.1, Nat.lt_of_lt_of_le bounds.2 grows⟩
    · rw [List.mem_singleton.mp new]
      exact ⟨above, beyond⟩
  · intro f from_ below
    rw [State.accept, List.map_append, List.mem_append]
    by_cases own : f = fd
    · exact .inr (own ▸ List.mem_singleton_self fd)
    · refine .inl (inv.used f from_ ?_)
      rcases Nat.eq_or_lt_of_le most with all | less
      · rw [raised all] at below
        rw [full all] at own
        exact lt_of_le_of_ne (Nat.le_of_lt_succ below) own
      · rwa [same less] at below
  · intro f from_ opened
    by_cases own : f = fd
    · exact own ▸ mem
    · rw [isOpen, Function.update_of_ne own] at opened
      have there := inv.held f from_ opened
      rw [State.fds, State.accept, List.filter_append, List.map_append]
      exact List.mem_append_left _ there
  · have counted : (s.accept p fd).conns.countP Accepted.first =
        s.peak + if (s.poller.channels fd).isNone = true then 1 else 0 := by
      rw [State.accept, List.countP_append, inv.firsts, List.countP_singleton]
    rw [counted]
    rcases Nat.eq_or_lt_of_le most with all | less
    · rw [if_pos (exactly.mpr all), raised all]
    · rw [if_neg fun first => absurd (exactly.mp first) (Nat.ne_of_lt less), same less, Nat.add_zero]

theorem move_isOpen (inv : Kept s) (here : s.conns[i]? = some c) (alive : c.conn.destroyed = false)
    (ptr : d.ptr = c.ptr) :
    (s.move i d).poller.isOpen =
      if d.conn.destroyed = true then Function.update s.poller.isOpen c.fd false else s.poller.isOpen := by
  obtain ⟨ch, there, same, _⟩ := inv.alive i c here alive
  cases gone : d.conn.destroyed with
  | false => simp only [State.move, gone, Bool.false_eq_true, if_false]
  | true =>
    simp only [State.move, gone, if_true, Poller.step, ptr, there, Option.map_some, Option.getD_some,
      Poller.destroy, Poller.update_isOpen, same]

theorem Dense.move {base : Fd} (inv : Dense base s) (here : s.conns[i]? = some c)
    (alive : c.conn.destroyed = false) (heard : c.first = true) (ptr : d.ptr = c.ptr) (fd : d.fd = c.fd)
    (first : d.first = c.first) : Dense base (s.move i d) := by
  have isOpen := move_isOpen inv.toKept here alive ptr
  have kept {α : Type} (f : Accepted → α) (same : f d = f c) : (s.conns.set i d).map f = s.conns.map f := by
    have value : (s.conns.map f)[i]? = some (f d) := by rw [List.getElem?_map, here, same]; rfl
    obtain ⟨inside, value⟩ := List.getElem?_eq_some_iff.mp value
    rw [List.map_set, ← value, List.set_getElem_self]
  have own := inv.within c (List.mem_of_getElem? here)
  refine { toKept := Kept.move inv.toKept here alive heard ptr fd first, low := ?_, high := ?_, within := ?_,
           used := ?_, held := ?_, firsts := ?_ }
  · intro f below
    rw [isOpen]
    split
    · rw [Function.update_of_ne (Nat.ne_of_lt (Nat.lt_of_lt_of_le below own.1))]
      exact inv.low f below
    · exact inv.low f below
  · intro f further
    rw [isOpen]
    split
    · rw [Function.update_of_ne (Nat.ne_of_gt (Nat.lt_of_lt_of_le own.2 further))]
      exact inv.high f further
    · exact inv.high f further
  · intro e member
    have there : e.fd ∈ (s.conns.set i d).map Accepted.fd := List.mem_map_of_mem member
    rw [kept Accepted.fd fd] at there
    obtain ⟨old, inside, same⟩ := List.mem_map.mp there
    exact same ▸ inv.within old inside
  · intro f from_ below
    exact (kept Accepted.fd fd).symm ▸ inv.used f from_ below
  · intro f from_ opened
    rw [isOpen] at opened
    have before : s.poller.isOpen f = true ∧ (d.conn.destroyed = true → f ≠ c.fd) := by
      split at opened
      · have other : f ≠ c.fd := by
          rintro rfl
          rw [Function.update_self] at opened
          cases opened
        rw [Function.update_of_ne other] at opened
        exact ⟨opened, fun _ => other⟩
      · rename_i there
        exact ⟨opened, fun gone => absurd gone there⟩
    obtain ⟨e, inside, rfl⟩ := List.mem_map.mp (inv.held f from_ before.1)
    obtain ⟨member, there⟩ := List.mem_filter.mp inside
    obtain ⟨j, found⟩ := List.getElem?_of_mem member
    by_cases at_i : j = i
    · subst at_i
      cases here.symm.trans found
      refine List.mem_map.mpr ⟨d, List.mem_filter.mpr ⟨List.mem_of_getElem? (threads_set_self here d), ?_⟩, fd⟩
      cases gone : d.conn.destroyed with
      | false => rfl
      | true => exact absurd rfl (before.2 gone)
    · have still := List.mem_of_getElem? (threads_set_other at_i found d)
      exact List.mem_map.mpr ⟨e, List.mem_filter.mpr ⟨still, there⟩, rfl⟩
  · have counted := congrArg (List.countP id) (kept Accepted.first first)
    rw [List.countP_map, List.countP_map] at counted
    exact counted.trans inv.firsts

theorem Dense.step {base : Fd} {t : State} {action : Action} (inv : Dense base s) (lowest : Lowest s action)
    (step : Step s action t) : Dense base t := by
  have kept := Kept.step inv.toKept step
  cases step with
  | accept _ free closed => exact (inv.accept free closed lowest).1
  | poll => exact { inv with toKept := kept }
  | @dispatch i c revents _ result tasks next here alive =>
    have moved : Dense base (s.move i (c.handleEvent revents result tasks)) :=
      inv.move here alive (Kept.next_first inv.toKept next here) rfl rfl rfl
    exact { moved with toKept := kept }
  | write member alive writes stepped =>
    rename_i next
    have same : next.isOpen = s.poller.isOpen := by
      rcases writes with rfl | rfl
      all_goals
        obtain ⟨ch, _, rfl⟩ := Option.map_eq_some_iff.mp stepped
        exact Poller.update_isOpen ..
    exact { toKept := kept, low := same ▸ inv.low, high := same ▸ inv.high, within := inv.within, used := inv.used,
            held := same ▸ inv.held, firsts := inv.firsts }
  | copy here alive holds | release here alive holds =>
    exact inv.move here alive (Kept.holds_first inv.toKept here holds) rfl rfl rfl

/-- Where the lowest free descriptor is handed out each time, the descriptors open at the start are those
below `base` and only the server opens and closes any, it serves a new connection exactly if at that
moment there are as many connections as there have ever been at once. So as many connections are ever
served as have been there at once. -/
theorem served_iff_peak {isOpen : Fd → Bool} {wakeupFd listenFd base : Fd} {wakeupChannel acceptChannel : Ptr}
    (freshWakeup : isOpen wakeupFd = false) (freshListen : isOpen listenFd = false)
    (differ : listenFd ≠ wakeupFd) (apart : acceptChannel ≠ wakeupChannel)
    (opened : ∀ fd, (State.start isOpen wakeupFd wakeupChannel listenFd acceptChannel).poller.isOpen fd = true ↔
      fd < base)
    (run : Runs (Restricted Lowest Step) (State.start isOpen wakeupFd wakeupChannel listenFd acceptChannel) s) :
    s.conns.countP Accepted.first = s.peak ∧ s.alive ≤ s.peak ∧
      ∀ p fd t, Restricted Lowest Step s (.accept p fd) t →
        ((∃ events, t.poller.interest fd = some ⟨events, p⟩) ↔ s.alive = s.peak) := by
  have start : Dense base (State.start isOpen wakeupFd wakeupChannel listenFd acceptChannel) := by
    refine { toKept := kept_start freshWakeup freshListen differ apart, low := fun fd below => (opened fd).mpr below,
             high := fun fd further => ?_, within := nofun, used := fun fd from_ below => ?_, held := fun fd from_ there => ?_,
             firsts := rfl }
    · exact Bool.eq_false_iff.mpr fun there => absurd ((opened fd).mp there) (Nat.not_lt.mpr further)
    · exact absurd below (Nat.not_lt.mpr from_)
    · exact absurd ((opened fd).mp there) (Nat.not_lt.mpr from_)
  have inv : Dense base s := run.kept (P := Dense base) (fun _ _ _ inv lowest step => inv.step lowest step) start
  refine ⟨inv.firsts, inv.alive_le, fun p fd t step => ?_⟩
  obtain ⟨lowest, step⟩ := step
  cases step with
  | accept _ free closed =>
    obtain ⟨after, first⟩ := inv.accept free closed lowest
    have here : (s.accept p fd).conns[s.conns.length]? =
        some { ptr := p, fd := fd, first := (s.poller.channels fd).isNone } :=
      threads_append_iff.mpr (.inr ⟨rfl, rfl⟩)
    rw [← first]
    constructor
    · rintro ⟨events, watched⟩
      exact (Kept.reported after.toKept here rfl watched).2
    · intro isNew
      obtain ⟨ch, _, _, watched⟩ := after.alive _ _ here rfl
      exact ⟨ch.events, watched isNew⟩

/-- Two connections, of which the first one is closed: the third one gets its descriptor, and is not served. -/
theorem served_iff_peak_third : ∃ s t : State, s.peak = 2 ∧ s.alive = 1 ∧
    Restricted Lowest Step s (.accept 300 7) t ∧ ¬∃ events, t.poller.interest 7 = some ⟨events, 300⟩ := by
  have opened : ∀ fd, (State.start (· < 5) 5 50 6 60).poller.isOpen fd = true ↔ fd < 7 := by
    intro fd
    refine ⟨fun there => ?_, fun below => ?_⟩
    · by_contra beyond
      have far : 7 ≤ fd := Nat.not_lt.mp beyond
      have value : (State.start (· < 5) 5 50 6 60).poller.isOpen fd = decide (fd < 5) :=
        (Function.update_of_ne (Nat.ne_of_gt far) ..).trans
          (Function.update_of_ne (Nat.ne_of_gt (Nat.lt_of_succ_lt far)) ..)
      rw [value, decide_eq_true_iff] at there
      exact absurd (Nat.lt_of_lt_of_le there (show 5 ≤ 7 by decide)) beyond
    · revert fd
      decide
  have start : Runs (Restricted Lowest Step) (State.start (· < 5) 5 50 6 60) _ := .refl
  have first := start.allow (@Step.accept _ 100 7 _ rfl rfl rfl) (show ∀ f < 7, _ by decide)
  have second := first.allow (@Step.accept _ 200 8 _ rfl rfl rfl) (show ∀ f < 8, _ by decide)
  have reported := second.allow (@Step.report _ 0 _ 7 _ EPOLLHUP rfl rfl rfl rfl) trivial
  have closed := reported.allow (@Step.dispatch _ 0 _ EPOLLHUP [] (.ok []) 0 rfl rfl rfl) trivial
  obtain ⟨s, reached, peak, alive, events, listening, free, unused, lowest⟩ : ∃ s : State,
      Runs (Restricted Lowest Step) (State.start (· < 5) 5 50 6 60) s ∧ s.peak = 2 ∧ s.alive = 1 ∧
        ∃ events, s.poller.interest s.listenFd = some ⟨events, s.acceptChannel⟩ ∧
          s.poller.live 300 = none ∧ s.poller.isOpen 7 = false ∧ Lowest s (.accept 300 7) :=
    ⟨_, closed, rfl, by decide, _, rfl, rfl, rfl, show ∀ f < 7, _ by decide⟩
  have third : Restricted Lowest Step s (.accept 300 7) _ := ⟨lowest, .accept listening free unused⟩
  have served := (served_iff_peak rfl rfl (by decide) (by decide) opened reached).2.2 300 7 _ third
  refine ⟨s, _, peak, alive, third, fun heard => ?_⟩
  rw [alive, peak] at served
  exact absurd (served.mp heard) (by decide)

end RpcServer.Descriptors
end ReactorRpc
