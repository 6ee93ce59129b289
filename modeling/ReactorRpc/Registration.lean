import Mathlib.Data.List.Induction
import ReactorRpc.Channel
import ReactorRpc.Library.Entries

namespace ReactorRpc
open Streams

/-- The address of a `Channel`. -/
abbrev Ptr := Nat

structure EpollEvent where
  events : UInt32
  ptr : Ptr
  deriving DecidableEq

inductive EpollCtl
  | add
  | mod

/-- `epoll_ctl` on the kernel's interest set, its failures ignored. -/
def epollCtl (interest : Fd → Option EpollEvent) (op : EpollCtl) (fd : Fd) (event : EpollEvent) :
    Fd → Option EpollEvent :=
  match op, interest fd with
  | .add, none => Function.update interest fd (some event)
  | .mod, some _ => Function.update interest fd (some event)
  | _, _ => interest

/-- A channel that has been constructed and not destroyed, with its history:
whether `update` and whether `enableReading` has been called on it. -/
structure LiveChannel extends Channel where
  updated : Bool := false
  reading : Bool := false
  deriving DecidableEq

/-- The channels of an event loop, its table `channels_`, the kernel's interest
set and the open descriptors. -/
structure Poller where
  live : Ptr → Option LiveChannel
  channels : Fd → Option Ptr
  interest : Fd → Option EpollEvent
  isOpen : Fd → Bool

namespace Poller

/-- `EventLoop::updateChannel`. -/
def updateChannel (s : Poller) (p : Ptr) (ch : Channel) : Poller :=
  match s.channels ch.fd with
  | none => { s with
      channels := Function.update s.channels ch.fd (some p)
      interest := epollCtl s.interest .add ch.fd ⟨ch.events, p⟩ }
  | some _ => { s with interest := epollCtl s.interest .mod ch.fd ⟨ch.events, p⟩ }

/-- A channel stores its new events and calls `Channel::update`. -/
def update (s : Poller) (p : Ptr) (ch : LiveChannel) : Poller :=
  updateChannel { s with live := Function.update s.live p (some { ch with updated := true }) } p
    ch.toChannel

/-- `accept` or `socket` returns `fd`, and the constructor of `TcpConnection`
places the connection's channel at `p`. -/
def create (s : Poller) (p : Ptr) (fd : Fd) : Poller :=
  { s with
    live := Function.update s.live p (some { fd := fd })
    isOpen := Function.update s.isOpen fd true }

def connectEstablished (s : Poller) (p : Ptr) (ch : LiveChannel) : Poller :=
  s.update p { ch with toChannel := ch.toChannel.enableReading, reading := true }

def enableWriting (s : Poller) (p : Ptr) (ch : LiveChannel) : Poller :=
  s.update p { ch with toChannel := ch.toChannel.enableWriting }

def disableWriting (s : Poller) (p : Ptr) (ch : LiveChannel) : Poller :=
  s.update p { ch with toChannel := ch.toChannel.disableWriting }

/-- `~Channel` calls `remove`, then `~Socket` closes the descriptor, which
takes it out of the interest set. -/
def destroy (s : Poller) (p : Ptr) (ch : LiveChannel) : Poller :=
  let removed := s.update p { ch with toChannel := ch.toChannel.remove }
  { removed with
    live := Function.update removed.live p none
    interest := Function.update removed.interest ch.fd none
    isOpen := Function.update removed.isOpen ch.fd false }

inductive Op
  | create (p : Ptr) (fd : Fd)
  | connectEstablished (p : Ptr)
  | enableWriting (p : Ptr)
  | disableWriting (p : Ptr)
  | destroy (p : Ptr)
  deriving DecidableEq

/-- One operation, if it is possible: a new connection needs an address that is
free and a descriptor that is not open, the others a live channel. -/
def step (s : Poller) : Op → Option Poller
  | .create p fd => if s.live p = none ∧ s.isOpen fd = false then some (s.create p fd) else none
  | .connectEstablished p => (s.live p).map (s.connectEstablished p)
  | .enableWriting p => (s.live p).map (s.enableWriting p)
  | .disableWriting p => (s.live p).map (s.disableWriting p)
  | .destroy p => (s.live p).map (s.destroy p)

def run (s : Poller) : List Op → Option Poller
  | [] => some s
  | op :: ops => (s.step op).bind fun next => next.run ops

/-- A new event loop, with the descriptors already open in the process: its
wakeup channel has been created and asked for reading. -/
def new (isOpen : Fd → Bool) (wakeupFd : Fd) (wakeupChannel : Ptr) : Poller :=
  let empty : Poller := ⟨fun _ => none, fun _ => none, fun _ => none, isOpen⟩
  (empty.create wakeupChannel wakeupFd).connectEstablished wakeupChannel { fd := wakeupFd }

/-- The registrations are in order: every live channel that reads is in the
interest set as it is, and the table lists exactly the live channels that have
been registered. -/
structure InOrder (s : Poller) : Prop where
  watched : ∀ p ch, s.live p = some ch → ch.reading = true →
    s.interest ch.fd = some ⟨ch.events, p⟩
  listed : ∀ fd p, s.channels fd = some p ↔
    ∃ ch, s.live p = some ch ∧ ch.updated = true ∧ ch.fd = fd

/-- Live channels have open descriptors, each its own. -/
structure Owned (s : Poller) : Prop where
  opened : ∀ p ch, s.live p = some ch → s.isOpen ch.fd = true
  distinct : ∀ p q ch other, s.live p = some ch → s.live q = some other → ch.fd = other.fd → p = q

/-- What holds as long as no channel has been destroyed. -/
structure Registered (s : Poller) : Prop extends Owned s where
  reads : ∀ p ch, s.live p = some ch → ch.reading = true → ch.updated = true
  watched : ∀ p ch, s.live p = some ch → ch.updated = true →
    s.interest ch.fd = some ⟨ch.events, p⟩
  listed : ∀ fd p, s.channels fd = some p ↔
    ∃ ch, s.live p = some ch ∧ ch.updated = true ∧ ch.fd = fd
  unlisted : ∀ fd, s.channels fd = none → s.interest fd = none

theorem Registered.inOrder {s : Poller} (inv : Registered s) : InOrder s where
  watched p ch here reading := inv.watched p ch here (inv.reads p ch here reading)
  listed := inv.listed

theorem update_live (s : Poller) (p : Ptr) (ch : LiveChannel) :
    (s.update p ch).live = Function.update s.live p (some { ch with updated := true }) := by
  unfold update updateChannel
  split <;> rfl

theorem update_isOpen (s : Poller) (p : Ptr) (ch : LiveChannel) : (s.update p ch).isOpen = s.isOpen := by
  unfold update updateChannel
  split <;> rfl

/-- `update` leaves an entry for the descriptor, its own or an older one. -/
theorem update_listed (s : Poller) (p : Ptr) (ch : LiveChannel) :
    ∃ q, (s.update p ch).channels ch.fd = some q := by
  unfold update updateChannel
  cases entry : s.channels ch.fd with
  | none => exact ⟨p, Function.update_self ..⟩
  | some q => exact ⟨q, entry⟩

theorem Owned.apart {s : Poller} (inv : Owned s) {p : Ptr} {ch : LiveChannel}
    (here : s.live p = some ch) {q : Ptr} {other : LiveChannel} (differ : q ≠ p)
    (there : s.live q = some other) : other.fd ≠ ch.fd :=
  fun fd => differ (inv.distinct q p other ch there here fd)

theorem Owned.update {s : Poller} (inv : Owned s) {p : Ptr} {ch next : LiveChannel}
    (here : s.live p = some ch) (same : next.fd = ch.fd) : Owned (s.update p next) := by
  constructor
  · intro q other there
    rw [update_live] at there
    rw [update_isOpen]
    rcases entered_iff.mp there with ⟨rfl, rfl⟩ | ⟨_, there⟩
    · exact same ▸ inv.opened q ch here
    · exact inv.opened q other there
  · intro q r one two first second fd
    rw [update_live] at first second
    rcases entered_iff.mp first with ⟨rfl, rfl⟩ | ⟨differ, atQ⟩
    · rcases entered_iff.mp second with ⟨rfl, _⟩ | ⟨differ, atR⟩
      · rfl
      · exact absurd (fd.symm.trans same) (inv.apart here differ atR)
    · rcases entered_iff.mp second with ⟨rfl, rfl⟩ | ⟨_, atR⟩
      · exact absurd (fd.trans same) (inv.apart here differ atQ)
      · exact inv.distinct q r one two atQ atR fd

theorem Owned.fresh {s : Poller} (inv : Owned s) {fd : Fd} (fresh : s.isOpen fd = false) {q : Ptr}
    {other : LiveChannel} (there : s.live q = some other) : other.fd ≠ fd := by
  rintro rfl
  rw [inv.opened q other there] at fresh
  cases fresh

theorem Owned.create {s : Poller} (inv : Owned s) {p : Ptr} {fd : Fd} (fresh : s.isOpen fd = false) :
    Owned (s.create p fd) := by
  constructor
  · intro q other there
    rcases entered_iff.mp there with ⟨rfl, rfl⟩ | ⟨_, there⟩
    · exact Function.update_self ..
    · have opened := inv.opened q other there
      simp only [Poller.create, Function.update_of_ne (inv.fresh fresh there), opened]
  · intro q r one two first second same
    rcases entered_iff.mp first with ⟨rfl, rfl⟩ | ⟨_, atQ⟩
    · rcases entered_iff.mp second with ⟨rfl, _⟩ | ⟨_, atR⟩
      · rfl
      · exact absurd same.symm (inv.fresh fresh atR)
    · rcases entered_iff.mp second with ⟨rfl, rfl⟩ | ⟨_, atR⟩
      · exact absurd same (inv.fresh fresh atQ)
      · exact inv.distinct q r one two atQ atR same

theorem destroy_live (s : Poller) (p q : Ptr) (ch other : LiveChannel) :
    (s.destroy p ch).live q = some other ↔ q ≠ p ∧ s.live q = some other := by
  simp only [destroy, update_live, erased_iff, entered_iff]
  constructor
  · rintro ⟨differ, ⟨same, _⟩ | ⟨_, there⟩⟩
    · exact absurd same differ
    · exact ⟨differ, there⟩
  · rintro ⟨differ, there⟩
    exact ⟨differ, .inr ⟨differ, there⟩⟩

theorem Owned.destroy {s : Poller} (inv : Owned s) {p : Ptr} {ch : LiveChannel}
    (here : s.live p = some ch) : Owned (s.destroy p ch) := by
  constructor
  · intro q other there
    obtain ⟨differ, there⟩ := (destroy_live s p q ch other).mp there
    have opened := inv.opened q other there
    simp only [Poller.destroy, Function.update_of_ne (inv.apart here differ there), update_isOpen, opened]
  · intro q r one two first second fd
    obtain ⟨_, atQ⟩ := (destroy_live s p q ch one).mp first
    obtain ⟨_, atR⟩ := (destroy_live s p r ch two).mp second
    exact inv.distinct q r one two atQ atR fd

/-- The cases of a step, with the channel it is about. -/
theorem step_cases {s next : Poller} {op : Op} (stepped : s.step op = some next) :
    (∃ p fd, op = .create p fd ∧ s.live p = none ∧ s.isOpen fd = false ∧ next = s.create p fd) ∨
      (∃ p ch changed, (∀ q, op ≠ .destroy q) ∧ s.live p = some ch ∧ changed.fd = ch.fd ∧
        next = s.update p changed) ∨
      ∃ p ch, op = .destroy p ∧ s.live p = some ch ∧ next = s.destroy p ch := by
  cases op with
  | create p fd =>
    simp only [step] at stepped
    split at stepped
    · rename_i possible
      cases stepped
      exact .inl ⟨p, fd, rfl, possible.1, possible.2, rfl⟩
    · cases stepped
  | connectEstablished p =>
    obtain ⟨ch, here, rfl⟩ := Option.map_eq_some_iff.mp stepped
    exact .inr (.inl ⟨p, ch, { ch with toChannel := ch.toChannel.enableReading, reading := true },
      by simp, here, rfl, rfl⟩)
  | enableWriting p =>
    obtain ⟨ch, here, rfl⟩ := Option.map_eq_some_iff.mp stepped
    exact .inr (.inl ⟨p, ch, { ch with toChannel := ch.toChannel.enableWriting },
      by simp, here, rfl, rfl⟩)
  | disableWriting p =>
    obtain ⟨ch, here, rfl⟩ := Option.map_eq_some_iff.mp stepped
    exact .inr (.inl ⟨p, ch, { ch with toChannel := ch.toChannel.disableWriting },
      by simp, here, rfl, rfl⟩)
  | destroy p =>
    obtain ⟨ch, here, rfl⟩ := Option.map_eq_some_iff.mp stepped
    exact .inr (.inr ⟨p, ch, rfl, here, rfl⟩)

theorem Owned.step {s next : Poller} {op : Op} (inv : Owned s) (stepped : s.step op = some next) :
    Owned next := by
  rcases step_cases stepped with ⟨p, fd, _, _, fresh, rfl⟩ | ⟨p, ch, _, _, here, same, rfl⟩ |
    ⟨p, ch, _, here, rfl⟩
  · exact inv.create fresh
  · exact inv.update here same
  · exact inv.destroy here

theorem Owned.run {s final : Poller} {ops : List Op} (inv : Owned s) (ran : s.run ops = some final) :
    Owned final := by
  induction ops generalizing s with
  | nil =>
    cases ran
    exact inv
  | cons op ops ih =>
    obtain ⟨next, stepped, rest⟩ := Option.bind_eq_some_iff.mp ran
    exact ih (inv.step stepped) rest

/-- While the registrations are in order, `updateChannel` enters the channel
into both tables, whichever of its two branches it takes. -/
theorem Registered.update_eq {s : Poller} (inv : Registered s) {p : Ptr} {ch next : LiveChannel}
    (here : s.live p = some ch) (same : next.fd = ch.fd) :
    s.update p next =
      { live := Function.update s.live p (some { next with updated := true })
        channels := Function.update s.channels ch.fd (some p)
        interest := Function.update s.interest ch.fd (some ⟨next.events, p⟩)
        isOpen := s.isOpen } := by
  unfold Poller.update updateChannel
  dsimp only
  rw [same]
  cases entry : s.channels ch.fd with
  | none =>
    have absent := inv.unlisted ch.fd entry
    simp only [epollCtl, absent]
  | some q =>
    obtain ⟨other, there, updated, fd⟩ := (inv.listed ch.fd q).mp entry
    obtain rfl := inv.distinct q p other ch there here fd
    have present := inv.watched q other there updated
    rw [fd] at present
    simp only [epollCtl, present, ← entry, Function.update_eq_self]

/-- Registering a live channel again, with other events, keeps the registrations. -/
theorem Registered.update {s : Poller} (inv : Registered s) {p : Ptr} {ch next : LiveChannel}
    (here : s.live p = some ch) (same : next.fd = ch.fd) : Registered (s.update p next) := by
  refine ⟨inv.toOwned.update here same, ?_, ?_, ?_, ?_⟩
  all_goals rw [inv.update_eq here same]
  · intro q other there reading
    rcases entered_iff.mp there with ⟨rfl, rfl⟩ | ⟨_, there⟩
    · rfl
    · exact inv.reads q other there reading
  · intro q other there updated
    rcases entered_iff.mp there with ⟨rfl, rfl⟩ | ⟨differ, there⟩
    · simp only [same, Function.update_self]
    · simp only [Function.update_of_ne (inv.apart here differ there)]
      exact inv.watched q other there updated
  · intro fd q
    simp only [entered_iff]
    constructor
    · rintro (⟨rfl, rfl⟩ | ⟨differ, entry⟩)
      · exact ⟨_, .inl ⟨rfl, rfl⟩, rfl, same⟩
      · obtain ⟨other, there, updated, rfl⟩ := (inv.listed fd q).mp entry
        refine ⟨other, .inr ⟨?_, there⟩, updated, rfl⟩
        rintro rfl
        cases here.symm.trans there
        exact differ rfl
    · rintro ⟨other, ⟨rfl, rfl⟩ | ⟨differ, there⟩, updated, rfl⟩
      · exact .inl ⟨same, rfl⟩
      · exact .inr ⟨inv.apart here differ there, (inv.listed _ q).mpr ⟨other, there, updated, rfl⟩⟩
  · intro fd free
    obtain ⟨differ, free⟩ := entered_none_iff.mp free
    simp only [Function.update_of_ne differ]
    exact inv.unlisted fd free

theorem Registered.create {s : Poller} (inv : Registered s) {p : Ptr} {fd : Fd}
    (free : s.live p = none) (fresh : s.isOpen fd = false) : Registered (s.create p fd) := by
  refine ⟨inv.toOwned.create fresh, ?_, ?_, ?_, inv.unlisted⟩
  · intro q other there reading
    rcases entered_iff.mp there with ⟨rfl, rfl⟩ | ⟨_, there⟩
    · cases reading
    · exact inv.reads q other there reading
  · intro q other there updated
    rcases entered_iff.mp there with ⟨rfl, rfl⟩ | ⟨_, there⟩
    · cases updated
    · exact inv.watched q other there updated
  · intro other q
    refine (inv.listed other q).trans ⟨?_, ?_⟩
    · rintro ⟨ch, there, updated, same⟩
      refine ⟨ch, entered_iff.mpr (.inr ⟨?_, there⟩), updated, same⟩
      rintro rfl
      cases free.symm.trans there
    · rintro ⟨ch, there, updated, same⟩
      rcases entered_iff.mp there with ⟨rfl, rfl⟩ | ⟨_, there⟩
      · cases updated
      · exact ⟨ch, there, updated, same⟩

theorem registered_new {isOpen : Fd → Bool} {wakeupFd : Fd} (fresh : isOpen wakeupFd = false)
    (wakeupChannel : Ptr) : Registered (new isOpen wakeupFd wakeupChannel) := by
  have empty : Registered ⟨fun _ => none, fun _ => none, fun _ => none, isOpen⟩ := by
    refine ⟨⟨?_, ?_⟩, ?_, ?_, ?_, fun _ _ => rfl⟩
    · intro p ch there; cases there
    · intro p q ch other there; cases there
    · intro p ch there; cases there
    · intro p ch there; cases there
    · intro fd p
      refine iff_of_false (by simp) ?_
      rintro ⟨ch, there, _⟩
      cases there
  exact (empty.create rfl fresh).update (Function.update_self ..) rfl

/-- Every operation but the destruction of a channel keeps the registrations. -/
theorem Registered.step {s next : Poller} {op : Op} (inv : Registered s)
    (stepped : s.step op = some next) (keeps : ∀ p, op ≠ .destroy p) : Registered next := by
  rcases step_cases stepped with ⟨p, fd, _, free, fresh, rfl⟩ | ⟨p, ch, _, _, here, same, rfl⟩ |
    ⟨p, _, destroys, _⟩
  · exact inv.create free fresh
  · exact inv.update here same
  · exact absurd destroys (keeps p)

theorem Registered.run {s final : Poller} {ops : List Op} (inv : Registered s)
    (ran : s.run ops = some final) (keeps : ∀ p, Op.destroy p ∉ ops) : Registered final := by
  induction ops generalizing s with
  | nil =>
    cases ran
    exact inv
  | cons op ops ih =>
    obtain ⟨next, stepped, rest⟩ := Option.bind_eq_some_iff.mp ran
    have first : ∀ p, op ≠ .destroy p := by
      rintro p rfl
      exact keeps p List.mem_cons_self
    exact ih (inv.step stepped first) rest (fun p there => keeps p (List.mem_cons_of_mem op there))

/-- Destroying a channel leaves its descriptor in the table, where no live
channel has it. -/
theorem Owned.destroy_not_inOrder {s : Poller} (inv : Owned s) {p : Ptr} {ch : LiveChannel}
    (here : s.live p = some ch) : ¬InOrder (s.destroy p ch) := by
  intro order
  obtain ⟨q, entry⟩ := update_listed s p { ch with toChannel := ch.toChannel.remove }
  obtain ⟨other, there, _, fd⟩ := (order.listed ch.fd q).mp entry
  obtain ⟨differ, there⟩ := (destroy_live s p q ch other).mp there
  exact inv.apart here differ there fd

theorem run_append (s : Poller) (front back : List Op) :
    s.run (front ++ back) = (s.run front).bind fun middle => middle.run back := by
  induction front generalizing s with
  | nil => rfl
  | cons op front ih =>
    simp only [List.cons_append, run, Option.bind_assoc]
    exact congrArg _ (funext ih)

/-- The registrations are in order in every state of a run exactly when the run
destroys no connection: `Channel::remove` leaves the descriptor in `channels_`. -/
theorem registrations_in_order_iff (isOpen : Fd → Bool) (wakeupFd : Fd) (wakeupChannel : Ptr)
    (ops : List Op) (final : Poller) (fresh : isOpen wakeupFd = false)
    (ran : (new isOpen wakeupFd wakeupChannel).run ops = some final) :
    (∀ before s, before <+: ops → (new isOpen wakeupFd wakeupChannel).run before = some s → InOrder s) ↔
      ∀ p, Op.destroy p ∉ ops := by
  have start := registered_new fresh wakeupChannel
  constructor
  · intro order p destroyed
    obtain ⟨before, after, rfl⟩ := List.append_of_mem destroyed
    rw [run_append] at ran
    obtain ⟨s, reached, rest⟩ := Option.bind_eq_some_iff.mp ran
    obtain ⟨next, stepped, _⟩ := Option.bind_eq_some_iff.mp rest
    obtain ⟨ch, here, rfl⟩ := Option.map_eq_some_iff.mp stepped
    have front : before ++ [Op.destroy p] <+: before ++ Op.destroy p :: after :=
      ⟨after, by simp only [List.append_assoc, List.singleton_append]⟩
    refine (start.toOwned.run reached).destroy_not_inOrder here (order _ _ front ?_)
    rw [run_append, reached]
    simp only [Option.bind_some, run, stepped]
  · rintro keeps before s ⟨after, rfl⟩ reached
    exact (start.run reached fun p there => keeps p (List.mem_append_left after there)).inOrder

/-- Two connections on different descriptors, the second waiting to write. -/
theorem registrations_in_order_two :
    let ops := [Op.create 100 7, .connectEstablished 100, .create 200 8, .connectEstablished 200,
      .enableWriting 200]
    ∃ final, (new (· < 4) 4 50).run ops = some final ∧
      ∀ before s, before <+: ops → (new (· < 4) 4 50).run before = some s → InOrder s := by
  intro ops
  exact ⟨_, rfl, (registrations_in_order_iff _ 4 50 ops _ rfl rfl).mpr (by simp [ops])⟩

/-- A connection is destroyed and a new one gets its descriptor: the new one
reads, but it is not in the interest set. -/
theorem registrations_stale :
    ∃ final, (new (· < 4) 4 50).run [Op.create 100 7, .connectEstablished 100, .destroy 100,
        .create 200 7, .connectEstablished 200] = some final ∧
      (∃ ch, final.live 200 = some ch ∧ ch.fd = 7 ∧ ch.reading = true ∧ final.interest 7 = none) ∧
      ¬InOrder final := by
  refine ⟨_, rfl, ⟨_, rfl, rfl, rfl, rfl⟩, ?_⟩
  intro order
  cases order.watched 200 _ rfl rfl

end Poller
end ReactorRpc
