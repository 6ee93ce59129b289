import Mathlib.Data.List.Permutation
import ReactorRpc.Codec
import ReactorRpc.Library.Threads
import ReactorRpc.TcpConnection

namespace ReactorRpc
open Streams

/-- Where a thread is in `TcpConnection::send`. -/
inductive SendPhase
  | entered (msg : Bytes)
  | writing (msg : Bytes)
  | appending (msg : Bytes) (written : Nat)
  | enabling
  deriving DecidableEq

/-- Where the loop thread is in `TcpConnection::handleWrite`. -/
inductive FlushPhase
  | polling
  | flushing
  | retrieving (n : Nat)
  | checking
  | disabling
  deriving DecidableEq

/-- A client connection, the threads that are sending on it, its loop thread,
and the messages whose sending has begun. -/
structure SharedConnection where
  conn : TcpConnection
  senders : List SendPhase := []
  loop : FlushPhase := .polling
  sent : List Bytes := []

namespace SharedConnection

def new (fd : Fd) : SharedConnection := { conn := TcpConnection.new fd }

inductive Action
  | enter (msg : Bytes)
  | test (i : Nat)
  | write (i : Nat) (outcome : Option Nat)
  | append (i : Nat)
  | enable (i : Nat)
  | handleWrite
  | flush (outcome : Option Nat)
  | retrieve
  | check
  | disable

/-- The indivisible steps of `send` and `handleWrite`. -/
def step (s : SharedConnection) : Action → Option SharedConnection
  | .enter msg => some { s with senders := s.senders ++ [.entered msg], sent := s.sent ++ [msg] }
  | .test i =>
    match s.senders[i]? with
    | some (.entered msg) =>
      let direct := s.conn.outputBuffer.readableBytes = 0 ∧ 0 < msg.length
      some { s with senders := s.senders.set i (if direct then .writing msg else .appending msg 0) }
    | _ => none
  | .write i outcome =>
    match s.senders[i]? with
    | some (.writing msg) =>
      match writeResult msg.length outcome with
      | some n =>
        let conn := s.conn.kernelTakes (msg.take n)
        if n < msg.length then some { s with conn, senders := s.senders.set i (.appending msg n) }
        else some { s with conn, senders := s.senders.eraseIdx i }
      | none => some { s with senders := s.senders.set i (.appending msg 0) }
    | _ => none
  | .append i =>
    match s.senders[i]? with
    | some (.appending msg written) =>
      some { s with conn := s.conn.append (msg.drop written), senders := s.senders.set i .enabling }
    | _ => none
  | .enable i =>
    match s.senders[i]? with
    | some .enabling =>
      some { s with conn := s.conn.enableWriting, senders := s.senders.eraseIdx i }
    | _ => none
  | .handleWrite =>
    match s.loop with
    | .polling =>
      some { s with loop := if 0 < s.conn.outputBuffer.readableBytes then .flushing else .disabling }
    | _ => none
  | .flush outcome =>
    match s.loop with
    | .flushing =>
      match writeResult s.conn.outputBuffer.readableBytes outcome with
      | some n =>
        if 0 < n then
          some { s with conn := s.conn.kernelTakes (s.conn.buffered.take n), loop := .retrieving n }
        else some { s with loop := .polling }
      | none => some { s with loop := .polling }
    | _ => none
  | .retrieve =>
    match s.loop with
    | .retrieving n => some { s with conn := s.conn.retrieve n, loop := .checking }
    | _ => none
  | .check =>
    match s.loop with
    | .checking =>
      some { s with loop := if s.conn.outputBuffer.readableBytes = 0 then .disabling else .polling }
    | _ => none
  | .disable =>
    match s.loop with
    | .disabling => some { s with conn := s.conn.disableWriting, loop := .polling }
    | _ => none

end SharedConnection

namespace SendPhase

/-- The message a thread has not yet handed over completely. -/
def msg? : SendPhase → Option Bytes
  | .entered msg => some msg
  | .writing msg => some msg
  | .appending msg _ => some msg
  | .enabling => none

/-- The part of its message that a thread has written and not yet completed. -/
def torn : SendPhase → Bytes
  | .appending msg written => msg.take written
  | _ => []

/-- A thread that has yet to call `enableWriting`. -/
def WillEnable : SendPhase → Prop
  | .appending _ _ => True
  | .enabling => True
  | _ => False

end SendPhase

namespace SharedConnection

/-- The buffered bytes that the kernel does not have yet. -/
def unflushed (s : SharedConnection) : Bytes :=
  match s.loop with
  | .retrieving n => s.conn.buffered.drop n
  | _ => s.conn.buffered

/-- The messages not yet handed over. -/
def inProgress (senders : List SendPhase) : List Bytes := senders.filterMap SendPhase.msg?

def NoneTorn (senders : List SendPhase) : Prop := ∀ p ∈ senders, p.torn = []

/-- What the kernel has accepted, and what it has not, are whole messages. -/
def Clean (s : SharedConnection) : Prop :=
  ∃ whole rest : List Bytes, s.conn.accepted = whole.flatten ∧ s.unflushed = rest.flatten ∧
    (whole ++ rest ++ inProgress s.senders).Perm s.sent

/-- The steps that do no harm. A direct write takes bytes only while no other
message is torn, and past buffered bytes only a whole message between whole
ones; a remainder is appended only while no other message is torn; writing is
disabled only on an empty buffer or before a thread enables it again. -/
def Safe (s : SharedConnection) : Action → Prop
  | .write i outcome =>
    ∀ msg n, s.senders[i]? = some (.writing msg) → writeResult msg.length outcome = some n → 0 < n →
      NoneTorn (s.senders.eraseIdx i) ∧ (s.unflushed = [] ∨ n = msg.length ∧ Clean s)
  | .append i =>
    ∀ msg written, s.senders[i]? = some (.appending msg written) → msg.drop written ≠ [] →
      NoneTorn (s.senders.eraseIdx i)
  | .disable => s.conn.buffered = [] ∨ ∃ p ∈ s.senders, p.WillEnable
  | _ => True

/-- The states that a new connection reaches by steps of a kind. -/
inductive Reach (fd : Fd) (allowed : SharedConnection → Action → Prop) : SharedConnection → Prop
  | start : Reach fd allowed (new fd)
  | step {s next : SharedConnection} (action : Action) :
      Reach fd allowed s → allowed s action → s.step action = some next → Reach fd allowed next

/-- The bytes on their way are messages handed over, in some order, then what
has been written of a message that a thread is still sending. -/
def Stream (senders : List SendPhase) (sent : List Bytes) (bytes : Bytes) : Prop :=
  ∃ done : List Bytes, (done ++ inProgress senders).Perm sent ∧
    bytes = done.flatten ++ senders.flatMap SendPhase.torn

structure Threaded (s : SharedConnection) : Prop where
  stream : Stream s.senders s.sent (s.conn.accepted ++ s.unflushed)
  single : s.senders.Pairwise fun p q => p.torn = [] ∨ q.torn = []
  taken : ∀ n, s.loop = .retrieving n → n ≤ s.conn.buffered.length
  waits : s.conn.buffered ≠ [] → s.conn.channel.isWriting = true ∨ ∃ p ∈ s.senders, p.WillEnable

theorem NoneTorn.flatMap {senders : List SendPhase} (none : NoneTorn senders) :
    senders.flatMap SendPhase.torn = [] :=
  List.flatMap_eq_nil_iff.mpr none

/-- One thread among the others: either it has torn nothing, or the others have not. -/
theorem single_around {front back : List SendPhase} {p : SendPhase} :
    ((front ++ p :: back).Pairwise fun p q => p.torn = [] ∨ q.torn = []) ↔
      (∀ q ∈ front ++ back, p.torn = [] ∨ q.torn = []) ∧
        (front ++ back).Pairwise fun p q => p.torn = [] ∨ q.torn = [] := by
  rw [List.pairwise_middle Or.symm, List.pairwise_cons]

theorem inProgress_around (front back : List SendPhase) (p : SendPhase) :
    (inProgress (front ++ p :: back)).Perm (p.msg?.toList ++ inProgress (front ++ back)) := by
  have moved : (front ++ p :: back).Perm (p :: (front ++ back)) := List.perm_middle
  refine (moved.filterMap SendPhase.msg?).trans (.of_eq ?_)
  cases msg : p.msg? with
  | none => simp [inProgress, msg]
  | some bytes => simp [inProgress, msg]

theorem torn_around {front back : List SendPhase} {p : SendPhase}
    (single : ∀ q ∈ front ++ back, p.torn = [] ∨ q.torn = []) :
    (front ++ p :: back).flatMap SendPhase.torn = p.torn ++ (front ++ back).flatMap SendPhase.torn := by
  by_cases whole : p.torn = []
  · simp [whole]
  · have others : NoneTorn (front ++ back) := fun q there => (single q there).resolve_left whole
    have before : NoneTorn front := fun q there => others q (List.mem_append_left back there)
    have behind : NoneTorn back := fun q there => others q (List.mem_append_right front there)
    simp [before.flatMap, behind.flatMap]

/-- A thread hands over the rest of its message. -/
theorem Stream.handover {front back after : List SendPhase} {p : SendPhase} {sent : List Bytes}
    {bytes msg rest : Bytes} (stream : Stream (front ++ p :: back) sent bytes)
    (single : ∀ q ∈ front ++ back, p.torn = [] ∨ q.torn = [])
    (holds : p.msg? = some msg) (split : p.torn ++ rest = msg)
    (alone : rest = [] ∨ NoneTorn (front ++ back))
    (progress : inProgress after = inProgress (front ++ back))
    (torn : after.flatMap SendPhase.torn = (front ++ back).flatMap SendPhase.torn) :
    Stream after sent (bytes ++ rest) := by
  obtain ⟨done, listed, same⟩ := stream
  rw [torn_around single] at same
  refine ⟨done ++ [msg], ?_, ?_⟩
  · rw [progress, List.append_assoc]
    refine .trans (.append_left done ?_) listed
    have around := inProgress_around front back p
    rw [holds] at around
    exact around.symm
  · rw [torn, same, ← split]
    rcases alone with rfl | none
    · simp
    · simp [none.flatMap]

/-- Writing a part of a message tears it. -/
theorem Stream.tear {front back : List SendPhase} {p : SendPhase} {sent : List Bytes}
    {bytes msg : Bytes} (stream : Stream (front ++ p :: back) sent bytes) (holds : p.msg? = some msg)
    (whole : p.torn = []) (others : NoneTorn (front ++ back)) (n : Nat) :
    Stream (front ++ .appending msg n :: back) sent (bytes ++ msg.take n) := by
  obtain ⟨done, listed, same⟩ := stream
  refine ⟨done, ?_, ?_⟩
  · have now : (SendPhase.appending msg n).msg? = some msg := rfl
    simpa [inProgress, holds, now] using listed
  · rw [torn_around (fun _ _ => .inl whole), whole, others.flatMap] at same
    rw [torn_around (fun q there => .inr (others q there)), others.flatMap, same]
    simp [SendPhase.torn]

/-- A thread moves on without touching the bytes. -/
theorem Stream.relabel {front back : List SendPhase} {p q : SendPhase} {sent : List Bytes}
    {bytes : Bytes} (stream : Stream (front ++ p :: back) sent bytes) (msg : q.msg? = p.msg?)
    (torn : q.torn = p.torn) : Stream (front ++ q :: back) sent bytes := by
  obtain ⟨done, listed, same⟩ := stream
  refine ⟨done, ?_, ?_⟩
  · simpa [inProgress, List.filterMap_cons, msg] using listed
  · simpa [torn] using same

/-- A thread that has handed over its message leaves. -/
theorem Stream.leave {front back : List SendPhase} {p : SendPhase} {sent : List Bytes}
    {bytes : Bytes} (stream : Stream (front ++ p :: back) sent bytes) (msg : p.msg? = none)
    (torn : p.torn = []) : Stream (front ++ back) sent bytes := by
  obtain ⟨done, listed, same⟩ := stream
  refine ⟨done, ?_, ?_⟩
  · simpa [inProgress, List.filterMap_cons, msg] using listed
  · simpa [torn] using same

theorem Stream.enter {senders : List SendPhase} {sent : List Bytes} {bytes : Bytes}
    (stream : Stream senders sent bytes) (msg : Bytes) :
    Stream (senders ++ [.entered msg]) (sent ++ [msg]) bytes := by
  obtain ⟨done, listed, same⟩ := stream
  refine ⟨done, ?_, ?_⟩
  · have grown := listed.append_right [msg]
    simpa [inProgress, SendPhase.msg?, List.append_assoc] using grown
  · simpa [SendPhase.torn] using same

/-- A whole message written past buffered bytes, between whole messages. -/
theorem Clean.overtake {s : SharedConnection} (clean : Clean s) {front back : List SendPhase}
    {msg : Bytes} (around : s.senders = front ++ .writing msg :: back)
    (others : NoneTorn (front ++ back)) :
    Stream (front ++ back) s.sent (s.conn.accepted ++ msg ++ s.unflushed) := by
  obtain ⟨whole, rest, taken, left, listed⟩ := clean
  refine ⟨whole ++ [msg] ++ rest, ?_, ?_⟩
  · rw [around] at listed
    have moved := inProgress_around front back (.writing msg)
    refine .trans ?_ ((List.Perm.append_left (whole ++ rest) moved.symm).trans listed)
    simp only [SendPhase.msg?, Option.toList_some, List.append_assoc, List.singleton_append]
    exact .append_left whole List.perm_middle.symm
  · rw [others.flatMap, taken, left]
    simp

theorem threaded_new (fd : Fd) : Threaded (new fd) where
  stream := ⟨[], .refl _, TcpConnection.new_buffered fd⟩
  single := .nil
  taken := by intro n loop; cases loop
  waits := fun some => absurd (TcpConnection.new_buffered fd) some

theorem Threaded.enter {s : SharedConnection} (inv : Threaded s) (msg : Bytes) :
    Threaded { s with senders := s.senders ++ [.entered msg], sent := s.sent ++ [msg] } := by
  refine ⟨inv.stream.enter msg, ?_, inv.taken, ?_⟩
  · refine List.pairwise_append.mpr ⟨inv.single, List.pairwise_singleton _ _, ?_⟩
    intro p _ q entered
    rw [List.mem_singleton.mp entered]
    exact .inr rfl
  · intro some
    rcases inv.waits some with writing | ⟨p, there, will⟩
    · exact .inl writing
    · exact .inr ⟨p, List.mem_append_left _ there, will⟩

/-- Bytes are left in the buffer, so that writing is enabled or some thread is about to
enable it: the one in the middle, or another. -/
theorem Threaded.waits_around {s : SharedConnection} (inv : Threaded s) {front back : List SendPhase}
    {p : SendPhase} (around : s.senders = front ++ p :: back) (some : s.conn.buffered ≠ []) :
    s.conn.channel.isWriting = true ∨ p.WillEnable ∨ ∃ r ∈ front ++ back, r.WillEnable := by
  rcases inv.waits some with writing | ⟨r, there, enables⟩
  · exact .inl writing
  · rw [around] at there
    rcases List.mem_append.mp there with before | there
    · exact .inr (.inr ⟨r, List.mem_append_left _ before, enables⟩)
    · rcases List.mem_cons.mp there with rfl | behind
      · exact .inr (.inl enables)
      · exact .inr (.inr ⟨r, List.mem_append_right _ behind, enables⟩)

/-- A thread moves on from `p` to `q`, with the same message and nothing torn. -/
theorem Threaded.relabel {s : SharedConnection} (inv : Threaded s) {front back : List SendPhase}
    {p q : SendPhase} (around : s.senders = front ++ p :: back) (msg : q.msg? = p.msg?)
    (whole : p.torn = []) (still : q.torn = []) (will : p.WillEnable → q.WillEnable) :
    Threaded { s with senders := front ++ q :: back } := by
  have stream := inv.stream
  have single := inv.single
  rw [around] at stream single
  refine ⟨stream.relabel msg (still.trans whole.symm), ?_, inv.taken, ?_⟩
  · exact single_around.mpr ⟨fun _ _ => .inl still, (single_around.mp single).2⟩
  · intro some
    rcases inv.waits_around around some with writing | enables | ⟨r, there, enables⟩
    · exact .inl writing
    · exact .inr ⟨q, by simp, will enables⟩
    · have still := (List.mem_append.mp there).imp_right (List.mem_cons_of_mem q)
      exact .inr ⟨r, List.mem_append.mpr still, enables⟩

theorem Threaded.step_test {s next : SharedConnection} (inv : Threaded s) {i : Nat}
    (stepped : s.step (.test i) = some next) : Threaded next := by
  simp only [SharedConnection.step] at stepped
  split at stepped
  · rename_i msg here
    cases stepped
    obtain ⟨front, back, around, set, _⟩ := threads_around here
    rw [set]
    split
    · exact inv.relabel around rfl rfl rfl id
    · exact inv.relabel around rfl rfl rfl False.elim
  · cases stepped

/-- A thread is done, with its message on its way. -/
theorem Threaded.finish {s : SharedConnection} (inv : Threaded s) {front back : List SendPhase}
    {p : SendPhase} (around : s.senders = front ++ p :: back) (idle : ¬p.WillEnable) {data : Bytes}
    (stream : Stream (front ++ back) s.sent (s.conn.accepted ++ data ++ s.unflushed)) :
    Threaded { s with conn := s.conn.kernelTakes data, senders := front ++ back } := by
  have single := inv.single
  rw [around] at single
  refine ⟨stream, (single_around.mp single).2, inv.taken, ?_⟩
  intro some
  rcases inv.waits_around around some with writing | enables | others
  · exact .inl writing
  · exact absurd enables idle
  · exact .inr others

/-- The kernel has taken a part of a message, and nothing is left in front of it. -/
theorem Threaded.write_part {s : SharedConnection} (inv : Threaded s) {front back : List SendPhase}
    {msg : Bytes} (around : s.senders = front ++ .writing msg :: back) (others : NoneTorn (front ++ back))
    (empty : s.unflushed = []) (n : Nat) :
    Threaded { s with conn := s.conn.kernelTakes (msg.take n), senders := front ++ .appending msg n :: back } := by
  have stream := inv.stream
  have single := inv.single
  rw [around] at stream single
  rw [empty, List.append_nil] at stream
  refine ⟨?_, ?_, inv.taken, fun _ => .inr ⟨.appending msg n, by simp, trivial⟩⟩
  · change Stream _ s.sent (s.conn.accepted ++ msg.take n ++ s.unflushed)
    rw [empty, List.append_nil]
    exact stream.tear rfl rfl others n
  · exact single_around.mpr ⟨fun q there => .inr (others q there), (single_around.mp single).2⟩

/-- The kernel has taken a whole message, with nothing in front of it or past whole messages. -/
theorem Threaded.write_whole {s : SharedConnection} (inv : Threaded s) {front back : List SendPhase}
    {msg : Bytes} (around : s.senders = front ++ .writing msg :: back) (others : NoneTorn (front ++ back))
    (room : s.unflushed = [] ∨ Clean s) :
    Threaded { s with conn := s.conn.kernelTakes msg, senders := front ++ back } := by
  refine inv.finish around id ?_
  rcases room with empty | clean
  · have stream := inv.stream
    rw [around, empty, List.append_nil] at stream
    rw [empty, List.append_nil]
    exact stream.handover (fun _ _ => .inl rfl) rfl rfl (.inr others) rfl rfl
  · exact clean.overtake around others

theorem Threaded.step_write {s next : SharedConnection} (inv : Threaded s) {i : Nat}
    {outcome : Option Nat} (safe : Safe s (.write i outcome))
    (stepped : s.step (.write i outcome) = some next) : Threaded next := by
  simp only [SharedConnection.step] at stepped
  split at stepped
  · rename_i msg here
    obtain ⟨front, back, around, set, erase⟩ := threads_around here
    cases result : writeResult msg.length outcome with
    | none =>
      simp only [result] at stepped
      cases stepped
      rw [set]
      exact inv.relabel around rfl rfl rfl False.elim
    | some n =>
      simp only [result, set, erase] at stepped
      by_cases nothing : n = 0
      · subst n
        split at stepped
        · cases stepped
          have same : s.conn.kernelTakes (msg.take 0) = s.conn := by
            simp [TcpConnection.kernelTakes]
          rw [same]
          exact inv.relabel around rfl rfl rfl False.elim
        · rename_i empty
          cases stepped
          have empty : msg = [] := List.length_eq_zero_iff.mp (Nat.eq_zero_of_not_pos empty)
          subst msg
          have stream := inv.stream
          rw [around] at stream
          refine inv.finish around id ?_
          simpa using stream.handover (fun _ _ => .inl rfl) rfl rfl (.inl rfl) rfl rfl
      · obtain ⟨others, room⟩ := safe msg n here result (Nat.pos_of_ne_zero nothing)
        rw [erase] at others
        split at stepped
        · rename_i short
          cases stepped
          have empty : s.unflushed = [] := room.resolve_right fun whole => by omega
          exact inv.write_part around others empty n
        · rename_i full
          cases stepped
          have all : msg.take n = msg := List.take_of_length_le (Nat.le_of_not_lt full)
          rw [all]
          exact inv.write_whole around others (room.imp_right And.right)
  · cases stepped

theorem unflushed_append {s : SharedConnection} (inv : Threaded s) (data : Bytes)
    (senders : List SendPhase) :
    ({ s with conn := s.conn.append data, senders } : SharedConnection).unflushed =
      s.unflushed ++ data := by
  unfold unflushed
  cases loop : s.loop with
  | retrieving n =>
    have taken := inv.taken n loop
    simp only [TcpConnection.append_buffered]
    exact List.drop_append_of_le_length taken
  | _ => simp only [TcpConnection.append_buffered]

theorem Threaded.step_append {s next : SharedConnection} (inv : Threaded s) {i : Nat}
    (safe : Safe s (.append i)) (stepped : s.step (.append i) = some next) : Threaded next := by
  simp only [SharedConnection.step] at stepped
  split at stepped
  · rename_i msg written here
    obtain ⟨front, back, around, set, erase⟩ := threads_around here
    have others := safe msg written here
    have stream := inv.stream
    have single := inv.single
    rw [erase] at others
    rw [around] at stream single
    rw [set] at stepped
    cases stepped
    constructor
    · rw [unflushed_append inv]
      simp only [TcpConnection.append_accepted, ← List.append_assoc]
      refine stream.handover (single_around.mp single).1 rfl (List.take_append_drop written msg) ?_
        (by simp [inProgress, List.filterMap_cons, SendPhase.msg?]) (by simp [SendPhase.torn])
      by_cases nothing : msg.drop written = []
      · exact .inl nothing
      · exact .inr (others nothing)
    · exact single_around.mpr ⟨fun _ _ => .inl rfl, (single_around.mp single).2⟩
    · intro n loop
      have taken := inv.taken n loop
      simp only [TcpConnection.append_buffered, List.length_append]
      omega
    · exact fun _ => .inr ⟨.enabling, by simp, trivial⟩
  · cases stepped

theorem Threaded.step_enable {s next : SharedConnection} (inv : Threaded s) {i : Nat}
    (stepped : s.step (.enable i) = some next) : Threaded next := by
  simp only [SharedConnection.step] at stepped
  split at stepped
  · rename_i here
    obtain ⟨front, back, around, _, erase⟩ := threads_around here
    have stream := inv.stream
    have single := inv.single
    rw [around] at stream single
    rw [erase] at stepped
    cases stepped
    exact ⟨stream.leave rfl rfl, (single_around.mp single).2, inv.taken,
      fun _ => .inl (Channel.isWriting_enableWriting _)⟩
  · cases stepped

/-- The loop thread moves on without touching the connection. -/
theorem Threaded.loop {s : SharedConnection} (inv : Threaded s) {phase : FlushPhase}
    (before : s.unflushed = s.conn.buffered) (after : ∀ n, phase ≠ .retrieving n) :
    Threaded { s with loop := phase } := by
  have stream := inv.stream
  rw [before] at stream
  refine ⟨?_, inv.single, fun n loop => absurd loop (after n), inv.waits⟩
  cases phase with
  | retrieving n => exact absurd rfl (after n)
  | _ => exact stream

theorem Threaded.step_flush {s next : SharedConnection} (inv : Threaded s) {outcome : Option Nat}
    (stepped : s.step (.flush outcome) = some next) : Threaded next := by
  simp only [SharedConnection.step] at stepped
  split at stepped
  · rename_i flushing
    have before : s.unflushed = s.conn.buffered := by simp only [unflushed, flushing]
    have still := inv.loop before (fun n => (FlushPhase.noConfusion : FlushPhase.polling ≠ .retrieving n))
    cases result : writeResult s.conn.outputBuffer.readableBytes outcome with
    | none =>
      simp only [result] at stepped
      cases stepped
      exact still
    | some n =>
      simp only [result] at stepped
      split at stepped
      · cases stepped
        have within := writeResult_le result
        rw [TcpConnection.readableBytes_eq] at within
        have stream := inv.stream
        rw [before] at stream
        refine ⟨?_, inv.single, ?_, inv.waits⟩
        · change Stream s.senders s.sent
            (s.conn.accepted ++ s.conn.buffered.take n ++ s.conn.buffered.drop n)
          rwa [List.append_assoc, List.take_append_drop]
        · intro m same
          cases same
          exact within
      · cases stepped
        exact still
  · cases stepped

theorem Threaded.step_retrieve {s next : SharedConnection} (inv : Threaded s)
    (stepped : s.step .retrieve = some next) : Threaded next := by
  simp only [SharedConnection.step] at stepped
  split at stepped
  · rename_i n retrieving
    cases stepped
    have stream := inv.stream
    simp only [unflushed, retrieving] at stream
    refine ⟨?_, inv.single, ?_, ?_⟩
    · change Stream s.senders s.sent (s.conn.accepted ++ (s.conn.retrieve n).buffered)
      rwa [TcpConnection.retrieve_buffered]
    · intro m loop
      cases loop
    · intro some
      rw [TcpConnection.retrieve_buffered] at some
      exact inv.waits (fun empty => some (by rw [empty, List.drop_nil]))
  · cases stepped

theorem Threaded.step_disable {s next : SharedConnection} (inv : Threaded s)
    (safe : Safe s .disable) (stepped : s.step .disable = some next) : Threaded next := by
  simp only [SharedConnection.step] at stepped
  split at stepped
  · rename_i disabling
    cases stepped
    have stream := inv.stream
    simp only [unflushed, disabling] at stream
    refine ⟨stream, inv.single, ?_, ?_⟩
    · intro m loop
      cases loop
    · intro some
      exact .inr (safe.resolve_left some)
  · cases stepped

/-- Every safe step keeps the order of the threads' messages. -/
theorem Threaded.step {s next : SharedConnection} {action : Action} (inv : Threaded s)
    (safe : Safe s action) (stepped : s.step action = some next) : Threaded next := by
  cases action with
  | enter msg =>
    cases stepped
    exact inv.enter msg
  | test i => exact inv.step_test stepped
  | write i outcome => exact inv.step_write safe stepped
  | append i => exact inv.step_append safe stepped
  | enable i => exact inv.step_enable stepped
  | handleWrite =>
    simp only [SharedConnection.step] at stepped
    split at stepped
    · rename_i polling
      cases stepped
      exact inv.loop (by simp only [unflushed, polling]) (by intro n; split <;> simp)
    · cases stepped
  | flush outcome => exact inv.step_flush stepped
  | retrieve => exact inv.step_retrieve stepped
  | check =>
    simp only [SharedConnection.step] at stepped
    split at stepped
    · rename_i checking
      cases stepped
      exact inv.loop (by simp only [unflushed, checking]) (by intro n; split <;> simp)
    · cases stepped
  | disable => exact inv.step_disable safe stepped

theorem Reach.threaded {fd : Fd} {s : SharedConnection} (reach : Reach fd Safe s) : Threaded s := by
  induction reach with
  | start => exact threaded_new fd
  | step _ _ safe stepped ih => exact ih.step safe stepped

/-- The bytes accepted and buffered are the messages in some order, each in one
piece, and buffered bytes are waited for. -/
def SentWhole (s : SharedConnection) : Prop :=
  (∃ order : List Bytes, order.Perm s.sent ∧
      s.conn.accepted ++ s.conn.outputBuffer.contents = order.flatten) ∧
    (s.conn.outputBuffer.contents ≠ [] → s.conn.channel.events &&& EPOLLOUT ≠ 0)

/-- In every state that safe steps lead to, if no send or flush is in progress,
all messages have been sent whole. -/
theorem safe_sends_whole {fd : Fd} {s : SharedConnection} (reach : Reach fd Safe s)
    (idle : s.senders = []) (polling : s.loop = .polling) : SentWhole s := by
  have inv := reach.threaded
  obtain ⟨done, listed, same⟩ := inv.stream
  simp only [idle, inProgress, List.filterMap_nil, List.append_nil, List.flatMap_nil, unflushed,
    polling] at listed same
  refine ⟨⟨done, listed, same⟩, fun some => ?_⟩
  rcases inv.waits some with writing | ⟨p, there, _⟩
  · simpa [Channel.isWriting] using writing
  · rw [idle] at there
    cases there

/-- One message, of which the first write takes a single byte. -/
theorem safe_sends_whole_short : ∃ s, Reach 5 Safe s ∧ s.conn.accepted = [1] ∧ SentWhole s := by
  have entered := Reach.step (.enter [1, 2, 3]) (.start : Reach 5 Safe (new 5)) trivial rfl
  have tested := Reach.step (.test 0) entered trivial rfl
  have written := Reach.step (.write 0 (some 1)) tested
    (fun _ _ _ _ _ => ⟨fun _ there => absurd there List.not_mem_nil,
      .inl (TcpConnection.new_buffered 5)⟩) rfl
  have appended := Reach.step (.append 0) written (fun _ _ _ _ _ there => absurd there List.not_mem_nil) rfl
  have enabled := Reach.step (.enable 0) appended trivial rfl
  exact ⟨_, enabled, rfl, safe_sends_whole enabled rfl rfl⟩

/-- Two threads find the buffer empty; the first one's write is short, the
second one's takes its whole frame, and the first one's remainder goes behind. -/
theorem concurrent_sends_torn :
    ∃ s, Reach 5 (fun _ _ => True) s ∧ s.senders = [] ∧ s.loop = .polling ∧
      s.sent = [RpcCodec.packWithId 0 [1], RpcCodec.packWithId 1 [2]] ∧ ¬SentWhole s := by
  have entered := Reach.step (.enter (RpcCodec.packWithId 0 [1]))
    (.start : Reach 5 (fun _ _ => True) (new 5)) trivial rfl
  have both := Reach.step (.enter (RpcCodec.packWithId 1 [2])) entered trivial rfl
  have tested := Reach.step (.test 0) both trivial rfl
  have testedBoth := Reach.step (.test 1) tested trivial rfl
  have short := Reach.step (.write 0 (some 5)) testedBoth trivial rfl
  have full := Reach.step (.write 1 (some 13)) short trivial rfl
  have appended := Reach.step (.append 0) full trivial rfl
  have enabled := Reach.step (.enable 0) appended trivial rfl
  refine ⟨_, enabled, rfl, rfl, rfl, ?_⟩
  rintro ⟨⟨order, listed, same⟩, _⟩
  change [] ++ (RpcCodec.packWithId 0 [1]).take 5 ++ (RpcCodec.packWithId 1 [2]).take 13 ++
    (ConnBuffer.new.append ((RpcCodec.packWithId 0 [1]).drop 5)).contents = order.flatten at same
  rw [ConnBuffer.contents_append, ConnBuffer.contents_new] at same
  have orders : [RpcCodec.packWithId 0 [1], RpcCodec.packWithId 1 [2]].permutations' =
      [[RpcCodec.packWithId 0 [1], RpcCodec.packWithId 1 [2]],
        [RpcCodec.packWithId 1 [2], RpcCodec.packWithId 0 [1]]] := rfl
  have one := List.mem_permutations'.mpr listed
  change order ∈ [RpcCodec.packWithId 0 [1], RpcCodec.packWithId 1 [2]].permutations' at one
  rw [orders] at one
  rcases List.mem_pair.mp one with rfl | rfl
  · exact absurd same (by decide)
  · exact absurd same (by decide)

end SharedConnection
end ReactorRpc
