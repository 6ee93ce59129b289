import ReactorRpc.BufferQueue
import ReactorRpc.Channel

namespace ReactorRpc
open Streams

/-- The sending side of a connection, with the bytes the kernel has accepted
from it so far. -/
structure TcpConnection where
  outputBuffer : ConnBuffer := ConnBuffer.new
  channel : Channel
  accepted : Bytes := []

/-- What `write` on `len` bytes returns: an error, or how many bytes it has taken. -/
def writeResult (len : Nat) (outcome : Option Nat) : Option Nat := outcome.map (min len)

theorem writeResult_le {len n : Nat} {outcome : Option Nat} (taken : writeResult len outcome = some n) :
    n ≤ len := by
  obtain ⟨m, _, rfl⟩ := Option.map_eq_some_iff.mp taken
  exact Nat.min_le_left len m

namespace TcpConnection

def new (fd : Fd) : TcpConnection := { channel := { fd := fd } }

def kernelTakes (c : TcpConnection) (data : Bytes) : TcpConnection :=
  { c with accepted := c.accepted ++ data }

def append (c : TcpConnection) (data : Bytes) : TcpConnection :=
  { c with outputBuffer := c.outputBuffer.append data }

def retrieve (c : TcpConnection) (len : Nat) : TcpConnection :=
  { c with outputBuffer := c.outputBuffer.retrieve len }

def enableWriting (c : TcpConnection) : TcpConnection :=
  { c with channel := c.channel.enableWriting }

def disableWriting (c : TcpConnection) : TcpConnection :=
  { c with channel := c.channel.disableWriting }

/-- The readable bytes of `outputBuffer_`. -/
def buffered (c : TcpConnection) : Bytes := c.outputBuffer.contents

def send (c : TcpConnection) (msg : Bytes) (outcome : Option Nat) : TcpConnection :=
  if c.outputBuffer.readableBytes = 0 ∧ 0 < msg.length then
    match writeResult msg.length outcome with
    | some n =>
      let c := c.kernelTakes (msg.take n)
      if n < msg.length then (c.append (msg.drop n)).enableWriting else c
    | none => (c.append msg).enableWriting
  else (c.append msg).enableWriting

def handleWrite (c : TcpConnection) (outcome : Option Nat) : TcpConnection :=
  if 0 < c.outputBuffer.readableBytes then
    match writeResult c.outputBuffer.readableBytes outcome with
    | some n =>
      if 0 < n then
        let c := (c.kernelTakes (c.buffered.take n)).retrieve n
        if c.outputBuffer.readableBytes = 0 then c.disableWriting else c
      else c
    | none => c
  else c.disableWriting

section Fields
variable (c : TcpConnection) (data : Bytes) (len : Nat)

@[simp] theorem new_buffered (fd : Fd) : (new fd).buffered = [] := ConnBuffer.contents_new
@[simp] theorem kernelTakes_buffered : (c.kernelTakes data).buffered = c.buffered := rfl
@[simp] theorem kernelTakes_accepted : (c.kernelTakes data).accepted = c.accepted ++ data := rfl
@[simp] theorem append_accepted : (c.append data).accepted = c.accepted := rfl
@[simp] theorem retrieve_accepted : (c.retrieve len).accepted = c.accepted := rfl
@[simp] theorem enableWriting_buffered : c.enableWriting.buffered = c.buffered := rfl
@[simp] theorem enableWriting_accepted : c.enableWriting.accepted = c.accepted := rfl
@[simp] theorem disableWriting_buffered : c.disableWriting.buffered = c.buffered := rfl
@[simp] theorem disableWriting_accepted : c.disableWriting.accepted = c.accepted := rfl

@[simp] theorem append_buffered : (c.append data).buffered = c.buffered ++ data :=
  ConnBuffer.contents_append c.outputBuffer data

@[simp] theorem retrieve_buffered : (c.retrieve len).buffered = c.buffered.drop len :=
  ConnBuffer.contents_retrieve c.outputBuffer len

@[simp] theorem readableBytes_eq : c.outputBuffer.readableBytes = c.buffered.length :=
  ConnBuffer.readableBytes_eq c.outputBuffer

end Fields

/-- The bytes sent: those the kernel has, then those still to be written. -/
def stream (c : TcpConnection) : Bytes := c.accepted ++ c.buffered

/-- As long as bytes are buffered, the connection waits until it can write. -/
def Waits (c : TcpConnection) : Prop := c.buffered ≠ [] → c.channel.isWriting = true

theorem enableWriting_waits (c : TcpConnection) : c.enableWriting.Waits :=
  fun _ => Channel.isWriting_enableWriting c.channel

theorem send_stream (c : TcpConnection) (msg : Bytes) (outcome : Option Nat) :
    (c.send msg outcome).stream = c.stream ++ msg := by
  unfold send
  split
  · rename_i direct
    have empty : c.buffered = [] := by
      rw [readableBytes_eq] at direct
      exact List.length_eq_zero_iff.mp direct.1
    cases writeResult msg.length outcome with
    | none => simp [stream]
    | some n =>
      dsimp only
      split
      · simp [stream, empty]
      · rename_i full
        simp [stream, empty, List.take_of_length_le (Nat.le_of_not_lt full)]
  · simp [stream]

theorem send_waits {c : TcpConnection} (waits : c.Waits) (msg : Bytes) (outcome : Option Nat) :
    (c.send msg outcome).Waits := by
  unfold send
  split
  · cases writeResult msg.length outcome with
    | none => exact enableWriting_waits _
    | some n =>
      dsimp only
      split
      · exact enableWriting_waits _
      · exact waits
  · exact enableWriting_waits _

theorem handleWrite_stream (c : TcpConnection) (outcome : Option Nat) :
    (c.handleWrite outcome).stream = c.stream := by
  unfold handleWrite
  split
  · cases writeResult c.outputBuffer.readableBytes outcome with
    | none => rfl
    | some n =>
      dsimp only
      split
      · split
        · simp [stream]
        · simp [stream]
      · rfl
  · rfl

/-- Writing is given up only once nothing is left to write. -/
theorem handleWrite_waits {c : TcpConnection} (waits : c.Waits) (outcome : Option Nat) :
    (c.handleWrite outcome).Waits := by
  unfold handleWrite
  split
  · rename_i some
    have writing : c.channel.isWriting = true := by
      rw [readableBytes_eq] at some
      exact waits (List.length_pos_iff.mp some)
    cases writeResult c.outputBuffer.readableBytes outcome with
    | none => exact waits
    | some n =>
      dsimp only
      split
      · split
        · rename_i written
          intro left
          rw [readableBytes_eq] at written
          exact absurd (List.length_eq_zero_iff.mp written) left
        · exact fun _ => writing
      · exact waits
  · rename_i none
    intro left
    rw [readableBytes_eq] at none
    exact absurd (List.length_pos_iff.mpr left) none

/-- What a single thread does with a connection. -/
inductive Op
  | send (msg : Bytes) (outcome : Option Nat)
  | handleWrite (outcome : Option Nat)

def apply (c : TcpConnection) : Op → TcpConnection
  | .send msg outcome => c.send msg outcome
  | .handleWrite outcome => c.handleWrite outcome

def Op.sent : Op → Bytes
  | .send msg _ => msg
  | .handleWrite _ => []

theorem run_stream (c : TcpConnection) (ops : List Op) :
    (ops.foldl apply c).stream = c.stream ++ ops.flatMap Op.sent := by
  induction ops generalizing c with
  | nil => simp
  | cons op ops ih =>
    rw [List.foldl_cons, ih, List.flatMap_cons, ← List.append_assoc]
    cases op with
    | send msg outcome => rw [apply, send_stream, Op.sent]
    | handleWrite outcome => rw [apply, handleWrite_stream, Op.sent, List.append_nil]

theorem run_waits {c : TcpConnection} (waits : c.Waits) (ops : List Op) : (ops.foldl apply c).Waits := by
  induction ops generalizing c with
  | nil => exact waits
  | cons op ops ih =>
    refine ih ?_
    cases op with
    | send msg outcome => exact send_waits waits msg outcome
    | handleWrite outcome => exact handleWrite_waits waits outcome

/-- Over every run of sends and flushes by one thread, with every outcome of
the writes, what the kernel has accepted and what is buffered are the messages
in order, and buffered bytes are waited for. -/
theorem output_fifo (fd : Fd) (ops : List Op) :
    let c := ops.foldl apply (new fd)
    c.accepted ++ c.outputBuffer.contents = ops.flatMap Op.sent ∧
      (c.outputBuffer.contents ≠ [] → c.channel.events &&& EPOLLOUT ≠ 0) := by
  intro c
  have start : (new fd).Waits := fun some => absurd (new_buffered fd) some
  refine ⟨?_, fun some => ?_⟩
  · have empty : (new fd).stream = [] := new_buffered fd
    have run := run_stream (new fd) ops
    rwa [empty] at run
  · have waits := run_waits start ops some
    simpa [Channel.isWriting] using waits

end TcpConnection
end ReactorRpc
