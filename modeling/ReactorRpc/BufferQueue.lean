import Mathlib.Data.List.Induction
import ReactorRpc.BufferSpace

namespace ReactorRpc
open Streams

/-- The operations a connection performs on its buffers. -/
inductive BufferOp
  | append (data : Bytes)
  | readFd (result : Except Buffer.Errno Bytes)
  | retrieve (len : Nat)
  | retrieveAll
  | retrieveAsString (len : Nat)

def Buffer.apply (b : Buffer) : BufferOp → Buffer
  | .append data => b.append data
  | .readFd result => b.readFd result
  | .retrieve len => b.retrieve len
  | .retrieveAll => b.retrieveAll
  | .retrieveAsString len => (b.retrieveAsString len).2

/-- What a buffer is for: a queue of bytes. -/
def queueApply (queue : Bytes) : BufferOp → Bytes
  | .append data => queue ++ data
  | .readFd (.ok data) => queue ++ data
  | .readFd (.error _) => queue
  | .retrieve len => queue.drop len
  | .retrieveAll => []
  | .retrieveAsString len => queue.drop len

namespace Buffer

/-- Each operation on a buffer is the queue's operation on its readable bytes. -/
theorem apply_refines {b : Buffer} (valid : b.Valid) (op : BufferOp) :
    (b.apply op).Valid ∧ (b.apply op).contents = queueApply b.contents op := by
  cases op with
  | append data => exact append_spec valid data
  | readFd result =>
    cases result with
    | error _ => exact ⟨valid, rfl⟩
    | ok data => exact readFd_ok_spec valid data
  | retrieve len => exact ⟨valid_retrieve valid len, contents_retrieve valid len⟩
  | retrieveAll => exact ⟨valid_retrieveAll valid, contents_retrieveAll b⟩
  | retrieveAsString len => exact ⟨valid_retrieve valid len, contents_retrieve valid len⟩

theorem run_refines {b : Buffer} (valid : b.Valid) (ops : List BufferOp) :
    (ops.foldl apply b).Valid ∧ (ops.foldl apply b).contents = ops.foldl queueApply b.contents := by
  induction ops generalizing b with
  | nil => exact ⟨valid, rfl⟩
  | cons op ops ih =>
    obtain ⟨validNext, next⟩ := apply_refines valid op
    have rest := ih validNext
    rwa [next] at rest

/-- Every run of buffer operations behaves as a queue of bytes, keeps the
indices in order, and resets them whenever the queue is empty. In the states
it reaches room can always be made and `retrieveAsString` hands out the front
of the queue; compacting always copies towards the front. -/
theorem buffer_refines_queue (initialSize : Nat) (ops : List BufferOp) :
    let b := ops.foldl apply (new initialSize)
    let queue := ops.foldl queueApply []
    b.peek.take b.readableBytes = queue ∧
      (kCheapPrepend = 8 ∧ kCheapPrepend ≤ b.readIndex ∧ b.readIndex ≤ b.writeIndex ∧
        b.writeIndex ≤ b.buffer.length) ∧
      (queue = [] → b.readIndex = 8 ∧ b.writeIndex = 8) ∧
      (∀ len, len ≤ (b.ensureWritableBytes len).writableBytes) ∧
      (∀ (c : Buffer) (len : Nat), c.writableBytes < len → ¬c.mustGrow len →
        kCheapPrepend < c.readIndex) ∧
      ∀ len, len ≤ b.readableBytes → (b.retrieveAsString len).1 = queue.take len := by
  intro b queue
  obtain ⟨valid, run⟩ := run_refines (valid_new initialSize) ops
  rw [contents_new] at run
  refine ⟨run, ⟨rfl, valid.prepend_le_read, valid.read_le_write, valid.write_le_size⟩, ?_, ?_, ?_, ?_⟩
  · intro empty
    exact valid.empty_indices (run.trans empty)
  · intro len
    exact (ensureWritableBytes_spec valid len).2.1
  · intro c len short compact
    exact compact_moves_down short compact
  · intro len within
    exact (peek_take within).trans (congrArg (List.take len) run)

end Buffer

/-- A buffer as the program holds one: every operation keeps it valid. -/
abbrev ConnBuffer := { b : Buffer // b.Valid }

namespace ConnBuffer

def new : ConnBuffer := ⟨Buffer.new kInitialSize, Buffer.valid_new kInitialSize⟩

def contents (b : ConnBuffer) : Bytes := b.val.contents

def readableBytes (b : ConnBuffer) : Nat := b.val.readableBytes

def append (b : ConnBuffer) (data : Bytes) : ConnBuffer :=
  ⟨b.val.append data, Buffer.valid_append b.property data⟩

def readFd (b : ConnBuffer) (result : Except Buffer.Errno Bytes) : ConnBuffer :=
  ⟨b.val.readFd result, Buffer.valid_readFd b.property result⟩

def retrieve (b : ConnBuffer) (len : Nat) : ConnBuffer :=
  ⟨b.val.retrieve len, Buffer.valid_retrieve b.property len⟩

@[simp] theorem contents_new : new.contents = [] := Buffer.contents_new kInitialSize

@[simp] theorem contents_append (b : ConnBuffer) (data : Bytes) :
    (b.append data).contents = b.contents ++ data :=
  Buffer.contents_append b.property data

@[simp] theorem contents_readFd_ok (b : ConnBuffer) (data : Bytes) :
    (b.readFd (.ok data)).contents = b.contents ++ data :=
  Buffer.contents_readFd_ok b.property data

@[simp] theorem contents_retrieve (b : ConnBuffer) (len : Nat) :
    (b.retrieve len).contents = b.contents.drop len :=
  Buffer.contents_retrieve b.property len

theorem readableBytes_eq (b : ConnBuffer) : b.readableBytes = b.contents.length :=
  (Buffer.contents_length b.property).symm

end ConnBuffer
end ReactorRpc
