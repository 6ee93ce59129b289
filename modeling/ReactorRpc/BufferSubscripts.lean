import ReactorRpc.BufferQueue
import ReactorRpc.Codec

namespace ReactorRpc
open Streams

/-- A subscript of `buffer_` that is evaluated: the index, and the size of the
vector at that moment. -/
structure Subscript where
  index : Nat
  size : Nat
  deriving DecidableEq

namespace Subscript

/-- What `std::vector::operator[]` requires. -/
def InRange (x : Subscript) : Prop := x.index < x.size

instance (x : Subscript) : Decidable x.InRange := inferInstanceAs (Decidable (_ < _))

end Subscript

namespace Buffer

/-- `&buffer_[readIndex_]`. -/
def peekAt (b : Buffer) : Subscript := ⟨b.readIndex, b.buffer.length⟩

/-- `&buffer_[writeIndex_]`. -/
def beginWriteAt (b : Buffer) : Subscript := ⟨b.writeIndex, b.buffer.length⟩

def makeSpaceAt (b : Buffer) (len : Nat) : List Subscript :=
  if b.mustGrow len then [] else [b.peekAt, b.peekAt, ⟨kCheapPrepend, b.buffer.length⟩]

def ensureWritableBytesAt (b : Buffer) (len : Nat) : List Subscript :=
  if b.writableBytes < len then b.makeSpaceAt len else []

def appendAt (b : Buffer) (data : Bytes) : List Subscript :=
  b.ensureWritableBytesAt data.length ++ [(b.ensureWritableBytes data.length).beginWriteAt]

def readFdAt (b : Buffer) : Except Errno Bytes → List Subscript
  | .error _ => [b.beginWriteAt]
  | .ok data =>
    if data.length ≤ b.writableBytes then [b.beginWriteAt]
    else
      let full := { b with
        buffer := copyInto b.buffer b.writeIndex (data.take b.writableBytes)
        writeIndex := b.buffer.length }
      b.beginWriteAt :: full.appendAt (data.drop b.writableBytes)

/-- The subscripts that an operation evaluates, in order. -/
def subscripts (b : Buffer) : BufferOp → List Subscript
  | .append data => b.appendAt data
  | .readFd result => b.readFdAt result
  | .retrieve _ => []
  | .retrieveAll => []
  | .retrieveAsString _ => [b.peekAt]

/-- Those of a run of operations. -/
def runSubscripts : Buffer → List BufferOp → List Subscript
  | _, [] => []
  | b, op :: ops => b.subscripts op ++ (b.apply op).runSubscripts ops

end Buffer

namespace RpcCodec

/-- The subscripts that `tryUnpack` evaluates: `peek` for the length prefix, and
`retrieveAsString`. -/
def tryUnpackAt (buf : Buffer) : List Subscript :=
  if buf.readableBytes < 4 then []
  else
    let len := asInt32 (ntohl (loadWord buf.peek))
    if len < 0 ∨ len > maxFrame then [buf.peekAt]
    else if buf.readableBytes < 4 + len.toNat then [buf.peekAt]
    else [buf.peekAt, (buf.retrieve 4).peekAt]

def tryUnpackWithIdAt (buf : Buffer) : List Subscript :=
  if buf.readableBytes < 4 then []
  else
    let len := asInt32 (ntohl (loadWord buf.peek))
    if len < 0 ∨ len > maxFrame then [buf.peekAt]
    else if buf.readableBytes < 4 + len.toNat then [buf.peekAt]
    else
      let body := buf.retrieve 4
      if len < 8 then [buf.peekAt] else [buf.peekAt, body.peekAt, (body.retrieve 8).peekAt]

end RpcCodec

namespace Buffer

/-- Where an operation stays inside the vector: a write finds room behind the
write index or makes it, a string is not taken off a vector without room. -/
def Covered (b : Buffer) : BufferOp → Prop
  | .append data => data ≠ [] ∨ 0 < b.writableBytes
  | .readFd _ => 0 < b.writableBytes
  | .retrieve _ => True
  | .retrieveAll => True
  | .retrieveAsString _ => kCheapPrepend < b.buffer.length

theorem Valid.peekAt {b : Buffer} (valid : b.Valid) (larger : kCheapPrepend < b.buffer.length) :
    b.peekAt.InRange := by
  have ordered := valid.read_le_write
  have bound := valid.write_le_size
  have front := valid.empty_at_front
  simp only [Subscript.InRange, Buffer.peekAt]
  omega

/-- With readable bytes the read index is inside the vector. -/
theorem Valid.larger {b : Buffer} (valid : b.Valid) (readable : 0 < b.readableBytes) :
    kCheapPrepend < b.buffer.length := by
  have prepended := valid.prepend_le_read
  have bound := valid.write_le_size
  simp only [readableBytes] at readable
  omega

theorem Valid.peekAt_iff {b : Buffer} (valid : b.Valid) :
    b.peekAt.InRange ↔ kCheapPrepend < b.buffer.length := by
  refine ⟨fun inside => ?_, valid.peekAt⟩
  have prepended := valid.prepend_le_read
  simp only [Subscript.InRange, Buffer.peekAt] at inside
  omega

theorem Valid.beginWriteAt_iff {b : Buffer} (valid : b.Valid) :
    b.beginWriteAt.InRange ↔ 0 < b.writableBytes := by
  have bound := valid.write_le_size
  simp only [Subscript.InRange, Buffer.beginWriteAt, writableBytes]
  omega

/-- `makeSpace` stays inside the vector: it compacts only when the readable
bytes have moved away from the front. -/
theorem Valid.makeSpaceAt {b : Buffer} (valid : b.Valid) {len : Nat} (short : b.writableBytes < len) :
    ∀ x ∈ b.makeSpaceAt len, x.InRange := by
  intro x member
  unfold Buffer.makeSpaceAt at member
  split at member
  · cases member
  · rename_i compact
    have down := compact_moves_down short compact
    have ordered := valid.read_le_write
    have bound := valid.write_le_size
    have larger : kCheapPrepend < b.buffer.length := by omega
    have peek := valid.peekAt larger
    simp only [List.mem_cons, List.not_mem_nil, or_false] at member
    rcases member with rfl | rfl | rfl
    · exact peek
    · exact peek
    · exact larger

theorem Valid.appendAt_iff {b : Buffer} (valid : b.Valid) (data : Bytes) :
    (∀ x ∈ b.appendAt data, x.InRange) ↔ data ≠ [] ∨ 0 < b.writableBytes := by
  have made : ∀ x ∈ b.ensureWritableBytesAt data.length, x.InRange := by
    intro x member
    unfold ensureWritableBytesAt at member
    split at member
    · rename_i short
      exact valid.makeSpaceAt short x member
    · cases member
  obtain ⟨roomy, room, _⟩ := ensureWritableBytes_spec valid data.length
  have written := roomy.beginWriteAt_iff
  simp only [Buffer.appendAt, List.mem_append, List.mem_singleton]
  constructor
  · intro inside
    have last := written.mp (inside _ (.inr rfl))
    by_cases empty : data = []
    · subst data
      simp only [List.length_nil, ensureWritableBytes, Nat.not_lt_zero, if_false] at last
      exact .inr last
    · exact .inl empty
  · rintro some x (member | rfl)
    · exact made x member
    · refine written.mpr ?_
      rcases some with nonempty | free
      · exact (List.length_pos_iff.mpr nonempty).trans_le room
      · unfold ensureWritableBytes at room ⊢
        split
        · rename_i short
          rw [if_pos short] at room
          omega
        · exact free

theorem Valid.readFdAt_iff {b : Buffer} (valid : b.Valid) (result : Except Errno Bytes) :
    (∀ x ∈ b.readFdAt result, x.InRange) ↔ 0 < b.writableBytes := by
  rw [← valid.beginWriteAt_iff]
  cases result with
  | error errno => simp only [Buffer.readFdAt, List.mem_singleton, forall_eq]
  | ok data =>
    unfold Buffer.readFdAt
    dsimp only
    split
    · simp only [List.mem_singleton, forall_eq]
    · rename_i exceeds
      have rest : data.drop b.writableBytes ≠ [] := by
        intro none
        have size := congrArg List.length none
        rw [List.length_drop, List.length_nil] at size
        omega
      have bound := valid.write_le_size
      have taken : (data.take b.writableBytes).length = b.writableBytes := by
        rw [List.length_take]; omega
      have filled := (write_spec valid taken.le).1
      have last : b.writeIndex + (data.take b.writableBytes).length = b.buffer.length := by
        rw [taken, writableBytes]; omega
      rw [last] at filled
      have overflow := (filled.appendAt_iff (data.drop b.writableBytes)).mpr (.inl rest)
      constructor
      · intro inside
        exact inside _ (List.mem_cons_self ..)
      · intro first x member
        rcases List.mem_cons.mp member with rfl | later
        · exact first
        · exact overflow x later

theorem Valid.subscripts_iff {b : Buffer} (valid : b.Valid) (op : BufferOp) :
    (∀ x ∈ b.subscripts op, x.InRange) ↔ b.Covered op := by
  cases op with
  | append data => exact valid.appendAt_iff data
  | readFd result => exact valid.readFdAt_iff result
  | retrieve len => simp [Buffer.subscripts, Covered]
  | retrieveAll => simp [Buffer.subscripts, Covered]
  | retrieveAsString len =>
    simp only [Buffer.subscripts, Covered, List.mem_singleton, forall_eq]
    exact valid.peekAt_iff

theorem Valid.runSubscripts_iff {b : Buffer} (valid : b.Valid) (ops : List BufferOp) :
    (∀ x ∈ b.runSubscripts ops, x.InRange) ↔
      ∀ front op back, ops = front ++ op :: back → (front.foldl apply b).Covered op := by
  induction ops generalizing b with
  | nil => simp [Buffer.runSubscripts]
  | cons first ops ih =>
    have next := ih (apply_refines valid first).1
    simp only [Buffer.runSubscripts, List.forall_mem_append, valid.subscripts_iff first, next]
    constructor
    · rintro ⟨here, later⟩ front op back split
      cases front with
      | nil =>
        cases split
        exact here
      | cons _ front =>
        cases split
        exact later front op back rfl
    · intro all
      refine ⟨all [] first ops rfl, fun front op back split => ?_⟩
      exact all (first :: front) op back (by rw [split]; rfl)

theorem length_retrieve (b : Buffer) (len : Nat) : (b.retrieve len).buffer.length = b.buffer.length := by
  unfold retrieve
  split <;> rfl

/-- The decoders look only where there are bytes to read. -/
theorem Valid.unpackAt {b : Buffer} (valid : b.Valid) :
    (∀ x ∈ RpcCodec.tryUnpackAt b, x.InRange) ∧ ∀ x ∈ RpcCodec.tryUnpackWithIdAt b, x.InRange := by
  by_cases short : b.readableBytes < 4
  · simp [RpcCodec.tryUnpackAt, RpcCodec.tryUnpackWithIdAt, short]
  · have larger := valid.larger (by omega)
    have body := valid_retrieve valid 4
    have first := valid.peekAt larger
    have second := body.peekAt (by rwa [length_retrieve])
    have third := (valid_retrieve body 8).peekAt (by rwa [length_retrieve, length_retrieve])
    simp only [RpcCodec.tryUnpackAt, RpcCodec.tryUnpackWithIdAt, short, if_false]
    constructor
    · split
      · simpa using first
      split
      · simpa using first
      · simpa using ⟨first, second⟩
    · split
      · simpa using first
      split
      · simpa using first
      split
      · simpa using first
      · simpa using ⟨first, second, third⟩

/-- A run of operations stays inside the vector exactly when every write finds
room behind the write index or brings data for which it makes room, and no string
is taken off a vector that has no room; the decoders always stay inside it. -/
theorem subscripts_in_range_iff (initialSize : Nat) (ops : List BufferOp) :
    ((∀ x ∈ (new initialSize).runSubscripts ops, x.InRange) ↔
      ∀ front op back, ops = front ++ op :: back →
        (front.foldl apply (new initialSize)).Covered op) ∧
    (∀ x ∈ RpcCodec.tryUnpackAt (ops.foldl apply (new initialSize)), x.InRange) ∧
    ∀ x ∈ RpcCodec.tryUnpackWithIdAt (ops.foldl apply (new initialSize)), x.InRange :=
  ⟨(valid_new initialSize).runSubscripts_iff ops, (run_refines (valid_new initialSize) ops).1.unpackAt⟩

/-- A read fills the vector to the brim, and the next one starts behind it. -/
theorem readFd_past_end : ¬∀ (initialSize : Nat) (ops : List BufferOp),
    ∀ x ∈ (new initialSize).runSubscripts ops, x.InRange := by
  intro always
  have inside := always kInitialSize
    [.readFd (.ok (List.replicate kInitialSize 0)), .readFd (.ok [])]
    ((new kInitialSize).readFd (.ok (List.replicate kInitialSize 0))).beginWriteAt
    (by simp [runSubscripts, subscripts, readFdAt, apply])
  simp [Subscript.InRange, beginWriteAt, readFd, new, writableBytes] at inside

end Buffer
end ReactorRpc
