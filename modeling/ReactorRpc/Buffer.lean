import ReactorRpc.Library.Bytes
import ReactorRpc.Library.Copy

namespace ReactorRpc
open Streams

/-- Room kept free in front of the readable bytes. -/
def kCheapPrepend : Nat := 8

/-- Default room for readable bytes. -/
def kInitialSize : Nat := 1024

/-- The byte buffer of a connection. The vector is a list; its sizes are
natural numbers, as no `size_t` sum over a real vector reaches 2^64. -/
structure Buffer where
  buffer : Bytes
  readIndex : Nat
  writeIndex : Nat
  deriving DecidableEq, Repr

namespace Buffer

def new (initialSize : Nat) : Buffer :=
  ⟨List.replicate (kCheapPrepend + initialSize) 0, kCheapPrepend, kCheapPrepend⟩

def readableBytes (b : Buffer) : Nat := b.writeIndex - b.readIndex

def writableBytes (b : Buffer) : Nat := b.buffer.length - b.writeIndex

def prependableBytes (b : Buffer) : Nat := b.readIndex

/-- The bytes the pointer returned by `peek` gives access to. -/
def peek (b : Buffer) : Bytes := b.buffer.drop b.readIndex

def retrieveAll (b : Buffer) : Buffer :=
  { b with readIndex := kCheapPrepend, writeIndex := kCheapPrepend }

def retrieve (b : Buffer) (len : Nat) : Buffer :=
  if len < b.readableBytes then { b with readIndex := b.readIndex + len } else b.retrieveAll

def retrieveAsString (b : Buffer) (len : Nat) : Bytes × Buffer :=
  (b.peek.take len, b.retrieve len)

/-- `std::vector<char>::resize`, which fills with zeros. -/
def resize (xs : Bytes) (size : Nat) : Bytes :=
  xs.take size ++ List.replicate (size - xs.length) 0

/-- The test on which `makeSpace` grows the vector instead of compacting it. -/
def mustGrow (b : Buffer) (len : Nat) : Prop :=
  b.writableBytes + b.prependableBytes < len + kCheapPrepend

instance (b : Buffer) (len : Nat) : Decidable (b.mustGrow len) :=
  inferInstanceAs (Decidable (_ < _))

def makeSpace (b : Buffer) (len : Nat) : Buffer :=
  if b.mustGrow len then
    { b with buffer := resize b.buffer (b.writeIndex + len) }
  else
    { buffer := copyWithin b.buffer b.readIndex kCheapPrepend b.readableBytes
      readIndex := kCheapPrepend
      writeIndex := kCheapPrepend + b.readableBytes }

def ensureWritableBytes (b : Buffer) (len : Nat) : Buffer :=
  if b.writableBytes < len then b.makeSpace len else b

def append (b : Buffer) (data : Bytes) : Buffer :=
  let room := b.ensureWritableBytes data.length
  { room with
    buffer := copyInto room.buffer room.writeIndex data
    writeIndex := room.writeIndex + data.length }

/-- `errno` values that `readv` sets. -/
abbrev Errno := Nat

/-- What `readv` does: it fails with an `errno`, or it delivers bytes, the
first `writableBytes` of them into the vector and the others into `extrabuf`. -/
def readFd (b : Buffer) : Except Errno Bytes → Buffer
  | .error _ => b
  | .ok data =>
    if data.length ≤ b.writableBytes then
      { b with
        buffer := copyInto b.buffer b.writeIndex data
        writeIndex := b.writeIndex + data.length }
    else
      let full := { b with
        buffer := copyInto b.buffer b.writeIndex (data.take b.writableBytes)
        writeIndex := b.buffer.length }
      full.append (data.drop b.writableBytes)

/-- The readable bytes: those from `peek` on, `readableBytes` of them. -/
def contents (b : Buffer) : Bytes := b.peek.take b.readableBytes

/-- The indices are in order, and an emptied buffer starts at its front again. -/
structure Valid (b : Buffer) : Prop where
  prepend_le_read : kCheapPrepend ≤ b.readIndex
  read_le_write : b.readIndex ≤ b.writeIndex
  write_le_size : b.writeIndex ≤ b.buffer.length
  empty_at_front : b.readIndex = b.writeIndex → b.readIndex = kCheapPrepend

theorem contents_length {b : Buffer} (valid : b.Valid) : b.contents.length = b.readableBytes := by
  have ordered := valid.read_le_write
  have bound := valid.write_le_size
  simp only [contents, peek, readableBytes, List.length_take, List.length_drop]
  omega

theorem contents_eq_nil_iff {b : Buffer} (valid : b.Valid) :
    b.contents = [] ↔ b.readableBytes = 0 := by
  rw [← List.length_eq_zero_iff, contents_length valid]

/-- An emptied buffer has all its room behind the write index. -/
theorem Valid.empty_indices {b : Buffer} (valid : b.Valid) (empty : b.contents = []) :
    b.readIndex = kCheapPrepend ∧ b.writeIndex = kCheapPrepend := by
  rw [contents_eq_nil_iff valid, readableBytes] at empty
  have ordered := valid.read_le_write
  have front := valid.empty_at_front (by omega)
  exact ⟨front, by omega⟩

theorem valid_new (initialSize : Nat) : (new initialSize).Valid where
  prepend_le_read := le_rfl
  read_le_write := le_rfl
  write_le_size := by simp [new]
  empty_at_front := fun _ => rfl

@[simp] theorem contents_new (initialSize : Nat) : (new initialSize).contents = [] := by
  simp [contents, readableBytes, new]

theorem valid_retrieveAll {b : Buffer} (valid : b.Valid) : b.retrieveAll.Valid where
  prepend_le_read := le_rfl
  read_le_write := le_rfl
  write_le_size := (valid.prepend_le_read.trans valid.read_le_write).trans valid.write_le_size
  empty_at_front := fun _ => rfl

@[simp] theorem contents_retrieveAll (b : Buffer) : b.retrieveAll.contents = [] := by
  simp [contents, readableBytes, retrieveAll]

theorem valid_retrieve {b : Buffer} (valid : b.Valid) (len : Nat) : (b.retrieve len).Valid := by
  unfold retrieve
  split
  · rename_i within
    simp only [readableBytes] at within
    exact {
      prepend_le_read := valid.prepend_le_read.trans (Nat.le_add_right _ _)
      read_le_write := by simp only; omega
      write_le_size := valid.write_le_size
      empty_at_front := by simp only; omega }
  · exact valid_retrieveAll valid

theorem contents_retrieve {b : Buffer} (valid : b.Valid) (len : Nat) :
    (b.retrieve len).contents = b.contents.drop len := by
  unfold retrieve
  split
  · have left : b.writeIndex - (b.readIndex + len) = b.writeIndex - b.readIndex - len := by omega
    simp only [contents, peek, readableBytes, left, List.drop_take, List.drop_drop]
  · rename_i beyond
    rw [contents_retrieveAll, List.drop_eq_nil_of_le]
    rw [contents_length valid]
    omega

/-- Bytes within the readable range are read off the contents. -/
theorem peek_take {b : Buffer} {len : Nat} (within : len ≤ b.readableBytes) :
    b.peek.take len = b.contents.take len := by
  rw [contents, List.take_take, Nat.min_eq_left within]

/-- `retrieve` takes away as many of the readable bytes as there are, whatever the indices. -/
theorem readableBytes_retrieve (b : Buffer) (len : Nat) :
    (b.retrieve len).readableBytes = b.readableBytes - len := by
  unfold retrieve
  split
  · simp only [readableBytes]; omega
  · simp only [readableBytes, retrieveAll] at *; omega

end Buffer
end ReactorRpc
