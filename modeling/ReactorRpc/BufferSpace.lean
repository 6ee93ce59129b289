import ReactorRpc.Buffer

namespace ReactorRpc.Buffer
open Streams

theorem resize_length {xs : Bytes} {size : Nat} (grows : xs.length ≤ size) :
    (resize xs size).length = size := by
  simp only [resize, List.length_append, List.length_take, List.length_replicate]
  omega

theorem resize_take {xs : Bytes} {size n : Nat} (kept : n ≤ xs.length) (grows : xs.length ≤ size) :
    (resize xs size).take n = xs.take n := by
  rw [resize, List.take_of_length_le grows, List.take_append_of_le_length kept]

/-- The readable bytes depend only on the vector up to the write index. -/
theorem contents_eq_drop_take {b : Buffer} :
    b.contents = (b.buffer.take b.writeIndex).drop b.readIndex := by
  simp only [contents, peek, readableBytes, List.drop_take]

/-- `makeSpace` compacts only when bytes in front of the readable ones can be
reused: the copy goes strictly towards the front. -/
theorem compact_moves_down {b : Buffer} {len : Nat} (short : b.writableBytes < len)
    (compact : ¬b.mustGrow len) : kCheapPrepend < b.readIndex := by
  simp only [mustGrow, prependableBytes] at compact
  omega

theorem makeSpace_grow {b : Buffer} {len : Nat} (grow : b.mustGrow len) :
    b.makeSpace len = { b with buffer := resize b.buffer (b.writeIndex + len) } :=
  if_pos grow

theorem makeSpace_compact {b : Buffer} {len : Nat} (compact : ¬b.mustGrow len) :
    b.makeSpace len =
      { buffer := copyWithin b.buffer b.readIndex kCheapPrepend b.readableBytes
        readIndex := kCheapPrepend
        writeIndex := kCheapPrepend + b.readableBytes } :=
  if_neg compact

theorem grow_spec {b : Buffer} (valid : b.Valid) {len : Nat} (short : b.writableBytes < len) :
    let grown : Buffer := { b with buffer := resize b.buffer (b.writeIndex + len) }
    grown.Valid ∧ len ≤ grown.writableBytes ∧ grown.contents = b.contents := by
  have bound := valid.write_le_size
  have grows : b.buffer.length ≤ b.writeIndex + len := by
    simp only [writableBytes] at short
    omega
  refine ⟨⟨valid.prepend_le_read, valid.read_le_write, ?_, valid.empty_at_front⟩, ?_, ?_⟩
  · simp only [resize_length grows]; omega
  · simp only [writableBytes, resize_length grows]; omega
  · rw [contents_eq_drop_take, contents_eq_drop_take, resize_take bound grows]

/-- After compacting, the readable bytes lie where the write index says, and
the room in front of them has been added to the room behind. -/
theorem compact_spec {b : Buffer} (valid : b.Valid) {len : Nat} (short : b.writableBytes < len)
    (compact : ¬b.mustGrow len) :
    (b.makeSpace len).Valid ∧ len ≤ (b.makeSpace len).writableBytes ∧
      (b.makeSpace len).contents = b.contents := by
  have ordered := valid.read_le_write
  have bound := valid.write_le_size
  have down := compact_moves_down short compact
  have size := contents_length valid
  have readable : b.readIndex + b.readableBytes ≤ b.buffer.length := by
    simp only [readableBytes]; omega
  have front : (b.buffer.take kCheapPrepend).length = kCheapPrepend := by
    rw [List.length_take]; omega
  have moved := copyWithin_eq b.buffer b.readIndex kCheapPrepend b.readableBytes down.le readable
  simp only [mustGrow, writableBytes, prependableBytes] at compact
  rw [makeSpace_compact (by simpa only [mustGrow, writableBytes, prependableBytes] using compact)]
  refine ⟨⟨le_rfl, Nat.le_add_right _ _, ?_, fun _ => rfl⟩, ?_, ?_⟩
  · simp only [copyWithin_length]; omega
  · simp only [writableBytes, copyWithin_length, readableBytes]; omega
  · have kept : (copyWithin b.buffer b.readIndex kCheapPrepend b.readableBytes).drop kCheapPrepend =
        b.contents ++ b.buffer.drop (kCheapPrepend + b.readableBytes) := by
      rw [moved, List.append_assoc, List.drop_left' front]
      rfl
    have count : kCheapPrepend + b.readableBytes - kCheapPrepend = b.readableBytes := by omega
    rw [contents, peek, readableBytes]
    simp only [kept, count]
    exact List.take_left' size

/-- Growing and compacting both leave the asked room and the readable bytes. -/
theorem makeSpace_spec {b : Buffer} (valid : b.Valid) {len : Nat} (short : b.writableBytes < len) :
    (b.makeSpace len).Valid ∧ len ≤ (b.makeSpace len).writableBytes ∧
      (b.makeSpace len).contents = b.contents := by
  by_cases grow : b.mustGrow len
  · rw [makeSpace_grow grow]
    exact grow_spec valid short
  · exact compact_spec valid short grow

theorem ensureWritableBytes_spec {b : Buffer} (valid : b.Valid) (len : Nat) :
    (b.ensureWritableBytes len).Valid ∧ len ≤ (b.ensureWritableBytes len).writableBytes ∧
      (b.ensureWritableBytes len).contents = b.contents := by
  unfold ensureWritableBytes
  split
  · exact makeSpace_spec valid (by assumption)
  · exact ⟨valid, by omega, rfl⟩

/-- Bytes written into the room behind the write index become readable. -/
theorem write_spec {b : Buffer} (valid : b.Valid) {data : Bytes}
    (room : data.length ≤ b.writableBytes) :
    let written : Buffer := { b with
      buffer := copyInto b.buffer b.writeIndex data, writeIndex := b.writeIndex + data.length }
    written.Valid ∧ written.contents = b.contents ++ data := by
  have ordered := valid.read_le_write
  have bound := valid.write_le_size
  have prepended := valid.prepend_le_read
  simp only [writableBytes] at room
  refine ⟨⟨prepended, by simp only; omega, by simp only [copyInto_length]; omega, ?_⟩, ?_⟩
  · intro empty
    exact valid.empty_at_front (by simp only at empty ⊢; omega)
  · have front : (b.buffer.take b.writeIndex).length = b.writeIndex := by
      rw [List.length_take]; omega
    simp only [contents_eq_drop_take]
    rw [copyInto_eq _ _ _ (by omega), List.take_left' (by rw [List.length_append, front]),
      List.drop_append_of_le_length (by omega)]

theorem append_spec {b : Buffer} (valid : b.Valid) (data : Bytes) :
    (b.append data).Valid ∧ (b.append data).contents = b.contents ++ data := by
  obtain ⟨validRoom, room, same⟩ := ensureWritableBytes_spec valid data.length
  have written := write_spec validRoom room
  rwa [same] at written

theorem valid_append {b : Buffer} (valid : b.Valid) (data : Bytes) : (b.append data).Valid :=
  (append_spec valid data).1

theorem contents_append {b : Buffer} (valid : b.Valid) (data : Bytes) :
    (b.append data).contents = b.contents ++ data :=
  (append_spec valid data).2

/-- The bytes that `readv` delivers follow the readable ones, also when a part
of them went through `extrabuf`. -/
theorem readFd_ok_spec {b : Buffer} (valid : b.Valid) (data : Bytes) :
    (b.readFd (.ok data)).Valid ∧ (b.readFd (.ok data)).contents = b.contents ++ data := by
  unfold readFd
  dsimp only
  split
  · exact write_spec valid (by assumption)
  · rename_i exceeds
    have bound := valid.write_le_size
    have taken : (data.take b.writableBytes).length = b.writableBytes := by
      rw [List.length_take]; omega
    have filled := write_spec valid taken.le
    have last : b.writeIndex + (data.take b.writableBytes).length = b.buffer.length := by
      rw [taken, writableBytes]; omega
    rw [last] at filled
    obtain ⟨validAll, all⟩ := append_spec filled.1 (data.drop b.writableBytes)
    refine ⟨validAll, ?_⟩
    rw [all, filled.2, List.append_assoc, List.take_append_drop]

theorem valid_readFd {b : Buffer} (valid : b.Valid) (result : Except Errno Bytes) :
    (b.readFd result).Valid := by
  cases result with
  | error _ => exact valid
  | ok data => exact (readFd_ok_spec valid data).1

theorem contents_readFd_ok {b : Buffer} (valid : b.Valid) (data : Bytes) :
    (b.readFd (.ok data)).contents = b.contents ++ data :=
  (readFd_ok_spec valid data).2

end ReactorRpc.Buffer
