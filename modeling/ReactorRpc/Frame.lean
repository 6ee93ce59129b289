import ReactorRpc.Codec

namespace ReactorRpc
open Streams

/-- The longest payload of a frame the decoder accepts. -/
def maxPayload : Nat := maxFrame - 8

/-- What the front of a byte stream holds. -/
inductive Decoded
  | waiting
  | rejected
  | frame (id : UInt64) (payload rest : Bytes)
  deriving DecidableEq

/-- The length prefix at the front of a byte stream, a signed 32-bit number. -/
def frameLength (content : Bytes) : Int := asInt32 (UInt32.ofNat (beNat (content.take 4)))

/-- The frame format on byte strings, with no buffer involved. -/
def decodeFrame (content : Bytes) : Decoded :=
  let n := frameLength content
  if content.length < 4 then .waiting
  else if n < 0 ∨ n > maxFrame then .rejected
  else if content.length < 4 + n.toNat then .waiting
  else if n < 8 then .rejected
  else .frame (UInt64.ofNat (beNat ((content.drop 4).take 8)))
    ((content.drop 12).take (n.toNat - 8)) (content.drop (4 + n.toNat))

theorem peek_long {b : Buffer} (valid : b.Valid) : b.readableBytes ≤ b.peek.length := by
  have bound := valid.write_le_size
  simp only [Buffer.readableBytes, Buffer.peek, List.length_drop]
  omega

/-- The codec reads nothing but the readable bytes, and reads them in network order. -/
theorem length_read {b : Buffer} (valid : b.Valid) (enough : 4 ≤ b.readableBytes) :
    asInt32 (ntohl (loadWord b.peek)) = frameLength b.contents := by
  have long : 4 ≤ b.peek.length := enough.trans (peek_long valid)
  have bound := beNat_lt (b.peek.take 4)
  rw [List.length_take, Nat.min_eq_left long] at bound
  have word : ntohl (loadWord b.peek) = UInt32.ofNat (beNat (b.peek.take 4)) := by
    apply UInt32.toNat_inj.mp
    rw [ntohl_loadWord long, UInt32.toNat_ofNat_of_lt' (by simpa using bound)]
  rw [word, Buffer.peek_take enough, frameLength]

theorem id_read {b : Buffer} (valid : b.Valid) (enough : 8 ≤ b.readableBytes) :
    RpcCodec.ntohll (loadLong b.peek) = UInt64.ofNat (beNat (b.contents.take 8)) := by
  have long : 8 ≤ b.peek.length := enough.trans (peek_long valid)
  have bound := beNat_lt (b.peek.take 8)
  rw [List.length_take, Nat.min_eq_left long] at bound
  apply UInt64.toNat_inj.mp
  rw [ntohll_loadLong long, ← Buffer.peek_take enough,
    UInt64.toNat_ofNat_of_lt' (by simpa using bound)]

theorem retrieve_retrieveAll (b : Buffer) (len : Nat) :
    (b.retrieve len).retrieveAll = b.retrieveAll := by
  unfold Buffer.retrieve
  split <;> rfl

/-- The buffer after a frame with a payload of `len` bytes has been taken off. -/
def afterFrame (b : Buffer) (len : Nat) : Buffer := ((b.retrieve 4).retrieve 8).retrieve len

theorem afterFrame_valid {b : Buffer} (valid : b.Valid) (len : Nat) : (afterFrame b len).Valid :=
  Buffer.valid_retrieve (Buffer.valid_retrieve (Buffer.valid_retrieve valid 4) 8) len

theorem afterFrame_contents {b : Buffer} (valid : b.Valid) (len : Nat) :
    (afterFrame b len).contents = b.contents.drop (12 + len) := by
  have first := Buffer.valid_retrieve valid 4
  rw [afterFrame, Buffer.contents_retrieve (Buffer.valid_retrieve first 8),
    Buffer.contents_retrieve first, Buffer.contents_retrieve valid, List.drop_drop, List.drop_drop,
    ← Nat.add_assoc]

/-- The three outcomes of the decoder, by what the readable bytes hold. -/
theorem tryUnpackWithId_spec {b : Buffer} (valid : b.Valid) (id : UInt64) :
    RpcCodec.tryUnpackWithId b id =
      match decodeFrame b.contents with
      | .waiting => ⟨[], b, id⟩
      | .rejected => ⟨[], b.retrieveAll, 0⟩
      | .frame reqId payload _ => ⟨payload, afterFrame b payload.length, reqId⟩ := by
  have size := Buffer.contents_length valid
  unfold RpcCodec.tryUnpackWithId decodeFrame
  rw [size]
  by_cases short : b.readableBytes < 4
  · simp only [short, if_true]
  · have length := length_read valid (Nat.le_of_not_lt short)
    simp only [short, if_false, length]
    by_cases outside : frameLength b.contents < 0 ∨ frameLength b.contents > maxFrame
    · simp only [outside, if_true]
    · by_cases part : b.readableBytes < 4 + (frameLength b.contents).toNat
      · simp only [outside, part, if_true, if_false]
      · by_cases small : frameLength b.contents < 8
        · simp only [outside, part, small, if_true, if_false, retrieve_retrieveAll]
        · have body := Buffer.valid_retrieve valid 4
          have bodySize := Buffer.readableBytes_retrieve b 4
          have restSize := Buffer.readableBytes_retrieve (b.retrieve 4) 8
          have whole : (frameLength b.contents).toNat - 8 ≤ ((b.retrieve 4).retrieve 8).readableBytes := by
            omega
          have payload : ((b.contents.drop 12).take ((frameLength b.contents).toNat - 8)).length =
              (frameLength b.contents).toNat - 8 := by
            rw [List.length_take, List.length_drop, size]
            omega
          simp only [outside, part, small, if_false, Buffer.retrieveAsString, payload, afterFrame]
          rw [Buffer.peek_take whole, Buffer.contents_retrieve body, Buffer.contents_retrieve valid,
            List.drop_drop, id_read body (by omega), Buffer.contents_retrieve valid]

/-- A decoded frame has been taken off the front of the stream, with its
length prefix and its id. -/
theorem decodeFrame_rest {content payload rest : Bytes} {id : UInt64}
    (decoded : decodeFrame content = .frame id payload rest) :
    rest = content.drop (12 + payload.length) ∧ 12 + payload.length ≤ content.length := by
  unfold decodeFrame at decoded
  dsimp only at decoded
  split at decoded
  · cases decoded
  split at decoded
  · cases decoded
  split at decoded
  · cases decoded
  split at decoded
  · cases decoded
  · rename_i part small
    cases decoded
    have count : 12 + ((content.drop 12).take ((frameLength content).toNat - 8)).length =
        4 + (frameLength content).toNat := by
      rw [List.length_take, List.length_drop]
      omega
    rw [count]
    exact ⟨rfl, by omega⟩

theorem beBytes_ofNat (n : Nat) : beBytes 4 (UInt32.ofNat n).toNat = beBytes 4 n := by
  rw [UInt32.toNat_ofNat', beBytes, beBytes, leBytes_congr (Nat.mod_mod n (2 ^ 32))]

/-- The encoder writes the length and the id in network order, then the payload. -/
theorem packWithId_eq (id : UInt64) (data : Bytes) :
    RpcCodec.packWithId id data = beBytes 4 (8 + data.length) ++ beBytes 8 id.toNat ++ data := by
  simp only [RpcCodec.packWithId, wordBytes_htonl, longBytes_htonll, beBytes_ofNat]

@[simp] theorem packWithId_length (id : UInt64) (data : Bytes) :
    (RpcCodec.packWithId id data).length = 12 + data.length := by
  simp only [packWithId_eq, List.length_append, beBytes_length]

theorem packWithId_take (id : UInt64) (data rest : Bytes) :
    (RpcCodec.packWithId id data ++ rest).take 4 = beBytes 4 (8 + data.length) := by
  rw [packWithId_eq, List.append_assoc, List.append_assoc]
  exact List.take_left' (beBytes_length 4 _)

theorem packWithId_id (id : UInt64) (data rest : Bytes) :
    ((RpcCodec.packWithId id data ++ rest).drop 4).take 8 = beBytes 8 id.toNat := by
  rw [packWithId_eq, List.append_assoc, List.append_assoc, List.drop_left' (beBytes_length 4 _)]
  exact List.take_left' (beBytes_length 8 _)

theorem packWithId_drop (id : UInt64) (data rest : Bytes) :
    (RpcCodec.packWithId id data ++ rest).drop 12 = data ++ rest := by
  rw [packWithId_eq, List.append_assoc]
  exact List.drop_left' (by simp only [List.length_append, beBytes_length])

theorem frameLength_eq {content : Bytes} {n : Nat} (front : content.take 4 = beBytes 4 n)
    (small : n < 2 ^ 32) : frameLength content = asInt32 (UInt32.ofNat n) := by
  rw [frameLength, front, beNat_beBytes, Nat.mod_eq_of_lt (by simpa using small)]

theorem asInt32_small {n : Nat} (small : n ≤ maxFrame) : asInt32 (UInt32.ofNat n) = n := by
  simp only [maxFrame] at small
  have value : (UInt32.ofNat n).toNat = n := UInt32.toNat_ofNat_of_lt' (by simp [UInt32.size]; omega)
  rw [asInt32, value, if_pos (by omega)]

theorem asInt32_large {n : Nat} (large : maxFrame < n) (small : n < 2 ^ 32) :
    asInt32 (UInt32.ofNat n) < 0 ∨ asInt32 (UInt32.ofNat n) > maxFrame := by
  simp only [maxFrame] at large ⊢
  have value : (UInt32.ofNat n).toNat = n := UInt32.toNat_ofNat_of_lt' (by simp [UInt32.size]; omega)
  simp only [asInt32, value]
  split <;> omega

/-- An encoded frame within the limit is decoded to its id and its payload,
whatever follows it. -/
theorem decodeFrame_pack {data : Bytes} (fits : data.length ≤ maxPayload) (id : UInt64)
    (rest : Bytes) :
    decodeFrame (RpcCodec.packWithId id data ++ rest) = .frame id data rest := by
  simp only [maxPayload, maxFrame] at fits
  have bound : 8 + data.length ≤ maxFrame := by simp only [maxFrame]; omega
  have length := frameLength_eq (packWithId_take id data rest) (by omega)
  rw [asInt32_small bound] at length
  have size : (RpcCodec.packWithId id data ++ rest).length = 12 + data.length + rest.length := by
    rw [List.length_append, packWithId_length]
  have count : ((8 + data.length : Nat) : Int).toNat - 8 = data.length := by omega
  have whole : 4 + ((8 + data.length : Nat) : Int).toNat = 12 + data.length := by omega
  have value : UInt64.ofNat (beNat (beBytes 8 id.toNat)) = id := by
    rw [beNat_beBytes, Nat.mod_eq_of_lt (by simpa using id.toNat_lt), UInt64.ofNat_toNat]
  unfold decodeFrame
  dsimp only
  rw [length, if_neg (by omega), if_neg (by omega), if_neg (by omega), if_neg (by omega),
    packWithId_id, packWithId_drop, count, whole, value, List.take_left, ← List.drop_drop,
    packWithId_drop, List.drop_left]

/-- The decoder waits as long as a frame within the limit is incomplete. -/
theorem decodeFrame_part {data content : Bytes} (fits : data.length ≤ maxPayload) {id : UInt64}
    (front : content <+: RpcCodec.packWithId id data)
    (short : content.length < (RpcCodec.packWithId id data).length) :
    decodeFrame content = .waiting := by
  unfold decodeFrame
  dsimp only
  split
  · rfl
  · rename_i enough
    simp only [maxPayload, maxFrame] at fits
    obtain ⟨later, split⟩ := front
    have same := packWithId_take id data []
    rw [List.append_nil, ← split, List.take_append_of_le_length (by omega)] at same
    have length := frameLength_eq same (by omega)
    rw [asInt32_small (by simp only [maxFrame]; omega)] at length
    rw [packWithId_length] at short
    rw [length, if_neg (by simp only [maxFrame]; omega), if_pos (by omega)]

/-- A frame over the limit is encoded without complaint and then rejected. -/
theorem decodeFrame_oversize {data : Bytes} (exceeds : maxPayload < data.length)
    (small : 8 + data.length < 2 ^ 32) (id : UInt64) (rest : Bytes) :
    decodeFrame (RpcCodec.packWithId id data ++ rest) = .rejected := by
  simp only [maxPayload, maxFrame] at exceeds
  have large : maxFrame < 8 + data.length := by simp only [maxFrame]; omega
  have length := frameLength_eq (packWithId_take id data rest) small
  have outside := asInt32_large large small
  rw [← length] at outside
  unfold decodeFrame
  dsimp only
  rw [if_neg (by rw [List.length_append, packWithId_length]; omega), if_pos outside]

/-- A frame the peers exchange: a payload that is not empty and within the limit. -/
structure Frame where
  id : UInt64
  payload : Bytes
  nonempty : payload ≠ []
  fits : payload.length ≤ maxPayload

def Frame.encode (f : Frame) : Bytes := RpcCodec.packWithId f.id f.payload

/-- The decoder as the receivers use it, for which an empty payload is no frame. -/
def nextFrame (content : Bytes) : Option (Frame × Bytes) :=
  match decodeFrame content with
  | .frame id payload rest =>
    if within : payload ≠ [] ∧ payload.length ≤ maxPayload then
      some (⟨id, payload, within.1, within.2⟩, rest)
    else none
  | _ => none

theorem nextFrame_encode (f : Frame) (rest : Bytes) : nextFrame (f.encode ++ rest) = some (f, rest) := by
  rw [nextFrame, Frame.encode, decodeFrame_pack f.fits]
  exact dif_pos ⟨f.nonempty, f.fits⟩

theorem frame_prefixCode : PrefixCode Frame.encode nextFrame where
  pos f := by simp [Frame.encode]
  whole := nextFrame_encode
  short f content front short := by
    rw [nextFrame, decodeFrame_part f.fits front short]

/-- A receiver that finds no frame in a stream of frames waits for more bytes:
such a stream is never rejected. -/
theorem Receiving.waiting {X : Type} {frame : X → Frame} {dec : Bytes → Option (X × Bytes)}
    (code : PrefixCode (fun x => (frame x).encode) dec) {xs got : List X} {later content : Bytes}
    (here : Receiving (fun x => (frame x).encode) xs later (got, content))
    (none : dec content = none) : decodeFrame content = .waiting := by
  obtain ⟨left, _, stream⟩ := here
  cases left with
  | nil =>
    have empty : content = [] := (List.append_eq_nil_iff.mp stream).1
    subst content
    rfl
  | cons x left =>
    rcases code.arrived_cases stream with ⟨inside, _⟩ | ⟨rest, starts, _⟩
    · rw [List.flatMap_cons] at stream
      have front : content <+: (frame x).encode :=
        List.prefix_of_prefix_length_le (List.prefix_append content later)
          (stream ▸ List.prefix_append (frame x).encode _) inside.le
      exact decodeFrame_part (frame x).fits front inside
    · change content = (frame x).encode ++ rest at starts
      rw [starts, code.whole] at none
      cases none

namespace ConnBuffer

theorem unpack_valid (b : ConnBuffer) (id : UInt64) :
    (RpcCodec.tryUnpackWithId b.val id).buf.Valid := by
  rw [tryUnpackWithId_spec b.property]
  split
  · exact b.property
  · exact Buffer.valid_retrieveAll b.property
  · exact afterFrame_valid b.property _

/-- The decoder run on a connection's buffer. -/
def tryUnpackWithId (b : ConnBuffer) (id : UInt64) : Bytes × UInt64 × ConnBuffer :=
  let unpacked := RpcCodec.tryUnpackWithId b.val id
  (unpacked.data, unpacked.id, ⟨unpacked.buf, b.unpack_valid id⟩)

theorem tryUnpack_waiting {b : ConnBuffer} (waits : decodeFrame b.contents = .waiting) (id : UInt64) :
    b.tryUnpackWithId id = ([], id, b) := by
  have spec := tryUnpackWithId_spec b.property id
  rw [show decodeFrame b.val.contents = .waiting from waits] at spec
  simp only [tryUnpackWithId, spec]

theorem tryUnpack_frame {b : ConnBuffer} {f : Frame} {rest : Bytes}
    (decoded : nextFrame b.contents = some (f, rest)) (id : UInt64) :
    ∃ after : ConnBuffer, b.tryUnpackWithId id = (f.payload, f.id, after) ∧ after.contents = rest := by
  have spec := tryUnpackWithId_spec b.property id
  unfold nextFrame at decoded
  split at decoded
  · rename_i reqId payload tail content
    change decodeFrame b.val.contents = _ at content
    split at decoded
    · cases decoded
      have left := (decodeFrame_rest content).1
      rw [content] at spec
      refine ⟨⟨afterFrame b.val payload.length, afterFrame_valid b.property _⟩, ?_, ?_⟩
      · simp only [tryUnpackWithId, spec]
      · rw [contents, afterFrame_contents b.property, left]
    · cases decoded
  · cases decoded

end ConnBuffer
end ReactorRpc
