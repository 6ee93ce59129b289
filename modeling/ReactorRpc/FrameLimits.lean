import ReactorRpc.Frame

namespace ReactorRpc
open Streams

/-- The decoder of unnumbered messages, by what the readable bytes hold. -/
theorem tryUnpack_spec {b : Buffer} (valid : b.Valid) :
    RpcCodec.tryUnpack b =
      if b.contents.length < 4 then ([], b)
      else if frameLength b.contents < 0 ∨ frameLength b.contents > maxFrame then ([], b.retrieveAll)
      else if b.contents.length < 4 + (frameLength b.contents).toNat then ([], b)
      else ((b.contents.drop 4).take (frameLength b.contents).toNat,
        (b.retrieve 4).retrieve (frameLength b.contents).toNat) := by
  have size := Buffer.contents_length valid
  unfold RpcCodec.tryUnpack
  rw [size]
  by_cases short : b.readableBytes < 4
  · simp only [short, if_true]
  · have length := length_read valid (Nat.le_of_not_lt short)
    simp only [short, if_false, length]
    by_cases outside : frameLength b.contents < 0 ∨ frameLength b.contents > maxFrame
    · simp only [outside, if_true]
    · by_cases part : b.readableBytes < 4 + (frameLength b.contents).toNat
      · simp only [outside, part, if_true, if_false]
      · have rest := Buffer.readableBytes_retrieve b 4
        have whole : (frameLength b.contents).toNat ≤ (b.retrieve 4).readableBytes := by omega
        simp only [outside, part, if_false, Buffer.retrieveAsString]
        rw [Buffer.peek_take whole, Buffer.contents_retrieve valid]

theorem tryUnpack_valid {b : Buffer} (valid : b.Valid) : (RpcCodec.tryUnpack b).2.Valid := by
  rw [tryUnpack_spec valid]
  split
  · exact valid
  split
  · exact Buffer.valid_retrieveAll valid
  split
  · exact valid
  · exact Buffer.valid_retrieve (Buffer.valid_retrieve valid 4) _

/-- The decoder of unnumbered messages run on a connection's buffer. -/
def ConnBuffer.tryUnpack (b : ConnBuffer) : Bytes × ConnBuffer :=
  ((RpcCodec.tryUnpack b.val).1, ⟨(RpcCodec.tryUnpack b.val).2, tryUnpack_valid b.property⟩)

theorem decodeFrame_payload_le {content payload rest : Bytes} {id : UInt64}
    (decoded : decodeFrame content = .frame id payload rest) : payload.length ≤ maxPayload := by
  unfold decodeFrame at decoded
  dsimp only at decoded
  split at decoded
  · cases decoded
  split at decoded
  · cases decoded
  split at decoded
  · cases decoded
  split at decoded
  · cases decoded
  · rename_i inside part small
    cases decoded
    simp only [maxFrame] at inside
    simp only [List.length_take, maxPayload, maxFrame]
    omega

/-- No payload the decoders return is longer than their limit. -/
theorem tryUnpackWithId_length_le (b : ConnBuffer) (seed : UInt64) :
    (b.tryUnpackWithId seed).1.length ≤ maxPayload := by
  have spec := tryUnpackWithId_spec b.property seed
  simp only [ConnBuffer.tryUnpackWithId, spec]
  split
  · exact Nat.zero_le _
  · exact Nat.zero_le _
  · rename_i decoded
    exact decodeFrame_payload_le decoded

theorem tryUnpack_length_le (b : ConnBuffer) : b.tryUnpack.1.length ≤ maxFrame := by
  simp only [ConnBuffer.tryUnpack, tryUnpack_spec b.property]
  split
  · exact Nat.zero_le _
  split
  · exact Nat.zero_le _
  split
  · exact Nat.zero_le _
  · rename_i inside _
    rw [List.length_take]
    omega

theorem pack_eq (data : Bytes) : RpcCodec.pack data = beBytes 4 data.length ++ data := by
  simp only [RpcCodec.pack, wordBytes_htonl, beBytes_ofNat]

theorem frameLength_packWithId {data : Bytes} (fits : data.length + 8 ≤ maxFrame) (id : UInt64)
    (rest : Bytes) :
    frameLength (RpcCodec.packWithId id data ++ rest) = ((8 + data.length : Nat) : Int) := by
  have bound : 8 + data.length ≤ maxFrame := by omega
  rw [frameLength_eq (packWithId_take id data rest) (by simp only [maxFrame] at fits; omega),
    asInt32_small bound]

theorem frameLength_pack {data : Bytes} (fits : data.length ≤ maxFrame) (rest : Bytes) :
    frameLength (RpcCodec.pack data ++ rest) = (data.length : Int) := by
  have front : (RpcCodec.pack data ++ rest).take 4 = beBytes 4 data.length := by
    rw [pack_eq, List.append_assoc]
    exact List.take_left' (beBytes_length 4 _)
  rw [frameLength_eq front (by simp only [maxFrame] at fits; omega), asInt32_small fits]

/-- A buffer that starts with a frame within the limit gives up its payload and
its id and keeps the bytes after it. -/
theorem tryUnpackWithId_pack {b : ConnBuffer} {data rest : Bytes} {id : UInt64}
    (holds : b.contents = RpcCodec.packWithId id data ++ rest) (fits : data.length ≤ maxPayload)
    (seed : UInt64) :
    ∃ after : ConnBuffer, b.tryUnpackWithId seed = (data, id, after) ∧ after.contents = rest := by
  have decoded := decodeFrame_pack fits id rest
  have spec := tryUnpackWithId_spec b.property seed
  rw [show b.val.contents = _ from holds, decoded] at spec
  refine ⟨⟨afterFrame b.val data.length, afterFrame_valid b.property _⟩, ?_, ?_⟩
  · simp only [ConnBuffer.tryUnpackWithId, spec]
  · rw [ConnBuffer.contents, afterFrame_contents b.property, show b.val.contents = _ from holds]
    exact List.drop_left' (packWithId_length id data)

theorem tryUnpack_pack {b : ConnBuffer} {data rest : Bytes}
    (holds : b.contents = RpcCodec.pack data ++ rest) (fits : data.length ≤ maxFrame) :
    ∃ after : ConnBuffer, b.tryUnpack = (data, after) ∧ after.contents = rest := by
  have length := frameLength_pack fits rest
  have size : (RpcCodec.pack data ++ rest).length = 4 + data.length + rest.length := by
    simp only [pack_eq, List.length_append, beBytes_length]
  have body : (RpcCodec.pack data ++ rest).drop 4 = data ++ rest := by
    rw [pack_eq, List.append_assoc]
    exact List.drop_left' (beBytes_length 4 _)
  have spec := tryUnpack_spec b.property
  rw [show b.val.contents = _ from holds, length, if_neg (by omega), if_neg (by omega),
    if_neg (by omega), Int.toNat_natCast, body, List.take_left] at spec
  have opened := Buffer.valid_retrieve b.property 4
  refine ⟨⟨(b.val.retrieve 4).retrieve data.length, Buffer.valid_retrieve opened _⟩, ?_, ?_⟩
  · simp only [ConnBuffer.tryUnpack, spec]
  · rw [ConnBuffer.contents, Buffer.contents_retrieve opened, Buffer.contents_retrieve b.property,
      show b.val.contents = _ from holds, body, List.drop_left]

/-- The encoders accept every payload; the decoders give back exactly those
that keep the length field within 64 MiB. -/
theorem codec_agrees_iff (id seed : UInt64) (data rest : Bytes) :
    (∀ b : ConnBuffer, b.contents = RpcCodec.packWithId id data ++ rest →
      (((∃ after : ConnBuffer, b.tryUnpackWithId seed = (data, id, after) ∧ after.contents = rest) ∧
          frameLength b.contents = 8 + data.length ∧ decodeFrame b.contents ≠ .rejected) ↔
        data.length + 8 ≤ maxFrame)) ∧
    (∀ b : ConnBuffer, b.contents = RpcCodec.pack data ++ rest →
      (((∃ after : ConnBuffer, b.tryUnpack = (data, after) ∧ after.contents = rest) ∧
          frameLength b.contents = data.length) ↔
        data.length ≤ maxFrame)) := by
  refine ⟨fun b holds => ⟨?_, ?_⟩, fun b holds => ⟨?_, ?_⟩⟩
  · rintro ⟨⟨after, result, _⟩, _⟩
    have bound := tryUnpackWithId_length_le b seed
    rw [result] at bound
    simp only [maxPayload, maxFrame] at bound ⊢
    omega
  · intro fits
    have within : data.length ≤ maxPayload := by simp only [maxPayload]; omega
    refine ⟨tryUnpackWithId_pack holds within seed, ?_, ?_⟩
    · rw [holds, frameLength_packWithId fits, Nat.cast_add]
      rfl
    · rw [holds, decodeFrame_pack within]
      exact Decoded.noConfusion
  · rintro ⟨⟨after, result, _⟩, _⟩
    have bound := tryUnpack_length_le b
    rwa [result] at bound
  · intro fits
    exact ⟨tryUnpack_pack holds fits, holds ▸ frameLength_pack fits rest⟩

theorem codec_agrees_one :
    ∃ b after : ConnBuffer, b.contents = RpcCodec.packWithId 7 [1] ++ [2] ∧
      b.tryUnpackWithId 0 = ([1], 7, after) ∧ after.contents = [2] := by
  have holds : (ConnBuffer.new.append (RpcCodec.packWithId 7 [1] ++ [2])).contents =
      RpcCodec.packWithId 7 [1] ++ [2] := by
    rw [ConnBuffer.contents_append, ConnBuffer.contents_new, List.nil_append]
  have agrees := (codec_agrees_iff 7 0 [1] [2]).1 _ holds
  obtain ⟨⟨after, result⟩, _⟩ := agrees.mpr (by decide)
  exact ⟨_, after, holds, result⟩

/-- One byte over the limit is enough for the decoder to refuse what the
encoder wrote. -/
theorem packWithId_not_decoded :
    ¬∀ (id seed : UInt64) (data rest : Bytes) (b : ConnBuffer),
      b.contents = RpcCodec.packWithId id data ++ rest →
      ∃ after : ConnBuffer, b.tryUnpackWithId seed = (data, id, after) ∧ after.contents = rest := by
  intro agrees
  have holds : (ConnBuffer.new.append (RpcCodec.packWithId 1 (List.replicate 67108857 0))).contents =
      RpcCodec.packWithId 1 (List.replicate 67108857 0) ++ [] := by
    rw [ConnBuffer.contents_append, ConnBuffer.contents_new, List.nil_append, List.append_nil]
  obtain ⟨after, result, _⟩ := agrees 1 0 _ _ _ holds
  have bound := tryUnpackWithId_length_le
    (ConnBuffer.new.append (RpcCodec.packWithId 1 (List.replicate 67108857 0))) 0
  rw [result, List.length_replicate] at bound
  simp only [maxPayload, maxFrame] at bound
  omega

end ReactorRpc
