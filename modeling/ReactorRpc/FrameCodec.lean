import ReactorRpc.RejectedFrames

namespace ReactorRpc
open Streams

/-- A copy of bytes from `peek` that fails unless all of them are readable. -/
def Buffer.readWithin (b : Buffer) (len : Nat) : Option Bytes :=
  if len ≤ b.readableBytes then some (b.peek.take len) else none

theorem Buffer.readWithin_of_le {b : Buffer} {len : Nat} (within : len ≤ b.readableBytes) :
    b.readWithin len = some (b.peek.take len) := if_pos within

namespace RpcCodec

/-- `tryUnpackWithId` with each of its three reads checked against the readable bytes. -/
def tryUnpackWithIdChecked (buf : Buffer) (id : UInt64) : Option Unpacked :=
  if buf.readableBytes < 4 then some ⟨[], buf, id⟩
  else do
    let netLen ← buf.readWithin 4
    let len := asInt32 (ntohl (loadWord netLen))
    if len < 0 ∨ len > maxFrame then some ⟨[], buf.retrieveAll, 0⟩
    else if buf.readableBytes < 4 + len.toNat then some ⟨[], buf, id⟩
    else
      let body := buf.retrieve 4
      if len < 8 then some ⟨[], body.retrieveAll, 0⟩
      else do
        let netId ← body.readWithin 8
        let rest := body.retrieve 8
        let data ← rest.readWithin (len.toNat - 8)
        some ⟨data, rest.retrieve (len.toNat - 8), ntohll (loadLong netId)⟩

end RpcCodec

theorem loadWord_take (bs : Bytes) : loadWord (bs.take 4) = loadWord bs := by
  rw [loadWord, loadWord, List.take_take, Nat.min_self]

theorem loadLong_take (bs : Bytes) : loadLong (bs.take 8) = loadLong bs := by
  rw [loadLong, loadLong, List.take_take, Nat.min_self]

/-- Whatever a buffer holds, its indices even apart, the decoder reads nothing
that is not readable. -/
theorem tryUnpackWithIdChecked_eq (buf : Buffer) (id : UInt64) :
    RpcCodec.tryUnpackWithIdChecked buf id = some (RpcCodec.tryUnpackWithId buf id) := by
  unfold RpcCodec.tryUnpackWithIdChecked RpcCodec.tryUnpackWithId
  by_cases short : buf.readableBytes < 4
  · rw [if_pos short, if_pos short]
  rw [if_neg short, if_neg short, Buffer.readWithin_of_le (Nat.le_of_not_lt short), Option.bind_eq_bind,
    Option.bind_some, loadWord_take]
  dsimp only
  split
  · rfl
  split
  · rfl
  split
  · rfl
  rename_i whole large
  have body := Buffer.readableBytes_retrieve buf 4
  have rest := Buffer.readableBytes_retrieve (buf.retrieve 4) 8
  rw [Buffer.readWithin_of_le (by omega), Option.bind_some, loadLong_take,
    Buffer.readWithin_of_le (by omega), Option.bind_some, Buffer.retrieveAsString]

/-- A length prefix of an acceptable frame, and all the bytes it announces. -/
def StartsWithFrame (content : Bytes) : Prop :=
  4 ≤ content.length ∧ 8 ≤ frameLength content ∧ frameLength content ≤ maxFrame ∧
    4 + frameLength content ≤ content.length

/-- No length prefix yet, or one within the limit and not all the bytes it announces. -/
def Incomplete (content : Bytes) : Prop :=
  content.length < 4 ∨
    0 ≤ frameLength content ∧ frameLength content ≤ maxFrame ∧ content.length < 4 + frameLength content

theorem StartsWithFrame.not_incomplete {content : Bytes} (starts : StartsWithFrame content) :
    ¬Incomplete content := by
  obtain ⟨enough, large, small, whole⟩ := starts
  rintro (short | ⟨_, _, part⟩) <;> omega

theorem decodeFrame_waiting_iff {content : Bytes} :
    decodeFrame content = .waiting ↔ Incomplete content := by
  unfold decodeFrame Incomplete
  dsimp only
  constructor
  · intro waits
    split at waits
    · exact .inl ‹_›
    split at waits
    · cases waits
    split at waits
    · exact .inr (by omega)
    split at waits
    · cases waits
    · cases waits
  · rintro (short | ⟨positive, small, part⟩)
    · rw [if_pos short]
    · split
      · rfl
      · rw [if_neg (by omega), if_pos (by omega)]

theorem decodeFrame_frame_iff {content : Bytes} :
    (∃ id payload rest, decodeFrame content = .frame id payload rest) ↔ StartsWithFrame content := by
  have limit : maxFrame = 67108864 := rfl
  unfold decodeFrame StartsWithFrame
  dsimp only
  constructor
  · rintro ⟨id, payload, rest, decoded⟩
    split at decoded
    · cases decoded
    split at decoded
    · cases decoded
    split at decoded
    · cases decoded
    split at decoded
    · cases decoded
    · omega
  · rintro ⟨enough, large, small, whole⟩
    rw [if_neg (by omega), if_neg (by omega), if_neg (by omega), if_neg (by omega)]
    exact ⟨_, _, _, rfl⟩

namespace RawFrame

theorem eq_of_parts {f g : RawFrame} (id : f.id = g.id) (payload : f.payload = g.payload) : f = g := by
  cases f
  cases g
  cases id
  cases payload
  rfl

/-- A stream starts with at most one frame. -/
theorem encode_unique {f g : RawFrame} {rest tail : Bytes}
    (same : f.encode ++ rest = g.encode ++ tail) : f = g ∧ rest = tail := by
  have decoded := f.decode_encode rest
  rw [same, g.decode_encode tail] at decoded
  injection decoded with id payload behind
  exact ⟨eq_of_parts id.symm payload.symm, behind.symm⟩

end RawFrame

namespace RpcCodec

/-- The encoder writes the length and the id in network order; the decoder takes
off the one frame the readable bytes start with, waits, or empties the buffer,
and reads nothing but readable bytes. -/
theorem codec_exact (b : ConnBuffer) (id : UInt64) :
    (∀ f : RawFrame, packWithId f.id f.payload =
      beBytes 4 (8 + f.payload.length) ++ beBytes 8 f.id.toNat ++ f.payload ∧
        8 + f.payload.length < 2 ^ 31) ∧
      tryUnpackWithIdChecked b.val id = some (tryUnpackWithId b.val id) ∧
      let out := tryUnpackWithId b.val id
      (StartsWithFrame b.contents ∧ ¬Incomplete b.contents ∧ out.buf.Valid ∧
          ∃ (f : RawFrame) (rest : Bytes), b.contents = packWithId f.id f.payload ++ rest ∧
            (∀ (g : RawFrame) (tail : Bytes),
              b.contents = packWithId g.id g.payload ++ tail → g = f ∧ tail = rest) ∧
            out.data = f.payload ∧ out.id = f.id ∧ out.buf.contents = rest) ∨
        (Incomplete b.contents ∧ ¬StartsWithFrame b.contents ∧ out = ⟨[], b.val, id⟩) ∨
        (¬StartsWithFrame b.contents ∧ ¬Incomplete b.contents ∧ out.buf.Valid ∧
          out.data = [] ∧ out.id = 0 ∧ out.buf.contents = []) := by
  have limit : maxPayload = 67108856 := rfl
  refine ⟨fun f => ⟨packWithId_eq f.id f.payload, ?_⟩, tryUnpackWithIdChecked_eq b.val id, ?_⟩
  · have fits := f.fits
    omega
  intro out
  have spec : out = _ := tryUnpackWithId_spec b.property id
  have valid : out.buf.Valid := b.unpack_valid id
  cases decoded : decodeFrame b.contents with
  | waiting =>
    have waits := decodeFrame_waiting_iff.mp decoded
    rw [show decodeFrame b.val.contents = .waiting from decoded] at spec
    exact .inr (.inl ⟨waits, fun starts => starts.not_incomplete waits, spec⟩)
  | rejected =>
    have complete : ¬Incomplete b.contents := by
      intro waits
      rw [decodeFrame_waiting_iff.mpr waits] at decoded
      cases decoded
    have nothing : ¬StartsWithFrame b.contents := by
      intro starts
      obtain ⟨_, _, _, frame⟩ := decodeFrame_frame_iff.mpr starts
      rw [decoded] at frame
      cases frame
    rw [show decodeFrame b.val.contents = .rejected from decoded] at spec
    refine .inr (.inr ⟨nothing, complete, valid, ?_, ?_, ?_⟩)
    · rw [spec]
    · rw [spec]
    · rw [spec]
      exact Buffer.contents_retrieveAll b.val
  | frame reqId payload rest =>
    have starts := decodeFrame_frame_iff.mp ⟨_, _, _, decoded⟩
    obtain ⟨f, sameId, samePayload, whole⟩ := RawFrame.of_decoded decoded
    rw [show decodeFrame b.val.contents = .frame reqId payload rest from decoded] at spec
    refine .inl ⟨starts, starts.not_incomplete, valid, f, rest, whole, ?_, ?_, ?_, ?_⟩
    · intro g tail other
      exact RawFrame.encode_unique (other.symm.trans whole)
    · rw [spec, samePayload]
    · rw [spec, sameId]
    · rw [spec]
      have left := (decodeFrame_rest decoded).1
      rw [left]
      exact afterFrame_contents b.property payload.length

end RpcCodec
end ReactorRpc
