import ReactorRpc.FrameCodec

namespace ReactorRpc
open Streams

theorem RawFrame.startsWithFrame (f : RawFrame) (rest : Bytes) : StartsWithFrame (f.encode ++ rest) :=
  decodeFrame_frame_iff.mp ⟨_, _, _, f.decode_encode rest⟩

theorem StartsWithFrame.split {content : Bytes} (starts : StartsWithFrame content) :
    ∃ (f : RawFrame) (rest : Bytes), content = f.encode ++ rest := by
  obtain ⟨_, _, rest, decoded⟩ := decodeFrame_frame_iff.mpr starts
  obtain ⟨f, _, _, whole⟩ := RawFrame.of_decoded decoded
  exact ⟨f, rest, whole⟩

namespace RpcServer

/-- Contents on which the loop stops early: behind some requests lie a frame
with an empty payload and, right behind it, another whole frame. -/
inductive Stalls : Bytes → Prop
  | here {f : RawFrame} (empty : f.payload = []) (g : RawFrame) (rest : Bytes) :
    Stalls (f.encode ++ (g.encode ++ rest))
  | behind {f : RawFrame} {content : Bytes} (some : f.payload ≠ []) (stalls : Stalls content) :
    Stalls (f.encode ++ content)

theorem stalls_of_left {buf : ConnBuffer} (left : StartsWithFrame (onMessage buf).2.contents) :
    Stalls buf.contents := by
  induction size : buf.readableBytes using Nat.strongRecOn generalizing buf with
  | ind n ih =>
    cases decoded : decodeFrame buf.contents with
    | waiting =>
      rw [onMessage_waiting decoded] at left
      exact absurd (decodeFrame_waiting_iff.mp decoded) left.not_incomplete
    | rejected =>
      rw [(onMessage_rejected decoded).2] at left
      exact absurd left.1 (by decide)
    | frame id payload rest =>
      obtain ⟨f, _, samePayload, whole⟩ := RawFrame.of_decoded decoded
      obtain ⟨after, content, result⟩ := onMessage_frame decoded
      rw [whole]
      by_cases empty : payload = []
      · rw [if_pos empty] at result
        rw [result, content] at left
        obtain ⟨g, tail, next⟩ := left.split
        rw [next]
        exact .here (samePayload.trans empty) g tail
      · rw [if_neg empty] at result
        rw [result] at left
        have shorter : after.readableBytes < n := by
          rw [← size, ConnBuffer.readableBytes_eq, ConnBuffer.readableBytes_eq, whole, content,
            List.length_append]
          have some := List.length_pos_iff.mpr f.encode_ne_nil
          omega
        have stalls := ih _ shorter left rfl
        rw [content] at stalls
        exact .behind (samePayload ▸ empty) stalls

theorem left_of_stalls {content : Bytes} (stalls : Stalls content) {buf : ConnBuffer}
    (holds : buf.contents = content) : StartsWithFrame (onMessage buf).2.contents := by
  induction stalls generalizing buf with
  | @here f empty g rest =>
    have decoded := f.decode_encode (g.encode ++ rest)
    rw [← holds] at decoded
    obtain ⟨after, behind, result⟩ := onMessage_frame decoded
    rw [if_pos empty] at result
    rw [result, behind]
    exact g.startsWithFrame rest
  | @behind f content some stalls ih =>
    have decoded := f.decode_encode content
    rw [← holds] at decoded
    obtain ⟨after, behind, result⟩ := onMessage_frame decoded
    rw [if_neg some] at result
    rw [result]
    exact ih behind

/-- The loop ends within a round for each twelve readable bytes and one more. It
leaves no whole frame at the front of the buffer unless it finds one behind a
frame with an empty payload. -/
theorem onMessage_drains_iff (buf : ConnBuffer) :
    onMessageFuel (buf.readableBytes / 12 + 1) buf = some (onMessage buf) ∧
      (¬StartsWithFrame (onMessage buf).2.contents ↔ ¬Stalls buf.contents) := by
  constructor
  · exact onMessageFuel_stable (by omega)
  · constructor
    · exact fun drained stalls => drained (left_of_stalls stalls rfl)
    · exact fun moves left => moves (stalls_of_left left)

/-- A request behind a frame with an empty payload waits for more bytes. -/
theorem onMessage_stalls :
    ¬∀ buf : ConnBuffer, onMessageFuel (buf.readableBytes / 12 + 1) buf = some (onMessage buf) ∧
      ¬StartsWithFrame (onMessage buf).2.contents := by
  intro drains
  let f : RawFrame := ⟨1, [], by decide⟩
  let g : RawFrame := ⟨2, [1], by decide⟩
  have content : (ConnBuffer.new.readFd (.ok (f.encode ++ (g.encode ++ [])))).contents =
      f.encode ++ (g.encode ++ []) := by
    rw [ConnBuffer.contents_readFd_ok, ConnBuffer.contents_new, List.nil_append]
  exact (drains _).2 (left_of_stalls (.here rfl g []) content)

end RpcServer
end ReactorRpc
