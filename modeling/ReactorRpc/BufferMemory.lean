import ReactorRpc.BufferQueue
import ReactorRpc.RejectedFrames
import ReactorRpc.ServerIntake

namespace ReactorRpc
open Streams

namespace Buffer

/-- The vector grows only when the free bytes in front are fewer than the missing ones. -/
theorem makeSpace_length {b : Buffer} (valid : b.Valid) {len : Nat} (short : b.writableBytes < len) :
    b.buffer.length ≤ (b.makeSpace len).buffer.length ∧
      (b.makeSpace len).buffer.length ≤ max b.buffer.length (b.readableBytes + 2 * len + 7) := by
  have ordered := valid.read_le_write
  have bound := valid.write_le_size
  simp only [writableBytes] at short
  by_cases grow : b.mustGrow len
  · have room : (b.buffer.length - b.writeIndex) + b.readIndex < len + kCheapPrepend := grow
    rw [makeSpace_grow grow]
    simp only [resize_length (show b.buffer.length ≤ b.writeIndex + len by omega), readableBytes]
    simp only [kCheapPrepend] at room
    omega
  · rw [makeSpace_compact grow, copyWithin_length]
    exact ⟨le_rfl, le_max_left ..⟩

theorem append_length {b : Buffer} (valid : b.Valid) (data : Bytes) :
    b.buffer.length ≤ (b.append data).buffer.length ∧
      (b.append data).buffer.length ≤ max b.buffer.length (b.readableBytes + 2 * data.length + 7) := by
  simp only [append, copyInto_length, ensureWritableBytes]
  split
  · exact makeSpace_length valid (by assumption)
  · exact ⟨le_rfl, le_max_left ..⟩

/-- The bytes of an operation that the vector may have to grow for. -/
def spill (b : Buffer) : BufferOp → Nat
  | .append data => data.length
  | .readFd (.ok data) => data.length - b.writableBytes
  | _ => 0

theorem readFd_length {b : Buffer} (valid : b.Valid) (data : Bytes) :
    b.buffer.length ≤ (b.readFd (.ok data)).buffer.length ∧
      (b.readFd (.ok data)).buffer.length ≤
        max b.buffer.length (b.readableBytes + data.length + (data.length - b.writableBytes) + 7) := by
  unfold readFd
  dsimp only
  split
  · simp only [copyInto_length, le_refl, true_and]
    exact le_max_left ..
  · rename_i exceeds
    have ordered := valid.read_le_write
    have bound := valid.write_le_size
    have taken : (data.take b.writableBytes).length = b.writableBytes := by
      rw [List.length_take]; omega
    have filled := (write_spec valid taken.le).1
    have last : b.writeIndex + (data.take b.writableBytes).length = b.buffer.length := by
      rw [taken, writableBytes]; omega
    rw [last] at filled
    have grown := append_length filled (data.drop b.writableBytes)
    simp only [copyInto_length, readableBytes, List.length_drop] at grown
    simp only [readableBytes, writableBytes] at grown exceeds ⊢
    omega

/-- An operation never shrinks the vector, and leaves it no longer than what it
holds then needs, up to the bytes that spilled. -/
theorem apply_length {b : Buffer} (valid : b.Valid) (op : BufferOp) :
    b.buffer.length ≤ (b.apply op).buffer.length ∧
      (b.apply op).buffer.length ≤
        max b.buffer.length ((queueApply b.contents op).length + b.spill op + 7) := by
  have held := contents_length valid
  have same : ∀ len, (b.retrieve len).buffer.length = b.buffer.length := by
    intro len
    unfold retrieve
    split <;> rfl
  cases op with
  | append data =>
    have bounds := append_length valid data
    simp only [queueApply, List.length_append, spill, held]
    exact ⟨bounds.1, bounds.2.trans (by omega)⟩
  | readFd result =>
    cases result with
    | error _ => exact ⟨le_rfl, le_max_left ..⟩
    | ok data =>
      simp only [queueApply, List.length_append, spill, held]
      exact readFd_length valid data
  | retrieve len => exact ⟨(same len).ge, (same len).le.trans (le_max_left ..)⟩
  | retrieveAll => exact ⟨le_rfl, le_max_left ..⟩
  | retrieveAsString len => exact ⟨(same len).ge, (same len).le.trans (le_max_left ..)⟩

theorem spill_le (b : Buffer) (op : BufferOp) : b.spill op ≤ (queueApply b.contents op).length := by
  cases op with
  | append data => simp [spill, queueApply]
  | readFd result =>
    cases result with
    | error _ => exact Nat.zero_le _
    | ok data =>
      simp only [spill, queueApply, List.length_append]
      omega
  | retrieve => exact Nat.zero_le _
  | retrieveAll => exact Nat.zero_le _
  | retrieveAsString => exact Nat.zero_le _

end Buffer

/-- The most bytes a queue holds over a run of operations. -/
def peak : Bytes → List BufferOp → Nat
  | queue, [] => queue.length
  | queue, op :: ops => max queue.length (peak (queueApply queue op) ops)

theorem length_le_peak (queue : Bytes) (ops : List BufferOp) : queue.length ≤ peak queue ops := by
  cases ops with
  | nil => exact le_rfl
  | cons op ops => exact le_max_left ..

namespace Buffer

theorem run_length {b : Buffer} (valid : b.Valid) (ops : List BufferOp) :
    b.buffer.length ≤ (ops.foldl apply b).buffer.length ∧
      (ops.foldl apply b).buffer.length ≤ max b.buffer.length (2 * peak b.contents ops + 7) := by
  induction ops generalizing b with
  | nil => exact ⟨le_rfl, le_max_left ..⟩
  | cons op ops ih =>
    obtain ⟨validNext, next⟩ := apply_refines valid op
    obtain ⟨grown, short⟩ := apply_length valid op
    obtain ⟨kept, rest⟩ := ih validNext
    have spilled := spill_le b op
    have later := length_le_peak (queueApply b.contents op) ops
    rw [next] at rest
    simp only [List.foldl_cons, peak]
    omega

theorem contents_le_length {b : Buffer} (valid : b.Valid) :
    b.contents.length + kCheapPrepend ≤ b.buffer.length := by
  have held := contents_length valid
  have prepended := valid.prepend_le_read
  have ordered := valid.read_le_write
  have bound := valid.write_le_size
  simp only [readableBytes] at held
  omega

theorem peak_le_length {b : Buffer} (valid : b.Valid) (ops : List BufferOp) :
    peak b.contents ops + kCheapPrepend ≤ (ops.foldl apply b).buffer.length := by
  induction ops generalizing b with
  | nil => exact contents_le_length valid
  | cons op ops ih =>
    obtain ⟨validNext, next⟩ := apply_refines valid op
    have later := ih validNext
    have here := contents_le_length valid
    have grown := (run_length valid (op :: ops)).1
    rw [next] at later
    simp only [List.foldl_cons, peak] at grown ⊢
    omega

/-- Over any run of operations on a new buffer the vector has room for the most bytes
held at any time, and it is never longer than twice that, however the bytes come and go. -/
theorem length_within_peak (initialSize : Nat) (ops : List BufferOp) :
    let b := ops.foldl apply (new initialSize)
    peak [] ops + 8 ≤ b.buffer.length ∧
      b.buffer.length ≤ max (8 + initialSize) (2 * peak [] ops + 7) := by
  intro b
  have lower := peak_le_length (valid_new initialSize) ops
  have upper := (run_length (valid_new initialSize) ops).2
  have start : (new initialSize).buffer.length = 8 + initialSize := List.length_replicate
  rw [contents_new] at lower upper
  rw [start] at upper
  exact ⟨lower, upper⟩

end Buffer

namespace RpcServer

/-- A partial frame is shorter than the largest frame. -/
theorem waiting_length {frames got : List Frame} {later : Bytes} {content : Bytes}
    (here : Receiving Frame.encode frames later (got, content)) (waits : nextFrame content = none) :
    content.length < 4 + maxFrame := by
  obtain ⟨left, -, stream⟩ := here
  cases left with
  | nil =>
    have empty := (List.append_eq_nil_iff.mp stream).1
    simp only at empty
    rw [empty]
    decide
  | cons f left =>
    rcases frame_prefixCode.arrived_cases stream with ⟨inside, -⟩ | ⟨rest, starts, -⟩
    · have fits := f.fits
      simp only [Frame.encode, packWithId_length, maxPayload] at inside fits
      have large : 8 ≤ maxFrame := by decide
      omega
    · simp only at starts
      rw [starts, nextFrame_encode] at waits
      cases waits

/-- Taking frames off a buffer leaves its vector as long as it was. -/
theorem onMessageRound_length (buf : ConnBuffer) :
    (onMessageRound buf).2.val.buffer.length = buf.val.buffer.length := by
  have same : ∀ (b : Buffer) (len : Nat), (b.retrieve len).buffer.length = b.buffer.length := by
    intro b len
    unfold Buffer.retrieve
    split <;> rfl
  have kept : (buf.tryUnpackWithId 0).2.2.val.buffer.length = buf.val.buffer.length := by
    simp only [ConnBuffer.tryUnpackWithId, tryUnpackWithId_spec buf.property]
    split
    · rfl
    · rfl
    · simp only [afterFrame, same]
  unfold onMessageRound
  dsimp only
  split <;> exact kept

section
variable [Protobuf] {Conn Msg Env : Type} {registry : RpcServiceRegistry Msg Env} [DecidableEq Conn]

/-- A run of a server that has read these bytes from one of its connections, at
most `most` of them at a time. -/
inductive Heard (threads : Nat) (conn : Conn) (most : Nat) : Bytes → State registry Conn → Prop
  | start : Heard threads conn most [] (State.new registry Conn threads)
  | step {received : Bytes} {s next : State registry Conn} {label : Label registry Conn}
      (before : Heard threads conn most received s) (step : Step s label next)
      (within : (label.arriving conn).length ≤ most) :
      Heard threads conn most (received ++ label.arriving conn) next

/-- What a connection's input buffer holds and the room it takes. Between events only a
part of a frame is left in it. -/
structure Bounded (frames : List Frame) (later : Bytes) (conn : Conn) (most : Nat)
    (s : State registry Conn) : Prop where
  reading : Reading frames later conn s
  waits : s.loop ≠ .inMessage conn → nextFrame (s.inputBuffer conn).contents = none
  room : (s.inputBuffer conn).val.buffer.length ≤ maxFrame + 2 * most + 10

/-- A round of `onMessage` on some connection, which takes a frame off. -/
theorem Bounded.take {frames : List Frame} {before later : Bytes} {conn other : Conn} {most : Nat}
    {s next : State registry Conn} {frame : Extracted} {after : ConnBuffer}
    (here : Bounded frames before conn most s) (reading : Reading frames later conn next)
    (loop : s.loop = .inMessage other) (round : onMessageRound (s.inputBuffer other) = (some frame, after))
    (buffer : next.inputBuffer = Function.update s.inputBuffer other after)
    (still : next.loop = s.loop) : Bounded frames later conn most next := by
  refine ⟨reading, ?_, ?_⟩
  · intro outside
    rw [still] at outside
    have different : conn ≠ other := by
      rintro rfl
      exact outside loop
    rw [buffer, Function.update_of_ne different]
    exact here.waits outside
  · by_cases same : conn = other
    · subst other
      have kept := onMessageRound_length (s.inputBuffer conn)
      rw [round] at kept
      rw [buffer, Function.update_self]
      exact kept.le.trans here.room
    · rw [buffer, Function.update_of_ne same]
      exact here.room

theorem Bounded.step {frames : List Frame} {later : Bytes} {conn : Conn} {most : Nat}
    {s next : State registry Conn} {label : Label registry Conn} (step : Step s label next)
    (within : (label.arriving conn).length ≤ most)
    (here : Bounded frames (label.arriving conn ++ later) conn most s) :
    Bounded frames later conn most next := by
  have reading := here.reading.step step
  cases step with
  | read other data some polling =>
    have quiet := here.waits (by rw [polling]; rintro ⟨⟩)
    by_cases same : conn = other
    · subst other
      refine ⟨reading, fun outside => absurd rfl outside, ?_⟩
      obtain ⟨got, -, position⟩ := here.reading
      have part := waiting_length position quiet
      have grown := (Buffer.readFd_length (s.inputBuffer conn).property data).2
      have held := (s.inputBuffer conn).readableBytes_eq
      have room := here.room
      simp only [Label.arriving, if_true] at within
      simp only [ConnBuffer.readableBytes] at held
      rw [held] at grown
      simp only [Function.update_self]
      exact grown.trans (by omega)
    · have unchanged : Function.update s.inputBuffer other ((s.inputBuffer other).readFd (.ok data)) conn =
          s.inputBuffer conn := Function.update_of_ne same ..
      exact ⟨reading, fun _ => (congrArg (nextFrame ·.contents) unchanged).trans quiet,
        (congrArg (·.val.buffer.length) unchanged).le.trans here.room⟩
  | @drained other after loop round =>
    by_cases same : conn = other
    · subst other
      obtain ⟨got, -, left, -, stream⟩ := here.reading
      have quiet : nextFrame (s.inputBuffer conn).contents = none := by
        cases decoded : nextFrame (s.inputBuffer conn).contents with
        | none => rfl
        | some pair =>
          obtain ⟨_, took, -⟩ := onMessageRound_frame decoded
          cases round.symm.trans took
      have kept : after = s.inputBuffer conn := by
        rcases onMessageRound_cases stream with waits | ⟨f, rest, more, -, took, -⟩
        · cases round.symm.trans waits
          rfl
        · cases round.symm.trans took
      subst after
      exact ⟨reading, fun _ => by simpa only [Function.update_self] using quiet,
        by simpa only [Function.update_self] using here.room⟩
    · have unchanged : Function.update s.inputBuffer other after conn = s.inputBuffer conn :=
        Function.update_of_ne same ..
      have quiet := here.waits (by rw [loop]; rintro ⟨⟩; exact same rfl)
      exact ⟨reading, fun _ => (congrArg (nextFrame ·.contents) unchanged).trans quiet,
        (congrArg (·.val.buffer.length) unchanged).le.trans here.room⟩
  | refuse loop round unparsable => exact here.take reading loop round rfl rfl
  | enqueue loop round parses => exact here.take reading loop round rfl rfl
  | pop => exact ⟨reading, here.waits, here.room⟩
  | dispatch => exact ⟨reading, here.waits, here.room⟩
  | post => exact ⟨reading, here.waits, here.room⟩
  | takeFunctors polling => exact ⟨reading, fun _ => here.waits (by rw [polling]; rintro ⟨⟩), here.room⟩
  | runFunctor running => exact ⟨reading, fun _ => here.waits (by rw [running]; rintro ⟨⟩), here.room⟩
  | functorsRun running => exact ⟨reading, fun _ => here.waits (by rw [running]; rintro ⟨⟩), here.room⟩

theorem bounded_new (frames : List Frame) (threads : Nat) (conn : Conn) (most : Nat) :
    Bounded frames (frames.flatMap Frame.encode) conn most (State.new registry Conn threads) where
  reading := ⟨[], rfl, by rw [State.new, ConnBuffer.contents_new]; exact Receiving.start frames⟩
  waits := fun _ => by rw [State.new, ConnBuffer.contents_new]; rfl
  room := by
    have start : (ConnBuffer.new.val.buffer).length = kCheapPrepend + kInitialSize := List.length_replicate
    have small : kCheapPrepend + kInitialSize ≤ maxFrame := by decide
    simp only [State.new]
    omega

theorem Heard.bounded {frames : List Frame} {threads most : Nat} {conn : Conn} {received : Bytes}
    {s : State registry Conn} (heard : Heard threads conn most received s) {later : Bytes}
    (stream : received ++ later = frames.flatMap Frame.encode) : Bounded frames later conn most s := by
  induction heard generalizing later with
  | start =>
    rw [List.nil_append] at stream
    subst later
    exact bounded_new frames threads conn most
  | step before step within ih =>
    rw [List.append_assoc] at stream
    exact (ih stream).step step within

/-- A peer that sends frames cannot make the server keep more than one frame and two
reads for its connection, whatever the other connections and the workers do. -/
theorem input_buffer_bounded (threads : Nat) (conn : Conn) (most : Nat) (frames : List Frame)
    {received later : Bytes} {s : State registry Conn} (heard : Heard threads conn most received s)
    (stream : received ++ later = frames.flatMap Frame.encode) :
    (s.inputBuffer conn).val.buffer.length ≤ 64 * 1024 * 1024 + 2 * most + 10 ∧
      (s.loop = .polling → (s.inputBuffer conn).contents.length < 64 * 1024 * 1024 + 4) := by
  have bounded := heard.bounded stream
  refine ⟨bounded.room, ?_⟩
  intro polling
  obtain ⟨got, -, position⟩ := bounded.reading
  have part := waiting_length position (bounded.waits (by rw [polling]; exact nofun))
  exact part.trans_eq (Nat.add_comm ..)

end

open Protobuf.Sample

/-- A server that has read a part of a frame, and polls again. -/
theorem input_buffer_bounded_part :
    let registry : RpcServiceRegistry Unit Unit := RpcServiceRegistry.empty
    ∃ s : State registry Bool, s.loop = .polling ∧ (s.inputBuffer true).contents = [0, 0, 0] ∧
      (s.inputBuffer true).val.buffer.length ≤ 64 * 1024 * 1024 + 2 * 3 + 10 ∧
      (s.inputBuffer true).contents.length < 64 * 1024 * 1024 + 4 := by
  intro registry
  let frame : Frame := ⟨7, [255], by decide, by decide⟩
  have content : (ConnBuffer.new.readFd (.ok [0, 0, 0])).contents = [0, 0, 0] := by
    rw [ConnBuffer.contents_readFd_ok, ConnBuffer.contents_new, List.nil_append]
  have waits : onMessageRound (ConnBuffer.new.readFd (.ok [0, 0, 0])) =
      (none, ConnBuffer.new.readFd (.ok [0, 0, 0])) := onMessageRound_waiting (by rw [content]; decide)
  have heard : @Heard _ _ _ _ registry _ 1 true 3 ([] ++ [0, 0, 0]) _ :=
    .step .start (.read true [0, 0, 0] (by decide) rfl) (by decide)
  have drained : @Heard _ _ _ _ registry _ 1 true 3 ([] ++ [0, 0, 0] ++ []) _ :=
    .step heard (@Step.drained _ _ _ _ _ _ _ true _ rfl (by simpa only [Function.update_self, State.new] using waits)) (by decide)
  have stream : [] ++ [0, 0, 0] ++ [] ++ frame.encode.drop 3 = [frame].flatMap Frame.encode := by decide
  obtain ⟨room, part⟩ := input_buffer_bounded 1 true 3 [frame] drained stream
  exact ⟨_, rfl, by simp only [Function.update_self, content], room, part rfl⟩

end RpcServer

/-- A frame whose payload is empty, which `onMessage` takes for the end of its input. -/
def RawFrame.isEmpty (f : RawFrame) : Bool := f.payload.isEmpty

theorem RawFrame.isEmpty_iff {f : RawFrame} : f.isEmpty = true ↔ f.payload = [] := List.isEmpty_iff

theorem RawFrame.twelve_le (frames : List RawFrame) :
    12 * frames.countP RawFrame.isEmpty ≤ (frames.flatMap RawFrame.encode).length := by
  induction frames with
  | nil => exact Nat.zero_le _
  | cons f frames ih =>
    have size := packWithId_length f.id f.payload
    have one : (if f.isEmpty then 1 else 0) ≤ 1 := by split <;> omega
    rw [List.countP_cons, List.flatMap_cons, List.length_append, RawFrame.encode, size]
    omega

theorem RawFrame.countP_flatten_le {batches : List (List RawFrame)}
    (one : ∀ batch ∈ batches, batch.countP RawFrame.isEmpty ≤ 1) :
    batches.flatten.countP RawFrame.isEmpty ≤ batches.length := by
  induction batches with
  | nil => exact Nat.le_refl 0
  | cons batch batches ih =>
    have front := one batch List.mem_cons_self
    have behind := ih fun other there => one other (List.mem_cons_of_mem batch there)
    rw [List.flatten_cons, List.countP_append, List.length_cons]
    omega

namespace RpcServer

/-- One event takes frames off the stream up to the first empty one. -/
theorem onMessage_passes {left : List RawFrame} {later : Bytes} {buf : ConnBuffer}
    (stream : buf.contents ++ later = left.flatMap RawFrame.encode) :
    ∃ done more, left = done ++ more ∧ (onMessage buf).1 = RawFrame.requests done ∧
      (onMessage buf).2.contents ++ later = more.flatMap RawFrame.encode ∧
      done.countP RawFrame.isEmpty ≤ 1 := by
  induction left generalizing buf with
  | nil =>
    have empty := (List.append_eq_nil_iff.mp stream).1
    have waits : decodeFrame buf.contents = .waiting := by rw [empty]; rfl
    rw [onMessage_waiting waits]
    exact ⟨[], [], rfl, rfl, stream, Nat.zero_le _⟩
  | cons f left ih =>
    rcases RawFrame.arrived_cases (f := f) stream with waits | ⟨rest, content, behind⟩
    · rw [onMessage_waiting waits]
      exact ⟨[], f :: left, rfl, rfl, stream, Nat.zero_le _⟩
    · have decoded := f.decode_encode rest
      rw [← content] at decoded
      obtain ⟨after, kept, result⟩ := onMessage_frame decoded
      by_cases empty : f.payload = []
      · rw [if_pos empty] at result
        rw [result]
        refine ⟨[f], left, rfl, (RawFrame.requests_empty empty).symm, ?_, ?_⟩
        · rw [kept]; exact behind
        · exact List.countP_le_length
      · rw [if_neg empty] at result
        rw [← kept] at behind
        obtain ⟨done, more, rfl, taken, position, passed⟩ := ih behind
        rw [result]
        refine ⟨f :: done, more, rfl, ?_, position, ?_⟩
        · rw [RawFrame.requests_cons empty, ← taken]
          rfl
        · rw [List.countP_cons_of_neg (fun bare => empty (RawFrame.isEmpty_iff.mp bare))]
          exact passed

/-- These frames have been taken out of the buffer by the reads: the requests extracted are theirs, and
what is behind them is in the buffer. -/
structure Passed (reads : List Bytes) (got : List RawFrame) : Prop where
  requests : (handleReads reads).1 = RawFrame.requests got
  contents : got.flatMap RawFrame.encode ++ (handleReads reads).2.contents = reads.flatten

theorem Passed.read {reads : List Bytes} {got left : List RawFrame} {data later : Bytes} (here : Passed reads got)
    (stream : (reads ++ [data]).flatten ++ later = (got ++ left).flatMap RawFrame.encode) :
    ∃ done, done.countP RawFrame.isEmpty ≤ 1 ∧ done <+: left ∧ Passed (reads ++ [data]) (got ++ done) := by
  have flat : (reads ++ [data]).flatten = reads.flatten ++ data := by
    rw [List.flatten_append, List.flatten_singleton]
  have arrived := ConnBuffer.contents_readFd_ok (handleReads reads).2 data
  have position : ((handleReads reads).2.readFd (.ok data)).contents ++ later = left.flatMap RawFrame.encode := by
    rw [flat, ← here.contents, List.flatMap_append, List.append_assoc, List.append_assoc] at stream
    rw [arrived, List.append_assoc]
    exact List.append_cancel_left stream
  have next := handleReads_snoc reads data
  rw [handleRead_ok] at next
  by_cases nothing : data = []
  · rw [if_pos nothing] at next
    refine ⟨[], Nat.zero_le _, List.nil_prefix, ?_, ?_⟩
    · rw [next, List.append_nil]
      exact here.requests
    · rw [next, flat, List.append_nil, arrived, ← List.append_assoc, here.contents]
  · rw [if_neg nothing] at next
    obtain ⟨done, more, rfl, extracted, behind, few⟩ := onMessage_passes position
    refine ⟨done, few, List.prefix_append .., ?_, ?_⟩
    · rw [next, RawFrame.requests_append, ← here.requests, ← extracted]
    · rw [List.flatMap_append, ← behind, ← List.append_assoc] at position
      rw [next, flat, ← here.contents, List.flatMap_append, List.append_assoc, List.append_assoc,
        ← List.append_cancel_right position, arrived]

/-- Each read passes a batch of frames with one empty frame at most. -/
theorem handleReads_passes {frames : List RawFrame} (reads : List Bytes) {later : Bytes}
    (stream : reads.flatten ++ later = frames.flatMap RawFrame.encode) :
    ∃ passed : List (List RawFrame), passed.length = reads.length ∧ passed.flatten <+: frames ∧
      (∀ done ∈ passed, done.countP RawFrame.isEmpty ≤ 1) ∧
      ∀ n, Passed (reads.take n) (passed.take n).flatten := by
  induction reads using List.reverseRecOn generalizing later with
  | nil => exact ⟨[], rfl, List.nil_prefix, nofun, fun n => by rw [List.take_nil, List.take_nil]; exact ⟨rfl, rfl⟩⟩
  | append_singleton reads data ih =>
    have before : reads.flatten ++ (data ++ later) = frames.flatMap RawFrame.encode := by
      rw [← stream, List.flatten_append, List.flatten_singleton, List.append_assoc]
    obtain ⟨passed, length, ⟨left, rfl⟩, one, batches⟩ := ih before
    have here := batches reads.length
    rw [List.take_length, ← length, List.take_length] at here
    obtain ⟨done, few, front, now⟩ := here.read stream
    refine ⟨passed ++ [done], by rw [List.length_append, List.length_append, length]; rfl, ?_, ?_, fun n => ?_⟩
    · rw [List.flatten_append, List.flatten_singleton]
      exact (List.prefix_append_right_inj _).mpr front
    · exact List.forall_mem_append.mpr ⟨one, List.forall_mem_singleton.mpr few⟩
    · rcases Nat.lt_or_ge reads.length n with past | within
      · rw [List.take_of_length_le (by rw [List.length_append]; exact past),
          List.take_of_length_le (by rw [List.length_append, length]; exact past), List.flatten_append,
          List.flatten_singleton]
        exact now
      · rw [List.take_append_of_le_length within, List.take_append_of_le_length (length ▸ within)]
        exact batches n

/-- Empty frames pile up: each read takes at most one of them out of the buffer, with the frames in
front of it, and extracts the requests among these. Of the empty frames that have arrived all but one
for each read are still in the buffer; no limit on a frame or a read bounds them. -/
theorem empty_frames_pile_up (frames : List RawFrame) (reads : List Bytes) {later : Bytes}
    (stream : reads.flatten ++ later = frames.flatMap RawFrame.encode) :
    (∃ passed : List (List RawFrame), passed.length = reads.length ∧ passed.flatten <+: frames ∧
      (∀ done ∈ passed, done.countP RawFrame.isEmpty ≤ 1) ∧
      ∀ n, Passed (reads.take n) (passed.take n).flatten) ∧
    ∀ arrived, arrived <+: frames → arrived.flatMap RawFrame.encode <+: reads.flatten →
      12 * (arrived.countP RawFrame.isEmpty - reads.length) ≤ (handleReads reads).2.contents.length := by
  obtain ⟨passed, length, front, one, batches⟩ := handleReads_passes reads stream
  refine ⟨⟨passed, length, front, one, batches⟩, fun arrived prefix_ whole => ?_⟩
  have here := batches reads.length
  rw [List.take_length, ← length, List.take_length] at here
  have few := RawFrame.countP_flatten_le one
  rcases List.prefix_or_prefix_of_prefix front prefix_ with further | earlier
  · obtain ⟨more, rfl⟩ := further
    obtain ⟨rest, split⟩ := whole
    rw [← here.contents, List.flatMap_append, List.append_assoc] at split
    have size := congrArg List.length (List.append_cancel_left split)
    have least := RawFrame.twelve_le more
    rw [List.length_append] at size
    rw [List.countP_append]
    omega
  · have fewer := earlier.sublist.countP_le (p := RawFrame.isEmpty)
    omega

/-- Four empty frames, two in each read, and a part of another one: two of them are left. -/
theorem empty_frames_pile_up_two :
    let f : RawFrame := ⟨1, [], by decide⟩
    12 * 2 ≤ (handleReads [f.encode ++ f.encode, f.encode ++ f.encode ++ [0, 0]]).2.contents.length := by
  intro f
  exact (empty_frames_pile_up [f, f, f, f, f] [f.encode ++ f.encode, f.encode ++ f.encode ++ [0, 0]]
    (show _ ++ f.encode.drop 2 = _ by decide)).2 [f, f, f, f] ⟨[f], rfl⟩ (by decide)

end RpcServer
end ReactorRpc
