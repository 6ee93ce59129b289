import ReactorRpc.Dispatch
import ReactorRpc.Frame

namespace ReactorRpc
open Streams

def EAGAIN : Buffer.Errno := 11

/-- What `TcpConnection::handleRead` does once `readFd` has returned. -/
inductive ReadEvent
  | message
  | close
  | ignored
  deriving DecidableEq

/-- On Linux `EWOULDBLOCK` is `EAGAIN`. -/
def readEvent : Except Buffer.Errno Bytes → ReadEvent
  | .ok data => if data.length > 0 then .message else .close
  | .error errno => if errno ≠ EAGAIN then .close else .ignored

/-- `TcpConnection::handleRead`, as far as it concerns the input buffer and
what the message callback keeps. -/
def TcpConnection.handleRead {S : Type} (messageCallback : S → ConnBuffer → S × ConnBuffer)
    (state : S × ConnBuffer) (result : Except Buffer.Errno Bytes) : S × ConnBuffer :=
  let inputBuffer := state.2.readFd result
  match readEvent result with
  | .message => messageCallback state.1 inputBuffer
  | .close => (state.1, inputBuffer)
  | .ignored => (state.1, inputBuffer)

/-- A request frame taken out of the input buffer by `RpcServer::onMessage`. -/
structure Extracted where
  reqId : UInt64
  msgData : Bytes
  deriving DecidableEq

namespace RpcServer

/-- One round of the loop in `onMessage`: the frame it takes, if the loop goes
on, and the buffer it leaves. -/
def onMessageRound (buf : ConnBuffer) : Option Extracted × ConnBuffer :=
  let (msgData, reqId, rest) := buf.tryUnpackWithId 0
  if msgData = [] then (none, rest) else (some ⟨reqId, msgData⟩, rest)

/-- The loop of `onMessage`, cut off after a number of rounds. -/
def onMessageFuel : Nat → ConnBuffer → Option (List Extracted × ConnBuffer)
  | 0, _ => none
  | fuel + 1, buf =>
    match onMessageRound buf with
    | (none, rest) => some ([], rest)
    | (some frame, rest) =>
      (onMessageFuel fuel rest).map fun (more, after) => (frame :: more, after)

/-- The frames that `onMessage` extracts, and the buffer it leaves. -/
def onMessage (buf : ConnBuffer) : List Extracted × ConnBuffer :=
  (onMessageFuel (buf.readableBytes + 1) buf).getD ([], buf)

/-- The message callback of a server connection: `onMessage`, with a log of
the frames it has extracted so far. -/
def messageCallback (log : List Extracted) (buf : ConnBuffer) : List Extracted × ConnBuffer :=
  let (more, after) := onMessage buf
  (log ++ more, after)

/-- One readable event of a server connection. -/
def handleRead (state : List Extracted × ConnBuffer) (result : Except Buffer.Errno Bytes) :
    List Extracted × ConnBuffer :=
  TcpConnection.handleRead messageCallback state result

/-- The frames extracted over a run of successful reads on a new connection. -/
def handleReads (reads : List Bytes) : List Extracted × ConnBuffer :=
  reads.foldl (fun state data => handleRead state (.ok data)) ([], ConnBuffer.new)

end RpcServer

theorem TcpConnection.handleRead_ok {S : Type} (messageCallback : S → ConnBuffer → S × ConnBuffer)
    (state : S × ConnBuffer) (data : Bytes) :
    TcpConnection.handleRead messageCallback state (.ok data) =
      if data = [] then (state.1, state.2.readFd (.ok data))
      else messageCallback state.1 (state.2.readFd (.ok data)) := by
  unfold TcpConnection.handleRead readEvent
  by_cases empty : data = []
  · simp [empty]
  · simp [empty, List.length_pos_iff]

def Frame.extracted (f : Frame) : Extracted := ⟨f.id, f.payload⟩

namespace RpcServer

theorem onMessageRound_waiting {buf : ConnBuffer} (waits : decodeFrame buf.contents = .waiting) :
    onMessageRound buf = (none, buf) := by
  simp only [onMessageRound, ConnBuffer.tryUnpack_waiting waits, if_true]

theorem onMessageRound_frame {buf : ConnBuffer} {f : Frame} {rest : Bytes}
    (decoded : nextFrame buf.contents = some (f, rest)) :
    ∃ after, onMessageRound buf = (some f.extracted, after) ∧ after.contents = rest := by
  obtain ⟨after, unpacked, left⟩ := ConnBuffer.tryUnpack_frame decoded 0
  refine ⟨after, ?_, left⟩
  simp only [onMessageRound, unpacked, f.nonempty, if_false, Frame.extracted]

/-- On a stream of frames a round waits, or it takes the first frame off. -/
theorem onMessageRound_cases {buf : ConnBuffer} {left : List Frame} {later : Bytes}
    (stream : buf.contents ++ later = left.flatMap Frame.encode) :
    onMessageRound buf = (none, buf) ∨ ∃ f after more, left = f :: more ∧
      onMessageRound buf = (some f.extracted, after) ∧
      after.contents ++ later = more.flatMap Frame.encode := by
  rcases frame_prefixCode.next_cases stream with waits | ⟨f, rest, more, first, decoded, remains⟩
  · have here : Receiving Frame.encode left later ([], buf.contents) := ⟨left, rfl, stream⟩
    exact .inl (onMessageRound_waiting (Receiving.waiting frame_prefixCode here waits))
  · obtain ⟨after, round, content⟩ := onMessageRound_frame decoded
    exact .inr ⟨f, after, more, first, round, content ▸ remains⟩

/-- A round that goes on has taken a whole frame off the buffer. -/
theorem onMessageRound_shrinks {buf after : ConnBuffer} {frame : Extracted}
    (round : onMessageRound buf = (some frame, after)) :
    after.readableBytes + 13 ≤ buf.readableBytes := by
  have spec := tryUnpackWithId_spec buf.property 0
  unfold onMessageRound ConnBuffer.tryUnpackWithId at round
  dsimp only at round
  split at round
  · cases round
  · rename_i taken
    cases round
    rw [spec] at taken
    simp only [ConnBuffer.readableBytes_eq, ConnBuffer.contents, spec]
    cases decoded : decodeFrame buf.val.contents with
    | waiting => simp [decoded] at taken
    | rejected => simp [decoded] at taken
    | frame id payload rest =>
      have whole := (decodeFrame_rest decoded).2
      have some : 0 < payload.length := List.length_pos_iff.mpr (by simpa [decoded] using taken)
      simp only [afterFrame_contents buf.property, List.length_drop]
      omega

/-- The loop ends: with a round for each 13 readable bytes and one more it
never runs out. -/
theorem onMessageFuel_total {fuel : Nat} {buf : ConnBuffer} (enough : buf.readableBytes < 13 * fuel) :
    ∃ out, onMessageFuel fuel buf = some out := by
  induction fuel generalizing buf with
  | zero => omega
  | succ fuel ih =>
    unfold onMessageFuel
    cases round : onMessageRound buf with
    | mk frame after =>
      cases frame with
      | none => exact ⟨_, rfl⟩
      | some frame =>
        have shrinks := onMessageRound_shrinks round
        obtain ⟨out, rest⟩ := @ih after (by omega)
        exact ⟨(frame :: out.1, out.2), by simp only [rest, Option.map_some]⟩

theorem onMessage_eq (buf : ConnBuffer) :
    onMessageFuel (buf.readableBytes + 1) buf = some (onMessage buf) := by
  obtain ⟨out, run⟩ := onMessageFuel_total (show buf.readableBytes < 13 * (buf.readableBytes + 1) by omega)
  simp only [onMessage, run, Option.getD_some]

/-- The loop takes frames off the stream until only a part of one is left. -/
theorem onMessageFuel_drains {frames got : List Frame} {later : Bytes} {fuel : Nat}
    {buf after : ConnBuffer} {more : List Extracted}
    (here : Receiving Frame.encode frames later (got, buf.contents))
    (run : onMessageFuel fuel buf = some (more, after)) :
    ∃ taken : List Frame, more = taken.map Frame.extracted ∧
      Receiving Frame.encode frames later (got ++ taken, after.contents) ∧
      nextFrame after.contents = none := by
  induction fuel generalizing got buf more with
  | zero => cases run
  | succ fuel ih =>
    unfold onMessageFuel at run
    cases decoded : nextFrame buf.contents with
    | none =>
      rw [onMessageRound_waiting (Receiving.waiting frame_prefixCode here decoded)] at run
      cases run
      exact ⟨[], rfl, by simpa only [List.append_nil] using here, decoded⟩
    | some pair =>
      obtain ⟨next, round, left⟩ := onMessageRound_frame decoded
      have position := here.decode frame_prefixCode decoded
      rw [← left] at position
      rw [round] at run
      obtain ⟨⟨tail, final⟩, rest, same⟩ := Option.map_eq_some_iff.mp run
      cases same
      obtain ⟨taken, listed, drained, done⟩ := ih position rest
      exact ⟨pair.1 :: taken, by simp only [listed, List.map_cons],
        by simpa only [List.append_assoc, List.singleton_append] using drained, done⟩

theorem onMessage_drains {frames got : List Frame} {later : Bytes} {buf : ConnBuffer}
    (here : Receiving Frame.encode frames later (got, buf.contents)) :
    ∃ taken : List Frame, (onMessage buf).1 = taken.map Frame.extracted ∧
      Receiving Frame.encode frames later (got ++ taken, (onMessage buf).2.contents) ∧
      nextFrame (onMessage buf).2.contents = none := by
  have run := onMessage_eq buf
  generalize onMessage buf = out at run ⊢
  exact onMessageFuel_drains here run

theorem handleRead_ok (state : List Extracted × ConnBuffer) (data : Bytes) :
    handleRead state (.ok data) =
      if data = [] then (state.1, state.2.readFd (.ok data))
      else (state.1 ++ (onMessage (state.2.readFd (.ok data))).1,
        (onMessage (state.2.readFd (.ok data))).2) := by
  rw [handleRead, TcpConnection.handleRead_ok]
  rfl

/-- The position of a server connection in the stream it reads: the frames it
has extracted, and that it waits for the rest of a frame. -/
def Drained (frames : List Frame) (later : Bytes) (state : List Extracted × ConnBuffer) : Prop :=
  ∃ got : List Frame, state.1 = got.map Frame.extracted ∧
    Receiving Frame.encode frames later (got, state.2.contents) ∧ nextFrame state.2.contents = none

theorem Drained.start (frames : List Frame) :
    Drained frames (frames.flatMap Frame.encode) ([], ConnBuffer.new) := by
  refine ⟨[], rfl, ?_, ?_⟩
  · rw [ConnBuffer.contents_new]
    exact Receiving.start frames
  · rw [ConnBuffer.contents_new]
    rfl

/-- One read takes the connection to its position further on in the stream. -/
theorem Drained.read {frames : List Frame} {data later : Bytes} {state : List Extracted × ConnBuffer}
    (here : Drained frames (data ++ later) state) :
    Drained frames later (handleRead state (.ok data)) := by
  obtain ⟨got, listed, position, waits⟩ := here
  have arrived : Receiving Frame.encode frames later (got, (state.2.readFd (.ok data)).contents) := by
    rw [ConnBuffer.contents_readFd_ok]
    exact position.arrive
  rw [handleRead_ok]
  split
  · rename_i empty
    refine ⟨got, listed, arrived, ?_⟩
    rw [ConnBuffer.contents_readFd_ok, empty, List.append_nil]
    exact waits
  · obtain ⟨taken, more, drained, done⟩ := onMessage_drains arrived
    exact ⟨got ++ taken, by rw [listed, more, List.map_append], drained, done⟩

theorem Drained.reads {frames : List Frame} {later : Bytes} (reads : List Bytes)
    {state : List Extracted × ConnBuffer} (here : Drained frames (reads.flatten ++ later) state) :
    Drained frames later (reads.foldl (fun state data => handleRead state (.ok data)) state) := by
  induction reads generalizing state with
  | nil => exact here
  | cons data reads ih =>
    rw [List.flatten_cons, List.append_assoc] at here
    exact ih here.read

/-- However a stream of frames is cut into reads, after any number of them the
server has extracted exactly the frames that have arrived whole, in order, and
its buffer holds exactly the bytes behind them; once all bytes have been read,
it has extracted every frame and its buffer is empty. -/
theorem server_stream_law (frames : List Frame) (reads : List Bytes) (later : Bytes)
    (stream : reads.flatten ++ later = frames.flatMap Frame.encode) :
    let state := handleReads reads
    state.1 = (wholeWithin Frame.encode frames reads.flatten.length).map Frame.extracted ∧
      reads.flatten = (wholeWithin Frame.encode frames reads.flatten.length).flatMap Frame.encode ++
        state.2.contents ∧
      (later = [] → state.1 = frames.map Frame.extracted ∧ state.2.contents = []) := by
  intro state
  have start := Drained.start frames
  rw [← stream] at start
  obtain ⟨got, listed, position, waits⟩ : Drained frames later state := start.reads reads
  have current := (position.caught_up_iff frame_prefixCode stream).mpr waits
  have held := position.held stream
  simp only at current held
  refine ⟨by rw [listed, current], by rw [← current]; exact held, ?_⟩
  intro finished
  obtain ⟨left, all, rest⟩ := position
  rw [finished, List.append_nil] at rest
  cases left with
  | nil =>
    rw [List.append_nil] at all
    exact ⟨by rw [listed, all], rest⟩
  | cons f left =>
    simp only [List.flatMap_cons] at rest
    rw [rest, nextFrame_encode] at waits
    cases waits

/-- Two frames, the first cut inside its id, the second read with its end. -/
theorem server_stream_law_two :
    let p : Frame := ⟨7, [1], by decide, by decide⟩
    let q : Frame := ⟨8, [2, 3], by decide, by decide⟩
    let state := handleReads [p.encode.take 5, p.encode.drop 5 ++ q.encode]
    state.1 = [⟨7, [1]⟩, ⟨8, [2, 3]⟩] ∧ state.2.contents = [] := by
  intro p q state
  have stream : [p.encode.take 5, p.encode.drop 5 ++ q.encode].flatten ++ [] =
      [p, q].flatMap Frame.encode := by
    simp only [List.flatten_cons, List.flatten_nil, List.append_nil, List.flatMap_cons,
      List.flatMap_nil, ← List.append_assoc, List.take_append_drop]
  exact (server_stream_law [p, q] _ [] stream).2.2 rfl

end RpcServer
end ReactorRpc
