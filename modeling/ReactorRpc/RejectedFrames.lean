import ReactorRpc.FrameLimits
import ReactorRpc.ServerStream

namespace ReactorRpc
open Streams

/-- How many bytes of a stream that does not start with a frame the decoder has
to see before it rejects it: the length prefix, and the bytes it announces when
there are too few of them for an id. -/
def rejectedAt (rest : Bytes) : Nat :=
  if 0 ≤ frameLength rest ∧ frameLength rest < 8 then 4 + (frameLength rest).toNat else 4

theorem frameLength_append {content : Bytes} (enough : 4 ≤ content.length) (later : Bytes) :
    frameLength (content ++ later) = frameLength content := by
  rw [frameLength, frameLength, List.take_append_of_le_length enough]

theorem frameLength_toNat {content : Bytes} (enough : 4 ≤ content.length)
    (positive : 0 ≤ frameLength content) :
    (frameLength content).toNat = beNat (content.take 4) := by
  have bound := beNat_lt (content.take 4)
  rw [List.length_take, Nat.min_eq_left enough] at bound
  have value : (UInt32.ofNat (beNat (content.take 4))).toNat = beNat (content.take 4) :=
    UInt32.toNat_ofNat_of_lt' (by simpa using bound)
  rw [frameLength, asInt32, value] at positive ⊢
  split at positive
  · rename_i small
    rw [if_pos small, Int.toNat_natCast]
  · omega

theorem decodeFrame_rejected_iff {content : Bytes} :
    decodeFrame content = .rejected ↔
      (frameLength content < 8 ∨ frameLength content > maxFrame) ∧
        rejectedAt content ≤ content.length := by
  have limit : maxFrame = 67108864 := rfl
  unfold decodeFrame rejectedAt
  dsimp only
  constructor
  · intro rejects
    split at rejects
    · cases rejects
    split at rejects
    · exact ⟨by omega, by rw [if_neg (by omega)]; omega⟩
    split at rejects
    · cases rejects
    split at rejects
    · exact ⟨by omega, by rw [if_pos (by omega)]; omega⟩
    · cases rejects
  · rintro ⟨outside, enough⟩
    split at enough
    · rw [if_neg (by omega), if_neg (by omega), if_neg (by omega), if_pos (by omega)]
    · rw [if_neg (by omega), if_pos (by omega)]

/-- A part of a rejected stream waits until it is long enough, and is rejected
from then on. -/
theorem decodeFrame_rejected_part {content later : Bytes}
    (rejects : decodeFrame (content ++ later) = .rejected) :
    content.length < rejectedAt (content ++ later) ∧ decodeFrame content = .waiting ∨
      rejectedAt (content ++ later) ≤ content.length ∧ decodeFrame content = .rejected := by
  have outside := (decodeFrame_rejected_iff.mp rejects).1
  by_cases enough : 4 ≤ content.length
  · have same := frameLength_append enough later
    have limit : rejectedAt (content ++ later) = rejectedAt content := by
      rw [rejectedAt, rejectedAt, same]
    rw [same] at outside
    rw [limit]
    by_cases short : content.length < rejectedAt content
    · left
      refine ⟨short, ?_⟩
      unfold rejectedAt at short
      unfold decodeFrame
      dsimp only
      have size : maxFrame = 67108864 := rfl
      split at short
      · rw [if_neg (by omega), if_neg (by omega), if_pos (by omega)]
      · omega
    · exact .inr ⟨by omega, decodeFrame_rejected_iff.mpr ⟨outside, by omega⟩⟩
  · left
    constructor
    · unfold rejectedAt
      split <;> omega
    · unfold decodeFrame
      dsimp only
      rw [if_pos (by omega)]

/-- The part of a rejected stream that reaches the rejection is rejected too. -/
theorem decodeFrame_rejected_take {rest : Bytes} {q : Nat} (rejects : decodeFrame rest = .rejected)
    (past : rejectedAt rest ≤ q) : decodeFrame (rest.take q) = .rejected := by
  have enough := (decodeFrame_rejected_iff.mp rejects).2
  rw [← List.take_append_drop q rest] at rejects
  rcases decodeFrame_rejected_part rejects with ⟨short, _⟩ | ⟨_, refused⟩
  · rw [List.take_append_drop, List.length_take] at short
    omega
  · exact refused

/-- Bytes that arrive behind a whole frame do not change it. -/
theorem decodeFrame_frame_append {content payload rest : Bytes} {id : UInt64}
    (decoded : decodeFrame content = .frame id payload rest) (later : Bytes) :
    decodeFrame (content ++ later) = .frame id payload (rest ++ later) := by
  obtain ⟨tail, whole⟩ := decodeFrame_rest decoded
  unfold decodeFrame at decoded ⊢
  dsimp only at decoded ⊢
  rw [frameLength_append (by omega), List.length_append]
  split at decoded
  · cases decoded
  split at decoded
  · cases decoded
  split at decoded
  · cases decoded
  split at decoded
  · cases decoded
  · rename_i enough inside part small
    rw [if_neg (by omega), if_neg inside, if_neg (by omega), if_neg small]
    cases decoded
    rw [List.drop_append_of_le_length (by omega), List.drop_append_of_le_length (by omega),
      List.drop_append_of_le_length (by omega), List.take_append_of_le_length (by rw [List.length_drop]; omega),
      List.take_append_of_le_length (by rw [List.length_drop]; omega)]

/-- A frame as the decoder takes it off a stream; the payload may be empty. -/
structure RawFrame where
  id : UInt64
  payload : Bytes
  fits : payload.length ≤ maxPayload

namespace RawFrame

def encode (f : RawFrame) : Bytes := RpcCodec.packWithId f.id f.payload

def extracted (f : RawFrame) : Extracted := ⟨f.id, f.payload⟩

/-- `onMessage` takes a frame for a request unless its payload is empty. -/
def isRequest (f : RawFrame) : Bool := !f.payload.isEmpty

theorem isRequest_iff {f : RawFrame} : f.isRequest = true ↔ f.payload ≠ [] := by
  simp [isRequest]

/-- The requests among frames, as `onMessage` hands them on. -/
def requests (frames : List RawFrame) : List Extracted := (frames.filter isRequest).map extracted

@[simp] theorem requests_nil : requests [] = [] := rfl

theorem requests_append (xs ys : List RawFrame) :
    requests (xs ++ ys) = requests xs ++ requests ys := by
  rw [requests, List.filter_append, List.map_append]
  rfl

theorem requests_empty {f : RawFrame} (empty : f.payload = []) : requests [f] = [] := by
  simp [requests, isRequest, empty]

theorem requests_cons {f : RawFrame} (some : f.payload ≠ []) (frames : List RawFrame) :
    requests (f :: frames) = f.extracted :: requests frames := by
  rw [requests, List.filter_cons_of_pos (isRequest_iff.mpr some), List.map_cons]
  rfl

theorem requests_of_empty {frames : List RawFrame} (empty : ∀ f ∈ frames, f.payload = []) :
    requests frames = [] := by
  rw [requests, List.filter_eq_nil_iff.mpr, List.map_nil]
  intro f member
  simp [isRequest, empty f member]

theorem encode_ne_nil (f : RawFrame) : f.encode ≠ [] := by
  have size := packWithId_length f.id f.payload
  intro empty
  rw [encode] at empty
  rw [empty, List.length_nil] at size
  omega

/-- A frame is taken off exactly the bytes the encoder writes for it. -/
theorem of_decoded {content payload rest : Bytes} {id : UInt64}
    (decoded : decodeFrame content = .frame id payload rest) :
    ∃ f : RawFrame, f.id = id ∧ f.payload = payload ∧ content = f.encode ++ rest := by
  have fits := decodeFrame_payload_le decoded
  obtain ⟨tail, whole⟩ := decodeFrame_rest decoded
  refine ⟨⟨id, payload, fits⟩, rfl, rfl, ?_⟩
  unfold decodeFrame at decoded
  dsimp only at decoded
  split at decoded
  · cases decoded
  split at decoded
  · cases decoded
  split at decoded
  · cases decoded
  split at decoded
  · cases decoded
  · rename_i enough inside part small
    cases decoded
    have front : (content.take 4).length = 4 := by rw [List.length_take]; omega
    have ids : ((content.drop 4).take 8).length = 8 := by
      rw [List.length_take, List.length_drop]
      omega
    have size : 8 + ((content.drop 12).take ((frameLength content).toNat - 8)).length =
        beNat (content.take 4) := by
      have bound := beNat_lt (content.take 4)
      rw [front] at bound
      rw [List.length_take, List.length_drop]
      have number := @frameLength_toNat content (by omega) (by omega)
      omega
    have idBound := beNat_lt ((content.drop 4).take 8)
    have numbers := beBytes_beNat (content.take 4)
    have idBytes := beBytes_beNat ((content.drop 4).take 8)
    rw [front] at numbers
    rw [ids] at idBytes idBound
    rw [encode, packWithId_eq, size, numbers, UInt64.toNat_ofNat_of_lt' (by simpa using idBound), idBytes]
    have tail : 4 + (frameLength content).toNat = 12 + ((frameLength content).toNat - 8) := by omega
    have body : content.drop 12 = (content.drop 4).drop 8 := by rw [List.drop_drop]
    rw [tail, ← List.drop_drop, List.append_assoc, List.take_append_drop, List.append_assoc, body,
      List.take_append_drop, List.take_append_drop]

theorem decode_encode (f : RawFrame) (rest : Bytes) :
    decodeFrame (f.encode ++ rest) = .frame f.id f.payload rest :=
  decodeFrame_pack f.fits f.id rest

/-- What arrived of a stream that starts with a frame is a part of the frame, for
which the decoder waits, or the frame and what follows it. -/
theorem arrived_cases {f : RawFrame} {content later stream : Bytes}
    (split : content ++ later = f.encode ++ stream) :
    decodeFrame content = .waiting ∨ ∃ rest, content = f.encode ++ rest ∧ rest ++ later = stream := by
  rcases List.append_eq_append_iff.mp split with ⟨missing, whole, _⟩ | ⟨rest, whole, behind⟩
  · by_cases complete : missing = []
    · rw [complete, List.append_nil] at whole
      rw [whole] at split
      exact .inr ⟨[], by rw [List.append_nil, whole], List.append_cancel_left split⟩
    · have short : content.length < f.encode.length := by
        rw [whole, List.length_append]
        have some := List.length_pos_iff.mpr complete
        omega
      have front : content <+: f.encode := whole ▸ List.prefix_append content missing
      exact .inl (decodeFrame_part f.fits front short)
  · exact .inr ⟨rest, whole, behind.symm⟩

/-- Every byte stream consists of frames and a rest that does not start with one. -/
theorem stream_parses (stream : Bytes) :
    ∃ (frames : List RawFrame) (rest : Bytes), stream = frames.flatMap encode ++ rest ∧
      (decodeFrame rest = .waiting ∨ decodeFrame rest = .rejected) := by
  induction size : stream.length using Nat.strongRecOn generalizing stream with
  | ind n ih =>
    cases decoded : decodeFrame stream with
    | waiting => exact ⟨[], stream, rfl, .inl decoded⟩
    | rejected => exact ⟨[], stream, rfl, .inr decoded⟩
    | frame id payload behind =>
      obtain ⟨f, _, _, starts⟩ := of_decoded decoded
      have shorter : behind.length < n := by
        have some := List.length_pos_iff.mpr f.encode_ne_nil
        rw [← size, starts, List.length_append]
        omega
      obtain ⟨frames, rest, parsed, ends⟩ := ih _ shorter behind rfl
      exact ⟨f :: frames, rest, by rw [starts, parsed, List.flatMap_cons, List.append_assoc], ends⟩

end RawFrame

namespace RpcServer

theorem onMessageRound_rejected {buf : ConnBuffer} (rejects : decodeFrame buf.contents = .rejected) :
    ∃ after : ConnBuffer, onMessageRound buf = (none, after) ∧ after.contents = [] := by
  have spec := tryUnpackWithId_spec buf.property 0
  rw [show decodeFrame buf.val.contents = .rejected from rejects] at spec
  refine ⟨⟨buf.val.retrieveAll, Buffer.valid_retrieveAll buf.property⟩, ?_,
    Buffer.contents_retrieveAll buf.val⟩
  simp only [onMessageRound, ConnBuffer.tryUnpackWithId, spec, if_true]

theorem onMessageRound_decoded {buf : ConnBuffer} {id : UInt64} {payload rest : Bytes}
    (decoded : decodeFrame buf.contents = .frame id payload rest) :
    ∃ after : ConnBuffer, after.contents = rest ∧
      onMessageRound buf = (if payload = [] then none else some ⟨id, payload⟩, after) := by
  have spec := tryUnpackWithId_spec buf.property 0
  have left := (decodeFrame_rest decoded).1
  rw [show decodeFrame buf.val.contents = _ from decoded] at spec
  refine ⟨⟨afterFrame buf.val payload.length, afterFrame_valid buf.property _⟩, ?_, ?_⟩
  · rw [ConnBuffer.contents, afterFrame_contents buf.property, left]
    rfl
  · simp only [onMessageRound, ConnBuffer.tryUnpackWithId, spec]
    split <;> rfl

theorem onMessageFuel_more {fuel : Nat} {buf : ConnBuffer} {out : List Extracted × ConnBuffer}
    (run : onMessageFuel fuel buf = some out) (extra : Nat) :
    onMessageFuel (fuel + extra) buf = some out := by
  induction fuel generalizing buf out with
  | zero => cases run
  | succ fuel ih =>
    rw [Nat.add_right_comm]
    unfold onMessageFuel at run ⊢
    cases round : onMessageRound buf with
    | mk frame after =>
      cases frame with
      | none => rwa [round] at run
      | some frame =>
        rw [round] at run
        obtain ⟨tail, rest, same⟩ := Option.map_eq_some_iff.mp run
        simp only [ih rest, Option.map_some, same]

/-- How often the loop may go round does not matter once it ends. -/
theorem onMessageFuel_stable {fuel : Nat} {buf : ConnBuffer}
    (enough : buf.readableBytes < 13 * fuel) : onMessageFuel fuel buf = some (onMessage buf) := by
  obtain ⟨out, run⟩ := onMessageFuel_total enough
  have both := onMessageFuel_more run (buf.readableBytes + 1)
  rw [Nat.add_comm, onMessageFuel_more (onMessage_eq buf) fuel] at both
  rw [run, both]

theorem onMessage_waiting {buf : ConnBuffer} (waits : decodeFrame buf.contents = .waiting) :
    onMessage buf = ([], buf) := by
  have run := onMessage_eq buf
  unfold onMessageFuel at run
  rw [onMessageRound_waiting waits] at run
  exact (Option.some.inj run).symm

/-- A rejection stops the loop and throws away all that is buffered. -/
theorem onMessage_rejected {buf : ConnBuffer} (rejects : decodeFrame buf.contents = .rejected) :
    (onMessage buf).1 = [] ∧ (onMessage buf).2.contents = [] := by
  have run := onMessage_eq buf
  obtain ⟨after, round, empty⟩ := onMessageRound_rejected rejects
  unfold onMessageFuel at run
  rw [round] at run
  rw [← Option.some.inj run]
  exact ⟨rfl, empty⟩

/-- A frame is taken off; the loop goes on unless its payload is empty. -/
theorem onMessage_frame {buf : ConnBuffer} {id : UInt64} {payload rest : Bytes}
    (decoded : decodeFrame buf.contents = .frame id payload rest) :
    ∃ after : ConnBuffer, after.contents = rest ∧ onMessage buf =
      if payload = [] then ([], after)
      else (⟨id, payload⟩ :: (onMessage after).1, (onMessage after).2) := by
  have run := onMessage_eq buf
  obtain ⟨after, left, round⟩ := onMessageRound_decoded decoded
  refine ⟨after, left, ?_⟩
  unfold onMessageFuel at run
  by_cases empty : payload = []
  · rw [if_pos empty] at round ⊢
    rw [round] at run
    exact (Option.some.inj run).symm
  · rw [if_neg empty] at round ⊢
    have shrinks := onMessageRound_shrinks round
    rw [round] at run
    obtain ⟨out, more, same⟩ := Option.map_eq_some_iff.mp run
    rw [onMessageFuel_stable (by omega)] at more
    cases more
    exact same.symm

/-- On frames with a rejected rest behind them the loop takes frames up to the
next empty payload, or all of them and then what is buffered of the rest. -/
theorem onMessage_frames {left : List RawFrame} {rest later : Bytes} {buf : ConnBuffer}
    (rejects : decodeFrame rest = .rejected)
    (stream : buf.contents ++ later = left.flatMap RawFrame.encode ++ rest) :
    (∃ done more, done ++ more = left ∧ (onMessage buf).1 = RawFrame.requests done ∧
      (onMessage buf).2.contents ++ later = more.flatMap RawFrame.encode ++ rest ∧
      (decodeFrame (onMessage buf).2.contents = .waiting ∨ ∃ f ∈ done, f.payload = [])) ∨
    (onMessage buf).1 = RawFrame.requests left ∧ ∃ q, rejectedAt rest ≤ q ∧
      (onMessage buf).2.contents ++ later = rest.drop q := by
  induction left generalizing buf with
  | nil =>
    simp only [List.flatMap_nil, List.nil_append] at stream
    rw [← stream] at rejects ⊢
    rcases decodeFrame_rejected_part rejects with ⟨_, waits⟩ | ⟨past, refused⟩
    · left
      rw [onMessage_waiting waits]
      exact ⟨[], [], rfl, rfl, rfl, .inl waits⟩
    · right
      obtain ⟨nothing, emptied⟩ := onMessage_rejected refused
      refine ⟨nothing, buf.contents.length, past, ?_⟩
      rw [emptied, List.drop_left, List.nil_append]
  | cons f left ih =>
    rw [List.flatMap_cons, List.append_assoc] at stream
    rcases RawFrame.arrived_cases stream with waits | ⟨tail, starts, remains⟩
    · left
      rw [onMessage_waiting waits]
      refine ⟨[], f :: left, rfl, rfl, ?_, .inl waits⟩
      rw [List.flatMap_cons, List.append_assoc]
      exact stream
    · have decoded := f.decode_encode tail
      rw [← starts] at decoded
      obtain ⟨after, content, result⟩ := onMessage_frame decoded
      rw [← content] at remains
      by_cases empty : f.payload = []
      · rw [if_pos empty] at result
        left
        refine ⟨[f], left, rfl, ?_, by rw [result]; exact remains, .inr ⟨f, List.mem_singleton_self f, empty⟩⟩
        rw [result, RawFrame.requests_empty empty]
      · rw [if_neg empty] at result
        rw [result]
        rcases ih remains with ⟨done, more, listed, taken, position, stopped⟩ | ⟨taken, resumed⟩
        · left
          refine ⟨f :: done, more, by rw [List.cons_append, listed], ?_, position, ?_⟩
          · rw [RawFrame.requests_cons empty, ← taken]
            rfl
          · exact stopped.imp_right fun ⟨g, member, bare⟩ => ⟨g, List.mem_cons_of_mem f member, bare⟩
        · right
          refine ⟨?_, resumed⟩
          rw [RawFrame.requests_cons empty, ← taken]
          rfl

/-- From no place behind the rejected prefix do the bytes read as a request. -/
def Silent (rest : Bytes) : Prop :=
  ∀ q, rejectedAt rest ≤ q → ∀ id payload tail,
    decodeFrame (rest.drop q) = .frame id payload tail → payload = []

/-- Behind a rejected prefix the loop extracts nothing where nothing reads as a
request. -/
theorem onMessage_silent {rest later : Bytes} {buf : ConnBuffer} {q : Nat} (silent : Silent rest)
    (past : rejectedAt rest ≤ q) (stream : buf.contents ++ later = rest.drop q) :
    (onMessage buf).1 = [] ∧ ∃ q', rejectedAt rest ≤ q' ∧
      (onMessage buf).2.contents ++ later = rest.drop q' := by
  cases decoded : decodeFrame buf.contents with
  | waiting =>
    rw [onMessage_waiting decoded]
    exact ⟨rfl, q, past, stream⟩
  | rejected =>
    obtain ⟨nothing, emptied⟩ := onMessage_rejected decoded
    refine ⟨nothing, q + buf.contents.length, by omega, ?_⟩
    rw [emptied, ← List.drop_drop, ← stream, List.drop_left, List.nil_append]
  | frame id payload tail =>
    have ahead := decodeFrame_frame_append decoded later
    rw [stream] at ahead
    have empty := silent q past id payload _ ahead
    obtain ⟨after, content, result⟩ := onMessage_frame decoded
    obtain ⟨dropped, whole⟩ := decodeFrame_rest decoded
    rw [if_pos empty] at result
    rw [result]
    refine ⟨rfl, q + (12 + payload.length), by omega, ?_⟩
    rw [← List.drop_drop, ← stream, List.drop_append_of_le_length whole, ← dropped]
    exact congrArg (· ++ later) content

/-- The place of a connection in frames with a rejected rest behind them: among
the frames, or somewhere behind the rejected prefix with every request taken. -/
inductive Position (frames : List RawFrame) (rest later : Bytes) (log : List Extracted)
    (content : Bytes) : Prop
  | among (done more : List RawFrame) (listed : done ++ more = frames)
      (taken : log = RawFrame.requests done)
      (stream : content ++ later = more.flatMap RawFrame.encode ++ rest)
      (stopped : decodeFrame content = .waiting ∨ ∃ f ∈ done, f.payload = [])
  | behind (q : Nat) (taken : log = RawFrame.requests frames) (past : rejectedAt rest ≤ q)
      (stream : content ++ later = rest.drop q)

theorem Position.read {frames : List RawFrame} {rest data later : Bytes}
    {state : List Extracted × ConnBuffer} (rejects : decodeFrame rest = .rejected)
    (silent : Silent rest) (some : data ≠ [])
    (here : Position frames rest (data ++ later) state.1 state.2.contents) :
    Position frames rest later (handleRead state (.ok data)).1
      (handleRead state (.ok data)).2.contents := by
  have arrived := ConnBuffer.contents_readFd_ok state.2 data
  rw [handleRead_ok, if_neg some]
  cases here with
  | among done more listed taken stream stopped =>
    rw [← List.append_assoc, ← arrived] at stream
    rcases onMessage_frames rejects stream with
      ⟨next, left, split, got, position, halted⟩ | ⟨got, q, past, position⟩
    · refine .among (done ++ next) left ?_ ?_ position ?_
      · rw [List.append_assoc, split, listed]
      · rw [taken, got, RawFrame.requests_append]
      · exact halted.imp_right fun ⟨f, member, bare⟩ => ⟨f, List.mem_append_right done member, bare⟩
    · refine .behind q ?_ past position
      rw [taken, got, ← RawFrame.requests_append, listed]
  | behind q taken past stream =>
    rw [← List.append_assoc, ← arrived] at stream
    obtain ⟨nothing, q', beyond, position⟩ := onMessage_silent silent past stream
    refine .behind q' ?_ beyond position
    rw [nothing, List.append_nil, taken]

theorem Position.reads {frames : List RawFrame} {rest : Bytes} (rejects : decodeFrame rest = .rejected)
    (silent : Silent rest) {cuts : List Bytes} (some : ∀ data ∈ cuts, data ≠ []) {later : Bytes}
    {state : List Extracted × ConnBuffer}
    (here : Position frames rest (cuts.flatten ++ later) state.1 state.2.contents) :
    Position frames rest later
      (cuts.foldl (fun state data => handleRead state (.ok data)) state).1
      (cuts.foldl (fun state data => handleRead state (.ok data)) state).2.contents := by
  induction cuts generalizing state with
  | nil => exact here
  | cons data cuts ih =>
    rw [List.flatten_cons, List.append_assoc] at here
    have next := here.read rejects silent (some data List.mem_cons_self)
    exact ih (fun data member => some data (List.mem_cons_of_mem _ member)) next

/-- Empty payloads come last. -/
def EmptyLast (frames : List RawFrame) : Prop :=
  frames.Pairwise fun f g => f.payload = [] → g.payload = []

/-- Once the whole stream has arrived, every request before the rejected prefix
has been extracted. -/
theorem Position.finished {frames : List RawFrame} {rest content : Bytes} {log : List Extracted}
    (rejects : decodeFrame rest = .rejected) (last : EmptyLast frames)
    (here : Position frames rest [] log content) : log = RawFrame.requests frames := by
  cases here with
  | behind q taken past stream => exact taken
  | among done more listed taken stream stopped =>
    rw [List.append_nil] at stream
    rcases stopped with waits | ⟨f, member, bare⟩
    · cases more with
      | nil =>
        rw [stream, List.flatMap_nil, List.nil_append, rejects] at waits
        cases waits
      | cons f more =>
        rw [stream, List.flatMap_cons, List.append_assoc, f.decode_encode] at waits
        cases waits
    · rw [← listed] at last ⊢
      have empty := (List.pairwise_append.mp last).2.2 f member
      rw [taken, RawFrame.requests_append,
        RawFrame.requests_of_empty fun g behind => empty g behind bare, List.append_nil]

theorem handleReads_requests {frames : List RawFrame} {rest : Bytes}
    (rejects : decodeFrame rest = .rejected) (silent : Silent rest) (last : EmptyLast frames)
    {cuts : List Bytes} (some : ∀ data ∈ cuts, data ≠ [])
    (stream : cuts.flatten = frames.flatMap RawFrame.encode ++ rest) :
    (handleReads cuts).1 = RawFrame.requests frames := by
  have start : Position frames rest (cuts.flatten ++ []) [] ConnBuffer.new.contents := by
    refine .among [] frames rfl rfl ?_ (.inl ?_)
    · rw [ConnBuffer.contents_new, List.nil_append, List.append_nil, stream]
    · rw [ConnBuffer.contents_new]
      rfl
  exact (start.reads rejects silent some).finished rejects last

/-- One read of everything stops at the first empty payload. -/
theorem onMessage_whole {frames : List RawFrame} {rest : Bytes} {buf : ConnBuffer}
    (rejects : decodeFrame rest = .rejected)
    (stream : buf.contents = frames.flatMap RawFrame.encode ++ rest) :
    (onMessage buf).1 = RawFrame.requests (frames.takeWhile RawFrame.isRequest) := by
  induction frames generalizing buf with
  | nil =>
    rw [List.flatMap_nil, List.nil_append] at stream
    rw [← stream] at rejects
    exact (onMessage_rejected rejects).1
  | cons f frames ih =>
    have decoded := f.decode_encode (frames.flatMap RawFrame.encode ++ rest)
    rw [← List.append_assoc, ← List.flatMap_cons, ← stream] at decoded
    obtain ⟨after, content, result⟩ := onMessage_frame decoded
    by_cases empty : f.payload = []
    · rw [if_pos empty] at result
      rw [result, List.takeWhile_cons_of_neg (by simp [RawFrame.isRequest, empty])]
      rfl
    · rw [if_neg empty] at result
      rw [result, List.takeWhile_cons_of_pos (RawFrame.isRequest_iff.mpr empty),
        RawFrame.requests_cons empty, ← ih content]
      rfl

theorem handleRead_emptied {state : List Extracted × ConnBuffer} (idle : state.2.contents = [])
    {data : Bytes} (some : data ≠ []) :
    ∃ buf : ConnBuffer, buf.contents = data ∧
      handleRead state (.ok data) = (state.1 ++ (onMessage buf).1, (onMessage buf).2) := by
  refine ⟨state.2.readFd (.ok data), ?_, by rw [handleRead_ok, if_neg some]⟩
  rw [ConnBuffer.contents_readFd_ok, idle, List.nil_append]

/-- With a read of its own for every frame no request is held up. -/
theorem reads_apart (frames : List RawFrame) {state : List Extracted × ConnBuffer}
    (idle : state.2.contents = []) :
    let after := (frames.map RawFrame.encode).foldl (fun state data => handleRead state (.ok data)) state
    after.1 = state.1 ++ RawFrame.requests frames ∧ after.2.contents = [] := by
  induction frames generalizing state with
  | nil => exact ⟨by rw [RawFrame.requests_nil, List.append_nil]; rfl, idle⟩
  | cons f frames ih =>
    intro after
    obtain ⟨buf, content, result⟩ := handleRead_emptied idle f.encode_ne_nil
    have decoded := f.decode_encode []
    rw [List.append_nil, ← content] at decoded
    obtain ⟨left, nothing, taken⟩ := onMessage_frame decoded
    have emptied : (handleRead state (.ok f.encode)).2.contents = [] ∧
        (handleRead state (.ok f.encode)).1 = state.1 ++ RawFrame.requests [f] := by
      have waits : onMessage left = ([], left) := onMessage_waiting (by rw [nothing]; rfl)
      rw [result, taken, waits]
      split
      · rename_i empty
        exact ⟨nothing, by rw [RawFrame.requests_empty empty]⟩
      · rename_i some
        exact ⟨nothing, by rw [RawFrame.requests_cons some]; rfl⟩
    obtain ⟨log, idle⟩ := ih emptied.1
    refine ⟨?_, idle⟩
    rw [emptied.2, List.append_assoc, ← RawFrame.requests_append] at log
    exact log

/-- A read for every frame, and then some more. -/
theorem cuts_apart (frames : List RawFrame) {pieces : List Bytes} (some : ∀ data ∈ pieces, data ≠ []) :
    (∀ data ∈ frames.map RawFrame.encode ++ pieces, data ≠ []) ∧
      (frames.map RawFrame.encode ++ pieces).flatten =
        frames.flatMap RawFrame.encode ++ pieces.flatten := by
  constructor
  · intro data member
    rcases List.mem_append.mp member with inside | behind
    · obtain ⟨f, _, rfl⟩ := List.mem_map.mp inside
      exact f.encode_ne_nil
    · exact some data behind
  · rw [List.flatten_append, List.flatMap_def]

theorem rejected_ne_nil {rest : Bytes} (rejects : decodeFrame rest = .rejected) : rest ≠ [] := by
  rintro rfl
  cases rejects

/-- With the rejected rest read on its own nothing of it is extracted. -/
theorem handleReads_apart (frames : List RawFrame) {rest : Bytes}
    (rejects : decodeFrame rest = .rejected) :
    (handleReads (frames.map RawFrame.encode ++ [rest])).1 = RawFrame.requests frames ∧
      (handleReads (frames.map RawFrame.encode ++ [rest])).2.contents = [] := by
  obtain ⟨log, idle⟩ := @reads_apart frames ([], ConnBuffer.new) ConnBuffer.contents_new
  rw [handleReads, List.foldl_append, List.foldl_cons, List.foldl_nil]
  obtain ⟨buf, content, result⟩ := handleRead_emptied idle (rejected_ne_nil rejects)
  rw [← content] at rejects
  obtain ⟨nothing, emptied⟩ := onMessage_rejected rejects
  rw [result, nothing, emptied, log, List.append_nil]
  exact ⟨List.nil_append _, rfl⟩

theorem handleReads_snoc (cuts : List Bytes) (data : Bytes) :
    handleReads (cuts ++ [data]) = handleRead (handleReads cuts) (.ok data) := by
  rw [handleReads, List.foldl_append]
  rfl

/-- With a cut where the bytes behind the rejected prefix read as a request,
that request is extracted. -/
theorem handleReads_resumed (frames : List RawFrame) {rest payload tail : Bytes} {id : UInt64} {q : Nat}
    (rejects : decodeFrame rest = .rejected) (past : rejectedAt rest ≤ q)
    (decoded : decodeFrame (rest.drop q) = .frame id payload tail) (some : payload ≠ []) :
    ∃ more, (handleReads (frames.map RawFrame.encode ++ [rest.take q, rest.drop q])).1 =
      RawFrame.requests frames ++ ⟨id, payload⟩ :: more := by
  obtain ⟨log, idle⟩ := handleReads_apart frames (decodeFrame_rejected_take rejects past)
  have rest_some : rest.drop q ≠ [] := by
    intro empty
    rw [empty] at decoded
    cases decoded
  obtain ⟨buf, content, result⟩ := handleRead_emptied idle rest_some
  rw [← content] at decoded
  obtain ⟨after, _, taken⟩ := onMessage_frame decoded
  rw [if_neg some] at taken
  refine ⟨(onMessage after).1, ?_⟩
  rw [show [rest.take q, rest.drop q] = [rest.take q] ++ [rest.drop q] from rfl, ← List.append_assoc,
    handleReads_snoc, result, log, taken]

theorem handleReads_whole {frames : List RawFrame} {rest : Bytes}
    (rejects : decodeFrame rest = .rejected) (some : frames.flatMap RawFrame.encode ++ rest ≠ []) :
    (handleReads [frames.flatMap RawFrame.encode ++ rest]).1 =
      RawFrame.requests (frames.takeWhile RawFrame.isRequest) := by
  obtain ⟨buf, content, result⟩ :=
    @handleRead_emptied ([], ConnBuffer.new) ConnBuffer.contents_new _ some
  rw [handleReads, List.foldl_cons, List.foldl_nil, result, ← onMessage_whole rejects content]
  exact List.nil_append _

theorem emptyLast_of_requests {frames : List RawFrame}
    (same : RawFrame.requests (frames.takeWhile RawFrame.isRequest) = RawFrame.requests frames) :
    EmptyLast frames := by
  induction frames with
  | nil => exact List.Pairwise.nil
  | cons f frames ih =>
    by_cases empty : f.payload = []
    · rw [List.takeWhile_cons_of_neg (by simp [RawFrame.isRequest, empty]),
        RawFrame.requests, RawFrame.requests, List.filter_cons_of_neg (by simp [RawFrame.isRequest, empty])] at same
      have none : frames.filter RawFrame.isRequest = [] := by simpa using same.symm
      have all : ∀ g ∈ frames, g.payload = [] := by
        intro g member
        simpa [RawFrame.isRequest] using List.filter_eq_nil_iff.mp none g member
      exact List.pairwise_cons.mpr ⟨fun g member _ => all g member,
        List.pairwise_iff_forall_sublist.mpr fun pair _ => all _ (pair.subset (by simp))⟩
    · rw [List.takeWhile_cons_of_pos (RawFrame.isRequest_iff.mpr empty), RawFrame.requests_cons empty,
        RawFrame.requests_cons empty] at same
      exact List.pairwise_cons.mpr ⟨fun g _ bare => absurd bare empty, ih (List.cons.inj same).2⟩

/-- A request behind the rejected prefix is extracted or lost as the reads are cut. -/
theorem cuts_differ (frames : List RawFrame) {rest payload tail : Bytes} {id : UInt64} {q : Nat}
    (rejects : decodeFrame rest = .rejected) (past : rejectedAt rest ≤ q)
    (decoded : decodeFrame (rest.drop q) = .frame id payload tail) (some : payload ≠ []) :
    ∃ cuts cuts' : List Bytes, (∀ data ∈ cuts, data ≠ []) ∧ (∀ data ∈ cuts', data ≠ []) ∧
      cuts.flatten = frames.flatMap RawFrame.encode ++ rest ∧
      cuts'.flatten = frames.flatMap RawFrame.encode ++ rest ∧
      (handleReads cuts).1 ≠ (handleReads cuts').1 := by
  have pieces : ∀ data ∈ [rest.take q, rest.drop q], data ≠ [] := by
    intro data member
    rcases List.mem_pair.mp member with rfl | rfl
    · exact rejected_ne_nil (decodeFrame_rejected_take rejects past)
    · intro empty
      rw [empty] at decoded
      cases decoded
  obtain ⟨more, resumed⟩ := handleReads_resumed frames rejects past decoded some
  obtain ⟨someCut, streamCut⟩ := cuts_apart frames pieces
  obtain ⟨someApart, streamApart⟩ := @cuts_apart frames [rest] (by simpa using rejected_ne_nil rejects)
  rw [List.flatten_cons, List.flatten_singleton, List.take_append_drop] at streamCut
  rw [List.flatten_singleton] at streamApart
  refine ⟨_, _, someCut, someApart, streamCut, streamApart, ?_⟩
  rw [(handleReads_apart frames rejects).1, resumed, Ne, List.append_right_eq_self]
  exact List.cons_ne_nil _ _

/-- Every way of cutting a stream of frames with a rejected rest into reads has
the server extract the same requests exactly when the stream has no request
behind an empty payload and none behind the rejected prefix. -/
theorem rejected_segmentation_iff (frames : List RawFrame) (rest : Bytes)
    (rejects : decodeFrame rest = .rejected) :
    (∀ cuts cuts' : List Bytes, (∀ data ∈ cuts, data ≠ []) → (∀ data ∈ cuts', data ≠ []) →
      cuts.flatten = frames.flatMap RawFrame.encode ++ rest →
      cuts'.flatten = frames.flatMap RawFrame.encode ++ rest →
      (handleReads cuts).1 = (handleReads cuts').1) ↔ EmptyLast frames ∧ Silent rest := by
  constructor
  · intro same
    constructor
    · obtain ⟨someApart, streamApart⟩ := @cuts_apart frames [rest]
        (by simpa using rejected_ne_nil rejects)
      rw [List.flatten_singleton] at streamApart
      have some : frames.flatMap RawFrame.encode ++ rest ≠ [] := by
        simp [rejected_ne_nil rejects]
      have together := same [frames.flatMap RawFrame.encode ++ rest] _ (by simpa using some)
        someApart List.flatten_singleton streamApart
      rw [(handleReads_apart frames rejects).1, handleReads_whole rejects some] at together
      exact emptyLast_of_requests together
    · intro q past id payload tail decoded
      by_contra some
      obtain ⟨cuts, cuts', someCut, someCut', stream, stream', differ⟩ :=
        cuts_differ frames rejects past decoded some
      exact differ (same cuts cuts' someCut someCut' stream stream')
  · rintro ⟨last, silent⟩ cuts cuts' some some' stream stream'
    rw [handleReads_requests rejects silent last some stream,
      handleReads_requests rejects silent last some' stream']

/-- A length prefix of minus one is rejected as soon as it has arrived. -/
theorem negative_rejected (behind : Bytes) :
    decodeFrame ([255, 255, 255, 255] ++ behind) = .rejected ∧
      rejectedAt ([255, 255, 255, 255] ++ behind) = 4 := by
  have length := @frameLength_append [255, 255, 255, 255] (by decide) behind
  have value : frameLength [255, 255, 255, 255] = -1 := by decide
  rw [value] at length
  have limit : rejectedAt ([255, 255, 255, 255] ++ behind) = 4 := by
    rw [rejectedAt, length, if_neg (by decide)]
  refine ⟨decodeFrame_rejected_iff.mpr ⟨.inl (by rw [length]; decide), ?_⟩, limit⟩
  rw [limit, List.length_append]
  exact Nat.le_add_right 4 _

theorem rejected_segmentation_same :
    let f : RawFrame := ⟨7, [1], by decide⟩
    (handleReads [f.encode ++ [255, 255, 255, 255]]).1 =
      (handleReads [f.encode, [255, 255, 255, 255]]).1 := by
  intro f
  have rejects := negative_rejected []
  have last : EmptyLast [f] := List.pairwise_singleton _ f
  have silent : Silent [255, 255, 255, 255] := by
    intro q past id payload tail decoded
    have limit : rejectedAt [255, 255, 255, 255] = 4 := rejects.2
    rw [List.drop_eq_nil_of_le (by simp only [List.length_cons, List.length_nil]; omega)] at decoded
    cases decoded
  refine (rejected_segmentation_iff [f] [255, 255, 255, 255] rejects.1).mpr ⟨last, silent⟩ _ _ ?_ ?_ ?_ ?_
  · simp
  · simpa using f.encode_ne_nil
  · simp
  · simp

/-- Bytes behind a rejected prefix are extracted as a request if the reads are
cut behind the prefix, and thrown away if they are not. -/
theorem rejected_segmentation_differs :
    ¬∀ (frames : List RawFrame) (rest : Bytes), decodeFrame rest = .rejected →
      ∀ cuts cuts' : List Bytes, (∀ data ∈ cuts, data ≠ []) → (∀ data ∈ cuts', data ≠ []) →
        cuts.flatten = frames.flatMap RawFrame.encode ++ rest →
        cuts'.flatten = frames.flatMap RawFrame.encode ++ rest →
        (handleReads cuts).1 = (handleReads cuts').1 := by
  intro same
  obtain ⟨rejects, limit⟩ := negative_rejected (RpcCodec.packWithId 7 [1])
  have decoded : decodeFrame (([255, 255, 255, 255] ++ RpcCodec.packWithId 7 [1]).drop 4) =
      .frame 7 [1] [] := by
    have pack := @decodeFrame_pack [1] (by decide) 7 []
    rwa [List.append_nil] at pack
  obtain ⟨cuts, cuts', some, some', stream, stream', differ⟩ :=
    cuts_differ [] rejects limit.le decoded (by decide)
  exact differ (same [] _ rejects cuts cuts' some some' stream stream')

end RpcServer
end ReactorRpc
