import ReactorRpc.ServerStream

namespace ReactorRpc
open Streams

/-- `pendingSync_` or `pendingAsync_`: the pending calls by message id. -/
abbrev PendingTable (Call : Type) := UInt64 → Option Call

structure Pending (Call : Type) where
  pendingSync : PendingTable Call
  pendingAsync : PendingTable Call

/-- What a completed call does with its response: it fails the controller, or
it parses the result into the caller's message. -/
inductive CallResult
  | setFailed (errorMsg : Bytes)
  | parseFromString (result : Bytes)
  deriving DecidableEq

def callResult (rsp : RpcResponse) : CallResult :=
  if rsp.errorCode ≠ ErrorCode.NO_ERROR then .setFailed rsp.errorMsg else .parseFromString rsp.result

/-- What `onRpcResponse` does with a response: it sets the promise of a
synchronous call, runs the callback of an asynchronous one, or drops it. -/
inductive Disposition (Call : Type)
  | promiseSet (call : Call)
  | doneRun (call : Call) (result : CallResult)
  | unknown
  deriving DecidableEq

structure Processed (Call : Type) where
  id : UInt64
  rsp : RpcResponse
  disposition : Disposition Call
  deriving DecidableEq

/-- A read of `n > 0` bytes on a client connection, with what other threads do
to the tables before it and between its two locked sections. -/
structure ClientRead (Call : Type) where
  data : Bytes
  nonempty : data ≠ []
  before : Pending Call → Pending Call
  between : Pending Call → Pending Call

section Client
variable [Protobuf]

/-- A frame whose payload parses as a response. -/
structure ResponseFrame extends Frame where
  rsp : RpcResponse
  parses : RpcResponse.parse payload = some rsp

variable {Call : Type}

def PendingTable.insert (table : PendingTable Call) (id : UInt64) (call : Call) : PendingTable Call :=
  Function.update table id (some call)

def PendingTable.erase (table : PendingTable Call) (id : UInt64) : PendingTable Call :=
  Function.update table id none

namespace RpcChannel

/-- The part of `onRpcResponse` in front of the locked sections. -/
def unpackResponse (buf : ConnBuffer) : Option (UInt64 × RpcResponse) × ConnBuffer :=
  let (packedData, id, rest) := buf.tryUnpackWithId 0
  if packedData = [] then (none, rest)
  else ((RpcResponse.parse packedData).map fun rsp => (id, rsp), rest)

def onRpcResponse (between : Pending Call → Pending Call) (tables : Pending Call) (buf : ConnBuffer) :
    Option (Processed Call) × Pending Call × ConnBuffer :=
  match unpackResponse buf with
  | (none, rest) => (none, tables, rest)
  | (some (id, rsp), rest) =>
    match tables.pendingSync id with
    | some call =>
      (some ⟨id, rsp, .promiseSet call⟩,
        { tables with pendingSync := tables.pendingSync.erase id }, rest)
    | none =>
      let tables := between tables
      match tables.pendingAsync id with
      | some call =>
        (some ⟨id, rsp, .doneRun call (callResult rsp)⟩,
          { tables with pendingAsync := tables.pendingAsync.erase id }, rest)
      | none => (some ⟨id, rsp, .unknown⟩, tables, rest)

/-- The locked sections of `onRpcResponse`: the call pending under the id is completed, or the
response is dropped. -/
def process (between : Pending Call → Pending Call) (tables : Pending Call) (id : UInt64) (rsp : RpcResponse) :
    Processed Call × Pending Call :=
  match tables.pendingSync id with
  | some call => (⟨id, rsp, .promiseSet call⟩, { tables with pendingSync := tables.pendingSync.erase id })
  | none =>
    let tables := between tables
    match tables.pendingAsync id with
    | some call =>
      (⟨id, rsp, .doneRun call (callResult rsp)⟩, { tables with pendingAsync := tables.pendingAsync.erase id })
    | none => (⟨id, rsp, .unknown⟩, tables)

omit [Protobuf] in
theorem process_response (between : Pending Call → Pending Call) (tables : Pending Call) (id : UInt64)
    (rsp : RpcResponse) : (process between tables id rsp).1.id = id ∧ (process between tables id rsp).1.rsp = rsp := by
  unfold process
  cases tables.pendingSync id with
  | some call => exact ⟨rfl, rfl⟩
  | none =>
    dsimp only
    cases (between tables).pendingAsync id with
    | some call => exact ⟨rfl, rfl⟩
    | none => exact ⟨rfl, rfl⟩

/-- The message callback of a client connection, with a log of the responses
`onRpcResponse` has processed so far. -/
def messageCallback (between : Pending Call → Pending Call) (state : List (Processed Call) × Pending Call)
    (buf : ConnBuffer) : (List (Processed Call) × Pending Call) × ConnBuffer :=
  let (processed, tables, rest) := onRpcResponse between state.2 buf
  ((state.1 ++ processed.toList, tables), rest)

/-- One readable event of a client connection. -/
def handleRead (state : (List (Processed Call) × Pending Call) × ConnBuffer) (read : ClientRead Call) :
    (List (Processed Call) × Pending Call) × ConnBuffer :=
  TcpConnection.handleRead (messageCallback read.between)
    ((state.1.1, read.before state.1.2), state.2) (.ok read.data)

/-- The responses processed over a run of reads on a new connection. -/
def handleReads (tables : Pending Call) (reads : List (ClientRead Call)) :
    (List (Processed Call) × Pending Call) × ConnBuffer :=
  reads.foldl handleRead (([], tables), ConnBuffer.new)

end RpcChannel

namespace ResponseFrame

def encode (f : ResponseFrame) : Bytes := f.toFrame.encode

/-- What a processed frame amounts to: its id and its response. -/
def received (f : ResponseFrame) : UInt64 × RpcResponse := (f.id, f.rsp)

end ResponseFrame

/-- The decoder as the client uses it, for which only a response is a frame. -/
def nextResponse (content : Bytes) : Option (ResponseFrame × Bytes) :=
  (nextFrame content).bind fun (f, rest) =>
    match parses : RpcResponse.parse f.payload with
    | some rsp => some (⟨f, rsp, parses⟩, rest)
    | none => none

theorem nextResponse_eq_some {content rest : Bytes} {f : ResponseFrame}
    (decoded : nextResponse content = some (f, rest)) : nextFrame content = some (f.toFrame, rest) := by
  obtain ⟨pair, frame, found⟩ := Option.bind_eq_some_iff.mp decoded
  dsimp only at found
  split at found
  · cases found
    exact frame
  · cases found

theorem nextResponse_encode (f : ResponseFrame) (rest : Bytes) :
    nextResponse (f.encode ++ rest) = some (f, rest) := by
  obtain ⟨frame, rsp, parses⟩ := f
  rw [nextResponse, ResponseFrame.encode, nextFrame_encode]
  dsimp only [Option.bind_some]
  split
  · rename_i found same
    have equal : found = rsp := Option.some.inj (same.symm.trans parses)
    subst equal
    rfl
  · rename_i missing
    rw [parses] at missing
    cases missing

theorem response_prefixCode : PrefixCode ResponseFrame.encode nextResponse where
  pos f := frame_prefixCode.pos f.toFrame
  whole := nextResponse_encode
  short f content front short := by
    rw [nextResponse, frame_prefixCode.short f.toFrame content front short]
    rfl

namespace RpcChannel

theorem unpackResponse_waiting {buf : ConnBuffer} (waits : decodeFrame buf.contents = .waiting) :
    unpackResponse buf = (none, buf) := by
  simp only [unpackResponse, ConnBuffer.tryUnpack_waiting waits, if_true]

theorem unpackResponse_frame {buf : ConnBuffer} {f : ResponseFrame} {rest : Bytes}
    (decoded : nextResponse buf.contents = some (f, rest)) :
    ∃ after, unpackResponse buf = (some f.received, after) ∧ after.contents = rest := by
  obtain ⟨after, unpacked, left⟩ := ConnBuffer.tryUnpack_frame (nextResponse_eq_some decoded) 0
  refine ⟨after, ?_, left⟩
  simp only [unpackResponse, unpacked, f.nonempty, if_false, f.parses, Option.map_some,
    ResponseFrame.received]

/-- On a stream of responses the client waits, or it takes the first one off. -/
theorem unpackResponse_cases {buf : ConnBuffer} {left : List ResponseFrame} {later : Bytes}
    (stream : buf.contents ++ later = left.flatMap ResponseFrame.encode) :
    unpackResponse buf = (none, buf) ∨ ∃ f after more, left = f :: more ∧
      unpackResponse buf = (some f.received, after) ∧
      after.contents ++ later = more.flatMap ResponseFrame.encode := by
  rcases response_prefixCode.next_cases stream with waits | ⟨f, rest, more, first, decoded, remains⟩
  · have here : Receiving ResponseFrame.encode left later ([], buf.contents) := ⟨left, rfl, stream⟩
    exact .inl (unpackResponse_waiting (Receiving.waiting response_prefixCode here waits))
  · obtain ⟨after, unpacked, content⟩ := unpackResponse_frame decoded
    exact .inr ⟨f, after, more, first, unpacked, content ▸ remains⟩

theorem onRpcResponse_waiting {buf : ConnBuffer} (waits : decodeFrame buf.contents = .waiting)
    (between : Pending Call → Pending Call) (tables : Pending Call) :
    onRpcResponse between tables buf = (none, tables, buf) := by
  simp only [onRpcResponse, unpackResponse_waiting waits]

/-- A response that has arrived whole is processed, and only the one in front. -/
theorem onRpcResponse_frame {buf : ConnBuffer} {f : ResponseFrame} {rest : Bytes}
    (decoded : nextResponse buf.contents = some (f, rest))
    (between : Pending Call → Pending Call) (tables : Pending Call) :
    ∃ after, onRpcResponse between tables buf =
        (some (process between tables f.id f.rsp).1, (process between tables f.id f.rsp).2, after) ∧
      after.contents = rest := by
  obtain ⟨after, unpacked, left⟩ := unpackResponse_frame decoded
  rw [ResponseFrame.received] at unpacked
  refine ⟨after, ?_, left⟩
  simp only [onRpcResponse, process, unpacked]
  cases tables.pendingSync f.id with
  | some call => rfl
  | none =>
    dsimp only
    cases (between tables).pendingAsync f.id with
    | some call => rfl
    | none => rfl

/-- The log and the tables after a response has been processed in its turn. -/
def processNext (between : Pending Call → Pending Call) (state : List (Processed Call) × Pending Call)
    (f : ResponseFrame) : List (Processed Call) × Pending Call :=
  let (processed, tables) := process between state.2 f.id f.rsp
  (state.1 ++ [processed], tables)

/-- The ids and responses of a client's log. -/
def responses (state : (List (Processed Call) × Pending Call) × ConnBuffer) :
    List (UInt64 × RpcResponse) :=
  state.1.1.map fun processed => (processed.id, processed.rsp)

/-- A client connection has processed what a receiver of one codeword a read
has decoded, and holds the same bytes. -/
def Follows (state : (List (Processed Call) × Pending Call) × ConnBuffer)
    (receiver : List ResponseFrame × Bytes) : Prop :=
  responses state = receiver.1.map ResponseFrame.received ∧ state.2.contents = receiver.2

/-- A read processes what a receiver of one codeword a read decodes with it. -/
theorem handleRead_receiveOne {frames : List ResponseFrame} {later : Bytes} {read : ClientRead Call}
    {state : (List (Processed Call) × Pending Call) × ConnBuffer} {receiver : List ResponseFrame × Bytes}
    (same : state.2.contents = receiver.2)
    (here : Receiving ResponseFrame.encode frames (read.data ++ later) receiver) :
    (handleRead state read).1 =
        ((receiveOne nextResponse receiver read.data).1.drop receiver.1.length).foldl (processNext read.between)
          (state.1.1, read.before state.1.2) ∧
      (handleRead state read).2.contents = (receiveOne nextResponse receiver read.data).2 := by
  obtain ⟨got, held⟩ := receiver
  have arrived := here.arrive
  have content : (state.2.readFd (.ok read.data)).contents = held ++ read.data := by
    rw [ConnBuffer.contents_readFd_ok, same]
  simp only at arrived
  rw [handleRead, TcpConnection.handleRead_ok, if_neg read.nonempty, receiveOne]
  simp only [messageCallback]
  cases decoded : nextResponse (held ++ read.data) with
  | none =>
    have waits := Receiving.waiting response_prefixCode arrived decoded
    rw [← content] at waits
    rw [onRpcResponse_waiting waits]
    simp only [Option.toList_none, List.append_nil, List.drop_length, List.foldl_nil, true_and]
    exact content
  | some pair =>
    rw [← content] at decoded
    obtain ⟨after, ran, left⟩ := onRpcResponse_frame decoded read.between (read.before state.1.2)
    rw [ran]
    simp only [Option.toList_some, List.drop_left, List.foldl_cons, List.foldl_nil]
    exact ⟨rfl, left⟩

theorem responses_processNext (between : Pending Call → Pending Call) (frames : List ResponseFrame)
    (log : List (Processed Call)) (tables : Pending Call) :
    (frames.foldl (processNext between) (log, tables)).1.map (fun processed => (processed.id, processed.rsp)) =
      log.map (fun processed => (processed.id, processed.rsp)) ++ frames.map ResponseFrame.received := by
  induction frames generalizing log tables with
  | nil => exact (List.append_nil _).symm
  | cons f frames ih =>
    obtain ⟨id, rsp⟩ := process_response between tables f.id f.rsp
    rw [List.foldl_cons, processNext, ih]
    simp only [List.map_append, List.map_cons, List.map_nil, id, rsp, List.append_assoc, List.singleton_append]
    rfl

theorem Follows.read {frames : List ResponseFrame} {later : Bytes} {read : ClientRead Call}
    {state : (List (Processed Call) × Pending Call) × ConnBuffer}
    {receiver : List ResponseFrame × Bytes} (follows : Follows state receiver)
    (here : Receiving ResponseFrame.encode frames (read.data ++ later) receiver) :
    Follows (handleRead state read) (receiveOne nextResponse receiver read.data) := by
  obtain ⟨listed, same⟩ := follows
  obtain ⟨processed, content⟩ := handleRead_receiveOne same here
  refine ⟨?_, content⟩
  rw [responses, processed, responses_processNext, ← responses, listed, ← List.map_append]
  congr 1
  unfold receiveOne
  split
  · rw [List.drop_length, List.append_nil]
  · rw [List.drop_left]

theorem Follows.reads {frames : List ResponseFrame} {later : Bytes} (reads : List (ClientRead Call))
    {state : (List (Processed Call) × Pending Call) × ConnBuffer}
    {receiver : List ResponseFrame × Bytes} (follows : Follows state receiver)
    (here : Receiving ResponseFrame.encode frames (reads.flatMap ClientRead.data ++ later) receiver) :
    Follows (reads.foldl handleRead state)
      ((reads.map ClientRead.data).foldl (receiveOne nextResponse) receiver) := by
  induction reads generalizing state receiver with
  | nil => exact follows
  | cons read reads ih =>
    rw [List.flatMap_cons, List.append_assoc] at here
    exact ih (follows.read here) (here.receiveOne response_prefixCode)

/-- From a new connection on, the client is a receiver of one frame a read. -/
theorem handleReads_follows {frames : List ResponseFrame} {reads : List (ClientRead Call)}
    {later : Bytes} (stream : reads.flatMap ClientRead.data ++ later = frames.flatMap ResponseFrame.encode)
    (tables : Pending Call) :
    Follows (handleReads tables reads)
      ((reads.map ClientRead.data).foldl (receiveOne nextResponse) ([], [])) :=
  Follows.reads reads ⟨rfl, ConnBuffer.contents_new⟩ (stream ▸ Receiving.start frames)

/-- The response frames that lie wholly inside what a run of reads delivers. -/
def arrivedWhole (frames : List ResponseFrame) (reads : List (ClientRead Call)) : List ResponseFrame :=
  wholeWithin ResponseFrame.encode frames (reads.flatMap ClientRead.data).length

theorem arrivedWhole_eq (frames : List ResponseFrame) (reads : List (ClientRead Call)) :
    arrivedWhole frames reads =
      wholeWithin ResponseFrame.encode frames (reads.map ClientRead.data).flatten.length := by
  rw [arrivedWhole, List.flatMap_def]

/-- The log is complete exactly when the receiver it follows is. -/
theorem responses_eq_iff {frames : List ResponseFrame} {reads : List (ClientRead Call)} {later : Bytes}
    (stream : reads.flatMap ClientRead.data ++ later = frames.flatMap ResponseFrame.encode)
    (tables : Pending Call) :
    responses (handleReads tables reads) = (arrivedWhole frames reads).map ResponseFrame.received ↔
      ((reads.map ClientRead.data).foldl (receiveOne nextResponse) ([], [])).1 =
        arrivedWhole frames reads := by
  have listed := (handleReads_follows stream tables).1
  rw [arrivedWhole_eq]
  rw [List.flatMap_def] at stream
  have here : Receiving ResponseFrame.encode frames later
      ((reads.map ClientRead.data).foldl (receiveOne nextResponse) ([], [])) :=
    Receiving.foldl_receiveOne response_prefixCode _ (stream ▸ Receiving.start frames)
  obtain ⟨left, _, _, whole⟩ := here.wholeWithin_eq stream
  rw [listed, whole]
  constructor
  · intro same
    have lengths := congrArg List.length same
    simp only [List.length_map, List.length_append] at lengths
    have nothing : wholeWithin ResponseFrame.encode left
        ((reads.map ClientRead.data).foldl (receiveOne nextResponse) ([], [])).2.length = [] :=
      List.length_eq_zero_iff.mp (by omega)
    rw [nothing, List.append_nil]
  · intro same
    rw [← same]

/-- Every read brings at most one frame whole. -/
def OneAtATime (frames : List ResponseFrame) (reads : List (ClientRead Call)) : Prop :=
  ∀ before read, before ++ [read] <+: reads →
    (arrivedWhole frames (before ++ [read])).length ≤ (arrivedWhole frames before).length + 1

/-- The receiver has after every read all frames that arrived whole exactly when no
read brings more than one of them. -/
theorem receiver_current_iff {frames : List ResponseFrame} {reads : List (ClientRead Call)} {later : Bytes}
    (stream : reads.flatMap ClientRead.data ++ later = frames.flatMap ResponseFrame.encode) :
    (∀ before, before <+: reads → ((before.map ClientRead.data).foldl (receiveOne nextResponse) ([], [])).1 =
        arrivedWhole frames before) ↔ OneAtATime frames reads := by
  have total : (reads.map ClientRead.data).flatten ++ later = frames.flatMap ResponseFrame.encode := by
    rw [← List.flatMap_def, stream]
  have keeps := receiveOne_keeps_up_iff response_prefixCode total
  constructor
  · intro current before read front
    simp only [arrivedWhole_eq, List.map_append, List.map_cons, List.map_nil]
    refine keeps.mp ?_ _ _ ?_
    · intro data front
      obtain ⟨before, within, rfl⟩ := List.prefix_map_iff.mp front
      rw [← arrivedWhole_eq]
      exact current before within
    · simpa only [List.map_append, List.map_cons, List.map_nil] using front.map ClientRead.data
  · intro single before front
    rw [arrivedWhole_eq]
    refine keeps.mpr ?_ _ (front.map ClientRead.data)
    intro data last front
    obtain ⟨whole, within, same⟩ := List.prefix_map_iff.mp front
    obtain ⟨before, tail, rfl, rfl, listed⟩ := List.append_eq_map_iff.mp same
    obtain ⟨read, rfl, rfl⟩ := List.map_eq_singleton_iff.mp listed
    simpa only [arrivedWhole_eq, List.map_append, List.map_cons, List.map_nil] using
      single before read within

/-- The frames that a read brings whole, behind what earlier reads have brought. -/
def completedBy (frames : List ResponseFrame) (earlier : List (ClientRead Call)) (read : ClientRead Call) :
    List ResponseFrame :=
  (arrivedWhole frames (earlier ++ [read])).drop (arrivedWhole frames earlier).length

theorem arrivedWhole_nil (frames : List ResponseFrame) :
    arrivedWhole frames ([] : List (ClientRead Call)) = [] := by
  cases frames with
  | nil => rfl
  | cons f frames =>
    have some : ¬f.encode.length ≤ ([] : Bytes).length := Nat.not_le.mpr (frame_prefixCode.pos f.toFrame)
    rw [arrivedWhole, List.flatMap_nil, wholeWithin, if_neg some]

theorem arrivedWhole_snoc (frames : List ResponseFrame) (earlier : List (ClientRead Call)) (read : ClientRead Call) :
    arrivedWhole frames (earlier ++ [read]) = arrivedWhole frames earlier ++ completedBy frames earlier read := by
  have front : arrivedWhole frames earlier <+: arrivedWhole frames (earlier ++ [read]) := by
    refine wholeWithin_prefix frames ?_
    rw [List.flatMap_append, List.length_append]
    exact Nat.le_add_right _ _
  exact (List.prefix_iff_eq_append.mp front).symm

/-- A client that processes with every read all the frames it brings whole: its log, its
tables, and the reads so far. -/
def keepUp (frames : List ResponseFrame)
    (state : (List (Processed Call) × Pending Call) × List (ClientRead Call)) (read : ClientRead Call) :
    (List (Processed Call) × Pending Call) × List (ClientRead Call) :=
  ((completedBy frames state.2 read).foldl (processNext read.between) (state.1.1, read.before state.1.2),
    state.2 ++ [read])

def keepingUp (tables : Pending Call) (frames : List ResponseFrame) (reads : List (ClientRead Call)) :
    List (Processed Call) × Pending Call :=
  (reads.foldl (keepUp frames) (([], tables), [])).1

theorem foldl_keepUp_reads (frames : List ResponseFrame) (reads : List (ClientRead Call))
    (state : (List (Processed Call) × Pending Call) × List (ClientRead Call)) :
    (reads.foldl (keepUp frames) state).2 = state.2 ++ reads := by
  induction reads generalizing state with
  | nil => exact (List.append_nil _).symm
  | cons read reads ih => rw [List.foldl_cons, ih, keepUp, List.append_assoc, List.singleton_append]

theorem keepingUp_snoc (tables : Pending Call) (frames : List ResponseFrame) (reads : List (ClientRead Call))
    (read : ClientRead Call) :
    keepingUp tables frames (reads ++ [read]) = (completedBy frames reads read).foldl (processNext read.between)
      ((keepingUp tables frames reads).1, read.before (keepingUp tables frames reads).2) := by
  rw [keepingUp, List.foldl_append, List.foldl_cons, List.foldl_nil, keepUp, foldl_keepUp_reads, List.nil_append]
  rfl

/-- A client that keeps up has processed what has arrived whole. -/
theorem responses_keepingUp (tables : Pending Call) (frames : List ResponseFrame) (reads : List (ClientRead Call)) :
    (keepingUp tables frames reads).1.map (fun processed => (processed.id, processed.rsp)) =
      (arrivedWhole frames reads).map ResponseFrame.received := by
  induction reads using List.reverseRecOn with
  | nil =>
    rw [arrivedWhole_nil]
    rfl
  | append_singleton reads read ih =>
    rw [keepingUp_snoc, responses_processNext, ih, arrivedWhole_snoc, List.map_append]

/-- No other thread is at the tables around a read. -/
def Undisturbed (read : ClientRead Call) : Prop := read.before = id ∧ read.between = id

/-- Undisturbed, a client that keeps up does the same however the stream is cut. -/
theorem keepingUp_undisturbed (tables : Pending Call) (frames : List ResponseFrame)
    {reads : List (ClientRead Call)} (undisturbed : ∀ read ∈ reads, Undisturbed read) :
    keepingUp tables frames reads = (arrivedWhole frames reads).foldl (processNext id) ([], tables) := by
  induction reads using List.reverseRecOn with
  | nil =>
    rw [arrivedWhole_nil]
    rfl
  | append_singleton reads read ih =>
    obtain ⟨before, between⟩ := undisturbed read (List.mem_append_right _ (List.mem_singleton_self _))
    have earlier := ih fun other there => undisturbed other (List.mem_append_left _ there)
    rw [keepingUp_snoc, arrivedWhole_snoc, List.foldl_append, ← earlier, before, between]
    rfl

/-- After every read the client has completed the pending call of, or dropped as unknown, each
response that has arrived whole; and undisturbed, which calls these are depends on nothing else. -/
structure KeepsUp (tables : Pending Call) (frames : List ResponseFrame) (reads : List (ClientRead Call)) :
    Prop where
  processed : ∀ before, before <+: reads → (handleReads tables before).1 = keepingUp tables frames before
  segmentation : ∀ before, before <+: reads → (∀ read ∈ before, Undisturbed read) →
    (handleReads tables before).1 = (arrivedWhole frames before).foldl (processNext id) ([], tables)

/-- A client whose receiver is never behind keeps up. -/
theorem keepsUp_of_current {tables : Pending Call} {frames : List ResponseFrame} {reads : List (ClientRead Call)}
    {later : Bytes} (stream : reads.flatMap ClientRead.data ++ later = frames.flatMap ResponseFrame.encode)
    (current : ∀ before, before <+: reads →
      ((before.map ClientRead.data).foldl (receiveOne nextResponse) ([], [])).1 = arrivedWhole frames before)
    {before : List (ClientRead Call)} (front : before <+: reads) :
    (handleReads tables before).1 = keepingUp tables frames before := by
  induction before using List.reverseRecOn with
  | nil => rfl
  | append_singleton before read ih =>
    have within := (List.prefix_append before [read]).trans front
    obtain ⟨after, rfl⟩ := front
    rw [List.flatMap_append, List.flatMap_append, List.flatMap_singleton, List.append_assoc, List.append_assoc] at stream
    have here : Receiving ResponseFrame.encode frames (read.data ++ (after.flatMap ClientRead.data ++ later))
        ((before.map ClientRead.data).foldl (receiveOne nextResponse) ([], [])) := by
      refine Receiving.foldl_receiveOne response_prefixCode _ ?_
      rw [← List.flatMap_def, stream]
      exact Receiving.start frames
    have follows := (handleReads_follows stream tables).2
    have processed := (handleRead_receiveOne follows here).1
    have next := current (before ++ [read]) (List.prefix_append _ _)
    rw [List.map_append, List.foldl_append, List.map_singleton, List.foldl_cons, List.foldl_nil] at next
    rw [handleReads, List.foldl_append, List.foldl_cons, List.foldl_nil, ← handleReads, processed, next,
      current before within, ih within, keepingUp_snoc]
    rfl

/-- The client, which decodes one frame for each read, keeps up with the responses that
arrive exactly when no read brings more than one of them whole. -/
theorem client_stream_law_iff (tables : Pending Call) (frames : List ResponseFrame)
    (reads : List (ClientRead Call)) (later : Bytes)
    (stream : reads.flatMap ClientRead.data ++ later = frames.flatMap ResponseFrame.encode) :
    KeepsUp tables frames reads ↔ OneAtATime frames reads := by
  rw [← receiver_current_iff stream]
  constructor
  · intro keepsUp before front
    have log := congrArg (fun state => state.1.map fun processed => (processed.id, processed.rsp))
      (keepsUp.processed before front)
    rw [responses_keepingUp] at log
    obtain ⟨after, rfl⟩ := front
    rw [List.flatMap_append, List.append_assoc] at stream
    exact (responses_eq_iff stream tables).mp log
  · intro current
    refine ⟨fun before front => keepsUp_of_current stream current front, fun before front undisturbed => ?_⟩
    rw [keepsUp_of_current stream current front, keepingUp_undisturbed tables frames undisturbed]

theorem ResponseFrame.encode_ne_nil (f : ResponseFrame) : f.encode ≠ [] := by
  have size := frame_prefixCode.pos f.toFrame
  exact List.length_pos_iff.mp size

/-- A read that brings two frames, with nobody else at the tables. -/
def readBoth (f g : ResponseFrame) : ClientRead Call where
  data := f.encode ++ g.encode
  nonempty := List.append_ne_nil_of_left_ne_nil (ResponseFrame.encode_ne_nil f) _
  before := id
  between := id

def readOnly (f : ResponseFrame) : ClientRead Call where
  data := f.encode
  nonempty := ResponseFrame.encode_ne_nil f
  before := id
  between := id

end RpcChannel
end Client

namespace RpcChannel
open Protobuf.Sample

/-- A response that carries nothing but the error code of a malformed request. -/
def wrongProtoFrame (id : UInt64) : ResponseFrame :=
  ⟨⟨id, [8, 1], by decide, by decide⟩, { errorCode := ErrorCode.WRONG_PROTO },
    show RpcResponse.parse [8, 1] = some { errorCode := ErrorCode.WRONG_PROTO } by decide⟩

/-- A read that brings the one response that a call waits for. -/
theorem client_stream_law_single :
    let frames := [wrongProtoFrame 0]
    let reads : List (ClientRead Unit) := [readOnly (wrongProtoFrame 0)]
    KeepsUp ⟨fun _ => none, fun _ => some ()⟩ frames reads := by
  intro frames reads
  refine (client_stream_law_iff _ frames reads [] ?_).mpr ?_
  · simp only [frames, reads, readOnly, List.flatMap_cons, List.flatMap_nil, List.append_nil]
  · intro before read _
    have few : (arrivedWhole frames (before ++ [read])).length ≤ 1 := by
      simp only [arrivedWhole, frames, wholeWithin]
      split <;> simp
    exact few.trans (Nat.le_add_left _ _)

/-- Two pending calls, both responses in one read: the second one is left in
the buffer. -/
theorem client_stream_law_coalesced :
    let frames := [wrongProtoFrame 0, wrongProtoFrame 1]
    let reads : List (ClientRead Unit) := [readBoth (wrongProtoFrame 0) (wrongProtoFrame 1)]
    reads.flatMap ClientRead.data ++ [] = frames.flatMap ResponseFrame.encode ∧
      ¬KeepsUp ⟨fun _ => some (), fun _ => none⟩ frames reads := by
  intro frames reads
  have stream : reads.flatMap ClientRead.data ++ [] = frames.flatMap ResponseFrame.encode := by
    simp only [frames, reads, readBoth, List.flatMap_cons, List.flatMap_nil, List.append_nil]
  refine ⟨stream, fun keepsUp => ?_⟩
  have log := congrArg (fun state => state.1.map fun processed => (processed.id, processed.rsp))
    (keepsUp.processed reads (List.prefix_refl _))
  rw [responses_keepingUp] at log
  have lengths := congrArg List.length ((responses_eq_iff stream _).mp log)
  simp [frames, reads, readBoth, receiveOne, nextResponse_encode, arrivedWhole, wholeWithin] at lengths

end RpcChannel
end ReactorRpc
