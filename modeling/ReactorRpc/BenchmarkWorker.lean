import ReactorRpc.MathMessages
import ReactorRpc.System

namespace ReactorRpc
open Streams

variable [Protobuf]

/-- A short field takes up few bytes beside its text. -/
theorem optionalField_length_short [LawfulProtobuf] {number : Nat} (positive : 0 < number) (small : number < 16)
    {bs : Bytes} (short : bs.length < 128) : (optionalField number bs).length ≤ bs.length + 2 := by
  have size := @varint_length_le 0 4 bs.length (Nat.zero_le _) (by omega)
  unfold optionalField
  split
  · exact Nat.zero_le _
  · rw [LawfulProtobuf.writeDelimited_eq number bs positive small (short.le.trans (by decide)),
      List.length_cons, List.length_append]
    omega

namespace Benchmark
open Math

/-- A round of `workerFunc`: the connection it is on, its id, the method the benchmark
is for, and the two numbers that `rand` has drawn. -/
structure Round (Conn : Type) where
  fd : Conn
  id : UInt64
  method : Bytes
  first : Nat
  second : Nat

variable {Conn : Type}

namespace Round

def a (round : Round Conn) : Int32 := Int32.ofNat (round.first % 1000)

def b (round : Round Conn) : Int32 := Int32.ofNat (round.second % 1000)

def args (round : Round Conn) : Bytes :=
  if round.method = asciiText "sub" then SubRequest.serialize ⟨some round.a, some round.b⟩
  else AddRequest.serialize ⟨some round.a, some round.b⟩

def request (round : Round Conn) : RpcRequest where
  serviceName := asciiText "math.MathService"
  methodName := if round.method = asciiText "sub" then asciiText "Sub" else asciiText "Add"
  args := round.args

/-- What the server should make of the round. -/
def extracted (round : Round Conn) : Extracted := ⟨round.id, round.request.serialize⟩

section
variable [LawfulProtobuf]

theorem args_length (round : Round Conn) : round.args.length ≤ 22 := by
  have short : (int32Field 1 (some round.a) ++ int32Field 2 (some round.b)).length ≤ 22 := by
    rw [List.length_append]
    exact Nat.add_le_add (int32Field_length_le (by decide) (by decide) _)
      (int32Field_length_le (by decide) (by decide) _)
  unfold args
  split
  · rw [SubRequest.serialize, serializeAsString_short short]
    exact short
  · rw [AddRequest.serialize, serializeAsString_short short]
    exact short

theorem internalSerialize_length (round : Round Conn) :
    0 < round.request.internalSerialize.length ∧ round.request.internalSerialize.length ≤ 47 := by
  have service : round.request.serviceName.length = 16 := rfl
  have method : round.request.methodName.length = 3 := by
    unfold request
    split <;> rfl
  have args : round.request.args.length ≤ 22 := round.args_length
  have above := optionalField_length_le 1 round.request.serviceName
  have first := @optionalField_length_short _ _ 1 (by decide) (by decide) _
    (show round.request.serviceName.length < 128 by omega)
  have second := @optionalField_length_short _ _ 2 (by decide) (by decide) _
    (show round.request.methodName.length < 128 by omega)
  have third := @optionalField_length_short _ _ 3 (by decide) (by decide) _
    (show round.request.args.length < 128 by omega)
  simp only [RpcRequest.internalSerialize, List.length_append]
  omega

/-- Every request of the benchmark can be exchanged. -/
theorem exchanged (round : Round Conn) : round.request.Exchanged := by
  obtain ⟨some_, short⟩ := round.internalSerialize_length
  have written : round.request.serialize = round.request.internalSerialize :=
    LawfulProtobuf.serializeAsString_within _ (short.trans (by decide))
  have service : validUtf8 (asciiText "math.MathService") := by decide
  have method : validUtf8 round.request.methodName := by
    unfold request
    split
    · exact show validUtf8 (asciiText "Sub") = true by decide
    · exact show validUtf8 (asciiText "Add") = true by decide
  refine ⟨?_, ?_, ?_⟩
  · rw [written]
    exact List.length_pos_iff.mp some_
  · rw [written]
    exact short.trans (by decide)
  · rw [written]
    exact RpcRequest.parse_internalSerialize service method (short.trans (by decide))

def frame (round : Round Conn) : Frame where
  id := round.id
  payload := round.request.serialize
  nonempty := round.exchanged.nonempty
  fits := round.exchanged.fits

end

end Round

/-- A response that has been counted as the answer to a round. -/
structure Counted (Conn : Type) where
  round : Round Conn
  respId : UInt64
  resp : RpcResponse

/-- Where a worker is: at the head of its loop, in `sendAll` with these bytes left, in one of the two
`readFully` with what it has read, or past the loop. -/
inductive Phase (Conn : Type)
  | idle
  | sending (round : Round Conn) (left : Bytes)
  | readingLength (round : Round Conn) (got : Bytes)
  | readingBody (round : Round Conn) (respLen : Nat) (got : Bytes)
  | closed

/-- A thread in `workerFunc`, with a record of what it has counted and of the connections
on which it has given up a round before its response was read whole. -/
structure Worker (Conn : Type) where
  fds : List Conn
  method : Bytes
  requestId : UInt64
  connIdx : Nat := 0
  phase : Phase Conn := .idle
  totalRequests : UInt64 := 0
  totalErrors : UInt64 := 0
  counted : List (Counted Conn) := []
  failed : List Conn := []

def Worker.new (threadId : Nat) (method : Bytes) (fds : List Conn) : Worker Conn where
  fds := fds
  method := method
  requestId := UInt64.ofNat threadId * 1000000

inductive Action (Conn : Type)
  | send (fd : Conn) (data : Bytes)
  | recv (fd : Conn) (data : Bytes)
  | inside

namespace Worker

/-- `continue` after a failed `sendAll` or `readFully`, or a length out of bounds. -/
def fail (w : Worker Conn) (fd : Conn) : Worker Conn :=
  { w with phase := .idle, totalErrors := w.totalErrors + 1, failed := fd :: w.failed }

/-- The length of a response that has been read. -/
def takeLength (w : Worker Conn) (round : Round Conn) (netLen : Bytes) : Worker Conn :=
  let respLen := (ntohl (loadWord netLen)).toNat
  if respLen < 8 ∨ respLen > 64 * 1024 * 1024 then w.fail round.fd
  else { w with phase := .readingBody round respLen [] }

/-- A response that has been read. It is counted if it parses, whatever its id. -/
def takeBody (w : Worker Conn) (round : Round Conn) (respBuf : Bytes) : Worker Conn :=
  let respId := RpcCodec.ntohll (loadLong respBuf)
  match RpcResponse.parse (respBuf.drop 8) with
  | none => { w with phase := .idle, totalErrors := w.totalErrors + 1 }
  | some resp =>
    { w with
      phase := .idle
      totalRequests := w.totalRequests + 1
      counted := w.counted ++ [⟨round, respId, resp⟩] }

/-- The steps of a worker. A call of `send` or `recv` moves any part of what is left, and
until nothing is left it may fail, as may the `poll` before a `recv`. -/
inductive Step : Worker Conn → Action Conn → Worker Conn → Prop
  | start {w : Worker Conn} {fd : Conn} (first second : Nat) (idle : w.phase = .idle)
      (chosen : w.fds[w.connIdx % w.fds.length]? = some fd) :
      Step w .inside
        { w with
          connIdx := w.connIdx + 1
          requestId := w.requestId + 1
          phase := .sending ⟨fd, w.requestId, w.method, first, second⟩
            (RpcCodec.packWithId w.requestId (Round.request ⟨fd, w.requestId, w.method, first, second⟩).serialize) }
  | send {w : Worker Conn} {round : Round Conn} {data left : Bytes} (some : data ≠ [])
      (sending : w.phase = .sending round (data ++ left)) :
      Step w (.send round.fd data) { w with phase := .sending round left }
  | sendFails {w : Worker Conn} {round : Round Conn} {left : Bytes} (some : left ≠ [])
      (sending : w.phase = .sending round left) : Step w .inside (w.fail round.fd)
  | sent {w : Worker Conn} {round : Round Conn} (sending : w.phase = .sending round []) :
      Step w .inside { w with phase := .readingLength round [] }
  | recvLength {w : Worker Conn} {round : Round Conn} {got data : Bytes} (some : data ≠ [])
      (within : got.length + data.length ≤ 4) (reading : w.phase = .readingLength round got) :
      Step w (.recv round.fd data) { w with phase := .readingLength round (got ++ data) }
  | lengthFails {w : Worker Conn} {round : Round Conn} {got : Bytes} (short : got.length < 4)
      (reading : w.phase = .readingLength round got) : Step w .inside (w.fail round.fd)
  | length {w : Worker Conn} {round : Round Conn} {got : Bytes} (whole : got.length = 4)
      (reading : w.phase = .readingLength round got) : Step w .inside (w.takeLength round got)
  | recvBody {w : Worker Conn} {round : Round Conn} {respLen : Nat} {got data : Bytes} (some : data ≠ [])
      (within : got.length + data.length ≤ respLen) (reading : w.phase = .readingBody round respLen got) :
      Step w (.recv round.fd data) { w with phase := .readingBody round respLen (got ++ data) }
  | bodyFails {w : Worker Conn} {round : Round Conn} {respLen : Nat} {got : Bytes} (short : got.length < respLen)
      (reading : w.phase = .readingBody round respLen got) : Step w .inside (w.fail round.fd)
  | body {w : Worker Conn} {round : Round Conn} {respLen : Nat} {got : Bytes} (whole : got.length = respLen)
      (reading : w.phase = .readingBody round respLen got) : Step w .inside (w.takeBody round got)
  | stop {w : Worker Conn} (idle : w.phase = .idle) : Step w .inside { w with phase := .closed }

end Worker
end Benchmark
end ReactorRpc
