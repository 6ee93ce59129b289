import ReactorRpc.ClientStream

namespace ReactorRpc
open Streams

/-- The longest result that leaves room in a frame for its tag and its length. -/
def maxResult : Nat := maxPayload - 5

/-- The longest `what()` that leaves room for the error code, the tag and the
length of the error text, and the text put in front of it. -/
def maxWhat : Nat := maxPayload - 26

variable {Call Msg Env : Type}

/-- The outcomes of a handler whose response can reach the caller. -/
def OutcomeFits (service : Service Msg Env) : HandlerOutcome Msg → Prop
  | .returned response =>
    service.serialize response ≠ [] ∧ (service.serialize response).length ≤ maxResult
  | .threw what => validUtf8 what ∧ what.length ≤ maxWhat
  | .threwOther => True

/-- If the request gets as far as a handler, its outcome fits. -/
def RequestFits (registry : RpcServiceRegistry Msg Env) (request : RpcRequest) (env : Env) : Prop :=
  ∀ service method reqMsg, registry.findService request.serviceName = some service →
    service.findMethodByName request.methodName = some method →
    service.parseArgs method request.args = some reqMsg →
    OutcomeFits service (service.callMethod method reqMsg env)

section Delivery
variable [Protobuf]

/-- The responses that survive serialising, framing, unpacking and parsing. -/
structure RpcResponse.Delivers (rsp : RpcResponse) : Prop where
  written : rsp.internalSerialize ≠ []
  fits : rsp.internalSerialize.length ≤ maxPayload
  text : validUtf8 rsp.errorMsg

namespace RpcChannel

/-- A call is pending under an id when `onRpcResponse` looks for it. -/
def PendingAt (between : Pending Call → Pending Call) (tables : Pending Call) (id : UInt64)
    (call : Call) : Prop :=
  tables.pendingSync id = some call ∨
    tables.pendingSync id = none ∧ (between tables).pendingAsync id = some call

/-- The call's promise has been set, or its callback run, with this response. -/
def Completes (id : UInt64) (call : Call) (rsp : RpcResponse) (out : Option (Processed Call)) : Prop :=
  out = some ⟨id, rsp, .promiseSet call⟩ ∨ out = some ⟨id, rsp, .doneRun call (callResult rsp)⟩

theorem unpackResponse_pack {buf : ConnBuffer} {id : UInt64} {payload : Bytes}
    (alone : buf.contents = RpcCodec.packWithId id payload) (small : payload.length ≤ maxMessage) :
    (unpackResponse buf).1 = if payload = [] ∨ maxPayload < payload.length then none
      else (RpcResponse.parse payload).map fun rsp => (id, rsp) := by
  have spec := tryUnpackWithId_spec buf.property 0
  rw [show buf.val.contents = RpcCodec.packWithId id payload ++ [] by
    rw [List.append_nil]; exact alone] at spec
  simp only [unpackResponse, ConnBuffer.tryUnpackWithId]
  by_cases large : maxPayload < payload.length
  · have bound : 8 + payload.length < 2 ^ 32 := by
      simp only [maxMessage] at small
      omega
    simp only [decodeFrame_oversize large bound] at spec
    simp only [spec, large, or_true, if_true]
  · simp only [decodeFrame_pack (Nat.le_of_not_lt large)] at spec
    simp only [spec, large, or_false]
    split <;> rfl

/-- What `onRpcResponse` processes is the response it has unpacked. -/
theorem onRpcResponse_some {between : Pending Call → Pending Call} {tables : Pending Call}
    {buf : ConnBuffer} {processed : Processed Call}
    (ran : (onRpcResponse between tables buf).1 = some processed) :
    (unpackResponse buf).1 = some (processed.id, processed.rsp) := by
  unfold onRpcResponse at ran
  generalize unpackResponse buf = out at ran ⊢
  obtain ⟨_ | ⟨id, rsp⟩, rest⟩ := out
  · cases ran
  · dsimp only at ran
    cases sync : tables.pendingSync id with
    | some call =>
      rw [sync] at ran
      cases ran
      rfl
    | none =>
      rw [sync] at ran
      dsimp only at ran
      cases async : (between tables).pendingAsync id with
      | some call =>
        rw [async] at ran
        cases ran
        rfl
      | none =>
        rw [async] at ran
        cases ran
        rfl

/-- A pending call is completed exactly when its response can be unpacked. -/
theorem completes_iff {between : Pending Call → Pending Call} {tables : Pending Call}
    {buf : ConnBuffer} {id : UInt64} {call : Call} (pending : PendingAt between tables id call)
    (rsp : RpcResponse) :
    Completes id call rsp (onRpcResponse between tables buf).1 ↔
      (unpackResponse buf).1 = some (id, rsp) := by
  constructor
  · intro completes
    rcases completes with set | run
    · exact onRpcResponse_some set
    · exact onRpcResponse_some run
  · intro unpacked
    unfold onRpcResponse
    generalize unpackResponse buf = out at unpacked ⊢
    obtain ⟨front, rest⟩ := out
    cases unpacked
    rcases pending with sync | ⟨noSync, async⟩
    · simp only [sync]
      exact .inl rfl
    · simp only [noSync, async]
      exact .inr rfl

end RpcChannel

variable [LawfulProtobuf]

namespace RpcResponse

theorem serialize_length (rsp : RpcResponse) : rsp.serialize.length ≤ maxMessage := by
  by_cases within : rsp.internalSerialize.length ≤ maxMessage
  · rwa [serialize, LawfulProtobuf.serializeAsString_within _ within]
  · rw [serialize, LawfulProtobuf.serializeAsString_beyond _ (Nat.lt_of_not_le within)]
    exact Nat.zero_le _

theorem parse_eq_self_iff {rsp : RpcResponse} (fits : rsp.internalSerialize.length ≤ maxPayload) :
    parse rsp.internalSerialize = some rsp ↔ validUtf8 rsp.errorMsg := by
  have within : rsp.internalSerialize.length ≤ maxDelimited := by
    simp only [maxPayload, maxFrame, maxDelimited] at fits ⊢
    omega
  constructor
  · intro parsed
    by_contra invalid
    rw [parse_invalid_text (Bool.eq_false_iff.mpr invalid) within] at parsed
    cases parsed
  · intro text
    exact parse_internalSerialize text within

/-- A response completes a pending call exactly when its wire form is not
empty, fits into a frame and carries a valid text. -/
theorem delivers_iff {buf : ConnBuffer} {id : UInt64} {rsp : RpcResponse}
    (alone : buf.contents = RpcCodec.packWithId id rsp.serialize) :
    (RpcChannel.unpackResponse buf).1 = some (id, rsp) ↔ rsp.Delivers := by
  rw [RpcChannel.unpackResponse_pack alone rsp.serialize_length]
  by_cases fits : rsp.internalSerialize.length ≤ maxPayload
  · have whole : rsp.serialize = rsp.internalSerialize :=
      LawfulProtobuf.serializeAsString_within _ (by simp only [maxPayload, maxFrame, maxMessage] at fits ⊢; omega)
    rw [whole]
    by_cases written : rsp.internalSerialize = []
    · rw [if_pos (.inl written)]
      exact iff_of_false (by simp) (fun delivers => delivers.written written)
    · rw [if_neg (by simp only [not_or, written, not_false_iff, true_and]; omega)]
      have text := parse_eq_self_iff fits
      constructor
      · intro parsed
        obtain ⟨found, parse, same⟩ := Option.map_eq_some_iff.mp parsed
        cases same
        exact ⟨written, fits, text.mp parse⟩
      · intro delivers
        rw [text.mpr delivers.text, Option.map_some]
  · rw [if_pos]
    · exact iff_of_false (by simp) (fun delivers => fits delivers.fits)
    · by_cases whole : rsp.internalSerialize.length ≤ maxMessage
      · have same : rsp.serialize = rsp.internalSerialize := LawfulProtobuf.serializeAsString_within _ whole
        exact .inr (by rw [same]; omega)
      · exact .inl (LawfulProtobuf.serializeAsString_beyond _ (Nat.lt_of_not_le whole))

/-- Where a field comes near the limit, its length takes four bytes. -/
theorem delimited_fits_iff {number : Nat} (positive : 0 < number) (low : number < 16) (bs : Bytes) {extra : Nat}
    (small : extra ≤ 2) :
    (Protobuf.writeDelimited number bs).length + extra ≤ maxPayload ↔ bs.length + 5 + extra ≤ maxPayload := by
  by_cases fits : bs.length ≤ maxDelimited
  · simp only [LawfulProtobuf.writeDelimited_eq number bs positive low fits, List.length_cons, List.length_append,
      maxPayload, maxFrame]
    by_cases short : bs.length < 128 ^ 3
    · have prefixed : (varint 4 bs.length).length ≤ 3 := varint_length_le (by omega) short
      omega
    · have least : 4 ≤ (varint 4 bs.length).length := varint_length_ge (by omega) (Nat.le_of_not_lt short)
      by_cases long : bs.length < 128 ^ 4
      · have prefixed : (varint 4 bs.length).length ≤ 4 := varint_length_le (by omega) long
        omega
      · omega
  · have least := LawfulProtobuf.writeDelimited_length number bs
    simp only [maxDelimited, maxPayload, maxFrame] at fits ⊢
    omega

theorem delivers_result_iff (result : Bytes) :
    ({ errorCode := ErrorCode.NO_ERROR, result := result } : RpcResponse).Delivers ↔
      result ≠ [] ∧ result.length ≤ maxResult := by
  have wire : ({ errorCode := ErrorCode.NO_ERROR, result := result } : RpcResponse).internalSerialize =
      optionalField 3 result := rfl
  have room : (Protobuf.writeDelimited 3 result).length ≤ maxPayload ↔ result.length ≤ maxResult := by
    have near := delimited_fits_iff (show 0 < 3 by decide) (by decide) result (Nat.zero_le 2)
    simp only [maxResult, maxPayload, maxFrame] at near ⊢
    omega
  by_cases empty : result = []
  · refine iff_of_false ?_ (fun fits => fits.1 empty)
    intro delivers
    exact delivers.written (wire.trans (if_pos empty))
  · have field := wire.trans (if_neg empty)
    have size := congrArg List.length field
    constructor
    · intro delivers
      exact ⟨empty, room.mp (size.symm.le.trans delivers.fits)⟩
    · rintro ⟨_, fits⟩
      refine ⟨?_, size.le.trans (room.mpr fits), rfl⟩
      rw [field]
      exact List.ne_nil_of_length_pos
        ((List.length_pos_iff.mpr empty).trans_le (LawfulProtobuf.writeDelimited_length 3 result))

theorem delivers_error_iff {text : Bytes} (nonempty : text ≠ []) :
    ({ errorCode := ErrorCode.INTERNAL_ERROR, errorMsg := text } : RpcResponse).Delivers ↔
      validUtf8 text ∧ text.length + 7 ≤ maxPayload := by
  have wire : ({ errorCode := ErrorCode.INTERNAL_ERROR, errorMsg := text } : RpcResponse).internalSerialize =
      8 :: 5 :: Protobuf.writeDelimited 2 text := by
    have code : Protobuf.writeInt32 1 5 = [8, 5] := LawfulProtobuf.writeInt32_eq 1 5 (by decide) (by decide)
    simp [internalSerialize, optionalField, nonempty, ErrorCode.INTERNAL_ERROR, code]
  have size := congrArg List.length wire
  have room := delimited_fits_iff (show 0 < 2 by decide) (by decide) text (le_refl 2)
  constructor
  · rintro ⟨_, fits, valid⟩
    exact ⟨valid, room.mp (size.symm.le.trans fits)⟩
  · rintro ⟨valid, fits⟩
    refine ⟨?_, size.le.trans (room.mpr fits), valid⟩
    rw [wire]
    exact List.cons_ne_nil _ _

/-- A response that carries an error code alone always arrives. -/
theorem delivers_code {code : ErrorCode} (failed : code ≠ 0) :
    ({ errorCode := code } : RpcResponse).Delivers := by
  have wire : ({ errorCode := code } : RpcResponse).internalSerialize = 8 :: varint 9 (signExtend code) := by
    simp [internalSerialize, optionalField, failed, LawfulProtobuf.writeInt32_eq]
  have bound := signExtend_lt code
  have short : (varint 9 (signExtend code)).length ≤ 10 := varint_length_le (le_refl 9) (by omega)
  refine ⟨?_, ?_, rfl⟩
  · rw [wire]
    exact List.cons_ne_nil _ _
  · simp only [wire, List.length_cons, maxPayload, maxFrame]
    omega

end RpcResponse

theorem respond_delivers_iff (service : Service Msg Env) (outcome : HandlerOutcome Msg) :
    (respond service outcome).Delivers ↔ OutcomeFits service outcome := by
  cases outcome with
  | returned response => exact RpcResponse.delivers_result_iff _
  | threw what =>
    have nonempty : asciiText "Service exception: " ++ what ≠ [] :=
      List.append_ne_nil_of_left_ne_nil (by decide) _
    have text : validUtf8 (asciiText "Service exception: " ++ what) = validUtf8 what :=
      validUtf8_ascii_append (by simp [asciiText]) what
    have size : (asciiText "Service exception: ").length = 19 := by decide
    have room := RpcResponse.delivers_error_iff nonempty
    have bound : 19 + what.length + 7 ≤ maxPayload ↔ what.length ≤ maxWhat := by
      simp only [maxWhat, maxPayload, maxFrame]
      omega
    rw [text, List.length_append, size, bound] at room
    exact room
  | threwOther =>
    have room := @RpcResponse.delivers_error_iff _ _ (asciiText "Unknown service exception") (by decide)
    exact iff_of_true (room.mpr ⟨by decide, by decide⟩) trivial

namespace RpcServer

/-- Whatever becomes of a request, its response can arrive exactly when the
handler, if one is reached, ends with an outcome that fits. -/
theorem dispatchRequest_delivers_iff (registry : RpcServiceRegistry Msg Env) (request : RpcRequest)
    (env : Env) :
    (dispatchRequest registry request env).Delivers ↔ RequestFits registry request env := by
  cases known : registry.findService request.serviceName with
  | none =>
    have reply : dispatchRequest registry request env = { errorCode := ErrorCode.NO_SERVICE } := by
      simp only [dispatchRequest, known]
    rw [reply]
    refine iff_of_true (RpcResponse.delivers_code (by decide)) ?_
    intro _ _ _ found
    rw [known] at found
    cases found
  | some service =>
    cases declared : service.findMethodByName request.methodName with
    | none =>
      have reply : dispatchRequest registry request env = { errorCode := ErrorCode.NO_METHOD } := by
        simp only [dispatchRequest, known, declared]
      rw [reply]
      refine iff_of_true (RpcResponse.delivers_code (by decide)) ?_
      intro _ _ _ same found
      cases known.symm.trans same
      cases declared.symm.trans found
    | some method =>
      cases parsed : service.parseArgs method request.args with
      | none =>
        have reply : dispatchRequest registry request env = { errorCode := ErrorCode.INVALID_ARGUMENT } := by
          simp only [dispatchRequest, known, declared, parsed]
        rw [reply]
        refine iff_of_true (RpcResponse.delivers_code (by decide)) ?_
        intro _ _ _ same found parse
        cases known.symm.trans same
        cases declared.symm.trans found
        cases parsed.symm.trans parse
      | some reqMsg =>
        have reply : dispatchRequest registry request env =
            respond service (service.callMethod method reqMsg env) := by
          simp only [dispatchRequest, known, declared, parsed]
        rw [reply, respond_delivers_iff]
        constructor
        · intro fits _ _ _ same found parse
          cases known.symm.trans same
          cases declared.symm.trans found
          cases parsed.symm.trans parse
          exact fits
        · intro fits
          exact fits service method reqMsg known declared parsed

end RpcServer

namespace RpcChannel

/-- The frame a server answers a request with, alone in the client's buffer,
completes the call pending under its id with the server's response exactly when
the outcome of the request fits. -/
theorem outcome_reaches_caller_iff (registry : RpcServiceRegistry Msg Env) (request : RpcRequest)
    (env : Env) (id : UInt64) (call : Call) (between : Pending Call → Pending Call)
    (tables : Pending Call) (buf : ConnBuffer) (pending : PendingAt between tables id call)
    (alone : buf.contents = RpcCodec.packWithId id
      (RpcServer.dispatchRequest registry request env).serialize) :
    Completes id call (RpcServer.dispatchRequest registry request env)
        (onRpcResponse between tables buf).1 ↔
      RequestFits registry request env := by
  rw [completes_iff pending, RpcResponse.delivers_iff alone, RpcServer.dispatchRequest_delivers_iff]

end RpcChannel
end Delivery

namespace RpcChannel

/-- A service with one method, which takes any arguments and ends the same way
each time; its messages are their own wire form. -/
def constantService (outcome : HandlerOutcome Bytes) : Service Bytes Unit where
  fullName := asciiText "Echo"
  findMethodByName name := if name = asciiText "call" then some ⟨name⟩ else none
  parseArgs _ args := some args
  callMethod _ _ _ := outcome
  serialize response := response

def constantRegistry (outcome : HandlerOutcome Bytes) : RpcServiceRegistry Bytes Unit :=
  RpcServiceRegistry.empty.registerService (constantService outcome)

def echoRequest : RpcRequest := { serviceName := asciiText "Echo", methodName := asciiText "call" }

theorem dispatchRequest_constant (outcome : HandlerOutcome Bytes) :
    RpcServer.dispatchRequest (constantRegistry outcome) echoRequest () =
      respond (constantService outcome) outcome := by
  have known : (constantRegistry outcome).findService echoRequest.serviceName =
      some (constantService outcome) :=
    RpcServiceRegistry.findService_registerService _ (constantService outcome)
  simp only [RpcServer.dispatchRequest, known]
  rfl

/-- A client buffer that holds exactly the bytes of one read. -/
def bufferOf (data : Bytes) : ConnBuffer := ConnBuffer.new.readFd (.ok data)

@[simp] theorem bufferOf_contents (data : Bytes) : (bufferOf data).contents = data := by
  rw [bufferOf, ConnBuffer.contents_readFd_ok, ConnBuffer.contents_new, List.nil_append]

open Protobuf.Sample

theorem outcome_reaches_caller_returned :
    let rsp := RpcServer.dispatchRequest (constantRegistry (.returned [1, 2])) echoRequest ()
    Completes 3 () rsp (onRpcResponse id ⟨fun _ => some (), fun _ => none⟩
      (bufferOf (RpcCodec.packWithId 3 rsp.serialize))).1 := by
  intro rsp
  refine (outcome_reaches_caller_iff _ _ _ _ _ _ _ _ (.inl rfl) (bufferOf_contents _)).mpr ?_
  intro service method reqMsg found _ _
  have known := RpcServiceRegistry.findService_registerService RpcServiceRegistry.empty
    (constantService (.returned [1, 2]))
  cases known.symm.trans found
  exact ⟨by decide, by decide⟩

/-- A handler that returns a message of zero bytes: the frame that carries its
response is taken for no frame at all. -/
theorem outcome_empty_result_lost :
    let rsp := RpcServer.dispatchRequest (constantRegistry (.returned [])) echoRequest ()
    ¬Completes 3 () rsp (onRpcResponse id ⟨fun _ => some (), fun _ => none⟩
      (bufferOf (RpcCodec.packWithId 3 rsp.serialize))).1 := by
  intro rsp
  have reply : rsp = {} := dispatchRequest_constant _
  rw [completes_iff (.inl rfl), RpcResponse.delivers_iff (bufferOf_contents _), reply]
  intro delivers
  exact delivers.written rfl

end RpcChannel
end ReactorRpc
