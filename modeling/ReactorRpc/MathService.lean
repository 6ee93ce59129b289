import ReactorRpc.MathMessages
import ReactorRpc.Reflection

namespace ReactorRpc.Math
open Streams Reflection

section MathService
variable [Protobuf]

inductive MessageType
  | AddRequest
  | AddResponse
  | SubRequest
  | SubResponse
  deriving DecidableEq

/-- A message of any of the types, with its dynamic type. -/
inductive Message
  | addRequest (msg : AddRequest)
  | addResponse (msg : AddResponse)
  | subRequest (msg : SubRequest)
  | subResponse (msg : SubResponse)
  deriving DecidableEq

/-- What a parser that fails leaves in a new message. -/
structure Leftovers where
  addRequest : Bytes → AddRequest := fun _ => {}
  addResponse : Bytes → AddResponse := fun _ => {}
  subRequest : Bytes → SubRequest := fun _ => {}
  subResponse : Bytes → SubResponse := fun _ => {}

namespace Message

def type : Message → MessageType
  | addRequest _ => .AddRequest
  | addResponse _ => .AddResponse
  | subRequest _ => .SubRequest
  | subResponse _ => .SubResponse

/-- The message that a parser fills in or leaves. -/
def filled {M : Type} (make : M → Message) (left : M) : Option M → Except Message Message
  | some msg => .ok (make msg)
  | none => .error (make left)

def parseFromString (left : Leftovers) (bs : Bytes) : Message → Except Message Message
  | addRequest _ => filled addRequest (left.addRequest bs) (AddRequest.parse bs)
  | addResponse _ => filled addResponse (left.addResponse bs) (AddResponse.parse bs)
  | subRequest _ => filled subRequest (left.subRequest bs) (SubRequest.parse bs)
  | subResponse _ => filled subResponse (left.subResponse bs) (SubResponse.parse bs)

def serializeAsString : Message → Bytes
  | addRequest msg => msg.serialize
  | addResponse msg => msg.serialize
  | subRequest msg => msg.serialize
  | subResponse msg => msg.serialize

/-- The `dynamic_cast`s to a pointer, null for a message of another type. -/
def asAddRequest : Message → Option AddRequest
  | addRequest msg => some msg
  | _ => none

def asAddResponse : Message → Option AddResponse
  | addResponse msg => some msg
  | _ => none

def asSubRequest : Message → Option SubRequest
  | subRequest msg => some msg
  | _ => none

def asSubResponse : Message → Option SubResponse
  | subResponse msg => some msg
  | _ => none

end Message

/-- A method in the descriptor of `MathService`, with its types. -/
structure MethodTypes where
  name : Bytes
  input : MessageType
  output : MessageType
  deriving DecidableEq

def descriptor : List MethodTypes :=
  [⟨asciiText "Add", .AddRequest, .AddResponse⟩, ⟨asciiText "Sub", .SubRequest, .SubResponse⟩]

namespace MathServiceImpl

def add (request : Option AddRequest) (response : Option AddResponse) : Ending Message :=
  match request, response with
  | some request, some response =>
    .completed (.returned (.addResponse { response with sum := some (request.a.getD 0 + request.b.getD 0) }))
  | _, _ => .nullDereference

def sub (request : Option SubRequest) (response : Option SubResponse) : Ending Message :=
  match request, response with
  | some request, some response =>
    .completed (.returned (.subResponse { response with diff := some (request.a.getD 0 - request.b.getD 0) }))
  | _, _ => .nullDereference

def callMethod (method : MethodDescriptor) (request response : Message) : Ending Message :=
  if method.name = asciiText "Add" then add request.asAddRequest response.asAddResponse
  else if method.name = asciiText "Sub" then sub request.asSubRequest response.asSubResponse
  else .completed (.returned response)

def getRequestPrototype (_ : MethodDescriptor) : Message := .addRequest {}

def getResponsePrototype (_ : MethodDescriptor) : Message := .addResponse {}

end MathServiceImpl

/-- The object of `MathServiceImpl` as the dispatchers see it. Its handlers run the
closure they are given, which does nothing. -/
def MathServiceImpl {Env : Type} (left : Leftovers) : Reflection.Service Message Env where
  fullName := asciiText "math.MathService"
  findMethodByName name := (descriptor.find? fun types => types.name = name).map fun types => ⟨types.name⟩
  getRequestPrototype := MathServiceImpl.getRequestPrototype
  getResponsePrototype := MathServiceImpl.getResponsePrototype
  parseFromString msg bs := msg.parseFromString left bs
  callMethod method request response _ _ := MathServiceImpl.callMethod method request response
  serializeAsString := Message.serializeAsString

/-- The numbers in the arguments of a method. -/
def operands (types : MethodTypes) (args : Bytes) : Option (Int32 × Int32) :=
  match types.input with
  | .AddRequest => (AddRequest.parse args).map fun msg => (msg.a.getD 0, msg.b.getD 0)
  | .SubRequest => (SubRequest.parse args).map fun msg => (msg.a.getD 0, msg.b.getD 0)
  | _ => none

/-- What a method is to compute, over the integers. -/
def exact (types : MethodTypes) (a b : Int32) : Int :=
  if types.name = asciiText "Add" then a.toInt + b.toInt else a.toInt - b.toInt

/-- The number in the result of a method. -/
def replied (types : MethodTypes) (result : Bytes) : Option Int32 :=
  match types.output with
  | .AddResponse => (AddResponse.parse result).bind AddResponse.sum
  | .SubResponse => (SubResponse.parse result).bind SubResponse.diff
  | _ => none

/-- The handler is given messages of the types of its method and meets no null
pointer, and where the exact number is an `int32` the reply has it. -/
structure Correct (types : MethodTypes) (a b : Int32) (dispatched : Dispatched Message) : Prop where
  handler : ∃ call, dispatched.invocation = some call ∧ call.method.name = types.name ∧
    call.request.type = types.input ∧ call.response.type = types.output
  pointers : dispatched.result ≠ .nullDereference
  reply : -2 ^ 31 ≤ exact types a b → exact types a b < 2 ^ 31 →
    ∃ rsp value, dispatched.result = .returned rsp ∧ rsp.errorCode = ErrorCode.NO_ERROR ∧
      replied types rsp.result = some value ∧ value.toInt = exact types a b

section
variable {Env : Type} {left : Leftovers} {registry : ServiceRegistry Message Env} {request : RpcRequest}
  {msg : AddRequest}

/-- A request for a method gets to its handler with an `AddRequest`, unless it is refused. -/
theorem dispatchRequest_math (registered : registry.findService request.serviceName = some (MathServiceImpl left))
    {types : MethodTypes} (method : types ∈ descriptor) (named : request.methodName = types.name) (env : Env) :
    Reflection.RpcServer.dispatchRequest registry request env =
      match AddRequest.parse request.args with
      | none => { result := .returned { errorCode := ErrorCode.INVALID_ARGUMENT } }
      | some msg =>
        { invocation := some ⟨⟨types.name⟩, .addRequest msg, .addResponse {}, true⟩
          result := @Reflection.RpcServer.respond _ Env (MathServiceImpl left)
            (MathServiceImpl.callMethod ⟨types.name⟩ (.addRequest msg) (.addResponse {})) } := by
  have found : (@MathServiceImpl _ Env left).findMethodByName types.name = some ⟨types.name⟩ := by
    rcases List.mem_cons.mp method with rfl | other
    · rfl
    · rw [List.mem_singleton.mp other]
      rfl
  rw [Reflection.RpcServer.dispatchRequest, registered, named]
  simp only [found]
  simp only [MathServiceImpl, MathServiceImpl.getRequestPrototype, Message.parseFromString]
  cases AddRequest.parse request.args <;> rfl

variable [LawfulProtobuf]

/-- Any two numbers can be sent. -/
theorem operands_serialize (a b : Int32) :
    operands ⟨asciiText "Add", .AddRequest, .AddResponse⟩ (AddRequest.serialize ⟨some a, some b⟩) =
      some (a, b) := by
  simp only [operands, AddRequest.parse_serialize]
  rfl

omit [Protobuf] [LawfulProtobuf] in
/-- The sum that `Add` replies, which is the exact one if that is an `int32`. -/
theorem toInt_add_exact {a b : Int32} (low : -2 ^ 31 ≤ a.toInt + b.toInt) (high : a.toInt + b.toInt < 2 ^ 31) :
    (a + b).toInt = a.toInt + b.toInt := by
  rw [Int32.toInt_add]
  exact Int.bmod_eq_of_le_mul_two (by omega) (by omega)

/-- On arguments that parse, a method of the service is dispatched correctly exactly if it is `Add`. -/
theorem dispatch_correct_iff
    (registered : registry.findService request.serviceName = some (MathServiceImpl left))
    {types : MethodTypes} (method : types ∈ descriptor) (named : request.methodName = types.name)
    {a b : Int32} (parsed : operands types request.args = some (a, b)) (env : Env) :
    Correct types a b (Reflection.RpcServer.dispatchRequest registry request env) ↔
      types.name = asciiText "Add" := by
  rw [dispatchRequest_math registered method named]
  rcases List.mem_cons.mp method with rfl | other
  · refine iff_of_true ?_ rfl
    obtain ⟨msg, read, numbers⟩ := Option.map_eq_some_iff.mp parsed
    cases numbers
    rw [read]
    refine ⟨⟨_, rfl, rfl, rfl, rfl⟩, fun same => (nomatch same), fun low high => ?_⟩
    have exact_ : exact ⟨asciiText "Add", .AddRequest, .AddResponse⟩ (msg.a.getD 0) (msg.b.getD 0) =
        (msg.a.getD 0).toInt + (msg.b.getD 0).toInt := if_pos rfl
    rw [exact_] at low high ⊢
    refine ⟨_, _, rfl, rfl, ?_, toInt_add_exact low high⟩
    exact congrArg (·.bind AddResponse.sum) (AddResponse.parse_serialize _)
  · obtain rfl := List.mem_singleton.mp other
    refine iff_of_false (fun correct => ?_) (by decide)
    obtain ⟨call, called, _, type, _⟩ := correct.handler
    cases read : AddRequest.parse request.args with
    | none =>
      rw [read] at called
      cases called
    | some msg =>
      rw [read] at called
      cases called
      cases type

end
end MathService

open Protobuf.Sample

/-- A registry with the service, and 3 + 4. -/
theorem dispatch_correct_add : ∃ rsp value, (Reflection.RpcServer.dispatchRequest
      (ServiceRegistry.empty.registerService (MathServiceImpl {}))
      ⟨asciiText "math.MathService", asciiText "Add", AddRequest.serialize ⟨some 3, some 4⟩⟩ ()).result =
        .returned rsp ∧ rsp.errorCode = ErrorCode.NO_ERROR ∧
      (AddResponse.parse rsp.result).bind AddResponse.sum = some value ∧ value.toInt = 7 := by
  have registered := ServiceRegistry.findService_registerService .empty (@MathServiceImpl _ Unit {})
  have correct := (@dispatch_correct_iff _ Unit {} _ ⟨_, asciiText "Add", _⟩ _ registered _
    (List.mem_cons_self ..) rfl 3 4 (operands_serialize 3 4) ()).mpr rfl
  exact correct.reply (by decide) (by decide)

/-- 5 - 3 ends at a null pointer. -/
theorem sub_null : ¬∀ (left : Leftovers) (registry : ServiceRegistry Message Unit) (request : RpcRequest)
    (types : MethodTypes) (a b : Int32),
    registry.findService request.serviceName = some (MathServiceImpl left) → types ∈ descriptor →
    request.methodName = types.name → operands types request.args = some (a, b) →
    Correct types a b (Reflection.RpcServer.dispatchRequest registry request ()) := by
  intro correct
  let types : MethodTypes := ⟨asciiText "Sub", .SubRequest, .SubResponse⟩
  have method : types ∈ descriptor := List.mem_cons_of_mem _ (List.mem_singleton_self _)
  have registered := ServiceRegistry.findService_registerService .empty (@MathServiceImpl _ Unit {})
  have here := correct {} _ ⟨_, asciiText "Sub", [8, 5, 16, 3]⟩ types 5 3 registered method rfl (by decide)
  rw [dispatchRequest_math registered method rfl] at here
  exact here.pointers rfl

end ReactorRpc.Math
