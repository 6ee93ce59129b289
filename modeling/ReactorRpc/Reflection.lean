import ReactorRpc.Dispatch

namespace ReactorRpc.Reflection
open Streams

/-- How a call of `CallMethod` ends: like a business method, or at a null pointer. -/
inductive Ending (Msg : Type)
  | completed (outcome : HandlerOutcome Msg)
  | nullDereference

/-- A `google::protobuf::Service` with the messages that reflection makes for it, all
of them values of `Msg`. -/
structure Service (Msg Env : Type) where
  fullName : Bytes
  findMethodByName : Bytes → Option MethodDescriptor
  getRequestPrototype : MethodDescriptor → Msg
  getResponsePrototype : MethodDescriptor → Msg
  /-- `ParseFromString` on a new message of the type of the first: when it fails, the
  message is left with something in it. -/
  parseFromString : Msg → Bytes → Except Msg Msg
  /-- It is given a closure to run or not. -/
  callMethod : MethodDescriptor → Msg → Msg → Bool → Env → Ending Msg
  serializeAsString : Msg → Bytes

def ServiceRegistry (Msg Env : Type) := Bytes → Option (Service Msg Env)

/-- A call of a handler, and whether the bytes of its request message had parsed. -/
structure Invocation (Msg : Type) where
  method : MethodDescriptor
  request : Msg
  response : Msg
  parsed : Bool

/-- How a dispatcher ends. -/
inductive Result
  | returned (rsp : RpcResponse)
  | threw
  | nullDereference
  deriving DecidableEq

/-- What a dispatcher does: the call of a handler, if it makes one, and how it ends. -/
structure Dispatched (Msg : Type) where
  invocation : Option (Invocation Msg) := none
  result : Result

variable {Msg Env : Type}

namespace ServiceRegistry

def empty : ServiceRegistry Msg Env := fun _ => none

def registerService (registry : ServiceRegistry Msg Env) (service : Service Msg Env) :
    ServiceRegistry Msg Env :=
  Function.update registry service.fullName (some service)

def findService (registry : ServiceRegistry Msg Env) (name : Bytes) : Option (Service Msg Env) :=
  registry name

theorem findService_registerService (registry : ServiceRegistry Msg Env) (service : Service Msg Env) :
    (registry.registerService service).findService service.fullName = some service :=
  dif_pos rfl

end ServiceRegistry

/-- The part of `dispatchRequest` of `RpcServer` from the `try` on. -/
def RpcServer.respond (service : Service Msg Env) : Ending Msg → Result
  | .completed (.returned respMsg) =>
    .returned { errorCode := ErrorCode.NO_ERROR, result := service.serializeAsString respMsg }
  | .completed (.threw what) =>
    .returned
      { errorCode := ErrorCode.INTERNAL_ERROR, errorMsg := asciiText "Service exception: " ++ what }
  | .completed .threwOther =>
    .returned { errorCode := ErrorCode.INTERNAL_ERROR, errorMsg := asciiText "Unknown service exception" }
  | .nullDereference => .nullDereference

def RpcServer.dispatchRequest (registry : ServiceRegistry Msg Env) (request : RpcRequest) (env : Env) :
    Dispatched Msg :=
  match registry.findService request.serviceName with
  | none => { result := .returned { errorCode := ErrorCode.NO_SERVICE } }
  | some service =>
    match service.findMethodByName request.methodName with
    | none => { result := .returned { errorCode := ErrorCode.NO_METHOD } }
    | some method =>
      match service.parseFromString (service.getRequestPrototype method) request.args with
      | .error _ => { result := .returned { errorCode := ErrorCode.INVALID_ARGUMENT } }
      | .ok reqMsg =>
        let respMsg := service.getResponsePrototype method
        { invocation := some ⟨method, reqMsg, respMsg, true⟩
          result := RpcServer.respond service (service.callMethod method reqMsg respMsg true env) }

/-- The part of the free `dispatchRequest` from the call on, without a `try`. -/
def respond (service : Service Msg Env) : Ending Msg → Result
  | .completed (.returned responseMsg) =>
    .returned { errorCode := ErrorCode.NO_ERROR, result := service.serializeAsString responseMsg }
  | .completed (.threw _) => .threw
  | .completed .threwOther => .threw
  | .nullDereference => .nullDereference

/-- The free function `dispatchRequest`. -/
def dispatchRequest (request : RpcRequest) (registry : ServiceRegistry Msg Env) (env : Env) :
    Dispatched Msg :=
  match registry.findService request.serviceName with
  | none => { result := .returned { errorCode := ErrorCode.NO_SERVICE } }
  | some service =>
    match service.findMethodByName request.methodName with
    | none => { result := .returned { errorCode := ErrorCode.NO_METHOD } }
    | some method =>
      let (requestMsg, parsed) :=
        match service.parseFromString (service.getRequestPrototype method) request.args with
        | .error left => (left, false)
        | .ok requestMsg => (requestMsg, true)
      let responseMsg := service.getResponsePrototype method
      { invocation := some ⟨method, requestMsg, responseMsg, parsed⟩
        result := respond service (service.callMethod method requestMsg responseMsg false env) }

/-- A service as the server is modelled with it elsewhere, which leaves a null pointer out. -/
def Service.plain (service : Service Msg Env) : ReactorRpc.Service Msg Env where
  fullName := service.fullName
  findMethodByName := service.findMethodByName
  parseArgs method args := (service.parseFromString (service.getRequestPrototype method) args).toOption
  callMethod method reqMsg env :=
    match service.callMethod method reqMsg (service.getResponsePrototype method) true env with
    | .completed outcome => outcome
    | .nullDereference => .threwOther
  serialize := service.serializeAsString

def ServiceRegistry.plain (registry : ServiceRegistry Msg Env) : RpcServiceRegistry Msg Env :=
  fun name => (registry name).map Service.plain

/-- Unless a handler meets a null pointer, the server dispatches as it is modelled elsewhere. -/
theorem RpcServer.dispatchRequest_eq (registry : ServiceRegistry Msg Env) (request : RpcRequest) (env : Env)
    (sound : (RpcServer.dispatchRequest registry request env).result ≠ .nullDereference) :
    (RpcServer.dispatchRequest registry request env).result =
      .returned (ReactorRpc.RpcServer.dispatchRequest registry.plain request env) := by
  unfold RpcServer.dispatchRequest at sound ⊢
  rw [ReactorRpc.RpcServer.dispatchRequest, RpcServiceRegistry.findService, ServiceRegistry.plain]
  cases named : registry.findService request.serviceName with
  | none =>
    rw [show registry request.serviceName = none from named]
    rfl
  | some service =>
    rw [show registry request.serviceName = some service from named, Option.map_some]
    simp only [named, Service.plain] at sound ⊢
    cases found : service.findMethodByName request.methodName with
    | none => rfl
    | some method =>
      simp only [found] at sound ⊢
      cases parsed : service.parseFromString (service.getRequestPrototype method) request.args with
      | error left => rfl
      | ok reqMsg =>
        simp only [parsed, Except.toOption] at sound ⊢
        cases ended : service.callMethod method reqMsg (service.getResponsePrototype method) true env with
        | nullDereference =>
          rw [ended] at sound
          exact absurd rfl sound
        | completed outcome => cases outcome <;> rfl

end ReactorRpc.Reflection
