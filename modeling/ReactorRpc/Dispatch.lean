import Mathlib.Logic.Function.Basic
import ReactorRpc.RpcHeader

namespace ReactorRpc
open Streams

/-- The bytes of an ASCII literal of the source. -/
def asciiText (s : String) : Bytes := s.toList.map fun c => UInt8.ofNat c.toNat

/-- A method of a service, as the reflection interface hands it out. -/
structure MethodDescriptor where
  name : Bytes
  deriving DecidableEq

/-- How a business method ends: with the response it filled in, with a
`std::exception` and its `what()`, or with any other exception. -/
inductive HandlerOutcome (Msg : Type)
  | returned (response : Msg)
  | threw (what : Bytes)
  | threwOther

/-- A `google::protobuf::Service`. Its messages are values of `Msg`; what a
handler does may depend on anything else in the process, a value of `Env`. -/
structure Service (Msg Env : Type) where
  fullName : Bytes
  findMethodByName : Bytes → Option MethodDescriptor
  /-- `ParseFromString` on a new message of the method's request prototype. -/
  parseArgs : MethodDescriptor → Bytes → Option Msg
  callMethod : MethodDescriptor → Msg → Env → HandlerOutcome Msg
  /-- `SerializeAsString` of the response message. -/
  serialize : Msg → Bytes

/-- `RpcServiceRegistry`: the registered services under their full names. -/
def RpcServiceRegistry (Msg Env : Type) := Bytes → Option (Service Msg Env)

variable {Msg Env : Type}

namespace RpcServiceRegistry

def empty : RpcServiceRegistry Msg Env := fun _ => none

def registerService (registry : RpcServiceRegistry Msg Env) (service : Service Msg Env) :
    RpcServiceRegistry Msg Env :=
  Function.update registry service.fullName (some service)

def findService (registry : RpcServiceRegistry Msg Env) (name : Bytes) : Option (Service Msg Env) :=
  registry name

theorem findService_registerService (registry : RpcServiceRegistry Msg Env)
    (service : Service Msg Env) :
    (registry.registerService service).findService service.fullName = some service :=
  dif_pos rfl

end RpcServiceRegistry

/-- The part of `RpcServer::dispatchRequest` behind the `try`. -/
def respond (service : Service Msg Env) : HandlerOutcome Msg → RpcResponse
  | .returned response =>
    { errorCode := ErrorCode.NO_ERROR, result := service.serialize response }
  | .threw what =>
    { errorCode := ErrorCode.INTERNAL_ERROR, errorMsg := asciiText "Service exception: " ++ what }
  | .threwOther =>
    { errorCode := ErrorCode.INTERNAL_ERROR, errorMsg := asciiText "Unknown service exception" }

def RpcServer.dispatchRequest (registry : RpcServiceRegistry Msg Env) (request : RpcRequest)
    (env : Env) : RpcResponse :=
  match registry.findService request.serviceName with
  | none => { errorCode := ErrorCode.NO_SERVICE }
  | some service =>
    match service.findMethodByName request.methodName with
    | none => { errorCode := ErrorCode.NO_METHOD }
    | some method =>
      match service.parseArgs method request.args with
      | none => { errorCode := ErrorCode.INVALID_ARGUMENT }
      | some reqMsg => respond service (service.callMethod method reqMsg env)

end ReactorRpc
