import ReactorRpc.MathService

namespace ReactorRpc.Reflection
open Streams

variable {Msg Env : Type}

/-- The two dispatchers return the same response, and neither calls a handler with
bytes that have not parsed. -/
structure Agree (server free : Dispatched Msg) : Prop where
  response : ∃ rsp, server.result = .returned rsp ∧ free.result = .returned rsp
  server : ∀ invocation, server.invocation = some invocation → invocation.parsed = true
  free : ∀ invocation, free.invocation = some invocation → invocation.parsed = true

/-- The arguments of a request parse, and its handler returns, with a null closure the same
as with the closure of the server. -/
def ReturnsOn (service : Service Msg Env) (method : MethodDescriptor) (args : Bytes) (env : Env) : Prop :=
  ∃ reqMsg response unclosed, service.parseFromString (service.getRequestPrototype method) args = .ok reqMsg ∧
    service.callMethod method reqMsg (service.getResponsePrototype method) true env =
      .completed (.returned response) ∧
    service.callMethod method reqMsg (service.getResponsePrototype method) false env =
      .completed (.returned unclosed) ∧
    service.serializeAsString unclosed = service.serializeAsString response

theorem agree_refused (rsp : RpcResponse) :
    Agree (⟨none, .returned rsp⟩ : Dispatched Msg) ⟨none, .returned rsp⟩ where
  response := ⟨rsp, rfl, rfl⟩
  server _ called := by cases called
  free _ called := by cases called

/-- The free dispatcher returns only what a handler has returned. -/
theorem respond_eq_returned {service : Service Msg Env} {ending : Ending Msg} {rsp : RpcResponse}
    (ended : respond service ending = .returned rsp) : ∃ response, ending = .completed (.returned response) ∧
      rsp = { errorCode := ErrorCode.NO_ERROR, result := service.serializeAsString response } := by
  cases ending with
  | nullDereference => cases ended
  | completed outcome =>
    cases outcome with
    | returned response =>
      cases ended
      exact ⟨response, rfl, rfl⟩
    | threw | threwOther => cases ended

/-- The server answers `NO_ERROR` only with what a handler has returned. -/
theorem RpcServer.respond_eq_noError {service : Service Msg Env} {ending : Ending Msg} {result : Bytes}
    (ended : RpcServer.respond service ending =
      .returned { errorCode := ErrorCode.NO_ERROR, result := result }) :
    ∃ response, ending = .completed (.returned response) ∧ result = service.serializeAsString response := by
  cases ending with
  | nullDereference => cases ended
  | completed outcome =>
    cases outcome with
    | returned response =>
      cases ended
      exact ⟨response, rfl, rfl⟩
    | threw | threwOther =>
      have code : ErrorCode.INTERNAL_ERROR = ErrorCode.NO_ERROR :=
        congrArg RpcResponse.errorCode (Result.returned.inj ended)
      cases code

/-- The dispatchers agree exactly if the service or the method is not known, or the
arguments parse and the handler returns, with a null closure the same as with a real one. -/
theorem dispatchers_agree_iff (registry : ServiceRegistry Msg Env) (request : RpcRequest) (env : Env) :
    Agree (RpcServer.dispatchRequest registry request env) (dispatchRequest request registry env) ↔
      ∀ service method, registry.findService request.serviceName = some service →
        service.findMethodByName request.methodName = some method →
          ReturnsOn service method request.args env := by
  rw [RpcServer.dispatchRequest, dispatchRequest]
  cases named : registry.findService request.serviceName with
  | none => exact iff_of_true (agree_refused _) fun _ _ known => by cases known
  | some service =>
    cases found : service.findMethodByName request.methodName with
    | none =>
      simp only [found]
      refine iff_of_true (agree_refused _) fun other _ known method => ?_
      cases known
      cases found.symm.trans method
    | some method =>
      simp only [found]
      cases parsed : service.parseFromString (service.getRequestPrototype method) request.args with
      | error left =>
        refine iff_of_false (fun agree => ?_) fun returns => ?_
        · cases agree.free _ rfl
        · obtain ⟨_, _, _, read, _⟩ := returns service method rfl found
          cases parsed.symm.trans read
      | ok reqMsg =>
        constructor
        · rintro ⟨⟨rsp, server, free⟩, _, _⟩ other method' known there
          cases known
          cases found.symm.trans there
          obtain ⟨unclosed, plain, rfl⟩ := respond_eq_returned free
          obtain ⟨response, closed, same⟩ := RpcServer.respond_eq_noError server
          exact ⟨reqMsg, response, unclosed, parsed, closed, plain, same⟩
        · intro returns
          obtain ⟨read, response, unclosed, again, closed, plain, same⟩ := returns service method rfl found
          cases parsed.symm.trans again
          simp only [closed, plain, RpcServer.respond, respond, same]
          exact ⟨⟨_, rfl, rfl⟩, fun _ called => by cases called; rfl, fun _ called => by cases called; rfl⟩

open Protobuf.Sample

/-- 3 + 4, by both. -/
theorem dispatchers_agree_add :
    let registry := ServiceRegistry.empty.registerService (@Math.MathServiceImpl _ Unit {})
    let request : RpcRequest :=
      ⟨asciiText "math.MathService", asciiText "Add", Math.AddRequest.serialize ⟨some 3, some 4⟩⟩
    Agree (RpcServer.dispatchRequest registry request ()) (dispatchRequest request registry ()) := by
  intro registry request
  refine (dispatchers_agree_iff registry request ()).mpr ?_
  intro service method known found
  cases (ServiceRegistry.findService_registerService .empty (@Math.MathServiceImpl _ Unit {})).symm.trans known
  cases found
  refine ⟨.addRequest ⟨some 3, some 4⟩, _, _, ?_, rfl, rfl, rfl⟩
  exact congrArg (Math.Message.filled .addRequest {}) (Math.AddRequest.parse_serialize ⟨some 3, some 4⟩)

/-- The handler of a method returns or throws, with or without a closure to run. -/
def Synchronous (service : Service Msg Env) (method : MethodDescriptor) : Prop :=
  ∀ args reqMsg done env,
    service.parseFromString (service.getRequestPrototype method) args = .ok reqMsg ∨
        service.parseFromString (service.getRequestPrototype method) args = .error reqMsg →
      ∃ outcome, service.callMethod method reqMsg (service.getResponsePrototype method) done env =
        .completed outcome

section
variable [Protobuf]

/-- `Add` of `MathService` returns, whatever is in its request. -/
theorem synchronous_add (left : Math.Leftovers) :
    Synchronous (@Math.MathServiceImpl _ Env left) ⟨asciiText "Add"⟩ := by
  intro args reqMsg done env read
  have request : ∃ msg, reqMsg = .addRequest msg := by
    change Math.Message.filled .addRequest (left.addRequest args) (Math.AddRequest.parse args) = _ ∨
      Math.Message.filled .addRequest (left.addRequest args) (Math.AddRequest.parse args) = _ at read
    cases parsed : Math.AddRequest.parse args with
    | none =>
      rw [parsed] at read
      rcases read with ok | error
      · cases ok
      · cases error
        exact ⟨_, rfl⟩
    | some msg =>
      rw [parsed] at read
      rcases read with ok | error
      · cases ok
        exact ⟨_, rfl⟩
      · cases error
  obtain ⟨msg, rfl⟩ := request
  exact ⟨_, rfl⟩

/-- A registry with `MathService` finds a synchronous `Add`. -/
theorem synchronous_registered (left : Math.Leftovers) (service : Service Math.Message Unit) (method : MethodDescriptor)
    (known : (ServiceRegistry.empty.registerService (@Math.MathServiceImpl _ Unit left)).findService
      (asciiText "math.MathService") = some service)
    (found : service.findMethodByName (asciiText "Add") = some method) : Synchronous service method := by
  cases (ServiceRegistry.findService_registerService .empty (@Math.MathServiceImpl _ Unit left)).symm.trans known
  cases found
  exact synchronous_add left

end

/-- Arguments that are cut off are refused by one, and given to the handler by the other. -/
theorem cut_arguments_disagree :
    ¬∀ (registry : ServiceRegistry Math.Message Unit) (request : RpcRequest),
      (∀ service method, registry.findService request.serviceName = some service →
        service.findMethodByName request.methodName = some method → Synchronous service method) →
      Agree (RpcServer.dispatchRequest registry request ()) (dispatchRequest request registry ()) := by
  intro agree
  let left : Math.Leftovers := { addRequest := fun _ => ⟨some 0, none⟩ }
  have here := agree (ServiceRegistry.empty.registerService (@Math.MathServiceImpl _ Unit left))
    ⟨asciiText "math.MathService", asciiText "Add", [8]⟩ (synchronous_registered left)
  cases here.free _ rfl

end ReactorRpc.Reflection
