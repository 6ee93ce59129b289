import ReactorRpc.CallSystem
import ReactorRpc.MathService

namespace ReactorRpc.Math
open Streams Reflection

section MathCalls
variable [Protobuf] {ServerId Conn Env : Type}

/-- The request of `Add` for two numbers. -/
def addition (a b : Int32) : RpcRequest :=
  ⟨asciiText "math.MathService", asciiText "Add", AddRequest.serialize ⟨some a, some b⟩⟩

variable [LawfulProtobuf]

/-- The servers that have `MathService` registered reply to `Add` with the sum. -/
theorem dispatch_addition {left : Leftovers} {services : ServiceRegistry Message Env}
    (registered : services.findService (asciiText "math.MathService") = some (MathServiceImpl left))
    (a b : Int32) (env : Env) :
    ReactorRpc.RpcServer.dispatchRequest services.plain (addition a b) env =
      { errorCode := ErrorCode.NO_ERROR, result := AddResponse.serialize ⟨some (a + b)⟩ } := by
  have dispatched : (Reflection.RpcServer.dispatchRequest services (addition a b) env).result =
      .returned { errorCode := ErrorCode.NO_ERROR, result := AddResponse.serialize ⟨some (a + b)⟩ } := by
    rw [dispatchRequest_math registered (List.mem_cons_self ..) rfl, addition, AddRequest.parse_serialize]
    rfl
  have plain := Reflection.RpcServer.dispatchRequest_eq services (addition a b) env (by rw [dispatched]; exact nofun)
  rw [dispatched] at plain
  exact (Result.returned.inj plain).symm

/-- With indivisible sends and requests and responses that can be exchanged, a synchronous `Add`
that has not failed has the sum, whichever servers answer and however it is interleaved with the
other calls. The sum is exact where it is an `int32`. -/
theorem add_computed [DecidableEq ServerId] [DecidableEq Conn] (left : ServerId → Leftovers)
    (services : ServerId → ServiceRegistry Message Env)
    (registered : ∀ i, (services i).findService (asciiText "math.MathService") = some (MathServiceImpl (left i)))
    (serverOf : Conn → ServerId) (threads : ServerId → Nat) (c : SyncCall AddResponse) (a b : Int32)
    (asked : c.request = addition a b)
    (decodes : ∀ bytes message old, AddResponse.parse bytes = some message → c.parseFromString bytes old = message)
    (system : System (fun i => (services i).plain) Conn)
    (reached : Relation.ReflTransGen (System.Step serverOf) (System.new _ Conn threads) system)
    (new : ∀ a ∈ system.channel.attempts, a.call ≠ c.call) (loadBalancer : LoadBalancer)
    (s : SyncCall.Running (fun i => (services i).plain) Conn AddResponse)
    (run : Relation.ReflTransGen (c.SystemStep serverOf) (c.enter system loadBalancer) s)
    (few : s.left.channel.attempts.length < 2 ^ 64) (returned : s.right.phase = .returned)
    (succeeded : s.right.controller.failed = false) :
    s.right.response = ⟨some (a + b)⟩ ∧
      (-2 ^ 31 ≤ a.toInt + b.toInt → a.toInt + b.toInt < 2 ^ 31 → (a + b).toInt = a.toInt + b.toInt) := by
  obtain ⟨i, posted, _, _, _, _, response⟩ :=
    SyncCall.success_dispatched reached new run few returned succeeded
  rw [asked, dispatch_addition (registered i)] at response
  exact ⟨response.trans (decodes _ _ _ (AddResponse.parse_serialize _)), toInt_add_exact⟩

end MathCalls

open Protobuf.Sample

/-- 3 + 4, on one server. -/
theorem add_computed_seven :
    let services : ServiceRegistry Message Unit := ServiceRegistry.empty.registerService (MathServiceImpl {})
    ∃ s : SyncCall.Running (fun _ : Unit => services.plain) Unit AddResponse,
      s.right.phase = .returned ∧ s.right.response = ⟨some 7⟩ := by
  intro services
  let c : SyncCall AddResponse := ⟨0, addition 3 4, {}, {}, Caller.parseAddResponse⟩
  have registered : services.findService (asciiText "math.MathService") = some (MathServiceImpl {}) :=
    ServiceRegistry.findService_registerService .empty (@MathServiceImpl _ Unit {})
  obtain ⟨s, run, attempts, returned, controller, _⟩ := SyncCall.answered services.plain c ⟨by decide, .inl rfl⟩
    ⟨by decide, by decide, by decide⟩ (dispatch_addition registered 3 4 ()) ⟨by decide, by decide, by decide⟩ rfl
  have few : s.left.channel.attempts.length < 2 ^ 64 := by rw [attempts]; decide
  have sum := add_computed (fun _ => {}) (fun _ => services) (fun _ => registered) (fun _ => ()) (fun _ => 1) c 3 4
    rfl Caller.parseAddResponse_eq _ .refl nofun {} s run few returned (by rw [controller])
  exact ⟨s, returned, sum.1⟩

end ReactorRpc.Math
