import ReactorRpc.PendingCalls
import ReactorRpc.ServerPipeline

namespace ReactorRpc
open Streams

variable [Protobuf]

/-- A request that a frame can carry and that parsing gives back. -/
structure RpcRequest.Exchanged (request : RpcRequest) : Prop where
  nonempty : request.serialize ≠ []
  fits : request.serialize.length ≤ maxPayload
  parses : RpcRequest.parse request.serialize = some request

structure RpcResponse.Exchanged (rsp : RpcResponse) : Prop where
  nonempty : rsp.serialize ≠ []
  fits : rsp.serialize.length ≤ maxPayload
  parses : RpcResponse.parse rsp.serialize = some rsp

variable {ServerId Conn Msg Env : Type}

/-- The response behind a reply. -/
def Reply.response {registry : RpcServiceRegistry Msg Env} : Reply registry Conn → RpcResponse
  | .wrongProto _ _ => { errorCode := ErrorCode.WRONG_PROTO }
  | .result posted => RpcServer.dispatchRequest registry posted.task.request posted.env

theorem Reply.payload_eq {registry : RpcServiceRegistry Msg Env} (reply : Reply registry Conn) :
    reply.payload = reply.response.serialize := by
  cases reply with
  | wrongProto source unparsable => rfl
  | result posted => exact posted.serialized

/-- The frame that carries a reply. -/
def Reply.frame {registry : RpcServiceRegistry Msg Env} (reply : Reply registry Conn)
    (exchanged : reply.response.Exchanged) : ResponseFrame where
  id := reply.source.frame.reqId
  payload := reply.payload
  nonempty := reply.payload_eq ▸ exchanged.nonempty
  fits := reply.payload_eq ▸ exchanged.fits
  rsp := reply.response
  parses := (congrArg RpcResponse.parse reply.payload_eq).trans exchanged.parses

/-- The phases behind `conn->send`. -/
def AttemptPhase.Sent : AttemptPhase → Prop
  | .packed => False
  | .registered => False
  | _ => True

/-- The actions that neither draw an id nor touch a connection. -/
def RpcChannel.Action.Inside : RpcChannel.Action Conn → Prop
  | .pack _ _ _ _ => False
  | .send _ => False
  | .response _ _ => False
  | _ => True

/-- A channel with its connections' input buffers, any number of servers, and
what is under way between them on each connection. -/
structure System (registry : ServerId → RpcServiceRegistry Msg Env) (Conn : Type) where
  channel : RpcChannel.State Conn
  inputBuffer : Conn → ConnBuffer
  servers : (i : ServerId) → RpcServer.State (registry i) Conn
  toServer : Conn → Bytes
  toClient : Conn → Bytes

namespace System
variable {registry : ServerId → RpcServiceRegistry Msg Env}

def new (registry : ServerId → RpcServiceRegistry Msg Env) (Conn : Type) (threads : ServerId → Nat) :
    System registry Conn where
  channel := {}
  inputBuffer _ := ConnBuffer.new
  servers i := RpcServer.State.new (registry i) Conn (threads i)
  toServer _ := []
  toClient _ := []

variable [DecidableEq ServerId] [DecidableEq Conn]

/-- The steps of a system in which every `send` is indivisible and the requests
and responses sent are ones that can be exchanged. A read takes any part of what
is under way on its connection, which need not ever arrive. -/
inductive Step (serverOf : Conn → ServerId) : System registry Conn → System registry Conn → Prop
  | pack {s : System registry Conn} {next : RpcChannel.State Conn} {call : Nat} {kind : CallKind}
      {conn : Conn} {request : RpcRequest} (exchanged : request.Exchanged)
      (step : RpcChannel.Step s.channel (.pack call kind conn request) next) :
      Step serverOf s { s with channel := next }
  | send {s : System registry Conn} {next : RpcChannel.State Conn} {k : Nat} {a : Attempt Conn}
      (here : s.channel.attempts[k]? = some a) (step : RpcChannel.Step s.channel (.send k) next) :
      Step serverOf s
        { s with
          channel := next
          toServer := Function.update s.toServer a.conn
            (s.toServer a.conn ++ RpcCodec.packWithId a.id a.request.serialize) }
  | call {s : System registry Conn} {next : RpcChannel.State Conn} {action : RpcChannel.Action Conn}
      (inside : action.Inside) (step : RpcChannel.Step s.channel action next) :
      Step serverOf s { s with channel := next }
  | clientRead {s : System registry Conn} {next : RpcChannel.State Conn} {conn : Conn}
      {data rest : Bytes} {id : UInt64} {rsp : RpcResponse} {after : ConnBuffer}
      (arrived : s.toClient conn = data ++ rest) (nonempty : data ≠ [])
      (unpacked : RpcChannel.unpackResponse ((s.inputBuffer conn).readFd (.ok data)) =
        (some (id, rsp), after))
      (step : RpcChannel.Step s.channel (.response id rsp) next) :
      Step serverOf s
        { s with
          channel := next
          inputBuffer := Function.update s.inputBuffer conn after
          toClient := Function.update s.toClient conn rest }
  | clientWait {s : System registry Conn} {conn : Conn} {data rest : Bytes} {after : ConnBuffer}
      (arrived : s.toClient conn = data ++ rest) (nonempty : data ≠ [])
      (unpacked : RpcChannel.unpackResponse ((s.inputBuffer conn).readFd (.ok data)) = (none, after))
      (idle : s.channel.loop = .idle) :
      Step serverOf s
        { s with
          inputBuffer := Function.update s.inputBuffer conn after
          toClient := Function.update s.toClient conn rest }
  | serverRead {s : System registry Conn} {conn : Conn} {data rest : Bytes}
      {next : RpcServer.State (registry (serverOf conn)) Conn}
      (arrived : s.toServer conn = data ++ rest)
      (step : RpcServer.Step (s.servers (serverOf conn)) (.read conn data) next) :
      Step serverOf s
        { s with
          servers := Function.update s.servers (serverOf conn) next
          toServer := Function.update s.toServer conn rest }
  | serverSend {s : System registry Conn} {i : ServerId} {next : RpcServer.State (registry i) Conn}
      {reply : Reply (registry i) Conn} (exchanged : reply.response.Exchanged)
      (step : RpcServer.Step (s.servers i) (.send reply) next) :
      Step serverOf s
        { s with
          servers := Function.update s.servers i next
          toClient := Function.update s.toClient reply.source.conn
            (s.toClient reply.source.conn ++ reply.bytes) }
  | serve {s : System registry Conn} {i : ServerId} {next : RpcServer.State (registry i) Conn}
      (step : RpcServer.Step (s.servers i) .internal next) :
      Step serverOf s { s with servers := Function.update s.servers i next }

end System

/-- An attempt with this id and this request payload has been sent on a connection. -/
def RpcChannel.State.SentOn (s : RpcChannel.State Conn) (conn : Conn) (id : UInt64) (payload : Bytes) :
    Prop :=
  ∃ (k : Nat) (a : Attempt Conn), s.attempts[k]? = some a ∧ a.conn = conn ∧ AttemptPhase.Sent a.phase ∧ a.id = id ∧
    a.request.serialize = payload

/-- The loop thread has this response in hand, or has completed an attempt with it. -/
def RpcChannel.State.Reported (s : RpcChannel.State Conn) (id : UInt64) (rsp : RpcResponse) : Prop :=
  s.loop = .parsed id rsp ∨ s.loop = .syncMissed id rsp ∨ (∃ k, s.loop = .running k id rsp) ∨
    ∃ k, ⟨k, id, rsp⟩ ∈ s.completed

namespace RpcChannel

omit [Protobuf] in
/-- What no step changes about an attempt. -/
theorem Step.keeps {s next : State Conn} {action : Action Conn} (step : Step s action next) {k : Nat}
    {a : Attempt Conn} (here : s.attempts[k]? = some a) :
    ∃ b, next.attempts[k]? = some b ∧ b.id = a.id ∧ b.conn = a.conn ∧ b.request = a.request ∧
      (AttemptPhase.Sent a.phase → AttemptPhase.Sent b.phase) := by
  have moved : ∀ {j : Nat} {b c : Attempt Conn}, s.attempts[j]? = some b → c.id = b.id →
      c.conn = b.conn → c.request = b.request → (AttemptPhase.Sent b.phase → AttemptPhase.Sent c.phase) →
      ∃ d, (s.attempts.set j c)[k]? = some d ∧ d.id = a.id ∧ d.conn = a.conn ∧
        d.request = a.request ∧ (AttemptPhase.Sent a.phase → AttemptPhase.Sent d.phase) := by
    intro j b c there id conn request sent
    by_cases at_j : k = j
    · subst k
      cases here.symm.trans there
      exact ⟨c, threads_set_self there _, id, conn, request, sent⟩
    · exact ⟨a, threads_set_other at_j here _, rfl, rfl, rfl, fun sent => sent⟩
  cases step with
  | pack => exact ⟨a, threads_append_iff.mpr (.inl here), rfl, rfl, rfl, fun sent => sent⟩
  | registerSync there _ packed =>
    exact moved there rfl rfl rfl (fun sent => by rw [packed] at sent; exact sent.elim)
  | registerAsync there _ packed =>
    exact moved there rfl rfl rfl (fun sent => by rw [packed] at sent; exact sent.elim)
  | send there => exact moved there rfl rfl rfl (fun _ => trivial)
  | timeout there => exact moved there rfl rfl rfl (fun _ => trivial)
  | removePending there => exact moved there rfl rfl rfl (fun _ => trivial)
  | get there => exact moved there rfl rfl rfl (fun _ => trivial)
  | syncHit _ _ there => exact moved there rfl rfl rfl (fun sent => sent)
  | _ => exact ⟨a, here, rfl, rfl, rfl, fun sent => sent⟩

theorem Step.sentOn {s next : State Conn} {action : Action Conn} (step : Step s action next)
    {conn : Conn} {id : UInt64} {payload : Bytes} (sent : s.SentOn conn id payload) :
    next.SentOn conn id payload := by
  obtain ⟨k, a, here, rfl, phase, rfl, rfl⟩ := sent
  obtain ⟨b, now, sameId, sameConn, sameRequest, still⟩ := step.keeps here
  exact ⟨k, b, now, sameConn, still phase, sameId, by rw [sameRequest]⟩

omit [Protobuf] in
/-- Where an attempt after a step comes from. -/
theorem Step.origin {s next : State Conn} {action : Action Conn} (step : Step s action next) {k : Nat}
    {b : Attempt Conn} (now : next.attempts[k]? = some b) :
    (∃ a, s.attempts[k]? = some a ∧ b.request = a.request) ∨
      ∃ call kind conn, action = .pack call kind conn b.request := by
  by_cases inside : k < s.attempts.length
  · have here : s.attempts[k]? = some s.attempts[k] := List.getElem?_eq_getElem inside
    obtain ⟨c, there, _, _, request, _⟩ := step.keeps here
    cases now.symm.trans there
    exact .inl ⟨_, here, request⟩
  · have missing : s.attempts[k]? = none := List.getElem?_eq_none (Nat.le_of_not_lt inside)
    have bound := (List.getElem?_eq_some_iff.mp now).1
    cases step with
    | pack call kind conn request =>
      rcases threads_append_iff.mp now with here | ⟨_, rfl⟩
      · cases missing.symm.trans here
      · exact .inr ⟨call, kind, conn, rfl⟩
    | _ => simp only [List.length_set] at bound; exact absurd bound inside

omit [Protobuf] in
theorem State.reported_idle {s : State Conn} (idle : s.loop = .idle) (id : UInt64) (rsp : RpcResponse) :
    s.Reported id rsp ↔ ∃ k, ⟨k, id, rsp⟩ ∈ s.completed := by
  simp [State.Reported, idle]

omit [Protobuf] in
/-- What an idle loop thread has last completed is all that is new. -/
theorem State.reported_push {s next : State Conn} (idle : next.loop = .idle) {c : Completion}
    (pushed : next.completed = s.completed ++ [c]) {id : UInt64} {rsp : RpcResponse}
    (now : next.Reported id rsp) : s.Reported id rsp ∨ c.id = id ∧ c.rsp = rsp := by
  obtain ⟨k, done⟩ := (State.reported_idle idle id rsp).mp now
  rw [pushed] at done
  rcases List.mem_append.mp done with done | new
  · exact .inl (.inr (.inr (.inr ⟨k, done⟩)))
  · rw [← List.mem_singleton.mp new]
    exact .inr ⟨rfl, rfl⟩

omit [Protobuf] in
theorem Step.reported {s next : State Conn} {action : Action Conn} (step : Step s action next)
    {id : UInt64} {rsp : RpcResponse} (now : next.Reported id rsp) :
    s.Reported id rsp ∨ action = .response id rsp := by
  have before : (∃ k, ⟨k, id, rsp⟩ ∈ s.completed) → s.Reported id rsp :=
    fun done => .inr (.inr (.inr done))
  cases step with
  | response found other idle =>
    rcases now with parsed | missed | ⟨k, running⟩ | done
    · cases parsed
      exact .inr rfl
    · cases missed
    · cases running
    · exact .inl (before done)
  | syncHit parsed =>
    rcases State.reported_push rfl rfl now with before | ⟨rfl, rfl⟩
    · exact .inl before
    · exact .inl (.inl parsed)
  | syncMiss parsed =>
    rcases now with missed | missed | ⟨k, missed⟩ | done
    · cases missed
    · cases missed
      exact .inl (.inl parsed)
    · cases missed
    · exact .inl (before done)
  | asyncHit missed =>
    rcases now with running | running | ⟨k, running⟩ | done
    · cases running
    · cases running
    · cases running
      exact .inl (.inr (.inl missed))
    · exact .inl (before done)
  | asyncMiss =>
    have done := (State.reported_idle rfl id rsp).mp now
    exact .inl (before done)
  | done running =>
    rename_i attempt _ _
    rcases State.reported_push rfl rfl now with before | ⟨rfl, rfl⟩
    · exact .inl before
    · exact .inl (.inr (.inr (.inl ⟨attempt, running⟩)))
  | _ => exact .inl now

end RpcChannel
end ReactorRpc
