import ReactorRpc.CallMethod
import ReactorRpc.MathMessages

namespace ReactorRpc
open Streams

/-- What `CallMethod` leaves its results in: the controller and the response message. -/
structure Caller (Msg : Type) where
  controller : CustomController
  response : Msg
  deriving DecidableEq

/-- What a `doCall` or `doCallAsync` meets: no address, no connection, no response in
time, or a response. -/
inductive Outcome
  | noServers
  | noConnection
  | timedOut
  | answered (rsp : RpcResponse)
  deriving DecidableEq

/-- A response without an error. -/
def Outcome.Good : Outcome → Prop
  | answered rsp => rsp.errorCode = ErrorCode.NO_ERROR
  | _ => False

theorem Outcome.good_iff {outcome : Outcome} :
    outcome.Good ↔ ∃ rsp, outcome = .answered rsp ∧ rsp.errorCode = ErrorCode.NO_ERROR := by
  cases outcome with
  | answered rsp => exact ⟨fun ok => ⟨rsp, rfl, ok⟩, fun ⟨_, same, ok⟩ => Outcome.answered.inj same ▸ ok⟩
  | noServers | noConnection | timedOut => exact ⟨fun good => good.elim, fun ⟨_, same, _⟩ => nomatch same⟩

namespace Caller
variable {Msg : Type}

def setFailed (caller : Caller Msg) (reason : Bytes) : Caller Msg :=
  { caller with controller := caller.controller.setFailed reason }

def reset (caller : Caller Msg) : Caller Msg := { caller with controller := caller.controller.reset }

section
variable (parseFromString : Bytes → Msg → Msg)

/-- What is done with a response: in `doCall` once the promise is set, and in the
callback of `onRpcResponse`. -/
def answer (caller : Caller Msg) (rsp : RpcResponse) : Caller Msg :=
  if rsp.errorCode ≠ ErrorCode.NO_ERROR then caller.setFailed rsp.errorMsg
  else { caller with response := parseFromString rsp.result caller.response }

def doCall (caller : Caller Msg) : Outcome → Bool × Caller Msg
  | .noServers => (false, caller.setFailed (asciiText "no available servers"))
  | .noConnection => (false, caller.setFailed (asciiText "connection failed"))
  | .timedOut => (false, caller.setFailed (asciiText "request timeout"))
  | .answered rsp => (decide (rsp.errorCode = ErrorCode.NO_ERROR), caller.answer parseFromString rsp)

/-- `doCallAsync` and the callback: what `done` finds when it is run. Without a
response it never is. -/
def doCallAsync (caller : Caller Msg) : Outcome → Option (Caller Msg)
  | .noServers => some (caller.setFailed (asciiText "no servers"))
  | .noConnection => some (caller.setFailed (asciiText "connect failed"))
  | .timedOut => none
  | .answered rsp => some (caller.answer parseFromString rsp)

/-- The loop of `CallMethod` with `left` rounds to go, in which `doCall` meets the
outcomes from the `i`-th on. -/
def retryLoop (outcomes : Nat → Outcome) : Nat → Nat → Caller Msg → Caller Msg
  | 0, _, caller => caller.setFailed (asciiText "all retries exhausted")
  | left + 1, i, caller =>
    match caller.doCall parseFromString (outcomes i) with
    | (true, caller) => caller
    | (false, caller) => retryLoop outcomes left (i + 1) caller.reset

end

end Caller

/-- How often the loop goes round at most. -/
def CustomController.rounds (ctl : CustomController) : Nat :=
  if ctl.idempotent then (ctl.maxRetries + 1).toNat else min 1 (ctl.maxRetries + 1).toNat

theorem SyncCall.allowed_iff {Msg : Type} (c : SyncCall Msg) (i : Nat) :
    c.Allowed i ↔ i < c.controller.rounds := by
  unfold SyncCall.Allowed CustomController.rounds
  cases c.controller.idempotent with
  | true =>
    simp only [or_true, and_true, if_true]
    omega
  | false =>
    simp only [Bool.false_eq_true, or_false, if_false]
    omega

namespace Caller
variable {Msg : Type} {parseFromString : Bytes → Msg → Msg}

/-- How many `doCall`s there may be: one, if `CallMethod` is given a closure `done`. -/
def attempts (caller : Caller Msg) (done : Bool) : Nat := if done then 1 else caller.controller.rounds

/-- `CallMethod`, and what the caller finds when it returns or, if there is a closure
`done`, when that is run. -/
def callMethod (parseFromString : Bytes → Msg → Msg) (caller : Caller Msg) (done : Bool)
    (outcomes : Nat → Outcome) : Option (Caller Msg) :=
  if done then caller.doCallAsync parseFromString (outcomes 0)
  else some (caller.retryLoop parseFromString outcomes caller.controller.rounds 0)

/-- The call ends with this response, the first one without an error. -/
def Ends (caller : Caller Msg) (done : Bool) (outcomes : Nat → Outcome) (rsp : RpcResponse) : Prop :=
  ∃ i < caller.attempts done, outcomes i = .answered rsp ∧ rsp.errorCode = ErrorCode.NO_ERROR ∧
    ∀ j < i, ¬(outcomes j).Good

theorem doCall_good {caller : Caller Msg} {rsp : RpcResponse} (good : rsp.errorCode = ErrorCode.NO_ERROR) :
    caller.doCall parseFromString (.answered rsp) =
      (true, { caller with response := parseFromString rsp.result caller.response }) := by
  simp [doCall, answer, good]

/-- A `doCall` that does not succeed leaves the response message alone. -/
theorem doCall_bad {caller : Caller Msg} {outcome : Outcome} (bad : ¬outcome.Good) :
    ∃ reason, caller.doCall parseFromString outcome = (false, caller.setFailed reason) := by
  cases outcome with
  | noServers | noConnection | timedOut => exact ⟨_, rfl⟩
  | answered rsp =>
    have error : rsp.errorCode ≠ ErrorCode.NO_ERROR := bad
    exact ⟨rsp.errorMsg, by simp [doCall, answer, error]⟩

theorem doCallAsync_good {caller : Caller Msg} {rsp : RpcResponse}
    (good : rsp.errorCode = ErrorCode.NO_ERROR) :
    caller.doCallAsync parseFromString (.answered rsp) =
      some { caller with response := parseFromString rsp.result caller.response } := by
  simp [doCallAsync, answer, good]

/-- A `done` that is run without a result finds the response message left alone. -/
theorem doCallAsync_bad {caller final : Caller Msg} {outcome : Outcome} (bad : ¬outcome.Good)
    (reported : caller.doCallAsync parseFromString outcome = some final) :
    ∃ reason, final = caller.setFailed reason := by
  cases outcome with
  | noServers | noConnection => exact ⟨_, (Option.some.inj reported).symm⟩
  | timedOut => cases reported
  | answered rsp =>
    have error : rsp.errorCode ≠ ErrorCode.NO_ERROR := bad
    have told : caller.answer parseFromString rsp = caller.setFailed rsp.errorMsg := if_pos error
    exact ⟨rsp.errorMsg, (Option.some.inj reported).symm.trans told⟩

/-- The loop is exhausted, or ends with the first good response. -/
theorem retryLoop_cases (caller : Caller Msg) (outcomes : Nat → Outcome) (left i : Nat) :
    ((∀ j, i ≤ j → j < i + left → ¬(outcomes j).Good) ∧
        ((caller.retryLoop parseFromString outcomes left i).controller.failed = true ∧
          (caller.retryLoop parseFromString outcomes left i).response = caller.response)) ∨
      ∃ k rsp, i ≤ k ∧ k < i + left ∧ outcomes k = .answered rsp ∧
        rsp.errorCode = ErrorCode.NO_ERROR ∧ (∀ j, i ≤ j → j < k → ¬(outcomes j).Good) ∧
        (caller.retryLoop parseFromString outcomes left i).response =
          parseFromString rsp.result caller.response ∧
        (caller.controller.failed = false →
          (caller.retryLoop parseFromString outcomes left i).controller.failed = false) := by
  induction left generalizing i caller with
  | zero => exact .inl ⟨fun j from_ below => absurd below (Nat.not_lt.mpr from_), rfl, rfl⟩
  | succ left ih =>
    by_cases good : (outcomes i).Good
    · obtain ⟨rsp, met, ok⟩ := Outcome.good_iff.mp good
      refine .inr ⟨i, rsp, le_rfl, by omega, met, ok, fun j from_ below => by omega, ?_, ?_⟩
      · rw [retryLoop, met, doCall_good ok]
      · rw [retryLoop, met, doCall_good ok]
        exact id
    · obtain ⟨reason, failed⟩ := @doCall_bad _ parseFromString caller _ good
      have next : caller.retryLoop parseFromString outcomes (left + 1) i =
          (caller.setFailed reason).reset.retryLoop parseFromString outcomes left (i + 1) := by
        rw [retryLoop, failed]
      have here : ∀ j, i ≤ j → (i + 1 ≤ j → ¬(outcomes j).Good) → ¬(outcomes j).Good := by
        intro j from_ later
        rcases Nat.eq_or_lt_of_le from_ with rfl | behind
        · exact good
        · exact later behind
      rw [next]
      rcases ih (caller.setFailed reason).reset (i + 1) with ⟨none, ends⟩ |
        ⟨k, rsp, from_, below, met, ok, first, ends, fine⟩
      · exact .inl ⟨fun j from_ below => here j from_ fun behind => none j behind (by omega), ends⟩
      · refine .inr ⟨k, rsp, by omega, by omega, met, ok, ?_, ends, fun _ => fine rfl⟩
        exact fun j from_ below => here j from_ fun behind => first j behind below

theorem Ends.unique {caller : Caller Msg} {done : Bool} {outcomes : Nat → Outcome} {rsp other : RpcResponse}
    (ends : caller.Ends done outcomes rsp) (also : caller.Ends done outcomes other) : rsp = other := by
  obtain ⟨i, _, met, ok, first⟩ := ends
  obtain ⟨j, _, met', ok', first'⟩ := also
  have good := Outcome.good_iff.mpr ⟨rsp, met, ok⟩
  have good' := Outcome.good_iff.mpr ⟨other, met', ok'⟩
  have same : i = j := by
    by_contra differ
    rcases Nat.lt_or_gt_of_ne differ with before | behind
    · exact first' i before good
    · exact first j behind good'
  subst same
  cases met.symm.trans met'
  rfl

/-- A call, synchronous or not, fails or ends with a response without an error. -/
theorem callMethod_cases {caller final : Caller Msg} {done : Bool} {outcomes : Nat → Outcome}
    (reported : caller.callMethod parseFromString done outcomes = some final) :
    ((∀ rsp, ¬caller.Ends done outcomes rsp) ∧ final.controller.failed = true ∧
        final.response = caller.response) ∨
      ∃ rsp, caller.Ends done outcomes rsp ∧
        final.response = parseFromString rsp.result caller.response ∧
        (caller.controller.failed = false → final.controller.failed = false) := by
  cases done with
  | false =>
    cases reported
    rcases retryLoop_cases caller outcomes caller.controller.rounds 0 with ⟨none, ends⟩ |
      ⟨k, rsp, _, below, met, ok, first, ends⟩
    · refine .inl ⟨?_, ends⟩
      rintro rsp ⟨i, below, met, ok, _⟩
      exact none i (Nat.zero_le i) (by simpa [attempts] using below) (Outcome.good_iff.mpr ⟨rsp, met, ok⟩)
    · exact .inr ⟨rsp, ⟨k, by simpa [attempts] using below, met, ok, fun j => first j (Nat.zero_le j)⟩, ends⟩
  | true =>
    have reported : caller.doCallAsync parseFromString (outcomes 0) = some final := reported
    by_cases good : (outcomes 0).Good
    · obtain ⟨rsp, met, ok⟩ := Outcome.good_iff.mp good
      rw [met, doCallAsync_good ok] at reported
      cases reported
      have ends : caller.Ends true outcomes rsp :=
        ⟨0, Nat.zero_lt_one, met, ok, fun j below => absurd below (Nat.not_lt_zero j)⟩
      exact .inr ⟨rsp, ends, rfl, id⟩
    · obtain ⟨reason, rfl⟩ := doCallAsync_bad good reported
      refine .inl ⟨?_, rfl, rfl⟩
      rintro rsp ⟨i, below, met, ok, _⟩
      obtain rfl : i = 0 := by simpa [attempts] using below
      exact good (Outcome.good_iff.mpr ⟨rsp, met, ok⟩)

/-- What a call reports agrees with the response that it ends with: a call that has not
failed has its decoded result, and one whose result does not decode has failed. -/
structure Decoded (decode : Bytes → Option Msg) (ends : RpcResponse → Prop) (final : Caller Msg) : Prop where
  success : final.controller.failed = false → ∃ rsp, ends rsp ∧ decode rsp.result = some final.response
  failure : ∀ rsp, ends rsp → decode rsp.result = none → final.controller.failed = true

/-- A call reports what it has decoded exactly if the result of the response that it
ends with, if there is one, decodes. -/
theorem success_decoded_iff {decode : Bytes → Option Msg}
    (parses : ∀ bytes message old, decode bytes = some message → parseFromString bytes old = message)
    {caller final : Caller Msg} (fresh : caller.controller.failed = false) (done : Bool)
    (outcomes : Nat → Outcome) (reported : caller.callMethod parseFromString done outcomes = some final) :
    Decoded decode (caller.Ends done outcomes) final ↔
      ∀ rsp, caller.Ends done outcomes rsp → decode rsp.result ≠ none := by
  rcases callMethod_cases reported with ⟨none, failed, _⟩ | ⟨rsp, ends, message, fine⟩
  · refine iff_of_true ⟨fun fine => ?_, fun rsp ends => absurd ends (none rsp)⟩ fun rsp ends =>
      absurd ends (none rsp)
    rw [failed] at fine
    cases fine
  · constructor
    · intro decoded other also invalid
      have failed := decoded.failure other also invalid
      rw [fine fresh] at failed
      cases failed
    · intro valid
      refine ⟨fun _ => ⟨rsp, ends, ?_⟩, fun other also invalid => absurd invalid (valid other also)⟩
      obtain ⟨result, decodes⟩ := Option.ne_none_iff_exists'.mp (valid rsp ends)
      rw [message, parses rsp.result result caller.response decodes, decodes]

section
variable [Protobuf]

/-- The parser of `AddResponse`, which leaves a message with a zero in it when it fails. -/
def parseAddResponse (bytes : Bytes) (_ : Math.AddResponse) : Math.AddResponse :=
  (Math.AddResponse.parse bytes).getD ⟨some 0⟩

theorem parseAddResponse_eq (bytes : Bytes) (message old : Math.AddResponse)
    (decodes : Math.AddResponse.parse bytes = some message) : parseAddResponse bytes old = message := by
  rw [parseAddResponse, decodes, Option.getD_some]

end

open Protobuf.Sample

/-- A response with a sum. -/
theorem success_decoded_sum :
    let caller : Caller Math.AddResponse := ⟨{}, {}⟩
    let outcomes : Nat → Outcome := fun _ => .answered { result := [8, 7] }
    ∃ final, caller.callMethod parseAddResponse true outcomes = some final ∧
      Decoded Math.AddResponse.parse (caller.Ends true outcomes) final := by
  intro caller outcomes
  refine ⟨_, rfl, (success_decoded_iff parseAddResponse_eq rfl true outcomes rfl).mpr ?_⟩
  rintro rsp ⟨i, _, met, _⟩
  cases met
  decide

/-- A result that is cut off is reported as a success. -/
theorem cut_result_succeeds :
    ¬∀ (decode : Bytes → Option Math.AddResponse) (parseFromString : Bytes → Math.AddResponse → Math.AddResponse),
      (∀ bytes message old, decode bytes = some message → parseFromString bytes old = message) →
      ∀ (caller final : Caller Math.AddResponse) (done : Bool) (outcomes : Nat → Outcome),
        caller.controller.failed = false → caller.callMethod parseFromString done outcomes = some final →
          Decoded decode (caller.Ends done outcomes) final := by
  intro decoded
  let caller : Caller Math.AddResponse := ⟨{}, {}⟩
  let cut : RpcResponse := { result := [8] }
  have here := decoded Math.AddResponse.parse parseAddResponse parseAddResponse_eq caller _ false
    (fun _ => .answered cut) rfl rfl
  have ends : caller.Ends false (fun _ => .answered cut) cut :=
    ⟨0, by decide, rfl, rfl, fun j below => absurd below (Nat.not_lt_zero j)⟩
  have failed := here.failure cut ends (by decide)
  cases failed

/-- The two ways of a call end alike: both have failed or neither, both have the error
text of the server if that has sent an error, and the messages are the same. -/
structure Alike (outcome : Outcome) (sync async : Caller Msg) : Prop where
  failed : sync.controller.failed = async.controller.failed
  errText : ∀ rsp, outcome = .answered rsp → rsp.errorCode ≠ ErrorCode.NO_ERROR →
    sync.controller.errText = rsp.errorMsg ∧ async.controller.errText = rsp.errorMsg
  response : sync.response = async.response

/-- A synchronous call without retries and an asynchronous one end alike exactly if the
server sends no error, or one with the text that the loop leaves. -/
theorem sync_async_alike_iff (caller : Caller Msg) (single : caller.controller.maxRetries = 0)
    (outcome : Outcome) (inTime : outcome ≠ .timedOut) :
    ∃ sync async, caller.callMethod parseFromString false (fun _ => outcome) = some sync ∧
      caller.callMethod parseFromString true (fun _ => outcome) = some async ∧
      (Alike outcome sync async ↔ ∀ rsp, outcome = .answered rsp → rsp.errorCode ≠ ErrorCode.NO_ERROR →
        rsp.errorMsg = asciiText "all retries exhausted") := by
  have once : caller.controller.rounds = 1 := by
    unfold CustomController.rounds
    rw [single]
    cases caller.controller.idempotent <;> rfl
  have sync : caller.callMethod parseFromString false (fun _ => outcome) =
      some (caller.retryLoop parseFromString (fun _ => outcome) 1 0) := by
    rw [callMethod, once]
    rfl
  cases outcome with
  | timedOut => exact absurd rfl inTime
  | noServers | noConnection =>
    refine ⟨_, _, sync, rfl, iff_of_true ⟨rfl, fun _ met => (nomatch met), rfl⟩ ?_⟩
    exact fun _ met => (nomatch met)
  | answered rsp =>
    refine ⟨_, caller.answer parseFromString rsp, sync, rfl, ?_⟩
    by_cases ok : rsp.errorCode = ErrorCode.NO_ERROR
    · have good : caller.answer parseFromString rsp =
          { caller with response := parseFromString rsp.result caller.response } := if_neg (not_not.mpr ok)
      rw [retryLoop, doCall_good ok, good]
      refine iff_of_true ⟨rfl, fun other met error => ?_, rfl⟩ fun other met error => ?_
      · cases met
        exact absurd ok error
      · cases met
        exact absurd ok error
    · have bad : caller.answer parseFromString rsp = caller.setFailed rsp.errorMsg := if_pos ok
      have exhausted : caller.retryLoop parseFromString (fun _ => .answered rsp) 1 0 =
          (caller.setFailed rsp.errorMsg).reset.setFailed (asciiText "all retries exhausted") := by
        simp only [retryLoop, doCall, decide_eq_false ok, bad]
      rw [exhausted, bad]
      constructor
      · intro alike other met error
        cases met
        exact ((alike.errText rsp rfl ok).1).symm
      · intro same
        refine ⟨rfl, fun other met error => ?_, rfl⟩
        cases met
        exact ⟨(same rsp rfl ok).symm, rfl⟩

/-- A response without an error, in both ways. -/
theorem sync_async_alike_sum :
    let caller : Caller Math.AddResponse := ⟨{ maxRetries := 0 }, {}⟩
    let outcome : Outcome := .answered { result := [8, 7] }
    ∃ sync async, caller.callMethod parseAddResponse false (fun _ => outcome) = some sync ∧
      caller.callMethod parseAddResponse true (fun _ => outcome) = some async ∧ Alike outcome sync async := by
  intro caller outcome
  obtain ⟨sync, async, first, second, alike⟩ :=
    @sync_async_alike_iff _ parseAddResponse caller rfl outcome (fun late => (nomatch late))
  refine ⟨sync, async, first, second, alike.mpr ?_⟩
  intro rsp met error
  rw [← Outcome.answered.inj met] at error
  exact absurd rfl error

/-- The error text of a server is lost in the loop. -/
theorem sync_text_lost :
    ¬∀ (parseFromString : Bytes → Math.AddResponse → Math.AddResponse) (caller : Caller Math.AddResponse)
      (outcome : Outcome), caller.controller.maxRetries = 0 → caller.controller.failed = false →
        outcome ≠ .timedOut →
        ∃ sync async, caller.callMethod parseFromString false (fun _ => outcome) = some sync ∧
          caller.callMethod parseFromString true (fun _ => outcome) = some async ∧
          Alike outcome sync async := by
  intro alike
  let error : RpcResponse := { errorCode := ErrorCode.INTERNAL_ERROR, errorMsg := asciiText "boom" }
  obtain ⟨sync, _, first, _, same⟩ := alike parseAddResponse ⟨{ maxRetries := 0 }, {}⟩ (.answered error) rfl rfl
    (fun late => (nomatch late))
  cases first
  have text := (same.errText error rfl (by decide)).1
  exact absurd text (by decide)

end Caller
end ReactorRpc
