import Mathlib.Data.Finset.Sort
import ReactorRpc.Dispatch
import ReactorRpc.Json
import ReactorRpc.Library.History

namespace ReactorRpc
open Streams

/-- `RegistryCenter`: the addresses of each service. A `std::set` is a finite
set, listed in the order of its elements. -/
structure RegistryCenter where
  services : Bytes → Option (Finset Bytes)

/-- What the HTTP server sends back. A handler that sets no status answers 200. -/
structure HttpResponse where
  status : Nat
  body : Bytes
  deriving DecidableEq

/-- The answer of the HTTP server when a handler throws. -/
def HttpResponse.internalError : HttpResponse := ⟨500, []⟩

/-- `get_param_value`: the first parameter of that name, or the empty string. -/
def getParamValue (params : List (Bytes × Bytes)) (key : Bytes) : Bytes :=
  ((params.find? fun param => param.1 = key).map Prod.snd).getD []

namespace RegistryCenter

def empty : RegistryCenter := ⟨fun _ => none⟩

def registerService (center : RegistryCenter) (service address : Bytes) : RegistryCenter :=
  ⟨Function.update center.services service
    (some (insert address ((center.services service).getD ∅)))⟩

def unregisterService (center : RegistryCenter) (service address : Bytes) : RegistryCenter :=
  match center.services service with
  | some addrs =>
    let left := addrs.erase address
    ⟨Function.update center.services service (if left = ∅ then none else some left)⟩
  | none => center

def discover (center : RegistryCenter) (service : Bytes) : Finset Bytes :=
  (center.services service).getD ∅

/-- The addresses in the order in which `discover`'s set is gone through. -/
def addresses (center : RegistryCenter) (service : Bytes) : List Bytes :=
  (center.discover service).sort (· ≤ ·)

section
variable (parse : Bytes → Except JsonException Json) (dump : Json → Except JsonException Bytes)

/-- The service and the address that a body of `/register` names, when both are
there and are strings. -/
def registerFields (j : Json) : Option (Bytes × Bytes) :=
  match j.field (asciiText "service"), j.field (asciiText "address") with
  | some (.string service), some (.string address) => some (service, address)
  | _, _ => none

/-- The handler of `/register`. It catches nothing but a `parse_error`. -/
def handleRegister (center : RegistryCenter) (body : Bytes) : HttpResponse × RegistryCenter :=
  match parse body with
  | .error .parse_error => (⟨400, asciiText "\x7b\"error\":\"invalid JSON\"\x7d"⟩, center)
  | .error _ => (.internalError, center)
  | .ok j =>
    match registerFields j with
    | none => (⟨400, asciiText "\x7b\"error\":\"missing fields\"\x7d"⟩, center)
    | some (service, address) =>
      if service = [] ∨ address = [] then
        (⟨400, asciiText "\x7b\"error\":\"empty values\"\x7d"⟩, center)
      else
        (⟨200, asciiText "\x7b\"status\":\"ok\"\x7d"⟩, center.registerService service address)

/-- The handler of `/discover`. -/
def handleDiscover (center : RegistryCenter) (params : List (Bytes × Bytes)) : HttpResponse :=
  let service := getParamValue params (asciiText "service")
  if service = [] then ⟨400, asciiText "\x7b\"error\":\"missing service param\"\x7d"⟩
  else
    match dump (.ofStrings (center.addresses service)) with
    | .ok text => ⟨200, text⟩
    | .error _ => .internalError

end

/-- The operations that reach the center. -/
inductive Op
  | register (body : Bytes)
  | discover (params : List (Bytes × Bytes))
  | unregisterService (service address : Bytes)
  deriving DecidableEq

section
variable (parse : Bytes → Except JsonException Json)

def apply (center : RegistryCenter) : Op → RegistryCenter
  | .register body => (handleRegister parse center body).2
  | .discover _ => center
  | .unregisterService service address => center.unregisterService service address

/-- The center after a list of operations. -/
def run (ops : List Op) : RegistryCenter := ops.foldl (apply parse) empty

/-- A body with a service and an address, neither of them empty. -/
def Accepted (body service address : Bytes) : Prop :=
  (∃ j, parse body = .ok j ∧ registerFields j = some (service, address)) ∧ service ≠ [] ∧ address ≠ []

/-- An operation registers an address. -/
def Registers (service address : Bytes) (op : Op) : Prop :=
  ∃ body, op = .register body ∧ Accepted parse body service address

/-- The service an operation is about. -/
def Concerns (service : Bytes) : Op → Prop
  | .register body => ∃ address, Accepted parse body service address
  | .discover params => getParamValue params (asciiText "service") = service
  | .unregisterService of _ => of = service

end

theorem mem_registerService {center : RegistryCenter} {service address s a : Bytes} :
    a ∈ (center.registerService service address).discover s ↔
      s = service ∧ a = address ∨ a ∈ center.discover s := by
  by_cases same : s = service
  · subst s
    simp [discover, registerService]
  · simp [discover, registerService, same]

theorem mem_unregisterService {center : RegistryCenter} {service address s a : Bytes} :
    a ∈ (center.unregisterService service address).discover s ↔
      a ∈ center.discover s ∧ ¬(service = s ∧ address = a) := by
  unfold unregisterService
  cases found : center.services service with
  | none =>
    by_cases same : service = s
    · subst s
      simp [discover, found]
    · simp [same]
  | some addrs =>
    by_cases same : service = s
    · subst s
      by_cases last : addrs.erase address = ∅
      · have only : ∀ b ∈ addrs, b = address := by
          intro b member
          by_contra other
          exact Finset.notMem_empty b (last ▸ Finset.mem_erase.mpr ⟨other, member⟩)
        simp only [discover, last, if_true, Function.update_self, Option.getD_none, found, Option.getD_some]
        simp only [Finset.notMem_empty, true_and, false_iff, not_and, not_not]
        exact fun member => (only a member).symm
      · simp [discover, last, found, and_comm, eq_comm]
    · simp [discover, same, Ne.symm same]

/-- A request is accepted, and its address is entered, or nothing changes. -/
theorem handleRegister_cases (parse : Bytes → Except JsonException Json) (center : RegistryCenter)
    (body : Bytes) :
    (∃ service address, Accepted parse body service address ∧
      handleRegister parse center body =
        (⟨200, asciiText "\x7b\"status\":\"ok\"\x7d"⟩, center.registerService service address)) ∨
      (∀ service address, ¬Accepted parse body service address) ∧
        (handleRegister parse center body).2 = center ∧
        (handleRegister parse center body).1.status =
          match parse body with
          | .error .type_error | .error .out_of_range => 500
          | _ => 400 := by
  unfold handleRegister Accepted
  cases parsed : parse body with
  | error exception =>
    right
    refine ⟨by simp, ?_, ?_⟩
    · cases exception <;> rfl
    · cases exception <;> rfl
  | ok j =>
    dsimp only
    cases fields : registerFields j with
    | none => exact .inr ⟨by simp [fields], rfl, rfl⟩
    | some pair =>
      obtain ⟨service, address⟩ := pair
      by_cases bare : service = [] ∨ address = []
      · right
        dsimp only
        rw [if_pos bare]
        refine ⟨?_, rfl, rfl⟩
        rintro s a ⟨⟨j', same, fields'⟩, someService, someAddress⟩
        cases same
        cases fields.symm.trans fields'
        exact bare.elim someService someAddress
      · left
        refine ⟨service, address, ⟨⟨j, rfl, fields⟩, not_or.mp bare⟩, ?_⟩
        dsimp only
        rw [if_neg bare]

theorem Accepted.unique {parse : Bytes → Except JsonException Json} {body s a service address : Bytes}
    (accepted : Accepted parse body s a) (other : Accepted parse body service address) :
    s = service ∧ a = address := by
  obtain ⟨⟨j, parsed, fields⟩, _⟩ := accepted
  obtain ⟨⟨j', parsed', fields'⟩, _⟩ := other
  cases parsed.symm.trans parsed'
  cases fields.symm.trans fields'
  exact ⟨rfl, rfl⟩

theorem Registers.concerns {parse : Bytes → Except JsonException Json} {s a : Bytes} {op : Op}
    (registers : Registers parse s a op) : Concerns parse s op := by
  obtain ⟨body, rfl, accepted⟩ := registers
  exact ⟨a, accepted⟩

theorem unaffected_iff {parse : Bytes → Except JsonException Json} {s a : Bytes} {op : Op} {member : Prop}
    (apart : ¬Registers parse s a op) (kept : op ≠ .unregisterService s a) :
    member ↔ Registers parse s a op ∨ member ∧ op ≠ .unregisterService s a := by
  rw [or_iff_right apart, and_iff_left kept]

/-- What one operation does to one address of one service. -/
theorem mem_apply (parse : Bytes → Except JsonException Json) (center : RegistryCenter) (op : Op)
    (s a : Bytes) :
    a ∈ (center.apply parse op).discover s ↔
      Registers parse s a op ∨ a ∈ center.discover s ∧ op ≠ .unregisterService s a := by
  cases op with
  | register body =>
    rcases handleRegister_cases parse center body with ⟨service, address, accepted, entered⟩ | ⟨rejected, same, _⟩
    · rw [apply, entered, mem_registerService]
      constructor
      · rintro (⟨rfl, rfl⟩ | member)
        · exact .inl ⟨body, rfl, accepted⟩
        · exact .inr ⟨member, fun other => by cases other⟩
      · rintro (⟨_, same, here⟩ | ⟨member, _⟩)
        · cases same
          exact .inl (here.unique accepted)
        · exact .inr member
    · rw [apply, same]
      refine unaffected_iff ?_ fun other => by cases other
      rintro ⟨_, same, here⟩
      cases same
      exact rejected s a here
  | discover params =>
    refine unaffected_iff ?_ fun other => by cases other
    rintro ⟨_, other, _⟩
    cases other
  | unregisterService service address =>
    rw [apply, mem_unregisterService]
    constructor
    · rintro ⟨member, other⟩
      refine .inr ⟨member, fun same => other ?_⟩
      cases same
      exact ⟨rfl, rfl⟩
    · rintro (⟨_, other, _⟩ | ⟨member, other⟩)
      · cases other
      · refine ⟨member, ?_⟩
        rintro ⟨rfl, rfl⟩
        exact other rfl

/-- No service is kept without an address. -/
def NoEmptySet (center : RegistryCenter) : Prop := ∀ service, center.services service ≠ some ∅

theorem NoEmptySet.update {center : RegistryCenter} (kept : center.NoEmptySet) {service : Bytes}
    {addrs : Option (Finset Bytes)} (some : addrs ≠ some ∅) :
    NoEmptySet ⟨Function.update center.services service addrs⟩ := by
  intro s
  by_cases same : s = service
  · subst s
    simpa using some
  · simpa [same] using kept s

theorem NoEmptySet.apply {parse : Bytes → Except JsonException Json} {center : RegistryCenter}
    (kept : center.NoEmptySet) (op : Op) : (center.apply parse op).NoEmptySet := by
  cases op with
  | register body =>
    rcases handleRegister_cases parse center body with ⟨service, address, _, entered⟩ | ⟨_, same, _⟩
    · rw [RegistryCenter.apply, entered]
      refine kept.update fun none => ?_
      exact Finset.insert_ne_empty _ _ (Option.some.inj none)
    · rwa [RegistryCenter.apply, same]
  | discover params => exact kept
  | unregisterService service address =>
    rw [RegistryCenter.apply]
    unfold RegistryCenter.unregisterService
    cases center.services service with
    | none => exact kept
    | some addrs =>
      refine kept.update ?_
      split
      · exact fun none => by cases none
      · exact fun same => absurd (Option.some.inj same) ‹_›

theorem addresses_sorted (center : RegistryCenter) (service : Bytes) :
    (center.addresses service).Pairwise (· < ·) :=
  ((Finset.pairwise_sort _ _).and (Finset.sort_nodup _ _)).imp fun ⟨ordered, apart⟩ =>
    Std.lt_of_le_of_ne ordered apart

@[simp] theorem mem_addresses {center : RegistryCenter} {service address : Bytes} :
    address ∈ center.addresses service ↔ address ∈ center.discover service := Finset.mem_sort _

/-- A service that has been registered once has the one address. -/
theorem addresses_registered {parse : Bytes → Except JsonException Json} {body service address : Bytes}
    (accepted : Accepted parse body service address) :
    (run parse [.register body]).addresses service = [address] := by
  have only : (run parse [.register body]).discover service = {address} := by
    ext a
    rw [run, List.foldl_cons, List.foldl_nil, mem_apply, Finset.mem_singleton]
    constructor
    · rintro (⟨_, same, other⟩ | ⟨member, _⟩)
      · cases same
        exact (other.unique accepted).2
      · exact absurd member (Finset.notMem_empty a)
    · rintro rfl
      exact .inl ⟨_, rfl, accepted⟩
  rw [addresses, only, Finset.sort_singleton]

/-- No address that was registered is empty. -/
theorem address_ne_nil (parse : Bytes → Except JsonException Json) (ops : List Op)
    {service address : Bytes} (published : address ∈ (run parse ops).addresses service) : address ≠ [] := by
  rw [mem_addresses, run] at published
  induction ops using List.reverseRecOn with
  | nil => exact absurd published (Finset.notMem_empty _)
  | append_singleton ops op ih =>
    rw [List.foldl_append] at published
    rcases (mem_apply parse _ op service address).mp published with ⟨_, _, accepted⟩ | ⟨before, _⟩
    · exact accepted.2.2
    · exact ih before

/-- After any operations a service has exactly the addresses whose last accepted
registration no `unregisterService` follows, in order and once each. Requests
that are not accepted change nothing, operations on other services change none
of its addresses, and no service is kept without one. -/
theorem store_exact (parse : Bytes → Except JsonException Json) (dump : Json → Except JsonException Bytes)
    (ops : List Op) :
    let center := run parse ops
    (∀ service, (center.addresses service).Pairwise (· < ·) ∧ ∀ address,
      address ∈ center.addresses service ↔
        ∃ before body after, ops = before ++ .register body :: after ∧
          Accepted parse body service address ∧ ∀ later ∈ after,
            ¬Registers parse service address later ∧ later ≠ .unregisterService service address) ∧
      (∀ params, let service := getParamValue params (asciiText "service")
        (service = [] → (handleDiscover dump center params).status = 400) ∧
          ∀ text, service ≠ [] → dump (.ofStrings (center.addresses service)) = .ok text →
            handleDiscover dump center params = ⟨200, text⟩) ∧
      (∀ body, (∃ service address, Accepted parse body service address ∧
          (handleRegister parse center body).1.status = 200 ∧
          (handleRegister parse center body).2 = center.registerService service address) ∨
        (∀ service address, ¬Accepted parse body service address) ∧
          ((handleRegister parse center body).1.status = 400 ∨
            (parse body = .error .type_error ∨ parse body = .error .out_of_range) ∧
              (handleRegister parse center body).1.status = 500) ∧
          (handleRegister parse center body).2 = center) ∧
      (∀ op service, ¬Concerns parse service op →
        (center.apply parse op).discover service = center.discover service) ∧
      ∀ service, center.services service ≠ some ∅ := by
  intro center
  refine ⟨fun service => ⟨center.addresses_sorted service, fun address => ?_⟩, ?_, ?_, ?_, ?_⟩
  · rw [mem_addresses]
    have clear : address ∉ empty.discover service := Finset.notMem_empty address
    have history := foldl_iff_lastOn (P := fun center => address ∈ center.discover service)
      (fun center op => mem_apply parse center op service address) clear ops
    refine history.trans ⟨?_, ?_⟩
    · rintro ⟨before, _, after, split, ⟨body, rfl, accepted⟩, quiet⟩
      exact ⟨before, body, after, split, accepted, quiet⟩
    · rintro ⟨before, body, after, split, accepted, quiet⟩
      exact ⟨before, _, after, split, ⟨body, rfl, accepted⟩, quiet⟩
  · intro params service
    refine ⟨fun bare => ?_, fun text some dumped => ?_⟩
    · exact congrArg HttpResponse.status (if_pos bare)
    · unfold handleDiscover
      dsimp only
      rw [if_neg some, dumped]
  · intro body
    rcases handleRegister_cases parse center body with ⟨service, address, accepted, entered⟩ | ⟨rejected, same, status⟩
    · exact .inl ⟨service, address, accepted, by rw [entered], by rw [entered]⟩
    · refine .inr ⟨rejected, ?_, same⟩
      rw [status]
      split
      · exact .inr ⟨.inl ‹_›, rfl⟩
      · exact .inr ⟨.inr ‹_›, rfl⟩
      · exact .inl rfl
  · intro op service apart
    ext address
    rw [mem_apply]
    refine (unaffected_iff (fun registers => apart registers.concerns) fun removes => apart ?_).symm
    cases removes
    rfl
  · exact foldl_kept (P := NoEmptySet) (fun _ op kept => kept.apply op)
      (fun _ none => by cases none) ops

end RegistryCenter
end ReactorRpc
