import Mathlib.Data.List.GetD
import ReactorRpc.CallMethod
import ReactorRpc.Discovery
import ReactorRpc.GetAddresses
import ReactorRpc.RegistryRefresh

namespace ReactorRpc.RegistryClient
open Streams Http

/-- The service whose cache file a step writes. -/
def State.writtenFor (s : State) : Action → Option Bytes
  | .save k _ => s.calls[k]?.map Call.service
  | .change service _ => some service
  | _ => none

section
variable {File : Type} [DecidableEq File] (path : Bytes → File)

/-- Services whose names lead to one file share it: `x` and `./x` do. -/
def State.share (s : State) (action : Action) (next : State) : State :=
  match s.writtenFor action with
  | none => next
  | some service =>
    { next with disk := fun other => if path other = path service then next.disk service else next.disk other }

/-- Only files are shared. -/
theorem State.share_eq (s : State) (action : Action) (next : State) :
    ∃ disk, s.share path action next = { next with disk } := by
  unfold State.share
  cases s.writtenFor action with
  | none => exact ⟨next.disk, rfl⟩
  | some service => exact ⟨_, rfl⟩

end

/-- A registry, a client, and how many operations the registry had carried out at each moment
of the client. -/
structure Deployment where
  ops : List RegistryCenter.Op := []
  client : State := {}
  began : Nat → Nat := fun _ => 0

/-- An answer of the registry as it was after these operations, or none. -/
def Served (client : RegistryClient) (dump : Json → Except JsonException Bytes)
    (ops : List RegistryCenter.Op) (since : Nat) (service : Bytes) (answer : Option HttpResponse) : Prop :=
  answer = none ∨ ∃ before, before <+: ops ∧ since ≤ before.length ∧ answer =
    some (serveGet dump (RegistryCenter.run client.parse before) (requestLine (discoverPath service)))

namespace Deployment

/-- The attempts of a fetch are answered by the registry as it is at some time during the fetch. -/
def Answers (client : RegistryClient) (dump : Json → Except JsonException Bytes) (s : Deployment) :
    Action → Prop
  | .fetch k answers => ∀ call since, s.client.calls[k]? = some call → call.phase = .fetching since →
      ∀ i, Served client dump s.ops (s.began since) call.service (answers i)
  | _ => True

inductive Label
  | registry (op : RegistryCenter.Op)
  | client (action : Action)

/-- Nobody else writes the cache files, and a save that opens its file writes all of it. -/
def OwnFiles : Label → Prop
  | .client (.save _ result) => result = .complete ∨ result = .unopened
  | .client (.change _ _) => False
  | _ => True

/-- The registry has just been started, and a client; there may be cache files. -/
def start {File : Type} (path : Bytes → File) (files : File → Option Bytes) : Deployment :=
  { client := State.start fun service => files (path service) }

/-- The steps of the registry and of the threads of the client. -/
inductive Step {File : Type} [DecidableEq File] (path : Bytes → File) (client : RegistryClient)
    (dump : Json → Except JsonException Bytes) : Deployment → Label → Deployment → Prop
  | registry {s : Deployment} (op : RegistryCenter.Op) :
      Step path client dump s (.registry op) { s with ops := s.ops ++ [op] }
  | client {s : Deployment} {action : Action} {next : State}
      (step : RegistryClient.Step client s.client action next) (answered : s.Answers client dump action) :
      Step path client dump s (.client action)
        { s with
          client := s.client.share path action next
          began := fun moment => if moment ≤ s.client.moments then s.began moment else s.ops.length }

end Deployment

/-- The JSON library reads back the lists of strings that it writes. -/
def ReadsBack (parse : Bytes → Except JsonException Json) (dump : Json → Except JsonException Bytes) : Prop :=
  ∀ list text, dump (.ofStrings list) = .ok text → parse text = .ok (.ofStrings list)

variable {client : RegistryClient} {dump : Json → Except JsonException Bytes}

theorem readRequest_error {sent : Bytes} {status : Nat} (failed : readRequest sent = .error status) :
    status ≠ 200 := by
  unfold readRequest at failed
  split at failed
  · cases failed
    decide
  · split at failed
    · cases failed
      decide
    · cases failed

/-- An answer that is a list is the list of the name that the handler was called with. -/
theorem lists_of_serveGet (readsBack : ReadsBack client.parse dump) {center : RegistryCenter}
    {service : Bytes} {list : List Bytes}
    (lists : Lists client.parse (some (serveGet dump center (requestLine (discoverPath service)))) list) :
    ∃ name, handlerName service = some name ∧ list = center.addresses name := by
  obtain ⟨res, same, ok, parsed⟩ := lists
  cases same
  unfold serveGet at ok parsed
  unfold handlerName
  cases read : readRequest (requestLine (discoverPath service)) with
  | error status =>
    simp only [read] at ok
    exact absurd ok (readRequest_error read)
  | ok req =>
    simp only [read] at ok parsed ⊢
    by_cases routed : forDiscover req
    · simp only [routed, if_true] at ok parsed ⊢
      refine ⟨_, rfl, ?_⟩
      unfold RegistryCenter.handleDiscover at ok parsed
      dsimp only at ok parsed
      split at ok
      · cases ok
      · rename_i named
        rw [if_neg named] at parsed
        cases dumped : dump (.ofStrings (center.addresses (getParamValue req.params (asciiText "service")))) with
        | error exception => simp [dumped, HttpResponse.internalError] at ok
        | ok text =>
          simp only [dumped] at parsed
          have read := readsBack _ _ dumped
          rw [parsed] at read
          have strings := congrArg Json.getStrings (Except.ok.inj read)
          rw [Json.getStrings_ofStrings, Json.getStrings_ofStrings] at strings
          exact Except.ok.inj strings
    · simp only [routed, if_false] at ok
      cases ok

/-- A list that is not empty comes from one of the attempts. -/
theorem lists_of_fetch {answers : List (Option HttpResponse)} {list : List Bytes}
    (result : fetchLoop client.parse answers = .ok list) (some_ : list ≠ []) :
    ∃ answer ∈ answers, Lists client.parse answer list := by
  induction answers with
  | nil =>
    cases result
    exact absurd rfl some_
  | cons answer later ih =>
    rw [fetchLoop_cons] at result
    cases ends : attempt client.parse answer with
    | none =>
      rw [ends] at result
      obtain ⟨other, member, lists⟩ := ih result
      exact ⟨other, List.mem_cons_of_mem _ member, lists⟩
    | some outcome =>
      rw [ends] at result
      rcases attempt_eq_some ends with ⟨values, same, lists⟩ | ⟨⟨exception, same⟩, -⟩
      · rw [same] at result
        cases result
        exact ⟨answer, List.mem_cons_self, lists⟩
      · rw [same] at result
        cases result

/-- What a fetch returns is the registry's list at some time since the fetch began. -/
theorem fetched_served (readsBack : ReadsBack client.parse dump) {ops : List RegistryCenter.Op}
    {since : Nat} {service : Bytes} {answers : Nat → Option HttpResponse} {list : List Bytes}
    (served : ∀ i, Served client dump ops since service (answers i))
    (result : fetchFromRegistry client.parse client.retryTimes answers = .ok list) (some_ : list ≠ []) :
    ∃ before name, before <+: ops ∧ since ≤ before.length ∧ handlerName service = some name ∧
      list = (RegistryCenter.run client.parse before).addresses name := by
  obtain ⟨answer, member, lists⟩ := lists_of_fetch result some_
  obtain ⟨i, -, rfl⟩ := List.mem_map.mp member
  rcases served i with none_ | ⟨before, front, late, answered⟩
  · obtain ⟨_, same, -⟩ := lists
    cases none_.symm.trans same
  · rw [answered] at lists
    obtain ⟨name, called, same⟩ := lists_of_serveGet readsBack lists
    exact ⟨before, name, front, late, called, same⟩

theorem loadText_append (front back : Bytes) :
    loadText (front ++ lineEnd :: back) = loadText front ++ loadText back := by
  rw [loadText, List.splitOn_append_cons_self, List.filter_append]
  rfl

/-- The lines of a saved list are lines of its addresses. -/
theorem mem_loadText_saveText {list : List Bytes} {line : Bytes} (there : line ∈ loadText (saveText list)) :
    ∃ address ∈ list, line ∈ loadText address := by
  induction list with
  | nil => cases there
  | cons address list ih =>
    have text : saveText (address :: list) = address ++ lineEnd :: saveText list := by
      simp only [saveText, List.flatMap_cons, List.append_assoc, List.singleton_append]
    rw [text, loadText_append, List.mem_append] at there
    rcases there with here | later
    · exact ⟨address, List.mem_cons_self, here⟩
    · obtain ⟨other, member, line⟩ := ih later
      exact ⟨other, List.mem_cons_of_mem _ member, line⟩

/-- A line has no lines but itself. -/
theorem loadText_idem {text line part : Bytes} (there : line ∈ loadText text) (inside : part ∈ loadText line) :
    part = line := by
  rw [← CacheFile.readLines_eq] at there
  obtain ⟨-, plain⟩ := CacheFile.readLines_mem there
  rw [loadText, List.splitOn_eq_singleton plain, List.mem_filter] at inside
  exact List.mem_singleton.mp inside.1

/-- The registry has listed an address for the name that a client looking for a
service has the handler called with. -/
def Listed (client : RegistryClient) (ops : List RegistryCenter.Op) (service address : Bytes) : Prop :=
  ∃ before name, before <+: ops ∧ handlerName service = some name ∧
    address ∈ (RegistryCenter.run client.parse before).addresses name

/-- An address that the registry has listed, or a line of one. -/
def Published (client : RegistryClient) (ops : List RegistryCenter.Op) (service x : Bytes) : Prop :=
  ∃ address, Listed client ops service address ∧ (x = address ∨ x ∈ loadText address)

theorem Published.mono {ops more : List RegistryCenter.Op} {service x : Bytes}
    (published : Published client ops service x) (front : ops <+: more) :
    Published client more service x := by
  obtain ⟨address, ⟨before, name, early, called, there⟩, piece⟩ := published
  exact ⟨address, ⟨before, name, early.trans front, called, there⟩, piece⟩

theorem Published.line {ops : List RegistryCenter.Op} {service x line : Bytes}
    (published : Published client ops service x) (there : line ∈ loadText x) :
    Published client ops service line := by
  obtain ⟨address, listed, rfl | piece⟩ := published
  · exact ⟨x, listed, .inr there⟩
  · rw [loadText_idem piece there]
    exact ⟨address, listed, .inr piece⟩

section
variable {File : Type} [DecidableEq File] {path : Bytes → File} {files : File → Option Bytes}

/-- The registry has listed an address, or one that it is a line of, for the service or for one that
shares its file, or it is a line of what was in that file at the start. -/
def Supplied (client : RegistryClient) (path : Bytes → File) (files : File → Option Bytes)
    (ops : List RegistryCenter.Op) (service x : Bytes) : Prop :=
  (∃ other, path other = path service ∧ Published client ops other x) ∨
    ∃ text, files (path service) = some text ∧ x ∈ loadText text

omit [DecidableEq File] in
theorem Supplied.mono {ops more : List RegistryCenter.Op} {service x : Bytes}
    (supplied : Supplied client path files ops service x) (front : ops <+: more) :
    Supplied client path files more service x := by
  rcases supplied with ⟨other, same, published⟩ | kept
  · exact .inl ⟨other, same, published.mono front⟩
  · exact .inr kept

omit [DecidableEq File] in
theorem Supplied.line {ops : List RegistryCenter.Op} {service x line : Bytes}
    (supplied : Supplied client path files ops service x) (there : line ∈ loadText x) :
    Supplied client path files ops service line := by
  rcases supplied with ⟨other, same, published⟩ | ⟨text, kept, piece⟩
  · exact .inl ⟨other, same, published.line there⟩
  · rw [loadText_idem piece there]
    exact .inr ⟨text, kept, piece⟩

omit [DecidableEq File] in
theorem Supplied.shared {ops : List RegistryCenter.Op} {service other x : Bytes}
    (supplied : Supplied client path files ops service x) (same : path other = path service) :
    Supplied client path files ops other x := by
  unfold Supplied
  rw [same]
  exact supplied

/-- Everything that is cached, in hand or on disk has been listed by the registry or was in the
cache file. -/
structure Traced (client : RegistryClient) (path : Bytes → File) (files : File → Option Bytes)
    (s : Deployment) : Prop where
  cached : ∀ service entry, s.client.cache service = some entry → ∀ x ∈ entry.item.addrs,
    Supplied client path files s.ops service x
  held : ∀ (k : Nat) (call : Call) (list : List Bytes), s.client.calls[k]? = some call →
    call.phase.held = some list → ∀ x ∈ list, Supplied client path files s.ops call.service x
  filed : ∀ service file, s.client.disk service = some file → ∀ x ∈ loadText file.text,
    Supplied client path files s.ops service x

omit [DecidableEq File] in
theorem traced_start : Traced client path files (Deployment.start path files) where
  cached _ _ found := by cases found
  held _ _ _ here := by cases here
  filed service file found x there := by
    obtain ⟨text, kept, rfl⟩ := Option.map_eq_some_iff.mp found
    exact .inr ⟨text, kept, there⟩

omit [DecidableEq File] in
/-- A call moves on with addresses that have been supplied; all else stays as it was. -/
theorem Traced.move {s : Deployment} {next : State} {began : Nat → Nat} (traced : Traced client path files s)
    {k : Nat} {call : Call} {phase : Phase} (here : s.client.calls[k]? = some call)
    (calls : next.calls = s.client.calls.set k { call with phase := phase })
    (held : ∀ list, phase.held = some list → ∀ x ∈ list, Supplied client path files s.ops call.service x)
    (cached : ∀ service entry, next.cache service = some entry → ∀ x ∈ entry.item.addrs,
      Supplied client path files s.ops service x)
    (filed : ∀ service file, next.disk service = some file → ∀ x ∈ loadText file.text,
      Supplied client path files s.ops service x) :
    Traced client path files { s with client := next, began := began } where
  cached := cached
  held j other list found same := by
    rw [calls] at found
    rcases (threads_set_iff here).mp found with ⟨_, rfl⟩ | ⟨_, old⟩
    · exact held list same
    · exact traced.held j other list old same
  filed := filed

/-- A list that is saved, or not, for a service and for those that share its file. -/
theorem Traced.save {s : Deployment} (traced : Traced client path files s) {k moment : Nat} {call : Call}
    {list : List Bytes} {result : SaveResult} (here : s.client.calls[k]? = some call)
    (supplied : ∀ x ∈ list, Supplied client path files s.ops call.service x)
    (own : Deployment.OwnFiles (.client (.save k result))) {next : State}
    (disk : next.disk = Function.update s.client.disk call.service
      (result.file (s.client.disk call.service) list moment)) {service : Bytes} {file : DiskFile}
    (found : (s.client.share path (.save k result) next).disk service = some file) {x : Bytes}
    (there : x ∈ loadText file.text) : Supplied client path files s.ops service x := by
  simp only [State.share, State.writtenFor, here, Option.map_some, disk, Function.update_self] at found
  split at found
  · rename_i same
    refine Supplied.shared ?_ same
    rcases own with rfl | rfl
    · cases found
      obtain ⟨address, member, inside⟩ := mem_loadText_saveText there
      exact (supplied address member).line inside
    · exact traced.filed _ file found x there
  · rename_i differ
    have other : service ≠ call.service := fun same => differ (congrArg path same)
    rw [Function.update_of_ne other] at found
    exact traced.filed service file found x there

theorem Traced.action {s : Deployment} {action : Action} {next : State} {began : Nat → Nat}
    (readsBack : ReadsBack client.parse dump) (traced : Traced client path files s)
    (step : Step client s.client action next) (answered : s.Answers client dump action)
    (own : Deployment.OwnFiles (.client action)) :
    Traced client path files { s with client := s.client.share path action next, began := began } := by
  cases step with
  | call service =>
    refine ⟨traced.cached, ?_, traced.filed⟩
    intro k call list found same
    rcases threads_append_iff.mp found with old | ⟨_, rfl⟩
    · exact traced.held k call list old same
    · cases same
  | hit here entered found young =>
    exact traced.move here rfl (fun list same => by cases same; exact traced.cached _ _ found)
      traced.cached traced.filed
  | miss here entered stale => exact traced.move here rfl nofun traced.cached traced.filed
  | @fetched k since call list answers here fetching result some_ =>
    obtain ⟨before, name, front, -, called, rfl⟩ :=
      fetched_served readsBack (answered call since here fetching) result some_
    refine traced.move here rfl ?_ traced.cached traced.filed
    intro list same x member
    cases same
    exact .inl ⟨call.service, rfl, x, ⟨before, name, front, called, member⟩, .inl rfl⟩
  | failed here fetching result => exact traced.move here rfl nofun traced.cached traced.filed
  | threw here fetching result => exact traced.move here rfl nofun traced.cached traced.filed
  | @save k moment call list result here fetched =>
    have supplied : ∀ x ∈ list, Supplied client path files s.ops call.service x := by
      have held := traced.held k call list here
      rw [fetched] at held
      exact held rfl
    let next : State :=
      { s.client with
        disk := Function.update s.client.disk call.service (result.file (s.client.disk call.service) list moment)
        calls := s.client.calls.set k { call with phase := .ready list (.fetched moment) } }
    have filed : ∀ service file, (s.client.share path (.save k result) next).disk service = some file →
        ∀ x ∈ loadText file.text, Supplied client path files s.ops service x :=
      fun _ _ found _ there => traced.save here supplied own rfl found there
    obtain ⟨disk, shared⟩ := State.share_eq path s.client (.save k result) next
    change Traced client path files { s with client := s.client.share path (.save k result) next, began := began }
    rw [shared] at filed ⊢
    exact traced.move here rfl (fun other same => by cases same; exact supplied) traced.cached filed
  | @load k since call opened here failed =>
    refine traced.move here rfl ?_ traced.cached traced.filed
    intro list same x member
    cases same
    cases there : s.client.disk call.service with
    | none => rw [there] at member; cases opened <;> cases member
    | some file =>
      rw [there] at member
      cases opened with
      | false => cases member
      | true => exact traced.filed _ file there x member
  | @store k call list source here ready =>
    have supplied := traced.held k call list here (by rw [ready]; rfl)
    refine traced.move here rfl (fun other same => by cases same; exact supplied) ?_ traced.filed
    intro service entry found
    rcases entered_iff.mp found with ⟨rfl, rfl⟩ | ⟨_, old⟩
    · exact supplied
    · exact traced.cached service entry old
  | tick duration => exact ⟨traced.cached, traced.held, traced.filed⟩
  | change service text => exact own.elim

theorem Traced.step {s next : Deployment} {label : Deployment.Label} (readsBack : ReadsBack client.parse dump)
    (traced : Traced client path files s) (own : Deployment.OwnFiles label)
    (step : Deployment.Step path client dump s label next) : Traced client path files next := by
  cases step with
  | registry op =>
    have front := List.prefix_append s.ops [op]
    exact ⟨fun service entry found x member => (traced.cached service entry found x member).mono front,
      fun k call list here held x member => (traced.held k call list here held x member).mono front,
      fun service file found x member => (traced.filed service file found x member).mono front⟩
  | client step answered => exact traced.action readsBack step answered own

end

/-- What the balancer selects from a list is on it. -/
theorem select_mem (balancer : LoadBalancer) {list : List Bytes} (some_ : list ≠ []) {draw : Nat}
    (within : draw < list.length) : (balancer.select list draw).1 ∈ list := by
  unfold LoadBalancer.select
  rw [if_neg some_]
  have positive := List.length_pos_iff.mpr some_
  split
  · have inside := Nat.mod_lt balancer.index.toNat positive
    rw [List.getD_eq_getElem _ _ inside]
    exact List.getElem_mem inside
  · rw [List.getD_eq_getElem _ _ within]
    exact List.getElem_mem within

/-- In a directory that nobody else writes to, whatever fails and however the threads of the client
and the changes of the registry interleave, every address that `getAddresses` returns, and so each
one that the balancer selects from it, is an address that the registry has listed for the service or
for one with the same cache file, or a line of one, or a line of what was in that file at the start. -/
theorem addresses_published {File : Type} [DecidableEq File] {path : Bytes → File} {files : File → Option Bytes}
    (readsBack : ReadsBack client.parse dump) {s : Deployment}
    (run : Runs (Restricted (fun _ => Deployment.OwnFiles) (Deployment.Step path client dump))
      (Deployment.start path files) s) {k : Nat} {call : Call} {list : List Bytes}
    (here : s.client.calls[k]? = some call) (returned : call.phase = .returned list) :
    (∀ x ∈ list, Supplied client path files s.ops call.service x) ∧
      ∀ (balancer : LoadBalancer) (draw : Nat), list ≠ [] → draw < list.length →
        Supplied client path files s.ops call.service (balancer.select list draw).1 := by
  have traced : Traced client path files s :=
    run.kept (fun _ _ _ traced own step => Traced.step readsBack traced own step) traced_start
  have supplied := traced.held k call list here (by rw [returned]; rfl)
  exact ⟨supplied, fun balancer draw some_ within => supplied _ (select_mem balancer some_ within)⟩

/-- An address is not registered again, and a fetch of the service gets other addresses, or throws. -/
def StaysAway (client : RegistryClient) (service name address : Bytes) (s : Deployment) :
    Deployment.Label → Prop
  | .registry op => ¬RegistryCenter.Registers client.parse name address op
  | .client (.fetch k answers) => ∀ call, s.client.calls[k]? = some call → call.service = service →
      fetchFromRegistry client.parse client.retryTimes answers ≠ .ok []
  | _ => True

/-- A refreshing call has asked the registry after its first operations, and has no list
with an address. -/
def Without (operations : Nat) (service address : Bytes) (s : Deployment) (call : Call) : Prop :=
  match call.phase with
  | .fetching since => since ≤ s.client.moments ∧ operations ≤ s.began since
  | .fetched list _ | .ready list _ => call.service = service → address ∉ list
  | .failed _ => call.service ≠ service
  | _ => True

theorem without_of_idle {operations : Nat} {service address : Bytes} {s : Deployment} {call : Call}
    (idle : ¬Refreshing call.phase) : Without operations service address s call := by
  obtain ⟨of, phase⟩ := call
  cases phase with
  | fetching since => exact absurd (.fetching since) idle
  | fetched list moment => exact absurd (.fetched list moment) idle
  | failed since => exact absurd (.failed since) idle
  | ready list source => exact absurd (.ready list source) idle
  | _ => trivial

/-- Since an address has been taken off, the registry does not list it, no refreshing call
has it, and only entries of that time or before do. -/
structure Evicting (client : RegistryClient) (start : Deployment) (service name address : Bytes)
    (s : Deployment) : Prop where
  longer : start.ops.length ≤ s.ops.length
  absent : ∀ before, before <+: s.ops → start.ops.length ≤ before.length →
    address ∉ (RegistryCenter.run client.parse before).addresses name
  calls : ∀ (k : Nat) (call : Call), s.client.calls[k]? = some call →
    Without start.ops.length service address s call
  cached : ∀ entry, s.client.cache service = some entry → address ∈ entry.item.addrs →
    entry.item.timestamp ≤ start.client.now
  later : start.client.now ≤ s.client.now

theorem Without.frame {operations : Nat} {service address : Bytes} {s t : Deployment} {call : Call}
    (without : Without operations service address s call) (moments : s.client.moments ≤ t.client.moments)
    (began : ∀ moment, moment ≤ s.client.moments → t.began moment = s.began moment) :
    Without operations service address t call := by
  obtain ⟨of, phase⟩ := call
  cases phase with
  | fetching since =>
    obtain ⟨past, late⟩ : since ≤ s.client.moments ∧ operations ≤ s.began since := without
    exact ⟨past.trans moments, by rw [began since past]; exact late⟩
  | fetched list moment => exact without
  | ready list source => exact without
  | failed since => exact without
  | _ => trivial

/-- A step of the client: one call moves on, and the cache keeps to its old entries. -/
theorem Evicting.move {start s t : Deployment} {service name address : Bytes}
    (evicting : Evicting client start service name address s) {k : Nat} {call : Call} {phase : Phase}
    (here : s.client.calls[k]? = some call)
    (calls : t.client.calls = s.client.calls.set k { call with phase := phase })
    (ops : t.ops = s.ops) (now : t.client.now = s.client.now)
    (moments : s.client.moments ≤ t.client.moments)
    (began : ∀ moment, moment ≤ s.client.moments → t.began moment = s.began moment)
    (without : Without start.ops.length service address t { call with phase := phase })
    (cached : ∀ entry, t.client.cache service = some entry → address ∈ entry.item.addrs →
      entry.item.timestamp ≤ start.client.now) :
    Evicting client start service name address t where
  longer := ops ▸ evicting.longer
  absent := ops ▸ evicting.absent
  calls j other found := by
    rw [calls] at found
    rcases (threads_set_iff here).mp found with ⟨_, rfl⟩ | ⟨_, old⟩
    · exact without
    · exact (evicting.calls j other old).frame moments began
  cached := cached
  later := now ▸ evicting.later

theorem Evicting.action {start s : Deployment} {service name address : Bytes} {action : Action}
    {next : State} (readsBack : ReadsBack client.parse dump) (called : handlerName service = some name)
    (evicting : Evicting client start service name address s)
    (step : RegistryClient.Step client s.client action next) (answered : s.Answers client dump action)
    (away : StaysAway client service name address s (.client action)) :
    Evicting client start service name address
      { s with
        client := next
        began := fun moment => if moment ≤ s.client.moments then s.began moment else s.ops.length } := by
  have began : ∀ moment, moment ≤ s.client.moments →
      (if moment ≤ s.client.moments then s.began moment else s.ops.length) = s.began moment :=
    fun _ past => if_pos past
  cases step with
  | call service =>
    refine ⟨evicting.longer, evicting.absent, ?_, evicting.cached, evicting.later⟩
    intro k call found
    rcases threads_append_iff.mp found with old | ⟨_, rfl⟩
    · exact (evicting.calls k call old).frame le_rfl began
    · trivial
  | hit here entered found young =>
    exact evicting.move here rfl rfl rfl le_rfl began trivial evicting.cached
  | miss here entered stale =>
    refine evicting.move here rfl rfl rfl (Nat.le_succ _) began ⟨le_rfl, ?_⟩ evicting.cached
    exact evicting.longer.trans_eq (if_neg (Nat.not_succ_le_self s.client.moments)).symm
  | @fetched k since call list answers here fetching result some_ =>
    have asked := evicting.calls k call here
    rw [Without, fetching] at asked
    obtain ⟨before, other, front, late, reached, rfl⟩ :=
      fetched_served readsBack (answered call since here fetching) result some_
    refine evicting.move here rfl rfl rfl (Nat.le_succ _) began ?_ evicting.cached
    intro same
    rw [same, called] at reached
    cases reached
    exact evicting.absent before front (asked.2.trans late)
  | failed here fetching result =>
    exact evicting.move here rfl rfl rfl le_rfl began (fun same => away _ here same result) evicting.cached
  | threw here fetching result =>
    exact evicting.move here rfl rfl rfl le_rfl began trivial evicting.cached
  | save result here fetched =>
    have without := evicting.calls _ _ here
    rw [Without, fetched] at without
    exact evicting.move here rfl rfl rfl le_rfl began without evicting.cached
  | load opened here failed =>
    have without := evicting.calls _ _ here
    rw [Without, failed] at without
    exact evicting.move here rfl rfl rfl le_rfl began (fun same => absurd same without) evicting.cached
  | @store k call list source here ready =>
    have without := evicting.calls k call here
    rw [Without, ready] at without
    refine evicting.move here rfl rfl rfl le_rfl began trivial ?_
    intro entry found there
    rcases entered_iff.mp found with ⟨rfl, rfl⟩ | ⟨_, old⟩
    · exact absurd there (without rfl)
    · exact evicting.cached entry old there
  | tick duration =>
    exact ⟨evicting.longer, evicting.absent, fun k call found => (evicting.calls k call found).frame le_rfl began,
      evicting.cached, evicting.later.trans (Nat.le_add_right _ _)⟩
  | change => exact ⟨evicting.longer, evicting.absent,
      fun k call found => (evicting.calls k call found).frame le_rfl began, evicting.cached, evicting.later⟩

section
variable {File : Type} [DecidableEq File] {path : Bytes → File}

theorem Evicting.step {start s next : Deployment} {service name address : Bytes} {label : Deployment.Label}
    (readsBack : ReadsBack client.parse dump) (called : handlerName service = some name)
    (evicting : Evicting client start service name address s) (away : StaysAway client service name address s label)
    (step : Deployment.Step path client dump s label next) :
    Evicting client start service name address next := by
  cases step with
  | registry op =>
    refine ⟨?_, ?_, ?_, evicting.cached, evicting.later⟩
    · rw [List.length_append]
      exact evicting.longer.trans (Nat.le_add_right _ _)
    · intro before front late
      rcases List.prefix_concat_iff.mp front with whole | early
      · have absent := evicting.absent s.ops (List.prefix_refl _) evicting.longer
        rw [RegistryCenter.mem_addresses] at absent ⊢
        rw [whole, RegistryCenter.run, List.foldl_append]
        intro there
        rcases (RegistryCenter.mem_apply client.parse _ op name address).mp there with again | ⟨kept, _⟩
        · exact away again
        · exact absent kept
      · exact evicting.absent before early late
    · exact fun k call found => (evicting.calls k call found).frame le_rfl fun _ _ => rfl
  | @client action next step answered =>
    have acted := evicting.action readsBack called step answered away
    obtain ⟨disk, shared⟩ := State.share_eq path s.client action next
    rw [shared]
    exact ⟨acted.longer, acted.absent, fun k call found => (acted.calls k call found).frame le_rfl fun _ _ => rfl,
      acted.cached, acted.later⟩

/-- An entry stays too old as time goes on. -/
theorem Expired.mono {now later : Nat} {young old : CacheItem} (expired : client.Expired now young)
    (time : now ≤ later) (older : old.timestamp ≤ young.timestamp) : client.Expired later old := by
  have spans : (now : Int) - young.timestamp ≤ (later : Int) - old.timestamp := by omega
  exact expired.trans (Int.tdiv_le_tdiv (by decide) spans)

/-- The entries of the time when an address was taken off are too old, and none of the later
calls has returned it. -/
structure Evicted (client : RegistryClient) (start middle : Deployment) (service name address : Bytes)
    (s : Deployment) : Prop where
  evicting : Evicting client start service name address s
  expired : client.Expired s.client.now ⟨[], start.client.now⟩
  returned : ∀ (k : Nat) (call : Call) (list : List Bytes), middle.client.calls.length ≤ k →
    s.client.calls[k]? = some call → call.service = service → call.phase = .returned list → address ∉ list

/-- A call that has returned had returned before, or it has found its list in the cache, or stored it. -/
theorem Step.returned {s t : State} {action : Action} (step : Step client s action t) {k : Nat} {call : Call}
    {list : List Bytes} (found : t.calls[k]? = some call) (returned : call.phase = .returned list) :
    s.calls[k]? = some call ∨
      (∃ entry, s.cache call.service = some entry ∧ ¬client.Expired s.now entry.item ∧
        entry.item.addrs = list) ∨
      ∃ source, s.calls[k]? = some { call with phase := .ready list source } := by
  have other : ∀ {i : Nat} {moved : Call} {phase : Phase}, s.calls[i]? = some moved →
      (s.calls.set i { moved with phase := phase })[k]? = some call → phase.held = none →
      s.calls[k]? = some call := by
    intro i moved phase here found none_
    rcases (threads_set_iff here).mp found with ⟨_, rfl⟩ | ⟨_, old⟩
    · simp only at returned
      rw [returned] at none_
      cases none_
    · exact old
  cases step with
  | call service =>
    rcases threads_append_iff.mp found with old | ⟨_, rfl⟩
    · exact .inl old
    · cases returned
  | hit here entered cached young =>
    rcases (threads_set_iff here).mp found with ⟨_, rfl⟩ | ⟨_, old⟩
    · cases returned
      exact .inr (.inl ⟨_, cached, young, rfl⟩)
    · exact .inl old
  | miss here => exact .inl (other here found rfl)
  | fetched here =>
    rcases (threads_set_iff here).mp found with ⟨_, rfl⟩ | ⟨_, old⟩
    · cases returned
    · exact .inl old
  | failed here => exact .inl (other here found rfl)
  | threw here => exact .inl (other here found rfl)
  | save result here =>
    rcases (threads_set_iff here).mp found with ⟨_, rfl⟩ | ⟨_, old⟩
    · cases returned
    · exact .inl old
  | load opened here =>
    rcases (threads_set_iff here).mp found with ⟨_, rfl⟩ | ⟨_, old⟩
    · cases returned
    · exact .inl old
  | @store j stored _ source here ready =>
    rcases (threads_set_iff here).mp found with ⟨rfl, rfl⟩ | ⟨_, old⟩
    · cases returned
      refine .inr (.inr ⟨source, ?_⟩)
      rw [here, ← ready]
    · exact .inl old
  | tick => exact .inl found
  | change => exact .inl found

theorem Step.now_le {s t : State} {action : Action} (step : Step client s action t) : s.now ≤ t.now := by
  cases step with
  | tick duration => exact Nat.le_add_right _ _
  | _ => exact le_rfl

theorem Evicted.step {start middle s next : Deployment} {service name address : Bytes}
    {label : Deployment.Label} (readsBack : ReadsBack client.parse dump)
    (called : handlerName service = some name)
    (evicted : Evicted client start middle service name address s)
    (away : StaysAway client service name address s label) (step : Deployment.Step path client dump s label next) :
    Evicted client start middle service name address next := by
  have evicting := evicted.evicting.step readsBack called away step
  cases step with
  | registry op => exact ⟨evicting, evicted.expired, evicted.returned⟩
  | @client action next step answered =>
    obtain ⟨disk, shared⟩ := State.share_eq path s.client action next
    rw [shared] at evicting ⊢
    refine ⟨evicting, Expired.mono evicted.expired step.now_le le_rfl, ?_⟩
    intro k call list new found same returned there
    rcases step.returned found returned with old | ⟨entry, cached, young, rfl⟩ | ⟨source, ready⟩
    · exact evicted.returned k call list new old same returned there
    · rw [same] at cached
      exact young (Expired.mono evicted.expired le_rfl (evicted.evicting.cached entry cached there))
    · exact evicted.evicting.calls k _ ready same there

/-- No entry is dated later than now. -/
def Dated (s : Deployment) : Prop :=
  ∀ service entry, s.client.cache service = some entry → entry.item.timestamp ≤ s.client.now

theorem Dated.step {s next : Deployment} {label : Deployment.Label} (dated : Dated s)
    (step : Deployment.Step path client dump s label next) : Dated next := by
  cases step with
  | registry op => exact dated
  | @client action next step answered =>
    obtain ⟨disk, shared⟩ := State.share_eq path s.client action next
    rw [shared]
    intro service entry found
    have time := step.now_le
    cases step with
    | store here ready =>
      rcases entered_iff.mp found with ⟨_, rfl⟩ | ⟨_, old⟩
      · exact le_rfl
      · exact dated service entry old
    | _ => exact (dated service entry found).trans time

/-- An address that has been taken off the registry while no call is refreshing is handed out
no longer than the entries of that time are young: no call that begins when they are too
old returns it, as long as it is not registered again and the registry answers with others,
whatever is in the cache files. -/
theorem address_evicted {files : File → Option Bytes} (readsBack : ReadsBack client.parse dump) {start middle later : Deployment}
    (reached : Runs (Deployment.Step path client dump) (Deployment.start path files) start) {service name address : Bytes}
    (called : handlerName service = some name)
    (off : address ∉ (RegistryCenter.run client.parse start.ops).addresses name)
    (idle : ∀ (k : Nat) (call : Call), start.client.calls[k]? = some call → ¬Refreshing call.phase)
    (first : Runs (Restricted (StaysAway client service name address) (Deployment.Step path client dump)) start middle)
    (expired : client.Expired middle.client.now ⟨[], start.client.now⟩)
    (second : Runs (Restricted (StaysAway client service name address) (Deployment.Step path client dump)) middle later)
    {k : Nat} {call : Call} {list : List Bytes} (new : middle.client.calls.length ≤ k)
    (here : later.client.calls[k]? = some call) (same : call.service = service)
    (returned : call.phase = .returned list) : address ∉ list := by
  have dated : Dated start := reached.invariant (fun _ _ _ dated step => dated.step step) (fun _ _ found => by cases found)
  have begins : Evicting client start service name address start := by
    refine ⟨le_rfl, ?_, fun k call found => without_of_idle (idle k call found),
      fun entry found _ => dated service entry found, le_rfl⟩
    intro before front late
    rw [front.eq_of_length_le late]
    exact off
  have evicting := first.kept
    (fun _ _ _ evicting away step => Evicting.step readsBack called evicting away step) begins
  have none_ : ∀ (k : Nat) (call : Call) (list : List Bytes), middle.client.calls.length ≤ k →
      middle.client.calls[k]? = some call → call.service = service → call.phase = .returned list →
      address ∉ list := by
    intro k call list new found
    rw [List.getElem?_eq_none new] at found
    cases found
  have evicted := second.kept
    (fun _ _ _ evicted away step => Evicted.step readsBack called evicted away step)
    (show Evicted client start middle service name address middle from ⟨evicting, expired, none_⟩)
  exact evicted.returned k call list new here same returned

end

/-- What the JSON library does with registrations of these addresses and with lists of one. -/
def parseKnown (service : Bytes) (known : List Bytes) (text : Bytes) : Except JsonException Json :=
  match known.find? fun address => text = registerBody service address with
  | some address =>
    .ok (.object [(asciiText "address", .string address), (asciiText "service", .string service)])
  | none =>
    match known.find? fun address => text = listBody address with
    | some address => .ok (.ofStrings [address])
    | none => .error .parse_error

def dumpKnown (known : List Bytes) : Json → Except JsonException Bytes
  | .array [.string value] =>
    if known.any fun address => address = value then .ok (listBody value) else .error .type_error
  | _ => .error .type_error

theorem any_known {known : List Bytes} {value : Bytes} :
    (known.any fun address => address = value) = true ↔ value ∈ known := by
  simp

namespace TwoServers

def service : Bytes := asciiText "MathService"
def old : Bytes := asciiText "127.0.0.1:9000"
def new : Bytes := asciiText "127.0.0.1:9001"
def mathClient : RegistryClient := ⟨parseKnown service [old, new], 30, 2⟩
def dumpList : Json → Except JsonException Bytes := dumpKnown [old, new]

theorem readsBack : ReadsBack mathClient.parse dumpList := by
  intro list text dumped
  match list with
  | [] => cases dumped
  | [value] =>
    have known : value ∈ [old, new] := by
      by_contra unknown
      have failed : dumpList (.ofStrings [value]) = .error .type_error := if_neg (unknown ∘ any_known.mp)
      cases failed.symm.trans dumped
    have written : dumpList (.ofStrings [value]) = .ok (listBody value) := if_pos (any_known.mpr known)
    cases written.symm.trans dumped
    rcases List.mem_cons.mp known with rfl | other
    · rfl
    · cases List.mem_singleton.mp other
      rfl
  | _ :: _ :: _ => cases dumped

theorem called : handlerName service = some service := by decide

/-- An answer of the registry when it knows one address. -/
theorem answered {ops : List RegistryCenter.Op} {address : Bytes}
    (only : (RegistryCenter.run mathClient.parse ops).discover service = {address}) (known : address ∈ [old, new]) :
    fetchFromRegistry mathClient.parse mathClient.retryTimes (fun _ => some
      (serveGet dumpList (RegistryCenter.run mathClient.parse ops) (requestLine (discoverPath service)))) =
      .ok [address] := by
  have listed : (RegistryCenter.run mathClient.parse ops).addresses service = [address] := by
    rw [RegistryCenter.addresses, only, Finset.sort_singleton]
  have written : dumpList (.ofStrings [address]) = .ok (listBody address) := if_pos (any_known.mpr known)
  have served := serveGet_of_handlerName called (by decide) ((congrArg (dumpList <| .ofStrings ·) listed).trans written)
  rw [served]
  exact fetchFromRegistry_answered (by decide) (readsBack _ _ written)

/-- `./x` leads to the file of `x`. -/
def path (service : Bytes) : Bytes := if service.take 2 = asciiText "./" then service.drop 2 else service

def dotted : Bytes := asciiText "./MathService"

/-- What an earlier client has left. -/
def leftover (address file : Bytes) : Option Bytes := if file = service then some (saveText [address]) else none

/-- A call that comes to nothing in the cache is answered by the registry, and the answer is saved. -/
theorem refresh {ops : List RegistryCenter.Op} {address : Bytes} {s : Deployment}
    (only : (RegistryCenter.run mathClient.parse ops).discover service = {address})
    (known : address ∈ [old, new]) (same : s.ops = ops)
    (stale : mathClient.Stale s.client service) {allowed : Deployment → Deployment.Label → Prop}
    (free : ∀ s action, Deployment.OwnFiles (.client action) → (∀ k answers, action = .fetch k answers →
      fetchFromRegistry mathClient.parse mathClient.retryTimes answers ≠ .ok []) → allowed s (.client action)) :
    ∃ t, Runs (Restricted allowed (Deployment.Step path mathClient dumpList)) s t ∧ t.ops = ops ∧
      t.client.now = s.client.now ∧
      t.client.calls = s.client.calls ++ [⟨service, .returned [address]⟩] ∧
      (∃ source, t.client.cache =
        Function.update s.client.cache service (some ⟨⟨[address], s.client.now⟩, source⟩)) ∧
      ∃ moment, t.client.disk dotted = some ⟨saveText [address], moment⟩ := by
  subst ops
  have result := answered only known
  have begins : Runs (Restricted allowed (Deployment.Step path mathClient dumpList)) s s := .refl
  have entered : (s.client.calls ++ [⟨service, .entered⟩])[s.client.calls.length]? =
      some ⟨service, .entered⟩ := by simp
  have asked := begins.allow (.client (.call service) trivial) (free _ _ trivial nofun)
  have missed := asked.allow (.client (.miss entered rfl stale) trivial) (free _ _ trivial nofun)
  have fetching := threads_set_self entered ⟨service, .fetching (s.client.moments + 1)⟩
  have fetched := missed.allow
    (.client (.fetched fetching rfl result (List.cons_ne_nil _ _)) (fun call since here phase _ => by
      cases here.symm.trans fetching
      cases phase
      exact .inr ⟨s.ops, List.prefix_refl _, (if_neg (Nat.not_succ_le_self _)).le, rfl⟩))
    (free _ _ trivial fun _ _ same => by cases same; rw [result]; exact nofun)
  have got := threads_set_self fetching ⟨service, .fetched [address] (s.client.moments + 1 + 1)⟩
  have saved := fetched.allow (.client (.save .complete got rfl) trivial) (free _ _ (.inl rfl) nofun)
  simp only [State.share, State.writtenFor, got, Option.map_some] at saved
  have ready := threads_set_self got ⟨service, .ready [address] (.fetched (s.client.moments + 1 + 1))⟩
  have stored := saved.allow (.client (.store ready rfl) trivial) (free _ _ trivial nofun)
  refine ⟨_, stored, rfl, rfl, by simp [State.share, State.writtenFor],
    ⟨.fetched (s.client.moments + 1 + 1), rfl⟩, s.client.moments + 1 + 1, ?_⟩
  have shares : path dotted = path service := by decide
  simp [State.share, State.writtenFor, shares, SaveResult.file]

/-- A call that comes to nothing in the cache and cannot reach the registry falls back to the file. -/
theorem fallback {s : Deployment} {name : Bytes} {file : DiskFile} (stale : mathClient.Stale s.client name)
    (there : s.client.disk name = some file) :
    ∃ t, Runs (Restricted (fun _ => Deployment.OwnFiles) (Deployment.Step path mathClient dumpList)) s t ∧
      t.ops = s.ops ∧ t.client.now = s.client.now ∧
      t.client.calls = s.client.calls ++ [⟨name, .returned (loadText file.text)⟩] ∧
      ∃ source, t.client.cache =
        Function.update s.client.cache name (some ⟨⟨loadText file.text, s.client.now⟩, source⟩) := by
  have begins : Runs (Restricted (fun _ => Deployment.OwnFiles) (Deployment.Step path mathClient dumpList)) s s := .refl
  have entered : (s.client.calls ++ [⟨name, .entered⟩])[s.client.calls.length]? = some ⟨name, .entered⟩ := by simp
  have asked := begins.allow (.client (.call name) trivial) trivial
  have missed := asked.allow (.client (.miss entered rfl stale) trivial) trivial
  have fetching := threads_set_self entered ⟨name, .fetching (s.client.moments + 1)⟩
  have unreached : fetchFromRegistry mathClient.parse mathClient.retryTimes (fun _ => none) = .ok [] := rfl
  have failed := missed.allow (.client (.failed fetching rfl unreached) fun _ _ _ _ _ => .inl rfl) trivial
  have waits := threads_set_self fetching ⟨name, .failed (s.client.moments + 1)⟩
  have loaded := failed.allow (.client (.load true waits rfl) trivial) trivial
  have found : (loadFromDisk (s.client.disk name) true).1 = loadText file.text := by rw [there]; rfl
  have ready := threads_set_self waits ⟨name, .ready (loadFromDisk (s.client.disk name) true).1
    (.loaded (s.client.moments + 1) (loadFromDisk (s.client.disk name) true).2)⟩
  have stored := loaded.allow (.client (.store ready rfl) trivial) trivial
  refine ⟨_, stored, rfl, rfl, ?_, _, by rw [← found]; rfl⟩
  simp [State.share, State.writtenFor, found]

def registerOld : RegistryCenter.Op := .register (registerBody service old)
def unregisterOld : RegistryCenter.Op := .unregisterService service old
def registerNew : RegistryCenter.Op := .register (registerBody service new)

/-- A client has the one server that is registered. -/
theorem first_run (files : Bytes → Option Bytes) :
    ∃ s : Deployment, Runs (Deployment.Step path mathClient dumpList) (Deployment.start path files) s ∧
      s.ops = [registerOld] ∧ s.client.now = 0 ∧ s.client.calls = [⟨service, .returned [old]⟩] ∧
      ∃ source, s.client.cache service = some ⟨⟨[old], 0⟩, source⟩ := by
  let registered : Deployment := { Deployment.start path files with ops := [registerOld] }
  have start : Runs (Deployment.Step path mathClient dumpList) (Deployment.start path files) registered :=
    .one (.registry registerOld)
  obtain ⟨s, run, ops, now, calls, ⟨source, cached⟩, -⟩ := @refresh [registerOld] old registered
    (by decide) (by decide) rfl (fun _ found => by cases found) (fun _ _ => True) (fun _ _ _ _ => trivial)
  have plain : Runs (Deployment.Step path mathClient dumpList) registered s :=
    Relation.ReflTransGen.mono (fun _ _ ⟨label, move⟩ => ⟨label, move.2⟩) _ _ run
  exact ⟨s, start.trans plain, ops, now, calls, source, by rw [cached, Function.update_self]; rfl⟩

end TwoServers

/-- A client that cannot reach the registry has the address an earlier client has left; thirty seconds
later it gets the one that is registered, which stands in for the service under its other name. -/
theorem addresses_published_fallback : ∃ s : Deployment, s.ops = [TwoServers.registerOld] ∧
    s.client.calls = [⟨TwoServers.service, .returned [TwoServers.new]⟩,
      ⟨TwoServers.service, .returned [TwoServers.old]⟩, ⟨TwoServers.dotted, .returned [TwoServers.old]⟩] ∧
    Supplied TwoServers.mathClient TwoServers.path (TwoServers.leftover TwoServers.new) s.ops TwoServers.service
      TwoServers.new ∧
    Supplied TwoServers.mathClient TwoServers.path (TwoServers.leftover TwoServers.new) s.ops TwoServers.dotted
      TwoServers.old := by
  let start := Deployment.start TwoServers.path (TwoServers.leftover TwoServers.new)
  obtain ⟨down, first, none_, zero, alone, source, cached⟩ :=
    @TwoServers.fallback start TwoServers.service _ (fun _ found => by cases found) rfl
  let up : Deployment :=
    { down with
      ops := down.ops ++ [TwoServers.registerOld]
      client := { down.client with now := down.client.now + 30000000000 }
      began := fun moment => if moment ≤ down.client.moments then down.began moment else
        (down.ops ++ [TwoServers.registerOld]).length }
  have reached := (first.allow (.registry TwoServers.registerOld) trivial).allow
    (.client (.tick 30000000000) trivial) trivial
  have ops : up.ops = [TwoServers.registerOld] := congrArg (· ++ _) none_
  have stale : TwoServers.mathClient.Stale up.client TwoServers.service := by
    intro entry found
    simp only [up, cached, Function.update_self] at found
    cases found
    simp only [up, zero]
    decide
  obtain ⟨saved, second, same, now, both, ⟨later, cached'⟩, moment, disk⟩ := @TwoServers.refresh
    [TwoServers.registerOld] TwoServers.old up (by decide) (by decide) ops stale (fun _ => Deployment.OwnFiles)
    (fun _ _ own _ => own)
  have unknown : TwoServers.mathClient.Stale saved.client TwoServers.dotted := by
    intro entry found
    rw [cached', Function.update_of_ne (by decide)] at found
    simp only [up, cached] at found
    rw [Function.update_of_ne (by decide)] at found
    cases found
  obtain ⟨last, third, ops', -, calls, -⟩ := TwoServers.fallback unknown disk
  have read : loadText (saveText [TwoServers.old]) = [TwoServers.old] := by decide
  have leftover : loadText (saveText [TwoServers.new]) = [TwoServers.new] := by decide
  have all : last.client.calls = [⟨TwoServers.service, .returned [TwoServers.new]⟩,
      ⟨TwoServers.service, .returned [TwoServers.old]⟩, ⟨TwoServers.dotted, .returned [TwoServers.old]⟩] := by
    rw [calls, both, read]
    simp only [up, alone]
    rfl
  have run := (reached.trans second).trans third
  have atFirst : last.client.calls[0]? = some ⟨TwoServers.service, .returned [TwoServers.new]⟩ := by rw [all]; rfl
  have atLast : last.client.calls[2]? = some ⟨TwoServers.dotted, .returned [TwoServers.old]⟩ := by rw [all]; rfl
  refine ⟨last, ops'.trans same, all, ?_, ?_⟩
  · exact (addresses_published TwoServers.readsBack run atFirst rfl).1 _ List.mem_cons_self
  · exact (addresses_published TwoServers.readsBack run atLast rfl).1 _ List.mem_cons_self

/-- The server is replaced by another one; thirty seconds later a client that still had it
in its cache gets the other one only. -/
theorem address_evicted_old : ∃ s : Deployment,
    s.client.calls = [⟨TwoServers.service, .returned [TwoServers.old]⟩,
      ⟨TwoServers.service, .returned [TwoServers.new]⟩] ∧ TwoServers.old ∉ [TwoServers.new] := by
  let files := TwoServers.leftover TwoServers.old
  obtain ⟨s, run, ops, now, calls, source, cached⟩ := TwoServers.first_run files
  let start : Deployment := { s with ops := s.ops ++ [TwoServers.unregisterOld] ++ [TwoServers.registerNew] }
  let middle : Deployment :=
    { start with
      client := { s.client with now := s.client.now + 30000000000 }
      began := fun moment => if moment ≤ s.client.moments then s.began moment else start.ops.length }
  have reached : Runs (Deployment.Step TwoServers.path TwoServers.mathClient TwoServers.dumpList)
      (Deployment.start TwoServers.path files) start :=
    (run.tail ⟨_, .registry TwoServers.unregisterOld⟩).tail ⟨_, .registry TwoServers.registerNew⟩
  have only : (RegistryCenter.run TwoServers.mathClient.parse start.ops).discover TwoServers.service =
      {TwoServers.new} := by
    simp only [start, ops]
    decide
  have off : TwoServers.old ∉
      (RegistryCenter.run TwoServers.mathClient.parse start.ops).addresses TwoServers.service := by
    rw [RegistryCenter.mem_addresses, only]
    decide
  have idle : ∀ (k : Nat) (call : Call), start.client.calls[k]? = some call → ¬Refreshing call.phase := by
    intro k call found refreshing
    have member : call ∈ s.client.calls := List.mem_of_getElem? found
    rw [calls] at member
    cases List.mem_singleton.mp member
    cases refreshing
  have first : Runs (Restricted (StaysAway TwoServers.mathClient TwoServers.service TwoServers.service TwoServers.old)
      (Deployment.Step TwoServers.path TwoServers.mathClient TwoServers.dumpList)) start middle :=
    .single ⟨.client (.tick 30000000000), trivial, .client (.tick 30000000000) trivial⟩
  have expired : TwoServers.mathClient.Expired middle.client.now ⟨[], start.client.now⟩ := by
    simp only [middle, start, now]
    decide
  have stale : TwoServers.mathClient.Stale middle.client TwoServers.service := by
    intro entry found
    cases cached.symm.trans found
    exact Expired.mono expired le_rfl (Nat.zero_le _)
  obtain ⟨later, second, -, -, after, -⟩ := @TwoServers.refresh start.ops TwoServers.new middle only (by decide)
    rfl stale (StaysAway TwoServers.mathClient TwoServers.service TwoServers.service TwoServers.old)
    (fun s action _ fetches => by
      cases action with
      | fetch k answers => exact fun _ _ _ => fetches k answers rfl
      | _ => trivial)
  have calls' : later.client.calls = [⟨TwoServers.service, .returned [TwoServers.old]⟩,
      ⟨TwoServers.service, .returned [TwoServers.new]⟩] := by
    rw [after]
    exact congrArg (· ++ _) calls
  have here : later.client.calls[1]? = some ⟨TwoServers.service, .returned [TwoServers.new]⟩ := by
    rw [calls']; rfl
  have new : middle.client.calls.length ≤ 1 := (congrArg List.length calls).le
  exact ⟨later, calls', address_evicted TwoServers.readsBack reached TwoServers.called off idle first expired
    second new here rfl rfl⟩

end ReactorRpc.RegistryClient
