import ReactorRpc.Library.Entries
import ReactorRpc.Library.Runs
import ReactorRpc.Library.Threads
import ReactorRpc.RegistryClient

namespace ReactorRpc.RegistryClient
open Streams

/-- Where the list of an entry comes from: a fetch that ended at a moment, or the
disk, read because a fetch that began at a moment gave nothing. Moments are
counted by the beginnings and ends of fetches; a file carries the moment at which
its list was fetched. -/
inductive Source
  | fetched (moment : Nat)
  | loaded (since recency : Nat)
  deriving DecidableEq

/-- When the list was fetched, 0 if before all fetches. -/
def Source.recency : Source → Nat
  | fetched moment => moment
  | loaded _ recency => recency

/-- Where a call of `getAddresses` is. -/
inductive Phase
  | entered
  | fetching (since : Nat)
  | fetched (list : List Bytes) (moment : Nat)
  | failed (since : Nat)
  | ready (list : List Bytes) (source : Source)
  | returned (list : List Bytes)
  | threw (exception : JsonException)
  deriving DecidableEq

structure Call where
  service : Bytes
  phase : Phase := .entered
  deriving DecidableEq

structure Entry where
  item : CacheItem
  source : Source
  deriving DecidableEq

structure DiskFile where
  text : Bytes
  recency : Nat
  deriving DecidableEq

/-- A write of `cache_`: where the list that was there came from, and the new one. -/
structure Write where
  before : Option Source
  after : Source
  deriving DecidableEq

/-- The clock, the moments so far, `cache_`, the cache file of each service, the
calls of `getAddresses`, and the writes of `cache_`. -/
structure State where
  now : Nat := 0
  moments : Nat := 0
  cache : Bytes → Option Entry := fun _ => none
  disk : Bytes → Option DiskFile := fun _ => none
  calls : List Call := []
  writes : List Write := []

/-- How a save ends: the new file is complete, it could not be opened, or it has
a part of the list. -/
inductive SaveResult
  | complete
  | unopened
  | cut (text : Bytes)
  deriving DecidableEq

def SaveResult.file (old : Option DiskFile) (list : List Bytes) (moment : Nat) :
    SaveResult → Option DiskFile
  | complete => some ⟨saveText list, moment⟩
  | unopened => old
  | cut text => some ⟨text, 0⟩

/-- The list that `loadFromDisk` returns, and how recent it is. -/
def loadFromDisk (file : Option DiskFile) (opened : Bool) : List Bytes × Nat :=
  match file, opened with
  | some file, true => (loadText file.text, file.recency)
  | _, _ => ([], 0)

inductive Action
  | call (service : Bytes)
  | lookup (k : Nat)
  | fetch (k : Nat) (answers : Nat → Option HttpResponse)
  | save (k : Nat) (result : SaveResult)
  | load (k : Nat) (opened : Bool)
  | store (k : Nat)
  | tick (duration : Nat)
  | change (service : Bytes) (text : Option Bytes)

/-- The entry of a service is missing or too old. -/
def Stale (client : RegistryClient) (s : State) (service : Bytes) : Prop :=
  ∀ entry, s.cache service = some entry → client.Expired s.now entry.item

/-- The steps of the threads in `getAddresses`, of the clock, and of others that
change the cache file of a service. -/
inductive Step (client : RegistryClient) : State → Action → State → Prop
  | call {s : State} (service : Bytes) :
      Step client s (.call service) { s with calls := s.calls ++ [{ service }] }
  | hit {s : State} {k : Nat} {call : Call} {entry : Entry} (here : s.calls[k]? = some call)
      (entered : call.phase = .entered) (found : s.cache call.service = some entry)
      (young : ¬client.Expired s.now entry.item) :
      Step client s (.lookup k)
        { s with calls := s.calls.set k { call with phase := .returned entry.item.addrs } }
  | miss {s : State} {k : Nat} {call : Call} (here : s.calls[k]? = some call)
      (entered : call.phase = .entered) (stale : client.Stale s call.service) :
      Step client s (.lookup k)
        { s with
          moments := s.moments + 1
          calls := s.calls.set k { call with phase := .fetching (s.moments + 1) } }
  | fetched {s : State} {k since : Nat} {call : Call} {list : List Bytes}
      {answers : Nat → Option HttpResponse} (here : s.calls[k]? = some call)
      (fetching : call.phase = .fetching since)
      (result : fetchFromRegistry client.parse client.retryTimes answers = .ok list) (some_ : list ≠ []) :
      Step client s (.fetch k answers)
        { s with
          moments := s.moments + 1
          calls := s.calls.set k { call with phase := .fetched list (s.moments + 1) } }
  | failed {s : State} {k since : Nat} {call : Call} {answers : Nat → Option HttpResponse}
      (here : s.calls[k]? = some call) (fetching : call.phase = .fetching since)
      (result : fetchFromRegistry client.parse client.retryTimes answers = .ok []) :
      Step client s (.fetch k answers)
        { s with calls := s.calls.set k { call with phase := .failed since } }
  | threw {s : State} {k since : Nat} {call : Call} {answers : Nat → Option HttpResponse}
      {exception : JsonException} (here : s.calls[k]? = some call) (fetching : call.phase = .fetching since)
      (result : fetchFromRegistry client.parse client.retryTimes answers = .error exception) :
      Step client s (.fetch k answers)
        { s with calls := s.calls.set k { call with phase := .threw exception } }
  | save {s : State} {k moment : Nat} {call : Call} {list : List Bytes} (result : SaveResult)
      (here : s.calls[k]? = some call) (fetched : call.phase = .fetched list moment) :
      Step client s (.save k result)
        { s with
          disk := Function.update s.disk call.service (result.file (s.disk call.service) list moment)
          calls := s.calls.set k { call with phase := .ready list (.fetched moment) } }
  | load {s : State} {k since : Nat} {call : Call} (opened : Bool) (here : s.calls[k]? = some call)
      (failed : call.phase = .failed since) :
      Step client s (.load k opened)
        { s with
          calls := s.calls.set k { call with
            phase := .ready (loadFromDisk (s.disk call.service) opened).1
              (.loaded since (loadFromDisk (s.disk call.service) opened).2) } }
  | store {s : State} {k : Nat} {call : Call} {list : List Bytes} {source : Source}
      (here : s.calls[k]? = some call) (ready : call.phase = .ready list source) :
      Step client s (.store k)
        { s with
          cache := Function.update s.cache call.service (some ⟨⟨list, s.now⟩, source⟩)
          writes := s.writes ++ [⟨(s.cache call.service).map Entry.source, source⟩]
          calls := s.calls.set k { call with phase := .returned list } }
  | tick {s : State} (duration : Nat) :
      Step client s (.tick duration) { s with now := s.now + duration }
  | change {s : State} (service : Bytes) (text : Option Bytes) :
      Step client s (.change service text)
        { s with disk := Function.update s.disk service (text.map fun text => ⟨text, 0⟩) }

/-- No list that is cached, about to be, or returned is empty. -/
structure Stocked (s : State) : Prop where
  cached : ∀ service entry, s.cache service = some entry → entry.item.addrs ≠ []
  fetched : ∀ (k : Nat) (call : Call) (list : List Bytes) (moment : Nat), s.calls[k]? = some call →
    call.phase = .fetched list moment → list ≠ []
  ready : ∀ (k : Nat) (call : Call) (list : List Bytes) (source : Source), s.calls[k]? = some call →
    call.phase = .ready list source → list ≠ []
  returned : ∀ (k : Nat) (call : Call) (list : List Bytes), s.calls[k]? = some call →
    call.phase = .returned list → list ≠ []

/-- A cache file is read only when it can be opened and has a line that is not empty. -/
def LoadsSomething (s : State) : Action → Prop
  | .load k opened => ∀ call, s.calls[k]? = some call →
      opened = true ∧ ∃ file, s.disk call.service = some file ∧ ∃ x ∈ file.text, x ≠ lineEnd
  | _ => True

theorem loadFromDisk_ne_nil {file : Option DiskFile} {opened : Bool} :
    (loadFromDisk file opened).1 ≠ [] ↔
      opened = true ∧ ∃ there, file = some there ∧ ∃ x ∈ there.text, x ≠ lineEnd := by
  cases file with
  | none => cases opened <;> simp [loadFromDisk]
  | some there =>
    cases opened with
    | false => simp [loadFromDisk]
    | true => simp [loadFromDisk, loadText_ne_nil_iff]

theorem Stocked.start (disk : Bytes → Option DiskFile) : Stocked { disk } where
  cached _ _ found := by cases found
  fetched _ _ _ _ here := by cases here
  ready _ _ _ _ here := by cases here
  returned _ _ _ here := by cases here

/-- The list that a call has in hand. -/
def Phase.held : Phase → Option (List Bytes)
  | fetched list _ => some list
  | ready list _ => some list
  | returned list => some list
  | _ => none

/-- A call moves on with no list, or one that is not empty. -/
theorem Stocked.move {s : State} (stocked : Stocked s) {k : Nat} {call : Call}
    (here : s.calls[k]? = some call) {phase : Phase} (some_ : ∀ list, phase.held = some list → list ≠ []) :
    Stocked { s with calls := s.calls.set k { call with phase := phase } } where
  cached := stocked.cached
  fetched j other list moment found same := by
    rcases (threads_set_iff here).mp found with ⟨_, rfl⟩ | ⟨_, old⟩
    · exact some_ list (congrArg Phase.held same)
    · exact stocked.fetched j other list moment old same
  ready j other list source found same := by
    rcases (threads_set_iff here).mp found with ⟨_, rfl⟩ | ⟨_, old⟩
    · exact some_ list (congrArg Phase.held same)
    · exact stocked.ready j other list source old same
  returned j other list found same := by
    rcases (threads_set_iff here).mp found with ⟨_, rfl⟩ | ⟨_, old⟩
    · exact some_ list (congrArg Phase.held same)
    · exact stocked.returned j other list old same

/-- A call moves on with a list in hand that is not empty. -/
theorem Stocked.hold {s : State} (stocked : Stocked s) {k : Nat} {call : Call}
    (here : s.calls[k]? = some call) {phase : Phase} {list : List Bytes} (held : phase.held = some list)
    (some_ : list ≠ []) : Stocked { s with calls := s.calls.set k { call with phase := phase } } := by
  refine stocked.move here fun other same => ?_
  rw [← Option.some.inj (held.symm.trans same)]
  exact some_

/-- The moments, the clock, the files and the record of writes play no part in it. -/
theorem Stocked.of_same {s t : State} (stocked : Stocked s) (cache : t.cache = s.cache)
    (calls : t.calls = s.calls) : Stocked t :=
  ⟨cache ▸ stocked.cached, calls ▸ stocked.fetched, calls ▸ stocked.ready, calls ▸ stocked.returned⟩

variable {client : RegistryClient}

theorem Stocked.next {s t : State} {action : Action} (stocked : Stocked s)
    (something : LoadsSomething s action) (step : Step client s action t) : Stocked t := by
  cases step with
  | call service =>
    refine ⟨stocked.cached, ?_, ?_, ?_⟩
    · intro k call list moment found same
      rcases threads_append_iff.mp found with old | ⟨_, rfl⟩
      · exact stocked.fetched k call list moment old same
      · cases same
    · intro k call list source found same
      rcases threads_append_iff.mp found with old | ⟨_, rfl⟩
      · exact stocked.ready k call list source old same
      · cases same
    · intro k call list found same
      rcases threads_append_iff.mp found with old | ⟨_, rfl⟩
      · exact stocked.returned k call list old same
      · cases same
  | hit here entered found young => exact stocked.hold here rfl (stocked.cached _ _ found)
  | miss here entered stale =>
    exact Stocked.of_same (@Stocked.move _ stocked _ _ here (.fetching _) nofun) rfl rfl
  | fetched here fetching result some_ =>
    exact Stocked.of_same (@Stocked.hold _ stocked _ _ here (.fetched _ _) _ rfl some_) rfl rfl
  | failed here fetching result => exact stocked.move here nofun
  | threw here fetching result => exact stocked.move here nofun
  | save result here fetched =>
    have some_ := stocked.fetched _ _ _ _ here fetched
    exact Stocked.of_same (@Stocked.hold _ stocked _ _ here (.ready _ _) _ rfl some_) rfl rfl
  | @load k since call opened here failed =>
    exact stocked.hold here rfl (loadFromDisk_ne_nil.mpr (something call here))
  | @store k call list source here ready =>
    have some_ := stocked.ready k call list source here ready
    have moved : Stocked { s with calls := s.calls.set k { call with phase := .returned list } } :=
      stocked.hold here rfl some_
    refine ⟨fun service entry found => ?_, moved.fetched, moved.ready, moved.returned⟩
    rcases entered_iff.mp found with ⟨_, rfl⟩ | ⟨_, old⟩
    · exact some_
    · exact stocked.cached service entry old
  | tick duration => exact stocked.of_same rfl rfl
  | change service text => exact stocked.of_same rfl rfl

/-- An empty list is cached. -/
def OutageCached (s : State) : Prop := ∃ service entry, s.cache service = some entry ∧ entry.item.addrs = []

/-- Entries stay in the cache. -/
theorem Step.keeps_entry {s t : State} {action : Action} (step : Step client s action t) {service : Bytes}
    (there : (s.cache service).isSome) : (t.cache service).isSome := by
  cases step with
  | @store k call list source here ready =>
    by_cases same : service = call.service
    · subst service
      simp
    · simpa [same] using there
  | _ => exact there

theorem runs_keep_entry {allowed : State → Action → Prop} {s t : State}
    (run : Runs (Restricted allowed (Step client)) s t) {service : Bytes}
    (there : (s.cache service).isSome) : (t.cache service).isSome :=
  run.kept (P := fun s => (s.cache service).isSome) (fun _ _ _ here _ step => step.keeps_entry here) there

/-- As long as every cache file that has to stand in can be read and has an
address, no empty list is ever cached or returned and a service that has been
cached stays so; after any other load an empty list is cached in some
continuation. -/
theorem good_list_kept {disk : Bytes → Option DiskFile} {s : State}
    (run : Runs (Restricted LoadsSomething (Step client)) { disk } s) :
    (∀ service entry, s.cache service = some entry → entry.item.addrs ≠ []) ∧
    (∀ (k : Nat) (call : Call) (list : List Bytes), s.calls[k]? = some call →
      call.phase = .returned list → list ≠ []) ∧
    (∀ t, Runs (Restricted LoadsSomething (Step client)) s t → ∀ service, (s.cache service).isSome →
      ∃ entry, t.cache service = some entry ∧ entry.item.addrs ≠ []) ∧
    ∀ action t, Step client s action t → ¬LoadsSomething s action →
      ∃ u, Runs (Step client) t u ∧ OutageCached u := by
  have preserved : ∀ s action t, Stocked s → LoadsSomething s action → Step client s action t → Stocked t :=
    fun _ _ _ => Stocked.next
  have stocked : Stocked s := run.kept preserved (Stocked.start disk)
  refine ⟨stocked.cached, stocked.returned, fun t more service there => ?_, fun action t step bare => ?_⟩
  · obtain ⟨entry, found⟩ := Option.isSome_iff_exists.mp (runs_keep_entry more there)
    have later : Stocked t := more.kept preserved stocked
    exact ⟨entry, found, later.cached service entry found⟩
  · cases step with
    | @load k since call opened here failed =>
      have empty : (loadFromDisk (s.disk call.service) opened).1 = [] := by
        by_contra some_
        refine bare fun other found => ?_
        cases found.symm.trans here
        exact loadFromDisk_ne_nil.mp some_
      refine ⟨_, Runs.one (.store (threads_set_self here _) rfl), call.service, _, Function.update_self .., empty⟩
    | _ => exact absurd trivial bare

/-- A fetch gets a list that is not empty, or nothing at any attempt. -/
def AnswersOrNothing (client : RegistryClient) : Action → Prop
  | .fetch _ answers => (∀ i, answers i = none) ∨
      ∃ list, list ≠ [] ∧ fetchFromRegistry client.parse client.retryTimes answers = .ok list
  | _ => True

/-- A client of a registry that knows one address. -/
def oneAddress : RegistryClient := ⟨fun _ => .ok (.ofStrings [asciiText "127.0.0.1:9000"]), 30, 2⟩

theorem oneAddress_answered : fetchFromRegistry oneAddress.parse oneAddress.retryTimes
    (fun _ => some ⟨200, []⟩) = .ok [asciiText "127.0.0.1:9000"] :=
  fetchFromRegistry_answered (by decide) rfl

theorem oneAddress_unanswered : fetchFromRegistry oneAddress.parse oneAddress.retryTimes
    (fun _ => none) = .ok [] := rfl

/-- A list is fetched, saved and cached; when it is too old the registry is down,
and the cache file stands in. -/
theorem good_list_kept_loaded : ∃ s : State, Runs (Restricted LoadsSomething (Step oneAddress)) {} s ∧
    s.calls.map Call.phase =
      [.returned [asciiText "127.0.0.1:9000"], .returned [asciiText "127.0.0.1:9000"]] ∧
    ∀ service entry, s.cache service = some entry → entry.item.addrs ≠ [] := by
  have start : Runs (Restricted LoadsSomething (Step oneAddress)) {} _ := .refl
  have first := start.allow (.call []) trivial
  have missed := first.allow (@Step.miss _ _ 0 _ rfl rfl fun _ found => by cases found) trivial
  have fetched := missed.allow
    (@Step.fetched _ _ 0 _ _ _ _ rfl rfl oneAddress_answered (List.cons_ne_nil _ _)) trivial
  have saved := fetched.allow (@Step.save _ _ 0 _ _ _ .complete rfl rfl) trivial
  have stored := saved.allow (@Step.store _ _ 0 _ _ _ rfl rfl) trivial
  have later := stored.allow (.tick 30000000000) trivial
  have second := later.allow (.call []) trivial
  have stale := second.allow (@Step.miss _ _ 1 _ rfl rfl fun entry found => by cases found; decide) trivial
  have failed := stale.allow (@Step.failed _ _ 1 _ _ _ rfl rfl oneAddress_unanswered) trivial
  have loaded := failed.allow (@Step.load _ _ 1 _ _ true rfl rfl) fun call here => by
    cases here
    exact ⟨rfl, _, rfl, 49, by decide, by decide⟩
  have replaced := loaded.allow (@Step.store _ _ 1 _ _ _ rfl rfl) trivial
  exact ⟨_, replaced, rfl, (good_list_kept replaced).1⟩

/-- A list is fetched and cached while its file cannot be written; when it is too
old and the registry is down, it makes way for an empty one. -/
theorem outage_cached : ¬∀ s : State,
    Runs (Restricted (fun _ => AnswersOrNothing oneAddress) (Step oneAddress)) {} s →
      ∀ service entry, s.cache service = some entry → entry.item.addrs ≠ [] := by
  intro never
  have start : Runs (Restricted (fun _ => AnswersOrNothing oneAddress) (Step oneAddress)) {} _ := .refl
  have first := start.allow (.call []) trivial
  have missed := first.allow (@Step.miss _ _ 0 _ rfl rfl fun _ found => by cases found) trivial
  have fetched := missed.allow
    (@Step.fetched _ _ 0 _ _ _ _ rfl rfl oneAddress_answered (List.cons_ne_nil _ _))
    (.inr ⟨_, List.cons_ne_nil _ _, oneAddress_answered⟩)
  have saved := fetched.allow (@Step.save _ _ 0 _ _ _ .unopened rfl rfl) trivial
  have stored := saved.allow (@Step.store _ _ 0 _ _ _ rfl rfl) trivial
  have later := stored.allow (.tick 30000000000) trivial
  have second := later.allow (.call []) trivial
  have stale := second.allow (@Step.miss _ _ 1 _ rfl rfl fun entry found => by cases found; decide) trivial
  have failed := stale.allow (@Step.failed _ _ 1 _ _ _ rfl rfl oneAddress_unanswered) (.inl fun _ => rfl)
  have loaded := failed.allow (@Step.load _ _ 1 _ _ true rfl rfl) trivial
  have replaced := loaded.allow (@Step.store _ _ 1 _ _ _ rfl rfl) trivial
  exact never _ replaced [] _ rfl rfl

end ReactorRpc.RegistryClient
