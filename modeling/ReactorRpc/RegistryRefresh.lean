import ReactorRpc.RegistryCache

namespace ReactorRpc.RegistryClient
open Streams

/-- A call between its lookup and its write of the cache. -/
inductive Refreshing : Phase → Prop
  | fetching (since : Nat) : Refreshing (.fetching since)
  | fetched (list : List Bytes) (moment : Nat) : Refreshing (.fetched list moment)
  | failed (since : Nat) : Refreshing (.failed since)
  | ready (list : List Bytes) (source : Source) : Refreshing (.ready list source)

/-- The disk can be written and read, and nobody else writes to it. -/
def SoundDisk : Action → Prop
  | .save _ result => result = .complete
  | .load _ opened => opened = true
  | .change _ _ => False
  | _ => True

/-- A call finds its service missing or too old only while no other call is
refreshing it. -/
def RefreshesAlone (client : RegistryClient) (s : State) : Action → Prop
  | .lookup k => ∀ call, s.calls[k]? = some call → client.Stale s call.service →
      ∀ (j : Nat) (other : Call), s.calls[j]? = some other → other.service = call.service →
        ¬Refreshing other.phase
  | _ => True

/-- The disk works, and a service is refreshed by one call at a time. -/
def OneAtATime (client : RegistryClient) (s : State) (action : Action) : Prop :=
  SoundDisk action ∧ RefreshesAlone client s action

/-- A write leaves an entry at least as recent as it was, and a fetched list is not
replaced by one that stands in for a fetch that began before it was fetched. -/
structure Write.Fresh (w : Write) : Prop where
  recent : ∀ old, w.before = some old → old.recency ≤ w.after.recency
  began_later : ∀ moment since recency, w.before = some (.fetched moment) →
    w.after = .loaded since recency → moment < since

def diskRecency (s : State) (service : Bytes) : Nat := (s.disk service).elim 0 DiskFile.recency

/-- A client has just been constructed; there may be cache files. -/
def State.start (files : Bytes → Option Bytes) : State :=
  { disk := fun service => (files service).map fun text => ⟨text, 0⟩ }

theorem diskRecency_start (files : Bytes → Option Bytes) (service : Bytes) :
    diskRecency (State.start files) service = 0 := by
  change ((files service).map fun text => (⟨text, 0⟩ : DiskFile)).elim 0 DiskFile.recency = 0
  cases files service <;> rfl

/-- The moment at which the list was fetched, or the fetch began that it stands in for. -/
def Source.moment : Source → Nat
  | fetched moment => moment
  | loaded since _ => since

/-- The entry of a service, if it was fetched, was fetched before a moment. -/
def FetchedBefore (s : State) (service : Bytes) (since : Nat) : Prop :=
  ∀ entry moment, s.cache service = some entry → entry.source = .fetched moment → moment < since

/-- What a refreshing call is about to store will be fresh. -/
def Fit (s : State) (call : Call) : Prop :=
  match call.phase with
  | .fetching since | .failed since => since ≤ s.moments ∧ FetchedBefore s call.service since
  | .fetched _ moment => moment ≤ s.moments ∧ diskRecency s call.service ≤ moment
  | .ready _ source =>
    source.moment ≤ s.moments ∧ source.recency ≤ diskRecency s call.service ∧
      (∀ entry, s.cache call.service = some entry → entry.source.recency ≤ source.recency) ∧
      ∀ since recency, source = .loaded since recency → FetchedBefore s call.service since
  | _ => True

theorem fit_of_idle {s : State} {call : Call} (idle : ¬Refreshing call.phase) : Fit s call := by
  obtain ⟨service, phase⟩ := call
  cases phase with
  | fetching since => exact absurd (.fetching since) idle
  | fetched list moment => exact absurd (.fetched list moment) idle
  | failed since => exact absurd (.failed since) idle
  | ready list source => exact absurd (.ready list source) idle
  | _ => trivial

/-- What a call is about to store depends on the entry and the file of its service. -/
theorem Fit.frame {s t : State} {call : Call} (fit : Fit s call) (moments : s.moments ≤ t.moments)
    (cache : t.cache call.service = s.cache call.service)
    (disk : t.disk call.service = s.disk call.service) : Fit t call := by
  have recency : diskRecency t call.service = diskRecency s call.service := by
    rw [diskRecency, disk, diskRecency]
  unfold Fit FetchedBefore at fit ⊢
  rw [cache, recency]
  split
  · rename_i same
    rw [same] at fit
    exact ⟨fit.1.trans moments, fit.2⟩
  · rename_i same
    rw [same] at fit
    exact ⟨fit.1.trans moments, fit.2⟩
  · rename_i same
    rw [same] at fit
    exact ⟨fit.1.trans moments, fit.2⟩
  · rename_i same
    rw [same] at fit
    exact ⟨fit.1.trans moments, fit.2⟩
  · trivial

/-- One call at a time refreshes a service, the cache file is at least as recent as
the entry, and all writes have been fresh. -/
structure Current (s : State) : Prop where
  single : ∀ (j k : Nat) (x y : Call), s.calls[j]? = some x → s.calls[k]? = some y →
    x.service = y.service → Refreshing x.phase → Refreshing y.phase → j = k
  cached : ∀ service entry, s.cache service = some entry → entry.source.recency ≤ diskRecency s service
  disk : ∀ service, diskRecency s service ≤ s.moments
  fit : ∀ (k : Nat) (call : Call), s.calls[k]? = some call → Fit s call
  fresh : ∀ w ∈ s.writes, w.Fresh

theorem Current.start (files : Bytes → Option Bytes) : Current (State.start files) where
  single _ _ _ _ here := by cases here
  cached _ _ found := by cases found
  disk service := (diskRecency_start files service).le
  fit _ _ here := by cases here
  fresh _ member := by cases member

/-- No other call refreshes the service of one that does. -/
theorem Current.alone {s : State} (current : Current s) {k : Nat} {call : Call}
    (here : s.calls[k]? = some call) (busy : Refreshing call.phase) (j : Nat) (other : Call)
    (apart : j ≠ k) (there : s.calls[j]? = some other) (same : other.service = call.service) :
    ¬Refreshing other.phase :=
  fun also => apart (current.single j k other call there here same also busy)

theorem Current.fit_at {s : State} (current : Current s) {k : Nat} {call : Call}
    (here : s.calls[k]? = some call) {phase : Phase} (same : call.phase = phase) :
    Fit s { call with phase := phase } := by
  subst same
  exact current.fit k call here

theorem diskRecency_congr {s t : State} {service : Bytes} (disk : t.disk service = s.disk service) :
    diskRecency t service = diskRecency s service := by
  rw [diskRecency, disk, diskRecency]

/-- A call moves on while no other one refreshes its service. -/
theorem Current.move {s t : State} (current : Current s) {k : Nat} {call : Call} {phase : Phase}
    (here : s.calls[k]? = some call)
    (alone : ∀ (j : Nat) (other : Call), j ≠ k → s.calls[j]? = some other →
      other.service = call.service → ¬Refreshing other.phase)
    (calls : t.calls = s.calls.set k { call with phase := phase }) (moments : s.moments ≤ t.moments)
    (cache : ∀ service, service ≠ call.service → t.cache service = s.cache service)
    (disk : ∀ service, service ≠ call.service → t.disk service = s.disk service)
    (cached : ∀ entry, t.cache call.service = some entry →
      entry.source.recency ≤ diskRecency t call.service)
    (bound : diskRecency t call.service ≤ t.moments) (fit : Fit t { call with phase := phase })
    (fresh : ∀ w ∈ t.writes, w.Fresh) : Current t where
  single i j x y atI atJ same busy busy' := by
    rw [calls] at atI atJ
    rcases (threads_set_iff here).mp atI with ⟨rfl, rfl⟩ | ⟨otherI, oldI⟩
    · rcases (threads_set_iff here).mp atJ with ⟨rfl, _⟩ | ⟨otherJ, oldJ⟩
      · rfl
      · exact absurd busy' (alone j y otherJ oldJ same.symm)
    · rcases (threads_set_iff here).mp atJ with ⟨rfl, rfl⟩ | ⟨_, oldJ⟩
      · exact absurd busy (alone i x otherI oldI same)
      · exact current.single i j x y oldI oldJ same busy busy'
  cached service entry found := by
    by_cases same : service = call.service
    · subst service
      exact cached entry found
    · rw [cache service same] at found
      rw [diskRecency_congr (disk service same)]
      exact current.cached service entry found
  disk service := by
    by_cases same : service = call.service
    · subst service
      exact bound
    · rw [diskRecency_congr (disk service same)]
      exact (current.disk service).trans moments
  fit j other found := by
    rw [calls] at found
    rcases (threads_set_iff here).mp found with ⟨_, rfl⟩ | ⟨apart, old⟩
    · exact fit
    · by_cases same : other.service = call.service
      · exact fit_of_idle (alone j other apart old same)
      · exact (current.fit j other old).frame moments (cache _ same) (disk _ same)
  fresh := fresh

theorem Current.returned {s : State} (current : Current s) {k : Nat} {call : Call}
    (here : s.calls[k]? = some call) {phase : Phase} (idle : ¬Refreshing phase) :
    Current { s with calls := s.calls.set k { call with phase := phase } } where
  single i j x y atI atJ same busy busy' := by
    rcases (threads_set_iff here).mp atI with ⟨_, rfl⟩ | ⟨_, oldI⟩
    · exact absurd busy idle
    · rcases (threads_set_iff here).mp atJ with ⟨_, rfl⟩ | ⟨_, oldJ⟩
      · exact absurd busy' idle
      · exact current.single i j x y oldI oldJ same busy busy'
  cached := current.cached
  disk := current.disk
  fit j other found := by
    rcases (threads_set_iff here).mp found with ⟨_, rfl⟩ | ⟨_, old⟩
    · exact fit_of_idle idle
    · exact (current.fit j other old).frame le_rfl rfl rfl
  fresh := current.fresh

theorem Current.call {s : State} (current : Current s) (service : Bytes) :
    Current { s with calls := s.calls ++ [{ service }] } where
  single i j x y atI atJ same busy busy' := by
    rcases threads_append_iff.mp atI with oldI | ⟨_, rfl⟩
    · rcases threads_append_iff.mp atJ with oldJ | ⟨_, rfl⟩
      · exact current.single i j x y oldI oldJ same busy busy'
      · cases busy'
    · cases busy
  cached := current.cached
  disk := current.disk
  fit j other found := by
    rcases threads_append_iff.mp found with old | ⟨_, rfl⟩
    · exact (current.fit j other old).frame le_rfl rfl rfl
    · trivial
  fresh := current.fresh

variable {client : RegistryClient}

theorem not_refreshing_returned (list : List Bytes) : ¬Refreshing (.returned list) :=
  fun busy => by cases busy

theorem loadFromDisk_recency (s : State) (service : Bytes) :
    (loadFromDisk (s.disk service) true).2 = diskRecency s service := by
  rw [diskRecency]
  cases s.disk service <;> rfl

/-- The list that a call has fetched is saved. -/
theorem Current.save {s : State} (current : Current s) {k moment : Nat} {call : Call} {list : List Bytes}
    (here : s.calls[k]? = some call) (fetched : call.phase = .fetched list moment) :
    Current { s with
      disk := Function.update s.disk call.service (some ⟨saveText list, moment⟩)
      calls := s.calls.set k { call with phase := .ready list (.fetched moment) } } := by
  obtain ⟨below, older⟩ := current.fit_at here fetched
  have saved : diskRecency { s with
      disk := Function.update s.disk call.service (some ⟨saveText list, moment⟩)
      calls := s.calls.set k { call with phase := .ready list (.fetched moment) } } call.service =
      moment := by
    change (Function.update s.disk call.service _ call.service).elim 0 DiskFile.recency = moment
    rw [Function.update_self]
    rfl
  refine current.move here (current.alone here (fetched ▸ .fetched list moment)) rfl le_rfl
    (fun _ _ => rfl) (fun service apart => Function.update_of_ne apart ..) (fun entry found => ?_)
    (saved.le.trans below) ⟨below, saved.ge, fun entry found => ?_, fun _ _ other => by cases other⟩
    current.fresh
  · exact (current.cached call.service entry found).trans (older.trans saved.ge)
  · exact (current.cached call.service entry found).trans older

/-- The list that a call has ready is written. -/
theorem Current.store {s : State} (current : Current s) {k : Nat} {call : Call} {list : List Bytes}
    {source : Source} (here : s.calls[k]? = some call) (ready : call.phase = .ready list source) :
    Current { s with
      cache := Function.update s.cache call.service (some ⟨⟨list, s.now⟩, source⟩)
      writes := s.writes ++ [⟨(s.cache call.service).map Entry.source, source⟩]
      calls := s.calls.set k { call with phase := .returned list } } := by
  obtain ⟨_, saved, recent, began⟩ := current.fit_at here ready
  refine current.move here (current.alone here (ready ▸ .ready list source)) rfl le_rfl ?_ (fun _ _ => rfl) ?_
    (current.disk call.service) (fit_of_idle (not_refreshing_returned list)) ?_
  · exact fun service apart => Function.update_of_ne apart ..
  · intro entry found
    rcases entered_iff.mp found with ⟨_, rfl⟩ | ⟨apart, _⟩
    · exact saved
    · exact absurd rfl apart
  · intro w member
    rcases List.mem_append.mp member with old | new
    · exact current.fresh w old
    · cases List.mem_singleton.mp new
      refine ⟨fun old before => ?_, fun moment since recency before after => ?_⟩
      · obtain ⟨entry, found, rfl⟩ := Option.map_eq_some_iff.mp before
        exact recent entry found
      · obtain ⟨entry, found, fetched⟩ := Option.map_eq_some_iff.mp before
        exact began since recency after entry moment found fetched

theorem Current.next {s t : State} {action : Action} (current : Current s)
    (orderly : OneAtATime client s action) (step : Step client s action t) : Current t := by
  obtain ⟨sound, alone⟩ := orderly
  cases step with
  | call service => exact current.call service
  | hit here entered found young => exact current.returned here (not_refreshing_returned _)
  | @miss k call here entered stale =>
    refine current.move here (fun j other _ => alone call here stale j other) rfl (Nat.le_succ _)
      (fun _ _ => rfl) (fun _ _ => rfl) (current.cached call.service)
      ((current.disk call.service).trans (Nat.le_succ _)) ⟨le_rfl, fun entry moment found fetched => ?_⟩
      current.fresh
    have recent := (current.cached call.service entry found).trans (current.disk call.service)
    rw [fetched] at recent
    exact Nat.lt_succ_of_le recent
  | @fetched k since call list answers here fetching result some_ =>
    exact current.move here (current.alone here (fetching ▸ .fetching since)) rfl (Nat.le_succ _)
      (fun _ _ => rfl) (fun _ _ => rfl) (current.cached call.service)
      ((current.disk call.service).trans (Nat.le_succ _))
      ⟨le_rfl, (current.disk call.service).trans (Nat.le_succ _)⟩ current.fresh
  | @failed k since call answers here fetching result =>
    exact current.move here (current.alone here (fetching ▸ .fetching since)) rfl le_rfl
      (fun _ _ => rfl) (fun _ _ => rfl) (current.cached call.service) (current.disk call.service)
      (current.fit_at here fetching) current.fresh
  | threw here fetching result => exact current.returned here fun busy => by cases busy
  | save result here fetched =>
    cases sound
    exact current.save here fetched
  | @load k since call opened here failed =>
    cases sound
    obtain ⟨below, before⟩ := current.fit_at here failed
    have recency := loadFromDisk_recency s call.service
    refine current.move here (current.alone here (failed ▸ .failed since)) rfl le_rfl
      (fun _ _ => rfl) (fun _ _ => rfl) (current.cached call.service) (current.disk call.service)
      ⟨below, recency.le, fun entry found => ?_, fun _ _ same => ?_⟩ current.fresh
    · exact (current.cached call.service entry found).trans recency.ge
    · cases same
      exact before
  | store here ready => exact current.store here ready
  | tick duration =>
    exact ⟨current.single, current.cached, current.disk,
      fun k call here => (current.fit k call here).frame le_rfl rfl rfl, current.fresh⟩
  | change => cases sound

/-- A write has taken an entry back to an older list. -/
def TakenBack (s : State) : Prop := ∃ w ∈ s.writes, ¬w.Fresh

/-- The registry can answer a fetch. -/
def Answerable (client : RegistryClient) : Prop :=
  ∃ answers list, list ≠ [] ∧ fetchFromRegistry client.parse client.retryTimes answers = .ok list

/-- A fetching call can overtake another call. -/
theorem overtakes {r s : State} {j k since : Nat} {x y : Call}
    (run : Runs (Restricted (fun _ => SoundDisk) (Step client)) r s) (other : j ≠ k)
    (atJ : s.calls[j]? = some x) (atK : s.calls[k]? = some y) (fetching : y.phase = .fetching since)
    (answerable : Answerable client) :
    ∃ t, Runs (Restricted (fun _ => SoundDisk) (Step client)) r t ∧ t.calls[j]? = some x ∧
      ∃ entry, t.cache y.service = some entry ∧ entry.source = .fetched (s.moments + 1) := by
  obtain ⟨answers, list, some_, result⟩ := answerable
  have fetched := run.allow (.fetched atK fetching result some_) trivial
  have fetchedK := threads_set_self atK { y with phase := .fetched list (s.moments + 1) }
  have keptJ := threads_set_other other atJ { y with phase := .fetched list (s.moments + 1) }
  have saved := fetched.allow (.save .complete fetchedK rfl) rfl
  have readyK := threads_set_self fetchedK { y with phase := .ready list (.fetched (s.moments + 1)) }
  have stillJ := threads_set_other other keptJ { y with phase := .ready list (.fetched (s.moments + 1)) }
  have stored := saved.allow (.store readyK rfl) trivial
  have lastJ := threads_set_other other stillJ { y with phase := .returned list }
  exact ⟨_, stored, lastJ, _, Function.update_self .., rfl⟩

theorem stores_older {r s : State} {j moment : Nat} {x : Call} {list : List Bytes} {source : Source}
    {entry : Entry} (run : Runs (Restricted (fun _ => SoundDisk) (Step client)) r s)
    (atJ : s.calls[j]? = some x) (ready : x.phase = .ready list source)
    (found : s.cache x.service = some entry) (fetched : entry.source = .fetched moment)
    (older : source.moment < moment) :
    ∃ u, Runs (Restricted (fun _ => SoundDisk) (Step client)) r u ∧ TakenBack u := by
  have stored := run.allow (.store atJ ready) trivial
  refine ⟨_, stored, ⟨_, List.mem_append_right _ (List.mem_singleton_self _), fun fresh => ?_⟩⟩
  have before : (s.cache x.service).map Entry.source = some (.fetched moment) := by
    rw [found, ← fetched]
    rfl
  cases source with
  | fetched earlier => exact Nat.not_lt_of_le (fresh.recent _ before) older
  | loaded since recency => exact Nat.lt_asymm older (fresh.began_later _ _ _ before rfl)

/-- A call with a fetched list can be overtaken. -/
theorem fetched_overtaken {r s : State} {j k since moment : Nat} {x y : Call} {list : List Bytes}
    (run : Runs (Restricted (fun _ => SoundDisk) (Step client)) r s) (other : j ≠ k)
    (atJ : s.calls[j]? = some x) (atK : s.calls[k]? = some y) (same : x.service = y.service)
    (fetched : x.phase = .fetched list moment) (below : moment ≤ s.moments)
    (fetching : y.phase = .fetching since) (answerable : Answerable client) :
    ∃ u, Runs (Restricted (fun _ => SoundDisk) (Step client)) r u ∧ TakenBack u := by
  obtain ⟨t, more, there, entry, found, newer⟩ := overtakes run other atJ atK fetching answerable
  have saved := more.allow (.save .complete there fetched) rfl
  exact stores_older saved (threads_set_self there _) rfl (same ▸ found) newer (Nat.lt_succ_of_le below)

/-- Of two calls that refresh one service, the one that is further can come last. -/
theorem overtaken {r s : State} {j k since : Nat} {x y : Call}
    (run : Runs (Restricted (fun _ => SoundDisk) (Step client)) r s) (other : j ≠ k)
    (atJ : s.calls[j]? = some x) (atK : s.calls[k]? = some y) (same : x.service = y.service)
    (busy : Refreshing x.phase) (fetching : y.phase = .fetching since) (fit : Fit s x)
    (answerable : Answerable client) :
    ∃ u, Runs (Restricted (fun _ => SoundDisk) (Step client)) r u ∧ TakenBack u := by
  unfold Fit at fit
  cases phase : x.phase with
  | entered | returned | threw =>
    rw [phase] at busy
    cases busy
  | fetching since =>
    have copy := answerable
    obtain ⟨answers, list, some_, result⟩ := copy
    have fetched := run.allow (.fetched atJ phase result some_) trivial
    exact fetched_overtaken fetched other (threads_set_self atJ _) (threads_set_other other.symm atK _) same
      rfl le_rfl fetching answerable
  | fetched list moment =>
    rw [phase] at fit
    exact fetched_overtaken run other atJ atK same phase fit.1 fetching answerable
  | failed since =>
    rw [phase] at fit
    obtain ⟨t, more, there, entry, found, newer⟩ := overtakes run other atJ atK fetching answerable
    have loaded := more.allow (.load true there phase) rfl
    exact stores_older loaded (threads_set_self there _) rfl (same ▸ found) newer (Nat.lt_succ_of_le fit.1)
  | ready list source =>
    rw [phase] at fit
    obtain ⟨t, more, there, entry, found, newer⟩ := overtakes run other atJ atK fetching answerable
    exact stores_older more there phase (same ▸ found) newer (Nat.lt_succ_of_le fit.1)

/-- As long as a service is refreshed by one call at a time and the disk works, no
write of the cache goes back to an older list; after any other lookup one does in
some continuation, if the registry answers. -/
theorem newest_list_kept (files : Bytes → Option Bytes) {s : State}
    (run : Runs (Restricted (OneAtATime client) (Step client)) (State.start files) s) :
    (∀ w ∈ s.writes, w.Fresh) ∧
    ∀ k t, Step client s (.lookup k) t → ¬RefreshesAlone client s (.lookup k) → Answerable client →
      ∃ u, Runs (Restricted (fun _ => SoundDisk) (Step client)) t u ∧ TakenBack u := by
  have current : Current s :=
    run.kept (P := Current) (fun _ _ _ => Current.next) (Current.start files)
  refine ⟨current.fresh, fun k t step crowded answerable => ?_⟩
  simp only [RefreshesAlone, not_forall, not_not] at crowded
  obtain ⟨call, here, stale, j, other, there, same, busy⟩ := crowded
  cases step with
  | hit at_ entered found young =>
    cases here.symm.trans at_
    exact absurd (stale _ found) young
  | @miss k y at_ entered missing =>
    cases here.symm.trans at_
    have apart : j ≠ k := by
      rintro rfl
      cases here.symm.trans there
      rw [entered] at busy
      cases busy
    have fit : Fit { s with
        moments := s.moments + 1
        calls := s.calls.set k { call with phase := .fetching (s.moments + 1) } } other :=
      (current.fit j other there).frame (Nat.le_succ _) rfl rfl
    exact overtaken .refl apart (threads_set_other apart there _) (threads_set_self here _) same busy rfl fit
      answerable

/-- A list is fetched and cached; when it is too old it is fetched again. -/
theorem newest_list_kept_twice : ∃ s : State,
    Runs (Restricted (OneAtATime oneAddress) (Step oneAddress)) (State.start fun _ => none) s ∧
    s.writes = [⟨none, .fetched 2⟩, ⟨some (.fetched 2), .fetched 4⟩] ∧ ∀ w ∈ s.writes, w.Fresh := by
  have start : Runs (Restricted (OneAtATime oneAddress) (Step oneAddress))
    (State.start fun _ => none) _ := .refl
  have first := start.allow (.call []) ⟨trivial, trivial⟩
  have missed := first.allow (@Step.miss _ _ 0 _ rfl rfl fun _ found => by cases found) ⟨trivial, ?_⟩
  · have fetched := missed.allow
      (@Step.fetched _ _ 0 _ _ _ _ rfl rfl oneAddress_answered (List.cons_ne_nil _ _)) ⟨trivial, trivial⟩
    have saved := fetched.allow (@Step.save _ _ 0 _ _ _ .complete rfl rfl) ⟨rfl, trivial⟩
    have stored := saved.allow (@Step.store _ _ 0 _ _ _ rfl rfl) ⟨trivial, trivial⟩
    have later := stored.allow (.tick 30000000000) ⟨trivial, trivial⟩
    have second := later.allow (.call []) ⟨trivial, trivial⟩
    have stale := second.allow
      (@Step.miss _ _ 1 _ rfl rfl fun entry found => by cases found; decide) ⟨trivial, ?_⟩
    · have again := stale.allow
        (@Step.fetched _ _ 1 _ _ _ _ rfl rfl oneAddress_answered (List.cons_ne_nil _ _)) ⟨trivial, trivial⟩
      have resaved := again.allow (@Step.save _ _ 1 _ _ _ .complete rfl rfl) ⟨rfl, trivial⟩
      have restored := resaved.allow (@Step.store _ _ 1 _ _ _ rfl rfl) ⟨trivial, trivial⟩
      exact ⟨_, restored, rfl, (newest_list_kept _ restored).1⟩
    · intro call _ _ j other there _ busy
      match j, there with
      | 0, there => cases there; cases busy
      | 1, there => cases there; cases busy
  · intro call _ _ j other there _ busy
    match j, there with
    | 0, there => cases there; cases busy

/-- Two calls find a list too old and fetch; the second one stores its newer list
first, and the first one puts the older list over it. -/
theorem older_list_stored : ¬∀ s : State,
    Runs (Restricted (fun _ => SoundDisk) (Step oneAddress)) (State.start fun _ => none) s →
      ∀ w ∈ s.writes, w.Fresh := by
  intro never
  have start : Runs (Restricted (fun _ => SoundDisk) (Step oneAddress)) (State.start fun _ => none) _ := .refl
  have first := start.allow (.call []) trivial
  have missed := first.allow (@Step.miss _ _ 0 _ rfl rfl fun _ found => by cases found) trivial
  have fetched := missed.allow
    (@Step.fetched _ _ 0 _ _ _ _ rfl rfl oneAddress_answered (List.cons_ne_nil _ _)) trivial
  have saved := fetched.allow (@Step.save _ _ 0 _ _ _ .complete rfl rfl) rfl
  have stored := saved.allow (@Step.store _ _ 0 _ _ _ rfl rfl) trivial
  have later := stored.allow (.tick 30000000000) trivial
  have second := later.allow (.call []) trivial
  have third := second.allow (.call []) trivial
  have stale := third.allow
    (@Step.miss _ _ 1 _ rfl rfl fun entry found => by cases found; decide) trivial
  have both := stale.allow
    (@Step.miss _ _ 2 _ rfl rfl fun entry found => by cases found; decide) trivial
  have slow := both.allow
    (@Step.fetched _ _ 1 _ _ _ _ rfl rfl oneAddress_answered (List.cons_ne_nil _ _)) trivial
  obtain ⟨u, more, w, member, back⟩ := @fetched_overtaken oneAddress _ _ 1 2 _ _ _ _ _ slow (by decide) rfl rfl
    rfl rfl le_rfl rfl ⟨_, _, List.cons_ne_nil _ _, oneAddress_answered⟩
  exact back (never _ more w member)

end ReactorRpc.RegistryClient
