import ReactorRpc.CacheFile

namespace ReactorRpc.RegistryClient
open Streams CacheFile

section
variable (parse : Bytes → Except JsonException Json)

/-- What one attempt of `fetchFromRegistry` comes to, if it is the last. -/
def attempt : Option HttpResponse → Option (Except JsonException (List Bytes))
  | none => none
  | some res =>
    if res.status = 200 then
      match parse res.body with
      | .error .parse_error => none
      | .error exception => some (.error exception)
      | .ok arr => if arr.isArray then some arr.getStrings else none
    else none

/-- The loop again, with the number of requests it has issued. -/
def fetchIssued (issued : Nat) : List (Option HttpResponse) → Except JsonException (List Bytes) × Nat
  | [] => (.ok [], issued)
  | answer :: later =>
    match attempt parse answer with
    | none => fetchIssued (issued + 1) later
    | some result => (result, issued + 1)

/-- An answer with a JSON array of strings. -/
def Lists (answer : Option HttpResponse) (list : List Bytes) : Prop :=
  ∃ res, answer = some res ∧ res.status = 200 ∧ parse res.body = .ok (.ofStrings list)

/-- An answer on which an exception leaves the loop: parsing it throws another one
than `parse_error`, or it is an array in which not everything is a string. -/
def Throws (answer : Option HttpResponse) : Prop :=
  ∃ res, answer = some res ∧ res.status = 200 ∧
    ((∃ exception, exception ≠ .parse_error ∧ parse res.body = .error exception) ∨
      ∃ elements, parse res.body = .ok (.array elements) ∧ ∃ x ∈ elements, ∀ value, x ≠ .string value)

variable {parse}

theorem fetchLoop_cons (answer : Option HttpResponse) (later : List (Option HttpResponse)) :
    fetchLoop parse (answer :: later) = (attempt parse answer).getD (fetchLoop parse later) := by
  cases answer with
  | none => rfl
  | some res =>
    rw [fetchLoop, attempt]
    split
    · cases parse res.body with
      | error exception => cases exception <;> rfl
      | ok arr =>
        dsimp only
        split <;> rfl
    · rfl

theorem fetchIssued_fst (issued : Nat) (answers : List (Option HttpResponse)) :
    (fetchIssued parse issued answers).1 = fetchLoop parse answers := by
  induction answers generalizing issued with
  | nil => rfl
  | cons answer later ih =>
    rw [fetchLoop_cons, fetchIssued]
    cases attempt parse answer with
    | none => exact ih (issued + 1)
    | some result => rfl

theorem fetchIssued_snd_le (issued : Nat) (answers : List (Option HttpResponse)) :
    (fetchIssued parse issued answers).2 ≤ issued + answers.length := by
  induction answers generalizing issued with
  | nil => exact le_rfl
  | cons answer later ih =>
    rw [fetchIssued, List.length_cons]
    cases attempt parse answer with
    | none => exact (ih (issued + 1)).trans (by omega)
    | some result => exact Nat.add_le_add_left (Nat.succ_le_succ (Nat.zero_le _)) issued

theorem attempt_of_lists {answer : Option HttpResponse} {list : List Bytes}
    (lists : Lists parse answer list) : attempt parse answer = some (.ok list) := by
  obtain ⟨res, rfl, ok, parsed⟩ := lists
  rw [attempt, if_pos ok, parsed]
  exact congrArg some (Json.getStrings_ofStrings list)

theorem attempt_of_throws {answer : Option HttpResponse} (throws : Throws parse answer) :
    ∃ exception, attempt parse answer = some (.error exception) := by
  obtain ⟨res, rfl, ok, ⟨exception, other, parsed⟩ | ⟨elements, parsed, x, member, noString⟩⟩ := throws
  · refine ⟨exception, ?_⟩
    rw [attempt, if_pos ok, parsed]
    cases exception with
    | parse_error => exact absurd rfl other
    | type_error | out_of_range => rfl
  · refine ⟨.type_error, ?_⟩
    rw [attempt, if_pos ok, parsed]
    rcases Json.getStrings_array elements with ⟨values, same, _⟩ | ⟨_, failed⟩
    · rw [Json.array.inj same] at member
      obtain ⟨value, _, string⟩ := List.mem_map.mp member
      exact absurd string.symm (noString value)
    · exact congrArg some failed

/-- The attempt that ends the loop lists addresses or throws. -/
theorem attempt_eq_some {answer : Option HttpResponse} {result : Except JsonException (List Bytes)}
    (ends : attempt parse answer = some result) :
    (∃ list, result = .ok list ∧ Lists parse answer list) ∨
      (∃ exception, result = .error exception) ∧ Throws parse answer := by
  cases answer with
  | none => cases ends
  | some res =>
    rw [attempt] at ends
    split at ends
    · rename_i ok
      cases parsed : parse res.body with
      | error exception =>
        rw [parsed] at ends
        cases exception with
        | parse_error => cases ends
        | type_error =>
          cases ends
          exact .inr ⟨⟨_, rfl⟩, res, rfl, ok, .inl ⟨.type_error, nofun, parsed⟩⟩
        | out_of_range =>
          cases ends
          exact .inr ⟨⟨_, rfl⟩, res, rfl, ok, .inl ⟨.out_of_range, nofun, parsed⟩⟩
      | ok arr =>
        rw [parsed] at ends
        cases arr with
        | array elements =>
          cases ends
          rcases Json.getStrings_array elements with ⟨values, same, read⟩ | ⟨other, failed⟩
          · exact .inl ⟨values, read, res, rfl, ok, by rw [parsed, same]⟩
          · exact .inr ⟨⟨_, failed⟩, res, rfl, ok, .inr ⟨elements, parsed, other⟩⟩
        | null | boolean | number | string | object => cases ends
    · cases ends

theorem Lists.not_throws {answer : Option HttpResponse} {list : List Bytes}
    (lists : Lists parse answer list) : ¬Throws parse answer := by
  intro throws
  obtain ⟨exception, thrown⟩ := attempt_of_throws throws
  cases (attempt_of_lists lists).symm.trans thrown

/-- The loop ends with the list of the first attempt that has one, unless one before throws. -/
theorem fetchLoop_lists {answers : List (Option HttpResponse)} {i : Nat} {answer : Option HttpResponse}
    {list : List Bytes} (here : answers[i]? = some answer) (lists : Lists parse answer list)
    (first : ∀ (j : Nat) (before : Option HttpResponse), j < i → answers[j]? = some before →
      ∀ list, ¬Lists parse before list) :
    (fetchLoop parse answers = .ok list ∧
        ∀ (j : Nat) (before : Option HttpResponse), j < i → answers[j]? = some before →
          ¬Throws parse before) ∨
      (∃ exception, fetchLoop parse answers = .error exception) ∧
        ∃ (j : Nat) (before : Option HttpResponse), j < i ∧ answers[j]? = some before ∧
          Throws parse before := by
  induction answers generalizing i with
  | nil => cases here
  | cons head later ih =>
    rw [fetchLoop_cons]
    cases i with
    | zero =>
      cases here
      rw [attempt_of_lists lists]
      exact .inl ⟨rfl, fun j _ before => absurd before (Nat.not_lt_zero j)⟩
    | succ i =>
      have next := ih here fun j before earlier there => first (j + 1) before (by omega) there
      have headFree := first 0 head (Nat.succ_pos i) rfl
      cases ends : attempt parse head with
      | none =>
        rw [Option.getD_none]
        rcases next with ⟨listed, free⟩ | ⟨thrown, j, before, earlier, there, throws⟩
        · refine .inl ⟨listed, fun j before earlier there throws => ?_⟩
          cases j with
          | zero =>
            cases there
            obtain ⟨_, thrown⟩ := attempt_of_throws throws
            cases ends.symm.trans thrown
          | succ j => exact free j before (by omega) there throws
        · exact .inr ⟨thrown, j + 1, before, by omega, there, throws⟩
      | some result =>
        rcases attempt_eq_some ends with ⟨other, _, listed⟩ | ⟨⟨exception, rfl⟩, throws⟩
        · exact absurd listed (headFree other)
        · exact .inr ⟨⟨exception, rfl⟩, 0, head, Nat.succ_pos i, rfl, throws⟩

theorem fetchLoop_unlisted {answers : List (Option HttpResponse)}
    (none : ∀ answer ∈ answers, ∀ list, ¬Lists parse answer list) :
    fetchLoop parse answers = .ok [] ↔ ∀ answer ∈ answers, ¬Throws parse answer := by
  induction answers with
  | nil => exact iff_of_true rfl fun _ there => absurd there List.not_mem_nil
  | cons head later ih =>
    obtain ⟨headFree, laterFree⟩ := List.forall_mem_cons.mp none
    rw [fetchLoop_cons, List.forall_mem_cons]
    cases ends : attempt parse head with
    | none =>
      rw [Option.getD_none, ih laterFree, and_iff_right]
      intro throws
      obtain ⟨_, thrown⟩ := attempt_of_throws throws
      cases ends.symm.trans thrown
    | some result =>
      rcases attempt_eq_some ends with ⟨other, _, listed⟩ | ⟨⟨exception, rfl⟩, throws⟩
      · exact absurd listed (headFree other)
      · exact iff_of_false (fun same => by cases same) fun free => free.1 throws

end

section
variable (client : RegistryClient) (get : Nat → Option HttpResponse)

/-- The attempt numbered `i`, which the loop may make, is the first one that is
answered with a list. -/
def Answered (i : Nat) (list : List Bytes) : Prop :=
  (i : Int) ≤ client.retryTimes ∧ Lists client.parse (get i) list ∧
    ∀ j < i, ∀ other, ¬Lists client.parse (get j) other

/-- How many requests `fetchFromRegistry` issues. -/
def requestsIssued : Nat :=
  (fetchIssued client.parse 0 ((List.range (client.retryTimes + 1).toNat).map get)).2

/-- What a call of `getAddresses` finds: `cache_`, and the files of the directory. -/
structure Caches where
  cache : Bytes → Option CacheItem
  dir : Directory

/-- `getAddresses`. It reads the clock when it looks into `cache_` and when it stores. -/
def getAddresses (service : Bytes) (lookedUp stored : Nat) (result : SaveResult) (opened : Bool)
    (s : Caches) : Except JsonException (List Bytes) × Caches :=
  match (s.cache service).filter fun item => ¬client.Expired lookedUp item with
  | some item => (.ok item.addrs, s)
  | none =>
    match fetchFromRegistry client.parse client.retryTimes get with
    | .error exception => (.error exception, s)
    | .ok addrs =>
      if addrs ≠ [] then
        (.ok addrs,
          { cache := Function.update s.cache service (some ⟨addrs, stored⟩)
            dir := saveToDisk s.dir service addrs result })
      else
        let addrs := CacheFile.loadFromDisk s.dir service opened
        (.ok addrs, { s with cache := Function.update s.cache service (some ⟨addrs, stored⟩) })

variable {client get}

theorem getElem?_attempts {n i : Nat} {answer : Option HttpResponse} :
    ((List.range n).map get)[i]? = some answer ↔ i < n ∧ answer = get i := by
  rw [List.getElem?_map, Option.map_eq_some_iff]
  constructor
  · rintro ⟨j, here, rfl⟩
    obtain ⟨inside, same⟩ := List.getElem?_eq_some_iff.mp here
    rw [List.getElem_range] at same
    rw [List.length_range] at inside
    exact ⟨inside, by rw [same]⟩
  · rintro ⟨inside, rfl⟩
    exact ⟨i, by rw [List.getElem?_range inside], rfl⟩

/-- The first list that is answered is returned, unless an attempt before it throws. -/
theorem Answered.fetch_cases {i : Nat} {list : List Bytes} (answered : Answered client get i list) :
    (fetchFromRegistry client.parse client.retryTimes get = .ok list ∧
        ∀ j < i, ¬Throws client.parse (get j)) ∨
      (∃ exception, fetchFromRegistry client.parse client.retryTimes get = .error exception) ∧
        ∃ j < i, Throws client.parse (get j) := by
  obtain ⟨within, lists, first⟩ := answered
  have inside : i < (client.retryTimes + 1).toNat := by omega
  have earlier : ∀ (j : Nat) (before : Option HttpResponse), j < i →
      ((List.range (client.retryTimes + 1).toNat).map get)[j]? = some before →
      ∀ list, ¬Lists client.parse before list := by
    intro j before less there
    obtain ⟨_, rfl⟩ := getElem?_attempts.mp there
    exact first j less
  rcases fetchLoop_lists (getElem?_attempts.mpr ⟨inside, rfl⟩) lists earlier with
    ⟨listed, free⟩ | ⟨thrown, j, before, less, there, throws⟩
  · exact .inl ⟨listed, fun j less => free j _ less (getElem?_attempts.mpr ⟨less.trans inside, rfl⟩)⟩
  · obtain ⟨_, rfl⟩ := getElem?_attempts.mp there
    exact .inr ⟨thrown, j, less, throws⟩

theorem Answered.fetch {i : Nat} {list : List Bytes} (answered : Answered client get i list) :
    fetchFromRegistry client.parse client.retryTimes get = .ok list ↔
      ∀ j < i, ¬Throws client.parse (get j) := by
  rcases answered.fetch_cases with ⟨listed, free⟩ | ⟨⟨exception, thrown⟩, j, less, throws⟩
  · exact iff_of_true listed free
  · exact iff_of_false (fun same => by cases thrown.symm.trans same) fun free => free j less throws

theorem fetch_unanswered
    (none : ∀ i : Nat, (i : Int) ≤ client.retryTimes → ∀ list, ¬Lists client.parse (get i) list) :
    fetchFromRegistry client.parse client.retryTimes get = .ok [] ↔
      ∀ i : Nat, (i : Int) ≤ client.retryTimes → ¬Throws client.parse (get i) := by
  rw [fetchFromRegistry, fetchLoop_unlisted]
  · rw [List.forall_mem_map]
    constructor
    · exact fun free i within => free i (List.mem_range.mpr (by omega))
    · exact fun free i inside => free i (by have := List.mem_range.mp inside; omega)
  · rw [List.forall_mem_map]
    exact fun i inside => none i (by have := List.mem_range.mp inside; omega)

/-- Of the attempts that are answered with a list one is the first, or there are none. -/
theorem answered_or_none (client : RegistryClient) (get : Nat → Option HttpResponse) :
    (∃ i list, Answered client get i list) ∨
      ∀ i : Nat, (i : Int) ≤ client.retryTimes → ∀ list, ¬Lists client.parse (get i) list := by
  classical
  by_cases some_ : ∃ i : Nat, (i : Int) ≤ client.retryTimes ∧ ∃ list, Lists client.parse (get i) list
  · obtain ⟨within, list, lists⟩ := Nat.find_spec some_
    refine .inl ⟨Nat.find some_, list, within, lists, fun j before other there => ?_⟩
    exact Nat.find_min some_ before ⟨by omega, other, there⟩
  · exact .inr fun i within list lists => some_ ⟨i, within, list, lists⟩

/-- `fetchFromRegistry` and, whatever the caches hold, `getAddresses` on these answers. -/
structure Total (client : RegistryClient) (get : Nat → Option HttpResponse) : Prop where
  issued : (requestsIssued client get : Int) ≤ max 0 (client.retryTimes + 1)
  answered : ∀ i list, Answered client get i list →
    fetchFromRegistry client.parse client.retryTimes get = .ok list
  unanswered : (∀ i : Nat, (i : Int) ≤ client.retryTimes → ∀ list, ¬Lists client.parse (get i) list) →
    fetchFromRegistry client.parse client.retryTimes get = .ok []
  nothingThrown : ∀ exception,
    fetchFromRegistry client.parse client.retryTimes get ≠ .error exception ∧
      ∀ service lookedUp stored result opened s,
        (getAddresses client get service lookedUp stored result opened s).1 ≠ .error exception

theorem requestsIssued_le : (requestsIssued client get : Int) ≤ max 0 (client.retryTimes + 1) := by
  have bound := @fetchIssued_snd_le client.parse 0 ((List.range (client.retryTimes + 1).toNat).map get)
  rw [List.length_map, List.length_range] at bound
  rw [requestsIssued]
  omega

theorem getAddresses_not_thrown {exception : JsonException}
    (fetched : fetchFromRegistry client.parse client.retryTimes get ≠ .error exception)
    (service : Bytes) (lookedUp stored : Nat) (result : SaveResult) (opened : Bool) (s : Caches) :
    (getAddresses client get service lookedUp stored result opened s).1 ≠ .error exception := by
  rw [getAddresses]
  split
  · exact fun thrown => by cases thrown
  · cases fetch : fetchFromRegistry client.parse client.retryTimes get with
    | error other =>
      rw [fetch] at fetched
      exact fetched
    | ok addrs =>
      dsimp only
      split <;> exact fun thrown => by cases thrown

/-- All goes well exactly if no attempt throws before the first one that is answered
with a list. -/
theorem fetch_total_iff (client : RegistryClient) (get : Nat → Option HttpResponse) :
    Total client get ↔ ∀ i : Nat, (i : Int) ≤ client.retryTimes → Throws client.parse (get i) →
      ∃ j < i, ∃ list, Lists client.parse (get j) list := by
  constructor
  · intro total i within throws
    by_contra unanswered
    rcases answered_or_none client get with ⟨first, list, answered⟩ | none
    · have behind : i < first := by
        rcases Nat.lt_trichotomy first i with before | same | behind
        · exact absurd ⟨first, before, list, answered.2.1⟩ unanswered
        · subst same
          exact absurd throws answered.2.1.not_throws
        · exact behind
      exact answered.fetch.mp (total.answered first list answered) i behind throws
    · exact (fetch_unanswered none).mp (total.unanswered none) i within throws
  · intro early
    have answered : ∀ i list, Answered client get i list →
        fetchFromRegistry client.parse client.retryTimes get = .ok list := by
      intro i list answered
      refine answered.fetch.mpr fun j before throws => ?_
      obtain ⟨k, earlier, other, lists⟩ := early j (by have := answered.1; omega) throws
      exact answered.2.2 k (earlier.trans before) other lists
    have unanswered : (∀ i : Nat, (i : Int) ≤ client.retryTimes → ∀ list,
        ¬Lists client.parse (get i) list) →
        fetchFromRegistry client.parse client.retryTimes get = .ok [] := by
      intro none
      refine (fetch_unanswered none).mpr fun i within throws => ?_
      obtain ⟨j, before, list, lists⟩ := early i within throws
      exact none j (by omega) list lists
    have returns : ∀ exception, fetchFromRegistry client.parse client.retryTimes get ≠ .error exception := by
      intro exception thrown
      rcases answered_or_none client get with ⟨first, list, first_⟩ | none
      · cases thrown.symm.trans (answered first list first_)
      · cases thrown.symm.trans (unanswered none)
    exact ⟨requestsIssued_le, answered, unanswered, fun exception =>
      ⟨returns exception, getAddresses_not_thrown (returns exception)⟩⟩

/-- The body `[1]` is answered, and the conversion throws. -/
theorem number_thrown : ¬∀ client get, Total client get := by
  intro total
  let parse : Bytes → Except JsonException Json := fun text =>
    if text = asciiText "[1]" then .ok (.array [.number]) else .error .parse_error
  have reply := total ⟨parse, 30, 2⟩ fun _ => some ⟨200, asciiText "[1]"⟩
  exact (reply.nothingThrown .type_error).1 rfl

/-- `getAddresses` behind a look into `cache_` that has found nothing, or only what has expired. -/
theorem getAddresses_stale {lookedUp : Nat} {service : Bytes} {s : Caches}
    (stale : ∀ item, s.cache service = some item → client.Expired lookedUp item) (stored : Nat)
    (result : SaveResult) (opened : Bool) :
    (getAddresses client get service lookedUp stored result opened s).1 =
      (fetchFromRegistry client.parse client.retryTimes get).map fun addrs =>
        if addrs ≠ [] then addrs else CacheFile.loadFromDisk s.dir service opened := by
  have missed : ((s.cache service).filter fun item => ¬client.Expired lookedUp item) = none := by
    rw [Option.filter_eq_none_iff]
    intro item there
    simpa using stale item there
  rw [getAddresses, missed]
  cases fetchFromRegistry client.parse client.retryTimes get with
  | error exception => rfl
  | ok addrs =>
    by_cases some_ : addrs ≠ []
    · simp only [if_pos some_, Except.map]
    · simp only [if_neg some_, Except.map]

/-- Where a call is that has ended so. -/
def Phase.ended : Except JsonException (List Bytes) → Phase
  | .ok list => .returned list
  | .error exception => .threw exception

/-- What the two levels have in common for a service. -/
structure Matches (caches : Caches) (s : State) (service : Bytes) : Prop where
  cache : caches.cache service = (s.cache service).map Entry.item
  file : (s.disk service).map DiskFile.text = caches.dir (filename service)

/-- A call whose steps no other thread comes between does what `getAddresses` does. -/
theorem getAddresses_run (client : RegistryClient) (get : Nat → Option HttpResponse) {s : State} {k : Nat}
    {call : Call} {caches : Caches} (here : s.calls[k]? = some call) (entered : call.phase = .entered)
    (matching : Matches caches s call.service) (duration : Nat) (result : SaveResult) (opened : Bool) :
    let ended := getAddresses client get call.service s.now (s.now + duration) result opened caches
    ∃ t, Runs (Step client) s t ∧ t.calls[k]? = some { call with phase := .ended ended.1 } ∧
      Matches ended.2 t call.service := by
  obtain ⟨cache, file⟩ := matching
  unfold getAddresses
  cases found : (caches.cache call.service).filter fun item => ¬client.Expired s.now item with
  | some item =>
    rw [Option.filter_eq_some_iff, cache, Option.map_eq_some_iff] at found
    obtain ⟨⟨entry, there, rfl⟩, young⟩ := found
    exact ⟨_, .one (.hit here entered there (by simpa using young)), threads_set_self here _, cache, file⟩
  | none =>
    have stale : client.Stale s call.service := by
      intro entry there
      rw [Option.filter_eq_none_iff, cache, there] at found
      simpa using found _ rfl
    have missed : Runs (Step client) s _ := .one (.miss here entered stale)
    have looked := threads_set_self here { call with phase := .fetching (s.moments + 1) }
    cases fetch : fetchFromRegistry client.parse client.retryTimes get with
    | error exception =>
      exact ⟨_, missed.tail ⟨_, .threw looked rfl fetch⟩, threads_set_self looked _, cache, file⟩
    | ok addrs =>
      by_cases some_ : addrs ≠ []
      · have got := missed.tail ⟨_, .fetched looked rfl fetch some_⟩
        have fetched := threads_set_self looked { call with phase := .fetched addrs (s.moments + 1 + 1) }
        have saved := got.tail ⟨_, .save result fetched rfl⟩
        have ready := threads_set_self fetched
          { call with phase := .ready addrs (.fetched (s.moments + 1 + 1)) }
        have later := saved.tail ⟨_, .tick duration⟩
        refine ⟨_, later.tail ⟨_, .store ready rfl⟩, ?_, ?_⟩
        · simp only [if_pos some_]
          exact threads_set_self ready _
        · simp only [if_pos some_]
          constructor
          · simp
          · simpa using (saveToDisk_file caches.dir call.service addrs result _ _ file).symm
      · obtain rfl := not_not.mp some_
        have gone := missed.tail ⟨_, .failed looked rfl fetch⟩
        have failed := threads_set_self looked { call with phase := .failed (s.moments + 1) }
        have loaded := gone.tail ⟨_, .load opened failed rfl⟩
        have read := loadFromDisk_eq caches.dir call.service opened file
        let loads := RegistryClient.loadFromDisk (s.disk call.service) opened
        let source := Source.loaded (s.moments + 1) loads.2
        have ready := threads_set_self failed { call with phase := .ready loads.1 source }
        have later := loaded.tail ⟨_, .tick duration⟩
        refine ⟨_, later.tail ⟨_, .store ready rfl⟩, ?_, ?_⟩
        · simp only [if_neg some_, read]
          exact threads_set_self ready _
        · simp only [if_neg some_, read]
          exact ⟨by simp [loads], file⟩

/-- A file from which `loadFromDisk` gets an address. -/
def HasLine (dir : Directory) (service : Bytes) (opened : Bool) : Prop :=
  opened = true ∧ ∃ text, dir (filename service) = some text ∧ ∃ c ∈ text, c ≠ lineEnd

theorem loadFromDisk_eq_nil_iff {dir : Directory} {service : Bytes} {opened : Bool} :
    CacheFile.loadFromDisk dir service opened = [] ↔ ¬HasLine dir service opened := by
  unfold CacheFile.loadFromDisk HasLine
  cases dir (filename service) with
  | none => cases opened <;> simp
  | some text =>
    cases opened with
    | false => simp
    | true => simp [readLines_eq, ← loadText_ne_nil_iff]

/-- The first list that the registry answers is what `getAddresses` returns exactly if
no attempt before it throws and, should the list be empty, the disk has none either. -/
theorem answer_authoritative_iff (client : RegistryClient) (get : Nat → Option HttpResponse)
    (service : Bytes) (lookedUp stored : Nat) (result : SaveResult) (opened : Bool) (s : Caches)
    (stale : ∀ item, s.cache service = some item → client.Expired lookedUp item) :
    (∀ i list, Answered client get i list →
        (getAddresses client get service lookedUp stored result opened s).1 = .ok list) ↔
      ∀ i list, Answered client get i list →
        (∀ j < i, ¬Throws client.parse (get j)) ∧ (list = [] → ¬HasLine s.dir service opened) := by
  refine forall₃_congr fun i list answered => ?_
  rw [getAddresses_stale stale, ← loadFromDisk_eq_nil_iff]
  rcases answered.fetch_cases with ⟨listed, free⟩ | ⟨⟨exception, thrown⟩, j, less, throws⟩
  · rw [listed, Except.map]
    by_cases some_ : list = []
    · subst some_
      simpa using fun _ => free
    · simpa [some_] using free
  · rw [thrown]
    exact iff_of_false (fun same => by cases same) fun both => both.1 j less throws

/-- The JSON library on the body `["10.0.0.1:80"]` and on an empty array. -/
def parseLists (text : Bytes) : Except JsonException Json :=
  if text = asciiText "[\"10.0.0.1:80\"]" then .ok (.ofStrings [asciiText "10.0.0.1:80"])
  else if text = asciiText "[]" then .ok (.ofStrings [])
  else .error .parse_error

/-- The first attempt gets no answer, and the second one a list. -/
theorem answer_authoritative_second :
    let get : Nat → Option HttpResponse := fun i =>
      if i = 0 then none else some ⟨200, asciiText "[\"10.0.0.1:80\"]"⟩
    (getAddresses ⟨parseLists, 30, 2⟩ get [] 0 0 .complete true ⟨fun _ => none, fun _ => none⟩).1 =
      .ok [asciiText "10.0.0.1:80"] := by
  intro get
  have lists : ∀ i, i ≠ 0 → Lists parseLists (get i) [asciiText "10.0.0.1:80"] :=
    fun i later => ⟨⟨200, _⟩, if_neg later, rfl, rfl⟩
  have quiet : ∀ i, ¬Throws parseLists (get i) := by
    intro i
    by_cases start : i = 0
    · subst start
      rintro ⟨_, answered, _⟩
      cases answered
    · exact (lists i start).not_throws
  have answered : Answered ⟨parseLists, 30, 2⟩ get 1 [asciiText "10.0.0.1:80"] := by
    refine ⟨by decide, lists 1 (by decide), ?_⟩
    rintro j before other ⟨_, there, _⟩
    cases Nat.lt_one_iff.mp before
    cases there
  refine (answer_authoritative_iff ⟨parseLists, 30, 2⟩ get [] 0 0 .complete true
    ⟨fun _ => none, fun _ => none⟩ fun _ there => by cases there).mpr ?_ 1 _ answered
  rintro i list _
  refine ⟨fun j _ => quiet j, fun _ => ?_⟩
  rintro ⟨_, _, there, _⟩
  cases there

/-- The registry answers with an empty array, and the list on the disk is returned. -/
theorem empty_answer_not_returned :
    ¬∀ (client : RegistryClient) (get : Nat → Option HttpResponse) (service : Bytes)
      (lookedUp stored : Nat) (result : SaveResult) (opened : Bool) (s : Caches),
      (∀ item, s.cache service = some item → client.Expired lookedUp item) →
      ∀ i list, Answered client get i list →
        (getAddresses client get service lookedUp stored result opened s).1 = .ok list := by
  intro authoritative
  let dir : Directory := fun _ => some (asciiText "10.0.0.1:80\n")
  have answered : Answered ⟨parseLists, 30, 2⟩ (fun _ => some ⟨200, asciiText "[]"⟩) 0 [] :=
    ⟨by decide, ⟨_, rfl, rfl, rfl⟩, fun j before => absurd before (Nat.not_lt_zero j)⟩
  have stale : ∀ item, (fun _ => none : Bytes → Option CacheItem) [] = some item →
      RegistryClient.Expired ⟨parseLists, 30, 2⟩ 0 item := fun _ there => by cases there
  have returned := authoritative ⟨parseLists, 30, 2⟩ _ [] 0 0 .complete true ⟨fun _ => none, dir⟩ stale 0 []
    answered
  rw [getAddresses_stale stale] at returned
  have disk : CacheFile.loadFromDisk dir [] true = [] := Except.ok.inj returned
  exact loadFromDisk_eq_nil_iff.mp disk ⟨rfl, _, rfl, 49, by decide, by decide⟩

end

end ReactorRpc.RegistryClient
