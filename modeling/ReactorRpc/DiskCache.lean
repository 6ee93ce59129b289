import ReactorRpc.Library.Runs
import ReactorRpc.Library.Threads
import ReactorRpc.RegistryClient

namespace ReactorRpc.DiskCache
open Streams RegistryClient

/-- `write` at an offset of a file; bytes that nobody wrote are zero. -/
def writeAt (content : Bytes) (offset : Nat) (chunk : Bytes) : Bytes :=
  content.take offset ++ List.replicate (offset - content.length) 0 ++ chunk ++
    content.drop (offset + chunk.length)

/-- Where a call of `saveToDisk` is; `writing` has the file that it opened under the
temporary name and its offset in it. -/
inductive Phase
  | called
  | writing (inode offset : Nat)
  | closed
  | done
  | stopped
  deriving DecidableEq

/-- A call of `saveToDisk` by a client, and whether one of its writes has failed. -/
structure Saver where
  client : Nat
  list : List Bytes
  failed : Bool := false
  phase : Phase := .called
  deriving DecidableEq

/-- The files that have been created, the ones that have the temporary and the
final name now, the saves, and the save whose `rename` gave a file the final name. -/
structure State where
  inodes : List Bytes := []
  tmp : Option Nat := none
  main : Option Nat := none
  savers : List Saver := []
  renamedBy : Option Nat := none

/-- A save between its `open` and its `rename`. -/
inductive Live : Phase → Prop
  | writing (inode offset : Nat) : Live (.writing inode offset)
  | closed : Live .closed

/-- A save that does nothing any more. -/
def Over (phase : Phase) : Prop := phase = .done ∨ phase = .stopped

theorem Over.not_live {phase : Phase} (ended : Over phase) : ¬Live phase := by
  rcases ended with rfl | rfl <;> exact fun live => by cases live

inductive Action
  | call (client : Nat) (list : List Bytes)
  | open (k : Nat)
  | openFails (k : Nat)
  | write (k n : Nat)
  | writeFails (k : Nat)
  | close (k : Nat)
  | rename (k : Nat)
  | renameFails (k : Nat)
  | stop (k : Nat)

/-- No other save of the client holds `fileMutex_`. -/
def LockFree (s : State) (k client : Nat) : Prop :=
  ∀ (j : Nat) (other : Saver), j ≠ k → s.savers[j]? = some other → other.client = client → ¬Live other.phase

/-- The steps of the saves of any number of clients in one directory. `stop` is
the end of the process of a save. -/
inductive Step : State → Action → State → Prop
  | call {s : State} (client : Nat) {list : List Bytes} (some_ : list ≠ []) :
      Step s (.call client list) { s with savers := s.savers ++ [{ client, list }] }
  | truncate {s : State} {k i : Nat} {saver : Saver} (here : s.savers[k]? = some saver)
      (called : saver.phase = .called) (lock : LockFree s k saver.client) (there : s.tmp = some i) :
      Step s (.open k)
        { s with
          inodes := s.inodes.set i []
          savers := s.savers.set k { saver with phase := .writing i 0 } }
  | create {s : State} {k : Nat} {saver : Saver} (here : s.savers[k]? = some saver)
      (called : saver.phase = .called) (lock : LockFree s k saver.client) (missing : s.tmp = none) :
      Step s (.open k)
        { s with
          inodes := s.inodes ++ [[]]
          tmp := some s.inodes.length
          savers := s.savers.set k { saver with phase := .writing s.inodes.length 0 } }
  | openFails {s : State} {k : Nat} {saver : Saver} (here : s.savers[k]? = some saver)
      (called : saver.phase = .called) (lock : LockFree s k saver.client) :
      Step s (.openFails k) { s with savers := s.savers.set k { saver with phase := .done } }
  | write {s : State} {k i offset n : Nat} {saver : Saver} {content : Bytes}
      (here : s.savers[k]? = some saver) (writing : saver.phase = .writing i offset)
      (sound : saver.failed = false) (file : s.inodes[i]? = some content)
      (within : offset + n ≤ (saveText saver.list).length) :
      Step s (.write k n)
        { s with
          inodes := s.inodes.set i (writeAt content offset (((saveText saver.list).drop offset).take n))
          savers := s.savers.set k { saver with phase := .writing i (offset + n) } }
  | writeFails {s : State} {k i offset : Nat} {saver : Saver} (here : s.savers[k]? = some saver)
      (writing : saver.phase = .writing i offset) :
      Step s (.writeFails k) { s with savers := s.savers.set k { saver with failed := true } }
  | close {s : State} {k i offset : Nat} {saver : Saver} (here : s.savers[k]? = some saver)
      (writing : saver.phase = .writing i offset)
      (whole : saver.failed = true ∨ offset = (saveText saver.list).length) :
      Step s (.close k) { s with savers := s.savers.set k { saver with phase := .closed } }
  | rename {s : State} {k i : Nat} {saver : Saver} (here : s.savers[k]? = some saver)
      (closed : saver.phase = .closed) (there : s.tmp = some i) :
      Step s (.rename k)
        { s with
          tmp := none
          main := some i
          savers := s.savers.set k { saver with phase := .done }
          renamedBy := some k }
  | renameFails {s : State} {k : Nat} {saver : Saver} (here : s.savers[k]? = some saver)
      (closed : saver.phase = .closed) :
      Step s (.renameFails k) { s with savers := s.savers.set k { saver with phase := .done } }
  | stop {s : State} {k : Nat} {saver : Saver} (here : s.savers[k]? = some saver) :
      Step s (.stop k) { s with savers := s.savers.set k { saver with phase := .stopped } }

/-- The file with the final name has the whole list of the save that put it there,
and no write of that save has failed. -/
def Complete (s : State) : Prop :=
  ∀ i, s.main = some i → ∃ k saver, s.renamedBy = some k ∧ s.savers[k]? = some saver ∧
    saver.failed = false ∧ s.inodes[i]? = some (saveText saver.list)

/-- A save opens the temporary file while no other one is between its `open` and its
`rename`, and comes to its `rename` only if all its writes have succeeded. -/
def Careful (s : State) : Action → Prop
  | .open k => ∀ (j : Nat) (other : Saver), j ≠ k → s.savers[j]? = some other → ¬Live other.phase
  | .rename k => ∀ saver, s.savers[k]? = some saver → saver.failed = false
  | _ => True

theorem writeAt_take {text : Bytes} {offset n : Nat} (within : offset + n ≤ text.length) :
    writeAt (text.take offset) offset ((text.drop offset).take n) = text.take (offset + n) := by
  have size : (text.take offset).length = offset := by
    rw [List.length_take]
    omega
  have behind : (text.take offset).drop (offset + ((text.drop offset).take n).length) = [] :=
    List.drop_eq_nil_of_le (by rw [size]; omega)
  rw [writeAt, behind, List.append_nil, size, Nat.sub_self, List.replicate_zero, List.append_nil,
    List.take_take, Nat.min_self, List.take_add]

theorem saveText_ne_nil {list : List Bytes} (some_ : list ≠ []) : saveText list ≠ [] := by
  cases list with
  | nil => exact absurd rfl some_
  | cons addr list => simp [saveText]

/-- What the file of a save between its `open` and its `rename` holds. -/
def Holds (s : State) (saver : Saver) : Prop :=
  match saver.phase with
  | .writing i offset => s.tmp = some i ∧ offset ≤ (saveText saver.list).length ∧
      (saver.failed = false → s.inodes[i]? = some ((saveText saver.list).take offset))
  | .closed => ∃ i, s.tmp = some i ∧
      (saver.failed = false → s.inodes[i]? = some (saveText saver.list))
  | _ => True

/-- At most one save is between its `open` and its `rename`; the file that it writes
is not the one with the final name, which is complete. -/
structure Sound (s : State) : Prop where
  single : ∀ (j k : Nat) (x y : Saver), s.savers[j]? = some x → s.savers[k]? = some y →
    Live x.phase → Live y.phase → j = k
  holds : ∀ (k : Nat) (saver : Saver), s.savers[k]? = some saver → Holds s saver
  apart : ∀ i, s.tmp = some i → i < s.inodes.length ∧ s.main ≠ some i
  complete : ∀ i, s.main = some i → i < s.inodes.length ∧ ∃ k saver, s.renamedBy = some k ∧
    s.savers[k]? = some saver ∧ Over saver.phase ∧ saver.failed = false ∧
    s.inodes[i]? = some (saveText saver.list)
  lists : ∀ (k : Nat) (saver : Saver), s.savers[k]? = some saver → saver.list ≠ []

theorem Sound.start : Sound {} where
  single _ _ _ _ here := by cases here
  holds _ _ here := by cases here
  apart _ here := by cases here
  complete _ here := by cases here
  lists _ _ here := by cases here

theorem holds_of_idle {s : State} {saver : Saver} (idle : ¬Live saver.phase) : Holds s saver := by
  obtain ⟨client, list, failed, phase⟩ := saver
  cases phase with
  | writing i offset => exact absurd (.writing i offset) idle
  | closed => exact absurd .closed idle
  | _ => trivial

theorem Holds.writing {s : State} {saver : Saver} {i offset : Nat} (holds : Holds s saver)
    (writing : saver.phase = .writing i offset) :
    s.tmp = some i ∧ offset ≤ (saveText saver.list).length ∧
      (saver.failed = false → s.inodes[i]? = some ((saveText saver.list).take offset)) := by
  unfold Holds at holds
  rwa [writing] at holds

theorem Holds.closed {s : State} {saver : Saver} (holds : Holds s saver) (closed : saver.phase = .closed) :
    ∃ i, s.tmp = some i ∧ (saver.failed = false → s.inodes[i]? = some (saveText saver.list)) := by
  unfold Holds at holds
  rwa [closed] at holds

theorem Sound.alone {s : State} (sound : Sound s) {k : Nat} {saver : Saver}
    (here : s.savers[k]? = some saver) (live : Live saver.phase) (j : Nat) (other : Saver) (apart : j ≠ k)
    (there : s.savers[j]? = some other) : ¬Live other.phase :=
  fun also => apart (sound.single j k other saver there here also live)

/-- A save moves on; the file with the final name stays as it is. -/
theorem Sound.move {s t : State} (sound : Sound s) {k : Nat} {saver moved : Saver}
    (here : s.savers[k]? = some saver) (savers : t.savers = s.savers.set k moved)
    (list : moved.list = saver.list) (ends : Over saver.phase → Over moved.phase ∧ moved.failed = saver.failed)
    (alone : Live moved.phase → ∀ (j : Nat) (other : Saver), j ≠ k → s.savers[j]? = some other →
      ¬Live other.phase)
    (others : ∀ (j : Nat) (other : Saver), j ≠ k → s.savers[j]? = some other → Holds t other)
    (holds : Holds t moved) (apart : ∀ i, t.tmp = some i → i < t.inodes.length ∧ s.main ≠ some i)
    (main : t.main = s.main) (renamedBy : t.renamedBy = s.renamedBy)
    (grows : s.inodes.length ≤ t.inodes.length)
    (kept : ∀ i, s.main = some i → t.inodes[i]? = s.inodes[i]?) : Sound t where
  single i j x y atI atJ live live' := by
    rw [savers] at atI atJ
    rcases (threads_set_iff here).mp atI with ⟨rfl, rfl⟩ | ⟨otherI, oldI⟩
    · rcases (threads_set_iff here).mp atJ with ⟨rfl, _⟩ | ⟨otherJ, oldJ⟩
      · rfl
      · exact absurd live' (alone live j y otherJ oldJ)
    · rcases (threads_set_iff here).mp atJ with ⟨rfl, rfl⟩ | ⟨_, oldJ⟩
      · exact absurd live (alone live' i x otherI oldI)
      · exact sound.single i j x y oldI oldJ live live'
  holds j other found := by
    rw [savers] at found
    rcases (threads_set_iff here).mp found with ⟨_, rfl⟩ | ⟨apart, old⟩
    · exact holds
    · exact others j other apart old
  apart i there := main ▸ apart i there
  complete i there := by
    obtain ⟨inside, j, done, renamed, atJ, ended, succeeded, content⟩ := sound.complete i (main ▸ there)
    refine ⟨inside.trans_le grows, j, ?_⟩
    rw [renamedBy, savers, kept i (main ▸ there)]
    by_cases same : j = k
    · subst j
      cases here.symm.trans atJ
      obtain ⟨ended, succeeded'⟩ := ends ended
      exact ⟨moved, renamed, threads_set_self here moved, ended, succeeded'.trans succeeded, list ▸ content⟩
    · exact ⟨done, renamed, threads_set_other same atJ moved, ended, succeeded, content⟩
  lists j other found := by
    rw [savers] at found
    rcases (threads_set_iff here).mp found with ⟨_, rfl⟩ | ⟨_, old⟩
    · exact list ▸ sound.lists k saver here
    · exact sound.lists j other old

/-- A save moves on and no file changes. -/
theorem Sound.idle {s : State} (sound : Sound s) {k : Nat} {saver moved : Saver}
    (here : s.savers[k]? = some saver) (list : moved.list = saver.list)
    (ends : Over saver.phase → Over moved.phase ∧ moved.failed = saver.failed)
    (live : Live moved.phase → Live saver.phase)
    (holds : Holds { s with savers := s.savers.set k moved } moved) :
    Sound { s with savers := s.savers.set k moved } :=
  sound.move here rfl list ends (fun busy => sound.alone here (live busy))
    (fun j other _ found => sound.holds j other found) holds sound.apart rfl rfl le_rfl fun _ _ => rfl

theorem Sound.call {s : State} (sound : Sound s) (client : Nat) {list : List Bytes} (some_ : list ≠ []) :
    Sound { s with savers := s.savers ++ [{ client, list }] } where
  single i j x y atI atJ live live' := by
    rcases threads_append_iff.mp atI with oldI | ⟨_, rfl⟩
    · rcases threads_append_iff.mp atJ with oldJ | ⟨_, rfl⟩
      · exact sound.single i j x y oldI oldJ live live'
      · cases live'
    · cases live
  holds j other found := by
    rcases threads_append_iff.mp found with old | ⟨_, rfl⟩
    · exact sound.holds j other old
    · trivial
  apart := sound.apart
  complete i there := by
    obtain ⟨inside, j, done, renamed, atJ, rest⟩ := sound.complete i there
    exact ⟨inside, j, done, renamed, threads_append_iff.mpr (.inl atJ), rest⟩
  lists j other found := by
    rcases threads_append_iff.mp found with old | ⟨_, rfl⟩
    · exact sound.lists j other old
    · exact some_

theorem not_over_called : ¬Over .called := by rintro (other | other) <;> cases other

theorem Live.not_over {phase : Phase} (live : Live phase) : ¬Over phase := fun ended => ended.not_live live

/-- The file with the final name is not written through another name. -/
theorem set_elsewhere {s : State} (sound : Sound s) {i : Nat} (there : s.tmp = some i) (content : Bytes)
    (m : Nat) (main : s.main = some m) : (s.inodes.set i content)[m]? = s.inodes[m]? := by
  refine List.getElem?_set_ne fun same => (sound.apart i there).2 ?_
  rw [same, main]

/-- The file of a save that has not failed gets the final name. -/
theorem Sound.rename {s : State} (sound : Sound s) {k i : Nat} {saver : Saver}
    (here : s.savers[k]? = some saver) (closed : saver.phase = .closed) (there : s.tmp = some i)
    (succeeded : saver.failed = false) :
    Sound { s with
      tmp := none
      main := some i
      renamedBy := some k
      savers := s.savers.set k { saver with phase := .done } } := by
  have live : Live saver.phase := closed ▸ .closed
  obtain ⟨m, tmp, written⟩ := (sound.holds k saver here).closed closed
  cases there.symm.trans tmp
  have others : ∀ (j : Nat) (other : Saver),
      (s.savers.set k { saver with phase := .done })[j]? = some other → ¬Live other.phase := by
    intro j other found
    rcases (threads_set_iff here).mp found with ⟨_, rfl⟩ | ⟨apart, old⟩
    · exact fun done => by cases done
    · exact sound.alone here live j other apart old
  constructor
  · exact fun j _ x _ atJ _ busy => absurd busy (others j x atJ)
  · exact fun j other found => holds_of_idle (others j other found)
  · exact fun _ none => by cases none
  · intro m main
    cases main
    exact ⟨(sound.apart i there).1, k, _, rfl, threads_set_self here _, .inl rfl, succeeded, written succeeded⟩
  · intro j other found
    rcases (threads_set_iff here).mp found with ⟨_, rfl⟩ | ⟨_, old⟩
    · exact sound.lists k saver here
    · exact sound.lists j other old

theorem Sound.next {s t : State} {action : Action} (sound : Sound s) (careful : Careful s action)
    (step : Step s action t) : Sound t := by
  cases step with
  | call client some_ => exact sound.call client some_
  | @truncate k i saver here called lock there =>
    have running : ¬Over saver.phase := called ▸ not_over_called
    refine sound.move here rfl rfl (fun ended => absurd ended running) (fun _ => careful)
      (fun j other apart found => holds_of_idle (careful j other apart found))
      ⟨there, Nat.zero_le _, fun _ => ?_⟩ (fun m tmp => ?_) rfl rfl (List.length_set ..).ge
      (set_elsewhere sound there [])
    · exact List.getElem?_set_self (sound.apart i there).1
    · exact ⟨(sound.apart m tmp).1.trans_le (List.length_set ..).ge, (sound.apart m tmp).2⟩
  | @create k saver here called lock missing =>
    have running : ¬Over saver.phase := called ▸ not_over_called
    refine sound.move here rfl rfl (fun ended => absurd ended running) (fun _ => careful)
      (fun j other apart found => holds_of_idle (careful j other apart found))
      ⟨rfl, Nat.zero_le _, fun _ => ?_⟩ (fun m tmp => ?_) rfl rfl (by simp) (fun m main => ?_)
    · simp
    · cases tmp
      refine ⟨by simp, fun main => ?_⟩
      exact lt_irrefl _ (sound.complete _ main).1
    · exact List.getElem?_append_left (sound.complete m main).1
  | @openFails k saver here called lock =>
    exact sound.idle here rfl (fun ended => absurd ended (called ▸ not_over_called))
      (fun live => by cases live) trivial
  | @write k i offset n saver content here writing succeeded file within =>
    have live : Live saver.phase := writing ▸ .writing i offset
    obtain ⟨there, _, written⟩ := (sound.holds k saver here).writing writing
    have inside := (sound.apart i there).1
    refine sound.move here rfl rfl (fun ended => absurd ended live.not_over) (fun _ => sound.alone here live)
      (fun j other apart found => holds_of_idle (sound.alone here live j other apart found))
      ⟨there, within, fun _ => ?_⟩ (fun m tmp => ?_) rfl rfl (List.length_set ..).ge
      (set_elsewhere sound there _)
    · cases file.symm.trans (written succeeded)
      change (s.inodes.set i _)[i]? = _
      rw [List.getElem?_set_self inside, writeAt_take within]
    · exact ⟨(sound.apart m tmp).1.trans_le (List.length_set ..).ge, (sound.apart m tmp).2⟩
  | @writeFails k i offset saver here writing =>
    have live : Live saver.phase := writing ▸ .writing i offset
    obtain ⟨there, within, _⟩ := (sound.holds k saver here).writing writing
    refine sound.idle here rfl (fun ended => absurd ended live.not_over) (fun _ => live) ?_
    unfold Holds
    dsimp only
    rw [writing]
    exact ⟨there, within, fun succeeded => by cases succeeded⟩
  | @close k i offset saver here writing whole =>
    have live : Live saver.phase := writing ▸ .writing i offset
    obtain ⟨there, _, content⟩ := (sound.holds k saver here).writing writing
    refine sound.idle here rfl (fun ended => absurd ended live.not_over) (fun _ => live)
      ⟨i, there, fun succeeded => ?_⟩
    have written := content succeeded
    have all := whole.resolve_left fun failed => by
      rw [failed] at succeeded
      cases succeeded
    rwa [all, List.take_length] at written
  | rename here closed there => exact sound.rename here closed there (careful _ here)
  | @renameFails k saver here closed =>
    have live : Live saver.phase := closed ▸ .closed
    exact sound.idle here rfl (fun ended => absurd ended live.not_over) (fun _ => live) trivial
  | stop here =>
    exact sound.idle here rfl (fun _ => ⟨.inr rfl, rfl⟩) (fun live => by cases live) trivial

/-- As long as the temporary file is opened by one save at a time and renamed by
none that failed to write, the file with the final name has the whole list of the
save that put it there; after a `rename` by one that failed it has not. -/
theorem complete_list {s : State} (run : Runs (Restricted Careful Step) {} s) :
    Complete s ∧ ∀ k t, Step s (.rename k) t → ¬Careful s (.rename k) → ¬Complete t := by
  have sound : Sound s := run.kept (P := Sound) (fun _ _ _ => Sound.next) Sound.start
  constructor
  · intro i there
    obtain ⟨_, k, saver, renamed, here, _, rest⟩ := sound.complete i there
    exact ⟨k, saver, renamed, here, rest⟩
  · intro k t step careless complete
    cases step with
    | @rename k i saver here closed there =>
      obtain ⟨j, other, renamed, atJ, succeeded, _⟩ := complete i rfl
      cases renamed
      rcases (threads_set_iff here).mp atJ with ⟨_, rfl⟩ | ⟨apart, _⟩
      · refine careless fun first found => ?_
        cases found.symm.trans here
        exact succeeded
      · exact apart rfl

/-- Two clients save one after the other. -/
theorem complete_list_twice : ∃ s : State, Runs (Restricted Careful Step) {} s ∧
    s.main = some 1 ∧ s.inodes[1]? = some (asciiText "b:2\n") ∧ Complete s := by
  have start : Runs (Restricted Careful Step) {} _ := .refl
  have first := start.allow (.call 0 (List.cons_ne_nil (asciiText "a:1") [])) trivial
  have second := first.allow (.call 1 (List.cons_ne_nil (asciiText "b:2") [])) trivial
  have opened := second.allow (@Step.create _ 0 _ rfl rfl (fun j other apart there same live => ?_) rfl)
    fun j other apart there live => ?_
  · have written := opened.allow (@Step.write _ 0 0 0 4 _ [] rfl rfl rfl rfl (by decide)) trivial
    have closed := written.allow (@Step.close _ 0 0 4 _ rfl rfl (.inr rfl)) trivial
    have renamed := closed.allow (@Step.rename _ 0 0 _ rfl rfl rfl) fun _ here => by cases here; rfl
    have again := renamed.allow (@Step.create _ 1 _ rfl rfl (fun j other apart there same live => ?_) rfl)
      fun j other apart there live => ?_
    · have rewritten := again.allow (@Step.write _ 1 1 0 4 _ [] rfl rfl rfl rfl (by decide)) trivial
      have reclosed := rewritten.allow (@Step.close _ 1 1 4 _ rfl rfl (.inr rfl)) trivial
      have replaced := reclosed.allow (@Step.rename _ 1 1 _ rfl rfl rfl) fun _ here => by cases here; rfl
      exact ⟨_, replaced, rfl, rfl, (complete_list replaced).1⟩
    · match j, there with
      | 0, there => cases there; cases live
      | 1, there => exact apart rfl
    · match j, there with
      | 0, there => cases there; cases live
      | 1, there => exact apart rfl
  · match j, there with
    | 0, there => exact apart rfl
    | 1, there => cases there; cases live
  · match j, there with
    | 0, there => exact apart rfl
    | 1, there => cases there; cases live

/-- Every open, write and rename succeeds, and no process stops. -/
def NothingFails : Action → Prop
  | .openFails _ | .writeFails _ | .renameFails _ | .stop _ => False
  | _ => True

/-- A second client empties the temporary file that the first one is about to rename. -/
theorem emptied_file_renamed : ¬∀ s : State, Runs (Restricted (fun _ => NothingFails) Step) {} s →
    ∀ i, s.main = some i → ∃ saver ∈ s.savers, s.inodes[i]? = some (saveText saver.list) := by
  intro always
  have start : Runs (Restricted (fun _ => NothingFails) Step) {} _ := .refl
  have first := start.allow (.call 0 (List.cons_ne_nil (asciiText "a:1") [])) trivial
  have second := first.allow (.call 1 (List.cons_ne_nil (asciiText "b:2") [])) trivial
  have opened := second.allow (@Step.create _ 0 _ rfl rfl (fun j other apart there same live => ?_) rfl) trivial
  · have written := opened.allow (@Step.write _ 0 0 0 4 _ [] rfl rfl rfl rfl (by decide)) trivial
    have closed := written.allow (@Step.close _ 0 0 4 _ rfl rfl (.inr rfl)) trivial
    have emptied := closed.allow
      (@Step.truncate _ 1 0 _ rfl rfl (fun j other apart there same live => ?_) rfl) trivial
    · have renamed := emptied.allow (@Step.rename _ 0 0 _ rfl rfl rfl) trivial
      obtain ⟨saver, member, content⟩ := always _ renamed 0 rfl
      have list : saver.list ≠ [] := by
        rcases List.mem_pair.mp member with rfl | rfl <;> exact List.cons_ne_nil _ _
      exact saveText_ne_nil list (Option.some.inj content).symm
    · match j, there with
      | 0, there => cases there; cases same
      | 1, there => exact apart rfl
  · match j, there with
    | 0, there => exact apart rfl
    | 1, there => cases there; cases live

end ReactorRpc.DiskCache
