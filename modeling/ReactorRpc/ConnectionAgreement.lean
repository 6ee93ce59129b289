import ReactorRpc.ConnectionCache

namespace ReactorRpc
open Streams
universe u

namespace ConnectionCache
variable {Addr : Type u}

/-- Every connect succeeds, and the channel is not closed. -/
def Undisturbed : Action Addr → Prop
  | .fail _ => False
  | .close => False
  | _ => True

/-- A call between its two locked sections. -/
inductive Creating : GetPhase → Prop
  | missed : Creating .missed
  | created (c : Nat) : Creating (.created c)

/-- A call finds no connection only while no other call is about to store one for
the same address. -/
def MissesAlone (s : State Addr) : Action Addr → Prop
  | .lookup k => ∀ call, s.calls[k]? = some call → s.connections call.addr = none →
      ∀ (j : Nat) (other : GetCall Addr), s.calls[j]? = some other → other.addr = call.addr →
        ¬Creating other.phase
  | _ => True

/-- Two calls for one address have returned different connections. -/
def Disagree (s : State Addr) : Prop :=
  ∃ (j k c d : Nat) (x y : GetCall Addr), s.calls[j]? = some x ∧ s.calls[k]? = some y ∧
    x.addr = y.addr ∧ x.phase = .returned (some c) ∧ y.phase = .returned (some d) ∧ c ≠ d

/-- At most one call for an address is creating a connection, and then none is
stored; what has been returned is what is stored. -/
structure Agreed (s : State Addr) : Prop where
  single : ∀ (j k : Nat) (x y : GetCall Addr), s.calls[j]? = some x → s.calls[k]? = some y →
    x.addr = y.addr → Creating x.phase → Creating y.phase → j = k
  empty : ∀ (k : Nat) (x : GetCall Addr), s.calls[k]? = some x → Creating x.phase →
    s.connections x.addr = none
  returned : ∀ (k : Nat) (x : GetCall Addr) (r : Option Nat), s.calls[k]? = some x →
    x.phase = .returned r → ∃ c, r = some c ∧ s.connections x.addr = some c
  kept : s.replaced = []
  fresh : ∀ (k c : Nat) (x : GetCall Addr), s.calls[k]? = some x → x.phase = .created c →
    c < s.created.length

theorem Agreed.start : Agreed ({} : State Addr) := ⟨nofun, nofun, nofun, rfl, nofun⟩

/-- A call that is not creating moves on to a place where it is not. -/
theorem Agreed.move {s : State Addr} (agreed : Agreed s) {k : Nat} {call : GetCall Addr}
    (here : s.calls[k]? = some call) {phase : GetPhase} (done : ¬Creating phase)
    (result : ∀ r, phase = .returned r → ∃ c, r = some c ∧ s.connections call.addr = some c) :
    Agreed { s with calls := s.calls.set k { call with phase := phase } } where
  single i j x y atI atJ same creating creating' := by
    rcases (threads_set_iff here).mp atI with ⟨_, rfl⟩ | ⟨_, oldI⟩
    · exact absurd creating done
    · rcases (threads_set_iff here).mp atJ with ⟨_, rfl⟩ | ⟨_, oldJ⟩
      · exact absurd creating' done
      · exact agreed.single i j x y oldI oldJ same creating creating'
  empty j x found creating := by
    rcases (threads_set_iff here).mp found with ⟨_, rfl⟩ | ⟨_, old⟩
    · exact absurd creating done
    · exact agreed.empty j x old creating
  returned j x r found back := by
    rcases (threads_set_iff here).mp found with ⟨_, rfl⟩ | ⟨_, old⟩
    · exact result r back
    · exact agreed.returned j x r old back
  kept := agreed.kept
  fresh j c x found created := by
    rcases (threads_set_iff here).mp found with ⟨_, rfl⟩ | ⟨_, old⟩
    · change phase = .created c at created
      exact absurd (created ▸ .created c) done
    · exact agreed.fresh j c x old created

/-- A call starts to create a connection, or goes on with it, while no other call
for its address does. -/
theorem Agreed.creating {s : State Addr} (agreed : Agreed s) {k : Nat} {call : GetCall Addr}
    (here : s.calls[k]? = some call) {phase : GetPhase}
    (alone : ∀ (j : Nat) (x : GetCall Addr), j ≠ k → s.calls[j]? = some x → x.addr = call.addr →
      ¬Creating x.phase)
    (missing : s.connections call.addr = none) (busy : Creating phase)
    (below : ∀ c, phase = .created c → c < s.created.length) :
    Agreed { s with calls := s.calls.set k { call with phase := phase } } where
  single i j x y atI atJ same creating creating' := by
    rcases (threads_set_iff here).mp atI with ⟨rfl, rfl⟩ | ⟨otherI, oldI⟩
    · rcases (threads_set_iff here).mp atJ with ⟨rfl, _⟩ | ⟨otherJ, oldJ⟩
      · rfl
      · exact absurd creating' (alone j y otherJ oldJ same.symm)
    · rcases (threads_set_iff here).mp atJ with ⟨rfl, rfl⟩ | ⟨_, oldJ⟩
      · exact absurd creating (alone i x otherI oldI same)
      · exact agreed.single i j x y oldI oldJ same creating creating'
  empty j x found creating := by
    rcases (threads_set_iff here).mp found with ⟨_, rfl⟩ | ⟨_, old⟩
    · exact missing
    · exact agreed.empty j x old creating
  returned j x r found back := by
    rcases (threads_set_iff here).mp found with ⟨_, rfl⟩ | ⟨_, old⟩
    · change phase = .returned r at back
      rw [back] at busy
      cases busy
    · exact agreed.returned j x r old back
  kept := agreed.kept
  fresh j c x found created := by
    rcases (threads_set_iff here).mp found with ⟨_, rfl⟩ | ⟨_, old⟩
    · exact below c created
    · exact agreed.fresh j c x old created

theorem Agreed.create {s : State Addr} (agreed : Agreed s) (addr : Addr) :
    Agreed { s with created := s.created ++ [addr] } where
  single := agreed.single
  empty := agreed.empty
  returned := agreed.returned
  kept := agreed.kept
  fresh k c x here created := by
    have below := agreed.fresh k c x here created
    simp only [List.length_append, List.length_cons, List.length_nil]
    omega

variable [DecidableEq Addr]

/-- The only call creating a connection for an address stores it. -/
theorem Agreed.store {s : State Addr} (agreed : Agreed s) {k c : Nat} {call : GetCall Addr}
    (here : s.calls[k]? = some call) (created : call.phase = .created c) :
    Agreed { s with
      connections := Function.update s.connections call.addr (some c)
      replaced := s.replaced ++ (s.connections call.addr).toList
      calls := s.calls.set k { call with phase := .returned (some c) } } where
  single i j x y atI atJ same creating creating' := by
    rcases (threads_set_iff here).mp atI with ⟨_, rfl⟩ | ⟨_, oldI⟩
    · cases creating
    · rcases (threads_set_iff here).mp atJ with ⟨_, rfl⟩ | ⟨_, oldJ⟩
      · cases creating'
      · exact agreed.single i j x y oldI oldJ same creating creating'
  empty j x found creating := by
    rcases (threads_set_iff here).mp found with ⟨_, rfl⟩ | ⟨other, old⟩
    · cases creating
    · refine entered_none_iff.mpr ⟨fun same => other ?_, agreed.empty j x old creating⟩
      exact agreed.single j k x call old here same creating (created ▸ .created c)
  returned j x r found back := by
    rcases (threads_set_iff here).mp found with ⟨_, rfl⟩ | ⟨_, old⟩
    · cases back
      exact ⟨c, rfl, Function.update_self ..⟩
    · obtain ⟨d, result, stored⟩ := agreed.returned j x r old back
      refine ⟨d, result, entered_iff.mpr (.inr ⟨fun same => ?_, stored⟩)⟩
      have none := agreed.empty k call here (created ▸ .created c)
      rw [same, none] at stored
      cases stored
  kept := by
    have none := agreed.empty k call here (created ▸ .created c)
    change s.replaced ++ (s.connections call.addr).toList = []
    rw [none, agreed.kept]
    rfl
  fresh j d x found creates := by
    rcases (threads_set_iff here).mp found with ⟨_, rfl⟩ | ⟨_, old⟩
    · cases creates
    · exact agreed.fresh j d x old creates

/-- No connection breaks or fails to come about, and an address is missed by one call at a time. -/
def Orderly (s : State Addr) (action : Action Addr) : Prop := Undisturbed action ∧ MissesAlone s action

theorem Agreed.next {s t : State Addr} {action : Action Addr} (agreed : Agreed s)
    (orderly : Orderly s action) (step : Step s action t) : Agreed t := by
  obtain ⟨undisturbed, alone⟩ := orderly
  cases step with
  | call addr =>
    refine ⟨?_, ?_, ?_, agreed.kept, ?_⟩
    · intro i j x y atI atJ same creating creating'
      rcases threads_append_iff.mp atI with oldI | ⟨_, rfl⟩
      · rcases threads_append_iff.mp atJ with oldJ | ⟨_, rfl⟩
        · exact agreed.single i j x y oldI oldJ same creating creating'
        · cases creating'
      · cases creating
    · intro k x found creating
      rcases threads_append_iff.mp found with old | ⟨_, rfl⟩
      · exact agreed.empty k x old creating
      · cases creating
    · intro k x r found back
      rcases threads_append_iff.mp found with old | ⟨_, rfl⟩
      · exact agreed.returned k x r old back
      · cases back
    · intro k c x found created
      rcases threads_append_iff.mp found with old | ⟨_, rfl⟩
      · exact agreed.fresh k c x old created
      · cases created
  | @hit k c call here entered found =>
    refine agreed.move here nofun fun r back => ?_
    cases back
    exact ⟨c, rfl, found⟩
  | @miss k call here entered missing =>
    exact agreed.creating here (fun j x _ => alone call here missing j x) missing .missed nofun
  | fail => cases undisturbed
  | @create k call here missed =>
    have busy : Creating call.phase := missed ▸ .missed
    refine (agreed.create call.addr).creating here (fun j x other found same creating => ?_)
      (agreed.empty k call here busy) (.created _) fun c same => ?_
    · exact other (agreed.single j k x call found here same creating busy)
    · cases same
      simp
  | store here created => exact agreed.store here created
  | event revents result =>
    rw [handleEvent_eq]
    split
    · exact ⟨agreed.single, agreed.empty, agreed.returned, agreed.kept, agreed.fresh⟩
    · exact agreed
  | close => cases undisturbed

/-- A call with a new connection and one that is about to create its own will
return different ones. -/
theorem created_disagree {s : State Addr} {j k c : Nat} {x y : GetCall Addr} (other : j ≠ k)
    (atJ : s.calls[j]? = some x) (atK : s.calls[k]? = some y) (same : x.addr = y.addr)
    (created : x.phase = .created c) (missed : y.phase = .missed) (below : c < s.created.length) :
    ∃ u, Runs (Restricted (fun _ => Undisturbed) Step) s u ∧ Disagree u := by
  have start : Runs (Restricted (fun _ => Undisturbed) Step) s s := .refl
  have second := start.allow (.create atK missed) trivial
  have newK := threads_set_self atK { y with phase := .created s.created.length }
  have oldJ := threads_set_other other atJ { y with phase := .created s.created.length }
  have stored := second.allow (.store oldJ created) trivial
  have backJ := threads_set_self oldJ { x with phase := .returned (some c) }
  have stillK := threads_set_other other.symm newK { x with phase := .returned (some c) }
  have replaced := stored.allow (.store stillK rfl) trivial
  have keptJ := threads_set_other other backJ { y with phase := .returned (some s.created.length) }
  have backK := threads_set_self stillK { y with phase := .returned (some s.created.length) }
  exact ⟨_, replaced, j, k, c, s.created.length, _, _, keptJ, backK, same, rfl, rfl, below.ne⟩

/-- Two calls creating connections for one address will return different ones. -/
theorem creating_disagree {s : State Addr} {j k : Nat} {x y : GetCall Addr} (agreed : Agreed s)
    (other : j ≠ k) (atJ : s.calls[j]? = some x) (atK : s.calls[k]? = some y) (same : x.addr = y.addr)
    (creating : Creating x.phase) :
    ∃ u, Runs (Restricted (fun _ => Undisturbed) Step)
      { s with calls := s.calls.set k { y with phase := .missed } } u ∧ Disagree u := by
  let crowded : State Addr := { s with calls := s.calls.set k { y with phase := .missed } }
  have missedK : crowded.calls[k]? = some { y with phase := .missed } :=
    threads_set_self atK _
  have oldJ : crowded.calls[j]? = some x := threads_set_other other atJ _
  cases phase : x.phase with
  | entered | returned =>
    rw [phase] at creating
    cases creating
  | created c =>
    exact created_disagree other oldJ missedK same phase rfl (agreed.fresh j c x atJ phase)
  | missed =>
    let first : State Addr :=
      { crowded with
        created := crowded.created ++ [x.addr]
        calls := crowded.calls.set j { x with phase := .created crowded.created.length } }
    have start : Runs (Restricted (fun _ => Undisturbed) Step) crowded crowded := .refl
    have creates : Runs (Restricted (fun _ => Undisturbed) Step) crowded first :=
      start.allow (.create oldJ phase) trivial
    have newJ : first.calls[j]? = some { x with phase := .created crowded.created.length } :=
      threads_set_self oldJ _
    have stillK : first.calls[k]? = some { y with phase := .missed } :=
      threads_set_other other.symm missedK _
    have grows : crowded.created.length < first.created.length := by simp [first]
    obtain ⟨u, run, disagree⟩ := created_disagree other newJ stillK same rfl rfl grows
    exact ⟨u, creates.trans run, disagree⟩

/-- As long as a call finds no connection only while no other call is about to
store one for the address, all calls return the stored connection and no stored
one is replaced; after any other lookup, two calls return different connections
in some continuation in which every connect succeeds. -/
theorem getConnection_agrees {s : State Addr} (run : Runs (Restricted Orderly Step) {} s) :
    (∀ (k : Nat) (call : GetCall Addr) (r : Option Nat), s.calls[k]? = some call →
      call.phase = .returned r → ∃ c, r = some c ∧ s.connections call.addr = some c) ∧
    s.replaced = [] ∧
    ∀ action t, Step s action t → Undisturbed action → ¬MissesAlone s action →
      ∃ u, Runs (Restricted (fun _ => Undisturbed) Step) t u ∧ Disagree u := by
  have agreed : Agreed s := run.kept (P := Agreed) (fun _ _ _ => Agreed.next) Agreed.start
  refine ⟨agreed.returned, agreed.kept, fun action t step undisturbed crowded => ?_⟩
  cases step with
  | @miss k call here entered missing =>
    simp only [MissesAlone, not_forall, not_not] at crowded
    obtain ⟨first, found, _, j, other, atJ, same, creating⟩ := crowded
    cases found.symm.trans here
    have elsewhere : j ≠ k := by
      rintro rfl
      cases atJ.symm.trans here
      rw [entered] at creating
      cases creating
    exact creating_disagree agreed elsewhere atJ here same creating
  | @hit k c call here entered found =>
    refine absurd (fun first at_ missing => ?_) crowded
    cases at_.symm.trans here
    rw [found] at missing
    cases missing
  | _ => exact absurd trivial crowded

/-- Two calls for one address, the second after the first has stored its connection. -/
theorem getConnection_agrees_two : ∃ s : State Nat, Runs (Restricted Orderly Step) {} s ∧
    s.calls.map GetCall.phase = [.returned (some 0), .returned (some 0)] ∧
    ∀ (k : Nat) (call : GetCall Nat) (r : Option Nat), s.calls[k]? = some call →
      call.phase = .returned r → ∃ c, r = some c ∧ s.connections call.addr = some c := by
  have start : Runs (Restricted Orderly Step) ({} : State Nat) _ := .refl
  have first := start.allow (.call 9) ⟨trivial, trivial⟩
  have entered : ∀ (j : Nat) (other : GetCall Nat), [({ addr := 9, dead := [] } : GetCall Nat)][j]? = some other →
      ¬Creating other.phase := by
    intro j other found creating
    rw [List.mem_singleton.mp (List.mem_of_getElem? found)] at creating
    cases creating
  have missed := first.allow (@Step.miss _ _ _ 0 _ rfl rfl rfl)
    ⟨trivial, fun _ _ _ j other found _ => entered j other found⟩
  · have created := missed.allow (@Step.create _ _ _ 0 _ rfl rfl) ⟨trivial, trivial⟩
    have stored := created.allow (@Step.store _ _ _ 0 0 _ rfl rfl) ⟨trivial, trivial⟩
    have second := stored.allow (.call 9) ⟨trivial, trivial⟩
    have hit := second.allow (@Step.hit _ _ _ 1 0 _ rfl rfl rfl) ⟨trivial, ?_⟩
    · exact ⟨_, hit, rfl, (getConnection_agrees hit).1⟩
    · intro call here missing
      cases here
      cases missing

/-- Two overlapping first calls return different connections. -/
theorem first_calls_disagree : ¬∀ s : State Nat,
    Runs (Restricted (fun _ => Undisturbed) Step) {} s → ¬Disagree s := by
  intro never
  have start : Runs (Restricted (fun _ => Undisturbed) Step) ({} : State Nat) _ := .refl
  have first := start.allow (.call 9) trivial
  have second := first.allow (.call 9) trivial
  have missed := second.allow (@Step.miss _ _ _ 0 _ rfl rfl rfl) trivial
  have created := missed.allow (@Step.create _ _ _ 0 _ rfl rfl) trivial
  have both := created.allow (@Step.miss _ _ _ 1 _ rfl rfl rfl) trivial
  have another := both.allow (@Step.create _ _ _ 1 _ rfl rfl) trivial
  have stored := another.allow (@Step.store _ _ _ 0 0 _ rfl rfl) trivial
  have replaced := stored.allow (@Step.store _ _ _ 1 1 _ rfl rfl) trivial
  exact never _ replaced ⟨0, 1, 0, 1, _, _, rfl, rfl, rfl, rfl, rfl, Nat.zero_ne_one⟩

end ConnectionCache
end ReactorRpc
