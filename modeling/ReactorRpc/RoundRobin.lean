import ReactorRpc.CallMethod
import ReactorRpc.Library.Rotation

namespace ReactorRpc.LoadBalancer
open Streams

/-- Where a thread is in `select` with more than no addresses: in front of
`fetch_add`, with the number that it gave, or back. -/
inductive SelectPhase
  | entered
  | drawn (ticket : UInt32)
  | returned (ticket : UInt32) (position : Nat) (address : Bytes)
  deriving DecidableEq

/-- The number that a call has drawn. -/
def SelectPhase.drawing : SelectPhase → Multiset UInt32
  | .entered => 0
  | .drawn ticket => {ticket}
  | .returned ticket _ _ => {ticket}

/-- A balancer, the calls of `select`, and the numbers drawn so far, in their order. -/
structure State where
  balancer : LoadBalancer := {}
  calls : List SelectPhase := []
  tickets : List UInt32 := []

inductive Action
  | call
  | fetchAdd (k : Nat)
  | index (k : Nat)

/-- The steps of any threads in `select`, of a `ROUND_ROBIN` balancer. -/
inductive Step (addrs : List Bytes) : State → Action → State → Prop
  | call {s : State} : Step addrs s .call { s with calls := s.calls ++ [.entered] }
  | fetchAdd {s : State} {k : Nat} (here : s.calls[k]? = some .entered) :
      Step addrs s (.fetchAdd k)
        { balancer := { s.balancer with index := s.balancer.index + 1 }
          calls := s.calls.set k (.drawn s.balancer.index)
          tickets := s.tickets ++ [s.balancer.index] }
  | index {s : State} {k : Nat} {ticket : UInt32} (here : s.calls[k]? = some (.drawn ticket)) :
      Step addrs s (.index k)
        { s with
          calls := s.calls.set k (.returned ticket (ticket.toNat % addrs.length)
            (addrs.getD (ticket.toNat % addrs.length) [])) }

/-- A call that no other one comes between does what `select` does at once. -/
theorem select_run {addrs : List Bytes} (some_ : addrs ≠ []) {s : State}
    (roundRobin : s.balancer.type = .ROUND_ROBIN) (draw : Nat) :
    ∃ t position, Runs (Step addrs) s t ∧ t.balancer = (s.balancer.select addrs draw).2 ∧
      t.calls[s.calls.length]? =
        some (.returned s.balancer.index position (s.balancer.select addrs draw).1) := by
  have entered : (s.calls ++ [.entered])[s.calls.length]? = some SelectPhase.entered := by simp
  have drawn := threads_set_self entered (.drawn s.balancer.index)
  have called : Runs (Step addrs) s _ := .one .call
  refine ⟨_, s.balancer.index.toNat % addrs.length, (called.tail ⟨_, .fetchAdd entered⟩).tail ⟨_, .index drawn⟩, ?_, ?_⟩
  · simp only [select, if_neg some_, roundRobin]
  · rw [threads_set_self drawn]
    simp only [select, if_neg some_, roundRobin]

/-- The positions at which the calls take their addresses, in the order of their numbers. -/
def State.positions (s : State) (addrs : List Bytes) : List Nat :=
  s.tickets.map fun ticket => ticket.toNat % addrs.length

/-- The numbers are drawn in order. -/
structure InOrder (addrs : List Bytes) (s : State) : Prop where
  index : s.balancer.index = UInt32.ofNat s.tickets.length
  tickets : s.tickets = (List.range s.tickets.length).map UInt32.ofNat
  drawn : ∀ (k : Nat) (ticket : UInt32), s.calls[k]? = some (.drawn ticket) → ticket ∈ s.tickets
  returned : ∀ (k : Nat) (ticket : UInt32) (position : Nat) (address : Bytes),
    s.calls[k]? = some (.returned ticket position address) →
      ticket ∈ s.tickets ∧ position = ticket.toNat % addrs.length ∧ addrs[position]? = some address
  once : gathered SelectPhase.drawing s.calls = s.tickets

theorem InOrder.start (addrs : List Bytes) : InOrder addrs {} where
  index := rfl
  tickets := rfl
  drawn _ _ here := by cases here
  returned _ _ _ _ here := by cases here
  once := rfl

theorem InOrder.step {addrs : List Bytes} (some_ : addrs ≠ []) {s t : State} {action : Action}
    (inOrder : InOrder addrs s) (step : Step addrs s action t) : InOrder addrs t := by
  cases step with
  | call =>
    refine ⟨inOrder.index, inOrder.tickets, fun k ticket there => ?_,
      fun k ticket position address there => ?_, ?_⟩
    · rcases threads_append_iff.mp there with old | ⟨_, new⟩
      · exact inOrder.drawn k ticket old
      · cases new
    · rcases threads_append_iff.mp there with old | ⟨_, new⟩
      · exact inOrder.returned k ticket position address old
      · cases new
    · rw [gathered_around, List.append_nil, inOrder.once]
      exact Multiset.zero_add _
  | fetchAdd here =>
    obtain ⟨front, back, around, set, _⟩ := threads_around here
    have once := inOrder.once
    rw [around, gathered_around] at once
    constructor
    · rw [inOrder.index, List.length_append, List.length_singleton, UInt32.ofNat_add]
      rfl
    · rw [List.length_append, List.length_singleton, List.range_succ, List.map_append, ← inOrder.tickets,
        inOrder.index, List.map_singleton]
    · intro k ticket there
      rcases (threads_set_iff here).mp there with ⟨_, new⟩ | ⟨_, old⟩
      · cases new
        exact List.mem_append_right _ (List.mem_singleton_self _)
      · exact List.mem_append_left _ (inOrder.drawn k ticket old)
    · intro k ticket position address there
      rcases (threads_set_iff here).mp there with ⟨_, new⟩ | ⟨_, old⟩
      · cases new
      · obtain ⟨member, place⟩ := inOrder.returned k ticket position address old
        exact ⟨List.mem_append_left _ member, place⟩
    · rw [set, gathered_around, ← Multiset.coe_add, ← once, Multiset.coe_singleton]
      simp only [SelectPhase.drawing, zero_add, add_comm]
  | @index k drawn here =>
    obtain ⟨front, back, around, set, _⟩ := threads_around here
    have once := inOrder.once
    rw [around, gathered_around] at once
    refine ⟨inOrder.index, inOrder.tickets, fun k ticket there => ?_,
      fun k ticket position address there => ?_, ?_⟩
    · rcases (threads_set_iff here).mp there with ⟨_, new⟩ | ⟨_, old⟩
      · cases new
      · exact inOrder.drawn k ticket old
    · rcases (threads_set_iff here).mp there with ⟨_, new⟩ | ⟨_, old⟩
      · cases new
        have inside := Nat.mod_lt drawn.toNat (List.length_pos_iff.mpr some_)
        refine ⟨inOrder.drawn _ drawn here, rfl, ?_⟩
        rw [List.getD_eq_getElem?_getD, List.getElem?_eq_getElem inside, Option.getD_some]
      · exact inOrder.returned k ticket position address old
    · rw [set, gathered_around]
      exact once

theorem InOrder.run {addrs : List Bytes} (some_ : addrs ≠ []) {s : State} (run : Runs (Step addrs) {} s) :
    InOrder addrs s :=
  run.invariant (fun _ _ _ inOrder step => inOrder.step some_ step) (.start addrs)

theorem InOrder.positions {addrs : List Bytes} {s : State} (inOrder : InOrder addrs s) :
    s.positions addrs = (List.range s.tickets.length).map fun j => j % 2 ^ 32 % addrs.length := by
  rw [State.positions]
  conv_lhs => rw [inOrder.tickets]
  rw [List.map_map]
  exact List.map_congr_left fun j _ => congrArg (· % addrs.length) UInt32.toNat_ofNat'

/-- The selections of any threads are fair exactly if the number of addresses divides
the number of values of the counter, or the counter has not wrapped; and every call
takes the address at the position that its number leads to. The numbers are those that
the calls have drawn, one for each call. -/
theorem round_robin_fair_iff {addrs : List Bytes} (some_ : addrs ≠ []) {s : State}
    (run : Runs (Step addrs) {} s) :
    (Fair addrs.length (s.positions addrs) ↔ addrs.length ∣ 2 ^ 32 ∨ s.tickets.length ≤ 2 ^ 32) ∧
      (∀ (k : Nat) (ticket : UInt32) (position : Nat) (address : Bytes),
        s.calls[k]? = some (.returned ticket position address) →
          ticket ∈ s.tickets ∧ position = ticket.toNat % addrs.length ∧ addrs[position]? = some address) ∧
      gathered SelectPhase.drawing s.calls = s.tickets := by
  have inOrder := InOrder.run some_ run
  rw [inOrder.positions]
  exact ⟨positions_fair_iff (by decide) (List.length_pos_iff.mpr some_), inOrder.returned, inOrder.once⟩

/-- Two addresses, and two calls that are back. -/
theorem round_robin_fair_two : ∃ s : State,
    s.calls = [.returned 0 0 (asciiText "a"), .returned 1 1 (asciiText "b")] ∧
      Fair 2 (s.positions [asciiText "a", asciiText "b"]) := by
  let addrs := [asciiText "a", asciiText "b"]
  have first : Runs (Step addrs) {} _ := .one .call
  have second := first.tail ⟨_, .call⟩
  have drawn := second.tail ⟨_, @Step.fetchAdd _ _ 0 rfl⟩
  have drawnToo := drawn.tail ⟨_, @Step.fetchAdd _ _ 1 rfl⟩
  have back := drawnToo.tail ⟨_, @Step.index _ _ 1 1 rfl⟩
  have run := back.tail ⟨_, @Step.index _ _ 0 0 rfl⟩
  exact ⟨_, rfl, (round_robin_fair_iff (by decide) run).1.mpr (.inl (by decide))⟩

/-- There is a run with any number of selections. -/
theorem exists_selections (addrs : List Bytes) (k : Nat) :
    ∃ s : State, Runs (Step addrs) {} s ∧ s.tickets.length = k := by
  induction k with
  | zero => exact ⟨_, .refl, rfl⟩
  | succ k ih =>
    obtain ⟨s, run, size⟩ := ih
    have entered : (s.calls ++ [.entered])[s.calls.length]? = some SelectPhase.entered := by simp
    refine ⟨_, (run.tail ⟨_, .call⟩).tail ⟨_, .fetchAdd entered⟩, ?_⟩
    rw [List.length_append, List.length_singleton, size]

/-- With three addresses, the numbers around the wrap are not fair. -/
theorem round_robin_unfair : ¬∀ (addrs : List Bytes) (s : State), addrs ≠ [] → Runs (Step addrs) {} s →
    Fair addrs.length (s.positions addrs) := by
  intro fair
  obtain ⟨s, run, size⟩ := exists_selections [[1], [2], [3]] (2 ^ 32 + 1)
  have inOrder := InOrder.run (by decide) run
  have uneven := fair _ s (by decide) run
  rw [inOrder.positions, size] at uneven
  exact not_fair_of_wrap (by decide) (by decide) (by decide) (Nat.lt_succ_self _) uneven

end ReactorRpc.LoadBalancer
