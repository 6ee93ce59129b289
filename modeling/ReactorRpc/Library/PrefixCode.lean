import Mathlib.Data.List.Induction

namespace Streams
universe u v
variable {α : Type u} {β : Type v} {enc : β → List α} {dec : List α → Option (β × List α)}

/-- A self-delimiting code: the decoder takes exactly one codeword off the
front of a stream, and waits as long as only a part of it has arrived. -/
structure PrefixCode (enc : β → List α) (dec : List α → Option (β × List α)) : Prop where
  pos : ∀ x, 0 < (enc x).length
  whole : ∀ x rest, dec (enc x ++ rest) = some (x, rest)
  short : ∀ x p, p <+: enc x → p.length < (enc x).length → dec p = none

theorem PrefixCode.dec_nil (code : PrefixCode enc dec) : dec [] = none := by
  cases decoded : dec [] with
  | none => rfl
  | some pair =>
    have waits := code.short pair.1 [] (List.nil_prefix) (code.pos pair.1)
    rw [decoded] at waits
    exact absurd waits (by simp)

/-- What arrived of a stream either ends inside its first codeword, or it
starts with that codeword and goes on with a part of the remaining stream. -/
theorem PrefixCode.arrived_cases (code : PrefixCode enc dec) {x : β} {xs : List β}
    {arrived later : List α} (split : arrived ++ later = (x :: xs).flatMap enc) :
    (arrived.length < (enc x).length ∧ dec arrived = none) ∨
      ∃ rest, arrived = enc x ++ rest ∧ rest ++ later = xs.flatMap enc := by
  rw [List.flatMap_cons] at split
  by_cases inside : arrived.length < (enc x).length
  · left
    have front : arrived <+: enc x :=
      List.prefix_of_prefix_length_le (List.prefix_append arrived later)
        (split ▸ List.prefix_append (enc x) _) (Nat.le_of_lt inside)
    exact ⟨inside, code.short x arrived front inside⟩
  · right
    obtain ⟨rest, rfl⟩ : enc x <+: arrived :=
      List.prefix_of_prefix_length_le (List.prefix_append (enc x) _)
        (split ▸ List.prefix_append arrived later) (by omega)
    rw [List.append_assoc] at split
    exact ⟨rest, rfl, List.append_cancel_left split⟩

/-- The decoder either waits or takes the first codeword off the stream. -/
theorem PrefixCode.next_cases (code : PrefixCode enc dec) {left : List β} {arrived later : List α}
    (stream : arrived ++ later = left.flatMap enc) :
    dec arrived = none ∨ ∃ x rest more, left = x :: more ∧ dec arrived = some (x, rest) ∧
      rest ++ later = more.flatMap enc := by
  cases left with
  | nil =>
    have empty := (List.append_eq_nil_iff.mp stream).1
    exact .inl (empty ▸ code.dec_nil)
  | cons x more =>
    rcases code.arrived_cases stream with ⟨_, waits⟩ | ⟨rest, starts, remains⟩
    · exact .inl waits
    · exact .inr ⟨x, rest, more, rfl, by rw [starts, code.whole], remains⟩

/-- The codewords that lie wholly inside the first `n` symbols of a stream. -/
def wholeWithin (enc : β → List α) : List β → Nat → List β
  | [], _ => []
  | x :: xs, n => if (enc x).length ≤ n then x :: wholeWithin enc xs (n - (enc x).length) else []

/-- The receiver's position in a stream: what it has decoded and what it holds
undecoded, together with what is still to come, make up the stream. -/
def Receiving (enc : β → List α) (xs : List β) (later : List α) (state : List β × List α) : Prop :=
  ∃ left, xs = state.1 ++ left ∧ state.2 ++ later = left.flatMap enc

theorem Receiving.start (xs : List β) : Receiving enc xs (xs.flatMap enc) ([], []) :=
  ⟨xs, rfl, rfl⟩

theorem Receiving.arrive {xs : List β} {data later : List α} {state : List β × List α}
    (here : Receiving enc xs (data ++ later) state) :
    Receiving enc xs later (state.1, state.2 ++ data) := by
  obtain ⟨left, listed, stream⟩ := here
  exact ⟨left, listed, by rw [List.append_assoc, stream]⟩

/-- A codeword sent behind the stream does not move the receiver. -/
theorem Receiving.extend {xs : List β} {later : List α} {state : List β × List α}
    (here : Receiving enc xs later state) (x : β) :
    Receiving enc (xs ++ [x]) (later ++ enc x) state := by
  obtain ⟨left, listed, stream⟩ := here
  refine ⟨left ++ [x], by rw [listed, List.append_assoc], ?_⟩
  rw [← List.append_assoc, stream, List.flatMap_append, List.flatMap_singleton]

/-- Decoding one codeword keeps the position. -/
theorem Receiving.decode (code : PrefixCode enc dec) {xs : List β} {later : List α}
    {state : List β × List α} (here : Receiving enc xs later state) {x : β} {rest : List α}
    (decoded : dec state.2 = some (x, rest)) :
    Receiving enc xs later (state.1 ++ [x], rest) := by
  obtain ⟨left, listed, stream⟩ := here
  cases left with
  | nil =>
    have empty := (List.append_eq_nil_iff.mp stream).1
    rw [empty, code.dec_nil] at decoded
    exact absurd decoded (by simp)
  | cons y left =>
    rcases code.arrived_cases stream with ⟨_, waits⟩ | ⟨tail, starts, remains⟩
    · rw [waits] at decoded
      exact absurd decoded (by simp)
    · rw [starts, code.whole] at decoded
      cases decoded
      exact ⟨left, by simp only [listed, List.append_assoc, List.singleton_append], remains⟩

/-- More symbols hold the codewords that fewer did. -/
theorem wholeWithin_prefix (xs : List β) {m n : Nat} (more : m ≤ n) :
    wholeWithin enc xs m <+: wholeWithin enc xs n := by
  induction xs generalizing m n with
  | nil => exact List.prefix_rfl
  | cons x xs ih =>
    rw [wholeWithin, wholeWithin]
    split
    · rename_i inside
      rw [if_pos (Nat.le_trans inside more)]
      exact (List.prefix_cons_inj x).mpr (ih (Nat.sub_le_sub_right more _))
    · exact List.nil_prefix

theorem wholeWithin_append (got left : List β) (n : Nat)
    (fits : (got.flatMap enc).length ≤ n) :
    wholeWithin enc (got ++ left) n = got ++ wholeWithin enc left (n - (got.flatMap enc).length) := by
  induction got generalizing n with
  | nil => simp
  | cons x got ih =>
    simp only [List.flatMap_cons, List.length_append] at fits
    rw [List.cons_append, wholeWithin, if_pos (by omega), ih _ (by omega)]
    simp only [List.flatMap_cons, List.length_append, List.cons_append, Nat.sub_add_eq]

/-- The symbols the receiver has been given so far. -/
theorem Receiving.length {xs : List β} {received later : List α} {state : List β × List α}
    (here : Receiving enc xs later state) (total : received ++ later = xs.flatMap enc) :
    received.length = (state.1.flatMap enc).length + state.2.length := by
  obtain ⟨left, listed, stream⟩ := here
  have lengths := congrArg List.length total
  have held := congrArg List.length stream
  simp only [listed, List.flatMap_append, List.length_append] at lengths held
  omega

/-- What arrived whole is what was decoded, and what is still whole in the symbols held. -/
theorem Receiving.wholeWithin_eq {xs : List β} {received later : List α} {state : List β × List α}
    (here : Receiving enc xs later state) (total : received ++ later = xs.flatMap enc) :
    ∃ left, xs = state.1 ++ left ∧ state.2 ++ later = left.flatMap enc ∧
      wholeWithin enc xs received.length = state.1 ++ wholeWithin enc left state.2.length := by
  have size := here.length total
  obtain ⟨left, listed, stream⟩ := here
  refine ⟨left, listed, stream, ?_⟩
  have held : received.length - (state.1.flatMap enc).length = state.2.length := by omega
  rw [listed, wholeWithin_append _ _ _ (by omega), held]

/-- The receiver has decoded every codeword that arrived whole exactly when
the decoder finds nothing more in what it holds. -/
theorem Receiving.caught_up_iff (code : PrefixCode enc dec) {xs : List β}
    {received later : List α} {state : List β × List α}
    (here : Receiving enc xs later state) (total : received ++ later = xs.flatMap enc) :
    state.1 = wholeWithin enc xs received.length ↔ dec state.2 = none := by
  obtain ⟨left, _, stream, whole⟩ := here.wholeWithin_eq total
  rw [whole, List.self_eq_append_right]
  cases left with
  | nil =>
    have empty := (List.append_eq_nil_iff.mp stream).1
    simp only [wholeWithin, empty, code.dec_nil]
  | cons y left =>
    rcases code.arrived_cases stream with ⟨inside, waits⟩ | ⟨tail, starts, _⟩
    · simp only [wholeWithin, if_neg (Nat.not_le.mpr inside), waits]
    · simp [wholeWithin, starts, code.whole]

/-- The symbols held are what the decoded codewords leave of the ones received. -/
theorem Receiving.held {xs : List β} {received later : List α} {state : List β × List α}
    (here : Receiving enc xs later state) (total : received ++ later = xs.flatMap enc) :
    received = state.1.flatMap enc ++ state.2 := by
  obtain ⟨left, listed, stream⟩ := here
  rw [listed, List.flatMap_append, ← stream, ← List.append_assoc] at total
  exact List.append_cancel_right total

/-- A receiver that decodes at most one codeword for each read. -/
def receiveOne (dec : List α → Option (β × List α)) (state : List β × List α) (data : List α) :
    List β × List α :=
  match dec (state.2 ++ data) with
  | none => (state.1, state.2 ++ data)
  | some (x, rest) => (state.1 ++ [x], rest)

theorem Receiving.receiveOne (code : PrefixCode enc dec) {xs : List β} {data later : List α}
    {state : List β × List α} (here : Receiving enc xs (data ++ later) state) :
    Receiving enc xs later (receiveOne dec state data) := by
  have arrived := here.arrive
  unfold Streams.receiveOne
  cases decoded : dec (state.2 ++ data) with
  | none => exact arrived
  | some pair => exact arrived.decode code decoded

theorem Receiving.foldl_receiveOne (code : PrefixCode enc dec) {xs : List β}
    (reads : List (List α)) {later : List α} {state : List β × List α}
    (here : Receiving enc xs (reads.flatten ++ later) state) :
    Receiving enc xs later (reads.foldl (Streams.receiveOne dec) state) := by
  induction reads generalizing state with
  | nil => exact here
  | cons data reads ih =>
    rw [List.flatten_cons, List.append_assoc] at here
    exact ih (here.receiveOne code)

/-- A caught-up receiver of one codeword a read stays caught up over a read
exactly when the read completes at most one codeword. -/
theorem Receiving.receiveOne_caught_up_iff (code : PrefixCode enc dec) {xs : List β}
    {received data later : List α} {state : List β × List α}
    (here : Receiving enc xs (data ++ later) state)
    (total : received ++ (data ++ later) = xs.flatMap enc)
    (current : state.1 = wholeWithin enc xs received.length) :
    (Streams.receiveOne dec state data).1 = wholeWithin enc xs (received ++ data).length ↔
      (wholeWithin enc xs (received ++ data).length).length ≤
        (wholeWithin enc xs received.length).length + 1 := by
  have next := here.receiveOne code
  have grown : received ++ data ++ later = xs.flatMap enc := by rw [List.append_assoc, total]
  obtain ⟨left, _, _, whole⟩ := next.wholeWithin_eq grown
  have upTo := next.caught_up_iff code grown
  cases decoded : dec (state.2 ++ data) with
  | none =>
    have after : Streams.receiveOne dec state data = (state.1, state.2 ++ data) := by
      simp only [Streams.receiveOne, decoded]
    have finished := upTo.mpr (by simpa only [after] using decoded)
    refine iff_of_true finished ?_
    rw [← finished, after, current]
    exact Nat.le_succ _
  | some pair =>
    have after : Streams.receiveOne dec state data = (state.1 ++ [pair.1], pair.2) := by
      simp only [Streams.receiveOne, decoded]
    rw [whole, List.self_eq_append_right, ← current, after, ← List.length_eq_zero_iff]
    simp only [List.length_append, List.length_singleton]
    omega

/-- Over a whole run: one codeword a read keeps up with the stream after every
read exactly when no read completes more than one codeword. -/
theorem receiveOne_keeps_up_iff (code : PrefixCode enc dec) {xs : List β}
    {reads : List (List α)} {later : List α} (total : reads.flatten ++ later = xs.flatMap enc) :
    (∀ before, before <+: reads → (before.foldl (receiveOne dec) ([], [])).1 =
        wholeWithin enc xs before.flatten.length) ↔
      ∀ before data, before ++ [data] <+: reads →
        (wholeWithin enc xs (before ++ [data]).flatten.length).length ≤
          (wholeWithin enc xs before.flatten.length).length + 1 := by
  have step : ∀ before data, before ++ [data] <+: reads →
      (before.foldl (receiveOne dec) ([], [])).1 = wholeWithin enc xs before.flatten.length →
      (((before ++ [data]).foldl (receiveOne dec) ([], [])).1 =
          wholeWithin enc xs (before ++ [data]).flatten.length ↔
        (wholeWithin enc xs (before ++ [data]).flatten.length).length ≤
          (wholeWithin enc xs before.flatten.length).length + 1) := by
    intro before data front current
    obtain ⟨after, rfl⟩ := front
    have stream : before.flatten ++ (data ++ (after.flatten ++ later)) = xs.flatMap enc := by
      simpa only [List.flatten_append, List.flatten_cons, List.flatten_nil, List.append_nil,
        List.append_assoc] using total
    have here : Receiving enc xs (data ++ (after.flatten ++ later))
        (before.foldl (receiveOne dec) ([], [])) :=
      Receiving.foldl_receiveOne code before (stream ▸ Receiving.start xs)
    have once := here.receiveOne_caught_up_iff code stream current
    simpa only [List.foldl_append, List.foldl_cons, List.foldl_nil, List.flatten_append,
      List.flatten_cons, List.flatten_nil, List.append_nil] using once
  constructor
  · intro keeps before data front
    exact (step before data front (keeps before ((List.prefix_append _ _).trans front))).mp
      (keeps _ front)
  · intro single before
    induction before using List.reverseRecOn with
    | nil =>
      intro _
      have fresh : Receiving enc xs (xs.flatMap enc) ([], []) := Receiving.start xs
      exact (fresh.caught_up_iff code (List.nil_append _)).mpr code.dec_nil
    | append_singleton before data ih =>
      intro front
      exact (step before data front (ih ((List.prefix_append _ _).trans front))).mpr
        (single before data front)

end Streams
