import ReactorRpc.EventLoop

namespace ReactorRpc
open Streams
universe u v

namespace EventLoop
variable {Thread : Type u} {F : Type v}

/-- A wakeup has been written and not read yet, or is about to be written. -/
def State.Alerted (s : State Thread F) : Prop := s.counter ≠ 0 ∨ ∃ t, s.posting t = .pushed

/-- The loop will swap before it comes to `epoll_wait` again, or it will not come
there again. -/
def State.SwapsFirst (s : State Thread F) : Prop :=
  match s.phase with
  | .outside => s.quit = true
  | .polling => False
  | .running _ _ => s.quit = true
  | _ => True

/-- A push that no wakeup follows does no harm while the loop will swap first or
a wakeup is on its way anyway. -/
def Harmless (threadId : Thread) (s : State Thread F) : Action Thread F → Prop
  | .queueInLoop t _ => t = threadId → s.SwapsFirst ∨ s.Alerted
  | _ => True

/-- About to call `epoll_wait`, the loop has a functor queued and no wakeup comes. -/
structure Missed (runner : Thread) (s : State Thread F) : Prop where
  polling : s.phase = .polling
  queued : s.pendingFunctors ≠ []
  silent : s.counter = 0
  nobody : ∀ t, t ≠ runner → s.posting t ≠ .pushed

/-- What harmless steps keep. -/
structure Watched (runner : Thread) (s : State Thread F) : Prop where
  covered : s.SwapsFirst ∨ s.pendingFunctors = [] ∨ s.Alerted
  calling : s.posting runner ≠ .idle → Phase.Calls s.phase
  quits : ∀ t, s.posting t = .quitting → s.quit = true

theorem Watched.start (runner : Thread) : Watched runner ({} : State Thread F) :=
  ⟨.inr (.inl rfl), fun busy => absurd rfl busy, nofun⟩

theorem Watched.not_missed {runner : Thread} {s : State Thread F} (watched : Watched runner s) :
    ¬Missed runner s := by
  rintro ⟨polling, queued, silent, nobody⟩
  rcases watched.covered with swaps | empty | counted | ⟨t, posting⟩
  · simp only [State.SwapsFirst, polling] at swaps
  · exact queued empty
  · exact counted silent
  · by_cases same : t = runner
    · have calls := watched.calling (by rw [← same, posting]; exact nofun)
      rw [polling] at calls
      cases calls
    · exact nobody t same posting

/-- A move of the loop's thread, which leaves the other threads where they are. -/
theorem Watched.move {runner : Thread} {s t : State Thread F} (watched : Watched runner s)
    (posting : t.posting = s.posting) (quit : t.quit = s.quit)
    (covered : s.SwapsFirst ∨ s.pendingFunctors = [] ∨ s.Alerted →
      t.SwapsFirst ∨ t.pendingFunctors = [] ∨ t.Alerted)
    (calling : s.posting runner ≠ .idle → Phase.Calls s.phase → Phase.Calls t.phase) :
    Watched runner t where
  covered := covered watched.covered
  calling busy := by
    rw [posting] at busy
    exact calling busy (watched.calling busy)
  quits u gone := by
    rw [posting] at gone
    rw [quit]
    exact watched.quits u gone

/-- A functor is queued, and on its own way the loop will not learn of it before
it is back at `epoll_wait`. -/
structure Unnoticed (runner : Thread) (s : State Thread F) : Prop where
  queued : s.pendingFunctors ≠ []
  silent : s.counter = 0
  nobody : ∀ t, s.posting t ≠ .pushed
  idle : s.posting runner = .idle

theorem Unnoticed.missed {runner : Thread} {s : State Thread F} (unnoticed : Unnoticed runner s)
    (polling : s.phase = .polling) : Missed runner s :=
  ⟨polling, unnoticed.queued, unnoticed.silent, fun t _ => unnoticed.nobody t⟩

theorem Unnoticed.move {runner : Thread} {s t : State Thread F} (unnoticed : Unnoticed runner s)
    (pending : t.pendingFunctors = s.pendingFunctors) (counter : t.counter = s.counter)
    (posting : t.posting = s.posting) : Unnoticed runner t where
  queued := pending ▸ unnoticed.queued
  silent := counter.trans unnoticed.silent
  nobody := by rw [posting]; exact unnoticed.nobody
  idle := by rw [posting]; exact unnoticed.idle

theorem eventfdWrite_ne_zero (counter : Nat) : eventfdWrite counter ≠ 0 := by
  unfold eventfdWrite
  split <;> omega

variable [DecidableEq Thread]

theorem updated_cases (t u : Thread) (posting : Thread → Posting) (x : Posting) :
    Function.update posting t x u = posting u ∨ u = t ∧ Function.update posting t x u = x := by
  by_cases same : u = t
  · exact .inr ⟨same, by rw [same, Function.update_self]⟩
  · exact .inl (Function.update_of_ne same x posting)

/-- A call moves at most the thread that makes it. -/
theorem posting_cases (threadId t u : Thread) (posting : Thread → Posting) (x : Posting) :
    (if isInLoopThread threadId t then posting else Function.update posting t x) u = posting u ∨
      u = t ∧ (if isInLoopThread threadId t then posting else Function.update posting t x) u = x := by
  split
  · exact .inl rfl
  · exact updated_cases t u posting x

theorem Watched.queueInLoop {threadId runner t : Thread} {s : State Thread F} {cb : F}
    (watched : Watched runner s) (free : s.MayCall runner t)
    (harmless : t = threadId → s.SwapsFirst ∨ s.Alerted) :
    Watched runner (queueInLoop threadId t cb s) where
  covered := by
    by_cases own : threadId = t
    · have inLoop : isInLoopThread threadId t = true := isInLoopThread_iff.mpr own
      rcases harmless own.symm with swaps | counted | ⟨u, pushed⟩
      · exact .inl swaps
      · exact .inr (.inr (.inl counted))
      · refine .inr (.inr (.inr ⟨u, ?_⟩))
        simp only [EventLoop.queueInLoop, inLoop, if_true, pushed]
    · refine .inr (.inr (.inr ⟨t, ?_⟩))
      simp [EventLoop.queueInLoop, own]
  calling busy := by
    rcases posting_cases threadId t runner s.posting .pushed with kept | ⟨same, _⟩
    · exact watched.calling (kept ▸ busy)
    · exact free.outside same.symm
  quits u gone := by
    rcases posting_cases threadId t u s.posting .pushed with kept | ⟨_, pushed⟩
    · exact watched.quits u (kept.symm.trans gone)
    · cases pushed.symm.trans gone

theorem Watched.quit {threadId runner t : Thread} {s : State Thread F} (watched : Watched runner s)
    (free : s.MayCall runner t) : Watched runner (quitLoop threadId t s) where
  covered := by
    rcases watched.covered with swaps | empty | counted | ⟨u, pushed⟩
    · left
      simp only [State.SwapsFirst, quitLoop] at swaps ⊢
      split at swaps <;> simp_all
    · exact .inr (.inl empty)
    · exact .inr (.inr (.inl counted))
    · refine .inr (.inr (.inr ⟨u, ?_⟩))
      rcases posting_cases threadId t u s.posting .quitting with kept | ⟨same, _⟩
      · exact kept.trans pushed
      · rw [same, free.idle] at pushed
        cases pushed
  calling busy := by
    rcases posting_cases threadId t runner s.posting .quitting with kept | ⟨same, _⟩
    · exact watched.calling (kept ▸ busy)
    · exact free.outside same.symm
  quits _ _ := rfl

theorem Watched.wakeup {runner t : Thread} {s : State Thread F} (watched : Watched runner s) :
    Watched runner (wakeup t s) where
  covered := .inr (.inr (.inl (eventfdWrite_ne_zero s.counter)))
  calling busy := by
    rcases updated_cases t runner s.posting .idle with kept | ⟨_, idle⟩
    · exact watched.calling (kept ▸ busy)
    · exact absurd idle busy
  quits u gone := by
    rcases updated_cases t u s.posting .idle with kept | ⟨_, idle⟩
    · exact watched.quits u (kept.symm.trans gone)
    · cases idle.symm.trans gone

theorem Watched.next {threadId runner : Thread} {s t : State Thread F} {action : Action Thread F}
    (watched : Watched runner s) (harmless : Harmless threadId s action)
    (step : Step threadId runner s action t) : Watched runner t := by
  cases step with
  | queueInLoop t cb free => exact watched.queueInLoop free harmless
  | runInLoop t cb free =>
    rw [runInLoop]
    split
    · exact watched.move rfl rfl id fun _ => id
    · rename_i other
      have elsewhere : t ≠ threadId := by
        rintro rfl
        exact other (isInLoopThread_iff.mpr rfl)
      exact (watched.queueInLoop free fun own => absurd own elsewhere).move rfl rfl id fun _ => id
  | quit t free => exact watched.quit free
  | wakeup t => exact watched.wakeup
  | loop outside idle goes =>
    refine watched.move rfl rfl (fun covered => .inr (covered.resolve_left fun swaps => ?_))
      fun busy => absurd idle busy
    simp only [State.SwapsFirst, outside, goes] at swaps
    cases swaps
  | again done goes =>
    refine watched.move rfl rfl (fun covered => .inr (covered.resolve_left fun swaps => ?_))
      fun _ calls => ?_
    · simp only [State.SwapsFirst, done, goes] at swaps
      cases swaps
    · rw [done] at calls
      cases calls
  | leave done quits => exact watched.move rfl rfl (fun _ => .inl quits) fun _ _ => .outside
  | swap through =>
    refine watched.move rfl rfl (fun _ => .inr (.inl rfl)) fun _ calls => ?_
    rw [through] at calls
    cases calls
  | call next =>
    refine watched.move rfl rfl (Or.imp_left fun swaps => ?_) fun _ _ => .functor _ _
    simpa only [State.SwapsFirst, next] using swaps
  | functorReturns inside idle =>
    refine watched.move rfl rfl (Or.imp_left fun swaps => ?_) fun busy => absurd idle busy
    simpa only [State.SwapsFirst, inside] using swaps
  | epollWait at_ | polled _ at_ | wakeupEvent at_ =>
    refine watched.move rfl rfl (fun _ => .inl trivial) fun _ calls => ?_
    rw [at_] at calls
    cases calls
  | channelEvent at_ => exact watched.move rfl rfl (fun _ => .inl trivial) fun _ _ => .inCallback _
  | callbackReturns at_ idle =>
    exact watched.move rfl rfl (fun _ => .inl trivial) fun busy => absurd idle busy

/-- The loop runs its batch to the end and comes to `epoll_wait`. -/
theorem Unnoticed.batch (threadId : Thread) {runner : Thread} {s : State Thread F} {rest : List F}
    (unnoticed : Unnoticed runner s) (goes : s.quit = false) (behind : s.phase = .running none rest) :
    ∃ u, Runs (Step threadId runner) s u ∧ Missed runner u := by
  induction rest generalizing s with
  | nil =>
    have polling : Unnoticed runner { s with phase := .polling } := unnoticed.move rfl rfl rfl
    exact ⟨_, .one (.again behind goes), polling.missed rfl⟩
  | cons cb rest ih =>
    let after : State Thread F :=
      { s with
        phase := .running none rest
        executed := s.executed ++ [(cb, s.swaps)]
        executions := s.executions ++ [⟨runner, cb, s.looping⟩] }
    have called : Runs (Step threadId runner) s _ := .one (.call behind)
    have returned : Runs (Step threadId runner) s after :=
      called.tail ⟨_, .functorReturns rfl unnoticed.idle⟩
    have still : Unnoticed runner after := unnoticed.move rfl rfl rfl
    obtain ⟨u, run, missed⟩ := ih still goes rfl
    exact ⟨u, returned.trans run, missed⟩

theorem Unnoticed.reaches (threadId : Thread) {runner : Thread} {s : State Thread F}
    (unnoticed : Unnoticed runner s) (late : ¬s.SwapsFirst) :
    ∃ u, Runs (Step threadId runner) s u ∧ Missed runner u := by
  cases at_ : s.phase with
  | polling => exact ⟨s, .refl, unnoticed.missed at_⟩
  | outside =>
    simp only [State.SwapsFirst, at_, Bool.not_eq_true] at late
    have looping : Unnoticed runner { s with looping := true, phase := .polling } :=
      unnoticed.move rfl rfl rfl
    exact ⟨_, .one (.loop at_ unnoticed.idle late), looping.missed rfl⟩
  | running current rest =>
    simp only [State.SwapsFirst, at_, Bool.not_eq_true] at late
    cases current with
    | none => exact unnoticed.batch threadId late at_
    | some cb =>
      have after : Unnoticed runner { s with phase := .running none rest } :=
        unnoticed.move rfl rfl rfl
      obtain ⟨u, run, missed⟩ := after.batch threadId late rfl
      exact ⟨u, (Runs.one (.functorReturns at_ unnoticed.idle)).trans run, missed⟩
  | waiting | dispatching | inCallback => exact absurd (by simp only [State.SwapsFirst, at_]) late

/-- A push that is not harmless leaves the loop without notice. -/
theorem Watched.unnoticed {threadId runner : Thread} {s : State Thread F} {cb : F}
    (watched : Watched runner s) (late : ¬s.SwapsFirst) (quiet : ¬s.Alerted) :
    Unnoticed runner (EventLoop.queueInLoop threadId threadId cb s) := by
  have kept : (EventLoop.queueInLoop threadId threadId cb s).posting = s.posting := by
    simp [EventLoop.queueInLoop]
  refine ⟨by simp [EventLoop.queueInLoop], ?_, ?_, ?_⟩
  · by_contra counted
    exact quiet (.inl counted)
  · intro t pushed
    rw [kept] at pushed
    exact quiet (.inr ⟨t, pushed⟩)
  · rw [kept]
    by_contra busy
    have calls := watched.calling busy
    cases at_ : s.posting runner with
    | idle => exact busy at_
    | pushed => exact quiet (.inr ⟨runner, at_⟩)
    | quitting =>
      have quits := watched.quits runner at_
      cases phase : s.phase with
      | polling | waiting | dispatching =>
        rw [phase] at calls
        cases calls
      | outside | inCallback | running =>
        exact late (by simp only [State.SwapsFirst, phase, quits])

/-- As long as every push is harmless, the loop never comes to `epoll_wait` with
a functor queued and no wakeup on its way; after any push that is not, it does so
in some continuation of the run. -/
theorem harmless_never_missed {threadId runner : Thread} {s : State Thread F}
    (run : Runs (Restricted (Harmless threadId) (Step threadId runner)) {} s) :
    ¬Missed runner s ∧ ∀ action t, Step threadId runner s action t → ¬Harmless threadId s action →
      ∃ u, Runs (Step threadId runner) t u ∧ Missed runner u := by
  have watched : Watched runner s := run.kept (fun _ _ _ => Watched.next) (Watched.start runner)
  refine ⟨watched.not_missed, fun action t step harmful => ?_⟩
  cases step with
  | queueInLoop t cb free =>
    simp only [Harmless, not_forall, not_or] at harmful
    obtain ⟨rfl, late, quiet⟩ := harmful
    exact (watched.unnoticed late quiet).reaches t late
  | _ => exact absurd trivial harmful

/-- A functor of another thread's loop posts a functor, which is woken for. -/
theorem harmless_never_missed_reentrant : ∃ s : State Nat Nat,
    Runs (Restricted (Harmless 0) (Step 0 1)) {} s ∧ s.phase = .polling ∧
    s.pendingFunctors = [11] ∧ ¬Missed 1 s := by
  have start : Runs (Restricted (Harmless 0) (Step 0 1)) ({} : State Nat Nat) _ := .refl
  have pushed := start.allow (.queueInLoop 2 10 ⟨rfl, nofun⟩) (fun own => nomatch own)
  have looping := pushed.allow (.loop rfl rfl rfl) trivial
  have waiting := looping.allow (.epollWait rfl) trivial
  have polled := waiting.allow (.polled [] rfl nofun) trivial
  have swapped := polled.allow (.swap rfl) trivial
  have called := swapped.allow (.call rfl) trivial
  have posted := called.allow (.queueInLoop 1 11 ⟨rfl, fun _ => .functor 10 []⟩) (fun own => nomatch own)
  have woken := posted.allow (.wakeup 1 (by decide)) trivial
  have returned := woken.allow (.functorReturns rfl rfl) trivial
  have run := returned.allow (.again rfl rfl) trivial
  exact ⟨_, run, rfl, rfl, (harmless_never_missed run).1⟩

/-- A functor run by the constructing thread posts another one, and the loop goes
to sleep on it. -/
theorem reentrant_wakeup_missed : ¬∀ (threadId runner : Nat) (s : State Nat Nat),
    Runs (Step threadId runner) {} s → ¬Missed runner s := by
  intro never
  have pushed : Runs (Step 0 0) ({} : State Nat Nat) _ := .one (.queueInLoop 1 10 ⟨rfl, nofun⟩)
  have woken := pushed.tail ⟨_, .wakeup 1 (by decide)⟩
  have looping := woken.tail ⟨_, .loop rfl rfl rfl⟩
  have waiting := looping.tail ⟨_, .epollWait rfl⟩
  have polled := waiting.tail ⟨_, .polled [.wakeup] rfl (fun _ => by decide)⟩
  have read := polled.tail ⟨_, .wakeupEvent rfl⟩
  have swapped := read.tail ⟨_, .swap rfl⟩
  have called := swapped.tail ⟨_, .call rfl⟩
  have posted := called.tail ⟨_, .queueInLoop 0 11 ⟨rfl, fun _ => .functor 10 []⟩⟩
  have returned := posted.tail ⟨_, .functorReturns rfl rfl⟩
  have run := returned.tail ⟨_, .again rfl rfl⟩
  refine never 0 0 _ run ⟨rfl, nofun, rfl, fun t _ pushed => ?_⟩
  have idle : Function.update (Function.update (fun _ => Posting.idle) 1 .pushed) 1 .idle t = .idle := by
    rw [Function.update_idem, Function.update_apply, ite_self]
  cases idle.symm.trans pushed

end EventLoop
end ReactorRpc
