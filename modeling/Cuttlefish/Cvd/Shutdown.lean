import Cuttlefish.Cvd.Listener
import Mathlib.Data.Fintype.Card

/-!
# The shutdown cascade

Once `running_` is false, by `Stop()` in a callback or by `~CvdServer`, every worker that
wakes up leaves its loop and writes one more wakeup eventfd before it returns, so that the
workers still blocked in `HandleEvent` wake up one after the other. The cascade never stalls:
as long as a worker has not returned, one of them is awake or a wakeup is registered and
ready, whatever order the wakeups and the clients' events are taken in. Nor does it write
wakeups without end: one per worker thread that returns and one for `~CvdServer`.
-/

namespace Cuttlefish
namespace Cvd

open Epoll

variable {Q H : Type} {route : Q → Except String H} {s : CvdServer Q H}

/-- After `running_` is false, the workers that have not returned are never all blocked in
`HandleEvent` with no wakeup pending: one of them is awake (it runs a callback, or is between
the return of `HandleEvent` and the end of its own `BestEffortWakeup`), or a wakeup eventfd
is registered and ready. -/
theorem shutdown_never_stalls (reachable : Reachable route s) (stopped : s.running = false)
    (alive : s.aborted = false) (waiting : ∃ w, s.threads w ≠ .finished) :
    (∃ w, s.threads w ≠ .finished ∧ (s.threads w).awake) ∨
      ∃ n, s.epollPool (.event n) = some wakeupRegistration := by
  rcases reachable.invariant.shutdown stopped with aborted | finished | ⟨w, awake⟩ | pending
  · rw [alive] at aborted
    cases aborted
  · obtain ⟨w, running⟩ := waiting
    exact absurd (finished w) running
  · refine .inl ⟨w, fun done => ?_, awake⟩
    rw [done] at awake
    exact awake
  · exact .inr pending

/-- The server once the first worker got an event on the listener without `EPOLLIN`, and the
guard `stop_on_failure` of `AcceptClient` has run `Stop()`. -/
def stoppedServer : CvdServer Unit Unit :=
  (CvdServer.run routeAll .init ([.main (.step true)] ++ waitForEvent firstWorker ++
    [.worker firstWorker (.event .server ⟨false, true⟩), .worker firstWorker (.step true),
      .worker firstWorker (.step true)])).get (by decide)

theorem shutdown_never_stalls_after_stop :
    Reachable routeAll stoppedServer ∧ stoppedServer.running = false ∧
      stoppedServer.aborted = false ∧ stoppedServer.threads firstWorker ≠ .finished ∧
      ((∃ w, stoppedServer.threads w ≠ .finished ∧ (stoppedServer.threads w).awake) ∨
        ∃ n, stoppedServer.epollPool (.event n) = some wakeupRegistration) :=
  have reachable : Reachable routeAll stoppedServer := Reachable.of_run (Option.some_get _).symm
  ⟨reachable, by decide, by decide, by decide,
    shutdown_never_stalls reachable (by decide) (by decide) ⟨firstWorker, by decide⟩⟩

/-! ## One wakeup per thread -/

namespace CvdServer

variable {s' : CvdServer Q H} {w : Fin kNumThreads} {fd : Fd}

/-- The wakeups the server has written: one for each worker thread that has returned, and one
once `~CvdServer` has run its own `BestEffortWakeup`. -/
def wakeups (s : CvdServer Q H) : Nat :=
  (Finset.univ.filter fun w => (s.threads w).isFinished).card + if s.main = .exited then 1 else 0

/-- A thread that has not returned moves: the returned threads stay, and gain it if it
returns. -/
theorem finished_update {threads : Fin kNumThreads → Stage Q} {after : Stage Q}
    (before : (threads w).isFinished = false) :
    (Finset.univ.filter fun v => (Function.update threads w after v).isFinished).card =
      (Finset.univ.filter fun v => (threads v).isFinished).card +
        if after.isFinished then 1 else 0 := by
  cases finished : after.isFinished
  · rw [if_neg Bool.false_ne_true, add_zero]
    congr 1
    ext v
    by_cases same : v = w
    · subst same; simp [finished, before]
    · simp [same]
  · rw [if_pos rfl, ← Finset.card_insert_of_not_mem (a := w) (by simp [before])]
    congr 1
    ext v
    by_cases same : v = w
    · subst same; simp [finished]
    · simp [same]

/-- A worker thread that has not returned moves; the eventfds grow only if it returns. -/
theorem wakeups_move (bounded : s.eventfds ≤ s.wakeups) {after : Stage Q}
    (hw : (s.threads w).isFinished = false)
    (threads : s'.threads = Function.update s.threads w after) (main : s'.main = s.main)
    (eventfds : s'.eventfds ≤ s.eventfds + if after.isFinished then 1 else 0) :
    s'.eventfds ≤ s'.wakeups := by
  unfold wakeups at bounded ⊢
  rw [threads, main, finished_update hw]
  omega

/-- The main thread moves; the eventfds grow only when it reaches its end. -/
theorem wakeups_main (bounded : s.eventfds ≤ s.wakeups) (threads : s'.threads = s.threads)
    (before : s.main ≠ .exited)
    (eventfds : s'.eventfds ≤ s.eventfds + if s'.main = .exited then 1 else 0) :
    s'.eventfds ≤ s'.wakeups := by
  unfold wakeups at bounded ⊢
  rw [threads]
  rw [if_neg before] at bounded
  omega

theorem eventfds_bestEffortWakeup (ok : Bool) :
    (s.bestEffortWakeup ok).eventfds ≤ s.eventfds + 1 := by
  unfold CvdServer.bestEffortWakeup
  split <;> simp

/-- A step of `HandleMessage` writes no wakeup and moves only its own thread, which does not
return. -/
theorem handleMessage_wakeups {m : MessageStage Q} {input : Input Q}
    (hw : s.threads w = .handleMessage fd m)
    (stepped : s.handleMessage route w fd m input = some s') :
    ∃ after, s'.threads = Function.update s.threads w after ∧ after.isFinished = false ∧
      s'.main = s.main ∧ s'.eventfds = s.eventfds := by
  cases m <;> cases input <;> simp only [CvdServer.handleMessage, reduceCtorEq] at stepped <;>
    cases stepped
  case handle.stop.refl =>
    exact ⟨s.threads w, (Function.update_eq_self w _).symm, by rw [hw]; rfl, rfl, rfl⟩
  all_goals first
    | exact ⟨_, rfl, rfl, rfl, rfl⟩
    | (split <;> exact ⟨_, rfl, rfl, rfl, rfl⟩)
    | (split_ifs <;> exact ⟨_, rfl, rfl, rfl, rfl⟩)

/-- Every step keeps the eventfds within the wakeups written. -/
theorem wakeups_step (bounded : s.eventfds ≤ s.wakeups) {a : Action Q}
    (stepped : s.step route a = some s') : s'.eventfds ≤ s'.wakeups := by
  cases a with
  | worker w input =>
      simp only [CvdServer.step] at stepped
      split at stepped
      · cases stepped
      · generalize hw : s.threads w = stage at stepped
        cases stage <;> cases input <;> simp only [CvdServer.workerStep, reduceCtorEq] at stepped
        case handleMessage.step | handleMessage.event | handleMessage.request
          | handleMessage.stop =>
          obtain ⟨after, threads, -, main, eventfds⟩ := handleMessage_wakeups hw stepped
          exact wakeups_move bounded (by rw [hw]; rfl) threads main
            (eventfds ▸ Nat.le_add_right _ _)
        case inHandleEvent.event fd events =>
          obtain ⟨registration, -, rfl⟩ := Option.map_eq_some'.mp stepped
          exact wakeups_move bounded (by rw [hw]; rfl) rfl rfl (Nat.le_add_right _ _)
        all_goals cases stepped
        case bestEffortWakeup.step.refl ok =>
          exact wakeups_move bounded (by rw [hw]; rfl)
            (congrArg (Function.update · w _) (threads_bestEffortWakeup ok))
            (main_bestEffortWakeup ok) (by simpa using eventfds_bestEffortWakeup ok)
        all_goals first
          | exact wakeups_move bounded (by rw [hw]; rfl) rfl rfl (Nat.le_add_right _ _)
          | (split <;> exact wakeups_move bounded (by rw [hw]; rfl) rfl rfl (Nat.le_add_right _ _))
  | main input =>
      simp only [CvdServer.step] at stepped
      split at stepped
      · cases stepped
      · generalize hmain : s.main = stage at stepped
        cases stage <;> cases input <;> simp only [CvdServer.mainStep, reduceCtorEq] at stepped
        all_goals (repeat' split at stepped) <;> cases stepped
        case destructorWakeup.step.refl ok =>
          exact wakeups_main bounded (threads_bestEffortWakeup ok) (by rw [hmain]; nofun)
            (by simpa using eventfds_bestEffortWakeup ok)
        all_goals exact wakeups_main bounded rfl (by rw [hmain]; nofun) (Nat.le_add_right _ _)

end CvdServer

/-- `BestEffortWakeup` runs once in each worker thread, as the thread returns, and once in
`~CvdServer`. In every reachable state the server has created at most one wakeup eventfd for
each worker thread that has returned and one for the destructor, so never more than
`kNumThreads + 1` over its whole life. -/
theorem wakeups_bounded (reachable : Reachable route s) :
    s.eventfds ≤ (Finset.univ.filter fun w => (s.threads w).isFinished).card +
        (if s.main = .exited then 1 else 0) ∧
      s.eventfds ≤ kNumThreads + 1 := by
  have bounded : s.eventfds ≤ s.wakeups := by
    induction reachable with
    | init => exact Nat.zero_le _
    | step _ stepped bounded => exact CvdServer.wakeups_step bounded stepped
  refine ⟨bounded, bounded.trans ?_⟩
  have threads := (Finset.univ.filter fun w => (s.threads w).isFinished).card_le_univ
  rw [Fintype.card_fin] at threads
  unfold CvdServer.wakeups
  split_ifs <;> omega

theorem wakeups_bounded_after_stop :
    Reachable routeAll stoppedServer ∧
      stoppedServer.eventfds ≤ (Finset.univ.filter fun w =>
          (stoppedServer.threads w).isFinished).card +
        (if stoppedServer.main = .exited then 1 else 0) ∧
      stoppedServer.eventfds ≤ kNumThreads + 1 :=
  have reachable : Reachable routeAll stoppedServer := Reachable.of_run (Option.some_get _).symm
  ⟨reachable, wakeups_bounded reachable⟩

end Cvd
end Cuttlefish
