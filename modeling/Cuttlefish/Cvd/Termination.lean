import Cuttlefish.Cvd.Progress

/-!
# Shutdown completes

Once `running_` is false, the wakeups `BestEffortWakeup` writes are enough to end the server.
From every reachable state there is a run in which every worker thread returns and `main`
exits with no `CHECK` failing, and in which a worker leaves `HandleEvent` only for an event the
pool dispatched: the returns of `HandleEvent` without an event, which the model allows, are
never needed. A worker that has not returned is awake, and runs to its return on its own,
writing one more wakeup; or it is blocked in `HandleEvent`, and the cascade keeps a wakeup
registered for it to take.

One way into shutdown is a failure of `AcceptClient`: its guard calls `Stop()`, and the
listener, which only that call owned, is never registered again, so from then on no connection
is accepted.

The only `CHECK` the server reaches is the one after `BestEffortWakeup`, and it fails only when
the environment refuses the eventfd: the server's own state never makes it fail.
-/

namespace Cuttlefish
namespace Cvd

open Epoll

variable {Q H : Type} {route : Q → Except String H} {s s' t : CvdServer Q H}
  {w : Fin kNumThreads}

/-- The most steps `main` takes to exit once every worker has returned. -/
def MainStage.rank : MainStage → Nat
  | .startServer => 4
  | .join => 3
  | .destructor => 2
  | .destructorWakeup => 1
  | .exited => 0

theorem MessageStage.rank_pos (m : MessageStage Q) : 0 < m.rank := by
  cases m <;> exact Nat.zero_lt_succ _

namespace CvdServer

/-- The action makes `HandleEvent` return to its worker without an event. -/
def idleReturn (s : CvdServer Q H) : Action Q → Bool
  | .worker w (.step _) =>
      match s.threads w with
      | .inHandleEvent => true
      | _ => false
  | _ => false

theorem idleReturn_of_ne (hw : s.threads w ≠ .inHandleEvent) (ok : Bool) :
    s.idleReturn (.worker w (.step ok)) = false := by
  unfold idleReturn
  split <;> simp_all

/-- A worker step as one update of its own thread. -/
theorem threads_worker_update {input : Input Q}
    (stepped : s.step route (.worker w input) = some s') :
    s'.threads = Function.update s.threads w (s'.threads w) := by
  funext v
  by_cases same : v = w
  · subst same; simp
  · simp [same, threads_worker stepped same]

theorem setStage_update (stage after : Stage Q) :
    Function.update (s.setStage w stage).threads w after = Function.update s.threads w after :=
  Function.update_idem _ _ _

/-- `BestEffortWakeup` on its fresh eventfd passes its `CHECK` when `epoll_ctl` accepts. -/
theorem aborted_bestEffortWakeup (free : s.epollPool (.event s.eventfds) = none) :
    (s.bestEffortWakeup true).aborted = s.aborted := by
  simp [CvdServer.bestEffortWakeup, register_of_free free]

/-- A worker's step leaves the main thread where it is. -/
theorem main_worker {input : Input Q} (stepped : s.step route (.worker w input) = some s') :
    s'.main = s.main := by
  simp only [CvdServer.step] at stepped
  split at stepped
  · cases stepped
  generalize hw : s.threads w = stage at stepped
  cases stage <;> cases input <;> simp only [CvdServer.workerStep, reduceCtorEq] at stepped
  case handleMessage.step | handleMessage.event | handleMessage.request | handleMessage.stop =>
    obtain ⟨_, _, _, main, _⟩ := handleMessage_wakeups hw stepped
    exact main
  case inHandleEvent.event =>
    obtain ⟨_, _, rfl⟩ := Option.map_eq_some'.mp stepped
    rfl
  all_goals cases stepped
  all_goals (repeat' split) <;> simp only [setStage_main, acceptFd_main, setPool_main, stop_main,
    CvdServer.interrupt, updateRequest_main, main_bestEffortWakeup]

/-- Once `StartServer` has run, no step brings the main thread back to it. -/
theorem main_ne_startServer {a : Action Q} (stepped : s.step route a = some s')
    (started : s.main ≠ .startServer) : s'.main ≠ .startServer := by
  cases a with
  | worker w input => rw [main_worker stepped]; exact started
  | main input =>
      simp only [CvdServer.step] at stepped
      split at stepped
      · cases stepped
      generalize hm : s.main = stage at stepped
      cases stage <;> cases input <;> simp only [CvdServer.mainStep, reduceCtorEq] at stepped
      case startServer.step => exact absurd hm started
      all_goals (repeat' split at stepped) <;> cases stepped
      all_goals simp only [setMain_main, ne_eq, reduceCtorEq, not_false_eq_true]

/-- A step of `HandleMessage` on `fd` leaves its thread owning `fd` at most. -/
theorem handleMessage_holds {m : MessageStage Q} {input : Input Q}
    (hw : s.threads w = .handleMessage fd m)
    (stepped : s.handleMessage route w fd m input = some s') {x : Fd}
    (held : (s'.threads w).holds x) : x = fd := by
  cases m <;> cases input <;> simp only [CvdServer.handleMessage, reduceCtorEq] at stepped <;>
    cases stepped
  case handle.stop.refl => rw [stop_threads, hw] at held; exact held.1
  all_goals (repeat' split at held) <;>
    simp only [setStage_threads, Function.update_same, Stage.holds] at held <;>
    exact held.1

/-- `HandleMessage` has no `CHECK`. -/
theorem handleMessage_aborted {m : MessageStage Q} {input : Input Q}
    (stepped : s.handleMessage route w fd m input = some s') : s'.aborted = s.aborted := by
  cases m <;> cases input <;> simp only [CvdServer.handleMessage, reduceCtorEq] at stepped <;>
    cases stepped
  all_goals (repeat' split) <;> rfl

/-- A step is enabled only before the process aborts, and only the `CHECK` after
`BestEffortWakeup`, in a worker or in `~CvdServer`, can abort it. -/
theorem aborted_step {a : Action Q} (stepped : s.step route a = some s') :
    s.aborted = false ∧ (s'.aborted = s.aborted ∨
      ∃ ok, s'.aborted = (s.bestEffortWakeup ok).aborted ∧
        ((∃ w, s.threads w = .bestEffortWakeup ∧ a = .worker w (.step ok)) ∨
          s.main = .destructorWakeup ∧ a = .main (.step ok))) := by
  cases a with
  | worker w input =>
      simp only [CvdServer.step] at stepped
      split at stepped
      · cases stepped
      refine ⟨Bool.eq_false_iff.mpr ‹¬s.aborted = true›, ?_⟩
      generalize hw : s.threads w = stage at stepped
      cases stage <;> cases input <;> simp only [CvdServer.workerStep, reduceCtorEq] at stepped
      case handleMessage.step | handleMessage.event | handleMessage.request
        | handleMessage.stop =>
        exact .inl (handleMessage_aborted stepped)
      case inHandleEvent.event =>
        obtain ⟨_, _, rfl⟩ := Option.map_eq_some'.mp stepped
        exact .inl rfl
      case bestEffortWakeup.step ok =>
        cases stepped
        exact .inr ⟨ok, rfl, .inl ⟨w, hw, rfl⟩⟩
      all_goals cases stepped
      all_goals (repeat' split) <;> exact .inl rfl
  | main input =>
      simp only [CvdServer.step] at stepped
      split at stepped
      · cases stepped
      refine ⟨Bool.eq_false_iff.mpr ‹¬s.aborted = true›, ?_⟩
      generalize s.main = stage at stepped ⊢
      cases stage <;> cases input <;> simp only [CvdServer.mainStep, reduceCtorEq] at stepped
      case destructorWakeup.step ok =>
        cases stepped
        exact .inr ⟨ok, rfl, .inr ⟨rfl, rfl⟩⟩
      all_goals (repeat' split at stepped) <;> cases stepped
      all_goals exact .inl rfl

end CvdServer

/-- The runs from `s` to `t` in which every worker that leaves `HandleEvent` takes an event. -/
inductive EventRun (route : Q → Except String H) : CvdServer Q H → CvdServer Q H → Prop
  | refl (s : CvdServer Q H) : EventRun route s s
  | step {s s' t : CvdServer Q H} {a : Action Q} (stepped : s.step route a = some s')
      (woken : s.idleReturn a = false) (rest : EventRun route s' t) : EventRun route s t

namespace EventRun

theorem trans (first : EventRun route s s') (second : EventRun route s' t) :
    EventRun route s t := by
  induction first with
  | refl => exact second
  | step stepped woken _ ih => exact .step stepped woken (ih second)

theorem invariant (inv : s.Invariant) (ran : EventRun route s t) : t.Invariant := by
  induction ran with
  | refl => exact inv
  | step stepped _ _ ih => exact ih (inv.step stepped)

theorem stopped (stopped : s.running = false) (ran : EventRun route s t) : t.running = false := by
  induction ran with
  | refl => exact stopped
  | step stepped _ _ ih => exact ih (CvdServer.step_stopped stopped stepped)

/-- A worker that returns leaves one worker fewer to wait for. -/
theorem unfinished_update {threads : Fin kNumThreads → Stage Q}
    (unfinished : (threads w).isFinished = false) :
    (Finset.univ.filter fun v => (Function.update threads w .finished v).isFinished = false) =
      (Finset.univ.filter fun v => (threads v).isFinished = false).erase w := by
  ext v
  by_cases same : v = w
  · subst same; simp [Stage.isFinished]
  · simp [same]

/-! ## Each thread returns

`main` returns on its own once the workers have; a worker returns on its own once `running_`
is false, if it is awake or a wakeup is pending. -/

section Stopped

variable (inv : s.Invariant) (stopped : s.running = false) (alive : s.aborted = false)
include inv alive

/-- A worker at its `BestEffortWakeup` writes its wakeup and returns. -/
theorem wakeup (hw : s.threads w = .bestEffortWakeup) :
    ∃ t, EventRun route s t ∧ t.threads = Function.update s.threads w .finished ∧
      t.aborted = false := by
  have stepped : s.step route (.worker w (.step true)) =
      some ((s.bestEffortWakeup true).setStage w .finished) := by
    simp [CvdServer.step, CvdServer.workerStep, alive, hw]
  refine ⟨_, .step stepped (CvdServer.idleReturn_of_ne (by simp [hw]) true) (.refl _),
    funext fun v => by simp, ?_⟩
  simpa [CvdServer.aborted_bestEffortWakeup (inv.freshEvent _ le_rfl)] using alive

/-- Once every worker has returned, `main` takes its next step towards its exit. -/
theorem mainNext (finished : ∀ w, s.threads w = .finished) (running : s.main ≠ .exited) :
    ∃ s', s.step route (.main (.step true)) = some s' ∧ s'.threads = s.threads ∧
      s'.aborted = false ∧ s'.main.rank < s.main.rank := by
  have joined := (CvdServer.allFinished_eq_true s).mpr finished
  simp only [CvdServer.step, alive, Bool.false_eq_true, if_false]
  cases hmain : s.main
  case exited => exact absurd hmain running
  all_goals simp [CvdServer.mainStep, MainStage.rank, joined, alive, funext_iff,
    CvdServer.aborted_bestEffortWakeup (inv.freshEvent _ le_rfl)]

/-- Once every worker has returned, `main` joins them, runs `~CvdServer` and exits. -/
theorem exit (finished : ∀ w, s.threads w = .finished) :
    ∃ t, EventRun route s t ∧ t.threads = s.threads ∧ t.main = .exited ∧
      t.aborted = false := by
  obtain ⟨n, bound⟩ : ∃ n, s.main.rank < n := ⟨_, Nat.lt_succ_self _⟩
  induction n generalizing s with
  | zero => exact absurd bound (Nat.not_lt_zero _)
  | succ n ih =>
      by_cases exited : s.main = .exited
      · exact ⟨s, .refl s, rfl, exited, alive⟩
      obtain ⟨s₁, stepped, threads, alive₁, lower⟩ := mainNext inv alive finished exited
      obtain ⟨t, ran, threads', exits, aborted⟩ :=
        ih (inv.step stepped) alive₁ (threads ▸ finished) (by omega)
      exact ⟨t, .step stepped rfl ran, threads'.trans threads, exits, aborted⟩

include stopped

/-- A worker at its loop test after `Stop()` leaves its loop, writes its wakeup and returns. -/
theorem leave (hw : s.threads w = .checkRunning) :
    ∃ t, EventRun route s t ∧ t.threads = Function.update s.threads w .finished ∧
      t.aborted = false := by
  have stepped : s.step route (.worker w (.step true)) =
      some (s.setStage w .bestEffortWakeup) := by
    simp [CvdServer.step, CvdServer.workerStep, alive, hw, stopped]
  obtain ⟨t, ran, threads, aborted⟩ := wakeup (inv.step stepped) alive (w := w) (by simp)
  exact ⟨t, .step stepped (CvdServer.idleReturn_of_ne (by simp [hw]) true) ran,
    threads.trans (CvdServer.setStage_update _ _), aborted⟩

/-- A worker running a callback returns from it, then leaves its loop and returns. -/
theorem callback (inside : 0 < (s.threads w).rank) :
    ∃ t, EventRun route s t ∧ t.threads = Function.update s.threads w .finished ∧
      t.aborted = false := by
  obtain ⟨n, bound⟩ : ∃ n, (s.threads w).rank ≤ n := ⟨_, le_rfl⟩
  induction n generalizing s with
  | zero => exact absurd (inside.trans_le bound) (lt_irrefl 0)
  | succ n ih =>
      obtain ⟨s₁, stepped, alive₁, back⟩ := CvdServer.callback_step route alive inside true
      have inv₁ := inv.step stepped
      have stopped₁ := CvdServer.step_stopped stopped stepped
      obtain ⟨t, ran, threads, aborted⟩ : ∃ t, EventRun route s₁ t ∧
          t.threads = Function.update s₁.threads w .finished ∧ t.aborted = false := by
        rcases back with returned | ⟨callback₁, lower⟩
        · exact leave inv₁ stopped₁ alive₁ returned
        · exact ih inv₁ stopped₁ alive₁ callback₁ (by omega)
      have busy : s.threads w ≠ .inHandleEvent := fun idle => by
        rw [idle] at inside
        exact lt_irrefl 0 inside
      refine ⟨t, .step stepped (CvdServer.idleReturn_of_ne busy true) ran, ?_, aborted⟩
      rw [threads, CvdServer.threads_worker_update stepped, Function.update_idem]

/-- A worker blocked in `HandleEvent` takes a pending wakeup, leaves its loop and returns. -/
theorem wake {n : Nat} (hw : s.threads w = .inHandleEvent)
    (pending : s.epollPool (.event n) = some wakeupRegistration) :
    ∃ t, EventRun route s t ∧ t.threads = Function.update s.threads w .finished ∧
      t.aborted = false := by
  have stepped : s.step route (.worker w (.event (.event n) ⟨true, false⟩)) =
      some ((s.setPool (consume s.epollPool (.event n))).setStage w .checkRunning) := by
    simp [CvdServer.step, CvdServer.workerStep, alive, hw, pending, wakeupRegistration,
      Stage.ofCallback]
  obtain ⟨t, ran, threads, aborted⟩ :=
    leave (inv.step stepped) stopped alive (w := w) (by simp)
  exact ⟨t, .step stepped rfl ran, threads.trans (CvdServer.setStage_update _ _), aborted⟩

/-- A worker that has not returned returns, if it is awake or a wakeup is pending. -/
theorem finish (unfinished : (s.threads w).isFinished = false)
    (ready : (s.threads w).awake ∨ ∃ n, s.epollPool (.event n) = some wakeupRegistration) :
    ∃ t, EventRun route s t ∧ t.threads = Function.update s.threads w .finished ∧
      t.aborted = false := by
  cases hw : s.threads w
  case checkRunning => exact leave inv stopped alive hw
  case bestEffortWakeup => exact wakeup inv alive hw
  case inHandleEvent =>
    obtain ⟨n, pending⟩ := ready.resolve_left (by simp [hw])
    exact wake inv stopped alive hw pending
  case enterHandleEvent =>
    obtain ⟨n, pending⟩ := ready.resolve_left (by simp [hw])
    have stepped : s.step route (.worker w (.step true)) = some (s.setStage w .inHandleEvent) := by
      simp [CvdServer.step, CvdServer.workerStep, alive, hw]
    obtain ⟨t, ran, threads, aborted⟩ :=
      wake (inv.step stepped) stopped alive (w := w) (by simp) pending
    exact ⟨t, .step stepped (CvdServer.idleReturn_of_ne (by simp [hw]) true) ran,
      threads.trans (CvdServer.setStage_update _ _), aborted⟩
  case finished => simp [hw, Stage.isFinished] at unfinished
  case handleMessage fd m =>
    exact callback inv stopped alive (by rw [hw]; exact m.rank_pos)
  all_goals exact callback inv stopped alive (by rw [hw]; exact Nat.zero_lt_succ _)

/-! ## Every thread returns -/

/-- After `Stop()`, the workers return one after the other. -/
theorem workers :
    ∃ t, EventRun route s t ∧ (∀ w, t.threads w = .finished) ∧ t.aborted = false := by
  obtain ⟨n, bound⟩ : ∃ n,
      (Finset.univ.filter fun w => (s.threads w).isFinished = false).card ≤ n := ⟨_, le_rfl⟩
  induction n generalizing s with
  | zero =>
      refine ⟨s, .refl s, fun w => ?_, alive⟩
      have none := Finset.filter_eq_empty_iff.mp (Finset.card_eq_zero.mp (Nat.le_zero.mp bound))
      simpa [Stage.isFinished_eq_true] using none (Finset.mem_univ w)
  | succ n ih =>
      by_cases done : ∀ w, s.threads w = .finished
      · exact ⟨s, .refl s, done, alive⟩
      obtain ⟨w, unfinished⟩ : ∃ w, (s.threads w).isFinished = false := by
        push_neg at done
        obtain ⟨w, running⟩ := done
        exact ⟨w, Bool.eq_false_iff.mpr fun returned =>
          running (Stage.isFinished_eq_true.mp returned)⟩
      obtain ⟨v, unfinished, ready⟩ : ∃ v, (s.threads v).isFinished = false ∧
          ((s.threads v).awake ∨ ∃ n, s.epollPool (.event n) = some wakeupRegistration) := by
        rcases inv.shutdown stopped with aborted | finished | ⟨v, awake⟩ | pending
        · simp [alive] at aborted
        · simp [finished w, Stage.isFinished] at unfinished
        · refine ⟨v, Bool.eq_false_iff.mpr fun returned => ?_, .inl awake⟩
          rw [Stage.isFinished_eq_true.mp returned] at awake
          exact awake
        · exact ⟨w, unfinished, .inr pending⟩
      obtain ⟨t₁, ran₁, threads, alive₁⟩ := finish inv stopped alive unfinished ready
      have fewer :
          (Finset.univ.filter fun w => (t₁.threads w).isFinished = false).card ≤ n := by
        rw [threads, unfinished_update unfinished,
          Finset.card_erase_of_mem (by simp [unfinished])]
        omega
      obtain ⟨t, ran, finished, aborted⟩ :=
        ih (ran₁.invariant inv) (ran₁.stopped stopped) alive₁ fewer
      exact ⟨t, ran₁.trans ran, finished, aborted⟩

end Stopped

end EventRun

/-- After `Stop()`, the server can always shut down on its own wakeups. From every reachable
state in which `running_` is false and no `CHECK` has failed, there is a run in which every
worker thread returns and `main` exits, with no `CHECK` failing, and in which no worker leaves
`HandleEvent` without an event: each worker that returns writes the wakeup the next blocked
worker takes. -/
theorem shutdown_completes (reachable : Reachable route s) (stopped : s.running = false)
    (alive : s.aborted = false) :
    ∃ t, EventRun route s t ∧ (∀ w, t.threads w = .finished) ∧ t.main = .exited ∧
      t.aborted = false := by
  have inv := reachable.invariant
  obtain ⟨t₁, ran₁, finished, alive₁⟩ := EventRun.workers inv stopped alive
  obtain ⟨t, ran, threads, exited, aborted⟩ :=
    EventRun.exit (ran₁.invariant inv) alive₁ finished
  exact ⟨t, ran₁.trans ran, fun w => threads ▸ finished w, exited, aborted⟩

theorem shutdown_completes_after_stop :
    Reachable routeAll stoppedServer ∧ stoppedServer.running = false ∧
      stoppedServer.aborted = false ∧
      ∃ t, EventRun routeAll stoppedServer t ∧ (∀ w, t.threads w = .finished) ∧
        t.main = .exited ∧ t.aborted = false :=
  have reachable : Reachable routeAll stoppedServer := Reachable.of_run (Option.some_get _).symm
  ⟨reachable, by decide, by decide, shutdown_completes reachable (by decide) (by decide)⟩

/-! ## A failed `AcceptClient` ends accepting -/

namespace CvdServer

/-- The listener is gone for good: the pool does not keep it, no thread owns it, and
`StartServer` has run, so nothing registers it again. -/
def ListenerLost (s : CvdServer Q H) : Prop :=
  s.epollPool .server = none ∧ (∀ w, ¬ (s.threads w).holds .server) ∧ s.main ≠ .startServer

/-- No worker step takes a lost listener: it reaches a thread only through `HandleEvent`,
which would need it registered, or by staying with a thread that owns it. -/
theorem ListenerLost.worker (inv : s.Invariant) (lost : s.ListenerLost) {input : Input Q}
    (stepped : s.step route (.worker w input) = some s') : ¬ (s'.threads w).holds .server := by
  simp only [CvdServer.step] at stepped
  split at stepped
  · cases stepped
  generalize hw : s.threads w = stage at stepped
  have unheld : ¬ stage.holds .server := hw ▸ lost.2.1 w
  have kind : stage.WellKinded := hw ▸ inv.wellKinded w
  cases stage <;> cases input <;> simp only [CvdServer.workerStep, reduceCtorEq] at stepped
  case handleMessage.step | handleMessage.event | handleMessage.request | handleMessage.stop =>
    obtain ⟨n, rfl⟩ := kind
    exact fun held => nomatch handleMessage_holds hw stepped held
  case inHandleEvent.event fd events =>
    obtain ⟨registration, registered, rfl⟩ := Option.map_eq_some'.mp stepped
    intro held
    rw [setStage_threads, Function.update_same] at held
    rw [← Stage.ofCallback_holds held, lost.1] at registered
    cases registered
  all_goals cases stepped
  all_goals (repeat' split) <;>
    simp only [setStage_threads, Function.update_same, Stage.holds, reduceCtorEq, or_false,
      not_false_eq_true] <;>
    first | exact unheld | exact fun same => unheld (.inl same)

/-- Every step keeps a lost listener lost. -/
theorem ListenerLost.step (inv : s.Invariant) (lost : s.ListenerLost) {a : Action Q}
    (stepped : s.step route a = some s') : s'.ListenerLost := by
  refine ⟨?_, fun v held => ?_, main_ne_startServer stepped lost.2.2⟩
  · rcases epollPool_step stepped .server with same | ⟨_, _, _, _, registered, _⟩ | ⟨v, held⟩ |
      ⟨_, event⟩ | ⟨starting, _⟩
    · exact same.trans lost.1
    · rw [lost.1] at registered; cases registered
    · exact absurd held (lost.2.1 v)
    · cases event
    · exact absurd starting lost.2.2
  · cases a with
    | worker w input =>
        by_cases same : v = w
        · subst same; exact ListenerLost.worker inv lost stepped held
        · rw [threads_worker stepped same] at held; exact lost.2.1 v held
    | main input => rw [threads_main stepped] at held; exact lost.2.1 v held

/-- With the listener lost, no step accepts a connection. -/
theorem ListenerLost.clients_eq (inv : s.Invariant) (lost : s.ListenerLost) {a : Action Q}
    (stepped : s.step route a = some s') : s'.clients = s.clients := by
  rcases CvdServer.clients_step stepped with same | ⟨_, _, v, fd, accepted⟩
  · exact same
  · have kind := (inv.step stepped).wellKinded v
    rw [accepted] at kind
    have held : (s'.threads v).holds .server := by rw [accepted]; exact .inl kind.symm
    exact absurd held ((lost.step inv stepped).2.1 v)

end CvdServer

/-- Once `running_` is false, it stays false in every run. -/
theorem ReachableFrom.stopped (stopped : s.running = false) (from_s : ReachableFrom route s t) :
    t.running = false := by
  induction from_s with
  | refl => exact stopped
  | step _ stepped stopped_t => exact CvdServer.step_stopped stopped_t stepped

/-- A lost listener stays lost in every run, and the run accepts no connection. -/
theorem ReachableFrom.listenerLost (inv : s.Invariant) (lost : s.ListenerLost)
    (from_s : ReachableFrom route s t) : t.ListenerLost ∧ t.clients = s.clients := by
  induction from_s with
  | refl => exact ⟨lost, rfl⟩
  | step from_s_t stepped ih =>
      have inv_t := ReachableFrom.preserves_invariant inv from_s_t
      exact ⟨ih.1.step inv_t stepped, (ih.1.clients_eq inv_t stepped).trans ih.2⟩

/-- One failure in `AcceptClient` (no `EPOLLIN`, a failed `Accept`, or a refused `Register`)
ends accepting for good. Its guard `stop_on_failure` calls `Stop()`, and the listener, which
only the thread running `AcceptClient` owned, is never registered again. In every state after
the guard has run, `running_` is false, no thread owns the listener, the pool does not hold
it, and no connection is accepted. -/
theorem accept_failure_stops_accepting (reachable : Reachable route s)
    (hw : s.threads w = .stopOnFailure fd) (ok : Bool)
    (stepped : s.step route (.worker w (.step ok)) = some s')
    (later : ReachableFrom route s' t) :
    t.running = false ∧ t.epollPool .server = none ∧ (∀ v, ¬ (t.threads v).holds .server) ∧
      t.clients = s.clients := by
  have inv := reachable.invariant
  have listener : fd = .server := by
    have kind := inv.wellKinded w
    rw [hw] at kind
    exact kind
  subst listener
  have held : (s.threads w).holds .server := by rw [hw]; rfl
  have unclaimed : ¬ s.Claimed .server := fun claimed => (inv.exclusive .server).2 claimed w held
  have after : s' = s.stop.setStage w .checkRunning := by
    simp only [CvdServer.step, hw, CvdServer.workerStep] at stepped
    split at stepped
    · cases stepped
    · exact (Option.some.inj stepped).symm
  subst after
  have unregistered : s.epollPool .server = none := by
    have fits := inv.fits .server
    cases registered : s.epollPool .server with
    | none => rfl
    | some registration =>
        rw [registered] at fits
        exact absurd (.inl (fits ▸ registered)) unclaimed
  have lost : (s.stop.setStage w .checkRunning).ListenerLost := by
    refine ⟨unregistered, fun v held' => ?_,
      fun starting => unclaimed (.inr (.inr ⟨starting, rfl⟩))⟩
    by_cases same : v = w
    · subst same
      simp only [CvdServer.setStage_threads, Function.update_same, Stage.holds] at held'
    · rw [CvdServer.setStage_threads, Function.update_noteq same, CvdServer.stop_threads] at held'
      exact same ((inv.exclusive .server).1 v w held' held)
  obtain ⟨lost_t, clients⟩ := ReachableFrom.listenerLost (inv.step stepped) lost later
  exact ⟨later.stopped rfl, lost_t.1, lost_t.2.1, clients⟩

/-- The server once the first worker got an event on the listener without `EPOLLIN`: the guard
`stop_on_failure` of `AcceptClient` runs next. -/
def acceptFailedServer : CvdServer Unit Unit :=
  (CvdServer.run routeAll .init ([.main (.step true)] ++ waitForEvent firstWorker ++
    [.worker firstWorker (.event .server ⟨false, true⟩), .worker firstWorker (.step true)])).get
    (by decide)

/-- The server once that guard has run. -/
def afterGuardServer : CvdServer Unit Unit :=
  (acceptFailedServer.step routeAll (.worker firstWorker (.step true))).get (by decide)

theorem accept_failure_stops_accepting_after_guard :
    Reachable routeAll acceptFailedServer ∧
      acceptFailedServer.threads firstWorker = .stopOnFailure .server ∧
      acceptFailedServer.step routeAll (.worker firstWorker (.step true)) =
        some afterGuardServer ∧
      ReachableFrom routeAll afterGuardServer afterGuardServer ∧
      afterGuardServer.running = false ∧ afterGuardServer.epollPool .server = none ∧
      (∀ v, ¬ (afterGuardServer.threads v).holds .server) ∧
      afterGuardServer.clients = acceptFailedServer.clients :=
  have reachable : Reachable routeAll acceptFailedServer :=
    Reachable.of_run (Option.some_get _).symm
  ⟨reachable, by decide, (Option.some_get _).symm, .refl,
    accept_failure_stops_accepting reachable
      (show acceptFailedServer.threads firstWorker = .stopOnFailure .server by decide) true
      (Option.some_get _).symm .refl⟩

/-! ## Only the environment fails a `CHECK` -/

/-- The server's own logic never fails a `CHECK`. The only one it reaches is the one after
`BestEffortWakeup`, and the eventfd that call registers is always fresh, so the `Register`
never finds it taken. In every reachable state, a step that aborts the process is a
`BestEffortWakeup`, of a worker leaving its loop or of `~CvdServer`, for which the
environment failed to create, write or register the eventfd. -/
theorem aborts_only_on_wakeup_failure (reachable : Reachable route s) {a : Action Q}
    (stepped : s.step route a = some s') (aborted : s'.aborted = true) :
    (∃ w, s.threads w = .bestEffortWakeup ∧ a = .worker w (.step false)) ∨
      s.main = .destructorWakeup ∧ a = .main (.step false) := by
  obtain ⟨alive, same | ⟨ok, wakeup, which⟩⟩ := CvdServer.aborted_step stepped
  · rw [same, alive] at aborted
    cases aborted
  · cases ok
    · exact which
    · rw [wakeup, CvdServer.aborted_bestEffortWakeup (reachable.invariant.freshEvent _ le_rfl),
        alive] at aborted
      cases aborted

/-- The server once the first worker, after the guard, has left its loop for its wakeup. -/
def leavingServer : CvdServer Unit Unit :=
  (afterGuardServer.step routeAll (.worker firstWorker (.step true))).get (by decide)

/-- The server once that wakeup has failed. -/
def wakeupFailedServer : CvdServer Unit Unit :=
  (leavingServer.step routeAll (.worker firstWorker (.step false))).get (by decide)

theorem aborts_only_on_wakeup_failure_leaving :
    Reachable routeAll leavingServer ∧
      leavingServer.step routeAll (.worker firstWorker (.step false)) = some wakeupFailedServer ∧
      wakeupFailedServer.aborted = true ∧
      ((∃ w, leavingServer.threads w = .bestEffortWakeup ∧
          (.worker firstWorker (.step false) : Action Unit) = .worker w (.step false)) ∨
        leavingServer.main = .destructorWakeup ∧
          (.worker firstWorker (.step false) : Action Unit) = .main (.step false)) :=
  have failed : Reachable routeAll acceptFailedServer := Reachable.of_run (Option.some_get _).symm
  have reachable : Reachable routeAll leavingServer :=
    (failed.step (Option.some_get _).symm).step (Option.some_get _).symm
  have stepped : leavingServer.step routeAll (.worker firstWorker (.step false)) =
      some wakeupFailedServer := (Option.some_get _).symm
  ⟨reachable, stepped, by decide, aborts_only_on_wakeup_failure reachable stepped (by decide)⟩

end Cvd
end Cuttlefish
