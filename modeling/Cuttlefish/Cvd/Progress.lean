import Cuttlefish.Cvd.Requests

/-!
# Callbacks return

The callbacks a worker runs, `AcceptClient`, `HandleMessage` and `interrupt_cb`, have no loop:
whatever each of their operations returns, a request read by `GetRequest` included, the
worker's next step moves the callback closer to its return. `Stage.rank` is the length of the
longest path left to the return. Every step the worker takes inside a callback lowers it, except
`Stop()` called by the handler from inside `Handle`, which moves nothing but `running_` (the
handler's code is not modelled), and the steps of the other threads leave the worker where it
is. So in every run, under any interleaving, a worker inside a callback is back at its loop test
once it has taken `rank` steps of its own.

The model says nothing of how long one operation takes: `GetRequest`, `Handle` and
`SendResponse` may wait on the client, and a run may leave the worker waiting for as long as it
likes. What is proved is that the callbacks do not loop, not that they do not block.
-/

namespace Cuttlefish
namespace Cvd

open Epoll

variable {Q H : Type}

/-- The most steps a `HandleMessage` call at this program point takes to return. -/
def MessageStage.rank : MessageStage Q → Nat
  | .start _ => 12
  | .getRequest => 11
  | .requestHandler _ => 10
  | .registerInterrupt _ => 9
  | .callHandle _ => 8
  | .handle _ => 7
  | .sendResponse _ => 6
  | .clearHandler _ => 5
  | .removeInterrupt _ => 4
  | .registerSelf _ => 3
  | .unwind _ | .remove => 2
  | .cancel _ | .abandonClient _ => 1

/-- The most steps a worker takes to return from the callback it runs; `0` in its loop. -/
def Stage.rank : Stage Q → Nat
  | .acceptClient _ _ => 4
  | .registerClient _ _ => 3
  | .registerListener _ => 2
  | .stopOnFailure _ | .interruptCallback _ => 1
  | .handleMessage _ m => m.rank
  | _ => 0

/-- The action is a step of worker `w` that moves it: every step of `w` but a `Stop()` called by
the handler from inside `Handle`. -/
def Action.movesWorker (w : Fin kNumThreads) : Action Q → Bool
  | .worker _ .stop => false
  | .worker v _ => decide (v = w)
  | .main _ => false

@[simp] theorem Action.movesWorker_main (w : Fin kNumThreads) (input : Input Q) :
    (Action.main input).movesWorker w = false := rfl

@[simp] theorem Action.movesWorker_stop (w v : Fin kNumThreads) :
    (Action.worker v (.stop : Input Q)).movesWorker w = false := rfl

theorem Action.movesWorker_of_ne {w v : Fin kNumThreads} (other : v ≠ w) (input : Input Q) :
    (Action.worker v input).movesWorker w = false := by
  cases input <;> simp [Action.movesWorker, other]

namespace CvdServer

variable {s s' : CvdServer Q H} {route : Q → Except String H} {w : Fin kNumThreads}

/-- A step of worker `w` moves no other thread. -/
theorem threads_worker {input : Input Q} (stepped : s.step route (.worker w input) = some s')
    {v : Fin kNumThreads} (other : v ≠ w) : s'.threads v = s.threads v := by
  simp only [CvdServer.step] at stepped
  split at stepped
  · cases stepped
  generalize s.threads w = stage at stepped
  cases stage <;> cases input <;> simp only [CvdServer.workerStep, reduceCtorEq] at stepped
  case handleMessage.step | handleMessage.event | handleMessage.request | handleMessage.stop =>
    exact (handleMessage_frame stepped).2.1 v other
  case inHandleEvent.event =>
    obtain ⟨_, _, rfl⟩ := Option.map_eq_some'.mp stepped
    simp only [setStage_threads, setPool_threads, Function.update_noteq other]
  all_goals cases stepped
  all_goals (repeat' split) <;> simp only [setStage_threads, Function.update_noteq other,
    acceptFd_threads, setPool_threads, stop_threads, CvdServer.interrupt, updateRequest_threads,
    threads_bestEffortWakeup]

/-- The main thread's steps move no worker. -/
theorem threads_main {input : Input Q} (stepped : s.step route (.main input) = some s') :
    s'.threads = s.threads := by
  simp only [CvdServer.step] at stepped
  split at stepped
  · cases stepped
  generalize s.main = stage at stepped
  cases stage <;> cases input <;> simp only [CvdServer.mainStep, reduceCtorEq] at stepped
  all_goals (repeat' split at stepped) <;> cases stepped
  all_goals first | rfl | exact threads_bestEffortWakeup _

/-- Every step of `HandleMessage`, whatever the environment answers, returns the worker to its
loop test or lowers the call's rank, but for `Stop()` called from inside `Handle`. -/
theorem handleMessage_rank {fd : Fd} {m : MessageStage Q} {input : Input Q}
    (stepped : s.handleMessage route w fd m input = some s') :
    input = .stop ∧ s' = s.stop ∨ s'.threads w = .checkRunning ∨
      0 < (s'.threads w).rank ∧ (s'.threads w).rank < m.rank := by
  cases m <;> cases input <;> simp only [CvdServer.handleMessage, reduceCtorEq] at stepped <;>
    cases stepped
  case handle.stop.refl => exact .inl ⟨rfl, rfl⟩
  all_goals (repeat' split) <;> simp [Stage.rank, MessageStage.rank]

/-- Every step a worker takes inside a callback, whatever the environment answers, returns it to
its loop test or moves it to a program point of lower rank. The one exception is `Stop()`
called by the handler from inside `Handle`, which changes nothing but `running_`. -/
theorem rank_step (callback : 0 < (s.threads w).rank) {input : Input Q}
    (stepped : s.step route (.worker w input) = some s') :
    input = .stop ∧ s' = s.stop ∨ s'.threads w = .checkRunning ∨
      0 < (s'.threads w).rank ∧ (s'.threads w).rank < (s.threads w).rank := by
  simp only [CvdServer.step] at stepped
  split at stepped
  · cases stepped
  generalize s.threads w = stage at callback stepped ⊢
  cases stage <;> cases input <;> simp only [CvdServer.workerStep, reduceCtorEq] at stepped
  case handleMessage.step | handleMessage.event | handleMessage.request | handleMessage.stop =>
    exact handleMessage_rank stepped
  all_goals first
    | exact absurd callback (lt_irrefl 0)
    | (cases stepped; (repeat' split) <;> simp [Stage.rank])

/-- Each operation of a callback can run with the answer `ok`. It either returns the worker to
its loop test or moves it to a program point of lower rank, and it does not abort. -/
theorem callback_step (route : Q → Except String H) (running : s.aborted = false)
    (callback : 0 < (s.threads w).rank) (ok : Bool) :
    ∃ s', s.step route (.worker w (.step ok)) = some s' ∧ s'.aborted = false ∧
      (s'.threads w = .checkRunning ∨
        0 < (s'.threads w).rank ∧ (s'.threads w).rank < (s.threads w).rank) := by
  simp only [CvdServer.step, running, Bool.false_eq_true, if_false]
  generalize s.threads w = stage at callback ⊢
  cases stage
  case handleMessage fd m =>
    cases m <;>
      simp only [CvdServer.workerStep, CvdServer.handleMessage, Option.some.injEq,
        exists_eq_left'] <;>
      (repeat' split) <;> simp [running, Stage.rank, MessageStage.rank, CvdServer.clearHandler,
        CvdServer.destroyInjector, CvdServer.callHandle, CvdServer.removeIgnored]
  all_goals first
    | exact absurd callback (lt_irrefl 0)
    | (simp only [CvdServer.workerStep, Option.some.injEq, exists_eq_left']
       (repeat' split) <;> simp [running, Stage.rank, CvdServer.interrupt])

end CvdServer

variable {s t : CvdServer Q H} {route : Q → Except String H} {w : Fin kNumThreads}

/-- Callbacks never loop. Take a worker running `AcceptClient`, `HandleMessage` or an interrupt
callback, and any run from there: any interleaving of the threads, and any answer to each
operation, the requests `GetRequest` reads included. Once the worker has taken `rank` steps of
its own in the run, not counting `Stop()` calls from inside `Handle`, it has been back at its
loop test: the run splits into a first part that ends with the worker there, in which the worker
took at most `rank` such steps. -/
theorem callback_returns (callback : 0 < (s.threads w).rank) {actions : List (Action Q)}
    (ran : CvdServer.run route s actions = some t)
    (long : (s.threads w).rank ≤ actions.countP (Action.movesWorker w)) :
    ∃ pre post u, actions = pre ++ post ∧ CvdServer.run route s pre = some u ∧
      u.threads w = .checkRunning ∧ pre.countP (Action.movesWorker w) ≤ (s.threads w).rank := by
  induction actions generalizing s with
  | nil => exact absurd (callback.trans_le long) (lt_irrefl 0)
  | cons a rest ih =>
      obtain ⟨s₁, stepped, ran₁⟩ := Option.bind_eq_some.mp ran
      have one : (if a.movesWorker w then 1 else 0) ≤ 1 := by split <;> omega
      rw [List.countP_cons] at long
      -- the run's first step, then a first part of the rest that ends at the loop test
      have first : ∀ {pre post u}, rest = pre ++ post → CvdServer.run route s₁ pre = some u →
          a :: rest = (a :: pre) ++ post ∧ CvdServer.run route s (a :: pre) = some u :=
        fun split ran' => ⟨by rw [split]; rfl, Option.bind_eq_some.mpr ⟨s₁, stepped, ran'⟩⟩
      have unmoved : s₁.threads w = s.threads w → a.movesWorker w = false →
          ∃ pre post u, a :: rest = pre ++ post ∧ CvdServer.run route s pre = some u ∧
            u.threads w = .checkRunning ∧ pre.countP (Action.movesWorker w) ≤ (s.threads w).rank :=
        fun same still => by
          rw [still] at long
          obtain ⟨pre, post, u, split, ran', back, count⟩ :=
            ih (same ▸ callback) ran₁ (by rw [same]; simpa using long)
          obtain ⟨split', ran''⟩ := first split ran'
          exact ⟨a :: pre, post, u, split', ran'', back, by
            rw [List.countP_cons, still, ← same]; simpa using count⟩
      cases a with
      | main input =>
          exact unmoved (by rw [CvdServer.threads_main stepped]) rfl
      | worker v input =>
          by_cases same : v = w
          · subst same
            rcases CvdServer.rank_step callback stepped with ⟨rfl, rfl⟩ | returned |
              ⟨callback₁, lower⟩
            · exact unmoved rfl rfl
            · exact ⟨[.worker v input], rest, s₁, rfl,
                Option.bind_eq_some.mpr ⟨s₁, stepped, rfl⟩, returned,
                by rw [List.countP_singleton]; split <;> omega⟩
            · obtain ⟨pre, post, u, split, ran', back, count⟩ :=
                ih callback₁ ran₁ (by omega)
              obtain ⟨split', ran''⟩ := first split ran'
              exact ⟨_, post, u, split', ran'', back, by rw [List.countP_cons]; omega⟩
          · exact unmoved (CvdServer.threads_worker stepped (Ne.symm same))
              (Action.movesWorker_of_ne same input)

/-- The first worker reads a request, and its `HandleMessage` call serves it to the end. -/
def serveTrace : List (Action Unit) :=
  .worker firstWorker (.request ()) :: List.replicate 10 (.worker firstWorker (.step true))

/-- The server once that run is over. -/
def servedServer : CvdServer Unit Unit :=
  (CvdServer.run routeAll readingServer serveTrace).get (by decide)

theorem callback_returns_reading :
    0 < (readingServer.threads firstWorker).rank ∧
      CvdServer.run routeAll readingServer serveTrace = some servedServer ∧
      (readingServer.threads firstWorker).rank ≤
        serveTrace.countP (Action.movesWorker firstWorker) ∧
      ∃ pre post u, serveTrace = pre ++ post ∧ CvdServer.run routeAll readingServer pre = some u ∧
        u.threads firstWorker = .checkRunning ∧
        pre.countP (Action.movesWorker firstWorker) ≤ (readingServer.threads firstWorker).rank :=
  have ran : CvdServer.run routeAll readingServer serveTrace = some servedServer :=
    (Option.some_get _).symm
  ⟨by decide, ran, by decide, callback_returns (by decide) ran (by decide)⟩

end Cvd
end Cuttlefish
