import Cuttlefish.Cvd.Connections

/-!
# The listener

`CvdServerMain` calls `server.StartServer(server_fd)` and drops its result. When the pool
refuses the listener there, nothing stops the server: from that point on every run keeps
`running_` true and the main thread in `Join`, while no thread owns the listener and the pool
never holds it, so no connection is ever accepted.

Once `StartServer` has registered it, though, the listener is never lost while `running_` is
true: the pool keeps it for `AcceptClient`, or the one thread running `AcceptClient` owns it,
and every failure of `AcceptClient` calls `Stop()` through its guard `stop_on_failure`.
-/

namespace Cuttlefish
namespace Cvd

open Epoll

variable {Q H : Type} {route : Q → Except String H} {s s' t : CvdServer Q H}
  {w : Fin kNumThreads} {fd : Fd} {before after : Stage Q}

namespace CvdServer

/-- Every worker loops between the `running_` test and `HandleEvent` with nothing registered,
while the main thread waits in `Join`. -/
def Idle (s : CvdServer Q H) : Prop :=
  s.running = true ∧ s.aborted = false ∧ s.epollPool = Table.empty ∧ s.main = .join ∧
    ∀ w, s.threads w = .checkRunning ∨ s.threads w = .enterHandleEvent ∨
      s.threads w = .inHandleEvent

/-- An idle server only ever moves its workers around the loop: no event is ever reported,
and `Join` never returns. -/
theorem Idle.step (idle : s.Idle) {a : Action Q} (stepped : s.step route a = some s') :
    s'.Idle := by
  obtain ⟨running, alive, empty, joining, looping⟩ := idle
  have loop : ∀ (w : Fin kNumThreads) (stage : Stage Q), (stage = .checkRunning ∨
      stage = .enterHandleEvent ∨ stage = .inHandleEvent) → (s.setStage w stage).Idle :=
    fun w stage at_loop =>
      ⟨running, alive, empty, joining, (Function.forall_update_iff _ fun _ (stage : Stage Q) =>
        stage = .checkRunning ∨ stage = .enterHandleEvent ∨ stage = .inHandleEvent).mpr
          ⟨at_loop, fun v _ => looping v⟩⟩
  cases a with
  | worker w input =>
      simp only [CvdServer.step, alive, Bool.false_eq_true, if_false] at stepped
      rcases looping w with at_w | at_w | at_w <;> rw [at_w] at stepped <;> cases input <;>
        simp only [CvdServer.workerStep, reduceCtorEq] at stepped
      · cases stepped
        simpa [running] using loop w .enterHandleEvent (.inr (.inl rfl))
      · cases stepped
        exact loop w _ (.inr (.inr rfl))
      · cases stepped
        exact loop w _ (.inl rfl)
      · simp [empty] at stepped
  | main input =>
      simp only [CvdServer.step, alive, Bool.false_eq_true, if_false, joining] at stepped
      cases input <;> simp only [CvdServer.mainStep, reduceCtorEq] at stepped
      split at stepped
      · rename_i finished
        have idleFirst := (allFinished_eq_true s).mp finished firstWorker
        rcases looping firstWorker with at_w | at_w | at_w <;> rw [at_w] at idleFirst <;>
          cases idleFirst
      · cases stepped

end CvdServer

/-- An idle server stays idle in every run. -/
theorem ReachableFrom.idle (idle : s.Idle) (from_s : ReachableFrom route s t) : t.Idle := by
  induction from_s with
  | refl => exact idle
  | step _ stepped idle_t => exact idle_t.step stepped

/-- Every run in which `StartServer`'s `Register` of the listener is refused keeps the server
running, with the main thread in `Join`, and never has the listener registered or owned by
a thread: no connection is accepted, and nothing shuts the server down. -/
theorem failed_start_never_listens {actions : List (Action Q)}
    (ran : CvdServer.run route .init (.main (.step false) :: actions) = some t) :
    t.running = true ∧ t.main = .join ∧ t.epollPool .server = none ∧
      ∀ w, ¬ (t.threads w).holds .server := by
  have idle : (((.init : CvdServer Q H).setPool Table.empty).setMain .join).Idle :=
    ⟨rfl, rfl, rfl, rfl, fun _ => .inl rfl⟩
  simp only [CvdServer.run] at ran
  obtain ⟨running, -, empty, joining, looping⟩ := (run_reachableFrom ran).idle idle
  refine ⟨running, joining, by rw [empty]; rfl, fun w held => ?_⟩
  rcases looping w with at_w | at_w | at_w <;> rw [at_w] at held <;> exact held

/-- The server right after `StartServer`'s `Register` was refused, once the first worker
blocks in `HandleEvent`. -/
def startRefused : CvdServer Unit Unit :=
  (CvdServer.run routeAll .init (.main (.step false) :: waitForEvent firstWorker)).get
    (by decide)

theorem failed_start_never_listens_waiting :
    CvdServer.run routeAll .init (.main (.step false) :: waitForEvent firstWorker) =
        some startRefused ∧
      startRefused.running = true ∧ startRefused.main = .join ∧
      startRefused.epollPool .server = none ∧ ∀ w, ¬ (startRefused.threads w).holds .server :=
  ⟨(Option.some_get _).symm, failed_start_never_listens (Option.some_get _).symm⟩

/-! ## After a successful start -/

namespace CvdServer

/-- The listener is accounted for: the pool keeps it for `AcceptClient`, or a thread owns it
inside `AcceptClient`. -/
def Listens (s : CvdServer Q H) : Prop :=
  s.epollPool .server = some acceptRegistration ∨ ∃ w, (s.threads w).holds .server

/-- A step that leaves the listener's entry alone, and in which every owner of the listener
keeps it, keeps the listener accounted for. -/
theorem Listens.of_frame (listens : s.Listens)
    (pool : s'.epollPool .server = s.epollPool .server)
    (threads : ∀ w, (s.threads w).holds .server → (s'.threads w).holds .server) : s'.Listens :=
  listens.imp pool.trans fun ⟨w, held⟩ => ⟨w, threads w held⟩

theorem Listens.setStage (listens : s.Listens) (hw : s.threads w = before)
    (keeps : before.holds .server → after.holds .server) : (s.setStage w after).Listens :=
  listens.of_frame rfl fun v held => by
    by_cases hv : v = w
    · subst hv; simpa using keeps (hw ▸ held)
    · simpa [hv] using held

theorem Listens.setPool (listens : s.Listens) {table : Table}
    (same : table .server = s.epollPool .server) : (s.setPool table).Listens :=
  listens.of_frame same fun _ => id

theorem Listens.bestEffortWakeup (listens : s.Listens) (ok : Bool) :
    (s.bestEffortWakeup ok).Listens := by
  unfold CvdServer.bestEffortWakeup
  split
  · rename_i registered
    exact listens.setPool (register_apply_ne registered nofun)
  · exact listens.of_frame rfl fun _ => id

/-- `HandleMessage` works on a connection, so it leaves the listener alone. -/
theorem Listens.handleMessage (listens : s.Listens) {m : MessageStage Q} {input : Input Q}
    (client : ∃ n, fd = .client n) (hw : s.threads w = .handleMessage fd m)
    (stepped : s.handleMessage route w fd m input = some s') : s'.Listens := by
  obtain ⟨pool, others, -⟩ := handleMessage_frame stepped
  obtain ⟨n, rfl⟩ := client
  refine listens.of_frame (pool _ (.inl nofun)) fun v held => ?_
  have mover : v ≠ w := by
    rintro rfl
    rw [hw] at held
    exact nomatch held.1
  rwa [others v mover]

/-- No step that leaves `running_` true loses the listener: the callback dispatched for it
owns it, `AcceptClient` keeps it until the `Register` of line 164 hands it back, and a failed
check of `AcceptClient` stops the server. -/
theorem Listens.step (inv : s.Invariant) (listens : s.Listens) {a : Action Q}
    (stepped : s.step route a = some s') (running : s'.running = true) : s'.Listens := by
  cases a with
  | worker w input =>
      simp only [CvdServer.step] at stepped
      split at stepped
      · cases stepped
      · generalize hw : s.threads w = stage at stepped
        cases stage <;> cases input <;> simp only [CvdServer.workerStep, reduceCtorEq] at stepped
        case handleMessage.step | handleMessage.event | handleMessage.request
          | handleMessage.stop =>
          exact listens.handleMessage (by simpa [hw] using inv.wellKinded w) hw stepped
        case inHandleEvent.event fd events =>
          obtain ⟨registration, registered, rfl⟩ := Option.map_eq_some'.mp stepped
          by_cases server : fd = .server
          · subst server
            have fits := inv.fits .server
            rw [registered] at fits
            subst fits
            exact .inr ⟨w, by simp [acceptRegistration, Stage.ofCallback]⟩
          · exact (listens.setPool (by simp [consume, Ne.symm server])).setStage hw False.elim
        all_goals cases stepped
        case acceptClient.step.refl =>
          split
          · exact (listens.of_frame rfl fun _ => id).setStage (s := s.acceptFd) hw .inl
          · exact listens.setStage hw id
        case registerClient.step.refl =>
          split
          · rename_i registered
            exact (listens.setPool (register_apply_ne registered nofun)).setStage hw
              fun held => by exact held.resolve_right nofun
          · exact listens.setStage hw fun held => by exact held.resolve_right nofun
        case registerListener.step.refl fd _ =>
          split
          · rename_i registered
            by_cases server : fd = .server
            · subst server
              exact .inl (by simp [(register_eq_some registered).2.2])
            · exact (listens.setPool (register_apply_ne registered (Ne.symm server))).setStage hw
                fun held => absurd held.symm server
          · exact listens.setStage hw id
        case stopOnFailure.step.refl => simp at running
        case interruptCallback.step.refl =>
          exact (listens.of_frame rfl fun _ => id).setStage (s := s.interrupt _) hw False.elim
        case bestEffortWakeup.step.refl =>
          exact (listens.bestEffortWakeup _).setStage (by simpa using hw) False.elim
        all_goals exact listens.setStage hw False.elim
  | main input =>
      simp only [CvdServer.step] at stepped
      split at stepped
      · cases stepped
      · generalize s.main = stage at stepped
        cases stage <;> cases input <;> simp only [CvdServer.mainStep, reduceCtorEq] at stepped
        case join.step =>
          split at stepped
          · cases stepped; exact listens.of_frame rfl fun _ => id
          · cases stepped
        all_goals cases stepped
        case startServer.step.refl ok =>
          cases registered : register s.epollPool .server acceptRegistration ok with
          | none => exact listens.of_frame (by simp [registered]) fun _ => id
          | some table => exact .inl (by simp [registered, (register_eq_some registered).2.2])
        case destructor.step.refl => simp at running
        case destructorWakeup.step.refl =>
          exact (listens.bestEffortWakeup _).of_frame rfl fun _ => id

end CvdServer

/-- While `running_` stays true, the listener stays accounted for in every run. -/
theorem ReachableFrom.listens (inv : s.Invariant) (listens : s.Listens)
    (from_s : ReachableFrom route s t) (running : t.running = true) : t.Listens := by
  induction from_s with
  | refl => exact listens
  | @step u _ _ from_s_u stepped ih =>
      have wasRunning : u.running = true := by
        by_contra stopped
        rw [CvdServer.step_stopped (Bool.eq_false_iff.mpr stopped) stepped] at running
        cases running
      exact (ih wasRunning).step (ReachableFrom.preserves_invariant inv from_s_u) stepped running

/-- Once `StartServer` has registered the listener, every later state in which `running_` is
still true has the listener registered for `AcceptClient`, or owned by exactly one thread,
which runs `AcceptClient` on it. -/
theorem listener_kept (reachable : Reachable route s) (starting : s.main = .startServer)
    (started : s.step route (.main (.step true)) = some s') (from_s' : ReachableFrom route s' t)
    (running : t.running = true) :
    t.epollPool .server = some acceptRegistration ∨
      ∃ w, (t.threads w).holds .server ∧ ∀ v, (t.threads v).holds .server → v = w := by
  have inv := reachable.invariant
  have listening : s'.Listens := by
    simp only [CvdServer.step, starting] at started
    split at started
    · cases started
    · simp only [CvdServer.mainStep, register_of_free (inv.startServer starting), if_true,
        Option.getD_some, Option.some.injEq] at started
      subst started
      exact .inl (by simp)
  have inv' := ReachableFrom.preserves_invariant (inv.step started) from_s'
  rcases ReachableFrom.listens (inv.step started) listening from_s' running with pool | ⟨w, held⟩
  · exact .inl pool
  · exact .inr ⟨w, held, fun v held' => (inv'.exclusive .server).1 v w held' held⟩

/-- The server right after `StartServer` registered the listener. -/
def listenerRegistered : CvdServer Unit Unit :=
  (CvdServer.init.step routeAll (.main (.step true))).get (by decide)

theorem listener_kept_reading :
    Reachable routeAll (CvdServer.init : CvdServer Unit Unit) ∧
      (CvdServer.init : CvdServer Unit Unit).main = .startServer ∧
      CvdServer.init.step routeAll (.main (.step true)) = some listenerRegistered ∧
      ReachableFrom routeAll listenerRegistered readingServer ∧ readingServer.running = true ∧
      (readingServer.epollPool .server = some acceptRegistration ∨
        ∃ w, (readingServer.threads w).holds .server ∧
          ∀ v, (readingServer.threads v).holds .server → v = w) :=
  have started : CvdServer.init.step routeAll (.main (.step true)) = some listenerRegistered :=
    (Option.some_get _).symm
  have from_started : ReachableFrom routeAll listenerRegistered readingServer :=
    run_cons_reachableFrom started (Option.some_get _).symm
  ⟨.init, rfl, started, from_started, rfl,
    listener_kept .init rfl started from_started rfl⟩

end Cvd
end Cuttlefish
