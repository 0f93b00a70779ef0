import Cuttlefish.Cvd.Frame

/-!
# Connections

What the server does with the descriptors of its clients, over every interleaving: each
`Register` finds its descriptor free, and each `Remove` finds at most the interrupt
registration of its own call; a connection carries an interrupt registration only
while the `HandleMessage` call that made it still runs; a request is read from a connection
only once every earlier request on it has been answered; and a connection `HandleMessage`
gives up is never registered again.

The scenarios below run the server with one handler that takes every request.
-/

namespace Cuttlefish
namespace Cvd

open Epoll

variable {Q H : Type} {route : Q → Except String H} {s s' : CvdServer Q H}
  {w : Fin kNumThreads} {fd : Fd}

/-! ## Scenarios -/

/-- The route of a server whose one handler takes every request. -/
def routeAll : Unit → Except String Unit := fun _ => .ok ()

/-- The first worker thread. -/
def firstWorker : Fin kNumThreads := ⟨0, by decide⟩

/-- The second worker thread. -/
def secondWorker : Fin kNumThreads := ⟨1, by decide⟩

/-- Worker `w` passes the `running_` test and blocks in `HandleEvent`. -/
def waitForEvent (w : Fin kNumThreads) : List (Action Unit) :=
  [.worker w (.step true), .worker w (.step true)]

/-- `CvdServerMain` starts the server; worker `w` accepts connection `0`, registers it and
re-arms the listener. -/
def acceptFirst (w : Fin kNumThreads) : List (Action Unit) :=
  [.main (.step true)] ++ waitForEvent w ++
    [.worker w (.event .server ⟨true, false⟩), .worker w (.step true), .worker w (.step true),
      .worker w (.step true)]

/-- Worker `w` takes the first request of connection `0`, reads and routes it; the `Register`
of line 204 is next. -/
def routeFirst (w : Fin kNumThreads) : List (Action Unit) :=
  waitForEvent w ++
    [.worker w (.event (.client 0) ⟨true, false⟩), .worker w (.step true),
      .worker w (.request ()), .worker w (.step true)]

/-- The server once the first worker is reading the first request of connection `0`. -/
def readingServer : CvdServer Unit Unit :=
  (CvdServer.run routeAll .init (acceptFirst firstWorker ++ waitForEvent firstWorker ++
    [.worker firstWorker (.event (.client 0) ⟨true, false⟩),
      .worker firstWorker (.step true)])).get (by decide)

theorem readingServer_reachable : Reachable routeAll readingServer :=
  Reachable.of_run (Option.some_get _).symm

/-! ## Every `Register` finds its descriptor free -/

namespace Stage

/-- The descriptor the next step of a thread registers, if that step is a `Register`: the
accepted descriptor (line 158), the listener (line 164), the interrupt (line 204) and the
re-registration (line 219) of a connection. -/
def registerTarget : Stage Q → Option Fd
  | .registerClient _ n => some (.client n)
  | .registerListener fd => some fd
  | .handleMessage fd (.registerInterrupt _) | .handleMessage fd (.registerSelf _) => some fd
  | _ => none

/-- A thread registers only a descriptor it owns and answers for no interrupt on. -/
theorem registerTarget_holds {stage : Stage Q} (target : stage.registerTarget = some fd) :
    stage.holds fd ∧ ∀ r, ¬ stage.armed fd r := by
  cases stage with
  | registerClient listener n => cases target; exact ⟨.inr rfl, fun _ => not_false⟩
  | registerListener listener => cases target; exact ⟨rfl, fun _ => not_false⟩
  | handleMessage conn m =>
      cases m <;> cases target <;> exact ⟨⟨rfl, trivial⟩, fun _ armed => armed.2⟩
  | _ => cases target

end Stage

/-- In every reachable state, every `Register` the server is about to issue targets a
descriptor with no live registration: a thread's (lines 158, 164, 204, 219), `StartServer`'s
for the listener, and `BestEffortWakeup`'s for its new eventfd. A connection's registration
is for `HandleMessage`, or the interrupt of a request whose `HandleMessage` call runs past
the `Register` of line 204 and has not removed it yet. -/
theorem registration_discipline (reachable : Reachable route s) :
    (∀ w fd, (s.threads w).registerTarget = some fd → s.epollPool fd = none) ∧
    (s.main = .startServer → s.epollPool .server = none) ∧
    s.epollPool (.event s.eventfds) = none ∧
    ∀ n registration, s.epollPool (.client n) = some registration →
      registration = messageRegistration ∨
        ∃ r w, registration = interruptRegistration r ∧ (s.threads w).armed (.client n) r := by
  have inv := reachable.invariant
  refine ⟨fun w fd target => ?_, inv.startServer, inv.freshEvent _ le_rfl,
    fun n registration registered => ?_⟩
  · obtain ⟨held, unarmed⟩ := Stage.registerTarget_holds target
    exact inv.free_of_holds held unarmed
  · have fits := inv.fits (.client n)
    rw [registered] at fits
    rcases fits with rfl | ⟨r, rfl⟩
    · exact .inl rfl
    · obtain ⟨w, armedAt⟩ := inv.armed _ r registered
      exact .inr ⟨r, w, rfl, armedAt⟩

theorem registration_discipline_reading :
    Reachable routeAll readingServer ∧
      (∀ w fd, (readingServer.threads w).registerTarget = some fd →
        readingServer.epollPool fd = none) ∧
      (readingServer.main = .startServer → readingServer.epollPool .server = none) ∧
      readingServer.epollPool (.event readingServer.eventfds) = none ∧
      ∀ n registration, readingServer.epollPool (.client n) = some registration →
        registration = messageRegistration ∨
          ∃ r w, registration = interruptRegistration r ∧
            (readingServer.threads w).armed (.client n) r :=
  ⟨readingServer_reachable, registration_discipline readingServer_reachable⟩

/-! ## Each descriptor has one owner -/

/-- In every reachable state each descriptor has one owner at most: one thread, or the pool,
which keeps it for the next `AcceptClient` or `HandleMessage` callback. A descriptor whose
interrupt is registered stays with the thread whose `HandleMessage` call registered it. -/
theorem single_owner (reachable : Reachable route s) (fd : Fd) :
    (∀ v w, (s.threads v).holds fd → (s.threads w).holds fd → v = w) ∧
    (s.epollPool fd = some acceptRegistration ∨ s.epollPool fd = some messageRegistration →
      ∀ w, ¬ (s.threads w).holds fd) ∧
    ∀ r, s.epollPool fd = some (interruptRegistration r) →
      ∃ w, (s.threads w).holds fd ∧ (s.threads w).armed fd r := by
  have inv := reachable.invariant
  refine ⟨(inv.exclusive fd).1, fun pooled => (inv.exclusive fd).2 (pooled.imp_right .inl),
    fun r registered => ?_⟩
  obtain ⟨w, armedAt⟩ := inv.armed fd r registered
  exact ⟨w, Stage.armed_holds armedAt, armedAt⟩

theorem single_owner_reading :
    Reachable routeAll readingServer ∧
      (∀ v w, (readingServer.threads v).holds (.client 0) →
        (readingServer.threads w).holds (.client 0) → v = w) ∧
      (readingServer.epollPool (.client 0) = some acceptRegistration ∨
          readingServer.epollPool (.client 0) = some messageRegistration →
        ∀ w, ¬ (readingServer.threads w).holds (.client 0)) ∧
      ∀ r, readingServer.epollPool (.client 0) = some (interruptRegistration r) →
        ∃ w, (readingServer.threads w).holds (.client 0) ∧
          (readingServer.threads w).armed (.client 0) r :=
  ⟨readingServer_reachable, single_owner readingServer_reachable (.client 0)⟩

/-! ## Requests on one connection are served in turn -/

/-- While `GetRequest` reads a request from a connection, every earlier request read from it
has passed the `Remove` of line 213, so its response was written and its handler cleared;
and no thread runs `Handle` or `SendResponse` for that connection. -/
theorem connection_sequencing (reachable : Reachable route s)
    (reading : s.threads w = .handleMessage fd .getRequest) :
    s.requestsRead fd = s.requestsServed fd + 1 ∧
      ∀ v r, s.threads v ≠ .handleMessage fd (.handle r) ∧
        s.threads v ≠ .handleMessage fd (.sendResponse r) := by
  have inv := reachable.invariant
  have held : (s.threads w).holds fd := by rw [reading]; exact ⟨rfl, trivial⟩
  have only : ∀ v m, s.threads v = .handleMessage fd m → m.holds → m = .getRequest := by
    intro v m at_v holds
    obtain rfl := (inv.exclusive fd).1 v w (by rw [at_v]; exact ⟨rfl, holds⟩) held
    rw [reading] at at_v
    cases at_v
    rfl
  exact ⟨inv.unserved w fd 1 (by simp [reading]), fun v r =>
    ⟨fun at_v => (nomatch only v _ at_v trivial), fun at_v => (nomatch only v _ at_v trivial)⟩⟩

theorem connection_sequencing_reading :
    Reachable routeAll readingServer ∧
      readingServer.threads firstWorker = .handleMessage (.client 0) .getRequest ∧
      readingServer.requestsRead (.client 0) = readingServer.requestsServed (.client 0) + 1 ∧
      ∀ v r, readingServer.threads v ≠ .handleMessage (.client 0) (.handle r) ∧
        readingServer.threads v ≠ .handleMessage (.client 0) (.sendResponse r) :=
  ⟨readingServer_reachable, by decide,
    connection_sequencing (w := firstWorker) readingServer_reachable (by decide)⟩

/-! ## A connection given up is never registered again -/

/-- When `HandleMessage` returns through its guard `abandon_client`, on every path but the full
success, the guard's `Remove` leaves the connection dropped for the rest of the run: no live
registration, no owner, and no later step registers it. The full success path returns past
`Cancel()` only after the `Register` of line 219 has handed the connection back to the pool
for `HandleMessage`. -/
theorem connection_cleanup (reachable : Reachable route s) {input : Input Q}
    (stepped : s.step route (.worker w input) = some s') :
    (∀ r, s.threads w = .handleMessage fd (.abandonClient r) →
      ∀ t, ReachableFrom route s' t → t.Dropped fd) ∧
    (∀ r, s.threads w = .handleMessage fd (.registerSelf r) →
      s'.threads w = .handleMessage fd (.cancel r) →
        s'.epollPool fd = some messageRegistration) := by
  have inv := reachable.invariant
  simp only [CvdServer.step] at stepped
  split at stepped
  · cases stepped
  refine ⟨fun r hw t from_s' => ?_, fun r hw => ?_⟩
  · have held : (s.threads w).holds fd := by rw [hw]; exact ⟨rfl, trivial⟩
    obtain ⟨n, rfl⟩ : ∃ n, fd = .client n := by simpa [hw] using inv.wellKinded w
    rw [hw] at stepped
    cases input <;>
      simp only [CvdServer.workerStep, CvdServer.handleMessage, reduceCtorEq] at stepped
    cases stepped
    refine ReachableFrom.dropped ⟨by simp [CvdServer.removeIgnored, remove_getD], ?_, n, rfl, ?_⟩
      from_s'
    · exact (Function.forall_update_iff _ fun _ (stage : Stage Q) => ¬ stage.holds _).mpr
        ⟨not_false, fun v other mine => other ((inv.exclusive _).1 v w mine held)⟩
    · by_contra fresh
      exact inv.not_fresh held (not_lt.mp fresh) rfl
  · rw [hw] at stepped
    cases input <;>
      simp only [CvdServer.workerStep, CvdServer.handleMessage, reduceCtorEq] at stepped
    cases stepped
    split
    · rename_i registered
      obtain ⟨-, -, rfl⟩ := register_eq_some registered
      simp
    · simp

/-- The server once the first worker failed to read the first request of connection `0`: its
guard `abandon_client` runs next. -/
def readFailedServer : CvdServer Unit Unit :=
  (readingServer.step routeAll (.worker firstWorker (.step false))).get (by decide)

/-- The server once that guard has run and the call has returned. -/
def abandonedServer : CvdServer Unit Unit :=
  (readFailedServer.step routeAll (.worker firstWorker (.step true))).get (by decide)

theorem connection_cleanup_after_read_error :
    Reachable routeAll readFailedServer ∧
      readFailedServer.step routeAll (.worker firstWorker (.step true)) = some abandonedServer ∧
      readFailedServer.threads firstWorker = .handleMessage (.client 0) (.abandonClient none) ∧
      ((∀ r, readFailedServer.threads firstWorker = .handleMessage (.client 0) (.abandonClient r) →
        ∀ t, ReachableFrom routeAll abandonedServer t → t.Dropped (.client 0)) ∧
      (∀ r, readFailedServer.threads firstWorker = .handleMessage (.client 0) (.registerSelf r) →
        abandonedServer.threads firstWorker = .handleMessage (.client 0) (.cancel r) →
          abandonedServer.epollPool (.client 0) = some messageRegistration)) :=
  have reachable : Reachable routeAll readFailedServer :=
    readingServer_reachable.step (Option.some_get _).symm
  ⟨reachable, (Option.some_get _).symm, by decide,
    connection_cleanup reachable (Option.some_get _).symm⟩

/-- The first worker serves the first request of connection `0` to the end and re-registers
the connection at line 219; the second worker takes that registration before the first
call returns. -/
def handBackTrace : List (Action Unit) :=
  acceptFirst firstWorker ++ routeFirst firstWorker ++
    List.replicate 7 (.worker firstWorker (.step true)) ++ waitForEvent secondWorker ++
    [.worker secondWorker (.event (.client 0) ⟨true, false⟩), .worker firstWorker (.step true)]

/-- At the return of a `HandleMessage` call that ran the full success path, its connection can
have no live registration: another worker is already handling the next request. -/
theorem success_returns_unregistered :
    (CvdServer.run routeAll .init handBackTrace).map (fun s =>
      (s.threads firstWorker, s.threads secondWorker, s.epollPool (.client 0),
        s.requestsServed (.client 0))) =
      some (.checkRunning, .handleMessage (.client 0) (.start ⟨true, false⟩), none, 1) := by
  decide

/-! ## Every `Remove` finds at most the call's own registration -/

namespace Stage

/-- The descriptor the next step of a thread removes, if that step is a `Remove`: on a hang-up
or an end of file (lines 174 and 181), after the handler is cleared (line 213), and in the
guard `abandon_client`. -/
def removeTarget : Stage Q → Option Fd
  | .handleMessage fd .remove | .handleMessage fd (.removeInterrupt _)
  | .handleMessage fd (.abandonClient _) => some fd
  | _ => none

theorem removeTarget_holds {stage : Stage Q} (target : stage.removeTarget = some fd) :
    stage.holds fd := by
  cases stage with
  | handleMessage conn m => cases m <;> cases target <;> exact ⟨rfl, trivial⟩
  | _ => cases target

end Stage

/-- In every reachable state, every `Remove` a thread is about to issue finds its descriptor
unregistered, or registered for the interrupt of the request its own call routed: it never
takes a registration that the pool keeps for another thread, nor the one its own call handed
back at line 219, since the guard is cancelled first. The `Remove` on a hang-up or an end of
file (lines 174 and 181), and the guard of a call that routed no request, always find nothing:
the pool consumed the registration when it dispatched the event. -/
theorem removes_own_registration (reachable : Reachable route s) :
    (∀ w fd, (s.threads w).removeTarget = some fd → s.epollPool fd = none ∨
      ∃ r, (s.threads w).armed fd r ∧ s.epollPool fd = some (interruptRegistration r)) ∧
    ∀ w fd, s.threads w = .handleMessage fd .remove ∨
        s.threads w = .handleMessage fd (.abandonClient none) →
      s.epollPool fd = none := by
  have owned : ∀ w fd, (s.threads w).removeTarget = some fd → s.epollPool fd = none ∨
      ∃ r, (s.threads w).armed fd r ∧ s.epollPool fd = some (interruptRegistration r) :=
    fun w fd target =>
      (reachable.invariant.pool_of_holds (Stage.removeTarget_holds target)).imp_right
        fun ⟨r, registered, armedAt⟩ => ⟨r, armedAt, registered⟩
  refine ⟨owned, fun w fd early => ?_⟩
  have target : (s.threads w).removeTarget = some fd := by
    rcases early with hw | hw <;> rw [hw] <;> rfl
  refine (owned w fd target).resolve_right fun ⟨r, armedAt, _⟩ => ?_
  rcases early with hw | hw <;> rw [hw] at armedAt <;> exact armedAt.2

theorem removes_own_registration_read_failed :
    Reachable routeAll readFailedServer ∧
      (∀ w fd, (readFailedServer.threads w).removeTarget = some fd →
        readFailedServer.epollPool fd = none ∨ ∃ r, (readFailedServer.threads w).armed fd r ∧
          readFailedServer.epollPool fd = some (interruptRegistration r)) ∧
      ∀ w fd, readFailedServer.threads w = .handleMessage fd .remove ∨
          readFailedServer.threads w = .handleMessage fd (.abandonClient none) →
        readFailedServer.epollPool fd = none :=
  have reachable : Reachable routeAll readFailedServer :=
    readingServer_reachable.step (Option.some_get _).symm
  ⟨reachable, removes_own_registration reachable⟩

end Cvd
end Cuttlefish
