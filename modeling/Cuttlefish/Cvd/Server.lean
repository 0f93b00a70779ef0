import Cuttlefish.Epoll.Pool
import Mathlib.Data.List.FinRange

/-!
# The cvd server

`host/commands/cvd/server.cc` as a transition system. The state holds the program point of
each of the `kNumThreads` worker threads and of the main thread, the epoll registration table,
`running_`, and the `SharedState` of every routed request. One transition is one thread
running up to its next access to shared state: a pool operation, `running_`, a request's
`SharedState` under its mutex, or a call into a handler. The environment (clients, the epoll
facility, the handlers) resolves each nondeterministic outcome through the `Input` of the
transition.

Requests, handlers and the routing rule are parameters: `RequestHandler` is modelled in
`Cuttlefish.Cvd.Routing`, and the server only sees its result.
-/

namespace Cuttlefish
namespace Cvd

open Epoll

/-- `kNumThreads`: the worker threads started by the `CvdServer` constructor. -/
def kNumThreads : Nat := 10

/-- The registration `StartServer` and `AcceptClient` make for the listening descriptor. -/
def acceptRegistration : Registration := ⟨.epollin, .acceptClient⟩

/-- The registration `AcceptClient` and `HandleMessage` make for a connection. -/
def messageRegistration : Registration := ⟨.epollin, .handleMessage⟩

/-- The `EPOLLHUP` registration of `HandleMessage` for request `r` (line 204). -/
def interruptRegistration (r : Nat) : Registration := ⟨.epollhup, .interrupt r⟩

/-- The registration `BestEffortWakeup` makes for its eventfd. -/
def wakeupRegistration : Registration := ⟨.epollin, .wakeup⟩

/-- Program points of a `HandleMessage(event)` call on `event.fd`. A request index `r` names
the `SharedState` created for the routed request. -/
inductive MessageStage (Q : Type)
  /-- Entered with the reported events. -/
  | start (events : Events)
  /-- `GetRequest(event.fd)` is reading a request. -/
  | getRequest
  /-- The request was read; `RequestHandler` routes it next. -/
  | requestHandler (request : Q)
  /-- `Register(event.fd, EPOLLHUP, interrupt_cb)` next (line 204). -/
  | registerInterrupt (r : Nat)
  /-- The interrupt registration of line 204 is live; `shared->handler->Handle(*request)` is
  called next (line 206). -/
  | callHandle (r : Nat)
  /-- `shared->handler->Handle(*request)` is running (line 206). -/
  | handle (r : Nat)
  /-- `SendResponse(event.fd, response)` is writing (line 207). -/
  | sendResponse (r : Nat)
  /-- `shared->handler = nullptr` under `shared->mutex` next (line 211). -/
  | clearHandler (r : Nat)
  /-- `Remove(event.fd)` of the interrupt registration next (line 213). -/
  | removeInterrupt (r : Nat)
  /-- `Register(event.fd, EPOLLIN, self_cb)` next (line 219). -/
  | registerSelf (r : Nat)
  /-- `abandon_client.Cancel()` and return; the locals, the injector among them, go. -/
  | cancel (r : Nat)
  /-- An early return after routing: the locals are destroyed, the injector last. -/
  | unwind (r : Nat)
  /-- The explicit `Remove(event.fd)` on a hang-up or at end of file (lines 174, 181). -/
  | remove
  /-- The guard `abandon_client` runs `Remove(event.fd)`; `r` is the routed request, if any. -/
  | abandonClient (r : Option Nat)
  deriving DecidableEq, Repr

/-- Program points of a worker thread. -/
inductive Stage (Q : Type)
  /-- The `while (running_)` test. -/
  | checkRunning
  /-- `running_` was read as true; `HandleEvent` is called next. -/
  | enterHandleEvent
  /-- Blocked in `epoll_pool_.HandleEvent()`. -/
  | inHandleEvent
  /-- `AcceptClient(event)` entered with an event on `fd`. -/
  | acceptClient (fd : Fd) (events : Events)
  /-- `Register(client_fd, EPOLLIN, client_cb)` next (line 158), `client_fd` being `.client n`. -/
  | registerClient (fd : Fd) (n : Nat)
  /-- `Register(event.fd, EPOLLIN, self_cb)` next (line 164). -/
  | registerListener (fd : Fd)
  /-- A check of `AcceptClient` failed; the guard `stop_on_failure` calls `Stop()`. -/
  | stopOnFailure (fd : Fd)
  /-- Inside `HandleMessage(event)` for a descriptor `fd`. -/
  | handleMessage (fd : Fd) (stage : MessageStage Q)
  /-- `interrupt_cb` of request `r` was dispatched and is about to take `shared->mutex`. -/
  | interruptCallback (r : Nat)
  /-- The loop has ended; `BestEffortWakeup()` and its `CHECK` run next. -/
  | bestEffortWakeup
  /-- The thread function has returned. -/
  | finished
  deriving DecidableEq, Repr

/-- Program points of the main thread: `CvdServerMain`, then `~CvdServer`. -/
inductive MainStage
  /-- `server.StartServer(server_fd)` next; its result is not looked at. -/
  | startServer
  /-- `server.Join()`. -/
  | join
  /-- `~CvdServer`: `running_ = false` next. -/
  | destructor
  /-- `~CvdServer`: `BestEffortWakeup()` and its `CHECK` next. -/
  | destructorWakeup
  /-- `main` has returned. -/
  | exited
  deriving DecidableEq, Repr

/-- The `SharedState` of a routed request, with the lifetime of the request's injector and
three counters that record what happened to it. -/
structure SharedState (H : Type) where
  /-- `shared->handler`. -/
  handler : Option H
  /-- The descriptor the request was read from. -/
  conn : Fd
  /-- The per-request `fruit::Injector`, which owns the handler objects, is alive. -/
  injector : Bool
  /-- Calls of `Handle` made for the request. -/
  handles : Nat
  /-- Calls of `Interrupt()` started for the request. -/
  interrupts : Nat
  /-- Calls of `Interrupt()` started after the request's injector was destroyed. -/
  staleInterrupts : Nat

/-- The whole server: `CvdServer`, its threads and the main thread. -/
structure CvdServer (Q H : Type) where
  /-- `running_`. -/
  running : Bool
  /-- A `CHECK` failed and the process aborted. -/
  aborted : Bool
  /-- `epoll_pool_`. -/
  epollPool : Table
  /-- The program point of each thread of `threads_`. -/
  threads : Fin kNumThreads → Stage Q
  /-- The program point of the main thread. -/
  main : MainStage
  /-- The `SharedState` of each routed request, by routing order. -/
  requests : Nat → Option (SharedState H)
  /-- Descriptors accepted so far. -/
  clients : Nat
  /-- Eventfds created so far. -/
  eventfds : Nat
  /-- Requests routed so far. -/
  routed : Nat
  /-- Calls of `GetRequest` started on each descriptor. -/
  requestsRead : Fd → Nat
  /-- Requests on each descriptor whose `HandleMessage` passed the `Remove` at line 213. -/
  requestsServed : Fd → Nat

/-- What the environment decides for one transition. -/
inductive Input (Q : Type)
  /-- The step's fallible operation succeeds (`true`) or fails (`false`); steps without one
  ignore the flag. For `GetRequest`, `true` is end of file. -/
  | step (ok : Bool)
  /-- `HandleEvent` reports these events for `fd`. -/
  | event (fd : Fd) (events : Events)
  /-- `GetRequest` reads this request. -/
  | request (request : Q)
  /-- The running handler calls `Stop()`, as the shutdown handler does. -/
  | stop

/-- A transition: which thread moves, and what the environment decides. -/
inductive Action (Q : Type)
  | worker (thread : Fin kNumThreads) (input : Input Q)
  | main (input : Input Q)

namespace Stage

/-- A thread whose function has returned. -/
def isFinished : Stage Q → Bool
  | .finished => true
  | _ => false

theorem isFinished_eq_true {stage : Stage Q} : stage.isFinished = true ↔ stage = .finished := by
  cases stage <;> simp [isFinished]

/-- The stage a worker enters when `HandleEvent` runs `callback` for an event on `fd`. The
callback of `BestEffortWakeup` does nothing, so its worker is back at the loop test. -/
def ofCallback (fd : Fd) (events : Events) : Callback → Stage Q
  | .acceptClient => .acceptClient fd events
  | .handleMessage => .handleMessage fd (.start events)
  | .interrupt r => .interruptCallback r
  | .wakeup => .checkRunning

end Stage

namespace CvdServer

variable {Q H : Type} (s : CvdServer Q H)

/-- The server the constructor leaves: every thread at its loop test, nothing registered. -/
def init : CvdServer Q H where
  running := true
  aborted := false
  epollPool := Table.empty
  threads := fun _ => .checkRunning
  main := .startServer
  requests := fun _ => none
  clients := 0
  eventfds := 0
  routed := 0
  requestsRead := fun _ => 0
  requestsServed := fun _ => 0

/-- Move thread `w` to `stage`. -/
@[simps] def setStage (w : Fin kNumThreads) (stage : Stage Q) : CvdServer Q H :=
  { s with threads := Function.update s.threads w stage }

/-- Replace the registration table. -/
@[simps] def setPool (table : Table) : CvdServer Q H := { s with epollPool := table }

/-- `SharedFD::Accept` returns a new descriptor, `.client s.clients`. -/
@[simps] def acceptFd : CvdServer Q H := { s with clients := s.clients + 1 }

/-- A `GetRequest` starts on `fd`. -/
@[simps] def countRead (fd : Fd) : CvdServer Q H :=
  { s with requestsRead := Function.update s.requestsRead fd (s.requestsRead fd + 1) }

/-- A request on `fd` passed the `Remove` at line 213. -/
@[simps] def countServed (fd : Fd) : CvdServer Q H :=
  { s with requestsServed := Function.update s.requestsServed fd (s.requestsServed fd + 1) }

/-- `CvdServer::Stop`. -/
@[simps] def stop : CvdServer Q H := { s with running := false }

/-- Apply `f` to the `SharedState` of request `r`. -/
@[simps] def updateRequest (r : Nat) (f : SharedState H → SharedState H) : CvdServer Q H :=
  { s with requests := Function.update s.requests r ((s.requests r).map f) }

/-- `SharedFD::Event` creates a new eventfd, `.event s.eventfds`. -/
@[simps] def createEventfd : CvdServer Q H := { s with eventfds := s.eventfds + 1 }

/-- A `CHECK` fails: the process aborts. -/
@[simps] def abort : CvdServer Q H := { s with aborted := true }

/-- Move the main thread to `stage`. -/
@[simps] def setMain (stage : MainStage) : CvdServer Q H := { s with main := stage }

/-- Every worker thread has returned, so `Join` returns. -/
def allFinished : Bool :=
  (List.finRange kNumThreads).all fun w => (s.threads w).isFinished

theorem allFinished_eq_true : allFinished s = true ↔ ∀ w, s.threads w = .finished := by
  simp [allFinished, Stage.isFinished_eq_true]

/-- `BestEffortWakeup` followed by its `CHECK`: a fresh eventfd, written once, is registered
for `EPOLLIN` with a callback that does nothing. When any of the three steps fails
(`ok = false`, or the `Register` refuses) the `CHECK` aborts the process. -/
def bestEffortWakeup (ok : Bool) : CvdServer Q H :=
  match register s.epollPool (.event s.eventfds) wakeupRegistration ok with
  | some table => (s.setPool table).createEventfd
  | none => s.abort

/-- A request read from `fd` is routed to `handler`: `std::make_shared<SharedState>()` with
`shared->handler` set, inside the request's new injector. -/
@[simps] def newRequest (fd : Fd) (handler : H) : CvdServer Q H :=
  { s with
    requests := Function.update s.requests s.routed
      (some ⟨some handler, fd, true, 0, 0, 0⟩)
    routed := s.routed + 1 }

/-- `interrupt_cb` of request `r`: under `shared->mutex`, `CF_EXPECT(shared->handler !=
nullptr)` and then `shared->handler->Interrupt()`. -/
def interrupt (r : Nat) : CvdServer Q H :=
  s.updateRequest r fun shared =>
    match shared.handler with
    | some _ =>
        { shared with
          interrupts := shared.interrupts + 1
          staleInterrupts :=
            if shared.injector then shared.staleInterrupts else shared.staleInterrupts + 1 }
    | none => shared

/-- `shared->handler = nullptr` under `shared->mutex` (line 211). -/
def clearHandler (r : Nat) : CvdServer Q H :=
  s.updateRequest r fun shared => { shared with handler := none }

/-- The request's injector is destroyed, and the handler objects with it. -/
def destroyInjector (r : Nat) : CvdServer Q H :=
  s.updateRequest r fun shared => { shared with injector := false }

/-- `Handle` is called for request `r`. -/
def callHandle (r : Nat) : CvdServer Q H :=
  s.updateRequest r fun shared => { shared with handles := shared.handles + 1 }

/-- A `Remove(fd)` whose result is ignored. -/
def removeIgnored (fd : Fd) : CvdServer Q H :=
  s.setPool ((remove s.epollPool fd).getD s.epollPool)

/-- One step of `HandleMessage(event)` on `fd` by thread `w`, lines 170 to 223. -/
def handleMessage (route : Q → Except String H) (w : Fin kNumThreads) (fd : Fd) :
    MessageStage Q → Input Q → Option (CvdServer Q H)
  | .start events, .step _ => some <|
      if events.epollhup then s.setStage w (.handleMessage fd .remove)
      else if events.epollin then
        (s.countRead fd).setStage w (.handleMessage fd .getRequest)
      else s.setStage w (.handleMessage fd (.abandonClient none))
  | .getRequest, .request request =>
      some (s.setStage w (.handleMessage fd (.requestHandler request)))
  | .getRequest, .step endOfFile => some <|
      s.setStage w (.handleMessage fd (if endOfFile then .remove else .abandonClient none))
  | .requestHandler request, .step _ => some <|
      match route request with
      | .ok handler =>
          (s.newRequest fd handler).setStage w (.handleMessage fd (.registerInterrupt s.routed))
      | .error _ => s.setStage w (.handleMessage fd (.abandonClient none))
  | .registerInterrupt r, .step ok => some <|
      match register s.epollPool fd (interruptRegistration r) ok with
      | some table => (s.setPool table).setStage w (.handleMessage fd (.callHandle r))
      | none => s.setStage w (.handleMessage fd (.unwind r))
  | .callHandle r, .step _ => some <|
      (s.callHandle r).setStage w (.handleMessage fd (.handle r))
  | .handle r, .step ok => some <|
      s.setStage w (.handleMessage fd (if ok then .sendResponse r else .unwind r))
  | .handle _, .stop => some s.stop
  | .sendResponse r, .step ok => some <|
      s.setStage w (.handleMessage fd (if ok then .clearHandler r else .unwind r))
  | .clearHandler r, .step _ => some <|
      (s.clearHandler r).setStage w (.handleMessage fd (.removeInterrupt r))
  | .removeInterrupt r, .step _ => some <|
      match remove s.epollPool fd with
      | some table =>
          ((s.setPool table).countServed fd).setStage w (.handleMessage fd (.registerSelf r))
      | none => s.setStage w (.handleMessage fd (.unwind r))
  | .registerSelf r, .step ok => some <|
      match register s.epollPool fd messageRegistration ok with
      | some table => (s.setPool table).setStage w (.handleMessage fd (.cancel r))
      | none => s.setStage w (.handleMessage fd (.unwind r))
  | .cancel r, .step _ => some <| (s.destroyInjector r).setStage w .checkRunning
  | .unwind r, .step _ => some <|
      (s.destroyInjector r).setStage w (.handleMessage fd (.abandonClient (some r)))
  | .remove, .step _ => some <|
      (s.removeIgnored fd).setStage w (.handleMessage fd (.abandonClient none))
  | .abandonClient _, .step _ => some <| (s.removeIgnored fd).setStage w .checkRunning
  | _, _ => none

/-- One step of worker thread `w`: the loop of the constructor (lines 65 to 75), the pool's
`HandleEvent`, and the callbacks it runs. -/
def workerStep (route : Q → Except String H) (w : Fin kNumThreads) :
    Stage Q → Input Q → Option (CvdServer Q H)
  | .checkRunning, .step _ => some <|
      s.setStage w (if s.running then .enterHandleEvent else .bestEffortWakeup)
  | .enterHandleEvent, .step _ => some (s.setStage w .inHandleEvent)
  | .inHandleEvent, .step _ => some (s.setStage w .checkRunning)
  | .inHandleEvent, .event fd events => (s.epollPool fd).map fun registration =>
      (s.setPool (consume s.epollPool fd)).setStage w
        (Stage.ofCallback fd events registration.callback)
  | .acceptClient fd events, .step ok => some <|
      if events.epollin && ok then
        s.acceptFd.setStage w (.registerClient fd s.clients)
      else s.setStage w (.stopOnFailure fd)
  | .registerClient fd n, .step ok => some <|
      match register s.epollPool (.client n) messageRegistration ok with
      | some table => (s.setPool table).setStage w (.registerListener fd)
      | none => s.setStage w (.stopOnFailure fd)
  | .registerListener fd, .step ok => some <|
      match register s.epollPool fd acceptRegistration ok with
      | some table => (s.setPool table).setStage w .checkRunning
      | none => s.setStage w (.stopOnFailure fd)
  | .stopOnFailure _, .step _ => some (s.stop.setStage w .checkRunning)
  | .handleMessage fd stage, input => s.handleMessage route w fd stage input
  | .interruptCallback r, .step _ => some ((s.interrupt r).setStage w .checkRunning)
  | .bestEffortWakeup, .step ok => some ((s.bestEffortWakeup ok).setStage w .finished)
  | _, _ => none

/-- One step of the main thread: `StartServer` (its result dropped), `Join`, `~CvdServer`. -/
def mainStep : MainStage → Input Q → Option (CvdServer Q H)
  | .startServer, .step ok => some <|
      (s.setPool ((register s.epollPool .server acceptRegistration ok).getD s.epollPool)).setMain
        .join
  | .join, .step _ => if allFinished s then some (s.setMain .destructor) else none
  | .destructor, .step _ => some (s.stop.setMain .destructorWakeup)
  | .destructorWakeup, .step ok => some ((s.bestEffortWakeup ok).setMain .exited)
  | _, _ => none

/-- One transition of the whole server; nothing moves once the process has aborted. -/
def step (route : Q → Except String H) : Action Q → Option (CvdServer Q H)
  | .worker w input => if s.aborted then none else s.workerStep route w (s.threads w) input
  | .main input => if s.aborted then none else s.mainStep s.main input

/-- Run a list of transitions; `none` when one of them is not enabled. -/
def run (route : Q → Except String H) : CvdServer Q H → List (Action Q) → Option (CvdServer Q H)
  | s, [] => some s
  | s, a :: as => (s.step route a).bind fun s' => run route s' as

end CvdServer

/-- The states the server reaches from its constructor, under any interleaving. -/
inductive Reachable (route : Q → Except String H) : CvdServer Q H → Prop
  | init : Reachable route CvdServer.init
  | step {s s' : CvdServer Q H} {a : Action Q} :
      Reachable route s → s.step route a = some s' → Reachable route s'

/-- The states reachable from `s`. -/
inductive ReachableFrom (route : Q → Except String H) (s : CvdServer Q H) :
    CvdServer Q H → Prop
  | refl : ReachableFrom route s s
  | step {t t' : CvdServer Q H} {a : Action Q} :
      ReachableFrom route s t → t.step route a = some t' → ReachableFrom route s t'

theorem ReachableFrom.reachable {route : Q → Except String H} {s t : CvdServer Q H}
    (reachable : Reachable route s) (from_s : ReachableFrom route s t) : Reachable route t := by
  induction from_s with
  | refl => exact reachable
  | step _ stepped reachable_t => exact reachable_t.step stepped

theorem ReachableFrom.head {route : Q → Except String H} {s s' t : CvdServer Q H}
    {a : Action Q} (stepped : s.step route a = some s') (from_s' : ReachableFrom route s' t) :
    ReachableFrom route s t := by
  induction from_s' with
  | refl => exact .step .refl stepped
  | step _ stepped' ih => exact .step ih stepped'

theorem run_reachableFrom {route : Q → Except String H} {s t : CvdServer Q H}
    {actions : List (Action Q)} (ran : CvdServer.run route s actions = some t) :
    ReachableFrom route s t := by
  induction actions generalizing s with
  | nil => cases ran; exact .refl
  | cons a as ih =>
      obtain ⟨s', stepped, rest⟩ := Option.bind_eq_some.mp ran
      exact (ih rest).head stepped

/-- A run's last state is reachable from the state its first step leads to. -/
theorem run_cons_reachableFrom {route : Q → Except String H} {s s' t : CvdServer Q H}
    {a : Action Q} {rest : List (Action Q)} (stepped : s.step route a = some s')
    (ran : CvdServer.run route s (a :: rest) = some t) : ReachableFrom route s' t := by
  obtain ⟨s'', stepped', rest'⟩ := Option.bind_eq_some.mp ran
  cases stepped.symm.trans stepped'
  exact run_reachableFrom rest'

/-- A state some run from the constructor ends in is reachable. -/
theorem Reachable.of_run {route : Q → Except String H} {actions : List (Action Q)}
    {s : CvdServer Q H} (ran : CvdServer.run route CvdServer.init actions = some s) :
    Reachable route s :=
  (run_reachableFrom ran).reachable .init

end Cvd
end Cuttlefish
