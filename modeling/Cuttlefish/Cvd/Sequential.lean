import Cuttlefish.Cvd.Lifecycle
import Cuttlefish.Cvd.Termination

/-!
# Callbacks as sequential code

The transition system splits each callback `HandleEvent` runs into one step per operation, so
that other threads can interleave with it. This module states the callbacks a second time, as
the source reads when no other thread moves: `AcceptClient` (lines 148 to 168), `HandleMessage`
(lines 170 to 223), `interrupt_cb`, and the callback of a wakeup eventfd. An early return runs
the destructors of the locals, the request's injector first and the guard last. A worker that
runs its callback alone, the environment answering each operation as `Outcomes` says, is back
at its loop test in the state this code computes.

`Stop()` called by a handler from inside `Handle` is left out: it writes only `running_`, which
no callback reads.
-/

namespace Cuttlefish
namespace Cvd

open Epoll

variable {Q H : Type}

/-- What the environment answers to the operations of one callback. -/
structure Outcomes (Q : Type) where
  /-- `SharedFD::Accept` returns an open descriptor. -/
  accepted : Bool
  /-- `epoll_ctl` accepts the registration of the new connection (line 158). -/
  clientRegistered : Bool
  /-- `epoll_ctl` accepts the re-registration of the listener (line 164). -/
  listenerRegistered : Bool
  /-- `GetRequest` returns an error, the end of the stream (`none`), or a request. -/
  read : Except String (Option Q)
  /-- `epoll_ctl` accepts the interrupt registration of line 204. -/
  armed : Bool
  /-- `Handle` succeeds. -/
  handled : Bool
  /-- `SendResponse` succeeds. -/
  sent : Bool
  /-- `epoll_ctl` accepts the re-registration of line 219. -/
  handedBack : Bool

namespace Outcomes

/-- The step input that answers the operation at each program point of `HandleMessage`. -/
def messageInput (o : Outcomes Q) : MessageStage Q → Input Q
  | .getRequest =>
      match o.read with
      | .error _ => .step false
      | .ok none => .step true
      | .ok (some request) => .request request
  | .registerInterrupt _ => .step o.armed
  | .handle _ => .step o.handled
  | .sendResponse _ => .step o.sent
  | .registerSelf _ => .step o.handedBack
  | .start _ | .requestHandler _ | .callHandle _ | .clearHandler _ | .removeInterrupt _
  | .cancel _ | .unwind _ | .remove | .abandonClient _ => .step true

/-- The step input that answers the operation at each program point of a callback. -/
def input (o : Outcomes Q) : Stage Q → Input Q
  | .acceptClient _ _ => .step o.accepted
  | .registerClient _ _ => .step o.clientRegistered
  | .registerListener _ => .step o.listenerRegistered
  | .handleMessage _ m => o.messageInput m
  | .checkRunning | .enterHandleEvent | .inHandleEvent | .stopOnFailure _
  | .interruptCallback _ | .bestEffortWakeup | .finished => .step true

end Outcomes

namespace CvdServer

/-! ## The callbacks, one call at a time -/

section Calls

variable (s : CvdServer Q H)

/-- `AcceptClient(event)` for an event on the listener `fd`, lines 148 to 168. The guard
`stop_on_failure` runs `Stop()` on every early return. -/
def acceptClientCall (fd : Fd) (events : Events) (o : Outcomes Q) : CvdServer Q H :=
  if !(events.epollin && o.accepted) then s.stop
  else
    let client := Fd.client s.clients
    let s := s.acceptFd
    match register s.epollPool client messageRegistration o.clientRegistered with
    | none => s.stop
    | some table =>
        let s := s.setPool table
        match register s.epollPool fd acceptRegistration o.listenerRegistered with
        | none => s.stop
        | some table => s.setPool table

/-- Lines 203 to 223 of `HandleMessage`, for request `r` routed on `fd`. An early return
destroys the request's injector, then runs the guard `abandon_client`. -/
def routedCall (fd : Fd) (r : Nat) (o : Outcomes Q) : CvdServer Q H :=
  let abandon (t : CvdServer Q H) := (t.destroyInjector r).removeIgnored fd
  match register s.epollPool fd (interruptRegistration r) o.armed with
  | none => abandon s
  | some table =>
      let s := (s.setPool table).callHandle r
      if !(o.handled && o.sent) then abandon s
      else
        let s := s.clearHandler r
        match remove s.epollPool fd with
        | none => abandon s
        | some table =>
            let s := (s.setPool table).countServed fd
            match register s.epollPool fd messageRegistration o.handedBack with
            | none => abandon s
            | some table => (s.setPool table).destroyInjector r

/-- `HandleMessage(event)` for an event on `fd`, lines 170 to 223. The guard `abandon_client`
runs `Remove(event.fd)` on every early return, after the explicit one on a hang-up or an end
of file. -/
def handleMessageCall (route : Q → Except String H) (fd : Fd) (events : Events)
    (o : Outcomes Q) : CvdServer Q H :=
  if events.epollhup then (s.removeIgnored fd).removeIgnored fd
  else if !events.epollin then s.removeIgnored fd
  else
    let s := s.countRead fd
    match o.read with
    | .error _ => s.removeIgnored fd
    | .ok none => (s.removeIgnored fd).removeIgnored fd
    | .ok (some request) =>
        match route request with
        | .error _ => s.removeIgnored fd
        | .ok handler => (s.newRequest fd handler).routedCall fd s.routed o

/-- The callback `HandleEvent` runs for an event on `fd`: `interrupt_cb` is `interrupt`, and the
callback of a wakeup eventfd does nothing. -/
def callbackCall (route : Q → Except String H) (fd : Fd) (events : Events) (o : Outcomes Q) :
    Callback → CvdServer Q H
  | .acceptClient => s.acceptClientCall fd events o
  | .handleMessage => s.handleMessageCall route fd events o
  | .interrupt r => s.interrupt r
  | .wakeup => s

end Calls

/-- Worker `w` runs its callback for at most `fuel` steps, with no other thread moving and the
environment answering each operation as `o` says. -/
def runCallback (route : Q → Except String H) (w : Fin kNumThreads) (o : Outcomes Q) :
    Nat → CvdServer Q H → Option (CvdServer Q H)
  | 0, s => some s
  | fuel + 1, s =>
      if 0 < (s.threads w).rank then
        (s.step route (.worker w (o.input (s.threads w)))).bind (runCallback route w o fuel)
      else some s

variable {s t : CvdServer Q H} {route : Q → Except String H} {w : Fin kNumThreads}
  {o : Outcomes Q} {fd : Fd}

/-- A callback run alone is a run of the server. -/
theorem runCallback_reachableFrom {n : Nat} (ran : s.runCallback route w o n = some t) :
    ReachableFrom route s t := by
  induction n generalizing s with
  | zero => cases ran; exact .refl
  | succ n ih =>
      simp only [runCallback] at ran
      split at ran
      · obtain ⟨s', stepped, rest⟩ := Option.bind_eq_some.mp ran
        exact (ih rest).head stepped
      · cases ran; exact .refl

/-! ## Moving a thread commutes with the other updates -/

theorem setStage_self (w : Fin kNumThreads) (s : CvdServer Q H) :
    s.setStage w (s.threads w) = s := by
  simp only [setStage, Function.update_eq_self]

theorem setStage_setStage (a b : Stage Q) : (s.setStage w a).setStage w b = s.setStage w b := by
  simp only [setStage, Function.update_idem]

theorem countRead_setStage (a : Stage Q) :
    (s.setStage w a).countRead fd = (s.countRead fd).setStage w a := rfl

theorem countServed_setStage (a : Stage Q) :
    (s.setStage w a).countServed fd = (s.countServed fd).setStage w a := rfl

theorem newRequest_setStage (a : Stage Q) (handler : H) :
    (s.setStage w a).newRequest fd handler = (s.newRequest fd handler).setStage w a := rfl

theorem setPool_setStage (a : Stage Q) (table : Table) :
    (s.setStage w a).setPool table = (s.setPool table).setStage w a := rfl

theorem updateRequest_setStage (a : Stage Q) (r : Nat) (f : SharedState H → SharedState H) :
    (s.setStage w a).updateRequest r f = (s.updateRequest r f).setStage w a := rfl

theorem acceptFd_setStage (a : Stage Q) : (s.setStage w a).acceptFd = s.acceptFd.setStage w a := rfl

theorem stop_setStage (a : Stage Q) : (s.setStage w a).stop = s.stop.setStage w a := rfl

theorem epollPool_setStage (a : Stage Q) : (s.setStage w a).epollPool = s.epollPool := rfl

theorem epollPool_countRead : (s.countRead fd).epollPool = s.epollPool := rfl

theorem epollPool_countServed : (s.countServed fd).epollPool = s.epollPool := rfl

theorem epollPool_updateRequest (r : Nat) (f : SharedState H → SharedState H) :
    (s.updateRequest r f).epollPool = s.epollPool := rfl

theorem epollPool_setPool (table : Table) : (s.setPool table).epollPool = table := rfl

theorem epollPool_acceptFd : s.acceptFd.epollPool = s.epollPool := rfl

/-! ## One step at a time -/

theorem runCallback_busy {stage : Stage Q} (busy : 0 < stage.rank) (n : Nat) :
    (s.setStage w stage).runCallback route w o (n + 1) =
      ((s.setStage w stage).step route (.worker w (o.input stage))).bind
        (runCallback route w o n) := by
  rw [runCallback]
  simp only [setStage_threads, Function.update_same, busy, if_true]

theorem runCallback_handleMessage (m : MessageStage Q) (n : Nat) :
    (s.setStage w (.handleMessage fd m)).runCallback route w o (n + 1) =
      ((s.setStage w (.handleMessage fd m)).step route (.worker w (o.messageInput m))).bind
        (runCallback route w o n) :=
  runCallback_busy (show 0 < (Stage.handleMessage fd m).rank from m.rank_pos) n

theorem runCallback_checkRunning (n : Nat) :
    (s.setStage w .checkRunning).runCallback route w o n = some (s.setStage w .checkRunning) := by
  cases n <;> simp only [runCallback, setStage_threads, Function.update_same, Stage.rank,
    lt_irrefl, if_false]

/-! ## Each callback -/

section Alive

variable (alive : s.aborted = false)
include alive

/-- `AcceptClient` run alone is its sequential code. -/
theorem runCallback_acceptClient {events : Events} (n : Nat) :
    (s.setStage w (.acceptClient fd events)).runCallback route w o (n + 4) =
      some ((s.acceptClientCall fd events o).setStage w .checkRunning) := by
  rcases o with ⟨accepted, clientRegistered, listenerRegistered, read, armed, handled, sent,
    handedBack⟩
  rcases events with ⟨epollin, epollhup⟩
  cases epollin <;> cases accepted
  on_goal 4 =>
    rcases registered : register s.epollPool (.client s.clients) messageRegistration
      clientRegistered with _ | table
    on_goal 2 => cases relistened : register table fd acceptRegistration listenerRegistered
  all_goals simp only [runCallback_busy, runCallback_checkRunning, Outcomes.input, Stage.rank,
    Nat.succ_pos,
    CvdServer.step, CvdServer.workerStep, acceptClientCall,
    setStage_threads, Function.update_same, setStage_aborted, acceptFd_aborted, setPool_aborted,
    stop_aborted, alive, Bool.false_eq_true, if_false, if_true, Option.some_bind, setStage_setStage,
    acceptFd_setStage, setPool_setStage, stop_setStage, epollPool_setStage, epollPool_acceptFd,
    epollPool_setPool, setStage_clients, Bool.and_true, Bool.and_false, Bool.not_true,
    Bool.not_false, *]

/-- Lines 203 to 223 of `HandleMessage` run alone are their sequential code. -/
theorem runCallback_routed (r : Nat) (n : Nat) :
    (s.setStage w (.handleMessage fd (.registerInterrupt r))).runCallback route w o (n + 9) =
      some ((s.routedCall fd r o).setStage w .checkRunning) := by
  rcases o with ⟨accepted, clientRegistered, listenerRegistered, read, armed, handled, sent,
    handedBack⟩
  rcases registered : register s.epollPool fd (interruptRegistration r) armed with _ | table
  on_goal 2 =>
    cases handled <;> cases sent
    on_goal 4 =>
      rcases removed : remove table fd with _ | table'
      on_goal 2 => cases reregistered : register table' fd messageRegistration handedBack
  all_goals simp only [runCallback_handleMessage, runCallback_checkRunning, Outcomes.messageInput,
    CvdServer.step, CvdServer.workerStep, CvdServer.handleMessage, routedCall, removeIgnored,
    callHandle, clearHandler, destroyInjector, setStage_threads, Function.update_same,
    setStage_aborted, setPool_aborted, updateRequest_aborted, countServed_aborted,
    Bool.false_eq_true, if_false, if_true, Option.some_bind, setStage_setStage, setPool_setStage,
    updateRequest_setStage, countServed_setStage, epollPool_setStage, epollPool_setPool,
    epollPool_updateRequest, epollPool_countServed, Bool.not_false, Bool.not_true, Bool.and_true,
    Bool.and_false, *]

/-- A call that reads a request `route` takes reaches the interrupt registration of line 204
in three steps, with the request's state created. -/
theorem runCallback_routeTo {events : Events} {request : Q} {handler : H}
    (hup : events.epollhup = false) (hin : events.epollin = true)
    (read : o.read = .ok (some request)) (routed : route request = .ok handler) (n : Nat) :
    (s.setStage w (.handleMessage fd (.start events))).runCallback route w o (n + 3) =
      (((s.countRead fd).newRequest fd handler).setStage w
        (.handleMessage fd (.registerInterrupt s.routed))).runCallback route w o n := by
  simp only [runCallback_handleMessage, Outcomes.messageInput, CvdServer.step,
    CvdServer.workerStep, CvdServer.handleMessage, setStage_threads, Function.update_same,
    setStage_aborted, countRead_aborted, Bool.false_eq_true, if_false, if_true, Option.some_bind,
    setStage_setStage, countRead_setStage, newRequest_setStage, setStage_routed,
    countRead_routed, *]

/-- `HandleMessage` run alone is its sequential code. -/
theorem runCallback_start {events : Events} (n : Nat) :
    (s.setStage w (.handleMessage fd (.start events))).runCallback route w o (n + 12) =
      some ((s.handleMessageCall route fd events o).setStage w .checkRunning) := by
  rcases events with ⟨epollin, epollhup⟩
  cases epollhup <;> cases epollin
  on_goal 2 =>
    rcases read : o.read with _ | _ | request
    on_goal 3 =>
      rcases routed : route request with _ | handler
      on_goal 2 =>
        rw [runCallback_routeTo alive rfl rfl read routed (n + 9),
          runCallback_routed (by simpa using alive)]
        simp only [handleMessageCall, read, routed, countRead_routed, Bool.not_true,
          Bool.false_eq_true, if_false]
  all_goals simp only [runCallback_handleMessage, runCallback_checkRunning,
    Outcomes.messageInput, CvdServer.step, CvdServer.workerStep, CvdServer.handleMessage,
    handleMessageCall, removeIgnored, setStage_threads, Function.update_same, setStage_aborted,
    setPool_aborted, countRead_aborted, Bool.false_eq_true, if_false, if_true, Option.some_bind,
    setStage_setStage, setPool_setStage, countRead_setStage, epollPool_setStage,
    epollPool_setPool, epollPool_countRead, Bool.not_false, Bool.not_true, *]

/-- `interrupt_cb` run alone is `interrupt`. -/
theorem runCallback_interrupt (r : Nat) (n : Nat) :
    (s.setStage w (.interruptCallback r)).runCallback route w o (n + 1) =
      some ((s.interrupt r).setStage w .checkRunning) := by
  simp only [runCallback_busy (show 0 < (Stage.interruptCallback r : Stage Q).rank from
    Nat.zero_lt_one) n, Outcomes.input, CvdServer.step,
    CvdServer.workerStep, setStage_threads, Function.update_same, setStage_aborted, alive,
    Bool.false_eq_true, if_false, Option.some_bind, interrupt, updateRequest_setStage,
    setStage_setStage, runCallback_checkRunning]

/-- Every callback runs as its sequential code. Take a worker that `HandleEvent` has just handed
an event on `fd` for `callback`, in a state where no `CHECK` has failed. If no other thread moves
and the environment answers each operation as `o` says, the worker is back at its loop test
after at most 12 steps of its own, and the server is where the sequential code of the callback
leaves it. That state is reachable from the first, so every invariant of the server holds of
it. -/
theorem callbacks_sequential {events : Events} {callback : Callback}
    (hw : s.threads w = Stage.ofCallback fd events callback) (o : Outcomes Q) :
    s.runCallback route w o 12 =
        some ((s.callbackCall route fd events o callback).setStage w .checkRunning) ∧
      ReachableFrom route s
        ((s.callbackCall route fd events o callback).setStage w .checkRunning) := by
  have ran : s.runCallback route w o 12 =
      some ((s.callbackCall route fd events o callback).setStage w .checkRunning) := by
    conv_lhs => rw [← setStage_self w s, hw]
    cases callback with
    | acceptClient => exact runCallback_acceptClient alive 8
    | handleMessage => exact runCallback_start alive 0
    | interrupt r => exact runCallback_interrupt alive r 11
    | wakeup => exact runCallback_checkRunning 12
  exact ⟨ran, runCallback_reachableFrom ran⟩

end Alive

end CvdServer

/-- The answers under which a request is served to the end. -/
def servedOutcomes : Outcomes Unit := ⟨true, true, true, .ok (some ()), true, true, true, true⟩

theorem callbacks_sequential_served :
    dispatchedServer.aborted = false ∧
      dispatchedServer.threads firstWorker =
        Stage.ofCallback (.client 0) ⟨true, false⟩ .handleMessage ∧
      dispatchedServer.runCallback routeAll firstWorker servedOutcomes 12 =
        some ((dispatchedServer.callbackCall routeAll (.client 0) ⟨true, false⟩ servedOutcomes
          .handleMessage).setStage firstWorker .checkRunning) ∧
      ReachableFrom routeAll dispatchedServer
        ((dispatchedServer.callbackCall routeAll (.client 0) ⟨true, false⟩ servedOutcomes
          .handleMessage).setStage firstWorker .checkRunning) :=
  ⟨by decide, by decide, CvdServer.callbacks_sequential (by decide) (by decide) servedOutcomes⟩

example : (dispatchedServer.handleMessageCall routeAll (.client 0) ⟨true, false⟩
    servedOutcomes).epollPool (.client 0) = some messageRegistration := by
  decide

end Cvd
end Cuttlefish
