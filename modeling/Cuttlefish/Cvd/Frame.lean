import Cuttlefish.Cvd.Reachable

/-!
# What a step leaves alone

A step of `HandleMessage` touches only its own descriptor and its own thread; only a
descriptor's owner, or the dispatch of its event, changes its registration; only
`AcceptClient` creates connections; and no step sets `running_` back to true.

Two properties that, once they hold, hold for the rest of the run: a request whose handler
has been cleared never gets another `Interrupt()` call, and a connection that has been dropped
is never registered or owned again. Each is checked against every transition of the server,
and then carried along every run by induction.
-/

namespace Cuttlefish
namespace Cvd
namespace CvdServer

open Epoll

variable {Q H : Type} {s s' : CvdServer Q H} {route : Q → Except String H} {r k : Nat}
  {w : Fin kNumThreads} {fd fd' : Fd} {before after : Stage Q}

/-! ## Frames -/

/-- A step of `HandleMessage` on `fd` changes the registration of no other descriptor, and of
`fd` only while the call owns it; it moves no other thread and accepts no connection. -/
theorem handleMessage_frame {m : MessageStage Q} {input : Input Q}
    (stepped : s.handleMessage route w fd m input = some s') :
    (∀ fd', fd' ≠ fd ∨ ¬ m.holds → s'.epollPool fd' = s.epollPool fd') ∧
      (∀ v, v ≠ w → s'.threads v = s.threads v) ∧ s'.clients = s.clients := by
  cases m <;> cases input <;> simp only [CvdServer.handleMessage, reduceCtorEq] at stepped <;>
    cases stepped
  all_goals refine ⟨fun fd' other => ?_, fun v other => ?_, ?_⟩
  all_goals (repeat' split) <;> simp_all [callHandle, clearHandler, destroyInjector,
    removeIgnored, remove_getD, Function.update_noteq]
  all_goals first | exact register_apply_ne ‹_› other | exact remove_apply_ne ‹_› other

theorem handleMessage_stopped {m : MessageStage Q} {input : Input Q} (stopped : s.running = false)
    (stepped : s.handleMessage route w fd m input = some s') : s'.running = false := by
  cases m <;> cases input <;> simp only [CvdServer.handleMessage, reduceCtorEq] at stepped <;>
    cases stepped
  all_goals (repeat' split) <;> first | exact stopped | rfl

/-- No step sets `running_` back to true: only `Stop()` and `~CvdServer` write it. -/
theorem step_stopped {a : Action Q} (stopped : s.running = false)
    (stepped : s.step route a = some s') : s'.running = false := by
  cases a with
  | worker w input =>
      simp only [CvdServer.step] at stepped
      split at stepped
      · cases stepped
      · generalize s.threads w = stage at stepped
        cases stage <;> cases input <;> simp only [CvdServer.workerStep, reduceCtorEq] at stepped
        case handleMessage.step | handleMessage.event | handleMessage.request
          | handleMessage.stop =>
          exact handleMessage_stopped stopped stepped
        case inHandleEvent.event =>
          obtain ⟨registration, -, rfl⟩ := Option.map_eq_some'.mp stepped
          exact stopped
        all_goals cases stepped
        all_goals (repeat' split) <;> first | exact stopped | rfl | simp [stopped]
  | main input =>
      simp only [CvdServer.step] at stepped
      split at stepped
      · cases stepped
      · generalize s.main = stage at stepped
        cases stage <;> cases input <;> simp only [CvdServer.mainStep, reduceCtorEq] at stepped
        all_goals (repeat' split at stepped) <;> cases stepped
        all_goals first | exact stopped | rfl | simp [stopped]

/-- `BestEffortWakeup` registers only its fresh eventfd. -/
theorem epollPool_bestEffortWakeup (ok : Bool) (notEvent : ∀ n, fd ≠ .event n) :
    (s.bestEffortWakeup ok).epollPool fd = s.epollPool fd := by
  unfold CvdServer.bestEffortWakeup
  split
  · exact register_apply_ne ‹_› (notEvent _)
  · rfl

/-- A step of `HandleMessage` changes a registration only of the descriptor its call owns. -/
theorem epollPool_handleMessage {fd' : Fd} {m : MessageStage Q} {input : Input Q}
    (hw : s.threads w = .handleMessage fd' m)
    (stepped : s.handleMessage route w fd' m input = some s') (fd : Fd) :
    s'.epollPool fd = s.epollPool fd ∨ ∃ w, (s.threads w).holds fd := by
  by_cases owned : fd = fd' ∧ m.holds
  · exact .inr ⟨w, by rw [hw]; exact owned⟩
  · exact .inl ((handleMessage_frame stepped).1 fd (not_and_or.mp owned))

/-- Only two things change a descriptor's registration: `HandleEvent` consuming it for the
thread it dispatches to, and a `Register` or `Remove` by the party that owns it. That is the
thread holding it, the main thread starting the server, or `BestEffortWakeup` with its fresh
eventfd. -/
theorem epollPool_step {a : Action Q} (stepped : s.step route a = some s') (fd : Fd) :
    s'.epollPool fd = s.epollPool fd ∨
    (∃ w events registration, s.threads w = .inHandleEvent ∧
      s.epollPool fd = some registration ∧ s'.epollPool fd = none ∧
      s'.threads w = Stage.ofCallback fd events registration.callback) ∨
    (∃ w, (s.threads w).holds fd) ∨ (∃ n, fd = .event n) ∨
    (s.main = .startServer ∧ fd = .server) := by
  have wakeup : ∀ ok, (s.bestEffortWakeup ok).epollPool fd = s.epollPool fd ∨
      ∃ n, fd = .event n := fun ok => by
    by_cases event : ∃ n, fd = .event n
    · exact .inr event
    · exact .inl (epollPool_bestEffortWakeup ok fun n same => event ⟨n, same⟩)
  cases a with
  | worker w input =>
      simp only [CvdServer.step] at stepped
      split at stepped
      · cases stepped
      · generalize hw : s.threads w = stage at stepped
        cases stage <;> cases input <;> simp only [CvdServer.workerStep, reduceCtorEq] at stepped
        case handleMessage.step | handleMessage.event | handleMessage.request
          | handleMessage.stop =>
          exact (epollPool_handleMessage hw stepped fd).imp id fun owned => .inr (.inl owned)
        case inHandleEvent.event fd' events =>
          obtain ⟨registration, registered, rfl⟩ := Option.map_eq_some'.mp stepped
          by_cases same : fd = fd'
          · subst same
            exact .inr (.inl ⟨w, events, registration, hw, registered, by simp [consume], by simp⟩)
          · exact .inl (by simp [consume, same])
        all_goals cases stepped
        case registerClient.step.refl fd' n ok =>
          split
          · rename_i registered
            by_cases same : fd = .client n
            · exact .inr (.inr (.inl ⟨w, by rw [hw]; exact .inr same⟩))
            · exact .inl (register_apply_ne registered same)
          · exact .inl rfl
        case registerListener.step.refl fd' ok =>
          split
          · rename_i registered
            by_cases same : fd = fd'
            · exact .inr (.inr (.inl ⟨w, by rw [hw]; exact same⟩))
            · exact .inl (register_apply_ne registered same)
          · exact .inl rfl
        case bestEffortWakeup.step.refl =>
          exact (wakeup _).imp id fun event => .inr (.inr (.inl event))
        all_goals first | exact .inl rfl | (split <;> exact .inl rfl)
  | main input =>
      simp only [CvdServer.step] at stepped
      split at stepped
      · cases stepped
      · generalize s.main = stage at stepped
        cases stage <;> cases input <;> simp only [CvdServer.mainStep, reduceCtorEq] at stepped
        case join.step =>
          split at stepped
          · cases stepped; exact .inl rfl
          · cases stepped
        all_goals cases stepped
        case startServer.step.refl ok =>
          by_cases same : fd = .server
          · exact .inr (.inr (.inr (.inr ⟨rfl, same⟩)))
          · cases registered : register s.epollPool .server acceptRegistration ok with
            | none => exact .inl (by simp [registered])
            | some table => exact .inl (by simp [registered, register_apply_ne registered same])
        case destructorWakeup.step.refl =>
          exact (wakeup _).imp id fun event => .inr (.inr (.inl event))
        all_goals exact .inl rfl

@[simp] theorem clients_bestEffortWakeup (ok : Bool) :
    (s.bestEffortWakeup ok).clients = s.clients := by
  unfold CvdServer.bestEffortWakeup
  split <;> rfl

/-- Only `SharedFD::Accept` in `AcceptClient` creates a connection: one at a time, owned by
the thread that accepted it, with the pool unchanged. -/
theorem clients_step {a : Action Q} (stepped : s.step route a = some s') :
    s'.clients = s.clients ∨ (s'.clients = s.clients + 1 ∧ s'.epollPool = s.epollPool ∧
      ∃ w fd, s'.threads w = .registerClient fd s.clients) := by
  cases a with
  | worker w input =>
      simp only [CvdServer.step] at stepped
      split at stepped
      · cases stepped
      · generalize s.threads w = stage at stepped
        cases stage <;> cases input <;> simp only [CvdServer.workerStep, reduceCtorEq] at stepped
        case handleMessage.step | handleMessage.event | handleMessage.request
          | handleMessage.stop =>
          exact .inl (handleMessage_frame stepped).2.2
        case inHandleEvent.event =>
          obtain ⟨registration, -, rfl⟩ := Option.map_eq_some'.mp stepped
          exact .inl rfl
        all_goals cases stepped
        case acceptClient.step.refl fd events ok =>
          split
          · exact .inr ⟨rfl, rfl, w, fd, by simp⟩
          · exact .inl rfl
        all_goals (repeat' split) <;> first | exact .inl rfl | exact .inl (by simp)
  | main input =>
      simp only [CvdServer.step] at stepped
      split at stepped
      · cases stepped
      · generalize s.main = stage at stepped
        cases stage <;> cases input <;> simp only [CvdServer.mainStep, reduceCtorEq] at stepped
        all_goals (repeat' split at stepped) <;> cases stepped
        all_goals first | exact .inl rfl | exact .inl (by simp)

/-! ## A cleared handler -/

/-- The handler of request `r` has been cleared (line 211), and `k` calls of `Interrupt()`
have started for the request. -/
def Cleared (s : CvdServer Q H) (r k : Nat) : Prop :=
  ∃ shared, s.requests r = some shared ∧ shared.handler = none ∧ shared.interrupts = k

/-- An update of the request's `SharedState` keeps it cleared when it never sets a cleared
handler and never counts an `Interrupt()` for one. -/
theorem Cleared.updateRequest {r' : Nat} {f : SharedState H → SharedState H}
    (cleared : s.Cleared r k)
    (keeps : ∀ shared, shared.handler = none →
      (f shared).handler = none ∧ (f shared).interrupts = shared.interrupts) :
    (s.updateRequest r' f).Cleared r k := by
  obtain ⟨shared, routed, unset, count⟩ := cleared
  by_cases same : r = r'
  · subst same
    exact ⟨f shared, by simp [routed], (keeps shared unset).1, (keeps shared unset).2.trans count⟩
  · exact ⟨shared, by simp [same, routed], unset, count⟩

theorem Cleared.clearHandler (cleared : s.Cleared r k) (r' : Nat) :
    (s.clearHandler r').Cleared r k :=
  cleared.updateRequest fun _ _ => ⟨rfl, rfl⟩

theorem Cleared.destroyInjector (cleared : s.Cleared r k) (r' : Nat) :
    (s.destroyInjector r').Cleared r k :=
  cleared.updateRequest fun _ unset => ⟨unset, rfl⟩

theorem Cleared.callHandle (cleared : s.Cleared r k) (r' : Nat) : (s.callHandle r').Cleared r k :=
  cleared.updateRequest fun _ unset => ⟨unset, rfl⟩

/-- `interrupt_cb` finds a cleared handler and calls nothing. -/
theorem Cleared.interrupt (cleared : s.Cleared r k) (r' : Nat) : (s.interrupt r').Cleared r k := by
  unfold CvdServer.interrupt
  exact cleared.updateRequest fun shared unset => by simp [unset]

/-- Routing creates a fresh `SharedState` at a new index. -/
theorem Cleared.newRequest (cleared : s.Cleared r k) (fresh : s.requests s.routed = none)
    (fd : Fd) (handler : H) : (s.newRequest fd handler).Cleared r k := by
  obtain ⟨shared, routed, rest⟩ := cleared
  have old : r ≠ s.routed := by rintro rfl; rw [fresh] at routed; cases routed
  exact ⟨shared, by rw [requests_newRequest, if_neg old, routed], rest⟩

/-- No step of `HandleMessage` sets a cleared handler again or counts an `Interrupt()`. -/
theorem Cleared.handleMessage {m : MessageStage Q} {input : Input Q} (cleared : s.Cleared r k)
    (fresh : s.requests s.routed = none)
    (stepped : s.handleMessage route w fd m input = some s') : s'.Cleared r k := by
  cases m <;> cases input <;> simp only [CvdServer.handleMessage, reduceCtorEq] at stepped <;>
    cases stepped
  case requestHandler.step =>
    split
    · exact cleared.newRequest fresh _ _
    · exact cleared
  case callHandle.step => exact cleared.callHandle _
  case clearHandler.step => exact cleared.clearHandler _
  case cancel.step => exact cleared.destroyInjector _
  case unwind.step => exact cleared.destroyInjector _
  all_goals first
    | exact cleared
    | (split <;> first | exact cleared | (split <;> exact cleared))

theorem Cleared.bestEffortWakeup (cleared : s.Cleared r k) (ok : Bool) :
    (s.bestEffortWakeup ok).Cleared r k := by
  unfold CvdServer.bestEffortWakeup
  split <;> exact cleared

/-- No step of the server sets a cleared handler again or counts an `Interrupt()` for it. -/
theorem Cleared.step (cleared : s.Cleared r k) (fresh : s.requests s.routed = none)
    {a : Action Q} (stepped : s.step route a = some s') : s'.Cleared r k := by
  cases a with
  | worker w input =>
      simp only [CvdServer.step] at stepped
      split at stepped
      · cases stepped
      · generalize s.threads w = stage at stepped
        cases stage <;> cases input <;> simp only [CvdServer.workerStep, reduceCtorEq] at stepped
        case handleMessage.step | handleMessage.event | handleMessage.request
          | handleMessage.stop =>
          exact cleared.handleMessage fresh stepped
        case inHandleEvent.event =>
          obtain ⟨_, _, rfl⟩ := Option.map_eq_some'.mp stepped
          exact cleared
        all_goals cases stepped
        case interruptCallback.step.refl => exact cleared.interrupt _
        case bestEffortWakeup.step.refl => exact cleared.bestEffortWakeup _
        all_goals first
          | exact cleared
          | (split <;> exact cleared)
  | main input =>
      simp only [CvdServer.step] at stepped
      split at stepped
      · cases stepped
      · generalize s.main = stage at stepped
        cases stage <;> cases input <;> simp only [CvdServer.mainStep, reduceCtorEq] at stepped
        case join.step =>
          split at stepped
          · cases stepped; exact cleared
          · cases stepped
        all_goals cases stepped
        case destructorWakeup.step.refl => exact cleared.bestEffortWakeup _
        all_goals exact cleared

/-! ## A dropped connection -/

/-- A connection nobody can use any more: it has no live registration, no thread owns it, and
it was accepted already, so `Accept` does not hand it out again. -/
def Dropped (s : CvdServer Q H) (fd : Fd) : Prop :=
  s.epollPool fd = none ∧ (∀ w, ¬ (s.threads w).holds fd) ∧ ∃ n, fd = .client n ∧ n < s.clients

theorem Dropped.ne_of_holds (dropped : s.Dropped fd) (held : (s.threads w).holds fd') :
    fd' ≠ fd := by
  rintro rfl
  exact dropped.2.1 w held

/-- A move that takes no descriptor keeps a connection dropped. -/
theorem Dropped.setStage (dropped : s.Dropped fd) (hw : s.threads w = before)
    (keeps : after.holds fd → before.holds fd) : (s.setStage w after).Dropped fd :=
  ⟨dropped.1, (Function.forall_update_iff _ fun _ (stage : Stage Q) => ¬ stage.holds fd).mpr
    ⟨fun held => dropped.2.1 w (hw ▸ keeps held), fun v _ => dropped.2.1 v⟩, dropped.2.2⟩

theorem Dropped.setPool (dropped : s.Dropped fd) {table : Table} (unregistered : table fd = none) :
    (s.setPool table).Dropped fd :=
  ⟨unregistered, dropped.2.1, dropped.2.2⟩

/-- Only the owner of a descriptor registers it. -/
theorem Dropped.registerHeld (dropped : s.Dropped fd) (held : (s.threads w).holds fd')
    (registration : Option Registration) :
    (s.setPool (Function.update s.epollPool fd' registration)).Dropped fd :=
  dropped.setPool (by rw [Function.update_noteq (dropped.ne_of_holds held).symm]; exact dropped.1)

theorem Dropped.unregister (dropped : s.Dropped fd) (fd' : Fd) :
    (s.setPool (Function.update s.epollPool fd' none)).Dropped fd :=
  dropped.setPool (by
    by_cases same : fd = fd'
    · subst same; simp
    · simp [same, dropped.1])

theorem Dropped.acceptFd (dropped : s.Dropped fd) : s.acceptFd.Dropped fd := by
  obtain ⟨unregistered, unheld, n, rfl, accepted⟩ := dropped
  exact ⟨unregistered, unheld, n, rfl, by simp; omega⟩

theorem Dropped.bestEffortWakeup (dropped : s.Dropped fd) (ok : Bool) :
    (s.bestEffortWakeup ok).Dropped fd := by
  unfold CvdServer.bestEffortWakeup
  split
  · rename_i registered
    obtain ⟨-, -, rfl⟩ := register_eq_some registered
    obtain ⟨unregistered, unheld, n, rfl, accepted⟩ := dropped
    exact ⟨by simpa using unregistered, unheld, n, rfl, by simpa using accepted⟩
  · exact dropped

/-- No step of `HandleMessage` registers or takes a dropped connection. -/
theorem Dropped.handleMessage {m : MessageStage Q} {input : Input Q} (dropped : s.Dropped fd)
    (hw : s.threads w = .handleMessage fd' m)
    (stepped : s.handleMessage route w fd' m input = some s') : s'.Dropped fd := by
  have held : m.holds → (s.threads w).holds fd' := fun holds => by rw [hw]; exact ⟨rfl, holds⟩
  cases m <;> cases input <;> simp only [CvdServer.handleMessage, reduceCtorEq] at stepped <;>
    cases stepped
  case registerInterrupt.step.refl =>
    split
    · rename_i registered
      obtain ⟨-, -, rfl⟩ := register_eq_some registered
      exact (dropped.registerHeld (held trivial) _).setStage hw id
    · exact dropped.setStage hw id
  case removeInterrupt.step.refl =>
    split
    · rename_i removed
      obtain ⟨-, rfl⟩ := remove_eq_some removed
      exact (dropped.unregister fd').setStage hw id
    · exact dropped.setStage hw id
  case registerSelf.step.refl =>
    split
    · rename_i registered
      obtain ⟨-, -, rfl⟩ := register_eq_some registered
      exact (dropped.registerHeld (held trivial) _).setStage hw fun released => released.2.elim
    · exact dropped.setStage hw id
  case handle.stop.refl => exact dropped
  case cancel.step.refl => exact dropped.setStage hw False.elim
  case remove.step.refl =>
    rw [CvdServer.removeIgnored, remove_getD]
    exact (dropped.unregister fd').setStage hw id
  case abandonClient.step.refl =>
    rw [CvdServer.removeIgnored, remove_getD]
    exact (dropped.unregister fd').setStage hw False.elim
  all_goals first
    | exact dropped.setStage hw id
    | (split <;> first | exact dropped.setStage hw id | (split <;> exact dropped.setStage hw id))

/-- No step of the server registers or takes a dropped connection. -/
theorem Dropped.step (dropped : s.Dropped fd) {a : Action Q}
    (stepped : s.step route a = some s') : s'.Dropped fd := by
  have notServer : fd ≠ .server := by
    obtain ⟨n, rfl, -⟩ := dropped.2.2
    nofun
  cases a with
  | worker w input =>
      simp only [CvdServer.step] at stepped
      split at stepped
      · cases stepped
      · generalize hw : s.threads w = stage at stepped
        cases stage <;> cases input <;> simp only [CvdServer.workerStep, reduceCtorEq] at stepped
        case handleMessage.step | handleMessage.event | handleMessage.request
          | handleMessage.stop =>
          exact dropped.handleMessage hw stepped
        case inHandleEvent.event fd' events =>
          obtain ⟨registration, registered, rfl⟩ := Option.map_eq_some'.mp stepped
          have other : fd ≠ fd' := by rintro rfl; rw [dropped.1] at registered; cases registered
          exact (dropped.unregister fd').setStage hw fun held =>
            absurd (Stage.ofCallback_holds held) other
        all_goals cases stepped
        case acceptClient.step.refl =>
          split
          · refine dropped.acceptFd.setStage hw fun held => held.resolve_right fun fresh => ?_
            obtain ⟨n, rfl, accepted⟩ := dropped.2.2
            cases fresh
            exact absurd accepted (lt_irrefl _)
          · exact dropped.setStage hw id
        case registerClient.step.refl =>
          split
          · rename_i registered
            obtain ⟨-, -, rfl⟩ := register_eq_some registered
            exact (dropped.registerHeld (w := w) (by rw [hw]; exact .inr rfl) _).setStage hw .inl
          · exact dropped.setStage hw .inl
        case registerListener.step.refl =>
          split
          · rename_i registered
            obtain ⟨-, -, rfl⟩ := register_eq_some registered
            exact (dropped.registerHeld (w := w) (by rw [hw]; rfl) _).setStage hw False.elim
          · exact dropped.setStage hw id
        case bestEffortWakeup.step.refl =>
          exact (dropped.bestEffortWakeup _).setStage
            (show (s.bestEffortWakeup _).threads w = .bestEffortWakeup by simp [hw]) False.elim
        all_goals first
          | exact dropped.setStage hw False.elim
          | (split <;> exact dropped.setStage hw False.elim)
  | main input =>
      simp only [CvdServer.step] at stepped
      split at stepped
      · cases stepped
      · generalize s.main = stage at stepped
        cases stage <;> cases input <;> simp only [CvdServer.mainStep, reduceCtorEq] at stepped
        case join.step =>
          split at stepped
          · cases stepped; exact dropped
          · cases stepped
        all_goals cases stepped
        case startServer.step.refl ok =>
          cases registered : register s.epollPool .server acceptRegistration ok with
          | none => exact dropped
          | some table =>
              obtain ⟨-, -, rfl⟩ := register_eq_some registered
              exact dropped.setPool (by simpa [notServer] using dropped.1)
        case destructorWakeup.step.refl => exact dropped.bestEffortWakeup _
        all_goals exact dropped

end CvdServer

variable {Q H : Type} {route : Q → Except String H} {s t : CvdServer Q H}

/-- Once its handler is cleared, a request gets no further `Interrupt()` call in any run. -/
theorem ReachableFrom.cleared (inv : s.Invariant) {r k : Nat} (cleared : s.Cleared r k)
    (from_s : ReachableFrom route s t) : t.Cleared r k := by
  induction from_s with
  | refl => exact cleared
  | step from_s_t stepped cleared_t =>
      exact cleared_t.step
        ((ReachableFrom.preserves_invariant inv from_s_t).freshRequest _ le_rfl) stepped

/-- A dropped connection stays dropped in every run. -/
theorem ReachableFrom.dropped {fd : Epoll.Fd} (dropped : s.Dropped fd)
    (from_s : ReachableFrom route s t) : t.Dropped fd := by
  induction from_s with
  | refl => exact dropped
  | step _ stepped dropped_t => exact dropped_t.step stepped

end Cvd
end Cuttlefish
