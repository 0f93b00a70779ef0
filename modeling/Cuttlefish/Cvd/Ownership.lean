import Cuttlefish.Cvd.Server

/-!
# Who holds a descriptor

The server never locks a descriptor. It relies on a convention instead: the registration of a
descriptor is consumed when its event is dispatched, so the thread running the callback owns
the descriptor until it registers it again or drops it. This module names, for each program
point of a thread, the descriptors it owns, the request whose interrupt registration it may
have made, the request it has yet to call `Handle` for, and whether it is awake for the
shutdown cascade. `Stage.Keeps` says when a
thread may move between two program points without claiming anything new, and
`Stage.Follows` when it does so without touching shared state at all.
-/

namespace Cuttlefish
namespace Cvd

open Epoll

variable {Q : Type}

namespace MessageStage

/-- The call still owns its descriptor: it has not yet handed it back with the `Register` at
line 219. -/
@[simp] def holds : MessageStage Q → Prop
  | .cancel _ => False
  | _ => True

instance (m : MessageStage Q) : Decidable m.holds :=
  decidable_of_iff (!(m matches .cancel _)) (by cases m <;> simp)

/-- The interrupt registration of request `r` may be live: the call is past the `Register`
at line 204 and has not removed the registration (line 213, or the guard on an early
return). -/
@[simp] def armed (r : Nat) : MessageStage Q → Prop
  | .callHandle r' | .handle r' | .sendResponse r' | .clearHandler r' | .removeInterrupt r'
  | .unwind r' => r' = r
  | .abandonClient (some r') => r' = r
  | _ => False

/-- The call has routed request `r` and has not called `Handle` for it yet. -/
@[simp] def beforeHandle (r : Nat) : MessageStage Q → Prop
  | .registerInterrupt r' | .callHandle r' => r' = r
  | _ => False

/-- The request the call routed, if it got that far. -/
@[simp] def request : MessageStage Q → Option Nat
  | .registerInterrupt r | .callHandle r | .handle r | .sendResponse r | .clearHandler r
  | .removeInterrupt r | .registerSelf r | .cancel r | .unwind r => some r
  | .abandonClient r => r
  | _ => none

/-- Requests this call has started to read and not yet served, on the paths that can still
succeed; failure paths drop the connection and are left unconstrained. -/
@[simp] def unserved : MessageStage Q → Option Nat
  | .start _ | .registerSelf _ => some 0
  | .getRequest | .requestHandler _ | .registerInterrupt _ | .callHandle _ | .handle _
  | .sendResponse _ | .clearHandler _ | .removeInterrupt _ => some 1
  | _ => none

end MessageStage

namespace Stage

/-- The descriptors a thread owns at this program point. `AcceptClient` owns the listener
until it re-registers it, and the accepted descriptor until it registers that. -/
@[simp] def holds : Stage Q → Fd → Prop
  | .acceptClient fd _, x | .registerListener fd, x | .stopOnFailure fd, x => x = fd
  | .registerClient fd n, x => x = fd ∨ x = .client n
  | .handleMessage fd m, x => x = fd ∧ m.holds
  | _, _ => False

instance (stage : Stage Q) (x : Fd) : Decidable (stage.holds x) :=
  match stage with
  | .acceptClient fd _ | .registerListener fd | .stopOnFailure fd => decEq x fd
  | .registerClient _ _ => instDecidableOr
  | .handleMessage _ _ => instDecidableAnd
  | .checkRunning | .enterHandleEvent | .inHandleEvent | .interruptCallback _
  | .bestEffortWakeup | .finished => instDecidableFalse

/-- The interrupt registration of request `r` on `fd` may be live for this thread's call. -/
@[simp] def armed : Stage Q → Fd → Nat → Prop
  | .handleMessage fd m, x, r => x = fd ∧ m.armed r
  | _, _, _ => False

/-- The thread holds the one interrupt of request `r`: it is about to register it, or it
runs the callback the pool dispatched for it. -/
@[simp] def armHolder : Stage Q → Nat → Prop
  | .handleMessage _ (.registerInterrupt r'), r | .interruptCallback r', r => r' = r
  | _, _ => False

/-- The thread has routed request `r` and has not called `Handle` for it yet. -/
@[simp] def beforeHandle : Stage Q → Nat → Prop
  | .handleMessage _ m, r => m.beforeHandle r
  | _, _ => False

/-- The request a thread works for. -/
@[simp] def request : Stage Q → Option Nat
  | .handleMessage _ m => m.request
  | .interruptCallback r => some r
  | _ => none

/-- The descriptor a `HandleMessage` call works on. -/
@[simp] def conn : Stage Q → Option Fd
  | .handleMessage fd _ => some fd
  | _ => none

/-- Requests started and not yet served on `fd` by this thread. -/
@[simp] def unserved : Stage Q → Fd → Option Nat
  | .registerClient _ n, x => if x = .client n then some 0 else none
  | .handleMessage fd m, x => if x = fd then m.unserved else none
  | _, _ => none

/-- The thread is not blocked in `HandleEvent`: it runs a callback, or it is between the
return of `HandleEvent` and the end of its own `BestEffortWakeup`. -/
@[simp] def awake : Stage Q → Prop
  | .enterHandleEvent | .inHandleEvent | .finished => False
  | _ => True

/-- The descriptors a stage names are of the kind its code expects: `AcceptClient` runs for
the listener, `HandleMessage` for an accepted connection. -/
@[simp] def WellKinded : Stage Q → Prop
  | .acceptClient fd _ | .registerClient fd _ | .registerListener fd | .stopOnFailure fd =>
      fd = .server
  | .handleMessage fd _ => ∃ n, fd = .client n
  | _ => True

/-- A thread moving from `before` to `after` claims nothing new: no descriptor, no interrupt,
no request, no call of `Handle`; and it only goes to sleep while the server runs. -/
structure Keeps (running : Bool) (before after : Stage Q) : Prop where
  holds : ∀ fd, after.holds fd → before.holds fd
  armHolder : ∀ r, after.armHolder r → before.armHolder r
  request : ∀ r, after.request = some r → before.request = some r ∧ after.conn = before.conn
  beforeHandle : ∀ r, after.beforeHandle r → before.beforeHandle r
  awake : before.awake → after.awake ∨ running = true
  wellKinded : before.WellKinded → after.WellKinded
  finished : before = .finished → after = .finished

/-- A move that touches no shared state at all: it claims nothing new, keeps every interrupt
registration it may have live, and starts no read. -/
structure Follows (running : Bool) (before after : Stage Q) extends Keeps running before after :
    Prop where
  armed : ∀ fd r, before.armed fd r → after.armed fd r
  unserved : ∀ fd k, after.unserved fd = some k → before.unserved fd = some k

/-! ## Facts about program points -/

/-- A thread counts unserved reads only on a descriptor it owns. -/
theorem unserved_holds {stage : Stage Q} {fd : Fd} {k : Nat}
    (pending : stage.unserved fd = some k) : stage.holds fd := by
  cases stage with
  | registerClient listener n =>
      simp only [Stage.unserved] at pending
      split at pending
      · exact .inr ‹_›
      · cases pending
  | handleMessage conn m =>
      simp only [Stage.unserved] at pending
      split at pending
      · refine ⟨‹_›, ?_⟩
        cases m <;> simp_all [MessageStage.holds, MessageStage.unserved]
      · cases pending
  | _ => cases pending

/-- A thread answers for an interrupt registration only on a descriptor it owns. -/
theorem armed_holds {stage : Stage Q} {fd : Fd} {r : Nat} (armed : stage.armed fd r) :
    stage.holds fd := by
  cases stage with
  | handleMessage conn m =>
      refine ⟨armed.1, ?_⟩
      cases m <;> first | trivial | exact armed.2.elim
  | _ => exact armed.elim

/-- The thread a callback runs on owns at most the descriptor of its event. -/
theorem ofCallback_holds {fd x : Fd} {events : Events} {callback : Callback}
    (held : (ofCallback fd events callback : Stage Q).holds x) : x = fd := by
  cases callback with
  | acceptClient => exact held
  | handleMessage => exact held.1
  | interrupt r => exact held.elim
  | wakeup => exact held.elim

/-- A thread holds the interrupt of the request it works for. -/
theorem armHolder_request {stage : Stage Q} {r : Nat} (holder : stage.armHolder r) :
    stage.request = some r := by
  cases stage with
  | handleMessage conn m => cases m <;> simp_all
  | interruptCallback r' => simp_all
  | _ => exact holder.elim

/-- A thread is about to call `Handle` only for the request it works for. -/
theorem beforeHandle_request {stage : Stage Q} {r : Nat} (before : stage.beforeHandle r) :
    stage.request = some r := by
  cases stage with
  | handleMessage conn m => cases m <;> simp_all
  | _ => exact before.elim

/-- The descriptors a well-kinded thread owns are the listener and accepted connections. -/
theorem holds_kind {stage : Stage Q} {fd : Fd} (kinded : stage.WellKinded)
    (held : stage.holds fd) : fd = .server ∨ ∃ n, fd = .client n := by
  cases stage with
  | acceptClient listener _ => exact .inl (held.trans kinded)
  | registerClient listener n =>
      rcases held with rfl | rfl
      · exact .inl kinded
      · exact .inr ⟨n, rfl⟩
  | registerListener listener => exact .inl (held.trans kinded)
  | stopOnFailure listener => exact .inl (held.trans kinded)
  | handleMessage conn m => obtain ⟨n, rfl⟩ := kinded; exact .inr ⟨n, held.1⟩
  | _ => exact held.elim

end Stage

/-- At most one thread satisfies `P`, and none does while `claimed` holds. -/
def AtMostOne (threads : Fin kNumThreads → Stage Q) (P : Stage Q → Prop) (claimed : Prop) :
    Prop :=
  (∀ v w, P (threads v) → P (threads w) → v = w) ∧ (claimed → ∀ w, ¬ P (threads w))

namespace AtMostOne

variable {threads : Fin kNumThreads → Stage Q} {P : Stage Q → Prop} {claimed : Prop}

/-- Moving one thread keeps `P` exclusive when the thread takes the resource only from
itself, from the claim, or when nobody held it, and a new claim is made only on what the
claim or the thread held and the thread gives up. -/
theorem update (exclusive : AtMostOne threads P claimed) {w : Fin kNumThreads}
    {after : Stage Q} {claimed' : Prop}
    (acquire : P after → P (threads w) ∨ claimed ∨ ∀ v, ¬ P (threads v))
    (release : claimed' → (claimed ∨ P (threads w)) ∧ ¬ P after) :
    AtMostOne (Function.update threads w after) P claimed' := by
  obtain ⟨unique, unclaimed⟩ := exclusive
  have other : ∀ v, v ≠ w → P (threads v) → ¬ P after := by
    intro v ne held taken
    rcases acquire taken with mine | claim | nobody
    · exact ne (unique v w held mine)
    · exact unclaimed claim v held
    · exact nobody v held
  constructor
  · intro v v' held held'
    by_cases hv : v = w <;> by_cases hv' : v' = w
    · rw [hv, hv']
    · subst hv
      simp only [Function.update_same, Function.update_noteq hv'] at held held'
      exact absurd held (other v' hv' held')
    · subst hv'
      simp only [Function.update_same, Function.update_noteq hv] at held held'
      exact absurd held' (other v hv held)
    · simp only [Function.update_noteq hv, Function.update_noteq hv'] at held held'
      exact unique v v' held held'
  · intro claim v held
    obtain ⟨before, notAfter⟩ := release claim
    by_cases hv : v = w
    · subst hv
      simp only [Function.update_same] at held
      exact notAfter held
    · simp only [Function.update_noteq hv] at held
      rcases before with claim | mine
      · exact unclaimed claim v held
      · exact hv (unique v w held mine)

/-- A weaker claim leaves the threads as exclusive as before. -/
theorem weaken {claimed' : Prop} (exclusive : AtMostOne threads P claimed)
    (weaker : claimed' → claimed) : AtMostOne threads P claimed' :=
  ⟨exclusive.1, fun claim => exclusive.2 (weaker claim)⟩

/-- A move that neither takes nor gives anything. -/
theorem update_of_imp (exclusive : AtMostOne threads P claimed) {w : Fin kNumThreads}
    {after : Stage Q} (acquire : P after → P (threads w)) :
    AtMostOne (Function.update threads w after) P claimed :=
  exclusive.update (fun taken => .inl (acquire taken))
    fun claim => ⟨.inl claim, fun taken => exclusive.2 claim w (acquire taken)⟩

end AtMostOne

end Cvd
end Cuttlefish
