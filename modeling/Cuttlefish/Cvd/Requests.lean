import Cuttlefish.Cvd.Routing

/-!
# The lifecycle of a request

`HandleMessage` creates a `SharedState` for each request it routes, inside a new injector that
owns the handler objects, and destroys the injector when it returns. In between, the call goes
through the program points of lines 204 to 223, while `interrupt_cb` may run on another
thread. This module abstracts a request to its phase and its three counters (`RequestView`),
gives the moves a request may make (`RequestView.Next`), and proves that every step of the
server moves every request along one of them, so that every run does.

Two facts of the code carry the refinement (`RequestInvariant`): at most one call works for a
request, and the request's injector is alive exactly while that call runs, with the handler
set or cleared as the call's program point says. What the counters can be in each phase
follows from the lifecycle alone (`RequestView.Sound`).

The last section counts requests per connection: every request served was read, and at most
one request read is not yet served.
-/

namespace Cuttlefish
namespace Cvd

open Epoll

variable {Q H : Type}

/-! ## The call working for a request -/

namespace MessageStage

/-- The request whose locals the call still holds: it routed `r` and has not yet destroyed the
request's injector. -/
@[simp] def routedFor : MessageStage Q → Option Nat
  | .registerInterrupt r | .callHandle r | .handle r | .sendResponse r | .clearHandler r
  | .removeInterrupt r | .registerSelf r | .cancel r | .unwind r => some r
  | _ => none

/-- Whether the request's handler is set at this program point of its call (`some true`), has
been cleared at line 211 (`some false`), or may be either, on an early return. -/
@[simp] def handlerSet : MessageStage Q → Option Bool
  | .registerInterrupt _ | .callHandle _ | .handle _ | .sendResponse _ | .clearHandler _ =>
      some true
  | .removeInterrupt _ | .registerSelf _ | .cancel _ => some false
  | _ => none

end MessageStage

/-- The program point of a thread's `HandleMessage` call, if the call works for request `r`. -/
@[simp] def Stage.callFor (r : Nat) : Stage Q → Option (MessageStage Q)
  | .handleMessage _ m => if m.routedFor = some r then some m else none
  | _ => none

theorem Stage.callFor_eq_some {stage : Stage Q} {r : Nat} {m : MessageStage Q} :
    stage.callFor r = some m ↔ ∃ fd, stage = .handleMessage fd m ∧ m.routedFor = some r := by
  cases stage <;> simp only [Stage.callFor, reduceCtorEq, false_and, exists_false]
  case handleMessage fd m' =>
    split <;> simp_all [eq_comm]

theorem Stage.callFor_of_routedFor {fd : Fd} {r : Nat} {m : MessageStage Q}
    (hr : m.routedFor = some r) : (Stage.handleMessage fd m).callFor r = some m :=
  if_pos hr

theorem Stage.callFor_of_ne {fd : Fd} {r r' : Nat} {m : MessageStage Q}
    (hr : m.routedFor = some r) (ne : r' ≠ r) : (Stage.handleMessage fd m).callFor r' = none :=
  if_neg fun same => ne (Option.some.inj (hr.symm.trans same)).symm

/-- The call working for request `r`, looked up among the threads. -/
def callOf (threads : Fin kNumThreads → Stage Q) (r : Nat) : Option (MessageStage Q) :=
  (List.finRange kNumThreads).findSome? fun w => (threads w).callFor r

section callOf

variable {threads : Fin kNumThreads → Stage Q} {w : Fin kNumThreads} {r : Nat}

theorem callOf_eq_none : callOf threads r = none ↔ ∀ w, (threads w).callFor r = none := by
  simp [callOf, List.findSome?_eq_none_iff]

theorem callOf_eq_some {m : MessageStage Q} (found : callOf threads r = some m) :
    ∃ w fd, threads w = .handleMessage fd m ∧ m.routedFor = some r := by
  obtain ⟨w, -, hw⟩ := List.exists_of_findSome?_eq_some found
  exact ⟨w, Stage.callFor_eq_some.mp hw⟩

/-- When no other thread works for `r`, the call of `r` is thread `w`'s, if it has one. -/
theorem callOf_of_others (others : ∀ v, v ≠ w → (threads v).callFor r = none) :
    callOf threads r = (threads w).callFor r := by
  cases hw : (threads w).callFor r with
  | none => exact callOf_eq_none.mpr fun v => if same : v = w then same ▸ hw else others v same
  | some m =>
      have found : (callOf threads r).isSome :=
        List.findSome?_isSome_iff.mpr ⟨w, List.mem_finRange w, by rw [hw]; rfl⟩
      obtain ⟨m', found⟩ := Option.isSome_iff_exists.mp found
      obtain ⟨v, -, hv⟩ := List.exists_of_findSome?_eq_some found
      by_cases same : v = w
      · subst same
        exact found.trans (hv.symm.trans hw)
      · rw [others v same] at hv
        cases hv

/-- Moving a thread that works for `r` neither before nor after leaves the call of `r` alone. -/
theorem callOf_update (before : (threads w).callFor r = none) {after : Stage Q}
    (after_none : after.callFor r = none) :
    callOf (Function.update threads w after) r = callOf threads r := by
  unfold callOf
  congr 1
  funext v
  by_cases same : v = w
  · subst same
    rw [Function.update_same, after_none, before]
  · rw [Function.update_noteq same]

end callOf

/-! ## The lifecycle -/

/-- The phases of a request. -/
inductive RequestPhase
  /-- Not routed: it has no `SharedState`. -/
  | unrouted
  /-- Routed; the interrupt registration of line 204 is next. -/
  | routed
  /-- The interrupt registration of line 204 is live; `Handle` is called next. -/
  | armed
  /-- `Handle` was called; the call runs it, sends the response, or clears the handler next. -/
  | handling
  /-- The handler was cleared at line 211; the call goes on along the success path. -/
  | cleared
  /-- The call returns early with the handler still set, and destroys its locals. -/
  | failing
  /-- The call returns early after the handler was cleared. -/
  | failingCleared
  /-- The call has returned and destroyed the injector, with the handler cleared. -/
  | released
  /-- The call has returned and destroyed the injector, with the handler still set. -/
  | abandoned
  deriving DecidableEq, Repr

/-- The phase of a routed request whose call is at `call`, or has returned (`none`). -/
def RequestPhase.ofCall (handlerSet : Bool) : Option (MessageStage Q) → RequestPhase
  | some (.registerInterrupt _) => .routed
  | some (.callHandle _) => .armed
  | some (.handle _) | some (.sendResponse _) | some (.clearHandler _) => .handling
  | some (.removeInterrupt _) | some (.registerSelf _) | some (.cancel _) => .cleared
  | some (.unwind _) | some (.start _) | some .getRequest | some (.requestHandler _)
  | some .remove | some (.abandonClient _) => if handlerSet then .failing else .failingCleared
  | none => if handlerSet then .abandoned else .released

/-- A request is handled only at the program points where its handler must be set. -/
theorem RequestPhase.handling_call {b : Bool} {call : Option (MessageStage Q)}
    (handling : RequestPhase.ofCall b call = .handling) :
    ∃ m, call = some m ∧ m.handlerSet = some true := by
  rcases call with _ | m
  · cases b <;> cases handling
  · cases m <;> first | exact ⟨_, rfl, rfl⟩ | (cases b <;> cases handling)

/-- A request as its lifecycle sees it: its phase, and the calls of `Handle` and of
`Interrupt()` made for it, those on a destroyed handler counted apart. -/
structure RequestView where
  phase : RequestPhase
  handles : Nat
  interrupts : Nat
  staleInterrupts : Nat
  deriving DecidableEq, Repr

namespace RequestView

/-- A request nobody has routed yet. -/
def unrouted : RequestView := ⟨.unrouted, 0, 0, 0⟩

/-- The moves of a request. -/
inductive Next : RequestView → RequestView → Prop
  /-- The step leaves the request alone. -/
  | stay (v : RequestView) : Next v v
  /-- `RequestHandler` routed it: `std::make_shared<SharedState>()`. -/
  | route : Next unrouted ⟨.routed, 0, 0, 0⟩
  /-- The interrupt registration of line 204 succeeded. -/
  | arm {h i k : Nat} : Next ⟨.routed, h, i, k⟩ ⟨.armed, h, i, k⟩
  /-- `Handle` is called (line 206). -/
  | call {h i k : Nat} : Next ⟨.armed, h, i, k⟩ ⟨.handling, h + 1, i, k⟩
  /-- The pool refused the interrupt registration. -/
  | refuse {h i k : Nat} : Next ⟨.routed, h, i, k⟩ ⟨.failing, h, i, k⟩
  /-- `Handle` or `SendResponse` failed. -/
  | fail {h i k : Nat} : Next ⟨.handling, h, i, k⟩ ⟨.failing, h, i, k⟩
  /-- Line 211 cleared the handler. -/
  | clear {h i k : Nat} : Next ⟨.handling, h, i, k⟩ ⟨.cleared, h, i, k⟩
  /-- The `Remove` of line 213 or the `Register` of line 219 failed. -/
  | failCleared {h i k : Nat} : Next ⟨.cleared, h, i, k⟩ ⟨.failingCleared, h, i, k⟩
  /-- `abandon_client.Cancel()`, and the call returns. -/
  | finish {h i k : Nat} : Next ⟨.cleared, h, i, k⟩ ⟨.released, h, i, k⟩
  /-- An early return after the clear destroys the injector. -/
  | release {h i k : Nat} : Next ⟨.failingCleared, h, i, k⟩ ⟨.released, h, i, k⟩
  /-- An early return destroys the injector with the handler still set. -/
  | abandon {h i k : Nat} : Next ⟨.failing, h, i, k⟩ ⟨.abandoned, h, i, k⟩
  /-- `interrupt_cb` calls `Interrupt()` on the live handler, before `Handle` is called, while it
  runs, or on the way out of a failed call. -/
  | interrupt {p : RequestPhase} {h i k : Nat} (live : p = .armed ∨ p = .handling ∨ p = .failing) :
      Next ⟨p, h, i, k⟩ ⟨p, h, i + 1, k⟩
  /-- `interrupt_cb` calls `Interrupt()` on the handler of a destroyed injector. -/
  | staleInterrupt {h i k : Nat} : Next ⟨.abandoned, h, i, k⟩ ⟨.abandoned, h, i + 1, k + 1⟩

/-- What the lifecycle keeps of the counters in each phase: `Handle` is called once, on the
way out of `routed`, and an `Interrupt()` on a destroyed handler only ever comes after the
call abandoned it. -/
def Sound (v : RequestView) : Prop :=
  match v.phase with
  | .unrouted | .routed => v.handles = 0 ∧ v.interrupts = 0 ∧ v.staleInterrupts = 0
  | .armed => v.handles = 0 ∧ v.staleInterrupts = 0
  | .handling | .cleared | .failingCleared | .released => v.handles = 1 ∧ v.staleInterrupts = 0
  | .failing => v.handles ≤ 1 ∧ v.staleInterrupts = 0
  | .abandoned => v.handles ≤ 1 ∧ v.staleInterrupts ≤ v.interrupts

theorem unrouted_sound : unrouted.Sound := ⟨rfl, rfl, rfl⟩

/-- Every move keeps the counters sound. -/
theorem Next.sound {v v' : RequestView} (next : v.Next v') (sound : v.Sound) : v'.Sound := by
  cases next with
  | stay => exact sound
  | route => exact ⟨rfl, rfl, rfl⟩
  | interrupt live => rcases live with rfl | rfl | rfl <;> exact sound
  | _ => simp only [Sound] at sound ⊢; omega

end RequestView

namespace SharedState

/-- The view of a routed request whose call is at `call`. -/
def view (shared : SharedState H) (call : Option (MessageStage Q)) : RequestView :=
  ⟨RequestPhase.ofCall shared.handler.isSome call, shared.handles, shared.interrupts,
    shared.staleInterrupts⟩

/-- The request's injector is alive exactly while its call runs, and the handler is set or
cleared as the call's program point says. -/
def Consistent (shared : SharedState H) (call : Option (MessageStage Q)) : Prop :=
  shared.injector = call.isSome ∧
    ∀ m, call = some m → ∀ b, m.handlerSet = some b → shared.handler.isSome = b

variable {shared : SharedState H} {m : MessageStage Q}

@[simp] theorem consistent_some : shared.Consistent (some m) ↔
    shared.injector = true ∧ ∀ b, m.handlerSet = some b → shared.handler.isSome = b := by
  simp [Consistent]

@[simp] theorem consistent_none : shared.Consistent (none : Option (MessageStage Q)) ↔
    shared.injector = false := by
  simp [Consistent]

/-- A call that moves on keeps its request consistent when the handler must be set or cleared
at the new program point only where it had to be at the old one. -/
theorem Consistent.advance {m' : MessageStage Q} (consistent : shared.Consistent (some m))
    (fits : ∀ b, m'.handlerSet = some b → m.handlerSet = some b) :
    shared.Consistent (some m') :=
  ⟨consistent.1, fun _ found b set => by cases found; exact consistent.2 m rfl b (fits b set)⟩

theorem Consistent.handler_set (consistent : shared.Consistent (some m))
    (set : m.handlerSet = some true) : shared.handler.isSome = true :=
  consistent.2 m rfl true set

theorem Consistent.handler_cleared (consistent : shared.Consistent (some m))
    (cleared : m.handlerSet = some false) : shared.handler.isSome = false :=
  consistent.2 m rfl false cleared

section views

variable {r : Nat}

theorem view_unwind_set (set : shared.handler.isSome = true) :
    shared.view (some (.unwind r : MessageStage Q)) =
      ⟨.failing, shared.handles, shared.interrupts, shared.staleInterrupts⟩ := by
  simp [view, RequestPhase.ofCall, set]

theorem view_unwind_cleared (cleared : shared.handler.isSome = false) :
    shared.view (some (.unwind r : MessageStage Q)) =
      ⟨.failingCleared, shared.handles, shared.interrupts, shared.staleInterrupts⟩ := by
  simp [view, RequestPhase.ofCall, cleared]

theorem view_none_set (set : shared.handler.isSome = true) :
    shared.view (none : Option (MessageStage Q)) =
      ⟨.abandoned, shared.handles, shared.interrupts, shared.staleInterrupts⟩ := by
  simp [view, RequestPhase.ofCall, set]

theorem view_none_cleared (cleared : shared.handler.isSome = false) :
    shared.view (none : Option (MessageStage Q)) =
      ⟨.released, shared.handles, shared.interrupts, shared.staleInterrupts⟩ := by
  simp [view, RequestPhase.ofCall, cleared]

end views

end SharedState

/-! ## The abstraction function and the request invariant -/

namespace CvdServer

variable (s : CvdServer Q H)

/-- The abstraction function: request `r` as its lifecycle sees it. -/
def requestView (r : Nat) : RequestView :=
  match s.requests r with
  | none => .unrouted
  | some shared => shared.view (callOf s.threads r)

/-- What the code keeps of every request: at most one call works for it, none before it is
routed, and its `SharedState` is consistent with that call. -/
structure RequestInvariant : Prop where
  calls : ∀ r, AtMostOne s.threads (fun stage => (stage.callFor r).isSome) (s.routed ≤ r)
  consistent : ∀ r shared, s.requests r = some shared → shared.Consistent (callOf s.threads r)

variable {s} {s' : CvdServer Q H} {route : Q → Except String H} {w : Fin kNumThreads} {r : Nat}

theorem init_requestInvariant : (init : CvdServer Q H).RequestInvariant where
  calls _ := ⟨fun _ _ held _ => (nomatch held), fun _ _ held => (nomatch held)⟩
  consistent _ _ routed := nomatch routed

/-- At most one thread works for a request. -/
theorem RequestInvariant.unique (rinv : s.RequestInvariant) {v : Fin kNumThreads}
    {m m' : MessageStage Q} (hv : (s.threads v).callFor r = some m)
    (hw : (s.threads w).callFor r = some m') : v = w :=
  (rinv.calls r).1 v w (show ((s.threads v).callFor r).isSome by rw [hv]; rfl)
    (show ((s.threads w).callFor r).isSome by rw [hw]; rfl)

/-- The other threads do not work for the request thread `w` works for. -/
theorem RequestInvariant.others (rinv : s.RequestInvariant) {m : MessageStage Q}
    (hw : (s.threads w).callFor r = some m) : ∀ v, v ≠ w → (s.threads v).callFor r = none :=
  fun v ne => Option.not_isSome_iff_eq_none.mp fun held =>
    ne ((rinv.calls r).1 v w held (show ((s.threads w).callFor r).isSome by rw [hw]; rfl))

theorem RequestInvariant.callOf_eq (rinv : s.RequestInvariant) {m : MessageStage Q}
    (hw : (s.threads w).callFor r = some m) : callOf s.threads r = some m :=
  (callOf_of_others (rinv.others hw)).trans hw

/-- A step that changes neither the threads nor the requests. -/
theorem RequestInvariant.of_eq (rinv : s.RequestInvariant) (threads : s'.threads = s.threads)
    (requests : s'.requests = s.requests) (routed : s'.routed = s.routed) :
    s'.RequestInvariant ∧ ∀ r, (s.requestView r).Next (s'.requestView r) := by
  have same : ∀ r, s'.requestView r = s.requestView r := fun r => by
    simp only [requestView, threads, requests]
  refine ⟨⟨fun r => ?_, fun r shared found => ?_⟩, fun r => same r ▸ .stay _⟩
  · rw [threads, routed]; exact rinv.calls r
  · rw [threads]; exact rinv.consistent r shared (requests ▸ found)

/-- A move of a thread that works for no request, with no change to any `SharedState`. -/
theorem RequestInvariant.idle (rinv : s.RequestInvariant) {after : Stage Q}
    (threads : s'.threads = Function.update s.threads w after) (requests : s'.requests = s.requests)
    (routed : s'.routed = s.routed) (before_none : ∀ r, (s.threads w).callFor r = none)
    (after_none : ∀ r, after.callFor r = none) :
    s'.RequestInvariant ∧ ∀ r, (s.requestView r).Next (s'.requestView r) := by
  have calls : ∀ r, callOf s'.threads r = callOf s.threads r := fun r => by
    rw [threads, callOf_update (before_none r) (after_none r)]
  have same : ∀ r, s'.requestView r = s.requestView r := fun r => by
    simp only [requestView, requests, calls]
  refine ⟨⟨fun r => ?_, fun r shared found => ?_⟩, fun r => same r ▸ .stay _⟩
  · rw [threads, routed]
    exact (rinv.calls r).update_of_imp fun held => by rw [after_none] at held; cases held
  · rw [calls]; exact rinv.consistent r shared (requests ▸ found)

/-- The call of request `r` on thread `w` moves from `m` to `after`, and the request's
`SharedState` goes through `f`. -/
theorem RequestInvariant.move (rinv : s.RequestInvariant) {fd : Fd} {m : MessageStage Q}
    {after : Stage Q} {f : SharedState H → SharedState H}
    (hw : s.threads w = .handleMessage fd m) (hr : m.routedFor = some r)
    (threads : s'.threads = Function.update s.threads w after)
    (requests : s'.requests = Function.update s.requests r ((s.requests r).map f))
    (routed : s'.routed = s.routed) (after_none : ∀ r', r' ≠ r → after.callFor r' = none)
    (moves : ∀ shared : SharedState H, shared.Consistent (some m) →
      (f shared).Consistent (after.callFor r) ∧
        (shared.view (some m)).Next ((f shared).view (after.callFor r))) :
    s'.RequestInvariant ∧ ∀ r, (s.requestView r).Next (s'.requestView r) := by
  have mine : (s.threads w).callFor r = some m := hw ▸ Stage.callFor_of_routedFor hr
  have calls : ∀ r', r' ≠ r → callOf s'.threads r' = callOf s.threads r' := fun r' ne => by
    rw [threads, callOf_update (hw ▸ Stage.callFor_of_ne hr ne) (after_none r' ne)]
  have call : callOf s'.threads r = after.callFor r := by
    have others : ∀ v, v ≠ w → (Function.update s.threads w after v).callFor r = none :=
      fun v ne => by rw [Function.update_noteq ne]; exact rinv.others mine v ne
    rw [threads, callOf_of_others others, Function.update_same]
  have call_s : callOf s.threads r = some m := rinv.callOf_eq mine
  refine ⟨⟨fun r' => ?_, fun r' shared found => ?_⟩, fun r' => ?_⟩
  · rw [threads, routed]
    refine (rinv.calls r').update_of_imp fun held => ?_
    by_cases same : r' = r
    · subst same; rw [mine]; rfl
    · rw [after_none r' same] at held; cases held
  · by_cases same : r' = r
    · subst same
      rw [requests, Function.update_same] at found
      obtain ⟨shared, routed', rfl⟩ := Option.map_eq_some'.mp found
      rw [call]
      exact (moves shared (call_s ▸ rinv.consistent r' shared routed')).1
    · rw [requests, Function.update_noteq same] at found
      rw [calls r' same]
      exact rinv.consistent r' shared found
  · by_cases same : r' = r
    · subst same
      cases routed' : s.requests r' with
      | none => simp only [requestView, requests, Function.update_same, routed']; exact .stay _
      | some shared =>
          simp only [requestView, requests, Function.update_same, routed', Option.map_some', call,
            call_s]
          exact (moves shared (call_s ▸ rinv.consistent r' shared routed')).2
    · simp only [requestView, requests, Function.update_noteq same, calls r' same]
      exact .stay _

/-- The call of request `r` goes on to program point `m'`. -/
theorem RequestInvariant.advance (rinv : s.RequestInvariant) {fd : Fd} {m m' : MessageStage Q}
    {f : SharedState H → SharedState H}
    (hw : s.threads w = .handleMessage fd m) (hr : m.routedFor = some r)
    (threads : s'.threads = Function.update s.threads w (.handleMessage fd m'))
    (requests : s'.requests = Function.update s.requests r ((s.requests r).map f))
    (routed : s'.routed = s.routed) (hr' : m'.routedFor = some r)
    (moves : ∀ shared : SharedState H, shared.Consistent (some m) →
      (f shared).Consistent (some m') ∧ (shared.view (some m)).Next ((f shared).view (some m'))) :
    s'.RequestInvariant ∧ ∀ r, (s.requestView r).Next (s'.requestView r) :=
  rinv.move hw hr threads requests routed
    (fun _ ne => Stage.callFor_of_ne hr' ne)
    (by rw [Stage.callFor_of_routedFor hr']; exact moves)

/-- The call of request `r` goes on to program point `m'`, and the `SharedState` stays. -/
theorem RequestInvariant.advance_stage (rinv : s.RequestInvariant) {fd : Fd}
    {m m' : MessageStage Q} (hw : s.threads w = .handleMessage fd m) (hr : m.routedFor = some r)
    (threads : s'.threads = Function.update s.threads w (.handleMessage fd m'))
    (requests : s'.requests = s.requests) (routed : s'.routed = s.routed)
    (hr' : m'.routedFor = some r)
    (moves : ∀ shared : SharedState H, shared.Consistent (some m) →
      shared.Consistent (some m') ∧ (shared.view (some m)).Next (shared.view (some m'))) :
    s'.RequestInvariant ∧ ∀ r, (s.requestView r).Next (s'.requestView r) :=
  rinv.advance (f := id) hw hr threads (by simp [requests]) routed hr' moves

/-- The call of request `r` destroys the request's injector and leaves the request. -/
theorem RequestInvariant.leave (rinv : s.RequestInvariant) {fd : Fd} {m : MessageStage Q}
    {after : Stage Q} (hw : s.threads w = .handleMessage fd m) (hr : m.routedFor = some r)
    (threads : s'.threads = Function.update s.threads w after)
    (requests : s'.requests = Function.update s.requests r
      ((s.requests r).map fun shared => { shared with injector := false }))
    (routed : s'.routed = s.routed) (after_none : ∀ r', after.callFor r' = none)
    (moves : ∀ shared : SharedState H, shared.Consistent (some m) →
      (shared.view (some m)).Next (shared.view (none : Option (MessageStage Q)))) :
    s'.RequestInvariant ∧ ∀ r, (s.requestView r).Next (s'.requestView r) :=
  rinv.move hw hr threads requests routed (fun r' _ => after_none r')
    (by rw [after_none]; exact fun shared consistent =>
      ⟨SharedState.consistent_none.mpr rfl, moves shared consistent⟩)

/-- `RequestHandler` routes a request: the call now works for a fresh `SharedState`. -/
theorem RequestInvariant.newRequest (rinv : s.RequestInvariant) (fresh : s.requests s.routed = none)
    {fd : Fd} {request : Q} {handler : H}
    (hw : s.threads w = .handleMessage fd (.requestHandler request))
    (threads : s'.threads =
      Function.update s.threads w (.handleMessage fd (.registerInterrupt s.routed)))
    (requests : s'.requests =
      Function.update s.requests s.routed (some ⟨some handler, fd, true, 0, 0, 0⟩))
    (routed : s'.routed = s.routed + 1) :
    s'.RequestInvariant ∧ ∀ r, (s.requestView r).Next (s'.requestView r) := by
  have before : ∀ r, (s.threads w).callFor r = none := fun r => by rw [hw]; rfl
  have nobody : ∀ v, (s.threads v).callFor s.routed = none := fun v =>
    Option.not_isSome_iff_eq_none.mp ((rinv.calls s.routed).2 le_rfl v)
  have mine : (Stage.handleMessage fd (.registerInterrupt s.routed) : Stage Q).callFor s.routed =
      some (.registerInterrupt s.routed) := Stage.callFor_of_routedFor rfl
  have other : ∀ r, r ≠ s.routed →
      (Stage.handleMessage fd (.registerInterrupt s.routed) : Stage Q).callFor r = none :=
    fun _ ne => Stage.callFor_of_ne rfl ne
  have calls : ∀ r, r ≠ s.routed → callOf s'.threads r = callOf s.threads r := fun r ne => by
    rw [threads, callOf_update (before r) (other r ne)]
  have call : callOf s'.threads s.routed = some (.registerInterrupt s.routed) := by
    have others : ∀ v, v ≠ w → (Function.update s.threads w
        (.handleMessage fd (.registerInterrupt s.routed)) v).callFor s.routed = none :=
      fun v ne => by rw [Function.update_noteq ne]; exact nobody v
    rw [threads, callOf_of_others others, Function.update_same, mine]
  refine ⟨⟨fun r => ?_, fun r shared found => ?_⟩, fun r => ?_⟩
  · rw [threads, routed]
    refine (rinv.calls r).update (fun held => ?_) fun claim => ⟨.inl (by omega), fun held => ?_⟩
    · by_cases same : r = s.routed
      · exact .inr (.inl same.ge)
      · rw [other r same] at held; cases held
    · rw [other r (by omega)] at held; cases held
  · by_cases same : r = s.routed
    · subst same
      rw [requests, Function.update_same] at found
      cases found
      rw [call]
      simp
    · rw [requests, Function.update_noteq same] at found
      rw [calls r same]
      exact rinv.consistent r shared found
  · by_cases same : r = s.routed
    · subst same
      simp only [requestView, requests, Function.update_same, fresh, call]
      exact .route
    · simp only [requestView, requests, Function.update_noteq same, calls r same]
      exact .stay _

/-- `interrupt_cb` of request `r` changes only the request's counters. It calls `Interrupt()`
on a live handler only while the call handles the request or fails, and on a destroyed one
only once the call has abandoned the handler. -/
theorem RequestInvariant.interruptCallback (inv : s.Invariant) (rinv : s.RequestInvariant)
    (hw : s.threads w = .interruptCallback r) :
    ((s.interrupt r).setStage w .checkRunning).RequestInvariant ∧
      ∀ r', (s.requestView r').Next
        (((s.interrupt r).setStage w .checkRunning).requestView r') := by
  have calls : ∀ r', callOf ((s.interrupt r).setStage w .checkRunning).threads r' =
      callOf s.threads r' := fun r' =>
    callOf_update (show (s.threads w).callFor r' = none by rw [hw]; rfl) rfl
  have requests : ∀ r', r' ≠ r →
      ((s.interrupt r).setStage w .checkRunning).requests r' = s.requests r' := fun r' ne => by
    simp [CvdServer.interrupt, ne]
  refine ⟨⟨fun r' => (rinv.calls r').update_of_imp fun held => (by cases held),
    fun r' shared found => ?_⟩, fun r' => ?_⟩
  · rw [calls]
    by_cases same : r' = r
    · subst same
      simp only [setStage_requests, CvdServer.interrupt, updateRequest_requests,
        Function.update_same] at found
      obtain ⟨⟨handler, conn, injector, handles, interrupts, stale⟩, routed, rfl⟩ :=
        Option.map_eq_some'.mp found
      have consistent := rinv.consistent r' _ routed
      cases handler <;> exact consistent
    · rw [requests r' same] at found
      exact rinv.consistent r' shared found
  · by_cases same : r' = r
    · subst same
      cases routed : s.requests r' with
      | none =>
          simp only [requestView, setStage_requests, CvdServer.interrupt, updateRequest_requests,
            Function.update_same, routed, Option.map_none']
          exact .stay _
      | some shared =>
          simp only [requestView, calls]
          simp only [setStage_requests, CvdServer.interrupt, updateRequest_requests,
            Function.update_same, routed, Option.map_some']
          have consistent := rinv.consistent r' shared routed
          obtain ⟨handler, conn, injector, handles, interrupts, stale⟩ := shared
          cases handler with
          | none => exact .stay _
          | some handler =>
              cases call : callOf s.threads r' with
              | none =>
                  rw [call, SharedState.consistent_none] at consistent
                  subst consistent
                  exact .staleInterrupt
              | some m =>
                  rw [call, SharedState.consistent_some] at consistent
                  obtain ⟨alive, fits⟩ := consistent
                  subst alive
                  obtain ⟨v, fd, hv, hr⟩ := callOf_eq_some call
                  have arming : ∀ r'', m ≠ .registerInterrupt r'' := by
                    rintro r'' rfl
                    have same := (inv.armExclusive r').1 v w
                      (by rw [hv]; exact Option.some.inj hr) (by rw [hw]; exact rfl)
                    subst same
                    rw [hw] at hv
                    cases hv
                  cases m <;> simp only [MessageStage.routedFor, reduceCtorEq] at hr
                  all_goals first
                    | exact .interrupt (.inl rfl)
                    | exact .interrupt (.inr (.inl rfl))
                    | exact .interrupt (.inr (.inr rfl))
                    | cases fits false rfl
                    | exact absurd rfl (arming _)
    · simp only [requestView, requests r' same, calls]
      exact .stay _

/-- Every step of `HandleMessage` keeps the request invariant and moves every request along
its lifecycle. -/
theorem RequestInvariant.handleMessage (rinv : s.RequestInvariant)
    (fresh : s.requests s.routed = none) {fd : Fd} {m : MessageStage Q} {input : Input Q}
    (hw : s.threads w = .handleMessage fd m)
    (stepped : s.handleMessage route w fd m input = some s') :
    s'.RequestInvariant ∧ ∀ r, (s.requestView r).Next (s'.requestView r) := by
  have idle : ∀ {m' : MessageStage Q}, m'.routedFor = none →
      ∀ r, (Stage.handleMessage fd m' : Stage Q).callFor r = none :=
    fun routedFor _ => if_neg fun found => by rw [routedFor] at found; cases found
  have before (routedFor : m.routedFor = none) : ∀ r, (s.threads w).callFor r = none :=
    hw ▸ idle routedFor
  cases m <;> cases input <;> simp only [CvdServer.handleMessage, reduceCtorEq] at stepped <;>
    cases stepped
  case requestHandler.step.refl =>
    split
    · exact rinv.newRequest fresh hw rfl rfl rfl
    · exact rinv.idle rfl rfl rfl (before rfl) (idle rfl)
  case registerInterrupt.step.refl r ok =>
    split
    · exact rinv.advance_stage hw rfl rfl rfl rfl rfl fun shared consistent =>
        ⟨consistent.advance fun _ => id, .arm⟩
    · refine rinv.advance_stage hw rfl rfl rfl rfl rfl fun shared consistent =>
        ⟨consistent.advance nofun, ?_⟩
      rw [SharedState.view_unwind_set (consistent.handler_set rfl)]
      exact .refuse
  case callHandle.step.refl r ok =>
    exact rinv.advance hw rfl rfl rfl rfl rfl fun shared consistent =>
      ⟨consistent.advance fun _ => id, .call⟩
  case handle.stop.refl => exact rinv.of_eq rfl rfl rfl
  case handle.step.refl r ok | sendResponse.step.refl r ok =>
    split
    · exact rinv.advance_stage hw rfl rfl rfl rfl rfl fun shared consistent =>
        ⟨consistent.advance fun _ => id, .stay _⟩
    · refine rinv.advance_stage hw rfl rfl rfl rfl rfl fun shared consistent =>
        ⟨consistent.advance nofun, ?_⟩
      rw [SharedState.view_unwind_set (consistent.handler_set rfl)]
      exact .fail
  case clearHandler.step.refl r ok =>
    exact rinv.advance hw rfl rfl rfl rfl rfl fun shared consistent =>
      ⟨⟨consistent.1, by rintro _ ⟨⟩ b ⟨⟩; rfl⟩, .clear⟩
  case removeInterrupt.step.refl r ok | registerSelf.step.refl r ok =>
    split
    · exact rinv.advance_stage hw rfl rfl rfl rfl rfl fun shared consistent =>
        ⟨consistent.advance fun _ => id, .stay _⟩
    · refine rinv.advance_stage hw rfl rfl rfl rfl rfl fun shared consistent =>
        ⟨consistent.advance nofun, ?_⟩
      rw [SharedState.view_unwind_cleared (consistent.handler_cleared rfl)]
      exact .failCleared
  case cancel.step.refl r ok =>
    refine rinv.leave hw rfl rfl rfl rfl (fun _ => rfl) fun shared consistent => ?_
    rw [SharedState.view_none_cleared (consistent.handler_cleared rfl)]
    exact .finish
  case unwind.step.refl r ok =>
    refine rinv.leave hw rfl rfl rfl rfl (idle rfl) fun shared _ => ?_
    cases set : shared.handler.isSome
    · rw [SharedState.view_unwind_cleared set, SharedState.view_none_cleared set]
      exact .release
    · rw [SharedState.view_unwind_set set, SharedState.view_none_set set]
      exact .abandon
  case abandonClient.step.refl => exact rinv.idle rfl rfl rfl (before rfl) fun _ => rfl
  all_goals first
    | exact rinv.idle rfl rfl rfl (before rfl) (idle rfl)
    | (split <;> exact rinv.idle rfl rfl rfl (before rfl) (idle rfl))
    | (split_ifs <;> exact rinv.idle rfl rfl rfl (before rfl) (idle rfl))

@[simp] theorem requests_bestEffortWakeup (ok : Bool) :
    (s.bestEffortWakeup ok).requests = s.requests := by
  unfold CvdServer.bestEffortWakeup; split <;> rfl

@[simp] theorem routed_bestEffortWakeup (ok : Bool) :
    (s.bestEffortWakeup ok).routed = s.routed := by
  unfold CvdServer.bestEffortWakeup; split <;> rfl

/-- Every step of the server keeps the request invariant and moves every request along its
lifecycle. -/
theorem RequestInvariant.step (inv : s.Invariant) (rinv : s.RequestInvariant) {a : Action Q}
    (stepped : s.step route a = some s') :
    s'.RequestInvariant ∧ ∀ r, (s.requestView r).Next (s'.requestView r) := by
  cases a with
  | worker w input =>
      simp only [CvdServer.step] at stepped
      split at stepped
      · cases stepped
      · generalize hw : s.threads w = stage at stepped
        cases stage <;> cases input <;> simp only [CvdServer.workerStep, reduceCtorEq] at stepped
        case handleMessage.step | handleMessage.event | handleMessage.request
          | handleMessage.stop =>
          exact rinv.handleMessage (inv.freshRequest _ le_rfl) hw stepped
        case inHandleEvent.event fd events =>
          obtain ⟨registration, -, rfl⟩ := Option.map_eq_some'.mp stepped
          exact rinv.idle rfl rfl rfl (fun _ => by rw [hw]; rfl) fun _ => by
            cases registration.callback <;> rfl
        all_goals cases stepped
        case interruptCallback.step.refl => exact rinv.interruptCallback inv hw
        case bestEffortWakeup.step.refl =>
          exact rinv.idle (congrArg (Function.update · w _) (threads_bestEffortWakeup _))
            (requests_bestEffortWakeup _) (routed_bestEffortWakeup _) (fun _ => by rw [hw]; rfl)
            fun r => show (Stage.finished : Stage Q).callFor r = none from rfl
        all_goals first
          | exact rinv.idle rfl rfl rfl (fun _ => by rw [hw]; rfl) fun _ => rfl
          | (split <;> exact rinv.idle rfl rfl rfl (fun _ => by rw [hw]; rfl) fun _ => rfl)
  | main input =>
      simp only [CvdServer.step] at stepped
      split at stepped
      · cases stepped
      · generalize s.main = stage at stepped
        cases stage <;> cases input <;> simp only [CvdServer.mainStep, reduceCtorEq] at stepped
        all_goals (repeat' split at stepped) <;> cases stepped
        case destructorWakeup.step.refl =>
          exact rinv.of_eq (threads_bestEffortWakeup _) (requests_bestEffortWakeup _)
            (routed_bestEffortWakeup _)
        all_goals exact rinv.of_eq rfl rfl rfl

end CvdServer

/-! ## Every run -/

namespace SharedState

/-- What sound counters and a consistent `SharedState` say of a request: once its handler is
cleared, `Handle` was called once and no `Interrupt()` ran on a destroyed handler; and a stale
`Interrupt()` only ever hits a request whose call returned with the handler still set. -/
theorem counts {shared : SharedState H} {call : Option (MessageStage Q)}
    (sound : (shared.view call).Sound) (consistent : shared.Consistent call)
    (calling : ∀ m, call = some m → m.routedFor ≠ none) :
    (shared.handler = none → shared.handles = 1 ∧ shared.staleInterrupts = 0) ∧
      (shared.staleInterrupts ≠ 0 → shared.handler.isSome ∧ shared.injector = false) := by
  obtain ⟨handler, conn, injector, handles, interrupts, stale⟩ := shared
  obtain ⟨alive, fits⟩ := consistent
  rcases call with _ | m
  · cases handler
    · exact ⟨fun _ => sound, fun ne => absurd (And.right sound) ne⟩
    · exact ⟨nofun, fun _ => ⟨rfl, alive⟩⟩
  · -- the call is still running: the injector is alive, and no `Interrupt()` was stale
    cases m <;> cases handler
    all_goals first
      | exact absurd rfl (calling _ rfl)
      | exact absurd (fits _ rfl true rfl) Bool.false_ne_true
      | exact ⟨fun _ => sound, fun ne => absurd (And.right sound) ne⟩
      | exact ⟨nofun, fun ne => absurd (And.right sound) ne⟩
      | exact ⟨nofun, fun ne => absurd (And.right (And.right sound)) ne⟩

end SharedState

variable {route : Q → Except String H} {s t : CvdServer Q H}

theorem Reachable.requestInvariant (reachable : Reachable route s) : s.RequestInvariant := by
  induction reachable with
  | init => exact CvdServer.init_requestInvariant
  | step reachable stepped rinv => exact (rinv.step reachable.invariant stepped).1

/-- In every reachable state, every request's counters are sound for its phase. -/
theorem Reachable.requestView_sound (reachable : Reachable route s) (r : Nat) :
    (s.requestView r).Sound := by
  induction reachable with
  | init => exact RequestView.unrouted_sound
  | step reachable stepped sound =>
      exact ((reachable.requestInvariant.step reachable.invariant stepped).2 r).sound sound

/-- The server refines the request lifecycle: along every run from a reachable state, each
request moves only as `RequestView.Next` allows. -/
theorem ReachableFrom.requestView_reach (reachable : Reachable route s)
    (from_s : ReachableFrom route s t) (r : Nat) :
    Relation.ReflTransGen RequestView.Next (s.requestView r) (t.requestView r) := by
  induction from_s with
  | refl => exact .refl
  | step from_s_u stepped reach =>
      have reachable_u := from_s_u.reachable reachable
      exact reach.tail ((reachable_u.requestInvariant.step reachable_u.invariant stepped).2 r)

/-- The server after the stale interrupt of `staleTrace`: the first request's call returned
with its handler set, and `Interrupt()` then ran on the destroyed handler. -/
def staleServer : CvdServer Unit Unit := (CvdServer.run routeAll .init staleTrace).get (by decide)

/-- The first request went from unrouted to abandoned, with one `Handle` and one stale
`Interrupt()`. -/
example : staleServer.requestView 0 = ⟨.abandoned, 1, 1, 1⟩ := by decide

theorem requestView_reach_stale :
    Reachable routeAll .init ∧ ReachableFrom routeAll .init staleServer ∧
      Relation.ReflTransGen RequestView.Next ((CvdServer.init : CvdServer Unit Unit).requestView 0)
        (staleServer.requestView 0) :=
  have from_init : ReachableFrom routeAll .init staleServer :=
    run_reachableFrom (Option.some_get _).symm
  ⟨.init, from_init, ReachableFrom.requestView_reach .init from_init 0⟩

/-- In every reachable state, a request whose handler has been cleared had `Handle` called
exactly once and never an `Interrupt()` on a destroyed handler. A stale `Interrupt()` only
ever hits a request whose call returned, destroying the injector, with the handler still
set: an early return after routing, never the success path. -/
theorem request_counts (reachable : Reachable route s) {r : Nat} {shared : SharedState H}
    (routed : s.requests r = some shared) :
    (shared.handler = none → shared.handles = 1 ∧ shared.staleInterrupts = 0) ∧
      (shared.staleInterrupts ≠ 0 → shared.handler.isSome ∧ shared.injector = false) := by
  have sound := reachable.requestView_sound r
  rw [CvdServer.requestView, routed] at sound
  refine SharedState.counts sound (reachable.requestInvariant.consistent r shared routed)
    fun m call => ?_
  obtain ⟨-, -, -, hr⟩ := callOf_eq_some call
  rw [hr]
  nofun

/-- The first request's `SharedState` in `staleServer`. -/
def staleRequest : SharedState Unit := (staleServer.requests 0).get (by decide)

theorem request_counts_stale :
    Reachable routeAll staleServer ∧ staleServer.requests 0 = some staleRequest ∧
      staleRequest.staleInterrupts = 1 ∧
      (staleRequest.handler = none →
        staleRequest.handles = 1 ∧ staleRequest.staleInterrupts = 0) ∧
      (staleRequest.staleInterrupts ≠ 0 →
        staleRequest.handler.isSome ∧ staleRequest.injector = false) :=
  have reachable : Reachable routeAll staleServer := Reachable.of_run (Option.some_get _).symm
  ⟨reachable, (Option.some_get _).symm, by decide,
    request_counts reachable (Option.some_get _).symm⟩

/-- A hang-up while a request is handled: its `Handle` runs, its response is being sent, or its
handler is about to be cleared, and its interrupt registration is still in the pool. Any
worker blocked in `HandleEvent` can take the event, and its next step calls `Interrupt()` on
the live handler: the request's first and only call, not a stale one, with the request left in
its phase. -/
theorem hang_up_interrupts (reachable : Reachable route s) {v : Fin kNumThreads} {fd : Fd}
    {r : Nat} (events : Events) (ok : Bool) (handling : (s.requestView r).phase = .handling)
    (armed : s.epollPool fd = some (interruptRegistration r))
    (idle : s.threads v = .inHandleEvent) (running : s.aborted = false) :
    (s.requestView r).interrupts = 0 ∧
      ∃ s', CvdServer.run route s [.worker v (.event fd events), .worker v (.step ok)] = some s' ∧
        s'.requestView r = { s.requestView r with interrupts := 1 } ∧
        s'.epollPool fd = none ∧ s'.threads v = .checkRunning := by
  obtain ⟨shared, routed, -, zero⟩ := reachable.invariant.armedRequest fd r armed
  have rinv := reachable.requestInvariant
  have view : s.requestView r = shared.view (callOf s.threads r) := by
    simp only [CvdServer.requestView, routed]
  rw [view] at handling ⊢
  obtain ⟨m, call, set⟩ := RequestPhase.handling_call handling
  have consistent := rinv.consistent r shared routed
  rw [call, SharedState.consistent_some] at consistent
  obtain ⟨alive, fits⟩ := consistent
  obtain ⟨handler, found⟩ := Option.isSome_iff_exists.mp (fits true set)
  let s₁ := (s.setPool (consume s.epollPool fd)).setStage v (.interruptCallback r)
  have calls : callOf ((s₁.interrupt r).setStage v .checkRunning).threads r =
      callOf s.threads r := by
    show callOf (Function.update (Function.update s.threads v _) v _) r = _
    rw [Function.update_idem,
      callOf_update (show (s.threads v).callFor r = none by rw [idle]; rfl)
        (rfl : (Stage.checkRunning : Stage Q).callFor r = none)]
  refine ⟨zero, (s₁.interrupt r).setStage v .checkRunning, ?_, ?_, ?_, ?_⟩
  · simp [CvdServer.run, CvdServer.step, CvdServer.workerStep, running, idle, armed, s₁,
      Stage.ofCallback, interruptRegistration]
  · rw [CvdServer.requestView, calls]
    simp [s₁, CvdServer.interrupt, SharedState.view, routed, found, alive, zero]
  · simp [s₁, CvdServer.interrupt, consume]
  · simp

/-- The server while the first worker runs `Handle` for the first request, with the second
worker blocked in `HandleEvent`. -/
def handlingServer : CvdServer Unit Unit :=
  (CvdServer.run routeAll .init (acceptFirst firstWorker ++ routeFirst firstWorker ++
    [.worker firstWorker (.step true), .worker firstWorker (.step true)] ++
    waitForEvent secondWorker)).get (by decide)

theorem hang_up_interrupts_handling :
    Reachable routeAll handlingServer ∧ (handlingServer.requestView 0).phase = .handling ∧
      handlingServer.epollPool (.client 0) = some (interruptRegistration 0) ∧
      handlingServer.threads secondWorker = .inHandleEvent ∧ handlingServer.aborted = false ∧
      (handlingServer.requestView 0).interrupts = 0 ∧
      ∃ s', CvdServer.run routeAll handlingServer
          [.worker secondWorker (.event (.client 0) ⟨false, true⟩),
            .worker secondWorker (.step true)] = some s' ∧
        s'.requestView 0 = { handlingServer.requestView 0 with interrupts := 1 } ∧
        s'.epollPool (.client 0) = none ∧ s'.threads secondWorker = .checkRunning :=
  have reachable : Reachable routeAll handlingServer := Reachable.of_run (Option.some_get _).symm
  ⟨reachable, by decide, by decide, by decide, by decide,
    hang_up_interrupts reachable ⟨false, true⟩ true (by decide) (by decide) (by decide)
      (by decide)⟩

/-! ## Requests on a connection -/

namespace CvdServer

variable {s' : CvdServer Q H} {w : Fin kNumThreads} {fd : Fd}

/-- The requests counted on every connection: each request served was read, and at most one
request read is not yet served. -/
def Accounted (s : CvdServer Q H) : Prop :=
  ∀ fd, s.requestsServed fd ≤ s.requestsRead fd ∧ s.requestsRead fd ≤ s.requestsServed fd + 1

theorem init_accounted : (init : CvdServer Q H).Accounted :=
  fun _ => ⟨Nat.le_refl 0, Nat.zero_le 1⟩

/-- `GetRequest` starts on a connection whose requests are all served. -/
theorem Accounted.countRead (acc : s.Accounted)
    (balanced : s.requestsRead fd = s.requestsServed fd) : (s.countRead fd).Accounted := by
  intro fd'
  by_cases same : fd' = fd
  · subst same
    simp only [countRead_requestsRead, countRead_requestsServed, Function.update_same]
    omega
  · simpa [same] using acc fd'

/-- A request passes the `Remove` of line 213 on a connection with one request in flight. -/
theorem Accounted.countServed (acc : s.Accounted)
    (pending : s.requestsRead fd = s.requestsServed fd + 1) : (s.countServed fd).Accounted := by
  intro fd'
  by_cases same : fd' = fd
  · subst same
    simp only [countServed_requestsRead, countServed_requestsServed, Function.update_same]
    omega
  · simpa [same] using acc fd'

theorem Accounted.bestEffortWakeup (acc : s.Accounted) (ok : Bool) :
    (s.bestEffortWakeup ok).Accounted := by
  unfold CvdServer.bestEffortWakeup
  split <;> exact acc

/-- Only two steps of `HandleMessage` count: the start of `GetRequest`, on a connection whose
requests are all served, and the `Remove` of line 213, with one request in flight. -/
theorem Accounted.handleMessage (inv : s.Invariant) (acc : s.Accounted) {m : MessageStage Q}
    {input : Input Q} (hw : s.threads w = .handleMessage fd m)
    (stepped : s.handleMessage route w fd m input = some s') : s'.Accounted := by
  cases m <;> cases input <;> simp only [CvdServer.handleMessage, reduceCtorEq] at stepped <;>
    cases stepped
  case start.step.refl =>
    split_ifs
    · exact acc
    · exact acc.countRead (by simpa using inv.unserved w fd 0 (by simp [hw]))
    · exact acc
  case removeInterrupt.step.refl =>
    split
    · exact acc.countServed (inv.unserved w fd 1 (by simp [hw]))
    · exact acc
  all_goals first
    | exact acc
    | (split <;> exact acc)

/-- Every step keeps the requests of every connection counted. -/
theorem Accounted.step (inv : s.Invariant) (acc : s.Accounted) {a : Action Q}
    (stepped : s.step route a = some s') : s'.Accounted := by
  cases a with
  | worker w input =>
      simp only [CvdServer.step] at stepped
      split at stepped
      · cases stepped
      · generalize hw : s.threads w = stage at stepped
        cases stage <;> cases input <;> simp only [CvdServer.workerStep, reduceCtorEq] at stepped
        case handleMessage.step | handleMessage.event | handleMessage.request
          | handleMessage.stop =>
          exact acc.handleMessage inv hw stepped
        case inHandleEvent.event =>
          obtain ⟨_, _, rfl⟩ := Option.map_eq_some'.mp stepped
          exact acc
        all_goals cases stepped
        case bestEffortWakeup.step.refl => exact acc.bestEffortWakeup _
        all_goals first
          | exact acc
          | (split <;> exact acc)
  | main input =>
      simp only [CvdServer.step] at stepped
      split at stepped
      · cases stepped
      · generalize s.main = stage at stepped
        cases stage <;> cases input <;> simp only [CvdServer.mainStep, reduceCtorEq] at stepped
        all_goals (repeat' split at stepped) <;> cases stepped
        case destructorWakeup.step.refl => exact acc.bestEffortWakeup _
        all_goals exact acc

end CvdServer

/-- In every reachable state, on every connection, the requests served never outnumber the
requests read, and at most one request read is not yet served. A connection never has two
requests in flight, also when it was given up in the middle of one. -/
theorem requests_in_flight (reachable : Reachable route s) (fd : Epoll.Fd) :
    s.requestsServed fd ≤ s.requestsRead fd ∧ s.requestsRead fd ≤ s.requestsServed fd + 1 := by
  induction reachable generalizing fd with
  | init => exact CvdServer.init_accounted fd
  | step reachable stepped acc => exact CvdServer.Accounted.step reachable.invariant acc stepped fd

theorem requests_in_flight_reading :
    Reachable routeAll readingServer ∧
      readingServer.requestsServed (.client 0) ≤ readingServer.requestsRead (.client 0) ∧
      readingServer.requestsRead (.client 0) ≤ readingServer.requestsServed (.client 0) + 1 :=
  ⟨readingServer_reachable, requests_in_flight readingServer_reachable (.client 0)⟩

end Cvd
end Cuttlefish
