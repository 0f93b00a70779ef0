import Cuttlefish.Cvd.Shutdown

/-!
# Interrupts

`HandleMessage` registers `interrupt_cb` for `EPOLLHUP` on its connection before it calls
`Handle`, so a client that hangs up interrupts the running handler. The callback holds only the
request's `SharedState` and calls `Interrupt()` when `shared->handler` is still set.

The registration is consumed when it fires, so a request is interrupted at most once, and a
cleared handler is never interrupted. But the handler is cleared only on the success path,
after `SendResponse`: a hang-up in the meantime still interrupts a handler whose `Handle` has
returned; and on an early return the injector that owns the handler is destroyed before the
guard `abandon_client` removes the registration, so the callback can run `Interrupt()` on a
destroyed handler, even after the call has returned.
-/

namespace Cuttlefish
namespace Cvd

open Epoll

variable {Q H : Type} {route : Q → Except String H} {s : CvdServer Q H} {r : Nat}
  {shared : SharedState H}

/-! ## Interrupting a destroyed handler -/

/-- The first worker's `Handle` fails. While its call unwinds, the client hangs up and the
second worker takes the interrupt, which is still registered; the first call destroys the
injector, runs its guard and returns; then the interrupt callback takes the mutex. -/
def staleTrace : List (Action Unit) :=
  acceptFirst firstWorker ++ routeFirst firstWorker ++
    [.worker firstWorker (.step true), .worker firstWorker (.step true),
      .worker firstWorker (.step false)] ++
    waitForEvent secondWorker ++
    [.worker secondWorker (.event (.client 0) ⟨false, true⟩), .worker firstWorker (.step true),
      .worker firstWorker (.step true), .worker secondWorker (.step true)]

/-- `Interrupt()` runs on the handler of a request whose `HandleMessage` call has returned, and
whose injector, the owner of the handler, is already destroyed: the handler was never cleared
and the interrupt registration was dispatched before the guard could remove it. -/
theorem interrupt_after_return :
    (CvdServer.run routeAll .init staleTrace).map (fun s =>
      (s.threads firstWorker, (s.requests 0).map fun shared =>
        (shared.handler, shared.injector, shared.interrupts, shared.staleInterrupts))) =
      some (.checkRunning, some (some (), false, 1, 1)) := by
  decide

/-! ## At most once, and never after the clear -/

/-- `Interrupt()` is called at most once for a request, and never after its handler has been
cleared at line 211: from then on, in every later state, the request's count of `Interrupt()`
calls stays where it was. -/
theorem interrupt_stops_at_clear (reachable : Reachable route s)
    (routed : s.requests r = some shared) :
    shared.interrupts ≤ 1 ∧
      (shared.handler = none → ∀ t, ReachableFrom route s t →
        ∃ shared', t.requests r = some shared' ∧ shared'.interrupts = shared.interrupts) := by
  have inv := reachable.invariant
  refine ⟨inv.interruptsLe r shared routed, fun cleared t from_s => ?_⟩
  obtain ⟨shared', routed', -, count⟩ := from_s.cleared inv ⟨shared, routed, cleared, rfl⟩
  exact ⟨shared', routed', count⟩

/-- The server once the first worker has served the first request of connection `0` and
cleared its handler; the `Remove` of line 213 is next. -/
def clearedServer : CvdServer Unit Unit :=
  (CvdServer.run routeAll .init (acceptFirst firstWorker ++ routeFirst firstWorker ++
    List.replicate 5 (.worker firstWorker (.step true)))).get (by decide)

/-- The first request's `SharedState` in that server. -/
def clearedRequest : SharedState Unit := (clearedServer.requests 0).get (by decide)

theorem interrupt_stops_at_clear_served :
    Reachable routeAll clearedServer ∧ clearedServer.requests 0 = some clearedRequest ∧
      clearedRequest.handler = none ∧ clearedRequest.interrupts ≤ 1 ∧
      (clearedRequest.handler = none → ∀ t, ReachableFrom routeAll clearedServer t →
        ∃ shared', t.requests 0 = some shared' ∧
          shared'.interrupts = clearedRequest.interrupts) :=
  have reachable : Reachable routeAll clearedServer := Reachable.of_run (Option.some_get _).symm
  ⟨reachable, (Option.some_get _).symm, by decide,
    interrupt_stops_at_clear reachable (Option.some_get _).symm⟩

/-- The first worker's `Handle` returns a response; while `SendResponse` writes it, the client
hangs up and the second worker runs the interrupt callback. -/
def lateHangUpTrace : List (Action Unit) :=
  acceptFirst firstWorker ++ routeFirst firstWorker ++
    List.replicate 3 (.worker firstWorker (.step true)) ++ waitForEvent secondWorker ++
    [.worker secondWorker (.event (.client 0) ⟨false, true⟩), .worker secondWorker (.step true)]

/-- A hang-up dispatched while `SendResponse` writes the response reaches `Interrupt()`, after
`Handle` has returned. -/
theorem interrupt_after_handle :
    (CvdServer.run routeAll .init lateHangUpTrace).map (fun s =>
      (s.threads firstWorker,
        (s.requests 0).map fun shared => (shared.handles, shared.interrupts))) =
      some (.handleMessage (.client 0) (.sendResponse 0), some (1, 1)) := by
  decide

end Cvd
end Cuttlefish
