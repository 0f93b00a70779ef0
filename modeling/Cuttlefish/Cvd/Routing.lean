import Cuttlefish.Cvd.Interrupts

/-!
# Routing a request

`RequestHandler` asks every handler of the request's injector whether it can handle the
request, and returns the one that can. It fails closed: an error of `CanHandle` is returned at
once, and unless exactly one handler says yes the request is refused with the number of
handlers found. `HandleMessage` calls `Handle` at most once for a routed request, and drops
the connection of a request it cannot route without registering or calling anything.

`Handle` is not called for every routed request, though: when the pool refuses the interrupt
registration of line 204, the call returns first.
-/

namespace Cuttlefish
namespace Cvd

open Epoll

variable {Q H : Type} {canHandle : H → Q → Except String Bool} {request : Q}

/-- The loop of `RequestHandler`: the handlers whose `CanHandle` says yes, in their order. The
first error of `CanHandle` is returned as it is (`CF_EXPECT`). -/
def compatibleHandlers (canHandle : H → Q → Except String Bool) (request : Q) :
    List H → Except String (List H)
  | [] => .ok []
  | handler :: handlers =>
      match canHandle handler request with
      | .error message => .error message
      | .ok compatible =>
          match compatibleHandlers canHandle request handlers with
          | .error message => .error message
          | .ok rest => .ok (if compatible then handler :: rest else rest)

/-- `RequestHandler`: the one compatible handler, or an error. -/
def requestHandler (canHandle : H → Q → Except String Bool) (handlers : List H) (request : Q) :
    Except String H :=
  match compatibleHandlers canHandle request handlers with
  | .error message => .error message
  | .ok [handler] => .ok handler
  | .ok compatible =>
      .error ("Expected exactly one handler for message, found " ++ toString compatible.length)

/-- A yes from `CanHandle`. -/
def accepts : Except String Bool → Bool
  | .ok compatible => compatible
  | .error _ => false

theorem compatibleHandlers_eq_ok {handlers compatible : List H} :
    compatibleHandlers canHandle request handlers = .ok compatible ↔
      (∀ handler ∈ handlers, ∃ b, canHandle handler request = .ok b) ∧
        compatible = handlers.filter fun handler => accepts (canHandle handler request) := by
  induction handlers generalizing compatible with
  | nil => simp [compatibleHandlers, eq_comm]
  | cons handler handlers ih =>
      cases answer : canHandle handler request with
      | error message => simp [compatibleHandlers, answer]
      | ok compatible' =>
          cases rest : compatibleHandlers canHandle request handlers with
          | error message =>
              simp only [compatibleHandlers, answer, rest, reduceCtorEq, false_iff]
              rintro ⟨answered, -⟩
              have := ih.mpr ⟨fun h mem => answered h (.tail _ mem), rfl⟩
              rw [rest] at this
              cases this
          | ok others =>
              obtain ⟨answered, rfl⟩ := ih.mp rest
              simp only [compatibleHandlers, answer, rest, List.filter_cons, accepts,
                Except.ok.injEq, List.forall_mem_cons]
              exact ⟨fun found => ⟨⟨⟨_, rfl⟩, answered⟩, found.symm⟩, fun ⟨_, found⟩ => found.symm⟩

/-- `RequestHandler` returns a handler exactly when every `CanHandle` answered and exactly one
said yes; the handler is that one. -/
theorem requestHandler_eq_ok {handlers : List H} {handler : H} :
    requestHandler canHandle handlers request = .ok handler ↔
      (∀ h ∈ handlers, ∃ b, canHandle h request = .ok b) ∧
        handlers.filter (fun h => accepts (canHandle h request)) = [handler] := by
  unfold requestHandler
  cases found : compatibleHandlers canHandle request handlers with
  | error message =>
      simp only [reduceCtorEq, false_iff]
      rintro ⟨answered, -⟩
      have := compatibleHandlers_eq_ok.mpr ⟨answered, rfl⟩
      rw [found] at this
      cases this
  | ok compatible =>
      obtain ⟨answered, rfl⟩ := compatibleHandlers_eq_ok.mp found
      rw [and_iff_right answered]
      generalize handlers.filter (fun h => accepts (canHandle h request)) = compatible
      rcases compatible with _ | ⟨h, _ | ⟨h', rest⟩⟩ <;> simp

/-- When every `CanHandle` answered but not exactly one said yes, the request is refused with
the number of handlers that did. -/
theorem requestHandler_of_count {handlers : List H}
    (answered : ∀ h ∈ handlers, ∃ b, canHandle h request = .ok b)
    (count : (handlers.filter fun h => accepts (canHandle h request)).length ≠ 1) :
    requestHandler canHandle handlers request = .error
      ("Expected exactly one handler for message, found " ++
        toString (handlers.filter fun h => accepts (canHandle h request)).length) := by
  unfold requestHandler
  rw [compatibleHandlers_eq_ok.mpr ⟨answered, rfl⟩]
  generalize handlers.filter (fun h => accepts (canHandle h request)) = compatible at count ⊢
  rcases compatible with _ | ⟨h, _ | ⟨h', rest⟩⟩
  · rfl
  · exact absurd rfl count
  · rfl

/-- Two handlers, both of which can handle every request. -/
def acceptTwice : Bool → Unit → Except String Bool := fun _ _ => .ok true

theorem requestHandler_ambiguous :
    (∀ h ∈ [false, true], ∃ b, acceptTwice h () = .ok b) ∧
      ([false, true].filter fun h => accepts (acceptTwice h ())).length ≠ 1 ∧
      requestHandler acceptTwice [false, true] () =
        .error ("Expected exactly one handler for message, found " ++
          toString ([false, true].filter fun h => accepts (acceptTwice h ())).length) :=
  have answered : ∀ h ∈ [false, true], ∃ b, acceptTwice h () = .ok b := fun _ _ => ⟨true, rfl⟩
  have count : ([false, true].filter fun h => accepts (acceptTwice h ())).length ≠ 1 := by decide
  ⟨answered, count, requestHandler_of_count answered count⟩

/-! ## Routing in `HandleMessage` -/

variable {handlers : List H} {s : CvdServer Q H}

/-- `HandleMessage` fails closed. `RequestHandler` routes a request to a handler exactly when
every `CanHandle` answered and exactly one said yes, and then to that one; `Handle` is called
at most once for each routed request; and a request that cannot be routed makes its call go
straight to the guard `abandon_client`, with no request state created, so no `Handle` and no
`Interrupt()` for it, and no registration made. -/
theorem routing_fails_closed (reachable : Reachable (requestHandler canHandle handlers) s) :
    (∀ request handler, requestHandler canHandle handlers request = .ok handler ↔
      (∀ h ∈ handlers, ∃ b, canHandle h request = .ok b) ∧
        handlers.filter (fun h => accepts (canHandle h request)) = [handler]) ∧
    (∀ r shared, s.requests r = some shared → shared.handles ≤ 1) ∧
    ∀ w fd request message ok s', s.threads w = .handleMessage fd (.requestHandler request) →
      requestHandler canHandle handlers request = .error message →
      s.step (requestHandler canHandle handlers) (.worker w (.step ok)) = some s' →
      s'.threads w = .handleMessage fd (.abandonClient none) ∧ s'.requests = s.requests ∧
        s'.routed = s.routed ∧ s'.epollPool = s.epollPool := by
  refine ⟨fun _ _ => requestHandler_eq_ok, reachable.invariant.handlesLe,
    fun w fd request message ok s' at_w refused stepped => ?_⟩
  simp only [CvdServer.step] at stepped
  split at stepped
  · cases stepped
  rw [at_w] at stepped
  simp only [CvdServer.workerStep, CvdServer.handleMessage, refused] at stepped
  cases stepped
  exact ⟨by simp, rfl, rfl, rfl⟩

/-- Handlers none of which can handle a request. -/
def refuseEvery : Unit → Unit → Except String Bool := fun _ _ => .ok false

/-- The server once the first worker has read the first request of connection `0`, which no
handler can handle; `RequestHandler` runs next. -/
def unroutableServer : CvdServer Unit Unit :=
  (CvdServer.run (requestHandler refuseEvery [()]) .init (acceptFirst firstWorker ++
    waitForEvent firstWorker ++ [.worker firstWorker (.event (.client 0) ⟨true, false⟩),
      .worker firstWorker (.step true), .worker firstWorker (.request ())])).get (by decide)

theorem routing_fails_closed_unroutable :
    Reachable (requestHandler refuseEvery [()]) unroutableServer ∧
      unroutableServer.threads firstWorker = .handleMessage (.client 0) (.requestHandler ()) ∧
      requestHandler refuseEvery [()] () =
        .error "Expected exactly one handler for message, found 0" ∧
      (∀ request handler, requestHandler refuseEvery [()] request = .ok handler ↔
        (∀ h ∈ [()], ∃ b, refuseEvery h request = .ok b) ∧
          [()].filter (fun h => accepts (refuseEvery h request)) = [handler]) ∧
      (∀ r shared, unroutableServer.requests r = some shared → shared.handles ≤ 1) ∧
      ∀ w fd request message ok s', unroutableServer.threads w =
          .handleMessage fd (.requestHandler request) →
        requestHandler refuseEvery [()] request = .error message →
        unroutableServer.step (requestHandler refuseEvery [()]) (.worker w (.step ok)) =
          some s' →
        s'.threads w = .handleMessage fd (.abandonClient none) ∧
          s'.requests = unroutableServer.requests ∧ s'.routed = unroutableServer.routed ∧
          s'.epollPool = unroutableServer.epollPool :=
  have reachable : Reachable (requestHandler refuseEvery [()]) unroutableServer :=
    Reachable.of_run (Option.some_get _).symm
  ⟨reachable, by decide, rfl, routing_fails_closed reachable⟩

/-- The server's one handler, which can handle every request. -/
def acceptEvery : Unit → Unit → Except String Bool := fun _ _ => .ok true

/-- The first worker routes the first request of connection `0`, but the pool refuses the
interrupt registration of line 204: the call unwinds and returns. -/
def refusedInterruptTrace : List (Action Unit) :=
  acceptFirst firstWorker ++ routeFirst firstWorker ++
    [.worker firstWorker (.step false), .worker firstWorker (.step true),
      .worker firstWorker (.step true)]

/-- A request routed to its one handler, whose `HandleMessage` call returns without calling
`Handle`. -/
theorem routed_without_handle :
    (CvdServer.run (requestHandler acceptEvery [()]) .init refusedInterruptTrace).map (fun s =>
      (s.threads firstWorker, (s.requests 0).map (·.handles))) = some (.checkRunning, some 0) := by
  decide

end Cvd
end Cuttlefish
