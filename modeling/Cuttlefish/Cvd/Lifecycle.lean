import Mathlib.Logic.Relation
import Cuttlefish.Cvd.Connections

/-!
# The life of a connection

What the server's design says happens to a connection: `SharedFD::Accept` returns it once;
from then on it is either served by exactly one thread or waits in the pool for its next
request, until its owner gives it up for good. `phase` reads the phase of a connection off
the server's state, and every step of the server, from any reachable state, moves every
connection along one edge of this lifecycle or leaves it where it is.
-/

namespace Cuttlefish
namespace Cvd

open Epoll

/-- The phases of a connection. -/
inductive Phase
  /-- `SharedFD::Accept` has not returned it yet. -/
  | unaccepted
  /-- One thread owns it: the `AcceptClient` call that accepted it, or a `HandleMessage`
  call. -/
  | served
  /-- It is registered in the pool for `HandleMessage`, waiting for its next request. -/
  | waiting
  /-- It has no registration and no owner, for good. -/
  | dropped
  deriving DecidableEq, Repr

namespace Phase

/-- The moves of the lifecycle. -/
inductive Next : Phase → Phase → Prop
  /-- The step leaves the connection where it is. -/
  | stay (phase : Phase) : Next phase phase
  /-- `SharedFD::Accept` returns it to an `AcceptClient` call. -/
  | accept : Next .unaccepted .served
  /-- Its owner registers it for `HandleMessage` (lines 158 and 219). -/
  | handBack : Next .served .waiting
  /-- `HandleEvent` dispatches its next request. -/
  | dispatch : Next .waiting .served
  /-- Its owner gives it up: the guard `abandon_client`, or a failed `AcceptClient`. -/
  | drop : Next .served .dropped

end Phase

namespace CvdServer

variable {Q H : Type} {route : Q → Except String H} {s s' t : CvdServer Q H} {n : Nat}

/-- The phase connection `.client n` is in. -/
def phase (s : CvdServer Q H) (n : Nat) : Phase :=
  if s.clients ≤ n then .unaccepted
  else if s.epollPool (.client n) = some messageRegistration then .waiting
  else if (List.finRange kNumThreads).any fun w => (s.threads w).holds (.client n) then .served
  else .dropped

theorem any_holds_iff {fd : Fd} :
    ((List.finRange kNumThreads).any fun w => (s.threads w).holds fd) = true ↔
      ∃ w, (s.threads w).holds fd := by
  simp only [List.any_eq_true, List.mem_finRange, decide_eq_true_eq, true_and]

theorem phase_eq_unaccepted : s.phase n = .unaccepted ↔ s.clients ≤ n := by
  unfold phase
  split_ifs with fresh
  · exact iff_of_true rfl fresh
  all_goals exact iff_of_false nofun fresh

theorem phase_eq_waiting :
    s.phase n = .waiting ↔ n < s.clients ∧ s.epollPool (.client n) = some messageRegistration := by
  unfold phase
  split_ifs with fresh registered
  · exact iff_of_false nofun fun ⟨accepted, _⟩ => absurd fresh (by omega)
  · exact iff_of_true rfl ⟨by omega, registered⟩
  all_goals exact iff_of_false nofun fun ⟨_, registered'⟩ => registered registered'

theorem phase_eq_served : s.phase n = .served ↔ n < s.clients ∧
    s.epollPool (.client n) ≠ some messageRegistration ∧ ∃ w, (s.threads w).holds (.client n) := by
  rw [← any_holds_iff]
  unfold phase
  split_ifs with fresh registered owned
  · exact iff_of_false nofun fun ⟨accepted, _⟩ => absurd fresh (by omega)
  · exact iff_of_false nofun fun ⟨_, unregistered, _⟩ => unregistered registered
  · exact iff_of_true rfl ⟨by omega, registered, owned⟩
  · exact iff_of_false nofun fun ⟨_, _, owned'⟩ => owned owned'

/-- In a state of the invariant, a connection is in phase `dropped` exactly when it is
`Dropped`. -/
theorem phase_eq_dropped (inv : s.Invariant) : s.phase n = .dropped ↔ s.Dropped (.client n) := by
  have unfolded : s.phase n = .dropped ↔ n < s.clients ∧
      s.epollPool (.client n) ≠ some messageRegistration ∧
        ∀ w, ¬ (s.threads w).holds (.client n) := by
    rw [← not_exists, ← any_holds_iff]
    unfold phase
    split_ifs with fresh registered owned
    · exact iff_of_false nofun fun ⟨accepted, _⟩ => absurd fresh (by omega)
    · exact iff_of_false nofun fun ⟨_, unregistered, _⟩ => unregistered registered
    · exact iff_of_false nofun fun ⟨_, _, unowned⟩ => unowned owned
    · exact iff_of_true rfl ⟨by omega, registered, owned⟩
  rw [unfolded]
  constructor
  · rintro ⟨accepted, unregistered, unheld⟩
    refine ⟨?_, unheld, n, rfl, accepted⟩
    have fits := inv.fits (.client n)
    cases registered : s.epollPool (.client n) with
    | none => rfl
    | some registration =>
        rw [registered] at fits unregistered
        rcases fits with rfl | ⟨r, rfl⟩
        · exact absurd rfl unregistered
        · obtain ⟨w, armedAt⟩ := inv.armed _ r registered
          exact absurd (Stage.armed_holds armedAt) (unheld w)
  · rintro ⟨unregistered, unheld, m, same, accepted⟩
    cases same
    exact ⟨accepted, by simp [unregistered], unheld⟩

/-- The server refines the lifecycle: every step from a reachable state moves every connection
along one of its edges, or leaves it in its phase. -/
theorem phase_next (reachable : Reachable route s) {a : Action Q}
    (stepped : s.step route a = some s') (n : Nat) : (s.phase n).Next (s'.phase n) := by
  have inv := reachable.invariant
  have grows : s.clients ≤ s'.clients := by
    rcases clients_step stepped with same | ⟨more, -⟩ <;> omega
  cases before : s.phase n with
  | unaccepted =>
      have fresh := phase_eq_unaccepted.mp before
      rcases clients_step stepped with same | ⟨more, pool, w, fd, at_w⟩
      · rw [phase_eq_unaccepted.mpr (by omega)]
        exact .stay _
      · by_cases first : n = s.clients
        · subst first
          have unregistered : s'.epollPool (.client s.clients) = none := by
            rw [pool]; exact (inv.freshClient _ le_rfl).1
          rw [phase_eq_served.mpr
            ⟨by omega, by simp [unregistered], w, by rw [at_w]; exact .inr rfl⟩]
          exact .accept
        · rw [phase_eq_unaccepted.mpr (by omega)]
          exact .stay _
  | waiting =>
      obtain ⟨accepted, registered⟩ := phase_eq_waiting.mp before
      rcases epollPool_step stepped (.client n) with
        same | ⟨w, events, registration, -, registered', consumed, at_w⟩ | ⟨w, held⟩ | ⟨_, bad⟩ |
          ⟨-, bad⟩
      · rw [phase_eq_waiting.mpr ⟨by omega, same.trans registered⟩]
        exact .stay _
      · rw [registered] at registered'
        cases registered'
        rw [phase_eq_served.mpr ⟨by omega, by simp [consumed], w, by
          rw [at_w]; exact ⟨rfl, trivial⟩⟩]
        exact .dispatch
      · exact absurd held ((inv.exclusive _).2 (.inr (.inl registered)) w)
      · cases bad
      · cases bad
  | served =>
      have accepted : n < s.clients := by
        by_contra fresh
        rw [phase_eq_unaccepted.mpr (not_lt.mp fresh)] at before
        cases before
      cases after : s'.phase n
      · exact absurd (phase_eq_unaccepted.mp after) (by omega)
      · exact .stay _
      · exact .handBack
      · exact .drop
  | dropped =>
      have dropped := ((phase_eq_dropped inv).mp before).step stepped
      rw [(phase_eq_dropped (inv.step stepped)).mpr dropped]
      exact .stay _

end CvdServer

variable {Q H : Type} {route : Q → Except String H} {s t : CvdServer Q H}

/-- Along every run from a reachable state, every connection follows its lifecycle. -/
theorem ReachableFrom.phase_reach (reachable : Reachable route s)
    (from_s : ReachableFrom route s t) (n : Nat) :
    Relation.ReflTransGen Phase.Next (s.phase n) (t.phase n) := by
  induction from_s with
  | refl => exact .refl
  | step from_s_u stepped ih =>
      exact ih.tail (CvdServer.phase_next (from_s_u.reachable reachable) stepped n)

/-- The server once connection `0` waits in the pool for its first request, and the first
worker blocks in `HandleEvent`. -/
def waitingServer : CvdServer Unit Unit :=
  (CvdServer.run routeAll .init (acceptFirst firstWorker ++ waitForEvent firstWorker)).get
    (by decide)

/-- The server once `HandleEvent` has dispatched that request to the first worker. -/
def dispatchedServer : CvdServer Unit Unit :=
  (waitingServer.step routeAll (.worker firstWorker (.event (.client 0) ⟨true, false⟩))).get
    (by decide)

theorem phase_reach_dispatch :
    Reachable routeAll waitingServer ∧ ReachableFrom routeAll waitingServer dispatchedServer ∧
      waitingServer.phase 0 = .waiting ∧ dispatchedServer.phase 0 = .served ∧
      Relation.ReflTransGen Phase.Next (waitingServer.phase 0) (dispatchedServer.phase 0) :=
  have reachable : Reachable routeAll waitingServer := Reachable.of_run (Option.some_get _).symm
  have dispatched : ReachableFrom routeAll waitingServer dispatchedServer :=
    .step .refl (Option.some_get _).symm
  ⟨reachable, dispatched, by decide, by decide, ReachableFrom.phase_reach reachable dispatched 0⟩

end Cvd
end Cuttlefish
