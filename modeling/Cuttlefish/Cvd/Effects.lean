import Cuttlefish.Cvd.Invariant

/-!
# What each access to shared state needs

One lemma per kind of access the threads make to shared state: updating a request's
`SharedState`, `Stop()`, dropping, registering and consuming a registration, accepting a
descriptor, routing a request, running an interrupt callback, writing a wakeup eventfd, and
the main thread's moves. Each says under which conditions the access keeps the invariant;
the transitions of `Cuttlefish.Cvd.Reachable` combine them with a move of the thread.
-/

namespace Cuttlefish
namespace Cvd
namespace CvdServer

open Epoll

variable {Q H : Type} {s : CvdServer Q H} {w : Fin kNumThreads}

/-! ## Requests -/

theorem requests_updateRequest (r r' : Nat) (f : SharedState H → SharedState H) :
    (s.updateRequest r f).requests r' =
      if r' = r then (s.requests r').map f else s.requests r' := by
  by_cases hr : r' = r
  · subst hr; simp
  · simp [hr]

/-- Updating one request keeps the invariant when it keeps the request's descriptor, and
changes its counters only as the one `Handle` call or the one `Interrupt()` call does: from
zero, to at most one, with nobody left to make another. -/
theorem Invariant.updateRequest (inv : s.Invariant) (r : Nat) {f : SharedState H → SharedState H}
    (conn : ∀ shared, (f shared).conn = shared.conn)
    (handles : ∀ shared, s.requests r = some shared → (f shared).handles = shared.handles ∨
      (f shared).handles ≤ 1 ∧ ∀ v, ¬ (s.threads v).beforeHandle r)
    (interrupts : ∀ shared, s.requests r = some shared →
      (f shared).interrupts = shared.interrupts ∨
        (f shared).interrupts ≤ 1 ∧ ¬ s.ArmClaimed r ∧ ∀ v, ¬ (s.threads v).armHolder r) :
    (s.updateRequest r f).Invariant := by
  have back : ∀ {r' shared'}, (s.updateRequest r f).requests r' = some shared' →
      ∃ shared, s.requests r' = some shared ∧ shared'.conn = shared.conn ∧
        (shared'.handles = shared.handles ∨
          shared'.handles ≤ 1 ∧ ∀ v, ¬ (s.threads v).beforeHandle r') ∧
        (shared'.interrupts = shared.interrupts ∨
          shared'.interrupts ≤ 1 ∧ ¬ s.ArmClaimed r' ∧ ∀ v, ¬ (s.threads v).armHolder r') := by
    intro r' shared' routed
    rw [requests_updateRequest] at routed
    split at routed
    · rename_i same
      subst same
      obtain ⟨shared, found, rfl⟩ := Option.map_eq_some'.mp routed
      exact ⟨shared, found, conn shared, handles shared found, interrupts shared found⟩
    · exact ⟨shared', routed, rfl, .inl rfl, .inl rfl⟩
  have forth : ∀ {r' shared}, s.requests r' = some shared →
      ∃ shared', (s.updateRequest r f).requests r' = some shared' ∧ shared'.conn = shared.conn := by
    intro r' shared routed
    rw [requests_updateRequest]
    split
    · exact ⟨f shared, by simp [routed], conn shared⟩
    · exact ⟨shared, routed, rfl⟩
  refine
    { inv with
      armedRequest := fun fd r' registered => ?_
      requestLive := fun v r' routed => ?_
      armExclusive := fun r' => ?_
      interruptsLe := fun r' shared' routed => ?_
      handleOnce := fun r' => ?_
      handlesLe := fun r' shared' routed => ?_
      freshRequest := fun r' fresh => by
        rw [requests_updateRequest, inv.freshRequest r' fresh]; simp }
  · obtain ⟨shared, routed, sameConn, idle⟩ := inv.armedRequest fd r' registered
    obtain ⟨shared', routed', conn'⟩ := forth routed
    obtain ⟨shared'', found, -, -, kept | ⟨-, unclaimed, -⟩⟩ := back routed'
    · rw [found] at routed; cases routed
      exact ⟨shared', routed', conn'.trans sameConn, kept.trans idle⟩
    · exact absurd (.inl ⟨fd, registered⟩) unclaimed
  · obtain ⟨shared, routed, sameConn⟩ := inv.requestLive v r' routed
    obtain ⟨shared', routed', conn'⟩ := forth routed
    exact ⟨shared', routed', fun fd at_fd => conn'.trans (sameConn fd at_fd)⟩
  · by_cases untouched : ∀ shared, s.requests r' = some shared →
        ∀ shared', (s.updateRequest r f).requests r' = some shared' →
          shared'.interrupts = shared.interrupts
    · refine (inv.armExclusive r').weaken fun claimed => ?_
      rcases claimed with registered | ⟨shared', routed, fired⟩
      · exact .inl registered
      · obtain ⟨shared, routed', -, -, -⟩ := back routed
        exact .inr ⟨shared, routed', untouched shared routed' shared' routed ▸ fired⟩
    · push_neg at untouched
      obtain ⟨shared, routed, shared', routed', changed⟩ := untouched
      obtain ⟨shared'', found, -, -, kept | ⟨-, -, unheld⟩⟩ := back routed'
      · rw [found] at routed; cases routed; exact absurd kept changed
      · exact ⟨fun v _ held _ => (unheld v held).elim, fun _ v held => unheld v held⟩
  · obtain ⟨shared, routed', -, -, kept | ⟨le, -⟩⟩ := back routed
    · exact kept ▸ inv.interruptsLe r' shared routed'
    · exact le
  · by_cases untouched : ∀ shared, s.requests r' = some shared →
        ∀ shared', (s.updateRequest r f).requests r' = some shared' →
          shared'.handles = shared.handles
    · refine (inv.handleOnce r').weaken fun ⟨shared', routed, called⟩ => ?_
      obtain ⟨shared, routed', -, -, -⟩ := back routed
      exact ⟨shared, routed', untouched shared routed' shared' routed ▸ called⟩
    · push_neg at untouched
      obtain ⟨shared, routed, shared', routed', changed⟩ := untouched
      obtain ⟨shared'', found, -, kept | ⟨-, none⟩, -⟩ := back routed'
      · rw [found] at routed; cases routed; exact absurd kept changed
      · exact ⟨fun v _ held _ => (none v held).elim, fun _ v held => none v held⟩
  · obtain ⟨shared, routed', -, kept | ⟨le, -⟩, -⟩ := back routed
    · exact kept ▸ inv.handlesLe r' shared routed'
    · exact le

/-- An update of a request that keeps its descriptor and counters keeps the invariant. -/
theorem Invariant.updateRequest_of_keeps (inv : s.Invariant) (r : Nat)
    {f : SharedState H → SharedState H} (conn : ∀ shared, (f shared).conn = shared.conn)
    (handles : ∀ shared, (f shared).handles = shared.handles)
    (interrupts : ∀ shared, (f shared).interrupts = shared.interrupts) :
    (s.updateRequest r f).Invariant :=
  inv.updateRequest r conn (fun shared _ => .inl (handles shared))
    fun shared _ => .inl (interrupts shared)

/-- `shared->handler = nullptr` changes no counter. -/
theorem Invariant.clearHandler (inv : s.Invariant) (r : Nat) : (s.clearHandler r).Invariant :=
  inv.updateRequest_of_keeps r (fun _ => rfl) (fun _ => rfl) fun _ => rfl

/-- Destroying a request's injector changes no counter. -/
theorem Invariant.destroyInjector (inv : s.Invariant) (r : Nat) :
    (s.destroyInjector r).Invariant :=
  inv.updateRequest_of_keeps r (fun _ => rfl) (fun _ => rfl) fun _ => rfl

/-- The one `Handle` call of a request, made when no thread is about to make another. -/
theorem Invariant.callHandle (inv : s.Invariant) (r : Nat)
    (fresh : ∀ shared, s.requests r = some shared → shared.handles = 0)
    (unregistering : ∀ v, ¬ (s.threads v).beforeHandle r) :
    (s.callHandle r).Invariant :=
  inv.updateRequest r (fun _ => rfl)
    (fun shared routed => .inr ⟨by simp [fresh shared routed], unregistering⟩) fun _ _ => .inl rfl

/-- `interrupt_cb` of request `r`, run by the thread its one interrupt was dispatched to. -/
theorem Invariant.interrupt (inv : s.Invariant) (r : Nat) (unclaimed : ¬ s.ArmClaimed r)
    (unheld : ∀ v, ¬ (s.threads v).armHolder r) : (s.interrupt r).Invariant := by
  unfold CvdServer.interrupt
  refine inv.updateRequest r (fun shared => by split <;> rfl)
    (fun shared _ => .inl (by split <;> rfl)) fun shared routed => ?_
  split
  · have idle : shared.interrupts = 0 := by
      by_contra fired
      exact unclaimed (.inr ⟨shared, routed, fired⟩)
    exact .inr ⟨by simp [idle], unclaimed, unheld⟩
  · exact .inl rfl

theorem requests_newRequest (fd : Fd) (handler : H) (r : Nat) :
    (s.newRequest fd handler).requests r =
      if r = s.routed then some ⟨some handler, fd, true, 0, 0, 0⟩ else s.requests r := by
  by_cases hr : r = s.routed
  · subst hr; simp
  · simp [hr]

/-- Routing a request creates a fresh `SharedState`, nobody refers to yet. -/
theorem Invariant.newRequest (inv : s.Invariant) (fd : Fd) (handler : H) :
    (s.newRequest fd handler).Invariant := by
  have unrouted := inv.freshRequest s.routed le_rfl
  have old : ∀ {r shared}, s.requests r = some shared → r ≠ s.routed := by
    rintro r shared routed rfl
    rw [unrouted] at routed; cases routed
  have same : ∀ {r shared}, s.requests r = some shared →
      (s.newRequest fd handler).requests r = some shared := by
    intro r shared routed
    rw [requests_newRequest, if_neg (old routed), routed]
  have back : ∀ {r shared}, (s.newRequest fd handler).requests r = some shared →
      (r = s.routed ∧ shared = ⟨some handler, fd, true, 0, 0, 0⟩) ∨ s.requests r = some shared := by
    intro r shared routed
    rw [requests_newRequest] at routed
    split at routed
    · cases routed; exact .inl ⟨‹_›, rfl⟩
    · exact .inr routed
  refine
    { inv with
      armedRequest := fun fd' r registered => ?_
      requestLive := fun v r routed => ?_
      armExclusive := fun r => (inv.armExclusive r).weaken fun claimed => ?_
      interruptsLe := fun r shared routed => ?_
      handleOnce := fun r => (inv.handleOnce r).weaken fun ⟨shared, routed, called⟩ => ?_
      handlesLe := fun r shared routed => ?_
      freshRequest := fun r fresh => ?_ }
  · obtain ⟨shared, routed, rest⟩ := inv.armedRequest fd' r registered
    exact ⟨shared, same routed, rest⟩
  · obtain ⟨shared, routed', rest⟩ := inv.requestLive v r routed
    exact ⟨shared, same routed', rest⟩
  · rcases claimed with registered | ⟨shared, routed, fired⟩
    · exact .inl registered
    · rcases back routed with ⟨-, rfl⟩ | routed'
      · exact absurd rfl fired
      · exact .inr ⟨shared, routed', fired⟩
  · rcases back routed with ⟨-, rfl⟩ | routed'
    · exact Nat.zero_le 1
    · exact inv.interruptsLe r shared routed'
  · rcases back routed with ⟨-, rfl⟩ | routed'
    · exact absurd rfl called
    · exact ⟨shared, routed', called⟩
  · rcases back routed with ⟨-, rfl⟩ | routed'
    · exact Nat.zero_le 1
    · exact inv.handlesLe r shared routed'
  · rw [requests_newRequest, if_neg (by simp at fresh; omega)]
    exact inv.freshRequest r (by simp at fresh; omega)

/-! ## `running_` and the main thread -/

/-- `Stop()` keeps the invariant when a wakeup is pending at that moment. -/
theorem Invariant.stop (inv : s.Invariant) (pending : s.WakeupPending) : s.stop.Invariant :=
  { inv with shutdown := fun _ => pending }

/-- The main thread leaving `StartServer` for good, with every worker finished once it is
past `Join`. -/
theorem Invariant.setMain (inv : s.Invariant) {stage : MainStage}
    (started : stage ≠ .startServer)
    (finished : stage ≠ .join → ∀ w, s.threads w = .finished) : (s.setMain stage).Invariant :=
  { inv with
    exclusive := fun fd => (inv.exclusive fd).weaken fun claimed => by
      rcases claimed with registered | registered | ⟨starting, -⟩
      · exact .inl registered
      · exact .inr (.inl registered)
      · exact absurd starting started
    startServer := fun starting => absurd starting started
    mainFinished := fun _ joined => finished joined }

/-! ## The registration table -/

/-- A thread that owns `fd` sees it unregistered, or registered for an interrupt it answers
for itself. -/
theorem Invariant.pool_of_holds (inv : s.Invariant) {fd : Fd} (held : (s.threads w).holds fd) :
    s.epollPool fd = none ∨
      ∃ r, s.epollPool fd = some (interruptRegistration r) ∧ (s.threads w).armed fd r := by
  have kind := Stage.holds_kind (inv.wellKinded w) held
  have fits := inv.fits fd
  cases registered : s.epollPool fd with
  | none => exact .inl rfl
  | some registration =>
      rw [registered] at fits
      have claimed : ¬ s.Claimed fd := fun claimed => (inv.exclusive fd).2 claimed w held
      rcases kind with rfl | ⟨n, rfl⟩
      · exact absurd (.inl (fits ▸ registered)) claimed
      · rcases fits with rfl | ⟨r, rfl⟩
        · exact absurd (.inr (.inl registered)) claimed
        · obtain ⟨v, armedAt⟩ := inv.armed _ r registered
          have := (inv.exclusive _).1 v w (Stage.armed_holds armedAt) held
          subst this
          exact .inr ⟨r, rfl, armedAt⟩

/-- A thread that owns `fd`, and answers for no interrupt on it, sees it unregistered. -/
theorem Invariant.free_of_holds (inv : s.Invariant) {fd : Fd} (held : (s.threads w).holds fd)
    (unarmed : ∀ r, ¬ (s.threads w).armed fd r) : s.epollPool fd = none :=
  (inv.pool_of_holds held).resolve_right fun ⟨r, _, armedAt⟩ => unarmed r armedAt

/-- Dropping the registration of `fd` keeps the invariant, unless it was the last pending
wakeup after shutdown and no thread is awake to write another. -/
theorem Invariant.unregister (inv : s.Invariant) (fd : Fd)
    (wakeup : s.running = false → s.epollPool fd = some wakeupRegistration →
      ∃ v, (s.threads v).awake) :
    (s.setPool (Function.update s.epollPool fd none)).Invariant := by
  have before : ∀ {fd' registration},
      Function.update s.epollPool fd none fd' = some registration →
        fd' ≠ fd ∧ s.epollPool fd' = some registration := by
    intro fd' registration registered
    rcases update_eq_some.mp registered with ⟨-, impossible⟩ | kept
    · cases impossible
    · exact kept
  have none_of : ∀ {fd'}, s.epollPool fd' = none →
      Function.update s.epollPool fd none fd' = none := by
    intro fd' free
    by_cases hfd : fd' = fd
    · subst hfd; simp
    · simp [hfd, free]
  refine
    { inv with
      fits := fun fd' => ?_
      exclusive := fun fd' => (inv.exclusive fd').weaken fun claimed => ?_
      startServer := fun started => none_of (inv.startServer started)
      armed := fun fd' r registered => inv.armed fd' r (before registered).2
      armedRequest := fun fd' r registered => inv.armedRequest fd' r (before registered).2
      armExclusive := fun r => (inv.armExclusive r).weaken fun claimed => ?_
      freshClient := fun n fresh => ?_
      freshEvent := fun n fresh => none_of (inv.freshEvent n fresh)
      poolServed := fun fd' registered => inv.poolServed fd' (before registered).2
      shutdown := fun stopped => ?_ }
  · simp only [setPool_epollPool]
    by_cases hfd : fd' = fd
    · subst hfd; simp [Fits]
    · rw [Function.update_noteq hfd]; exact inv.fits fd'
  · rcases claimed with registered | registered | started
    · exact .inl (before registered).2
    · exact .inr (.inl (before registered).2)
    · exact .inr (.inr started)
  · rcases claimed with ⟨fd', registered⟩ | fired
    · exact .inl ⟨fd', (before registered).2⟩
    · exact .inr fired
  · obtain ⟨free, unheld, counted⟩ := inv.freshClient n fresh
    exact ⟨none_of free, unheld, counted⟩
  · rcases inv.shutdown stopped with aborted | finished | awake | ⟨n, pending⟩
    · exact .inl aborted
    · exact .inr (.inl finished)
    · exact .inr (.inr (.inl awake))
    · by_cases hfd : Fd.event n = fd
      · subst hfd; exact .inr (.inr (.inl (wakeup stopped pending)))
      · exact .inr (.inr (.inr ⟨n, by simpa [hfd] using pending⟩))

/-- The owner of a descriptor may drop its registration. -/
theorem Invariant.removeHeld (inv : s.Invariant) {fd : Fd} (held : (s.threads w).holds fd) :
    (s.setPool (Function.update s.epollPool fd none)).Invariant :=
  inv.unregister fd fun _ registered => by
    have fits := inv.fits fd
    rw [registered] at fits
    rcases Stage.holds_kind (inv.wellKinded w) held with rfl | ⟨n, rfl⟩
    · cases fits
    · rcases fits with impossible | ⟨r, impossible⟩ <;> cases impossible

/-- Registering a descriptor nobody owns, for `AcceptClient` or `HandleMessage`, hands it to
the pool. -/
theorem Invariant.registerFree (inv : s.Invariant) {fd : Fd} {registration : Registration}
    (free : s.epollPool fd = none) (unheld : ∀ v, ¬ (s.threads v).holds fd)
    (owning : registration = acceptRegistration ∨ registration = messageRegistration)
    (fitsFd : Fits fd (some registration))
    (notStarting : s.main = .startServer → fd ≠ .server)
    (accepted : ∀ n, s.clients ≤ n → fd ≠ .client n)
    (served : registration = messageRegistration → s.requestsRead fd = s.requestsServed fd) :
    (s.setPool (Function.update s.epollPool fd (some registration))).Invariant := by
  have notInterrupt : ∀ r, registration ≠ interruptRegistration r := by
    rintro r rfl
    rcases owning with impossible | impossible <;> cases impossible
  have notEvent : ∀ n, fd ≠ .event n := by
    rintro n rfl
    rcases owning with rfl | rfl <;> cases fitsFd
  have before : ∀ {fd' r}, Function.update s.epollPool fd (some registration) fd' =
      some (interruptRegistration r) → s.epollPool fd' = some (interruptRegistration r) := by
    intro fd' r registered
    rcases update_eq_some.mp registered with ⟨-, same⟩ | ⟨-, kept⟩
    · cases same; exact absurd rfl (notInterrupt r)
    · exact kept
  refine
    { inv with
      fits := fun fd' => ?_
      exclusive := fun fd' => ?_
      startServer := fun started => by
        simpa [Ne.symm (notStarting started)] using inv.startServer started
      armed := fun fd' r registered => inv.armed fd' r (before registered)
      armedRequest := fun fd' r registered => inv.armedRequest fd' r (before registered)
      armExclusive := fun r => (inv.armExclusive r).weaken fun claimed => ?_
      freshClient := fun n fresh => ?_
      freshEvent := fun n fresh => by
        simpa [Ne.symm (notEvent n)] using inv.freshEvent n fresh
      poolServed := fun fd' registered => ?_
      shutdown := fun stopped => ?_ }
  · simp only [setPool_epollPool]
    by_cases hfd : fd' = fd
    · subst hfd; simpa using fitsFd
    · rw [Function.update_noteq hfd]; exact inv.fits fd'
  · by_cases hfd : fd' = fd
    · subst hfd
      exact ⟨fun v _ held _ => (unheld v held).elim, fun _ v held => unheld v held⟩
    · refine (inv.exclusive fd').weaken fun claimed => ?_
      simpa [Claimed, hfd] using claimed
  · rcases claimed with ⟨fd', registered⟩ | fired
    · exact .inl ⟨fd', before registered⟩
    · exact .inr fired
  · obtain ⟨-, unheld', counted⟩ := inv.freshClient n fresh
    refine ⟨?_, unheld', counted⟩
    simpa [Ne.symm (accepted n fresh)] using (inv.freshClient n fresh).1
  · rcases update_eq_some.mp registered with ⟨rfl, same⟩ | ⟨-, kept⟩
    · cases same; exact served rfl
    · exact inv.poolServed fd' kept
  · rcases inv.shutdown stopped with aborted | finished | awake | ⟨n, pending⟩
    · exact .inl aborted
    · exact .inr (.inl finished)
    · exact .inr (.inr (.inl awake))
    · exact .inr (.inr (.inr ⟨n, by simpa [Ne.symm (notEvent n)] using pending⟩))

/-- Registering the interrupt of request `r` on its connection, for a thread that answers for
it, makes the request's one interrupt live. -/
theorem Invariant.registerInterrupt (inv : s.Invariant) {fd : Fd} {r : Nat}
    (free : s.epollPool fd = none) (connection : ∃ n, fd = .client n)
    (accepted : ∀ n, s.clients ≤ n → fd ≠ .client n)
    (answered : ∃ v, (s.threads v).armed fd r)
    (routed : ∃ shared, s.requests r = some shared ∧ shared.conn = fd ∧ shared.interrupts = 0)
    (unheld : ∀ v, ¬ (s.threads v).armHolder r) (unclaimed : ¬ s.ArmClaimed r) :
    (s.setPool (Function.update s.epollPool fd (some (interruptRegistration r)))).Invariant := by
  obtain ⟨m, rfl⟩ := connection
  have before : ∀ {fd' registration}, Function.update s.epollPool (.client m)
      (some (interruptRegistration r)) fd' = some registration →
        (fd' = .client m ∧ registration = interruptRegistration r) ∨
          s.epollPool fd' = some registration := by
    intro fd' registration registered
    rcases update_eq_some.mp registered with ⟨same, found⟩ | ⟨-, kept⟩
    · cases found; exact .inl ⟨same, rfl⟩
    · exact .inr kept
  refine
    { inv with
      fits := fun fd' => ?_
      exclusive := fun fd' => (inv.exclusive fd').weaken fun claimed => ?_
      startServer := fun started => by simpa using inv.startServer started
      armed := fun fd' r' registered => ?_
      armedRequest := fun fd' r' registered => ?_
      armExclusive := fun r' => ?_
      freshClient := fun n fresh => ?_
      freshEvent := fun n fresh => by simpa using inv.freshEvent n fresh
      poolServed := fun fd' registered => ?_
      shutdown := fun stopped => ?_ }
  · simp only [setPool_epollPool]
    by_cases hfd : fd' = .client m
    · subst hfd; simp [Fits, interruptRegistration, messageRegistration]
    · rw [Function.update_noteq hfd]; exact inv.fits fd'
  · rcases claimed with registered | registered | started
    · rcases before registered with ⟨-, impossible⟩ | kept
      · cases impossible
      · exact .inl kept
    · rcases before registered with ⟨-, impossible⟩ | kept
      · cases impossible
      · exact .inr (.inl kept)
    · exact .inr (.inr started)
  · rcases before registered with ⟨rfl, same⟩ | kept
    · cases same; exact answered
    · exact inv.armed fd' r' kept
  · rcases before registered with ⟨rfl, same⟩ | kept
    · cases same; exact routed
    · exact inv.armedRequest fd' r' kept
  · by_cases hr : r' = r
    · subst hr
      exact ⟨fun v _ held _ => (unheld v held).elim, fun _ v held => unheld v held⟩
    · refine (inv.armExclusive r').weaken fun claimed => ?_
      rcases claimed with ⟨fd', registered⟩ | fired
      · rcases before registered with ⟨-, same⟩ | kept
        · cases same; exact absurd rfl hr
        · exact .inl ⟨fd', kept⟩
      · exact .inr fired
  · obtain ⟨free', unheld', counted⟩ := inv.freshClient n fresh
    exact ⟨by simpa [Ne.symm (accepted n fresh)] using free', unheld', counted⟩
  · rcases before registered with ⟨-, impossible⟩ | kept
    · cases impossible
    · exact inv.poolServed fd' kept
  · rcases inv.shutdown stopped with aborted | finished | awake | ⟨n, pending⟩
    · exact .inl aborted
    · exact .inr (.inl finished)
    · exact .inr (.inr (.inl awake))
    · exact .inr (.inr (.inr ⟨n, by simpa using pending⟩))

/-! ## Fresh descriptors and wakeups -/

/-- `SharedFD::Accept` hands out a descriptor nobody has seen. -/
theorem Invariant.acceptFd (inv : s.Invariant) : s.acceptFd.Invariant :=
  { inv with
    freshClient := fun n fresh => inv.freshClient n (by simp at fresh; omega) }

@[simp] theorem threads_bestEffortWakeup (ok : Bool) :
    (s.bestEffortWakeup ok).threads = s.threads := by
  unfold CvdServer.bestEffortWakeup; split <;> rfl

@[simp] theorem running_bestEffortWakeup (ok : Bool) :
    (s.bestEffortWakeup ok).running = s.running := by
  unfold CvdServer.bestEffortWakeup; split <;> rfl

@[simp] theorem main_bestEffortWakeup (ok : Bool) : (s.bestEffortWakeup ok).main = s.main := by
  unfold CvdServer.bestEffortWakeup; split <;> rfl

/-- After `BestEffortWakeup` a wakeup is pending, or the process has aborted. -/
theorem bestEffortWakeup_pending (ok : Bool) :
    (s.bestEffortWakeup ok).aborted = true ∨
      ∃ n, (s.bestEffortWakeup ok).epollPool (.event n) = some wakeupRegistration := by
  unfold CvdServer.bestEffortWakeup
  split
  · rename_i table registered
    obtain ⟨-, -, rfl⟩ := register_eq_some registered
    exact .inr ⟨s.eventfds, by simp⟩
  · exact .inl rfl

/-- `BestEffortWakeup` and its `CHECK`: a fresh eventfd becomes a pending wakeup, or the
process aborts. -/
theorem Invariant.bestEffortWakeup (inv : s.Invariant) (ok : Bool) :
    (s.bestEffortWakeup ok).Invariant := by
  have free := inv.freshEvent s.eventfds le_rfl
  cases ok with
  | false =>
      have aborted : s.bestEffortWakeup false = s.abort := by
        simp [CvdServer.bestEffortWakeup, register_of_free free]
      rw [aborted]
      exact { inv with shutdown := fun _ => .inl rfl }
  | true =>
      have written : s.bestEffortWakeup true = (s.setPool (Function.update s.epollPool
          (.event s.eventfds) (some wakeupRegistration))).createEventfd := by
        simp [CvdServer.bestEffortWakeup, register_of_free free]
      rw [written]
      have before : ∀ {fd registration}, Function.update s.epollPool (.event s.eventfds)
          (some wakeupRegistration) fd = some registration →
            (fd = .event s.eventfds ∧ registration = wakeupRegistration) ∨
              s.epollPool fd = some registration := by
        intro fd registration registered
        rcases update_eq_some.mp registered with ⟨same, found⟩ | ⟨-, kept⟩
        · cases found; exact .inl ⟨same, rfl⟩
        · exact .inr kept
      refine
        { inv with
          fits := fun fd => ?_
          exclusive := fun fd => (inv.exclusive fd).weaken fun claimed => ?_
          startServer := fun started => by simpa using inv.startServer started
          armed := fun fd r registered => ?_
          armedRequest := fun fd r registered => ?_
          armExclusive := fun r => (inv.armExclusive r).weaken fun claimed => ?_
          freshClient := fun n fresh => by simpa using inv.freshClient n fresh
          freshEvent := fun n fresh => ?_
          poolServed := fun fd registered => ?_
          shutdown := fun _ => .inr (.inr (.inr ⟨s.eventfds, by simp⟩)) }
      · simp only [createEventfd_epollPool, setPool_epollPool]
        by_cases hfd : fd = .event s.eventfds
        · subst hfd; simp [Fits]
        · rw [Function.update_noteq hfd]; exact inv.fits fd
      · rcases claimed with registered | registered | started
        · rcases before registered with ⟨-, impossible⟩ | kept
          · cases impossible
          · exact .inl kept
        · rcases before registered with ⟨-, impossible⟩ | kept
          · cases impossible
          · exact .inr (.inl kept)
        · exact .inr (.inr started)
      · rcases before registered with ⟨-, impossible⟩ | kept
        · cases impossible
        · exact inv.armed fd r kept
      · rcases before registered with ⟨-, impossible⟩ | kept
        · cases impossible
        · exact inv.armedRequest fd r kept
      · rcases claimed with ⟨fd, registered⟩ | fired
        · rcases before registered with ⟨-, impossible⟩ | kept
          · cases impossible
          · exact .inl ⟨fd, kept⟩
        · exact .inr fired
      · have fresh' : s.eventfds < n := by simpa using fresh
        simpa [show n ≠ s.eventfds by omega] using inv.freshEvent n fresh'.le
      · rcases before registered with ⟨-, impossible⟩ | kept
        · cases impossible
        · exact inv.poolServed fd kept

end CvdServer

end Cvd
end Cuttlefish
