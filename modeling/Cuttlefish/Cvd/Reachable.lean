import Cuttlefish.Cvd.Effects

/-!
# The invariant of every reachable state

Every transition of `server.cc` keeps `CvdServer.Invariant`. A transition is checked in two
parts: the thread's move against what it owns (`MoveOk`, `Stage.Follows`), and its access to
shared state against the lemma of `Cuttlefish.Cvd.Effects` for that access. The cases follow
the transition functions: one per program point of `HandleMessage`, of the worker loop and of
the main thread. Induction over the transitions then gives the invariant of every state the
server reaches, under any interleaving.
-/

namespace Cuttlefish
namespace Cvd
namespace CvdServer

open Epoll

variable {Q H : Type} {s s' : CvdServer Q H} {w : Fin kNumThreads} {fd : Fd}
  {before after : Stage Q} {route : Q → Except String H}

/-! ## The owner of a descriptor -/

theorem Invariant.not_fresh (inv : s.Invariant) (held : (s.threads w).holds fd) {n : Nat}
    (fresh : s.clients ≤ n) : fd ≠ .client n := by
  rintro rfl
  exact (inv.freshClient n fresh).2.1 w held

theorem Invariant.not_pooled (inv : s.Invariant) (held : (s.threads w).holds fd) :
    s.epollPool fd ≠ some messageRegistration := fun registered =>
  (inv.exclusive fd).2 (.inr (.inl registered)) w held

theorem Invariant.unserved_ne (inv : s.Invariant) (held : (s.threads w).holds fd)
    {v : Fin kNumThreads} (other : v ≠ w) {fd' : Fd} {k : Nat}
    (pending : (s.threads v).unserved fd' = some k) : fd' ≠ fd := by
  rintro rfl
  exact other ((inv.exclusive fd').1 v w (Stage.unserved_holds pending) held)

/-- The owner of `fd` moves and sets the read and served counters of `fd`, and of no other
descriptor. -/
theorem Invariant.recount (inv : s.Invariant) (hw : s.threads w = before)
    (ok : MoveOk s before after) (held : before.holds fd) {read served : Fd → Nat}
    (others : ∀ fd', fd' ≠ fd → read fd' = s.requestsRead fd' ∧ served fd' = s.requestsServed fd')
    (counted : ∀ fd' k, after.unserved fd' = some k → fd' = fd ∧ read fd = served fd + k) :
    ({ s with
        threads := Function.update s.threads w after
        requestsRead := read
        requestsServed := served } : CvdServer Q H).Invariant := by
  subst hw
  refine inv.move rfl ok (fun v fd' k pending => ?_) (fun fd' registered => ?_) fun n fresh => ?_
  · by_cases hv : v = w
    · subst hv
      obtain ⟨rfl, recounted⟩ := counted fd' k (by simpa using pending)
      exact recounted
    · rw [Function.update_noteq hv] at pending
      obtain ⟨read_eq, served_eq⟩ := others fd' (inv.unserved_ne held hv pending)
      rw [read_eq, served_eq]
      exact inv.unserved v fd' k pending
  · obtain ⟨read_eq, served_eq⟩ := others fd' fun same => inv.not_pooled held (same ▸ registered)
    rw [read_eq, served_eq]
    exact inv.poolServed fd' registered
  · obtain ⟨read_eq, served_eq⟩ := others _ (Ne.symm (inv.not_fresh held fresh))
    rw [read_eq, served_eq]
    exact (inv.freshClient n fresh).2.2

/-- A thread hands a descriptor it owns, with no interrupt live on it, back to the pool for
`AcceptClient` or `HandleMessage`, and moves on without it. -/
theorem Invariant.handBack (inv : s.Invariant) (hw : s.threads w = before)
    (follows : before.Follows s.running after) {registration : Registration}
    (held : before.holds fd) (released : ¬ after.holds fd) (unarmed : ∀ r, ¬ before.armed fd r)
    (owning : registration = acceptRegistration ∨ registration = messageRegistration)
    (fitsFd : Fits fd (some registration))
    (served : registration = messageRegistration → before.unserved fd = some 0) :
    ((s.setPool (Function.update s.epollPool fd (some registration))).setStage w
      after).Invariant := by
  subst hw
  exact (inv.setStage rfl follows).registerFree (inv.free_of_holds held unarmed)
    ((Function.forall_update_iff _ fun _ (stage : Stage Q) => ¬ stage.holds fd).mpr
      ⟨released, fun v other mine => other ((inv.exclusive fd).1 v w mine held)⟩)
    owning fitsFd
    (fun starting => by
      rintro rfl
      exact (inv.exclusive _).2 (.inr (.inr ⟨starting, rfl⟩)) w held)
    (fun _ fresh => inv.not_fresh held fresh)
    fun message => by simpa using inv.unserved w fd 0 (served message)

/-! ## Dispatching an event -/

/-- A consumed descriptor is claimed by nobody. -/
theorem Invariant.unclaimed_consume (inv : s.Invariant) {registration : Registration}
    (registered : s.epollPool fd = some registration) :
    ¬ (s.setPool (consume s.epollPool fd)).Claimed fd := by
  rintro (taken | taken | ⟨starting, rfl⟩)
  · simp [consume] at taken
  · simp [consume] at taken
  · rw [inv.startServer starting] at registered
    cases registered

/-- `HandleEvent` hands the listener or a connection to a waiting thread, which takes it over
and claims nothing else. -/
theorem Invariant.takeOver (inv : s.Invariant) (hw : s.threads w = .inHandleEvent)
    (claimed : s.epollPool fd = some acceptRegistration ∨
      s.epollPool fd = some messageRegistration)
    (holds : ∀ fd', after.holds fd' → fd' = fd) (unholding : ∀ r, ¬ after.armHolder r)
    (request : after.request = none) (awake : after.awake) (wellKinded : after.WellKinded)
    (counted : ∀ fd' k, after.unserved fd' = some k →
      s.requestsRead fd' = s.requestsServed fd' + k) :
    ((s.setPool (consume s.epollPool fd)).setStage w after).Invariant := by
  obtain ⟨registration, registered, owning⟩ : ∃ registration, s.epollPool fd = some registration ∧
      (registration = acceptRegistration ∨ registration = messageRegistration) := by
    rcases claimed with registered | registered
    · exact ⟨_, registered, .inl rfl⟩
    · exact ⟨_, registered, .inr rfl⟩
  have taken := inv.unregister fd fun _ again => by
    rw [registered] at again
    rcases owning with rfl | rfl <;> cases again
  refine taken.moveTo hw
    { holds := fun fd' held => ?_
      freshHolds := fun n fresh held => ?_
      armed := fun _ _ _ armedAt => armedAt.elim
      armHolder := fun r holder => absurd holder (unholding r)
      request := fun r routed => by rw [request] at routed; cases routed
      beforeHandle := fun _ taken => by
        have routed := Stage.beforeHandle_request taken
        rw [request] at routed
        cases routed
      awake := fun _ _ => .inl awake
      wellKinded := wellKinded
      finished := fun stage => by cases stage } counted
  · obtain rfl := holds fd' held
    exact .inr ⟨inv.unclaimed_consume registered, (inv.exclusive fd').2 (by
      rcases claimed with registered | registered
      · exact .inl registered
      · exact .inr (.inl registered))⟩
  · obtain rfl := holds _ held
    rw [(inv.freshClient n fresh).1] at registered
    cases registered

/-- `HandleEvent` runs the interrupt callback of request `r` on a waiting thread, which then
holds the request's one interrupt. -/
theorem Invariant.takeInterrupt (inv : s.Invariant) (hw : s.threads w = .inHandleEvent) {r : Nat}
    (registered : s.epollPool fd = some (interruptRegistration r)) :
    ((s.setPool (consume s.epollPool fd)).setStage w (.interruptCallback r)).Invariant := by
  obtain ⟨shared, routed, conn, idle⟩ := inv.armedRequest fd r registered
  have taken := inv.unregister fd fun _ again => by rw [registered] at again; cases again
  refine taken.moveTo hw
    { holds := fun _ held => held.elim
      freshHolds := fun _ _ held => held.elim
      armed := fun _ _ _ armedAt => armedAt.elim
      armHolder := fun r' holder => .inr ⟨?_, ?_⟩
      request := fun r' routed' => ⟨shared, by cases routed'; exact routed, fun _ none => by
        cases none⟩
      beforeHandle := fun _ taken => taken.elim
      awake := fun _ _ => .inl trivial
      wellKinded := trivial
      finished := fun stage => by cases stage } fun _ _ pending => by cases pending
  · cases holder
    rintro (⟨fd', registered'⟩ | ⟨shared', routed', fired⟩)
    · obtain ⟨other, registered''⟩ :=
        (update_eq_some.mp registered').resolve_left fun ⟨_, impossible⟩ => by cases impossible
      obtain ⟨shared', routed', conn', -⟩ := inv.armedRequest fd' r registered''
      rw [routed] at routed'
      cases routed'
      exact other (conn'.symm.trans conn)
    · rw [setPool_requests, routed] at routed'
      cases routed'
      exact fired idle
  · cases holder
    exact (inv.armExclusive r).2 (.inl ⟨fd, registered⟩)

/-- One event reported by `HandleEvent` keeps the invariant, whatever its registration. -/
theorem Invariant.dispatch (inv : s.Invariant) (hw : s.threads w = .inHandleEvent)
    {registration : Registration} (registered : s.epollPool fd = some registration)
    (events : Events) :
    ((s.setPool (consume s.epollPool fd)).setStage w
      (Stage.ofCallback fd events registration.callback)).Invariant := by
  have fits := inv.fits fd
  rw [registered] at fits
  cases fd with
  | server =>
      subst fits
      exact inv.takeOver hw (.inl registered) (fun _ held => held) (fun _ => not_false)
        rfl trivial rfl fun _ _ pending => by cases pending
  | client n =>
      rcases fits with rfl | ⟨r, rfl⟩
      · dsimp only [messageRegistration, Stage.ofCallback]
        refine inv.takeOver hw (.inr registered) (fun _ held => held.1) (fun _ => not_false)
          rfl trivial ⟨n, rfl⟩ fun fd' k pending => ?_
        obtain ⟨rfl, rfl⟩ := by simpa using pending
        exact inv.poolServed _ registered
      · exact inv.takeInterrupt hw registered
  | event n =>
      subst fits
      dsimp only [wakeupRegistration, Stage.ofCallback]
      exact (inv.setStage hw (by constructor <;> (try constructor) <;> simp)).unregister _
        fun _ _ => ⟨w, by simp⟩

/-! ## `HandleMessage` -/

/-- Line 204 succeeded: the interrupt of request `r` is live on `fd`, and `Handle` is called
next. -/
theorem Invariant.armInterrupt (inv : s.Invariant) {r : Nat}
    (hw : s.threads w = .handleMessage fd (.registerInterrupt r)) :
    ((s.setPool (Function.update s.epollPool fd (some (interruptRegistration r)))).setStage w
      (.handleMessage fd (.callHandle r))).Invariant := by
  have held : (s.threads w).holds fd := by simp [hw]
  have holder : (s.threads w).armHolder r := by simp [hw]
  have unclaimed : ¬ s.ArmClaimed r := fun claimed => (inv.armExclusive r).2 claimed w holder
  obtain ⟨shared, routed, conn⟩ := inv.requestLive w r (by simp [hw])
  have idle : shared.interrupts = 0 := by
    by_contra fired
    exact unclaimed (.inr ⟨shared, routed, fired⟩)
  have connection : ∃ n, fd = .client n := by simpa [hw] using inv.wellKinded w
  have moved : (s.setStage w (.handleMessage fd (.callHandle r))).Invariant :=
    inv.setStage hw (by constructor <;> (try constructor) <;> simp)
  exact moved.registerInterrupt (inv.free_of_holds held (by simp [hw]))
    connection (fun _ fresh => inv.not_fresh held fresh) ⟨w, by simp⟩
    ⟨shared, routed, conn fd (by simp [hw]), idle⟩
    ((Function.forall_update_iff _ fun _ (stage : Stage Q) => ¬ stage.armHolder r).mpr
      ⟨by simp, fun v other held' => other ((inv.armExclusive r).1 v w held' holder)⟩)
    unclaimed

/-- Line 206: `Handle` is called, the one call for the request the thread routed. -/
theorem Invariant.startHandle (inv : s.Invariant) {r : Nat}
    (hw : s.threads w = .handleMessage fd (.callHandle r)) :
    ((s.callHandle r).setStage w (.handleMessage fd (.handle r))).Invariant := by
  have before : (s.threads w).beforeHandle r := by simp [hw]
  have moved : (s.setStage w (.handleMessage fd (.handle r))).Invariant :=
    inv.setStage hw (by constructor <;> (try constructor) <;> simp)
  exact moved.callHandle r
    (fun shared routed => by
      by_contra called
      exact (inv.handleOnce r).2 ⟨shared, routed, called⟩ w before)
    ((Function.forall_update_iff _ fun _ (stage : Stage Q) => ¬ stage.beforeHandle r).mpr
      ⟨by simp, fun v other held => other ((inv.handleOnce r).1 v w held before)⟩)

/-- A new request is routed to a handler: its fresh `SharedState` is the one the thread now
works for, and its interrupt is still unclaimed. -/
theorem Invariant.routeTo (inv : s.Invariant) {request : Q}
    (hw : s.threads w = .handleMessage fd (.requestHandler request)) (handler : H) :
    ((s.newRequest fd handler).setStage w
      (.handleMessage fd (.registerInterrupt s.routed))).Invariant := by
  have unrouted := inv.freshRequest s.routed le_rfl
  refine (inv.newRequest fd handler).moveTo hw
    { holds := fun fd' held => .inl (by simpa using held)
      freshHolds := fun n fresh held =>
        inv.not_fresh (show (s.threads w).holds fd by simp [hw]) fresh
          (by simp at held; exact held.symm)
      armed := fun _ _ _ armedAt => by simp at armedAt
      armHolder := fun r holder => .inr ⟨?_, fun v holder' => ?_⟩
      request := fun r routed => ⟨⟨some handler, fd, true, 0, 0, 0⟩,
        by simp at routed; simp [← routed], fun _ at_fd => by simpa using at_fd⟩
      beforeHandle := fun r taken => .inr ⟨?_, fun v taken' => ?_⟩
      awake := fun _ _ => .inl trivial
      wellKinded := by simpa [hw] using inv.wellKinded w
      finished := fun stage => by cases stage } fun fd' k pending => ?_
  · simp only [Stage.armHolder] at holder
    subst holder
    rintro (⟨fd', registered⟩ | ⟨shared, routed, fired⟩)
    · obtain ⟨shared, routed, -⟩ := inv.armedRequest fd' _ registered
      rw [unrouted] at routed
      cases routed
    · simp [requests_newRequest] at routed
      rw [← routed] at fired
      exact fired rfl
  · simp only [Stage.armHolder] at holder
    subst holder
    obtain ⟨shared, routed, -⟩ := inv.requestLive v _ (Stage.armHolder_request holder')
    rw [unrouted] at routed
    cases routed
  · simp only [Stage.beforeHandle, MessageStage.beforeHandle] at taken
    subst taken
    rintro ⟨shared, routed, called⟩
    simp [requests_newRequest] at routed
    rw [← routed] at called
    exact called rfl
  · simp only [Stage.beforeHandle, MessageStage.beforeHandle] at taken
    subst taken
    obtain ⟨shared, routed, -⟩ := inv.requestLive v _ (Stage.beforeHandle_request taken')
    rw [unrouted] at routed
    cases routed
  · simp only [Stage.unserved, MessageStage.unserved] at pending
    split at pending
    · subst fd'
      cases pending
      simpa [hw] using inv.unserved w fd 1
    · cases pending

/-- One step of `HandleMessage` keeps the invariant. -/
theorem Invariant.handleMessage (inv : s.Invariant) {m : MessageStage Q} {input : Input Q}
    (hw : s.threads w = .handleMessage fd m)
    (stepped : s.handleMessage route w fd m input = some s') : s'.Invariant := by
  have held : m.holds → (s.threads w).holds fd := fun holds => by rw [hw]; exact ⟨rfl, holds⟩
  have connection : ∃ n, fd = .client n := by simpa [hw] using inv.wellKinded w
  cases m with
  | start events =>
      cases input <;> simp only [CvdServer.handleMessage, reduceCtorEq] at stepped
      cases stepped
      split
      · exact inv.setStage hw (by constructor <;> (try constructor) <;> simp)
      · split
        · refine inv.recount hw (.of_keeps inv hw (by constructor <;> simp)
            fun _ _ _ armedAt => by simp at armedAt) ⟨rfl, trivial⟩
            (fun _ other => ⟨by simp [other], rfl⟩) fun fd' k pending => ?_
          simp only [Stage.unserved, MessageStage.unserved, Option.ite_none_right_eq_some,
            Option.some.injEq] at pending
          obtain ⟨rfl, rfl⟩ := pending
          have := inv.unserved w fd' 0 (by simp [hw])
          exact ⟨rfl, by simp; omega⟩
        · exact inv.setStage hw (by constructor <;> (try constructor) <;> simp)
  | getRequest =>
      cases input <;> simp only [CvdServer.handleMessage, reduceCtorEq] at stepped <;>
        cases stepped
      · split <;> exact inv.setStage hw (by constructor <;> (try constructor) <;> simp)
      · exact inv.setStage hw (by constructor <;> (try constructor) <;> simp)
  | requestHandler request =>
      cases input <;> simp only [CvdServer.handleMessage, reduceCtorEq] at stepped
      cases stepped
      split
      · exact inv.routeTo hw _
      · exact inv.setStage hw (by constructor <;> (try constructor) <;> simp)
  | registerInterrupt r =>
      cases input <;> simp only [CvdServer.handleMessage, reduceCtorEq] at stepped
      cases stepped
      split
      · rename_i registered
        obtain ⟨-, -, rfl⟩ := register_eq_some registered
        exact inv.armInterrupt hw
      · exact inv.setStage hw (by constructor <;> (try constructor) <;> simp)
  | callHandle r =>
      cases input <;> simp only [CvdServer.handleMessage, reduceCtorEq] at stepped
      cases stepped
      exact inv.startHandle hw
  | handle r =>
      cases input <;> simp only [CvdServer.handleMessage, reduceCtorEq] at stepped <;>
        cases stepped
      · split <;> exact inv.setStage hw (by constructor <;> (try constructor) <;> simp)
      · exact inv.stop (.inr (.inr (.inl ⟨w, by simp [hw]⟩)))
  | sendResponse r =>
      cases input <;> simp only [CvdServer.handleMessage, reduceCtorEq] at stepped
      cases stepped
      split <;> exact inv.setStage hw (by constructor <;> (try constructor) <;> simp)
  | clearHandler r =>
      cases input <;> simp only [CvdServer.handleMessage, reduceCtorEq] at stepped
      cases stepped
      exact (inv.clearHandler r).setStage hw (by constructor <;> (try constructor) <;> simp)
  | removeInterrupt r =>
      cases input <;> simp only [CvdServer.handleMessage, reduceCtorEq] at stepped
      cases stepped
      split
      · rename_i removed
        obtain ⟨-, rfl⟩ := remove_eq_some removed
        refine (inv.removeHeld (held trivial)).recount hw
          (.of_keeps (inv.removeHeld (held trivial)) hw (by constructor <;> simp)
            fun _ _ registered armedAt => by
              obtain ⟨rfl, -⟩ := armedAt
              simp at registered) ⟨rfl, trivial⟩
          (fun _ other => ⟨rfl, by simp [other]⟩) fun fd' k pending => ?_
        simp only [Stage.unserved, MessageStage.unserved, Option.ite_none_right_eq_some,
          Option.some.injEq] at pending
        obtain ⟨rfl, rfl⟩ := pending
        have := inv.unserved w fd' 1 (by simp [hw])
        exact ⟨rfl, by simp; omega⟩
      · exact inv.setStage hw (by constructor <;> (try constructor) <;> simp)
  | registerSelf r =>
      cases input <;> simp only [CvdServer.handleMessage, reduceCtorEq] at stepped
      cases stepped
      split
      · rename_i registered
        obtain ⟨-, -, rfl⟩ := register_eq_some registered
        obtain ⟨n, rfl⟩ := connection
        exact inv.handBack hw (by constructor <;> (try constructor) <;> simp) (by simp)
          (by simp) (by simp) (.inr rfl) (.inl rfl) fun _ => by simp
      · exact inv.setStage hw (by constructor <;> (try constructor) <;> simp)
  | cancel r =>
      cases input <;> simp only [CvdServer.handleMessage, reduceCtorEq] at stepped
      cases stepped
      exact (inv.destroyInjector r).setStage hw (by constructor <;> (try constructor) <;> simp)
  | unwind r =>
      cases input <;> simp only [CvdServer.handleMessage, reduceCtorEq] at stepped
      cases stepped
      exact (inv.destroyInjector r).setStage hw (by constructor <;> (try constructor) <;> simp)
  | remove =>
      cases input <;> simp only [CvdServer.handleMessage, reduceCtorEq] at stepped
      cases stepped
      rw [CvdServer.removeIgnored, remove_getD]
      exact (inv.removeHeld (held trivial)).setStage hw
        (by constructor <;> (try constructor) <;> simp)
  | abandonClient r =>
      cases input <;> simp only [CvdServer.handleMessage, reduceCtorEq] at stepped
      cases stepped
      rw [CvdServer.removeIgnored, remove_getD]
      exact (inv.removeHeld (held trivial)).moveTo hw
        (.of_keeps (inv.removeHeld (held trivial)) hw (by constructor <;> simp)
          fun _ _ registered armedAt => by
            obtain ⟨rfl, -⟩ := armedAt
            simp at registered)
        fun _ _ pending => by cases pending

/-! ## The worker loop and the main thread -/

/-- `SharedFD::Accept` succeeded: the thread owns the listener and the new connection. -/
theorem Invariant.acceptClient (inv : s.Invariant) {events : Events}
    (hw : s.threads w = .acceptClient fd events) :
    (s.acceptFd.setStage w (.registerClient fd s.clients)).Invariant := by
  have listener : fd = .server := by simpa [hw] using inv.wellKinded w
  obtain ⟨free, unheld, counted⟩ := inv.freshClient s.clients le_rfl
  refine inv.acceptFd.moveTo hw
    { holds := fun fd' held => ?_
      freshHolds := fun n fresh held => ?_
      armed := fun _ _ _ armedAt => armedAt.elim
      armHolder := fun _ holder => holder.elim
      request := fun _ routed => by cases routed
      beforeHandle := fun _ taken => taken.elim
      awake := fun _ _ => .inl trivial
      wellKinded := listener
      finished := fun stage => by cases stage } fun fd' k pending => ?_
  · rcases held with rfl | rfl
    · exact .inl rfl
    · refine .inr ⟨?_, unheld⟩
      rintro (registered | registered | ⟨-, impossible⟩)
      · simp [free] at registered
      · simp [free] at registered
      · cases impossible
  · rcases held with rfl | same
    · cases listener
    · cases same
      simp only [acceptFd_clients] at fresh
      omega
  · simp at pending
    obtain ⟨rfl, rfl⟩ := pending
    simpa using counted

/-- One step of a worker thread keeps the invariant. -/
theorem Invariant.workerStep (inv : s.Invariant) {stage : Stage Q} {input : Input Q}
    (hw : s.threads w = stage) (stepped : s.workerStep route w stage input = some s') :
    s'.Invariant := by
  cases stage with
  | checkRunning =>
      cases input <;> simp only [CvdServer.workerStep, reduceCtorEq] at stepped
      cases stepped
      split
      · rename_i running
        exact inv.setStage hw (by constructor <;> (try constructor) <;> simp [running])
      · exact inv.setStage hw (by constructor <;> (try constructor) <;> simp)
  | enterHandleEvent =>
      cases input <;> simp only [CvdServer.workerStep, reduceCtorEq] at stepped
      cases stepped
      exact inv.setStage hw (by constructor <;> (try constructor) <;> simp)
  | inHandleEvent =>
      cases input <;> simp only [CvdServer.workerStep, reduceCtorEq] at stepped
      · cases stepped
        exact inv.setStage hw (by constructor <;> (try constructor) <;> simp)
      · obtain ⟨registration, registered, rfl⟩ := Option.map_eq_some'.mp stepped
        exact inv.dispatch hw registered _
  | acceptClient fd events =>
      cases input <;> simp only [CvdServer.workerStep, reduceCtorEq] at stepped
      cases stepped
      split
      · exact inv.acceptClient hw
      · exact inv.setStage hw (by constructor <;> (try constructor) <;> simp)
  | registerClient fd n =>
      cases input <;> simp only [CvdServer.workerStep, reduceCtorEq] at stepped
      cases stepped
      have listener : fd = .server := by simpa [hw] using inv.wellKinded w
      subst listener
      split
      · rename_i registered
        obtain ⟨-, -, rfl⟩ := register_eq_some registered
        exact inv.handBack hw (by constructor <;> (try constructor) <;> simp) (by simp)
          (by simp) (by simp) (.inr rfl) (.inl rfl) fun _ => by simp
      · exact inv.setStage hw (by constructor <;> (try constructor) <;> simp)
  | registerListener fd =>
      cases input <;> simp only [CvdServer.workerStep, reduceCtorEq] at stepped
      cases stepped
      have listener : fd = .server := by simpa [hw] using inv.wellKinded w
      subst listener
      split
      · rename_i registered
        obtain ⟨-, -, rfl⟩ := register_eq_some registered
        exact inv.handBack hw (by constructor <;> (try constructor) <;> simp) (by simp)
          (by simp) (by simp) (.inl rfl) rfl fun message => absurd message (by decide)
      · exact inv.setStage hw (by constructor <;> (try constructor) <;> simp)
  | stopOnFailure fd =>
      cases input <;> simp only [CvdServer.workerStep, reduceCtorEq] at stepped
      cases stepped
      exact (inv.stop (.inr (.inr (.inl ⟨w, by simp [hw]⟩)))).setStage hw
        (by constructor <;> (try constructor) <;> simp)
  | handleMessage fd m =>
      exact inv.handleMessage hw stepped
  | interruptCallback r =>
      cases input <;> simp only [CvdServer.workerStep, reduceCtorEq] at stepped
      cases stepped
      have holder : (s.threads w).armHolder r := by simp [hw]
      have moved : (s.setStage w .checkRunning).Invariant :=
        inv.setStage hw (by constructor <;> (try constructor) <;> simp)
      exact moved.interrupt r
        (fun claimed => (inv.armExclusive r).2 claimed w holder)
        ((Function.forall_update_iff _ fun _ (stage : Stage Q) => ¬ stage.armHolder r).mpr
          ⟨by simp, fun v other held => other ((inv.armExclusive r).1 v w held holder)⟩)
  | bestEffortWakeup =>
      cases input <;> simp only [CvdServer.workerStep, reduceCtorEq] at stepped
      cases stepped
      rename_i ok
      exact (inv.bestEffortWakeup ok).moveTo
        (show (s.bestEffortWakeup ok).threads w = .bestEffortWakeup by simp [hw])
        { holds := fun _ held => held.elim
          freshHolds := fun _ _ held => held.elim
          armed := fun _ _ _ armedAt => armedAt.elim
          armHolder := fun _ holder => holder.elim
          request := fun _ routed => by cases routed
          beforeHandle := fun _ taken => taken.elim
          awake := fun _ _ => .inr (bestEffortWakeup_pending ok)
          wellKinded := trivial
          finished := fun stage => by cases stage } fun _ _ pending => by cases pending
  | finished =>
      cases input <;> simp only [CvdServer.workerStep, reduceCtorEq] at stepped

/-- One step of the main thread keeps the invariant. -/
theorem Invariant.mainStep (inv : s.Invariant) {stage : MainStage} {input : Input Q}
    (hmain : s.main = stage) (stepped : s.mainStep stage input = some s') : s'.Invariant := by
  cases stage with
  | startServer =>
      cases input <;> simp only [CvdServer.mainStep, reduceCtorEq] at stepped
      cases stepped
      rename_i ok
      have started : (s.setMain .join).Invariant :=
        inv.setMain (by decide) fun joined => absurd rfl joined
      cases registered : register s.epollPool .server acceptRegistration ok with
      | none => exact started
      | some table =>
          obtain ⟨free, -, rfl⟩ := register_eq_some registered
          exact started.registerFree free
            (fun v => (inv.exclusive .server).2 (.inr (.inr ⟨hmain, rfl⟩)) v) (.inl rfl) rfl
            (fun starting => by cases starting) (fun _ _ impossible => by cases impossible)
            fun message => absurd message (by decide)
  | join =>
      cases input <;> simp only [CvdServer.mainStep, reduceCtorEq] at stepped
      split at stepped
      · cases stepped
        exact inv.setMain (by decide) fun _ => (allFinished_eq_true s).mp ‹_›
      · cases stepped
  | destructor =>
      cases input <;> simp only [CvdServer.mainStep, reduceCtorEq] at stepped
      cases stepped
      have finished := inv.mainFinished (by simp [hmain]) (by simp [hmain])
      exact (inv.stop (.inr (.inl finished))).setMain (by decide) fun _ => finished
  | destructorWakeup =>
      cases input <;> simp only [CvdServer.mainStep, reduceCtorEq] at stepped
      cases stepped
      rename_i ok
      have finished := inv.mainFinished (by simp [hmain]) (by simp [hmain])
      exact (inv.bestEffortWakeup ok).setMain (by decide) fun _ w => by simpa using finished w
  | exited =>
      cases input <;> simp only [CvdServer.mainStep, reduceCtorEq] at stepped

/-- Every transition keeps the invariant. -/
theorem Invariant.step (inv : s.Invariant) {a : Action Q} (stepped : s.step route a = some s') :
    s'.Invariant := by
  cases a with
  | worker w input =>
      simp only [CvdServer.step] at stepped
      split at stepped
      · cases stepped
      · exact inv.workerStep rfl stepped
  | main input =>
      simp only [CvdServer.step] at stepped
      split at stepped
      · cases stepped
      · exact inv.mainStep rfl stepped

end CvdServer

variable {Q H : Type} {route : Q → Except String H} {s t : CvdServer Q H}

/-- The invariant holds in every state the server reaches. -/
theorem Reachable.invariant (reachable : Reachable route s) : s.Invariant := by
  induction reachable with
  | init => exact CvdServer.init_invariant
  | step _ stepped inv => exact inv.step stepped

/-- The invariant holds from a state that has it on. -/
theorem ReachableFrom.preserves_invariant (inv : s.Invariant) (from_s : ReachableFrom route s t) :
    t.Invariant := by
  induction from_s with
  | refl => exact inv
  | step _ stepped inv_t => exact inv_t.step stepped

end Cvd
end Cuttlefish
