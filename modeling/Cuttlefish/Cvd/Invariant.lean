import Cuttlefish.Cvd.Ownership

/-!
# The server invariant

One invariant of every reachable state of the server, proved by induction over the
transitions. It says which registrations each kind of descriptor can carry, that each
descriptor has at most one owner among the threads and the pool, that an interrupt
registration is live only for the `HandleMessage` call that made it and fires at most once,
that `Handle` is called at most once for a request, that reads and served requests on a
connection are counted in step, and that once `running_` is false some thread is awake or a
wakeup eventfd is pending.
-/

namespace Cuttlefish
namespace Cvd

open Epoll

variable {Q H : Type}

/-- The registrations a descriptor can carry: the listener only `AcceptClient`, a connection
`HandleMessage` or an interrupt, an eventfd only the no-op wakeup. -/
def Fits (fd : Fd) : Option Registration → Prop
  | none => True
  | some registration =>
      match fd with
      | .server => registration = acceptRegistration
      | .client _ =>
          registration = messageRegistration ∨ ∃ r, registration = interruptRegistration r
      | .event _ => registration = wakeupRegistration

namespace CvdServer

variable (s : CvdServer Q H)

/-- Some other party owns `fd`: the pool, for the next callback, or the main thread, which
is about to register the listener. -/
def Claimed (fd : Fd) : Prop :=
  s.epollPool fd = some acceptRegistration ∨ s.epollPool fd = some messageRegistration ∨
    (s.main = .startServer ∧ fd = .server)

/-- The interrupt of request `r` is registered somewhere, or has already fired. -/
def ArmClaimed (r : Nat) : Prop :=
  (∃ fd, s.epollPool fd = some (interruptRegistration r)) ∨
    ∃ shared, s.requests r = some shared ∧ shared.interrupts ≠ 0

/-- `Handle` has been called for request `r`. -/
def HandleCalled (r : Nat) : Prop :=
  ∃ shared, s.requests r = some shared ∧ shared.handles ≠ 0

/-- Every wakeup the server has asked for is done: all threads have returned, or a wakeup
eventfd is registered and ready, or a thread that will write one is awake. -/
def WakeupPending : Prop :=
  s.aborted = true ∨ (∀ w, s.threads w = .finished) ∨ (∃ w, (s.threads w).awake) ∨
    ∃ n, s.epollPool (.event n) = some wakeupRegistration

/-- The invariant of every reachable state. -/
structure Invariant : Prop where
  fits : ∀ fd, Fits fd (s.epollPool fd)
  wellKinded : ∀ w, (s.threads w).WellKinded
  exclusive : ∀ fd, AtMostOne s.threads (·.holds fd) (s.Claimed fd)
  startServer : s.main = .startServer → s.epollPool .server = none
  armed : ∀ fd r, s.epollPool fd = some (interruptRegistration r) →
    ∃ w, (s.threads w).armed fd r
  armedRequest : ∀ fd r, s.epollPool fd = some (interruptRegistration r) →
    ∃ shared, s.requests r = some shared ∧ shared.conn = fd ∧ shared.interrupts = 0
  requestLive : ∀ w r, (s.threads w).request = some r →
    ∃ shared, s.requests r = some shared ∧ ∀ fd, (s.threads w).conn = some fd → shared.conn = fd
  armExclusive : ∀ r, AtMostOne s.threads (·.armHolder r) (s.ArmClaimed r)
  interruptsLe : ∀ r shared, s.requests r = some shared → shared.interrupts ≤ 1
  handleOnce : ∀ r, AtMostOne s.threads (·.beforeHandle r) (s.HandleCalled r)
  handlesLe : ∀ r shared, s.requests r = some shared → shared.handles ≤ 1
  freshClient : ∀ n, s.clients ≤ n → s.epollPool (.client n) = none ∧
    (∀ w, ¬ (s.threads w).holds (.client n)) ∧
    s.requestsRead (.client n) = s.requestsServed (.client n)
  freshEvent : ∀ n, s.eventfds ≤ n → s.epollPool (.event n) = none
  freshRequest : ∀ r, s.routed ≤ r → s.requests r = none
  unserved : ∀ w fd k, (s.threads w).unserved fd = some k →
    s.requestsRead fd = s.requestsServed fd + k
  poolServed : ∀ fd, s.epollPool fd = some messageRegistration →
    s.requestsRead fd = s.requestsServed fd
  mainFinished : s.main ≠ .startServer → s.main ≠ .join → ∀ w, s.threads w = .finished
  shutdown : s.running = false → s.WakeupPending

/-! ## Field lemmas of the state updates -/

variable {s}

theorem init_invariant : (init : CvdServer Q H).Invariant where
  fits _ := trivial
  wellKinded _ := trivial
  exclusive _ := ⟨fun _ _ held => held.elim, fun _ _ held => held.elim⟩
  startServer _ := rfl
  armed _ _ registered := nomatch registered
  armedRequest _ _ registered := nomatch registered
  requestLive _ _ routed := nomatch routed
  armExclusive _ := ⟨fun _ _ held => held.elim, fun _ _ held => held.elim⟩
  interruptsLe _ _ routed := nomatch routed
  handleOnce _ := ⟨fun _ _ held => held.elim, fun _ _ held => held.elim⟩
  handlesLe _ _ routed := nomatch routed
  freshClient _ _ := ⟨rfl, fun _ held => held.elim, rfl⟩
  freshEvent _ _ := rfl
  freshRequest _ _ := rfl
  unserved _ _ _ counted := nomatch counted
  poolServed _ registered := nomatch registered
  mainFinished started := absurd rfl started
  shutdown running := nomatch running

/-! ## Moving one thread -/

variable {w : Fin kNumThreads} {before after : Stage Q}

/-- What a thread may do when it moves from `before` to `after` with no other change to the
state than its read and served counters: take only what it had or what nobody owns, keep
every live interrupt registration it answers for, refer only to live requests, and fall
asleep after shutdown only when a wakeup is pending. -/
structure MoveOk (s : CvdServer Q H) (before after : Stage Q) : Prop where
  holds : ∀ fd, after.holds fd → before.holds fd ∨ (¬ s.Claimed fd ∧ ∀ v, ¬ (s.threads v).holds fd)
  freshHolds : ∀ n, s.clients ≤ n → ¬ after.holds (.client n)
  armed : ∀ fd r, s.epollPool fd = some (interruptRegistration r) → before.armed fd r →
    after.armed fd r
  armHolder : ∀ r, after.armHolder r →
    before.armHolder r ∨ (¬ s.ArmClaimed r ∧ ∀ v, ¬ (s.threads v).armHolder r)
  request : ∀ r, after.request = some r →
    ∃ shared, s.requests r = some shared ∧ ∀ fd, after.conn = some fd → shared.conn = fd
  beforeHandle : ∀ r, after.beforeHandle r →
    before.beforeHandle r ∨ (¬ s.HandleCalled r ∧ ∀ v, ¬ (s.threads v).beforeHandle r)
  awake : s.running = false → before.awake → after.awake ∨ s.aborted = true ∨
    ∃ n, s.epollPool (.event n) = some wakeupRegistration
  wellKinded : after.WellKinded
  finished : before = .finished → after = .finished

/-- Moving a thread, and setting the read and served counters, keeps the invariant when the
move is allowed and the counters agree with every thread's unserved reads. -/
theorem Invariant.move (inv : s.Invariant) (hw : s.threads w = before) (ok : MoveOk s before after)
    {read served : Fd → Nat}
    (counted : ∀ v fd k, (Function.update s.threads w after v).unserved fd = some k →
      read fd = served fd + k)
    (pooled : ∀ fd, s.epollPool fd = some messageRegistration → read fd = served fd)
    (fresh : ∀ n, s.clients ≤ n → read (.client n) = served (.client n)) :
    ({ s with
        threads := Function.update s.threads w after
        requestsRead := read
        requestsServed := served } : CvdServer Q H).Invariant := by
  subst hw
  have keep : ∀ {P : Stage Q → Prop}, (∀ v, P (s.threads v)) → P after →
      ∀ v, P (Function.update s.threads w after v) :=
    fun all moved => (Function.forall_update_iff _ fun _ => _).mpr ⟨moved, fun v _ => all v⟩
  refine
    { fits := inv.fits
      wellKinded := keep inv.wellKinded ok.wellKinded
      exclusive := fun fd => (inv.exclusive fd).update
        (fun taken => (ok.holds fd taken).imp_right fun free => .inr free.2)
        fun claimed => ⟨.inl claimed, fun taken => ?_⟩
      startServer := inv.startServer
      armed := fun fd r registered => ?_
      armedRequest := inv.armedRequest
      requestLive := ?_
      armExclusive := fun r => (inv.armExclusive r).update
        (fun taken => (ok.armHolder r taken).imp_right fun free => .inr free.2)
        fun claimed => ⟨.inl claimed, fun taken => ?_⟩
      interruptsLe := inv.interruptsLe
      handleOnce := fun r => (inv.handleOnce r).update
        (fun taken => (ok.beforeHandle r taken).imp_right fun free => .inr free.2)
        fun claimed => ⟨.inl claimed, fun taken => ?_⟩
      handlesLe := inv.handlesLe
      freshClient := fun n isFresh => ?_
      freshEvent := inv.freshEvent
      freshRequest := inv.freshRequest
      unserved := counted
      poolServed := pooled
      mainFinished := fun started joined =>
        keep (P := (· = .finished)) (inv.mainFinished started joined)
          (ok.finished (inv.mainFinished started joined w))
      shutdown := fun stopped => ?_ }
  · rcases ok.holds fd taken with mine | ⟨unclaimed, -⟩
    · exact (inv.exclusive fd).2 claimed w mine
    · exact unclaimed claimed
  · obtain ⟨v, armedAt⟩ := inv.armed fd r registered
    by_cases hv : v = w
    · subst hv; exact ⟨v, by simpa using ok.armed fd r registered armedAt⟩
    · exact ⟨v, by simpa [hv] using armedAt⟩
  · intro v r routed
    by_cases hv : v = w
    · subst hv
      simp only [Function.update_same] at routed ⊢
      exact ok.request r routed
    · simp only [Function.update_noteq hv] at routed ⊢
      exact inv.requestLive v r routed
  · rcases ok.armHolder r taken with mine | ⟨unclaimed, -⟩
    · exact (inv.armExclusive r).2 claimed w mine
    · exact unclaimed claimed
  · rcases ok.beforeHandle r taken with mine | ⟨uncalled, -⟩
    · exact (inv.handleOnce r).2 claimed w mine
    · exact uncalled claimed
  · obtain ⟨free, unheld, _⟩ := inv.freshClient n isFresh
    exact ⟨free, keep (P := fun st => ¬ st.holds (.client n)) unheld (ok.freshHolds n isFresh),
      fresh n isFresh⟩
  · rcases inv.shutdown stopped with aborted | finished | ⟨v, awake⟩ | pending
    · exact .inl aborted
    · exact .inr (.inl (keep (P := (· = .finished)) finished (ok.finished (finished w))))
    · by_cases hv : v = w
      · subst hv
        rcases ok.awake stopped awake with awake' | aborted | pending
        · exact .inr (.inr (.inl ⟨v, by simpa using awake'⟩))
        · exact .inl aborted
        · exact .inr (.inr (.inr pending))
      · exact .inr (.inr (.inl ⟨v, by simpa [hv] using awake⟩))
    · exact .inr (.inr (.inr pending))

/-- A move along `Stage.Keeps` is allowed when it keeps the interrupt registrations that are
still live. -/
theorem MoveOk.of_keeps (inv : s.Invariant) (hw : s.threads w = before)
    (keeps : before.Keeps s.running after)
    (armed : ∀ fd r, s.epollPool fd = some (interruptRegistration r) → before.armed fd r →
      after.armed fd r) : MoveOk s before after where
  holds fd taken := .inl (keeps.holds fd taken)
  freshHolds n isFresh taken := (inv.freshClient n isFresh).2.1 w (hw ▸ keeps.holds _ taken)
  armed := armed
  armHolder r taken := .inl (keeps.armHolder r taken)
  request r routed := by
    obtain ⟨before_r, sameConn⟩ := keeps.request r routed
    rw [sameConn]
    exact hw ▸ inv.requestLive w r (hw ▸ before_r)
  beforeHandle r taken := .inl (keeps.beforeHandle r taken)
  awake stopped awake := (keeps.awake awake).imp_right fun running => by
    rw [stopped] at running; cases running
  wellKinded := keeps.wellKinded (hw ▸ inv.wellKinded w)
  finished := keeps.finished

/-- An allowed move that leaves the counters alone keeps the invariant when the thread's
unserved reads after the move are already counted. -/
theorem Invariant.moveTo (inv : s.Invariant) (hw : s.threads w = before)
    (ok : MoveOk s before after)
    (counted : ∀ fd k, after.unserved fd = some k → s.requestsRead fd = s.requestsServed fd + k) :
    (s.setStage w after).Invariant :=
  inv.move hw ok
    (fun v fd k pending => by
      by_cases hv : v = w
      · subst hv
        exact counted fd k (by simpa using pending)
      · exact inv.unserved v fd k (by simpa [hv] using pending))
    inv.poolServed fun n isFresh => (inv.freshClient n isFresh).2.2

/-- Moving a thread along `Stage.Follows` keeps the invariant. -/
theorem Invariant.setStage (inv : s.Invariant) (hw : s.threads w = before)
    (follows : before.Follows s.running after) : (s.setStage w after).Invariant :=
  inv.moveTo hw (.of_keeps inv hw follows.toKeeps fun fd r _ => follows.armed fd r)
    fun fd k pending => inv.unserved w fd k (hw ▸ follows.unserved fd k pending)

end CvdServer

end Cvd
end Cuttlefish
