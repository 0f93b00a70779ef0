import Mathlib.Logic.Function.Basic

/-!
# The epoll pool

`EpollPool` (`host/commands/cvd/epoll_loop.h`) is not among the sources; the server only
relies on its contract. A descriptor has at most one live registration, an interest mask and
a callback. `Register` refuses a descriptor that already has one, `Remove` refuses a descriptor
that has none, and `HandleEvent` consumes the registration of the descriptor it reports before
it runs the callback, so a callback that wants more events must register again.

Besides a double registration, the underlying `epoll_ctl` may refuse a descriptor (a regular
file, or a full watch table); the server sees that as a failed `Register` as well, so the
model takes it as an outcome chosen by the environment.
-/

namespace Cuttlefish
namespace Epoll

/-- Descriptors the cvd server registers. Every one is named after the call that produced it,
so two of them are equal exactly when they are the same open file. -/
inductive Fd
  /-- The `server_fd` passed on the command line. -/
  | server
  /-- The `n`-th descriptor returned by `SharedFD::Accept`. -/
  | client (n : Nat)
  /-- The `n`-th eventfd created by `BestEffortWakeup`. -/
  | event (n : Nat)
  deriving DecidableEq, Repr

/-- The interest mask of a registration. -/
inductive Interest
  | epollin
  | epollhup
  deriving DecidableEq, Repr

/-- The callbacks the server registers, by the lambda of `server.cc` they stand for. -/
inductive Callback
  /-- `StartServer`'s `cb` and `AcceptClient`'s `self_cb`: run `AcceptClient`. -/
  | acceptClient
  /-- `AcceptClient`'s `client_cb` and `HandleMessage`'s `self_cb`: run `HandleMessage`. -/
  | handleMessage
  /-- `HandleMessage`'s `interrupt_cb`, holding the `SharedState` of request `r`. -/
  | interrupt (r : Nat)
  /-- `BestEffortWakeup`'s `cb`, which does nothing. -/
  | wakeup
  deriving DecidableEq, Repr

/-- A live registration: an interest mask and a callback. -/
structure Registration where
  /-- The events asked for. -/
  interest : Interest
  /-- The callback run when the descriptor is reported. -/
  callback : Callback
  deriving DecidableEq, Repr

/-- The events reported for a descriptor (`EpollEvent::events`). `EPOLLHUP` and `EPOLLERR`
are reported whatever the interest, so a report may carry any of the two bits, or neither
(`EPOLLERR` alone). -/
structure Events where
  /-- `EPOLLIN` is set. -/
  epollin : Bool
  /-- `EPOLLHUP` is set. -/
  epollhup : Bool
  deriving DecidableEq, Repr

/-- Modelled from the spec: the registration table of `EpollPool`, one entry per descriptor. -/
abbrev Table := Fd → Option Registration

/-- The empty table. -/
def Table.empty : Table := fun _ => none

/-- Modelled from the spec: `EpollPool::Register(fd, interest, callback)`. It fails when `fd`
already has a live registration, or when `epoll_ctl` refuses it (`accepted = false`). -/
def register (table : Table) (fd : Fd) (registration : Registration) (accepted : Bool) :
    Option Table :=
  match table fd with
  | some _ => none
  | none => if accepted then some (Function.update table fd (some registration)) else none

/-- Modelled from the spec: `EpollPool::Remove(fd)`. It fails when `fd` has no live
registration. -/
def remove (table : Table) (fd : Fd) : Option Table :=
  match table fd with
  | some _ => some (Function.update table fd none)
  | none => none

/-- Modelled from the spec: `EpollPool::HandleEvent` consumes the registration of the
descriptor it reports before it runs the callback. -/
def consume (table : Table) (fd : Fd) : Table :=
  Function.update table fd none

@[simp] theorem empty_apply (fd : Fd) : Table.empty fd = none := rfl

theorem register_eq_some {table table' : Table} {fd : Fd} {registration : Registration}
    {accepted : Bool} (registered : register table fd registration accepted = some table') :
    table fd = none ∧ accepted = true ∧
      table' = Function.update table fd (some registration) := by
  unfold register at registered
  split at registered
  · cases registered
  · split at registered
    · cases registered
      exact ⟨‹_›, ‹_›, rfl⟩
    · cases registered

/-- A registration of a free descriptor fails only because `epoll_ctl` refused it. -/
theorem register_of_free {table : Table} {fd : Fd} (free : table fd = none)
    (registration : Registration) (accepted : Bool) :
    register table fd registration accepted =
      if accepted then some (Function.update table fd (some registration)) else none := by
  simp [register, free]

theorem remove_eq_some {table table' : Table} {fd : Fd}
    (removed : remove table fd = some table') :
    table fd ≠ none ∧ table' = Function.update table fd none := by
  unfold remove at removed
  split at removed
  · cases removed
    exact ⟨by simp_all, rfl⟩
  · cases removed

/-- A `Remove` whose result is ignored leaves the descriptor unregistered either way. -/
theorem remove_getD (table : Table) (fd : Fd) :
    (remove table fd).getD table = Function.update table fd none := by
  unfold remove
  split
  · rfl
  · rename_i unregistered
    rw [Option.getD_none, ← unregistered, Function.update_eq_self]

/-- A `Register` changes only the entry of its own descriptor. -/
theorem register_apply_ne {table table' : Table} {fd fd' : Fd} {registration : Registration}
    {accepted : Bool} (registered : register table fd registration accepted = some table')
    (other : fd' ≠ fd) : table' fd' = table fd' := by
  rw [(register_eq_some registered).2.2, Function.update_noteq other]

/-- A `Remove` changes only the entry of its own descriptor. -/
theorem remove_apply_ne {table table' : Table} {fd fd' : Fd}
    (removed : remove table fd = some table') (other : fd' ≠ fd) : table' fd' = table fd' := by
  rw [(remove_eq_some removed).2, Function.update_noteq other]

/-- What an updated table holds at a descriptor. -/
theorem update_eq_some {table : Table} {fd fd' : Fd} {entry : Option Registration}
    {registration : Registration} :
    Function.update table fd entry fd' = some registration ↔
      (fd' = fd ∧ entry = some registration) ∨ (fd' ≠ fd ∧ table fd' = some registration) := by
  by_cases same : fd' = fd
  · subst same; simp
  · simp [same]

end Epoll
end Cuttlefish
