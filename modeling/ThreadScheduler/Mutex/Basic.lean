/-
Module: ThreadScheduler.Mutex.Basic
Purpose: A recursive mutex with first-in first-out hand-off. It keeps account of owner and waiters
  only; its operations tell what became of the caller, and the kernel moves threads accordingly.
Main exports: Hold, Mutex, Mutex.lock, Mutex.unlock, Mutex.withdraw
-/
import ThreadScheduler.Handle

namespace ThreadScheduler

/-- Who owns a locked mutex and who waits for it. A free mutex has no hold, so only a locked mutex
has waiters and a count. -/
structure Hold where
  owner : ThreadId
  /-- Locks the owner took beyond the first. -/
  reentries : Nat := 0
  /-- The threads that wait for the mutex, the first in line first. -/
  waiting : List ThreadId := []
  deriving DecidableEq, Repr, Inhabited

/-- A mutex that threads lock through the kernel. -/
structure Mutex where
  handle : MutexId
  name : String
  hold : Option Hold := none
  deriving DecidableEq, Repr, Inhabited

/-- What became of a request to lock a mutex. -/
inductive LockOutcome where
  /-- The mutex was free and belongs to the caller now. -/
  | acquired
  /-- The caller owned it already; the locks it holds now. -/
  | reentered (count : Nat)
  /-- Another thread owns it; the caller waits at the end of the line. -/
  | mustBlock
  deriving DecidableEq, Repr

/-- The outcome as shown in log messages. -/
def LockOutcome.describe : LockOutcome → String
  | .acquired => "Acquired"
  | .reentered count => s!"Reentered({count})"
  | .mustBlock => "MustBlock"

/-- What became of a request to unlock a mutex. -/
inductive UnlockOutcome where
  /-- The caller does not own the mutex and nothing changed. -/
  | notOwner
  /-- The caller still owns it; the locks it holds now. -/
  | stillHeld (count : Nat)
  /-- The mutex is free. -/
  | released
  /-- The first in line owns it now and must be made ready. -/
  | handedOff (next : ThreadId)
  deriving DecidableEq, Repr

/-- How a thread taken out of a mutex was involved with it. -/
inductive Removal where
  /-- It only waited. -/
  | waiter
  /-- It owned the mutex; the owner after it, if somebody waited. -/
  | owner (nextOwner : Option ThreadId)
  deriving DecidableEq, Repr

namespace Hold

/-- The number of locks the owner holds. -/
def count (hold : Hold) : Nat := hold.reentries + 1

/-- The re-entries at which counting stops: the count of locks is a 64-bit number. -/
def maxReentries : Nat := UInt64.size - 2

/-- The hold after its owner gives up all locks: the first in line gets the first lock. -/
def handOff : List ThreadId → Option Hold
  | [] => none
  | next :: rest => some { owner := next, waiting := rest }

end Hold

namespace Mutex

/-- The thread that owns the mutex. -/
def owner (m : Mutex) : Option ThreadId := m.hold.map (·.owner)

/-- The number of locks the owner holds; none on a free mutex. -/
def lockCount (m : Mutex) : Nat := m.hold.elim 0 Hold.count

/-- The threads that wait for the mutex, the first in line first. -/
def waiting (m : Mutex) : List ThreadId := m.hold.elim [] (·.waiting)

/-- Whether some thread owns the mutex. -/
def isLocked (m : Mutex) : Bool := m.hold.isSome

/-- Whether a thread waits for the mutex. -/
def isWaiting (m : Mutex) (thread : ThreadId) : Bool := m.waiting.contains thread

/-- A thread asks for the mutex. -/
def lock (m : Mutex) (caller : ThreadId) : LockOutcome × Mutex :=
  match m.hold with
  | none => (.acquired, { m with hold := some { owner := caller } })
  | some hold =>
      if hold.owner = caller then
        let hold := { hold with reentries := min (hold.reentries + 1) Hold.maxReentries }
        (.reentered hold.count, { m with hold := some hold })
      else (.mustBlock, { m with hold := some { hold with waiting := hold.waiting ++ [caller] } })

/-- A thread gives up one lock; with its last lock the mutex passes to the first in line. -/
def unlock (m : Mutex) (caller : ThreadId) : UnlockOutcome × Mutex :=
  match m.hold with
  | none => (.notOwner, m)
  | some hold =>
      if hold.owner = caller then
        match hold.reentries with
        | n + 1 => (.stillHeld (n + 1), { m with hold := some { hold with reentries := n } })
        | 0 =>
            match Hold.handOff hold.waiting with
            | none => (.released, { m with hold := none })
            | some next => (.handedOff next.owner, { m with hold := some next })
      else (.notOwner, m)

/-- Takes a thread out of the mutex: an owner gives up all its locks at once, a waiter leaves its
first place in the line. None if the thread was not involved. -/
def withdraw (m : Mutex) (thread : ThreadId) : Option (Removal × Mutex) :=
  match m.hold with
  | none => none
  | some hold =>
      if hold.owner = thread then
        let next := Hold.handOff hold.waiting
        some (.owner (next.map (·.owner)), { m with hold := next })
      else if thread ∈ hold.waiting then
        some (.waiter, { m with hold := some { hold with waiting := hold.waiting.erase thread } })
      else none

/-- A mutex without locks is one without an owner. -/
theorem lockCount_eq_zero_iff {m : Mutex} : m.lockCount = 0 ↔ m.owner = none := by
  obtain ⟨handle, name, hold⟩ := m
  cases hold <;> simp [lockCount, owner, Hold.count]

/-- Nobody waits for a mutex without an owner. -/
theorem waiting_eq_nil_of_owner {m : Mutex} (h : m.owner = none) : m.waiting = [] := by
  simp_all [owner, waiting]

@[simp] theorem handle_lock (m : Mutex) (caller : ThreadId) :
    (m.lock caller).2.handle = m.handle := by
  unfold lock
  split
  · rfl
  · split <;> rfl

@[simp] theorem handle_unlock (m : Mutex) (caller : ThreadId) :
    (m.unlock caller).2.handle = m.handle := by
  unfold unlock
  split
  · rfl
  · split
    · split
      · rfl
      · split <;> rfl
    · rfl

theorem handle_of_withdraw {m rest : Mutex} {thread : ThreadId} {removal : Removal}
    (h : m.withdraw thread = some (removal, rest)) : rest.handle = m.handle := by
  unfold withdraw at h
  split at h
  · cases h
  · split at h
    · obtain ⟨rfl, rfl⟩ := Prod.mk.injEq .. ▸ Option.some.inj h
      rfl
    · split at h
      · obtain ⟨rfl, rfl⟩ := Prod.mk.injEq .. ▸ Option.some.inj h
        rfl
      · cases h

end Mutex

end ThreadScheduler
