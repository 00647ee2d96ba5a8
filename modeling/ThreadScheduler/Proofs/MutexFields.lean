/-
Module: ThreadScheduler.Proofs.MutexFields
Purpose: A mutex whose owner, count of locks and queue are kept in three fields that nothing ties
  together. Every operation leads such fields and a mutex with a hold to the same answer and keeps
  them alike, so the fields of a new mutex stay coherent: there is a lock to be given up while there
  is an owner, and nobody queues for a free mutex.
Main exports: MutexFields, MutexFields.lock, MutexFields.unlock, MutexFields.withdraw,
  MutexFields.handOff, MutexFields.Represents, MutexFields.Represents.run,
  MutexFields.one_le_lockCount
-/
import ThreadScheduler.Proofs.Possession
import ThreadScheduler.Time.Saturating

namespace ThreadScheduler

/-- Owner, locks and queue of a mutex. The count of locks is a 64-bit number. -/
structure MutexFields where
  owner : Option ThreadId := none
  lockCount : UInt64 := 0
  /-- The threads that wait for the mutex, the first in line first. -/
  waitQueue : List ThreadId := []
  deriving DecidableEq, Repr

namespace MutexFields

/-- The first in line gets the mutex with one lock; it is free if nobody waits. -/
def handOff (f : MutexFields) : Option ThreadId × MutexFields :=
  match f.waitQueue with
  | next :: rest => (some next, { owner := some next, lockCount := 1, waitQueue := rest })
  | [] => (none, {})

/-- A thread asks for the mutex. -/
def lock (f : MutexFields) (caller : ThreadId) : LockOutcome × MutexFields :=
  match f.owner with
  | none => (.acquired, { f with owner := some caller, lockCount := 1 })
  | some owner =>
      if owner = caller then
        let lockCount := Saturating.add f.lockCount 1
        (.reentered lockCount.toNat, { f with lockCount })
      else (.mustBlock, { f with waitQueue := f.waitQueue ++ [caller] })

/-- A thread gives up one lock. The subtraction turns over if there is none. -/
def unlock (f : MutexFields) (caller : ThreadId) : UnlockOutcome × MutexFields :=
  if f.owner ≠ some caller then (.notOwner, f)
  else
    let lockCount := f.lockCount - 1
    if 0 < lockCount then (.stillHeld lockCount.toNat, { f with lockCount })
    else (f.handOff.1.elim .released .handedOff, f.handOff.2)

/-- Takes a thread out of the mutex. -/
def withdraw (f : MutexFields) (thread : ThreadId) : Option (Removal × MutexFields) :=
  if f.owner = some thread then some (.owner f.handOff.1, f.handOff.2)
  else if f.waitQueue.contains thread then
    some (.waiter, { f with waitQueue := f.waitQueue.erase thread })
  else none

/-- Does something to the fields of a mutex. -/
def perform (f : MutexFields) : Mutex.Action → Mutex.Answer × MutexFields
  | .lock thread => (.locked (f.lock thread).1, (f.lock thread).2)
  | .unlock thread => (.unlocked (f.unlock thread).1, (f.unlock thread).2)
  | .withdraw thread =>
      (.withdrawn ((f.withdraw thread).map (·.1)), (f.withdraw thread).elim f (·.2))

/-- The fields after several actions. -/
def after (f : MutexFields) (actions : List Mutex.Action) : MutexFields :=
  Exchange.stateAfter perform f actions

/-- The fields are those of a mutex. -/
structure Represents (f : MutexFields) (m : Mutex) : Prop where
  owner : f.owner = m.owner
  count : f.lockCount.toNat = m.lockCount
  queue : f.waitQueue = m.waiting

variable {f : MutexFields} {m : Mutex} {t : ThreadId}

theorem represents_new (handle : MutexId) (name : String) :
    ({} : MutexFields).Represents { handle, name } := ⟨rfl, rfl, rfl⟩

namespace Represents

/-- The same thread gets the mutex next, with the same queue behind it. -/
theorem handOff (handle : MutexId) (name : String) {waiting : List ThreadId}
    (queue : f.waitQueue = waiting) :
    f.handOff.1 = (Hold.handOff waiting).map (·.owner) ∧
      f.handOff.2.Represents { handle, name, hold := Hold.handOff waiting } := by
  unfold MutexFields.handOff
  rw [queue]
  cases waiting with
  | nil => exact ⟨rfl, rfl, rfl, rfl⟩
  | cons next rest => exact ⟨rfl, rfl, rfl, rfl⟩

theorem lock (h : f.Represents m) (caller : ThreadId) :
    (f.lock caller).1 = (m.lock caller).1 ∧ (f.lock caller).2.Represents (m.lock caller).2 := by
  obtain ⟨handle, name, hold⟩ := m
  cases hold with
  | none =>
    have free : f.owner = none := h.owner
    simp only [MutexFields.lock, Mutex.lock, free]
    exact ⟨trivial, rfl, rfl, h.queue⟩
  | some hold =>
    have owned : f.owner = some hold.owner := h.owner
    have count : f.lockCount.toNat = hold.reentries + 1 := h.count
    have queue : f.waitQueue = hold.waiting := h.queue
    by_cases own : hold.owner = caller
    · -- Both counts stop at the largest 64-bit number.
      have counted : (Saturating.add f.lockCount 1).toNat =
          min (hold.reentries + 1) Hold.maxReentries + 1 := by
        rw [Saturating.toNat_add, count]
        exact (Nat.add_min_add_right _ _ 1)
      simp only [MutexFields.lock, Mutex.lock, owned, own, if_true]
      exact ⟨congrArg LockOutcome.reentered counted, rfl, counted, queue⟩
    · simp only [MutexFields.lock, Mutex.lock, owned, own, if_false]
      exact ⟨trivial, rfl, count, congrArg (· ++ [caller]) queue⟩

/-- An owner that has a lock gives up one, without turning the count over. -/
theorem toNat_lockCount_sub_one (h : f.Represents m) (owns : f.owner = some t) :
    (f.lockCount - 1).toNat + 1 = m.lockCount := by
  have locked : 0 < m.lockCount := Nat.pos_of_ne_zero fun none_left => by
    cases (h.owner.trans (Mutex.lockCount_eq_zero_iff.mp none_left)).symm.trans owns
  have positive : (1 : UInt64) ≤ f.lockCount := UInt64.le_iff_toNat_le.mpr (h.count ▸ locked)
  rw [UInt64.toNat_sub_of_le _ _ positive, h.count]
  exact Nat.sub_add_cancel locked

theorem unlock (h : f.Represents m) (caller : ThreadId) :
    (f.unlock caller).1 = (m.unlock caller).1 ∧
      (f.unlock caller).2.Represents (m.unlock caller).2 := by
  by_cases owns : f.owner = some caller
  · have left := h.toNat_lockCount_sub_one owns
    obtain ⟨handle, name, hold⟩ := m
    cases hold with
    | none => cases h.owner.symm.trans owns
    | some hold =>
      have own : hold.owner = caller := Option.some.inj (h.owner.symm.trans owns)
      have remaining : (f.lockCount - 1).toNat = hold.reentries := Nat.succ.inj left
      rw [MutexFields.unlock, if_neg (not_not.mpr owns)]
      cases locks : hold.reentries with
      | succ n =>
        have further : 0 < f.lockCount - 1 :=
          UInt64.lt_iff_toNat_lt.mpr (by rw [remaining, locks]; exact Nat.succ_pos n)
        simp only [if_pos further, Mutex.unlock, own, locks, if_true]
        exact ⟨congrArg UnlockOutcome.stillHeld (remaining.trans locks), owns.trans (own ▸ rfl),
          remaining.trans locks, h.queue⟩
      | zero =>
        have last : ¬ 0 < f.lockCount - 1 := fun further => by
          have positive := UInt64.lt_iff_toNat_lt.mp further
          rw [remaining, locks] at positive
          exact Nat.lt_irrefl 0 positive
        have queue : f.waitQueue = hold.waiting := h.queue
        obtain ⟨next, stands⟩ := handOff handle name queue
        rw [if_neg last, next]
        cases line : Hold.handOff hold.waiting with
        | none =>
          rw [line] at stands
          simp only [Mutex.unlock, own, locks, line, if_true]
          exact ⟨rfl, stands⟩
        | some heldNext =>
          rw [line] at stands
          simp only [Mutex.unlock, own, locks, line, if_true]
          exact ⟨rfl, stands⟩
  · have foreign : m.owner ≠ some caller := h.owner ▸ owns
    rw [MutexFields.unlock, if_pos owns, Mutex.unlock_of_foreign foreign]
    exact ⟨rfl, h⟩

theorem withdraw (h : f.Represents m) (thread : ThreadId) :
    (f.withdraw thread).map (·.1) = (m.withdraw thread).map (·.1) ∧
      ((f.withdraw thread).elim f (·.2)).Represents (m.without thread) := by
  obtain ⟨handle, name, hold⟩ := m
  cases hold with
  | none =>
    have free : f.owner = none := h.owner
    have empty : f.waitQueue = [] := h.queue
    have absent : f.withdraw thread = none := by simp [MutexFields.withdraw, free, empty]
    rw [absent]
    exact ⟨rfl, h⟩
  | some hold =>
    have owned : f.owner = some hold.owner := h.owner
    have queue : f.waitQueue = hold.waiting := h.queue
    by_cases own : hold.owner = thread
    · obtain ⟨next, stands⟩ := handOff handle name queue
      have taken : f.withdraw thread = some (.owner f.handOff.1, f.handOff.2) := by
        rw [MutexFields.withdraw, if_pos (own ▸ owned)]
      rw [taken, next]
      simp only [Mutex.without, Mutex.withdraw, own, if_true]
      exact ⟨rfl, stands⟩
    · by_cases waits : thread ∈ hold.waiting
      · have taken : f.withdraw thread =
            some (.waiter, { f with waitQueue := f.waitQueue.erase thread }) := by
          simp [MutexFields.withdraw, owned, own, queue, waits]
        rw [taken]
        simp only [Mutex.without, Mutex.withdraw, own, waits, if_true, if_false]
        exact ⟨rfl, owned, h.count, congrArg (·.erase thread) queue⟩
      · have absent : f.withdraw thread = none := by
          simp [MutexFields.withdraw, owned, own, queue, waits]
        rw [absent]
        simp only [Mutex.without, Mutex.withdraw, own, waits, if_false]
        exact ⟨rfl, h⟩

/-- The fields and the mutex answer an action alike and stay alike. -/
theorem perform (h : f.Represents m) (action : Mutex.Action) :
    (f.perform action).1 = (m.perform action).1 ∧
      (f.perform action).2.Represents (m.perform action).2 := by
  cases action with
  | lock thread => exact ⟨congrArg Mutex.Answer.locked (h.lock thread).1, (h.lock thread).2⟩
  | unlock thread => exact ⟨congrArg Mutex.Answer.unlocked (h.unlock thread).1, (h.unlock thread).2⟩
  | withdraw thread =>
    exact ⟨congrArg Mutex.Answer.withdrawn (h.withdraw thread).1, (h.withdraw thread).2⟩

/-- The fields and the mutex answer all actions alike and stay alike. -/
theorem run (h : f.Represents m) (actions : List Mutex.Action) :
    (Exchange.record MutexFields.perform f actions).map (·.answer) =
        (m.exchanges actions).map (·.answer) ∧
      (f.after actions).Represents (m.after actions) := by
  induction actions generalizing f m with
  | nil => exact ⟨rfl, h⟩
  | cons action later ih =>
    obtain ⟨answer, alike⟩ := h.perform action
    obtain ⟨answers, last⟩ := ih alike
    exact ⟨congr (congrArg List.cons answer) answers, last⟩

/-- There is a lock to be given up while there is an owner, and only then; and nobody queues for a
mutex without an owner. -/
theorem coherent (h : f.Represents m) :
    (0 < f.lockCount.toNat ↔ f.owner.isSome) ∧ (f.owner = none → f.waitQueue = []) := by
  constructor
  · rw [h.count, h.owner, Nat.pos_iff_ne_zero, Ne, Mutex.lockCount_eq_zero_iff, ← Ne,
      Option.isSome_iff_ne_none]
  · intro free
    exact h.queue.trans (Mutex.waiting_eq_nil_of_owner (h.owner.symm.trans free))

end Represents

/-- Whatever was done to a new mutex, its owner has a lock to give up. -/
theorem one_le_lockCount (actions : List Mutex.Action)
    (owns : (({} : MutexFields).after actions).owner = some t) :
    1 ≤ (({} : MutexFields).after actions).lockCount.toNat := by
  have alike := ((represents_new default "").run actions).2
  exact alike.coherent.1.mpr (by rw [owns]; rfl)

end MutexFields

end ThreadScheduler
