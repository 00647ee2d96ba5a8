/-
Module: ThreadScheduler.Proofs.Ownership
Purpose: Over whole runs every locked mutex has an owner that can unlock it, its line is exactly the
  threads that are blocked on it, and no blocked thread waits for a mutex that nobody can unlock.
Main exports: Kernel.SoundlyHeld, Kernel.MutexOwnership, Kernel.Reachable.mutexOwnership
-/
import ThreadScheduler.Proofs.Run

namespace ThreadScheduler.Kernel

variable {k : Kernel} {t : ThreadId} {thread : Thread} {m : MutexId} {mutex : Mutex}

/-- A thread with a record that has not ended. -/
def Alive (k : Kernel) (t : ThreadId) : Prop :=
  ∃ thread, k.threads.get? t = some thread ∧ thread.state ≠ .terminated

/-- Count, owner and line of a mutex agree with each other and with the records of the threads. -/
structure SoundlyHeld (k : Kernel) (m : MutexId) (mutex : Mutex) : Prop where
  handle : mutex.handle = m
  count : mutex.lockCount = 0 ↔ mutex.owner = none
  unqueued : mutex.owner = none → mutex.waiting = []
  owner : ∀ t, mutex.owner = some t → k.Alive t ∧ k.isIdle t = false ∧ t ∉ mutex.waiting
  once : mutex.waiting.Nodup
  waiters : ∀ t, t ∈ mutex.waiting ↔
    ∃ thread, k.threads.get? t = some thread ∧ thread.state = .blocked ∧ thread.waitingOn = some m

/-- Every mutex is soundly held, and whoever is blocked waits for a thread that can let it go on. -/
structure MutexOwnership (k : Kernel) : Prop where
  held : ∀ m mutex, k.mutexes.get? m = some mutex → k.SoundlyHeld m mutex
  awaited : ∀ t thread, k.threads.get? t = some thread → thread.state = .blocked →
    ∃ m mutex owner, thread.waitingOn = some m ∧ k.mutexes.get? m = some mutex ∧
      mutex.owner = some owner ∧ owner ≠ t ∧ k.Alive owner

namespace Regular

/-- The line of a mutex is exactly the threads that are blocked on it. -/
theorem mem_waiting_iff (h : k.Regular) (found : k.mutexes.get? m = some mutex) :
    t ∈ mutex.waiting ↔ ∃ thread, k.threads.get? t = some thread ∧ thread.state = .blocked ∧
      thread.waitingOn = some m := by
  rw [h.placement.mem_waiting_iff found]
  unfold place?
  rw [Option.map_eq_some_iff]
  exact exists_congr fun thread => and_congr_right fun _ => Thread.place_eq_line_iff

theorem soundlyHeld (h : k.Regular) (found : k.mutexes.get? m = some mutex) :
    k.SoundlyHeld m mutex := by
  refine ⟨h.placement.records.mutexHandle found, Mutex.lockCount_eq_zero_iff,
    Mutex.waiting_eq_nil_of_owner, fun t owns => ?_, ?_, fun t => h.mem_waiting_iff found⟩
  · obtain ⟨busy, thread, known, alive, _⟩ := h.orderly.owned m mutex t found owns
    exact ⟨⟨thread, known, alive⟩, busy, h.strange t found owns⟩
  · rw [← line_of_found found]
    exact (h.placement.listed (.line m)).once

/-- A mutex that somebody waits for is owned by somebody else. -/
theorem exists_owner (h : k.Regular) (known : k.threads.get? t = some thread)
    (blocked : thread.state = .blocked) :
    ∃ m mutex owner, thread.waitingOn = some m ∧ k.mutexes.get? m = some mutex ∧
      mutex.owner = some owner ∧ owner ≠ t ∧ k.Alive owner := by
  obtain ⟨m, waits⟩ := Option.isSome_iff_exists.mp ((h.placement.records.waits known).mpr blocked)
  have stands : k.place? t = some (.inside (.line m)) := by
    rw [place?_of_found known, Thread.place_eq_line_iff.mpr ⟨blocked, waits⟩]
  have listed : t ∈ k.line m := ((h.placement.listed (.line m)).mem_iff t).mpr stands
  obtain ⟨mutex, found, member⟩ := exists_mutex_of_mem_line listed
  cases owner : mutex.owner with
  | none =>
    rw [Mutex.waiting_eq_nil_of_owner owner] at member
    cases member
  | some other =>
    obtain ⟨alive, _, apart⟩ := (h.soundlyHeld found).owner other owner
    exact ⟨m, mutex, other, waits, found, owner, fun same => apart (same ▸ member), alive⟩

end Regular

/-- In every kernel that a run leads to, whatever interleaving of the processors it is, every mutex
is soundly held and no blocked thread is stranded. -/
theorem Reachable.mutexOwnership (reached : k.Reachable) : k.MutexOwnership where
  held _ _ found := reached.regular.soundlyHeld found
  awaited _ _ known blocked := reached.regular.exists_owner known blocked

/-- A run that leaves two threads in the line of a mutex. -/
theorem mutexOwnership_of_contention :
    ((twoProcessors.run contention).kernel.mutexes.get? (.ofIndex 0)).map
        (fun mutex => (mutex.owner, mutex.lockCount, mutex.waiting)) =
      some (some (.ofIndex 0), 1, [.ofIndex 3, .ofIndex 4]) ∧
      (twoProcessors.run contention).kernel.MutexOwnership :=
  ⟨by decide +kernel, Reachable.mutexOwnership reachable_contention⟩

end ThreadScheduler.Kernel
