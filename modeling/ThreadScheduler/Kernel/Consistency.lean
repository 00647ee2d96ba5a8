/-
Module: ThreadScheduler.Kernel.Consistency
Purpose: The check that every thread is in exactly the container that its state names.
Main exports: Kernel.isConsistent, Kernel.check
-/
import ThreadScheduler.Kernel.State

namespace ThreadScheduler.Kernel

/-- The mutexes in whose lines a thread waits. -/
def waitsFor (k : Kernel) (id : ThreadId) : List MutexId :=
  (k.mutexes.toList.filter (·.isWaiting id)).map (·.handle)

/-- The number of processors on which a thread runs. -/
def runningCount (k : Kernel) (id : ThreadId) : Nat := k.cpus.countP (·.running = some id)

/-- Whether a thread is in exactly the container that its state names. An idle thread that does not
run is in none, and a terminated one may still be in the slot of the processor it ran on. -/
def isConsistent (k : Kernel) (thread : Thread) : Bool :=
  let id := thread.id
  let inReady := k.ready.contains id
  let inTimeline := k.sleeping.contains id
  let waits := k.waitsFor id
  let onCpu := k.runningCount id
  let memberships := inReady.toNat + inTimeline.toNat + waits.length + onCpu
  match thread.state with
  | .ready => if k.isIdle id then memberships = 0 else inReady ∧ memberships = 1
  | .running => onCpu = 1 ∧ memberships = 1
  | .sleeping => inTimeline ∧ memberships = 1
  | .blocked => memberships = 1 ∧ thread.waitingOn.any (waits = [·])
  | .terminated => memberships = onCpu ∧ onCpu ≤ 1

/-- Fails with the first thread that is not where its state says. -/
def check (k : Kernel) : Except SchedulerError Unit :=
  match k.threads.toList.find? (! k.isConsistent ·) with
  | none => .ok ()
  | some thread => .error (.thread (.inconsistent thread.id.value))

end ThreadScheduler.Kernel
