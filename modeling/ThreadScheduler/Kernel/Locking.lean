/-
Module: ThreadScheduler.Kernel.Locking
Purpose: Mutexes as threads use them. A thread that must wait gives up the processor at once; a
  mutex that is unlocked for the last time passes to the first in line, which becomes ready.
Main exports: Call.createMutex, Call.releaseMutex, Call.lock, Call.unlock
-/
import ThreadScheduler.Kernel.Call

namespace ThreadScheduler.Call

/-- Registers a mutex and answers with its handle. -/
def createMutex (name : String) : Call MutexId := critical do
  let id ← attempt .mutex (·.createMutex name)
  log (.mutexCreated id)
  return id

/-- The mutex with a handle. -/
def findMutex (id : MutexId) : Call Mutex := do
  match (← kernel).mutexes.get? id with
  | some mutex => return mutex
  | none => throw (.mutex (.notFound id.value))

/-- Removes a mutex that nobody owns. -/
def releaseMutex (id : MutexId) : Call Unit := critical do
  let mutexes ← answer .mutex ((← kernel).mutexes.release id)
  update ({ · with mutexes })

/-- The caller asks for a mutex. -/
def lock (id : MutexId) : Call LockOutcome := do
  requireInitialized
  critical do
    let thread ← caller
    let (outcome, mutex) := (← findMutex id).lock thread
    update fun k => { k with mutexes := k.mutexes.replace id mutex }
    match outcome with
    | .mustBlock =>
        log (.blocks thread id)
        update fun k =>
          { k with
            threads :=
              k.threads.modify thread ({ · with state := .blocked, waitingOn := some id }) }
        carryOut (← reschedule)
    | _ => log (.holds thread id outcome)
    return outcome

/-- The caller gives up one lock of a mutex, and goes on running. -/
def unlock (id : MutexId) : Call UnlockOutcome := do
  requireInitialized
  critical do
    let thread ← caller
    let (outcome, mutex) := (← findMutex id).unlock thread
    update fun k => { k with mutexes := k.mutexes.replace id mutex }
    if let .handedOff next := outcome then
      log (.handedOff id thread next)
      makeReady next
    return outcome

end ThreadScheduler.Call
