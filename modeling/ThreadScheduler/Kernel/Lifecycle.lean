/-
Module: ThreadScheduler.Kernel.Lifecycle
Purpose: The end of threads. Termination takes a thread out of wherever it is and passes its mutexes
  on; its record and stack are kept until no processor needs them any more and are then reaped.
Main exports: Kernel.detach, Call.endThread, Call.terminate, Call.exit, Call.setThreadPointer,
  Call.reap
-/
import ThreadScheduler.Kernel.Spawn

namespace ThreadScheduler

/-- Takes a thread out of the container that its state names; none if it is not there. A running
thread stays in its processor's slot. -/
def Kernel.detach (k : Kernel) (thread : Thread) : Option Kernel :=
  match thread.state with
  | .ready => (k.ready.remove thread.id).map fun ready => { k with ready }
  | .sleeping => (k.sleeping.remove thread.id).map fun sleeping => { k with sleeping }
  | .blocked => do
      let id ← thread.waitingOn
      let (_, mutex) ← (← k.mutexes.get? id).withdraw thread.id
      return { k with mutexes := k.mutexes.replace id mutex }
  | .running => (k.hostOf? thread.id).map fun _ => k
  | .terminated => some k

/-- Whether a processor still needs the record of a thread. -/
def Kernel.isReferenced (k : Kernel) (id : ThreadId) : Bool :=
  k.cpus.any fun slot => slot.running = some id ∨ slot.previous = some id

/-- The thread that is said to run next when a thread ends that does not run on the executing
processor: the next ready one, else the idle thread of the processor it runs on or of the executing
one. -/
def Kernel.successor? (k : Kernel) (here : Nat) (host : Option Nat) : Option ThreadId :=
  k.ready.peek.or (k.idle? (host.getD here))

namespace Call

/-- Takes a terminated owner out of a mutex and makes the next owner ready. -/
def passOn (owner : ThreadId) (id : MutexId) : Call Unit := do
  let k ← kernel
  match (k.mutexes.get? id).bind (·.withdraw owner) with
  | none => return
  | some (removal, mutex) =>
      put { k with mutexes := k.mutexes.replace id mutex }
      if let .owner (some nextOwner) := removal then
        log (.inherited id owner nextOwner)
        makeReady nextOwner

/-- The executing processor gets its next thread if it ran the one that has ended. Subscribers are
told of the end, and of who runs next, before the switch. -/
def announceEnd (id : ThreadId) (here : Nat) (host : Option Nat) : Call Unit := do
  let onThisCpu := (← kernel).running? here = some id
  let switch ← if onThisCpu then reschedule else pure none
  let k ← kernel
  let next := if onThisCpu then k.running? here else k.successor? here host
  next.forM fun next => notify (·.terminated) (.terminated id next)
  carryOut switch

/-- Passes on the mutexes of a thread that is in no container any more, and marks it. -/
def finish (id : ThreadId) (here : Nat) (host : Option Nat) : Call Unit := do
  ((← kernel).mutexes.ownedBy id).forM (passOn id)
  update fun k =>
    { k with
      threads := k.threads.modify id ({ · with state := .terminated, waitingOn := none })
      terminated := k.terminated ++ [id] }
  log (.terminated ((← kernel).label id))
  announceEnd id here host

/-- Ends a thread that is neither idle nor terminated. -/
def endThread (thread : Thread) : Call Unit := do
  let id := thread.id
  let here ← cpu
  let host := (← kernel).hostOf? id
  match (← kernel).detach thread with
  | some k => put k
  | none => log (.misplaced id thread.state)
  finish id here host

/-- Ends a thread in any state. One that runs on another processor is switched away from when that
processor ticks. Ending a thread twice has no effect. -/
def terminate (id : ThreadId) : Call Unit := do
  requireInitialized
  critical do
    let k ← kernel
    match k.threads.get? id with
    | none =>
        log (.unknownVictim id)
        throw (.thread (.notFound id.value))
    | some thread =>
        if k.isIdle id then throw (.thread (.idleThread id.value))
        unless thread.state = .terminated do endThread thread

/-- Ends the caller. -/
def exit (exitCode : Int) : Call Unit := do
  let id ← critical do
    let id ← caller
    log (.finished ((← kernel).label id) exitCode)
    return id
  terminate id

/-- Sets the address of the caller's local storage; it is loaded at once and at every switch to the
caller. -/
def setThreadPointer (address : Nat) : Call Unit := do
  requireInitialized
  critical do
    let id ← caller
    update fun k => { k with threads := k.threads.modify id ({ · with tls := address }) }
    emit (.threadPointer address)

/-- Frees the record and the stack of a thread; the number of records freed. -/
def reapThread (id : ThreadId) : Call Nat := do
  match (← kernel).threads.remove id with
  | none => return 0
  | some (thread, threads) =>
      update ({ · with threads })
      log (.reaping ⟨id, thread.name⟩)
      thread.pooledStack.forM returnStack
      return 1

/-- Frees the records and stacks of several threads; the number of records freed. -/
def reapThreads : List ThreadId → Call Nat
  | [] => return 0
  | id :: rest => return (← reapThread id) + (← reapThreads rest)

/-- Frees the records and stacks of all terminated threads that no processor needs any more; the
number of records freed. -/
def reap : Call Nat := critical do
  let k ← kernel
  let (kept, gone) := k.terminated.partition k.isReferenced
  put { k with terminated := kept }
  reapThreads gone

end Call

end ThreadScheduler
