/-
Module: ThreadScheduler.Kernel.Dispatch
Purpose: How a thread becomes ready and how a processor gets its next thread: the longest waiting
  thread of the highest level, and the idle thread when nothing is ready.
Main exports: Kernel.enqueueReady, Kernel.makeReady, Handover, Kernel.dispatch, Switch,
  Kernel.switch?
-/
import ThreadScheduler.Kernel.State

namespace ThreadScheduler

/-- A processor leaves one thread for another. -/
structure Handover where
  previous : ThreadId
  next : ThreadId
  deriving DecidableEq, Repr

/-- What the processor needs for going from one thread to another. -/
structure Switch where
  next : ThreadId
  previousContext : ExecutionContext
  nextContext : ExecutionContext
  /-- The local storage of the next thread. -/
  nextTls : Nat
  deriving DecidableEq, Repr

namespace Kernel

/-- Lets a thread wait for a processor at the level of its policy; the complaint if there is none.
-/
def enqueueReady (k : Kernel) (id : ThreadId) (policy : Policy) : Kernel × Option LogRecord :=
  match k.ready.enqueue id policy with
  | some ready => ({ k with ready }, none)
  | none => (k, some (.missingLevel policy id))

/-- Makes a thread ready, with a complaint if it has no record or its policy has no level. -/
def makeReady (k : Kernel) (id : ThreadId) : Kernel × Option LogRecord :=
  match k.threads.get? id with
  | none => (k, some (.unknownReady id))
  | some thread =>
      let threads := k.threads.modify id ({ · with state := .ready, waitingOn := none })
      { k with threads }.enqueueReady id thread.policy

/-- The thread a processor runs next, taken off the ready queue if it came from there. -/
def pickNext (k : Kernel) (slot : CpuSlot) : Option (ThreadId × ReadyQueue) :=
  match k.ready.dequeue with
  | some picked => some picked
  | none => slot.idle.map (·, k.ready)

/-- Makes a thread the running one of a processor, with a full time slice. -/
def install (k : Kernel) (cpu : Nat) (next : ThreadId) : Kernel :=
  { k with
    threads := k.threads.setState next .running
    cpus := k.cpus.modify cpu ({ · with running := some next, slice := k.config.quantum }) }

/-- Notes that a processor left a thread. Only an idle thread is still marked as running then, and
it becomes ready; every other thread went to another container before. -/
def depart (k : Kernel) (cpu : Nat) (previous : ThreadId) : Kernel :=
  { k with
    threads :=
      if k.stateOf? previous = some .running then k.threads.setState previous .ready else k.threads
    cpus := k.cpus.modify cpu ({ · with previous := some previous }) }

/-- Gives a processor its next thread. The caller has moved the thread that ran so far to its new
container. The handover tells when the running thread changed. -/
def dispatch (k : Kernel) (cpu : Nat) : Kernel × Option Handover :=
  match k.cpus[cpu]? with
  | none => (k, none)
  | some slot =>
      match k.pickNext slot with
      | none => (k, none)
      | some (next, ready) =>
          let k := { k with ready }.install cpu next
          match slot.running with
          | none => (k, none)
          | some previous =>
              if previous = next then (k, none)
              else (k.depart cpu previous, some { previous, next })

/-- The switch that carries out a handover; none if one of the records is missing. -/
def switch? (k : Kernel) (handover : Handover) : Option Switch := do
  let previous ← k.threads.get? handover.previous
  let next ← k.threads.get? handover.next
  return {
    next := handover.next
    previousContext := previous.context
    nextContext := next.context
    nextTls := next.tls }

end Kernel

end ThreadScheduler
