/-
Module: ThreadScheduler.Proofs.Alarms.Calls
Purpose: The calls into the scheduler with an alarm in every branch that is there only for the case
  that something inside the scheduler is wrong, and before every subtraction that must not go below
  zero. What an alarm does is left open: it may fail, tell somebody or change the kernel.
Main exports: Fault, Alarm, Alarm.silent, Alarm.perform, Machine.executeUnder, Machine.runUnder
-/
import ThreadScheduler.Proofs.Run

namespace ThreadScheduler

/-- What is wrong when a branch is taken that reports an internal error. -/
inductive Fault where
  /-- A thread cannot become ready, because it has no record or because no level serves its
  policy. -/
  | complaint (record : LogRecord)
  /-- The record of a new thread is rejected, although a handle and room were reserved for it. -/
  | refusedRecord (id : ThreadId)
  /-- A thread that is to end is not where its state says. -/
  | misplaced (id : ThreadId) (state : ThreadState)
  /-- A processor that is to get its next thread does not exist. -/
  | noProcessor (cpu : Nat)
  /-- A processor is to get its next thread, no thread is ready and it has no idle thread. -/
  | nothingToRun (cpu : Nat)
  /-- A processor gets its next thread without having run one before. -/
  | nothingToLeave (cpu : Nat)
  /-- A processor is to switch from or to a thread without a record. -/
  | unknownInSwitch (handover : Handover)
  /-- There is no thread to charge a tick to. -/
  | nothingToCharge (cpu : Nat)
  /-- The thread to charge a tick to has no record. -/
  | unknownInTick (id : ThreadId)
  /-- A number is to be subtracted from a smaller one. -/
  | underflow (minuend subtrahend : Nat)

/-- What is done, before anything else, in a branch that reports an internal error. -/
structure Alarm where
  raise : Fault → Call Unit

namespace Alarm

open Call

/-- Nothing is done that would not be done anyway. -/
def silent : Alarm := ⟨fun _ => return⟩

variable (alarm : Alarm)

/-! ### Subtractions -/

/-- A subtraction of numbers that are not negative. -/
def subtract (minuend subtrahend : Nat) : Call Unit := do
  if minuend < subtrahend then alarm.raise (.underflow minuend subtrahend)

/-- The difference of two spans of time. -/
def shorten (span less : Duration) : Call Duration := do
  alarm.subtract span.nanos.toNat less.nanos.toNat
  return span - less

/-- Places a thread among the entries of the timeline. -/
def insertNode (thread : ThreadId) : Duration → List Sleeper → Call (List Sleeper)
  | wait, [] => return [⟨thread, wait⟩]
  | wait, node :: rest => do
      if wait < node.delta then
        let delta ← alarm.shorten node.delta wait
        return ⟨thread, wait⟩ :: { node with delta } :: rest
      else
        let wait ← alarm.shorten wait node.delta
        return node :: (← insertNode thread wait rest)

/-- Takes the elapsed time off the entries of the timeline. -/
def elapse : Duration → List Sleeper → Call (List Sleeper)
  | _, [] => return []
  | elapsed, node :: rest => do
      let step := min node.delta elapsed
      let delta ← alarm.shorten node.delta step
      let left ← alarm.shorten elapsed step
      return { node with delta } :: (← elapse left rest)

/-- Puts a thread to sleep. -/
def enqueue (t : Timeline) (thread : ThreadId) (wake : Instant) : Call Timeline := do
  return { t with nodes := ← alarm.insertNode thread (wake.since t.now) t.nodes }

/-- Lets time pass. -/
def advance (t : Timeline) (elapsed : Duration) : Call Timeline := do
  return { now := t.now + elapsed, nodes := ← alarm.elapse elapsed t.nodes }

/-! ### Parts of calls

Each is the part of the same name but for the alarms. -/

/-- Makes a thread ready. -/
def makeReady (id : ThreadId) : Call Unit := do
  let (k, complaint) := (← kernel).makeReady id
  put k
  complaint.forM fun record => do
    alarm.raise (.complaint record)
    log record

/-- Gives the executing processor its next thread. The only branch without a switch and without an
alarm is the one of a processor that goes on with the thread it runs. -/
def reschedule : Call (Option Switch) := do
  let here ← cpu
  let k ← kernel
  match k.cpus[here]? with
  | none => do
      alarm.raise (.noProcessor here)
      return none
  | some slot =>
      match k.pickNext slot with
      | none => do
          alarm.raise (.nothingToRun here)
          return none
      | some (next, ready) => do
          put ({ k with ready }.install here next)
          match slot.running with
          | none => do
              alarm.raise (.nothingToLeave here)
              return none
          | some previous =>
              if previous = next then return none
              else do
                update (·.depart here previous)
                let k ← kernel
                log (.switching here (k.label previous) (k.label next))
                match k.switch? { previous, next } with
                | none => do
                    alarm.raise (.unknownInSwitch { previous, next })
                    return none
                | some switch => return some switch

/-- Wakes a thread that was taken off the timeline. -/
def wake (id : ThreadId) : Call Unit := do
  log (.waking ((← kernel).label id))
  alarm.makeReady id

/-- Lets the time of a tick pass and wakes the threads that are due. -/
def keepTime : Call (Duration × Option Policy) := do
  let k ← kernel
  let (elapsed, timer) := k.timer.interrupt
  let (woken, sleeping) := (← alarm.advance k.sleeping elapsed).drain
  put { k with timer, sleeping }
  woken.forM alarm.wake
  return (elapsed, Policy.best? (woken.filterMap (← kernel).policyOf?))

/-- Finds the thread that a tick is charged to. -/
def findCharged (here : Nat) (slot : CpuSlot) : Call Unit := do
  match slot.running with
  | none => alarm.raise (.nothingToCharge here)
  | some id => unless (← kernel).threads.contains id do alarm.raise (.unknownInTick id)

/-- Charges a tick to the running thread of a processor. -/
def charge (here : Nat) (slot : CpuSlot) (elapsed : Duration) (woken : Option Policy) :
    Call (Option Switch) := do
  alarm.findCharged here slot
  match (← kernel).tickVerdict slot elapsed woken with
  | .keep slice =>
      update fun k => { k with cpus := k.cpus.modify here ({ · with slice }) }
      return none
  | .preempt id =>
      alarm.makeReady id
      alarm.reschedule
  | .replace => alarm.reschedule

/-- The subtraction of unlocking a mutex: its owner has one lock less. -/
def giveUpLock (mutex : Mutex) (thread : ThreadId) : Call Unit := do
  if mutex.owner = some thread then alarm.subtract mutex.lockCount 1

/-- Takes a terminated owner out of a mutex and makes the next owner ready. -/
def passOn (owner : ThreadId) (id : MutexId) : Call Unit := do
  let k ← kernel
  match (k.mutexes.get? id).bind (·.withdraw owner) with
  | none => return
  | some (removal, mutex) =>
      put { k with mutexes := k.mutexes.replace id mutex }
      if let .owner (some nextOwner) := removal then
        log (.inherited id owner nextOwner)
        alarm.makeReady nextOwner

/-- Goes on after a thread has ended. -/
def announceEnd (id : ThreadId) (here : Nat) (host : Option Nat) : Call Unit := do
  let onThisCpu := (← kernel).running? here = some id
  let switch ← if onThisCpu then alarm.reschedule else pure none
  let k ← kernel
  let next := if onThisCpu then k.running? here else k.successor? here host
  next.forM fun next => notify (·.terminated) (.terminated id next)
  carryOut switch

/-- Passes on the mutexes of a thread that is in no container any more, and marks it. -/
def finish (id : ThreadId) (here : Nat) (host : Option Nat) : Call Unit := do
  ((← kernel).mutexes.ownedBy id).forM (alarm.passOn id)
  update fun k =>
    { k with
      threads := k.threads.modify id ({ · with state := .terminated, waitingOn := none })
      terminated := k.terminated ++ [id] }
  log (.terminated ((← kernel).label id))
  alarm.announceEnd id here host

/-- Ends a thread that is neither idle nor terminated. -/
def endThread (thread : Thread) : Call Unit := do
  let id := thread.id
  let here ← cpu
  let host := (← kernel).hostOf? id
  match (← kernel).detach thread with
  | some k => put k
  | none => do
      alarm.raise (.misplaced id thread.state)
      log (.misplaced id thread.state)
  alarm.finish id here host

/-- Frees the record and the stack of a thread. -/
def reapThread (id : ThreadId) : Call Nat := do
  let k ← kernel
  match k.threads.remove id with
  | none => return 0
  | some (thread, threads) => do
      alarm.subtract k.threads.records.live 1
      update ({ · with threads })
      log (.reaping ⟨id, thread.name⟩)
      thread.pooledStack.forM returnStack
      return 1

/-- Frees the records and stacks of several threads. -/
def reapThreads : List ThreadId → Call Nat
  | [] => return 0
  | id :: rest => return (← alarm.reapThread id) + (← reapThreads rest)

/-- Registers the thread described, with a kernel stack of its own. -/
def register (spec : ThreadSpec) (queued : Bool) : Call ThreadId := do
  answer .spawn spec.validate
  unless (← kernel).ready.hasLevel spec.policy do throw (.spawn .invalidPolicy)
  let id ← reserveThread
  let stack ← takeStack (spec.stackClass.getD (← kernel).config.kernelStack)
  let thread := (spec.toThread id).prepare stack spec.entry spec.argument
  match (← kernel).threads.insert thread with
  | some threads => update ({ · with threads })
  | none =>
      alarm.raise (.refusedRecord id)
      returnStack stack
      throw (.spawn .tooManyThreads)
  if queued then
    let (k, complaint) := (← kernel).enqueueReady id spec.policy
    put k
    complaint.forM fun record => do
      alarm.raise (.complaint record)
      log record
  log (.created ((← kernel).label id) spec.policy)
  return id

/-- Registers the code that runs already as a thread, on the stack it runs on. -/
def adoptBootstrap (bootStack : Option StackBounds) : Call ThreadId := do
  let id ← reserveThread
  let k ← kernel
  match k.threads.insert (k.bootstrapThread id bootStack) with
  | some threads => update ({ · with threads })
  | none => do
      alarm.raise (.refusedRecord id)
      throw (.spawn .tooManyThreads)
  return id

/-- Creates the idle thread of a processor. -/
def adoptCpu (bootstrap : ThreadId) (entry cpu : Nat) : Call Unit := do
  let idle ← alarm.register (idleSpec (← kernel).lowestPolicy entry cpu) false
  update (·.withIdle bootstrap idle cpu)

/-- Registers the bootstrap thread and the idle threads. -/
def populate (entry : Nat) (bootStack : Option StackBounds) : Call ThreadId := do
  let bootstrap ← alarm.adoptBootstrap bootStack
  (List.range (← kernel).config.cpus).forM (alarm.adoptCpu bootstrap entry)
  return bootstrap

/-- Takes back the threads registered since `mark` and empties all processors. -/
def discardThreads (mark : Nat) : Call Unit := do
  let k ← kernel
  let (removed, threads) := k.threads.rollback mark
  alarm.subtract k.threads.records.live removed.length
  update ({ · with threads })
  (removed.filterMap (·.pooledStack)).forM returnStack
  update fun k => { k with cpus := k.cpus.map fun _ => {} }
  log .setupDiscarded

/-- Registers the first threads; if that fails they are discarded and the timer stops again. -/
def installThreads (entry : Nat) (bootStack : Option StackBounds) : Call ThreadId := do
  let mark := (← kernel).threads.mark
  tryCatch (alarm.populate entry bootStack) fun error => do
    alarm.discardThreads mark
    tryCatch stopTimer fun _ => return
    throw error

/-! ### Calls

Each is the call of the same name but for the alarms. -/

def init (entry : Nat) (bootStack : Option StackBounds) : Call ThreadId := critical do
  let k ← kernel
  if k.initialized then throw .alreadyInitialized
  startTimer k.config.tickFrequency k.config.quantum
  let bootstrap ← alarm.installThreads entry bootStack
  update ({ · with initialized := true })
  let k ← kernel
  log (.initialized k.config.cpus k.config.quantum k.timer.name k.timer.frequency)
  (← inspect (·.threads.ids)).forM fun id => notify (·.created) (.created id)
  return bootstrap

def spawn (spec : ThreadSpec) : Call ThreadId := do
  requireInitialized
  critical do
    let id ← alarm.register spec true
    notify (·.created) (.created id)
    return id

def yield : Call Unit := do
  requireInitialized
  critical do
    let k ← kernel
    let here ← cpu
    let some slot := k.cpus[here]? | throw (.thread (.noRunningThread here))
    let switch ← match slot.running with
      | none => alarm.reschedule
      | some id =>
          if k.isIdle id then
            if k.ready.isEmpty then pure none else alarm.reschedule
          else do
            if k.stateOf? id = some .running then alarm.makeReady id
            alarm.reschedule
    carryOut switch

def sleep (wakeAt : Instant → Instant) : Call Unit := do
  requireInitialized
  critical do
    let id ← caller
    let k ← kernel
    let now := k.sleeping.now
    let wake := wakeAt now
    if now < wake then
      log (.sleeping (k.label id) (wake.since now))
      let sleeping ← alarm.enqueue k.sleeping id wake
      update fun k => { k with threads := k.threads.setState id .sleeping, sleeping }
      carryOut (← alarm.reschedule)

def tick : Call Unit := do
  if (← kernel).initialized then
    critical do
      let here ← cpu
      match (← kernel).cpus[here]? with
      | none => return
      | some slot =>
          let (elapsed, woken) ←
            if here = 0 then alarm.keepTime
            else pure (⟨(← kernel).timer.nanosPerTick⟩, none)
          carryOut (← alarm.charge here slot elapsed woken)

def releaseMutex (id : MutexId) : Call Unit := critical do
  let k ← kernel
  let mutexes ← answer .mutex (k.mutexes.release id)
  alarm.subtract k.mutexes.records.live 1
  update ({ · with mutexes })

def lock (id : MutexId) : Call LockOutcome := do
  requireInitialized
  critical do
    let thread ← caller
    let (outcome, mutex) := (← findMutex id).lock thread
    update fun k => { k with mutexes := k.mutexes.replace id mutex }
    match outcome with
    | .mustBlock =>
        log (.blocks thread id)
        update fun k =>
          { k with
            threads :=
              k.threads.modify thread ({ · with state := .blocked, waitingOn := some id }) }
        carryOut (← alarm.reschedule)
    | _ => log (.holds thread id outcome)
    return outcome

def unlock (id : MutexId) : Call UnlockOutcome := do
  requireInitialized
  critical do
    let thread ← caller
    let locked ← findMutex id
    alarm.giveUpLock locked thread
    let (outcome, mutex) := locked.unlock thread
    update fun k => { k with mutexes := k.mutexes.replace id mutex }
    if let .handedOff next := outcome then
      log (.handedOff id thread next)
      alarm.makeReady next
    return outcome

def terminate (id : ThreadId) : Call Unit := do
  requireInitialized
  critical do
    let k ← kernel
    match k.threads.get? id with
    | none =>
        log (.unknownVictim id)
        throw (.thread (.notFound id.value))
    | some thread =>
        if k.isIdle id then throw (.thread (.idleThread id.value))
        unless thread.state = .terminated do alarm.endThread thread

def exit (exitCode : Int) : Call Unit := do
  let id ← critical do
    let id ← caller
    log (.finished ((← kernel).label id) exitCode)
    return id
  alarm.terminate id

def reap : Call Nat := critical do
  let k ← kernel
  let (kept, gone) := k.terminated.partition k.isReferenced
  put { k with terminated := kept }
  alarm.reapThreads gone

/-- The call that carries out a request. Requests that have no part in any of the branches are
carried out as ever. -/
def perform : Operation → Call Reply
  | .init entry bootStack => .threadId <$> alarm.init entry bootStack
  | .spawn spec => .threadId <$> alarm.spawn spec
  | .yield => (fun _ => .done) <$> alarm.yield
  | .tick => (fun _ => .done) <$> alarm.tick
  | .sleepUntil wake => (fun _ => .done) <$> alarm.sleep fun _ => wake
  | .sleepFor span => (fun _ => .done) <$> alarm.sleep (· + span)
  | .releaseMutex id => (fun _ => .done) <$> alarm.releaseMutex id
  | .lock id => .locked <$> alarm.lock id
  | .unlock id => .unlocked <$> alarm.unlock id
  | .terminate id => (fun _ => .done) <$> alarm.terminate id
  | .exit exitCode => (fun _ => .done) <$> alarm.exit exitCode
  | .reap => .count <$> alarm.reap
  | operation => operation.perform

end Alarm

/-- Executes an operation on a processor with an alarm. -/
def Machine.executeUnder (m : Machine) (alarm : Alarm) (cpu : Nat) (operation : Operation) : Step :=
  match alarm.perform operation { m with cpu, trace := [] } with
  | .ok reply machine => { result := .ok reply, machine }
  | .error error machine => { result := .error error, machine }

/-- Executes several operations one after the other with an alarm. -/
def Machine.runUnder (m : Machine) (alarm : Alarm) (requests : List Request) : Machine :=
  requests.foldl (fun m request => (m.executeUnder alarm request.cpu request.operation).machine) m

end ThreadScheduler
