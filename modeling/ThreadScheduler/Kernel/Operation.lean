/-
Module: ThreadScheduler.Kernel.Operation
Purpose: All that a kernel can be asked to do, and what it answers. A run of a kernel is a sequence
  of operations, each executed by some processor.
Main exports: Operation, Reply, Operation.perform, Step, Machine.execute
-/
import ThreadScheduler.Kernel.Clock
import ThreadScheduler.Kernel.Lifecycle
import ThreadScheduler.Kernel.Locking
import ThreadScheduler.Kernel.Startup

namespace ThreadScheduler

/-- A request to the kernel. -/
inductive Operation where
  /-- Begin scheduling, with idle threads that start at `entry`. -/
  | init (entry : Nat) (bootStack : Option StackBounds)
  | spawn (spec : ThreadSpec)
  | yield
  /-- A timer interrupt arrives. -/
  | tick
  | sleepUntil (wake : Instant)
  | sleepFor (span : Duration)
  | createMutex (name : String)
  | findMutex (id : MutexId)
  | releaseMutex (id : MutexId)
  | listMutexes
  | lock (id : MutexId)
  | unlock (id : MutexId)
  | terminate (id : ThreadId)
  /-- The running thread ends itself. -/
  | exit (exitCode : Int)
  | setThreadPointer (address : Nat)
  | reap
  | threadInfo (id : ThreadId)
  | listThreads
  /-- Which thread runs on the executing processor. -/
  | runningHere
  | runningOn (cpu : Nat)
  | idleOn (cpu : Nat)
  | subscribe (topic : Topic) (wanted : Bool)
  | isInitialized
  | showConfig
  | showTimer
  | startTimer (frequency : UInt64) (quantum : Duration)
  | stopTimer
  /-- The timer accounts for an interrupt that is not passed on to the scheduler. -/
  | interruptTimer
  deriving DecidableEq, Repr

/-- What the kernel answers to a request that it granted. -/
inductive Reply where
  | done
  | threadId (id : ThreadId)
  | threadId? (id : Option ThreadId)
  | threadIds (ids : List ThreadId)
  | thread (thread : Thread)
  | mutexId (id : MutexId)
  | mutex (mutex : Mutex)
  | mutexes (mutexes : List Mutex)
  | locked (outcome : LockOutcome)
  | unlocked (outcome : UnlockOutcome)
  | count (n : Nat)
  | flag (b : Bool)
  | config (config : Config)
  | timer (timer : PeriodicTimer)
  | duration (span : Duration)
  deriving DecidableEq, Repr

namespace Call

/-- The record of a thread. -/
def threadInfo (id : ThreadId) : Call Thread := critical do
  match (← kernel).threads.get? id with
  | some thread => return thread
  | none => throw (.thread (.notFound id.value))

/-- Subscribes to a topic or cancels the subscription. -/
def subscribe (topic : Topic) (wanted : Bool) : Call Unit :=
  critical (update fun k => { k with subscriptions := k.subscriptions.set wanted topic })

/-- The timer accounts for an interrupt; the time since the one before. -/
def interruptTimer : Call Duration := do
  let (elapsed, timer) := (← kernel).timer.interrupt
  update ({ · with timer })
  return elapsed

end Call

/-- The call that carries out a request. -/
def Operation.perform : Operation → Call Reply
  | .init entry bootStack => .threadId <$> Call.init entry bootStack
  | .spawn spec => .threadId <$> Call.spawn spec
  | .yield => (fun _ => .done) <$> Call.yield
  | .tick => (fun _ => .done) <$> Call.tick
  | .sleepUntil wake => (fun _ => .done) <$> Call.sleepUntil wake
  | .sleepFor span => (fun _ => .done) <$> Call.sleepFor span
  | .createMutex name => .mutexId <$> Call.createMutex name
  | .findMutex id => .mutex <$> Call.critical (Call.findMutex id)
  | .releaseMutex id => (fun _ => .done) <$> Call.releaseMutex id
  | .listMutexes => .mutexes <$> Call.inspect (·.mutexes.toList)
  | .lock id => .locked <$> Call.lock id
  | .unlock id => .unlocked <$> Call.unlock id
  | .terminate id => (fun _ => .done) <$> Call.terminate id
  | .exit exitCode => (fun _ => .done) <$> Call.exit exitCode
  | .setThreadPointer address => (fun _ => .done) <$> Call.setThreadPointer address
  | .reap => .count <$> Call.reap
  | .threadInfo id => .thread <$> Call.threadInfo id
  | .listThreads => .threadIds <$> Call.inspect (·.threads.ids)
  | .runningHere => do let here ← Call.cpu; .threadId? <$> Call.inspect (·.running? here)
  | .runningOn cpu => .threadId? <$> Call.inspect (·.running? cpu)
  | .idleOn cpu => .threadId? <$> Call.inspect (·.idle? cpu)
  | .subscribe topic wanted => (fun _ => .done) <$> Call.subscribe topic wanted
  | .isInitialized => (.flag ·.initialized) <$> Call.kernel
  | .showConfig => (.config ·.config) <$> Call.kernel
  | .showTimer => (.timer ·.timer) <$> Call.kernel
  | .startTimer frequency quantum => (fun _ => .done) <$> Call.startTimer frequency quantum
  | .stopTimer => (fun _ => .done) <$> Call.stopTimer
  | .interruptTimer => .duration <$> Call.interruptTimer

/-- The outcome of one operation: its answer or error, and the machine afterwards with the trace of
this operation alone. -/
structure Step where
  result : Except SchedulerError Reply
  machine : Machine

/-- Executes an operation on a processor. -/
def Machine.execute (m : Machine) (cpu : Nat) (operation : Operation) : Step :=
  match operation.perform { m with cpu, trace := [] } with
  | .ok reply machine => { result := .ok reply, machine }
  | .error error machine => { result := .error error, machine }

end ThreadScheduler
