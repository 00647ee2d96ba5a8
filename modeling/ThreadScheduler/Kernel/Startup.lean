/-
Module: ThreadScheduler.Kernel.Startup
Purpose: The beginning of scheduling. The code that runs already becomes the bootstrap thread, each
  processor gets an idle thread, and the timer starts. If any step fails nothing is left behind.
Main exports: Call.startTimer, Call.stopTimer, Call.init
-/
import ThreadScheduler.Kernel.Spawn

namespace ThreadScheduler

/-- The policy of the bootstrap thread: the most important one served. -/
def Kernel.highestPolicy (k : Kernel) : Policy := k.ready.policies.head?.getD .lowLatency

/-- The policy of the idle threads: the least important one served. -/
def Kernel.lowestPolicy (k : Kernel) : Policy := k.ready.policies.getLast?.getD k.highestPolicy

namespace Call

/-- Starts the timer. -/
def startTimer (frequency : UInt64) (quantum : Duration) : Call Unit := do
  let before := (← kernel).timer
  let timer ← answer .timer (before.start frequency quantum)
  update ({ · with timer })
  (before.startReport frequency quantum timer).forM log

/-- Stops the timer. -/
def stopTimer : Call Unit := do
  let timer ← answer .timer (← kernel).timer.stop
  update ({ · with timer })

/-- Registers the code that runs already as a thread, on the stack it runs on. -/
def adoptBootstrap (bootStack : Option StackBounds) : Call ThreadId := do
  let id ← reserveThread
  let k ← kernel
  let thread : Thread :=
    { id
      name := Kernel.bootstrapName
      policy := k.highestPolicy
      state := .running
      adoptedStack := bootStack }
  match k.threads.insert thread with
  | some threads => update ({ · with threads })
  | none => throw (.spawn .tooManyThreads)
  return id

/-- The description of the idle thread of a processor. -/
def idleSpec (policy : Policy) (entry cpu : Nat) : ThreadSpec :=
  { entry, name := s!"Idle-{cpu}", policy, argument := cpu }

/-- Creates the idle thread of a processor. The first processor runs the bootstrap thread and every
other one its idle thread. -/
def adoptCpu (bootstrap : ThreadId) (entry cpu : Nat) : Call Unit := do
  let idle ← register (idleSpec (← kernel).lowestPolicy entry cpu) false
  let running := if cpu = 0 then bootstrap else idle
  update fun k =>
    { k with
      cpus := k.cpus.modify cpu
        ({ · with idle := some idle, slice := k.config.quantum, running := some running })
      threads := if cpu = 0 then k.threads else k.threads.setState idle .running }

/-- Registers the bootstrap thread and the idle threads. -/
def populate (entry : Nat) (bootStack : Option StackBounds) : Call ThreadId := do
  let bootstrap ← adoptBootstrap bootStack
  (List.range (← kernel).config.cpus).forM (adoptCpu bootstrap entry)
  return bootstrap

/-- Takes back the threads registered since `mark` and empties all processors. -/
def discardThreads (mark : Nat) : Call Unit := do
  let (removed, threads) := (← kernel).threads.rollback mark
  update ({ · with threads })
  (removed.filterMap (·.pooledStack)).forM returnStack
  update fun k => { k with cpus := k.cpus.map fun _ => {} }
  log .setupDiscarded

/-- Registers the first threads; if that fails they are discarded and the timer stops again. -/
def installThreads (entry : Nat) (bootStack : Option StackBounds) : Call ThreadId := do
  let mark := (← kernel).threads.mark
  tryCatch (populate entry bootStack) fun error => do
    discardThreads mark
    tryCatch stopTimer fun _ => return
    throw error

/-- Begins scheduling and answers with the handle of the bootstrap thread. -/
def init (entry : Nat) (bootStack : Option StackBounds) : Call ThreadId := critical do
  let k ← kernel
  if k.initialized then throw .alreadyInitialized
  startTimer k.config.tickFrequency k.config.quantum
  let bootstrap ← installThreads entry bootStack
  update ({ · with initialized := true })
  let k ← kernel
  log (.initialized k.config.cpus k.config.quantum k.timer.name k.timer.frequency)
  (← inspect (·.threads.ids)).forM fun id => notify (·.created) (.created id)
  return bootstrap

end Call

end ThreadScheduler
