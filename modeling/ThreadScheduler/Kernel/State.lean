/-
Module: ThreadScheduler.Kernel.State
Purpose: The state of the scheduler: thread records, ready queue, timeline, mutexes, processors,
  timer and stack pool, and the questions that operations ask of it.
Main exports: CpuSlot, Topic, Subscriptions, Kernel, Kernel.ofConfig, Kernel.caller
-/
import ThreadScheduler.Config
import ThreadScheduler.Log
import ThreadScheduler.Mutex.Table
import ThreadScheduler.ReadyQueue
import ThreadScheduler.Stack.Pool
import ThreadScheduler.Thread.Table
import ThreadScheduler.Time.Timeline

namespace ThreadScheduler

/-- What the scheduler knows of a processor. -/
structure CpuSlot where
  running : Option ThreadId := none
  /-- The thread that runs when nothing is ready. -/
  idle : Option ThreadId := none
  /-- The thread the processor last switched away from. Its record is kept, because the switch still
  needs it. -/
  previous : Option ThreadId := none
  /-- What is left of the time slice of the running thread. -/
  slice : Duration := .zero
  deriving DecidableEq, Repr, Inhabited

/-- What a subscriber can be told of. -/
inductive Topic where
  /-- A processor is about to switch to a thread. -/
  | switched
  /-- A thread was registered. -/
  | created
  /-- A thread was terminated. -/
  | terminated
  deriving DecidableEq, Repr

/-- The topics that somebody subscribed to. -/
structure Subscriptions where
  switched : Bool := false
  created : Bool := false
  terminated : Bool := false
  deriving DecidableEq, Repr, Inhabited

/-- Subscribes to a topic or cancels the subscription. -/
def Subscriptions.set (s : Subscriptions) (wanted : Bool) : Topic → Subscriptions
  | .switched => { s with switched := wanted }
  | .created => { s with created := wanted }
  | .terminated => { s with terminated := wanted }

/-- The state of the scheduler. -/
structure Kernel where
  config : Config
  timer : PeriodicTimer
  /-- Whether scheduling has begun. -/
  initialized : Bool := false
  threads : ThreadTable
  ready : ReadyQueue
  sleeping : Timeline := {}
  mutexes : MutexTable
  /-- One slot for each processor. -/
  cpus : List CpuSlot
  /-- The terminated threads whose records are still kept, in the order of their termination. -/
  terminated : List ThreadId := []
  pool : StackPool
  heap : Heap := {}
  /-- Context switches so far, as a 64-bit number. -/
  switches : UInt64 := 0
  subscriptions : Subscriptions := {}
  deriving DecidableEq, Repr, Inhabited

namespace Kernel

/-- The name of the thread that ran before scheduling began. -/
def bootstrapName : String := "Bootstrap"

/-- A kernel in which scheduling has not begun. -/
def ofConfig (config : Config) (timer : PeriodicTimer) (heap : Heap) :
    Except SchedulerError Kernel :=
  config.validate.map fun () =>
    { config
      timer
      threads := { limit := config.maxThreads }
      ready := .ofPolicies config.policies
      mutexes := { limit := config.maxMutexes }
      cpus := List.replicate config.cpus {}
      pool := { limit := config.maxKernelStacks }
      heap }

/-- Makes room for one more thread; the handle that it gets. -/
def reserveThread (k : Kernel) : Except SpawnError ThreadId × Kernel :=
  let (reserved, threads, heap) := k.threads.reserve k.heap
  (reserved, { k with threads, heap })

/-- Takes a stack of a class from the pool. -/
def takeStack (k : Kernel) (sizeClass : SizeClass) : Except MemoryError Stack × Kernel :=
  let (granted, pool, heap) := k.pool.allocate k.heap sizeClass
  (granted, { k with pool, heap })

/-- Gives a stack back to the pool. -/
def returnStack (k : Kernel) (stack : Stack) : Kernel :=
  let (pool, heap) := k.pool.deallocate k.heap stack
  { k with pool, heap }

/-- Registers a mutex; its handle. -/
def createMutex (k : Kernel) (name : String) : Except MutexError MutexId × Kernel :=
  let (created, mutexes, heap) := k.mutexes.create k.heap name
  (created, { k with mutexes, heap })

/-- Whether a thread is the idle thread of some processor. -/
def isIdle (k : Kernel) (id : ThreadId) : Bool := k.cpus.any (·.idle = some id)

/-- The thread that runs on a processor. -/
def running? (k : Kernel) (cpu : Nat) : Option ThreadId := k.cpus[cpu]?.bind (·.running)

/-- The idle thread of a processor. -/
def idle? (k : Kernel) (cpu : Nat) : Option ThreadId := k.cpus[cpu]?.bind (·.idle)

/-- The state of a thread. -/
def stateOf? (k : Kernel) (id : ThreadId) : Option ThreadState := (k.threads.get? id).map (·.state)

/-- The policy of a thread. -/
def policyOf? (k : Kernel) (id : ThreadId) : Option Policy := (k.threads.get? id).map (·.policy)

/-- The first processor on which a thread runs. -/
def hostOf? (k : Kernel) (id : ThreadId) : Option Nat := k.cpus.findIdx? (·.running = some id)

/-- A thread as it is named in the log. -/
def label (k : Kernel) (id : ThreadId) : ThreadLabel :=
  ⟨id, ((k.threads.get? id).map (·.name)).getD ThreadLabel.unnamed⟩

/-- The thread on whose behalf a processor calls. Idle threads do not call, and neither does a
thread that another processor terminated meanwhile. -/
def caller (k : Kernel) (cpu : Nat) : Except ThreadError ThreadId :=
  match k.running? cpu with
  | none => .error (.noRunningThread cpu)
  | some id =>
      if k.isIdle id then .error (.idleThread id.value)
      else if k.stateOf? id = some .running then .ok id
      else .error (.notFound id.value)

end Kernel

end ThreadScheduler
