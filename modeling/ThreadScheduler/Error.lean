/-
Module: ThreadScheduler.Error
Purpose: What can go wrong, one type for each part of the scheduler and one that gathers them, with
  the text shown for each error and the status code handed to user space.
Main exports: SchedulerError, SchedulerError.message, SchedulerError.statusCode
-/

namespace ThreadScheduler

/-- Why a thread could not be created. -/
inductive SpawnError where
  /-- The name is empty or too long. -/
  | invalidName
  /-- The ready queue has no level for the policy asked for. -/
  | invalidPolicy
  /-- No size class holds a stack of that many bytes. -/
  | invalidStackSize (bytes : Nat)
  /-- Every handle has been given out. -/
  | tooManyThreads
  /-- No kernel stack is left, or the host has no memory. -/
  | outOfMemory
  deriving DecidableEq, Repr

/-- What is wrong with a thread that an operation concerns. -/
inductive ThreadError where
  /-- No thread has the handle. -/
  | notFound (id : Nat)
  /-- The thread is not in the container that its state names. -/
  | inconsistent (id : Nat)
  /-- Nothing runs on the processor. -/
  | noRunningThread (cpu : Nat)
  /-- An idle thread neither blocks nor sleeps and is never terminated. -/
  | idleThread (id : Nat)
  deriving DecidableEq, Repr

/-- Why an operation on a mutex was refused. -/
inductive MutexError where
  /-- No mutex has the handle. -/
  | notFound (id : Nat)
  /-- A mutex cannot be released while a thread owns it. -/
  | stillOwned (id : Nat)
  /-- The name is too long. -/
  | invalidName
  /-- Every handle has been given out, or the host has no memory. -/
  | tooManyMutexes
  deriving DecidableEq, Repr

/-- Why no memory was handed out. -/
inductive MemoryError where
  | outOfMemory
  | invalidLayout
  deriving DecidableEq, Repr

/-- Why the timer refused a command. -/
inductive TimerError where
  | alreadyRunning
  | notRunning
  /-- The timer cannot interrupt at that many hertz. -/
  | invalidFrequency (hertz : UInt64)
  | invalidQuantum
  deriving DecidableEq, Repr

/-- Everything a scheduler operation can fail with. -/
inductive SchedulerError where
  | spawn (error : SpawnError)
  | thread (error : ThreadError)
  | mutex (error : MutexError)
  | memory (error : MemoryError)
  | timer (error : TimerError)
  /-- Scheduling has not begun yet. -/
  | notInitialized
  /-- Scheduling began before. -/
  | alreadyInitialized
  /-- The configuration was rejected for the reason given. -/
  | invalidConfig (reason : String)
  deriving DecidableEq, Repr

/-- The text of a failed thread creation. -/
def SpawnError.message : SpawnError → String
  | .invalidName => "Invalid thread name"
  | .invalidPolicy => "No ready queue for the scheduling policy"
  | .invalidStackSize bytes => s!"No kernel stack size class holds {bytes} bytes"
  | .tooManyThreads => "Maximum number of threads reached"
  | .outOfMemory => "Out of memory for thread creation"

/-- Every memory error makes the creation of a thread fail in the same way. -/
def SpawnError.ofMemory (_ : MemoryError) : SpawnError := .outOfMemory

/-- The text of a thread error. -/
def ThreadError.message : ThreadError → String
  | .notFound id => s!"No thread with handle {id}"
  | .inconsistent id => s!"Thread {id} is missing from the queue of its state"
  | .noRunningThread cpu => s!"No running thread on CPU {cpu}"
  | .idleThread id => s!"Thread {id} is an idle thread"

/-- The text of a mutex error. -/
def MutexError.message : MutexError → String
  | .notFound id => s!"No mutex with handle {id}"
  | .stillOwned id => s!"Mutex {id} is still owned"
  | .invalidName => "Invalid mutex name"
  | .tooManyMutexes => "Maximum number of mutexes reached"

/-- The text of a memory error. -/
def MemoryError.message : MemoryError → String
  | .outOfMemory => "Out of memory"
  | .invalidLayout => "Invalid memory layout"

/-- The text of a timer error. -/
def TimerError.message : TimerError → String
  | .alreadyRunning => "Timer already running"
  | .notRunning => "Timer not running"
  | .invalidFrequency hertz => s!"Invalid timer frequency: {hertz.toNat} Hz"
  | .invalidQuantum => "Invalid quantum"

namespace SchedulerError

/-- The text of the error of one part, without the name of the part. -/
def detail? : SchedulerError → Option String
  | .spawn error => some error.message
  | .thread error => some error.message
  | .mutex error => some error.message
  | .memory error => some error.message
  | .timer error => some error.message
  | .notInitialized | .alreadyInitialized | .invalidConfig _ => none

/-- The text of an error; an error of one part is introduced by the name of the part. -/
def message : SchedulerError → String
  | .spawn error => "Thread spawn error: " ++ error.message
  | .thread error => "Thread error: " ++ error.message
  | .mutex error => "Mutex error: " ++ error.message
  | .memory error => "Memory error: " ++ error.message
  | .timer error => "Timer error: " ++ error.message
  | .notInitialized => "Scheduler not initialized"
  | .alreadyInitialized => "Scheduler already initialized"
  | .invalidConfig reason => "Invalid configuration: " ++ reason

/-- The status code of an error: `-1` for an invalid argument, `-2` for something not found, `-3`
for something busy, `-4` for exhausted resources and `-5` for something not started. -/
def statusCode : SchedulerError → Int
  | .spawn .invalidName | .spawn .invalidPolicy | .spawn (.invalidStackSize _)
  | .mutex .invalidName | .timer (.invalidFrequency _) | .timer .invalidQuantum
  | .memory .invalidLayout | .thread (.idleThread _) | .invalidConfig _ => -1
  | .thread (.notFound _) | .thread (.noRunningThread _) | .mutex (.notFound _) => -2
  | .mutex (.stillOwned _) | .thread (.inconsistent _) | .timer .alreadyRunning
  | .alreadyInitialized => -3
  | .spawn .tooManyThreads | .spawn .outOfMemory | .mutex .tooManyMutexes
  | .memory .outOfMemory => -4
  | .notInitialized | .timer .notRunning => -5

end SchedulerError

end ThreadScheduler
