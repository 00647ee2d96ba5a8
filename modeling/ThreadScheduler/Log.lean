/-
Module: ThreadScheduler.Log
Purpose: What the scheduler writes to its log. A record says what happened; its text is made from
  the record alone.
Main exports: LogLevel, LogRecord, LogRecord.level, LogRecord.text
-/
import ThreadScheduler.Mutex.Basic
import ThreadScheduler.Thread.Basic
import ThreadScheduler.Time.PeriodicTimer

namespace ThreadScheduler

/-- How much a log record matters. -/
inductive LogLevel where
  | trace
  | debug
  | warn
  | error
  deriving DecidableEq, Repr

/-- The name under which a level is reported. -/
def LogLevel.name : LogLevel → String
  | .trace => "TRACE"
  | .debug => "DEBUG"
  | .warn => "WARN"
  | .error => "ERROR"

/-- A thread as it is named in the log. -/
structure ThreadLabel where
  id : ThreadId
  name : String
  deriving DecidableEq, Repr

/-- The name that stands for a thread without a record. -/
def ThreadLabel.unnamed : String := "?"

/-- The quoted handle and name of a thread. -/
def ThreadLabel.text (label : ThreadLabel) : String := s!"\"{label.id}-{label.name}\""

/-- Something worth a line in the log. -/
inductive LogRecord where
  /-- The timer is asked to run. -/
  | timerRequested (name : String) (mode : TimerMode) (frequency : UInt64) (quantum : Duration)
  /-- The timer cannot interrupt as often as asked for. -/
  | timerClamped (requested granted : UInt64)
  /-- The time between two interrupts of the timer. -/
  | timerInterval (nanos : UInt64)
  /-- Scheduling has begun. -/
  | initialized (cpus : Nat) (quantum : Duration) (timer : String) (frequency : UInt64)
  /-- Scheduling could not begin and its first threads are gone. -/
  | setupDiscarded
  | created (thread : ThreadLabel) (policy : Policy)
  | switching (cpu : Nat) (previous next : ThreadLabel)
  | sleeping (thread : ThreadLabel) (span : Duration)
  | waking (thread : ThreadLabel)
  | mutexCreated (mutex : MutexId)
  /-- A thread has the mutex after it asked for it. -/
  | holds (thread : ThreadId) (mutex : MutexId) (outcome : LockOutcome)
  /-- A thread must wait for the mutex. -/
  | blocks (thread : ThreadId) (mutex : MutexId)
  /-- The owner unlocked the mutex and the first in line got it. -/
  | handedOff (mutex : MutexId) (previous next : ThreadId)
  /-- The owner was terminated and the first in line got the mutex. -/
  | inherited (mutex : MutexId) (previous next : ThreadId)
  /-- A thread ended itself. -/
  | finished (thread : ThreadLabel) (exitCode : Int)
  | terminated (thread : ThreadLabel)
  | reaping (thread : ThreadLabel)
  /-- Somebody asked to terminate a thread that has no record. -/
  | unknownVictim (thread : ThreadId)
  /-- A thread without a record should become ready. -/
  | unknownReady (thread : ThreadId)
  /-- A thread is to become ready whose policy has no level. -/
  | missingLevel (policy : Policy) (thread : ThreadId)
  /-- A thread is not in the container that its state names. -/
  | misplaced (thread : ThreadId) (state : ThreadState)
  deriving DecidableEq, Repr

namespace LogRecord

/-- How much a record matters. -/
def level : LogRecord → LogLevel
  | .timerRequested .. | .timerClamped .. | .timerInterval _ | .initialized .. | .created ..
  | .terminated _ | .reaping _ => .debug
  | .switching .. | .sleeping .. | .waking _ | .mutexCreated _ | .holds .. | .blocks ..
  | .handedOff .. | .inherited .. | .finished .. => .trace
  | .setupDiscarded | .unknownVictim _ | .unknownReady _ => .warn
  | .missingLevel .. | .misplaced .. => .error

/-- The line that a record makes. -/
def text : LogRecord → String
  | .timerRequested name mode frequency quantum =>
      s!"Requested {name} configuration: Mode={mode.name}, TargetFrequency={frequency.toNat}Hz, " ++
        s!"Quantum={quantum.nanos.toNat}ns"
  | .timerClamped requested granted =>
      s!"Requested frequency of {requested.toNat}Hz exceeds source frequency " ++
        s!"{granted.toNat}Hz, clamping"
  | .timerInterval nanos => s!"Time between IRQs will be ~{nanos.toNat}ns"
  | .initialized cpus quantum timer frequency =>
      s!"Scheduler initialized: {cpus} CPU(s), quantum {quantum.nanos.toNat}ns, timer {timer} " ++
        s!"at {frequency.toNat}Hz"
  | .setupDiscarded => "Scheduler setup failed, boot threads discarded"
  | .created thread policy => s!"Created thread {thread.text} ({policy.name})"
  | .switching cpu previous next => s!"CPU {cpu}: {previous.text} -> {next.text}"
  | .sleeping thread span => s!"Putting thread {thread.text} to sleep for {span.nanos.toNat}ns"
  | .waking thread => s!"Waking thread {thread.text} up"
  | .mutexCreated mutex => s!"Created mutex {mutex}"
  | .holds thread mutex outcome => s!"Thread {thread} holds mutex {mutex} ({outcome.describe})"
  | .blocks thread mutex => s!"Thread {thread} blocks on mutex {mutex}"
  | .handedOff mutex previous next => s!"Mutex {mutex} handed from thread {previous} to {next}"
  | .inherited mutex previous next =>
      s!"Mutex {mutex} passes from terminated thread {previous} to {next}"
  | .finished thread exitCode => s!"Thread {thread.text} has finished. Exit Code: {exitCode}"
  | .terminated thread => s!"Terminated thread {thread.text}"
  | .reaping thread => s!"Reaping thread {thread.text}"
  | .unknownVictim thread => s!"Cannot terminate unknown thread {thread}"
  | .unknownReady thread => s!"Cannot make unknown thread {thread} ready"
  | .missingLevel policy thread => s!"No ready queue for policy {policy.name} of thread {thread}"
  | .misplaced thread state => s!"Thread {thread} is not where its state {state.name} says"

end LogRecord

namespace PeriodicTimer

/-- What the log says when a timer starts: `t` is the timer before it was started. -/
def startReport (t : PeriodicTimer) (requested : UInt64) (quantum : Duration)
    (started : PeriodicTimer) : List LogRecord :=
  .timerRequested t.name t.mode requested quantum ::
    ((if t.sourceFrequency < requested then [.timerClamped requested t.sourceFrequency] else []) ++
      [.timerInterval started.nanosPerTick])

end PeriodicTimer

end ThreadScheduler
