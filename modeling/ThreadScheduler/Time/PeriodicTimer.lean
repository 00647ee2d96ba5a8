/-
Module: ThreadScheduler.Time.PeriodicTimer
Purpose: A programmable interval timer. It divides the fixed frequency of its source, so it cannot
  interrupt more often than the source oscillates, and it keeps time by counting its interrupts.
Main exports: PeriodicTimer, PeriodicTimer.start, PeriodicTimer.stop, PeriodicTimer.interrupt
-/
import ThreadScheduler.Error
import ThreadScheduler.Time.TickCounter

namespace ThreadScheduler

/-- How often a programmed timer interrupts. -/
inductive TimerMode where
  /-- At a fixed rate. -/
  | periodic
  /-- Once, after the programmed delay. -/
  | oneShot
  deriving DecidableEq, Repr

/-- The name under which a mode is reported. -/
def TimerMode.name : TimerMode → String
  | .periodic => "Periodic"
  | .oneShot => "OneShot"

/-- A timer that interrupts at a fixed rate. -/
structure PeriodicTimer where
  name : String
  /-- Oscillations of the source in a second. -/
  sourceFrequency : UInt64
  running : Bool := false
  /-- The time slice granted to every thread. -/
  quantum : Duration := .zero
  counter : TickCounter := .unset
  deriving DecidableEq, Repr, Inhabited

namespace PeriodicTimer

/-- The frequency of the quartz that drives the programmable interval timer of a personal computer.
-/
def pitFrequency : UInt64 := 1193182

/-- The programmable interval timer of a personal computer. -/
def pit : PeriodicTimer := { name := "PIT", sourceFrequency := pitFrequency }

/-- A periodic timer has a single mode. -/
def mode (_ : PeriodicTimer) : TimerMode := .periodic

/-- The rate at which the timer interrupts. -/
def frequency (t : PeriodicTimer) : UInt64 := t.counter.frequency

/-- The number of source oscillations between two interrupts; zero before the first start. -/
def divider (t : PeriodicTimer) : UInt64 := t.sourceFrequency / t.frequency

/-- The interrupts counted since the timer was started. -/
def ticks (t : PeriodicTimer) : UInt64 := t.counter.ticks

/-- The whole nanoseconds between two interrupts. -/
def nanosPerTick (t : PeriodicTimer) : UInt64 := t.counter.nanosPerTick

/-- The time since the timer was started. -/
def now (t : PeriodicTimer) : Instant := t.counter.now

/-- The rate a timer runs at when `requested` is asked for. -/
def grantedFrequency (t : PeriodicTimer) (requested : UInt64) : UInt64 :=
  if t.sourceFrequency < requested then t.sourceFrequency else requested

/-- Starts counting from zero. A rate or a quantum of zero is refused before a timer that runs
already is. -/
def start (t : PeriodicTimer) (frequency : UInt64) (quantum : Duration) :
    Except TimerError PeriodicTimer :=
  if frequency = 0 then .error (.invalidFrequency frequency)
  else if quantum = .zero then .error .invalidQuantum
  else if t.running then .error .alreadyRunning
  else .ok { t with
    running := true
    quantum
    counter := t.counter.configure (t.grantedFrequency frequency) }

/-- Stops the interrupts. The ticks counted so far stay readable. -/
def stop (t : PeriodicTimer) : Except TimerError PeriodicTimer :=
  if t.running then .ok { t with running := false } else .error .notRunning

/-- Accounts for an interrupt and tells the time since the one before. An interrupt of a stopped
timer counts for nothing. -/
def interrupt (t : PeriodicTimer) : Duration × PeriodicTimer :=
  if t.running then
    (t.counter.tickDuration, { t with counter := t.counter.increment.2 })
  else (.zero, t)

end PeriodicTimer

end ThreadScheduler
