/-
Module: ThreadScheduler.Kernel.Machine
Purpose: The machine on which the scheduler runs, and what can be observed of it from outside: calls
  into the processor, notices to subscribers and log records, each with the interrupt flag of that
  moment.
Main exports: Event, Observation, Machine, Machine.mask, Machine.unmask
-/
import ThreadScheduler.Interrupt
import ThreadScheduler.Kernel.Dispatch

namespace ThreadScheduler

/-- Something that can be observed from outside. -/
inductive Event where
  /-- Interrupts are enabled or disabled. -/
  | interrupts (enabled : Bool)
  /-- The processor loads the address of a thread's local storage. -/
  | threadPointer (address : Nat)
  /-- The processor saves one context and goes on with another. -/
  | contextSwitch (previous next : ExecutionContext)
  /-- Subscribers learn that a processor is about to switch to a thread. -/
  | switched (next : ThreadId)
  /-- Subscribers learn of a new thread. -/
  | created (thread : ThreadId)
  /-- Subscribers learn of a terminated thread and of the thread that runs next in its place. -/
  | terminated (thread next : ThreadId)
  | log (record : LogRecord)
  deriving DecidableEq, Repr

/-- An event, and whether interrupts were enabled when it happened. -/
structure Observation where
  event : Event
  interruptsEnabled : Bool
  deriving DecidableEq, Repr

/-- The scheduler on its machine: the processor that executes at the moment, the interrupt flag, and
what has been observed so far. -/
structure Machine where
  kernel : Kernel
  cpu : Nat := 0
  interruptsEnabled : Bool := true
  trace : List Observation := []
  deriving DecidableEq, Repr, Inhabited

namespace Machine

/-- Something happens that can be observed. -/
def emit (m : Machine) (event : Event) : Machine :=
  { m with trace := m.trace ++ [{ event, interruptsEnabled := m.interruptsEnabled }] }

/-- Enables or disables interrupts. -/
def setInterrupts (m : Machine) (enabled : Bool) : Machine :=
  { m.emit (.interrupts enabled) with interruptsEnabled := enabled }

/-- Makes an interrupt guard. The flag is touched only if it was set. -/
def mask (m : Machine) : InterruptGuard × Machine :=
  let (guard, enabled) := InterruptGuard.enter m.interruptsEnabled
  (guard, if m.interruptsEnabled = enabled then m else m.setInterrupts enabled)

/-- Drops an interrupt guard. The flag is touched only if the guard was made while it was set. -/
def unmask (m : Machine) (guard : InterruptGuard) : Machine :=
  if guard.restores then m.setInterrupts (guard.leave m.interruptsEnabled) else m

@[simp] theorem kernel_emit (m : Machine) (event : Event) : (m.emit event).kernel = m.kernel := rfl

@[simp] theorem kernel_setInterrupts (m : Machine) (enabled : Bool) :
    (m.setInterrupts enabled).kernel = m.kernel := rfl

@[simp] theorem kernel_mask (m : Machine) : m.mask.2.kernel = m.kernel := by
  cases h : m.interruptsEnabled <;> simp [mask, InterruptGuard.enter, h]

@[simp] theorem kernel_unmask (m : Machine) (guard : InterruptGuard) :
    (m.unmask guard).kernel = m.kernel := by
  unfold unmask
  split <;> rfl

/-- A guard disables interrupts. -/
@[simp] theorem interruptsEnabled_mask (m : Machine) : m.mask.2.interruptsEnabled = false := by
  cases h : m.interruptsEnabled <;> simp [mask, InterruptGuard.enter, h, setInterrupts]

end Machine

end ThreadScheduler
