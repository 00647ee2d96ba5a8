/-
Module: ThreadScheduler.Time.TickCounter
Purpose: Counting timer interrupts at a fixed rate, and converting between ticks and nanoseconds.
Main exports: TickCounter
-/
import ThreadScheduler.Time.Basic

namespace ThreadScheduler

/-- The number of ticks since the counter was configured, and their rate. A counter without a rate
counts ticks that take no time. -/
structure TickCounter where
  ticks : UInt64 := 0
  /-- Ticks in a second. -/
  frequency : UInt64 := 0
  /-- The whole nanoseconds in a tick; a rate of zero gives none. -/
  nanosPerTick : UInt64 := 0
  /-- The length of a tick is stored together with the rate, and never apart from it. -/
  agrees : nanosPerTick = nanosPerSecond / frequency
  deriving DecidableEq, Repr

namespace TickCounter

/-- A counter without a rate. -/
def unset : TickCounter := { agrees := rfl }

instance : Inhabited TickCounter := ⟨unset⟩

/-- Sets the rate and starts counting from zero. -/
def configure (_ : TickCounter) (frequency : UInt64) : TickCounter :=
  { frequency, nanosPerTick := nanosPerSecond / frequency, agrees := rfl }

/-- The length of a tick. -/
def tickDuration (c : TickCounter) : Duration := ⟨c.nanosPerTick⟩

/-- Counts a tick. The count itself returns to zero after the last 64-bit number; the count reported
stays at that number. -/
def increment (c : TickCounter) : UInt64 × TickCounter :=
  (Saturating.add c.ticks 1, { c with ticks := c.ticks + 1 })

/-- The time that a number of ticks takes. -/
def ticksToNanos (c : TickCounter) (ticks : UInt64) : UInt64 := Saturating.mul ticks c.nanosPerTick

/-- The whole ticks in a time; none if a tick takes no time. -/
def nanosToTicks (c : TickCounter) (nanos : UInt64) : UInt64 := nanos / c.nanosPerTick

/-- The time since the counter was configured. -/
def now (c : TickCounter) : Instant := ⟨c.ticksToNanos c.ticks⟩

/-- The counter as shown in diagnostics. -/
def describe (c : TickCounter) : String :=
  s!"TickCounter \x7b ticks: {c.ticks.toNat}, frequency: {c.frequency.toNat} \x7d"

end TickCounter

end ThreadScheduler
