/-
Module: ThreadScheduler.Interrupt
Purpose: Masking interrupts for a while. A guard remembers whether interrupts were enabled when it
  was made and enables them again when it is dropped only if they were, so guards nest.
Main exports: InterruptGuard, InterruptGuard.enter, InterruptGuard.leave
-/

namespace ThreadScheduler

/-- A promise to restore the interrupt flag. -/
structure InterruptGuard where
  /-- Whether interrupts were enabled when the guard was made. -/
  restores : Bool
  deriving DecidableEq, Repr, Inhabited

namespace InterruptGuard

/-- Makes a guard, given the interrupt flag, and clears the flag. -/
def enter (enabled : Bool) : InterruptGuard × Bool := (⟨enabled⟩, false)

/-- The interrupt flag after a guard is dropped: only a guard that was made while interrupts were
enabled changes it. -/
def leave (guard : InterruptGuard) (enabled : Bool) : Bool := guard.restores || enabled

end InterruptGuard

end ThreadScheduler
