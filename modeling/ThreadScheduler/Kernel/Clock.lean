/-
Module: ThreadScheduler.Kernel.Clock
Purpose: Giving up the processor, sleeping, and the timer tick. The tick of processor 0 keeps time
  and wakes sleepers; every tick is charged to the running thread, which is preempted when its slice
  is used up or a thread that woke up outranks it.
Main exports: Call.yield, Call.sleepUntil, Call.sleepFor, TickVerdict, Kernel.tickVerdict, Call.tick
-/
import ThreadScheduler.Kernel.Call

namespace ThreadScheduler

/-- What a tick means for the processor it is charged to. -/
inductive TickVerdict where
  /-- The running thread goes on with what is left of its slice. -/
  | keep (slice : Duration)
  /-- The running thread goes back to the ready queue and the next one runs. -/
  | preempt (thread : ThreadId)
  /-- The running thread is not to be queued; the next one runs. -/
  | replace
  deriving DecidableEq, Repr

/-- Charges the elapsed time to the running thread of a processor. `woken` is the best policy among
the threads that woke up in this tick. -/
def Kernel.tickVerdict (k : Kernel) (slot : CpuSlot) (elapsed : Duration) (woken : Option Policy) :
    TickVerdict :=
  match slot.running with
  | none => .replace
  | some running =>
      match k.threads.get? running with
      | none => .replace
      | some thread =>
          if thread.state = .terminated then .replace
          else if k.isIdle running then
            if k.ready.isEmpty then .keep slot.slice else .replace
          else
            let slice := slot.slice - elapsed
            let outranked := woken.any fun policy => policy.Outranks thread.policy
            if slice ≠ .zero ∧ ¬ outranked then .keep slice
            else if k.ready.isEmpty then .keep k.config.quantum
            else .preempt running

namespace Call

/-- Gives up the processor. The caller goes to the end of its level; an idle thread gives way only
to a ready thread. -/
def yield : Call Unit := do
  requireInitialized
  critical do
    let k ← kernel
    let here ← cpu
    let some slot := k.cpus[here]? | throw (.thread (.noRunningThread here))
    let switch ← match slot.running with
      | none => reschedule
      | some id =>
          if k.isIdle id then
            if k.ready.isEmpty then pure none else reschedule
          else do
            if k.stateOf? id = some .running then makeReady id
            reschedule
    carryOut switch

/-- Lets the caller sleep until a moment, which may depend on the present one. A moment that is not
in the future does not put it to sleep. -/
def sleep (wakeAt : Instant → Instant) : Call Unit := do
  requireInitialized
  critical do
    let id ← caller
    let k ← kernel
    let now := k.sleeping.now
    let wake := wakeAt now
    if now < wake then
      log (.sleeping (k.label id) (wake.since now))
      update fun k =>
        { k with
          threads := k.threads.setState id .sleeping
          sleeping := k.sleeping.enqueue id wake }
      carryOut (← reschedule)

/-- Lets the caller sleep until a moment. -/
def sleepUntil (wake : Instant) : Call Unit := sleep fun _ => wake

/-- Lets the caller sleep for a span of time. -/
def sleepFor (span : Duration) : Call Unit := sleep (· + span)

/-- Wakes a thread that was taken off the timeline. -/
def wake (id : ThreadId) : Call Unit := do
  log (.waking ((← kernel).label id))
  makeReady id

/-- Lets the time of a tick pass and wakes the threads that are due: the time that passed, and the
best policy among the threads that woke up. -/
def keepTime : Call (Duration × Option Policy) := do
  let k ← kernel
  let (elapsed, timer) := k.timer.interrupt
  let (woken, sleeping) := (k.sleeping.advance elapsed).drain
  put { k with timer, sleeping }
  woken.forM wake
  return (elapsed, Policy.best? (woken.filterMap (← kernel).policyOf?))

/-- Charges a tick to the running thread of a processor; the switch that is left to do. -/
def charge (here : Nat) (slot : CpuSlot) (elapsed : Duration) (woken : Option Policy) :
    Call (Option Switch) := do
  match (← kernel).tickVerdict slot elapsed woken with
  | .keep slice =>
      update fun k => { k with cpus := k.cpus.modify here ({ · with slice }) }
      return none
  | .preempt id =>
      makeReady id
      reschedule
  | .replace => reschedule

/-- A timer interrupt. Before scheduling begins it is ignored. -/
def tick : Call Unit := do
  if (← kernel).initialized then
    critical do
      let here ← cpu
      match (← kernel).cpus[here]? with
      | none => return
      | some slot =>
          let (elapsed, woken) ←
            if here = 0 then keepTime
            else pure (⟨(← kernel).timer.nanosPerTick⟩, none)
          carryOut (← charge here slot elapsed woken)

end Call

end ThreadScheduler
