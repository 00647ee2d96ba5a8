/-
Module: ThreadScheduler.Kernel.Call
Purpose: Calls into the scheduler. A call changes the machine and either answers or fails; what it
  did before it failed stays done. The building blocks here are shared by all operations.
Main exports: Call, Call.attempt, Call.critical, Call.inspect, Call.caller, Call.makeReady,
  Call.reschedule, Call.carryOut
-/
import ThreadScheduler.Kernel.Machine

namespace ThreadScheduler

/-- A call into the scheduler that answers with an `α` or fails. -/
abbrev Call (α : Type) := EStateM SchedulerError Machine α

namespace Call

variable {α : Type}

/-- The state of the scheduler. -/
def kernel : Call Kernel := return (← get).kernel

/-- The processor that executes the call. -/
def cpu : Call Nat := return (← get).cpu

/-- Replaces the state of the scheduler. -/
def put (kernel : Kernel) : Call Unit := modify ({ · with kernel })

/-- Changes the state of the scheduler. -/
def update (change : Kernel → Kernel) : Call Unit :=
  modify fun m => { m with kernel := change m.kernel }

/-- Something happens that can be observed. -/
def emit (event : Event) : Call Unit := modify (·.emit event)

/-- Writes a record to the log. -/
def log (record : LogRecord) : Call Unit := emit (.log record)

/-- Passes on the answer of a part of the scheduler, or fails with its error. -/
def answer {ε : Type} (wrap : ε → SchedulerError) : Except ε α → Call α
  | .ok value => pure value
  | .error error => throw (wrap error)

/-- Lets a part of the scheduler work on the state, and passes on its answer. What the part changed
stays changed when it fails. -/
def attempt {ε : Type} (wrap : ε → SchedulerError) (work : Kernel → Except ε α × Kernel) :
    Call α := do
  let (result, k) := work (← kernel)
  put k
  answer wrap result

/-- Runs a call with interrupts disabled and restores the interrupt flag afterwards, also when the
call fails. -/
def critical (body : Call α) : Call α := fun m =>
  let (guard, m) := m.mask
  match body m with
  | .ok value m => .ok value (m.unmask guard)
  | .error error m => .error error (m.unmask guard)

/-- Looks something up with interrupts disabled. -/
def inspect (view : Kernel → α) : Call α := critical (view <$> kernel)

/-- Fails unless scheduling has begun. -/
def requireInitialized : Call Unit := do
  unless (← kernel).initialized do throw .notInitialized

/-- The thread on whose behalf the executing processor calls. -/
def caller : Call ThreadId := do answer .thread ((← kernel).caller (← cpu))

/-- Makes a thread ready. -/
def makeReady (id : ThreadId) : Call Unit := do
  let (k, complaint) := (← kernel).makeReady id
  put k
  complaint.forM log

/-- Gives the executing processor its next thread; the switch that is left to do. -/
def reschedule : Call (Option Switch) := do
  let here ← cpu
  let (k, handover) := (← kernel).dispatch here
  put k
  match handover with
  | none => return none
  | some handover =>
      log (.switching here (k.label handover.previous) (k.label handover.next))
      return k.switch? handover

/-- Tells subscribers of a topic. -/
def notify (subscribed : Subscriptions → Bool) (event : Event) : Call Unit := do
  if subscribed (← kernel).subscriptions then emit event

/-- Switches to another thread, if there is a switch to do. -/
def carryOut : Option Switch → Call Unit
  | none => return
  | some switch => do
      update fun k => { k with switches := k.switches + 1 }
      notify (·.switched) (.switched switch.next)
      emit (.threadPointer switch.nextTls)
      emit (.contextSwitch switch.previousContext switch.nextContext)

@[simp] theorem kernel_apply (m : Machine) : kernel m = .ok m.kernel m := rfl

@[simp] theorem cpu_apply (m : Machine) : cpu m = .ok m.cpu m := rfl

@[simp] theorem put_apply (k : Kernel) (m : Machine) :
    put k m = .ok () { m with kernel := k } := rfl

@[simp] theorem update_apply (change : Kernel → Kernel) (m : Machine) :
    update change m = .ok () { m with kernel := change m.kernel } := rfl

@[simp] theorem emit_apply (event : Event) (m : Machine) :
    emit event m = .ok () (m.emit event) := rfl

@[simp] theorem log_apply (record : LogRecord) (m : Machine) :
    log record m = .ok () (m.emit (.log record)) := rfl

@[simp] theorem answer_ok {ε : Type} (wrap : ε → SchedulerError) (value : α) (m : Machine) :
    answer wrap (.ok value) m = .ok value m := rfl

@[simp] theorem answer_error {ε : Type} (wrap : ε → SchedulerError) (error : ε) (m : Machine) :
    (answer wrap (.error error) : Call α) m = .error (wrap error) m := rfl

/-- Before scheduling begins a call that requires it changes nothing and cannot be observed. -/
theorem requireInitialized_apply (m : Machine) :
    requireInitialized m =
      if m.kernel.initialized then .ok () m else .error .notInitialized m := by
  unfold requireInitialized
  cases h : m.kernel.initialized <;> simp [bind, EStateM.bind, h] <;> rfl

end Call

end ThreadScheduler
