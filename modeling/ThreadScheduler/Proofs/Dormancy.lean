/-
Module: ThreadScheduler.Proofs.Dormancy
Purpose: The scheduler before scheduling begins. There is no thread, whatever was tried so far, and
  nothing that schedules has an effect. It is refused because scheduling has not begun, except for
  the end of the caller, which is refused because nobody calls.
Main exports: Moment.boots, Machine.Dormant, Machine.dormant_of_run, Machine.exit_before_scheduling
-/
import ThreadScheduler.Proofs.Atomicity
import ThreadScheduler.Proofs.History
import ThreadScheduler.Proofs.Refusal

namespace ThreadScheduler

/-- Whether scheduling begins by an operation. -/
def Moment.boots (x : Moment) : Bool :=
  match x.operation, x.result with
  | .init _ _, .ok _ => true
  | _, _ => false

/-- What a machine does before scheduling begins. -/
structure Machine.Dormant (m : Machine) : Prop where
  /-- There is no thread, neither on a processor nor in a queue nor in the line of a mutex. -/
  blank : m.kernel.Blank
  refuses : ∀ cpu operation, operation.Schedules → (∀ code, operation ≠ .exit code) →
    m.execute cpu operation = ⟨.error .notInitialized, { m with cpu, trace := [] }⟩
  exits : ∀ cpu code,
    (m.execute cpu (.exit code)).result = .error (.thread (.noRunningThread cpu)) ∧
      (m.execute cpu (.exit code)).machine.kernel = m.kernel
  ticks : ∀ cpu, m.execute cpu .tick = ⟨.ok .done, { m with cpu, trace := [] }⟩

namespace Moment.Takes

variable {x : Moment} {course : Course}

/-- Nothing but its beginning makes scheduling begin. -/
theorem fresh_after (h : x.Takes course) (fresh : x.before.initialized = false)
    (waits : x.boots = false) : x.after.initialized = false := by
  obtain ⟨k, here, operation, result, after⟩ := x
  obtain ⟨_, transition, same⟩ := h
  dsimp only at fresh transition same
  subst same
  cases transition with
  | booted => cases waits
  | idleRefused _ _ _ _ adopted =>
    obtain ⟨_, _, _, _, rfl⟩ := adopted.frame
    exact fresh
  | reaped =>
    obtain ⟨_, _, _, same⟩ := Kernel.reaped_frame k
    change k.reaped.initialized = false
    rw [same]
    exact fresh
  | refused | denied | answered | subscribed | timerStarted | timerStopped | timerInterrupted
  | bootstrapRefused | ignored | mutexCreated | mutexReleased => exact fresh
  | _ running => cases fresh.symm.trans running

end Moment.Takes

namespace Machine

variable {m : Machine}

/-- In a run without a beginning scheduling has not begun. -/
theorem fresh_run (reached : m.kernel.Reachable) (fresh : m.kernel.initialized = false)
    {requests : List Request} (waits : ∀ x ∈ m.history requests, x.boots = false) :
    (m.run requests).kernel.initialized = false := by
  induction requests generalizing m with
  | nil => exact fresh
  | cons request rest ih =>
    obtain ⟨course, takes⟩ := exists_course reached request
    obtain ⟨first, later⟩ := List.forall_mem_cons.mp waits
    exact ih (reached.step request.cpu request.operation) (takes.fresh_after fresh first) later

/-- A call that requires scheduling to have begun does nothing before. -/
theorem execute_of_requireInitialized {α : Type} {cpu : Nat} {operation : Operation}
    {reply : α → Reply} {next : Unit → Call α} (fresh : m.kernel.initialized = false)
    (performs : operation.perform = reply <$> (Call.requireInitialized >>= next)) :
    m.execute cpu operation = ⟨.error .notInitialized, { m with cpu, trace := [] }⟩ := by
  unfold execute
  rw [performs]
  simp only [Functor.map, EStateM.map, bind, EStateM.bind, Call.requireInitialized_apply, fresh,
    Bool.false_eq_true, if_false]

theorem dormant (regular : m.kernel.Regular) (fresh : m.kernel.initialized = false) :
    m.Dormant where
  blank := regular.orderly.blank fresh
  refuses cpu operation schedules other := by
    cases operation with
    | exit code => exact absurd rfl (other code)
    | spawn | yield | sleepUntil | sleepFor | lock | unlock | terminate | setThreadPointer =>
      exact execute_of_requireInitialized fresh rfl
    | _ => exact schedules.elim
  exits cpu code := by
    have nobody : m.kernel.caller cpu = .error (.noRunningThread cpu) := by
      rw [Kernel.caller, (regular.orderly.blank fresh).running? cpu]
    have refused : (m.execute cpu (.exit code)).result =
        .error (.thread (.noRunningThread cpu)) := by
      have schedules : (Operation.exit code).Schedules := trivial
      refine (result_eq_error_iff schedules _).mpr ?_
      simp [Kernel.refusal?, Kernel.callerRefusal?, nobody, objection?]
    obtain ⟨course, transition, after⟩ := m.transition_of_execute cpu (.exit code)
    rw [refused] at transition
    cases transition with
    | refused => exact ⟨refused, after⟩
    | denied _ lacks => exact False.elim lacks
  ticks cpu := by
    unfold execute Operation.perform Call.tick
    simp only [Functor.map, EStateM.map, bind, EStateM.bind, Call.kernel_apply, fresh,
      Bool.false_eq_true, if_false]
    rfl

/-- Before scheduling begins the scheduler is dormant, whatever operations were executed, whether
they failed or not. -/
theorem dormant_of_run {config : Config} {timer : PeriodicTimer} {heap : Heap}
    (made : Kernel.ofConfig config timer heap = .ok m.kernel) {requests : List Request}
    (waits : ∀ x ∈ m.history requests, x.boots = false) : (m.run requests).Dormant := by
  have reached : m.kernel.Reachable := .new made
  have fresh : m.kernel.initialized = false := by
    rw [(Kernel.eq_of_ofConfig made).2]
  exact dormant (reached.run requests).regular (fresh_run reached fresh waits)

/-- The beginning of scheduling fails for want of a stack, a mutex is made and the second processor
ticks. -/
theorem dormant_of_shortage :
    (∀ x ∈ shortOfStacks.history [⟨0, .init 16 none⟩, ⟨0, .createMutex "early"⟩, ⟨1, .tick⟩],
        x.boots = false) ∧
      (shortOfStacks.run [⟨0, .init 16 none⟩, ⟨0, .createMutex "early"⟩, ⟨1, .tick⟩]).Dormant := by
  have made : Kernel.ofConfig { cpus := 2, maxKernelStacks := 1 } .pit {} =
      .ok shortOfStacks.kernel := rfl
  have waits : ∀ x ∈ shortOfStacks.history
      [⟨0, .init 16 none⟩, ⟨0, .createMutex "early"⟩, ⟨1, .tick⟩], x.boots = false := by
    decide +kernel
  exact ⟨waits, dormant_of_run made waits⟩

/-- The end of the caller is refused in another way than everything else that schedules: the caller
is looked for before it is asked whether scheduling has begun. -/
theorem exit_before_scheduling :
    (twoProcessors.execute 0 (.exit 0)).result = .error (.thread (.noRunningThread 0)) ∧
      (twoProcessors.execute 0 .yield).result = .error .notInitialized ∧
      SchedulerError.statusCode (.thread (.noRunningThread 0)) = -2 ∧
      SchedulerError.statusCode .notInitialized = -5 := by
  decide +kernel

end Machine

end ThreadScheduler
