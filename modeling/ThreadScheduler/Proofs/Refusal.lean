/-
Module: ThreadScheduler.Proofs.Refusal
Purpose: Why the scheduler refuses what it is asked for. The checks of every operation that
  schedules, in the order in which they are made; the operation fails exactly if one of them fails,
  and with the error of the first that does.
Main exports: Operation.Schedules, Kernel.refusal?, Call.Heeds, Machine.result_eq_error_iff
-/
import ThreadScheduler.Proofs.Execution.Quietness

namespace ThreadScheduler

/-- Whether an operation concerns the threads that the scheduler has or is to have. -/
def Operation.Schedules : Operation → Prop
  | .spawn _ | .yield | .sleepUntil _ | .sleepFor _ | .lock _ | .unlock _ | .terminate _ | .exit _
  | .setThreadPointer _ => True
  | _ => False

/-- The error of a part of the scheduler that fails, as its caller sees it. -/
def objection? {ε α : Type} (wrap : ε → SchedulerError) : Except ε α → Option SchedulerError
  | .ok _ => none
  | .error error => some (wrap error)

namespace Kernel

/-- The refusal of a kernel in which scheduling has not begun. -/
def dormancy? (k : Kernel) : Option SchedulerError :=
  if k.initialized then none else some .notInitialized

/-- The refusal of a processor that does not exist. -/
def absence? (k : Kernel) (here : Nat) : Option SchedulerError :=
  if (k.cpus[here]?).isSome then none else some (.thread (.noRunningThread here))

/-- The refusal of a processor on whose behalf no thread calls. -/
def callerRefusal? (k : Kernel) (here : Nat) : Option SchedulerError :=
  objection? .thread (k.caller here)

/-- The refusal of a handle that names no mutex. -/
def mutexRefusal? (k : Kernel) (id : MutexId) : Option SchedulerError :=
  if (k.mutexes.get? id).isSome then none else some (.mutex (.notFound id.value))

/-- The refusal to end a thread that does not exist or is idle. -/
def victimRefusal? (k : Kernel) (id : ThreadId) : Option SchedulerError :=
  if (k.threads.get? id).isNone then some (.thread (.notFound id.value))
  else if k.isIdle id then some (.thread (.idleThread id.value))
  else none

/-- The refusal to register a thread as described. -/
def registryRefusal? (k : Kernel) (spec : ThreadSpec) : Option SchedulerError :=
  (objection? .spawn spec.validate).or <|
    (if k.ready.hasLevel spec.policy then none else some (.spawn .invalidPolicy)).or <|
      (objection? .spawn k.reserveThread.1).or <|
        objection? (.spawn ∘ .ofMemory)
          (k.reserveThread.2.takeStack (spec.stackClass.getD k.config.kernelStack)).1

/-- Why an operation that schedules is refused. Only the end of the caller is checked for a caller
before it is checked that scheduling has begun. -/
def refusal? (k : Kernel) (here : Nat) : Operation → Option SchedulerError
  | .spawn spec => k.dormancy?.or (k.registryRefusal? spec)
  | .yield => k.dormancy?.or (k.absence? here)
  | .sleepUntil _ | .sleepFor _ | .setThreadPointer _ => k.dormancy?.or (k.callerRefusal? here)
  | .lock id | .unlock id => k.dormancy?.or ((k.callerRefusal? here).or (k.mutexRefusal? id))
  | .terminate id => k.dormancy?.or (k.victimRefusal? id)
  | .exit _ => (k.callerRefusal? here).or k.dormancy?
  | _ => none

@[simp] theorem dormancy?_of_begun {k : Kernel} (begun : k.initialized = true) :
    k.dormancy? = none := by
  simp [dormancy?, begun]

@[simp] theorem dormancy?_of_fresh {k : Kernel} (fresh : k.initialized = false) :
    k.dormancy? = some .notInitialized := by
  simp [dormancy?, fresh]

theorem callerRefusal?_of_caller {k : Kernel} {here : Nat} {id : ThreadId}
    (caller : k.caller here = .ok id) : k.callerRefusal? here = none := by
  rw [callerRefusal?, caller]
  rfl

/-- A thread on whose behalf a processor calls may be ended. -/
theorem victimRefusal?_of_caller {k : Kernel} {here : Nat} {id : ThreadId}
    (caller : k.caller here = .ok id) : k.victimRefusal? id = none := by
  obtain ⟨_, busy, state⟩ := caller_eq_ok_iff.mp caller
  obtain ⟨thread, found, _⟩ := Option.map_eq_some_iff.mp state
  simp [victimRefusal?, found, busy]

end Kernel

namespace Call

variable {α β : Type} {m : Machine} {refusal later : Option SchedulerError}

/-- The call fails exactly if there is a refusal, and with this refusal. -/
def Heeds (call : Call α) (m : Machine) (refusal : Option SchedulerError) : Prop :=
  call.Ensures m (fun _ _ => refusal = none) fun error _ => refusal = some error

/-- The call heeds the refusal and does nothing else. -/
def Checks (call : Call α) (m : Machine) (refusal : Option SchedulerError) : Prop :=
  call.Ensures m (fun _ after => refusal = none ∧ after = m) fun error _ => refusal = some error

/-- A call that never fails heeds no refusal. -/
theorem NeverFails.heeds {call : Call α} (h : call.NeverFails) (m : Machine) : call.Heeds m none :=
  (h m).mono (fun _ _ _ => rfl) fun _ _ never => never.elim

theorem NeverFails.heeds_of {call : Call α} (h : call.NeverFails) (none : refusal = none) :
    call.Heeds m refusal := by
  rw [none]
  exact h.heeds m

/-- The first check that fails decides. -/
theorem Checks.before {call : Call α} {next : α → Call β} (first : call.Checks m refusal)
    (rest : ∀ value, (next value).Heeds m later) : (call >>= next).Heeds m (refusal.or later) := by
  refine Ensures.bind first ?_ fun _ _ refused => by rw [refused, Option.some_or]
  rintro value _ ⟨passed, rfl⟩
  rw [passed, Option.none_or]
  exact rest value

/-- A check made with interrupts disabled reads the same kernel. -/
theorem heeds_critical {body : Call α} (h : body.Heeds m.mask.2 refusal) :
    (critical body).Heeds m refusal := (ensures_critical body).mpr h

theorem Heeds.map {call : Call α} (h : call.Heeds m refusal) (f : α → β) :
    (f <$> call).Heeds m refusal := (ensures_map f call).mpr h

theorem checks_requireInitialized : requireInitialized.Checks m m.kernel.dormancy? := by
  unfold Checks
  rw [ensures_requireInitialized]
  split
  · rename_i begun
    exact ⟨Kernel.dormancy?_of_begun begun, rfl⟩
  · rename_i fresh
    exact Kernel.dormancy?_of_fresh (by simpa using fresh)

theorem checks_answer {ε : Type} (wrap : ε → SchedulerError) (result : Except ε α) :
    (answer wrap result).Checks m (objection? wrap result) := by
  cases result with
  | ok value => exact ⟨rfl, rfl⟩
  | error error => exact rfl

theorem checks_caller : caller.Checks m (m.kernel.callerRefusal? m.cpu) :=
  (ensures_bind _ _).mpr ((ensures_bind _ _).mpr (checks_answer .thread _))

theorem checks_findMutex (id : MutexId) : (findMutex id).Checks m (m.kernel.mutexRefusal? id) := by
  refine ensures_findMutex (fun mutex found => ?_) fun missing => ?_
  · simp [Kernel.mutexRefusal?, found]
  · simp [Kernel.mutexRefusal?, missing]

/-- Registering a thread is refused for the first reason there is. -/
theorem heeds_register (spec : ThreadSpec) (queued : Bool) (m : Machine) :
    (register spec queued).Heeds m (m.kernel.registryRefusal? spec) := by
  unfold Heeds register
  simp only [ensures_bind, ensures_kernel]
  refine ensures_answer ?_ fun _ failed => by simp [Kernel.registryRefusal?, failed, objection?]
  intro _ valid
  split
  case isFalse unserved => simp [Kernel.registryRefusal?, valid, unserved, objection?]
  case isTrue served =>
  simp only [ensures_bind, ensures_kernel]
  refine ensures_reserveThread ?_ fun _ _ failed _ _ => by
    simp [Kernel.registryRefusal?, valid, served, Kernel.reserveThread, failed, objection?]
  intro id capacity heap reserved _
  have roomy : m.kernel.reserveThread = (.ok id, m.kernel.withRoom heap capacity) := by
    simp [Kernel.reserveThread, reserved, Kernel.withRoom]
  refine ensures_takeStack ?_ fun _ _ failed _ => by
    rw [Kernel.config_withRoom] at failed
    simp [Kernel.registryRefusal?, valid, served, roomy, Kernel.takeStack, failed, objection?]
  intro stack pool _ granted
  rw [Kernel.config_withRoom] at granted
  -- Nothing can go wrong from here on: room and a handle were reserved for the record.
  have passed : m.kernel.registryRefusal? spec = none := by
    simp [Kernel.registryRefusal?, valid, served, roomy, Kernel.takeStack, granted, objection?]
  have inserted :=
    insert_of_reserve ((spec.toThread id).prepare stack spec.entry spec.argument) reserved
  simp only [Kernel.withRoom, inserted, ensures_bind, ensures_update]
  cases queued with
  | false => exact passed
  | true =>
    simp only [if_true, ensures_bind, ensures_kernel, ensures_put]
    exact (acts_option_forM acts_log _ _).mono (fun _ _ _ => passed) fun _ _ never => never.elim

theorem heeds_spawn (spec : ThreadSpec) :
    (spawn spec).Heeds m (m.kernel.dormancy?.or (m.kernel.registryRefusal? spec)) := by
  refine checks_requireInitialized.before fun _ => heeds_critical ?_
  have registered := heeds_register spec true m.mask.2
  rw [Machine.kernel_mask] at registered
  refine Ensures.bind registered (fun id between passed => ?_) fun _ _ refused => refused
  exact ((acts_notify _ _).neverFails.bind fun _ => neverFails_pure id).heeds_of passed

theorem heeds_yield : yield.Heeds m (m.kernel.dormancy?.or (m.kernel.absence? m.cpu)) := by
  refine checks_requireInitialized.before fun _ => heeds_critical ?_
  unfold Heeds Kernel.absence?
  simp only [ensures_bind, ensures_kernel, ensures_cpu, Machine.kernel_mask, Machine.cpu_mask]
  split
  · rename_i slot found
    exact (neverFails_giveWay m.kernel slot).heeds_of (by simp [found])
  · rename_i outside
    simp [Option.eq_none_iff_forall_ne_some.mpr outside]

/-- What the caller asks for is refused to nobody else. -/
theorem heeds_caller {body : ThreadId → Call α}
    (rest : ∀ id, (body id).Heeds m.mask.2 later) :
    (critical (caller >>= body)).Heeds m ((m.kernel.callerRefusal? m.cpu).or later) := by
  have called : caller.Checks m.mask.2 (m.kernel.callerRefusal? m.cpu) := by
    simpa using checks_caller (m := m.mask.2)
  exact heeds_critical (called.before rest)

theorem heeds_sleep (wakeAt : Instant → Instant) :
    (sleep wakeAt).Heeds m (m.kernel.dormancy?.or (m.kernel.callerRefusal? m.cpu)) := by
  rw [← Option.or_none (o := m.kernel.callerRefusal? m.cpu)]
  refine checks_requireInitialized.before fun _ => heeds_caller fun id => ?_
  refine NeverFails.heeds ?_ _
  refine neverFails_kernel.bind fun k => ?_
  dsimp only
  split
  · exact (neverFails_log _).bind fun _ => (neverFails_update _).bind fun _ => neverFails_switchOver
  · exact neverFails_pure ()

/-- The caller is refused a mutex that does not exist. -/
theorem heeds_findMutex {id : MutexId} {body : ThreadId → Mutex → Call α}
    (rest : ∀ thread mutex, (body thread mutex).NeverFails) :
    (do
      requireInitialized
      critical do
        let thread ← caller
        body thread (← findMutex id) : Call α).Heeds m
      (m.kernel.dormancy?.or ((m.kernel.callerRefusal? m.cpu).or (m.kernel.mutexRefusal? id))) := by
  refine checks_requireInitialized.before fun _ => heeds_caller fun thread => ?_
  have named : (findMutex id).Checks m.mask.2 (m.kernel.mutexRefusal? id) := by
    simpa using checks_findMutex (m := m.mask.2) id
  rw [← Option.or_none (o := m.kernel.mutexRefusal? id)]
  exact named.before fun mutex => (rest thread mutex).heeds _

theorem heeds_lock (id : MutexId) :
    (lock id).Heeds m
      (m.kernel.dormancy?.or ((m.kernel.callerRefusal? m.cpu).or (m.kernel.mutexRefusal? id))) := by
  refine heeds_findMutex fun thread mutex => ?_
  refine (neverFails_update _).bind fun _ => ?_
  dsimp only
  split
  · refine (neverFails_log _).bind fun _ => (neverFails_update _).bind fun _ => ?_
    exact neverFails_reschedule.bind fun switch => (acts_carryOut switch).neverFails.bind fun _ =>
      neverFails_pure _
  · exact (neverFails_log _).bind fun _ => neverFails_pure _

theorem heeds_unlock (id : MutexId) :
    (unlock id).Heeds m
      (m.kernel.dormancy?.or ((m.kernel.callerRefusal? m.cpu).or (m.kernel.mutexRefusal? id))) := by
  refine heeds_findMutex fun thread mutex => ?_
  refine (neverFails_update _).bind fun _ => ?_
  dsimp only
  split
  · exact (neverFails_log _).bind fun _ => (acts_makeReady _).neverFails.bind fun _ =>
      neverFails_pure _
  · exact neverFails_pure _

theorem heeds_terminate (id : ThreadId) :
    (terminate id).Heeds m (m.kernel.dormancy?.or (m.kernel.victimRefusal? id)) := by
  refine checks_requireInitialized.before fun _ => heeds_critical ?_
  unfold Heeds Kernel.victimRefusal?
  simp only [ensures_bind, ensures_kernel, Machine.kernel_mask]
  split
  · rename_i missing
    simp [missing]
  · rename_i thread found
    split
    · simp [found]
    · refine NeverFails.heeds_of ?_ (by simp [found])
      split
      · exact neverFails_pure ()
      · exact neverFails_endThread thread

/-- Whoever calls may be ended. -/
theorem heeds_terminate_caller {inner : Machine} {id : ThreadId} {here : Nat}
    (same : inner.kernel = m.kernel) (caller : m.kernel.caller here = .ok id) :
    (terminate id).Heeds inner m.kernel.dormancy? := by
  have heeded := heeds_terminate (m := inner) id
  rwa [same, Kernel.victimRefusal?_of_caller caller, Option.or_none] at heeded

theorem heeds_exit (exitCode : Int) :
    (exit exitCode).Heeds m ((m.kernel.callerRefusal? m.cpu).or m.kernel.dormancy?) := by
  unfold exit Heeds
  simp only [ensures_bind, ensures_critical, ensures_kernel, ensures_log, ensures_pure]
  refine ensures_caller (fun id caller => ?_) fun error failed => ?_
  · rw [Machine.kernel_mask, Machine.cpu_mask] at caller
    rw [Kernel.callerRefusal?_of_caller caller, Option.none_or]
    exact heeds_terminate_caller (by simp) caller
  · rw [Machine.kernel_mask, Machine.cpu_mask] at failed
    simp [Kernel.callerRefusal?, failed, objection?]

theorem heeds_setThreadPointer (address : Nat) :
    (setThreadPointer address).Heeds m
      (m.kernel.dormancy?.or (m.kernel.callerRefusal? m.cpu)) := by
  rw [← Option.or_none (o := m.kernel.callerRefusal? m.cpu)]
  refine checks_requireInitialized.before fun _ => heeds_caller fun id => NeverFails.heeds ?_ _
  exact (neverFails_update _).bind fun _ => (acts_emit _).neverFails

/-- Every operation that schedules heeds its refusal. -/
theorem heeds_perform {operation : Operation} (schedules : operation.Schedules) :
    operation.perform.Heeds m (m.kernel.refusal? m.cpu operation) := by
  cases operation with
  | spawn spec => exact (heeds_spawn spec).map _
  | yield => exact heeds_yield.map _
  | sleepUntil wake => exact (heeds_sleep _).map _
  | sleepFor span => exact (heeds_sleep _).map _
  | lock id => exact (heeds_lock id).map _
  | unlock id => exact (heeds_unlock id).map _
  | terminate id => exact (heeds_terminate id).map _
  | exit exitCode => exact (heeds_exit exitCode).map _
  | setThreadPointer address => exact (heeds_setThreadPointer address).map _
  | _ => exact schedules.elim

end Call

/-- An operation that schedules fails exactly if it is refused, and with the error of the
refusal. -/
theorem Machine.result_eq_error_iff {m : Machine} {cpu : Nat} {operation : Operation}
    (schedules : operation.Schedules) (error : SchedulerError) :
    (m.execute cpu operation).result = .error error ↔
      m.kernel.refusal? cpu operation = some error := by
  have heeded := execute_of_ensures
    (fun result _ => m.kernel.refusal? cpu operation = objection? id result)
    (Call.heeds_perform (m := { m with cpu, trace := [] }) schedules)
  rw [heeded]
  cases (m.execute cpu operation).result <;> simp [objection?]

end ThreadScheduler
