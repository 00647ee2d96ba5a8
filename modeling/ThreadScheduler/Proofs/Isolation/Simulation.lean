/-
Module: ThreadScheduler.Proofs.Isolation.Simulation
Purpose: A machine on which only the threads above a cut are seen does what the scheduler does: the
  answer to each request that these threads can make, and what is seen of the kernel afterwards, are
  those of the machine that never sees the other threads.
Main exports: Kernel.runsHigh, Kernel.permits, Kernel.upper_refused, Kernel.upper_granted,
  Machine.upper_execute
-/
import ThreadScheduler.Proofs.Isolation.Tick
import ThreadScheduler.Proofs.Refusal
import ThreadScheduler.Proofs.Retirement

namespace ThreadScheduler

namespace Kernel

variable {k : Kernel} {cut : Nat} {id : ThreadId} {slice : Duration} {elapsed : Duration}
  {operation : Operation} {error : SchedulerError} {reply : Reply} {course : Course}

/-- Whether a thread above the cut runs on processor 0. -/
def runsHigh (k : Kernel) (cut : Nat) : Bool :=
  (k.running? 0).any fun id => (k.high? cut id).isSome

/-- What processor 0 may be asked for: a tick at any time, and whatever a thread above the cut asks
for while it runs, if it asks for the end of no thread below the cut. -/
def permits (k : Kernel) (cut : Nat) : Operation → Bool
  | .tick => true
  | .yield | .sleepUntil _ | .sleepFor _ | .lock _ | .unlock _ | .exit _ => k.runsHigh cut
  | .terminate id => k.runsHigh cut && (k.high? cut id).isSome
  | _ => false

theorem runsHigh_iff : k.runsHigh cut = true ↔ (k.upper cut).running.isSome = true := by
  unfold runsHigh
  rw [Option.any_eq_true, Option.isSome_iff_exists]
  constructor
  · rintro ⟨id, current, seen⟩
    exact ⟨(id, k.slice 0), upper_running_iff.mpr ⟨current, seen, rfl⟩⟩
  · rintro ⟨⟨id, slice⟩, runs⟩
    obtain ⟨current, seen, _⟩ := upper_running_iff.mp runs
    exact ⟨id, current, seen⟩

/-- Who asks for something but a tick is seen to run. -/
theorem exists_running_of_permits (permits : k.permits cut operation) (asks : operation ≠ .tick) :
    ∃ id slice, (k.upper cut).running = some (id, slice) := by
  have high : k.runsHigh cut = true := by
    cases operation with
    | tick => exact absurd rfl asks
    | terminate => exact (Bool.and_eq_true_iff.mp permits).1
    | yield | sleepUntil | sleepFor | lock | unlock | exit => exact permits
    | _ => cases permits
  obtain ⟨⟨id, slice⟩, runs⟩ := Option.isSome_iff_exists.mp (runsHigh_iff.mp high)
  exact ⟨id, slice, runs⟩

/-- A running thread cannot call only if it is seen not to be able to. -/
theorem caller_cases (runs : (k.upper cut).running = some (id, slice)) :
    (∃ t, k.caller 0 = .ok t ∧ (k.upper cut).caller = .ok t ∧ k.callerRefusal? 0 = none) ∨
      ∃ fault, (k.upper cut).caller = .error fault ∧
        k.callerRefusal? 0 = some (.thread fault) := by
  rw [caller_upper runs, callerRefusal?]
  cases k.caller 0 with
  | ok t => exact .inl ⟨t, rfl, rfl, rfl⟩
  | error fault => exact .inr ⟨fault, rfl, rfl⟩

/-- What only a thread can ask for is refused because nobody can call, or for a later reason. -/
theorem refused_onBehalf (runs : (k.upper cut).running = some (id, slice))
    {later : Option SchedulerError} (refused : (k.callerRefusal? 0).or later = some error)
    (act : ThreadId → Upper.Outcome)
    (refuses : later = some error → ∀ t, act t = (.error error, k.upper cut)) :
    (.error error, k.upper cut) = (k.upper cut).onBehalf act := by
  rcases caller_cases runs with ⟨t, _, calls, passes⟩ | ⟨fault, nobody, objects⟩
  · rw [passes, Option.none_or] at refused
    rw [Upper.onBehalf_of_caller calls, refuses refused t]
  · rw [objects, Option.some_or] at refused
    obtain rfl := Option.some.inj refused
    rw [Upper.onBehalf_of_nobody nobody]

/-- What is asked of a mutex is refused if there is no such mutex. -/
theorem refused_onMutex (records : k.Records) {m : MutexId}
    (refused : k.mutexRefusal? m = some error) (act : Mutex → Upper.Outcome) :
    (k.upper cut).onMutex m act = (.error error, k.upper cut) := by
  unfold mutexRefusal? at refused
  split at refused
  · cases refused
  · rename_i missing
    obtain rfl := Option.some.inj refused
    apply Upper.onMutex_of_missing
    rw [mutex?_upper cut records]
    simpa using missing

/-- What is refused is seen to be refused, for the same reason. -/
theorem upper_refused (h : k.Regular) (begun : k.initialized = true)
    (permits : k.permits cut operation) (refused : k.refusal? 0 operation = some error) :
    (.error error, k.upper cut) = (k.upper cut).perform elapsed operation := by
  have records := h.placement.records
  by_cases ticks : operation = .tick
  · rw [ticks] at refused
    cases refused
  obtain ⟨id, slice, runs⟩ := exists_running_of_permits permits ticks
  have awake := dormancy?_of_begun begun
  cases operation with
  | yield =>
    obtain ⟨current, _, _⟩ := upper_running_iff.mp runs
    obtain ⟨slot, found, _⟩ := Option.bind_eq_some_iff.mp current
    simp [refusal?, awake, absence?, found] at refused
  | sleepUntil wake | sleepFor span =>
    rw [refusal?, awake, Option.none_or, ← Option.or_none (o := k.callerRefusal? 0)] at refused
    exact refused_onBehalf runs refused _ nofun
  | lock m | unlock m =>
    rw [refusal?, awake, Option.none_or] at refused
    exact refused_onBehalf runs refused _ fun missing _ => refused_onMutex records missing _
  | terminate victim =>
    obtain ⟨thread, high⟩ := Option.isSome_iff_exists.mp (Bool.and_eq_true_iff.mp permits).2
    obtain ⟨busy, found, _⟩ := high?_eq_some_iff.mp high
    simp [refusal?, awake, victimRefusal?, busy, found] at refused
  | exit code =>
    rw [refusal?, awake] at refused
    exact refused_onBehalf runs refused _ nofun
  | tick => exact absurd rfl ticks
  | _ => cases permits

/-- What is granted is granted to a thread that can call. -/
theorem granted_onBehalf (runs : (k.upper cut).running = some (id, slice))
    (passes : k.callerRefusal? 0 = none) (act : ThreadId → Upper.Outcome) :
    k.caller 0 = .ok id ∧ (k.upper cut).onBehalf act = act id := by
  rcases caller_cases runs with ⟨t, calls, seen, _⟩ | ⟨fault, _, objects⟩
  · obtain ⟨current, _, _⟩ := upper_running_iff.mp runs
    obtain ⟨here, _, _⟩ := caller_eq_ok_iff.mp calls
    obtain rfl := Option.some.inj (current.symm.trans here)
    exact ⟨calls, Upper.onBehalf_of_caller seen act⟩
  · cases passes.symm.trans objects

/-- What is granted is seen to be granted, and its effect is seen. -/
theorem upper_granted (h : k.Regular) (begun : k.initialized = true)
    (punctual : k.sleeping.Punctual) (calm : (k.upper cut).Calm)
    (permits : k.permits cut operation) (granted : k.refusal? 0 operation = none)
    (transition : Transition k 0 operation (.ok reply) course) :
    (.ok reply, (course.kernel 0).upper cut) =
      (k.upper cut).perform k.timer.interrupt.1 operation := by
  by_cases ticks : operation = .tick
  · subst ticks
    exact upper_tick h begun punctual calm transition
  -- Whatever else is permitted is asked by a thread above the cut.
  obtain ⟨id, slice, runs⟩ := exists_running_of_permits permits ticks
  obtain ⟨_, seen, _⟩ := upper_running_iff.mp runs
  have awake := dormancy?_of_begun begun
  cases operation with
  | yield =>
    obtain ⟨rfl, same⟩ := upper_yield h runs transition
    exact congrArg _ same
  | sleepUntil wake | sleepFor span =>
    rw [refusal?, awake, Option.none_or] at granted
    obtain ⟨caller, acts⟩ := granted_onBehalf runs granted ((k.upper cut).sleep _)
    exact (upper_sleep h punctual runs rfl caller transition).trans acts.symm
  | lock m =>
    rw [refusal?, awake, Option.none_or, Option.or_eq_none_iff] at granted
    obtain ⟨caller, acts⟩ := granted_onBehalf runs granted.1 ((k.upper cut).lock m)
    exact (upper_lock h runs caller transition).trans acts.symm
  | unlock m =>
    rw [refusal?, awake, Option.none_or, Option.or_eq_none_iff] at granted
    obtain ⟨caller, acts⟩ := granted_onBehalf runs granted.1 ((k.upper cut).unlock m)
    exact (upper_unlock h caller transition).trans acts.symm
  | terminate victim =>
    have high := (Bool.and_eq_true_iff.mp permits).2
    exact upper_terminate h punctual high (.inl rfl) transition
  | exit code =>
    rw [refusal?, awake, Option.or_none] at granted
    obtain ⟨caller, acts⟩ := granted_onBehalf runs granted
      fun id => (.ok .done, (k.upper cut).terminate id)
    have ends := upper_terminate h punctual seen (.inr ⟨caller, code, rfl⟩) transition
    exact ends.trans acts.symm
  | tick => exact absurd rfl ticks
  | _ => cases permits

/-- What is refused changes nothing. -/
theorem stays_of_refused (permits : k.permits cut operation)
    (transition : Transition k 0 operation (.error error) course) : course = .stay k := by
  cases transition with
  | refused => rfl
  | denied _ lacks => cases operation <;> first | exact False.elim lacks | cases permits
  | bootstrapRefused | idleRefused => cases permits

end Kernel

/-- A request that the threads above a cut can make fails exactly if it is refused. -/
theorem Machine.result_eq_error_iff_of_permits {m : Machine} {cut : Nat} {operation : Operation}
    (reached : m.kernel.Reachable) (begun : m.kernel.initialized = true)
    (permits : m.kernel.permits cut operation) (error : SchedulerError) :
    (m.execute 0 operation).result = .error error ↔
      m.kernel.refusal? 0 operation = some error := by
  cases operation with
  | tick =>
    obtain ⟨id, runs⟩ := reached.regular.exists_running begun
    have ticks : Operation.tick.Relieves := trivial
    obtain ⟨reply, granted⟩ := granted_of_relieves begun (Option.isSome_of_eq_some runs) ticks
    rw [granted]
    exact ⟨nofun, nofun⟩
  | yield | sleepUntil | sleepFor | lock | unlock | terminate | exit =>
    apply result_eq_error_iff
    exact trivial
  | _ => cases permits

/-- A request that the threads above a cut can make is answered as it is seen to be, and what
becomes of the kernel is seen. -/
theorem Machine.upper_execute {m : Machine} {cut : Nat} {operation : Operation}
    (reached : m.kernel.Reachable) (begun : m.kernel.initialized = true)
    (calm : (m.kernel.upper cut).Calm) (permits : m.kernel.permits cut operation) :
    ((m.execute 0 operation).result, (m.execute 0 operation).machine.kernel.upper cut) =
      (m.kernel.upper cut).perform m.kernel.timer.interrupt.1 operation := by
  obtain ⟨course, transition, same⟩ := m.transition_of_execute 0 operation
  have heeds (error : SchedulerError) : (m.execute 0 operation).result = .error error ↔
      m.kernel.refusal? 0 operation = some error :=
    result_eq_error_iff_of_permits reached begun permits error
  rw [same]
  cases result : (m.execute 0 operation).result with
  | ok reply =>
    rw [result] at transition
    have granted : m.kernel.refusal? 0 operation = none := by
      cases refusal : m.kernel.refusal? 0 operation with
      | none => rfl
      | some error => cases result.symm.trans ((heeds error).mpr refusal)
    exact Kernel.upper_granted reached.regular begun reached.punctual calm permits granted
      transition
  | error error =>
    rw [result] at transition
    rw [Kernel.stays_of_refused permits transition]
    exact Kernel.upper_refused reached.regular begun permits ((heeds error).mp result)

end ThreadScheduler
