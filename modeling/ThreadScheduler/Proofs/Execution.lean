/-
Module: ThreadScheduler.Proofs.Execution
Purpose: Every execution of an operation is one of the transitions, whatever the kernel, the
  processor and the interrupt flag.
Main exports: Call.ensures_perform, Machine.transition_of_execute
-/
import ThreadScheduler.Proofs.Execution.Clock
import ThreadScheduler.Proofs.Execution.Lifecycle
import ThreadScheduler.Proofs.Execution.Locking
import ThreadScheduler.Proofs.Execution.Startup

namespace ThreadScheduler

namespace Call

variable {m : Machine}

theorem ensures_inspect {α : Type} {operation : Operation} (view : Kernel → α)
    (reply : α → Reply) (inquiry : operation.IsInquiry) :
    (inspect view).Ensures m (fun value => m.Follows operation (.ok (reply value)))
      fun error => m.Follows operation (.error error) := by
  unfold inspect
  simp only [ensures_critical, ensures_map, ensures_kernel]
  exact .of_answered inquiry (by simp)

theorem ensures_critical_findMutex (id : MutexId) :
    (critical (findMutex id)).Ensures m
      (fun mutex => m.Follows (.findMutex id) (.ok (.mutex mutex)))
      fun error => m.Follows (.findMutex id) (.error error) := by
  simp only [ensures_critical]
  exact ensures_findMutex (fun _ _ => .of_answered trivial (by simp))
    fun _ => .of_refused (by simp)

theorem ensures_threadInfo (id : ThreadId) :
    (threadInfo id).Ensures m (fun thread => m.Follows (.threadInfo id) (.ok (.thread thread)))
      fun error => m.Follows (.threadInfo id) (.error error) := by
  unfold threadInfo
  simp only [ensures_critical, ensures_bind, ensures_kernel]
  split
  · exact .of_answered trivial (by simp)
  · exact .of_refused (by simp)

theorem ensures_subscribe (topic : Topic) (wanted : Bool) :
    (subscribe topic wanted).Ensures m (fun _ => m.Follows (.subscribe topic wanted) (.ok .done))
      fun error => m.Follows (.subscribe topic wanted) (.error error) := by
  unfold subscribe
  simp only [ensures_critical, ensures_update]
  exact ⟨_, .subscribed topic wanted, by simp [Course.kernel]⟩

theorem ensures_stopTimer :
    stopTimer.Ensures m (fun _ => m.Follows .stopTimer (.ok .done))
      fun error => m.Follows .stopTimer (.error error) := by
  unfold stopTimer
  simp only [ensures_bind, ensures_kernel]
  refine ensures_answer ?_ fun _ _ => .of_refused rfl
  intro timer stopped
  exact ⟨_, .timerStopped stopped, rfl⟩

theorem ensures_interruptTimer :
    interruptTimer.Ensures m
      (fun span => m.Follows .interruptTimer (.ok (.duration span)))
      fun error => m.Follows .interruptTimer (.error error) := by
  unfold interruptTimer
  simp only [ensures_bind, ensures_kernel, ensures_update, ensures_pure]
  exact ⟨_, .timerInterrupted, rfl⟩

/-- The call of every operation follows the transitions. -/
theorem ensures_perform (operation : Operation) (m : Machine) :
    operation.perform.Ensures m (fun reply => m.Follows operation (.ok reply))
      fun error => m.Follows operation (.error error) := by
  cases operation with
  | init entry bootStack => exact (ensures_map _ _).mpr (ensures_init entry bootStack)
  | spawn spec => exact (ensures_map _ _).mpr (ensures_spawn spec)
  | yield => exact (ensures_map _ _).mpr ensures_yield
  | tick => exact (ensures_map _ _).mpr ensures_tick
  | sleepUntil wake => exact (ensures_map _ _).mpr (ensures_sleep _ fun _ => rfl)
  | sleepFor span => exact (ensures_map _ _).mpr (ensures_sleep _ fun _ => rfl)
  | createMutex name => exact (ensures_map _ _).mpr (ensures_createMutex name)
  | findMutex id => exact (ensures_map _ _).mpr (ensures_critical_findMutex id)
  | releaseMutex id => exact (ensures_map _ _).mpr (ensures_releaseMutex id)
  | listMutexes => exact (ensures_map _ _).mpr (ensures_inspect _ .mutexes trivial)
  | lock id => exact (ensures_map _ _).mpr (ensures_lock id)
  | unlock id => exact (ensures_map _ _).mpr (ensures_unlock id)
  | terminate id => exact (ensures_map _ _).mpr (ensures_terminate id rfl (.inr rfl))
  | exit exitCode => exact (ensures_map _ _).mpr (ensures_exit exitCode)
  | setThreadPointer address =>
    exact (ensures_map _ _).mpr (ensures_setThreadPointer address)
  | reap => exact (ensures_map _ _).mpr ensures_reap
  | threadInfo id => exact (ensures_map _ _).mpr (ensures_threadInfo id)
  | listThreads => exact (ensures_map _ _).mpr (ensures_inspect _ .threadIds trivial)
  | runningHere =>
    have here : (inspect (·.running? m.cpu)).Ensures m
        (fun id => m.Follows .runningHere (.ok (.threadId? id)))
        fun error => m.Follows .runningHere (.error error) :=
      ensures_inspect _ .threadId? trivial
    exact (ensures_bind _ _).mpr ((ensures_map _ _).mpr here)
  | runningOn cpu => exact (ensures_map _ _).mpr (ensures_inspect _ .threadId? trivial)
  | idleOn cpu => exact (ensures_map _ _).mpr (ensures_inspect _ .threadId? trivial)
  | subscribe topic wanted => exact (ensures_map _ _).mpr (ensures_subscribe topic wanted)
  | isInitialized => exact (ensures_map _ _).mpr (.of_answered trivial rfl)
  | showConfig => exact (ensures_map _ _).mpr (.of_answered trivial rfl)
  | showTimer => exact (ensures_map _ _).mpr (.of_answered trivial rfl)
  | startTimer frequency quantum =>
    refine (ensures_map _ _).mpr ((ensures_startTimer frequency quantum m).mono ?_ ?_)
    · rintro _ after ⟨timer, started, afterEq, _⟩
      exact ⟨_, .timerStarted started, afterEq⟩
    · exact fun _ _ same => .of_refused same.1
  | stopTimer => exact (ensures_map _ _).mpr ensures_stopTimer
  | interruptTimer => exact (ensures_map _ _).mpr ensures_interruptTimer

end Call

/-- Every execution of an operation is a transition of the kernel. -/
theorem Machine.transition_of_execute (m : Machine) (cpu : Nat) (operation : Operation) :
    ∃ course, Transition m.kernel cpu operation (m.execute cpu operation).result course ∧
      (m.execute cpu operation).machine.kernel = course.kernel cpu := by
  let begun : Machine := { m with cpu, trace := [] }
  exact execute_of_ensures (begun.Follows operation) (Call.ensures_perform operation begun)

end ThreadScheduler
