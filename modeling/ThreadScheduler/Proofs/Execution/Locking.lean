/-
Module: ThreadScheduler.Proofs.Execution.Locking
Purpose: The calls that concern mutexes follow their transitions.
Main exports: Call.ensures_lock, Call.ensures_unlock, Machine.result_unlock
-/
import ThreadScheduler.Proofs.Execution.Basic

namespace ThreadScheduler

namespace Call

variable {m : Machine}

theorem ensures_createMutex (name : String) :
    (createMutex name).Ensures m (fun id => m.Follows (.createMutex name) (.ok (.mutexId id)))
      fun error => m.Follows (.createMutex name) (.error error) := by
  unfold createMutex
  simp only [ensures_critical, ensures_bind]
  apply ensures_attempt
  · intro id k outcome
    obtain ⟨mutexes, heap, created, rfl⟩ := Kernel.of_createMutex outcome
    rw [Machine.kernel_mask] at created
    exact ⟨_, .mutexCreated created, by simp [Course.kernel]⟩
  · intro error k outcome
    obtain ⟨heap, asked, same | rfl, rfl⟩ := Kernel.of_createMutex_error outcome
    · subst same
      exact .of_refused (by simp)
    · rw [Machine.kernel_mask] at asked
      exact .of_denied rfl (by simpa using .of_heap asked)

theorem ensures_releaseMutex (id : MutexId) :
    (releaseMutex id).Ensures m (fun _ => m.Follows (.releaseMutex id) (.ok .done))
      fun error => m.Follows (.releaseMutex id) (.error error) := by
  unfold releaseMutex
  simp only [ensures_critical, ensures_bind, ensures_kernel, Machine.kernel_mask]
  apply ensures_answer
  · intro mutexes released
    exact ⟨_, .mutexReleased released, by simp [Course.kernel]⟩
  · intro error _
    exact .of_refused (by simp)

theorem ensures_lock (id : MutexId) :
    (lock id).Ensures m (fun outcome => m.Follows (.lock id) (.ok (.locked outcome)))
      fun error => m.Follows (.lock id) (.error error) := by
  unfold lock
  refine follows_onBehalf fun thread running caller => ?_
  simp only [ensures_bind]
  refine ensures_findMutex ?_ fun _ => .of_refused (by simp)
  intro mutex found
  rw [Machine.kernel_mask] at found
  simp only [ensures_update]
  split
  · rename_i waits
    simp only [ensures_bind, ensures_log, ensures_update]
    rw [← ensures_bind]
    refine (ensures_switchOver _).mono ?_ fun _ _ never => never.elim
    rintro _ after ⟨kernelEq, _⟩
    rw [ensures_pure, waits]
    refine ⟨_, .blocked running caller found waits, ?_⟩
    simp [Course.kernel, kernelEq]
  · rename_i granted
    simp only [ensures_bind, ensures_log, ensures_pure]
    exact ⟨_, .locked running caller found granted, by simp [Course.kernel]⟩

theorem ensures_unlock (id : MutexId) :
    (unlock id).Ensures m (fun outcome => m.Follows (.unlock id) (.ok (.unlocked outcome)))
      fun error => m.Follows (.unlock id) (.error error) := by
  unfold unlock
  refine follows_onBehalf fun thread running caller => ?_
  simp only [ensures_bind]
  refine ensures_findMutex ?_ fun _ => .of_refused (by simp)
  intro mutex found
  rw [Machine.kernel_mask] at found
  simp only [ensures_update]
  split
  · rename_i next passes
    simp only [ensures_bind, ensures_log]
    refine (acts_makeReady next _).mono ?_ fun _ _ never => never.elim
    rintro _ after ⟨kernelEq, _⟩
    rw [ensures_pure, passes]
    refine ⟨_, .handedOff running caller found passes, ?_⟩
    simp [Course.kernel, kernelEq]
  · rename_i nobody
    exact ⟨_, .unlocked running caller found nobody, by simp [Course.kernel]⟩

/-- A caller that unlocks a registered mutex is not refused. -/
theorem ensures_unlock_of_caller {id : MutexId} {thread : ThreadId} {mutex : Mutex}
    (running : m.kernel.initialized = true) (calls : m.kernel.caller m.cpu = .ok thread)
    (found : m.kernel.mutexes.get? id = some mutex) :
    (unlock id).Ensures m (fun outcome _ => outcome = (mutex.unlock thread).1)
      fun _ _ => False := by
  unfold unlock
  simp only [ensures_bind, ensures_requireInitialized, running, if_true, ensures_critical]
  refine ensures_caller ?_ fun error refused => ?_
  · intro other caller
    simp only [Machine.kernel_mask, Machine.cpu_mask, calls, Except.ok.injEq] at caller
    subst caller
    refine ensures_findMutex ?_ fun missing => ?_
    · intro registered present
      simp only [Machine.kernel_mask, found, Option.some.injEq] at present
      subst present
      simp only [ensures_update]
      split
      · simp only [ensures_bind, ensures_log]
        exact (acts_makeReady _ _).mono (fun _ _ _ => rfl) fun _ _ never => never
      · rfl
    · simp [found] at missing
  · simp [calls] at refused

end Call

/-- A caller that unlocks a registered mutex gets the answer of the mutex. -/
theorem Machine.result_unlock {m : Machine} {cpu : Nat} {id : MutexId} {thread : ThreadId}
    {mutex : Mutex} (running : m.kernel.initialized = true)
    (calls : m.kernel.caller cpu = .ok thread) (found : m.kernel.mutexes.get? id = some mutex) :
    (m.execute cpu (.unlock id)).result = .ok (.unlocked (mutex.unlock thread).1) := by
  refine execute_of_ensures
    (fun result _ => result = .ok (.unlocked (mutex.unlock thread).1)) ?_
  apply (Call.ensures_map _ _).mpr
  refine (Call.ensures_unlock_of_caller (m := { m with cpu, trace := [] })
    running calls found).mono ?_ fun _ _ never => never.elim
  rintro outcome _ rfl
  rfl

end ThreadScheduler
