/-
Module: ThreadScheduler.Proofs.Execution.Lifecycle
Purpose: Ending threads, reaping them and setting their local storage follow their transitions.
Main exports: Call.ensures_terminate, Call.ensures_exit, Call.ensures_reap
-/
import ThreadScheduler.Proofs.Execution.Basic

namespace ThreadScheduler

namespace Call

variable {m : Machine}

theorem acts_passOn (owner : ThreadId) (id : MutexId) :
    (passOn owner id).Acts fun k => k.passOn owner id := by
  intro m
  unfold passOn Kernel.passOn
  simp only [ensures_bind, ensures_kernel]
  split
  · rename_i nothing
    simp [nothing]
  · rename_i removal mutex withdrawn
    simp only [withdrawn]
    cases removal with
    | waiter => simp
    | owner nextOwner =>
      cases nextOwner with
      | none => simp
      | some nextOwner =>
        simp only [ensures_bind, ensures_log]
        exact acts_makeReady nextOwner _

/-- What ending a thread does after the thread was taken out of its container. -/
theorem ensures_finish {operation : Operation} {victim : ThreadId} {thread : Thread}
    {inner : Machine}
    {guard : InterruptGuard} (host : Option Nat) (running : m.kernel.initialized = true)
    (asked : m.kernel.RequestsEnd m.cpu victim operation)
    (found : m.kernel.threads.get? victim = some thread) (alive : thread.state ≠ .terminated)
    (busy : m.kernel.isIdle victim = false)
    (kernelEq : inner.kernel = m.kernel.detached thread) (cpuEq : inner.cpu = m.cpu) :
    (finish thread.id m.cpu host).Ensures inner
      (fun _ after => m.Follows operation (.ok .done) (after.unmask guard))
      fun error after => m.Follows operation (.error error) (after.unmask guard) := by
  unfold finish announceEnd
  simp only [ensures_bind, ensures_kernel]
  refine (acts_forM (acts_passOn thread.id) _ inner).mono ?_ fun _ _ never => never.elim
  rintro _ passed ⟨passedEq, passedCpu⟩
  simp only [kernelEq] at passedEq
  simp only [ensures_update, ensures_log, Machine.kernel_emit, passedEq]
  have cpus : (m.kernel.ended thread).running? m.cpu = m.kernel.running? m.cpu := by
    rw [Kernel.running?, Kernel.cpus_ended, Kernel.running?]
  -- Telling subscribers changes nothing in the kernel.
  have notified (next : Option ThreadId) :=
    acts_option_forM (fun next => acts_notify (·.terminated) (.terminated thread.id next)) next
  split
  · rename_i current
    have current : m.kernel.running? m.cpu = some thread.id := cpus ▸ current
    simp only [ensures_bind]
    refine (ensures_reschedule _).mono ?_ fun _ _ never => never.elim
    rintro switch between ⟨betweenEq, rfl, betweenCpu⟩
    simp only [ensures_kernel]
    refine (notified _ between).mono ?_ fun _ _ never => never.elim
    rintro _ told ⟨toldEq, toldCpu⟩
    refine (acts_carryOut _ told).mono ?_ fun _ _ never => never.elim
    rintro _ after ⟨afterEq, _⟩
    refine ⟨_, .endedHere running asked found alive busy current, ?_⟩
    rw [Machine.kernel_unmask, afterEq, toldEq, id, betweenEq]
    simp [Course.kernel, Kernel.redispatch, passedCpu, cpuEq]
    rfl
  · rename_i elsewhere
    have elsewhere : m.kernel.running? m.cpu ≠ some thread.id := cpus ▸ elsewhere
    simp only [ensures_bind, ensures_pure, ensures_kernel]
    refine (notified _ _).mono ?_ fun _ _ never => never.elim
    rintro _ told ⟨toldEq, toldCpu⟩
    refine (acts_carryOut none told).mono ?_ fun _ _ never => never.elim
    rintro _ after ⟨afterEq, _⟩
    refine ⟨_, .endedElsewhere running asked found alive busy elsewhere, ?_⟩
    rw [Machine.kernel_unmask, afterEq, countSwitch, toldEq]
    rfl

theorem ensures_endThread {operation : Operation} {victim : ThreadId} {thread : Thread}
    {inner : Machine}
    {guard : InterruptGuard} (running : m.kernel.initialized = true)
    (asked : m.kernel.RequestsEnd m.cpu victim operation)
    (found : m.kernel.threads.get? victim = some thread) (alive : thread.state ≠ .terminated)
    (busy : m.kernel.isIdle victim = false) (kernelEq : inner.kernel = m.kernel)
    (cpuEq : inner.cpu = m.cpu) :
    (endThread thread).Ensures inner
      (fun _ after => m.Follows operation (.ok .done) (after.unmask guard))
      fun error after => m.Follows operation (.error error) (after.unmask guard) := by
  unfold endThread
  simp only [ensures_bind, ensures_kernel, ensures_cpu, kernelEq, cpuEq]
  split
  · rename_i k removed
    exact ensures_finish _ running asked found alive busy (by simp [Kernel.detached, removed]) cpuEq
  · rename_i misplaced
    exact ensures_finish _ running asked found alive busy
      (by simp [Kernel.detached, misplaced, kernelEq]) cpuEq

theorem ensures_terminate (id : ThreadId) {operation : Operation}
    (asked : m.kernel.RequestsEnd m.cpu id operation)
    (repeated : ¬ m.kernel.stateOf? id = some .terminated ∨ operation = .terminate id) :
    (terminate id).Ensures m (fun _ => m.Follows operation (.ok .done))
      fun error => m.Follows operation (.error error) := by
  unfold terminate
  refine follows_begun fun running => ?_
  simp only [ensures_bind, ensures_kernel, Machine.kernel_mask]
  split
  · exact .of_refused (by simp)
  · rename_i thread found
    split
    · exact .of_refused (by simp)
    · rename_i busy
      split
      · rename_i state
        have ended : m.kernel.stateOf? id = some .terminated := by
          simp [Kernel.stateOf?, found, state]
        obtain rfl := repeated.resolve_left (not_not_intro ended)
        exact ⟨_, .alreadyEnded running ended, by simp [Course.kernel]⟩
      · rename_i alive
        exact ensures_endThread running asked found alive (by simpa using busy) (by simp) (by simp)

theorem ensures_exit (exitCode : Int) :
    (exit exitCode).Ensures m (fun _ => m.Follows (.exit exitCode) (.ok .done))
      fun error => m.Follows (.exit exitCode) (.error error) := by
  unfold exit
  simp only [ensures_bind, ensures_critical]
  refine ensures_caller ?_ fun error _ => .of_refused (by simp)
  intro id caller
  simp only [Machine.kernel_mask, Machine.cpu_mask] at caller
  simp only [ensures_kernel, ensures_log, ensures_pure]
  obtain ⟨_, _, state⟩ := Kernel.caller_eq_ok_iff.mp caller
  have asked : m.kernel.RequestsEnd m.cpu id (.exit exitCode) := caller
  refine (ensures_terminate id (by simpa using asked) (.inl ?_)).mono ?_ ?_
  · simp [state]
  · exact fun _ _ follows => follows.congr (by simp) (by simp)
  · exact fun _ _ follows => follows.congr (by simp) (by simp)

theorem ensures_setThreadPointer (address : Nat) :
    (setThreadPointer address).Ensures m
      (fun _ => m.Follows (.setThreadPointer address) (.ok .done))
      fun error => m.Follows (.setThreadPointer address) (.error error) := by
  unfold setThreadPointer
  refine follows_onBehalf fun id running caller => ?_
  simp only [ensures_bind, ensures_update, ensures_emit]
  exact ⟨_, .threadPointerSet running caller, by simp [Course.kernel]⟩

theorem acts_reapThread (id : ThreadId) : (reapThread id).Acts fun k => k.reapThread id := by
  intro m
  unfold reapThread Kernel.reapThread
  simp only [ensures_bind, ensures_kernel]
  cases m.kernel.threads.remove id with
  | none => simp
  | some entry =>
    obtain ⟨thread, threads⟩ := entry
    simp only [ensures_update, ensures_bind, ensures_log]
    cases thread.pooledStack <;> exact ⟨rfl, rfl⟩

theorem acts_reapThreads (ids : List ThreadId) :
    (reapThreads ids).Acts fun k => ids.foldl Kernel.reapThread k := by
  induction ids with
  | nil => exact acts_pure 0
  | cons id rest ih =>
    exact (acts_reapThread id).bind fun _ => ih.bind fun _ => acts_pure _

theorem ensures_reap :
    reap.Ensures m (fun count => m.Follows .reap (.ok (.count count)))
      fun error => m.Follows .reap (.error error) := by
  unfold reap
  simp only [ensures_critical, ensures_bind, ensures_kernel, ensures_put, Machine.kernel_mask,
    List.partition_eq_filter_filter]
  refine (acts_reapThreads _ _).mono ?_ fun _ _ never => never.elim
  rintro count after ⟨afterEq, _⟩
  refine ⟨_, .reaped count, ?_⟩
  rw [Machine.kernel_unmask, afterEq]
  rfl

end Call

end ThreadScheduler
