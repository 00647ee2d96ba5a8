/-
Module: ThreadScheduler.Proofs.Execution.Clock
Purpose: Yielding, sleeping and the timer tick follow their transitions.
Main exports: Call.ensures_yield, Call.ensures_sleep, Call.ensures_tick
-/
import ThreadScheduler.Proofs.Execution.Basic

namespace ThreadScheduler

namespace Call

variable {m : Machine}

theorem ensures_yield :
    yield.Ensures m (fun _ => m.Follows .yield (.ok .done))
      fun error => m.Follows .yield (.error error) := by
  unfold yield
  refine follows_begun fun running => ?_
  simp only [ensures_bind, ensures_kernel, ensures_cpu, Machine.kernel_mask,
    Machine.cpu_mask]
  split
  · rename_i slot found
    split
    · rename_i vacant
      refine follows_switchOver (.vacated running found ?_) (by simp) (by simp)
      simp [vacant]
    · rename_i id current
      have runs : m.kernel.running? m.cpu = some id := by simp [Kernel.running?, found, current]
      split
      · rename_i idle
        split
        · rename_i empty
          exact ⟨_, .idleYielded running runs idle empty, by simp [Course.kernel]⟩
        · rename_i waiting
          refine follows_switchOver (.vacated running found ?_) (by simp) (by simp)
          intro other same
          obtain rfl := Option.some.inj (current.symm.trans same)
          exact .inl ⟨idle, by simpa using waiting⟩
      · rename_i busy
        split
        · rename_i state
          have caller : m.kernel.caller m.cpu = .ok id := by
            simp [Kernel.caller, runs, busy, state]
          refine (acts_makeReady id _).bind ?_ fun _ _ never => never.elim
          rintro _ between ⟨kernelEq, cpuEq⟩
          exact follows_switchOver (.yielded running caller) (by simpa using kernelEq)
            (by simpa using cpuEq)
        · -- The thread was terminated from another processor, and does not become ready.
          rename_i state
          refine follows_switchOver (.vacated running found ?_) (by simp) (by simp)
          intro other same
          obtain rfl := Option.some.inj (current.symm.trans same)
          exact .inr ⟨by simpa using busy, state⟩
  · exact .of_refused (by simp)

theorem ensures_sleep {operation : Operation} (wakeAt : Instant → Instant)
    (asked : ∀ now, operation.wakeAt? now = some (wakeAt now)) :
    (sleep wakeAt).Ensures m (fun _ => m.Follows operation (.ok .done))
      fun error => m.Follows operation (.error error) := by
  unfold sleep
  refine follows_onBehalf fun id running caller => ?_
  simp only [ensures_bind, ensures_kernel, Machine.kernel_mask]
  split
  · rename_i future
    simp only [ensures_bind, ensures_log, ensures_update]
    rw [← ensures_bind]
    exact follows_switchOver (.fellAsleep running caller (asked _) future) (by simp) (by simp)
  · rename_i past
    exact ⟨_, .stayedAwake running (asked _) past, by simp [Course.kernel]⟩

/-- Waking acts as making ready does. -/
theorem acts_wake (id : ThreadId) : (wake id).Acts fun k => (k.makeReady id).1 := by
  intro m
  unfold wake
  simp only [ensures_bind, ensures_kernel, ensures_log]
  exact acts_makeReady id _

/-- Keeping time wakes the due threads and tells the time that passed and the best of them. -/
theorem ensures_keepTime (m : Machine) :
    keepTime.Ensures m
      (fun passed after =>
        after.kernel = m.kernel.timeKept ∧ after.cpu = m.cpu ∧
          passed = (m.kernel.timer.interrupt.1,
            Policy.best? (m.kernel.woken.filterMap m.kernel.timeKept.policyOf?)))
      fun _ _ => False := by
  unfold keepTime
  simp only [ensures_bind, ensures_kernel, ensures_put]
  refine (acts_forM acts_wake _ _).mono ?_ fun _ _ never => never
  rintro _ after ⟨kernelEq, cpuEq⟩
  have same : after.kernel = m.kernel.timeKept := kernelEq
  simp only [ensures_pure]
  exact ⟨same, cpuEq, by rw [same]; rfl⟩

/-- Charging a tick and carrying out the switch it calls for. -/
theorem ensures_charge {slot : CpuSlot} (inner : Machine) (guard : InterruptGuard)
    (running : m.kernel.initialized = true) (found : m.kernel.cpus[m.cpu]? = some slot)
    (kernelEq : inner.kernel = m.kernel.beforeCharge m.cpu) (cpuEq : inner.cpu = m.cpu) :
    (do carryOut (← charge m.cpu slot (m.kernel.elapsed m.cpu) (m.kernel.bestWoken m.cpu))).Ensures
      inner (fun _ after => m.Follows .tick (.ok .done) (after.unmask guard))
      fun error after => m.Follows .tick (.error error) (after.unmask guard) := by
  unfold charge
  simp only [ensures_bind, ensures_kernel, kernelEq]
  split
  · rename_i slice verdict
    simp only [ensures_bind, ensures_update, ensures_pure]
    refine ⟨_, .kept running found verdict, ?_⟩
    simp [Course.kernel, kernelEq]
  · rename_i id verdict
    refine (acts_makeReady id _).bind ?_ fun _ _ never => never.elim
    rintro _ between ⟨betweenEq, betweenCpu⟩
    rw [← ensures_bind]
    exact follows_switchOver (.preempted running found verdict) (by rw [betweenEq, kernelEq])
      (betweenCpu.trans cpuEq)
  · rename_i verdict
    rw [← ensures_bind]
    exact follows_switchOver (.replaced running found verdict) kernelEq cpuEq

theorem ensures_tick :
    tick.Ensures m (fun _ => m.Follows .tick (.ok .done))
      fun error => m.Follows .tick (.error error) := by
  unfold tick
  simp only [ensures_bind, ensures_kernel]
  split
  case isFalse fresh =>
    exact ⟨_, .ignored (.inl (by simpa using fresh)), by simp [Course.kernel]⟩
  case isTrue running =>
  simp only [ensures_critical, ensures_bind, ensures_kernel, ensures_cpu, Machine.kernel_mask,
    Machine.cpu_mask]
  split
  · rename_i outside
    exact ⟨_, .ignored (.inr outside), by simp [Course.kernel]⟩
  · rename_i slot found
    split
    · rename_i first
      refine (ensures_keepTime _).bind ?_ fun _ _ never => never.elim
      rintro _ between ⟨kernelEq, cpuEq, rfl⟩
      have charged := ensures_charge between m.mask.1 running found
        (by simpa [Kernel.beforeCharge, first] using kernelEq) (by simpa using cpuEq)
      simpa [Kernel.elapsed, Kernel.bestWoken, first] using charged
    · rename_i other
      have charged := ensures_charge m.mask.2 m.mask.1 running found
        (by simp [Kernel.beforeCharge, other]) (by simp)
      simpa [Kernel.elapsed, Kernel.bestWoken, other] using charged

end Call

end ThreadScheduler
