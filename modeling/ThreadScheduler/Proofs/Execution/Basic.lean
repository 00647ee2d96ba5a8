/-
Module: ThreadScheduler.Proofs.Execution.Basic
Purpose: What it means that a call leaves the machine as one of the transitions of its operation
  does.
Main exports: Machine.Follows, Kernel.caller_eq_ok_iff, Call.follows_switchOver,
  Call.follows_begun, Call.follows_onBehalf
-/
import ThreadScheduler.Proofs.Transition

namespace ThreadScheduler

/-- The machine is left in the kernel of a transition with this result. -/
def Machine.Follows (m : Machine) (operation : Operation)
    (result : Except SchedulerError Reply) (after : Machine) : Prop :=
  ∃ course, Transition m.kernel m.cpu operation result course ∧
    after.kernel = course.kernel m.cpu

/-- Only the kernel and the processor matter for what follows. -/
theorem Machine.Follows.congr {m m' after : Machine} {operation : Operation}
    {result : Except SchedulerError Reply} (h : m.Follows operation result after)
    (kernelEq : m.kernel = m'.kernel) (cpuEq : m.cpu = m'.cpu) :
    m'.Follows operation result after := by
  unfold Follows at h ⊢
  rwa [← kernelEq, ← cpuEq]

theorem Machine.Follows.of_refused {m after : Machine} {operation : Operation}
    {error : SchedulerError} (same : after.kernel = m.kernel) :
    m.Follows operation (.error error) after :=
  ⟨.stay m.kernel, .refused operation error, same⟩

theorem Machine.Follows.of_denied {m after : Machine} {operation : Operation}
    {error : SchedulerError} (lacks : operation.LacksRoom error)
    (asked : m.kernel.OnlyAsks after.kernel) : m.Follows operation (.error error) after :=
  have ⟨_, _, spends, same⟩ := asked
  ⟨_, .denied error lacks spends, same⟩

theorem Machine.Follows.of_answered {m after : Machine} {operation : Operation} {reply : Reply}
    (inquiry : operation.IsInquiry) (same : after.kernel = m.kernel) :
    m.Follows operation (.ok reply) after :=
  ⟨.stay m.kernel, .answered operation reply inquiry, same⟩

namespace Kernel

/-- A thread on whose behalf a processor calls runs there, is marked as running and is not idle. -/
theorem caller_eq_ok_iff {k : Kernel} {cpu : Nat} {id : ThreadId} :
    k.caller cpu = .ok id ↔
      k.running? cpu = some id ∧ k.isIdle id = false ∧ k.stateOf? id = some .running := by
  unfold caller
  constructor
  · intro h
    split at h
    · cases h
    · rename_i found
      split at h
      · cases h
      · rename_i busy
        split at h
        · obtain rfl := Except.ok.inj h
          exact ⟨found, by simpa using busy, ‹_›⟩
        · cases h
  · rintro ⟨found, busy, state⟩
    simp [found, busy, state]

end Kernel

namespace Call

variable {m : Machine}

/-- Getting the next thread and switching to it. -/
theorem ensures_switchOver (m : Machine) :
    (do carryOut (← reschedule)).Ensures m
      (fun _ after => after.kernel = m.kernel.redispatch m.cpu ∧ after.cpu = m.cpu)
      fun _ _ => False := by
  refine (ensures_reschedule m).bind ?_ fun _ _ never => never
  rintro switch after ⟨kernelEq, switchEq, cpuEq⟩
  refine (acts_carryOut switch after).mono ?_ fun _ _ never => never
  rintro _ final ⟨kernelEq', cpuEq'⟩
  refine ⟨?_, cpuEq'.trans cpuEq⟩
  rw [kernelEq', kernelEq, switchEq, Kernel.redispatch]

/-- An operation that ends by giving the processor its next thread. -/
theorem follows_switchOver {operation : Operation} {reply : Reply} {inner : Machine}
    {k : Kernel} {guard : InterruptGuard} {failed : SchedulerError → Machine → Prop}
    (moved : Transition m.kernel m.cpu operation (.ok reply) (.dispatch k))
    (kernelEq : inner.kernel = k) (cpuEq : inner.cpu = m.cpu) :
    (do carryOut (← reschedule)).Ensures inner
      (fun _ after => m.Follows operation (.ok reply) (after.unmask guard)) failed := by
  refine (ensures_switchOver inner).mono ?_ fun _ _ never => never.elim
  rintro _ after ⟨afterEq, _⟩
  refine ⟨_, moved, ?_⟩
  rw [Machine.kernel_unmask, afterEq, kernelEq, cpuEq, Course.kernel]

/-- Before scheduling begins an operation is refused; then it runs with interrupts disabled. -/
theorem follows_begun {α : Type} {operation : Operation} {reply : α → Reply} {body : Call α}
    (follows : m.kernel.initialized = true → body.Ensures m.mask.2
      (fun value after => m.Follows operation (.ok (reply value)) (after.unmask m.mask.1))
      fun error after => m.Follows operation (.error error) (after.unmask m.mask.1)) :
    (do requireInitialized; critical body).Ensures m
      (fun value => m.Follows operation (.ok (reply value)))
      fun error => m.Follows operation (.error error) := by
  simp only [ensures_bind, ensures_requireInitialized]
  split
  case isFalse => exact .of_refused rfl
  case isTrue running => exact (ensures_critical body).mpr (follows running)

/-- An operation on behalf of the thread that runs on the processor; it is refused if there is
none. -/
theorem follows_onBehalf {α : Type} {operation : Operation} {reply : α → Reply}
    {body : ThreadId → Call α}
    (follows : ∀ id, m.kernel.initialized = true → m.kernel.caller m.cpu = .ok id →
      (body id).Ensures m.mask.2
        (fun value after => m.Follows operation (.ok (reply value)) (after.unmask m.mask.1))
        fun error after => m.Follows operation (.error error) (after.unmask m.mask.1)) :
    (do requireInitialized; critical do body (← caller)).Ensures m
      (fun value => m.Follows operation (.ok (reply value)))
      fun error => m.Follows operation (.error error) := by
  refine follows_begun fun running => ?_
  rw [ensures_bind]
  exact ensures_caller (fun id calls => follows id running (by simpa using calls))
    fun error _ => .of_refused (by simp)

end Call

end ThreadScheduler
