/-
Module: ThreadScheduler.Proofs.Configuration
Purpose: A kernel works with the limits and levels of its configuration all the time. The
  configuration is a sound one, and no operation changes what was made from it.
Main exports: Config.Sound, Kernel.exists_ofConfig_iff, Transition.policies, Kernel.Configured,
  Kernel.Reachable.configured
-/
import ThreadScheduler.Proofs.Handles
import ThreadScheduler.Proofs.StackAccounts

namespace ThreadScheduler

/-! ### Sound configurations -/

/-- What a configuration must be like for a kernel to be made. -/
structure Config.Sound (config : Config) : Prop where
  some_cpu : 1 ≤ config.cpus
  quantum : 0 < config.quantum.nanos
  frequency : 0 < config.tickFrequency
  some_policy : config.policies ≠ []
  distinct : config.policies.Nodup
  handles : config.cpus < config.maxThreads

/-- The checks find a fault exactly if there is one. -/
theorem Config.fault?_eq_none_iff {config : Config} : config.fault? = none ↔ config.Sound := by
  have quantum : config.quantum = .zero ↔ ¬ 0 < config.quantum.nanos := by
    rw [UInt64.pos_iff_ne_zero, not_not]
    cases config.quantum
    simp [Duration.zero]
  have frequency : config.tickFrequency = 0 ↔ ¬ 0 < config.tickFrequency := by
    rw [UInt64.pos_iff_ne_zero, not_not]
  unfold fault?
  constructor
  · intro passed
    constructor <;> grind
  · intro sound
    have ⟨_, _, _, _, _, _⟩ := sound
    grind

/-- A kernel is made exactly for a sound configuration. -/
theorem Kernel.exists_ofConfig_iff {config : Config} {timer : PeriodicTimer} {heap : Heap} :
    (∃ k, Kernel.ofConfig config timer heap = .ok k) ↔ config.Sound := by
  rw [← Config.fault?_eq_none_iff]
  unfold Kernel.ofConfig Config.validate
  cases config.fault? with
  | none => simp [Except.map]
  | some fault => simp [Except.map]

/-- The timer can be started as a sound configuration says unless it runs already. -/
theorem Config.Sound.objection?_start {config : Config} (sound : config.Sound)
    (timer : PeriodicTimer) :
    objection? .timer (timer.start config.tickFrequency config.quantum) =
      if timer.running then some (.timer .alreadyRunning) else none := by
  have rate : config.tickFrequency ≠ 0 := UInt64.pos_iff_ne_zero.mp sound.frequency
  have quantum : config.quantum ≠ .zero := by
    intro empty
    have positive := sound.quantum
    rw [empty] at positive
    cases positive
  unfold PeriodicTimer.start
  rw [if_neg rate, if_neg quantum]
  split <;> rfl

/-- A policy is configured, and none that is configured is more important. -/
def Config.Foremost (config : Config) (policy : Policy) : Prop :=
  policy ∈ config.policies ∧ ∀ other ∈ config.policies, ¬ other.Outranks policy

/-- A policy is configured, and none that is configured is less important. -/
def Config.Hindmost (config : Config) (policy : Policy) : Prop :=
  policy ∈ config.policies ∧ ∀ other ∈ config.policies, ¬ policy.Outranks other

/-! ### What follows the configuration -/

open Kernel in
/-- No operation changes which policies the ready queue serves, nor their order. -/
theorem Transition.policies {k : Kernel} {here : Nat} {operation : Operation}
    {result : Except SchedulerError Reply} {course : Course}
    (transition : Transition k here operation result course) (h : k.Regular) :
    (course.kernel here).ready.policies = k.ready.policies := by
  -- A processor that gets its next thread takes it off a level, and the level stays.
  have dispatched (moved : Kernel) (vacant : moved.Vacant here) :
      (moved.redispatch here).ready.policies = moved.ready.policies := by
    obtain ⟨next, installs⟩ := exists_installs vacant.idleAssigned
    exact installs.policies vacant.placement.records.ordered
  have regular := transition.regular h
  have timed : (k.beforeCharge here).ready.policies = k.ready.policies :=
    (Regular.alike_beforeCharge k here).policies
  cases transition with
  | refused | denied | answered | subscribed | timerStarted | timerStopped | timerInterrupted
  | bootstrapRefused | idleYielded | ignored | stayedAwake | mutexCreated | mutexReleased | locked
  | unlocked | alreadyEnded | threadPointerSet => rfl
  | booted _ _ _ adopted | idleRefused _ _ _ _ adopted =>
    obtain ⟨_, _, _, _, rfl⟩ := adopted.frame
    rfl
  | spawned _ admits =>
    obtain ⟨_, _, _, _, _, _, _, rfl⟩ := admits.registers
    obtain ⟨_, policies, same⟩ := enqueueReady_frame _ _ _
    exact (congrArg (·.ready.policies) same).trans policies
  | vacated | fellAsleep | blocked => exact dispatched _ regular.1
  | yielded => exact (dispatched _ regular.1).trans (policies_makeReady _ _)
  | kept => exact timed
  | preempted => exact (dispatched _ regular.1).trans ((policies_makeReady _ _).trans timed)
  | replaced => exact (dispatched _ regular.1).trans timed
  | handedOff => exact policies_makeReady _ _
  | endedElsewhere _ _ found alive busy => exact (h.alike_ended found busy alive).policies
  | endedHere _ _ found alive busy =>
    exact (dispatched _ regular.1).trans (h.alike_ended found busy alive).policies
  | reaped =>
    obtain ⟨_, _, _, same⟩ := reaped_frame k
    exact congrArg (·.ready.policies) same

namespace Kernel

/-- The kernel works as it was configured to. -/
structure Configured (k : Kernel) : Prop where
  sound : k.config.Sound
  handles : k.threads.limit = k.config.maxThreads
  policies : k.ready.policies = (ReadyQueue.ofPolicies k.config.policies).policies

namespace Configured

variable {k : Kernel}

/-- Exactly the policies that are configured have a level. -/
theorem hasLevel_iff (h : k.Configured) {policy : Policy} :
    k.ready.hasLevel policy = true ↔ policy ∈ k.config.policies := by
  rw [ReadyQueue.hasLevel_iff, h.policies]
  simp [ReadyQueue.ofPolicies, ReadyQueue.policies, Policy.mem_all]

theorem mem_policies_iff (h : k.Configured) {policy : Policy} :
    policy ∈ k.ready.policies ↔ policy ∈ k.config.policies :=
  ReadyQueue.hasLevel_iff.symm.trans h.hasLevel_iff

theorem ordered (h : k.Configured) : k.ready.Ordered := by
  unfold ReadyQueue.Ordered
  rw [h.policies]
  exact ReadyQueue.ordered_ofPolicies k.config.policies

theorem policies_ne_nil (h : k.Configured) : k.ready.policies ≠ [] := by
  obtain ⟨policy, member⟩ := List.exists_mem_of_ne_nil _ h.sound.some_policy
  exact List.ne_nil_of_mem (h.mem_policies_iff.mpr member)

/-- The first level is that of the most important policy. -/
theorem foremost (h : k.Configured) : k.config.Foremost k.highestPolicy := by
  have ordered := h.ordered
  unfold Config.Foremost highestPolicy
  simp only [← h.mem_policies_iff]
  unfold ReadyQueue.Ordered at ordered
  cases levels : k.ready.policies with
  | nil => exact absurd levels h.policies_ne_nil
  | cons first rest =>
    rw [levels, List.pairwise_cons] at ordered
    refine ⟨List.mem_cons_self, fun other member => ?_⟩
    rcases List.mem_cons.mp member with rfl | later
    · exact Policy.Outranks.irrefl other
    · exact (ordered.1 other later).asymm

/-- The last level is that of the least important policy. -/
theorem hindmost (h : k.Configured) : k.config.Hindmost k.lowestPolicy := by
  have ordered := h.ordered
  have served := h.policies_ne_nil
  have last : k.lowestPolicy = k.ready.policies.getLast served := by
    rw [lowestPolicy, List.getLast?_eq_some_getLast served, Option.getD_some]
  unfold Config.Hindmost
  simp only [← h.mem_policies_iff, last]
  refine ⟨List.getLast_mem served, fun other member => ?_⟩
  unfold ReadyQueue.Ordered at ordered
  rw [← List.dropLast_append_getLast served] at ordered member
  rcases List.mem_append.mp member with earlier | same
  · exact ((List.pairwise_append.mp ordered).2.2 other earlier _ (List.mem_singleton_self _)).asymm
  · rw [List.mem_singleton.mp same]
    exact Policy.Outranks.irrefl _

end Configured

/-- A handle is left exactly while fewer than the configured number were handed out. If one is left
there is room for its record, unless the host refuses it. -/
theorem Configured.result_reserveThread {k : Kernel} (h : k.Configured) :
    if k.config.maxThreads ≤ k.threads.mark then k.reserveThread.1 = .error .tooManyThreads
    else (k.reserveThread.1 = .error .outOfMemory ∧ ¬ k.heap.NeverFails) ∨
      ∃ id, k.reserveThread.1 = .ok id := by
  have reserves := k.threads.reserves k.heap
  unfold reserveThread
  rcases outcome : k.threads.reserve k.heap with ⟨reserved, threads, heap⟩
  rw [outcome] at reserves
  cases reserves with
  | full exhausted =>
    rw [if_pos (h.handles ▸ Nat.le_of_lt_succ exhausted)]
  | denied room _ answer =>
    rw [if_neg (h.handles ▸ Nat.not_le_of_lt room)]
    exact .inl ⟨rfl, Heap.not_neverFails_of_request (congrArg Prod.fst answer)⟩
  | reserved room =>
    rw [if_neg (h.handles ▸ Nat.not_le_of_lt room)]
    exact .inr ⟨_, rfl⟩

/-- A stack is left exactly while fewer than the configured number are in use, unless the host
refuses a block for it. -/
theorem StacksAccounted.result_takeStack {k : Kernel} {refusals : Nat}
    (h : k.StacksAccounted refusals)
    (sizeClass : SizeClass) :
    if k.config.maxKernelStacks.toNat ≤ k.attached.length then
      (k.takeStack sizeClass).1 = .error .outOfMemory
    else ((k.takeStack sizeClass).1 = .error .outOfMemory ∧ ¬ k.heap.NeverFails) ∨
      ∃ stack, (k.takeStack sizeClass).1 = .ok stack := by
  have full : k.pool.limit ≤ k.pool.inUse ↔
      k.config.maxKernelStacks.toNat ≤ k.attached.length := by
    rw [UInt64.le_iff_toNat_le, h.limit, h.inUse]
  have allocates := k.pool.allocates k.heap sizeClass
  unfold takeStack
  rcases outcome : k.pool.allocate k.heap sizeClass with ⟨granted, pool, heap⟩
  rw [outcome] at allocates
  cases allocates with
  | refuses exhausted => rw [if_pos (full.mp exhausted)]
  | denied room _ answer =>
    rw [if_neg (mt full.mpr (UInt64.not_le.mpr room))]
    exact .inl ⟨rfl, Heap.not_neverFails_of_request (congrArg Prod.fst answer)⟩
  | reuses room | creates room =>
    rw [if_neg (mt full.mpr (UInt64.not_le.mpr room))]
    exact .inr ⟨_, rfl⟩

/-- Why there is no room for a thread with a stack of a class. -/
def roomRefusal? (k : Kernel) (sizeClass : SizeClass) : Option SchedulerError :=
  (objection? .spawn k.reserveThread.1).or
    (objection? (.spawn ∘ .ofMemory) (k.reserveThread.2.takeStack sizeClass).1)

/-- There is room for a thread while fewer than the configured numbers of handles were handed out
and of stacks are in use, unless the host refuses it. -/
theorem Configured.roomRefusal?_cases {k : Kernel} {refusals : Nat} (h : k.Configured)
    (stacksAccounted : k.StacksAccounted refusals) (sizeClass : SizeClass) :
    if k.config.maxThreads ≤ k.threads.mark then
      k.roomRefusal? sizeClass = some (.spawn .tooManyThreads)
    else if k.config.maxKernelStacks.toNat ≤ k.attached.length then
      k.roomRefusal? sizeClass = some (.spawn .outOfMemory)
    else k.roomRefusal? sizeClass = none ∨
      k.roomRefusal? sizeClass = some (.spawn .outOfMemory) ∧ ¬ k.heap.NeverFails := by
  have handle := h.result_reserveThread
  unfold Kernel.roomRefusal?
  rcases outcome : k.reserveThread with ⟨reserved, roomy⟩
  rw [outcome] at handle
  by_cases exhausted : k.config.maxThreads ≤ k.threads.mark
  · rw [if_pos exhausted] at handle ⊢
    rw [handle]
    rfl
  · rw [if_neg exhausted] at handle ⊢
    rcases handle with ⟨rfl, denied⟩ | ⟨id, rfl⟩
    · split
      · rfl
      · exact .inr ⟨rfl, denied⟩
    · obtain ⟨capacity, heap, _, _, asked, rfl⟩ := of_reserveThread outcome
      have stack := (stacksAccounted.withRoom k.timer asked capacity).result_takeStack sizeClass
      have limit : ({ k with timer := k.timer }.withRoom heap capacity).config = k.config := rfl
      have same : ({ k with timer := k.timer }.withRoom heap capacity).attached = k.attached := rfl
      rw [limit, same] at stack
      by_cases used : k.config.maxKernelStacks.toNat ≤ k.attached.length
      · rw [if_pos used] at stack ⊢
        exact congrArg (objection? _) stack
      · rw [if_neg used] at stack ⊢
        rcases stack with ⟨refused, denied⟩ | ⟨stack, granted⟩
        · exact .inr ⟨congrArg (objection? _) refused, mt asked.neverFails denied⟩
        · exact .inl (congrArg (objection? _) granted)

theorem configured_of_ofConfig {config : Config} {timer : PeriodicTimer} {heap : Heap}
    {k : Kernel} (made : ofConfig config timer heap = .ok k) : k.Configured := by
  have sound := exists_ofConfig_iff.mp ⟨k, made⟩
  obtain ⟨_, rfl⟩ := eq_of_ofConfig made
  exact ⟨sound, rfl, rfl⟩

/-- Every kernel that a run leads to works as it was configured to. -/
theorem Reachable.configured {k : Kernel} (h : k.Reachable) : k.Configured := by
  induction h with
  | new made => exact configured_of_ofConfig made
  | @step m reached cpu operation ih =>
    have config : (m.execute cpu operation).machine.kernel.config = m.kernel.config :=
      m.config_run [⟨cpu, operation⟩]
    have threads : (m.execute cpu operation).machine.kernel.threads.limit =
      m.kernel.threads.limit :=
      (Machine.threads_continue_run reached [⟨cpu, operation⟩]).limit
    obtain ⟨course, transition, same⟩ := m.transition_of_execute cpu operation
    have policies : (m.execute cpu operation).machine.kernel.ready.policies =
        m.kernel.ready.policies := by
      rw [same]
      exact transition.policies reached.regular
    constructor
    · rw [config]
      exact ih.sound
    · rw [threads, config]
      exact ih.handles
    · rw [policies, config]
      exact ih.policies

end Kernel

end ThreadScheduler
