/-
Module: ThreadScheduler.Proofs.Run
Purpose: Runs of a kernel, and the kernels that runs lead to. The invariant of the scheduler holds
  of all of them.
Main exports: Request, Machine.run, Kernel.Reachable, Kernel.Reachable.regular
-/
import ThreadScheduler.Proofs.Execution
import ThreadScheduler.Proofs.Preservation

namespace ThreadScheduler

/-- An operation that a processor is to execute. -/
structure Request where
  cpu : Nat
  operation : Operation
  deriving DecidableEq, Repr

/-- Executes several operations one after the other. -/
def Machine.run (m : Machine) (requests : List Request) : Machine :=
  requests.foldl (fun m request => (m.execute request.cpu request.operation).machine) m

namespace Kernel

/-- The kernels that a sequence of operations can lead to, whatever processors execute them. -/
inductive Reachable : Kernel → Prop where
  | new {config : Config} {timer : PeriodicTimer} {heap : Heap} {k : Kernel}
      (made : ofConfig config timer heap = .ok k) : Reachable k
  | step {m : Machine} (reached : Reachable m.kernel) (cpu : Nat) (operation : Operation) :
      Reachable (m.execute cpu operation).machine.kernel

/-- A whole run leads from reachable kernels to reachable ones. -/
theorem Reachable.run {m : Machine} (h : Reachable m.kernel) (requests : List Request) :
    Reachable (m.run requests).kernel := by
  induction requests generalizing m with
  | nil => exact h
  | cons request rest ih => exact ih (h.step request.cpu request.operation)

/-- A kernel is made for a sound configuration only, and it is empty. -/
theorem eq_of_ofConfig {config : Config} {timer : PeriodicTimer} {heap : Heap}
    {k : Kernel} (made : ofConfig config timer heap = .ok k) :
    config.validate = .ok () ∧ k =
      { config
        timer
        threads := { limit := config.maxThreads }
        ready := .ofPolicies config.policies
        mutexes := { limit := config.maxMutexes }
        cpus := List.replicate config.cpus {}
        pool := { limit := config.maxKernelStacks }
        heap } := by
  unfold ofConfig at made
  cases valid : config.validate with
  | error fault => rw [valid] at made; cases made
  | ok _ =>
    rw [valid] at made
    exact ⟨rfl, (Except.ok.inj made).symm⟩

private theorem policies_ne_nil {policies : List Policy} (some_policy : policies.isEmpty = false) :
    (ReadyQueue.ofPolicies policies).policies ≠ [] := by
  obtain ⟨policy, member⟩ := List.isEmpty_eq_false_iff_exists_mem.mp some_policy
  apply List.ne_nil_of_mem (a := policy)
  simpa [ReadyQueue.ofPolicies, ReadyQueue.policies] using ⟨policy.mem_all, member⟩

/-- A new kernel has no threads, and at least one processor and one policy. -/
theorem regular_of_ofConfig {config : Config} {timer : PeriodicTimer} {heap : Heap}
    {k : Kernel} (made : ofConfig config timer heap = .ok k) : k.Regular := by
  obtain ⟨valid, rfl⟩ := eq_of_ofConfig made
  have sound : config.cpus ≠ 0 ∧ config.policies.isEmpty = false := by
    unfold Config.validate Config.fault? at valid
    grind
  have blank : Blank
      { config
        timer
        threads := { limit := config.maxThreads }
        ready := .ofPolicies config.policies
        mutexes := { limit := config.maxMutexes }
        cpus := List.replicate config.cpus {}
        pool := { limit := config.maxKernelStacks }
        heap } := by
    refine ⟨rfl, fun c => ?_, fun found => ?_⟩
    · cases c with
      | level policy => exact ReadyQueue.threadsAt_ofPolicies _ policy
      | _ => rfl
    · exact List.eq_of_mem_replicate (List.mem_of_getElem? found)
  exact ⟨blank.placement nofun (ReadyQueue.ordered_ofPolicies _), nofun, List.length_replicate,
    Nat.pos_of_ne_zero sound.1, policies_ne_nil sound.2, nofun, fun _ => blank⟩

/-- The invariant of the scheduler holds of every kernel that a run leads to. -/
theorem Reachable.regular {k : Kernel} (h : k.Reachable) : k.Regular := by
  induction h with
  | new made => exact regular_of_ofConfig made
  | @step m _ cpu operation ih =>
    obtain ⟨course, transition, same⟩ := m.transition_of_execute cpu operation
    rw [same]
    exact transition.regular_kernel ih

end Kernel

/-- A machine with two processors on which scheduling has not begun. -/
def twoProcessors : Machine where
  kernel := (Kernel.ofConfig { cpus := 2 } .pit {}).toOption.getD default

theorem twoProcessors_made : Kernel.ofConfig { cpus := 2 } .pit {} = .ok twoProcessors.kernel := rfl

theorem reachable_twoProcessors : twoProcessors.kernel.Reachable := .new twoProcessors_made

/-- A run that leads to a thread in every sort of container. The bootstrap thread 1 owns a mutex for
which threads 4 and 5 wait, thread 6 sleeps, thread 7 was terminated while it ran on the second
processor, and thread 8 is ready. -/
def contention : List Request :=
  [⟨0, .init 16 none⟩,
    ⟨0, .spawn { entry := 32, name := "first" }⟩,
    ⟨0, .spawn { entry := 32, name := "second" }⟩,
    ⟨0, .spawn { entry := 32, name := "sleeper" }⟩,
    ⟨0, .createMutex "shared"⟩, ⟨0, .lock (.ofIndex 0)⟩,
    ⟨1, .yield⟩, ⟨1, .lock (.ofIndex 0)⟩, ⟨1, .lock (.ofIndex 0)⟩,
    ⟨1, .sleepFor ⟨1000000000⟩⟩,
    ⟨0, .spawn { entry := 32, name := "victim" }⟩,
    ⟨0, .spawn { entry := 32, name := "last" }⟩,
    ⟨1, .yield⟩, ⟨0, .terminate (.ofIndex 6)⟩]

theorem reachable_contention : (twoProcessors.run contention).kernel.Reachable :=
  reachable_twoProcessors.run contention

end ThreadScheduler
