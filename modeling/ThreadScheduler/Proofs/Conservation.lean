/-
Module: ThreadScheduler.Proofs.Conservation
Purpose: No kernel stack is lost and none is given out twice. Every thread but the first has the one
  stack that was granted when it was created, and the counters of the pool tell how many stacks are
  attached, free and were given back.
Main exports: Moment.Supplies, Moment.GivesBack, Machine.ConservesStacks, Machine.conservesStacks
-/
import Mathlib.Algebra.Ring.Nat
import ThreadScheduler.Proofs.Dormancy
import ThreadScheduler.Proofs.Reaping
import ThreadScheduler.Proofs.StackAccounts

namespace ThreadScheduler

variable {x : Moment} {course : Course} {k after admitted : Kernel} {t bootstrap : ThreadId}
  {thread : Thread} {entry : Nat}

/-- How a thread got its record, and the stack that it has from the pool since. -/
inductive Moment.Supplies (x : Moment) (t : ThreadId) : Option Stack → Prop where
  /-- The code that ran before scheduling began stays on its own stack. -/
  | bootstrap (begins : x.boots = true) (first : x.result = .ok (.threadId t)) : Supplies x t none
  /-- The idle threads have stacks of the configured class. -/
  | idle {stack : Stack} (begins : x.boots = true) (idle : x.after.isIdle t = true)
      (usual : stack.sizeClass = x.before.config.kernelStack) : Supplies x t (some stack)
  /-- A thread that is created has a stack of the class that was asked for, and of the configured
  class if none was. -/
  | spawned {spec : ThreadSpec} {stack : Stack} (asked : x.operation = .spawn spec)
      (created : x.result = .ok (.threadId t))
      (wanted : spec.stack.elim (some x.before.config.kernelStack) StackRequest.resolve =
        some stack.sizeClass) : Supplies x t (some stack)

/-- The stacks of the threads whose records are gone after an operation. -/
def Moment.released (x : Moment) : List Stack :=
  (x.before.threads.ids.filter (! x.after.threads.contains ·)).filterMap x.before.stackOf?

/-- The stacks that go back to the pool in an operation. -/
inductive Moment.GivesBack (x : Moment) : List Stack → Prop where
  /-- Those of the threads that are reaped. -/
  | reaped (asked : x.operation = .reap) : GivesBack x x.released
  /-- Those of the idle threads that were created before scheduling was given up. -/
  | discarded {entry : Nat} {bootStack : Option StackBounds} {partway : Kernel}
      (asked : x.operation = .init entry bootStack)
      (abandons : x.before.Abandons entry bootStack partway) : GivesBack x partway.attached
  | nothing (keeps : x.operation ≠ .reap)
      (completes : ∀ entry bootStack partway, x.operation = .init entry bootStack →
        ¬ x.before.Abandons entry bootStack partway) : GivesBack x []

/-- The number of free stacks, list by list. -/
def StackPool.freeCount (pool : StackPool) : Nat :=
  (SizeClass.all.map fun sizeClass => (pool.freeStacks sizeClass).length).sum

theorem StackPool.freeCount_eq (pool : StackPool) : pool.freeCount = pool.free.length :=
  List.length_flatMap.symm

/-! ### Where stacks come from -/

/-- A description that is accepted names the class of its stack, or leaves it open. -/
theorem ThreadSpec.resolve_of_validate {spec : ThreadSpec} (valid : spec.validate = .ok ())
    (usual : SizeClass) :
    spec.stack.elim (some usual) StackRequest.resolve = some (spec.stackClass.getD usual) := by
  unfold stackClass
  cases asked : spec.stack with
  | none => rfl
  | some request =>
    cases request with
    | sizeClass c => rfl
    | atLeast bytes =>
      unfold validate at valid
      rw [asked] at valid
      cases fits : SizeClass.forSize bytes with
      | none =>
        simp only [fits, Option.isSome_none, Bool.false_eq_true, if_false] at valid
        split at valid <;> cases valid
      | some c => simp [StackRequest.resolve, fits]

namespace Kernel

/-- A thread that is registered has a stack of the class that its description says. -/
theorem Admits.supplied {spec : ThreadSpec} {id : ThreadId} (admits : k.Admits spec id admitted)
    (sorted : k.pool.Sorted) (found : admitted.threads.get? t = some thread) :
    k.threads.get? t = some thread ∨
      t = id ∧ ∃ stack, thread.pooledStack = some stack ∧
        spec.stack.elim (some k.config.kernelStack) StackRequest.resolve =
          some stack.sizeClass := by
  obtain ⟨next, _⟩ := admits.next
  obtain ⟨capacity, asked, stack, pool, heap, _, granted, rfl⟩ := admits.granted
  rw [ThreadTable.get?_push_withCapacity] at found
  split at found
  · rename_i same
    obtain rfl := Option.some.inj found
    refine .inr ⟨same.trans next.symm, stack, rfl, ?_⟩
    have sizeClass := ((StackPool.grant_of_allocate granted).sorted sorted).2
    rw [sizeClass]
    exact ThreadSpec.resolve_of_validate admits.valid _
  · exact .inl found

/-- The threads that are created when processors are adopted are idle threads. -/
theorem AdoptsCpus.supplied {cpus : List Nat} {refusals : Nat}
    (adopts : AdoptsCpus bootstrap entry cpus k after)
    (stacksAccounted : k.StacksAccounted refusals) (once : cpus.Nodup)
    (inside : ∀ cpu ∈ cpus, cpu < k.cpus.length)
    (found : after.threads.get? t = some thread) :
    (∃ old, k.threads.get? t = some old ∧ old.pooledStack = thread.pooledStack) ∨
      after.isIdle t = true ∧ ∃ stack, thread.pooledStack = some stack ∧
        stack.sizeClass = k.config.kernelStack := by
  induction adopts with
  | nil k => exact .inl ⟨thread, found, rfl⟩
  | @cons k admitted after idle cpu rest head tail ih =>
    obtain ⟨fresh, distinct⟩ := List.nodup_cons.mp once
    obtain ⟨here, others⟩ := List.forall_mem_cons.mp inside
    obtain ⟨config, cpus⟩ : admitted.config = k.config ∧ admitted.cpus = k.cpus := by
      obtain ⟨_, _, _, _, _, _, _, rfl⟩ := head.registers
      exact ⟨rfl, rfl⟩
    have length : (admitted.withIdle bootstrap idle cpu).cpus.length = k.cpus.length := by
      rw [← cpus]
      exact List.length_modify _ _ _
    have books := (stacksAccounted.of_admits head).of_retains
      (Keeps.of_withIdle admitted bootstrap idle cpu).retains
    have later := ih books distinct
      (fun other member => by rw [length]; exact others other member) found
    rcases later with ⟨middle, met, same⟩ | ⟨owned, stack, pooled, usual⟩
    · obtain ⟨old, present, as_before⟩ :=
        (Keeps.of_withIdle admitted bootstrap idle cpu).retains.exists_record met
      rcases head.supplied stacksAccounted.sorted present with before | ⟨rfl, stack, pooled, wanted⟩
      · exact .inl ⟨old, before, as_before.trans same⟩
      · refine .inr ⟨?_, stack, ?_, (Option.some.inj wanted).symm⟩
        · -- The processors that are adopted later leave this one alone.
          obtain ⟨slot, there⟩ : ∃ slot, k.cpus[cpu]? = some slot :=
            ⟨_, List.getElem?_eq_getElem here⟩
          have seated : (admitted.withIdle bootstrap t cpu).cpus[cpu]? = some
              { slot with
                idle := some t
                slice := admitted.config.quantum
                running := some (if cpu = 0 then bootstrap else t) } := by
            simp [withIdle, cpus, there]
          obtain ⟨last, reached, _, kept⟩ := tail.slot seated
          refine isIdle_iff.mpr ⟨cpu, ?_⟩
          rw [idle?, reached, kept fresh]
          rfl
        · exact same.symm.trans (as_before.symm.trans pooled)
    · exact .inr ⟨owned, stack, pooled, usual.trans (congrArg Config.kernelStack config)⟩

end Kernel

/-- A thread that has a record had it before, with the same stack, or gets it with its stack. -/
theorem Moment.Takes.supplied {refusals : Nat} (h : x.Takes course)
    (stacksAccounted : x.before.StacksAccounted refusals)
    (found : x.after.threads.get? t = some thread) :
    (∃ old, x.before.threads.get? t = some old ∧ old.pooledStack = thread.pooledStack) ∨
      x.Supplies t thread.pooledStack := by
  have regular := h.regular
  have changes := h.transition.retains_or_recordsChange
  rw [← h.after] at changes
  rcases changes with retains | recordsChange
  · exact .inl (retains.exists_record found)
  obtain ⟨k, here, operation, result, after⟩ := x
  dsimp only at found recordsChange regular stacksAccounted ⊢
  cases recordsChange with
  | @booted entry bootStack timer bootstrap after heap capacity fresh reserved adopted =>
    have begins : Moment.boots ⟨k, here, .init entry bootStack, .ok (.threadId bootstrap),
        { after with initialized := true }⟩ = true := rfl
    have inside : ∀ cpu ∈ List.range k.config.cpus, cpu < k.cpus.length := by
      intro cpu member
      rw [regular.orderly.length]
      exact List.mem_range.mp member
    -- The bootstrap thread has no stack of the pool, so the accounts hold before the others come.
    have books := stacksAccounted.withRoom timer (ThreadTable.spends_of_reserve reserved) capacity
    rcases adopted.supplied (books.of_withBootstrap _ _) List.nodup_range inside found with
      ⟨old, present, same⟩ | ⟨owned, stack, pooled, usual⟩
    · obtain ⟨next, _⟩ := ThreadTable.get?_of_reserve reserved
      replace present := (k.threads.get?_push_withCapacity capacity _ t).symm.trans present
      split at present
      · rename_i first
        obtain rfl := Option.some.inj present
        obtain rfl := first.trans next.symm
        rw [← same]
        exact .inr (.bootstrap begins rfl)
      · exact .inl ⟨old, present, same⟩
    · rw [pooled]
      exact .inr (.idle begins owned usual)
  | discarded _ fresh =>
    rw [(regular.orderly.blank fresh).mark] at found
    cases found
  | spawned admits =>
    rw [Kernel.threads_enqueueReady] at found
    rcases admits.supplied stacksAccounted.sorted found with before | ⟨rfl, stack, pooled, wanted⟩
    · exact .inl ⟨thread, before, rfl⟩
    · rw [pooled]
      exact .inr (.spawned rfl rfl wanted)
  | reaped =>
    have listed := Kernel.KeepsGone.get?_of_reapAll _ found
    exact .inl ⟨thread, listed, rfl⟩

/-- Every thread that has a record got it, and its stack, in the run. -/
theorem Machine.supplied_run {m : Machine} (reached : m.kernel.Reachable)
    {requests : List Request} (found : (m.run requests).kernel.threads.get? t = some thread) :
    (∃ old, m.kernel.threads.get? t = some old ∧ old.pooledStack = thread.pooledStack) ∨
      ∃ x ∈ m.history requests, x.Supplies t thread.pooledStack := by
  induction requests generalizing m with
  | nil => exact .inl ⟨thread, found, rfl⟩
  | cons request rest ih =>
    rcases ih (reached.step request.cpu request.operation) found with
      ⟨middle, met, same⟩ | ⟨x, member, supplies⟩
    · obtain ⟨course, takes⟩ := exists_course reached request
      obtain ⟨_, stacksAccounted⟩ := reached.stacksAccounted
      rcases takes.supplied stacksAccounted met with ⟨old, present, before⟩ | supplies
      · exact .inl ⟨old, present, before.trans same⟩
      · rw [same] at supplies
        exact .inr ⟨_, List.mem_cons_self, supplies⟩
    · exact .inr ⟨x, List.mem_cons_of_mem _ member, supplies⟩

/-! ### Where stacks go -/

namespace Kernel

theorem deallocated_discarded (k : Kernel) :
    (k.discarded 0).pool.deallocated = k.pool.deallocated + .ofNat k.attached.length :=
  have ⟨_, back⟩ := k.pool.takesBack k.heap k.attached
  back.deallocated

/-- Creating threads gives no stack back. -/
theorem AdoptsCpus.deallocated {cpus : List Nat}
    (adopts : AdoptsCpus bootstrap entry cpus k after) :
    after.pool.deallocated = k.pool.deallocated := by
  obtain ⟨_, _, registersAll⟩ := adopts.registersAll (.refl k)
  exact registersAll.pool.deallocated

/-- As many stacks go back to the pool as threads with a stack lose their records. -/
theorem Reaps.deallocated {gone : List ThreadId} (reaps : x.before.Reaps gone x.after)
    (regular : x.before.Regular) :
    x.after.pool.deallocated = x.before.pool.deallocated + .ofNat x.released.length := by
  have handles : ∀ id thread, x.before.threads.get? id = some thread → thread.id = id :=
    fun _ _ found => regular.placement.records.handle found
  have lost : (x.before.threads.ids.filter (! x.after.threads.contains ·)).Perm gone := by
    have listed : x.before.threads.ids.Nodup := SlotTable.nodup_names handles
    refine (List.perm_ext_iff_of_nodup (listed.filter _) reaps.once).mpr fun id => ?_
    rw [List.mem_filter, ThreadTable.mem_ids_iff handles, ThreadTable.contains, reaps.records]
    constructor
    · rintro ⟨known, missing⟩
      refine Decidable.byContradiction fun kept => ?_
      rw [if_neg kept, known] at missing
      cases missing
    · intro member
      obtain ⟨record, found, _⟩ := Option.map_eq_some_iff.mp ((reaps.mem_iff id).mp member).ended
      rw [if_pos member, found]
      exact ⟨rfl, rfl⟩
  obtain ⟨_, back, _⟩ := reaps.back
  rw [back.deallocated, Moment.released, (lost.filterMap _).length_eq]

end Kernel

namespace Machine

variable {m : Machine}

/-- Scheduling begins, is not even tried, or is given up. -/
theorem begins_or_abandons (m : Machine) (cpu entry : Nat) (bootStack : Option StackBounds) :
    (∀ partway, ¬ m.kernel.Abandons entry bootStack partway) ∧
        ((m.execute cpu (.init entry bootStack)).machine.kernel.pool = m.kernel.pool ∨
          ∃ reply, (m.execute cpu (.init entry bootStack)).result = .ok reply) ∨
      ∃ partway, m.kernel.Abandons entry bootStack partway ∧
        (m.execute cpu (.init entry bootStack)).machine.kernel =
          partway.discarded m.kernel.threads.mark := by
  refine execute_of_ensures (fun result after =>
    (∀ partway, ¬ m.kernel.Abandons entry bootStack partway) ∧
        (after.kernel.pool = m.kernel.pool ∨ ∃ reply, result = .ok reply) ∨
      ∃ partway, m.kernel.Abandons entry bootStack partway ∧
        after.kernel = partway.discarded m.kernel.threads.mark) ?_
  apply (Call.ensures_map _ _).mpr
  apply (Call.ensures_withdrawal entry bootStack { m with cpu, trace := [] }).mono
  · intro id after begins
    exact .inl ⟨begins, .inr ⟨_, rfl⟩⟩
  · rintro error after (⟨never, same⟩ | given_up)
    · exact .inl ⟨never, .inl same.1⟩
    · exact .inr given_up

/-- The idle threads that are discarded give their stacks back. -/
theorem givesBack_init (reached : m.kernel.Reachable) (cpu entry : Nat)
    (bootStack : Option StackBounds) :
    ∃ returned, (m.moment ⟨cpu, .init entry bootStack⟩).GivesBack returned ∧
      (m.moment ⟨cpu, .init entry bootStack⟩).after.pool.deallocated =
        m.kernel.pool.deallocated + .ofNat returned.length := by
  rcases m.begins_or_abandons cpu entry bootStack with
    ⟨never, outcome⟩ | ⟨partway, abandons, given_up⟩
  · have nothing : (m.moment ⟨cpu, .init entry bootStack⟩).GivesBack [] := by
      refine .nothing nofun fun entry' bootStack' partway same => ?_
      cases same
      exact never partway
    refine ⟨[], nothing, Eq.trans ?_ (UInt64.add_zero _).symm⟩
    rcases outcome with same | ⟨reply, granted⟩
    · exact congrArg StackPool.deallocated same
    · obtain ⟨course, takes⟩ := exists_course reached ⟨cpu, .init entry bootStack⟩
      have changes := takes.transition.retains_or_recordsChange
      rw [← takes.after] at changes
      rcases changes with retains | recordsChange
      · exact congrArg StackPool.deallocated retains.pool
      · have result : (m.moment ⟨cpu, .init entry bootStack⟩).result = .ok reply := granted
        rw [result] at recordsChange
        generalize (m.moment ⟨cpu, .init entry bootStack⟩).after = after at recordsChange
        cases recordsChange with
        | booted _ _ adopted => exact adopted.deallocated
  · refine ⟨partway.attached, .discarded rfl abandons, ?_⟩
    obtain ⟨fresh, _, _, ⟨_, _, adopted, _, asked⟩⟩ := abandons
    have discarded := partway.deallocated_discarded
    obtain ⟨_, _, _, same⟩ := asked
    have none_yet : partway.pool.deallocated = _ :=
      (congrArg (·.pool.deallocated) same).trans adopted.deallocated
    rw [none_yet, ← (reached.regular.orderly.blank fresh).mark, ← given_up] at discarded
    exact discarded

/-- The stacks that an operation gives back are counted. -/
theorem givesBack_moment (reached : m.kernel.Reachable) (request : Request) :
    ∃ returned, (m.moment request).GivesBack returned ∧
      (m.moment request).after.pool.deallocated =
        m.kernel.pool.deallocated + .ofNat returned.length := by
  obtain ⟨cpu, operation⟩ := request
  obtain ⟨course, takes⟩ := exists_course reached ⟨cpu, operation⟩
  have changes := takes.transition.retains_or_recordsChange
  rw [← takes.after] at changes
  have kept (same : (m.moment ⟨cpu, operation⟩).after.pool.deallocated =
      m.kernel.pool.deallocated) :
      (m.moment ⟨cpu, operation⟩).after.pool.deallocated =
        m.kernel.pool.deallocated + .ofNat ([] : List Stack).length :=
    same.trans (UInt64.add_zero _).symm
  have nothing (keeps : operation ≠ .reap)
      (other : ∀ entry bootStack, operation ≠ .init entry bootStack) :
      (m.moment ⟨cpu, operation⟩).GivesBack [] :=
    .nothing keeps fun entry bootStack _ same => absurd same (other entry bootStack)
  cases operation with
  | init entry bootStack => exact givesBack_init reached cpu entry bootStack
  | reap =>
    have reaps : (m.moment ⟨cpu, .reap⟩).before.Reaps m.kernel.unneeded
        (m.moment ⟨cpu, .reap⟩).after := by
      change m.kernel.Reaps m.kernel.unneeded (m.execute cpu .reap).machine.kernel
      rw [(execute_reap reached.regular cpu).2]
      exact reached.regular.reaps
    exact ⟨_, .reaped rfl, reaps.deallocated reached.regular⟩
  | spawn spec =>
    refine ⟨[], nothing nofun nofun, kept ?_⟩
    rcases changes with retains | recordsChange
    · exact congrArg StackPool.deallocated retains.pool
    · generalize (m.moment ⟨cpu, .spawn spec⟩).after = after at recordsChange
      generalize (m.moment ⟨cpu, .spawn spec⟩).result = result at recordsChange
      cases recordsChange with
      | spawned admits =>
        obtain ⟨_, _, _, _, _, _, granted, rfl⟩ := admits.granted
        obtain ⟨_, _, queued⟩ := Kernel.enqueueReady_frame _ _ _
        rw [queued]
        exact (StackPool.grant_of_allocate granted).deallocated
  -- No other operation takes a stack or gives one back.
  | _ =>
    refine ⟨[], nothing nofun nofun, kept ?_⟩
    rcases changes with retains | recordsChange
    · exact congrArg StackPool.deallocated retains.pool
    · cases recordsChange

/-- The stacks that the operations of a run give back are counted. -/
theorem givesBack_run (reached : m.kernel.Reachable) (requests : List Request) :
    ∃ given, List.Forall₂ Moment.GivesBack (m.history requests) given ∧
      (m.run requests).kernel.pool.deallocated =
        m.kernel.pool.deallocated + .ofNat given.flatten.length := by
  induction requests generalizing m with
  | nil => exact ⟨[], .nil, (UInt64.add_zero _).symm⟩
  | cons request rest ih =>
    obtain ⟨returned, gives, counted⟩ := givesBack_moment reached request
    obtain ⟨given, later, total⟩ := ih (reached.step request.cpu request.operation)
    refine ⟨returned :: given, .cons gives later, total.trans ?_⟩
    rw [show (m.execute request.cpu request.operation).machine.kernel.pool.deallocated = _
      from counted, List.flatten_cons, List.length_append, UInt64.ofNat_add, UInt64.add_assoc]

/-- What holds of the kernel stacks after a run. -/
structure ConservesStacks (m : Machine) (requests : List Request) : Prop where
  /-- Every thread has the stack, if any, that it got with its record. -/
  supplied : ∀ t thread, (m.run requests).kernel.threads.get? t = some thread →
    ∃ x ∈ m.history requests, x.Supplies t thread.pooledStack
  /-- No two stacks that are attached or free lie in the same block. -/
  apart : (((m.run requests).kernel.attached ++ (m.run requests).kernel.pool.free).map
    (·.block)).Nodup
  /-- No address lies in two of them. -/
  disjoint : ((m.run requests).kernel.attached ++ (m.run requests).kernel.pool.free).Pairwise
    fun s t => ∀ address, s.bounds.contains address = true → t.bounds.contains address = false
  /-- The counter of the stacks in use is exact. It never went below zero. -/
  inUse : (m.run requests).kernel.pool.inUse.toNat = (m.run requests).kernel.attached.length
  limited : (m.run requests).kernel.pool.inUse ≤ m.kernel.config.maxKernelStacks
  /-- Every stack that was made is in use or free, or was freed since the host gave no room to keep
  it. -/
  allocated : ∃ freed, (m.run requests).kernel.pool.allocated =
      (m.run requests).kernel.pool.inUse + .ofNat (m.run requests).kernel.pool.freeCount +
        .ofNat freed ∧
    (m.kernel.heap.NeverFails → freed = 0)
  /-- The stacks given back are those of the records that were reaped and those of the records that
  were discarded when scheduling did not begin. -/
  deallocated : ∃ given, List.Forall₂ Moment.GivesBack (m.history requests) given ∧
    (m.run requests).kernel.pool.deallocated = .ofNat given.flatten.length

/-- Stacks are conserved in every run of a new kernel. -/
theorem conservesStacks {config : Config} {timer : PeriodicTimer} {heap : Heap}
    (made : Kernel.ofConfig config timer heap = .ok m.kernel) (requests : List Request) :
    m.ConservesStacks requests := by
  have reached : m.kernel.Reachable := .new made
  have stacksAccounted := (Kernel.stacksAccounted_of_ofConfig made).run reached requests
  obtain ⟨lost, balanced, refused⟩ := stacksAccounted.balanced
  have new := (Kernel.eq_of_ofConfig made).2
  constructor
  case supplied =>
    intro t thread found
    rcases supplied_run reached found with ⟨old, present, _⟩ | supplies
    · rw [new] at present
      cases present
    · exact supplies
  case apart => exact balanced.nodup
  case disjoint =>
    refine (List.pairwise_map.mp balanced.nodup).imp fun {s t} other address inS => ?_
    by_contra inT
    exact other (Stack.block_eq_of_contains inS (Bool.not_eq_false _ ▸ inT))
  case inUse => exact balanced.inUse
  case limited =>
    rw [← m.config_run requests, UInt64.le_iff_toNat_le, balanced.inUse]
    exact stacksAccounted.limited
  case allocated =>
    have exact_use : (m.run requests).kernel.pool.inUse =
        .ofNat (m.run requests).kernel.attached.length := by
      rw [← balanced.inUse, UInt64.ofNat_toNat]
    refine ⟨lost.length, ?_, fun never => ?_⟩
    · rw [StackPool.freeCount_eq, exact_use, balanced.makes.counted, List.length_append,
        List.length_append, UInt64.ofNat_add, UInt64.ofNat_add, UInt64.add_assoc]
    · rw [never.refusals_eq] at refused
      omega
  case deallocated =>
    obtain ⟨given, gives, counted⟩ := givesBack_run reached requests
    have none_yet : m.kernel.pool.deallocated = 0 := by rw [new]
    rw [none_yet, UInt64.zero_add] at counted
    exact ⟨given, gives, counted⟩

end Machine

/-- A run in which the stack of a thread is given back, and a thread is created that does not fit
it. -/
def turnover : List Request :=
  [⟨0, .init 16 none⟩,
    ⟨0, .spawn { entry := 32, name := "first", stack := some (.sizeClass .large) }⟩,
    ⟨0, .terminate (.ofIndex 3)⟩, ⟨0, .reap⟩,
    ⟨0, .spawn { entry := 32, name := "second", stack := some (.atLeast 3000) }⟩]

/-- The idle threads and the second thread have stacks, and that of the first one is free. -/
theorem Machine.conservesStacks_of_turnover :
    (twoProcessors.run turnover).kernel.attached =
        [⟨0, .medium⟩, ⟨1, .medium⟩, ⟨3, .small⟩] ∧
      (twoProcessors.run turnover).kernel.pool.free = [⟨2, .large⟩] ∧
      (twoProcessors.run turnover).kernel.pool.allocated = 4 ∧
      (twoProcessors.run turnover).kernel.pool.deallocated = 1 ∧
      twoProcessors.ConservesStacks turnover := by
  have counted : (twoProcessors.run turnover).kernel.attached =
        [⟨0, .medium⟩, ⟨1, .medium⟩, ⟨3, .small⟩] ∧
      (twoProcessors.run turnover).kernel.pool.free = [⟨2, .large⟩] ∧
      (twoProcessors.run turnover).kernel.pool.allocated = 4 ∧
      (twoProcessors.run turnover).kernel.pool.deallocated = 1 := by
    decide +kernel
  obtain ⟨attached, free, allocated, deallocated⟩ := counted
  exact ⟨attached, free, allocated, deallocated, conservesStacks twoProcessors_made turnover⟩

end ThreadScheduler
