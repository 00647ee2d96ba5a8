/-
Module: ThreadScheduler.Proofs.StackAccounts
Purpose: Where the kernel stacks are. Every block of the heap holds one stack, and this stack is
  with one thread, free, or was freed when the host gave no room to keep it; the counters of the
  pool agree with that, so that the count of stacks in use never goes below zero and never exceeds
  the limit.
Main exports: StackPool.Balanced, StackPool.BalancedWithin, Kernel.attached, Kernel.StacksAccounted,
  Kernel.StacksAccounted.run, Kernel.Reachable.stacksAccounted
-/
import ThreadScheduler.Proofs.Atomicity
import ThreadScheduler.Proofs.Retention

namespace ThreadScheduler

namespace StackPool

variable {pool pool' : StackPool} {heap heap' : Heap} {attached others : List Stack}
  {lost : List Stack} {stack : Stack} {sizeClass : SizeClass}

/-- Some stacks are all those that a pool ever made, and each of them has a block of its own. -/
structure Makes (pool : StackPool) (heap : Heap) (made : List Stack) : Prop where
  apart : (made.map (·.block)).Nodup
  blocks : ∀ stack ∈ made, stack.block < heap.nextBlock
  counted : pool.allocated = .ofNat made.length

namespace Makes

variable {made : List Stack}

/-- Stacks change places. -/
theorem perm (h : pool.Makes heap made) (same : made.Perm others)
    (allocated : pool'.allocated = pool.allocated) (nextBlock : heap'.nextBlock = heap.nextBlock) :
    pool'.Makes heap' others where
  apart := (same.map _).nodup_iff.mp h.apart
  blocks stack member := nextBlock ▸ h.blocks stack (same.mem_iff.mpr member)
  counted := by rw [allocated, h.counted, same.length_eq]

/-- A stack is made in a block that nobody has had. -/
theorem cons (h : pool.Makes heap made) (block : stack.block = heap.nextBlock)
    (allocated : pool'.allocated = pool.allocated + 1)
    (nextBlock : heap'.nextBlock = heap.nextBlock + 1) : pool'.Makes heap' (stack :: made) where
  apart := by
    rw [List.map_cons, List.nodup_cons]
    refine ⟨fun taken => ?_, h.apart⟩
    obtain ⟨other, member, same⟩ := List.mem_map.mp taken
    exact Nat.lt_irrefl _ (same.trans block ▸ h.blocks other member)
  blocks := by
    rw [nextBlock]
    refine List.forall_mem_cons.mpr ⟨?_, fun other member => ?_⟩
    · rw [block]
      exact Nat.lt_succ_self _
    · exact Nat.lt_succ_of_lt (h.blocks other member)
  counted := by
    rw [allocated, h.counted, List.length_cons, UInt64.ofNat_add]
    rfl

end Makes

/-- The books of a pool balance when some stacks are attached to threads and others were freed. -/
structure Balanced (pool : StackPool) (heap : Heap) (attached lost : List Stack) : Prop where
  inUse : pool.inUse.toNat = attached.length
  limited : attached.length ≤ pool.limit.toNat
  /-- A stack that was made is attached, free or freed. -/
  makes : pool.Makes heap (attached ++ (pool.free ++ lost))
  sorted : pool.Sorted

/-- A counter below some limit counts one more. -/
theorem toNat_add_one {count limit : UInt64} (below : count < limit) :
    (count + 1).toNat = count.toNat + 1 := by
  have room := UInt64.lt_iff_toNat_lt.mp below
  have bound := limit.toNat_lt
  rw [UInt64.toNat_add]
  exact Nat.mod_eq_of_lt (by simp; omega)

/-- A counter that is not zero counts one less. -/
theorem toNat_sub_one {count : UInt64} {n : Nat} (positive : count.toNat = n + 1) :
    (count - 1).toNat = n := by
  have one : (1 : UInt64) ≤ count := by
    rw [UInt64.le_iff_toNat_le, positive]
    simp
  rw [UInt64.toNat_sub_of_le _ _ one, positive]
  rfl

namespace Balanced

/-- The order of the attached stacks does not matter. -/
theorem perm (h : pool.Balanced heap attached lost) (same : attached.Perm others) :
    pool.Balanced heap others lost where
  inUse := h.inUse.trans same.length_eq
  limited := same.length_eq ▸ h.limited
  makes := h.makes.perm (same.append_right _) rfl rfl
  sorted := h.sorted

/-- What the host answers to other requests does not matter. -/
theorem spends (h : pool.Balanced heap attached lost) (asked : heap.Spends heap') :
    pool.Balanced heap' attached lost :=
  { h with makes := h.makes.perm (.refl _) rfl asked.nextBlock }

/-- A stack that is granted is attached. -/
theorem allocate (h : pool.Balanced heap attached lost)
    (granted : pool.allocate heap sizeClass = (.ok stack, pool', heap')) :
    pool'.Balanced heap' (stack :: attached) lost := by
  have grant := grant_of_allocate granted
  have room : attached.length < pool.limit.toNat := by
    rw [← h.inUse]
    exact UInt64.lt_iff_toNat_lt.mp grant.room
  have inUse : pool'.inUse.toNat = (stack :: attached).length := by
    rw [grant.inUse, toNat_add_one grant.room, h.inUse, List.length_cons]
  refine ⟨inUse, by rw [grant.limit]; exact room, ?_, (grant.sorted h.sorted).1⟩
  rcases grant.origin with ⟨_, free, allocated, same⟩ | ⟨rfl, free, allocated, next⟩
  · refine h.makes.perm ?_ allocated same
    exact ((free.append_right lost).append_left attached).trans List.perm_middle
  · rw [free]
    exact h.makes.cons rfl allocated next

/-- A stack that is given back is free, or lost if the host gives no room to keep it. -/
theorem deallocate {gone : List Stack} (h : pool.Balanced heap (stack :: attached) lost)
    (back : pool.TakesBack heap [stack] gone pool' heap') :
    pool'.Balanced heap' attached (gone ++ lost) where
  inUse := by
    rw [back.inUse]
    exact toNat_sub_one h.inUse
  limited := back.limit ▸ Nat.le_of_succ_le h.limited
  makes := by
    refine h.makes.perm ?_ back.allocated back.spends.nextBlock
    have moved : (stack :: pool.free).Perm (pool'.free ++ gone) :=
      back.free.symm.trans List.perm_append_comm
    have kept := moved.append_right lost
    rw [List.append_assoc] at kept
    exact List.perm_middle.symm.trans (kept.append_left attached)
  sorted := back.sorted h.sorted

/-- No stack is attached twice, and none is both attached and free. -/
theorem nodup (h : pool.Balanced heap attached lost) :
    ((attached ++ pool.free).map (·.block)).Nodup := by
  have apart := h.makes.apart
  rw [← List.append_assoc, List.map_append] at apart
  exact (List.nodup_append.mp apart).1

end Balanced

/-- The books of a pool balance, and for each stack that was freed the host refused something: so
often it did, and may still do so. -/
def BalancedWithin (pool : StackPool) (heap : Heap) (attached : List Stack)
    (refusals : Nat) : Prop :=
  ∃ lost, pool.Balanced heap attached lost ∧ lost.length + heap.refusals ≤ refusals

namespace BalancedWithin

variable {refusals : Nat}

theorem perm (h : pool.BalancedWithin heap attached refusals) (same : attached.Perm others) :
    pool.BalancedWithin heap others refusals :=
  have ⟨lost, balanced, within⟩ := h
  ⟨lost, balanced.perm same, within⟩

theorem spends (h : pool.BalancedWithin heap attached refusals) (asked : heap.Spends heap') :
    pool.BalancedWithin heap' attached refusals :=
  have ⟨lost, balanced, within⟩ := h
  ⟨lost, balanced.spends asked, Nat.le_trans (Nat.add_le_add_left asked.refusals_le _) within⟩

theorem allocate (h : pool.BalancedWithin heap attached refusals)
    (granted : pool.allocate heap sizeClass = (.ok stack, pool', heap')) :
    pool'.BalancedWithin heap' (stack :: attached) refusals :=
  have ⟨lost, balanced, within⟩ := h
  have fewer := (grant_of_allocate granted).answers.sublist.count_le none
  ⟨lost, balanced.allocate granted, Nat.le_trans (Nat.add_le_add_left fewer _) within⟩

/-- Several stacks are given back one after the other. -/
theorem deallocateAll {returned : List Stack}
    (h : pool.BalancedWithin heap (returned ++ attached) refusals) :
    (pool.deallocateAll heap returned).1.BalancedWithin
    (pool.deallocateAll heap returned).2 attached
      refusals := by
  induction returned generalizing pool heap with
  | nil => exact h
  | cons stack rest ih =>
    obtain ⟨lost, balanced, within⟩ := h
    obtain ⟨gone, back⟩ := pool.takesBack_one heap stack
    have refused := back.refused
    have fewer : (gone ++ lost).length + (pool.deallocate heap stack).2.refusals ≤ refusals := by
      rw [List.length_append]
      omega
    exact ih ⟨gone ++ lost, balanced.deallocate back, fewer⟩

end BalancedWithin

end StackPool

namespace Kernel

variable {k k' after admitted : Kernel} {id bootstrap : ThreadId} {entry here refusals : Nat}

/-- The stacks that threads have from the pool, in the order of their handles. -/
def attached (k : Kernel) : List Stack := k.threads.toList.filterMap (·.pooledStack)

/-- The books of the pool balance, and its limit is the configured one. -/
structure StacksAccounted (k : Kernel) (refusals : Nat) : Prop where
  limit : k.pool.limit = k.config.maxKernelStacks
  within : k.pool.BalancedWithin k.heap k.attached refusals

theorem attached_eq_fixed (k : Kernel) :
    k.attached = (k.threads.fixed.filterMap (·)).filterMap (·.pooledStack) := by
  have listed := k.threads.toList_fixed
  unfold attached
  rw [← show _ = k.threads.fixed.filterMap (·) from listed, List.filterMap_map]
  rfl

theorem Retains.attached (retains : k.Retains k') : k'.attached = k.attached := by
  rw [attached_eq_fixed, retains.fixed, ← attached_eq_fixed]

namespace StacksAccounted

/-- The stacks that were freed, if any. -/
theorem balanced (h : k.StacksAccounted refusals) :
    ∃ lost, k.pool.Balanced k.heap k.attached lost ∧ lost.length + k.heap.refusals ≤ refusals :=
  h.within

theorem sorted (h : k.StacksAccounted refusals) : k.pool.Sorted :=
  have ⟨_, balanced, _⟩ := h.within
  balanced.sorted

theorem inUse (h : k.StacksAccounted refusals) : k.pool.inUse.toNat = k.attached.length :=
  have ⟨_, balanced, _⟩ := h.within
  balanced.inUse

theorem limited (h : k.StacksAccounted refusals) :
    k.attached.length ≤ k.config.maxKernelStacks.toNat :=
  have ⟨_, balanced, _⟩ := h.within
  h.limit ▸ balanced.limited

theorem of_retains (h : k.StacksAccounted refusals) (retains : k.Retains k') :
    k'.StacksAccounted refusals where
  limit := by rw [retains.pool, retains.config, h.limit]
  within := by
    rw [retains.pool, retains.attached]
    exact h.within.spends retains.heap

/-- The host is asked for memory. -/
theorem withRoom {heap : Heap} (h : k.StacksAccounted refusals) (timer : PeriodicTimer)
    (asked : k.heap.Spends heap) (capacity : Nat) :
    ({ k with timer }.withRoom heap capacity).StacksAccounted refusals :=
  h.of_retains ⟨rfl, rfl, asked, rfl⟩

/-- A thread that is registered gets a stack of its own. -/
theorem of_admits {spec : ThreadSpec} (h : k.StacksAccounted refusals)
    (admits : k.Admits spec id admitted) :
    admitted.StacksAccounted refusals := by
  obtain ⟨capacity, asked, stack, pool, heap, reserved, granted, rfl⟩ := admits.granted
  have grant := StackPool.grant_of_allocate granted
  have room := h.within.spends (ThreadTable.spends_of_reserve reserved)
  have pushed := (k.threads.withCapacity capacity).toList_push
    ((spec.toThread id).prepare stack spec.entry spec.argument)
  have listed := congrArg (List.filterMap (·.pooledStack)) pushed
  rw [List.filterMap_append] at listed
  refine ⟨grant.limit.trans h.limit, (room.allocate granted).perm ?_⟩
  exact (List.perm_append_singleton stack k.attached).symm.trans (.of_eq listed.symm)

/-- The thread that ran before has no stack from the pool. -/
theorem of_withBootstrap (h : k.StacksAccounted refusals) (id : ThreadId)
    (bootStack : Option StackBounds) :
    (k.withBootstrap id bootStack).StacksAccounted refusals := by
  have same : (k.withBootstrap id bootStack).attached = k.attached := by
    unfold attached withBootstrap
    rw [ThreadTable.toList_push, List.filterMap_append]
    exact List.append_nil _
  refine ⟨h.limit, ?_⟩
  rw [same]
  exact h.within

theorem of_adopts {cpus : List Nat} (h : k.StacksAccounted refusals)
    (adopts : AdoptsCpus bootstrap entry cpus k after) : after.StacksAccounted refusals := by
  induction adopts with
  | nil => exact h
  | cons head _ ih => exact ih ((h.of_admits head).of_retains (Keeps.of_withIdle _ _ _ _).retains)

/-- The stack of a thread that is forgotten is given back. -/
theorem of_reapThread (h : k.StacksAccounted refusals) (id : ThreadId) :
    (k.reapThread id).StacksAccounted refusals := by
  unfold reapThread
  split
  · exact h
  · rename_i thread rest removed
    have listed : k.attached.Perm (thread.pooledStack.toList ++
        rest.toList.filterMap (·.pooledStack)) := by
      refine ((ThreadTable.toList_perm_of_remove removed).filterMap _).trans ?_
      cases stack : thread.pooledStack <;> simp [stack]
    have books := (h.within.perm listed).deallocateAll
    cases stack : thread.pooledStack with
    | none =>
      rw [stack] at books
      exact ⟨h.limit, books⟩
    | some stack =>
      rw [stack] at books
      exact ⟨h.limit, books⟩

theorem of_reaped (h : k.StacksAccounted refusals) : k.reaped.StacksAccounted refusals := by
  have all (ids : List ThreadId) {k : Kernel} (h : k.StacksAccounted refusals) :
      (ids.foldl reapThread k).StacksAccounted refusals := by
    induction ids generalizing k with
    | nil => exact h
    | cons id rest ih => exact ih (h.of_reapThread id)
  apply all
  exact ⟨h.limit, h.within⟩

/-- The stacks of the threads that are discarded are given back. -/
theorem of_discarded (h : k.StacksAccounted refusals) :
    (k.discarded 0).StacksAccounted refusals := by
  have none_left : (k.threads.rollback 0).2.toList = [] :=
    ThreadTable.toList_of_unused rfl
  have returned : k.pool.BalancedWithin k.heap (k.attached ++ []) refusals := by
    rw [List.append_nil]
    exact h.within
  constructor
  · obtain ⟨_, back⟩ := k.pool.takesBack k.heap k.attached
    exact back.limit.trans h.limit
  · have emptied : (k.discarded 0).attached = [] := by
      unfold attached
      rw [show (k.discarded 0).threads = (k.threads.rollback 0).2 from rfl, none_left]
      rfl
    rw [emptied]
    exact returned.deallocateAll

/-- The kernel in which scheduling is given up accounts for its stacks. -/
theorem of_progresses {timer : PeriodicTimer} {bootStack : Option StackBounds}
    (h : k.StacksAccounted refusals) (progress : k.Progresses timer entry bootStack k') :
    k'.StacksAccounted refusals := by
  cases progress with
  | none asked => exact h.of_retains ⟨rfl, rfl, asked, rfl⟩
  | some reserved adopts asked =>
    have room := ThreadTable.spends_of_reserve reserved
    have begun := ((h.withRoom timer room _).of_withBootstrap _ _).of_adopts adopts
    exact begun.of_retains ⟨rfl, rfl, asked, rfl⟩

end StacksAccounted

/-- What the host has answered it does not take back. -/
theorem Admits.answers {spec : ThreadSpec} (admits : k.Admits spec id admitted) :
    admitted.heap.answers <:+ k.heap.answers := by
  obtain ⟨_, _, _, _, _, reserved, granted, rfl⟩ := admits.granted
  exact (StackPool.grant_of_allocate granted).answers.trans
    (ThreadTable.spends_of_reserve reserved).answers

end Kernel

/-- The books balance after every operation. -/
theorem Transition.stacksAccounted {k : Kernel} {here refusals : Nat} {operation : Operation}
    {result : Except SchedulerError Reply} {course : Course}
    (h : Transition k here operation result course) (regular : k.Regular)
    (stacksAccounted : k.StacksAccounted refusals) :
    (course.kernel here).StacksAccounted refusals := by
  rcases h.retains_or_recordsChange with retains | recordsChange
  · exact stacksAccounted.of_retains retains
  · generalize course.kernel here = after at recordsChange
    cases recordsChange with
    | booted _ reserved adopted =>
      have room := ThreadTable.spends_of_reserve reserved
      have begun := ((stacksAccounted.withRoom _ room _).of_withBootstrap _ _).of_adopts adopted
      exact begun.of_retains ⟨rfl, rfl, .refl _, rfl⟩
    | discarded _ fresh progress =>
      rw [(regular.orderly.blank fresh).mark]
      exact (stacksAccounted.of_progresses progress).of_discarded
    | spawned admits =>
      obtain ⟨_, _, same⟩ := Kernel.enqueueReady_frame _ _ _
      rw [same]
      exact (stacksAccounted.of_admits admits).of_retains ⟨rfl, rfl, .refl _, rfl⟩
    | reaped => exact stacksAccounted.of_reaped

namespace Kernel

/-- A new kernel has no stacks. -/
theorem stacksAccounted_of_ofConfig {config : Config} {timer : PeriodicTimer} {heap : Heap}
    {k : Kernel} (made : ofConfig config timer heap = .ok k) :
    k.StacksAccounted k.heap.refusals := by
  obtain ⟨_, rfl⟩ := eq_of_ofConfig made
  have sorted : StackPool.Sorted { limit := config.maxKernelStacks } := by
    intro sizeClass stack member
    cases sizeClass <;> cases member
  exact ⟨rfl, [], ⟨rfl, Nat.zero_le _, ⟨List.nodup_nil, nofun, rfl⟩, sorted⟩, Nat.le_of_eq
    (Nat.zero_add _)⟩

/-- The books balance after every operation of a run. -/
theorem StacksAccounted.step {m : Machine} {refusals : Nat}
    (stacksAccounted : m.kernel.StacksAccounted refusals)
    (reached : m.kernel.Reachable) (cpu : Nat) (operation : Operation) :
    (m.execute cpu operation).machine.kernel.StacksAccounted refusals := by
  obtain ⟨course, transition, same⟩ := m.transition_of_execute cpu operation
  rw [same]
  exact transition.stacksAccounted reached.regular stacksAccounted

theorem StacksAccounted.run {m : Machine} {refusals : Nat}
    (stacksAccounted : m.kernel.StacksAccounted refusals)
    (reached : m.kernel.Reachable) (requests : List Request) :
    (m.run requests).kernel.StacksAccounted refusals := by
  induction requests generalizing m with
  | nil => exact stacksAccounted
  | cons request rest ih =>
    exact ih (stacksAccounted.step reached request.cpu request.operation)
      (reached.step request.cpu request.operation)

/-- The books balance in every kernel that a run leads to. -/
theorem Reachable.stacksAccounted {k : Kernel} (h : k.Reachable) :
    ∃ refusals, k.StacksAccounted refusals := by
  induction h with
  | new made => exact ⟨_, stacksAccounted_of_ofConfig made⟩
  | step reached cpu operation ih =>
    obtain ⟨refusals, stacksAccounted⟩ := ih
    exact ⟨refusals, stacksAccounted.step reached cpu operation⟩

end Kernel

end ThreadScheduler
