/-
Module: ThreadScheduler.Proofs.Transition
Purpose: What an operation can do to the kernel, said once for all operations. An operation moves
  threads and then either leaves the processors alone or gives the executing processor its next
  thread; the kernel at that moment is part of the transition.
Main exports: Course, Kernel.redispatch, Kernel.timeKept, Kernel.ended, Kernel.reaped,
  Kernel.withRoom, Kernel.Admits, Transition, Kernel.tickCourse, Transition.course_of_tick
-/
import ThreadScheduler.Proofs.CallLogic
import ThreadScheduler.Proofs.Stacks
import ThreadScheduler.Proofs.Tables

namespace ThreadScheduler

namespace Kernel

/-- The kernel after a processor has got its next thread and has switched to it. -/
def redispatch (k : Kernel) (here : Nat) : Kernel :=
  Call.countSwitch ((k.dispatch here).2.bind (k.dispatch here).1.switch?) (k.dispatch here).1

/-- Becoming ready concerns the records and the ready queue only. -/
theorem makeReady_frame (k : Kernel) (id : ThreadId) :
    ∃ threads ready, (k.makeReady id).1 = { k with threads, ready } := by
  unfold makeReady enqueueReady
  split
  · exact ⟨_, _, rfl⟩
  · dsimp only
    split <;> exact ⟨_, _, rfl⟩

@[simp] theorem cpus_makeReady (k : Kernel) (id : ThreadId) : (k.makeReady id).1.cpus = k.cpus := by
  obtain ⟨threads, ready, same⟩ := makeReady_frame k id
  rw [same]

@[simp] theorem mutexes_makeReady (k : Kernel) (id : ThreadId) :
    (k.makeReady id).1.mutexes = k.mutexes := by
  obtain ⟨threads, ready, same⟩ := makeReady_frame k id
  rw [same]

/-- Makes threads ready one after the other. -/
def makeReadyAll (k : Kernel) (ids : List ThreadId) : Kernel :=
  ids.foldl (fun k id => (k.makeReady id).1) k

theorem makeReadyAll_frame (ids : List ThreadId) (k : Kernel) :
    ∃ threads ready, k.makeReadyAll ids = { k with threads, ready } := by
  induction ids generalizing k with
  | nil => exact ⟨_, _, rfl⟩
  | cons id rest ih =>
    obtain ⟨threads, ready, first⟩ := makeReady_frame k id
    unfold makeReadyAll
    rw [List.foldl_cons, first]
    exact ih _

/-- The threads that a tick of processor 0 wakes, in the order in which they wake. -/
def woken (k : Kernel) : List ThreadId := (k.sleeping.advance k.timer.interrupt.1).drain.1

/-- The kernel after processor 0 has counted a tick, let its time pass and made the due threads
ready. -/
def timeKept (k : Kernel) : Kernel :=
  { k with
    timer := k.timer.interrupt.2
    sleeping := (k.sleeping.advance k.timer.interrupt.1).drain.2 }.makeReadyAll k.woken

/-- The kernel that finds out what a tick means for a processor: processor 0 has kept time. -/
def beforeCharge (k : Kernel) (here : Nat) : Kernel := if here = 0 then k.timeKept else k

/-- Keeping time concerns the timer, the timeline and the threads that wake. -/
theorem beforeCharge_frame (k : Kernel) (here : Nat) :
    ∃ threads ready timer sleeping,
      k.beforeCharge here = { k with threads, ready, timer, sleeping } := by
  unfold beforeCharge
  split
  · obtain ⟨threads, ready, same⟩ := makeReadyAll_frame k.woken
      { k with
        timer := k.timer.interrupt.2
        sleeping := (k.sleeping.advance k.timer.interrupt.1).drain.2 }
    exact ⟨threads, ready, _, _, same⟩
  · exact ⟨_, _, _, _, rfl⟩

@[simp] theorem mutexes_beforeCharge (k : Kernel) (here : Nat) :
    (k.beforeCharge here).mutexes = k.mutexes := by
  obtain ⟨_, _, _, _, same⟩ := beforeCharge_frame k here
  rw [same]

@[simp] theorem cpus_beforeCharge (k : Kernel) (here : Nat) :
    (k.beforeCharge here).cpus = k.cpus := by
  obtain ⟨_, _, _, _, same⟩ := beforeCharge_frame k here
  rw [same]

/-- The time that a tick charges to the running thread of a processor. -/
def elapsed (k : Kernel) (here : Nat) : Duration :=
  if here = 0 then k.timer.interrupt.1 else ⟨k.timer.nanosPerTick⟩

/-- The best policy among the threads that a tick of a processor wakes. -/
def bestWoken (k : Kernel) (here : Nat) : Option Policy :=
  if here = 0 then Policy.best? (k.woken.filterMap k.timeKept.policyOf?) else none

/-- Takes an owner out of a mutex and makes the next owner ready. -/
def passOn (owner : ThreadId) (k : Kernel) (id : MutexId) : Kernel :=
  match (k.mutexes.get? id).bind (·.withdraw owner) with
  | none => k
  | some (.owner (some nextOwner), mutex) =>
      ({ k with mutexes := k.mutexes.replace id mutex }.makeReady nextOwner).1
  | some (_, mutex) => { k with mutexes := k.mutexes.replace id mutex }

/-- Passing a mutex on concerns the mutexes, the records and the ready queue only. -/
theorem passOn_frame (owner : ThreadId) (k : Kernel) (id : MutexId) :
    ∃ threads ready mutexes, k.passOn owner id = { k with threads, ready, mutexes } := by
  unfold passOn
  split
  · exact ⟨_, _, _, rfl⟩
  · obtain ⟨threads, ready, same⟩ := makeReady_frame { k with mutexes := _ } _
    exact ⟨threads, ready, _, same⟩
  · exact ⟨_, _, _, rfl⟩

/-- Marks a thread as terminated and keeps its record for later. -/
def markTerminated (k : Kernel) (id : ThreadId) : Kernel :=
  { k with
    threads := k.threads.modify id ({ · with state := .terminated, waitingOn := none })
    terminated := k.terminated ++ [id] }

/-- The kernel after a thread was taken out of its container; the same kernel if it is not there. -/
def detached (k : Kernel) (thread : Thread) : Kernel := (k.detach thread).getD k

/-- Taking a thread out of its container concerns the containers only. -/
theorem detached_frame (k : Kernel) (thread : Thread) :
    ∃ ready sleeping mutexes, k.detached thread = { k with ready, sleeping, mutexes } := by
  unfold detached detach
  cases thread.state with
  | ready => cases k.ready.remove thread.id <;> exact ⟨_, _, _, rfl⟩
  | running => cases k.hostOf? thread.id <;> exact ⟨_, _, _, rfl⟩
  | blocked =>
    cases thread.waitingOn with
    | none => exact ⟨_, _, _, rfl⟩
    | some id =>
      cases found : k.mutexes.get? id with
      | none => exact ⟨k.ready, k.sleeping, k.mutexes, by simp [found]⟩
      | some mutex =>
        cases withdrawn : mutex.withdraw thread.id with
        | none => exact ⟨k.ready, k.sleeping, k.mutexes, by simp [found, withdrawn]⟩
        | some removal =>
          exact ⟨k.ready, k.sleeping, k.mutexes.replace id removal.2, by simp [found, withdrawn]⟩
  | sleeping => cases k.sleeping.remove thread.id <;> exact ⟨_, _, _, rfl⟩
  | terminated => exact ⟨_, _, _, rfl⟩

/-- The kernel after a thread left its container, passed its mutexes on and was marked. -/
def ended (k : Kernel) (thread : Thread) : Kernel :=
  (((k.detached thread).mutexes.ownedBy thread.id).foldl (passOn thread.id)
    (k.detached thread)).markTerminated thread.id

/-- Passing mutexes on concerns the mutexes, the records and the ready queue only. -/
theorem passAll_frame (owner : ThreadId) (ids : List MutexId) (k : Kernel) :
    ∃ threads ready mutexes, ids.foldl (passOn owner) k = { k with threads, ready, mutexes } := by
  induction ids generalizing k with
  | nil => exact ⟨_, _, _, rfl⟩
  | cons id rest ih =>
    obtain ⟨threads, ready, mutexes, first⟩ := passOn_frame owner k id
    rw [List.foldl_cons, first]
    exact ih _

/-- The end of a thread leaves the processors to the caller. -/
theorem ended_frame (k : Kernel) (thread : Thread) :
    ∃ threads ready sleeping mutexes terminated,
      k.ended thread = { k with threads, ready, sleeping, mutexes, terminated } := by
  obtain ⟨_, sleeping, _, left⟩ := detached_frame k thread
  obtain ⟨threads, ready, mutexes, passed⟩ :=
    passAll_frame thread.id ((k.detached thread).mutexes.ownedBy thread.id) (k.detached thread)
  unfold ended
  rw [passed, left]
  exact ⟨_, ready, sleeping, mutexes, _, rfl⟩

@[simp] theorem cpus_ended (k : Kernel) (thread : Thread) : (k.ended thread).cpus = k.cpus := by
  obtain ⟨threads, ready, sleeping, mutexes, terminated, same⟩ := ended_frame k thread
  rw [same]

/-- Frees the record and the stack of a thread. -/
def reapThread (k : Kernel) (id : ThreadId) : Kernel :=
  match k.threads.remove id with
  | none => k
  | some (thread, threads) => thread.pooledStack.elim { k with threads }
      (returnStack { k with threads })

/-- Frees the records and stacks of all terminated threads that no processor needs. -/
def reaped (k : Kernel) : Kernel :=
  (k.terminated.filter (! k.isReferenced ·)).foldl reapThread
    { k with terminated := k.terminated.filter k.isReferenced }

/-- The kernel after the host was asked for memory: it has answered some requests, and there is room
for so many threads. -/
def withRoom (k : Kernel) (heap : Heap) (capacity : Nat) : Kernel :=
  { k with heap, threads := k.threads.withCapacity capacity }

@[simp] theorem config_withRoom (k : Kernel) (heap : Heap) (capacity : Nat) :
    (k.withRoom heap capacity).config = k.config := rfl

/-- Nothing happened but that the host was asked for memory. -/
def OnlyAsks (k k' : Kernel) : Prop :=
  ∃ heap capacity, k.heap.Spends heap ∧ k' = k.withRoom heap capacity

theorem OnlyAsks.refl (k : Kernel) : k.OnlyAsks k :=
  ⟨k.heap, k.threads.records.capacity, .refl _, rfl⟩

theorem OnlyAsks.of_heap {k : Kernel} {heap : Heap} (spends : k.heap.Spends heap) :
    k.OnlyAsks { k with heap } :=
  ⟨heap, k.threads.records.capacity, spends, rfl⟩

/-- Room for another thread is made without any effect but that there is room. -/
theorem of_reserveThread {k k' : Kernel} {id : ThreadId} (h : k.reserveThread = (.ok id, k')) :
    ∃ capacity heap, k.threads.reserve k.heap = (.ok id, k.threads.withCapacity capacity, heap) ∧
      k.threads.mark < capacity ∧ k.heap.Spends heap ∧ k' = k.withRoom heap capacity := by
  unfold reserveThread at h
  have reserves := k.threads.reserves k.heap
  rcases outcome : k.threads.reserve k.heap with ⟨reserved, threads, heap⟩
  rw [outcome] at h reserves
  obtain ⟨rfl, rfl⟩ := Prod.mk.inj h
  cases reserves with
  | reserved _ spare spends => exact ⟨_, heap, rfl, spare, spends, rfl⟩

theorem of_reserveThread_error {k k' : Kernel} {error : SpawnError}
    (h : k.reserveThread = (.error error, k')) :
    ∃ heap, k.threads.reserve k.heap = (.error error, k.threads, heap) ∧ k.heap.Spends heap ∧
      (heap = k.heap ∨ error = .outOfMemory) ∧ k' = { k with heap } := by
  unfold reserveThread at h
  have reserves := k.threads.reserves k.heap
  have spends := k.heap.spends_request
  rcases outcome : k.threads.reserve k.heap with ⟨reserved, threads, heap⟩
  rw [outcome] at h reserves
  obtain ⟨rfl, rfl⟩ := Prod.mk.inj h
  cases reserves with
  | full => exact ⟨k.heap, rfl, .refl _, .inl rfl, rfl⟩
  | denied _ _ answer =>
    rw [answer] at spends
    exact ⟨heap, rfl, spends, .inr rfl, rfl⟩

theorem of_takeStack {k k' : Kernel} {sizeClass : SizeClass} {stack : Stack}
    (h : k.takeStack sizeClass = (.ok stack, k')) :
    ∃ pool heap, k.pool.allocate k.heap sizeClass = (.ok stack, pool, heap) ∧
      k' = { k with pool, heap } := by
  unfold takeStack at h
  obtain ⟨granted, same⟩ := Prod.mk.inj h
  exact ⟨_, _, Prod.ext granted rfl, same.symm⟩

theorem of_takeStack_error {k k' : Kernel} {sizeClass : SizeClass} {error : MemoryError}
    (h : k.takeStack sizeClass = (.error error, k')) :
    ∃ heap, k.pool.allocate k.heap sizeClass = (.error error, k.pool, heap) ∧ k.heap.Spends heap ∧
      k' = { k with heap } := by
  unfold takeStack at h
  rcases outcome : k.pool.allocate k.heap sizeClass with ⟨granted, pool, heap⟩
  rw [outcome] at h
  obtain ⟨rfl, rfl⟩ := Prod.mk.inj h
  obtain ⟨rfl, spends⟩ := StackPool.refusal_of_allocate outcome
  exact ⟨heap, rfl, spends, rfl⟩

theorem of_createMutex {k k' : Kernel} {name : String} {id : MutexId}
    (h : k.createMutex name = (.ok id, k')) :
    ∃ mutexes heap, k.mutexes.create k.heap name = (.ok id, mutexes, heap) ∧
      k' = { k with mutexes, heap } := by
  unfold createMutex at h
  obtain ⟨created, same⟩ := Prod.mk.inj h
  exact ⟨_, _, Prod.ext created rfl, same.symm⟩

theorem of_createMutex_error {k k' : Kernel} {name : String} {error : MutexError}
    (h : k.createMutex name = (.error error, k')) :
    ∃ heap, k.heap.Spends heap ∧ (heap = k.heap ∨ error = .tooManyMutexes) ∧
      k' = { k with heap } := by
  unfold createMutex at h
  have creates := k.mutexes.creates k.heap name
  have spends := k.heap.spends_request
  rcases outcome : k.mutexes.create k.heap name with ⟨created, mutexes, heap⟩
  rw [outcome] at h creates
  obtain ⟨rfl, rfl⟩ := Prod.mk.inj h
  cases creates with
  | misnamed | full => exact ⟨k.heap, .refl _, .inl rfl, rfl⟩
  | denied _ _ _ answer =>
    rw [answer] at spends
    exact ⟨heap, spends, .inr rfl, rfl⟩

/-- A thread with a stack of its own is registered as described; it is in no container yet. -/
structure Admits (k : Kernel) (spec : ThreadSpec) (id : ThreadId) (after : Kernel) : Prop where
  valid : spec.validate = .ok ()
  served : k.ready.hasLevel spec.policy
  granted : ∃ capacity asked stack pool heap,
    k.threads.reserve k.heap = (.ok id, k.threads.withCapacity capacity, asked) ∧
      k.pool.allocate asked (spec.stackClass.getD k.config.kernelStack) = (.ok stack, pool, heap) ∧
      after =
        { k with
          threads :=
            { k.threads with
              records := (k.threads.records.withCapacity capacity).push
                ((spec.toThread id).prepare stack spec.entry spec.argument) }
          pool
          heap }

/-- A thread that is registered gets the next handle, which named no record before. -/
theorem Admits.next {k admitted : Kernel} {spec : ThreadSpec} {id : ThreadId}
    (admits : k.Admits spec id admitted) : id = k.threads.records.next ∧ k.threads.get? id = none :=
  have ⟨_, _, _, _, _, reserved, _⟩ := admits.granted
  ThreadTable.get?_of_reserve reserved

/-- The record of the code that runs when scheduling begins. -/
def bootstrapThread (k : Kernel) (id : ThreadId) (bootStack : Option StackBounds) : Thread :=
  { id
    name := bootstrapName
    policy := k.highestPolicy
    state := .running
    adoptedStack := bootStack }

/-- The kernel with a record for the code that runs when scheduling begins. -/
def withBootstrap (k : Kernel) (id : ThreadId) (bootStack : Option StackBounds) : Kernel :=
  { k with
    threads :=
      { k.threads with records := k.threads.records.push (k.bootstrapThread id bootStack) } }

/-- Makes a thread the idle thread of a processor, with the bootstrap thread or itself running. -/
def withIdle (k : Kernel) (bootstrap idle : ThreadId) (cpu : Nat) : Kernel :=
  { k with
    cpus := k.cpus.modify cpu
      ({ · with
        idle := some idle
        slice := k.config.quantum
        running := some (if cpu = 0 then bootstrap else idle) })
    threads := if cpu = 0 then k.threads else k.threads.setState idle .running }

/-- Several processors get their idle threads one after the other. -/
inductive AdoptsCpus (bootstrap : ThreadId) (entry : Nat) : List Nat → Kernel → Kernel → Prop where
  | nil (k : Kernel) : AdoptsCpus bootstrap entry [] k k
  | cons {k admitted after : Kernel} {idle : ThreadId} {cpu : Nat} {rest : List Nat}
      (head : k.Admits (Call.idleSpec k.lowestPolicy entry cpu) idle admitted)
      (tail : AdoptsCpus bootstrap entry rest (admitted.withIdle bootstrap idle cpu) after) :
      AdoptsCpus bootstrap entry (cpu :: rest) k after

/-- The pool and the heap after the stacks of the threads registered since `mark` were given
back. -/
def returned (k : Kernel) (mark : Nat) : StackPool × Heap :=
  k.pool.deallocateAll k.heap ((k.threads.rollback mark).1.filterMap (·.pooledStack))

/-- The kernel after the records made since `mark` were taken back, the processors emptied and the
timer stopped. -/
def discarded (k : Kernel) (mark : Nat) : Kernel :=
  { k with
    threads := (k.threads.rollback mark).2
    pool := (k.returned mark).1
    heap := (k.returned mark).2
    cpus := k.cpus.map fun _ => {}
    timer := (k.timer.stop).toOption.getD k.timer }

end Kernel

/-- How an operation treats the executing processor. -/
inductive Course where
  /-- It goes on with the thread it runs. -/
  | stay (k : Kernel)
  /-- All threads that move have moved, and it gets its next thread. -/
  | dispatch (k : Kernel)

/-- The kernel in which an operation leaves off. -/
def Course.kernel (here : Nat) : Course → Kernel
  | .stay k => k
  | .dispatch k => k.redispatch here

/-- Whether an operation only asks. -/
def Operation.IsInquiry : Operation → Prop
  | .findMutex _ | .listMutexes | .threadInfo _ | .listThreads | .runningHere | .runningOn _
  | .idleOn _ | .isInitialized | .showConfig | .showTimer => True
  | _ => False

/-- The moment until which an operation lets its caller sleep. -/
def Operation.wakeAt? (now : Instant) : Operation → Option Instant
  | .sleepUntil wake => some wake
  | .sleepFor span => some (now + span)
  | _ => none

/-- Whether an operation can fail with an error since the host gives no room for one more record. -/
def Operation.LacksRoom (error : SchedulerError) : Operation → Prop
  | .spawn _ => error = .spawn .outOfMemory
  | .createMutex _ => error = .mutex .tooManyMutexes
  | _ => False

/-- Whether an operation asks for the end of a thread. -/
def Kernel.RequestsEnd (k : Kernel) (here : Nat) (id : ThreadId) : Operation → Prop
  | .terminate victim => victim = id
  | .exit _ => k.caller here = .ok id
  | _ => False

/-- What an operation executed by processor `here` can do to a kernel. -/
inductive Transition (k : Kernel) (here : Nat) :
    Operation → Except SchedulerError Reply → Course → Prop where
  | refused (operation : Operation) (error : SchedulerError) :
      Transition k here operation (.error error) (.stay k)
  /-- The host was asked for room, and the operation fails all the same. -/
  | denied {operation : Operation} {heap : Heap} {capacity : Nat} (error : SchedulerError)
      (lacks : operation.LacksRoom error) (asked : k.heap.Spends heap) :
      Transition k here operation (.error error) (.stay (k.withRoom heap capacity))
  | answered (operation : Operation) (reply : Reply) (inquiry : operation.IsInquiry) :
      Transition k here operation (.ok reply) (.stay k)
  | subscribed (topic : Topic) (wanted : Bool) :
      Transition k here (.subscribe topic wanted) (.ok .done)
        (.stay { k with subscriptions := k.subscriptions.set wanted topic })
  | timerStarted {frequency : UInt64} {quantum : Duration} {timer : PeriodicTimer}
      (started : k.timer.start frequency quantum = .ok timer) :
      Transition k here (.startTimer frequency quantum) (.ok .done) (.stay { k with timer })
  | timerStopped {timer : PeriodicTimer} (stopped : k.timer.stop = .ok timer) :
      Transition k here .stopTimer (.ok .done) (.stay { k with timer })
  | timerInterrupted :
      Transition k here .interruptTimer (.ok (.duration k.timer.interrupt.1))
        (.stay { k with timer := k.timer.interrupt.2 })
  /-- Scheduling begins. -/
  | booted {entry : Nat} {bootStack : Option StackBounds} {timer : PeriodicTimer}
      {bootstrap : ThreadId} {after : Kernel} {heap : Heap} {capacity : Nat}
      (fresh : k.initialized = false)
      (started : k.timer.start k.config.tickFrequency k.config.quantum = .ok timer)
      (reserved : k.threads.reserve k.heap = (.ok bootstrap, k.threads.withCapacity capacity, heap))
      (adopted : Kernel.AdoptsCpus bootstrap entry (List.range k.config.cpus)
        (({ k with timer }.withRoom heap capacity).withBootstrap bootstrap bootStack) after) :
      Transition k here (.init entry bootStack) (.ok (.threadId bootstrap))
        (.stay { after with initialized := true })
  /-- There is no handle for the bootstrap thread. -/
  | bootstrapRefused {entry : Nat} {bootStack : Option StackBounds} {timer : PeriodicTimer}
      {heap : Heap} (error : SchedulerError) (fresh : k.initialized = false)
      (started : k.timer.start k.config.tickFrequency k.config.quantum = .ok timer)
      (asked : k.heap.Spends heap) :
      Transition k here (.init entry bootStack) (.error error)
        (.stay ({ k with timer, heap }.discarded k.threads.mark))
  /-- Some processor gets no idle thread, when those before it have theirs. -/
  | idleRefused {entry : Nat} {bootStack : Option StackBounds} {timer : PeriodicTimer}
      {bootstrap : ThreadId} {partway : Kernel} {served : List Nat} {heap heap' : Heap}
      {capacity capacity' : Nat} (error : SchedulerError) (fresh : k.initialized = false)
      (started : k.timer.start k.config.tickFrequency k.config.quantum = .ok timer)
      (reserved : k.threads.reserve k.heap = (.ok bootstrap, k.threads.withCapacity capacity, heap))
      (adopted : Kernel.AdoptsCpus bootstrap entry served
        (({ k with timer }.withRoom heap capacity).withBootstrap bootstrap bootStack) partway)
      (asked : partway.heap.Spends heap') :
      Transition k here (.init entry bootStack) (.error error)
        (.stay ((partway.withRoom heap' capacity').discarded k.threads.mark))
  | spawned {spec : ThreadSpec} {id : ThreadId} {admitted : Kernel} (running : k.initialized = true)
      (admits : k.Admits spec id admitted) :
      Transition k here (.spawn spec) (.ok (.threadId id))
        (.stay (admitted.enqueueReady id spec.policy).1)
  /-- An idle thread has nobody to give way to. -/
  | idleYielded {id : ThreadId} (running : k.initialized = true)
      (current : k.running? here = some id) (idle : k.isIdle id = true)
      (empty : k.ready.isEmpty = true) : Transition k here .yield (.ok .done) (.stay k)
  /-- The running thread gives way without going to the ready queue: it is idle, was terminated
  meanwhile, or there is none. -/
  | vacated {slot : CpuSlot} (running : k.initialized = true) (found : k.cpus[here]? = some slot)
      (leaves : ∀ id, slot.running = some id →
        k.isIdle id = true ∧ k.ready.isEmpty = false ∨
          k.isIdle id = false ∧ k.stateOf? id ≠ some .running) :
      Transition k here .yield (.ok .done) (.dispatch k)
  | yielded {id : ThreadId} (running : k.initialized = true)
      (caller : k.caller here = .ok id) :
      Transition k here .yield (.ok .done) (.dispatch (k.makeReady id).1)
  /-- A tick before scheduling begins, or on a processor that does not exist. -/
  | ignored (nothing : k.initialized = false ∨ k.cpus[here]? = none) :
      Transition k here .tick (.ok .done) (.stay k)
  | kept {slot : CpuSlot} {slice : Duration} (running : k.initialized = true)
      (found : k.cpus[here]? = some slot)
      (verdict : (k.beforeCharge here).tickVerdict slot (k.elapsed here) (k.bestWoken here) =
        .keep slice) :
      Transition k here .tick (.ok .done)
        (.stay { k.beforeCharge here with
          cpus := (k.beforeCharge here).cpus.modify here ({ · with slice }) })
  | preempted {slot : CpuSlot} {id : ThreadId} (running : k.initialized = true)
      (found : k.cpus[here]? = some slot)
      (verdict : (k.beforeCharge here).tickVerdict slot (k.elapsed here) (k.bestWoken here) =
        .preempt id) :
      Transition k here .tick (.ok .done) (.dispatch ((k.beforeCharge here).makeReady id).1)
  | replaced {slot : CpuSlot} (running : k.initialized = true) (found : k.cpus[here]? = some slot)
      (verdict : (k.beforeCharge here).tickVerdict slot (k.elapsed here) (k.bestWoken here) =
        .replace) :
      Transition k here .tick (.ok .done) (.dispatch (k.beforeCharge here))
  /-- The moment to wake at is not in the future. -/
  | stayedAwake {operation : Operation} {wake : Instant} (running : k.initialized = true)
      (asked : operation.wakeAt? k.sleeping.now = some wake) (past : ¬ k.sleeping.now < wake) :
      Transition k here operation (.ok .done) (.stay k)
  | fellAsleep {operation : Operation} {wake : Instant} {id : ThreadId}
      (running : k.initialized = true) (caller : k.caller here = .ok id)
      (asked : operation.wakeAt? k.sleeping.now = some wake) (future : k.sleeping.now < wake) :
      Transition k here operation (.ok .done)
        (.dispatch { k with
          threads := k.threads.setState id .sleeping
          sleeping := k.sleeping.enqueue id wake })
  | mutexCreated {name : String} {id : MutexId} {mutexes : MutexTable} {heap : Heap}
      (created : k.mutexes.create k.heap name = (.ok id, mutexes, heap)) :
      Transition k here (.createMutex name) (.ok (.mutexId id)) (.stay { k with mutexes, heap })
  | mutexReleased {id : MutexId} {mutexes : MutexTable}
      (released : k.mutexes.release id = .ok mutexes) :
      Transition k here (.releaseMutex id) (.ok .done) (.stay { k with mutexes })
  /-- The caller has the mutex. -/
  | locked {id : MutexId} {thread : ThreadId} {mutex : Mutex} (running : k.initialized = true)
      (caller : k.caller here = .ok thread) (found : k.mutexes.get? id = some mutex)
      (granted : (mutex.lock thread).1 ≠ .mustBlock) :
      Transition k here (.lock id) (.ok (.locked (mutex.lock thread).1))
        (.stay { k with mutexes := k.mutexes.replace id (mutex.lock thread).2 })
  /-- The caller waits in the line of the mutex. -/
  | blocked {id : MutexId} {thread : ThreadId} {mutex : Mutex} (running : k.initialized = true)
      (caller : k.caller here = .ok thread) (found : k.mutexes.get? id = some mutex)
      (waits : (mutex.lock thread).1 = .mustBlock) :
      Transition k here (.lock id) (.ok (.locked .mustBlock))
        (.dispatch { k with
          mutexes := k.mutexes.replace id (mutex.lock thread).2
          threads :=
            k.threads.modify thread ({ · with state := .blocked, waitingOn := some id }) })
  /-- Nobody gets the mutex by this unlock. -/
  | unlocked {id : MutexId} {thread : ThreadId} {mutex : Mutex} (running : k.initialized = true)
      (caller : k.caller here = .ok thread) (found : k.mutexes.get? id = some mutex)
      (nobody : ∀ next, (mutex.unlock thread).1 ≠ .handedOff next) :
      Transition k here (.unlock id) (.ok (.unlocked (mutex.unlock thread).1))
        (.stay { k with mutexes := k.mutexes.replace id (mutex.unlock thread).2 })
  | handedOff {id : MutexId} {thread next : ThreadId} {mutex : Mutex}
      (running : k.initialized = true) (caller : k.caller here = .ok thread)
      (found : k.mutexes.get? id = some mutex)
      (passes : (mutex.unlock thread).1 = .handedOff next) :
      Transition k here (.unlock id) (.ok (.unlocked (.handedOff next)))
        (.stay
          ({ k with mutexes := k.mutexes.replace id (mutex.unlock thread).2 }.makeReady next).1)
  | alreadyEnded {id : ThreadId} (running : k.initialized = true)
      (state : k.stateOf? id = some .terminated) :
      Transition k here (.terminate id) (.ok .done) (.stay k)
  /-- The thread ends, and does not run on the executing processor. -/
  | endedElsewhere {operation : Operation} {id : ThreadId} {thread : Thread}
      (running : k.initialized = true) (asked : k.RequestsEnd here id operation)
      (found : k.threads.get? id = some thread) (alive : thread.state ≠ .terminated)
      (busy : k.isIdle id = false) (elsewhere : k.running? here ≠ some thread.id) :
      Transition k here operation (.ok .done) (.stay (k.ended thread))
  | endedHere {operation : Operation} {id : ThreadId} {thread : Thread}
      (running : k.initialized = true) (asked : k.RequestsEnd here id operation)
      (found : k.threads.get? id = some thread) (alive : thread.state ≠ .terminated)
      (busy : k.isIdle id = false) (current : k.running? here = some thread.id) :
      Transition k here operation (.ok .done) (.dispatch (k.ended thread))
  | threadPointerSet {address : Nat} {id : ThreadId} (running : k.initialized = true)
      (caller : k.caller here = .ok id) :
      Transition k here (.setThreadPointer address) (.ok .done)
        (.stay { k with threads := k.threads.modify id ({ · with tls := address }) })
  | reaped (count : Nat) : Transition k here .reap (.ok (.count count)) (.stay k.reaped)

/-- What a verdict lets a processor do. -/
def Kernel.tickCourse (k : Kernel) (here : Nat) : TickVerdict → Course
  | .keep slice =>
      .stay { k.beforeCharge here with
        cpus := (k.beforeCharge here).cpus.modify here ({ · with slice }) }
  | .preempt id => .dispatch ((k.beforeCharge here).makeReady id).1
  | .replace => .dispatch (k.beforeCharge here)

/-- Once scheduling has begun, a tick of a processor does what it means for the running thread. -/
theorem Transition.course_of_tick {k : Kernel} {here : Nat} {reply : Reply} {course : Course}
    {slot : CpuSlot} (transition : Transition k here .tick (.ok reply) course)
    (begun : k.initialized = true) (found : k.cpus[here]? = some slot) :
    reply = .done ∧ course = k.tickCourse here
      ((k.beforeCharge here).tickVerdict slot (k.elapsed here) (k.bestWoken here)) := by
  cases transition with
  | answered _ _ inquiry => cases inquiry
  | ignored nothing =>
    rcases nothing with fresh | outside
    · cases begun.symm.trans fresh
    · cases found.symm.trans outside
  | kept _ known verdict | preempted _ known verdict | replaced _ known verdict =>
    obtain rfl := Option.some.inj (found.symm.trans known)
    rw [verdict]
    exact ⟨rfl, rfl⟩
  | stayedAwake _ asked | fellAsleep _ _ asked | endedElsewhere _ asked | endedHere _ asked =>
    cases asked

end ThreadScheduler
