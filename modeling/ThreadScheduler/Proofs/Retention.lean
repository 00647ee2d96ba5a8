/-
Module: ThreadScheduler.Proofs.Retention
Purpose: What stays the same in the life of a thread. Its name, policy, context and stacks are fixed
  when its record is made, and the address of its local storage is its own to change. Only threads
  that are created or forgotten, and the beginning of scheduling, concern the stacks.
Main exports: Thread.lasting, Thread.fixed, Kernel.Keeps, Kernel.Retains, Kernel.RecordsChange,
  Kernel.Progresses, Operation.AltersRecords, Transition.keeps_or_alters,
  Transition.retains_or_recordsChange, Machine.config_run
-/
import ThreadScheduler.Proofs.Run

namespace ThreadScheduler

/-- A record without what the scheduler changes on its own. -/
def Thread.lasting (t : Thread) : Thread := { t with state := .ready, waitingOn := none }

/-- A record without what changes in the life of its thread. -/
def Thread.fixed (t : Thread) : Thread := { t.lasting with tls := 0 }

namespace ThreadTable

/-- A table without what the scheduler changes of the records on its own, and without spare room. -/
def lasting (t : ThreadTable) : ThreadTable :=
  { t with
    records :=
      { t.records with slots := t.records.slots.map (Option.map Thread.lasting), capacity := 0 } }

/-- What never changes of the records, slot by slot. -/
def fixed (t : ThreadTable) : List (Option Thread) := t.records.slots.map (Option.map Thread.fixed)

variable {t t' : ThreadTable}

/-- A change of one record shows in nothing that the change keeps. -/
theorem map_slots_modify (t : ThreadTable) (id : ThreadId) {change shown : Thread → Thread}
    (same : ∀ thread, shown (change thread) = shown thread) :
    (t.modify id change).records.slots.map (Option.map shown) =
      t.records.slots.map (Option.map shown) := by
  apply List.ext_getElem?
  intro i
  simp only [modify, SlotTable.modify, List.getElem?_map, List.getElem?_modify]
  by_cases here : id.index = i
  · cases t.records.slots[i]? with
    | none => simp
    | some slot => cases slot <;> simp [here, same]
  · simp [here]

theorem lasting_modify (t : ThreadTable) (id : ThreadId) {change : Thread → Thread}
    (same : ∀ thread, (change thread).lasting = thread.lasting) :
    (t.modify id change).lasting = t.lasting := by
  unfold lasting
  rw [map_slots_modify t id same]
  rfl

theorem fixed_modify (t : ThreadTable) (id : ThreadId) {change : Thread → Thread}
    (same : ∀ thread, (change thread).fixed = thread.fixed) :
    (t.modify id change).fixed = t.fixed :=
  map_slots_modify t id same

/-- What never changes is part of what lasts. -/
theorem fixed_lasting (t : ThreadTable) : t.lasting.fixed = t.fixed := by
  unfold fixed lasting
  rw [List.map_map]
  congr 1
  funext slot
  cases slot <;> rfl

/-- Tables that show the same show the same of every record. -/
theorem map_get?_of_slots {shown : Thread → Thread}
    (same : t'.records.slots.map (Option.map shown) = t.records.slots.map (Option.map shown))
    (id : ThreadId) : (t'.get? id).map shown = (t.get? id).map shown := by
  have slot := congrArg (fun slots => slots[id.index]?.join) same
  simp only [List.getElem?_map] at slot
  have joined (found : Option (Option Thread)) :
      (found.map (Option.map shown)).join = found.join.map shown := by
    rcases found with _ | _ | _ <;> rfl
  rwa [joined, joined] at slot

/-- The records listed are the same, too. -/
theorem toList_fixed (t : ThreadTable) : t.toList.map Thread.fixed = t.fixed.filterMap id := by
  rw [toList, SlotTable.toList, fixed, List.filterMap_map, List.map_filterMap]
  rfl

end ThreadTable

namespace Kernel

variable {k k' k'' : Kernel} {here : Nat} {id : ThreadId} {thread : Thread}

/-- No record is made, forgotten or changed but for where its thread is, and the stacks stay where
they are. -/
structure Keeps (k k' : Kernel) : Prop where
  config : k'.config = k.config
  pool : k'.pool = k.pool
  heap : k.heap.Spends k'.heap
  lasting : k'.threads.lasting = k.threads.lasting

/-- No record is made or forgotten, and the stacks stay where they are. -/
structure Retains (k k' : Kernel) : Prop where
  config : k'.config = k.config
  pool : k'.pool = k.pool
  heap : k.heap.Spends k'.heap
  fixed : k'.threads.fixed = k.threads.fixed

/-- A thread that has a record had it before, with the same stack. -/
theorem Retains.exists_record (retains : k.Retains k') (found : k'.threads.get? id = some thread) :
    ∃ old, k.threads.get? id = some old ∧ old.pooledStack = thread.pooledStack := by
  have same := ThreadTable.map_get?_of_slots retains.fixed id
  rw [found] at same
  obtain ⟨old, present, fixed⟩ := Option.map_eq_some_iff.mp same.symm
  exact ⟨old, present, by
    simpa only [Thread.fixed, Thread.lasting] using congrArg Thread.pooledStack fixed⟩

namespace Keeps

theorem refl (k : Kernel) : k.Keeps k := ⟨rfl, rfl, .refl _, rfl⟩

theorem trans (first : k.Keeps k') (later : k'.Keeps k'') : k.Keeps k'' where
  config := later.config.trans first.config
  pool := later.pool.trans first.pool
  heap := first.heap.trans later.heap
  lasting := later.lasting.trans first.lasting

/-- What the scheduler does on its own retains the records. -/
theorem retains (keeps : k.Keeps k') : k.Retains k' where
  config := keeps.config
  pool := keeps.pool
  heap := keeps.heap
  fixed := by rw [← ThreadTable.fixed_lasting, keeps.lasting, ThreadTable.fixed_lasting]

/-- No handle is given out. -/
theorem mark (keeps : k.Keeps k') : k'.threads.mark = k.threads.mark := by
  have slots := congrArg (fun table => table.records.slots.length) keeps.lasting
  simp only [ThreadTable.lasting, List.length_map] at slots
  exact slots

/-- A thread has the record it had but for where it is. -/
theorem get? (keeps : k.Keeps k') (id : ThreadId) :
    (k'.threads.get? id).map Thread.lasting = (k.threads.get? id).map Thread.lasting :=
  ThreadTable.map_get?_of_slots (congrArg (·.records.slots) keeps.lasting) id

/-- A thread that has a record had it before, with the same address of its local storage. -/
theorem exists_tls (keeps : k.Keeps k') (found : k'.threads.get? id = some thread) :
    ∃ old, k.threads.get? id = some old ∧ old.tls = thread.tls := by
  have same := keeps.get? id
  rw [found] at same
  obtain ⟨old, present, lasting⟩ := Option.map_eq_some_iff.mp same.symm
  exact ⟨old, present, by simpa only [Thread.lasting] using congrArg Thread.tls lasting⟩

theorem of_modify (k : Kernel) (id : ThreadId) {change : Thread → Thread}
    (same : ∀ thread, (change thread).lasting = thread.lasting) :
    k.Keeps { k with threads := k.threads.modify id change } :=
  ⟨rfl, rfl, .refl _, k.threads.lasting_modify id same⟩

theorem of_makeReady (k : Kernel) (id : ThreadId) : k.Keeps (k.makeReady id).1 := by
  unfold makeReady
  split
  · exact refl k
  · rename_i thread _
    have marked : k.Keeps
        { k with threads := k.threads.modify id ({ · with state := .ready, waitingOn := none }) } :=
      of_modify k id fun _ => rfl
    apply marked.trans
    obtain ⟨_, _, same⟩ := enqueueReady_frame
      { k with threads := k.threads.modify id ({ · with state := .ready, waitingOn := none }) }
      id thread.policy
    rw [same]
    exact ⟨rfl, rfl, .refl _, rfl⟩

theorem of_makeReadyAll (ids : List ThreadId) (k : Kernel) : k.Keeps (k.makeReadyAll ids) := by
  induction ids generalizing k with
  | nil => exact refl k
  | cons id rest ih => exact (of_makeReady k id).trans (ih _)

theorem of_beforeCharge (k : Kernel) (here : Nat) : k.Keeps (k.beforeCharge here) := by
  unfold beforeCharge
  split
  · have passed : k.Keeps { k with
        timer := k.timer.interrupt.2
        sleeping := (k.sleeping.advance k.timer.interrupt.1).drain.2 } := ⟨rfl, rfl, .refl _, rfl⟩
    exact passed.trans (of_makeReadyAll _ _)
  · exact refl k

theorem of_passOn (owner : ThreadId) (k : Kernel) (id : MutexId) :
    k.Keeps (k.passOn owner id) := by
  unfold passOn
  split
  · exact refl k
  · rename_i nextOwner mutex _
    have replaced : k.Keeps { k with mutexes := k.mutexes.replace id mutex } :=
      ⟨rfl, rfl, .refl _, rfl⟩
    exact replaced.trans (of_makeReady _ nextOwner)
  · exact ⟨rfl, rfl, .refl _, rfl⟩

theorem of_passAll (owner : ThreadId) (ids : List MutexId) (k : Kernel) :
    k.Keeps (ids.foldl (Kernel.passOn owner) k) := by
  induction ids generalizing k with
  | nil => exact refl k
  | cons id rest ih => exact (of_passOn owner k id).trans (ih _)

theorem of_markTerminated (k : Kernel) (id : ThreadId) : k.Keeps (k.markTerminated id) := by
  have marked : (k.threads.modify id ({ · with state := .terminated, waitingOn := none })).lasting =
      k.threads.lasting := k.threads.lasting_modify id fun _ => rfl
  exact ⟨rfl, rfl, .refl _, marked⟩

theorem of_ended (k : Kernel) (thread : Thread) : k.Keeps (k.ended thread) := by
  have left : k.Keeps (k.detached thread) := by
    obtain ⟨_, _, _, same⟩ := detached_frame k thread
    rw [same]
    exact ⟨rfl, rfl, .refl _, rfl⟩
  have passed := left.trans (of_passAll thread.id
    ((k.detached thread).mutexes.ownedBy thread.id) (k.detached thread))
  exact passed.trans (of_markTerminated _ thread.id)

theorem of_redispatch (k : Kernel) (here : Nat) : k.Keeps (k.redispatch here) := by
  have counted (switch : Option Switch) (k : Kernel) : k.Keeps (Call.countSwitch switch k) := by
    cases switch <;> exact ⟨rfl, rfl, .refl _, rfl⟩
  have set (threads : ThreadTable) (id : ThreadId) (state : ThreadState) :
      (threads.setState id state).lasting = threads.lasting :=
    threads.lasting_modify id fun _ => rfl
  have dispatched : k.Keeps (k.dispatch here).1 := by
    unfold dispatch
    split
    · exact refl k
    · split
      · exact refl k
      · rename_i next ready _
        have installed : k.Keeps ({ k with ready }.install here next) :=
          ⟨rfl, rfl, .refl _, set _ _ _⟩
        dsimp only
        split
        · exact installed
        · split
          · exact installed
          · refine installed.trans ⟨rfl, rfl, .refl _, ?_⟩
            unfold depart
            dsimp only
            split
            · exact set _ _ _
            · rfl
  exact dispatched.trans (counted _ _)

/-- Becoming an idle thread is no change of stacks. -/
theorem of_withIdle (k : Kernel) (bootstrap idle : ThreadId) (cpu : Nat) :
    k.Keeps (k.withIdle bootstrap idle cpu) := by
  refine ⟨rfl, rfl, .refl _, ?_⟩
  unfold withIdle
  dsimp only
  split
  · rfl
  · exact k.threads.lasting_modify idle fun _ => rfl

end Keeps

end Kernel

/-- How far the beginning of scheduling can get that fails, and what is left of it by then: there is
no bootstrap thread, or some of the processors have their idle threads. -/
inductive Kernel.Progresses (k : Kernel) (timer : PeriodicTimer) (entry : Nat)
    (bootStack : Option StackBounds) : Kernel → Prop where
  | none {heap : Heap} (asked : k.heap.Spends heap) :
      Progresses k timer entry bootStack { k with timer, heap }
  | some {bootstrap : ThreadId} {served : List Nat} {adopted : Kernel} {heap heap' : Heap}
      {capacity capacity' : Nat}
      (reserved : k.threads.reserve k.heap = (.ok bootstrap, k.threads.withCapacity capacity, heap))
      (adopts : AdoptsCpus bootstrap entry served
        (({ k with timer }.withRoom heap capacity).withBootstrap bootstrap bootStack) adopted)
      (asked : adopted.heap.Spends heap') :
      Progresses k timer entry bootStack (adopted.withRoom heap' capacity')

/-- How the operations that make or forget records, or that take or give back stacks, change a
kernel. -/
inductive Kernel.RecordsChange (k : Kernel) :
    Operation → Except SchedulerError Reply → Kernel → Prop where
  /-- Scheduling begins. -/
  | booted {entry : Nat} {bootStack : Option StackBounds} {timer : PeriodicTimer}
      {bootstrap : ThreadId} {after : Kernel} {heap : Heap} {capacity : Nat}
      (fresh : k.initialized = false)
      (reserved : k.threads.reserve k.heap = (.ok bootstrap, k.threads.withCapacity capacity, heap))
      (adopted : AdoptsCpus bootstrap entry (List.range k.config.cpus)
        (({ k with timer }.withRoom heap capacity).withBootstrap bootstrap bootStack) after) :
      RecordsChange k (.init entry bootStack) (.ok (.threadId bootstrap))
      { after with initialized := true }
  /-- Scheduling does not begin, and the threads made so far are discarded. -/
  | discarded {entry : Nat} {bootStack : Option StackBounds} {timer : PeriodicTimer}
      {partway : Kernel} (error : SchedulerError) (fresh : k.initialized = false)
      (progress : k.Progresses timer entry bootStack partway) :
      RecordsChange k (.init entry bootStack) (.error error) (partway.discarded k.threads.mark)
  | spawned {spec : ThreadSpec} {id : ThreadId} {admitted : Kernel}
      (admits : k.Admits spec id admitted) :
      RecordsChange k (.spawn spec) (.ok (.threadId id)) (admitted.enqueueReady id spec.policy).1
  | reaped (count : Nat) : RecordsChange k .reap (.ok (.count count)) k.reaped

/-- Whether an operation may make or forget records, or change what lasts of them. -/
def Operation.AltersRecords : Operation → Prop
  | .init _ _ | .spawn _ | .setThreadPointer _ | .reap => True
  | _ => False

namespace Operation.AltersRecords

variable {operation : Operation}

theorem not_inquiry (alters : operation.AltersRecords) : ¬ operation.IsInquiry := by
  intro inquiry
  cases operation with
  | init | spawn | setThreadPointer | reap => exact inquiry
  | _ => exact alters

theorem wakeAt?_eq_none (alters : operation.AltersRecords) (now : Instant) :
    operation.wakeAt? now = none := by
  cases operation with
  | sleepUntil | sleepFor => exact alters.elim
  | _ => rfl

theorem not_requestsEnd (alters : operation.AltersRecords) (k : Kernel) (here : Nat)
    (id : ThreadId) :
    ¬ k.RequestsEnd here id operation := by
  intro asked
  cases operation with
  | terminate | exit => exact alters
  | _ => exact asked

end Operation.AltersRecords

open Kernel in
/-- Every other operation keeps the records and the stacks, but for the caller that sets the address
of its local storage. Operations of the sorts that may do otherwise keep them only when they are
refused. -/
theorem Transition.keeps_or_alters {k : Kernel} {here : Nat} {operation : Operation}
    {result : Except SchedulerError Reply} {course : Course}
    (h : Transition k here operation result course) :
    (k.Keeps (course.kernel here) ∧
        (operation.AltersRecords → ∃ error, result = .error error)) ∨
      (∃ address id, operation = .setThreadPointer address ∧ result = .ok .done ∧
        k.caller here = .ok id ∧ course.kernel here =
          { k with threads := k.threads.modify id ({ · with tls := address }) }) ∨
        k.RecordsChange operation result (course.kernel here) := by
  cases h with
  | booted fresh _ reserved adopted => exact .inr (.inr (.booted fresh reserved adopted))
  | bootstrapRefused error fresh _ asked =>
    exact .inr (.inr (.discarded error fresh (.none asked)))
  | idleRefused error fresh _ reserved adopted asked =>
    exact .inr (.inr (.discarded error fresh (.some reserved adopted asked)))
  | spawned _ admits => exact .inr (.inr (.spawned admits))
  | reaped count => exact .inr (.inr (.reaped count))
  | threadPointerSet _ caller => exact .inr (.inl ⟨_, _, rfl, rfl, caller, rfl⟩)
  -- All other transitions keep the records but for where the threads are.
  | refused _ error => exact .inl ⟨.refl k, fun _ => ⟨error, rfl⟩⟩
  | denied error _ asked => exact .inl ⟨⟨rfl, rfl, asked, rfl⟩, fun _ => ⟨error, rfl⟩⟩
  | answered _ _ inquiry => exact .inl ⟨.refl k, fun alters => absurd inquiry alters.not_inquiry⟩
  | vacated => exact .inl ⟨.of_redispatch k here, False.elim⟩
  | yielded => exact .inl ⟨(Keeps.of_makeReady k _).trans (.of_redispatch _ here), False.elim⟩
  | kept =>
    have passed := Keeps.of_beforeCharge k here
    exact .inl ⟨⟨passed.config, passed.pool, passed.heap, passed.lasting⟩, False.elim⟩
  | preempted =>
    have passed := Keeps.of_beforeCharge k here
    exact .inl ⟨(passed.trans (.of_makeReady _ _)).trans (.of_redispatch _ here), False.elim⟩
  | replaced =>
    exact .inl ⟨(Keeps.of_beforeCharge k here).trans (.of_redispatch _ here), False.elim⟩
  | stayedAwake _ asked =>
    refine .inl ⟨.refl k, fun alters => ?_⟩
    cases (alters.wakeAt?_eq_none _).symm.trans asked
  | @fellAsleep _ wake id _ _ asked =>
    have asleep : k.Keeps { k with
        threads := k.threads.setState id .sleeping
        sleeping := k.sleeping.enqueue id wake } :=
      ⟨rfl, rfl, .refl _, k.threads.lasting_modify id fun _ => rfl⟩
    refine .inl ⟨asleep.trans (.of_redispatch _ here), fun alters => ?_⟩
    cases (alters.wakeAt?_eq_none _).symm.trans asked
  | @blocked id thread mutex =>
    have waiting : k.Keeps { k with
        mutexes := k.mutexes.replace id (mutex.lock thread).2
        threads := k.threads.modify thread ({ · with state := .blocked, waitingOn := some id }) } :=
      ⟨rfl, rfl, .refl _, k.threads.lasting_modify thread fun _ => rfl⟩
    exact .inl ⟨waiting.trans (.of_redispatch _ here), False.elim⟩
  | @handedOff id thread next mutex =>
    have passed : k.Keeps { k with mutexes := k.mutexes.replace id (mutex.unlock thread).2 } :=
      ⟨rfl, rfl, .refl _, rfl⟩
    exact .inl ⟨passed.trans (.of_makeReady _ next), False.elim⟩
  | endedElsewhere _ asked =>
    exact .inl ⟨.of_ended k _, fun alters => absurd asked (alters.not_requestsEnd k here _)⟩
  | endedHere _ asked =>
    exact .inl ⟨(Keeps.of_ended k _).trans (.of_redispatch _ here),
      fun alters => absurd asked (alters.not_requestsEnd k here _)⟩
  | mutexCreated created =>
    exact .inl ⟨⟨rfl, rfl, MutexTable.spends_of_create created, rfl⟩, False.elim⟩
  | subscribed | timerStarted | timerStopped | timerInterrupted | idleYielded | ignored
  | mutexReleased | locked | unlocked | alreadyEnded =>
    exact .inl ⟨⟨rfl, rfl, .refl _, rfl⟩, False.elim⟩

/-- Every other operation leaves the stacks where they are. -/
theorem Transition.retains_or_recordsChange {k : Kernel} {here : Nat} {operation : Operation}
    {result : Except SchedulerError Reply} {course : Course}
    (h : Transition k here operation result course) :
    k.Retains (course.kernel here) ∨ k.RecordsChange operation result (course.kernel here) := by
  rcases h.keeps_or_alters with ⟨keeps, _⟩ | ⟨address, id, _, _, _, same⟩ | recordsChange
  · exact .inl keeps.retains
  · rw [same]
    exact .inl ⟨rfl, rfl, .refl _, k.threads.fixed_modify id fun _ => rfl⟩
  · exact .inr recordsChange

/-- The configuration never changes. -/
theorem Transition.config {k : Kernel} {here : Nat} {operation : Operation}
    {result : Except SchedulerError Reply} {course : Course}
    (h : Transition k here operation result course) :
    (course.kernel here).config = k.config := by
  rcases h.retains_or_recordsChange with retains | recordsChange
  · exact retains.config
  · generalize course.kernel here = after at recordsChange
    cases recordsChange with
    | booted _ _ adopted =>
      obtain ⟨_, _, _, _, rfl⟩ := adopted.frame
      rfl
    | discarded _ _ progress =>
      cases progress with
      | none => rfl
      | some _ adopts =>
        obtain ⟨_, _, _, _, rfl⟩ := adopts.frame
        rfl
    | spawned admits =>
      obtain ⟨_, _, _, _, _, _, _, rfl⟩ := admits.registers
      obtain ⟨_, _, same⟩ := Kernel.enqueueReady_frame _ _ _
      rw [same]
    | reaped =>
      obtain ⟨_, _, _, same⟩ := Kernel.reaped_frame k
      rw [same]

/-- A run keeps the configuration. -/
theorem Machine.config_run (m : Machine) (requests : List Request) :
    (m.run requests).kernel.config = m.kernel.config := by
  induction requests generalizing m with
  | nil => rfl
  | cons request rest ih =>
    obtain ⟨course, transition, same⟩ := m.transition_of_execute request.cpu request.operation
    refine (ih _).trans ?_
    rw [same, transition.config]

end ThreadScheduler
