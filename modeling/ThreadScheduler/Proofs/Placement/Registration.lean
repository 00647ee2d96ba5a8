/-
Module: ThreadScheduler.Proofs.Placement.Registration
Purpose: Threads get their first place when they are registered, and lose their last one when they
  are reaped.
Main exports: Kernel.Registers, Kernel.Admits.registers, Kernel.Placement.of_spawned,
  Kernel.Placement.reaped
-/
import ThreadScheduler.Proofs.Placement.Steps

namespace ThreadScheduler.Kernel

variable {k k' : Kernel} {id : ThreadId} {thread : Thread}

/-- A record is added for a thread that had none. -/
structure Registers (k k' : Kernel) (id : ThreadId) (thread : Thread) : Prop where
  fresh : k.threads.get? id = none
  threads : ∀ other, k'.threads.get? other =
    if other = id then some thread else k.threads.get? other
  handle : thread.id = id
  free : thread.waitingOn = none
  awake : thread.state ≠ .blocked
  served : thread.policy ∈ k.ready.policies

namespace Registers

theorem place?_fresh (registers : k.Registers k' id thread) : k.place? id = none := by
  simp [place?, registers.fresh]

theorem found (registers : k.Registers k' id thread) : k'.threads.get? id = some thread := by
  rw [registers.threads, if_pos rfl]

theorem records (registers : k.Registers k' id thread) (h : k.Records)
    (mutexes : k'.mutexes = k.mutexes) (policies : k'.ready.policies = k.ready.policies) :
    k'.Records := by
  constructor
  · intro other record found
    rw [registers.threads] at found
    split at found
    · rename_i same
      rw [← Option.some.inj found, registers.handle, same]
    · exact h.handle found
  · intro m mutex found
    exact h.mutexHandle (mutexes ▸ found)
  · intro other record found
    rw [registers.threads] at found
    split at found
    · rw [← Option.some.inj found, registers.free]
      simp [registers.awake]
    · exact h.waits found
  · intro other record found
    rw [policies]
    rw [registers.threads] at found
    split at found
    · rw [← Option.some.inj found]
      exact registers.served
    · exact h.served found
  · unfold ReadyQueue.Ordered
    rw [policies]
    exact h.ordered

/-- A thread without a record is the idle thread of no processor. -/
theorem not_idle (registers : k.Registers k' id thread) (h : k.Occupied) :
    k.isIdle id = false := by
  cases idle : k.isIdle id with
  | false => rfl
  | true =>
    obtain ⟨cpu, owned⟩ := isIdle_iff.mp idle
    have nowhere := registers.place?_fresh
    rcases h.idle owned with stands | stands
    · cases nowhere.symm.trans stands
    · cases nowhere.symm.trans stands

end Registers

/-- A thread that is admitted gets the record described. -/
theorem Admits.registers {spec : ThreadSpec} {admitted : Kernel}
    (admits : k.Admits spec id admitted) :
    ∃ thread : Thread, thread.policy = spec.policy ∧ thread.state = .ready ∧
      k.Registers admitted id thread ∧
      ∃ threads pool heap, admitted = { k with threads, pool, heap } := by
  obtain ⟨next, fresh⟩ := admits.next
  obtain ⟨capacity, _, stack, pool, heap, _, _, rfl⟩ := admits.granted
  refine ⟨(spec.toThread id).prepare stack spec.entry spec.argument, rfl, rfl,
    ⟨fresh, fun other => ?_, rfl, rfl, nofun, ReadyQueue.hasLevel_iff.mp admits.served⟩,
    _, _, _, rfl⟩
  rw [next]
  exact k.threads.get?_push_withCapacity capacity _ other

/-- A thread that is admitted gets a handle that was never given out. -/
theorem Admits.mark_eq {spec : ThreadSpec} {admitted : Kernel}
    (admits : k.Admits spec id admitted) :
    admitted.threads.mark = k.threads.mark + 1 ∧ id.index = k.threads.mark := by
  obtain ⟨rfl, _⟩ := admits.next
  obtain ⟨_, _, _, _, _, _, _, rfl⟩ := admits.granted
  exact ⟨List.length_append, Handle.index_ofIndex _⟩

/-- A thread that is created waits for a processor. -/
theorem Placement.of_spawned {spec : ThreadSpec} {admitted : Kernel} (h : k.Placement)
    (admits : k.Admits spec id admitted) :
    (admitted.enqueueReady id spec.policy).1.Placement := by
  obtain ⟨thread, policy, ready, registers, threads, pool, heap, rfl⟩ := admits.registers
  have room : (k.ready.enqueue id spec.policy).isSome :=
    ReadyQueue.enqueue_isSome_iff.mpr (policy ▸ registers.served)
  obtain ⟨queue, queued⟩ := Option.isSome_iff_exists.mp room
  have after : (({ k with threads, pool, heap } : Kernel).enqueueReady id spec.policy).1 =
      { k with threads, pool, heap, ready := queue } := by
    simp [enqueueReady, queued]
  have levels := ReadyQueue.threadsAt_of_enqueue queued
  have busy := registers.not_idle h.occupied
  rw [after]
  have registers : k.Registers { k with threads, pool, heap, ready := queue } id thread :=
    ⟨registers.fresh, registers.threads, registers.handle, registers.free, registers.awake,
      registers.served⟩
  -- The thread comes from nowhere and goes to the end of its level.
  have moves : k.Moves { k with threads, pool, heap, ready := queue } id none
      (some (.inside (.level thread.policy))) := by
    refine ⟨registers.place?_fresh, by simp, fun other => ?_, by simp, fun c same => ?_,
      fun c _ away => ?_⟩
    · split
      · rename_i same
        rw [same, place?_of_found registers.found]
        exact congrArg some (Thread.place_eq_level_iff.mpr ⟨ready, busy, rfl⟩)
      · rename_i distinct
        exact place?_congr (by rw [registers.threads, if_neg distinct]) fun _ => rfl
    · obtain rfl := Place.inside.inj (Option.some.inj same)
      simp only [members, levels, policy, if_true]
      exact List.perm_append_singleton _ _
    · cases c with
      | level other =>
        have distinct : other ≠ spec.policy := fun same => away (by rw [same, policy])
        simp only [members, levels, if_neg distinct]
      | _ => rfl
  refine ⟨registers.records h.records rfl (ReadyQueue.policies_of_enqueue queued), ?_,
    moves.listed h.listed⟩
  refine h.occupied.of_moves moves rfl busy (fun cpu runs => ?_) (by simp) (by simp)
  rcases h.occupied.place_of_running runs with stands | stands
  · cases registers.place?_fresh.symm.trans stands
  · cases registers.place?_fresh.symm.trans stands

/-! ### Reaping -/

theorem isReferenced_eq_false {cpu : Nat} {slot : CpuSlot} (free : k.isReferenced id = false)
    (found : k.cpus[cpu]? = some slot) : slot.running ≠ some id ∧ slot.previous ≠ some id := by
  simp only [isReferenced, List.any_eq_false, decide_eq_true_eq, not_or] at free
  exact free slot (List.mem_of_getElem? found)

private theorem reapThread_terminated (k : Kernel) (id : ThreadId) (terminated : List ThreadId) :
    { k with terminated }.reapThread id = { k.reapThread id with terminated } := by
  unfold reapThread
  dsimp only
  rcases k.threads.remove id with _ | ⟨thread, threads⟩
  · rfl
  · dsimp only
    cases thread.pooledStack <;> rfl

/-- The record of a thread is taken out, and its stack is given back. -/
theorem reapThread_of_remove {threads : ThreadTable}
    (removed : k.threads.remove id = some (thread, threads)) :
    ∃ pool heap, k.reapThread id = { k with threads, pool, heap } := by
  unfold reapThread
  rw [removed]
  dsimp only
  cases thread.pooledStack <;> exact ⟨_, _, rfl⟩

theorem threads_reapThread (k : Kernel) (id : ThreadId) :
    (k.reapThread id).threads = (k.threads.remove id).elim k.threads (·.2) := by
  cases removed : k.threads.remove id with
  | none => simp [reapThread, removed]
  | some removal =>
    obtain ⟨pool, heap, same⟩ := reapThread_of_remove removed
    rw [same]
    rfl

/-- Forgetting threads concerns their records and their stacks only. -/
theorem reapAll_frame (ids : List ThreadId) (k : Kernel) :
    ∃ threads pool heap, ids.foldl reapThread k = { k with threads, pool, heap } := by
  induction ids generalizing k with
  | nil => exact ⟨_, _, _, rfl⟩
  | cons id rest ih =>
    have first : ∃ threads pool heap, k.reapThread id = { k with threads, pool, heap } := by
      cases removed : k.threads.remove id with
      | none => exact ⟨k.threads, k.pool, k.heap, by simp [reapThread, removed]⟩
      | some removal => exact ⟨removal.2, reapThread_of_remove removed⟩
    obtain ⟨threads, pool, heap, same⟩ := first
    rw [List.foldl_cons, same]
    exact ih _

theorem reaped_frame (k : Kernel) :
    ∃ threads pool heap, k.reaped =
      { k with threads, pool, heap, terminated := k.terminated.filter k.isReferenced } :=
  reapAll_frame _ _

theorem mutexes_reaped (k : Kernel) : k.reaped.mutexes = k.mutexes := by
  obtain ⟨threads, pool, heap, same⟩ := reaped_frame k
  rw [same]

/-- A thread that is not forgotten keeps its record. -/
theorem get?_reapAll (ids : List ThreadId) (k : Kernel) {other : ThreadId} (kept : other ∉ ids) :
    (ids.foldl reapThread k).threads.get? other = k.threads.get? other := by
  induction ids generalizing k with
  | nil => rfl
  | cons id rest ih =>
    rw [List.mem_cons, not_or] at kept
    apply (ih _ kept.2).trans
    rw [threads_reapThread]
    cases removed : k.threads.remove id with
    | none => rfl
    | some removal => exact (ThreadTable.get?_of_remove removed other).trans (if_neg kept.1)

theorem cpus_reapThread (k : Kernel) (id : ThreadId) : (k.reapThread id).cpus = k.cpus := by
  obtain ⟨threads, pool, heap, same⟩ := reapAll_frame [id] k
  exact (congrArg cpus same :)

private theorem moves_reapThread {rest : List ThreadId} (h : k.Placement)
    (split : k.terminated.Perm (id :: rest)) :
    k.Moves ({ k with terminated := rest }.reapThread id) id (some (.inside .ended)) none ∧
      ({ k with terminated := rest }.reapThread id).Records := by
  have stands : k.place? id = some (.inside .ended) :=
    ((h.listed .ended).mem_iff id).mp (split.mem_iff.mpr List.mem_cons_self)
  obtain ⟨thread, found, _⟩ := exists_thread_of_place? stands
  obtain ⟨⟨taken, threads⟩, removed⟩ : ∃ removal, k.threads.remove id = some removal := by
    apply Option.ne_none_iff_exists'.mp
    intro none
    rw [ThreadTable.remove_eq_none_iff, found] at none
    cases none
  have lookup := ThreadTable.get?_of_remove removed
  obtain ⟨pool, heap, after⟩ := reapThread_of_remove (k := { k with terminated := rest }) removed
  rw [after]
  constructor
  · refine ⟨stands, nofun, fun other => ?_, fun c same => ?_, nofun, fun c outside _ => ?_⟩
    · split
      · rename_i same
        simp [place?, lookup, same]
      · rename_i distinct
        exact place?_congr ((lookup other).trans (if_neg distinct)) fun _ => rfl
    · obtain rfl := Place.inside.inj (Option.some.inj same)
      exact split
    · cases c with
      | ended => exact absurd rfl outside
      | _ => rfl
  · have older {other : ThreadId} {record : Thread} (present : threads.get? other = some record) :
        k.threads.get? other = some record := by
      rw [lookup] at present
      split at present
      · cases present
      · exact present
    exact ⟨fun present => h.records.handle (older present), h.records.mutexHandle,
      fun present => h.records.waits (older present),
      fun present => h.records.served (older present), h.records.ordered⟩

/-- Forgetting terminated threads that no processor needs leaves everybody else in place. -/
theorem Placement.of_reaped (gone : List ThreadId) {kept : List ThreadId} (h : k.Placement)
    (split : k.terminated.Perm (gone ++ kept))
    (free : ∀ id ∈ gone, k.isReferenced id = false) :
    (gone.foldl reapThread { k with terminated := kept }).Placement := by
  induction gone generalizing k with
  | nil => exact h.of_eq rfl rfl rfl rfl rfl split.symm
  | cons id gone ih =>
    -- The threads that are still to be reaped stay among the terminated ones for the moment.
    obtain ⟨moves, records⟩ := moves_reapThread h split
    have stands := moves.before
    have unused := free id List.mem_cons_self
    have next : ({ k with terminated := gone ++ kept }.reapThread id).Placement := by
      refine ⟨records, ?_, moves.listed h.listed⟩
      refine h.occupied.of_moves moves (cpus_reapThread _ _) (h.busy_of_place stands)
        (fun cpu runs => ?_) nofun fun _ cpu slot found => (isReferenced_eq_false unused found).2
      obtain ⟨slot, found, same⟩ := Option.bind_eq_some_iff.mp runs
      exact absurd same (isReferenced_eq_false unused found).1
    have done := ih next (by rw [reapThread_terminated]) fun other member => by
      simpa only [isReferenced, cpus_reapThread] using free other (List.mem_cons_of_mem _ member)
    rw [List.foldl_cons, reapThread_terminated]
    rw [reapThread_terminated] at done
    exact done

theorem Placement.reaped (h : k.Placement) : k.reaped.Placement := by
  refine h.of_reaped _ ?_ fun id member => ?_
  · exact (List.filter_append_perm k.isReferenced k.terminated).symm.trans List.perm_append_comm
  · simpa using (List.mem_filter.mp member).2

end ThreadScheduler.Kernel
