/-
Module: ThreadScheduler.Proofs.Placement.Changes
Purpose: The changes that move one thread. A change of one record and of the containers it concerns
  is a move, and a thread that becomes ready is one such change whatever list it comes from.
Main exports: Kernel.Amends, Kernel.Records.of_amends, Kernel.Moves.of_amends,
  Kernel.Placement.of_same, Kernel.exists_ready_of_makeReady, Kernel.Unlists.moves_makeReady,
  Kernel.Unlists.moves_markTerminated
-/
import ThreadScheduler.Proofs.Placement.Processors
import ThreadScheduler.Proofs.Transition

namespace ThreadScheduler

namespace Kernel

variable {k k' k'' : Kernel} {id : ThreadId} {thread : Thread} {change : Thread → Thread}
  {origin target : Option Place}

/-- The record of one thread changes and no other one does. -/
def Amends (k k' : Kernel) (id : ThreadId) (change : Thread → Thread) : Prop :=
  ∀ other, k'.threads.get? other =
    if other = id then (k.threads.get? id).map change else k.threads.get? other

theorem amends_of_modify (threads : k'.threads = k.threads.modify id change) :
    k.Amends k' id change := by
  intro other
  rw [threads, ThreadTable.get?_modify]

theorem Amends.found (amends : k.Amends k' id change) (found : k.threads.get? id = some thread) :
    k'.threads.get? id = some (change thread) := by
  rw [amends, if_pos rfl, found]
  rfl

theorem Amends.other (amends : k.Amends k' id change) {other : ThreadId} (distinct : other ≠ id) :
    k'.threads.get? other = k.threads.get? other := by
  rw [amends, if_neg distinct]

theorem place?_of_found (found : k.threads.get? id = some thread) :
    k.place? id = some (thread.place (k.isIdle id)) := by
  simp [place?, found]

/-- A thread that has a place has a record. -/
theorem exists_thread_of_place? {place : Place} (stands : k.place? id = some place) :
    ∃ thread, k.threads.get? id = some thread ∧ thread.place (k.isIdle id) = place :=
  Option.map_eq_some_iff.mp stands

theorem place?_congr (threads : k'.threads.get? id = k.threads.get? id)
    (idle : ∀ cpu, k'.idle? cpu = k.idle? cpu) : k'.place? id = k.place? id := by
  rw [place?, threads, isIdle_congr idle, place?]

namespace Records

/-- A change that leaves handle and policy of a record alone and waits only when blocked. -/
theorem of_amends (h : k.Records) (amends : k.Amends k' id change)
    (keeps : ∀ thread, (change thread).id = thread.id ∧ (change thread).policy = thread.policy)
    (waits : ∀ thread, k.threads.get? id = some thread →
      ((change thread).waitingOn.isSome ↔ (change thread).state = .blocked))
    (handles : ∀ {m mutex}, k'.mutexes.get? m = some mutex → mutex.handle = m)
    (policies : k'.ready.policies = k.ready.policies) : k'.Records := by
  constructor
  · intro other thread found
    rw [amends] at found
    split at found
    · rename_i same
      obtain ⟨old, present, rfl⟩ := Option.map_eq_some_iff.mp found
      exact (keeps old).1.trans ((h.handle present).trans same.symm)
    · exact h.handle found
  · exact handles
  · intro other thread found
    rw [amends] at found
    split at found
    · obtain ⟨old, present, rfl⟩ := Option.map_eq_some_iff.mp found
      exact waits old present
    · exact h.waits found
  · intro other thread found
    rw [policies]
    rw [amends] at found
    split at found
    · obtain ⟨old, present, rfl⟩ := Option.map_eq_some_iff.mp found
      rw [(keeps old).2]
      exact h.served present
    · exact h.served found
  · unfold ReadyQueue.Ordered
    rw [policies]
    exact h.ordered

/-- A change that is not to any record. -/
theorem of_same (h : k.Records) (threads : ∀ id, k'.threads.get? id = k.threads.get? id)
    (handles : ∀ {m mutex}, k'.mutexes.get? m = some mutex → mutex.handle = m)
    (policies : k'.ready.policies = k.ready.policies) : k'.Records := by
  constructor
  · intro id thread found
    exact h.handle (threads id ▸ found)
  · exact handles
  · intro id thread found
    exact h.waits (threads id ▸ found)
  · intro id thread found
    rw [policies]
    exact h.served (threads id ▸ found)
  · unfold ReadyQueue.Ordered
    rw [policies]
    exact h.ordered

end Records

theorem Occupied.of_places (h : k.Occupied) (place : ∀ id, k'.place? id = k.place? id)
    (running : ∀ cpu, k'.running? cpu = k.running? cpu)
    (idle : ∀ cpu, k'.idle? cpu = k.idle? cpu)
    (previous : ∀ {cpu : Nat} {slot' : CpuSlot}, k'.cpus[cpu]? = some slot' →
      ∃ slot, k.cpus[cpu]? = some slot ∧ slot'.previous = slot.previous) : k'.Occupied := by
  constructor
  · intro cpu id found
    rw [place]
    exact h.place_of_running (running cpu ▸ found)
  · intro id stands
    rw [place] at stands
    simpa only [running] using h.running_of_place stands
  · intro a b id first second
    rw [running] at first second
    exact h.one first second
  · intro cpu id found
    rw [place]
    exact h.idle (idle cpu ▸ found)
  · intro a b id first second
    rw [idle] at first
    rw [running] at second
    exact h.home first second
  · intro a b id first second
    rw [idle] at first second
    exact h.own first second
  · intro cpu slot' id found last
    obtain ⟨slot, present, same⟩ := previous found
    rw [← isSome_place?, place, isSome_place?]
    exact h.previous present (same ▸ last)

/-- Two kernels with the same places, lists and processors agree or disagree alike. The order in the
lists does not matter. -/
theorem Placement.of_places (h : k.Placement) (records : k'.Records)
    (place : ∀ id, k'.place? id = k.place? id)
    (running : ∀ cpu, k'.running? cpu = k.running? cpu)
    (idle : ∀ cpu, k'.idle? cpu = k.idle? cpu)
    (previous : ∀ {cpu : Nat} {slot' : CpuSlot}, k'.cpus[cpu]? = some slot' →
      ∃ slot, k.cpus[cpu]? = some slot ∧ slot'.previous = slot.previous)
    (members : ∀ c, (k'.members c).Perm (k.members c)) : k'.Placement := by
  refine ⟨records, h.occupied.of_places place running idle previous, fun c => ?_⟩
  have old := h.listed c
  refine ⟨(members c).nodup_iff.mpr old.once, fun id => ?_⟩
  rw [(members c).mem_iff, old.mem_iff, place]

/-- Two kernels with the same records, lists and processors agree or disagree alike. -/
theorem Placement.of_same (h : k.Placement)
    (threads : ∀ id, k'.threads.get? id = k.threads.get? id)
    (running : ∀ cpu, k'.running? cpu = k.running? cpu)
    (idle : ∀ cpu, k'.idle? cpu = k.idle? cpu)
    (previous : ∀ {cpu : Nat} {slot' : CpuSlot}, k'.cpus[cpu]? = some slot' →
      ∃ slot, k.cpus[cpu]? = some slot ∧ slot'.previous = slot.previous)
    (members : ∀ c, (k'.members c).Perm (k.members c))
    (handles : ∀ {m mutex}, k'.mutexes.get? m = some mutex → mutex.handle = m)
    (policies : k'.ready.policies = k.ready.policies) : k'.Placement :=
  h.of_places (h.records.of_same threads handles policies)
    (fun id => place?_congr (threads id) idle) running idle previous members

/-- Two kernels that differ in nothing that a place depends on. -/
theorem Placement.of_eq (h : k.Placement)
    (slots : k'.threads.records.slots = k.threads.records.slots)
    (cpus : k'.cpus = k.cpus) (ready : k'.ready = k.ready)
    (sleeping : k'.sleeping.threads = k.sleeping.threads) (mutexes : k'.mutexes = k.mutexes)
    (ended : k'.terminated.Perm k.terminated) : k'.Placement := by
  refine h.of_same (ThreadTable.get?_congr slots) (fun cpu => ?_) (fun cpu => ?_) ?_ (fun c => ?_)
    ?_ (by rw [ready])
  · rw [running?, cpus, running?]
  · rw [idle?, cpus, idle?]
  · intro cpu slot' found
    exact ⟨slot', cpus ▸ found, rfl⟩
  · cases c with
    | level policy => simp only [members, ready, List.Perm.refl]
    | timeline => simp only [members, sleeping, List.Perm.refl]
    | line mutex => simp only [members, line, mutexes, List.Perm.refl]
    | ended => exact ended
  · intro m mutex found
    exact h.records.mutexHandle (mutexes ▸ found)

namespace Moves

/-- A change of one record, together with the lists that the two places name, is a move. -/
theorem of_amends {a b : Place} (found : k.threads.get? id = some thread)
    (amends : k.Amends k' id change) (idle : ∀ cpu, k'.idle? cpu = k.idle? cpu)
    (start : thread.place (k.isIdle id) = a) (goal : (change thread).place (k.isIdle id) = b)
    (changes : a ≠ b)
    (leaves : ∀ c, a = .inside c → (k.members c).Perm (id :: k'.members c))
    (joins : ∀ c, b = .inside c → (k'.members c).Perm (id :: k.members c))
    (stays : ∀ c, a ≠ .inside c → b ≠ .inside c → k'.members c = k.members c) :
    k.Moves k' id (some a) (some b) := by
  constructor
  · rw [place?_of_found found, start]
  · exact fun same => changes (Option.some.inj same)
  · intro other
    split
    · rename_i same
      subst same
      rw [place?_of_found (amends.found found), isIdle_congr idle, goal]
    · rename_i distinct
      exact place?_congr (amends.other distinct) idle
  · exact fun c same => leaves c (Option.some.inj same)
  · exact fun c same => joins c (Option.some.inj same)
  · exact fun c outside elsewhere =>
      stays c (fun same => outside (congrArg some same)) fun same => elsewhere (congrArg some same)

/-- What comes after a move and changes neither places nor lists belongs to it. -/
theorem congr (moves : k.Moves k' id origin target)
    (place : ∀ other, k''.place? other = k'.place? other)
    (members : ∀ c, k''.members c = k'.members c) : k.Moves k'' id origin target where
  before := moves.before
  changes := moves.changes
  place other := (place other).trans (moves.place other)
  leaves c same := members c ▸ moves.leaves c same
  joins c same := members c ▸ moves.joins c same
  stays c outside elsewhere := (members c).trans (moves.stays c outside elsewhere)

end Moves

/-- A thread whose policy is served becomes ready by a change of its record and of its level. -/
theorem exists_ready_of_makeReady (found : k.threads.get? id = some thread)
    (served : thread.policy ∈ k.ready.policies) :
    ∃ ready, k.ready.enqueue id thread.policy = some ready ∧
      (k.makeReady id).1 =
        { k with
          threads := k.threads.modify id ({ · with state := .ready, waitingOn := none })
          ready } := by
  have room : (k.ready.enqueue id thread.policy).isSome := ReadyQueue.enqueue_isSome_iff.mpr served
  obtain ⟨ready, queued⟩ := Option.isSome_iff_exists.mp room
  refine ⟨ready, queued, ?_⟩
  simp [makeReady, found, enqueueReady, queued]

/-- A thread was taken off the list it stood in, if any, and is about to go elsewhere. -/
structure Unlists (k base : Kernel) (id : ThreadId) (place : Place) : Prop where
  threads : base.threads = k.threads
  cpus : base.cpus = k.cpus
  policies : base.ready.policies = k.ready.policies
  handles : ∀ m, (base.mutexes.get? m).map (·.handle) = (k.mutexes.get? m).map (·.handle)
  leaves : ∀ c, place = .inside c → (k.members c).Perm (id :: base.members c)
  stays : ∀ c, place ≠ .inside c → base.members c = k.members c

namespace Unlists

variable {base : Kernel} {place : Place}

theorem idle? (unlists : k.Unlists base id place) (cpu : Nat) : base.idle? cpu = k.idle? cpu := by
  rw [Kernel.idle?, unlists.cpus, Kernel.idle?]

theorem records (unlists : k.Unlists base id place) (h : k.Records) : base.Records := by
  refine h.of_same (fun other => by rw [unlists.threads]) (fun {m mutex} found => ?_)
    unlists.policies
  have handle := unlists.handles m
  rw [found] at handle
  obtain ⟨old, present, same⟩ := Option.map_eq_some_iff.mp handle.symm
  exact same.symm.trans (h.mutexHandle present)

/-- A thread that stands in no list is taken off none. -/
theorem of_apart (apart : ∀ c, place ≠ .inside c) : k.Unlists k id place where
  threads := rfl
  cpus := rfl
  policies := rfl
  handles _ := rfl
  leaves c same := absurd same (apart c)
  stays _ _ := rfl

/-- A thread becomes ready after it was taken off the list it stood in. -/
theorem moves_makeReady (unlists : k.Unlists base id place) (records : k.Records)
    (busy : k.isIdle id = false) (found : k.threads.get? id = some thread)
    (start : thread.place false = place) (waiting : thread.state ≠ .ready) :
    k.Moves (base.makeReady id).1 id (some place) (some (.inside (.level thread.policy))) := by
  have present : base.threads.get? id = some thread := unlists.threads ▸ found
  obtain ⟨queue, queued, after⟩ := exists_ready_of_makeReady present
    (unlists.policies ▸ records.served found)
  have levels := ReadyQueue.threadsAt_of_enqueue queued
  have apart (policy : Policy) : place ≠ .inside (.level policy) := by
    intro same
    exact waiting (Thread.place_eq_level_iff.mp (start.trans same)).1
  rw [after]
  have elsewhere (c : Container) (outside : c ≠ .level thread.policy) :
      Kernel.members { base with
        threads := base.threads.modify id ({ · with state := .ready, waitingOn := none })
        ready := queue } c = base.members c := by
    cases c with
    | level policy =>
      have distinct : policy ≠ thread.policy := fun same => outside (congrArg _ same)
      simp [members, levels, distinct]
    | timeline => rfl
    | line mutex => rfl
    | ended => rfl
  refine Moves.of_amends found (amends_of_modify (by rw [← unlists.threads])) unlists.idle?
    (busy ▸ start) (busy ▸ Thread.place_eq_level_iff.mpr ⟨rfl, rfl, rfl⟩) (apart _)
    (fun c same => ?_) (fun c same => ?_) fun c outside away => ?_
  · rw [elsewhere c fun level => apart _ (level ▸ same)]
    exact unlists.leaves c same
  · obtain rfl := Place.inside.inj same
    rw [← unlists.stays _ (apart _)]
    simp only [members, levels, if_true]
    exact List.perm_append_singleton _ _
  · rw [elsewhere c fun level => away (congrArg Place.inside level.symm)]
    exact unlists.stays c outside

/-- A thread is marked as terminated after it was taken off the list it stood in. -/
theorem moves_markTerminated (unlists : k.Unlists base id place)
    (found : k.threads.get? id = some thread) (start : thread.place (k.isIdle id) = place)
    (alive : thread.state ≠ .terminated) :
    k.Moves (base.markTerminated id) id (some place) (some (.inside .ended)) := by
  have apart : place ≠ .inside .ended := fun same =>
    alive (Thread.place_eq_ended_iff.mp (start.trans same))
  have elsewhere (c : Container) (outside : c ≠ .ended) :
      (base.markTerminated id).members c = base.members c := by
    cases c with
    | ended => exact absurd rfl outside
    | _ => rfl
  refine Moves.of_amends found (amends_of_modify (by rw [← unlists.threads]; rfl)) unlists.idle?
    start (Thread.place_eq_ended_iff.mpr rfl) apart
    (fun c same => ?_) (fun c same => ?_) fun c outside away => ?_
  · rw [elsewhere c fun ended => apart (ended ▸ same)]
    exact unlists.leaves c same
  · obtain rfl := Place.inside.inj same
    rw [← unlists.stays _ apart]
    exact List.perm_append_singleton _ _
  · rw [elsewhere c fun ended => away (congrArg Place.inside ended.symm)]
    exact unlists.stays c outside

end Unlists

/-- Queueing a thread concerns the ready queue only, and adds no level to it. -/
theorem enqueueReady_frame (k : Kernel) (id : ThreadId) (policy : Policy) :
    ∃ ready, ready.policies = k.ready.policies ∧
      (k.enqueueReady id policy).1 = { k with ready } := by
  unfold enqueueReady
  split
  · rename_i ready queued
    exact ⟨ready, ReadyQueue.policies_of_enqueue queued, rfl⟩
  · exact ⟨k.ready, rfl, rfl⟩

theorem threads_enqueueReady (k : Kernel) (id : ThreadId) (policy : Policy) :
    (k.enqueueReady id policy).1.threads = k.threads := by
  obtain ⟨ready, _, same⟩ := enqueueReady_frame k id policy
  rw [same]

theorem mutexes_enqueueReady (k : Kernel) (id : ThreadId) (policy : Policy) :
    (k.enqueueReady id policy).1.mutexes = k.mutexes := by
  obtain ⟨ready, _, same⟩ := enqueueReady_frame k id policy
  rw [same]

/-- Becoming ready changes no other record. -/
theorem amends_makeReady (k : Kernel) (id : ThreadId) :
    k.Amends (k.makeReady id).1 id ({ · with state := .ready, waitingOn := none }) := by
  intro other
  unfold makeReady
  split
  · rename_i missing
    split
    · rename_i same
      rw [same, missing]
      rfl
    · rfl
  · rw [threads_enqueueReady, ThreadTable.get?_modify]

/-- Becoming ready adds no level. -/
theorem policies_makeReady (k : Kernel) (id : ThreadId) :
    (k.makeReady id).1.ready.policies = k.ready.policies := by
  unfold makeReady
  split
  · rfl
  · dsimp only
    obtain ⟨ready, policies, same⟩ := enqueueReady_frame { k with threads := _ } id _
    rw [same]
    exact policies

/-- Becoming ready changes no other place. -/
theorem place?_makeReady {other : ThreadId} (distinct : other ≠ id) :
    (k.makeReady id).1.place? other = k.place? other := by
  refine place?_congr ((amends_makeReady k id).other distinct) fun cpu => ?_
  rw [idle?, cpus_makeReady, idle?]

/-- The records after a thread became ready. -/
theorem Records.of_makeReady (h : k.Records) : (k.makeReady id).1.Records := by
  cases found : k.threads.get? id with
  | none =>
    have same : (k.makeReady id).1 = k := by simp [makeReady, found]
    rwa [same]
  | some thread =>
    obtain ⟨ready, queued, after⟩ := exists_ready_of_makeReady found (h.served found)
    rw [after]
    exact h.of_amends (amends_of_modify rfl) (fun _ => ⟨rfl, rfl⟩) (fun _ _ => by simp)
      h.mutexHandle (ReadyQueue.policies_of_enqueue queued)

/-- The records after a thread was marked as terminated. -/
theorem Records.of_markTerminated (h : k.Records) : (k.markTerminated id).Records :=
  h.of_amends (amends_of_modify rfl) (fun _ => ⟨rfl, rfl⟩) (fun _ _ => by simp) h.mutexHandle rfl

end Kernel

end ThreadScheduler
