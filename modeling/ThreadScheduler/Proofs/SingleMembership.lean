/-
Module: ThreadScheduler.Proofs.SingleMembership
Purpose: Over whole runs every thread is in exactly the container that its state names, and nothing
  refers to a thread that is not there.
Main exports: Kernel.Mentions, Kernel.SingleMembership, Kernel.Reachable.singleMembership
-/
import ThreadScheduler.Kernel.Consistency
import ThreadScheduler.Proofs.Run

namespace ThreadScheduler.Kernel

variable {k : Kernel} {id : ThreadId} {thread : Thread} {m : MutexId}

/-- The kernel refers to a thread: in a container, in the slot of a processor or as terminated. -/
def Mentions (k : Kernel) (id : ThreadId) : Prop :=
  id ∈ k.ready.toList ∨ id ∈ k.sleeping.threads ∨
    (∃ mutex ∈ k.mutexes.toList, id ∈ mutex.waiting) ∨
    (∃ slot ∈ k.cpus, slot.running = some id ∨ slot.idle = some id ∨ slot.previous = some id) ∨
    id ∈ k.terminated

/-- Every thread is in exactly one container, the one that its record names. -/
structure SingleMembership (k : Kernel) : Prop where
  consistent : k.check = .ok ()
  ready_once : k.ready.toList.Nodup
  timeline_once : k.sleeping.threads.Nodup
  line_once : ∀ mutex ∈ k.mutexes.toList, mutex.waiting.Nodup
  recorded : ∀ id, k.Mentions id → ∃ thread, k.threads.get? id = some thread ∧ thread.id = id
  level : ∀ level ∈ k.ready.levels, ∀ id ∈ level.threads, k.policyOf? id = some level.policy
  waits : ∀ thread ∈ k.threads.toList, (∃ m, thread.waitingOn = some m) ↔ thread.state = .blocked
  /-- An idle thread is queued nowhere. -/
  idle_apart : ∀ cpu id, k.idle? cpu = some id → id ∉ k.ready.toList ∧ id ∉ k.sleeping.threads ∧
    ∀ mutex ∈ k.mutexes.toList, id ∉ mutex.waiting
  idle_home : ∀ cpu id, k.idle? cpu = some id → ∀ other, k.running? other = some id → other = cpu

namespace Placement

/-! ### Counting -/

theorem mem_waitsFor_iff (h : k.Placement) :
    m ∈ k.waitsFor id ↔ k.place? id = some (.inside (.line m)) := by
  simp only [waitsFor, List.mem_map, List.mem_filter, MutexTable.mem_toList_iff]
  constructor
  · rintro ⟨mutex, ⟨⟨other, found⟩, waits⟩, rfl⟩
    have same := h.records.mutexHandle found
    subst same
    exact (h.mem_waiting_iff found).mp (by simpa [Mutex.isWaiting] using waits)
  · intro stands
    have listed : id ∈ k.line m := ((h.listed (.line m)).mem_iff id).mpr stands
    obtain ⟨mutex, found, waits⟩ := exists_mutex_of_mem_line listed
    exact ⟨mutex, ⟨⟨m, found⟩, by simpa [Mutex.isWaiting] using waits⟩, h.records.mutexHandle found⟩

/-- A thread that waits for a mutex is in one line. -/
theorem waitsFor_of_place (h : k.Placement) (stands : k.place? id = some (.inside (.line m))) :
    k.waitsFor id = [m] := by
  have once : (k.waitsFor id).Nodup :=
    MutexTable.nodup_handles _ fun _ _ => h.records.mutexHandle
  refine ((List.perm_ext_iff_of_nodup once (by simp)).mpr fun other => ?_).eq_singleton
  rw [h.mem_waitsFor_iff, List.mem_singleton, stands]
  simp [eq_comm]

theorem waitsFor_of_elsewhere (h : k.Placement) {place : Place} (stands : k.place? id = some place)
    (apart : ∀ m, place ≠ .inside (.line m)) : k.waitsFor id = [] := by
  refine List.eq_nil_iff_forall_not_mem.mpr fun m member => apart m ?_
  exact Option.some.inj (stands.symm.trans (h.mem_waitsFor_iff.mp member))

theorem contains_ready_of_elsewhere (h : k.Placement) {place : Place}
    (stands : k.place? id = some place) (apart : ∀ policy, place ≠ .inside (.level policy)) :
    k.ready.contains id = false := by
  rw [Bool.eq_false_iff, Ne, ReadyQueue.contains_iff, h.mem_ready_iff]
  rintro ⟨policy, there⟩
  exact apart policy (Option.some.inj (stands.symm.trans there))

theorem contains_timeline_of_elsewhere (h : k.Placement) {place : Place}
    (stands : k.place? id = some place) (apart : place ≠ .inside .timeline) :
    k.sleeping.contains id = false := by
  rw [Bool.eq_false_iff, Ne, Timeline.contains_iff, h.mem_timeline_iff]
  exact fun there => apart (Option.some.inj (stands.symm.trans there))

private theorem countP_le_one {α : Type} {wanted : α → Bool} {items : List α}
    (one : ∀ {i j : Nat} {a b : α}, items[i]? = some a → wanted a = true → items[j]? = some b →
      wanted b = true → i = j) : items.countP wanted ≤ 1 := by
  induction items with
  | nil => exact Nat.zero_le 1
  | cons item rest ih =>
    have later : rest.countP wanted ≤ 1 := by
      refine ih fun {i j a b} first wants second wants' => ?_
      exact Nat.succ.inj (one (i := i + 1) (j := j + 1) first wants second wants')
    rw [List.countP_cons]
    split
    · rename_i chosen
      suffices none : rest.countP wanted = 0 by omega
      apply List.countP_eq_zero.mpr
      intro other member wants
      obtain ⟨i, found⟩ := List.mem_iff_getElem?.mp member
      cases one (i := 0) (j := i + 1) rfl chosen found wants
    · exact later

theorem runningCount_le_one (h : k.Placement) (id : ThreadId) : k.runningCount id ≤ 1 := by
  refine countP_le_one fun {i j a b} first runs second runs' => ?_
  refine h.occupied.one (?_ : k.running? i = some id) ?_
  · simpa [running?, first] using runs
  · simpa [running?, second] using runs'

theorem runningCount_pos_iff : 0 < k.runningCount id ↔ ∃ cpu, k.running? cpu = some id := by
  simp only [runningCount, List.countP_pos_iff, decide_eq_true_eq, running?,
    Option.bind_eq_some_iff]
  constructor
  · rintro ⟨slot, member, runs⟩
    obtain ⟨cpu, found⟩ := List.mem_iff_getElem?.mp member
    exact ⟨cpu, slot, found, runs⟩
  · rintro ⟨cpu, slot, found, runs⟩
    exact ⟨slot, List.mem_of_getElem? found, runs⟩

/-- A thread that stands neither on a processor nor among the terminated ones runs nowhere. -/
theorem runningCount_of_place (h : k.Placement) {place : Place} (stands : k.place? id = some place)
    (apart : place ≠ .processor) (alive : place ≠ .inside .ended) : k.runningCount id = 0 := by
  apply Nat.eq_zero_of_not_pos
  intro some_cpu
  obtain ⟨cpu, runs⟩ := runningCount_pos_iff.mp some_cpu
  rcases h.occupied.place_of_running runs with there | there
  · exact apart (Option.some.inj (stands.symm.trans there))
  · exact alive (Option.some.inj (stands.symm.trans there))

/-! ### The check -/

/-- A thread is in as many containers as its place says, whatever its place is. -/
theorem isConsistent (h : k.Placement) (found : k.threads.get? id = some thread) :
    k.isConsistent thread = true := by
  have stands := place?_of_found found
  unfold Kernel.isConsistent
  rw [h.records.handle found]
  cases state : thread.state with
  | ready =>
    cases idle : k.isIdle id with
    | true =>
      rw [idle, Thread.place_eq_aside_iff.mpr (.inl ⟨state, rfl⟩)] at stands
      simp [idle, h.contains_ready_of_elsewhere stands nofun, h.waitsFor_of_elsewhere stands nofun,
        h.contains_timeline_of_elsewhere stands nofun, h.runningCount_of_place stands nofun nofun]
    | false =>
      rw [idle, Thread.place_eq_level_iff.mpr ⟨state, rfl, rfl⟩] at stands
      have queued : k.ready.contains id = true :=
        ReadyQueue.contains_iff.mpr (h.mem_ready_iff.mpr ⟨_, stands⟩)
      simp [idle, queued, h.waitsFor_of_elsewhere stands nofun,
        h.contains_timeline_of_elsewhere stands nofun, h.runningCount_of_place stands nofun nofun]
  | running =>
    rw [Thread.place_eq_processor_iff.mpr state] at stands
    have once : k.runningCount id = 1 :=
      Nat.le_antisymm (h.runningCount_le_one id)
        (runningCount_pos_iff.mpr (h.occupied.running_of_place stands))
    simp [once, h.contains_ready_of_elsewhere stands nofun, h.waitsFor_of_elsewhere stands nofun,
      h.contains_timeline_of_elsewhere stands nofun]
  | sleeping =>
    rw [Thread.place_eq_timeline_iff.mpr state] at stands
    have sleeps : k.sleeping.contains id = true :=
      Timeline.contains_iff.mpr (h.mem_timeline_iff.mpr stands)
    simp [sleeps, h.contains_ready_of_elsewhere stands nofun, h.waitsFor_of_elsewhere stands nofun,
      h.runningCount_of_place stands nofun nofun]
  | blocked =>
    obtain ⟨m, waits⟩ := Option.isSome_iff_exists.mp ((h.records.waits found).mpr state)
    rw [Thread.place_eq_line_iff.mpr ⟨state, waits⟩] at stands
    simp [h.contains_ready_of_elsewhere stands nofun, h.waitsFor_of_place stands, waits,
      h.contains_timeline_of_elsewhere stands nofun, h.runningCount_of_place stands nofun nofun]
  -- A thread that ended may still run until its processor switches.
  | terminated =>
    rw [Thread.place_eq_ended_iff.mpr state] at stands
    simp [h.contains_ready_of_elsewhere stands nofun, h.waitsFor_of_elsewhere stands nofun,
      h.contains_timeline_of_elsewhere stands nofun, h.runningCount_le_one id]

theorem check_eq_ok (h : k.Placement) : k.check = .ok () := by
  have nobody : k.threads.toList.find? (! k.isConsistent ·) = none := by
    refine List.find?_eq_none.mpr fun thread member => ?_
    obtain ⟨id, found⟩ := ThreadTable.mem_toList_iff.mp member
    simp [h.isConsistent found]
  unfold check
  rw [nobody]

/-! ### Mentions -/

/-- Whoever is mentioned has a record. -/
theorem recorded (h : k.Placement) (mentioned : k.Mentions id) : (k.threads.get? id).isSome := by
  have of_place {place : Place} (stands : k.place? id = some place) :
      (k.threads.get? id).isSome := by
    rw [← isSome_place?, stands]
    rfl
  rcases mentioned with ready | sleeps | ⟨mutex, member, waits⟩ | ⟨slot, member, here⟩ | ended
  · obtain ⟨policy, stands⟩ := h.mem_ready_iff.mp ready
    exact of_place stands
  · exact of_place (h.mem_timeline_iff.mp sleeps)
  · obtain ⟨m, found⟩ := MutexTable.mem_toList_iff.mp member
    exact of_place ((h.mem_waiting_iff found).mp waits)
  · obtain ⟨cpu, found⟩ := List.mem_iff_getElem?.mp member
    rcases here with runs | idles | left
    · have running : k.running? cpu = some id := by simp [running?, found, runs]
      rcases h.occupied.place_of_running running with stands | stands <;> exact of_place stands
    · have owned : k.idle? cpu = some id := by simp [idle?, found, idles]
      rcases h.occupied.idle owned with stands | stands <;> exact of_place stands
    · exact h.occupied.previous found left
  · exact of_place (((h.listed .ended).mem_iff id).mp ended)

theorem policyOf?_of_mem_threads (h : k.Placement) {level : Level} (member : level ∈ k.ready.levels)
    (waits : id ∈ level.threads) : k.policyOf? id = some level.policy := by
  rw [← ReadyQueue.threads_eq_of_mem h.records.ordered member] at waits
  exact h.policyOf?_of_mem_level waits

/-- An idle thread is in no container. -/
theorem idle_apart (h : k.Placement) {cpu : Nat} (owned : k.idle? cpu = some id) (c : Container) :
    k.place? id ≠ some (.inside c) := by
  intro stands
  exact isIdle_eq_false (h.busy_of_place stands) cpu owned

end Placement

/-- In every kernel that a run leads to, whatever operations it consists of and whatever processors
execute them, every thread is in exactly one container. -/
theorem Reachable.singleMembership (reached : k.Reachable) : k.SingleMembership := by
  have h := reached.regular.placement
  constructor
  · exact h.check_eq_ok
  · exact h.ready_once
  · exact (h.listed .timeline).once
  · intro mutex member
    obtain ⟨m, found⟩ := MutexTable.mem_toList_iff.mp member
    rw [← line_of_found found]
    exact (h.listed (.line m)).once
  · intro id mentioned
    obtain ⟨thread, found⟩ := Option.isSome_iff_exists.mp (h.recorded mentioned)
    exact ⟨thread, found, h.records.handle found⟩
  · exact fun level member id waits => h.policyOf?_of_mem_threads member waits
  · intro thread member
    obtain ⟨id, found⟩ := ThreadTable.mem_toList_iff.mp member
    rw [← Option.isSome_iff_exists]
    exact h.records.waits found
  · intro cpu id owned
    have apart := h.idle_apart owned
    refine ⟨?_, fun sleeps => apart _ (h.mem_timeline_iff.mp sleeps), fun mutex member waits => ?_⟩
    · intro ready
      obtain ⟨policy, stands⟩ := h.mem_ready_iff.mp ready
      exact apart _ stands
    · obtain ⟨m, found⟩ := MutexTable.mem_toList_iff.mp member
      exact apart _ ((h.mem_waiting_iff found).mp waits)
  · exact fun cpu id owned other runs => (h.occupied.home owned runs).symm

/-- A run that leaves threads in containers of every sort. -/
theorem singleMembership_of_contention :
    (twoProcessors.run contention).kernel.ready.toList = [.ofIndex 7] ∧
      (twoProcessors.run contention).kernel.sleeping.threads = [.ofIndex 5] ∧
      (twoProcessors.run contention).kernel.line (.ofIndex 0) = [.ofIndex 3, .ofIndex 4] ∧
      (twoProcessors.run contention).kernel.terminated = [.ofIndex 6] ∧
      (twoProcessors.run contention).kernel.SingleMembership :=
  ⟨by decide +kernel, by decide +kernel, by decide +kernel, by decide +kernel,
    Reachable.singleMembership reachable_contention⟩

end ThreadScheduler.Kernel
