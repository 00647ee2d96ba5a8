/-
Module: ThreadScheduler.Proofs.Alarms.Causes
Purpose: Why nothing inside the scheduler goes wrong: those who wait can become ready, a thread is
  where its state says, a processor finds a thread to run, and the tables count their records.
Main exports: Kernel.Serves, Kernel.Attended, Kernel.Regular.detach_isSome, Kernel.exists_dispatch,
  Kernel.Reachable.counted
-/
import ThreadScheduler.Proofs.Handles
import ThreadScheduler.Proofs.Placement.Seating

namespace ThreadScheduler

/-! ### Who can become ready -/

namespace Kernel

variable {k k' : Kernel} {here : Nat} {id owner next : ThreadId} {m : MutexId} {thread : Thread}

/-- A thread can become ready: it has a record, and a level serves its policy. -/
def Serves (k : Kernel) (id : ThreadId) : Prop :=
  ∃ thread, k.threads.get? id = some thread ∧ thread.policy ∈ k.ready.policies

/-- All threads that wait for a mutex can become ready. -/
def Attended (k : Kernel) : Prop := ∀ m, ∀ id ∈ k.line m, k.Serves id

theorem Placement.serves (h : k.Placement) (known : (k.threads.get? id).isSome) : k.Serves id := by
  obtain ⟨thread, found⟩ := Option.isSome_iff_exists.mp known
  exact ⟨thread, found, h.records.served found⟩

theorem Placement.serves_of_place {place : Place} (h : k.Placement)
    (stands : k.place? id = some place) : k.Serves id :=
  h.serves (by rw [← isSome_place?, stands]; rfl)

theorem Placement.attended (h : k.Placement) : k.Attended :=
  fun m id waits => h.serves_of_place (((h.listed (.line m)).mem_iff id).mp waits)

/-- What the scheduler does on its own takes nobody's record or policy. -/
theorem Serves.of_keeps (serves : k.Serves id) (keeps : k.Keeps k')
    (policies : k'.ready.policies = k.ready.policies) : k'.Serves id := by
  obtain ⟨thread, found, served⟩ := serves
  have same := keeps.get? id
  rw [found] at same
  obtain ⟨now, present, lasting⟩ := Option.map_eq_some_iff.mp same
  have policy : now.policy = thread.policy := by
    simpa only [Thread.lasting] using congrArg Thread.policy lasting
  exact ⟨now, present, by rw [policies, policy]; exact served⟩

theorem Serves.makeReady (serves : k.Serves id) (other : ThreadId) :
    (k.makeReady other).1.Serves id :=
  serves.of_keeps (.of_makeReady k other) (policies_makeReady k other)

/-- A thread that can become ready gives no cause for complaint. -/
theorem complaint_of_serves (serves : k.Serves id) : (k.makeReady id).2 = none := by
  obtain ⟨thread, found, served⟩ := serves
  have room : (k.ready.enqueue id thread.policy).isSome := ReadyQueue.enqueue_isSome_iff.mpr served
  obtain ⟨ready, queued⟩ := Option.isSome_iff_exists.mp room
  simp [Kernel.makeReady, found, enqueueReady, queued]

/-- A mutex that a thread is taken out of lets nobody wait who did not wait before. -/
theorem mem_waiting_of_withdraw {old mutex : Mutex} {removal : Removal}
    (taken : old.withdraw owner = some (removal, mutex)) (waits : id ∈ mutex.waiting) :
    id ∈ old.waiting := by
  rcases Mutex.withdraw_cases taken with ⟨_, _, _, _, _, erased⟩ | ⟨_, _, _, _, empty⟩ |
    ⟨nextOwner, _, _, passes⟩
  · exact List.mem_of_mem_erase (erased ▸ waits)
  · rw [empty] at waits
    cases waits
  · rw [passes.waiting]
    exact List.mem_cons_of_mem _ waits

/-- A next owner waited. -/
theorem mem_waiting_of_nextOwner {old mutex : Mutex} {nextOwner : ThreadId}
    (taken : old.withdraw owner = some (.owner (some nextOwner), mutex)) :
    nextOwner ∈ old.waiting := by
  rcases Mutex.withdraw_cases taken with ⟨never, _⟩ | ⟨never, _⟩ | ⟨other, same, _, passes⟩
  · cases never
  · cases never
  · obtain rfl := Option.some.inj (Removal.owner.inj same)
    rw [passes.waiting]
    exact List.mem_cons_self

theorem Attended.replace {old mutex : Mutex} {removal : Removal} (attended : k.Attended)
    (found : k.mutexes.get? m = some old) (taken : old.withdraw owner = some (removal, mutex)) :
    Attended { k with mutexes := k.mutexes.replace m mutex } := by
  intro other id waits
  rw [line_replace found] at waits
  split at waits
  · apply attended m
    rw [line_of_found found]
    exact mem_waiting_of_withdraw taken waits
  · exact attended other id waits

theorem Attended.passOn (attended : k.Attended) (owner : ThreadId) (m : MutexId) :
    (k.passOn owner m).Attended := by
  unfold Kernel.passOn
  cases found : k.mutexes.get? m with
  | none => exact attended
  | some old =>
    simp only [Option.bind_some]
    cases taken : old.withdraw owner with
    | none => exact attended
    | some removed =>
      obtain ⟨removal, mutex⟩ := removed
      have kept := attended.replace found taken
      rcases removal with _ | _ | nextOwner
      · exact kept
      · exact kept
      · intro other id waits
        rw [line, mutexes_makeReady] at waits
        exact (kept other id waits).makeReady nextOwner

/-- Nobody joins a line when a thread is taken out of its container. -/
theorem Regular.attended_detached (h : k.Regular) (found : k.threads.get? id = some thread)
    (busy : k.isIdle id = false) (alive : thread.state ≠ .terminated) :
    (k.detached thread).Attended := by
  have unlists := Unlists.of_detached h.placement (h.strange id) found busy alive
  intro m other waits
  have waited : other ∈ k.members (.line m) := by
    by_cases left : thread.place false = .inside (.line m)
    · exact (unlists.leaves _ left).mem_iff.mpr (List.mem_cons_of_mem _ waits)
    · rw [← unlists.stays _ left]
      exact waits
  obtain ⟨record, known, served⟩ := h.placement.attended m other waited
  exact ⟨record, by rw [unlists.threads, known], by rw [unlists.policies]; exact served⟩

/-! ### Who is taken out of a list -/

/-- A thread that is not terminated is where its state says. -/
theorem Regular.detach_isSome (h : k.Regular) (found : k.threads.get? id = some thread)
    (busy : k.isIdle id = false) : (k.detach thread).isSome := by
  have handle := h.placement.records.handle found
  have stands := place?_of_found found
  rw [busy] at stands
  unfold detach
  rw [handle]
  cases state : thread.state with
  | ready =>
    have place : thread.place false = .inside (.level thread.policy) :=
      Thread.place_eq_level_iff.mpr ⟨state, rfl, rfl⟩
    obtain ⟨ready, removed, _⟩ := unlists_of_ready h.placement (place ▸ stands)
    simp [removed]
  | running =>
    have place : thread.place false = .processor := Thread.place_eq_processor_iff.mpr state
    obtain ⟨cpu, runs⟩ := h.placement.occupied.running_of_place (place ▸ stands)
    obtain ⟨slot, present, current⟩ := Option.bind_eq_some_iff.mp runs
    have hosted : (k.hostOf? id).isSome := by
      rw [hostOf?, List.findIdx?_isSome, List.any_eq_true]
      exact ⟨slot, List.mem_of_getElem? present, by simpa using current⟩
    simpa using hosted
  | blocked =>
    obtain ⟨m, waits⟩ := Option.isSome_iff_exists.mp ((h.placement.records.waits found).mpr state)
    have place : thread.place false = .inside (.line m) :=
      Thread.place_eq_line_iff.mpr ⟨state, waits⟩
    obtain ⟨old, removal, mutex, registered, taken, _⟩ :=
      unlists_of_waiting h.placement (h.strange id) (place ▸ stands)
    simp [waits, registered, taken]
  | sleeping =>
    have place : thread.place false = .inside .timeline := Thread.place_eq_timeline_iff.mpr state
    obtain ⟨sleeping, removed, _⟩ := unlists_of_sleeping h.placement (place ▸ stands)
    simp [removed]
  | terminated => rfl

/-- Those who wake slept. -/
theorem mem_sleeping_of_due {elapsed : Duration} (due : id ∈ (k.sleeping.advance elapsed).drain.1) :
    id ∈ k.sleeping.threads := by
  rw [← Timeline.threads_advance k.sleeping elapsed, ← Timeline.threads_drain]
  exact List.mem_append_left _ due

/-! ### Who runs next -/

/-- A processor that is to get its next thread exists, finds one, and has run one before. If it goes
from one to the other both have records. -/
theorem exists_dispatch (fits : Course.Regular here (.dispatch k)) :
    ∃ slot next ready previous, k.cpus[here]? = some slot ∧ k.pickNext slot = some (next, ready) ∧
      slot.running = some previous ∧
      (previous ≠ next → ∃ switch,
        (({ k with ready }.install here next).depart here previous).switch? { previous, next } =
          some switch) := by
  obtain ⟨vacant, orderly, begun⟩ := fits
  obtain ⟨next, installs⟩ := exists_installs vacant.idleAssigned
  obtain ⟨slot, found, served⟩ := installs.picked
  obtain ⟨ready, picked⟩ : ∃ ready, k.pickNext slot = some (next, ready) := ⟨_, served⟩
  have inside : here < k.cpus.length := (List.getElem?_eq_some_iff.mp found).1
  obtain ⟨previous, ran⟩ := Option.isSome_iff_exists.mp (orderly.idleAssigned begun here inside).2
  have current : slot.running = some previous := by simpa [running?, found] using ran
  refine ⟨slot, next, ready, previous, found, picked, current, fun distinct => ?_⟩
  have threads : (({ k with ready }.install here next).depart here previous).threads =
      (k.redispatch here).threads := by
    rw [redispatch, threads_countSwitch]
    simp only [dispatch, found, picked, current, distinct, if_false]
  have known (id : ThreadId) : ((k.redispatch here).threads.get? id).isSome =
      (k.threads.get? id).isSome := by
    rw [← Option.isSome_map, (Keeps.of_redispatch k here).get? id, Option.isSome_map]
  have leaves : ((k.redispatch here).threads.get? previous).isSome := by
    rw [known]
    exact vacant.recorded previous ran
  have enters : ((k.redispatch here).threads.get? next).isSome :=
    (Regular.redispatch vacant orderly begun).isSome_of_running
      (by rw [installs.running?, if_pos rfl])
  obtain ⟨old, left⟩ := Option.isSome_iff_exists.mp leaves
  obtain ⟨new, entered⟩ := Option.isSome_iff_exists.mp enters
  rw [← threads] at left entered
  exact ⟨_, by simp only [switch?, left, entered]; rfl⟩

/-! ### Live counters -/

/-- Both tables count their records. -/
def Counted (k : Kernel) : Prop := k.threads.records.Counted ∧ k.mutexes.records.Counted

/-- The tables of every kernel that a run leads to count their records. -/
theorem Reachable.counted (reached : k.Reachable) : k.Counted := by
  induction reached with
  | new made =>
    obtain ⟨_, rfl⟩ := eq_of_ofConfig made
    exact ⟨rfl, rfl⟩
  | @step m reached cpu operation ih =>
    obtain ⟨course, takes⟩ := Machine.exists_course reached ⟨cpu, operation⟩
    exact ⟨takes.threads_continue.records.counted ih.1, takes.mutexes_continue.records.counted ih.2⟩

end Kernel

end ThreadScheduler
