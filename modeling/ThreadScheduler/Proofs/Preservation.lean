/-
Module: ThreadScheduler.Proofs.Preservation
Purpose: No operation breaks the invariant of the scheduler. There is one lemma for each thing that
  an operation can do to the kernel, and the transitions are assembled from them.
Main exports: Kernel.Regular.redispatch, Transition.regular, Transition.regular_kernel
-/
import ThreadScheduler.Proofs.Execution.Basic
import ThreadScheduler.Proofs.Regular

namespace ThreadScheduler

namespace Kernel

variable {k k' : Kernel} {here : Nat} {id next : ThreadId} {thread : Thread} {m : MutexId}
  {mutex : Mutex}

/-! ### Getting the next thread -/

namespace Installs

theorem running? (installs : k.Installs k' here next) (cpu : Nat) :
    k'.running? cpu = if cpu = here then some next else k.running? cpu := by
  obtain ⟨slot, found, _⟩ := installs.picked
  obtain ⟨change, cpus, slots⟩ := installs.slots
  rw [running?_of_modify cpus, running?_vacate]
  split
  · simp [cpus_vacate, found, slots]
  · rfl

theorem policies (installs : k.Installs k' here next) (ordered : k.ready.Ordered) :
    k'.ready.policies = k.ready.policies := by
  obtain ⟨slot, _, picked⟩ := installs.picked
  rcases pickNext_cases picked with served | ⟨_, _, same⟩
  · exact ReadyQueue.policies_of_dequeue ordered served
  · rw [same]

theorem alike (installs : k.Installs k' here next) (ordered : k.ready.Ordered) : k.Alike k' := by
  have policies := installs.policies ordered
  have idle (cpu : Nat) : k'.idle? cpu = k.idle? cpu := by
    rw [installs.idle?, idle?_vacate]
  have length : k'.cpus.length = k.cpus.length := by
    obtain ⟨change, cpus, _⟩ := installs.slots
    rw [cpus, cpus_vacate, List.length_modify, List.length_modify]
  have running (cpu : Nat) (runs : (k.running? cpu).isSome) : (k'.running? cpu).isSome := by
    rw [installs.running?]
    split
    · rfl
    · exact runs
  obtain ⟨_, _, _, _, rfl⟩ := installs.frame
  exact ⟨rfl, rfl, length, policies, idle, running⟩

theorem mutexes (installs : k.Installs k' here next) : k'.mutexes = k.mutexes := by
  obtain ⟨_, _, _, _, rfl⟩ := installs.frame
  rfl

end Installs

namespace Regular

/-- The invariant holds again when a processor has its next thread. -/
theorem redispatch (vacant : k.Vacant here) (orderly : k.Orderly) (begun : k.initialized = true) :
    (k.redispatch here).Regular := by
  obtain ⟨next, installs⟩ := exists_installs vacant.idleAssigned
  have alike := installs.alike vacant.placement.records.ordered
  refine ⟨vacant.placement_of_installs installs, orderly.of_alike begun ?_ alike⟩
  exact orderly.owned.of_same (.of_installs installs) alike.idle installs.mutexes

/-! ### Beginning -/

/-- Before scheduling begins no mutex is locked. -/
theorem free_of_blank (h : k.Regular) (blank : k.Blank) (found : k.mutexes.get? m = some mutex) :
    mutex.owner = none := by
  cases owner : mutex.owner with
  | none => rfl
  | some t =>
    obtain ⟨thread, known, _⟩ := (h.orderly.owned m mutex t found owner).alive
    cases (blank.get? t).symm.trans known

/-- Scheduling begins. -/
theorem booted {entry : Nat} {bootStack : Option StackBounds} {timer : PeriodicTimer}
    {bootstrap : ThreadId} {after : Kernel} {heap : Heap} {capacity : Nat} (h : k.Regular)
    (fresh : k.initialized = false)
    (reserved : k.threads.reserve k.heap = (.ok bootstrap, k.threads.withCapacity capacity, heap))
    (adopted : AdoptsCpus bootstrap entry (List.range k.config.cpus)
      (({ k with timer }.withRoom heap capacity).withBootstrap bootstrap bootStack) after) :
    Regular { after with initialized := true } := by
  have blank := h.orderly.blank fresh
  have roomy : Regular ({ k with timer }.withRoom heap capacity) :=
    h.of_eq rfl rfl rfl rfl rfl rfl rfl rfl
  have same : Blank ({ k with timer }.withRoom heap capacity) :=
    blank.congr rfl rfl rfl (fun _ => rfl) rfl rfl
  rw [← h.orderly.length] at adopted
  obtain ⟨placement, idleAssigned⟩ := same.placement_of_booted roomy.placement h.orderly.served
    (h.orderly.length ▸ h.orderly.some_cpu) (ThreadTable.get?_of_reserve reserved).1 adopted
  have length : after.cpus.length = k.cpus.length := adopted.length
  obtain ⟨threads, pool, heap, cpus, rfl⟩ := adopted.frame
  refine ⟨placement.of_eq rfl rfl rfl rfl rfl (List.Perm.refl _), ?_, length.trans h.orderly.length,
    h.orderly.some_cpu, h.orderly.served, fun _ cpu inside => ?_, nofun⟩
  · intro m mutex t found owns
    rw [h.free_of_blank blank found] at owns
    cases owns
  · have found : cpus[cpu]? = some cpus[cpu] := List.getElem?_eq_getElem inside
    obtain ⟨idle, running⟩ := idleAssigned found
    constructor
    · simpa [Kernel.idle?, found] using idle
    · simpa [Kernel.running?, found] using running

/-- Scheduling cannot begin, and nothing is left of the attempt. -/
theorem discarded {threads : ThreadTable} {pool : StackPool} {heap : Heap} {cpus : List CpuSlot}
    {timer : PeriodicTimer} (h : k.Regular) (fresh : k.initialized = false)
    (length : cpus.length = k.cpus.length) :
    (Kernel.discarded { k with threads, pool, heap, cpus, timer } k.threads.mark).Regular := by
  have blank := h.orderly.blank fresh
  have left : (Kernel.discarded { k with threads, pool, heap, cpus, timer } k.threads.mark).Blank :=
    blank.of_discarded
  refine ⟨left.placement h.placement.records.mutexHandle h.placement.records.ordered, ?_, ?_,
    h.orderly.some_cpu, h.orderly.served, fun begun => ?_, fun _ => left⟩
  · intro m mutex t found owns
    rw [h.free_of_blank blank found] at owns
    cases owns
  · exact (List.length_map _).trans (length.trans h.orderly.length)
  · exact absurd (begun.symm.trans fresh) nofun

/-! ### Threads -/

/-- A thread is created. -/
theorem spawned {spec : ThreadSpec} {admitted : Kernel} (h : k.Regular)
    (begun : k.initialized = true) (admits : k.Admits spec id admitted) :
    (admitted.enqueueReady id spec.policy).1.Regular := by
  have placement := h.placement.of_spawned admits
  obtain ⟨thread, _, _, registers, threads, pool, heap, rfl⟩ := admits.registers
  obtain ⟨ready, policies, same⟩ :=
    enqueueReady_frame { k with threads, pool, heap } id spec.policy
  rw [same] at placement ⊢
  refine ⟨placement, h.orderly.of_alike begun ?_ (.of_cpus rfl rfl rfl policies)⟩
  refine h.orderly.owned.of_same ?_ (fun _ => rfl) rfl
  exact (Spares.of_registers registers).trans (.refl rfl)

/-- The running thread goes back to the ready queue. -/
theorem yielded (h : k.Regular) (begun : k.initialized = true)
    (current : k.running? here = some id) (busy : k.isIdle id = false)
    (runs : k.stateOf? id = some .running) :
    Course.Regular here (.dispatch (k.makeReady id).1) := by
  have found : (k.cpus[here]?).isSome := by
    obtain ⟨slot, found, _⟩ := Option.bind_eq_some_iff.mp current
    simp [found]
  have alike := Alike.of_makeReady k id
  refine ⟨h.placement.vacant_of_makeReady (h.idleAssigned begun found) current busy runs,
    h.orderly.of_alike begun ?_ alike, alike.initialized.trans begun⟩
  exact h.orderly.owned.of_same (.of_makeReady k id) alike.idle (mutexes_makeReady k id)

/-- The running thread has nowhere to go, because it is idle or was terminated. -/
theorem vacated {slot : CpuSlot} (h : k.Regular) (begun : k.initialized = true)
    (found : k.cpus[here]? = some slot)
    (leaves : ∀ id, slot.running = some id →
      k.isIdle id = true ∨ k.stateOf? id ≠ some .running) :
    Course.Regular here (.dispatch k) := by
  refine ⟨h.placement.vacant (h.idleAssigned begun (by simp [found])) fun id current => ?_,
    h.orderly, begun⟩
  have current : slot.running = some id := by simpa [Kernel.running?, found] using current
  exact (leaves id current).imp_right fun away stands =>
    away (stateOf?_eq_some_running_iff.mpr stands)

/-- The running thread goes to sleep. -/
theorem fellAsleep (h : k.Regular) (begun : k.initialized = true)
    (current : k.running? here = some id) (busy : k.isIdle id = false)
    (runs : k.stateOf? id = some .running) (wake : Instant) :
    Course.Regular here (.dispatch { k with
      threads := k.threads.setState id .sleeping
      sleeping := k.sleeping.enqueue id wake }) := by
  have found : (k.cpus[here]?).isSome := by
    obtain ⟨slot, found, _⟩ := Option.bind_eq_some_iff.mp current
    simp [found]
  refine ⟨h.placement.vacant_of_asleep (h.idleAssigned begun found) current busy runs wake,
    h.orderly.of_alike begun ?_ .of_ready, begun⟩
  refine h.orderly.owned.of_same (.of_amends (amends_of_modify rfl) fun _ _ => ?_)
    (fun _ => rfl) rfl
  exact ⟨nofun, .inl rfl⟩

/-- A thread gets other local storage. -/
theorem threadPointerSet (h : k.Regular) (begun : k.initialized = true) (id : ThreadId)
    (address : Nat) :
    Regular { k with threads := k.threads.modify id ({ · with tls := address }) } := by
  have amends : k.Amends { k with threads := k.threads.modify id ({ · with tls := address }) } id
      ({ · with tls := address }) := amends_of_modify rfl
  have place (other : ThreadId) : Kernel.place?
      { k with threads := k.threads.modify id ({ · with tls := address }) } other =
        k.place? other := by
    unfold Kernel.place?
    rw [amends]
    split
    · rename_i same
      rw [same, Option.map_map]
      rfl
    · rfl
  have records := h.placement.records.of_amends amends (fun _ => ⟨rfl, rfl⟩)
    (fun _ found => by simpa using h.placement.records.waits found)
    h.placement.records.mutexHandle rfl
  refine ⟨h.placement.of_places records place (fun _ => rfl) (fun _ => rfl)
    (fun found => ⟨_, found, rfl⟩) fun c => ?_, h.orderly.of_alike begun ?_ .of_ready⟩
  · cases c <;> exact List.Perm.refl _
  · refine h.orderly.owned.of_same (.of_amends amends fun _ alive => ?_) (fun _ => rfl) rfl
    exact ⟨alive, .inl rfl⟩

/-! ### Ticks -/

theorem alike_beforeCharge (k : Kernel) (here : Nat) : k.Alike (k.beforeCharge here) := by
  unfold Kernel.beforeCharge timeKept
  split
  · refine .trans ?_ (.of_makeReadyAll k.woken _)
    exact .of_cpus rfl rfl rfl rfl
  · exact .of_cpus rfl rfl rfl rfl

theorem spares_beforeCharge (k : Kernel) (here : Nat) : k.Spares (k.beforeCharge here) := by
  unfold Kernel.beforeCharge timeKept
  split
  · refine .trans ?_ (.of_makeReadyAll k.woken _)
    exact .refl rfl
  · exact .refl rfl

/-- Keeping time wakes threads and does nothing else. -/
theorem beforeCharge (h : k.Regular) (begun : k.initialized = true) :
    (k.beforeCharge here).Regular := by
  have alike := alike_beforeCharge k here
  have spares := spares_beforeCharge k here
  have mutexes := mutexes_beforeCharge k here
  refine ⟨?_, h.orderly.of_alike begun (h.orderly.owned.of_same spares alike.idle mutexes) alike⟩
  unfold Kernel.beforeCharge
  split
  · exact h.placement.timeKept
  · exact h.placement

/-- The running thread goes on with what is left of its slice. -/
theorem kept (h : k.Regular) (begun : k.initialized = true) (slice : Duration) :
    Regular { k with cpus := k.cpus.modify here ({ · with slice }) } := by
  have cpus : Kernel.cpus { k with cpus := k.cpus.modify here ({ · with slice }) } =
      k.cpus.modify here ({ · with slice }) := rfl
  have idle := idle?_of_modify cpus fun _ => rfl
  have running (cpu : Nat) :
      Kernel.running? { k with cpus := k.cpus.modify here ({ · with slice }) } cpu =
        k.running? cpu := by
    rw [running?_of_modify cpus]
    split
    · rename_i same
      rw [same, Kernel.running?]
    · rfl
  refine ⟨h.placement.of_same (fun _ => rfl) running idle (fun found => ?_) (fun c => ?_)
    h.placement.records.mutexHandle rfl, h.orderly.of_alike begun ?_ ?_⟩
  · obtain ⟨slot, present, rfl | ⟨_, rfl⟩⟩ := previous_of_modify cpus found
    · exact ⟨_, present, rfl⟩
    · exact ⟨_, present, rfl⟩
  · cases c <;> exact List.Perm.refl _
  · exact h.orderly.owned.of_same (.refl rfl) idle rfl
  · exact ⟨rfl, rfl, List.length_modify _ _ _, rfl, idle, fun cpu runs => running cpu ▸ runs⟩

/-! ### Mutexes -/

/-- A mutex is registered. -/
theorem mutexCreated {name : String} {mutexes : MutexTable} {heap : Heap} (h : k.Regular)
    (created : k.mutexes.create k.heap name = (.ok m, mutexes, heap)) :
    Regular { k with mutexes, heap } := by
  obtain ⟨fresh, mutex, _, free, found⟩ := MutexTable.get?_of_create created
  have placement : Placement { k with mutexes, heap } :=
    (h.placement.of_created created).of_eq rfl rfl rfl rfl rfl (List.Perm.refl _)
  refine h.of_mutexes placement ?_ rfl rfl rfl rfl rfl rfl rfl fun other => ?_
  · refine h.orderly.owned.of_spares (.refl rfl)
      (fun _ => rfl) fun other mutex' t present owns => ?_
    rw [found] at present
    split at present
    · obtain rfl := Option.some.inj present
      simp [Mutex.owner, free] at owns
    · exact .inl ⟨mutex', present, owns⟩
  · unfold line
    rw [found]
    split
    · rename_i same
      simp [same, fresh, Mutex.waiting, free]
    · rfl

/-- A free mutex is removed. -/
theorem mutexReleased {mutexes : MutexTable} (h : k.Regular)
    (released : k.mutexes.release m = .ok mutexes) : Regular { k with mutexes } := by
  obtain ⟨⟨mutex, present, free⟩, found⟩ := MutexTable.get?_of_release released
  refine h.of_mutexes (h.placement.of_released released) ?_ rfl rfl rfl rfl rfl rfl rfl
    fun other => ?_
  · refine h.orderly.owned.of_spares (.refl rfl) (fun _ => rfl) fun other mutex' t left owns => ?_
    rw [found] at left
    split at left
    · cases left
    · exact .inl ⟨mutex', left, owns⟩
  · unfold line
    rw [found]
    split
    · rename_i same
      simp [same, present, Mutex.waiting, free]
    · rfl

/-- A mutex changes while everybody stays in its line. -/
theorem replaced {old : Mutex} (h : k.Regular) (begun : k.initialized = true)
    (found : k.mutexes.get? m = some old) (handle : mutex.handle = old.handle)
    (waiting : mutex.waiting = old.waiting)
    (owner : ∀ t, mutex.owner = some t → old.owner = some t ∨ k.Holds t m) :
    Regular { k with mutexes := k.mutexes.replace m mutex } :=
  ⟨h.placement.of_replace found handle waiting,
    h.orderly.of_alike begun (h.orderly.owned.of_replace found owner) .of_ready⟩

/-- The caller has a mutex. -/
theorem locked (h : k.Regular) (begun : k.initialized = true) (caller : k.caller here = .ok id)
    (found : k.mutexes.get? m = some mutex) (granted : (mutex.lock id).1 ≠ .mustBlock) :
    Regular { k with mutexes := k.mutexes.replace m (mutex.lock id).2 } := by
  obtain ⟨_, busy, runs⟩ := caller_eq_ok_iff.mp caller
  obtain ⟨owner, waiting, _⟩ := Mutex.lock_granted granted
  refine h.replaced begun found (Mutex.handle_lock mutex id) waiting fun t owns => .inr ?_
  obtain rfl := Option.some.inj (owner.symm.trans owns)
  exact holds_of_running h.placement.records busy runs

/-- The caller waits for a mutex. -/
theorem blocked (h : k.Regular) (begun : k.initialized = true) (caller : k.caller here = .ok id)
    (found : k.mutexes.get? m = some mutex) (waits : (mutex.lock id).1 = .mustBlock) :
    Course.Regular here (.dispatch { k with
      mutexes := k.mutexes.replace m (mutex.lock id).2
      threads := k.threads.modify id ({ · with state := .blocked, waitingOn := some m }) }) := by
  obtain ⟨current, busy, runs⟩ := caller_eq_ok_iff.mp caller
  have there : (k.cpus[here]?).isSome := by
    obtain ⟨slot, found, _⟩ := Option.bind_eq_some_iff.mp current
    simp [found]
  obtain ⟨⟨other, owned, foreign⟩, owner, _, waiting⟩ := Mutex.lock_waits waits
  refine ⟨h.placement.vacant_of_blocked (h.idleAssigned begun there) current busy runs found
    (Mutex.handle_lock mutex id) waiting, h.orderly.of_alike begun ?_ .of_ready, begun⟩
  apply h.orderly.owned.of_blocked found owner
  rw [owned]
  exact fun same => foreign (Option.some.inj same)

/-- The caller gives up a lock and nobody else gets the mutex. -/
theorem unlocked (h : k.Regular) (begun : k.initialized = true)
    (found : k.mutexes.get? m = some mutex)
    (nobody : ∀ next, (mutex.unlock id).1 ≠ .handedOff next) :
    Regular { k with mutexes := k.mutexes.replace m (mutex.unlock id).2 } := by
  obtain ⟨waiting, outcome⟩ := Mutex.unlock_keeps nobody
  refine h.replaced begun found (Mutex.handle_unlock mutex id) waiting fun t owns => .inl ?_
  rcases outcome with ⟨_, same⟩ | ⟨before, after, _⟩ | ⟨_, _, _, free⟩
  · exact same ▸ owns
  · exact before.trans (after.symm.trans owns)
  · rw [free] at owns
    cases owns

/-- The first in line gets a mutex. -/
theorem handedOff {old : Mutex} (h : k.Regular) (begun : k.initialized = true)
    (found : k.mutexes.get? m = some old) (passes : old.Passes next mutex) :
    ({ k with mutexes := k.mutexes.replace m mutex }.makeReady next).1.Regular := by
  refine ⟨h.placement.of_handOff found passes, h.orderly.of_alike begun
    (h.orderly.owned.of_handOff h.placement found passes) ?_⟩
  refine .trans ?_ (.of_makeReady _ next)
  exact .of_ready

/-! ### The end of threads -/

theorem policies_passAll (ids : List MutexId) (owner : ThreadId) (k : Kernel) :
    (ids.foldl (Kernel.passOn owner) k).ready.policies = k.ready.policies := by
  induction ids generalizing k with
  | nil => rfl
  | cons m rest ih =>
    apply (ih _).trans
    unfold Kernel.passOn
    split
    · rfl
    · exact policies_makeReady _ _
    · rfl

theorem alike_ended (h : k.Regular) (found : k.threads.get? id = some thread)
    (busy : k.isIdle id = false) (alive : thread.state ≠ .terminated) :
    k.Alike (k.ended thread) := by
  have policies : (k.ended thread).ready.policies = k.ready.policies :=
    (policies_passAll _ thread.id _).trans
      (Unlists.of_detached h.placement (h.strange id) found busy alive).policies
  obtain ⟨_, _, _, _, _, same⟩ := ended_frame k thread
  rw [same] at policies ⊢
  exact .of_cpus rfl rfl rfl policies

theorem owned_ended (h : k.Regular) (found : k.threads.get? id = some thread)
    (busy : k.isIdle id = false) (alive : thread.state ≠ .terminated) : (k.ended thread).Owned :=
  h.orderly.owned.of_ends h.placement
    (h.placement.ends_ended (h.strange id) found busy alive) (cpus_ended k thread)

/-- A thread ends that does not run on the executing processor. -/
theorem endedElsewhere (h : k.Regular) (begun : k.initialized = true)
    (found : k.threads.get? id = some thread) (busy : k.isIdle id = false)
    (alive : thread.state ≠ .terminated) : (k.ended thread).Regular :=
  ⟨(h.placement.ended (h.strange id) found busy alive).placement,
    h.orderly.of_alike begun (h.owned_ended found busy alive) (h.alike_ended found busy alive)⟩

/-- A thread ends that runs on the executing processor. -/
theorem endedHere (h : k.Regular) (begun : k.initialized = true)
    (found : k.threads.get? id = some thread) (busy : k.isIdle id = false)
    (alive : thread.state ≠ .terminated) (current : k.running? here = some id) :
    Course.Regular here (.dispatch (k.ended thread)) := by
  have there : (k.cpus[here]?).isSome := by
    obtain ⟨slot, found, _⟩ := Option.bind_eq_some_iff.mp current
    simp [found]
  have alike := h.alike_ended found busy alive
  exact ⟨h.placement.vacant_of_ended (h.strange id) (h.idleAssigned begun there) current
    found busy alive,
    h.orderly.of_alike begun (h.owned_ended found busy alive) alike,
    alike.initialized.trans begun⟩

/-- Reaping concerns the records and stacks of terminated threads only. -/
theorem reaped (h : k.Regular) : k.reaped.Regular := by
  cases begun : k.initialized with
  | false =>
    have nobody : k.terminated = [] := (h.orderly.blank begun).empty .ended
    have same : k.reaped = { k with terminated := [] } := by
      unfold Kernel.reaped
      rw [nobody]
      rfl
    rw [same]
    exact h.of_eq rfl rfl rfl rfl rfl rfl rfl nobody.symm
  | true =>
    have placement := h.placement.reaped
    have spares : k.Spares k.reaped := by
      intro t thread found alive
      refine ⟨thread, (get?_reapAll _ _ fun member => ?_).trans found, alive, .inl rfl⟩
      have listed : t ∈ k.members .ended := (List.mem_filter.mp member).1
      have stands := ((h.placement.listed .ended).mem_iff t).mp listed
      rw [place?_of_found found] at stands
      exact alive (Thread.place_eq_ended_iff.mp (Option.some.inj stands))
    obtain ⟨threads, pool, heap, same⟩ := reaped_frame k
    rw [same] at placement spares ⊢
    exact ⟨placement, h.orderly.of_alike begun
      (h.orderly.owned.of_same spares (fun _ => rfl) rfl) (.of_cpus rfl rfl rfl rfl)⟩

end Regular

/-- A thread that is preempted runs on the processor and is neither idle nor terminated. -/
theorem tickVerdict_eq_preempt {slot : CpuSlot} {elapsed : Duration} {woken : Option Policy}
    (verdict : k.tickVerdict slot elapsed woken = .preempt id) :
    slot.running = some id ∧ k.isIdle id = false ∧ k.stateOf? id ≠ some .terminated ∧
      (k.threads.get? id).isSome := by
  unfold tickVerdict at verdict
  split at verdict
  · cases verdict
  · rename_i running current
    split at verdict
    · cases verdict
    · rename_i thread found
      split at verdict
      · cases verdict
      · rename_i alive
        split at verdict
        · split at verdict <;> cases verdict
        · rename_i busy
          dsimp only at verdict
          split at verdict
          · cases verdict
          · split at verdict
            · cases verdict
            · obtain rfl := TickVerdict.preempt.inj verdict
              exact ⟨current, by simpa using busy, by simp [stateOf?, found, alive],
                by simp [found]⟩

/-- A thread that is replaced is idle or does not run any more. -/
theorem tickVerdict_eq_replace {slot : CpuSlot} {elapsed : Duration} {woken : Option Policy}
    (verdict : k.tickVerdict slot elapsed woken = .replace) (current : slot.running = some id) :
    k.isIdle id = true ∨ k.stateOf? id ≠ some .running := by
  unfold tickVerdict at verdict
  simp only [current] at verdict
  split at verdict
  · rename_i missing
    exact .inr (by simp [stateOf?, missing])
  · rename_i thread found
    split at verdict
    · rename_i ended
      exact .inr (by simp [stateOf?, found, ended])
    · split at verdict
      · rename_i idle
        exact .inl idle
      · split at verdict
        · cases verdict
        · split at verdict <;> cases verdict

/-- A thread that is preempted runs on the processor. -/
theorem Regular.runs_of_preempt {slot : CpuSlot} {elapsed : Duration} {woken : Option Policy}
    (h : k.Regular) (found : k.cpus[here]? = some slot)
    (verdict : k.tickVerdict slot elapsed woken = .preempt id) :
    k.running? here = some id ∧ k.isIdle id = false ∧ k.stateOf? id = some .running := by
  obtain ⟨current, busy, alive, _⟩ := tickVerdict_eq_preempt verdict
  have running : k.running? here = some id := by simp [Kernel.running?, found, current]
  refine ⟨running, busy, ?_⟩
  rcases h.placement.occupied.place_of_running running with stands | stands
  · exact stateOf?_eq_some_running_iff.mpr stands
  · obtain ⟨thread, known, ended⟩ := exists_thread_of_place? stands
    refine absurd ?_ alive
    simp [stateOf?, known, Thread.place_eq_ended_iff.mp ended]

theorem begun_beforeCharge (begun : k.initialized = true) :
    (k.beforeCharge here).initialized = true :=
  (Regular.alike_beforeCharge k here).initialized.trans begun

theorem found_beforeCharge {slot : CpuSlot} (found : k.cpus[here]? = some slot) :
    (k.beforeCharge here).cpus[here]? = some slot := by
  rw [cpus_beforeCharge, found]

end Kernel

variable {k : Kernel} {here : Nat} {operation : Operation}
  {result : Except SchedulerError Reply} {course : Course}

open Kernel in
/-- No transition breaks the invariant. -/
theorem Transition.regular (transition : Transition k here operation result course)
    (h : k.Regular) : course.Regular here := by
  cases transition with
  | refused | answered | idleYielded | ignored | stayedAwake | alreadyEnded => exact h
  | denied | subscribed | timerStarted | timerStopped | timerInterrupted =>
    exact h.of_eq rfl rfl rfl rfl rfl rfl rfl rfl
  | booted fresh _ reserved adopted => exact h.booted fresh reserved adopted
  | bootstrapRefused _ fresh =>
    exact h.discarded fresh rfl
  | idleRefused _ fresh _ _ adopted =>
    have length := adopted.length
    obtain ⟨_, _, _, _, rfl⟩ := adopted.frame
    exact h.discarded fresh length
  | spawned begun admits => exact h.spawned begun admits
  | vacated begun found leaves =>
    apply h.vacated begun found
    intro id current
    exact (leaves id current).imp And.left And.right
  | yielded begun caller =>
    obtain ⟨current, busy, runs⟩ := caller_eq_ok_iff.mp caller
    exact h.yielded begun current busy runs
  | kept begun _ _ =>
    exact (h.beforeCharge begun).kept (begun_beforeCharge begun) _
  | preempted begun found verdict =>
    have timed : (k.beforeCharge here).Regular := h.beforeCharge begun
    obtain ⟨current, busy, runs⟩ := timed.runs_of_preempt (found_beforeCharge found) verdict
    exact timed.yielded (begun_beforeCharge begun) current busy runs
  | replaced begun found verdict =>
    exact (h.beforeCharge begun).vacated (begun_beforeCharge begun) (found_beforeCharge found)
      fun id current => tickVerdict_eq_replace verdict current
  | fellAsleep begun caller _ _ =>
    obtain ⟨current, busy, runs⟩ := caller_eq_ok_iff.mp caller
    exact h.fellAsleep begun current busy runs _
  | mutexCreated created => exact h.mutexCreated created
  | mutexReleased released => exact h.mutexReleased released
  | locked begun caller found granted => exact h.locked begun caller found granted
  | blocked begun caller found waits => exact h.blocked begun caller found waits
  | unlocked begun _ found nobody => exact h.unlocked begun found nobody
  | handedOff begun _ found passes =>
    exact h.handedOff begun found (Mutex.unlock_passes passes).2.2
  | endedElsewhere begun _ found alive busy _ => exact h.endedElsewhere begun found busy alive
  | endedHere begun _ found alive busy current =>
    exact h.endedHere begun found busy alive (h.placement.records.handle found ▸ current)
  | threadPointerSet begun _ => exact h.threadPointerSet begun _ _
  | reaped _ => exact h.reaped

/-- The invariant holds again in the kernel in which an operation leaves off. -/
theorem Transition.regular_kernel (transition : Transition k here operation result course)
    (h : k.Regular) : (course.kernel here).Regular := by
  have regular := transition.regular h
  cases course with
  | stay after => exact regular
  | dispatch after => exact Kernel.Regular.redispatch regular.1 regular.2.1 regular.2.2

end ThreadScheduler
