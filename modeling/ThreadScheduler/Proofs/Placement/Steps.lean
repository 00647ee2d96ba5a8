/-
Module: ThreadScheduler.Proofs.Placement.Steps
Purpose: Every list and processor agrees with the places of the threads after each single thing that
  an operation does: a thread stands down, sleeps, wakes, waits for a mutex or is given one, is
  registered or forgotten.
Main exports: Kernel.Placement.vacant, Kernel.Placement.of_makeReady, Kernel.Placement.timeKept,
  Kernel.Placement.of_handOff, Kernel.Placement.of_admitted, Kernel.Placement.reaped
-/
import ThreadScheduler.Proofs.Placement.Dispatch

namespace ThreadScheduler.Kernel

variable {k k' base : Kernel} {here : Nat} {id : ThreadId} {thread : Thread} {c : Container}
  {place : Place}

theorem stateOf?_eq_some_running_iff :
    k.stateOf? id = some .running ↔ k.place? id = some .processor := by
  simp only [stateOf?, place?, Option.map_eq_some_iff, Thread.place_eq_processor_iff]

namespace Placement

/-- The idle threads stand in no list. -/
theorem busy_of_place (h : k.Placement) (stands : k.place? id = some (.inside c)) :
    k.isIdle id = false := by
  cases idle : k.isIdle id with
  | false => rfl
  | true =>
    obtain ⟨cpu, owned⟩ := isIdle_iff.mp idle
    rcases h.occupied.idle owned with aside | running
    · cases stands.symm.trans aside
    · cases stands.symm.trans running

/-- A thread in a list runs on no processor, unless it was terminated. -/
theorem not_running_of_place (h : k.Placement) (stands : k.place? id = some (.inside c))
    (alive : c ≠ .ended) (cpu : Nat) : k.running? cpu ≠ some id := by
  intro found
  rcases h.occupied.place_of_running found with running | ended
  · cases stands.symm.trans running
  · exact alive (Place.inside.inj (Option.some.inj (stands.symm.trans ended)))

theorem mem_ready_iff (h : k.Placement) :
    id ∈ k.ready.toList ↔ ∃ policy, k.place? id = some (.inside (.level policy)) := by
  rw [ReadyQueue.mem_toList_iff h.records.ordered]
  exact exists_congr fun policy => (h.listed (.level policy)).mem_iff id

/-- A thread that waits for a processor waits at the level of its policy. -/
theorem policyOf?_of_mem_level (h : k.Placement) {policy : Policy}
    (waits : id ∈ k.ready.threadsAt policy) : k.policyOf? id = some policy := by
  have stands := ((h.listed (.level policy)).mem_iff id).mp waits
  obtain ⟨thread, found, place⟩ := exists_thread_of_place? stands
  simp [policyOf?, found, (Thread.place_eq_level_iff.mp place).2.2]

theorem mem_timeline_iff (h : k.Placement) :
    id ∈ k.sleeping.threads ↔ k.place? id = some (.inside .timeline) :=
  (h.listed .timeline).mem_iff id

theorem ready_once (h : k.Placement) : k.ready.toList.Nodup := by
  refine ReadyQueue.nodup_toList h.records.ordered
    (fun policy => (h.listed (.level policy)).once) ?_
  intro p q id first second
  have place := ((h.listed (.level p)).mem_iff id).mp first
  have place' := ((h.listed (.level q)).mem_iff id).mp second
  exact Container.level.inj (Place.inside.inj (Option.some.inj (place.symm.trans place')))

/-! ### Standing down -/

private theorem place?_vacate_of_gone
    (gone : ∀ id, k.running? here = some id → k.place? id ≠ some .processor) (id : ThreadId) :
    (k.vacate here).place? id = k.place? id := by
  refine place?_congr ?_ (idle?_vacate k here)
  rw [get?_vacate, if_neg]
  rintro ⟨current, runs⟩
  exact gone id current (stateOf?_eq_some_running_iff.mp runs)

private theorem vacate_threads_of_gone
    (gone : ∀ id, k.running? here = some id → k.place? id ≠ some .processor) :
    (k.vacate here).threads = k.threads := by
  rw [vacate_of_gone]
  intro id current
  rw [Ne, stateOf?_eq_some_running_iff]
  exact gone id current

/-- A processor whose running thread is idle or was terminated can get its next thread. -/
theorem vacant (h : k.Placement) (idleAssigned : (k.idle? here).isSome)
    (leaves : ∀ id, k.running? here = some id →
      k.isIdle id = true ∨ k.place? id ≠ some .processor) : k.Vacant here := by
  refine ⟨?_, ?_, idleAssigned⟩
  · by_cases gone : ∀ id, k.running? here = some id → k.place? id ≠ some .processor
    · have threads := vacate_threads_of_gone gone
      refine ⟨h.records.of_same (fun _ => by rw [threads]) h.records.mutexHandle rfl,
        h.occupied.of_vacancy threads (cpus_vacate k here) gone, fun c => ?_⟩
      rw [members_vacate]
      exact (h.listed c).congr fun other => by rw [place?_vacate_of_gone gone]
    · simp only [Classical.not_forall, Classical.not_not] at gone
      obtain ⟨id, current, runs⟩ := gone
      have idle := (leaves id current).resolve_right (fun away => away runs)
      obtain ⟨thread, found, stands⟩ := exists_thread_of_place? runs
      have threads : (k.vacate here).threads = k.threads.modify id
        ({ · with state := .ready }) := by
        unfold vacate
        simp [current, stateOf?_eq_some_running_iff.mpr runs, ThreadTable.setState]
      have state := Thread.place_eq_processor_iff.mp stands
      have amends := amends_of_modify threads
      have moves : k.Moves (k.vacate here) id (some .processor) (some .aside) :=
        Moves.of_amends found amends (idle?_vacate k here) stands
          (Thread.place_eq_aside_iff.mpr (.inl ⟨rfl, idle⟩)) (by simp) (by simp) (by simp)
          fun c _ _ => members_vacate k here c
      refine ⟨?_, h.occupied.of_departure moves current (cpus_vacate k here) fun _ => rfl,
        moves.listed h.listed⟩
      refine h.records.of_amends amends (fun _ => ⟨rfl, rfl⟩) (fun old present => ?_)
        h.records.mutexHandle rfl
      obtain rfl := Option.some.inj (found.symm.trans present)
      have free := h.records.waits present
      rw [state] at free
      simpa using free
  · intro id current
    rw [← isSome_place?]
    rcases h.occupied.place_of_running current with stands | stands <;> simp [stands]

/-- The running thread of a processor went to a list, and the processor can get its next thread. -/
theorem vacant_of_departure (h : k.Placement) (idleAssigned : (k.idle? here).isSome)
    (moves : k.Moves k' id (some .processor) (some (.inside c)))
    (current : k.running? here = some id) (busy : k.isIdle id = false) (cpus : k'.cpus = k.cpus)
    (records : k'.Records) : k'.Vacant here := by
  have running (cpu : Nat) : k'.running? cpu = k.running? cpu := by
    rw [Kernel.running?, cpus, Kernel.running?]
  have idle (cpu : Nat) : k'.idle? cpu = k.idle? cpu := by rw [Kernel.idle?, cpus, Kernel.idle?]
  have gone (other : ThreadId) (runs : k'.running? here = some other) :
      k'.place? other ≠ some .processor := by
    rw [running, current] at runs
    obtain rfl := Option.some.inj runs
    simp [moves.place]
  have threads := vacate_threads_of_gone gone
  have leaves : k.Moves (k'.vacate here) id (some .processor) (some (.inside c)) :=
    moves.congr (place?_vacate_of_gone gone) (members_vacate k' here)
  refine ⟨⟨records.of_same (fun _ => by rw [threads]) records.mutexHandle rfl, ?_,
    leaves.listed h.listed⟩, ?_, idle here ▸ idleAssigned⟩
  · refine h.occupied.of_departure leaves current ?_ fun same => ?_
    · rw [cpus_vacate, cpus]
    · rw [busy] at same
      cases same
  · intro other runs
    rw [running, current] at runs
    obtain rfl := Option.some.inj runs
    rw [← isSome_place?, moves.place, if_pos rfl]
    rfl

/-! ### Becoming ready -/

/-- A thread that slept or waited becomes ready. -/
theorem of_makeReady (h : k.Placement) (unlists : k.Unlists base id (.inside c))
    (stands : k.place? id = some (.inside c)) (waits : c = .timeline ∨ ∃ m, c = .line m) :
    (base.makeReady id).1.Placement := by
  have busy := h.busy_of_place stands
  obtain ⟨thread, found, start⟩ := exists_thread_of_place? stands
  rw [busy] at start
  have waiting : thread.state ≠ .ready := by
    rcases waits with rfl | ⟨m, rfl⟩
    · rw [Thread.place_eq_timeline_iff.mp start]
      nofun
    · rw [(Thread.place_eq_line_iff.mp start).1]
      nofun
  have alive : c ≠ .ended := by
    rcases waits with rfl | ⟨m, rfl⟩ <;> nofun
  have moves := unlists.moves_makeReady h.records busy found start waiting
  refine ⟨(unlists.records h.records).of_makeReady, ?_, moves.listed h.listed⟩
  refine h.occupied.of_moves moves ?_ busy
    (fun cpu runs => absurd runs (h.not_running_of_place stands alive cpu)) nofun nofun
  rw [cpus_makeReady, unlists.cpus]

/-- The running thread goes back to the ready queue. -/
theorem vacant_of_makeReady (h : k.Placement) (idleAssigned : (k.idle? here).isSome)
    (current : k.running? here = some id) (busy : k.isIdle id = false)
    (runs : k.stateOf? id = some .running) : (k.makeReady id).1.Vacant here := by
  have stands := stateOf?_eq_some_running_iff.mp runs
  obtain ⟨thread, found, start⟩ := exists_thread_of_place? stands
  rw [busy] at start
  have state := Thread.place_eq_processor_iff.mp start
  have unlists : k.Unlists k id .processor := .of_apart nofun
  have moves := unlists.moves_makeReady h.records busy found start (by rw [state]; nofun)
  exact h.vacant_of_departure idleAssigned moves current busy (cpus_makeReady k id)
    h.records.of_makeReady

/-! ### The timeline -/

private theorem makeReady_sleeping (k : Kernel) (id : ThreadId) (sleeping : Timeline) :
    ({ k with sleeping }.makeReady id).1 = { (k.makeReady id).1 with sleeping } := by
  unfold makeReady
  dsimp only
  cases k.threads.get? id with
  | none => rfl
  | some thread =>
    unfold enqueueReady
    dsimp only
    cases k.ready.enqueue id thread.policy <;> rfl

/-- Threads that come off the timeline become ready one after the other. -/
theorem of_woken (due : List ThreadId) {rest : Timeline} (h : k.Placement)
    (split : k.sleeping.threads = due ++ rest.threads) :
    ({ k with sleeping := rest }.makeReadyAll due).Placement := by
  induction due generalizing k with
  | nil => exact h.of_eq rfl rfl rfl split.symm rfl (List.Perm.refl _)
  | cons id due ih =>
    -- The threads that are still to be woken stay on the timeline for the moment.
    let later : Timeline := { rest with nodes := due.map (⟨·, .zero⟩) ++ rest.nodes }
    have laterThreads : later.threads = due ++ rest.threads := by
      simp [later, Timeline.threads, Function.comp_def]
    have unlists : k.Unlists { k with sleeping := later } id (.inside .timeline) := by
      refine ⟨rfl, rfl, rfl, fun _ => rfl, fun c same => ?_, fun c outside => ?_⟩
      · obtain rfl := Place.inside.inj same
        change k.sleeping.threads.Perm (id :: later.threads)
        rw [split, laterThreads, List.cons_append]
      · cases c with
        | timeline => exact absurd rfl outside
        | _ => rfl
    have stands : k.place? id = some (.inside .timeline) := by
      apply ((h.listed .timeline).mem_iff id).mp
      change id ∈ k.sleeping.threads
      rw [split]
      exact List.mem_cons_self
    have woken := h.of_makeReady unlists stands (.inl rfl)
    have next := ih woken (by rw [makeReady_sleeping]; exact laterThreads)
    unfold makeReadyAll at next ⊢
    rw [List.foldl_cons, makeReady_sleeping]
    rw [makeReady_sleeping] at next
    exact next

/-- Keeping time wakes the threads that are due. -/
theorem timeKept (h : k.Placement) : k.timeKept.Placement := by
  unfold Kernel.timeKept
  have base : Placement { k with timer := k.timer.interrupt.2 } :=
    h.of_eq rfl rfl rfl rfl rfl (List.Perm.refl _)
  apply base.of_woken k.woken
  rw [woken, Timeline.threads_drain, Timeline.threads_advance]

/-- The running thread goes to sleep. -/
theorem vacant_of_asleep (h : k.Placement) (idleAssigned : (k.idle? here).isSome)
    (current : k.running? here = some id) (busy : k.isIdle id = false)
    (runs : k.stateOf? id = some .running) (wake : Instant) :
    Vacant { k with
      threads := k.threads.setState id .sleeping
      sleeping := k.sleeping.enqueue id wake } here := by
  obtain ⟨thread, found, start⟩ :=
    exists_thread_of_place? (stateOf?_eq_some_running_iff.mp runs)
  have state := Thread.place_eq_processor_iff.mp start
  have amends : k.Amends { k with
      threads := k.threads.setState id .sleeping
      sleeping := k.sleeping.enqueue id wake } id ({ · with state := .sleeping }) :=
    amends_of_modify rfl
  refine h.vacant_of_departure idleAssigned (Moves.of_amends found amends (fun _ => rfl) start
    (Thread.place_eq_timeline_iff.mpr rfl) nofun nofun (fun c same => ?_) fun c _ away => ?_)
    current busy rfl (h.records.of_amends amends (fun _ => ⟨rfl, rfl⟩) (fun old present => ?_)
      h.records.mutexHandle rfl)
  · obtain rfl := Place.inside.inj same
    exact Timeline.threads_enqueue_perm _ _ _
  · cases c with
    | timeline => exact absurd rfl away
    | _ => rfl
  · obtain rfl := Option.some.inj (found.symm.trans present)
    have free := h.records.waits present
    rw [state] at free
    simpa using free

end Placement

end ThreadScheduler.Kernel
