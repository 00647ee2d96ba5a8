/-
Module: ThreadScheduler.Proofs.Placement.Dispatch
Purpose: A processor changes threads in two moves: the thread that ran stands down, and the next one
  is installed. Between the two moves every list and processor agrees with the places.
Main exports: Kernel.vacate, Kernel.Vacant, Kernel.Installs, Kernel.exists_installs,
  Kernel.Vacant.placement_redispatch
-/
import ThreadScheduler.Proofs.Placement.Changes

namespace ThreadScheduler.Kernel

variable {k k' : Kernel} {here : Nat} {id next : ThreadId}

/-- The kernel while a processor changes threads. The processor runs nothing, and a thread that it
ran and that went nowhere else stands aside. -/
def vacate (k : Kernel) (here : Nat) : Kernel :=
  { k with
    threads := (k.running? here).elim k.threads fun id =>
      if k.stateOf? id = some .running then k.threads.setState id .ready else k.threads
    cpus := k.cpus.modify here ({ · with running := none }) }

/-- A kernel in which all threads have moved and a processor is to get its next thread. -/
structure Vacant (k : Kernel) (here : Nat) : Prop where
  placement : (k.vacate here).Placement
  /-- The switch still needs the record of the thread that the processor leaves. -/
  recorded : ∀ id, k.running? here = some id → (k.threads.get? id).isSome
  idleAssigned : (k.idle? here).isSome

/-- A processor goes on with a thread: the one that is served next, or its idle thread. -/
structure Installs (k k' : Kernel) (here : Nat) (next : ThreadId) : Prop where
  picked : ∃ slot, k.cpus[here]? = some slot ∧ k.pickNext slot = some (next, k'.ready)
  amends : (k.vacate here).Amends k' next ({ · with state := .running })
  slots : ∃ change : CpuSlot → CpuSlot, k'.cpus = (k.vacate here).cpus.modify here change ∧
    ∀ slot, (change slot).running = some next ∧ (change slot).idle = slot.idle ∧
      ∀ other, (change slot).previous = some other →
        slot.previous = some other ∨ k.running? here = some other
  frame : ∃ threads cpus ready switches, k' = { k with threads, cpus, ready, switches }

/-! ### Standing down -/

theorem cpus_vacate (k : Kernel) (here : Nat) :
    (k.vacate here).cpus = k.cpus.modify here ({ · with running := none }) := rfl

theorem idle?_vacate (k : Kernel) (here cpu : Nat) : (k.vacate here).idle? cpu = k.idle? cpu :=
  idle?_of_modify (cpus_vacate k here) (fun _ => rfl) cpu

@[simp] theorem isIdle_vacate (k : Kernel) (here : Nat) (id : ThreadId) :
    (k.vacate here).isIdle id = k.isIdle id := isIdle_congr (idle?_vacate k here)

theorem running?_vacate (k : Kernel) (here cpu : Nat) :
    (k.vacate here).running? cpu = if cpu = here then none else k.running? cpu := by
  rw [running?_of_modify (cpus_vacate k here)]
  split
  · simp
  · rfl

/-- Standing down changes at most the record of the thread that ran. -/
theorem get?_vacate (k : Kernel) (here : Nat) (other : ThreadId) :
    (k.vacate here).threads.get? other =
      if k.running? here = some other ∧ k.stateOf? other = some .running then
        (k.threads.get? other).map ({ · with state := .ready })
      else k.threads.get? other := by
  unfold vacate
  cases current : k.running? here with
  | none => simp
  | some id =>
    by_cases runs : k.stateOf? id = some .running
    · simp only [Option.elim_some, if_pos runs, ThreadTable.setState, ThreadTable.get?_modify]
      by_cases same : other = id
      · subst same
        simp [runs]
      · have distinct : ¬ id = other := fun eq => same eq.symm
        simp [same, distinct]
    · simp only [Option.elim_some, if_neg runs]
      split
      · rename_i both
        exact absurd (Option.some.inj both.1 ▸ both.2) runs
      · rfl

/-- A thread that went elsewhere leaves an empty slot behind and nothing else. -/
theorem vacate_of_gone (gone : ∀ id, k.running? here = some id → k.stateOf? id ≠ some .running) :
    k.vacate here = { k with cpus := k.cpus.modify here ({ · with running := none }) } := by
  unfold vacate
  cases current : k.running? here with
  | none => rfl
  | some id => simp [gone id current]

theorem isSome_get?_vacate (k : Kernel) (here : Nat) (other : ThreadId) :
    ((k.vacate here).threads.get? other).isSome = (k.threads.get? other).isSome := by
  rw [get?_vacate]
  split <;> simp

/-- The members of the lists do not depend on the processors. -/
theorem members_vacate (k : Kernel) (here : Nat) (c : Container) :
    (k.vacate here).members c = k.members c := by
  cases c <;> rfl

/-! ### Installing -/

private theorem countSwitch_frame (switch : Option Switch) (k : Kernel) :
    ∃ switches, Call.countSwitch switch k = { k with switches } := by
  cases switch with
  | none => exact ⟨k.switches, rfl⟩
  | some switch => exact ⟨k.switches + 1, rfl⟩

private theorem exists_picked (idleAssigned : (k.idle? here).isSome) :
    ∃ slot next ready, k.cpus[here]? = some slot ∧ k.pickNext slot = some (next, ready) := by
  obtain ⟨idle, found⟩ := Option.isSome_iff_exists.mp idleAssigned
  obtain ⟨slot, present, same⟩ := Option.bind_eq_some_iff.mp found
  unfold pickNext
  cases k.ready.dequeue with
  | some picked => exact ⟨slot, picked.1, picked.2, present, rfl⟩
  | none => exact ⟨slot, idle, k.ready, present, by simp [same]⟩

/-- A thread that stood down and is then made the running one has the record it gets when it is made
the running one at once. -/
private theorem amends_install {ready : ReadyQueue}
    (same : ∀ id, k.running? here = some id → id = next ∨ k.stateOf? id ≠ some .running) :
    (k.vacate here).Amends ({ k with ready }.install here next) next
      ({ · with state := .running }) := by
  intro other
  change (k.threads.modify next _).get? other = _
  rw [ThreadTable.get?_modify, get?_vacate, get?_vacate]
  by_cases here' : other = next
  · subst here'
    simp only [if_true]
    split
    · simp [Function.comp_def]
    · rfl
  · simp only [if_neg here']
    split
    · rename_i both
      rcases same other both.1 with eq | gone
      · exact absurd eq here'
      · exact absurd both.2 gone
    · rfl

private theorem amends_depart {ready : ReadyQueue} {previous : ThreadId}
    (current : k.running? here = some previous) (distinct : previous ≠ next) :
    (k.vacate here).Amends (({ k with ready }.install here next).depart here previous) next
      ({ · with state := .running }) := by
  have state : Kernel.stateOf? ({ k with ready }.install here next) previous =
      k.stateOf? previous := by
    simp [stateOf?, install, ThreadTable.setState, ThreadTable.get?_modify, distinct]
  by_cases runs : k.stateOf? previous = some .running
  · intro other
    have threads : (({ k with ready }.install here next).depart here previous).threads =
        (k.threads.setState next .running).setState previous .ready := by
      unfold depart
      simp only [state, runs, if_true]
      rfl
    rw [threads]
    simp only [ThreadTable.setState, ThreadTable.get?_modify, get?_vacate, current]
    by_cases old : other = previous
    · subst old
      simp [distinct, runs]
    · have apart : ¬ previous = other := fun eq => old eq.symm
      simp [old, apart, distinct]
  · have threads : (({ k with ready }.install here next).depart here previous).threads =
        ({ k with ready }.install here next).threads := by
      simp [depart, state, runs]
    have installed : (k.vacate here).Amends ({ k with ready }.install here next) next
        ({ · with state := .running }) := by
      apply amends_install
      intro id found
      obtain rfl := Option.some.inj (found.symm.trans current)
      exact .inr runs
    intro other
    rw [threads]
    exact installed other

/-- A processor that has an idle thread gets its next thread. -/
theorem exists_installs (idleAssigned : (k.idle? here).isSome) :
    ∃ next, k.Installs (k.redispatch here) here next := by
  obtain ⟨slot, next, ready, found, picked⟩ := exists_picked idleAssigned
  refine ⟨next, ?_⟩
  obtain ⟨switches, counted⟩ :=
    countSwitch_frame ((k.dispatch here).2.bind (k.dispatch here).1.switch?) (k.dispatch here).1
  unfold redispatch
  rw [counted]
  have current : k.running? here = slot.running := by simp [running?, found]
  -- Nobody has to leave a processor that is vacant or picks the thread that it ran.
  by_cases same : ∀ previous, slot.running = some previous → previous = next
  · have dispatched : (k.dispatch here).1 = { k with ready }.install here next := by
      unfold dispatch
      simp only [found, picked]
      split
      · rfl
      · rename_i previous runs
        simp [same previous runs]
    rw [dispatched]
    refine ⟨⟨slot, found, picked⟩, ?_, ?_, ⟨_, _, _, _, rfl⟩⟩
    · exact amends_install fun id runs => .inl (same id (current.symm.trans runs))
    · have cpus : ({ k with ready }.install here next).cpus =
          (k.vacate here).cpus.modify here
            ({ · with running := some next, slice := k.config.quantum }) := by
        rw [cpus_vacate, List.modify_modify_eq]
        rfl
      exact ⟨_, cpus, fun _ => ⟨rfl, rfl, fun _ last => .inl last⟩⟩
  · simp only [Classical.not_forall] at same
    obtain ⟨previous, runs, distinct⟩ := same
    have dispatched : (k.dispatch here).1 =
        ({ k with ready }.install here next).depart here previous := by
      unfold dispatch
      simp [found, picked, runs, distinct]
    rw [dispatched]
    refine ⟨⟨slot, found, picked⟩, amends_depart (current.trans runs) distinct, ?_,
      ⟨_, _, _, _, rfl⟩⟩
    have cpus : (({ k with ready }.install here next).depart here previous).cpus =
        (k.vacate here).cpus.modify here
          ({ · with running := some next, slice := k.config.quantum, previous }) := by
      rw [cpus_vacate, List.modify_modify_eq]
      exact List.modify_modify_eq _ _ _ _
    refine ⟨_, cpus, fun _ => ⟨rfl, rfl, fun other last => ?_⟩⟩
    exact .inr ((current.trans runs).trans last)

/-- A thread that is installed waited at the head of its level, or is the idle thread and nobody
waits. -/
theorem pickNext_cases {slot : CpuSlot} {ready : ReadyQueue}
    (picked : k.pickNext slot = some (next, ready)) :
    k.ready.dequeue = some (next, ready) ∨
      k.ready.dequeue = none ∧ slot.idle = some next ∧ ready = k.ready := by
  unfold pickNext at picked
  split at picked
  · rename_i served found
    exact .inl (found.trans picked)
  · rename_i none
    obtain ⟨idle, owned, same⟩ := Option.map_eq_some_iff.mp picked
    obtain ⟨rfl, rfl⟩ := Prod.mk.injEq .. ▸ same
    exact .inr ⟨none, owned, rfl⟩

namespace Installs

theorem members (installs : k.Installs k' here next) (c : Container)
    (other : ∀ policy, c ≠ .level policy) : k'.members c = k.members c := by
  obtain ⟨threads, cpus, ready, switches, rfl⟩ := installs.frame
  cases c with
  | level policy => exact absurd rfl (other policy)
  | timeline => rfl
  | line mutex => rfl
  | ended => rfl

theorem idle? (installs : k.Installs k' here next) (cpu : Nat) :
    k'.idle? cpu = (k.vacate here).idle? cpu := by
  obtain ⟨change, cpus, slots⟩ := installs.slots
  exact idle?_of_modify cpus (fun slot => (slots slot).2.1) cpu

end Installs

namespace Vacant

/-- The thread that is served comes off its level and has no other place. -/
private theorem moves_of_dequeue (h : k.Vacant here) (installs : k.Installs k' here next)
    (served : k.ready.dequeue = some (next, k'.ready)) :
    ∃ policy, (k.vacate here).Moves k' next (some (.inside (.level policy))) (some .processor) := by
  obtain ⟨policy, head, others, _⟩ :=
    ReadyQueue.exists_level_of_dequeue h.placement.records.ordered served
  have stands : (k.vacate here).place? next = some (.inside (.level policy)) := by
    apply ((h.placement.listed (.level policy)).mem_iff next).mp
    change next ∈ (k.vacate here).ready.threadsAt policy
    rw [head]
    exact List.mem_cons_self
  obtain ⟨thread, found, place⟩ := exists_thread_of_place? stands
  refine ⟨policy, Moves.of_amends found installs.amends installs.idle? place rfl (by simp) ?_ ?_ ?_⟩
  · intro c same
    obtain rfl := Place.inside.inj same
    change ((k.vacate here).ready.threadsAt policy).Perm (next :: k'.ready.threadsAt policy)
    rw [head]
  · intro c same
    cases same
  · intro c outside _
    rw [members_vacate]
    cases c with
    | level other => exact others other fun same => outside (same ▸ rfl)
    | timeline => exact installs.members _ nofun
    | line mutex => exact installs.members _ nofun
    | ended => exact installs.members _ nofun

/-- The idle thread of the processor stood aside. -/
private theorem moves_of_idle (h : k.Vacant here) (installs : k.Installs k' here next)
    (ready : k'.ready = k.ready) (idle : (k.vacate here).idle? here = some next) :
    (k.vacate here).Moves k' next (some .aside) (some .processor) := by
  have stands : (k.vacate here).place? next = some .aside := by
    apply (h.placement.occupied.idle idle).resolve_right
    intro runs
    obtain ⟨cpu, found⟩ := h.placement.occupied.running_of_place runs
    obtain rfl := h.placement.occupied.home idle found
    rw [running?_vacate, if_pos rfl] at found
    cases found
  obtain ⟨thread, found, place⟩ := exists_thread_of_place? stands
  refine Moves.of_amends found installs.amends installs.idle? place rfl (by simp) nofun nofun ?_
  intro c _ _
  rw [members_vacate]
  cases c with
  | level policy => exact congrArg (·.threadsAt policy) ready
  | timeline => exact installs.members _ nofun
  | line mutex => exact installs.members _ nofun
  | ended => exact installs.members _ nofun

/-- A thread that gets a processor keeps everything in its place. -/
private theorem placement_of_moves {place : Place} (h : k.Vacant here)
    (installs : k.Installs k' here next)
    (moves : (k.vacate here).Moves k' next (some place) (some .processor))
    (waited : ∀ thread, (k.vacate here).threads.get? next = some thread → thread.state = .ready)
    (policies : k'.ready.policies = k.ready.policies)
    (own : ∀ cpu, (k.vacate here).idle? cpu = some next → cpu = here) : k'.Placement := by
  obtain ⟨slot, found, _⟩ := installs.picked
  obtain ⟨change, cpus, slots⟩ := installs.slots
  obtain ⟨thread, present, stands⟩ := exists_thread_of_place? moves.before
  have records : k'.Records := by
    refine h.placement.records.of_amends installs.amends (fun _ => ⟨rfl, rfl⟩) ?_ ?_ policies
    · intro thread found
      rw [h.placement.records.waits found, waited thread found]
      simp
    · intro m mutex found
      obtain ⟨threads, cpus, ready, switches, rfl⟩ := installs.frame
      exact h.placement.records.mutexHandle found
  refine ⟨records, ?_, moves.listed h.placement.listed⟩
  refine h.placement.occupied.of_installation moves (by simp [running?_vacate]) cpus
    (by simp [cpus_vacate, found]) (fun slot => (slots slot).1) (fun slot => (slots slot).2.1) ?_
    ?_ own
  rotate_left
  · intro same
    rw [Option.some.inj same, Thread.place_eq_ended_iff, waited thread present] at stands
    cases stands
  intro slot other _ last
  apply ((slots slot).2.2 other last).imp_right
  intro ran
  rw [isSome_get?_vacate]
  exact h.recorded other ran

/-- A processor that gets its next thread keeps everything in its place. -/
theorem placement_of_installs (h : k.Vacant here) (installs : k.Installs k' here next) :
    k'.Placement := by
  have occupied := h.placement.occupied
  obtain ⟨slot, found, picked⟩ := installs.picked
  rcases pickNext_cases picked with served | ⟨_, idle, ready⟩
  · obtain ⟨policy, moves⟩ := h.moves_of_dequeue installs served
    have level (thread : Thread) (present : (k.vacate here).threads.get? next = some thread) :
        thread.state = .ready ∧ (k.vacate here).isIdle next = false := by
      have stands := moves.before
      rw [place?_of_found present] at stands
      have level := Thread.place_eq_level_iff.mp (Option.some.inj stands)
      exact ⟨level.1, level.2.1⟩
    obtain ⟨thread, present, _⟩ := exists_thread_of_place? moves.before
    refine h.placement_of_moves installs moves (fun thread present => (level thread present).1)
      (ReadyQueue.policies_of_dequeue h.placement.records.ordered served) fun cpu owned => ?_
    exact absurd owned (isIdle_eq_false (level thread present).2 cpu)
  · have owned : (k.vacate here).idle? here = some next := by
      rw [idle?_vacate]
      simp [Kernel.idle?, found, idle]
    have moves := h.moves_of_idle installs ready owned
    refine h.placement_of_moves installs moves (fun thread present => ?_) (congrArg _ ready)
      fun cpu also => occupied.own also owned
    have stands := moves.before
    rw [place?_of_found present] at stands
    rcases Thread.place_eq_aside_iff.mp (Option.some.inj stands) with ⟨ready, _⟩
      | ⟨blocked, nowhere⟩
    · exact ready
    · have named := (h.placement.records.waits present).mpr blocked
      rw [nowhere] at named
      cases named

end Vacant

end ThreadScheduler.Kernel
