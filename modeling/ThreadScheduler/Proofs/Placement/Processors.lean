/-
Module: ThreadScheduler.Proofs.Placement.Processors
Purpose: The processors agree with the places of the threads after a thread moves elsewhere, leaves
  its processor or is installed on one.
Main exports: Kernel.Occupied.of_moves, Kernel.Occupied.of_departure, Kernel.Occupied.of_vacancy,
  Kernel.Occupied.of_installation
-/
import ThreadScheduler.Proofs.Placement.Basic

namespace ThreadScheduler.Kernel

variable {k k' : Kernel} {id : ThreadId} {origin target : Option Place}

/-- A thread is idle exactly if some processor runs it when nothing is ready. -/
theorem isIdle_iff : k.isIdle id = true ↔ ∃ cpu, k.idle? cpu = some id := by
  simp only [isIdle, List.any_eq_true, decide_eq_true_eq, idle?, Option.bind_eq_some_iff]
  constructor
  · rintro ⟨slot, member, same⟩
    obtain ⟨cpu, found⟩ := List.mem_iff_getElem?.mp member
    exact ⟨cpu, slot, found, same⟩
  · rintro ⟨cpu, slot, found, same⟩
    exact ⟨slot, List.mem_of_getElem? found, same⟩

theorem isIdle_congr (idle : ∀ cpu, k'.idle? cpu = k.idle? cpu) : k'.isIdle id = k.isIdle id := by
  rw [Bool.eq_iff_iff, isIdle_iff, isIdle_iff]
  simp only [idle]

theorem isIdle_eq_false (h : k.isIdle id = false) (cpu : Nat) : k.idle? cpu ≠ some id := by
  intro idle
  rw [isIdle_iff.mpr ⟨cpu, idle⟩] at h
  cases h

/-- A thread has a place exactly if it has a record. -/
theorem isSome_place? : (k.place? id).isSome = (k.threads.get? id).isSome := by
  simp [place?]

theorem running?_of_modify {here : Nat} {change : CpuSlot → CpuSlot}
    (cpus : k'.cpus = k.cpus.modify here change) (cpu : Nat) :
    k'.running? cpu =
      if cpu = here then k.cpus[here]?.bind fun slot => (change slot).running
      else k.running? cpu := by
  unfold running?
  rw [cpus, List.getElem?_modify]
  by_cases same : cpu = here
  · subst same
    cases k.cpus[cpu]? <;> simp
  · have other : ¬ here = cpu := fun eq => same eq.symm
    simp [same, other]

theorem idle?_of_modify {here : Nat} {change : CpuSlot → CpuSlot}
    (cpus : k'.cpus = k.cpus.modify here change)
    (keeps : ∀ slot, (change slot).idle = slot.idle) (cpu : Nat) :
    k'.idle? cpu = k.idle? cpu := by
  unfold idle?
  rw [cpus, List.getElem?_modify]
  cases k.cpus[cpu]? with
  | none => rfl
  | some slot => by_cases same : here = cpu <;> simp [same, keeps]

theorem previous_of_modify {here cpu : Nat} {change : CpuSlot → CpuSlot} {slot' : CpuSlot}
    (cpus : k'.cpus = k.cpus.modify here change) (found : k'.cpus[cpu]? = some slot') :
    ∃ slot, k.cpus[cpu]? = some slot ∧
      (slot' = slot ∨ cpu = here ∧ slot' = change slot) := by
  rw [cpus, List.getElem?_modify] at found
  obtain ⟨slot, present, rfl⟩ := Option.map_eq_some_iff.mp found
  refine ⟨slot, present, ?_⟩
  by_cases same : here = cpu
  · exact .inr ⟨same.symm, if_pos same⟩
  · exact .inl (if_neg same)

/-- A processor that forgets its running thread runs none, and the others run theirs. -/
theorem running?_of_emptied {here : Nat}
    (cpus : k'.cpus = k.cpus.modify here ({ · with running := none })) (cpu : Nat) :
    k'.running? cpu = if cpu = here then none else k.running? cpu := by
  rw [running?_of_modify cpus]
  split
  · simp
  · rfl

/-- A thread that goes to some place keeps its record, and every other one does. -/
theorem Moves.recorded {place : Place} (moves : k.Moves k' id origin (some place))
    (other : ThreadId) (known : (k.threads.get? other).isSome) :
    (k'.threads.get? other).isSome := by
  rw [← isSome_place?, moves.place]
  split
  · rfl
  · rwa [isSome_place?]

namespace Occupied

/-- No processor gets a thread, and each keeps its idle one. -/
private theorem of_retreat (h : k.Occupied)
    (runs : ∀ {cpu id}, k'.running? cpu = some id → k.running? cpu = some id)
    (idle : ∀ cpu, k'.idle? cpu = k.idle? cpu)
    (placed : ∀ {cpu id}, k'.running? cpu = some id →
      k'.place? id = some .processor ∨ k'.place? id = some (.inside .ended))
    (hosted : ∀ {id}, k'.place? id = some .processor → ∃ cpu, k'.running? cpu = some id)
    (aside : ∀ {cpu id}, k.idle? cpu = some id →
      k'.place? id = some .aside ∨ k'.place? id = some .processor)
    (previous : ∀ {cpu : Nat} {slot : CpuSlot} {id : ThreadId}, k'.cpus[cpu]? = some slot →
      slot.previous = some id → (k'.threads.get? id).isSome) : k'.Occupied where
  place_of_running := placed
  running_of_place := hosted
  one first second := h.one (runs first) (runs second)
  idle owned := aside (idle _ ▸ owned)
  home owned running := h.home (idle _ ▸ owned) (runs running)
  own first second := h.own (idle _ ▸ first) (idle _ ▸ second)
  previous := previous

/-- The threads that ran before keep their records while no processor remembers another one. -/
theorem previous_of_kept {here cpu : Nat} {change : CpuSlot → CpuSlot} {slot : CpuSlot}
    (h : k.Occupied) (cpus : k'.cpus = k.cpus.modify here change)
    (remembers : ∀ slot, (change slot).previous = slot.previous)
    (kept : ∀ id, (k.threads.get? id).isSome → (k'.threads.get? id).isSome)
    (found : k'.cpus[cpu]? = some slot) (previous : slot.previous = some id) :
    (k'.threads.get? id).isSome := by
  obtain ⟨old, present, same⟩ := previous_of_modify cpus found
  apply kept
  apply h.previous present
  rcases same with rfl | ⟨_, rfl⟩
  · exact previous
  · rwa [remembers] at previous

/-- A thread moves while every processor keeps its slot. -/
theorem of_moves (h : k.Occupied) (moves : k.Moves k' id origin target)
    (cpus : k'.cpus = k.cpus) (busy : k.isIdle id = false)
    (runs : ∀ cpu, k.running? cpu = some id → target = some (.inside .ended))
    (off : target ≠ some .processor)
    (kept : target = none →
      ∀ (cpu : Nat) (slot : CpuSlot), k.cpus[cpu]? = some slot → slot.previous ≠ some id) :
    k'.Occupied := by
  have running (cpu : Nat) : k'.running? cpu = k.running? cpu := by rw [running?, cpus, running?]
  have idle (cpu : Nat) : k'.idle? cpu = k.idle? cpu := by rw [idle?, cpus, idle?]
  refine h.of_retreat (fun found => running _ ▸ found) idle ?_ ?_ ?_ ?_
  · intro cpu other found
    rw [running] at found
    rw [moves.place]
    split
    · rename_i same
      exact .inr (runs cpu (same ▸ found))
    · exact h.place_of_running found
  · intro other place
    rw [moves.place] at place
    split at place
    · exact absurd place off
    · simpa only [running] using h.running_of_place place
  · intro cpu other found
    rw [moves.place, if_neg]
    · exact h.idle found
    · rintro rfl
      exact isIdle_eq_false busy cpu found
  · intro cpu slot other found previous
    rw [cpus] at found
    rw [← isSome_place?, moves.place]
    split
    · rename_i same
      cases kind : target with
      | none => exact absurd (same ▸ previous) (kept kind cpu slot found)
      | some place => rfl
    · rw [isSome_place?]
      exact h.previous found previous

/-- The running thread of a processor moves away and leaves the slot empty. -/
theorem of_departure {here : Nat} {place : Place} (h : k.Occupied)
    (moves : k.Moves k' id (some .processor) (some place)) (current : k.running? here = some id)
    (cpus : k'.cpus = k.cpus.modify here ({ · with running := none }))
    (idles : k.isIdle id = true → place = .aside) : k'.Occupied := by
  have running := running?_of_emptied cpus
  -- Every processor but this one runs whom it ran before.
  have runs {cpu : Nat} {other : ThreadId} (found : k'.running? cpu = some other) :
      cpu ≠ here ∧ k.running? cpu = some other := by
    rw [running] at found
    split at found
    · cases found
    · rename_i elsewhere
      exact ⟨elsewhere, found⟩
  have away : place ≠ .processor := fun same => moves.changes (congrArg some same).symm
  refine h.of_retreat (fun found => (runs found).2) (idle?_of_modify cpus fun _ => rfl) ?_ ?_ ?_
    (h.previous_of_kept cpus (fun _ => rfl) moves.recorded)
  · intro cpu other found
    obtain ⟨elsewhere, ran⟩ := runs found
    rw [moves.place, if_neg]
    · exact h.place_of_running ran
    · rintro rfl
      exact elsewhere (h.one ran current)
  · intro other stands
    rw [moves.place] at stands
    split at stands
    · exact absurd (Option.some.inj stands) away
    · rename_i distinct
      obtain ⟨cpu, found⟩ := h.running_of_place stands
      refine ⟨cpu, ?_⟩
      rw [running, if_neg]
      · exact found
      · rintro rfl
        exact distinct (Option.some.inj (found.symm.trans current))
  · intro cpu other found
    rw [moves.place]
    split
    · rename_i same
      exact .inl (congrArg some (idles (isIdle_iff.mpr ⟨cpu, same ▸ found⟩)))
    · exact h.idle found

/-- A processor whose running thread stands elsewhere already forgets it. -/
theorem of_vacancy {here : Nat} (h : k.Occupied) (threads : k'.threads = k.threads)
    (cpus : k'.cpus = k.cpus.modify here ({ · with running := none }))
    (elsewhere : ∀ id, k.running? here = some id → k.place? id ≠ some .processor) :
    k'.Occupied := by
  have running := running?_of_emptied cpus
  have idle := idle?_of_modify cpus fun _ => rfl
  have runs {cpu : Nat} {other : ThreadId} (found : k'.running? cpu = some other) :
      k.running? cpu = some other := by
    rw [running] at found
    split at found
    · cases found
    · exact found
  have place (id : ThreadId) : k'.place? id = k.place? id := by
    rw [place?, threads, isIdle_congr idle, place?]
  refine h.of_retreat runs idle ?_ ?_ ?_
    (h.previous_of_kept cpus (fun _ => rfl) fun _ known => threads ▸ known)
  · intro cpu other found
    rw [place]
    exact h.place_of_running (runs found)
  · intro other stands
    rw [place] at stands
    obtain ⟨cpu, found⟩ := h.running_of_place stands
    refine ⟨cpu, ?_⟩
    rw [running, if_neg]
    · exact found
    · rintro rfl
      exact elsewhere other found stands
  · intro cpu other found
    rw [place]
    exact h.idle found

/-- A processor without a running thread gets one: a thread that waited, or its idle thread. -/
theorem of_installation {here : Nat} {change : CpuSlot → CpuSlot} (h : k.Occupied)
    (moves : k.Moves k' id origin (some .processor)) (free : k.running? here = none)
    (cpus : k'.cpus = k.cpus.modify here change) (exists_slot : (k.cpus[here]?).isSome)
    (installs : ∀ slot, (change slot).running = some id)
    (idles : ∀ slot, (change slot).idle = slot.idle)
    (remembers : ∀ slot other, k.cpus[here]? = some slot → (change slot).previous = some other →
      slot.previous = some other ∨ (k.threads.get? other).isSome)
    (alive : origin ≠ some (.inside .ended)) (own : ∀ cpu, k.idle? cpu = some id → cpu = here) :
    k'.Occupied := by
  have running (cpu : Nat) :
      k'.running? cpu = if cpu = here then some id else k.running? cpu := by
    rw [running?_of_modify cpus]
    obtain ⟨slot, found⟩ := Option.isSome_iff_exists.mp exists_slot
    simp [found, installs]
  have idle := idle?_of_modify cpus idles
  -- No processor ran the thread before: it came from elsewhere and has not ended.
  have off (cpu : Nat) : k.running? cpu ≠ some id := by
    intro found
    rcases h.place_of_running found with stands | stands
    · exact moves.changes (moves.before.symm.trans stands)
    · exact alive (moves.before.symm.trans stands)
  constructor
  · intro cpu other found
    rw [running] at found
    split at found
    · obtain rfl := Option.some.inj found
      exact .inl (by rw [moves.place, if_pos rfl])
    · rw [moves.place]
      split
      · exact .inl rfl
      · exact h.place_of_running found
  · intro other stands
    rw [moves.place] at stands
    split at stands
    · rename_i same
      exact ⟨here, by rw [running, if_pos rfl, same]⟩
    · obtain ⟨cpu, found⟩ := h.running_of_place stands
      refine ⟨cpu, ?_⟩
      rw [running, if_neg]
      · exact found
      · rintro rfl
        rw [free] at found
        cases found
  · intro a b other first second
    rw [running] at first second
    split at first
    · split at second
      · simp_all only
      · exact absurd (second.trans first.symm) (off b)
    · split at second
      · exact absurd (first.trans second.symm) (off a)
      · exact h.one first second
  · intro cpu other found
    rw [idle] at found
    rw [moves.place]
    split
    · exact .inr rfl
    · exact h.idle found
  · intro a b other first second
    rw [idle] at first
    rw [running] at second
    split at second
    · rename_i same
      obtain rfl := Option.some.inj second
      rw [same]
      exact own a first
    · exact h.home first second
  · intro a b other first second
    rw [idle] at first second
    exact h.own first second
  · intro cpu slot' other found previous
    obtain ⟨slot, present, same⟩ := previous_of_modify cpus found
    apply moves.recorded
    rcases same with rfl | ⟨rfl, rfl⟩
    · exact h.previous present previous
    · rcases remembers slot other present previous with old | recorded
      · exact h.previous present old
      · exact recorded

end Occupied

end ThreadScheduler.Kernel
