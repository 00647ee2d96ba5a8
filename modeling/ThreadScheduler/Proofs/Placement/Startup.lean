/-
Module: ThreadScheduler.Proofs.Placement.Startup
Purpose: The beginning of scheduling. Before it there is no thread at all; the bootstrap thread and
  the idle threads get their places processor by processor, and if that fails nothing is left.
Main exports: Kernel.Blank, Kernel.Occupied.of_recruit, Kernel.Placement.of_adopted,
  Kernel.Blank.of_discarded, Kernel.Blank.placement_of_booted
-/
import ThreadScheduler.Proofs.Placement.Registration

namespace ThreadScheduler.Kernel

variable {k k' admitted after : Kernel} {id idle bootstrap : ThreadId} {thread : Thread}
  {cpu entry : Nat}

/-- A kernel without threads. -/
structure Blank (k : Kernel) : Prop where
  unused : k.threads.records.slots = []
  empty : ∀ c, k.members c = []
  idling : ∀ {cpu : Nat} {slot : CpuSlot}, k.cpus[cpu]? = some slot → slot = {}

namespace Blank

theorem get? (h : k.Blank) (id : ThreadId) : k.threads.get? id = none := by
  simp [ThreadTable.get?, SlotTable.get?, h.unused]

theorem place? (h : k.Blank) (id : ThreadId) : k.place? id = none := by
  simp [Kernel.place?, h.get?]

theorem running? (h : k.Blank) (cpu : Nat) : k.running? cpu = none := by
  unfold Kernel.running?
  cases found : k.cpus[cpu]? with
  | none => rfl
  | some slot => rw [h.idling found]; rfl

theorem idle? (h : k.Blank) (cpu : Nat) : k.idle? cpu = none := by
  unfold Kernel.idle?
  cases found : k.cpus[cpu]? with
  | none => rfl
  | some slot => rw [h.idling found]; rfl

/-- No handle was given out. -/
theorem mark (h : k.Blank) : k.threads.mark = 0 := congrArg List.length h.unused

/-- Processors that are emptied are as before. -/
theorem cpus_emptied (h : k.Blank) {cpus : List CpuSlot} (length : cpus.length = k.cpus.length) :
    cpus.map (fun _ => ({} : CpuSlot)) = k.cpus := by
  apply List.ext_getElem?
  intro cpu
  rw [List.getElem?_map]
  by_cases inside : cpu < k.cpus.length
  · have found := List.getElem?_eq_getElem inside
    rw [List.getElem?_eq_getElem (length ▸ inside), found, h.idling found]
    rfl
  · have outside := Nat.le_of_not_lt inside
    rw [List.getElem?_eq_none (length ▸ outside), List.getElem?_eq_none outside]
    rfl

/-- Without threads everything is in its place. -/
theorem placement (h : k.Blank)
    (handles : ∀ {m mutex}, k.mutexes.get? m = some mutex → mutex.handle = m)
    (ordered : k.ready.Ordered) : k.Placement := by
  refine ⟨⟨?_, handles, ?_, ?_, ordered⟩, ⟨?_, ?_, ?_, ?_, ?_, ?_, ?_⟩, fun c => ?_⟩
  · intro id thread found
    cases (h.get? id).symm.trans found
  · intro id thread found
    cases (h.get? id).symm.trans found
  · intro id thread found
    cases (h.get? id).symm.trans found
  · intro cpu id found
    cases (h.running? cpu).symm.trans found
  · intro id stands
    cases (h.place? id).symm.trans stands
  · intro a b id found
    cases (h.running? a).symm.trans found
  · intro cpu id found
    cases (h.idle? cpu).symm.trans found
  · intro a b id found
    cases (h.idle? a).symm.trans found
  · intro a b id found
    cases (h.idle? a).symm.trans found
  · intro cpu slot id found previous
    rw [h.idling found] at previous
    cases previous
  · rw [h.empty c]
    exact ⟨List.nodup_nil, fun id => by simp [h.place?]⟩

/-- Kernels that differ in nothing that threads leave behind are blank alike. -/
theorem congr (h : k.Blank) (threads : k'.threads.records.slots = k.threads.records.slots)
    (ready : k'.ready = k.ready) (sleeping : k'.sleeping = k.sleeping)
    (lines : ∀ m, k'.line m = k.line m) (terminated : k'.terminated = k.terminated)
    (cpus : k'.cpus = k.cpus) : k'.Blank := by
  refine ⟨threads.trans h.unused, fun c => ?_, fun found => h.idling (cpus ▸ found)⟩
  rw [← h.empty c]
  cases c with
  | level policy => simp only [members, ready]
  | timeline => simp only [members, sleeping]
  | line m => exact lines m
  | ended => exact terminated

end Blank

/-! ### Idle threads -/

/-- A new thread gets a place in no list. -/
theorem Registers.moves {place : Place} (registers : k.Registers k' id thread)
    (stands : thread.place (k'.isIdle id) = place) (apart : ∀ c, place ≠ .inside c)
    (others : ∀ other, other ≠ id → k'.isIdle other = k.isIdle other)
    (members : ∀ c, k'.members c = k.members c) : k.Moves k' id none (some place) := by
  refine ⟨registers.place?_fresh, nofun, fun other => ?_, nofun,
    fun c same => absurd (Option.some.inj same) (apart c), fun c _ _ => members c⟩
  split
  · rename_i same
    rw [same, place?_of_found registers.found, stands]
  · rename_i distinct
    rw [Kernel.place?, registers.threads, if_neg distinct, others other distinct, Kernel.place?]

/-- A processor gets an idle thread, and the others keep theirs. -/
theorem idle?_of_recruit {change : CpuSlot → CpuSlot} (exists_slot : (k.cpus[cpu]?).isSome)
    (cpus : k'.cpus = k.cpus.modify cpu change) (idles : ∀ slot, (change slot).idle = some id)
    (other : Nat) : k'.idle? other = if other = cpu then some id else k.idle? other := by
  obtain ⟨slot, found⟩ := Option.isSome_iff_exists.mp exists_slot
  unfold Kernel.idle?
  rw [cpus, List.getElem?_modify]
  by_cases same : other = cpu
  · subst same
    simp [found, idles]
  · have apart : ¬ cpu = other := fun eq => same eq.symm
    simp [same, apart]

/-- A processor that had no idle thread makes no other thread idle. -/
theorem isIdle_of_recruit {change : CpuSlot → CpuSlot} (exists_slot : (k.cpus[cpu]?).isSome)
    (cpus : k'.cpus = k.cpus.modify cpu change) (idles : ∀ slot, (change slot).idle = some id)
    (vacancy : k.idle? cpu = none) (other : ThreadId) (distinct : other ≠ id) :
    k'.isIdle other = k.isIdle other := by
  rw [Bool.eq_iff_iff, isIdle_iff, isIdle_iff]
  simp only [idle?_of_recruit exists_slot cpus idles]
  constructor
  · rintro ⟨a, found⟩
    split at found
    · exact absurd (Option.some.inj found).symm distinct
    · exact ⟨a, found⟩
  · rintro ⟨a, found⟩
    refine ⟨a, ?_⟩
    rw [if_neg]
    · exact found
    · rintro rfl
      cases vacancy.symm.trans found

/-- A new thread becomes the idle thread of a processor. -/
theorem Occupied.of_recruit {change : CpuSlot → CpuSlot} (h : k.Occupied)
    (moves : k.Moves k' id none (some .aside)) (exists_slot : (k.cpus[cpu]?).isSome)
    (cpus : k'.cpus = k.cpus.modify cpu change)
    (slots : ∀ slot, (change slot).idle = some id ∧ (change slot).running = slot.running ∧
      (change slot).previous = slot.previous) : k'.Occupied := by
  have running (other : Nat) : k'.running? other = k.running? other := by
    rw [running?_of_modify cpus]
    split
    · rename_i same
      subst same
      simp [running?, slots]
    · rfl
  have idle := idle?_of_recruit exists_slot cpus fun slot => (slots slot).1
  -- The newcomer stood nowhere, so whoever stands somewhere is another thread.
  have distinct {other : ThreadId} {place : Place} (stands : k.place? other = some place) :
      other ≠ id := by
    rintro rfl
    cases moves.before.symm.trans stands
  have runs {other : Nat} {owner : ThreadId} (found : k.running? other = some owner) :
      owner ≠ id := by
    rcases h.place_of_running found with stands | stands <;> exact distinct stands
  have owns {other : Nat} {owner : ThreadId} (found : k.idle? other = some owner) : owner ≠ id := by
    rcases h.idle found with stands | stands <;> exact distinct stands
  constructor
  · intro other owner found
    rw [running] at found
    rw [moves.place, if_neg (runs found)]
    exact h.place_of_running found
  · intro other stands
    rw [moves.place] at stands
    split at stands
    · cases stands
    · simpa only [running] using h.running_of_place stands
  · intro a b owner first second
    rw [running] at first second
    exact h.one first second
  · intro other owner found
    rw [moves.place]
    rw [idle] at found
    split at found
    · exact .inl (if_pos (Option.some.inj found).symm)
    · rw [if_neg (owns found)]
      exact h.idle found
  · intro a b owner first second
    rw [running] at second
    rw [idle] at first
    split at first
    · exact absurd (Option.some.inj first).symm (runs second)
    · exact h.home first second
  · intro a b owner first second
    rw [idle] at first second
    split at first <;> split at second
    · rename_i here there
      exact here.trans there.symm
    · exact absurd (Option.some.inj first).symm (owns second)
    · exact absurd (Option.some.inj second).symm (owns first)
    · exact h.own first second
  · exact h.previous_of_kept cpus (fun slot => (slots slot).2.2) moves.recorded

/-- A processor without an idle thread gets one, which stands aside until it runs. -/
theorem Placement.of_recruit {spec : ThreadSpec} {change : CpuSlot → CpuSlot} (h : k.Placement)
    (admits : k.Admits spec id admitted) (exists_slot : (k.cpus[cpu]?).isSome)
    (vacancy : k.idle? cpu = none)
    (slots : ∀ slot, (change slot).idle = some id ∧ (change slot).running = slot.running ∧
      (change slot).previous = slot.previous) :
    Placement { admitted with cpus := admitted.cpus.modify cpu change } ∧
      Kernel.place? { admitted with cpus := admitted.cpus.modify cpu change } id = some .aside := by
  obtain ⟨thread, _, ready, registers, threads, pool, heap, rfl⟩ := admits.registers
  have idles (slot : CpuSlot) := (slots slot).1
  have registers : k.Registers
      { k with threads, pool, heap, cpus := k.cpus.modify cpu change } id thread :=
    ⟨registers.fresh, registers.threads, registers.handle, registers.free, registers.awake,
      registers.served⟩
  have owned : Kernel.isIdle { k with threads, pool, heap, cpus := k.cpus.modify cpu change } id =
      true := by
    refine isIdle_iff.mpr ⟨cpu, ?_⟩
    rw [idle?_of_recruit exists_slot rfl idles, if_pos rfl]
  have moves := registers.moves (Thread.place_eq_aside_iff.mpr (.inl ⟨ready, owned⟩)) nofun
    (isIdle_of_recruit exists_slot rfl idles vacancy) fun c => by cases c <;> rfl
  refine ⟨⟨registers.records h.records rfl rfl, h.occupied.of_recruit moves exists_slot rfl slots,
    moves.listed h.listed⟩, ?_⟩
  rw [moves.place, if_pos rfl]

/-- An idle thread that stands aside begins to run on its processor. -/
theorem Placement.of_started {change : CpuSlot → CpuSlot} (h : k.Placement)
    (stands : k.place? id = some .aside) (owned : k.idle? cpu = some id)
    (free : k.running? cpu = none)
    (slots : ∀ slot, (change slot).running = some id ∧ (change slot).idle = slot.idle ∧
      (change slot).previous = slot.previous) :
    Placement { k with
      cpus := k.cpus.modify cpu change
      threads := k.threads.setState id .running } := by
  obtain ⟨thread, found, place⟩ := exists_thread_of_place? stands
  obtain ⟨slot, present, _⟩ := Option.bind_eq_some_iff.mp owned
  have amends : k.Amends { k with
      cpus := k.cpus.modify cpu change
      threads := k.threads.setState id .running } id ({ · with state := .running }) :=
    amends_of_modify rfl
  have idle (other : Nat) : Kernel.idle? { k with
      cpus := k.cpus.modify cpu change
      threads := k.threads.setState id .running } other = k.idle? other :=
    idle?_of_modify (k := k) rfl (fun slot => (slots slot).2.1) other
  have moves := Moves.of_amends found amends idle place (Thread.place_eq_processor_iff.mpr rfl)
    nofun nofun nofun fun c _ _ => by cases c <;> rfl
  refine ⟨h.records.of_amends amends (fun _ => ⟨rfl, rfl⟩) (fun old same => ?_)
    h.records.mutexHandle rfl, ?_, moves.listed h.listed⟩
  · obtain rfl := Option.some.inj (found.symm.trans same)
    rcases Thread.place_eq_aside_iff.mp place with ⟨ready, _⟩ | ⟨blocked, nowhere⟩
    · rw [h.records.waits same, ready]
      simp
    · rw [nowhere]
      simp
  · refine h.occupied.of_installation moves free rfl (by simp [present])
      (fun slot => (slots slot).1) (fun slot => (slots slot).2.1) (fun slot other _ last => ?_)
      nofun fun other also => h.occupied.own also owned
    rw [(slots slot).2.2] at last
    exact .inl last

/-! ### All processors -/

/-- A slot that nothing was put into yet. -/
private theorem blank_slot (found : k.cpus[cpu]? = some {}) :
    k.idle? cpu = none ∧ k.running? cpu = none := by
  simp [Kernel.idle?, Kernel.running?, found]

private theorem withIdle_of_later (distinct : cpu ≠ 0) (k : Kernel) :
    k.withIdle bootstrap idle cpu =
      { k with
        cpus := (k.cpus.modify cpu
          ({ · with idle := some idle, slice := k.config.quantum })).modify cpu
            ({ · with running := some idle })
        threads := k.threads.setState idle .running } := by
  unfold withIdle
  simp only [if_neg distinct, List.modify_modify_eq]
  rfl

/-- A processor other than the first gets its idle thread, and runs it. -/
theorem Placement.of_adopted (h : k.Placement) (distinct : cpu ≠ 0)
    (blank : k.cpus[cpu]? = some {})
    (admits : k.Admits (Call.idleSpec k.lowestPolicy entry cpu) idle admitted) :
    (admitted.withIdle bootstrap idle cpu).Placement := by
  obtain ⟨vacancy, free⟩ := blank_slot blank
  let change (slot : CpuSlot) : CpuSlot :=
    { slot with idle := some idle, slice := admitted.config.quantum }
  have exists_slot : (k.cpus[cpu]?).isSome := by simp [blank]
  have slots (slot : CpuSlot) : (change slot).idle = some idle ∧
      (change slot).running = slot.running ∧ (change slot).previous = slot.previous :=
    ⟨rfl, rfl, rfl⟩
  obtain ⟨placement, stands⟩ := h.of_recruit admits exists_slot vacancy slots
  have same : admitted.cpus = k.cpus := by
    obtain ⟨_, _, _, _, _, _, _, rfl⟩ := admits.registers
    rfl
  rw [withIdle_of_later distinct]
  refine placement.of_started stands ?_ ?_ fun _ => ⟨rfl, rfl, rfl⟩
  · simp [Kernel.idle?, same, blank, change]
  · simp [Kernel.running?, same, blank, change]

/-- Adopting processors concerns threads and processors only. -/
theorem AdoptsCpus.frame {cpus : List Nat} (adopts : AdoptsCpus bootstrap entry cpus k after) :
    ∃ threads pool heap cpus', after = { k with threads, pool, heap, cpus := cpus' } := by
  induction adopts with
  | nil k => exact ⟨_, _, _, _, rfl⟩
  | cons head tail ih =>
    obtain ⟨_, _, _, _, _, _, _, rfl⟩ := head.registers
    obtain ⟨_, _, _, _, rfl⟩ := ih
    exact ⟨_, _, _, _, rfl⟩

theorem AdoptsCpus.length {cpus : List Nat} (adopts : AdoptsCpus bootstrap entry cpus k after) :
    after.cpus.length = k.cpus.length := by
  induction adopts with
  | nil k => rfl
  | cons head tail ih =>
    obtain ⟨_, _, _, _, _, _, _, rfl⟩ := head.registers
    rw [ih]
    exact List.length_modify _ _ _

private theorem slot_withIdle (bootstrap idle : ThreadId) (cpu : Nat) {slot : CpuSlot}
    {other : Nat} (found : k.cpus[other]? = some slot) :
    ∃ slot', (k.withIdle bootstrap idle cpu).cpus[other]? = some slot' ∧
      (other = cpu → slot'.idle.isSome ∧ slot'.running.isSome) ∧ (other ≠ cpu → slot' = slot) := by
  unfold withIdle
  simp only [List.getElem?_modify, found]
  refine ⟨_, rfl, fun same => ?_, fun distinct => if_neg distinct.symm⟩
  dsimp only
  rw [if_pos same.symm]
  exact ⟨rfl, rfl⟩

/-- The processors that are adopted have a running thread and an idle one, and the others are as
they were. -/
theorem AdoptsCpus.slot {cpus : List Nat} (adopts : AdoptsCpus bootstrap entry cpus k after)
    {other : Nat} {slot : CpuSlot} (found : k.cpus[other]? = some slot) :
    ∃ slot', after.cpus[other]? = some slot' ∧
      (other ∈ cpus → slot'.idle.isSome ∧ slot'.running.isSome) ∧
        (other ∉ cpus → slot' = slot) := by
  induction adopts generalizing slot with
  | nil k => exact ⟨slot, found, nofun, fun _ => rfl⟩
  | @cons k admitted after idle cpu rest head tail ih =>
    have same : admitted.cpus = k.cpus := by
      obtain ⟨_, _, _, _, _, _, _, rfl⟩ := head.registers
      rfl
    obtain ⟨middle, met, idleAssigned, kept⟩ :=
      slot_withIdle bootstrap idle cpu (same ▸ found)
    obtain ⟨last, reached, later, old⟩ := ih met
    refine ⟨last, reached, fun member => ?_, fun outside => ?_⟩
    · by_cases again : other ∈ rest
      · exact later again
      · rw [old again]
        exact idleAssigned ((List.mem_cons.mp member).resolve_right again)
    · rw [List.mem_cons, not_or] at outside
      exact (old outside.2).trans (kept outside.1)

/-- Processors other than the first get their idle threads one after the other. -/
theorem Placement.of_adoptedAll {cpus : List Nat}
    (adopts : AdoptsCpus bootstrap entry cpus k after) (h : k.Placement) (nodup : cpus.Nodup)
    (blank : ∀ cpu ∈ cpus, cpu ≠ 0 ∧ k.cpus[cpu]? = some {}) : after.Placement := by
  induction adopts with
  | nil k => exact h
  | @cons k admitted after idle cpu rest head tail ih =>
    obtain ⟨fresh, distinct⟩ := List.nodup_cons.mp nodup
    obtain ⟨later, unused⟩ := blank cpu List.mem_cons_self
    apply ih (h.of_adopted later unused head) distinct
    intro other member
    obtain ⟨notFirst, untouched⟩ := blank other (List.mem_cons_of_mem _ member)
    have same : admitted.cpus = k.cpus := by
      obtain ⟨_, _, _, _, _, _, _, rfl⟩ := head.registers
      rfl
    obtain ⟨slot, met, _, kept⟩ :=
      slot_withIdle bootstrap idle cpu (same ▸ untouched)
    refine ⟨notFirst, ?_⟩
    rw [met, kept]
    rintro rfl
    exact fresh member

theorem highestPolicy_mem (served : k.ready.policies ≠ []) :
    k.highestPolicy ∈ k.ready.policies := by
  unfold highestPolicy
  cases policies : k.ready.policies with
  | nil => exact absurd policies served
  | cons first rest => exact List.mem_cons_self

/-- The bootstrap thread runs on the first processor. -/
private theorem placement_of_bootstrap (bootStack : Option StackBounds) (blank : k.Blank)
    (h : k.Placement) (served : k.ready.policies ≠ []) (exists_slot : (k.cpus[0]?).isSome)
    (next : bootstrap = k.threads.records.next) :
    Placement { k.withBootstrap bootstrap bootStack with
      cpus := k.cpus.modify 0 ({ · with running := some bootstrap }) } := by
  have fresh : k.threads.get? bootstrap = none :=
    SlotTable.get?_eq_none_of_length_le (next ▸ Nat.le_refl _)
  have registers : k.Registers { k.withBootstrap bootstrap bootStack with
      cpus := k.cpus.modify 0 ({ · with running := some bootstrap }) } bootstrap
      (k.bootstrapThread bootstrap bootStack) := by
    refine ⟨fresh, fun other => ?_, rfl, rfl, nofun, highestPolicy_mem served⟩
    rw [next]
    exact ThreadTable.get?_push _ _ _
  have cpus : Kernel.cpus { k.withBootstrap bootstrap bootStack with
      cpus := k.cpus.modify 0 ({ · with running := some bootstrap }) } =
      k.cpus.modify 0 ({ · with running := some bootstrap }) := rfl
  have idle := idle?_of_modify cpus fun _ => rfl
  have moves := registers.moves (Thread.place_eq_processor_iff.mpr rfl) nofun
    (fun _ _ => isIdle_congr idle) fun c => by cases c <;> rfl
  refine ⟨registers.records h.records rfl rfl, ?_, moves.listed h.listed⟩
  refine h.occupied.of_installation moves (blank.running? 0) rfl exists_slot (fun _ => rfl)
    (fun _ => rfl) (fun _ _ _ last => .inl last) nofun fun cpu owned => ?_
  cases (blank.idle? cpu).symm.trans owned

/-- The first processor gets its idle thread while the bootstrap thread runs on it. -/
theorem Blank.placement_of_adopted {bootStack : Option StackBounds} (blank : k.Blank)
    (h : k.Placement) (served : k.ready.policies ≠ []) (exists_slot : (k.cpus[0]?).isSome)
    (next : bootstrap = k.threads.records.next)
    (admits : (k.withBootstrap bootstrap bootStack).Admits
      (Call.idleSpec (k.withBootstrap bootstrap bootStack).lowestPolicy entry 0) idle admitted) :
    (admitted.withIdle bootstrap idle 0).Placement := by
  have base := placement_of_bootstrap bootStack blank h served exists_slot next
  obtain ⟨capacity, asked, stack, pool, heap, reserved, granted, rfl⟩ := admits.granted
  have admits' : Admits { k.withBootstrap bootstrap bootStack with
      cpus := k.cpus.modify 0 ({ · with running := some bootstrap }) }
      (Call.idleSpec (k.withBootstrap bootstrap bootStack).lowestPolicy entry 0) idle _ :=
    ⟨admits.valid, admits.served, capacity, asked, stack, pool, heap, reserved, granted, rfl⟩
  have slot_there : ((k.cpus.modify 0 ({ · with running := some bootstrap }))[0]?).isSome := by
    obtain ⟨slot, found⟩ := Option.isSome_iff_exists.mp exists_slot
    simp [found]
  have vacancy : (k.cpus.modify 0 ({ · with running := some bootstrap }))[0]?.bind (·.idle) =
      none := by
    obtain ⟨slot, found⟩ := Option.isSome_iff_exists.mp exists_slot
    simp [found, blank.idling found]
  let change (slot : CpuSlot) : CpuSlot :=
    { slot with idle := some idle, slice := k.config.quantum }
  have slots (slot : CpuSlot) : (change slot).idle = some idle ∧
      (change slot).running = slot.running ∧ (change slot).previous = slot.previous :=
    ⟨rfl, rfl, rfl⟩
  obtain ⟨placement, _⟩ := base.of_recruit admits' slot_there vacancy slots
  unfold withIdle
  simp only [List.modify_modify_eq, if_true] at placement ⊢
  exact placement

/-- A kernel that scheduling began on: everything is in its place, and every processor has a running
thread and an idle one. -/
theorem Blank.placement_of_booted {bootStack : Option StackBounds} (blank : k.Blank)
    (h : k.Placement) (served : k.ready.policies ≠ []) (some_cpu : 0 < k.cpus.length)
    (next : bootstrap = k.threads.records.next)
    (adopts : AdoptsCpus bootstrap entry (List.range k.cpus.length)
      (k.withBootstrap bootstrap bootStack) after) :
    after.Placement ∧ ∀ {cpu : Nat} {slot : CpuSlot}, after.cpus[cpu]? = some slot →
      slot.idle.isSome ∧ slot.running.isSome := by
  constructor
  · obtain ⟨n, same⟩ := Nat.exists_eq_add_one_of_ne_zero (Nat.ne_of_gt some_cpu)
    rw [same, List.range_succ_eq_map] at adopts
    cases adopts with
    | @cons _ admitted _ idle _ _ head tail =>
      have first := blank.placement_of_adopted h served (by simp [some_cpu]) next head
      have cpus : admitted.cpus = k.cpus := by
        obtain ⟨_, _, _, _, _, _, _, rfl⟩ := head.registers
        rfl
      refine Placement.of_adoptedAll tail first ?_ fun cpu member => ?_
      · exact List.Pairwise.map _ (fun _ _ distinct same => distinct (Nat.succ.inj same))
          List.nodup_range
      · obtain ⟨i, inside, rfl⟩ := List.mem_map.mp member
        have bound : i + 1 < k.cpus.length := by
          have := List.mem_range.mp inside
          omega
        have found : k.cpus[i + 1]? = some {} := by
          rw [List.getElem?_eq_getElem bound, blank.idling (List.getElem?_eq_getElem bound)]
        obtain ⟨slot, met, _, kept⟩ := slot_withIdle bootstrap idle 0 (cpus ▸ found)
        exact ⟨Nat.succ_ne_zero i, by rw [met, kept (Nat.succ_ne_zero i)]⟩
  · intro cpu slot found
    have inside : cpu < k.cpus.length := by
      rw [← show after.cpus.length = k.cpus.length from adopts.length]
      exact (List.getElem?_eq_some_iff.mp found).1
    obtain ⟨slot', met, idleAssigned, _⟩ := adopts.slot (List.getElem?_eq_getElem inside)
    obtain rfl := Option.some.inj (met.symm.trans found)
    exact idleAssigned (List.mem_range.mpr inside)

/-- Nothing is left when the first threads cannot be registered. -/
theorem Blank.of_discarded {threads : ThreadTable} {pool : StackPool} {heap : Heap}
    {cpus : List CpuSlot} {timer : PeriodicTimer} (blank : k.Blank) :
    (discarded { k with threads, pool, heap, cpus, timer } k.threads.mark).Blank := by
  have mark : k.threads.mark = 0 := by
    unfold ThreadTable.mark
    rw [blank.unused]
    rfl
  rw [mark]
  refine ⟨rfl, fun c => ?_, fun {cpu slot} found => ?_⟩
  · rw [← blank.empty c]
    cases c <;> rfl
  · simp only [discarded, List.getElem?_map, Option.map_eq_some_iff] at found
    obtain ⟨_, _, same⟩ := found
    exact same.symm

end ThreadScheduler.Kernel
