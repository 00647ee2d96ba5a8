/-
Module: ThreadScheduler.Proofs.Ticks.Verdict
Purpose: What a tick means for the running thread, said in terms of the kernel in which the tick
  comes: who is due on the timeline, who waits once they have become ready, and what is left of the
  slice.
Main exports: Kernel.due, Kernel.roused, Kernel.queued, Kernel.requeued, Kernel.Outranks,
  Kernel.Active, Kernel.Spent, Kernel.Rivalled, Kernel.Judges, Kernel.Regular.judges
-/
import ThreadScheduler.Proofs.Isolation.Tick

namespace ThreadScheduler

namespace Kernel

/-- The sleepers whose wake time comes with a tick of a processor, in the order of the timeline.
Only processor 0 keeps time. -/
def due (k : Kernel) (here : Nat) : List (ThreadId × Instant) :=
  if here = 0 then k.sleeping.sleepers.filter (·.2 ≤ k.sleeping.now + k.elapsed 0) else []

/-- The threads that a tick of a processor wakes. -/
def roused (k : Kernel) (here : Nat) : List ThreadId := (k.due here).map (·.1)

/-- The threads that wait at the level of a policy once a tick has woken those that are due. -/
def queued (k : Kernel) (here : Nat) (policy : Policy) : List ThreadId :=
  k.ready.threadsAt policy ++ (k.roused here).filter (k.policyOf? · = some policy)

/-- One thread is more important than another one. -/
def Outranks (k : Kernel) (a b : ThreadId) : Prop :=
  ∃ p q, k.policyOf? a = some p ∧ k.policyOf? b = some q ∧ p.Outranks q

/-- The running thread of a processor is to be charged: it does not idle, and has not ended. -/
structure Active (k : Kernel) (here : Nat) (r : ThreadId) : Prop where
  running : k.stateOf? r = some .running
  busy : k.idle? here ≠ some r

instance (k : Kernel) (here : Nat) (r : ThreadId) : Decidable (k.Active here r) :=
  decidable_of_iff (k.stateOf? r = some .running ∧ k.idle? here ≠ some r)
    ⟨fun h => ⟨h.1, h.2⟩, fun h => ⟨h.running, h.busy⟩⟩

/-- The threads that wait at the level of a policy when an active thread has gone back there after a
tick. -/
def requeued (k : Kernel) (here : Nat) (r : ThreadId) (policy : Policy) : List ThreadId :=
  k.queued here policy ++ if k.Active here r ∧ k.policyOf? r = some policy then [r] else []

/-- The running thread of a processor has used up its slice with a tick, or is outranked by a thread
that the tick wakes. -/
def Spent (k : Kernel) (here : Nat) (r : ThreadId) : Prop :=
  k.slice here ≤ k.elapsed here ∨ ∃ t ∈ k.roused here, k.Outranks t r

/-- Somebody waits, once a tick has woken those that are due, whom a thread does not outrank. -/
def Rivalled (k : Kernel) (here : Nat) (r : ThreadId) : Prop :=
  ∃ policy, ∃ t ∈ k.queued here policy, ¬ k.Outranks r t

/-- The ways in which a tick treats the running thread of a processor. -/
inductive Judges (k : Kernel) (here : Nat) (r : ThreadId) : TickVerdict → Prop where
  | ended (state : k.stateOf? r = some .terminated) : Judges k here r .replace
  | idles (own : k.idle? here = some r) (empty : ∀ policy, k.queued here policy = []) :
      Judges k here r (.keep (k.slice here))
  | called (own : k.idle? here = some r) (waiting : ∃ policy, k.queued here policy ≠ []) :
      Judges k here r .replace
  | goesOn (active : k.Active here r) (left : ¬ k.Spent here r) :
      Judges k here r (.keep (k.slice here - k.elapsed here))
  | renewed (active : k.Active here r) (spent : k.Spent here r)
      (empty : ∀ policy, k.queued here policy = []) : Judges k here r (.keep k.config.quantum)
  | givesBack (active : k.Active here r) (spent : k.Spent here r)
      (waiting : ∃ policy, k.queued here policy ≠ []) : Judges k here r (.preempt r)

variable {k : Kernel} {here : Nat} {id r t : ThreadId} {slot : CpuSlot} {policy : Policy}

/-! ### Who waits -/

/-- A thread that becomes ready goes to the end of its level. -/
theorem threadsAt_makeReady (records : k.Records) (id : ThreadId) (policy : Policy) :
    (k.makeReady id).1.ready.threadsAt policy =
      k.ready.threadsAt policy ++ if k.policyOf? id = some policy then [id] else [] := by
  cases found : k.threads.get? id with
  | none => simp [makeReady, policyOf?, found]
  | some thread =>
    obtain ⟨ready, queued, after⟩ := exists_ready_of_makeReady found (records.served found)
    have named : k.policyOf? id = some thread.policy := by rw [policyOf?, found]; rfl
    rw [after, named]
    change ready.threadsAt policy = _
    rw [ReadyQueue.threadsAt_of_enqueue queued]
    by_cases own : policy = thread.policy
    · simp [own]
    · have other : ¬ thread.policy = policy := fun same => own same.symm
      simp [own, other]

/-- Several threads that become ready go to the ends of their levels in their order. -/
theorem threadsAt_makeReadyAll (ids : List ThreadId) (records : k.Records) (policy : Policy) :
    (k.makeReadyAll ids).ready.threadsAt policy =
      k.ready.threadsAt policy ++ ids.filter (k.policyOf? · = some policy) := by
  induction ids generalizing k with
  | nil => exact (List.append_nil _).symm
  | cons id rest ih =>
    have later := ih (k := (k.makeReady id).1) records.of_makeReady
    simp only [policyOf?_makeReady, threadsAt_makeReady records] at later
    refine later.trans ?_
    rw [List.filter_cons, List.append_assoc]
    split <;> simp_all

/-- The sleepers whose wake time comes are those that are taken off the timeline. -/
theorem roused_eq_woken (punctual : k.sleeping.Punctual) : k.roused 0 = k.woken := by
  rw [woken, punctual.due_passed]
  rfl

theorem roused_elsewhere (other : here ≠ 0) : k.roused here = [] := by
  simp [roused, due, other]

/-- When time was kept, those that wait are those that waited before and those that were woken. -/
theorem threadsAt_beforeCharge (records : k.Records) (punctual : k.sleeping.Punctual) (here : Nat)
    (policy : Policy) : (k.beforeCharge here).ready.threadsAt policy = k.queued here policy := by
  unfold beforeCharge queued
  split
  · rename_i first
    subst first
    rw [roused_eq_woken punctual]
    have passed : Records { k with
        timer := k.timer.interrupt.2
        sleeping := (k.sleeping.advance k.timer.interrupt.1).drain.2 } :=
      records.of_same (fun _ => rfl) records.mutexHandle rfl
    exact threadsAt_makeReadyAll k.woken passed policy
  · rename_i other
    rw [roused_elsewhere other, List.filter_nil, List.append_nil]

theorem policyOf?_beforeCharge (k : Kernel) (here : Nat) (t : ThreadId) :
    (k.beforeCharge here).policyOf? t = k.policyOf? t := by
  unfold beforeCharge
  split
  · exact policyOf?_makeReadyAll k.woken _ t
  · rfl

/-- Nobody waits when time was kept exactly if nobody waits at any level. -/
theorem isEmpty_beforeCharge_iff (h : k.Regular) (begun : k.initialized = true)
    (punctual : k.sleeping.Punctual) :
    (k.beforeCharge here).ready.isEmpty = true ↔ ∀ policy, k.queued here policy = [] := by
  have ordered : (k.beforeCharge here).ready.Ordered :=
    (h.beforeCharge begun).placement.records.ordered
  rw [ReadyQueue.isEmpty_iff]
  constructor
  · intro empty policy
    rw [← threadsAt_beforeCharge h.placement.records punctual]
    exact ReadyQueue.threadsAt_of_toList_eq_nil ordered empty policy
  · intro empty
    apply List.eq_nil_iff_forall_not_mem.mpr
    intro t waits
    obtain ⟨policy, member⟩ := (ReadyQueue.mem_toList_iff ordered).mp waits
    rw [threadsAt_beforeCharge h.placement.records punctual, empty policy] at member
    cases member

/-- Whoever waits at a level has its policy. -/
theorem policyOf?_of_mem_queued (h : k.Placement) (waits : t ∈ k.queued here policy) :
    k.policyOf? t = some policy := by
  rcases List.mem_append.mp waits with before | woken
  · exact h.policyOf?_of_mem_level before
  · exact of_decide_eq_true (List.mem_filter.mp woken).2

/-- A thread that is woken has slept. -/
theorem place?_of_roused (h : k.Placement) (punctual : k.sleeping.Punctual)
    (woken : t ∈ k.roused here) : k.place? t = some (.inside .timeline) := by
  by_cases first : here = 0
  · subst first
    rw [roused_eq_woken punctual] at woken
    exact h.place?_of_woken woken
  · rw [roused_elsewhere first] at woken
    cases woken

/-- A thread that is woken waits at the level of its policy. -/
theorem exists_queued_of_roused (h : k.Placement) (punctual : k.sleeping.Punctual)
    (woken : t ∈ k.roused here) :
    ∃ policy, k.policyOf? t = some policy ∧ t ∈ k.queued here policy := by
  obtain ⟨thread, found, _⟩ := exists_thread_of_place? (place?_of_roused h punctual woken)
  have named : k.policyOf? t = some thread.policy := by rw [policyOf?, found]; rfl
  refine ⟨thread.policy, named, List.mem_append_right _ ?_⟩
  exact List.mem_filter.mpr ⟨woken, decide_eq_true named⟩

/-- Whoever runs waits nowhere. -/
theorem not_mem_queued_of_running (h : k.Placement) (punctual : k.sleeping.Punctual) {cpu : Nat}
    (runs : k.running? cpu = some r) : r ∉ k.queued here policy := by
  intro waits
  rcases List.mem_append.mp waits with before | woken
  · exact h.not_running_of_place (((h.listed (.level policy)).mem_iff r).mp before) nofun cpu runs
  · have slept := place?_of_roused h punctual (List.mem_filter.mp woken).1
    exact h.not_running_of_place slept nofun cpu runs

/-! ### The running thread -/

theorem isIdle_beforeCharge (k : Kernel) (here : Nat) (t : ThreadId) :
    (k.beforeCharge here).isIdle t = k.isIdle t := by
  rw [isIdle, cpus_beforeCharge, isIdle]

/-- Keeping time does not concern a running thread. -/
theorem get?_beforeCharge (h : k.Placement) {cpu : Nat} (runs : k.running? cpu = some r) :
    (k.beforeCharge here).threads.get? r = k.threads.get? r := by
  unfold beforeCharge
  split
  · exact h.get?_timeKept runs
  · rfl

/-- An idle thread that runs does so on its own processor. -/
theorem isIdle_iff_of_running (h : k.Placement) (runs : k.running? here = some r) :
    k.isIdle r = true ↔ k.idle? here = some r := by
  constructor
  · intro idle
    obtain ⟨cpu, own⟩ := isIdle_iff.mp idle
    exact h.occupied.home own runs ▸ own
  · exact fun own => isIdle_iff.mpr ⟨here, own⟩

/-- The best policy among those that wake up outranks a thread if one of those that wake up does. -/
theorem any_bestWoken_iff_outranks (punctual : k.sleeping.Punctual)
    (named : k.policyOf? r = some policy) :
    (k.bestWoken here).any (fun best => best.Outranks policy) = true ↔
      ∃ t ∈ k.roused here, k.Outranks t r := by
  by_cases first : here = 0
  · subst first
    rw [any_bestWoken_iff, roused_eq_woken punctual]
    simp [Outranks, named]
  · simp [bestWoken, first, roused_elsewhere first]

/-- Nothing is left of a slice exactly if the time that passed is no less. -/
theorem sub_eq_zero_iff_le {slice elapsed : Duration} :
    slice - elapsed = .zero ↔ slice ≤ elapsed := by
  rw [Duration.eq_zero_iff, Duration.toNat_sub, Duration.le_iff]
  omega

/-- A tick treats an active thread as its slice and its rivals demand. -/
private theorem judges_of_active {thread : Thread} (h : k.Regular) (begun : k.initialized = true)
    (punctual : k.sleeping.Punctual) (found : k.cpus[here]? = some slot)
    (runs : k.running? here = some r) (known : k.threads.get? r = some thread)
    (active : k.Active here r) :
    k.Judges here r
      ((k.beforeCharge here).tickVerdict slot (k.elapsed here) (k.bestWoken here)) := by
  have current : slot.running = some r := by simpa [running?, found] using runs
  have left : slot.slice = k.slice here := by simp [slice, found]
  have state : thread.state = .running := by simpa [stateOf?, known] using active.running
  have busy : (k.beforeCharge here).isIdle r = false := by
    rw [isIdle_beforeCharge, ← Bool.not_eq_true, isIdle_iff_of_running h.placement runs]
    exact active.busy
  have named : k.policyOf? r = some thread.policy := by rw [policyOf?, known]; rfl
  have known' : (k.beforeCharge here).threads.get? r = some thread :=
    (get?_beforeCharge h.placement runs).trans known
  have quantum : (k.beforeCharge here).config.quantum = k.config.quantum := by
    rw [(Regular.alike_beforeCharge k here).config]
  rw [tickVerdict_of_active current known' busy state, left, quantum]
  have spent_iff : ¬ (k.slice here - k.elapsed here ≠ .zero ∧
      ¬ (k.bestWoken here).any (fun best => best.Outranks thread.policy) = true) ↔
      k.Spent here r := by
    rw [ne_eq, sub_eq_zero_iff_le, any_bestWoken_iff_outranks punctual named, not_and_or, not_not,
      not_not, Spent]
  split
  · rename_i goes
    exact .goesOn active fun spent => spent_iff.mpr spent goes
  · rename_i stops
    have spent := spent_iff.mp stops
    split
    · rename_i empty
      exact .renewed active spent ((isEmpty_beforeCharge_iff h begun punctual).mp empty)
    · rename_i some_waiting
      rw [isEmpty_beforeCharge_iff h begun punctual] at some_waiting
      exact .givesBack active spent (not_forall.mp some_waiting)

/-- Every tick treats the running thread in one of these ways. -/
theorem Regular.judges (h : k.Regular) (begun : k.initialized = true)
    (punctual : k.sleeping.Punctual) (found : k.cpus[here]? = some slot)
    (runs : k.running? here = some r) :
    k.Judges here r
      ((k.beforeCharge here).tickVerdict slot (k.elapsed here) (k.bestWoken here)) := by
  have current : slot.running = some r := by simpa [running?, found] using runs
  have same : (k.beforeCharge here).threads.get? r = k.threads.get? r :=
    get?_beforeCharge h.placement runs
  rcases h.placement.occupied.place_of_running runs with stands | stands
  · obtain ⟨thread, known, place⟩ := exists_thread_of_place? stands
    have state := Thread.place_eq_processor_iff.mp place
    have running : k.stateOf? r = some .running := by rw [stateOf?, known, Option.map_some, state]
    by_cases own : k.idle? here = some r
    · have idle : (k.beforeCharge here).isIdle r = true := by
        rw [isIdle_beforeCharge]
        exact (isIdle_iff_of_running h.placement runs).mpr own
      have left : k.slice here = slot.slice := by simp [slice, found]
      have verdict : (k.beforeCharge here).tickVerdict slot (k.elapsed here) (k.bestWoken here) =
          if (k.beforeCharge here).ready.isEmpty = true then .keep (k.slice here)
          else .replace := by
        simp [tickVerdict, current, same, known, state, idle, left]
      rw [verdict]
      split
      · rename_i empty
        exact .idles own ((isEmpty_beforeCharge_iff h begun punctual).mp empty)
      · rename_i some_waiting
        rw [isEmpty_beforeCharge_iff h begun punctual] at some_waiting
        exact .called own (not_forall.mp some_waiting)
    · exact judges_of_active h begun punctual found runs known ⟨running, own⟩
  · obtain ⟨thread, known, place⟩ := exists_thread_of_place? stands
    have ended : k.stateOf? r = some .terminated := by
      rw [stateOf?, known, Option.map_some, Thread.place_eq_ended_iff.mp place]
    have ended' : (k.beforeCharge here).stateOf? r = some .terminated := by
      rw [stateOf?, same]
      exact ended
    rw [tickVerdict_of_ended current ended']
    exact .ended ended

end Kernel

end ThreadScheduler
