/-
Module: ThreadScheduler.Proofs.TimeSlices
Purpose: How long a thread keeps a processor that it does not give away. The slice belongs to the
  processor: whoever is installed gets a full one, only the ticks of the processor itself are
  charged to it, and the tick that uses it up makes the thread share the processor, no tick earlier
  and none later.
Main exports: Kernel.BeginsSlice, Kernel.HasLeft, Moment.Undisturbed, Moment.ticksOn,
  Duration.ticks, Machine.hasLeft_run, Machine.SlicesTime, Machine.slicesTime
-/
import ThreadScheduler.Proofs.Ticks

namespace ThreadScheduler

/-- The number of ticks of a given length, in nanoseconds, that use up a span of time. -/
def Duration.ticks (span : Duration) (length : UInt64) : Nat :=
  (span.nanos.toNat + length.toNat - 1) / length.toNat

/-- A part of a quantum that is left to run. -/
def Duration.IsPartOf (span quantum : Duration) : Prop := span ≠ .zero ∧ span ≤ quantum

namespace Kernel

/-- A processor runs a thread that neither idles nor has ended, and has its whole slice left. -/
structure BeginsSlice (k : Kernel) (c : Nat) (t : ThreadId) : Prop where
  runs : k.running? c = some t
  busy : k.idle? c ≠ some t
  alive : k.stateOf? t ≠ some .terminated
  full : k.slice c = k.config.quantum

/-- A processor runs an active thread and has so many nanoseconds of its slice left. -/
structure HasLeft (k : Kernel) (c : Nat) (t : ThreadId) (left : Nat) : Prop where
  runs : k.running? c = some t
  active : k.Active c t
  slice : (k.slice c).nanos.toNat = left

/-- No slice is used up or longer than the quantum. -/
def SlicesSound (k : Kernel) : Prop :=
  k.initialized = true → ∀ cpu < k.config.cpus, (k.slice cpu).IsPartOf k.config.quantum

end Kernel

namespace Moment

/-- A processor executes a tick. -/
def IsTickOf (x : Moment) (c : Nat) : Prop := x.cpu = c ∧ x.operation = .tick

instance (x : Moment) (c : Nat) : Decidable (x.IsTickOf c) := inferInstanceAs (Decidable (_ ∧ _))

/-- The number of ticks of a processor. -/
def ticksOn (c : Nat) (history : List Moment) : Nat := history.countP (·.IsTickOf c)

theorem ticksOn_nil (c : Nat) : ticksOn c [] = 0 := rfl

theorem ticksOn_cons (c : Nat) (x : Moment) (history : List Moment) :
    ticksOn c (x :: history) = ticksOn c history + if x.IsTickOf c then 1 else 0 := by
  simp [ticksOn, List.countP_cons]

/-- An operation does not look for a next thread for the executing processor. -/
def Rests (x : Moment) : Prop := ∃ k, x.Takes (.stay k)

/-- An operation leaves a thread its processor: the thread does not end, and the processor executes
nothing that reschedules it but ticks of some length that wake nobody who outranks the thread. What
the other processors do does not matter. -/
structure Undisturbed (x : Moment) (c : Nat) (t : ThreadId) (length : UInt64) : Prop where
  lives : ¬ x.Ends t
  rests : x.cpu = c → x.operation ≠ .tick → x.Rests
  beats : x.IsTickOf c →
    x.before.timer.running = true ∧ x.before.timer.nanosPerTick = length
  unrivalled : x.IsTickOf c → ∀ s ∈ x.before.roused c, ¬ x.before.Outranks s t

/-- A thread goes to the tail of its level, and its processor begins a slice of another one. -/
structure PassesOn (x : Moment) (c : Nat) (t : ThreadId) : Prop where
  ready : x.after.stateOf? t = some .ready
  tail : ∃ policy ahead, x.after.policyOf? t = some policy ∧
    x.after.ready.threadsAt policy = ahead ++ [t]
  another : ∃ next, next ≠ t ∧ x.after.running? c = some next ∧
    x.after.stateOf? next = some .running
  full : x.after.slice c = x.before.config.quantum

end Moment

variable {x : Moment} {course : Course} {k : Kernel} {c cpu : Nat} {t : ThreadId} {left : Nat}
  {length : UInt64}

/-! ### Slices -/

/-- Less than so many ticks pass exactly if something is left of the span. -/
theorem Duration.lt_ticks_iff {span : Duration} (positive : 0 < length) {n : Nat} :
    n < span.ticks length ↔ n * length.toNat < span.nanos.toNat := by
  have some_length : 0 < length.toNat := positive
  unfold Duration.ticks
  rw [← Nat.succ_le_iff, Nat.le_div_iff_mul_le some_length, Nat.succ_mul]
  omega

theorem Duration.isPartOf_self {quantum : Duration} (positive : quantum ≠ .zero) :
    quantum.IsPartOf quantum := ⟨positive, Duration.le_iff.mpr (Nat.le_refl _)⟩

namespace Kernel

/-- A tick charges the time between two ticks. -/
theorem elapsed_of_running (running : k.timer.running = true) :
    k.elapsed cpu = ⟨k.timer.nanosPerTick⟩ := by
  unfold elapsed PeriodicTimer.interrupt
  rw [if_pos running]
  split
  · rfl
  · rfl

/-- A thread that runs is active, unless it idles or has ended. -/
theorem Regular.active_of_running (h : k.Regular) (runs : k.running? c = some t)
    (busy : k.idle? c ≠ some t) (alive : k.stateOf? t ≠ some .terminated) : k.Active c t := by
  refine ⟨?_, busy⟩
  rcases h.placement.occupied.place_of_running runs with stands | stands
  · exact stateOf?_eq_some_running_iff.mpr stands
  · obtain ⟨thread, known, place⟩ := exists_thread_of_place? stands
    refine absurd ?_ alive
    rw [stateOf?, known, Option.map_some, Thread.place_eq_ended_iff.mp place]

theorem slice_congr {k' : Kernel} (same : k'.cpus[cpu]? = k.cpus[cpu]?) :
    k'.slice cpu = k.slice cpu := by
  rw [slice, same, slice]

/-- The processors that are adopted get full slices, and the others keep theirs. -/
theorem AdoptsCpus.slice {bootstrap : ThreadId} {entry : Nat} {cpus : List Nat} {after : Kernel}
    (adopts : AdoptsCpus bootstrap entry cpus k after) (inside : cpu < k.cpus.length) :
    after.slice cpu = if cpu ∈ cpus then k.config.quantum else k.slice cpu := by
  induction adopts with
  | nil k => rfl
  | @cons k admitted after idle first rest head tail ih =>
    obtain ⟨_, _, _, _, _, _, _, same⟩ := head.registers
    have cpus : admitted.cpus = k.cpus := by rw [same]
    have config : admitted.config = k.config := by rw [same]
    have later := ih (by rw [withIdle, List.length_modify, cpus]; exact inside)
    have middle : (admitted.withIdle bootstrap idle first).slice cpu =
        if cpu = first then k.config.quantum else k.slice cpu := by
      unfold Kernel.slice withIdle
      rw [List.getElem?_modify, cpus, List.getElem?_eq_getElem inside, config]
      by_cases here : cpu = first
      · simp [here]
      · have other : ¬ first = cpu := fun same => here same.symm
        simp [here, other]
    have quantum : (admitted.withIdle bootstrap idle first).config.quantum = k.config.quantum := by
      rw [withIdle, config]
    rw [later, middle, quantum]
    by_cases again : cpu ∈ rest
    · simp [again]
    · by_cases here : cpu = first
      · simp [here]
      · simp [again, here]

end Kernel

namespace Moment.Takes

open Kernel

/-- What is not a tick leaves the slots alone, unless the processor gets its next thread. -/
theorem cpus_of_stay (h : x.Takes (.stay k)) (begun : x.before.initialized = true)
    (untimed : x.operation ≠ .tick) : x.after.cpus = x.before.cpus := by
  have after : x.after = k := h.after
  rw [after]
  obtain ⟨before, here, operation, result, _⟩ := x
  have transition := h.transition
  dsimp only at transition begun untimed ⊢
  cases transition with
  | booted fresh | bootstrapRefused _ fresh | idleRefused _ fresh =>
    cases begun.symm.trans fresh
  | kept => exact absurd rfl untimed
  | spawned _ admits =>
    obtain ⟨_, _, _, _, _, _, _, rfl⟩ := admits.registers
    obtain ⟨_, _, same⟩ := enqueueReady_frame _ _ _
    rw [same]
  | handedOff =>
    obtain ⟨_, _, same⟩ := makeReady_frame _ _
    rw [same]
  | endedElsewhere => exact cpus_ended _ _
  | reaped =>
    obtain ⟨_, _, _, same⟩ := reaped_frame before
    rw [same]
  | _ => rfl

/-- The slices of other processors are not charged. -/
theorem slice_elsewhere (h : x.Takes course) (begun : x.before.initialized = true)
    (elsewhere : cpu ≠ x.cpu) : x.after.slice cpu = x.before.slice cpu :=
  slice_congr (h.slot_elsewhere begun elsewhere)

/-- Only ticks of a processor are charged to its slice. -/
theorem slice_of_untimed (h : x.Takes course) (begun : x.before.initialized = true)
    (untimed : ¬ x.IsTickOf cpu) :
    x.after.slice cpu = x.before.slice cpu ∨ x.after.slice cpu = x.before.config.quantum := by
  by_cases elsewhere : cpu = x.cpu
  · subst elsewhere
    cases course with
    | stay k =>
      left
      apply slice_congr
      rw [h.cpus_of_stay begun fun ticks => untimed ⟨rfl, ticks⟩]
    | dispatch k => exact .inr h.slice_of_dispatch
  · exact .inl (h.slice_elsewhere begun elsewhere)

/-- When scheduling begins all processors have full slices. -/
theorem slice_of_begins (h : x.Takes course) (fresh : x.before.initialized = false)
    (begun : x.after.initialized = true) (inside : cpu < x.before.config.cpus) :
    x.after.slice cpu = x.before.config.quantum := by
  have length := h.regular.orderly.length
  obtain ⟨before, here, operation, result, after⟩ := x
  obtain ⟨_, transition, same⟩ := h
  dsimp only at transition same fresh inside length begun ⊢
  subst same
  cases transition with
  | booted _ _ _ adopted =>
    have slice := adopted.slice (length.symm ▸ inside)
    rw [if_pos (List.mem_range.mpr inside)] at slice
    exact slice
  | idleRefused _ _ _ _ adopted =>
    obtain ⟨_, _, _, _, rfl⟩ := adopted.frame
    cases begun.symm.trans fresh
  | reaped =>
    obtain ⟨_, _, _, same⟩ := reaped_frame before
    change before.reaped.initialized = true at begun
    rw [same] at begun
    cases begun.symm.trans fresh
  | refused | denied | answered | subscribed | timerStarted | timerStopped | timerInterrupted
  | bootstrapRefused | ignored | mutexCreated | mutexReleased => cases begun.symm.trans fresh
  | _ running => cases fresh.symm.trans running

theorem config (h : x.Takes course) : x.after.config = x.before.config := by
  rw [h.after]
  exact h.transition.config

/-- A processor does not get another thread without looking for one. -/
theorem running?_of_stay (h : x.Takes (.stay k)) (begun : x.before.initialized = true) (cpu : Nat) :
    x.after.running? cpu = x.before.running? cpu := by
  rw [← h.running?_moved begun, h.after]
  rfl

/-- Whoever comes to a processor gets a full slice. -/
theorem slice_of_newcomer (h : x.Takes course) (runs : x.after.running? cpu = some t)
    (newly : x.before.running? cpu ≠ some t) : x.after.slice cpu = x.before.config.quantum := by
  have begun := h.regular_after.begun_of_known (h.regular_after.isSome_of_running runs)
  cases earlier : x.before.initialized with
  | false =>
    exact h.slice_of_begins earlier begun (h.config ▸ h.regular_after.inside_of_running runs)
  | true =>
    by_cases elsewhere : cpu = x.cpu
    · subst elsewhere
      cases course with
      | stay k => exact absurd ((h.running?_of_stay earlier _).symm.trans runs) newly
      | dispatch k => exact h.slice_of_dispatch
    · exact absurd ((h.running?_elsewhere earlier elsewhere).symm.trans runs) newly

/-- A thread that goes on running is still active, unless it ends. -/
theorem active_after (h : x.Takes course) (active : x.before.Active c t) (lives : ¬ x.Ends t)
    (begun : x.before.initialized = true) (runs : x.after.running? c = some t) :
    x.after.Active c t := by
  have alive : x.after.stateOf? t ≠ some .terminated := by
    intro ended
    refine lives ⟨?_, ended⟩
    rw [active.running]
    exact nofun
  exact h.regular_after.active_of_running runs (h.idle?_after begun c ▸ active.busy) alive

end Moment.Takes

/-! ### The slice of a thread that is not disturbed -/

namespace Moment

/-- Operations other than the ticks of a processor do not touch a slice that is not given away. -/
theorem Takes.hasLeft_of_untimed (h : x.Takes course) (has : x.before.HasLeft c t left)
    (undisturbed : x.Undisturbed c t length) (untimed : ¬ x.IsTickOf c) :
    x.after.HasLeft c t left := by
  have begun := h.regular.begun_of_known (h.regular.isSome_of_running has.runs)
  have slot : x.after.cpus[c]? = x.before.cpus[c]? := by
    by_cases here : x.cpu = c
    · have other : x.operation ≠ .tick := fun ticks => untimed ⟨here, ticks⟩
      obtain ⟨k, rests⟩ := undisturbed.rests here other
      rw [rests.cpus_of_stay begun other]
    · exact h.slot_elsewhere begun fun same => here same.symm
  have runs : x.after.running? c = some t := by
    rw [← has.runs, Kernel.running?, slot, Kernel.running?]
  refine ⟨runs, h.active_after has.active undisturbed.lives begun runs, ?_⟩
  rw [Kernel.slice_congr slot]
  exact has.slice

namespace Ticks

/-- A tick ends nobody: a thread that keeps its processor is still active. -/
theorem active_after (h : x.Ticks course t) (active : x.before.Active x.cpu t)
    (runs : x.after.running? x.cpu = some t) : x.after.Active x.cpu t := by
  obtain ⟨next, also, running⟩ := h.runsBest.runs
  obtain rfl : next = t := Option.some.inj (also.symm.trans runs)
  exact ⟨running, h.takes.idle?_after h.begun x.cpu ▸ active.busy⟩

/-- A tick that does not use up the slice takes its length off it. -/
theorem hasLeft (h : x.Ticks course t) (has : x.before.HasLeft x.cpu t left)
    (undisturbed : x.Undisturbed x.cpu t length) (enough : length.toNat < left) :
    x.after.HasLeft x.cpu t (left - length.toNat) := by
  obtain ⟨running, beat⟩ := undisturbed.beats ⟨rfl, h.asked⟩
  have elapsed : x.before.elapsed x.cpu = ⟨length⟩ := beat ▸ Kernel.elapsed_of_running running
  have unspent : ¬ x.before.slice x.cpu ≤ x.before.elapsed x.cpu := by
    rw [Duration.le_iff, elapsed, has.slice]
    exact Nat.not_le.mpr enough
  have runs : x.after.running? x.cpu = some t := by
    refine h.charges.runs fun gives => ?_
    rcases (has.active.givesWay_iff.mp gives).1 with spent | ⟨s, woken, outranks⟩
    · exact unspent spent
    · exact undisturbed.unrivalled ⟨rfl, h.asked⟩ s woken outranks
  have slice := h.charges.slice runs
  rw [if_neg has.active.busy, if_neg unspent] at slice
  refine ⟨runs, h.active_after has.active runs, ?_⟩
  rw [slice, Duration.toNat_sub, has.slice, elapsed]

/-- A thread that has used up its slice begins another one, unless somebody waits whom it does not
outrank. -/
theorem begins_of_unrivalled (h : x.Ticks course t) (active : x.before.Active x.cpu t)
    (spent : x.before.slice x.cpu ≤ x.before.elapsed x.cpu)
    (unrivalled : ¬ x.before.Rivalled x.cpu t) : x.after.BeginsSlice x.cpu t := by
  have runs : x.after.running? x.cpu = some t :=
    h.charges.runs fun gives => unrivalled (active.givesWay_iff.mp gives).2
  have slice := h.charges.slice runs
  rw [if_neg active.busy, if_pos spent] at slice
  have still := h.active_after active runs
  refine ⟨runs, still.busy, ?_, slice.trans (congrArg _ h.takes.config.symm)⟩
  rw [still.running]
  exact nofun

/-- A thread that has used up its slice and does not outrank all who wait goes behind them. -/
theorem passesOn_of_rivalled (h : x.Ticks course t) (active : x.before.Active x.cpu t)
    (spent : x.before.slice x.cpu ≤ x.before.elapsed x.cpu)
    (rivalled : x.before.Rivalled x.cpu t) : x.PassesOn x.cpu t := by
  have replaced : x.after.running? x.cpu ≠ some t :=
    h.charges.replaced_iff.mpr (active.givesWay_iff.mpr ⟨.inl spent, rivalled⟩)
  obtain ⟨ready, tail⟩ := h.charges.tail replaced active
  obtain ⟨next, runs, running⟩ := h.runsBest.runs
  have other : next ≠ t := fun same => replaced (same ▸ runs)
  exact ⟨ready, tail, ⟨next, other, runs, running⟩, (h.charges.served next other runs).1⟩

end Ticks

end Moment

/-! ### All slices -/

namespace Kernel.Reachable

/-- No time slice is empty. -/
theorem quantum_ne_zero (reached : k.Reachable) : k.config.quantum ≠ .zero := by
  induction reached with
  | new made =>
    obtain ⟨valid, rfl⟩ := eq_of_ofConfig made
    unfold Config.validate Config.fault? at valid
    grind
  | @step m reached cpu operation ih =>
    obtain ⟨course, takes⟩ := Machine.exists_course reached ⟨cpu, operation⟩
    exact takes.config ▸ ih

end Kernel.Reachable

namespace Moment.Ticks

variable {r : ThreadId}

/-- A tick uses up no slice without renewing it. -/
theorem slice_sound (h : x.Ticks course r) (positive : x.before.config.quantum ≠ .zero)
    (sound : (x.before.slice x.cpu).IsPartOf x.before.config.quantum) :
    (x.after.slice x.cpu).IsPartOf x.before.config.quantum := by
  have whole := Duration.isPartOf_self positive
  obtain ⟨next, runs, _⟩ := h.runsBest.runs
  by_cases same : next = r
  · subst same
    have slice := h.charges.slice runs
    split at slice
    · rw [slice]
      exact sound
    · split at slice
      · exact slice ▸ whole
      · rename_i left
        rw [slice]
        refine ⟨mt Kernel.sub_eq_zero_iff_le.mp left, ?_⟩
        have bound := Duration.le_iff.mp sound.2
        rw [Duration.le_iff, Duration.toNat_sub]
        omega
  · exact (h.charges.served next same runs).1 ▸ whole

end Moment.Ticks

namespace Machine

variable {m : Machine} {requests : List Request}

/-- One operation keeps all slices sound. -/
theorem slicesSound_moment (reached : m.kernel.Reachable) (sound : m.kernel.SlicesSound)
    (request : Request) : (m.moment request).after.SlicesSound := by
  obtain ⟨course, takes⟩ := exists_course reached request
  have positive : (m.moment request).before.config.quantum ≠ .zero := reached.quantum_ne_zero
  have whole := Duration.isPartOf_self positive
  intro begun cpu inside
  rw [takes.config] at inside ⊢
  cases earlier : m.kernel.initialized with
  | false => exact takes.slice_of_begins earlier begun inside ▸ whole
  | true =>
    by_cases ticks : (m.moment request).IsTickOf cpu
    · obtain ⟨here, operation⟩ := request
      obtain ⟨rfl, rfl⟩ := ticks
      obtain ⟨_, r, ticks⟩ := exists_ticks reached earlier inside
      exact ticks.slice_sound positive (sound earlier _ inside)
    · rcases takes.slice_of_untimed earlier ticks with same | renewed
      · exact same ▸ sound earlier cpu inside
      · exact renewed ▸ whole

theorem slicesSound (reached : k.Reachable) : k.SlicesSound := by
  induction reached with
  | new made =>
    intro begun
    rw [(Kernel.eq_of_ofConfig made).2] at begun
    cases begun
  | @step m reached cpu operation ih => exact slicesSound_moment reached ih ⟨cpu, operation⟩

/-! ### One slice -/

/-- A processor that runs a thread executes its ticks on it. -/
theorem exists_ticks_of_running (reached : m.kernel.Reachable)
    (runs : m.kernel.running? c = some t) :
    ∃ course, (m.moment ⟨c, .tick⟩).Ticks course t := by
  have regular := reached.regular
  have begun := regular.begun_of_known (regular.isSome_of_running runs)
  obtain ⟨course, r, ticks⟩ := exists_ticks reached begun (regular.inside_of_running runs)
  obtain rfl : r = t := Option.some.inj (ticks.runs.symm.trans runs)
  exact ⟨course, ticks⟩

/-- The slice that is left after a run is what was left before, less the ticks of the processor. -/
theorem hasLeft_run (reached : m.kernel.Reachable) (has : m.kernel.HasLeft c t left)
    (undisturbed : ∀ x ∈ m.history requests, x.Undisturbed c t length)
    (enough : Moment.ticksOn c (m.history requests) * length.toNat < left) :
    (m.run requests).kernel.HasLeft c t
      (left - Moment.ticksOn c (m.history requests) * length.toNat) := by
  -- After the first operation what is left still pays for the ticks to come.
  induction requests generalizing m left with
  | nil =>
    rw [history, Moment.ticksOn_nil, Nat.zero_mul, Nat.sub_zero]
    exact has
  | cons request rest ih =>
    obtain ⟨first, later⟩ := List.forall_mem_cons.mp undisturbed
    have next := reached.step request.cpu request.operation
    rw [history, Moment.ticksOn_cons] at enough ⊢
    by_cases ticks : (m.moment request).IsTickOf c
    · rw [if_pos ticks, Nat.add_mul, Nat.one_mul] at enough ⊢
      obtain ⟨here, operation⟩ := request
      obtain rfl : here = c := ticks.1
      obtain rfl : operation = .tick := ticks.2
      obtain ⟨_, ticks⟩ := exists_ticks_of_running reached has.runs
      have charged := ticks.hasLeft has first (by omega)
      have rested := ih next charged later (by omega)
      rw [Nat.sub_sub, Nat.add_comm] at rested
      exact rested
    · rw [if_neg ticks, Nat.add_zero] at enough ⊢
      obtain ⟨_, takes⟩ := exists_course reached request
      exact ih next (takes.hasLeft_of_untimed has first ticks) later enough

/-- An operation after which the slice is not full did not look for a next thread. -/
theorem rests_of_charged (reached : m.kernel.Reachable) (member : x ∈ m.history requests)
    (charged : x.after.slice x.cpu ≠ x.before.config.quantum) : x.Rests := by
  obtain ⟨past, request, _, _, rfl⟩ := exists_run_of_mem_history member
  obtain ⟨course, takes⟩ := exists_course (reached.run past) request
  cases course with
  | stay k => exact ⟨k, takes⟩
  | dispatch k => exact absurd takes.slice_of_dispatch charged

/-- How long processors run threads that nobody disturbs. -/
structure SlicesTime (m : Machine) : Prop where
  /-- Something is left of every slice, and no slice is longer than the quantum. -/
  sound : m.kernel.SlicesSound
  /-- Whoever comes to a processor gets a full slice. -/
  installs : ∀ request c t, (m.following request).kernel.running? c = some t →
    m.kernel.running? c ≠ some t →
      (m.following request).kernel.slice c = m.kernel.config.quantum
  /-- So does whoever is found to go on there. -/
  refills : ∀ request k, (m.moment request).Takes (.dispatch k) →
    (m.following request).kernel.slice request.cpu = m.kernel.config.quantum
  /-- Nothing but the ticks of a processor is charged to its slice. -/
  uncharged : m.kernel.initialized = true →
    ∀ request c, ¬ (m.moment request).IsTickOf c →
      (m.following request).kernel.slice c = m.kernel.slice c ∨
        c = request.cpu ∧ (m.following request).kernel.slice c = m.kernel.config.quantum
  /-- A thread runs until the ticks of its processor have used up the slice. -/
  lasts : ∀ c t length requests, 0 < length → m.kernel.BeginsSlice c t →
    (∀ x ∈ m.history requests, x.Undisturbed c t length) →
    Moment.ticksOn c (m.history requests) < m.kernel.config.quantum.ticks length →
      (m.run requests).kernel.HasLeft c t (m.kernel.config.quantum.nanos.toNat -
        Moment.ticksOn c (m.history requests) * length.toNat)
  /-- With the tick that uses up the slice the thread goes to the tail of its level, unless it
  outranks all who wait once the tick has woken those that are due. -/
  expires : ∀ c t length requests, 0 < length → m.kernel.BeginsSlice c t →
    (∀ x ∈ m.history requests, x.Undisturbed c t length) →
    Moment.ticksOn c (m.history requests) + 1 = m.kernel.config.quantum.ticks length →
    (m.run requests).kernel.timer.running = true →
    (m.run requests).kernel.timer.nanosPerTick = length →
      ((m.run requests).kernel.Rivalled c t →
          ((m.run requests).moment ⟨c, .tick⟩).PassesOn c t) ∧
        (¬ (m.run requests).kernel.Rivalled c t →
          ((m.run requests).following ⟨c, .tick⟩).kernel.BeginsSlice c t)

/-- A thread that begins a slice has the whole quantum left until the ticks of its processor have
used it up. -/
theorem hasLeft_of_begins (reached : m.kernel.Reachable) (begins : m.kernel.BeginsSlice c t)
    (positive : 0 < length) (undisturbed : ∀ x ∈ m.history requests, x.Undisturbed c t length)
    (early : Moment.ticksOn c (m.history requests) < m.kernel.config.quantum.ticks length) :
    (m.run requests).kernel.HasLeft c t (m.kernel.config.quantum.nanos.toNat -
      Moment.ticksOn c (m.history requests) * length.toNat) := by
  have active := reached.regular.active_of_running begins.runs begins.busy begins.alive
  have has : m.kernel.HasLeft c t m.kernel.config.quantum.nanos.toNat :=
    ⟨begins.runs, active, by rw [begins.full]⟩
  exact hasLeft_run reached has undisturbed ((Duration.lt_ticks_iff positive).mp early)

/-- The tick that uses up the slice of a thread makes it share its processor. -/
theorem expires_of_begins (reached : m.kernel.Reachable) (begins : m.kernel.BeginsSlice c t)
    (positive : 0 < length) (undisturbed : ∀ x ∈ m.history requests, x.Undisturbed c t length)
    (last : Moment.ticksOn c (m.history requests) + 1 = m.kernel.config.quantum.ticks length)
    (running : (m.run requests).kernel.timer.running = true)
    (beat : (m.run requests).kernel.timer.nanosPerTick = length) :
    ((m.run requests).kernel.Rivalled c t → ((m.run requests).moment ⟨c, .tick⟩).PassesOn c t) ∧
      (¬ (m.run requests).kernel.Rivalled c t →
        ((m.run requests).following ⟨c, .tick⟩).kernel.BeginsSlice c t) := by
  have has := hasLeft_of_begins reached begins positive undisturbed (by omega)
  obtain ⟨course, ticks⟩ := exists_ticks_of_running (reached.run requests) has.runs
  have elapsed : (m.run requests).kernel.elapsed c = ⟨length⟩ :=
    beat ▸ Kernel.elapsed_of_running running
  -- One tick more would be too many, so what is left is no longer than a tick.
  have late : ¬ (Moment.ticksOn c (m.history requests) + 1) * length.toNat <
      m.kernel.config.quantum.nanos.toNat :=
    fun more => Nat.ne_of_lt ((Duration.lt_ticks_iff positive).mpr more) last
  have spent : (m.run requests).kernel.slice c ≤ (m.run requests).kernel.elapsed c := by
    rw [Duration.le_iff, has.slice, elapsed]
    rw [Nat.add_mul, Nat.one_mul] at late
    change _ ≤ length.toNat
    omega
  exact ⟨ticks.passesOn_of_rivalled has.active spent,
    ticks.begins_of_unrivalled has.active spent⟩

theorem slicesTime (reached : m.kernel.Reachable) : m.SlicesTime where
  sound := slicesSound reached
  installs request c t runs newly := by
    obtain ⟨course, takes⟩ := exists_course reached request
    exact takes.slice_of_newcomer runs newly
  refills request k takes := takes.slice_of_dispatch
  uncharged begun request c untimed := by
    obtain ⟨course, takes⟩ := exists_course reached request
    by_cases here : c = request.cpu
    · exact (takes.slice_of_untimed begun untimed).imp_right fun full => ⟨here, full⟩
    · exact .inl (takes.slice_elsewhere begun here)
  lasts c t length requests positive begins undisturbed early :=
    hasLeft_of_begins reached begins positive undisturbed early
  expires c t length requests positive begins undisturbed last running beat :=
    expires_of_begins reached begins positive undisturbed last running beat

end Machine

/-- A machine whose slices are two ticks and a half long. -/
def unevenSlices : Machine where
  kernel := (Kernel.ofConfig { cpus := 2, quantum := ⟨2500000⟩ } .pit {}).toOption.getD default

theorem reachable_unevenSlices : unevenSlices.kernel.Reachable :=
  .new (show Kernel.ofConfig { cpus := 2, quantum := ⟨2500000⟩ } .pit {} =
    .ok unevenSlices.kernel from rfl)

/-- A run at the end of which the second processor takes up thread 4, and thread 5 waits. -/
def takenUp : List Request :=
  [⟨0, .init 16 none⟩, ⟨0, .spawn { entry := 32, name := "first" }⟩,
    ⟨0, .spawn { entry := 32, name := "second" }⟩, ⟨0, .createMutex "shared"⟩, ⟨1, .tick⟩]

/-- Two ticks of the second processor, between which it takes a mutex and the first processor does
what it likes. -/
def interleaved : List Request :=
  [⟨1, .tick⟩, ⟨0, .tick⟩, ⟨1, .lock (.ofIndex 0)⟩, ⟨0, .yield⟩, ⟨0, .tick⟩, ⟨1, .tick⟩]

/-- Thread 4 keeps the second processor for two ticks, and goes behind thread 5 with the third
one. -/
theorem Machine.slicesTime_of_interleaved :
    (unevenSlices.run takenUp).kernel.BeginsSlice 1 (.ofIndex 3) ∧
      (List.range 7).map (fun n =>
          let k := ((unevenSlices.run takenUp).run (interleaved.take n)).kernel
          ((k.running? 1).map (·.value), (k.slice 1).nanos)) =
        [(some 4, 2500000), (some 4, 1500000), (some 4, 1500000), (some 4, 1500000),
          (some 4, 1500000), (some 4, 1500000), (some 4, 500000)] ∧
      (((unevenSlices.run takenUp).run interleaved).moment ⟨1, .tick⟩).PassesOn 1 (.ofIndex 3) ∧
      (unevenSlices.run takenUp).SlicesTime := by
  have reached := reachable_unevenSlices.run takenUp
  have times := slicesTime reached
  have begins : (unevenSlices.run takenUp).kernel.BeginsSlice 1 (.ofIndex 3) := by
    constructor <;> decide +kernel
  have undisturbed : ∀ x ∈ (unevenSlices.run takenUp).history interleaved,
      x.Undisturbed 1 (.ofIndex 3) 1000000 := by
    have lives : ∀ x ∈ (unevenSlices.run takenUp).history interleaved, ¬ x.Ends (.ofIndex 3) := by
      decide +kernel
    have charged : ∀ x ∈ (unevenSlices.run takenUp).history interleaved, x.cpu = 1 →
        x.after.slice x.cpu ≠ x.before.config.quantum := by
      decide +kernel
    have beats : ∀ x ∈ (unevenSlices.run takenUp).history interleaved, x.IsTickOf 1 →
        x.before.timer.running = true ∧ x.before.timer.nanosPerTick = 1000000 := by
      decide +kernel
    have quiet : ∀ x ∈ (unevenSlices.run takenUp).history interleaved, x.before.roused 1 = [] := by
      decide +kernel
    intro x member
    refine ⟨lives x member, fun here _ => rests_of_charged reached member (charged x member here),
      beats x member, fun _ s woken => ?_⟩
    rw [quiet x member] at woken
    cases woken
  have rivalled : ((unevenSlices.run takenUp).run interleaved).kernel.Rivalled 1 (.ofIndex 3) := by
    refine ⟨.normal, .ofIndex 4, by decide +kernel, ?_⟩
    rintro ⟨p, q, is, also, outranks⟩
    obtain rfl : p = .normal := Option.some.inj (is.symm.trans (by decide +kernel))
    obtain rfl : q = .normal := Option.some.inj (also.symm.trans (by decide +kernel))
    exact Policy.Outranks.irrefl .normal outranks
  have expires := times.expires 1 (.ofIndex 3) 1000000 interleaved (by decide) begins undisturbed
    (by decide +kernel) (by decide +kernel) (by decide +kernel)
  exact ⟨begins, by decide +kernel, expires.1 rivalled, times⟩

end ThreadScheduler
