/-
Module: ThreadScheduler.Proofs.Pace
Purpose: Whether time passes. A timer counts whole nanoseconds, so ticks take time if there are some
  in a second but no more than there are nanoseconds. Then every sleep ends and every time slice is
  used up after as many ticks as can be reckoned beforehand; at any other rate nobody wakes and
  nobody is made to share a processor.
Main exports: PeriodicTimer.HasBeat, PeriodicTimer.Progresses, PeriodicTimer.StandsStill,
  Kernel.Beats, Machine.TimePasses, Machine.TimeStandsStill, Machine.timePasses
-/
import ThreadScheduler.Proofs.Clocks
import ThreadScheduler.Proofs.TickCounts
import ThreadScheduler.Proofs.TimeSlices

namespace ThreadScheduler

namespace PeriodicTimer

variable {t t' : PeriodicTimer} {rate requested : UInt64} {quantum : Duration}

/-- Whether ticks at a rate take time: there are some in a second, but no more than nanoseconds. -/
def HasBeat (rate : UInt64) : Prop := 0 < rate ∧ rate ≤ nanosPerSecond

instance (rate : UInt64) : Decidable (HasBeat rate) := inferInstanceAs (Decidable (_ ∧ _))

/-- The nanoseconds of a tick at a rate. -/
def beat (rate : UInt64) : UInt64 := nanosPerSecond / rate

theorem beat_pos (has : HasBeat rate) : 0 < beat rate := by
  rw [UInt64.lt_iff_toNat_lt, beat, UInt64.toNat_div]
  exact Nat.div_pos (UInt64.le_iff_toNat_le.mp has.2) (UInt64.lt_iff_toNat_lt.mp has.1)

theorem beat_eq_zero (silent : ¬ HasBeat rate) : beat rate = 0 := by
  apply UInt64.toNat_inj.mp
  rw [beat, UInt64.toNat_div, UInt64.toNat_zero, Nat.div_eq_zero_iff]
  rcases not_and_or.mp silent with none_at_all | fast
  · left
    rw [UInt64.lt_iff_toNat_lt] at none_at_all
    simpa using none_at_all
  · exact .inr (UInt64.lt_iff_toNat_lt.mp (UInt64.not_le.mp fast))

/-- A timer that interrupts several times. -/
def interrupts (t : PeriodicTimer) : Nat → PeriodicTimer
  | 0 => t
  | n + 1 => (t.interrupts n).interrupt.2

/-- Time passes with the interrupts of a timer, as long as it can tell the time and count them. -/
structure Progresses (t : PeriodicTimer) : Prop where
  positive : ∀ n, .zero < (t.interrupts n).interrupt.1
  advances : ∀ n, n + 1 < UInt64.size → (t.interrupts n).now.nanos.toNat < Saturating.maxWord →
    (t.interrupts n).now < (t.interrupts (n + 1)).now

/-- No time passes with the interrupts of a timer. -/
structure StandsStill (t : PeriodicTimer) : Prop where
  empty : ∀ n, (t.interrupts n).interrupt.1 = .zero
  still : ∀ n, (t.interrupts n).now = .zero

/-- Interrupts do nothing to a timer but that they are counted. -/
theorem interrupts_of_running (running : t.running = true) (n : Nat) :
    t.interrupts n = { t with counter := t.counter.increments n } := by
  induction n with
  | zero => rfl
  | succ n ih => rw [interrupts, ih, interrupt, if_pos running, TickCounter.increments]

theorem toNat_now_interrupts (running : t.running = true) (fresh : t.ticks = 0) {n : Nat}
    (few : n < UInt64.size) :
    (t.interrupts n).now.nanos.toNat = min (n * t.nanosPerTick.toNat) Saturating.maxWord := by
  rw [interrupts_of_running running]
  have shown := TickCounter.toNat_now_increments fresh n
  rw [Nat.mod_eq_of_lt few] at shown
  exact shown

theorem nanosPerTick_interrupts (running : t.running = true) (n : Nat) :
    (t.interrupts n).nanosPerTick = t.nanosPerTick := by
  rw [interrupts_of_running running, TickCounter.increments_eq]
  rfl

/-- An interrupt of a timer that runs takes the time of a tick. -/
theorem interrupt_interrupts (running : t.running = true) (n : Nat) :
    (t.interrupts n).interrupt.1 = ⟨t.nanosPerTick⟩ := by
  have runs : (t.interrupts n).running = true := by
    rw [interrupts_of_running running]
    exact running
  rw [interrupt, if_pos runs]
  exact congrArg Duration.mk (nanosPerTick_interrupts running n)

/-- Time passes with a timer that was started at a rate that has a beat. -/
theorem progresses_of_start (started : t.start requested quantum = .ok t')
    (has : HasBeat (t.grantedFrequency requested)) : t'.Progresses := by
  have positive : 0 < t'.nanosPerTick := by
    rw [eq_of_start started]
    exact beat_pos has
  have running : t'.running = true := by rw [eq_of_start started]
  have fresh : t'.ticks = 0 := by rw [eq_of_start started]; rfl
  constructor
  · intro n
    rw [interrupt_interrupts running]
    exact positive
  · intro n few early
    have now := toNat_now_interrupts running fresh (Nat.lt_of_succ_lt few)
    have later := toNat_now_interrupts running fresh few
    rw [now] at early
    rw [Instant.lt_iff, now, later, Nat.succ_mul]
    have some_time : 0 < t'.nanosPerTick.toNat := positive
    omega

/-- No time passes with a timer that was started at a rate that has no beat. -/
theorem standsStill_of_start (started : t.start requested quantum = .ok t')
    (silent : ¬ HasBeat (t.grantedFrequency requested)) : t'.StandsStill := by
  have length : t'.nanosPerTick = 0 := by
    rw [eq_of_start started]
    exact beat_eq_zero silent
  have running : t'.running = true := by rw [eq_of_start started]
  constructor
  · intro n
    rw [interrupt_interrupts running, length]
    rfl
  · intro n
    apply Instant.ext
    apply UInt64.toNat_inj.mp
    rw [toNat_now, nanosPerTick_interrupts running, length]
    simp [Instant.zero]

end PeriodicTimer

/-! ### Sleep -/

/-- A kernel whose timer is granted a rate, and runs at this rate once scheduling has begun. -/
structure Kernel.Beats (k : Kernel) (granted : UInt64) : Prop where
  rate : k.timer.grantedFrequency k.config.tickFrequency = granted
  runs : k.initialized = true → k.timer.running = true ∧ k.timer.frequency = granted

namespace Kernel.Beats

variable {k : Kernel} {granted : UInt64} {x : Moment} {course : Course}

theorem nanosPerTick (h : k.Beats granted) (begun : k.initialized = true) :
    k.timer.nanosPerTick = PeriodicTimer.beat granted :=
  k.timer.counter.agrees.trans (congrArg (nanosPerSecond / ·) (h.runs begun).2)

/-- The pace is kept by whatever leaves the timer to the scheduler. -/
theorem step (h : x.before.Beats granted) (takes : x.Takes course) (clocks : x.Clocks) :
    x.after.Beats granted := by
  refine ⟨(takes.rate_after clocks).trans h.rate, fun begun => ?_⟩
  cases clocks with
  | kept _ began timer => exact timer ▸ h.runs (began ▸ begun)
  | ticked timed _ timer =>
    obtain ⟨runs, frequency⟩ := h.runs timed.1
    rw [timer, PeriodicTimer.interrupt, if_pos runs]
    exact ⟨runs, frequency⟩
  | began _ _ started =>
    rw [PeriodicTimer.eq_of_start started]
    exact ⟨rfl, h.rate⟩
  | abandoned _ still => cases still.symm.trans begun

/-- A tick that keeps the time takes one beat, and nothing else takes any time. -/
theorem now_after (h : x.before.Beats granted) (clocks : x.Clocks) :
    x.after.sleeping.now =
      if x.KeepsTime then x.before.sleeping.now + Duration.mk (PeriodicTimer.beat granted)
      else x.before.sleeping.now := by
  have untimed (fresh : x.before.initialized = false) : ¬ x.KeepsTime :=
    fun timed => Bool.false_ne_true (fresh.symm.trans timed.1)
  cases clocks with
  | kept untimed _ _ now => rw [if_neg untimed, now]
  | ticked timed _ _ now =>
    rw [if_pos timed, now, PeriodicTimer.interrupt, if_pos (h.runs timed.1).1]
    exact congrArg (fun length => x.before.sleeping.now + Duration.mk length)
      (h.nanosPerTick timed.1)
  | began fresh _ _ now | abandoned fresh _ _ _ now => rw [if_neg (untimed fresh), now]

/-- If the ticks take no time, none passes. -/
theorem now_after_of_silent (h : x.before.Beats granted) (silent : ¬ PeriodicTimer.HasBeat granted)
    (clocks : x.Clocks) : x.after.sleeping.now = x.before.sleeping.now := by
  rw [h.now_after clocks, PeriodicTimer.beat_eq_zero silent]
  split
  · apply Instant.ext
    apply UInt64.toNat_inj.mp
    rw [Instant.toNat_add]
    exact Nat.min_eq_left (Saturating.toNat_le_maxWord _)
  · rfl

end Kernel.Beats

namespace Duration

variable {length : UInt64} {span : Duration}

/-- A span that is no longer than a tick is used up by one. -/
theorem ticks_eq_one (some_time : span ≠ .zero) (short : span ≤ ⟨length⟩) :
    span.ticks length = 1 := by
  have positive : span.nanos.toNat ≠ 0 := mt Duration.eq_zero_iff.mpr some_time
  have bound : span.nanos.toNat ≤ length.toNat := Duration.le_iff.mp short
  rw [ticks, Nat.div_eq_iff (by omega)]
  omega

/-- A span that is longer than a tick is used up by one more than what is left of it. -/
theorem ticks_sub (positive : 0 < length) (long : ⟨length⟩ < span) :
    span.ticks length = (span - ⟨length⟩).ticks length + 1 := by
  have some_length : 0 < length.toNat := positive
  have bound : length.toNat < span.nanos.toNat := Duration.lt_iff.mp long
  rw [ticks, ticks, Duration.toNat_sub, ← Nat.add_div_right _ some_length]
  congr 1
  dsimp only
  omega

theorem ticks_pos (positive : 0 < length) (some_time : span ≠ .zero) : 0 < span.ticks length := by
  rw [lt_ticks_iff positive, Nat.zero_mul]
  exact Nat.pos_of_ne_zero (mt Duration.eq_zero_iff.mpr some_time)

end Duration

namespace Instant

variable {now wake : Instant} {length : Duration}

theorem lt_since_of_add_lt (early : now + length < wake) : length < wake.since now := by
  have bound := lt_iff.mp early
  have most := Saturating.toNat_le_maxWord wake.nanos
  rw [toNat_add] at bound
  rw [Duration.lt_iff, toNat_since]
  omega

/-- The wait for a moment that is still to come is shorter by what has passed. -/
theorem since_add (early : now + length < wake) :
    wake.since (now + length) = wake.since now - length := by
  have bound := lt_iff.mp early
  have most := Saturating.toNat_le_maxWord wake.nanos
  rw [toNat_add] at bound
  apply Duration.ext
  apply UInt64.toNat_inj.mp
  rw [toNat_since, toNat_add, Duration.toNat_sub, toNat_since]
  omega

theorem since_le_of_not_lt (late : ¬ now + length < wake) : wake.since now ≤ length := by
  have bound := Nat.le_of_not_lt (mt lt_iff.mpr late)
  have most := Saturating.toNat_le_maxWord wake.nanos
  rw [toNat_add] at bound
  rw [Duration.le_iff, toNat_since]
  omega

end Instant

/-- Some time is left to whoever sleeps. -/
theorem Kernel.SleepsUntil.since_ne_zero {k : Kernel} {t : ThreadId} {wake : Instant}
    (h : k.SleepsUntil t wake) (punctual : k.sleeping.Punctual) :
    wake.since k.sleeping.now ≠ .zero := by
  have early := Instant.lt_iff.mp (punctual.now_lt_of_mem h.mem)
  rw [Ne, Duration.eq_zero_iff, Instant.toNat_since]
  omega

namespace Kernel.Beats

variable {granted : UInt64} {x : Moment} {wake : Instant}

/-- A tick of processor 0 takes one off the ticks that are left until a moment. -/
theorem ticks_left (h : x.before.Beats granted) (has : PeriodicTimer.HasBeat granted)
    (clocks : x.Clocks) (early : x.after.sleeping.now < wake) :
    (wake.since x.before.sleeping.now).ticks (PeriodicTimer.beat granted) =
      (wake.since x.after.sleeping.now).ticks (PeriodicTimer.beat granted) +
        if x.KeepsTime then 1 else 0 := by
  have now := h.now_after clocks
  rw [now] at early ⊢
  by_cases timed : x.KeepsTime
  · rw [if_pos timed] at early
    rw [if_pos timed, if_pos timed, Instant.since_add early]
    exact Duration.ticks_sub (PeriodicTimer.beat_pos has) (Instant.lt_since_of_add_lt early)
  · rw [if_neg timed, if_neg timed, Nat.add_zero]

/-- The tick that brings a moment is the only one that was left until then. -/
theorem ticks_left_of_timed (h : x.before.Beats granted) (clocks : x.Clocks) (timed : x.KeepsTime)
    (some_left : wake.since x.before.sleeping.now ≠ .zero)
    (late : ¬ x.after.sleeping.now < wake) :
    (wake.since x.before.sleeping.now).ticks (PeriodicTimer.beat granted) = 1 := by
  rw [h.now_after clocks, if_pos timed] at late
  exact Duration.ticks_eq_one some_left (Instant.since_le_of_not_lt late)

end Kernel.Beats

/-- A tick of processor 0 ends the sleep of a thread. -/
structure Moment.EndsSleep (x : Moment) (t : ThreadId) : Prop where
  timed : x.KeepsTime
  off : t ∉ x.after.sleeping.threads
  awake : x.after.stateOf? t = some .ready ∨ x.after.stateOf? t = some .running

namespace Machine

variable {m : Machine} {requests : List Request} {granted : UInt64} {t : ThreadId} {wake : Instant}

theorem ticksKept_cons (x : Moment) (later : List Moment) :
    ticksKept (x :: later) = ticksKept later + if x.KeepsTime then 1 else 0 := by
  simp [ticksKept, List.countP_cons]

/-- One operation keeps the pace. -/
theorem beats_moment (reached : m.kernel.Reachable) (beats : m.kernel.Beats granted)
    (request : Request) (waits : ¬ request.operation.DrivesTimer) :
    (m.moment request).after.Beats granted ∧ (m.moment request).Clocks := by
  obtain ⟨course, takes⟩ := exists_course reached request
  have clocks := takes.clocks waits (granted_of_keepsTime reached)
  exact ⟨Kernel.Beats.step (x := m.moment request) beats takes clocks, clocks⟩

/-- A sleeping thread is woken by the tick at which its time is up. -/
theorem endsSleep_of_ticks (reached : m.kernel.Reachable) (beats : m.kernel.Beats granted)
    (has : PeriodicTimer.HasBeat granted) (asleep : m.kernel.SleepsUntil t wake)
    (waits : ∀ request ∈ requests, ¬ request.operation.DrivesTimer)
    (lives : ∀ x ∈ m.history requests, ¬ x.Ends t)
    (enough : (wake.since m.kernel.sleeping.now).ticks (PeriodicTimer.beat granted) ≤
      ticksKept (m.history requests)) :
    ∃ past x future, m.history requests = past ++ x :: future ∧ x.EndsSleep t ∧
      ticksKept past + 1 =
        (wake.since m.kernel.sleeping.now).ticks (PeriodicTimer.beat granted) := by
  have positive := PeriodicTimer.beat_pos has
  induction requests generalizing m with
  | nil =>
    have some_left := asleep.since_ne_zero reached.punctual
    exact absurd enough (Nat.not_le.mpr (Duration.ticks_pos positive some_left))
  | cons request rest ih =>
    obtain ⟨course, takes⟩ := exists_course reached request
    obtain ⟨lives_first, lives_later⟩ := List.forall_mem_cons.mp lives
    obtain ⟨first, later⟩ := List.forall_mem_cons.mp waits
    obtain ⟨beats', clocks⟩ := beats_moment reached beats request first
    have letsSleep := takes.letsSleep reached.punctual asleep lives_first
    by_cases early : (m.moment request).after.sleeping.now < wake
    · have left := Kernel.Beats.ticks_left (x := m.moment request) beats has clocks early
      change (wake.since m.kernel.sleeping.now).ticks _ = _ at left
      rw [history, ticksKept_cons, left] at enough
      have next := reached.step request.cpu request.operation
      obtain ⟨past, x, future, split, ends, count⟩ := ih next beats' (letsSleep.sleeps early) later
        lives_later (Nat.le_of_add_le_add_right enough)
      refine ⟨m.moment request :: past, x, future, by rw [history, split]; rfl, ends, ?_⟩
      rw [ticksKept_cons, left, Nat.add_right_comm, count]
      rfl
    · obtain ⟨ticks, first_cpu, off, awake⟩ := letsSleep.wakes early
      have known := Option.isSome_map.symm.trans (congrArg Option.isSome asleep.asleep)
      have timed : (m.moment request).KeepsTime :=
        ⟨reached.regular.begun_of_known known, ticks, first_cpu⟩
      have left := Kernel.Beats.ticks_left_of_timed (x := m.moment request) beats clocks timed
        (asleep.since_ne_zero reached.punctual) early
      exact ⟨[], m.moment request, _, rfl, ⟨timed, off, awake⟩, left.symm⟩

/-- If no time passes, whoever sleeps goes on sleeping. -/
theorem sleepsUntil_of_silent (reached : m.kernel.Reachable) (beats : m.kernel.Beats granted)
    (silent : ¬ PeriodicTimer.HasBeat granted) (asleep : m.kernel.SleepsUntil t wake)
    (waits : ∀ request ∈ requests, ¬ request.operation.DrivesTimer)
    (lives : ∀ x ∈ m.history requests, ¬ x.Ends t) :
    (m.run requests).kernel.SleepsUntil t wake := by
  induction requests generalizing m with
  | nil => exact asleep
  | cons request rest ih =>
    obtain ⟨course, takes⟩ := exists_course reached request
    obtain ⟨lives_first, lives_later⟩ := List.forall_mem_cons.mp lives
    obtain ⟨first, later⟩ := List.forall_mem_cons.mp waits
    obtain ⟨beats', clocks⟩ := beats_moment reached beats request first
    have now := Kernel.Beats.now_after_of_silent (x := m.moment request) beats silent clocks
    have early : (m.moment request).after.sleeping.now < wake := by
      rw [now]
      exact reached.punctual.now_lt_of_mem asleep.mem
    have still := (takes.letsSleep reached.punctual asleep lives_first).sleeps early
    exact ih (reached.step request.cpu request.operation) beats' still later lives_later

end Machine

/-! ### Time slices -/

/-- An operation leaves a thread its processor, however long its ticks are: the thread does not end,
and the processor executes nothing that reschedules it but ticks that wake nobody who outranks the
thread. -/
structure Moment.LeavesAlone (x : Moment) (c : Nat) (t : ThreadId) : Prop where
  lives : ¬ x.Ends t
  rests : x.cpu = c → x.operation ≠ .tick → x.Rests
  unrivalled : x.IsTickOf c → ∀ s ∈ x.before.roused c, ¬ x.before.Outranks s t

namespace Machine

variable {m : Machine} {requests : List Request} {granted : UInt64} {c : Nat} {t : ThreadId}

/-- A run keeps the pace. -/
theorem beats_run (reached : m.kernel.Reachable) (beats : m.kernel.Beats granted)
    (waits : ∀ request ∈ requests, ¬ request.operation.DrivesTimer) :
    (m.run requests).kernel.Beats granted := by
  induction requests generalizing m with
  | nil => exact beats
  | cons request rest ih =>
    obtain ⟨first, later⟩ := List.forall_mem_cons.mp waits
    exact ih (reached.step request.cpu request.operation)
      (beats_moment reached beats request first).1 later

/-- Scheduling does not end by a run. -/
theorem begun_run (reached : m.kernel.Reachable) (begun : m.kernel.initialized = true) :
    (m.run requests).kernel.initialized = true := by
  induction requests generalizing m with
  | nil => exact begun
  | cons request rest ih =>
    obtain ⟨course, takes⟩ := exists_course reached request
    exact ih (reached.step request.cpu request.operation) (takes.begun_after begun)

/-- A thread that is left alone is not disturbed by ticks of one beat. -/
theorem undisturbed_of_beats (reached : m.kernel.Reachable) (beats : m.kernel.Beats granted)
    (begun : m.kernel.initialized = true)
    (waits : ∀ request ∈ requests, ¬ request.operation.DrivesTimer)
    (alone : ∀ x ∈ m.history requests, x.LeavesAlone c t) :
    ∀ x ∈ m.history requests, x.Undisturbed c t (PeriodicTimer.beat granted) := by
  intro x member
  have left := alone x member
  refine ⟨left.lives, left.rests, fun _ => ?_, left.unrivalled⟩
  obtain ⟨past, request, future, rfl, rfl⟩ := exists_run_of_mem_history member
  have begun' : (m.run past).kernel.initialized = true := begun_run reached begun
  have beats' := beats_run reached beats (List.forall_mem_append.mp waits).1
  exact ⟨(beats'.runs begun').1, beats'.nanosPerTick begun'⟩

/-! ### Whole runs -/

/-- Time passes for whoever sleeps or runs. -/
structure TimePasses (m : Machine) (length : UInt64) : Prop where
  /-- A sleeping thread is woken by the tick at which its time is up. -/
  wakes : ∀ t wake requests, m.kernel.SleepsUntil t wake →
    (∀ request ∈ requests, ¬ request.operation.DrivesTimer) →
    (∀ x ∈ m.history requests, ¬ x.Ends t) →
    (wake.since m.kernel.sleeping.now).ticks length ≤ ticksKept (m.history requests) →
    ∃ past x future, m.history requests = past ++ x :: future ∧ x.EndsSleep t ∧
      ticksKept past + 1 = (wake.since m.kernel.sleeping.now).ticks length
  /-- A thread that is left alone shares its processor at the tick that uses up the quantum. -/
  shares : ∀ c t requests, m.kernel.BeginsSlice c t →
    (∀ request ∈ requests, ¬ request.operation.DrivesTimer) →
    (∀ x ∈ m.history requests, x.LeavesAlone c t) →
    Moment.ticksOn c (m.history requests) + 1 = m.kernel.config.quantum.ticks length →
    ((m.run requests).kernel.Rivalled c t →
        ((m.run requests).moment ⟨c, .tick⟩).PassesOn c t) ∧
      (¬ (m.run requests).kernel.Rivalled c t →
        ((m.run requests).following ⟨c, .tick⟩).kernel.BeginsSlice c t)

/-- No time passes, whoever waits for it. -/
structure TimeStandsStill (m : Machine) : Prop where
  /-- Nobody who sleeps is woken. -/
  sleeps : ∀ t wake requests, m.kernel.SleepsUntil t wake →
    (∀ request ∈ requests, ¬ request.operation.DrivesTimer) →
    (∀ x ∈ m.history requests, ¬ x.Ends t) →
    (m.run requests).kernel.SleepsUntil t wake
  /-- A thread that is left alone uses up nothing of its quantum. -/
  keeps : ∀ c t requests, m.kernel.BeginsSlice c t →
    (∀ request ∈ requests, ¬ request.operation.DrivesTimer) →
    (∀ x ∈ m.history requests, x.LeavesAlone c t) →
    (m.run requests).kernel.BeginsSlice c t

theorem begun_of_begins (reached : m.kernel.Reachable) (begins : m.kernel.BeginsSlice c t) :
    m.kernel.initialized = true :=
  reached.regular.begun_of_known (reached.regular.isSome_of_running begins.runs)

theorem timePasses_of_beats (reached : m.kernel.Reachable) (beats : m.kernel.Beats granted)
    (has : PeriodicTimer.HasBeat granted) : m.TimePasses (PeriodicTimer.beat granted) where
  wakes _ _ _ asleep waits lives enough :=
    endsSleep_of_ticks reached beats has asleep waits lives enough
  shares c t requests begins waits alone last := by
    have begun := begun_of_begins reached begins
    have begun' : (m.run requests).kernel.initialized = true := begun_run reached begun
    have beats' := beats_run reached beats waits
    exact expires_of_begins reached begins (PeriodicTimer.beat_pos has)
      (undisturbed_of_beats reached beats begun waits alone) last (beats'.runs begun').1
      (beats'.nanosPerTick begun')

theorem timeStandsStill_of_beats (reached : m.kernel.Reachable) (beats : m.kernel.Beats granted)
    (silent : ¬ PeriodicTimer.HasBeat granted) : m.TimeStandsStill where
  sleeps _ _ _ asleep waits lives := sleepsUntil_of_silent reached beats silent asleep waits lives
  keeps c t requests begins waits alone := by
    have begun := begun_of_begins reached begins
    have undisturbed := undisturbed_of_beats reached beats begun waits alone
    have positive : m.kernel.config.quantum.nanos.toNat ≠ 0 :=
      mt Duration.eq_zero_iff.mpr reached.quantum_ne_zero
    have active := reached.regular.active_of_running begins.runs begins.busy begins.alive
    have has : m.kernel.HasLeft c t m.kernel.config.quantum.nanos.toNat :=
      ⟨begins.runs, active, by rw [begins.full]⟩
    rw [PeriodicTimer.beat_eq_zero silent] at undisturbed
    have left := hasLeft_run reached has undisturbed
      (by simpa [Nat.pos_iff_ne_zero] using positive)
    refine ⟨left.runs, left.active.busy, ?_, ?_⟩
    · rw [left.active.running]
      exact nofun
    · apply Duration.ext
      apply UInt64.toNat_inj.mp
      rw [left.slice, m.config_run]
      simp

end Machine

/-- What a timer does that is started at a rate, by itself and with a scheduler that nobody but the
scheduler drives it for. -/
structure PeriodicTimer.Drives (timer : PeriodicTimer) (requested : UInt64)
    (Runs : PeriodicTimer → Prop) (Serves : Machine → Prop) : Prop where
  alone : ∀ quantum started, timer.start requested quantum = .ok started → Runs started
  scheduling : ∀ config heap (m : Machine) requests, config.tickFrequency = requested →
    Kernel.ofConfig config timer heap = .ok m.kernel →
    (∀ request ∈ requests, ¬ request.operation.DrivesTimer) → Serves (m.run requests)

namespace Machine

variable {m : Machine} {config : Config} {timer : PeriodicTimer} {heap : Heap}

/-- The timer of a new kernel is granted the configured rate, as far as its source goes. -/
theorem beats_of_ofConfig (made : Kernel.ofConfig config timer heap = .ok m.kernel) :
    m.kernel.Beats (timer.grantedFrequency config.tickFrequency) := by
  obtain ⟨_, new⟩ := Kernel.eq_of_ofConfig made
  rw [new]
  exact ⟨rfl, nofun⟩

/-- Time passes if ticks come at a rate that has a beat; otherwise it never does. -/
theorem timePasses (timer : PeriodicTimer) (requested : UInt64) :
    let granted := timer.grantedFrequency requested
    if PeriodicTimer.HasBeat granted then
      timer.Drives requested PeriodicTimer.Progresses (TimePasses · (PeriodicTimer.beat granted))
    else timer.Drives requested PeriodicTimer.StandsStill TimeStandsStill := by
  intro granted
  split
  · refine ⟨fun _ _ started => PeriodicTimer.progresses_of_start started ‹_›, ?_⟩
    rintro config heap m requests rfl made waits
    have reached : m.kernel.Reachable := .new made
    exact timePasses_of_beats (reached.run requests)
      (beats_run reached (beats_of_ofConfig made) waits) ‹_›
  · refine ⟨fun _ _ started => PeriodicTimer.standsStill_of_start started ‹_›, ?_⟩
    rintro config heap m requests rfl made waits
    have reached : m.kernel.Reachable := .new made
    exact timeStandsStill_of_beats (reached.run requests)
      (beats_run reached (beats_of_ofConfig made) waits) ‹_›

/-- A run at the end of which thread 1 goes to sleep for two ticks. -/
def twoTickSleep : List Request := contention ++ [⟨0, .sleepFor ⟨2000000⟩⟩]

/-- The second tick wakes thread 1. -/
theorem timePasses_of_twoTickSleep :
    PeriodicTimer.beat (PeriodicTimer.pit.grantedFrequency 1000) = 1000000 ∧
      (twoProcessors.run twoTickSleep).kernel.SleepsUntil (.ofIndex 0) ⟨2000000⟩ ∧
      (twoProcessors.run twoTickSleep).TimePasses 1000000 ∧
      ∃ past x future,
        (twoProcessors.run twoTickSleep).history [⟨0, .tick⟩, ⟨0, .tick⟩] = past ++ x :: future ∧
          x.EndsSleep (.ofIndex 0) ∧ ticksKept past + 1 = 2 := by
  have beat : PeriodicTimer.beat (PeriodicTimer.pit.grantedFrequency 1000) = 1000000 := by decide
  have drives := timePasses .pit 1000
  rw [if_pos (by decide)] at drives
  have passes := drives.scheduling { cpus := 2 } {} twoProcessors twoTickSleep rfl
    twoProcessors_made
    (by decide)
  rw [beat] at passes
  have asleep : (twoProcessors.run twoTickSleep).kernel.SleepsUntil (.ofIndex 0) ⟨2000000⟩ := by
    decide +kernel
  have left : ((⟨2000000⟩ : Instant).since
      (twoProcessors.run twoTickSleep).kernel.sleeping.now).ticks 1000000 = 2 := by
    decide +kernel
  have wakes := passes.wakes (.ofIndex 0) ⟨2000000⟩ [⟨0, .tick⟩, ⟨0, .tick⟩] asleep (by decide)
    (by decide +kernel) (by decide +kernel)
  rw [left] at wakes
  exact ⟨beat, asleep, passes, wakes⟩

/-- A machine with a timer whose source never oscillates. -/
def sourceless : Machine where
  kernel :=
    (Kernel.ofConfig { cpus := 2 } { name := "test", sourceFrequency := 0 }
      {}).toOption.getD default

theorem sourceless_made :
    Kernel.ofConfig { cpus := 2 } { name := "test", sourceFrequency := 0 } {} =
      .ok sourceless.kernel :=
  rfl

/-- A timer whose source oscillates twice in a nanosecond. -/
def doubleRate : PeriodicTimer := { name := "test", sourceFrequency := 2000000000 }

/-- Thread 1 goes to sleep for a nanosecond. -/
def briefNap : List Request := [⟨0, .init 16 none⟩, ⟨0, .sleepFor ⟨1⟩⟩]

/-- A timer starts at the rate of a source that never oscillates, or oscillates twice in a
nanosecond, and then no time passes with its interrupts. Whoever sleeps for a nanosecond is never
woken. -/
theorem timeStandsStill_of_sourceless :
    (∃ started, sourceless.kernel.timer.start 1000 ⟨50000000⟩ = .ok started ∧
        started.running = true ∧ started.interrupt.1 = .zero ∧ started.StandsStill) ∧
      (∃ started, doubleRate.start 2000000000 ⟨50000000⟩ = .ok started ∧
          started.running = true ∧ started.interrupt.1 = .zero ∧ started.StandsStill) ∧
      (sourceless.run briefNap).kernel.SleepsUntil (.ofIndex 0) ⟨1⟩ ∧
      (sourceless.run briefNap).TimeStandsStill := by
  obtain ⟨slow, slow_started⟩ :
      ∃ started, sourceless.kernel.timer.start 1000 ⟨50000000⟩ = .ok started := ⟨_, rfl⟩
  obtain ⟨fast, fast_started⟩ :
      ∃ started, doubleRate.start 2000000000 ⟨50000000⟩ = .ok started := ⟨_, rfl⟩
  have slow_stands := PeriodicTimer.standsStill_of_start slow_started (by decide)
  have fast_stands := PeriodicTimer.standsStill_of_start fast_started (by decide)
  refine ⟨⟨slow, slow_started, ?_, slow_stands.empty 0, slow_stands⟩,
    ⟨fast, fast_started, ?_, fast_stands.empty 0, fast_stands⟩, by decide +kernel, ?_⟩
  · rw [PeriodicTimer.eq_of_start slow_started]
  · rw [PeriodicTimer.eq_of_start fast_started]
  · have reached : sourceless.kernel.Reachable := .new sourceless_made
    have beats := beats_of_ofConfig sourceless_made
    have waits : ∀ request ∈ briefNap, ¬ request.operation.DrivesTimer := by decide
    exact timeStandsStill_of_beats (reached.run _) (beats_run reached beats waits) (by decide)

end Machine

end ThreadScheduler
